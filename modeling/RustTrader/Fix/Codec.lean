import RustTrader.EngineView
import RustTrader.Fix.Frame

/-!
# Messages

`fix/codec.rs`: the fields of the messages that are sent, and the validation and
decoding of those that arrive. The clock, the stamp of generated identifiers and
the parsers of decimals and of timestamps come from outside the repository.
-/

namespace RustTrader.Fix

open Decimal

/-- The parser of times: a value under a format. -/
class Chrono where
  parse : String → String → Option Int

variable {D : Type} [Decimal D] [DecimalText D]

def fixDecimal (d : D) : String := display d

/-- A printable text as it is shown in an error. -/
def debugText (s : String) : String :=
  "\"" ++ String.ofList (s.toList.flatMap fun c =>
    if c = '"' ∨ c = '\\' then ['\\', c] else [c]) ++ "\""

def stripMinus : List Char → List Char
  | '-' :: digits => digits
  | digits => digits

def parseDecimal (s : String) : Except String D :=
  let digits := stripMinus s.toList
  if digits.isEmpty || !digits.any Char.isDigit || 1 < digits.count '.' ||
      !digits.all (fun c => c.isDigit || c == '.') then
    .error ("invalid FIX decimal " ++ debugText s)
  else match DecimalText.parse s with
    | .ok d => .ok d
    | .error err => .error ("bad decimal " ++ debugText s ++ ": " ++ err)

def sideToFix : Side → String
  | .buy => "1"
  | .sell => "2"

def sideFromFix (s : String) : Except String Side :=
  if s = "1" then .ok .buy
  else if s = "2" then .ok .sell
  else .error ("unsupported side " ++ s)

def ordStatusToFix : OrderState → String
  | .booked | .new => "0"
  | .partialFill => "1"
  | .filled => "2"
  | .cancelled => "4"
  | .rejected => "8"
  | .expired => "C"

def ordStatusFromFix (s : String) : Except String OrderState :=
  if s = "0" ∨ s = "5" then .ok .booked
  else if s = "1" then .ok .partialFill
  else if s = "2" then .ok .filled
  else if s = "4" then .ok .cancelled
  else if s = "8" then .ok .rejected
  else if s = "C" then .ok .expired
  else .error ("unsupported order status " ++ s)

def ordTypeToFix : OrderType → String
  | .limit => "2"
  | .market => "1"

def execTypeToFix : ExecType → String
  | .new => "0"
  | .partialFill => "1"
  | .fill => "2"
  | .cancelled => "4"
  | .replaced => "5"
  | .rejected => "8"
  | .expired => "C"

/-- A generated identifier, with the time in microseconds and a counter. -/
def messageIdentifier (start : String) (micros : Int) (next : Nat) : String :=
  start ++ "-" ++ toString micros ++ "-" ++ next.repr

abbrev Fields := List (Nat × String)

def buildLogon (heartBtInt : Nat) : Fields := [(98, "0"), (108, heartBtInt.repr)]

def buildHeartbeat : Option String → Fields
  | some testReqId => [(112, testReqId)]
  | none => []

def buildTestRequest (reqId : String) : Fields := [(112, reqId)]

def buildNewOrderSingle (now clOrdId symbol : String) (side : Side) (orderType : OrderType)
    (price quantity : D) : Fields :=
  [(11, clOrdId), (21, "1"), (55, symbol), (54, sideToFix side), (60, now),
    (40, ordTypeToFix orderType), (38, fixDecimal quantity)] ++
  if orderType = .limit then [(44, fixDecimal price)] else []

def buildCancelRequest (now origClOrdId clOrdId symbol : String) (side : Side) : Fields :=
  [(41, origClOrdId), (11, clOrdId), (55, symbol), (54, sideToFix side), (60, now)]

def buildCancelReplace (now origClOrdId clOrdId symbol : String) (side : Side)
    (price quantity : D) : Fields :=
  [(41, origClOrdId), (11, clOrdId), (21, "1"), (55, symbol), (54, sideToFix side), (60, now),
    (40, "2"), (38, fixDecimal quantity), (44, fixDecimal price)]

def buildMassQuote (quoteId symbol : String) (bidPrice bidQuantity askPrice askQuantity : D) :
    Fields :=
  [(117, quoteId), (296, "1"), (302, "1"), (311, symbol), (304, "1"), (295, "1"), (299, symbol),
    (55, symbol), (132, fixDecimal bidPrice), (133, fixDecimal askPrice),
    (134, fixDecimal bidQuantity), (135, fixDecimal askQuantity)]

/-- The event a report tells of. -/
def eventOf : Report D → ExecType
  | .status _ _ _ _ execType _ => execType
  | .fill order .. => if order.remaining = 0 then .fill else .partialFill

def clOrdIdOf : Report D → OrderId
  | .status _ _ clOrdId .. => clOrdId
  | .fill order .. => order.id

def origClOrdIdOf : Report D → Option OrderId
  | .status _ _ _ _ _ orig => orig
  | .fill _ _ _ _ _ orig => orig

def symbolOf : Report D → String
  | .status _ symbol .. => symbol
  | .fill _ symbol .. => symbol

def execIdOf : Report D → String
  | .status _ _ _ execId .. => execId
  | .fill _ _ _ _ execId _ => execId

/-- Price and quantity of the fill, zero where there is none. -/
def lastOf : Report D → D × D
  | .status .. => (0, 0)
  | .fill _ _ lastPrice lastQuantity .. => (lastPrice, lastQuantity)

/-- The status of a replacement without executions is its event. -/
def statusText (event : ExecType) (order : Order D) : String :=
  if execTypeToFix event = "5" ∧ order.cumQuantity = 0 then "5" else ordStatusToFix order.state

def buildExecutionReport (now : String) (report : Report D) : Fields :=
  let order := report.order
  let (lastPrice, lastQuantity) := lastOf report
  [(37, order.exchangeId), (17, execIdOf report), (20, "0"),
    (150, execTypeToFix (eventOf report)), (39, statusText (eventOf report) order),
    (55, symbolOf report), (54, sideToFix order.side), (38, fixDecimal order.quantity),
    (40, ordTypeToFix order.orderType),
    (151, fixDecimal (if order.state.isActive then order.remaining else 0)),
    (14, fixDecimal order.cumQuantity), (6, fixDecimal order.avgPrice), (60, now)] ++
  (if clOrdIdOf report ≠ 0 then [(11, toString (clOrdIdOf report))] else []) ++
  ((origClOrdIdOf report).toList.map fun original => (41, toString original)) ++
  (if order.orderType = .limit then [(44, fixDecimal order.price)] else []) ++
  [(31, fixDecimal lastPrice), (32, fixDecimal lastQuantity)]

def buildMassQuoteAck (quoteId : String) : Fields := [(297, "0"), (117, quoteId)]

structure ExecReportData (D : Type) where
  exchangeId : String
  clOrdId : String
  origClOrdId : Option String
  symbol : String
  state : OrderState
  isFill : Bool
  side : Side
  price : D
  quantity : D
  remaining : D
  lastPrice : D
  lastQuantity : D
  deriving DecidableEq

inductive Inbound (D : Type) where
  | logon (heartBtInt : Nat)
  | logout
  | heartbeat
  | testRequest (testReqId : String)
  | resendRequest
  | sequenceReset (newSeqNo : Nat) (gapFill : Bool)
  | sessionReject (reason : String)
  | newOrderSingle (clOrdId symbol : String) (side : Side) (orderType : OrderType)
      (price quantity : D)
  | cancelRequest (clOrdId origClOrdId symbol : String) (side : Side)
  | cancelReplace (clOrdId origClOrdId symbol : String) (side : Side) (orderType : OrderType)
      (price quantity : D)
  | cancelReject (clOrdId origClOrdId : String) (state : OrderState) (reason : String)
  | massQuote (quoteId : String) (responseLevel : Nat) (symbol : String)
      (bidPx bidQty offerPx offerQty : D)
  | quoteAcknowledgement (quoteId : Option String) (status reason : String)
  | securityDefinition (reqId symbol : String) (instrumentId : Int)
  | businessReject (reason : String)
  | executionReport (data : ExecReportData D)
  | unsupported (kind : String)
  deriving DecidableEq

def validateTimestamp [Chrono] (value : String) : Except String Unit :=
  if value.utf8ByteSize ≠ 17 ∧ value.utf8ByteSize ≠ 21 then
    .error "FIX 4.2 timestamp requires seconds or milliseconds"
  else
    let format := if value.utf8ByteSize = 17 then "%Y%m%d-%H:%M:%S" else "%Y%m%d-%H:%M:%S%.3f"
    match Chrono.parse value format with
    | some _ => .ok ()
    | none => .error "invalid UTCTimestamp"

/-- The fields outside groups that a message may hold. -/
def scalarFields (kind : String) : List Nat :=
  match kind with
  | "A" => [98, 108, 141, 383]
  | "0" | "1" => [112]
  | "2" => [7, 16]
  | "3" => [45, 371, 372, 373, 58]
  | "4" => [123, 36]
  | "5" => [58]
  | "D" => [
      11, 109, 76, 1, 63, 64, 21, 18, 110, 111, 100, 81, 55, 65, 48, 22, 167, 200, 205, 201,
      202, 206, 231, 223, 207, 106, 107, 140, 54, 114, 60, 38, 152, 40, 44, 99, 15, 376, 377,
      23, 117, 59, 168, 432, 126, 427, 12, 13, 47, 121, 120, 58, 193, 192, 77, 203, 204, 210,
      211, 388, 389, 439, 440]
  | "F" => [
      41, 37, 11, 66, 1, 109, 76, 55, 65, 48, 22, 167, 200, 205, 201, 202, 206, 231, 223,
      207, 106, 107, 54, 60, 38, 152, 376, 377, 58]
  | "G" => [
      37, 109, 76, 41, 11, 66, 1, 63, 64, 21, 18, 110, 111, 100, 55, 65, 48, 22, 167, 200,
      205, 201, 202, 206, 231, 223, 207, 106, 107, 54, 60, 38, 152, 40, 44, 99, 211, 388,
      389, 376, 377, 15, 59, 168, 432, 126, 427, 12, 13, 47, 121, 120, 58, 193, 192, 77, 203,
      204, 210, 114, 439, 440]
  | "8" => [
      37, 198, 11, 41, 109, 76, 66, 17, 20, 19, 150, 39, 103, 378, 1, 63, 64, 55, 65, 48, 22,
      167, 200, 205, 201, 202, 206, 231, 223, 207, 106, 107, 54, 38, 152, 40, 44, 99, 211,
      388, 389, 15, 376, 377, 59, 168, 432, 126, 18, 47, 32, 31, 194, 195, 30, 336, 29, 151,
      14, 6, 424, 425, 426, 427, 75, 60, 113, 12, 13, 381, 119, 120, 155, 156, 21, 110, 111,
      77, 210, 58, 193, 192, 439, 440, 442]
  | "9" => [37, 198, 11, 41, 39, 109, 76, 66, 1, 60, 434, 102, 58]
  | "i" => [131, 117, 301, 293, 294]
  | "b" => [131, 117, 297, 300, 301, 336, 58]
  | "d" => [
      320, 322, 323, 393, 55, 65, 48, 22, 167, 200, 205, 201, 202, 206, 231, 223, 207, 106,
      107, 15, 336, 58]
  | "j" => [45, 372, 379, 380, 58]
  | _ => []

def headerTags : List Nat := [
  35, 49, 56, 115, 128, 34, 50, 142, 57, 143, 116, 144, 129, 145, 43, 97, 52, 122, 347, 369, 370]

def quoteSetFields : List Nat := [
  302, 311, 312, 309, 305, 310, 313, 314, 315, 316, 317, 436, 435, 308, 306, 307, 367, 304, 295]

def quoteEntryFields : List Nat := [
  299, 55, 65, 48, 22, 167, 200, 205, 201, 202, 206, 231, 223, 207, 106, 107, 132, 133, 134, 135,
  62, 188, 190, 189, 191, 60, 336, 64, 40, 193, 192, 15]

/-- Fields whose value may hold separators. -/
def dataFields : List Nat := [89, 90, 91, 93, 95, 96, 212, 213, 445, 446]

def groupFields : List Nat := [
  33, 73, 78, 124, 136, 146, 199, 215, 267, 268, 295, 296, 382, 384, 386, 398, 420, 428]

def validateFieldShape (tag : Nat) (kind : String) : Except String Unit :=
  if dataFields.contains tag || (348 ≤ tag && tag ≤ 365) then
    .error ("unsupported length/data field " ++ tag.repr ++ ": cannot safely skip encoded data")
  else if groupFields.contains tag && !(kind == "i" && (tag == 295 || tag == 296)) then
    .error ("unsupported repeating group " ++ tag.repr ++
      ": group dictionary is not implemented")
  else .ok ()

/-- Where the walk over the fields stands: `quoteScope` is 1 in the quote set
and 2 in the quote entry. -/
structure Scope where
  bodyStarted : Bool
  quoteScope : Nat
  previous : Option Nat
  needsDelimiter : Bool

def Scope.fields (scope : Scope) (kind : String) : List Nat :=
  if scope.quoteScope = 1 then quoteSetFields
  else if scope.quoteScope = 2 then quoteEntryFields
  else scalarFields kind

def scopeField (kind : String) (scope : Scope) (tag : Nat) : Except String Scope := do
  validateFieldShape tag kind
  if headerTags.contains tag then
    if scope.bodyStarted then throw ("header tag " ++ tag.repr ++ " after message body")
    else pure scope
  else
    let scope := { scope with bodyStarted := true }
    if kind = "i" ∧ tag = 296 then
      pure { scope with quoteScope := 1, previous := none, needsDelimiter := true }
    else
      let fields := scope.fields kind
      if scope.needsDelimiter ∧ fields.head? ≠ some tag then
        throw ("missing MassQuote group delimiter " ++ (fields.headD 0).repr)
      else
        let scope := { scope with needsDelimiter := false }
        if 5000 ≤ tag then pure scope
        else match fields.findIdx? (fun known => known == tag) with
          | none => throw ("unsupported tag " ++ tag.repr ++ " in message " ++ kind ++ " scope " ++
              scope.quoteScope.repr)
          | some position =>
            if scope.quoteScope ≠ 0 ∧ scope.previous.any (fun prev => position ≤ prev) then
              throw "MassQuote group fields out of order"
            else
              let scope := if scope.quoteScope ≠ 0 then { scope with previous := some position }
                else scope
              if kind = "i" ∧ tag = 295 then
                pure { scope with quoteScope := 2, previous := none, needsDelimiter := true }
              else pure scope

def validateFieldScopes (tags : List Nat) (kind : String) : Except String Unit := do
  let scope ← tags.foldlM (scopeField kind) ⟨false, 0, none, false⟩
  if scope.needsDelimiter then throw "missing MassQuote group delimiter" else pure ()

/-- The enumerations that are checked. -/
def validEnumeration (tag : Nat) (value : String) : Bool :=
  match tag with
  | 373 => ["0", "1", "2", "3", "4", "5", "6", "7", "8", "9", "10", "11"].contains value
  | 380 => ["0", "1", "2", "3", "4", "5"].contains value
  | 102 => ["0", "1", "2", "3"].contains value
  | 300 => ["1", "2", "3", "4", "5", "6", "7", "8", "9"].contains value
  | _ => true

/-- Each field once, with a value; the result is what was seen. -/
def validateValues : List Nat → Fields → Except String (List Nat)
  | seen, [] => .ok seen
  | seen, (tag, value) :: fields =>
    if seen.contains tag then .error ("duplicate tag " ++ tag.repr)
    else if value = "" then .error ("empty tag " ++ tag.repr)
    else if !validEnumeration tag value then
      .error ("invalid FIX 4.2 enumeration tag " ++ tag.repr)
    else validateValues (tag :: seen) fields

def requiredFields (kind : String) : Option (List Nat) :=
  match kind with
  | "A" => some [98, 108]
  | "0" | "5" => some []
  | "1" => some [112]
  | "2" => some [7, 16]
  | "3" => some [45]
  | "4" => some [36]
  | "D" => some [11, 21, 55, 54, 60, 40, 38]
  | "F" => some [11, 41, 55, 54, 60]
  | "G" => some [11, 41, 21, 55, 54, 60, 40, 38]
  | "8" => some [37, 17, 20, 150, 39, 55, 54, 151, 14, 6]
  | "9" => some [37, 11, 41, 39, 434]
  | "i" => some [117, 296, 302, 311, 304, 295, 299, 55]
  | "b" => some [297]
  | "d" => some [320, 322, 323, 393]
  | "j" => some [372, 380]
  | _ => none

def validateRequired (required seen : List Nat) (kind : String) : Except String Unit :=
  match required.find? (fun tag => !seen.contains tag) with
  | some tag => .error ("missing required tag " ++ tag.repr ++ " in " ++ kind)
  | none => .ok ()

def validateTransactTime [Chrono] (message : FixMessage) : Except String Unit :=
  match message.get 60 with
  | some time => validateTimestamp time
  | none => .ok ()

def validateHandling (message : FixMessage) (kind : String) : Except String Unit :=
  if kind = "D" ∨ kind = "G" then
    if message.get 21 ≠ some "1" then
      .error "only automated private execution HandlInst=1 is supported"
    else if (message.get 59).getD "0" ≠ "0" then .error "only DAY TimeInForce=0 is supported"
    else .ok ()
  else .ok ()

def validateProfile [Chrono] (message : FixMessage) (kind : String) : Except String Unit :=
  match requiredFields kind with
  | none => .ok ()
  | some required => do
    validateFieldScopes (message.fields.map Prod.fst) kind
    let seen ← validateValues [] message.fields
    validateRequired required seen kind
    validateTransactTime message
    validateHandling message kind

namespace FixMessage

variable (message : FixMessage)

def need (tag : Nat) : Except String String :=
  match message.get tag with
  | some value => .ok value
  | none => .error ("missing tag " ++ tag.repr)

def dec (tag : Nat) : Except String D := do
  let value ← message.need tag
  parseDecimal value

def positive (tag : Nat) : Except String D := do
  let value : D ← message.dec tag
  if value ≤ 0 then throw ("tag " ++ tag.repr ++ " must be positive") else pure value

/-- A decimal that may be left out. -/
def optionalDec (tag : Nat) (default : D) : Except String D :=
  match message.get tag with
  | none => .ok default
  | some value => parseDecimal value

def natural (tag : Nat) : Except String Nat := do
  let value ← message.need tag
  if !value.toList.all Char.isDigit then throw ("invalid integer tag " ++ tag.repr)
  else match Numeral.parseUnsigned (2 ^ 64) value with
    | none => throw ("invalid integer tag " ++ tag.repr)
    | some n => pure n

def boolean (tag : Nat) (default : Bool) : Except String Bool :=
  match message.get tag with
  | none => .ok default
  | some value =>
    if value = "Y" then .ok true
    else if value = "N" then .ok false
    else .error ("invalid boolean tag " ++ tag.repr)

def orderType : Except String OrderType := do
  let value ← message.need 40
  if value = "1" then pure .market
  else if value = "2" then pure .limit
  else throw "unsupported OrdType(40)"

def orderPrice (orderType : OrderType) : Except String D :=
  if orderType = .limit then message.positive 44 else message.optionalDec 44 0

def side : Except String Side := do
  let value ← message.need 54
  sideFromFix value

def quoteValue (tag : Nat) : Except String D := do
  let value : D ← message.optionalDec tag 0
  if value < 0 then throw ("negative quote tag " ++ tag.repr) else pure value

end FixMessage

section

variable (message : FixMessage)

def decodeLogon : Except String (Inbound D) := do
  if (← message.need 98) ≠ "0" then throw "only EncryptMethod=0 is supported"
  let _ ← message.boolean 141 false
  let heart ← message.natural 108
  if 2 ^ 32 ≤ heart then throw "invalid HeartBtInt"
  if heart = 0 then throw "HeartBtInt must be positive in this profile"
  pure (.logon heart)

def decodeResendRequest : Except String (Inbound D) := do
  let start ← message.natural 7
  let end_ ← message.natural 16
  if start = 0 ∨ (end_ ≠ 0 ∧ end_ < start) then throw "invalid ResendRequest range"
  pure .resendRequest

def decodeSequenceReset : Except String (Inbound D) := do
  let n ← message.natural 36
  if n = 0 then throw "NewSeqNo must be positive"
  pure (.sequenceReset n (← message.boolean 123 false))

def decodeNewOrderSingle : Except String (Inbound D) := do
  let orderType ← message.orderType
  let clOrdId ← message.need 11
  let symbol ← message.need 55
  let side ← message.side
  let price ← message.orderPrice orderType
  let quantity ← message.positive 38
  pure (.newOrderSingle clOrdId symbol side orderType price quantity)

def decodeCancelRequest : Except String (Inbound D) := do
  if (message.get 38).isSome then
    let _ : D ← message.positive 38
  let clOrdId ← message.need 11
  let origClOrdId ← message.need 41
  let symbol ← message.need 55
  let side ← message.side
  pure (.cancelRequest clOrdId origClOrdId symbol side)

def decodeCancelReplace : Except String (Inbound D) := do
  let orderType ← message.orderType
  let clOrdId ← message.need 11
  let origClOrdId ← message.need 41
  let symbol ← message.need 55
  let side ← message.side
  let price ← message.orderPrice orderType
  let quantity ← message.positive 38
  pure (.cancelReplace clOrdId origClOrdId symbol side orderType price quantity)

def decodeCancelReject : Except String (Inbound D) := do
  if (!(["1", "2"].contains (← message.need 434))) then throw "invalid CxlRejResponseTo"
  let clOrdId ← message.need 11
  let origClOrdId ← message.need 41
  let state ← ordStatusFromFix (← message.need 39)
  pure (.cancelReject clOrdId origClOrdId state ((message.get 58).getD ""))

def responseLevel (value : String) : Except String Nat :=
  if value = "0" then .ok 0
  else if value = "1" then .ok 1
  else if value = "2" then .ok 2
  else .error "invalid QuoteResponseLevel"

def decodeMassQuote : Except String (Inbound D) := do
  let sets ← message.need 296
  let single := "only a single complete quote set and entry is supported"
  if sets ≠ "1" then throw single
  if (← message.need 295) ≠ "1" then throw single
  if (← message.need 304) ≠ "1" then throw single
  let level ← responseLevel ((message.get 301).getD "0")
  let quoteId ← message.need 117
  let symbol ← message.need 55
  let bidPx ← message.quoteValue 132
  let bidQty ← message.quoteValue 134
  let offerPx ← message.quoteValue 133
  let offerQty ← message.quoteValue 135
  pure (.massQuote quoteId level symbol bidPx bidQty offerPx offerQty)

def decodeSecurityDefinition : Except String (Inbound D) := do
  if (← message.need 323) ≠ "4" then
    throw "only SecurityDefinition list responses are supported"
  let _ ← message.natural 393
  let reqId ← message.need 320
  let symbol ← message.need 55
  match Numeral.parseSigned 64 (← message.need 48) with
  | none => throw "invalid SecurityID for supported instrument profile"
  | some instrumentId => pure (.securityDefinition reqId symbol instrumentId)

/-- The price or quantity of a fill is there and positive. -/
def lastField (isFill : Bool) (tag : Nat) : Except String D :=
  if isFill then message.positive tag else message.optionalDec tag 0

/-- The fields of an execution report, its quantity if it is given, and what
was executed. -/
def reportFields : Except String (ExecReportData D × Option D × D) := do
  if (← message.need 20) ≠ "0" then throw "only new execution transactions are supported"
  let execType ← message.need 150
  if (!(["0", "1", "2", "4", "5", "8", "C"].contains execType)) then throw "unsupported ExecType"
  if execType = "5" ∧ (message.get 11).isSome ∧ (message.get 41).isNone then
    throw "replacement missing OrigClOrdID"
  let isFill := ["1", "2"].contains execType
  let cum : D ← message.dec 14
  let remaining : D ← message.dec 151
  let avg : D ← message.dec 6
  if cum < 0 ∨ remaining < 0 ∨ avg < 0 then throw "negative execution aggregate"
  let lastPrice ← lastField message isFill 31
  let lastQuantity ← lastField message isFill 32
  let exchangeId ← message.need 37
  let symbol ← message.need 55
  let state ← ordStatusFromFix (← message.need 39)
  let side ← message.side
  let price ← message.optionalDec 44 0
  let quantity ← match message.get 38 with
    | some value => do
      let quantity : D ← parseDecimal value
      pure (some quantity)
    | none => pure none
  pure (⟨exchangeId, (message.get 11).getD "", message.get 41, symbol, state, isFill, side, price,
    0, remaining, lastPrice, lastQuantity⟩, quantity, cum)

/-- The quantity that stands in for a missing one is added up in any case. -/
def decodeExecutionReport : Exec (Except String (Inbound D)) :=
  match reportFields message with
  | .error err => pure (.error err)
  | .ok (data, quantity, cum) => do
    let whole ← add cum data.remaining
    pure (.ok (.executionReport { data with quantity := quantity.getD whole }))

def decodeQuoteAcknowledgement : Except String (Inbound D) := do
  if (!(["0", "1", "2", "3", "4", "5"].contains (← message.need 297))) then
    throw "invalid QuoteStatus"
  pure (.quoteAcknowledgement (message.get 117) (← message.need 297) ((message.get 58).getD ""))

/-- The kinds whose decoding cannot panic. -/
def decodeRequest (kind : String) : Except String (Inbound D) :=
  match kind with
  | "A" => decodeLogon message
  | "0" => .ok .heartbeat
  | "1" => do
    let testReqId ← message.need 112
    pure (.testRequest testReqId)
  | "2" => decodeResendRequest message
  | "3" => do
    let _ ← message.natural 45
    pure (.sessionReject ((message.get 58).getD ""))
  | "4" => decodeSequenceReset message
  | "5" => .ok .logout
  | "D" => decodeNewOrderSingle message
  | "F" => decodeCancelRequest message
  | "G" => decodeCancelReplace message
  | "9" => decodeCancelReject message
  | "i" => decodeMassQuote message
  | "d" => decodeSecurityDefinition message
  | "j" => do
    let _ ← message.natural 380
    pure (.businessReject ((message.get 58).getD ""))
  | "b" => decodeQuoteAcknowledgement message
  | other => .ok (.unsupported other)

def decode [Chrono] : Exec (Except String (Inbound D)) :=
  match message.msgType with
  | none => pure (.error "missing MsgType(35)")
  | some kind =>
    match validateProfile message kind with
    | .error err => pure (.error err)
    | .ok _ =>
      if kind = "8" then decodeExecutionReport message else pure (decodeRequest message kind)

end

end RustTrader.Fix
