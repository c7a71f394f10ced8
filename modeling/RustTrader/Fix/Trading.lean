import RustTrader.Fix.Lanes

/-!
# A client trades

One client of `fix/session.rs` connected to a session of the exchange: its requests and
the answers travel on lanes of their own, while other sessions trade and days end. The
client can be called while earlier requests are still under way.
-/

namespace RustTrader.Fix

variable {D : Type} [Decimal D]

/-- Commands that are not those of a session. -/
def ByOthers (s : String) : Command D → Prop
  | .createInstrument _ => False
  | .registerSession s' | .sessionDisconnect s' | .createOrder _ s' _
  | .modifyOrderWithType _ s' _ _ _ _ _ | .cancelOrderWithId s' _ _ | .quote s' _ _ _ _ _ => s' ≠ s
  | .expireDayOrdersAt _ => True

/-- The reports of a session between two states of the engine. -/
def newsFor (s : String) (e e' : Engine D) : List (Report D) :=
  (e'.sent.drop e.sent.length).filter fun report => report.order.sessionId = s

/-- `send_session_reject`. -/
def sessionRejectFields (seq : Option Nat) (rejectedType : Option String) (reason : Nat)
    (text : String) : Fields :=
  (seq.toList.map fun n => (45, n.repr)) ++ (rejectedType.toList.map fun kind => (372, kind)) ++
    [(373, reason.repr), (58, text)]

/-- A client and the exchange, with what is between them. -/
structure Trading (D : Type) [Decimal D] where
  client : Initiator D
  requests : Lane D
  engine : Engine D
  ids : WireIdMap
  answers : Lane D

namespace Trading

/-- The state after the Logon of a client on a session that is new to the engine. -/
def start (s client exchange : String) (e : Engine D) : Trading D where
  client := .new true
  requests := .opened client exchange 1
  engine := e.registerSession s
  ids := .new
  answers := .opened exchange client 1

/-- What a client can be asked to do, with the time it is asked. -/
inductive Call (D : Type) where
  | createOrder (now symbol : String) (side : Side) (orderType : OrderType) (price quantity : D)
  | modifyOrder (now : String) (id : OrderId) (price quantity : D)
  | cancelOrder (now : String) (id : OrderId)
  | quote (around : Surroundings) (symbol : String) (bidPrice bidQuantity askPrice askQuantity : D)

namespace Call

def time : Call D → String
  | .createOrder now .. | .modifyOrder now .. | .cancelOrder now _ => now
  | .quote around .. => around.transactTime

/-- What a call leaves of the client and of the queue to its writer. -/
def made (c : Initiator D) (tx : Initiator.Queue D) : Call D → Initiator D × Initiator.Queue D
  | .createOrder now symbol side orderType price quantity =>
    (c.createOrder tx now symbol side orderType price quantity).2
  | .modifyOrder now id price quantity => (c.modifyOrder tx now id price quantity).2
  | .cancelOrder now id => (c.cancelOrder tx now id).2
  | .quote around symbol bidPrice bidQuantity askPrice askQuantity =>
    (c.quote tx around.quoteId symbol bidPrice bidQuantity askPrice askQuantity).2

/-- A call that asks for something the exchange can read. The client itself does not
check this. -/
def Proper : Call D → Prop
  | .createOrder _ symbol _ orderType price quantity =>
    Value symbol ∧ 0 < quantity ∧ (orderType = .limit → 0 < price)
  | .modifyOrder _ _ price quantity => 0 < quantity ∧ 0 < price
  | .cancelOrder .. => True
  | .quote _ symbol bidPrice bidQuantity askPrice askQuantity =>
    Value symbol ∧ 0 ≤ bidPrice ∧ 0 ≤ bidQuantity ∧ 0 ≤ askPrice ∧ 0 ≤ askQuantity

end Call

/-- What a call of the client leaves. -/
def asked (t : Trading D) (outcome : Initiator D × Initiator.Queue D) : Trading D :=
  { t with
    client := outcome.1
    requests := { t.requests with queue := outcome.2 } }

/-- A step of the engine hands its reports to the sink of the session, before anything
else is said. -/
def answered (s : String) (t : Trading D) (e' : Engine D) (messages : List (OutMsg D)) :
    Trading D :=
  { t with
    engine := e'
    answers := t.answers.sendAll ((newsFor s t.engine e').map .report ++ messages) }

/-- A reject for a message that could not be decoded. -/
def rejection (m : FixMessage) (reason : String) : OutMsg D :=
  .message "3" (sessionRejectFields m.seq m.msgType 5 reason)

section

variable [DecimalText D] [Chrono]

/-- One step of a writer, a reader or the engine. A frame is taken from the wire when it
is read; one that cannot be decoded is rejected. -/
inductive Move (s : String) (t : Trading D) : Trading D → Prop
  | request (built now : String) (lane : Lane D) (transact : SendingTime built)
      (time : SendingTime now) (written : t.requests.write built now none = some lane) :
      Move s t { t with requests := lane }
  | serve (bytes : List UInt8) (wire : List (List UInt8)) (m : FixMessage) (inbound : Inbound D)
      (today : Int) (now : String) (rejectId : Nat) (handled : Handled D)
      (transact : SendingTime now) (next : t.requests.wire = bytes :: wire)
      (parsed : parseWire bytes = .ok m) (decoded : decode m = .ok (.ok inbound))
      (returns : handleBusiness today now rejectId t.answers.queue.failed t.engine s t.ids inbound =
        .ok handled) :
      Move s t ({ t with
        requests := { t.requests with wire := wire }
        ids := handled.ids }.answered s handled.engine handled.messages)
  | refuse (bytes : List UInt8) (wire : List (List UInt8)) (m : FixMessage) (reason : String)
      (next : t.requests.wire = bytes :: wire) (parsed : parseWire bytes = .ok m)
      (failed : (decode m : Exec (Except String (Inbound D))) = .ok (.error reason)) :
      Move s t { t with
        requests := { t.requests with wire := wire }
        answers := t.answers.send (rejection m reason) }
  | act (command : Command D) (e' : Engine D) (others : ByOthers s command)
      (step : Step t.engine command e') : Move s t (t.answered s e' [])
  | answer (built now : String) (lane : Lane D) (transact : SendingTime built)
      (time : SendingTime now) (written : t.answers.write built now (some t.ids) = some lane) :
      Move s t { t with answers := lane }
  | receive (bytes : List UInt8) (wire : List (List UInt8)) (m : FixMessage) (inbound : Inbound D)
      (next : t.answers.wire = bytes :: wire) (parsed : parseWire bytes = .ok m)
      (decoded : decode m = .ok (.ok inbound)) :
      Move s t { t with
        client := (t.client.receive inbound).1
        answers := { t.answers with wire := wire } }
  | ignore (bytes : List UInt8) (wire : List (List UInt8)) (m : FixMessage) (reason : String)
      (next : t.answers.wire = bytes :: wire) (parsed : parseWire bytes = .ok m)
      (failed : (decode m : Exec (Except String (Inbound D))) = .ok (.error reason)) :
      Move s t { t with
        requests := t.requests.send (rejection m reason)
        answers := { t.answers with wire := wire } }

/-- The runs from a state, with the calls that were made in them. -/
inductive Runs (s : String) (t : Trading D) : List (Call D) → Trading D → Prop
  | refl : Runs s t [] t
  | move {calls : List (Call D)} {t' t'' : Trading D} (run : Runs s t calls t')
      (move : Move s t' t'') : Runs s t calls t''
  | call {calls : List (Call D)} {t' : Trading D} (run : Runs s t calls t') (call : Call D)
      (time : SendingTime call.time) :
      Runs s t (calls ++ [call]) (t'.asked (call.made t'.client t'.requests.queue))

/-- Neither queue has failed. -/
def Working (t : Trading D) : Prop :=
  t.requests.queue.failed = false ∧ t.answers.queue.failed = false

end

/-- A request of the client, with its identifiers as numbers. -/
inductive Ask (D : Type) where
  | create (id : OrderId) (symbol : String) (side : Side) (orderType : OrderType)
      (price quantity : D)
  | replace (id original : OrderId) (symbol : String) (side : Side) (price quantity : D)
  | cancel (id original : OrderId) (symbol : String) (side : Side)
  | quote (quoteId symbol : String) (bidPrice bidQuantity askPrice askQuantity : D)

namespace Ask

/-- How a request reaches the exchange. -/
def heard : Ask D → Inbound D
  | .create id symbol side orderType price quantity =>
    .newOrderSingle (toString id) symbol side orderType (if orderType = .limit then price else 0)
      quantity
  | .replace id original symbol side price quantity =>
    .cancelReplace (toString id) (toString original) symbol side .limit price quantity
  | .cancel id original symbol side =>
    .cancelRequest (toString id) (toString original) symbol side
  | .quote quoteId symbol bidPrice bidQuantity askPrice askQuantity =>
    .massQuote quoteId 0 symbol bidPrice bidQuantity askPrice askQuantity

/-- The identifier of a request. -/
def id : Ask D → Option OrderId
  | .create id .. | .replace id .. | .cancel id .. => some id
  | .quote .. => none

/-- The order a request is about. -/
def original : Ask D → Option OrderId
  | .replace _ original .. | .cancel _ original .. => some original
  | _ => none

/-- The order a request opens. -/
def opens : Ask D → Option OrderId
  | .create id .. | .replace id .. => some id
  | _ => none

def symbol : Ask D → String
  | .create _ symbol .. | .replace _ _ symbol .. | .cancel _ _ symbol _ | .quote _ symbol .. =>
    symbol

/-- A request that can be written, about an order that came before it. -/
structure Grounded (ask : Ask D) : Prop where
  printable : Value ask.symbol
  original : ∀ original, ask.original = some original → 0 < original ∧
    ∀ id, ask.id = some id → original < id

end Ask

/-- Requests under growing identifiers, each about an earlier order. -/
def Ascending : OrderId → List (Ask D) → OrderId → Prop
  | low, [], high => low ≤ high
  | low, ask :: asks, high => ask.Grounded ∧ (∀ id, ask.id = some id → low < id) ∧
      Ascending (ask.id.getD low) asks high

/-- An order a request is going to open. -/
def Awaited (id : OrderId) (asks : List (Ask D)) : Prop := ∃ ask ∈ asks, ask.opens = some id

end Trading

end RustTrader.Fix
