import RustTrader.MarketData

/-!
# The exchange engine

`core/exchange/mod.rs`: sessions with their order records and quote pairs, one
book per instrument, the counters, and the two fill policies. A report handed
to a registered session's sink is appended to `sent`; whether the sink keeps it
is not the engine's business. The day is an argument, and so is the order in
which a loop visits a hash map.
-/

namespace RustTrader

open Decimal

def quoteOrderId : OrderId := 0

/-- Single-request cap on tiered fill reports. -/
def maxTierFills : Nat := 256

def tierChunkSize : Int := 100

inductive FillPolicy where
  | real
  | tiered
  deriving DecidableEq, Repr

inductive EngineError where
  | orderNotFound
  | orderIsNotActive
  | duplicateOrderId (id : OrderId)
  | invalidOrderId (id : OrderId)
  | invalidQuantity
  | invalidPrice
  | quantityBelowCumulated
  | unknownSymbol (symbol : String)
  | tooManyTierFills
  | quoteNotSupportedInTiered
  | bookInvariantViolation (context : String)
  deriving DecidableEq

def EngineError.display : EngineError → String
  | .orderNotFound => "order not found"
  | .orderIsNotActive => "order is not active"
  | .duplicateOrderId id => "duplicate order id " ++ toString id
  | .invalidOrderId id => "invalid order id " ++ toString id
  | .invalidQuantity => "quantity must be positive"
  | .invalidPrice => "price must be positive"
  | .quantityBelowCumulated => "replacement quantity is below already filled quantity"
  | .unknownSymbol symbol => "unknown symbol " ++ symbol
  | .tooManyTierFills => "quantity exceeds the tiered fill limit (" ++
      toString (maxTierFills * tierChunkSize) ++ ")"
  | .quoteNotSupportedInTiered => "quotes are not accepted while FillPolicy=Tiered"
  | .bookInvariantViolation context => "internal book invariant violation: " ++ context

def invariantViolation (sessionId : String) (instrumentId : Int) (detail : String) : EngineError :=
  .bookInvariantViolation ("session=" ++ sessionId ++ " instrument=" ++ toString instrumentId ++
    " " ++ detail)

inductive ExecType where
  | new
  | partialFill
  | fill
  | cancelled
  | expired
  | replaced
  | rejected
  deriving DecidableEq, Repr

inductive Report (D : Type) where
  | status (order : Order D) (symbol : String) (clOrdId : OrderId) (execId : String)
      (execType : ExecType) (origClOrdId : Option OrderId)
  | fill (order : Order D) (symbol : String) (lastPrice lastQuantity : D) (execId : String)
      (origClOrdId : Option OrderId)
  deriving DecidableEq

/-- The order snapshot a report carries. -/
def Report.order {D : Type} : Report D → Order D
  | .status order .. => order
  | .fill order .. => order

structure NewOrder (D : Type) where
  id : OrderId
  instrumentId : Int
  side : Side
  orderType : OrderType
  price : D
  quantity : D

structure QuotePair (D : Type) where
  bid : Option (Order D)
  ask : Option (Order D)
  deriving DecidableEq

structure Session (D : Type) where
  orders : HashMap OrderId (Order D)
  quotes : HashMap Int (QuotePair D)
  deriving DecidableEq

structure Engine (D : Type) [Decimal D] where
  instruments : InstrumentMap
  books : HashMap Int (OrderBook D)
  sessions : SortedMap String (Session D)
  nextExchangeId : Int
  nextTradeId : Int
  nextExecId : Nat
  nextArrival : Nat
  sequence : Nat
  marketData : MarketDataPublisher D
  pendingMarketData : HashMap Int Nat
  statsCache : HashMap Int (Statistics D)
  orderDates : HashMap (String × OrderId) Int
  fillPolicy : FillPolicy
  sent : List (Report D)
  deriving DecidableEq

/-- The outcome of a fallible command and the engine it leaves. -/
abbrev Reply (D α : Type) [Decimal D] := Exec (Except EngineError α × Engine D)

/-- Addition on `i32` as a release build performs it. -/
def wrapI32 (n : Int) : Int := (n + 2 ^ 31) % 2 ^ 32 - 2 ^ 31

def u64Max : Nat := 2 ^ 64 - 1

def saturatingAdd (n k : Nat) : Nat := min (n + k) u64Max

section Tiers

variable {D : Type} [Decimal D]

def tieredMarketPrice : D := lit 6688 2

def tierChunk : D := lit tierChunkSize 0

def tierMaxRemaining : D := lit (maxTierFills * tierChunkSize) 0

/-- Repeated lots with a smaller tail. -/
def tierLots : Nat → D → Exec (List D)
  | 0, _ => throw .diverged
  | fuel + 1, rest =>
    if tierChunk < rest then do
      let rest ← sub rest tierChunk
      let plan ← tierLots fuel rest
      pure (tierChunk :: plan)
    else
      pure (if rest = 0 then [] else [rest])

/-- The fills of a request, fixed at request time. -/
def tierFillPlan (remaining : D) : Exec (Except EngineError (List D)) :=
  if remaining < 0 then pure (.error .invalidQuantity)
  else if remaining ≤ tierChunk then pure (.ok [])
  else if remaining ≤ lit 1000 0 then pure (.ok [remaining])
  else if remaining ≤ lit 2000 0 then do
    let half ← div remaining (lit 2 0)
    pure (.ok [half])
  else if tierMaxRemaining < remaining then pure (.error .tooManyTierFills)
  else do
    let plan ← tierLots maxTierFills remaining
    pure (.ok plan)

end Tiers

def validateOrderId (id : OrderId) : Except EngineError Unit :=
  if id ≤ 0 ∨ id = quoteOrderId then .error (.invalidOrderId id) else .ok ()

def validateOrderInput {D : Type} [Decimal D] (id : OrderId) (orderType : OrderType)
    (price quantity : D) : Except EngineError Unit := do
  validateOrderId id
  if quantity ≤ 0 then .error .invalidQuantity
  else if price < 0 ∨ (orderType = .limit ∧ price ≤ 0) then .error .invalidPrice
  else .ok ()

namespace Engine

variable {D : Type} [Decimal D]

def withFillPolicy (policy : FillPolicy) : Engine D where
  instruments := .new
  books := ∅
  sessions := ∅
  nextExchangeId := 0
  nextTradeId := 0
  nextExecId := 0
  nextArrival := 0
  sequence := 0
  marketData := .new
  pendingMarketData := ∅
  statsCache := ∅
  orderDates := ∅
  fillPolicy := policy
  sent := []

/-- The book of an instrument; a missing one is created when first used. -/
def book (e : Engine D) (instrumentId : Int) : OrderBook D :=
  (HashMap.get? e.books instrumentId).getD (OrderBook.new instrumentId)

def setBook (e : Engine D) (instrumentId : Int) (book : OrderBook D) : Engine D :=
  { e with books := HashMap.set e.books instrumentId book }

/-- The record of an order in its session. -/
def order (e : Engine D) (sessionId : String) (id : OrderId) : Option (Order D) := do
  let session ← e.sessions.get? sessionId
  HashMap.get? session.orders id

def setOrders (e : Engine D) (sessionId : String) (session : Session D)
    (orders : HashMap OrderId (Order D)) : Engine D :=
  { e with sessions := e.sessions.insert sessionId { session with orders := orders } }

/-- Rewrite the record of an order where there is one. -/
def updateRecord (e : Engine D) (sessionId : String) (id : OrderId) (f : Order D → Order D) :
    Engine D :=
  match e.sessions.get? sessionId with
  | none => e
  | some session =>
    match HashMap.get? session.orders id with
    | none => e
    | some record => e.setOrders sessionId session (HashMap.set session.orders id (f record))

def symbolFor (e : Engine D) (instrumentId : Int) : String :=
  ((e.instruments.getById instrumentId).map Instrument.symbol).getD ""

def send (e : Engine D) (report : Report D) : Engine D :=
  if e.sessions.contains report.order.sessionId then { e with sent := e.sent ++ [report] } else e

def takeExecId (e : Engine D) : String × Engine D :=
  let e := { e with nextExecId := saturatingAdd e.nextExecId 1 }
  ("exec." ++ toString e.nextExecId, e)

def sendStatusFor (e : Engine D) (order : Order D) (clOrdId : OrderId) (execType : ExecType)
    (origClOrdId : Option OrderId) : Engine D :=
  let symbol := e.symbolFor order.instrumentId
  let (execId, e) := e.takeExecId
  e.send (.status order symbol clOrdId execId execType origClOrdId)

def sendStatus (e : Engine D) (order : Order D) : Engine D :=
  let execType := match order.state with
    | .cancelled => ExecType.cancelled
    | .rejected => .rejected
    | _ => .new
  e.sendStatusFor order order.id execType none

/-- Keep a session's record at the final state of its order; quote legs have
no record. -/
def syncRecord (e : Engine D) (order : Order D) : Engine D :=
  if order.id = quoteOrderId then e
  else e.updateRecord order.sessionId order.id (fun _ => order)

/-- What a fill copies from the book into a record. -/
def copyFill (order record : Order D) : Order D :=
  { record with
    remaining := order.remaining
    cumQuantity := order.cumQuantity
    avgPrice := order.avgPrice
    state := order.state }

def sendFill (e : Engine D) (order : Order D) (lastPrice lastQuantity : D) : Engine D :=
  let e := if order.id = quoteOrderId then e
    else e.updateRecord order.sessionId order.id (copyFill order)
  let symbol := e.symbolFor order.instrumentId
  let (execId, e) := e.takeExecId
  e.send (.fill order symbol lastPrice lastQuantity execId none)

/-- Fill reports to both sides of every trade, the buyer's first. -/
def sendFills (e : Engine D) (trades : List (RawTrade D)) : Engine D :=
  trades.foldl (fun e trade =>
    (e.sendFill trade.buyer trade.price trade.quantity).sendFill trade.seller trade.price
      trade.quantity) e

def sendTradeReports (e : Engine D) (trades : List (RawTrade D)) : Engine D :=
  if trades.isEmpty then e
  else
    let e := { e with nextTradeId := e.nextTradeId + 1 }
    e.sendFills (trades.map (fun trade => { trade with tradeId := e.nextTradeId }))

/-- A logical sequence advance and the statistics of its trades. -/
def recordMarketData (e : Engine D) (instrumentId : Int) (trades : List (RawTrade D)) :
    Exec (Engine D) := do
  let sequence := e.sequence + 1
  let initial := (HashMap.get? e.statsCache instrumentId).getD
    (Statistics.initial (e.symbolFor instrumentId))
  let stats ← trades.foldlM (fun stats trade => stats.trade trade.price trade.quantity) initial
  pure { e with
    sequence := sequence
    pendingMarketData := HashMap.set e.pendingMarketData instrumentId sequence
    statsCache := HashMap.set e.statsCache instrumentId stats }

/-- Publish the current book of one instrument under a sequence number. -/
def publishInstrument (e : Engine D) (instrumentId : Int) (sequence : Nat) : Exec (Engine D) := do
  let e := e.setBook instrumentId (e.book instrumentId)
  let book := { (e.book instrumentId).buildBook with sequence := sequence }
  let stats ← unwrap (HashMap.get? e.statsCache instrumentId)
  let stats := stats.quoted book
  let marketData ← e.marketData.publish book stats
  pure { e with
    statsCache := HashMap.set e.statsCache instrumentId stats
    marketData := marketData }

/-- Publish the last version of each changed instrument. -/
def publishMarketData (e : Engine D) : Exec (Engine D) := do
  let pending := e.pendingMarketData.entries
  pending.foldlM (fun e entry => e.publishInstrument entry.1 entry.2)
    { e with pendingMarketData := ∅ }

def addToBook (e : Engine D) (order : Order D) :
    Exec (List (RawTrade D) × Option (Order D) × Engine D) := do
  let (trades, final, book) ← (e.book order.instrumentId).add order
  pure (trades, final, e.setBook order.instrumentId book)

def removeFromBook (e : Engine D) (sessionId : String) (id : OrderId) (side : Side) (price : D)
    (instrumentId : Int) : Reply D (Order D) :=
  match HashMap.get? e.books instrumentId with
  | none => pure (.error .orderNotFound, e)
  | some book => do
    match ← book.remove sessionId id side price with
    | none => pure (.error .orderNotFound, e)
    | some (removed, book) => pure (.ok removed, e.setBook instrumentId book)

/-- Tiered only: rest an order without matching and sync its record. -/
def tieredInsert (e : Engine D) (sessionId : String) (instrumentId : Int) (order : Order D) :
    Reply D (Order D) := do
  match ← (e.book instrumentId).insertOnly order with
  | .error err =>
    pure (.error (invariantViolation sessionId instrumentId err.display),
      e.setBook instrumentId (e.book instrumentId))
  | .ok (snapshot, book) =>
    pure (.ok snapshot, (e.setBook instrumentId book).syncRecord snapshot)

/-- Apply a precomputed plan to a resting order, one fill at a time. -/
def tieredFillExisting (sessionId : String) (instrumentId : Int) (order : Order D) :
    Engine D → List D → Nat → Reply D Unit
  | e, [], _ => pure (.ok (), e)
  | e, chunk :: plan, index =>
    match HashMap.get? e.books instrumentId with
    | none => pure (.error (invariantViolation sessionId instrumentId
        TieredBookError.orderNotFound.display), e)
    | some book => do
      match ← book.execute sessionId order.id order.side order.price chunk order.price with
      | .error err => pure (.error (invariantViolation sessionId instrumentId
          (err.display ++ " (fill #" ++ toString index ++ ")")), e)
      | .ok (filled, book) =>
        tieredFillExisting sessionId instrumentId order
          ((e.setBook instrumentId book).sendFill filled order.price chunk) plan (index + 1)

def registerSession (e : Engine D) (id : String) : Engine D :=
  { e with sessions := e.sessions.insert id ⟨∅, ∅⟩ }

def createInstrument (e : Engine D) (symbol : String) : Int × Engine D :=
  match e.instruments.getBySymbol symbol with
  | some instrument => (instrument.id, e)
  | none =>
    let id := e.instruments.nextId + 1
    let instrument : Instrument := ⟨id, symbol⟩
    (id, { e with
      instruments := { e.instruments with nextId := id }.put instrument
      marketData := e.marketData.register instrument })

/-- Take a record or a quote leg of a leaving session out of its book. -/
def dropResting (e : Engine D) (sessionId : String) (instrumentId : Int) (order : Order D) :
    Exec (Engine D) := do
  let (_, e) ← e.removeFromBook sessionId order.id order.side order.price instrumentId
  pure e

def disconnectOrders (e : Engine D) (sessionId : String) (orders : List (OrderId × Order D)) :
    Exec (Engine D) :=
  orders.foldlM (fun e entry => do
    let (_, e) ← e.removeFromBook sessionId entry.1 entry.2.side entry.2.price entry.2.instrumentId
    e.recordMarketData entry.2.instrumentId []) e

def disconnectQuotes (e : Engine D) (sessionId : String) (quotes : List (Int × QuotePair D)) :
    Exec (Engine D) :=
  quotes.foldlM (fun e entry => do
    let e ← (entry.2.bid.toList ++ entry.2.ask.toList).foldlM
      (fun e leg => e.dropResting sessionId entry.1 leg) e
    e.recordMarketData entry.1 []) e

/-- Cancel everything of a session and forget it. `orders` and `quotes` are its
maps in the order the loops visit them. -/
def sessionDisconnect (e : Engine D) (sessionId : String) (orders : List (OrderId × Order D))
    (quotes : List (Int × QuotePair D)) : Exec (Engine D) :=
  match e.sessions.get? sessionId with
  | none => pure e
  | some _ => do
    let e := { e with
      sessions := e.sessions.erase sessionId
      orderDates := HashMap.retain e.orderDates (fun key => !decide (key.1 = sessionId)) }
    let e ← e.disconnectOrders sessionId orders
    let e ← e.disconnectQuotes sessionId quotes
    e.publishMarketData

/-- Expire one dated order of an earlier day. -/
def expireOrder (e : Engine D) (key : String × OrderId) : Exec (Engine D) :=
  let e := { e with orderDates := HashMap.remove e.orderDates key }
  match e.order key.1 key.2 with
  | none => pure e
  | some order =>
    if !order.state.isActive then pure e
    else do
      let (_, e) ← e.removeFromBook key.1 key.2 order.side order.price order.instrumentId
      let order := { order with state := .expired, remaining := 0 }
      let e := e.syncRecord order
      let e ← e.recordMarketData order.instrumentId []
      pure (e.sendStatusFor order key.2 .expired none)

/-- The dated orders of days before `today`, in some order. -/
def expired (e : Engine D) (today : Int) : List (String × OrderId) :=
  (e.orderDates.entries.filter (fun entry => entry.2 < today)).map (fun entry => entry.1)

def expireDayOrdersAt (e : Engine D) (keys : List (String × OrderId)) : Exec (Engine D) := do
  let e ← keys.foldlM expireOrder e
  e.publishMarketData

def checkCreate (e : Engine D) (sessionId : String) (new : NewOrder D) :
    Except EngineError Unit := do
  if (e.instruments.getById new.instrumentId).isNone then
    .error (.unknownSymbol (toString new.instrumentId))
  else
    validateOrderInput new.id new.orderType new.price new.quantity
    match e.sessions.get? sessionId with
    | none => .error .orderNotFound
    | some session =>
      if HashMap.contains session.orders new.id then .error (.duplicateOrderId new.id) else .ok ()

/-- Real computes no plan; Tiered validates one before any state changes. -/
def planFor (policy : FillPolicy) (remaining : D) : Exec (Except EngineError (Option (List D))) :=
  match policy with
  | .real => pure (.ok none)
  | .tiered => do
    let plan ← tierFillPlan remaining
    pure (plan.map some)

/-- The price an order is booked under: Tiered normalizes market orders. -/
def bookedPrice (policy : FillPolicy) (orderType : OrderType) (price : D) : D :=
  if policy = .tiered ∧ orderType = .market then tieredMarketPrice else price

def buildOrder (sessionId : String) (new : NewOrder D) (arrival : Nat) : Order D :=
  match new.orderType with
  | .limit => Order.limit sessionId new.id new.instrumentId new.side new.price new.quantity arrival
  | .market => Order.market sessionId new.id new.instrumentId new.side new.quantity arrival

/-- Real: match, publish, then report fills, and the order itself when nothing
traded or a market remainder was cancelled. -/
def createReal (e : Engine D) (new : NewOrder D) (order : Order D) : Reply D OrderId := do
  let (trades, final, e) ← e.addToBook order
  let e ← e.recordMarketData new.instrumentId trades
  let e ← e.publishMarketData
  let e := e.sendTradeReports trades
  match final with
  | none => pure (.ok new.id, e)
  | some final =>
    let e := e.syncRecord final
    let remainderCancelled := decide (final.state = .cancelled ∧ new.orderType = .market)
    if trades.isEmpty || remainderCancelled then
      pure (.ok new.id, e.sendStatus final)
    else
      pure (.ok new.id, e)

def createTiered (e : Engine D) (sessionId : String) (new : NewOrder D) (order : Order D)
    (plan : List D) : Reply D OrderId := do
  let (inserted, e) ← e.tieredInsert sessionId new.instrumentId order
  match inserted with
  | .error err =>
    let e ← e.recordMarketData new.instrumentId []
    let e ← e.publishMarketData
    pure (.error err, e)
  | .ok snapshot =>
    let e := e.sendStatus snapshot
    let (result, e) ← tieredFillExisting sessionId new.instrumentId snapshot e plan 0
    let e ← e.recordMarketData new.instrumentId []
    let e ← e.publishMarketData
    pure (result.map (fun _ => new.id), e)

/-- Number the accepted order. -/
def numberOrder (e : Engine D) (sessionId : String) (new : NewOrder D) : Order D × Engine D :=
  let e := { e with
    nextExchangeId := wrapI32 (e.nextExchangeId + 1)
    nextArrival := e.nextArrival + 1 }
  let order := buildOrder sessionId new e.nextArrival
  let order := { order with
    exchangeId := toString e.nextExchangeId
    price := bookedPrice e.fillPolicy order.orderType order.price }
  (order, e)

def acceptOrder (e : Engine D) (today : Int) (sessionId : String) (new : NewOrder D)
    (plan : Option (List D)) : Reply D OrderId :=
  let (order, e) := e.numberOrder sessionId new
  match e.sessions.get? sessionId with
  | none => pure (.error .orderNotFound, e)
  | some session =>
    let e := e.setOrders sessionId session (HashMap.set session.orders order.id order)
    let e := { e with orderDates := HashMap.set e.orderDates (sessionId, order.id) today }
    match plan with
    | none => e.createReal new order
    | some plan => e.createTiered sessionId new order plan

def createOrder (e : Engine D) (today : Int) (sessionId : String) (new : NewOrder D) :
    Reply D OrderId :=
  match e.checkCreate sessionId new with
  | .error err => pure (.error err, e)
  | .ok _ => do
    match ← planFor e.fillPolicy new.quantity with
    | .error err => pure (.error err, e)
    | .ok plan => e.acceptOrder today sessionId new plan

def checkModify (e : Engine D) (sessionId : String) (origId newId : OrderId)
    (orderType : OrderType) (price quantity : D) : Except EngineError (Order D) :=
  match e.sessions.get? sessionId with
  | none => .error .orderNotFound
  | some session =>
    match HashMap.get? session.orders origId with
    | none => .error .orderNotFound
    | some entry => do
      if !entry.state.isActive then .error .orderIsNotActive
      else
        validateOrderInput newId orderType price quantity
        if quantity < entry.cumQuantity then .error .quantityBelowCumulated
        else if newId ≠ origId ∧ HashMap.contains session.orders newId then
          .error (.duplicateOrderId newId)
        else .ok entry

/-- The plan of a replacement is that of its remaining quantity. -/
def replacementPlan (e : Engine D) (entry : Order D) (quantity : D) :
    Exec (Except EngineError (Option (List D))) :=
  match e.fillPolicy with
  | .real => planFor .real quantity
  | .tiered => do
    let remaining ← sub quantity entry.cumQuantity
    planFor .tiered remaining

/-- The order a replacement turns its original into. -/
def replacement (policy : FillPolicy) (entry : Order D) (newId : OrderId) (orderType : OrderType)
    (price quantity remaining : D) (arrival : Nat) : Order D :=
  { entry with
    id := newId
    orderType := orderType
    price := bookedPrice policy orderType price
    quantity := quantity
    remaining := remaining
    state :=
      if remaining = 0 then .filled
      else if entry.cumQuantity ≠ 0 then .partialFill
      else .booked
    arrival := arrival }

/-- The record and the date move from the original to the new identifier. -/
def rekey (e : Engine D) (today : Int) (sessionId : String) (origId : OrderId) (order : Order D) :
    Exec (Engine D) := do
  let session ← unwrap (e.sessions.get? sessionId)
  let e := e.setOrders sessionId session
    (HashMap.set (HashMap.remove session.orders origId) order.id order)
  pure { e with
    orderDates := HashMap.set (HashMap.remove e.orderDates (sessionId, origId))
      (sessionId, order.id) today }

/-- Tiered rests a replacement before it is confirmed. -/
def restReplacement (e : Engine D) (sessionId : String) (order : Order D)
    (plan : Option (List D)) : Reply D (Option (Order D)) :=
  match plan with
  | none => pure (.ok none, e)
  | some _ =>
    if order.remaining = 0 then pure (.ok none, e)
    else do
      let (inserted, e) ← e.tieredInsert sessionId order.instrumentId order
      pure (inserted.map some, e)

/-- Work on what remains of a confirmed replacement. -/
def workReplacement (e : Engine D) (sessionId : String) (order : Order D)
    (plan : Option (List D)) (snapshot : Option (Order D)) : Reply D Unit :=
  match plan with
  | none => do
    let (trades, final, e) ← e.addToBook order
    let e ← e.recordMarketData order.instrumentId trades
    let e ← e.publishMarketData
    let e := e.sendTradeReports trades
    match final with
    | none => pure (.ok (), e)
    | some final => pure (.ok (), e.syncRecord final)
  | some plan => do
    let snapshot ← unwrap snapshot
    let (result, e) ← tieredFillExisting sessionId order.instrumentId snapshot e plan 0
    let e ← e.recordMarketData order.instrumentId []
    let e ← e.publishMarketData
    pure (result, e)

/-- Rest the replacement where the policy wants it, confirm it, and work on it. -/
def confirmReplacement (e : Engine D) (sessionId : String) (origId : OrderId) (order : Order D)
    (plan : Option (List D)) : Reply D Unit := do
  let (rested, e) ← e.restReplacement sessionId order plan
  match rested with
  | .error err =>
    let e ← e.recordMarketData order.instrumentId []
    let e ← e.publishMarketData
    pure (.error err, e)
  | .ok snapshot =>
    let e := e.sendStatusFor order order.id .replaced (some origId)
    if order.remaining = 0 then
      let e ← e.publishMarketData
      pure (.ok (), e)
    else
      e.workReplacement sessionId order plan snapshot

/-- Cancel/replace an active order, optionally changing its type. -/
def modifyOrderWithType (e : Engine D) (today : Int) (sessionId : String) (origId newId : OrderId)
    (orderType : OrderType) (price quantity : D) : Reply D Unit :=
  match e.checkModify sessionId origId newId orderType price quantity with
  | .error err => pure (.error err, e)
  | .ok entry => do
    match ← e.replacementPlan entry quantity with
    | .error err => pure (.error err, e)
    | .ok plan =>
      let (removed, e) ←
        e.removeFromBook sessionId origId entry.side entry.price entry.instrumentId
      match removed with
      | .error _ =>
        -- the order exists in the session but not in the book
        let record ← unwrap (e.order sessionId origId)
        pure (.ok (), e.sendStatus record)
      | .ok _ =>
        let e ← e.recordMarketData entry.instrumentId []
        let e := { e with nextArrival := e.nextArrival + 1 }
        let remaining ← sub quantity entry.cumQuantity
        let order := replacement e.fillPolicy entry newId orderType price quantity remaining
          e.nextArrival
        let e ← e.rekey today sessionId origId order
        e.confirmReplacement sessionId origId order plan

def checkCancel (e : Engine D) (sessionId : String) (origId clOrdId : OrderId) :
    Except EngineError (Order D) := do
  validateOrderId clOrdId
  match e.sessions.get? sessionId with
  | none => .error .orderNotFound
  | some session =>
    match HashMap.get? session.orders origId with
    | none => .error .orderNotFound
    | some entry =>
      if clOrdId ≠ origId ∧ HashMap.contains session.orders clOrdId then
        .error (.duplicateOrderId clOrdId)
      else if !entry.state.isActive then .error .orderIsNotActive
      else .ok entry

/-- Cancel an order under a fresh request identifier. -/
def cancelOrderWithId (e : Engine D) (sessionId : String) (origId clOrdId : OrderId) :
    Reply D Unit :=
  match e.checkCancel sessionId origId clOrdId with
  | .error err => pure (.error err, e)
  | .ok entry => do
    let (removed, e) ←
      e.removeFromBook sessionId origId entry.side entry.price entry.instrumentId
    match removed with
    | .error err => pure (.error err, e)
    | .ok removed =>
      let removed :=
        if removed.state.isActive then { removed with state := .cancelled } else removed
      let session ← unwrap (e.sessions.get? sessionId)
      let e := e.setOrders sessionId session (HashMap.set session.orders origId removed)
      let e ← e.recordMarketData removed.instrumentId []
      let e ← e.publishMarketData
      pure (.ok (), e.sendStatusFor removed clOrdId .cancelled (some origId))

def checkQuote (e : Engine D) (sessionId : String) (instrumentId : Int)
    (bidPrice bidQuantity askPrice askQuantity : D) : Except EngineError (Session D) :=
  if e.fillPolicy = .tiered then .error .quoteNotSupportedInTiered
  else if (e.instruments.getById instrumentId).isNone then
    .error (.unknownSymbol (toString instrumentId))
  else if bidPrice ≠ 0 ∧ bidQuantity ≤ 0 then .error .invalidQuantity
  else if askPrice ≠ 0 ∧ askQuantity ≤ 0 then .error .invalidQuantity
  else if bidPrice < 0 ∨ askPrice < 0 then .error .invalidPrice
  else match e.sessions.get? sessionId with
    | none => .error .orderNotFound
    | some session => .ok session

/-- Take the old pair out of its session and its legs out of the book. -/
def withdrawPair (e : Engine D) (sessionId : String) (instrumentId : Int) (session : Session D) :
    Exec (Engine D) :=
  let old := (HashMap.get? session.quotes instrumentId).getD ⟨none, none⟩
  let e := { e with
    sessions := e.sessions.insert sessionId
      { session with quotes := HashMap.remove session.quotes instrumentId } }
  (old.bid.toList ++ old.ask.toList).foldlM
    (fun e leg => e.dropResting sessionId instrumentId leg) e

/-- One leg of a quote: nothing at price zero, otherwise a limit order under
the identifier zero. -/
def quoteLeg (e : Engine D) (sessionId : String) (instrumentId : Int) (side : Side)
    (price quantity : D) (exchangeId : String) :
    Exec (List (RawTrade D) × Option (Order D) × Engine D) :=
  if price = 0 then pure ([], none, e)
  else do
    let e := { e with
      nextExchangeId := wrapI32 (e.nextExchangeId + 1)
      nextArrival := e.nextArrival + 1 }
    let order := Order.limit sessionId quoteOrderId instrumentId side price quantity e.nextArrival
    let order := { order with exchangeId := exchangeId }
    let (trades, _, e) ← e.addToBook order
    pure (trades, some order, e)

/-- A bid/ask pair per session and instrument, with replace semantics. -/
def quote (e : Engine D) (sessionId : String) (instrumentId : Int)
    (bidPrice bidQuantity askPrice askQuantity : D) : Reply D Unit :=
  match e.checkQuote sessionId instrumentId bidPrice bidQuantity askPrice askQuantity with
  | .error err => pure (.error err, e)
  | .ok session => do
    let e ← e.withdrawPair sessionId instrumentId session
    let (bidTrades, bid, e) ← e.quoteLeg sessionId instrumentId .buy bidPrice bidQuantity
      ("quote.bid." ++ toString instrumentId)
    let (askTrades, ask, e) ← e.quoteLeg sessionId instrumentId .sell askPrice askQuantity
      ("quote.ask." ++ toString instrumentId)
    let session ← unwrap (e.sessions.get? sessionId)
    let e := { e with
      sessions := e.sessions.insert sessionId
        { session with quotes := HashMap.set session.quotes instrumentId ⟨bid, ask⟩ } }
    let e ← e.recordMarketData instrumentId (bidTrades ++ askTrades)
    let e ← e.publishMarketData
    pure (.ok (), e.sendTradeReports (bidTrades ++ askTrades))

end Engine

end RustTrader
