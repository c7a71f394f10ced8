import RustTrader.Fix.Outbound

/-!
# The initiator

The client side of `fix/session.rs`: the requests it makes, the orders it keeps views
of while the exchange has not answered yet, and what execution reports and rejections
change in them.
-/

namespace RustTrader.Fix

variable {D : Type} [Decimal D] [DecimalText D]

/-- The client's view of an order. -/
structure OrderView (D : Type) where
  id : OrderId
  exchangeId : String
  symbol : String
  side : Side
  price : D
  quantity : D
  remaining : D
  state : OrderState
  deriving DecidableEq

structure FillView (D : Type) where
  isQuote : Bool
  orderId : Option OrderId
  exchangeId : String
  symbol : String
  side : Side
  price : D
  quantity : D
  deriving DecidableEq

/-- What the callback is told. -/
inductive Callback (D : Type) where
  | onInstrument (instrument : Instrument)
  | onOrderStatus (order : OrderView D)
  | onFill (fill : FillView D)

abbrev OrderViews (D : Type) := HashMap OrderId (OrderView D)

structure Initiator (D : Type) where
  loggedIn : Bool
  orders : OrderViews D
  instruments : InstrumentMap
  nextOrder : OrderId

namespace OrderView

/-- The view of an order that has just been asked for. -/
def requested (id : OrderId) (symbol : String) (side : Side) (price quantity : D) : OrderView D :=
  ⟨id, "", symbol, side, price, quantity, quantity, .new⟩

/-- A view after a report. -/
def updated (record : OrderView D) (data : ExecReportData D) : OrderView D :=
  { record with
    exchangeId := data.exchangeId
    remaining := data.remaining
    price := data.price
    quantity := data.quantity
    state := data.state }

end OrderView

namespace Initiator

abbrev Queue (D : Type) [Decimal D] := Mailbox (OutMsg D) mailboxCapacity

/-- The client before it has asked for anything. -/
def new (loggedIn : Bool) : Initiator D := ⟨loggedIn, ∅, .new, 0⟩

def view (c : Initiator D) (id : OrderId) : Option (OrderView D) := HashMap.get? c.orders id

/-- Draw the next identifier, a plain increment of an `i32`. -/
def draw (c : Initiator D) : OrderId × Initiator D :=
  let id := wrapI32 (c.nextOrder + 1)
  (id, { c with nextOrder := id })

def track (c : Initiator D) (view : OrderView D) : Initiator D :=
  { c with orders := HashMap.set c.orders view.id view }

/-- Hand a request to the writer. -/
def hand {α : Type} (c : Initiator D) (tx : Queue D) (msgType : String) (fields : Fields)
    (result : α) : Except Unit α × Initiator D × Queue D :=
  match tx.send (.message msgType fields) with
  | (.ok (), tx) => (.ok result, c, tx)
  | (.error _, tx) => (.error (), c, tx)

def createOrder (c : Initiator D) (tx : Queue D) (now symbol : String) (side : Side)
    (orderType : OrderType) (price quantity : D) : Except Unit OrderId × Initiator D × Queue D :=
  if c.loggedIn then
    let (id, c) := c.draw
    let c := c.track (.requested id symbol side price quantity)
    c.hand tx "D" (buildNewOrderSingle now (toString id) symbol side orderType price quantity) id
  else (.error (), c, tx)

def modifyOrder (c : Initiator D) (tx : Queue D) (now : String) (id : OrderId)
    (price quantity : D) : Except Unit Unit × Initiator D × Queue D :=
  if c.loggedIn then
    match c.view id with
    | none => (.error (), c, tx)
    | some record =>
      let (reqId, c) := c.draw
      let c := c.track (.requested reqId record.symbol record.side price quantity)
      c.hand tx "G" (buildCancelReplace now (toString id) (toString reqId) record.symbol
        record.side price quantity) ()
  else (.error (), c, tx)

def cancelOrder (c : Initiator D) (tx : Queue D) (now : String) (id : OrderId) :
    Except Unit Unit × Initiator D × Queue D :=
  if c.loggedIn then
    match c.view id with
    | none => (.error (), c, tx)
    | some record =>
      let (reqId, c) := c.draw
      c.hand tx "F" (buildCancelRequest now (toString id) (toString reqId) record.symbol
        record.side) ()
  else (.error (), c, tx)

def quote (c : Initiator D) (tx : Queue D) (quoteId symbol : String)
    (bidPrice bidQuantity askPrice askQuantity : D) : Except Unit Unit × Initiator D × Queue D :=
  if c.loggedIn then
    c.hand tx "i" (buildMassQuote quoteId symbol bidPrice bidQuantity askPrice askQuantity) ()
  else (.error (), c, tx)

end Initiator

/-- A number that an identifier of a message stands for. -/
def parseI32 (text : String) : Option OrderId := Numeral.parseSigned 32 text

namespace OrderViews

variable (orders : OrderViews D)

/-- An order that is not known takes the view of the one it replaces. -/
def adopt (id : OrderId) (original : Option OrderId) : OrderViews D :=
  if HashMap.contains orders id then orders
  else
    match original.bind (HashMap.get? orders) with
    | some old => HashMap.set orders id { old with id := id }
    | none => orders

/-- Drop the view of an order, if one is named. -/
def forget (id : Option OrderId) : OrderViews D :=
  match id with
  | some id => HashMap.remove orders id
  | none => orders

/-- The views after a report about the order `id`, and the view it leaves. -/
def report (id : OrderId) (original : Option OrderId) (data : ExecReportData D) :
    OrderViews D × Option (OrderView D) :=
  let orders := orders.adopt id original
  let view := (HashMap.get? orders id).map fun record => record.updated data
  let orders := match view with
    | some record => HashMap.set orders id record
    | none => orders
  (forget orders (original.filter fun n => n ≠ id), view)

/-- The views after a refused cancellation or replacement. -/
def reject (id original : Option OrderId) (state : OrderState) :
    OrderViews D × Option (OrderView D) :=
  let orders := forget orders id
  match original.bind fun id => (HashMap.get? orders id).map fun o => (id, o) with
  | some (id, o) =>
    let o := { o with state := state }
    (HashMap.set orders id o, some o)
  | none => (orders, none)

end OrderViews

/-- Whether a report is about a quote. -/
def ExecReportData.isQuote (data : ExecReportData D) : Bool :=
  data.clOrdId = "" || "quote.".toList.isPrefixOf data.exchangeId.toList

/-- `handle_execution_report`. -/
def handleExecutionReport (orders : OrderViews D) (data : ExecReportData D) :
    OrderViews D × List (Callback D) :=
  let fill (id : Option OrderId) : List (Callback D) :=
    if data.isFill then
      [.onFill ⟨data.isQuote, id, data.exchangeId, data.symbol, data.side, data.lastPrice,
        data.lastQuantity⟩]
    else []
  if data.isQuote then (orders, fill none)
  else
    match parseI32 data.clOrdId with
    | none => (orders, [])
    | some id =>
      let (orders, view) := orders.report id (data.origClOrdId.bind parseI32) data
      (orders, fill (some id) ++ view.toList.map .onOrderStatus)

namespace Initiator

/-- What `initiator_reader` does with a decoded message besides the session itself. -/
def receive (c : Initiator D) : Inbound D → Initiator D × List (Callback D)
  | .securityDefinition _ symbol instrumentId =>
    let instrument : Instrument := ⟨instrumentId, symbol⟩
    ({ c with instruments := c.instruments.put instrument }, [.onInstrument instrument])
  | .executionReport data =>
    let (orders, calls) := handleExecutionReport c.orders data
    ({ c with orders := orders }, calls)
  | .cancelReject clOrdId origClOrdId state _ =>
    let (orders, view) := c.orders.reject (parseI32 clOrdId) (parseI32 origClOrdId) state
    ({ c with orders := orders }, view.toList.map .onOrderStatus)
  | _ => (c, [])

end Initiator

end RustTrader.Fix
