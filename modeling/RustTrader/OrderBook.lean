import RustTrader.PriceLevel

/-!
# The order book of one instrument

Bid and ask levels by price, continuous matching, and the two non-matching
operations of the tiered policy. Bids are read from the highest key down and
asks from the lowest key up. The matching loop runs on an explicit budget of
one more round than there are resting orders.
-/

namespace RustTrader

open Decimal

/-- One aggregated level of a published book. -/
structure BookLevel (D : Type) where
  price : D
  quantity : D
  deriving DecidableEq

structure Book (D : Type) where
  instrumentId : Int
  sequence : Nat
  bids : List (BookLevel D)
  asks : List (BookLevel D)
  deriving DecidableEq

/-- A trade with the post-fill snapshots of both sides. -/
structure RawTrade (D : Type) where
  buyer : Order D
  seller : Order D
  price : D
  quantity : D
  tradeId : Int
  deriving DecidableEq

inductive TieredBookError where
  | orderNotFound
  | duplicateOrder
  | invalidExecution (reason : String)
  deriving DecidableEq

def TieredBookError.display : TieredBookError → String
  | .orderNotFound => "order not found in book"
  | .duplicateOrder => "duplicate order in price level"
  | .invalidExecution reason => "invalid execution: " ++ reason

abbrev Levels (D : Type) [Decimal D] := SortedMap D (PriceLevel D)

structure OrderBook (D : Type) [Decimal D] where
  instrumentId : Int
  bids : Levels D
  asks : Levels D
  deriving DecidableEq

/-- The `Debug` text of a state. -/
def OrderState.debug : OrderState → String
  | .new => "New"
  | .booked => "Booked"
  | .partialFill => "PartialFill"
  | .filled => "Filled"
  | .cancelled => "Cancelled"
  | .expired => "Expired"
  | .rejected => "Rejected"

/-- The average price over `newCum` after a further fill. -/
def averagePrice {D : Type} [Decimal D] (order : Order D) (quantity price newCum : D) : Exec D :=
  if newCum = 0 then pure 0
  else do
    let before ← mul order.avgPrice order.cumQuantity
    let now ← mul price quantity
    let sum ← add before now
    div sum newCum

/-- Book one fill on an order: executed quantity, average price, remaining
quantity and state. -/
def applyFill {D : Type} [Decimal D] (order : Order D) (quantity price : D) : Exec (Order D) := do
  let newCum ← add order.cumQuantity quantity
  let avgPrice ← averagePrice order quantity price newCum
  let remaining ← sub order.remaining quantity
  pure { order with
    avgPrice := avgPrice
    cumQuantity := newCum
    remaining := remaining
    state := if remaining = 0 then .filled else .partialFill }

namespace OrderBook

variable {D : Type} [Decimal D]

def new (instrumentId : Int) : OrderBook D where
  instrumentId := instrumentId
  bids := ∅
  asks := ∅

def levels (book : OrderBook D) : Side → Levels D
  | .buy => book.bids
  | .sell => book.asks

def setLevels (book : OrderBook D) (side : Side) (levels : Levels D) : OrderBook D :=
  match side with
  | .buy => { book with bids := levels }
  | .sell => { book with asks := levels }

/-- Write a level back under its key; a level without orders is dropped. -/
def storeLevel (levels : Levels D) (key : D) (level : PriceLevel D) : Levels D :=
  if level.orders.isEmpty then levels.erase key else levels.insert key level

def insert (book : OrderBook D) (order : Order D) : Exec (OrderBook D) := do
  let price := order.effectivePrice
  let level := (book.levels order.side).getD price (PriceLevel.new price)
  let level ← level.pushBack order
  pure (book.setLevels order.side ((book.levels order.side).insert price level))

/-- Write one post-fill snapshot into its level. -/
def settle (levels : Levels D) (order : Order D) (quantity : D) : Exec (Levels D) := do
  let key := order.effectivePrice
  let level ← unwrap (levels.get? key)
  let level ← level.updateFill order quantity
  pure (storeLevel levels key level)

/-- The two tops trade at the price of the one that arrived earlier. -/
def tradeTops (book : OrderBook D) (bid ask : Order D) : Exec (RawTrade D × OrderBook D) := do
  let price := if bid.arrival < ask.arrival then bid.price else ask.price
  let quantity := minDecimal bid.remaining ask.remaining
  let buyer ← applyFill bid quantity price
  let seller ← applyFill ask quantity price
  let bids ← settle book.bids buyer quantity
  let asks ← settle book.asks seller quantity
  pure (⟨buyer, seller, price, quantity, 0⟩, { book with bids := bids, asks := asks })

/-- One round of continuous matching: the two tops trade while they cross. -/
def matchStep (book : OrderBook D) : Exec (Option (RawTrade D × OrderBook D)) :=
  match book.bids.last?, book.asks.first? with
  | some b, some a => do
    let bid ← b.2.top
    let ask ← a.2.top
    if bid.effectivePrice < ask.effectivePrice then
      pure none
    else
      let result ← book.tradeTops bid ask
      pure (some result)
  | _, _ => pure none

def matchLoop : Nat → OrderBook D → Exec (List (RawTrade D) × OrderBook D)
  | 0, _ => throw .diverged
  | fuel + 1, book => do
    match ← book.matchStep with
    | none => pure ([], book)
    | some (trade, book) =>
      let (trades, book) ← matchLoop fuel book
      pure (trade :: trades, book)

def restingCount (levels : Levels D) : Nat := (levels.values.map (fun l => l.orders.size)).sum

def matchTrades (book : OrderBook D) : Exec (List (RawTrade D) × OrderBook D) :=
  matchLoop (restingCount book.bids + restingCount book.asks + 1) book

def locate (book : OrderBook D) (session : String) (id : OrderId) (side : Side) (price : D) :
    Option (Order D) := do
  let level ← (book.levels side).get? price
  level.locate session id

/-- Take an order out of the book; an active one becomes cancelled. `none` is
the source's `Err(())`. -/
def remove (book : OrderBook D) (sessionId : String) (id : OrderId) (side : Side) (price : D) :
    Exec (Option (Order D × OrderBook D)) :=
  match (book.levels side).get? price with
  | none => pure none
  | some level => do
    match ← level.remove sessionId id with
    | none => pure none
    | some (removed, level) =>
      let removed := if removed.state.isActive then { removed with state := .cancelled }
        else removed
      pure (some (removed, book.setLevels side (storeLevel (book.levels side) price level)))

/-- The last snapshot of an order in a batch of trades, the seller's after the
buyer's within one trade. -/
def lastSnapshot (identity : String × OrderId) (trades : List (RawTrade D)) : Option (Order D) :=
  trades.foldl (fun found trade =>
    let found := if trade.buyer.identity = identity then some trade.buyer else found
    if trade.seller.identity = identity then some trade.seller else found) none

/-- After matching: cancel what a market order leaves over, and tell how the
incoming order ended. -/
def finish (book : OrderBook D) (order : Order D) (trades : List (RawTrade D)) :
    Exec (Option (Order D) × OrderBook D) :=
  match book.locate order.sessionId order.id order.side order.effectivePrice with
  | some resting =>
    if (order.orderType = .market ∧ 0 < resting.remaining) ∨ resting.state = .cancelled then do
      let removed ← book.remove order.sessionId order.id order.side order.effectivePrice
      let (removed, book) ← unwrap removed
      pure (some { removed with state := .cancelled }, book)
    else
      pure (some resting, book)
  | none => pure (lastSnapshot order.identity trades, book)

/-- Book an incoming order and match. Returns the trades, the final state of
the order and the book. -/
def add (book : OrderBook D) (order : Order D) :
    Exec (List (RawTrade D) × Option (Order D) × OrderBook D) := do
  let order := { order with state := .booked }
  let book ← book.insert order
  let (trades, book) ← book.matchTrades
  let (final, book) ← book.finish order trades
  pure (trades, final, book)

/-- Tiered policy: rest an order under its plain price without matching. -/
def insertOnly (book : OrderBook D) (order : Order D) :
    Exec (Except TieredBookError (Order D × OrderBook D)) := do
  if order.remaining ≤ 0 then
    return .error (.invalidExecution ("resting order " ++ toString order.id ++
      " must have positive remaining, got " ++ display order.remaining))
  let order := { order with state := if order.cumQuantity = 0 then .booked else .partialFill }
  let price := order.price
  let level := (book.levels order.side).getD price (PriceLevel.new price)
  if HashMap.contains level.index order.identity then
    return .error .duplicateOrder
  let level ← level.pushBack order
  return .ok (order, book.setLevels order.side ((book.levels order.side).insert price level))

/-- Tiered policy: one fixed fill of an order resting under `keyPrice`. -/
def execute (book : OrderBook D) (session : String) (id : OrderId) (side : Side)
    (keyPrice qty fillPrice : D) : Exec (Except TieredBookError (Order D × OrderBook D)) := do
  if qty ≤ 0 ∨ fillPrice ≤ 0 then
    return .error (.invalidExecution ("fill quantity " ++ display qty ++ " and price " ++
      display fillPrice ++ " must be positive"))
  match (book.levels side).get? keyPrice with
  | none => return .error .orderNotFound
  | some level =>
    match level.locate session id with
    | none => return .error .orderNotFound
    | some order =>
      if !order.state.isActive then
        return .error (.invalidExecution ("order " ++ toString id ++ " is not active (" ++
          order.state.debug ++ ")"))
      if order.remaining < qty then
        return .error (.invalidExecution ("fill quantity " ++ display qty ++
          " exceeds remaining " ++ display order.remaining))
      let order ← applyFill order qty fillPrice
      let level ← level.updateFill order qty
      return .ok (order, book.setLevels side (storeLevel (book.levels side) keyPrice level))

def buildLevels (levels : List (PriceLevel D)) : List (BookLevel D) :=
  levels.map (fun level => ⟨level.price, level.total⟩)

/-- The aggregate remaining quantity per price level, best price first. -/
def buildBook (book : OrderBook D) : Book D where
  instrumentId := book.instrumentId
  sequence := 0
  bids := buildLevels book.bids.values.reverse
  asks := buildLevels book.asks.values

end OrderBook

end RustTrader
