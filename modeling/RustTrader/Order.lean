import RustTrader.Decimal

/-!
# Orders

The order record of `core/order.rs`. A session identifier together with an
order identifier locates an order; quote legs use the identifier zero.
-/

namespace RustTrader

abbrev OrderId := Int

/-- Effective price of a market buy, above every ordinary limit. -/
def marketBuyPrice : Int := 9999999999999

inductive Side where
  | buy
  | sell
  deriving DecidableEq, Repr

inductive OrderType where
  | market
  | limit
  deriving DecidableEq, Repr

inductive OrderState where
  | new
  | booked
  | partialFill
  | filled
  | cancelled
  | expired
  | rejected
  deriving DecidableEq, Repr

/-- An order can still trade unless it reached a terminal state. -/
def OrderState.isActive : OrderState → Bool
  | .filled | .cancelled | .expired | .rejected => false
  | .new | .booked | .partialFill => true

def Side.opposite : Side → Side
  | .buy => .sell
  | .sell => .buy

@[simp] theorem Side.opposite_opposite (side : Side) : side.opposite.opposite = side := by
  cases side <;> rfl

theorem Side.opposite_ne (side : Side) : side.opposite ≠ side := by cases side <;> decide

structure Order (D : Type) where
  sessionId : String
  id : OrderId
  exchangeId : String
  instrumentId : Int
  side : Side
  orderType : OrderType
  price : D
  quantity : D
  remaining : D
  cumQuantity : D
  avgPrice : D
  state : OrderState
  arrival : Nat
  deriving DecidableEq

namespace Order

variable {D : Type} [Decimal D]

open Decimal

/-- What locates an order: its session and its client identifier. -/
abbrev Identity := String × OrderId

def identity (order : Order D) : Identity := (order.sessionId, order.id)

def limit (sessionId : String) (id : OrderId) (instrumentId : Int) (side : Side)
    (price quantity : D) (arrival : Nat) : Order D where
  sessionId := sessionId
  id := id
  exchangeId := ""
  instrumentId := instrumentId
  side := side
  orderType := .limit
  price := price
  quantity := quantity
  remaining := quantity
  cumQuantity := 0
  avgPrice := 0
  state := .new
  arrival := arrival

def market (sessionId : String) (id : OrderId) (instrumentId : Int) (side : Side)
    (quantity : D) (arrival : Nat) : Order D :=
  { limit sessionId id instrumentId side 0 quantity arrival with price := 0, orderType := .market }

/-- The price used for ordering: market orders sit at the top of their side. -/
def effectivePrice (order : Order D) : D :=
  match order.orderType with
  | .market => match order.side with
    | .buy => lit marketBuyPrice 0
    | .sell => 0
  | .limit => order.price

end Order

/-- `left` is `order` after some fills: only the execution accounting moved. -/
structure Continues {D : Type} (order left : Order D) : Prop where
  rest : left = { order with
    avgPrice := left.avgPrice
    cumQuantity := left.cumQuantity
    remaining := left.remaining
    state := left.state }

namespace Continues

variable {D : Type} {order left : Order D}

theorem refl (order : Order D) : Continues order order := ⟨rfl⟩

theorem trans {last : Order D} (c : Continues order left) (c' : Continues left last) :
    Continues order last := ⟨by rw [c'.rest, c.rest]⟩

theorem identity (c : Continues order left) : left.identity = order.identity := by rw [c.rest]; rfl

theorem side (c : Continues order left) : left.side = order.side := by rw [c.rest]

theorem orderType (c : Continues order left) : left.orderType = order.orderType := by rw [c.rest]

theorem price (c : Continues order left) : left.price = order.price := by rw [c.rest]

theorem quantity (c : Continues order left) : left.quantity = order.quantity := by rw [c.rest]

theorem arrival (c : Continues order left) : left.arrival = order.arrival := by rw [c.rest]

theorem instrumentId (c : Continues order left) : left.instrumentId = order.instrumentId := by
  rw [c.rest]

theorem effectivePrice [Decimal D] (c : Continues order left) :
    left.effectivePrice = order.effectivePrice := by rw [c.rest]; rfl

end Continues

def minDecimal {D : Type} [Decimal D] (a b : D) : D := if a < b then a else b

theorem minDecimal_le_left {D : Type} [Decimal D] (a b : D) : minDecimal a b ≤ a := by
  unfold minDecimal
  split
  · exact le_rfl
  · exact not_lt.mp ‹_›

theorem minDecimal_le_right {D : Type} [Decimal D] (a b : D) : minDecimal a b ≤ b := by
  unfold minDecimal
  split
  · exact le_of_lt ‹_›
  · exact le_rfl

theorem minDecimal_cases {D : Type} [Decimal D] (a b : D) :
    minDecimal a b = a ∨ minDecimal a b = b := by
  unfold minDecimal
  split
  · exact Or.inl rfl
  · exact Or.inr rfl

theorem minDecimal_pos {D : Type} [Decimal D] {a b : D} (ha : 0 < a) (hb : 0 < b) :
    0 < minDecimal a b := by
  rcases minDecimal_cases a b with h | h <;> rw [h] <;> assumption

end RustTrader
