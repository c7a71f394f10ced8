import RustTrader.LastReport
import RustTrader.MarketRuns

/-!
# Market orders

A market order trades at a fixed effective price. One that ends with a remainder
has emptied the opposite side of its book, unless an order rests there beyond
that price.
-/

namespace RustTrader

open Decimal

variable {D : Type} [Decimal D]

/-- A walk with something left over has taken every order it crosses. -/
theorem Walked.sweeps [LawfulDecimal D] {incoming left : Order D} {queue untouched : List (Order D)}
    {trades : List (RawTrade D)} (w : Walked incoming queue trades left untouched)
    (more : left.remaining ≠ 0) :
    untouched = [] ↔ ∀ o ∈ queue, Crosses incoming.side incoming.effectivePrice
      o.effectivePrice := by
  induction w with
  | @stop incoming queue halts =>
    cases queue with
    | nil => exact iff_of_true rfl (by simp)
    | cons resting queue =>
      have apart := (halts resting rfl).resolve_left more
      exact iff_of_false (by simp) (fun all => apart (all resting List.mem_cons_self))
  | @trade incoming resting filled hit left rest untouched trades quantity open_ size fill fillHit
      tail ih =>
    have cont := (OrderBook.applyFill_spec fill).toContinues
    have crosses : Crosses incoming.side incoming.effectivePrice resting.effectivePrice :=
      not_not.mp (not_or.mp open_).2
    have gone : keep hit = [] := by
      rcases filled_or_hit size fill fillHit with done | gone
      · cases tail with
        | stop => exact absurd done more
        | trade open_ => exact absurd (Or.inl done) open_
      · rw [keep, if_pos gone]
    rw [gone, List.nil_append, ih more, cont.side, cont.effectivePrice]
    constructor
    · exact fun all => List.forall_mem_cons.mpr ⟨crosses, all⟩
    · exact fun all o ho => all o (List.mem_cons_of_mem _ ho)

/-- What the incoming order executes is what the queue gives. -/
theorem Walked.conserves [ExactDecimal D] {incoming left : Order D}
    {queue untouched : List (Order D)} {trades : List (RawTrade D)}
    (w : Walked incoming queue trades left untouched) :
    val incoming.remaining - val left.remaining = openQuantity queue - openQuantity untouched ∧
      val left.cumQuantity - val incoming.cumQuantity =
        val incoming.remaining - val left.remaining := by
  induction w with
  | stop => exact ⟨by rw [sub_self, sub_self], by rw [sub_self, sub_self]⟩
  | @trade incoming resting filled hit left rest untouched trades quantity open_ size fill fillHit _
      ih =>
    obtain ⟨same, executed⟩ := ih
    have spent := val_sub (OrderBook.applyFill_spec fill).remaining
    have added := val_add (OrderBook.applyFill_spec fill).cum
    have taken := val_sub (OrderBook.applyFill_spec fillHit).remaining
    have kept : openQuantity (keep hit) = val hit.remaining := by
      unfold keep
      split
      · rename_i gone
        rw [gone, LawfulDecimal.val_zero, openQuantity_nil]
      · simp
    rw [openQuantity_append, openQuantity_cons, kept]
    exact ⟨by linarith, by linarith⟩

/-- A walk fills the order or empties the queue if and only if the order crosses all
of the queue, or is absorbed by it. -/
theorem Walked.exhausts [LawfulDecimal D] {incoming left : Order D}
    {queue untouched : List (Order D)} {trades : List (RawTrade D)}
    (w : Walked incoming queue trades left untouched) :
    (∀ o ∈ queue, Crosses incoming.side incoming.effectivePrice o.effectivePrice) ∨
        Absorbs incoming.side incoming.effectivePrice incoming.remaining queue ↔
      left.remaining = 0 ∨ untouched = [] := by
  by_cases done : left.remaining = 0
  · exact iff_of_true (Or.inr (w.absorbs.mp done)) (Or.inl done)
  · rw [or_iff_left (fun h => done (w.absorbs.mpr h)), or_iff_right done]
    exact (w.sweeps done).symm

/-- A walk executes all that both sides have if and only if it fills the order or
empties the queue. -/
theorem Walked.executes [ExactDecimal D] {incoming left : Order D}
    {queue untouched : List (Order D)} {trades : List (RawTrade D)}
    (w : Walked incoming queue trades left untouched) (nonneg : 0 ≤ left.remaining)
    (positive : ∀ o ∈ untouched, 0 < o.remaining) :
    val left.cumQuantity - val incoming.cumQuantity =
        min (val incoming.remaining) (openQuantity queue) ↔
      left.remaining = 0 ∨ untouched = [] := by
  obtain ⟨given, executed⟩ := w.conserves
  have least : 0 ≤ val left.remaining := val_nonneg.mpr nonneg
  have all : 0 ≤ openQuantity untouched := Engine.openQuantity_nonneg positive
  rw [executed]
  constructor
  · intro minimal
    rcases min_choice (val incoming.remaining) (openQuantity queue) with whole | whole
    · left
      rw [whole] at minimal
      exact val_inj.mp (by rw [LawfulDecimal.val_zero]; linarith)
    · right
      rw [whole] at minimal
      by_contra more
      have open_ := Engine.openQuantity_pos more positive
      linarith
  · rintro (done | empty)
    · rw [done, LawfulDecimal.val_zero] at given ⊢
      rw [min_eq_left (by linarith)]
      exact sub_zero _
    · rw [empty, openQuantity_nil] at given
      rw [min_eq_right (by linarith)]
      linarith

namespace Engine

/-- If the order ends cancelled with a remainder, the opposite side is empty. -/
def LeavesNothing (e' : Engine D) (s : String) (id : OrderId) (i : Int) (side : Side) : Prop :=
  ∀ r, e'.order s id = some r → r.state = .cancelled → 0 < r.remaining →
    (e'.book i).queue side.opposite = []

/-- The order executed all it could: its open quantity, or the opposite side. -/
def TakesAll (e e' : Engine D) (s : String) (id : OrderId) (i : Int) (side : Side)
    (executed open_ : D) : Prop :=
  ∀ r, e'.order s id = some r → val r.cumQuantity - val executed =
    min (val open_) (openQuantity ((e.book i).queue side.opposite))

/-- Every order on the opposite side trades with a market order, or those that do
absorb the quantity. -/
def InReach (e : Engine D) (i : Int) (side : Side) (quantity : D) : Prop :=
  (∀ o ∈ (e.book i).queue side.opposite,
    Crosses side (marketPrice D side) o.effectivePrice) ∨
  Absorbs side (marketPrice D side) quantity ((e.book i).queue side.opposite)

/-- The two readings of a market order that leaves no liquidity behind. -/
def Sweeps (e e' : Engine D) (s : String) (id : OrderId) (i : Int) (side : Side)
    (executed open_ : D) : Prop :=
  (LeavesNothing e' s id i side ↔ InReach e i side open_) ∧
    (ExactDecimal D → (TakesAll e e' s id i side executed open_ ↔ InReach e i side open_))

section Lawful

variable [LawfulDecimal D]

/-- A remainder of a matched market order is left to nobody if and only if nothing
remains of it or of the other side. -/
theorem leavesNothing_iff {e' : Engine D} {v : View D} {gap : Gap} {order left final : Order D}
    {trades : List (RawTrade D)} {book' : OrderBook D}
    (a : Coherent.Added v gap order trades left final book') (market : order.orderType = .market)
    (priced : 0 < order.remaining)
    (recorded : e'.order order.sessionId order.id = some final)
    (after : e'.book order.instrumentId = book') :
    LeavesNothing e' order.sessionId order.id order.instrumentId order.side ↔
      left.remaining = 0 ∨ book'.queue order.side.opposite = [] := by
  rcases a.final_cases with ⟨same, done⟩ | ⟨-, more, same⟩
  · have done : left.remaining = 0 := done.resolve_right (by rw [market]; decide)
    refine iff_of_true ?_ (Or.inl done)
    intro r hr _ some_
    obtain rfl := Option.some.inj (recorded.symm.trans hr)
    rw [same, done] at some_
    exact absurd some_ (lt_irrefl _)
  · have positive : 0 < final.remaining := by
      rw [same]
      exact lt_of_le_of_ne (a.walked.nonneg priced.le) (Ne.symm more)
    rw [or_iff_right more, ← after]
    constructor
    · exact fun nothing => nothing final recorded (by rw [same]) positive
    · exact fun empty _ _ _ _ => empty

theorem sweeps_added {e e' : Engine D} {v : View D} {gap : Gap} {order left final : Order D}
    {trades : List (RawTrade D)} {book' : OrderBook D}
    (a : Coherent.Added v gap order trades left final book') (market : order.orderType = .market)
    (regular : order.id ≠ quoteOrderId) (priced : 0 < order.remaining)
    (view : e'.view = v.added order trades final book')
    (before : v.queue order.instrumentId order.side.opposite =
      (e.book order.instrumentId).queue order.side.opposite) :
    Sweeps e e' order.sessionId order.id order.instrumentId order.side order.cumQuantity
      order.remaining := by
  have orders : e'.order = (v.added order trades final book').record := congrArg View.record view
  have books : e'.book = (v.added order trades final book').book := congrArg View.book view
  have recorded : e'.order order.sessionId order.id = some final := by
    rw [orders]
    exact a.record_self regular
  have after : e'.book order.instrumentId = book' := by
    rw [books]
    exact Function.update_self ..
  have price_eq : order.effectivePrice = marketPrice D order.side := by
    rw [Order.effectivePrice, market]
    rfl
  have reach : InReach e order.instrumentId order.side order.remaining ↔
      left.remaining = 0 ∨ book'.queue order.side.opposite = [] := by
    unfold InReach
    rw [← price_eq, ← before]
    exact a.walked.exhausts
  rw [Sweeps, reach]
  refine ⟨leavesNothing_iff a market priced recorded after, ?_⟩
  intro exact_
  have cum : val final.cumQuantity = val left.cumQuantity := by
    rcases a.final_cases with ⟨same, -⟩ | ⟨-, -, same⟩ <;> rw [same]
  have rests : ∀ o ∈ book'.queue order.side.opposite, 0 < o.remaining := by
    intro o ho
    refine (a.fit order.instrumentId order.side.opposite o ?_).positive
    rwa [← after, books] at ho
  have executes := a.walked.executes (a.walked.nonneg priced.le) rests
  rw [before] at executes
  rw [← executes, ← cum]
  constructor
  · exact fun h => h final recorded
  · intro h r hr
    obtain rfl := Option.some.inj (recorded.symm.trans hr)
    exact h

/-- A market order in Real mode, new or from a replacement, leaves no liquidity it
could take behind if and only if all that rests is in reach, or enough of it. -/
theorem market_orders_sweep {e : Engine D} (h : Reachable .real e) :
    (∀ today s new e', e.createOrder today s new = .ok (.ok new.id, e') →
      new.orderType = .market →
        Sweeps e e' s new.id new.instrumentId new.side 0 new.quantity) ∧
    ∀ today s origId newId price quantity e',
      e.modifyOrderWithType today s origId newId .market price quantity = .ok (.ok (), e') →
        ∃ entry remaining, e.order s origId = some entry ∧
          sub quantity entry.cumQuantity = .ok remaining ∧
          Sweeps e e' s newId entry.instrumentId entry.side entry.cumQuantity remaining := by
  obtain ⟨c, hp⟩ := reachable_coherent h
  constructor
  · intro today s new e' returns market
    rcases createReal_cases c hp returns with
      ⟨err, impossible, -⟩ | ⟨-, trades, left, final, book', fills, execId, done⟩
    · cases impossible
    have sweeps := sweeps_added done.added (by rw [incoming_eq]; exact market)
      (by rw [incoming_id]; exact done.valid.regular)
      (by rw [incoming_eq]; exact done.valid.positive) done.effect.view rfl
    rw [incoming_eq] at sweeps
    exact sweeps
  · intro today s origId newId price quantity e' returns
    rcases modifyReal_cases c hp returns with
      ⟨⟨err, impossible, -⟩, -⟩ | ⟨-, e1, entry, order, remaining, book1, k, done⟩
    · cases impossible
    refine ⟨entry, remaining, k.recorded, k.remains, ?_⟩
    obtain ⟨hid, htype, -, hrem, hcum, -, -, hi, hside, -⟩ := k.fields
    cases done with
    | exhausted done execId effect =>
      have zero : remaining = 0 := hrem ▸ done
      have record : ∀ r, e'.order s newId = some r → r = order := by
        intro r hr
        have orders : e'.order = (rekeyed e.view entry.instrumentId book1 s origId order).record :=
          congrArg View.record effect.view
        rw [orders, ← hid] at hr
        simpa [rekeyed, View.setRecord] using hr.symm
      have reach : InReach e entry.instrumentId entry.side remaining := by
        rw [zero]
        exact Or.inr (absorbs_zero _ _ _)
      refine ⟨iff_of_true ?_ reach, fun exact_ => iff_of_true ?_ reach⟩
      · intro r hr _ more
        rw [record r hr, done] at more
        exact absurd more (lt_irrefl _)
      · intro r hr
        have resting : 0 ≤ openQuantity ((e.book entry.instrumentId).queue
          entry.side.opposite) := by
          by_cases empty : (e.book entry.instrumentId).queue entry.side.opposite = []
          · rw [empty, openQuantity_nil]
          · exact (Engine.openQuantity_pos empty (fun o ho => (c.fit _ _ o ho).positive)).le
        rw [record r hr, hcum, zero, LawfulDecimal.val_zero, sub_self, min_eq_left resting]
    | matched open_ trades left final book' fills execId added filled effect =>
      have before : (rekeyed e.view entry.instrumentId book1 s origId order).queue
          order.instrumentId order.side.opposite =
            (e.book order.instrumentId).queue order.side.opposite := by
        rw [hi, hside, ← k.left.other]
        simp [rekeyed, View.setRecord, View.setBook, View.queue]
      have sweeps := sweeps_added added htype (by rw [hid]; exact k.valid.regular)
        (lt_of_le_of_ne k.nonneg (Ne.symm open_)) effect.view before
      rw [hid, k.session c, hi, hside, hcum, hrem] at sweeps
      exact sweeps

end Lawful

/-- Four are bought at the market while three are offered. -/
def marketBuy : List (Command ℚ) := [
  .createInstrument "AAA", .registerSession "a", .registerSession "b",
  .createOrder 1 "a" ⟨1, 1, .sell, .limit, 10, 3⟩]

theorem market_orders_sweep_sample : ∃ e', (played .real marketBuy).createOrder 1 "b"
      ⟨1, 1, .buy, .market, 0, 4⟩ = .ok (.ok 1, e') ∧
    Sweeps (played .real marketBuy) e' "b" 1 1 .buy 0 4 := by
  have ran : (accepted ((played .real marketBuy).createOrder 1 "b"
      ⟨1, 1, .buy, .market, 0, 4⟩)).map Prod.fst = some 1 := by decide +kernel
  obtain ⟨⟨id, e'⟩, hran, rfl⟩ := Option.map_eq_some_iff.mp ran
  have returns := accepted_eq hran
  exact ⟨e', returns, (market_orders_sweep (played_reachable .real marketBuy)).1 1 "b" _ e'
    returns rfl⟩

/-- One is offered above the price of a market buy order. -/
def farOffer : List (Command ℚ) := [
  .createInstrument "AAA", .registerSession "a", .registerSession "b",
  .createOrder 1 "a" ⟨1, 1, .sell, .limit, 10000000000000, 1⟩,
  .createOrder 1 "b" ⟨1, 1, .buy, .market, 0, 1⟩]

/-- The market order is cancelled, and the offer stays. -/
theorem farOffer_left : Reachable .real (played .real farOffer) ∧
    ((played .real farOffer).order "b" 1).map (fun o => (o.state, o.remaining)) =
      some (.cancelled, 1) ∧
    (((played .real farOffer).book 1).queue .sell).length = 1 := by
  refine ⟨played_reachable .real farOffer, ?_⟩
  decide +kernel

end Engine

end RustTrader
