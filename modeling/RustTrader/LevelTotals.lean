import Mathlib.Algebra.BigOperators.Group.List.Basic
import RustTrader.Matching

/-!
# Level totals

A price level keeps its aggregate quantity next to its orders. With exact
arithmetic it is the sum of what remains of them, and stays so under every
operation of the book.
-/

namespace RustTrader

open Decimal

variable {D : Type} [Decimal D]

/-- What remains of some orders together. -/
def openQuantity (orders : List (Order D)) : ℚ := (orders.map (fun o => val o.remaining)).sum

@[simp] theorem openQuantity_nil : openQuantity ([] : List (Order D)) = 0 := rfl

@[simp] theorem openQuantity_cons (o : Order D) (orders : List (Order D)) :
    openQuantity (o :: orders) = val o.remaining + openQuantity orders := by
  simp [openQuantity]

@[simp] theorem openQuantity_append (a b : List (Order D)) :
    openQuantity (a ++ b) = openQuantity a + openQuantity b := by
  simp [openQuantity]

namespace PriceLevel

def Summed (level : PriceLevel D) : Prop := val level.total = openQuantity level.queue

section Exact

variable [ExactDecimal D]

theorem new_summed (price : D) : (new price).Summed := LawfulDecimal.val_zero

theorem Pushed.summed {level level' : PriceLevel D} {order : Order D}
    (pushed : Pushed level order level') (h : level.Summed) : level'.Summed := by
  have total := val_add pushed.total
  unfold Summed at *
  rw [total, pushed.queue, h]
  simp

theorem Removed.summed {level level' : PriceLevel D} {order : Order D}
    (removed : Removed level order level') (h : level.Summed) : level'.Summed := by
  have total := val_sub removed.total
  obtain ⟨front, back, hq, hq'⟩ := removed.queue
  unfold Summed at *
  rw [hq] at h
  simp only [openQuantity_append, openQuantity_cons] at h
  rw [total, hq', h, openQuantity_append]
  linarith

/-- The order that is written back is the resting one less `quantity`. -/
theorem Filled.summed {level level' : PriceLevel D} {order : Order D} {quantity : D}
    (filled : Filled level order quantity level') (h : level.Summed)
    (fills : ∀ resting ∈ level.queue, resting.identity = order.identity →
      val order.remaining = val resting.remaining - val quantity) : level'.Summed := by
  obtain ⟨front, resting, back, hid, hq, hq', hsub⟩ := filled.queue
  have left := fills resting (by rw [hq]; simp) hid
  have total := val_sub hsub
  unfold Summed at *
  rw [hq] at h
  simp only [openQuantity_append, openQuantity_cons] at h
  rw [hq', total, h]
  by_cases hz : order.remaining = 0
  · simp only [hz, if_true, openQuantity_append, openQuantity_nil]
    linarith
  · simp only [hz, if_false, openQuantity_append, openQuantity_cons, openQuantity_nil, left]
    linarith

end Exact

end PriceLevel

namespace Levels

/-- Every level shows what rests on it. -/
def Summed (levels : Levels D) : Prop := ∀ key level, levels.get? key = some level → level.Summed

theorem Summed.insert {levels : Levels D} (h : Summed levels) {key : D} {level : PriceLevel D}
    (summed : level.Summed) : Summed (levels.insert key level) := by
  intro k l hl
  rw [SortedMap.get?_insert] at hl
  split at hl
  · exact Option.some.inj hl ▸ summed
  · exact h k l hl

theorem Summed.storeLevel {levels : Levels D} (h : Summed levels) {key : D}
    {level : PriceLevel D} (summed : level.Summed) :
    Summed (OrderBook.storeLevel levels key level) := by
  unfold OrderBook.storeLevel
  split
  · intro k l hl
    rw [SortedMap.get?_erase] at hl
    split at hl
    · cases hl
    · exact h k l hl
  · exact h.insert summed

theorem Summed.getD [ExactDecimal D] {levels : Levels D} (h : Summed levels) (key : D) :
    (levels.getD key (PriceLevel.new key)).Summed := by
  cases hl : levels.get? key with
  | none =>
    simp only [SortedMap.getD, hl, Option.getD_none]
    exact PriceLevel.new_summed key
  | some level =>
    simp only [SortedMap.getD, hl, Option.getD_some]
    exact h key level hl

end Levels

namespace OrderBook

def Summed (book : OrderBook D) : Prop := ∀ side, Levels.Summed (book.levels side)

theorem new_summed (instrumentId : Int) : (new instrumentId : OrderBook D).Summed := by
  intro side key level h
  cases side <;> cases h

theorem Summed.setLevels {book : OrderBook D} (h : book.Summed) {side : Side} {levels : Levels D}
    (summed : Levels.Summed levels) : (book.setLevels side levels).Summed := by
  intro side'
  by_cases same : side' = side
  · subst same
    simpa using summed
  · rw [levels_setLevels_ne book levels same]
    exact h side'

section Exact

variable [ExactDecimal D] {keyOf : Order D → D} {book book' : OrderBook D}

omit [ExactDecimal D] in
theorem remove_instrument {s : String} {id : OrderId} {side : Side} {price : D}
    {removed : Order D} (h : book.remove s id side price = .ok (some (removed, book'))) :
    book'.instrumentId = book.instrumentId := by
  unfold remove at h
  split at h
  · cases h
  · obtain ⟨result, -, h⟩ := Exec.bind_ok.mp h
    cases result with
    | none => cases h
    | some pair =>
      cases h
      exact instrumentId_setLevels ..

theorem remove_summed (filed : Filed keyOf book) (h : book.Summed) {s : String} {id : OrderId}
    {side : Side} {price : D} {removed : Order D}
    (ok : book.remove s id side price = .ok (some (removed, book'))) : book'.Summed := by
  unfold remove at ok
  cases hget : (book.levels side).get? price with
  | none =>
    rw [hget] at ok
    cases ok
  | some level =>
    simp only [hget] at ok
    obtain ⟨result, hremoved, ok⟩ := Exec.bind_ok.mp ok
    cases result with
    | none => cases ok
    | some pair =>
      obtain ⟨o, level'⟩ := pair
      cases ok
      have spec := (PriceLevel.remove_spec ((filed.wf side).level price level hget) hremoved).2
      exact h.setLevels ((h side).storeLevel ((spec o level' rfl).summed (h side price level hget)))

theorem push_summed (filed : Filed keyOf book) (h : book.Summed) {order : Order D} {key : D}
    {level' : PriceLevel D} (fresh : ∀ o ∈ book.queue order.side, o.identity ≠ order.identity)
    (ok : ((book.levels order.side).getD key (PriceLevel.new key)).pushBack order = .ok level') :
    (book.setLevels order.side ((book.levels order.side).insert key level')).Summed := by
  have wf := ((filed.wf order.side).getD_wf key).1
  have pushed := PriceLevel.pushBack_spec wf (fun o ho => fresh o (by
    rw [queue, Levels.queue_of_getD order.side _ key]
    simp [ho])) ok
  exact h.setLevels ((h order.side).insert (pushed.summed ((h order.side).getD key)))

theorem insert_summed (filed : Filed Order.effectivePrice book) (h : book.Summed)
    {order : Order D} (fresh : ∀ o ∈ book.queue order.side, o.identity ≠ order.identity)
    (ok : book.insert order = .ok book') : book'.Summed := by
  unfold insert at ok
  obtain ⟨level', hlevel, ok⟩ := Exec.bind_ok.mp ok
  cases ok
  exact push_summed filed h fresh hlevel

theorem insertOnly_summed (filed : Filed Order.price book) (h : book.Summed)
    {order snapshot : Order D}
    (fresh : ∀ o ∈ book.queue order.side, o.identity ≠ order.identity)
    (ok : book.insertOnly order = .ok (.ok (snapshot, book'))) : book'.Summed := by
  unfold insertOnly at ok
  split at ok
  · cases ok
  · change (if HashMap.contains ((book.levels order.side).getD order.price
      (PriceLevel.new order.price)).index order.identity = true then _ else _) = _ at ok
    split at ok
    · cases ok
    · obtain ⟨level', hlevel, ok⟩ := Exec.bind_ok.mp ok
      cases ok
      have fresh' : ∀ o ∈ book.queue (restState order).side,
          o.identity ≠ (restState order).identity := fresh
      exact push_summed filed h fresh' hlevel

omit [ExactDecimal D] in
theorem insertOnly_instrument {order snapshot : Order D}
    (ok : book.insertOnly order = .ok (.ok (snapshot, book'))) :
    book'.instrumentId = book.instrumentId := by
  unfold insertOnly at ok
  split at ok
  · cases ok
  · change (if HashMap.contains ((book.levels order.side).getD order.price
      (PriceLevel.new order.price)).index order.identity = true then _ else _) = _ at ok
    split at ok
    · cases ok
    · obtain ⟨level', -, ok⟩ := Exec.bind_ok.mp ok
      cases ok
      exact instrumentId_setLevels ..

/-- A fill written back to the level where its order rests. -/
theorem fill_summed {levels : Levels D} (wf : Levels.WF keyOf levels) {side : Side}
    (distinct : Keyed.Distinct Order.identity (Levels.queue side levels))
    (h : Levels.Summed levels) {o filled : Order D} {quantity price key : D}
    {level level' : PriceLevel D} (rests : o ∈ Levels.queue side levels)
    (hget : levels.get? key = some level) (fill : FillOf o quantity price filled)
    (ok : level.updateFill filled quantity = .ok level') :
    Levels.Summed (storeLevel levels key level') := by
  refine h.storeLevel ((PriceLevel.updateFill_spec (wf.level key level hget) ok).summed
    (h key level hget) ?_)
  intro resting hr hid
  have there : resting ∈ Levels.queue side levels := Levels.mem_queue.mpr ⟨key, level, hget, hr⟩
  obtain rfl := distinct.eq_of_key there rests (hid.trans fill.identity)
  exact val_sub fill.remaining

theorem execute_summed (filed : Filed Order.price book) (h : book.Summed) {side : Side}
    {o : Order D} (ho : o ∈ book.queue side) (active : o.state.isActive) {qty price : D}
    (hqty : 0 < qty) (hle : qty ≤ o.remaining) (hprice : 0 < price) {filled : Order D}
    (ok : book.execute o.sessionId o.id side o.price qty price = .ok (.ok (filled, book'))) :
    book'.Summed := by
  obtain ⟨level, hget, -, heq⟩ := execute_eq filed ho active hqty hle hprice
  rw [heq] at ok
  obtain ⟨filled, hfill, ok⟩ := Exec.bind_ok.mp ok
  obtain ⟨level', hlevel, ok⟩ := Exec.bind_ok.mp ok
  cases ok
  exact h.setLevels (fill_summed (filed.wf side) (filed.distinct side) (h side) ho hget
    (applyFill_spec hfill) hlevel)

theorem settle_summed {levels levels' : Levels D} (wf : Levels.WF Order.effectivePrice levels)
    {side : Side} (distinct : Keyed.Distinct Order.identity (Levels.queue side levels))
    (h : Levels.Summed levels) {o filled : Order D} {quantity price : D}
    (rests : o ∈ Levels.queue side levels) (fill : FillOf o quantity price filled)
    (ok : settle levels filled quantity = .ok levels') : Levels.Summed levels' := by
  unfold settle at ok
  obtain ⟨level, hlevel, ok⟩ := Exec.bind_ok.mp ok
  obtain ⟨level', hfill, ok⟩ := Exec.bind_ok.mp ok
  cases ok
  cases hget : levels.get? filled.effectivePrice with
  | none =>
    rw [hget] at hlevel
    cases hlevel
  | some found =>
    rw [hget, unwrap_some] at hlevel
    obtain rfl := Except.ok.inj hlevel
    exact fill_summed wf distinct h rests hget fill hfill

theorem tradeTops_summed (filed : Filed Order.effectivePrice book) (h : book.Summed)
    {bid ask : Order D} (hb : bid ∈ book.queue .buy) (ha : ask ∈ book.queue .sell)
    {trade : RawTrade D} (ok : book.tradeTops bid ask = .ok (trade, book')) : book'.Summed := by
  unfold tradeTops at ok
  obtain ⟨buyer, hbuyer, ok⟩ := Exec.bind_ok.mp ok
  obtain ⟨seller, hseller, ok⟩ := Exec.bind_ok.mp ok
  obtain ⟨bids, hbids, ok⟩ := Exec.bind_ok.mp ok
  obtain ⟨asks, hasks, ok⟩ := Exec.bind_ok.mp ok
  cases ok
  have summedBids := settle_summed (filed.wf .buy) (filed.distinct .buy) (h .buy) hb
    (applyFill_spec hbuyer) hbids
  have summedAsks := settle_summed (filed.wf .sell) (filed.distinct .sell) (h .sell) ha
    (applyFill_spec hseller) hasks
  intro side
  cases side with
  | buy => exact summedBids
  | sell => exact summedAsks

/-- One round of matching, with what the next one relies on. -/
theorem matchStep_summed (filed : Filed Order.effectivePrice book) (h : book.Summed)
    {trade : RawTrade D} (ok : book.matchStep = .ok (some (trade, book'))) :
    Filed Order.effectivePrice book' ∧ book'.Summed ∧ book'.instrumentId = book.instrumentId := by
  cases hb : book.queue .buy with
  | nil =>
    rw [matchStep_empty filed (Or.inl hb)] at ok
    cases ok
  | cons bid bids =>
    cases ha : book.queue .sell with
    | nil =>
      rw [matchStep_empty filed (Or.inr ha)] at ok
      cases ok
    | cons ask asks =>
      rw [matchStep_heads filed hb ha] at ok
      split at ok
      · cases ok
      · cases hops : book.tradeTops bid ask with
        | error p =>
          rw [hops] at ok
          cases ok
        | ok result =>
          rw [hops] at ok
          obtain rfl : result = (trade, book') := Option.some.inj (Except.ok.inj ok)
          have traded := tradeTops_spec filed hb ha hops
          exact ⟨traded.filed, tradeTops_summed filed h (by simp [hb]) (by simp [ha]) hops,
            traded.instrument⟩

theorem matchLoop_summed (fuel : Nat) : ∀ {book book' : OrderBook D} {trades : List (RawTrade D)},
    Filed Order.effectivePrice book → book.Summed → matchLoop fuel book = .ok (trades, book') →
      Filed Order.effectivePrice book' ∧ book'.Summed ∧ book'.instrumentId = book.instrumentId := by
  induction fuel with
  | zero =>
    intro book book' trades _ _ ok
    cases ok
  | succ fuel ih =>
    intro book book' trades filed h ok
    rw [matchLoop] at ok
    obtain ⟨round, hround, ok⟩ := Exec.bind_ok.mp ok
    cases round with
    | none =>
      cases ok
      exact ⟨filed, h, rfl⟩
    | some pair =>
      obtain ⟨trade, mid⟩ := pair
      obtain ⟨⟨tail, last⟩, hloop, ok⟩ := Exec.bind_ok.mp ok
      cases ok
      obtain ⟨filed', summed, same⟩ := matchStep_summed filed h hround
      obtain ⟨filed'', summed', same'⟩ := ih filed' summed hloop
      exact ⟨filed'', summed', same'.trans same⟩

theorem add_summed (filed : Filed Order.effectivePrice book) (h : book.Summed) {order : Order D}
    (fresh : ∀ o ∈ book.queue order.side, o.identity ≠ order.identity)
    {trades : List (RawTrade D)} {final : Option (Order D)}
    (ok : book.add order = .ok (trades, final, book')) :
    book'.Summed ∧ book'.instrumentId = book.instrumentId := by
  unfold add at ok
  obtain ⟨mid, hmid, ok⟩ := Exec.bind_ok.mp ok
  obtain ⟨⟨ts, after⟩, hloop, ok⟩ := Exec.bind_ok.mp ok
  obtain ⟨⟨f, last⟩, hfinish, ok⟩ := Exec.bind_ok.mp ok
  cases ok
  have fresh' : ∀ o ∈ book.queue ({ order with state := .booked } : Order D).side,
      o.identity ≠ ({ order with state := .booked } : Order D).identity := fresh
  have joined := insert_spec filed fresh' hmid
  obtain ⟨filed', summed, same⟩ :=
    matchLoop_summed _ joined.filed (insert_summed filed h fresh' hmid) hloop
  have start := same.trans joined.instrument
  unfold finish at hfinish
  split at hfinish
  · split at hfinish
    · obtain ⟨removed, hremove, hfinish⟩ := Exec.bind_ok.mp hfinish
      cases removed with
      | none => cases hfinish
      | some pair =>
        cases hfinish
        exact ⟨remove_summed filed' summed hremove, (remove_instrument hremove).trans start⟩
    · cases hfinish
      exact ⟨summed, start⟩
  · cases hfinish
    exact ⟨summed, start⟩

end Exact

/-- The published levels of a side. -/
def depth (book : OrderBook D) (side : Side) : List (BookLevel D) :=
  match side with
  | .buy => book.buildBook.bids
  | .sell => book.buildBook.asks

/-- Levels that show a side as it is: best price first, one level a price, each
with the open quantity at its price. -/
structure Depicts (book : OrderBook D) (side : Side) (levels : List (BookLevel D)) : Prop where
  sorted : levels.Pairwise (fun a b => Levels.Prefers side a.price b.price)
  total : ∀ l ∈ levels, val l.quantity =
    openQuantity ((book.queue side).filter (fun o => o.price = l.price))
  inhabited : ∀ l ∈ levels, ∃ o ∈ book.queue side, o.price = l.price
  covered : ∀ o ∈ book.queue side, ∃ l ∈ levels, l.price = o.price

theorem depth_eq (book : OrderBook D) (side : Side) : book.depth side =
    (Levels.ranked side (book.levels side)).map (fun e => ⟨e.2.price, e.2.total⟩) := by
  cases side with
  | buy => simp [depth, buildBook, buildLevels, Levels.ranked, levels, SortedMap.values,
      List.map_reverse]
  | sell => simp [depth, buildBook, buildLevels, Levels.ranked, levels, SortedMap.values]

/-- The orders at one price are the orders of its level. -/
theorem filter_price {book : OrderBook D} (filed : Filed Order.price book) {side : Side} {key : D}
    {level : PriceLevel D} (hget : (book.levels side).get? key = some level) :
    (book.queue side).filter (fun o => o.price = key) = level.queue := by
  have wf := filed.wf side
  have better : ∀ o ∈ Levels.ordersOf (Levels.better side (book.levels side) key),
    o.price ≠ key := by
    intro o ho same
    have prefers := wf.better_key ho
    rw [same] at prefers
    cases side <;> exact lt_irrefl _ prefers
  have worse : ∀ o ∈ Levels.ordersOf (Levels.worse side (book.levels side) key), o.price ≠ key := by
    intro o ho same
    have prefers := wf.worse_key ho
    rw [same] at prefers
    cases side <;> exact lt_irrefl _ prefers
  have here : ∀ o ∈ level.queue, o.price = key := wf.filed key level hget
  rw [queue, Levels.queue_of_get? hget, List.filter_append, List.filter_append]
  have front : (Levels.ordersOf (Levels.better side (book.levels side) key)).filter
      (fun o => o.price = key) = [] := by
    rw [List.filter_eq_nil_iff]
    exact fun o ho same => better o ho (of_decide_eq_true same)
  have back : (Levels.ordersOf (Levels.worse side (book.levels side) key)).filter
      (fun o => o.price = key) = [] := by
    rw [List.filter_eq_nil_iff]
    exact fun o ho same => worse o ho (of_decide_eq_true same)
  have middle : level.queue.filter (fun o => o.price = key) = level.queue := by
    rw [List.filter_eq_self]
    exact fun o ho => decide_eq_true (here o ho)
  rw [front, back, middle, List.nil_append, List.append_nil]

theorem depth_depicts {book : OrderBook D} (filed : Filed Order.price book) (summed : book.Summed)
    (side : Side) : book.Depicts side (book.depth side) := by
  have wf := filed.wf side
  have found : ∀ l ∈ book.depth side, ∃ key level, (book.levels side).get? key = some level ∧
      l.price = key ∧ l.quantity = level.total := by
    intro l hl
    rw [depth_eq] at hl
    obtain ⟨⟨key, level⟩, he, rfl⟩ := List.mem_map.mp hl
    have hget := Levels.mem_ranked.mp he
    exact ⟨key, level, hget, wf.price key level hget, rfl⟩
  refine ⟨?_, ?_, ?_, ?_⟩
  · rw [depth_eq, List.pairwise_map]
    refine (Levels.ranked_sorted side (book.levels side)).imp_of_mem ?_
    intro a b ha hb prefers
    rw [wf.price _ _ (Levels.mem_ranked.mp ha), wf.price _ _ (Levels.mem_ranked.mp hb)]
    exact prefers
  · intro l hl
    obtain ⟨key, level, hget, price, quantity⟩ := found l hl
    rw [price, quantity, filter_price filed hget]
    exact summed side key level hget
  · intro l hl
    obtain ⟨key, level, hget, price, -⟩ := found l hl
    obtain ⟨o, ho⟩ := List.exists_mem_of_ne_nil _ (wf.nonempty key level hget)
    refine ⟨o, Levels.mem_queue.mpr ⟨key, level, hget, ho⟩, ?_⟩
    rw [price]
    exact wf.filed key level hget o ho
  · intro o ho
    obtain ⟨key, level, hget, ho⟩ := Levels.mem_queue.mp ho
    refine ⟨⟨level.price, level.total⟩, ?_, ?_⟩
    · rw [depth_eq]
      exact List.mem_map.mpr ⟨(key, level), Levels.mem_ranked.mpr hget, rfl⟩
    · rw [wf.filed key level hget o ho]
      exact wf.price key level hget

end OrderBook

end RustTrader
