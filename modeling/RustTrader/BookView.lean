import RustTrader.OrderBook

/-!
# A book side as a queue

Read level by level from the best price on, each level first in first out, one
side of a book is a single list of orders. Every operation at a price key
leaves the better and the worse levels of that list alone; the index, the
priority counters and the totals of the levels never show in it.
-/

namespace RustTrader

open Decimal

namespace Levels

variable {D : Type} [Decimal D]

def ordersOf (entries : List (D × PriceLevel D)) : List (Order D) :=
  entries.flatMap (fun e => e.2.queue)

/-- The levels strictly better than a key, best first. -/
def better (side : Side) (levels : Levels D) (key : D) : List (D × PriceLevel D) :=
  match side with
  | .buy => (levels.above key).reverse
  | .sell => levels.below key

def worse (side : Side) (levels : Levels D) (key : D) : List (D × PriceLevel D) :=
  match side with
  | .buy => (levels.below key).reverse
  | .sell => levels.above key

/-- The levels of a side, best price first. -/
def ranked (side : Side) (levels : Levels D) : List (D × PriceLevel D) :=
  match side with
  | .buy => levels.entries.reverse
  | .sell => levels.entries

/-- All resting orders of a side in priority order. -/
def queue (side : Side) (levels : Levels D) : List (Order D) := ordersOf (ranked side levels)

/-- The best level of a side: the highest bid or the lowest ask. -/
def best? (side : Side) (levels : Levels D) : Option (D × PriceLevel D) :=
  match side with
  | .buy => levels.last?
  | .sell => levels.first?

/-- `a` is strictly preferred to `b` on this side. -/
def Prefers (side : Side) (a b : D) : Prop :=
  match side with
  | .buy => b < a
  | .sell => a < b

instance (side : Side) (a b : D) : Decidable (Prefers side a b) := by
  unfold Prefers
  cases side <;> infer_instance

/-- Levels are not empty, sit under their own price, and hold only orders that
`keyOf` files there. -/
structure WF (keyOf : Order D → D) (levels : Levels D) : Prop where
  level : ∀ key level, levels.get? key = some level → level.WF
  nonempty : ∀ key level, levels.get? key = some level → level.queue ≠ []
  price : ∀ key level, levels.get? key = some level → level.price = key
  filed : ∀ key level, levels.get? key = some level → ∀ o ∈ level.queue, keyOf o = key

theorem empty_wf (keyOf : Order D → D) : WF keyOf (∅ : Levels D) where
  level := by intro key level h; simp at h
  nonempty := by intro key level h; simp at h
  price := by intro key level h; simp at h
  filed := by intro key level h; simp at h

@[simp] theorem queue_empty (side : Side) : queue side (∅ : Levels D) = [] := by
  cases side <;> simp [queue, ranked, ordersOf]

omit [Decimal D] in
@[simp] theorem ordersOf_append (a b : List (D × PriceLevel D)) :
    ordersOf (a ++ b) = ordersOf a ++ ordersOf b := by simp [ordersOf]

omit [Decimal D] in
@[simp] theorem ordersOf_cons (e : D × PriceLevel D) (l : List (D × PriceLevel D)) :
    ordersOf (e :: l) = e.2.queue ++ ordersOf l := by simp [ordersOf]

omit [Decimal D] in
@[simp] theorem ordersOf_nil : ordersOf ([] : List (D × PriceLevel D)) = [] := rfl

theorem mem_ranked {side : Side} {levels : Levels D} {e : D × PriceLevel D} :
    e ∈ ranked side levels ↔ levels.get? e.1 = some e.2 := by
  rw [SortedMap.get?_eq_some]
  cases side <;> simp [ranked]

theorem ranked_sorted (side : Side) (levels : Levels D) :
    (ranked side levels).Pairwise (fun a b => Prefers side a.1 b.1) := by
  cases side with
  | sell => exact levels.ordered
  | buy => exact List.pairwise_reverse.mpr levels.ordered

theorem mem_queue {side : Side} {levels : Levels D} {order : Order D} :
    order ∈ queue side levels ↔ ∃ key level, levels.get? key = some level ∧
      order ∈ level.queue := by
  simp only [queue, ordersOf, List.mem_flatMap, mem_ranked]
  constructor
  · rintro ⟨e, he, ho⟩
    exact ⟨e.1, e.2, he, ho⟩
  · rintro ⟨key, level, h, ho⟩
    exact ⟨(key, level), h, ho⟩

theorem ranked_split (side : Side) (levels : Levels D) (key : D) :
    ranked side levels = better side levels key ++ levels.binding key ++
      worse side levels key := by
  have h := levels.entries_split key
  cases side with
  | sell => exact h
  | buy =>
    simp only [ranked, better, worse]
    conv_lhs => rw [h]
    have : (levels.binding key).reverse = levels.binding key := by
      cases hg : levels.get? key <;> simp [SortedMap.binding, hg]
    simp [this]

theorem queue_of_get? {side : Side} {levels : Levels D} {key : D} {level : PriceLevel D}
    (h : levels.get? key = some level) :
    queue side levels = ordersOf (better side levels key) ++ level.queue ++
      ordersOf (worse side levels key) := by
  rw [queue, ranked_split side levels key]
  simp [SortedMap.binding, h]

theorem queue_of_get?_none {side : Side} {levels : Levels D} {key : D}
    (h : levels.get? key = none) :
    queue side levels = ordersOf (better side levels key) ++ ordersOf (worse side levels key) := by
  rw [queue, ranked_split side levels key]
  simp [SortedMap.binding, h]

/-- The level at a key, empty when there is none. -/
theorem queue_of_getD (side : Side) (levels : Levels D) (key : D) :
    queue side levels = ordersOf (better side levels key) ++
      (levels.getD key (PriceLevel.new key)).queue ++ ordersOf (worse side levels key) := by
  cases h : levels.get? key with
  | none => simp [queue_of_get?_none h, SortedMap.getD, h]
  | some level => simp [queue_of_get? h, SortedMap.getD, h]

theorem queue_insert (side : Side) (levels : Levels D) (key : D) (level : PriceLevel D) :
    queue side (levels.insert key level) = ordersOf (better side levels key) ++ level.queue ++
      ordersOf (worse side levels key) := by
  have hb : better side (levels.insert key level) key = better side levels key := by
    cases side <;> simp [better]
  have hw : worse side (levels.insert key level) key = worse side levels key := by
    cases side <;> simp [worse]
  rw [queue_of_get? (SortedMap.get?_insert_self levels key level), hb, hw]

theorem queue_storeLevel (side : Side) (levels : Levels D) (key : D) (level : PriceLevel D) :
    queue side (OrderBook.storeLevel levels key level) =
      ordersOf (better side levels key) ++ level.queue ++ ordersOf (worse side levels key) := by
  unfold OrderBook.storeLevel
  by_cases he : level.orders.isEmpty = true
  · rw [if_pos he, PriceLevel.isEmpty_iff.mp he]
    cases side <;> simp [queue, ranked, better, worse, SortedMap.entries_erase]
  · rw [if_neg he, queue_insert]

theorem WF.insert {keyOf : Order D → D} {levels : Levels D} (wf : WF keyOf levels) {key : D}
    {level : PriceLevel D} (hwf : level.WF) (hne : level.queue ≠ []) (hprice : level.price = key)
    (hfiled : ∀ o ∈ level.queue, keyOf o = key) : WF keyOf (levels.insert key level) := by
  have cases_get : ∀ k l, (levels.insert key level).get? k = some l →
      (k = key ∧ l = level) ∨ levels.get? k = some l := by
    intro k l h
    rw [SortedMap.get?_insert] at h
    by_cases hk : k = key
    · rw [if_pos hk] at h
      exact Or.inl ⟨hk, (Option.some.inj h).symm⟩
    · rw [if_neg hk] at h
      exact Or.inr h
  constructor
  · intro k l h
    rcases cases_get k l h with ⟨-, rfl⟩ | h
    · exact hwf
    · exact wf.level k l h
  · intro k l h
    rcases cases_get k l h with ⟨-, rfl⟩ | h
    · exact hne
    · exact wf.nonempty k l h
  · intro k l h
    rcases cases_get k l h with ⟨rfl, rfl⟩ | h
    · exact hprice
    · exact wf.price k l h
  · intro k l h
    rcases cases_get k l h with ⟨rfl, rfl⟩ | h
    · exact hfiled
    · exact wf.filed k l h

theorem WF.erase {keyOf : Order D → D} {levels : Levels D} (wf : WF keyOf levels) (key : D) :
    WF keyOf (levels.erase key) := by
  have get : ∀ k l, (levels.erase key).get? k = some l → levels.get? k = some l := by
    intro k l h
    rw [SortedMap.get?_erase] at h
    by_cases hk : k = key
    · simp [hk] at h
    · rwa [if_neg hk] at h
  exact ⟨fun k l h => wf.level k l (get k l h), fun k l h => wf.nonempty k l (get k l h),
    fun k l h => wf.price k l (get k l h), fun k l h => wf.filed k l (get k l h)⟩

theorem WF.storeLevel {keyOf : Order D → D} {levels : Levels D} (wf : WF keyOf levels) {key : D}
    {level : PriceLevel D} (hwf : level.WF) (hprice : level.price = key)
    (hfiled : ∀ o ∈ level.queue, keyOf o = key) :
    WF keyOf (OrderBook.storeLevel levels key level) := by
  unfold OrderBook.storeLevel
  by_cases he : level.orders.isEmpty = true
  · rw [if_pos he]
    exact wf.erase key
  · rw [if_neg he]
    exact wf.insert hwf (fun h => he (PriceLevel.isEmpty_iff.mpr h)) hprice hfiled

theorem WF.get_of_mem {keyOf : Order D → D} {levels : Levels D} (wf : WF keyOf levels)
    {side : Side} {order : Order D} (h : order ∈ queue side levels) :
    ∃ level, levels.get? (keyOf order) = some level ∧ order ∈ level.queue := by
  obtain ⟨key, level, hget, ho⟩ := mem_queue.mp h
  have hkey := wf.filed key level hget order ho
  subst hkey
  exact ⟨level, hget, ho⟩

/-- Replacing the filing rule by one that agrees on the resting orders. -/
theorem WF.congr {keyOf keyOf' : Order D → D} {levels : Levels D} (wf : WF keyOf levels)
    (side : Side) (agree : ∀ o ∈ queue side levels, keyOf o = keyOf' o) : WF keyOf' levels := by
  refine ⟨wf.level, wf.nonempty, wf.price, ?_⟩
  intro key level h o ho
  rw [← agree o (mem_queue.mpr ⟨key, level, h, ho⟩)]
  exact wf.filed key level h o ho

theorem mem_better {side : Side} {levels : Levels D} {key : D} {e : D × PriceLevel D} :
    e ∈ better side levels key ↔ levels.get? e.1 = some e.2 ∧ Prefers side e.1 key := by
  rw [SortedMap.get?_eq_some]
  cases side with
  | buy => simp [better, SortedMap.mem_above, Prefers]
  | sell => simp [better, SortedMap.mem_below, Prefers]

theorem mem_worse {side : Side} {levels : Levels D} {key : D} {e : D × PriceLevel D} :
    e ∈ worse side levels key ↔ levels.get? e.1 = some e.2 ∧ Prefers side key e.1 := by
  rw [SortedMap.get?_eq_some]
  cases side with
  | buy => simp [worse, SortedMap.mem_below, Prefers]
  | sell => simp [worse, SortedMap.mem_above, Prefers]

theorem WF.better_key {keyOf : Order D → D} {levels : Levels D} (wf : WF keyOf levels)
    {side : Side} {key : D} {o : Order D} (h : o ∈ ordersOf (better side levels key)) :
    Prefers side (keyOf o) key := by
  obtain ⟨e, he, ho⟩ := List.mem_flatMap.mp h
  obtain ⟨hget, hlt⟩ := mem_better.mp he
  rw [wf.filed _ _ hget o ho]
  exact hlt

theorem WF.worse_key {keyOf : Order D → D} {levels : Levels D} (wf : WF keyOf levels)
    {side : Side} {key : D} {o : Order D} (h : o ∈ ordersOf (worse side levels key)) :
    Prefers side key (keyOf o) := by
  obtain ⟨e, he, ho⟩ := List.mem_flatMap.mp h
  obtain ⟨hget, hlt⟩ := mem_worse.mp he
  rw [wf.filed _ _ hget o ho]
  exact hlt

/-- The head of the queue is the top of the best level. -/
theorem WF.best_cases {keyOf : Order D → D} {levels : Levels D} (wf : WF keyOf levels)
    (side : Side) :
    (best? side levels = none ∧ queue side levels = []) ∨
    ∃ key level order rest, best? side levels = some (key, level) ∧
      level.top = .ok order ∧ queue side levels = order :: rest := by
  have step : ∀ key level rest, ranked side levels = (key, level) :: rest →
      best? side levels = some (key, level) ∧ levels.get? key = some level := by
    intro key level rest h
    cases side with
    | sell =>
      simp only [ranked] at h
      exact ⟨by simp [best?, SortedMap.first?, h],
        SortedMap.get?_eq_some.mpr (by rw [h]; exact List.mem_cons_self)⟩
    | buy =>
      simp only [ranked] at h
      have hl : levels.entries.getLast? = some (key, level) := by
        rw [← List.head?_reverse, h]
        rfl
      have hm : (key, level) ∈ levels.entries.reverse := by rw [h]; exact List.mem_cons_self
      exact ⟨hl, SortedMap.get?_eq_some.mpr (List.mem_reverse.mp hm)⟩
  cases hr : ranked side levels with
  | nil =>
    left
    cases side with
    | sell => exact ⟨by simpa [best?, SortedMap.first?, ranked] using hr, by simp [queue, hr]⟩
    | buy => exact ⟨by simpa [best?, SortedMap.last?, ranked] using hr, by simp [queue, hr]⟩
  | cons e rest =>
    right
    obtain ⟨hbest, hget⟩ := step e.1 e.2 rest hr
    cases hq : e.2.queue with
    | nil => exact absurd hq (wf.nonempty _ _ hget)
    | cons order tail =>
      exact ⟨e.1, e.2, order, tail ++ ordersOf rest, hbest, PriceLevel.WF.top_of_queue hq,
        by simp [queue, hr, hq]⟩

/-- No order of a queue is strictly preferred to one before it. -/
theorem WF.queue_sorted {keyOf : Order D → D} {levels : Levels D} (wf : WF keyOf levels)
    (side : Side) :
    (queue side levels).Pairwise (fun a b => ¬ Prefers side (keyOf b) (keyOf a)) := by
  have mem : ∀ e ∈ ranked side levels, levels.get? e.1 = some e.2 := fun e => mem_ranked.mp
  have sorted := ranked_sorted side levels
  rw [queue, ordersOf, List.pairwise_flatMap]
  constructor
  · intro e he
    refine List.pairwise_of_forall_mem_list ?_
    intro x hx y hy
    rw [wf.filed _ _ (mem e he) x hx, wf.filed _ _ (mem e he) y hy]
    cases side <;> exact lt_irrefl _
  · refine sorted.imp_of_mem ?_
    intro e f he hf hlt x hx y hy
    rw [wf.filed _ _ (mem e he) x hx, wf.filed _ _ (mem f hf) y hy]
    cases side <;> exact lt_asymm hlt

theorem restingCount_eq (side : Side) (levels : Levels D) :
    OrderBook.restingCount levels = (queue side levels).length := by
  have sum : OrderBook.restingCount levels =
      (levels.entries.map (fun e => e.2.queue.length)).sum := by
    simp [OrderBook.restingCount, SortedMap.values, SortedMap.size, PriceLevel.queue,
      Function.comp_def]
  rw [sum, queue, ordersOf, List.length_flatMap]
  cases side with
  | sell => rfl
  | buy => simp [ranked, List.map_reverse, List.sum_reverse]

end Levels

end RustTrader
