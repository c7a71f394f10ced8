import RustTrader.LevelTotals

/-!
# Changes of a level

Whatever changes a book removes an order from one level, fills one in place, or adds
one at the back of a level. What holds of every level of a book is followed through
these changes, with no regard to the other levels.
-/

namespace RustTrader

open Decimal

variable {D : Type} [Decimal D]

namespace PriceLevel

/-- The identities on a level, first in first out. -/
def waiting (level : PriceLevel D) : List Order.Identity := level.queue.map Order.identity

/-- One order leaves a level or is filled in place. -/
inductive Shrinks (level level' : PriceLevel D) : Prop where
  | remove {session : String} {id : OrderId} {order : Order D}
      (done : level.remove session id = .ok (some (order, level')))
  | fill {resting filled : Order D} {quantity price : D} (rests : resting ∈ level.queue)
      (fill : OrderBook.FillOf resting quantity price filled)
      (done : level.updateFill filled quantity = .ok level')

omit [Decimal D] in
theorem queue_of_top {level : PriceLevel D} {order : Order D} (h : level.top = .ok order) :
    ∃ rest, level.queue = order :: rest := by
  unfold top at h
  obtain ⟨entry, first, h⟩ := Exec.bind_ok.mp h
  obtain rfl := Except.ok.inj h
  cases found : level.orders.first? with
  | none =>
    rw [found] at first
    cases first
  | some e =>
    rw [found] at first
    obtain rfl := Except.ok.inj first
    obtain ⟨rest, entries⟩ := List.head?_eq_some_iff.mp found
    exact ⟨rest.map Prod.snd, by rw [queue, SortedMap.values, entries, List.map_cons]⟩

theorem pushBack_fresh {level level' : PriceLevel D} {order : Order D} (wf : level.WF)
    (h : level.pushBack order = .ok level') : order.identity ∉ level.waiting := by
  intro waits
  obtain ⟨o, rests, same⟩ := List.mem_map.mp waits
  obtain ⟨key, stored⟩ := mem_queue.mp rests
  have indexed := (wf.indexed order.identity key).mpr ⟨o, stored, same⟩
  have known : HashMap.contains level.index order.identity = true := by
    rw [HashMap.contains, indexed]
    rfl
  unfold pushBack insertAt at h
  dsimp only at h
  rw [if_pos known] at h
  split at h <;> cases h

/-- What a shrinking level keeps, order by order. -/
theorem Shrinks.spec {level level' : PriceLevel D} (wf : level.WF) (h : level.Shrinks level') :
    level'.WF ∧ level'.price = level.price ∧ level'.waiting.Sublist level.waiting ∧
      ∀ o' ∈ level'.queue, ∃ o ∈ level.queue, Continues o o' := by
  cases h with
  | remove done =>
    obtain ⟨-, spec⟩ := remove_spec wf done
    have removed := spec _ _ rfl
    obtain ⟨front, back, before, after⟩ := removed.queue
    refine ⟨removed.wf, removed.price, ?_, ?_⟩
    · unfold waiting
      rw [before, after]
      exact ((List.Sublist.refl front).append (List.sublist_cons_self _ back)).map _
    · intro o mem
      rw [after] at mem
      rw [before]
      exact ⟨o, List.mem_append.mpr ((List.mem_append.mp mem).imp_right (List.mem_cons_of_mem _)),
        .refl o⟩
  | @fill resting filled quantity price rests fill done =>
    have spec := updateFill_spec wf done
    obtain ⟨front, hit, back, same, before, after, -⟩ := spec.queue
    have hit_eq : hit = resting := List.inj_on_of_nodup_map wf.queue_nodup
      (by rw [before]; simp) rests (same.trans fill.identity)
    subst hit_eq
    refine ⟨spec.wf, spec.price, ?_, ?_⟩
    · unfold waiting
      rw [before, after]
      split
      · simp
      · simp [fill.identity]
    · intro o mem
      rw [after] at mem
      rw [before]
      split at mem
      · exact ⟨o, by simp at mem ⊢; tauto, .refl o⟩
      · rw [List.append_assoc, List.mem_append, List.mem_append, List.mem_singleton] at mem
        rcases mem with mem | rfl | mem
        · exact ⟨o, by simp [mem], .refl o⟩
        · exact ⟨hit, by simp, fill.toContinues⟩
        · exact ⟨o, by simp [mem], .refl o⟩

theorem Shrinks.summed [ExactDecimal D] {level level' : PriceLevel D} (wf : level.WF)
    (h : level.Shrinks level') (summed : level.Summed) : level'.Summed := by
  cases h with
  | remove done => exact ((remove_spec wf done).2 _ _ rfl).summed summed
  | fill rests fill done =>
    refine (updateFill_spec wf done).summed summed ?_
    intro other mem same
    have other_eq := List.inj_on_of_nodup_map wf.queue_nodup mem rests (same.trans fill.identity)
    rw [other_eq]
    exact val_sub fill.remaining

end PriceLevel

namespace Levels

/-- No level is empty, and each is as `P` says for its key. -/
def Each (P : D → PriceLevel D → Prop) (levels : Levels D) : Prop :=
  ∀ key level, levels.get? key = some level → level.queue ≠ [] ∧ P key level

theorem Each.insert {P : D → PriceLevel D → Prop} {levels : Levels D} (h : Each P levels) {key : D}
    {level : PriceLevel D} (inhabited : level.queue ≠ []) (here : P key level) :
    Each P (levels.insert key level) := by
  intro k l found
  rw [SortedMap.get?_insert] at found
  split at found
  · rename_i same
    obtain rfl := Option.some.inj found
    exact same ▸ ⟨inhabited, here⟩
  · exact h k l found

theorem Each.storeLevel {P : D → PriceLevel D → Prop} {levels : Levels D} (h : Each P levels)
    {key : D} {level : PriceLevel D} (here : P key level) :
    Each P (OrderBook.storeLevel levels key level) := by
  unfold OrderBook.storeLevel
  split
  · intro k l found
    rw [SortedMap.get?_erase] at found
    split at found
    · cases found
    · exact h k l found
  · rename_i inhabited
    exact h.insert (mt PriceLevel.isEmpty_iff.mpr inhabited) here

/-- The identities waiting under a key. -/
def waiting (levels : Levels D) (key : D) : List Order.Identity :=
  (levels.getD key (PriceLevel.new key)).waiting

theorem waiting_insert (levels : Levels D) (key : D) (level : PriceLevel D) (k : D) :
    waiting (levels.insert key level) k = if k = key then level.waiting else waiting levels k := by
  unfold waiting SortedMap.getD
  rw [SortedMap.get?_insert]
  split <;> rfl

theorem waiting_storeLevel (levels : Levels D) (key : D) (level : PriceLevel D) (k : D) :
    waiting (OrderBook.storeLevel levels key level) k =
      if k = key then level.waiting else waiting levels k := by
  unfold OrderBook.storeLevel
  split
  · rename_i gone
    have nobody : level.waiting = [] := congrArg _ (PriceLevel.isEmpty_iff.mp gone)
    unfold waiting SortedMap.getD
    rw [SortedMap.get?_erase, nobody]
    split <;> rfl
  · exact waiting_insert levels key level k

theorem waiting_of_get? {levels : Levels D} {key : D} {level : PriceLevel D}
    (h : levels.get? key = some level) : waiting levels key = level.waiting := by
  unfold waiting SortedMap.getD
  rw [h]
  rfl

/-- The best level is there, and no level is better. -/
theorem best?_spec {side : Side} {levels : Levels D} {key : D} {level : PriceLevel D}
    (h : best? side levels = some (key, level)) : levels.get? key = some level ∧
      ∀ k l, levels.get? k = some l → ¬ Prefers side k key := by
  have head : ∃ rest, ranked side levels = (key, level) :: rest := by
    cases side with
    | sell => exact List.head?_eq_some_iff.mp h
    | buy =>
      refine List.head?_eq_some_iff.mp ?_
      rw [ranked, List.head?_reverse]
      exact h
  obtain ⟨rest, head⟩ := head
  have sorted := ranked_sorted side levels
  rw [head, List.pairwise_cons] at sorted
  refine ⟨mem_ranked.mp (by rw [head]; exact List.mem_cons_self), ?_⟩
  intro k l found better
  have mem : (k, l) ∈ ranked side levels := mem_ranked.mpr found
  rw [head] at mem
  rcases List.mem_cons.mp mem with same | later
  · rw [(Prod.mk.inj same).1] at better
    cases side <;> exact lt_irrefl _ better
  · cases side <;> exact lt_asymm better (sorted.1 _ later)

theorem eq_of_not_prefers {side : Side} {a b : D} (h : ¬ Prefers side a b)
    (h' : ¬ Prefers side b a) : a = b := by
  cases side with
  | buy => exact le_antisymm (not_lt.mp h) (not_lt.mp h')
  | sell => exact le_antisymm (not_lt.mp h') (not_lt.mp h)

end Levels

namespace OrderBook

/-- Every level of both sides is as `P` says. -/
def Each (P : Side → D → PriceLevel D → Prop) (book : OrderBook D) : Prop :=
  ∀ side, Levels.Each (P side) (book.levels side)

/-- The identities waiting on a side under a key. -/
def waiting (book : OrderBook D) (side : Side) (key : D) : List Order.Identity :=
  Levels.waiting (book.levels side) key

theorem Each.setLevels {P : Side → D → PriceLevel D → Prop} {book : OrderBook D} (h : book.Each P)
    {side : Side} {levels : Levels D} (here : Levels.Each (P side) levels) :
    (book.setLevels side levels).Each P := by
  intro side'
  by_cases same : side' = side
  · subst same
    rw [levels_setLevels]
    exact here
  · rw [levels_setLevels_ne book levels same]
    exact h side'

/-- One level shrinks and is written back. -/
inductive Shrinks (book : OrderBook D) : OrderBook D → Prop where
  | level (side : Side) {key : D} {level level' : PriceLevel D}
      (here : (book.levels side).get? key = some level) (shrinks : level.Shrinks level') :
      Shrinks book (book.setLevels side (storeLevel (book.levels side) key level'))

theorem Each.shrinks {P : Side → D → PriceLevel D → Prop} {book book' : OrderBook D}
    (h : book.Each P)
    (keeps : ∀ side key level level', P side key level → level.Shrinks level' → P side key level')
    (step : book.Shrinks book') : book'.Each P := by
  cases step with
  | level side here shrinks =>
    exact h.setLevels ((h _).storeLevel (keeps _ _ _ _ (h _ _ _ here).2 shrinks))

theorem waiting_setLevels (book : OrderBook D) (side : Side) (levels : Levels D) (s : Side)
    (k : D) :
    (book.setLevels side levels).waiting s k =
      if s = side then Levels.waiting levels k else book.waiting s k := by
  unfold waiting
  split
  · rename_i same
    rw [same, levels_setLevels]
  · rename_i other
    rw [levels_setLevels_ne book levels other]

/-- Nobody waiting under a key is passed by anyone else waiting there. -/
theorem Shrinks.waiting {book book' : OrderBook D}
    (wf : book.Each (fun _ _ level => level.WF)) (step : book.Shrinks book') (side : Side)
    (key : D) :
    (book'.waiting side key).Sublist (book.waiting side key) := by
  cases step with
  | @level s k level level' here shrinks =>
    rw [waiting_setLevels]
    split
    · rename_i same
      subst same
      rw [Levels.waiting_storeLevel]
      split
      · rename_i same
        subst same
        rw [OrderBook.waiting, Levels.waiting_of_get? here]
        exact (shrinks.spec (wf _ _ _ here).2).2.2.1
      · exact .refl _
    · exact .refl _

theorem settle_ok {levels levels' : Levels D} {order : Order D} {quantity : D}
    (h : settle levels order quantity = .ok levels') : ∃ level level',
      levels.get? order.effectivePrice = some level ∧ level.updateFill order quantity = .ok level' ∧
      levels' = storeLevel levels order.effectivePrice level' := by
  unfold settle at h
  obtain ⟨level, found, h⟩ := Exec.bind_ok.mp h
  obtain ⟨level', filled, h⟩ := Exec.bind_ok.mp h
  obtain rfl := Except.ok.inj h
  cases stored : levels.get? order.effectivePrice with
  | none =>
    rw [stored] at found
    cases found
  | some l =>
    rw [stored] at found
    obtain rfl := Except.ok.inj found
    exact ⟨l, level', rfl, filled, rfl⟩

/-- What a round of matching did. -/
structure Round (book : OrderBook D) (trade : RawTrade D) (book' : OrderBook D) : Prop where
  tops : ∃ bidKey bidLevel askKey askLevel bid ask,
    Levels.best? .buy book.bids = some (bidKey, bidLevel) ∧ bidLevel.top = .ok bid ∧
    Levels.best? .sell book.asks = some (askKey, askLevel) ∧ askLevel.top = .ok ask ∧
    ask.effectivePrice ≤ bid.effectivePrice ∧
    trade.quantity = minDecimal bid.remaining ask.remaining ∧
    FillOf bid trade.quantity trade.price trade.buyer ∧
    FillOf ask trade.quantity trade.price trade.seller ∧
    settle book.bids trade.buyer trade.quantity = .ok book'.bids ∧
    settle book.asks trade.seller trade.quantity = .ok book'.asks ∧
    book'.instrumentId = book.instrumentId

theorem matchStep_round {book book' : OrderBook D} {trade : RawTrade D}
    (h : book.matchStep = .ok (some (trade, book'))) : book.Round trade book' := by
  unfold matchStep at h
  split at h
  · rename_i b a last first
    obtain ⟨bid, topB, h⟩ := Exec.bind_ok.mp h
    obtain ⟨ask, topA, h⟩ := Exec.bind_ok.mp h
    split at h
    · cases h
    rename_i crosses
    obtain ⟨result, traded, h⟩ := Exec.bind_ok.mp h
    obtain rfl := Option.some.inj (Except.ok.inj h)
    unfold tradeTops at traded
    obtain ⟨buyer, bought, traded⟩ := Exec.bind_ok.mp traded
    obtain ⟨seller, sold, traded⟩ := Exec.bind_ok.mp traded
    obtain ⟨bids, settledB, traded⟩ := Exec.bind_ok.mp traded
    obtain ⟨asks, settledA, traded⟩ := Exec.bind_ok.mp traded
    obtain ⟨rfl, rfl⟩ := Prod.mk.inj (Except.ok.inj traded)
    exact ⟨b.1, b.2, a.1, a.2, bid, ask, last, topB, first, topA, not_lt.mp crosses, rfl,
      applyFill_spec bought, applyFill_spec sold, settledB, settledA, rfl⟩
  · cases h

end OrderBook

end RustTrader
