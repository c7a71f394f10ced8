import RustTrader.MirrorMatch

/-!
# The tiered policy and the mirror

Resting an order without matching closes the gap its removal or creation left;
a fixed fill changes one order in its book and in its session alike.
-/

namespace RustTrader

open Decimal

namespace Coherent

variable {D : Type} [Decimal D] {v : View D}

/-- An order is put into its book in place of what rested under its identity,
or leaves it when it is no longer active, and its record follows. -/
theorem settle {gap : Gap} {last : Order D} {book' : OrderBook D} (c : Coherent .tiered v gap)
    (covers : ∀ x, gap = some x → x = last.identity) (hid : last.id ≠ quoteOrderId)
    (recorded : ∃ r, v.record last.sessionId last.id = some r)
    (fit : last.state.isActive → Fit last.instrumentId last.side last)
    (filed : OrderBook.Filed Order.price book')
    (instrument : book'.instrumentId = last.instrumentId)
    (mem : ∀ {j : Int} {side : Side} {x : Order D},
      x ∈ (v.setBook last.instrumentId book').queue j side ↔
        (x ∈ v.queue j side ∧ x.identity ≠ last.identity) ∨
          j = last.instrumentId ∧ side = last.side ∧ x = last ∧ last.state.isActive) :
    Coherent .tiered { v.setBook last.instrumentId book' with
      record := View.synced last v.record } none := by
  have self : View.synced last v.record last.sessionId last.id = some last :=
    recorded.elim fun _ => View.synced_found
  constructor
  case filed => exact View.setBook_each c.filed filed
  case instrument =>
    exact View.setBook_each (P := fun j book => book.instrumentId = j) c.instrument instrument
  case fit =>
    intro j side x hx
    rcases mem.mp hx with ⟨hx, -⟩ | ⟨rfl, rfl, rfl, active⟩
    · exact c.fit j side x hx
    · exact fit active
  case owned =>
    intro j side x hx
    rcases mem.mp hx with ⟨hx, hne⟩ | ⟨rfl, rfl, rfl, -⟩
    · have hq := c.tiered rfl j side x hx
      exact View.owned_of_record
        ((View.synced_other hne).trans ((c.owned j side x hx).record hq)) hq
    · exact View.owned_of_record self hid
  case rests =>
    intro s id r hr _ active
    by_cases h : (s, id) = last.identity
    · obtain ⟨rfl, rfl⟩ := Prod.mk.inj h
      obtain rfl := Option.some.inj (hr.symm.trans self)
      exact mem.mpr (Or.inr ⟨rfl, rfl, rfl, active⟩)
    · have hr' : v.record s id = some r := (View.synced_other h).symm.trans hr
      obtain ⟨rfl, rfl, -⟩ := c.keyed s id r hr'
      exact mem.mpr (Or.inl ⟨c.rests _ _ r hr' (fun hg => h (covers _ hg)) active, h⟩)
  case keyed =>
    intro s id r hr
    by_cases h : (s, id) = last.identity
    · obtain ⟨rfl, rfl⟩ := Prod.mk.inj h
      obtain rfl := Option.some.inj (hr.symm.trans self)
      exact ⟨rfl, rfl, hid⟩
    · exact c.keyed s id r ((View.synced_other h).symm.trans hr)
  case legs => exact c.legs
  case absent => intro x hx; cases hx
  case real => intro hp; cases hp
  case tiered =>
    intro hp j side x hx
    rcases mem.mp hx with ⟨hx, -⟩ | ⟨rfl, rfl, rfl, -⟩
    · exact c.tiered hp j side x hx
    · exact hid

/-- Resting the order under the gap. -/
theorem join {order : Order D} {book' : OrderBook D}
    (c : Coherent .tiered v (some order.identity)) (positive : 0 < order.remaining)
    (active : order.state.isActive) (price : 0 < order.price) (hid : order.id ≠ quoteOrderId)
    (recorded : ∃ r, v.record order.sessionId order.id = some r)
    (joined : OrderBook.Joined Order.price (v.book order.instrumentId) order book') :
    Coherent .tiered { v.setBook order.instrumentId book' with
      record := View.synced order v.record } none := by
  refine c.settle (fun x hx => (Option.some.inj hx).symm) hid recorded
    (fun active => ⟨rfl, rfl, positive, active, price⟩) joined.filed
    (joined.instrument.trans (c.instrument _)) ?_
  intro j side x
  have absent : x ∈ v.queue j side → x.identity ≠ order.identity := c.absent _ rfl j side x
  rw [and_iff_left_of_imp absent, View.queue_setBook]
  by_cases hj : j = order.instrumentId
  · subst hj
    rw [if_pos rfl]
    rcases OrderBook.mem_side order.side side with rfl | rfl
    · rw [joined.mem]
      simp [View.queue, active]
    · rw [joined.other]
      simp [View.queue, Side.opposite_ne]
  · simp [hj]

/-- Who rests after one fixed fill: everybody else, and the filled order unless
nothing of it remains. -/
theorem mem_fill (c : Coherent .tiered v none) {i : Int} {side : Side} {o filled : Order D}
    {book' : OrderBook D} (ho : o ∈ v.queue i side)
    (executed : OrderBook.Executed (v.book i) side o filled book') {j : Int} {side' : Side}
    {x : Order D} : x ∈ (v.setBook i book').queue j side' ↔
      (x ∈ v.queue j side' ∧ x.identity ≠ o.identity) ∨
        j = i ∧ side' = side ∧ x = filled ∧ filled.remaining ≠ 0 := by
  have apart : ¬ (j = i ∧ side' = side) → x ∈ v.queue j side' → x.identity ≠ o.identity := by
    intro hne hx same
    obtain ⟨-, hj, hs⟩ := c.place_unique ho hx same.symm (c.tiered rfl i side o ho)
    exact hne ⟨hj.symm, hs.symm⟩
  rw [View.queue_setBook]
  by_cases hj : j = i
  · subst hj
    rw [if_pos rfl]
    rcases OrderBook.mem_side side side' with rfl | rfl
    · rw [executed.mem (c.filed j), mem_keep]
      simp [View.queue]
    · have hs := Side.opposite_ne side
      rw [executed.other, and_iff_left_of_imp (apart (fun h => hs h.2))]
      simp [View.queue, hs]
  · rw [if_neg hj, and_iff_left_of_imp (apart (fun h => hj h.1))]
    simp [hj]

/-- One fixed fill of a resting order. -/
theorem fill [LawfulDecimal D] (c : Coherent .tiered v none) {i : Int} {side : Side}
    {o filled : Order D} {book' : OrderBook D} {qty price : D} (ho : o ∈ v.queue i side)
    (hfill : applyFill o qty price = .ok filled) (hle : qty ≤ o.remaining)
    (executed : OrderBook.Executed (v.book i) side o filled book') :
    Coherent .tiered { v.setBook i book' with record := View.synced filled v.record } none := by
  have f := OrderBook.applyFill_spec hfill
  have hid : o.id ≠ quoteOrderId := c.tiered rfl i side o ho
  have fit := c.fit i side o ho
  obtain ⟨session, id⟩ := Prod.mk.inj f.identity
  obtain rfl : filled.instrumentId = i := f.instrumentId.trans fit.instrument
  obtain rfl : filled.side = side := f.side.trans fit.side
  have active : filled.state.isActive ↔ filled.remaining ≠ 0 := by
    rw [f.state]
    split
    · simp_all [OrderState.isActive]
    · simp_all [OrderState.isActive]
  refine c.settle (fun x hx => ?_) (id ▸ hid) ⟨o, ?_⟩ (fun h => ?_) executed.filed
    (executed.instrument.trans (c.instrument _)) ?_
  · cases hx
  · rw [session, id]
    exact (c.owned _ _ o ho).record hid
  · exact ⟨rfl, rfl, lt_of_le_of_ne (fill_nonneg hfill hle) (active.mp h).symm, h,
      f.price ▸ fit.price⟩
  · intro j side' x
    rw [c.mem_fill ho executed, f.identity, active]

end Coherent

end RustTrader
