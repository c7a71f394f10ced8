import RustTrader.Mirror

/-!
# Matching and the mirror

What `OrderBook::add` followed by its fill reports does to books and records:
every record named in a trade takes over the last snapshot, the incoming order
its final state. Afterwards books and sessions agree again.
-/

namespace RustTrader

open Decimal

namespace View

variable {D : Type} [Decimal D]

/-- A record after the fill reports of a batch of trades. -/
def afterTrades (trades : List (RawTrade D)) (record : String → OrderId → Option (Order D)) :
    String → OrderId → Option (Order D) := fun s id =>
  (record s id).map (fun r =>
    ((OrderBook.lastSnapshot (s, id) trades).map (Engine.copyFill · r)).getD r)

/-- A record after its order ended in `final`. -/
def synced (final : Order D) (record : String → OrderId → Option (Order D)) :
    String → OrderId → Option (Order D) := fun s id =>
  if (s, id) = final.identity then (record s id).map (fun _ => final) else record s id

/-- The view after `order` was added to its book. -/
def added (v : View D) (order : Order D) (trades : List (RawTrade D)) (final : Order D)
    (book' : OrderBook D) : View D where
  book := Function.update v.book order.instrumentId book'
  record := synced final (afterTrades trades v.record)
  leg := v.leg
  arrival := order.arrival

/-- An incoming order is either under the gap, or the leg of a quote none of
whose older legs rests where it could be taken for it. -/
inductive Opening (v : View D) (gap : Gap) (order : Order D) : Prop
  | request (regular : order.id ≠ quoteOrderId) (open_ : gap = some order.identity)
      (recorded : ∃ r, v.record order.sessionId order.id = some r)
  | leg (quote : order.id = quoteOrderId) (closed : gap = none) (limit : order.orderType = .limit)
      (legged : v.Legged order)
      (fresh : ∀ o ∈ v.queue order.instrumentId order.side, o.identity ≠ order.identity)
      (apart : order.side = .sell ∨
        ∀ o ∈ v.queue order.instrumentId order.side.opposite, o.identity ≠ order.identity)

/-- An order about to be matched. -/
structure Arrives (v : View D) (gap : Gap) (order : Order D) : Prop where
  positive : 0 < order.remaining
  price : order.orderType = .limit → 0 < order.price
  newest : v.arrival < order.arrival
  opening : Opening v gap order

omit [Decimal D] in
theorem copyFill_of_continues {o o' : Order D} (h : Continues o o') :
    Engine.copyFill o' o = o' := by
  rw [Engine.copyFill]
  exact h.rest.symm

omit [Decimal D] in
theorem synced_found {record : String → OrderId → Option (Order D)} {last old : Order D}
    (h : record last.sessionId last.id = some old) :
    synced last record last.sessionId last.id = some last := by
  have key : (last.sessionId, last.id) = last.identity := rfl
  rw [synced, if_pos key, h]
  rfl

omit [Decimal D] in
theorem synced_other {record : String → OrderId → Option (Order D)} {last : Order D} {s : String}
    {id : OrderId} (h : (s, id) ≠ last.identity) : synced last record s id = record s id := if_neg h

end View

namespace Coherent

variable {D : Type} [Decimal D] {v : View D} {gap : Gap} {order : Order D}

open View

/-- The state of a real book meets the needs of `add`. -/
theorem admits (c : Coherent .real v gap) (arrives : Arrives v gap order) :
    (v.book order.instrumentId).Admits order := by
  have r := c.real rfl order.instrumentId
  have fresh : ∀ side, order.id ≠ quoteOrderId → gap = some order.identity →
      ∀ o ∈ (v.book order.instrumentId).queue side, o.identity ≠ order.identity :=
    fun side _ hg o ho => c.absent _ hg order.instrumentId side o ho
  refine ⟨c.filed_effective order.instrumentId, r.uncrossed, arrives.positive, ?_, ?_, ?_, ?_⟩
  · cases arrives.opening with
    | request hid hg _ => exact fresh order.side hid hg
    | leg _ _ _ _ hfresh _ => exact hfresh
  · cases arrives.opening with
    | request hid hg _ => exact Or.inr (fresh order.side.opposite hid hg)
    | leg _ _ _ _ _ apart => exact apart
  · intro o ho
    exact (r.arrived _ o ho).trans_lt arrives.newest
  · intro o ho
    exact (c.fit order.instrumentId _ o ho).positive

section Added

variable {trades : List (RawTrade D)} {final left : Order D}
  {book' : OrderBook D}

/-- The facts about one `add` that the preservation proof draws on. -/
structure Added (v : View D) (gap : Gap) (order : Order D) (trades : List (RawTrade D))
    (left final : Order D) (book' : OrderBook D) : Prop where
  coherent : Coherent .real v gap
  arrives : Arrives v gap order
  ran : (v.book order.instrumentId).add order = .ok (trades, some final, book')
  filed : OrderBook.Filed Order.effectivePrice book'
  instrument : book'.instrumentId = order.instrumentId
  walked : Walked { order with state := .booked }
    (v.queue order.instrumentId order.side.opposite) trades left
    (book'.queue order.side.opposite)
  ends : conclude left (v.queue order.instrumentId order.side) = (final, book'.queue order.side)

theorem added_of_add [LawfulDecimal D] (c : Coherent .real v gap) (arrives : Arrives v gap order)
    {result : Option (Order D)}
    (h : (v.book order.instrumentId).add order = .ok (trades, result, book')) :
    ∃ left final, result = some final ∧ Added v gap order trades left final book' := by
  have added := OrderBook.add_spec (c.admits arrives) h
  obtain ⟨left, final, rfl, walked, ends⟩ := added.walked
  exact ⟨left, final, rfl, c, arrives, h, added.filed,
    added.instrument.trans (c.instrument order.instrumentId), walked, ends⟩

namespace Added

theorem continues (a : Added v gap order trades left final book') :
    Continues { order with state := .booked } left := a.walked.continues

theorem final_continues (a : Added v gap order trades left final book') :
    Continues { order with state := .booked } final := by
  have h := conclude_continues left (v.queue order.instrumentId order.side)
  rw [a.ends] at h
  exact a.continues.trans h

theorem final_identity (a : Added v gap order trades left final book') :
    final.identity = order.identity := a.final_continues.identity

/-- An order on the own side was there before, or is the incoming one. -/
theorem mem_own (a : Added v gap order trades left final book') {x : Order D}
    (h : x ∈ book'.queue order.side) : x ∈ v.queue order.instrumentId order.side ∨
      x = final ∧ left = final ∧ final.remaining ≠ 0 ∧ order.orderType = .limit := by
  have hq : (conclude left (v.queue order.instrumentId order.side)).2 = book'.queue order.side := by
    rw [a.ends]
  rw [← hq] at h
  rcases mem_conclude h with h | ⟨hx, hl, hz, ht⟩
  · exact Or.inl h
  · right
    rw [a.ends] at hl
    obtain rfl : final = left := hl
    exact ⟨hx, rfl, hz, a.continues.orderType.symm.trans ht⟩

theorem own_mem (a : Added v gap order trades left final book') {x : Order D}
    (h : x ∈ v.queue order.instrumentId order.side) : x ∈ book'.queue order.side := by
  have kept : x ∈ (conclude left _).2 := conclude_keeps h
  rwa [a.ends] at kept

theorem mem_opposite [LawfulDecimal D] (a : Added v gap order trades left final book') {x : Order D}
    (h : x ∈ book'.queue order.side.opposite) :
    ∃ r ∈ v.queue order.instrumentId order.side.opposite, Continues r x :=
  a.walked.mem_untouched h

theorem final_positive [LawfulDecimal D] (a : Added v gap order trades left final book')
    (same : left = final)
    (hz : final.remaining ≠ 0) : 0 < final.remaining := by
  subst same
  exact lt_of_le_of_ne (a.walked.nonneg a.arrives.positive.le) (Ne.symm hz)

/-- Nobody on the opposite side shares the incoming order's identity, except
perhaps another quote leg. -/
theorem apart (a : Added v gap order trades left final book') {r : Order D}
    (hr : r ∈ v.queue order.instrumentId order.side.opposite) (hid : r.id ≠ quoteOrderId) :
    r.identity ≠ order.identity := by
  intro same
  cases a.arrives.opening with
  | request _ hg _ => exact a.coherent.absent _ hg _ _ r hr same
  | leg hq _ _ _ _ _ => exact hid ((Prod.mk.inj same).2.trans hq)

theorem fate [LawfulDecimal D] (a : Added v gap order trades left final book') {r : Order D}
    (hr : r ∈ v.queue order.instrumentId order.side.opposite) (hid : r.id ≠ quoteOrderId) :
    Fate trades (book'.queue order.side.opposite) r :=
  a.walked.fate ((a.coherent.filed order.instrumentId).distinct order.side.opposite) hr
    (a.apart hr hid)

/-- The record of anybody but the incoming order. -/
theorem record_other (a : Added v gap order trades left final book') {s : String} {id : OrderId}
    (h : (s, id) ≠ order.identity) :
    (v.added order trades final book').record s id = afterTrades trades v.record s id := by
  have hne : (s, id) ≠ final.identity := by rw [a.final_identity]; exact h
  change synced final (afterTrades trades v.record) s id = _
  rw [synced, if_neg hne]

/-- Records of orders that were not in the opposite queue stay as they are. -/
theorem record_silent [LawfulDecimal D] (a : Added v gap order trades left final book') {s : String}
    {id : OrderId}
    (h : (s, id) ≠ order.identity)
    (silent : ∀ r ∈ v.queue order.instrumentId order.side.opposite, r.identity ≠ (s, id)) :
    (v.added order trades final book').record s id = v.record s id := by
  rw [a.record_other h, afterTrades, a.walked.snapshot_other (Ne.symm h) silent]
  simp

/-- The record of an order of the opposite queue, by its fate. -/
theorem record_of_fate [LawfulDecimal D] (a : Added v gap order trades left final book')
    {r : Order D}
    (hr : r ∈ v.queue order.instrumentId order.side.opposite) (hid : r.id ≠ quoteOrderId) :
    ∃ r', (v.added order trades final book').record r.sessionId r.id = some r' ∧
      Continues r r' ∧ (r' ∈ book'.queue order.side.opposite ∨ r'.state = .filled ∧
        ∀ x ∈ book'.queue order.side.opposite, x.identity ≠ r.identity) := by
  have owned := (a.coherent.owned _ _ r hr).record hid
  have apart : (r.sessionId, r.id) ≠ order.identity := a.apart hr hid
  have other := a.record_other apart
  rw [afterTrades, owned] at other
  have key : OrderBook.lastSnapshot (r.sessionId, r.id) trades =
      OrderBook.lastSnapshot r.identity trades := rfl
  rw [key] at other
  cases a.fate hr hid with
  | spared silent mem =>
    rw [silent] at other
    exact ⟨r, other, .refl r, Or.inl mem⟩
  | reduced hit last hc _ _ mem =>
    rw [last, Option.map_some, Option.map_some, Option.getD_some, copyFill_of_continues hc] at other
    exact ⟨hit, other, hc, Or.inl mem⟩
  | consumed hit last hc _ state gone =>
    rw [last, Option.map_some, Option.map_some, Option.getD_some, copyFill_of_continues hc] at other
    exact ⟨hit, other, hc, Or.inr ⟨state, gone⟩⟩

theorem record_self (a : Added v gap order trades left final book')
    (hid : order.id ≠ quoteOrderId) :
    (v.added order trades final book').record order.sessionId order.id = some final := by
  cases a.arrives.opening with
  | leg hq _ _ _ _ _ => exact absurd hq hid
  | request _ _ recorded =>
    obtain ⟨r, hr⟩ := recorded
    have hself : (order.sessionId, order.id) = final.identity := a.final_identity.symm
    change synced final (afterTrades trades v.record) order.sessionId order.id = _
    rw [synced, if_pos hself, afterTrades, hr]
    rfl

theorem queue_added (v : View D) (order : Order D) (trades : List (RawTrade D)) (final : Order D)
    (book' : OrderBook D) (i : Int) (side : Side) :
    (v.added order trades final book').queue i side =
      if i = order.instrumentId then book'.queue side else v.queue i side :=
  View.queue_setBook v order.instrumentId book' i side

/-- Where an order of the new view rested or came from. -/
theorem origin [LawfulDecimal D] (a : Added v gap order trades left final book') {i : Int}
    {side : Side} {x : Order D} (h : x ∈ (v.added order trades final book').queue i side) :
    (x ∈ v.queue i side ∧ (i = order.instrumentId → side = order.side)) ∨
    (i = order.instrumentId ∧ side = order.side ∧ x = final ∧ left = final ∧
      final.remaining ≠ 0 ∧ order.orderType = .limit) ∨
    (i = order.instrumentId ∧ side = order.side.opposite ∧
      x ∈ book'.queue order.side.opposite) := by
  rw [queue_added] at h
  by_cases hi : i = order.instrumentId
  · subst hi
    rw [if_pos rfl] at h
    rcases OrderBook.mem_side order.side side with rfl | rfl
    · rcases a.mem_own h with h | h
      · exact Or.inl ⟨h, fun _ => rfl⟩
      · exact Or.inr (Or.inl ⟨rfl, rfl, h⟩)
    · exact Or.inr (Or.inr ⟨rfl, rfl, h⟩)
  · rw [if_neg hi] at h
    exact Or.inl ⟨h, fun e => absurd e hi⟩

theorem fit [LawfulDecimal D] (a : Added v gap order trades left final book') (i : Int)
    (side : Side) : ∀ x ∈ (v.added order trades final book').queue i side, Fit i side x := by
  intro x hx
  rcases a.origin hx with ⟨h, -⟩ | ⟨rfl, rfl, rfl, rfl, hz, hl⟩ | ⟨rfl, rfl, h⟩
  · exact a.coherent.fit i side x h
  · have hc := a.continues
    refine ⟨hc.side, hc.instrumentId, a.final_positive rfl hz, ?_, ?_⟩
    · rcases a.walked.state with ⟨-, h⟩ | ⟨-, h⟩
      · rw [h]; rfl
      · rw [h, if_neg hz]; rfl
    · rw [hc.price]
      exact a.arrives.price hl
  · obtain ⟨r, hr, hc⟩ := a.mem_opposite h
    have hf := a.coherent.fit _ _ r hr
    have hw := a.walked.untouched_fit (fun q hq =>
      ⟨(a.coherent.fit _ _ q hq).positive, (a.coherent.fit _ _ q hq).active⟩) h
    exact ⟨hc.side.trans hf.side, hc.instrumentId.trans hf.instrument, hw.1, hw.2,
      hc.price ▸ hf.price⟩

/-- An order resting elsewhere is no party to the trades. -/
theorem elsewhere (a : Added v gap order trades left final book') {i : Int} {side : Side}
    {x : Order D} (hx : x ∈ v.queue i side) (hid : x.id ≠ quoteOrderId)
    (h : i = order.instrumentId → side = order.side) :
    x.identity ≠ order.identity ∧
      ∀ r ∈ v.queue order.instrumentId order.side.opposite, r.identity ≠ x.identity := by
  constructor
  · intro same
    cases a.arrives.opening with
    | request _ hg _ => exact a.coherent.absent _ hg i side x hx same
    | leg hq _ _ _ _ _ => exact hid ((Prod.mk.inj same).2.trans hq)
  · intro r hr same
    obtain ⟨-, hi, hside⟩ := a.coherent.place_unique hx hr same.symm hid
    rw [h hi] at hside
    exact Side.opposite_ne order.side hside.symm

theorem owned [LawfulDecimal D] (a : Added v gap order trades left final book') (i : Int)
    (side : Side) : ∀ x ∈ (v.added order trades final book').queue i side,
      (v.added order trades final book').Owned x := by
  intro x hx
  have leg_of : ∀ x y : Order D, Continues y x → x.id = quoteOrderId → v.Legged y →
      (v.added order trades final book').Owned x :=
    fun x y hc hid hl => View.owned_of_legged (v := v.added order trades final book')
      (View.Legged.continues (v := v) hl hc) hid
  rcases a.origin hx with ⟨h, apart⟩ | ⟨rfl, rfl, hx', -, -, -⟩ | ⟨rfl, rfl, h⟩
  · by_cases hid : x.id = quoteOrderId
    · exact leg_of x x (.refl x) hid ((a.coherent.owned i side x h).legged hid)
    · obtain ⟨hne, silent⟩ := a.elsewhere h hid apart
      refine View.owned_of_record ?_ hid
      rw [a.record_silent hne silent]
      exact (a.coherent.owned i side x h).record hid
  · rw [hx']
    obtain ⟨hsession, hsame⟩ := Prod.mk.inj a.final_identity
    by_cases hid : final.id = quoteOrderId
    · cases a.arrives.opening with
      | request hne _ _ => exact absurd (hsame.symm.trans hid) hne
      | leg _ _ _ ho _ _ =>
        exact leg_of final { order with state := .booked } a.final_continues hid ho
    · refine View.owned_of_record ?_ hid
      rw [hsession, hsame]
      exact a.record_self (hsame ▸ hid)
  · obtain ⟨r, hr, hc⟩ := a.mem_opposite h
    by_cases hid : x.id = quoteOrderId
    · exact leg_of x r hc hid
        ((a.coherent.owned _ _ r hr).legged ((Prod.mk.inj hc.identity).2.symm.trans hid))
    · have hid' : r.id ≠ quoteOrderId := fun e => hid ((Prod.mk.inj hc.identity).2.trans e)
      obtain ⟨r', hrec, hc', hm⟩ := a.record_of_fate hr hid'
      refine View.owned_of_record ?_ hid
      rw [(Prod.mk.inj hc.identity).1, (Prod.mk.inj hc.identity).2, hrec]
      rcases hm with hm | ⟨-, gone⟩
      · exact congrArg some ((a.filed.distinct _).eq_of_key hm h
          (hc'.identity.trans hc.identity.symm))
      · exact absurd hc.identity (gone x h)

theorem limits [LawfulDecimal D] (a : Added v gap order trades left final book') (side : Side) :
    ∀ o ∈ book'.queue side, o.orderType = .limit := by
  have r := a.coherent.real rfl order.instrumentId
  intro o ho
  rcases OrderBook.mem_side order.side side with rfl | rfl
  · rcases a.mem_own ho with ho | ⟨rfl, rfl, -, ht⟩
    · exact r.limit _ o ho
    · exact a.continues.orderType.trans ht
  · obtain ⟨x, hx, hc⟩ := a.mem_opposite ho
    exact hc.orderType.trans (r.limit _ x hx)

theorem uncrossed_after [LawfulDecimal D] (a : Added v gap order trades left final book') :
    book'.Uncrossed := by
  have r := a.coherent.real rfl order.instrumentId
  rw [OrderBook.uncrossed_iff order.side]
  intro x hx y hy hcross
  obtain ⟨z, hz, hc⟩ := a.mem_opposite hy
  rcases a.mem_own hx with hx | ⟨rfl, rfl, hne, -⟩
  · rw [hc.effectivePrice] at hcross
    exact (OrderBook.uncrossed_iff order.side _).mp r.uncrossed x hx z hz hcross
  · cases hq : book'.queue order.side.opposite with
    | nil => rw [hq] at hy; cases hy
    | cons best rest =>
      have hbest := a.filed.crosses_head hq (by rw [← hq]; exact hy) hcross
      rw [a.continues.effectivePrice] at hbest
      exact a.walked.halts hne best (by rw [hq]; rfl) hbest

/-- The incoming order takes its place behind the older ones of its price. -/
theorem own_seniority [LawfulDecimal D] (a : Added v gap order trades left final book') :
    (book'.queue order.side).Pairwise (fun x y => x.price = y.price → x.arrival < y.arrival) := by
  have r := a.coherent.real rfl order.instrumentId
  have hc := a.continues
  have before : (v.queue order.instrumentId order.side).Pairwise
      (fun x y => x.effectivePrice = y.effectivePrice → x.arrival < y.arrival) := by
    refine (r.seniority order.side).imp_of_mem ?_
    intro x y hx hy hlt same
    simp only [Order.effectivePrice, r.limit _ x hx, r.limit _ y hy] at same
    exact hlt same
  have after : (book'.queue order.side).Pairwise
      (fun x y => x.effectivePrice = y.effectivePrice → x.arrival < y.arrival) := by
    have hq : (conclude left (v.queue order.instrumentId order.side)).2 =
        book'.queue order.side := by rw [a.ends]
    rw [← hq]
    by_cases hz : left.remaining = 0
    · rw [conclude_exhausted _ hz]
      exact before
    · cases ht : left.orderType with
      | market => rw [conclude_market _ hz ht]; exact before
      | limit =>
        rw [conclude_limit _ hz ht]
        refine place_seniority ?_ before ?_
        · rw [hc.side]
          exact ((a.coherent.filed_effective order.instrumentId).wf order.side).queue_sorted _
        · intro o ho
          rw [hc.arrival]
          exact (r.arrived _ o ho).trans_lt a.arrives.newest
  refine after.imp_of_mem ?_
  intro x y hx hy hlt same
  apply hlt
  simpa only [Order.effectivePrice, a.limits _ x hx, a.limits _ y hy] using same

theorem opposite_seniority [LawfulDecimal D] (a : Added v gap order trades left final book') :
    (book'.queue order.side.opposite).Pairwise
      (fun x y => x.price = y.price → x.arrival < y.arrival) := by
  obtain ⟨done, rest, hq, hf⟩ := a.walked.suffix
  have hrest : rest.Pairwise (fun x y => x.price = y.price → x.arrival < y.arrival) := by
    have h := (a.coherent.real rfl order.instrumentId).seniority order.side.opposite
    change (v.queue order.instrumentId order.side.opposite).Pairwise _ at h
    rw [hq] at h
    exact (List.pairwise_append.mp h).2.1
  refine Continues.pairwise ?_ hf hrest
  intro x x' y y' hx hy hlt same
  rw [hx.price, hy.price] at same
  rw [hx.arrival, hy.arrival]
  exact hlt same

theorem real [LawfulDecimal D] (a : Added v gap order trades left final book') :
    RealBook book' order.arrival := by
  have older : ∀ side, ∀ o ∈ v.queue order.instrumentId side, o.arrival ≤ order.arrival :=
    fun side o ho => ((a.coherent.real rfl order.instrumentId).arrived side o ho).trans
      a.arrives.newest.le
  refine ⟨a.uncrossed_after, a.limits, ?_, ?_⟩
  · intro side
    rcases OrderBook.mem_side order.side side with rfl | rfl
    · exact a.own_seniority
    · exact a.opposite_seniority
  · intro side o ho
    rcases OrderBook.mem_side order.side side with rfl | rfl
    · rcases a.mem_own ho with ho | ⟨rfl, rfl, -, -⟩
      · exact older _ o ho
      · exact a.continues.arrival.le
    · obtain ⟨x, hx, hc⟩ := a.mem_opposite ho
      rw [hc.arrival]
      exact older _ x hx

/-- An active record of the new view rests where the record says. -/
theorem rests [LawfulDecimal D] (a : Added v gap order trades left final book') {s : String}
    {id : OrderId} {r : Order D} (h : (v.added order trades final book').record s id = some r)
    (active : r.state.isActive) :
    r ∈ (v.added order trades final book').queue r.instrumentId r.side := by
  rw [queue_added]
  by_cases hself : (s, id) = order.identity
  · obtain ⟨rfl, rfl⟩ := Prod.mk.inj hself
    have hid : order.id ≠ quoteOrderId := by
      intro hq
      change synced final (afterTrades trades v.record) order.sessionId order.id = _ at h
      cases hr : v.record order.sessionId order.id with
      | none => simp [synced, afterTrades, hr] at h
      | some r0 => exact (a.coherent.keyed _ _ r0 hr).2.2 hq
    rw [a.record_self hid] at h
    obtain rfl := Option.some.inj h
    have ends := a.ends
    have hmem := a.walked.active_rests (v.queue order.instrumentId order.side)
      a.arrives.positive.ne' (by rw [ends]; exact active)
    rw [ends] at hmem
    rw [if_pos a.final_continues.instrumentId, a.final_continues.side]
    exact hmem
  · cases hr : v.record s id with
    | none =>
      rw [a.record_other hself, afterTrades, hr] at h
      cases h
    | some r0 =>
      obtain ⟨hs, hi, hid⟩ := a.coherent.keyed s id r0 hr
      subst hs hi
      have hgap : gap ≠ some (r0.sessionId, r0.id) := by
        intro hg
        cases a.arrives.opening with
        | request _ hg' _ => exact hself (Option.some.inj (hg.symm.trans hg'))
        | leg _ closed _ _ _ _ => rw [closed] at hg; cases hg
      by_cases hm : ∃ q ∈ v.queue order.instrumentId order.side.opposite,
          q.identity = r0.identity
      · obtain ⟨q, hq, hqid⟩ := hm
        obtain ⟨hqs, hqi⟩ := Prod.mk.inj hqid
        have hqrec := (a.coherent.owned _ _ q hq).record (hqi ▸ hid)
        rw [hqs, hqi, hr] at hqrec
        obtain rfl := Option.some.inj hqrec
        obtain ⟨r', hrec, hc, hmem⟩ := a.record_of_fate hq hid
        rw [h] at hrec
        obtain rfl := Option.some.inj hrec
        have hf := a.coherent.fit _ _ _ hq
        rw [hc.instrumentId, hc.side, hf.instrument, hf.side, if_pos rfl]
        rcases hmem with hmem | ⟨hstate, -⟩
        · exact hmem
        · rw [hstate] at active
          cases active
      · have silent : ∀ q ∈ v.queue order.instrumentId order.side.opposite,
            q.identity ≠ (r0.sessionId, r0.id) := fun q hq e => hm ⟨q, hq, e⟩
        rw [a.record_silent hself silent, hr] at h
        obtain rfl := Option.some.inj h
        have hmem := a.coherent.rests _ _ _ hr hgap active
        by_cases hi : r0.instrumentId = order.instrumentId
        · rw [if_pos hi]
          rw [hi] at hmem
          rcases OrderBook.mem_side order.side r0.side with hside | hside
          · rw [hside] at hmem ⊢
            exact a.own_mem hmem
          · rw [hside] at hmem
            exact absurd rfl (silent _ hmem)
        · rw [if_neg hi]
          exact hmem

theorem keyed (a : Added v gap order trades left final book') (s : String) (id : OrderId)
    (r : Order D) (h : (v.added order trades final book').record s id = some r) :
    r.sessionId = s ∧ r.id = id ∧ id ≠ quoteOrderId := by
  change synced final (afterTrades trades v.record) s id = _ at h
  cases hr : v.record s id with
  | none =>
    unfold synced afterTrades at h
    rw [hr] at h
    split at h <;> cases h
  | some r0 =>
    obtain ⟨hs, hi, hid⟩ := a.coherent.keyed s id r0 hr
    unfold synced afterTrades at h
    rw [hr] at h
    split at h
    · rename_i hself
      obtain rfl := Option.some.inj h
      obtain ⟨hs', hi'⟩ := Prod.mk.inj hself
      exact ⟨hs'.symm, hi'.symm, hid⟩
    · obtain rfl := Option.some.inj h
      cases OrderBook.lastSnapshot (s, id) trades <;> exact ⟨hs, hi, hid⟩

/-- Matching closes the gap: books and sessions agree again. -/
theorem coherent_after [LawfulDecimal D] (a : Added v gap order trades left final book') :
    Coherent .real (v.added order trades final book') none where
  filed := by
    refine View.setBook_each a.coherent.filed
      ⟨fun side => (a.filed.wf side).congr side ?_, a.filed.distinct⟩
    intro o ho
    simp [Order.effectivePrice, a.real.limit side o ho]
  instrument := View.setBook_each (P := fun i book => book.instrumentId = i)
    a.coherent.instrument a.instrument
  fit := a.fit
  owned := a.owned
  rests := fun _ _ _ h _ active => a.rests h active
  keyed := a.keyed
  legs := a.coherent.legs
  absent := by intro x hx; cases hx
  real := by
    intro _
    refine View.setBook_each (P := fun _ book => RealBook book order.arrival) (fun i => ?_) a.real
    have r := a.coherent.real rfl i
    exact ⟨r.uncrossed, r.limit, r.seniority, fun side o ho =>
      (r.arrived side o ho).trans a.arrives.newest.le⟩
  tiered := by intro hp; cases hp

end Added

end Added

end Coherent

end RustTrader
