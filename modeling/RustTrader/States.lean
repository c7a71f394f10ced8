import RustTrader.Lineage

/-!
# Order states

Whether an active order is booked or partially filled is derived from its
executions in four places, and one of them, the matcher, books whatever it is
given. A replacement that has executions and rests without trading is therefore
booked again; every other step leaves active orders in the state that tells
whether they have executions.
-/

namespace RustTrader

open Decimal

variable {D : Type} [Decimal D]

/-- An active order is partially filled when it has executions and booked when
it has none. -/
def Truthful (o : Order D) : Prop := o.state.isActive →
  (o.state = .partialFill ↔ 0 < o.cumQuantity) ∧ (o.state = .booked ↔ o.cumQuantity = 0)

/-- Executions are counted from zero. -/
structure Stated (o : Order D) : Prop where
  nonneg : 0 ≤ o.cumQuantity
  truthful : Truthful o

theorem truthful_ended {o : Order D} (h : o.state.isActive = false) : Truthful o := by
  intro active
  rw [h] at active
  cases active

theorem truthful_booked {o : Order D} (state : o.state = .booked) (none_ : o.cumQuantity = 0) :
    Truthful o := by
  intro _
  rw [state, none_]
  exact ⟨iff_of_false (by decide) (lt_irrefl _), iff_of_true rfl rfl⟩

theorem truthful_partial {o : Order D} (state : o.state = .partialFill)
    (some_ : 0 < o.cumQuantity) : Truthful o := by
  intro _
  rw [state]
  exact ⟨iff_of_true rfl some_, iff_of_false (by decide) some_.ne'⟩

theorem stated_rested {o : Order D} (nonneg : 0 ≤ o.cumQuantity) :
    Stated (OrderBook.restState o) := by
  refine ⟨nonneg, ?_⟩
  by_cases none_ : o.cumQuantity = 0
  · exact truthful_booked (by simp [OrderBook.restState, none_]) none_
  · exact truthful_partial (by simp [OrderBook.restState, none_])
      (lt_of_le_of_ne nonneg (Ne.symm none_))

section Lawful

variable [LawfulDecimal D]

theorem cum_pos_of_fill {o o' : Order D} {quantity price : D} (nonneg : 0 ≤ o.cumQuantity)
    (f : OrderBook.FillOf o quantity price o') (sized : 0 < quantity) : 0 < o'.cumQuantity := by
  have whole := val_nonneg.mpr nonneg
  have least : quantity ≤ o'.cumQuantity :=
    (LawfulDecimal.add_rounds _ _).lower _ _ f.cum (by linarith)
  exact sized.trans_le least

/-- A fill leaves the order in the right state, whatever its state before. -/
theorem stated_filled {o o' : Order D} {quantity price : D} (nonneg : 0 ≤ o.cumQuantity)
    (f : OrderBook.FillOf o quantity price o') (sized : 0 < quantity) : Stated o' := by
  have some_ := cum_pos_of_fill nonneg f sized
  refine ⟨some_.le, ?_⟩
  by_cases done : o'.remaining = 0
  · apply truthful_ended
    rw [f.state, if_pos done]
    rfl
  · exact truthful_partial (by rw [f.state, if_neg done]) some_

theorem lasting_stated : Lasting (Stated : Order D → Prop) := by
  refine ⟨?_, ?_, ?_⟩
  · intro o o' quantity price h _ f sized _ _
    exact stated_filled h.nonneg f sized
  · intro o h _
    exact ⟨h.nonneg, truthful_ended rfl⟩
  · intro o h
    exact ⟨h.nonneg, truthful_ended rfl⟩

/-- Stated orders, and one more: the booked incoming order. -/
theorem lasting_stated_but (booked : Order D) :
    Lasting (fun o : Order D => 0 ≤ o.cumQuantity ∧ (Truthful o ∨ o = booked)) := by
  refine ⟨?_, ?_, ?_⟩
  · intro o o' quantity price h _ f sized _ _
    have stated := stated_filled h.1 f sized
    exact ⟨stated.nonneg, Or.inl stated.truthful⟩
  · intro o h _
    exact ⟨h.1, Or.inl (truthful_ended rfl)⟩
  · intro o h
    exact ⟨h.1, Or.inl (truthful_ended rfl)⟩

omit [LawfulDecimal D] in
/-- A walk that trades leaves the incoming order filled, at least in part. -/
theorem Walked.left_state {incoming left : Order D} {queue untouched : List (Order D)}
    {trades : List (RawTrade D)} (w : Walked incoming queue trades left untouched) :
    trades = [] ∧ left = incoming ∨
      trades ≠ [] ∧ (left.state = .filled ∨ left.state = .partialFill) := by
  induction w with
  | stop => exact Or.inl ⟨rfl, rfl⟩
  | trade _ _ fill _ _ ih =>
    refine Or.inr ⟨by simp, ?_⟩
    rcases ih with ⟨-, rfl⟩ | ⟨-, state⟩
    · rw [(OrderBook.applyFill_spec fill).state]
      split
      · exact Or.inl rfl
      · exact Or.inr rfl
    · exact state

omit [LawfulDecimal D] in
/-- It trades unless the best resting order halts it. -/
theorem Walked.idle_iff {incoming left : Order D} {queue untouched : List (Order D)}
    {trades : List (RawTrade D)} (w : Walked incoming queue trades left untouched) :
    trades = [] ↔ ∀ resting ∈ queue.head?, Halts incoming resting := by
  cases w with
  | stop halts => exact iff_of_true rfl halts
  | trade open_ => exact iff_of_false (by simp) (fun h => open_ (h _ rfl))

end Lawful

namespace Engine

/-- Every order the engine knows is truthful. -/
def StatesTell (e : Engine D) : Prop := ∀ o, e.view.Known o → Truthful o

/-- A real-mode replacement of an order with executions into a limit order that
is not refused, is not exhausted and meets no order it could trade with. -/
def Rebooks (e : Engine D) : Command D → Prop
  | .modifyOrderWithType _ s origId newId .limit price quantity =>
    e.fillPolicy = .real ∧ ∃ entry,
      e.checkModify s origId newId .limit price quantity = .ok entry ∧
      entry.cumQuantity ≠ 0 ∧ quantity ≠ entry.cumQuantity ∧
      ∀ best ∈ ((e.book entry.instrumentId).queue entry.side.opposite).head?,
        ¬ Crosses entry.side price best.effectivePrice
  | _ => False

section Lawful

variable [LawfulDecimal D]

omit [LawfulDecimal D] in
/-- A replacement that rests is limited at the requested price. -/
theorem Rekeyed.halts_iff {e e1 : Engine D} {s : String} {origId newId : OrderId}
    {price quantity : D} {entry order : Order D} {remaining : D} {book1 : OrderBook D}
    {plan : Option (List D)}
    (k : Rekeyed .real e e1 s origId newId .limit price quantity entry order remaining book1 plan)
    (open_ : order.remaining ≠ 0) (best : Order D) :
    Halts { order with state := .booked } best ↔
      ¬ Crosses entry.side price best.effectivePrice := by
  obtain ⟨-, type_eq, -, -, -, -, -, -, hside, hprice⟩ := k.fields
  have price_eq : ({ order with state := .booked } : Order D).effectivePrice = price := by
    unfold Order.effectivePrice
    simp only [type_eq, hprice, bookedPrice_real]
  unfold Halts
  rw [price_eq]
  change order.remaining = 0 ∨ ¬ Crosses order.side price _ ↔ _
  rw [hside]
  exact ⟨fun h => h.resolve_left open_, Or.inr⟩

omit [LawfulDecimal D] in
theorem Rekeyed.opposite_queue {policy : FillPolicy} {e e1 : Engine D} {s : String}
    {origId newId : OrderId} {orderType : OrderType} {price quantity : D} {entry order : Order D}
    {remaining : D} {book1 : OrderBook D} {plan : Option (List D)}
    (k : Rekeyed policy e e1 s origId newId orderType price quantity entry order remaining book1
      plan) : (rekeyed e.view entry.instrumentId book1 s origId order).queue
        order.instrumentId order.side.opposite =
      (e.book entry.instrumentId).queue entry.side.opposite := by
  obtain ⟨-, -, -, -, -, -, -, hi, hside, -⟩ := k.fields
  rw [hi, hside, ← k.left.other]
  simp [rekeyed, View.setRecord, View.setBook, View.queue]

/-- The booked incoming order is known after its match only if nothing traded
and it rests. -/
theorem booked_known {v : View D} {order left final : Order D} {trades : List (RawTrade D)}
    {book' : OrderBook D}
    (a : Coherent.Added v (some order.identity) order trades left final book')
    (regular : order.id ≠ quoteOrderId)
    (h : (v.added order trades final book').Known { order with state := .booked }) :
    trades = [] ∧ final = { order with state := .booked } ∧ order.orderType = .limit := by
  have reached : final = { order with state := .booked } := by
    rcases h with recorded | ⟨i, side, resting⟩
    · exact Option.some.inj ((a.record_self regular).symm.trans recorded)
    · rcases a.origin resting with ⟨before, -⟩ | ⟨-, -, same, -⟩ | ⟨-, apart, -⟩
      · exact (a.coherent.absent _ rfl i side _ before rfl).elim
      · exact same.symm
      · have own := (a.coherent_after.fit i side _ resting).side
        change order.side = side at own
        rw [← own] at apart
        cases hs : order.side <;> rw [hs] at apart <;> cases apart
  rcases a.final_cases with ⟨same, done⟩ | ⟨-, -, same⟩
  · rcases a.walked.left_state with ⟨idle, -⟩ | ⟨-, state⟩
    · refine ⟨idle, reached, ?_⟩
      rcases done with done | limit
      · have positive := a.arrives.positive
        rw [← same, reached] at done
        exact absurd done positive.ne'
      · exact limit
    · rw [← same, reached] at state
      rcases state with state | state <;> cases state
  · rw [reached] at same
    cases congrArg Order.state same

/-- A real-mode replacement keeps all orders truthful unless it rebooks. -/
theorem ReplacedReal.stated {e e' e1 : Engine D} {s : String} {origId newId : OrderId}
    {orderType : OrderType} {price quantity : D} {entry order : Order D} {remaining : D}
    {book1 : OrderBook D} {plan : Option (List D)} (c : Coherent .real e.view none)
    (policy : e.fillPolicy = .real)
    (k : Rekeyed .real e e1 s origId newId orderType price quantity entry order remaining book1
      plan) (done : ReplacedReal e e' s origId entry order book1)
    (stated : ∀ o, e.view.Known o → Stated o) (today : Int)
    (guard : ¬ Rebooks e (.modifyOrderWithType today s origId newId orderType price quantity)) :
    ∀ o, e'.view.Known o → Stated o := by
  obtain ⟨hid, htype, -, hrem, hcum, -⟩ := k.fields
  have nonneg : 0 ≤ order.cumQuantity := by
    rw [hcum]
    exact (stated entry (Or.inr ⟨_, _, k.mem⟩)).nonneg
  have before : ∀ o, e.view.Known o →
      0 ≤ o.cumQuantity ∧ (Truthful o ∨ o = { order with state := .booked }) :=
    fun o ho => ⟨(stated o ho).nonneg, Or.inl (stated o ho).truthful⟩
  have self : Stated order := by
    refine ⟨nonneg, ?_⟩
    have state := k.state
    rw [← hrem, ← hcum] at state
    by_cases hz : order.remaining = 0
    · apply truthful_ended
      rw [state, if_pos hz]
      rfl
    · rw [if_neg hz] at state
      by_cases none_ : order.cumQuantity = 0
      · exact truthful_booked (by rw [state, if_neg (not_not.mpr none_)]) none_
      · exact truthful_partial (by rw [state, if_pos none_])
          (lt_of_le_of_ne nonneg (Ne.symm none_))
  cases done with
  | exhausted _ execId effect =>
    rw [effect.view]
    exact known_replaced c k stated self
  | matched open_ trades left final book' fills execId a filled effect =>
    rw [effect.view]
    obtain ⟨after, -, -⟩ := a.carries (lasting_stated_but { order with state := .booked })
      (known_rekeyed c k before) ⟨nonneg, Or.inr rfl⟩
    intro o ho
    obtain ⟨sign, truthful | same⟩ := after o ho
    · exact ⟨sign, truthful⟩
    subst same
    refine ⟨sign, truthful_booked rfl ?_⟩
    by_contra executed
    obtain ⟨idle, -, limit⟩ := booked_known a (by rw [hid]; exact k.valid.regular) ho
    rw [htype] at limit
    subst limit
    refine guard ⟨policy, entry, k.checked, hcum ▸ executed, ?_, ?_⟩
    · intro same
      exact open_ (by rw [hrem]; exact (zero_of_sub k.covered k.remains).mpr same)
    · have halts := a.walked.idle_iff.mp idle
      rw [k.opposite_queue] at halts
      intro best hbest
      exact (k.halts_iff open_ best).mp (halts best hbest)

/-- A replacement that rebooks leaves an order that is not truthful. -/
theorem ReplacedReal.rebooked {e e' e1 : Engine D} {s : String} {origId newId : OrderId}
    {price quantity : D} {entry order : Order D} {remaining : D} {book1 : OrderBook D}
    {plan : Option (List D)}
    (k : Rekeyed .real e e1 s origId newId .limit price quantity entry order remaining book1 plan)
    (done : ReplacedReal e e' s origId entry order book1) (executed : entry.cumQuantity ≠ 0)
    (more : quantity ≠ entry.cumQuantity)
    (apart : ∀ best ∈ ((e.book entry.instrumentId).queue entry.side.opposite).head?,
      ¬ Crosses entry.side price best.effectivePrice) : ¬ StatesTell e' := by
  obtain ⟨hid, htype, -, hrem, hcum, -⟩ := k.fields
  cases done with
  | exhausted hz => exact absurd ((zero_of_sub k.covered k.remains).mp (hrem ▸ hz)) more
  | matched open_ trades left final book' fills execId a filled effect =>
    have idle : trades = [] := by
      rw [a.walked.idle_iff, k.opposite_queue]
      intro best hbest
      exact (k.halts_iff open_ best).mpr (apart best hbest)
    have rests : final = { order with state := .booked } := by
      rcases a.walked.left_state with ⟨-, same⟩ | ⟨traded, -⟩
      · rcases a.final_cases with ⟨final_eq, -⟩ | ⟨market, -⟩
        · rw [final_eq, same]
        · rw [htype] at market
          cases market
      · exact absurd idle traded
    have recorded := a.record_self (by rw [hid]; exact k.valid.regular)
    rw [rests] at recorded
    intro tell
    have truthful := tell { order with state := .booked } (by
      rw [effect.view, rests]
      exact Or.inl recorded)
    have none_ : order.cumQuantity = 0 := (truthful rfl).2.mp rfl
    exact executed (hcum ▸ none_)

omit [LawfulDecimal D] in
/-- What commands bring in, but for real-mode replacements. -/
theorem fresh_stated {policy : FillPolicy} {e : Engine D} {command : Command D}
    (c : Coherent policy e.view none) (stated : ∀ o, e.view.Known o → Stated o)
    (other : policy = .real → ∀ today s origId newId orderType price quantity,
      command ≠ .modifyOrderWithType today s origId newId orderType price quantity)
    {o : Order D} (fresh : Fresh e command o) : Enters policy Stated o := by
  cases fresh with
  | @request today s new asked listed valid =>
    have none_ : (e.incoming s new).cumQuantity = 0 := by rw [incoming_eq]
    refine ⟨?_, ?_, ?_⟩
    · intro not_new
      exact absurd (by rw [incoming_eq]) not_new
    · intro _
      exact ⟨none_.ge, truthful_booked rfl none_⟩
    · intro _
      exact stated_rested none_.ge
  | @replacement today s origId newId orderType price quantity remaining entry asked recorded
      active valid covered remains =>
    obtain ⟨hs, hid, -⟩ := c.keyed s origId entry recorded
    have nonneg : 0 ≤ entry.cumQuantity :=
      (stated entry (Or.inl (by rw [hs, hid]; exact recorded))).nonneg
    refine ⟨?_, ?_, ?_⟩
    · intro _
      refine ⟨nonneg, ?_⟩
      by_cases hz : remaining = 0
      · apply truthful_ended
        simp [replacement, hz, OrderState.isActive]
      · by_cases none_ : entry.cumQuantity = 0
        · exact truthful_booked (by simp [replacement, hz, none_]) none_
        · exact truthful_partial (by simp [replacement, hz, none_])
            (lt_of_le_of_ne nonneg (Ne.symm none_))
    · intro real
      exact (other real _ _ _ _ _ _ _ asked).elim
    · intro _
      exact stated_rested nonneg
  | leg asked listed named terms positive price =>
    have none_ := terms.fresh
    refine ⟨?_, ?_, ?_⟩
    · intro not_new
      exact absurd terms.state not_new
    · intro _
      exact ⟨none_.ge, truthful_booked rfl none_⟩
    · intro _
      exact stated_rested none_.ge

/-- A step that does not rebook keeps every order truthful. -/
theorem step_stated {policy : FillPolicy} {e e' : Engine D} {command : Command D}
    (c : Coherent policy e.view none) (hp : e.fillPolicy = policy)
    (stated : ∀ o, e.view.Known o → Stated o) (guard : ¬ Rebooks e command)
    (step : Step e command e') : ∀ o, e'.view.Known o → Stated o := by
  by_cases replaces : policy = .real ∧ ∃ today s origId newId orderType price quantity,
      command = .modifyOrderWithType today s origId newId orderType price quantity
  · obtain ⟨rfl, today, s, origId, newId, orderType, price, quantity, rfl⟩ := replaces
    cases step with
    | modifyOrderWithType _ _ _ _ _ _ _ _ reply returns =>
      rcases modifyReal_cases c hp returns with ⟨⟨_, -, -, rfl⟩, -⟩ | ⟨-, _, _, _, _, _, k, done⟩
      · exact stated
      · exact done.stated c hp k stated today guard
  · obtain ⟨news, carried⟩ := step_carries lasting_stated c hp stated
      (fun o fresh _ => fresh_stated c stated
        (fun real today s origId newId orderType price quantity
        asked => replaces ⟨real, today, s, origId, newId, orderType, price, quantity, asked⟩) fresh)
      step
    exact carried.known

theorem not_rebooks_of_tell {policy : FillPolicy} {e e' : Engine D} {command : Command D}
    (c : Coherent policy e.view none) (hp : e.fillPolicy = policy) (step : Step e command e')
    (tell : StatesTell e') : ¬ Rebooks e command := by
  intro rebooks
  cases step with
  | modifyOrderWithType _ today s origId newId orderType price quantity reply returns =>
    cases orderType with
    | market => exact rebooks
    | limit =>
      obtain ⟨real, entry, checked, executed, more, apart⟩ := rebooks
      obtain rfl : policy = .real := hp.symm.trans real
      rcases modifyReal_cases c hp returns with ⟨-, refused⟩ | ⟨-, _, entry', _, _, _, k, done⟩
      · exact refused entry checked
      · obtain rfl := Except.ok.inj (k.checked.symm.trans checked)
        exact done.rebooked k executed more apart tell
  | _ => exact rebooks

/-- In a run without rebooking every known order is truthful, and no other step
spoils this. -/
theorem states_run {policy : FillPolicy} {e : Engine D}
    (run : RunWith (fun e command => ¬ Rebooks e command) (withFillPolicy policy) e) :
    StatesTell e ∧ ∀ command e', Step e command e' → (StatesTell e' ↔ ¬ Rebooks e command) := by
  have stated : ∀ o, e.view.Known o → Stated o := by
    induction run with
    | refl =>
      rintro o (recorded | ⟨i, side, resting⟩)
      · cases recorded
      · change o ∈ (OrderBook.new i).queue side at resting
        cases side <;> cases resting
    | tail run step ih =>
      obtain ⟨command, guard, step⟩ := step
      obtain ⟨c, hp⟩ := reachable_coherent (RunWith.reachable run)
      exact step_stated c hp ih guard step
  obtain ⟨c, hp⟩ := reachable_coherent (RunWith.reachable run)
  refine ⟨fun o ho => (stated o ho).truthful, ?_⟩
  intro command e' step
  exact ⟨not_rebooks_of_tell c hp step,
    fun guard o ho => (step_stated c hp stated guard step o ho).truthful⟩

end Lawful

end Engine

end RustTrader
