import RustTrader.Reference

/-!
# The last report of an order

Every command but one kind of replacement tells the owner of each order all
that becomes of it: the last report shows the record, and an end is reported
once. The exception is a replacement into a market order that is not absorbed
by the opposite side: its remainder is cancelled without a report.
-/

namespace RustTrader

open Decimal

variable {D : Type} [Decimal D]

omit [Decimal D] in
theorem about_append (identity : String × OrderId) (m n : List (Report D)) :
    about identity (m ++ n) = about identity m ++ about identity n := by
  simp [about]

omit [Decimal D] in
theorem about_cons_self {identity : String × OrderId} {report : Report D}
    (h : report.order.identity = identity) (n : List (Report D)) :
    about identity (report :: n) = report.order :: about identity n := by
  simp [about, h]

omit [Decimal D] in
theorem about_cons_other {identity : String × OrderId} {report : Report D}
    (h : report.order.identity ≠ identity) (n : List (Report D)) :
    about identity (report :: n) = about identity n := by
  simp [about, h]

omit [Decimal D] in
@[simp] theorem about_nil (identity : String × OrderId) :
    about identity ([] : List (Report D)) = [] := rfl

namespace Coherent.Added

variable {v : View D} {gap : Gap} {order left final : Order D} {trades : List (RawTrade D)}
  {book' : OrderBook D}

/-- The incoming order ends as the walk leaves it, or as a cancelled remainder. -/
theorem final_cases (a : Added v gap order trades left final book') :
    (final = left ∧ (left.remaining = 0 ∨ order.orderType = .limit)) ∨
      order.orderType = .market ∧ left.remaining ≠ 0 ∧
        final = { left with state := .cancelled } := by
  have ends := a.ends
  have type_eq : left.orderType = order.orderType := a.continues.orderType
  by_cases hz : left.remaining = 0
  · rw [conclude_exhausted _ hz] at ends
    exact Or.inl ⟨(Prod.mk.inj ends).1.symm, Or.inl hz⟩
  · cases ht : order.orderType with
    | market =>
      rw [conclude_market _ hz (type_eq.trans ht)] at ends
      exact Or.inr ⟨rfl, hz, (Prod.mk.inj ends).1.symm⟩
    | limit =>
      rw [conclude_limit _ hz (type_eq.trans ht)] at ends
      exact Or.inl ⟨(Prod.mk.inj ends).1.symm, Or.inr rfl⟩

theorem left_active (a : Added v gap order trades left final book') (hz : left.remaining ≠ 0) :
    left.state.isActive := by
  rcases a.walked.state with ⟨-, rfl⟩ | ⟨-, hs⟩
  · rfl
  · rw [hs, if_neg hz]
    rfl

theorem left_uncancelled (a : Added v gap order trades left final book') :
    left.state ≠ .cancelled := by
  rcases a.walked.state with ⟨-, rfl⟩ | ⟨-, hs⟩
  · intro h
    cases h
  · rw [hs]
    split <;> decide

theorem snapshots_self (a : Added v (some order.identity) order trades left final book') :
    trades = [] ∧ left = { order with state := .booked } ∨ ∃ early,
      snapshots order.identity trades = early ++ [left] ∧ ∀ o ∈ early, o.state.isActive :=
  a.walked.snapshots_incoming
    (fun r hr => a.coherent.absent _ rfl order.instrumentId order.side.opposite r hr)

end Coherent.Added

namespace Engine

/-- The reports of a command tell every owner what became of the order. -/
structure Tells (e e' : Engine D) (news : List (Report D)) : Prop where
  sent : e'.sent = e.sent ++ news
  follows : ∀ s id, id ≠ quoteOrderId →
    Follows (e.order s id) (about (s, id) news) (e'.order s id)

/-- The snapshots of the trades reach the owner as reports. -/
theorem follows_about {e : Engine D} {trades : List (RawTrade D)} {fills : List (Report D)}
    (news : FillNews e (parties trades) fills) {s : String} {id : OrderId}
    {before after : Option (Order D)} (f : Follows before (snapshots (s, id) trades) after)
    (unknown : ¬ e.Registered s → before = none ∧ after = none) :
    Follows before (about (s, id) fills) after := by
  by_cases registered : e.Registered s
  · rw [about_fills news id (registered_iff.mpr registered)]
    exact f
  · obtain ⟨rfl, rfl⟩ := unknown registered
    rw [about_unregistered news id (fun h => registered (registered_iff.mp h))]
    exact .gone none

theorem order_none_of_unregistered {e e' : Engine D} {v : View D} {news : List (Report D)}
    (effect : Effect e e' v news) {s : String} (h : ¬ e.Registered s) (id : OrderId) :
    e.order s id = none ∧ v.record s id = none := by
  refine ⟨order_unregistered h id, ?_⟩
  have same : e'.order = v.record := congrArg View.record effect.view
  rw [← same]
  exact order_unregistered (fun h' => h ((effect.registered s).mp h')) id

/-- A new order is reported until it rests or ends. -/
theorem CreatedReal.tells [LawfulDecimal D] {e e' : Engine D} {s : String} {new : NewOrder D}
    {trades : List (RawTrade D)} {left final : Order D} {book' : OrderBook D}
    {fills : List (Report D)} {execId : String}
    (done : CreatedReal e e' s new trades left final book' fills execId) :
    Tells e e' (fills ++ closing e trades new.orderType final execId) := by
  have key : (e.incoming s new).identity = (s, new.id) := by
    rw [Order.identity, incoming_id, incoming_sessionId]
  have a := done.added
  have final_key : final.identity = (s, new.id) := a.final_identity.trans key
  have type_eq : (e.incoming s new).orderType = new.orderType := incoming_orderType e s new
  have orders : e'.order = ((opened e.view (e.incoming s new)).added (e.incoming s new) trades
      final book').record := congrArg View.record done.effect.view
  refine ⟨done.effect.sent, ?_⟩
  intro s' id hid
  rw [orders, about_append]
  by_cases self : (s', id) = (s, new.id)
  · obtain ⟨rfl, rfl⟩ := Prod.mk.inj self
    have recorded := a.record_self (by rw [incoming_id]; exact hid)
    rw [incoming_id, incoming_sessionId] at recorded
    rw [done.fresh, recorded, about_fills done.filled _ (registered_iff.mpr done.registered)]
    have snaps := a.snapshots_self
    rw [key] at snaps
    unfold closing
    rcases a.final_cases with ⟨rfl, -⟩ | ⟨market, remains, rfl⟩
    · rcases snaps with ⟨rfl, -⟩ | ⟨early, hsnap, running⟩
      · rw [if_pos (Or.inl rfl), about_cons_self (by exact final_key)]
        exact .once (by simp) (.refl _)
      · have traded : trades ≠ [] := by
          rintro rfl
          simp at hsnap
        have open_ : ¬ (trades = [] ∨ final.state = .cancelled ∧ new.orderType = .market) := by
          rintro (h | h)
          · exact traded h
          · exact a.left_uncancelled h.1
        rw [if_neg open_, hsnap, about_nil, List.append_nil]
        exact .told (by simp) running (.refl _)
    · rw [if_pos (Or.inr ⟨rfl, type_eq.symm.trans market⟩), about_cons_self (by exact final_key)]
      refine .told (by simp) ?_ (.refl _)
      intro o ho
      rcases snaps with ⟨rfl, -⟩ | ⟨early, hsnap, running⟩
      · simp at ho
      · rw [hsnap] at ho
        rcases List.mem_append.mp ho with ho | ho
        · exact running o ho
        · obtain rfl := List.mem_singleton.mp ho
          exact a.left_active remains
  · have silent : about (s', id) (closing e trades new.orderType final execId) = [] := by
      unfold closing
      split
      · rw [about_cons_other (by exact final_key ▸ Ne.symm self)]
        rfl
      · rfl
    rw [silent, List.append_nil]
    have other : (s', id) ≠ (e.incoming s new).identity := by rw [key]; exact self
    have before : (opened e.view (e.incoming s new)).record s' id = e.order s' id := by
      have hne : ¬ (s' = s ∧ id = new.id) := fun h => self (by rw [h.1, h.2])
      simp only [opened, View.setRecord, incoming_id, incoming_sessionId, hne, if_false]
      rfl
    have f := a.follows hid other
    rw [before] at f
    exact follows_about done.filled f
      (fun h => order_none_of_unregistered done.effect h id)

namespace Rekeyed

variable {policy : FillPolicy} {e e1 : Engine D} {s : String} {origId newId : OrderId}
  {orderType : OrderType} {price quantity : D} {entry order : Order D} {remaining : D}
  {book1 : OrderBook D} {plan : Option (List D)}

theorem open_before (k : Rekeyed policy e e1 s origId newId orderType price quantity entry order
    remaining book1 plan) : ∀ r, e.order s newId = some r → r.state.isActive := by
  intro r hr
  rcases k.unused with rfl | fresh
  · obtain rfl := Option.some.inj (hr.symm.trans k.recorded)
    exact k.active
  · rw [hr] at fresh
    cases fresh

theorem replacement_active (k : Rekeyed policy e e1 s origId newId orderType price quantity entry
    order remaining book1 plan) (open_ : order.remaining ≠ 0) : order.state.isActive := by
  rw [k.state, if_neg (by rw [← k.fields.2.2.2.1]; exact open_)]
  split <;> rfl

theorem record_other (k : Rekeyed policy e e1 s origId newId orderType price quantity entry order
    remaining book1 plan) {s' : String} {id' : OrderId} (hne : (s', id') ≠ (s, newId))
    (hne' : (s', id') ≠ (s, origId)) :
    (rekeyed e.view entry.instrumentId book1 s origId order).record s' id' = e.order s' id' := by
  have h : ¬ (s' = s ∧ id' = newId) := fun h => hne (by rw [h.1, h.2])
  have h' : ¬ (s' = s ∧ id' = origId) := fun h => hne' (by rw [h.1, h.2])
  simp only [rekeyed, View.setRecord, k.fields.1, h, h', if_false]
  rfl

end Rekeyed

/-- A replacement without a remaining quantity is reported as it is confirmed. -/
theorem replaced_silently {policy : FillPolicy} {e e' e1 : Engine D} {s : String}
    {origId newId : OrderId} {orderType : OrderType} {price quantity : D} {entry order : Order D}
    {remaining : D} {book1 : OrderBook D} {plan : Option (List D)} {execId : String}
    (c : Coherent policy e.view none)
    (k : Rekeyed policy e e1 s origId newId orderType price quantity entry order remaining book1
      plan)
    (effect : Effect e e' { rekeyed e.view entry.instrumentId book1 s origId order with
      arrival := e.nextArrival + 1 } [e.replacedReport order origId execId]) :
    Tells e e' [e.replacedReport order origId execId] := by
  have hid := k.fields.1
  have key : order.identity = (s, newId) := by rw [Order.identity, hid, k.session c]
  refine ⟨effect.sent, ?_⟩
  have orders : e'.order = (rekeyed e.view entry.instrumentId book1 s origId order).record :=
    congrArg View.record effect.view
  intro s' id _
  rw [orders]
  by_cases self : (s', id) = (s, newId)
  · obtain ⟨rfl, rfl⟩ := Prod.mk.inj self
    have after : (rekeyed e.view entry.instrumentId book1 s' origId order).record s' id =
        some order := by simp [rekeyed, View.setRecord, hid]
    rw [after, about_cons_self (by exact key)]
    exact .once k.open_before (.refl order)
  · rw [about_cons_other (by exact key ▸ Ne.symm self), about_nil]
    by_cases old : (s', id) = (s, origId)
    · obtain ⟨rfl, rfl⟩ := Prod.mk.inj old
      have hne : id ≠ newId := fun h => self (by rw [h])
      have after : (rekeyed e.view entry.instrumentId book1 s' id order).record s' id = none := by
        simp [rekeyed, View.setRecord, hid, hne]
      rw [after]
      exact .gone _
    · rw [k.record_other self old]
      exact .refl _

/-- A replacement is reported until it rests or ends, unless it ends as a
cancelled market remainder. -/
theorem ReplacedReal.tells [LawfulDecimal D] {e e' e1 : Engine D} {s : String}
    {origId newId : OrderId} {orderType : OrderType} {price quantity : D} {entry order : Order D}
    {remaining : D} {book1 : OrderBook D} {plan : Option (List D)}
    (c : Coherent .real e.view none)
    (k : Rekeyed .real e e1 s origId newId orderType price quantity entry order remaining book1
      plan) (done : ReplacedReal e e' s origId entry order book1)
    (absorbed : ∀ trades left final book', Coherent.Added
      (rekeyed e.view entry.instrumentId book1 s origId order) (some order.identity) order trades
      left final book' → orderType = .market → left.remaining = 0) :
    ∃ news, Tells e e' news := by
  obtain ⟨hid, ht, -, hrem, hcum, -⟩ := k.fields
  have hs := k.session c
  have key : order.identity = (s, newId) := by rw [Order.identity, hid, hs]
  cases done with
  | exhausted _ execId effect => exact ⟨_, replaced_silently c k effect⟩
  | matched open_ trades left final book' fills execId a filled effect =>
    refine ⟨_, effect.sent, ?_⟩
    have orders : e'.order = ((rekeyed e.view entry.instrumentId book1 s origId order).added order
        trades final book').record := congrArg View.record effect.view
    intro s' id hne
    rw [orders]
    by_cases self : (s', id) = (s, newId)
    · obtain ⟨rfl, rfl⟩ := Prod.mk.inj self
      have recorded := a.record_self (by rw [hid]; exact hne)
      rw [hid, hs] at recorded
      have active := k.replacement_active open_
      have final_eq : final = left := by
        rcases a.final_cases with ⟨h, -⟩ | ⟨market, remains, -⟩
        · exact h
        · exact absurd (absorbed trades left final book' a (ht.symm.trans market)) remains
      subst final_eq
      rw [recorded, about_cons_self (by exact key), about_fills filled _
        (registered_iff.mpr k.registered)]
      have snaps := a.snapshots_self
      rw [key] at snaps
      rcases snaps with ⟨rfl, rfl⟩ | ⟨early, hsnap, running⟩
      · refine .once k.open_before ?_
        exact alike_of_active rfl rfl active rfl
      · rw [hsnap]
        rw [← List.cons_append]
        refine .told k.open_before ?_ (.refl final)
        intro o ho
        rcases List.mem_cons.mp ho with rfl | ho
        · exact active
        · exact running o ho
    · rw [about_cons_other (by exact key ▸ Ne.symm self)]
      have f := a.follows hne (show (s', id) ≠ order.identity by rw [key]; exact self)
      by_cases old : (s', id) = (s, origId)
      · obtain ⟨rfl, rfl⟩ := Prod.mk.inj old
        have hne' : id ≠ newId := fun h => self (by rw [h])
        have none_before : (rekeyed e.view entry.instrumentId book1 s' id order).record s' id =
            none := by simp [rekeyed, View.setRecord, hid, hne']
        rw [none_before] at f
        have none_after : ((rekeyed e.view entry.instrumentId book1 s' id order).added order
            trades final book').record s' id = none := by
          rw [a.record_other (by rw [key]; exact self), afterTrades_none trades none_before]
        rw [none_after] at f ⊢
        have silent := follows_about filled f (fun _ => ⟨rfl, rfl⟩)
        rw [silent.nil_of_none]
        exact .gone _
      · rw [k.record_other self old] at f
        exact follows_about filled f (fun h => order_none_of_unregistered effect h id)

theorem Quoted.tells {e e' : Engine D} {s : String} {i : Int} {v : View D}
    {trades : List (RawTrade D)} {fills : List (Report D)} (done : Quoted e e' s i v trades fills) :
      Tells e e' fills := by
  refine ⟨done.effect.sent, ?_⟩
  intro s id hid
  have orders : e'.order = v.record := congrArg View.record done.effect.view
  rw [orders]
  exact follows_about done.filled (done.follows s id hid)
    (fun h => order_none_of_unregistered done.effect h id)

/-- The end of an order that was active. -/
theorem tells_end {e e' : Engine D} {v : View D} {s : String} {id : OrderId} {entry last : Order D}
    {symbol execId : String} {clOrdId : OrderId} {execType : ExecType} {orig : Option OrderId}
    (recorded : e.order s id = some entry) (active : entry.state.isActive)
    (key : last.identity = (s, id))
    (effect : Effect e e' (v.setRecord s id (some last))
      [.status last symbol clOrdId execId execType orig])
    (same : v.record = e.order) :
    Tells e e' [.status last symbol clOrdId execId execType orig] := by
  refine ⟨effect.sent, ?_⟩
  intro s' id' _
  have orders : e'.order = (v.setRecord s id (some last)).record :=
    congrArg View.record effect.view
  rw [orders]
  by_cases self : (s', id') = (s, id)
  · obtain ⟨rfl, rfl⟩ := Prod.mk.inj self
    rw [recorded, about_cons_self (by exact key)]
    have after : (v.setRecord s' id' (some last)).record s' id' = some last := by
      simp [View.setRecord]
    rw [after]
    refine .once ?_ (.refl last)
    intro r hr
    obtain rfl := Option.some.inj hr
    exact active
  · have hne : ¬ (s' = s ∧ id' = id) := fun h => self (by rw [h.1, h.2])
    rw [about_cons_other (by exact key ▸ Ne.symm self), about_nil]
    have after : (v.setRecord s id (some last)).record s' id' = e.order s' id' := by
      simp only [View.setRecord, hne, if_false, same]
    rw [after]
    exact .refl _

theorem Cancelled.tells {policy : FillPolicy} {e e' : Engine D} (c : Coherent policy e.view none)
    {s : String} {origId clOrdId : OrderId} {entry : Order D} {book' : OrderBook D}
    {execId : String} (done : Cancelled e e' s origId clOrdId entry book' execId) :
    ∃ news, Tells e e' news := by
  obtain ⟨hs, hid, -⟩ := c.keyed s origId entry done.recorded
  refine ⟨_, tells_end done.recorded done.active ?_ done.effect rfl⟩
  rw [← hs, ← hid]
  rfl

theorem Expired.tells {policy : FillPolicy} {e e' : Engine D} (c : Coherent policy e.view none)
    {s : String} {id : OrderId} {entry : Order D} {book' : OrderBook D} {execId : String}
    (done : Expired e e' s id entry book' execId) : ∃ news, Tells e e' news := by
  obtain ⟨hs, hid, -⟩ := c.keyed s id entry done.recorded
  refine ⟨_, tells_end done.recorded done.active ?_ done.effect rfl⟩
  rw [← hs, ← hid]
  rfl

omit [Decimal D] in
theorem fill_orders {symbolOf : Int → String} {price : D} {pairs : List (D × Order D)}
    {fills : List (Report D)} (told : List.Forall₂ (fun (p : D × Order D) report => ∃ execId,
      report = .fill p.2 (symbolOf p.2.instrumentId) price p.1 execId none) pairs fills) :
    fills.map Report.order = pairs.map (fun p => p.2) := by
  induction told with
  | nil => rfl
  | cons head _ ih =>
    obtain ⟨execId, rfl⟩ := head
    rw [List.map_cons, List.map_cons, ih]
    rfl

/-- An order worked on by its plan is reported fill by fill. -/
theorem Worked.tells [LawfulDecimal D] {e e' : Engine D} {v : View D} {order last told : Order D}
    {plan : List D} {snaps front back : List (Order D)} {fills : List (Report D)} {s : String}
    {id : OrderId} {symbol execId : String} {clOrdId : OrderId} {execType : ExecType}
    {orig : Option OrderId}
    (w : Worked e e' v order plan last snaps front back
      (.status told symbol clOrdId execId execType orig) fills)
    (key : order.identity = (s, id)) (told_key : told.identity = (s, id))
    (active : told.state.isActive) (alike : Alike told (OrderBook.restState order))
    (open_ : ∀ r, e.order s id = some r → r.state.isActive)
    (recorded : ∃ r, v.record s id = some r)
    (records : ∀ s' id', (s', id') ≠ (s, id) → v.record s' id' = e.order s' id' ∨
      v.record s' id' = none) :
    Tells e e' (.status told symbol clOrdId execId execType orig :: fills) := by
  have cont : Continues order last := (OrderBook.restState_continues order).trans w.chain.continues
  have last_key : last.identity = (s, id) := cont.identity.trans key
  have orders : fills.map Report.order = snaps := (fill_orders w.told).trans w.chain.zip
  have identities : ∀ o ∈ snaps, o.identity = (s, id) := fun o ho =>
    (w.chain.identities o ho).trans key
  refine ⟨w.effect.sent, ?_⟩
  intro s' id' _
  rw [w.record]
  by_cases self : (s', id') = (s, id)
  · obtain ⟨rfl, rfl⟩ := Prod.mk.inj self
    have after : View.synced last v.record s' id' = some last := by
      obtain ⟨rfl, rfl⟩ := Prod.mk.inj last_key
      exact recorded.elim fun _ => View.synced_found
    have all : about (s', id') fills = snaps := by
      unfold about
      rw [orders, List.filter_eq_self]
      intro o ho
      simpa using identities o ho
    rw [after, about_cons_self (by exact told_key), all]
    rcases w.chain.running with ⟨rfl, rfl⟩ | ⟨early, rfl, running⟩
    · exact .once open_ alike
    · rw [← List.cons_append]
      refine .told open_ ?_ (.refl last)
      intro o ho
      rcases List.mem_cons.mp ho with rfl | ho
      · exact active
      · exact running o ho
  · have none_told : about (s', id') fills = [] := by
      unfold about
      rw [orders, List.filter_eq_nil_iff]
      intro o ho same
      exact self ((of_decide_eq_true same).symm.trans (identities o ho))
    have after : View.synced last v.record s' id' = v.record s' id' :=
      View.synced_other (last_key ▸ self)
    rw [after, about_cons_other (by exact told_key ▸ Ne.symm self), none_told]
    rcases records s' id' self with same | gone
    · rw [same]
      exact .refl _
    · rw [gone]
      exact .gone _

theorem restState_active (order : Order D) : (OrderBook.restState order).state.isActive := by
  change (if order.cumQuantity = 0 then OrderState.booked else .partialFill).isActive = true
  split <;> rfl

theorem CreatedTiered.tells [LawfulDecimal D] {e e' : Engine D} {s : String} {new : NewOrder D}
    {plan : List D} {last : Order D} {snaps front back : List (Order D)} {execId : String}
    {fills : List (Report D)}
    (done : CreatedTiered e e' s new plan last snaps front back execId fills) :
    ∃ news, Tells e e' news := by
  have key : (e.incoming s new).identity = (s, new.id) := by
    rw [Order.identity, incoming_id, incoming_sessionId]
  refine ⟨_, done.worked.tells key key (restState_active _) (.refl _) ?_ ?_ ?_⟩
  · intro r hr
    rw [done.fresh] at hr
    cases hr
  · exact ⟨e.incoming s new, by simp [opened, View.setRecord, incoming_id, incoming_sessionId]⟩
  · intro s' id' hne
    left
    have hne' : ¬ (s' = s ∧ id' = new.id) := fun h => hne (by rw [h.1, h.2])
    simp only [opened, View.setRecord, incoming_id, incoming_sessionId, hne', if_false]
    rfl

theorem ReplacedTiered.tells [LawfulDecimal D] {e e' e1 : Engine D} {s : String}
    {origId newId : OrderId} {orderType : OrderType} {price quantity : D} {entry order : Order D}
    {remaining : D} {book1 : OrderBook D} {plan : List D} (c : Coherent .tiered e.view none)
    (k : Rekeyed .tiered e e1 s origId newId orderType price quantity entry order remaining book1
      (some plan)) (done : ReplacedTiered e e' s origId entry order book1 plan) :
    ∃ news, Tells e e' news := by
  obtain ⟨hid, -, -, hrem, hcum, -⟩ := k.fields
  have key : order.identity = (s, newId) := by rw [Order.identity, hid, k.session c]
  have open_before := k.open_before
  cases done with
  | exhausted _ execId effect _ =>
    exact ⟨_, replaced_silently c k effect⟩
  | worked open_ last snaps front back execId fills worked =>
    have active : order.state.isActive := k.replacement_active open_
    refine ⟨_, worked.tells key key active ?_ open_before ⟨order, ?_⟩ ?_⟩
    · exact alike_of_active rfl rfl active (restState_active order)
    · simp [rekeyed, View.setRecord, hid]
    · intro s' id' hne
      by_cases old : (s', id') = (s, origId)
      · right
        obtain ⟨rfl, rfl⟩ := Prod.mk.inj old
        have hne' : id' ≠ newId := fun h => hne (by rw [h])
        simp [rekeyed, View.setRecord, hid, hne']
      · left
        exact k.record_other hne old

theorem Departed.tells {e e' : Engine D} {s : String} (done : Departed e e' s) :
    Tells e e' [] := by
  refine ⟨done.sent.trans (List.append_nil _).symm, ?_⟩
  intro s' id _
  rw [done.record, about_nil]
  split
  · exact .gone _
  · exact .refl _

theorem Tells.unchanged {e e' : Engine D} (orders : e'.order = e.order)
    (sent : e'.sent = e.sent) : Tells e e' [] := by
  refine ⟨sent.trans (List.append_nil _).symm, ?_⟩
  intro s id _
  rw [orders]
  exact .refl _

/-- Reports of two engine runs in a row, which record the same orders. -/
theorem Tells.trans {e e' e'' : Engine D} {m n : List (Report D)} (h : Tells e e' m)
    (h' : Tells e' e'' n) (same : ∀ s id, e'.order s id = none ↔ e''.order s id = none) :
    Tells e e'' (m ++ n) := by
  refine ⟨by rw [h'.sent, h.sent, List.append_assoc], ?_⟩
  intro s id hid
  rw [about_append]
  exact (h.follows s id hid).trans (h'.follows s id hid) (same s id)

theorem Expired.recorded_after {e e' : Engine D} {s : String} {id : OrderId} {entry : Order D}
    {book' : OrderBook D} {execId : String} (done : Expired e e' s id entry book' execId)
    (s' : String) (id' : OrderId) : e.order s' id' = none ↔ e'.order s' id' = none := by
  have orders : e'.order = ((e.view.setBook entry.instrumentId book').setRecord s id
      (some (lapsed entry))).record := congrArg View.record done.effect.view
  rw [orders]
  by_cases self : s' = s ∧ id' = id
  · obtain ⟨rfl, rfl⟩ := self
    simp [View.setRecord, done.recorded]
  · simp only [View.setRecord, self, if_false]
    rfl

theorem expire_tells {policy : FillPolicy} {e e' : Engine D} (c : Coherent policy e.view none)
    {keys : List (String × OrderId)} (h : e.expireDayOrdersAt keys = .ok e') :
    ∃ news, Tells e e' news := by
  let R : Engine D → Engine D → Prop := fun e e' => (∃ news, Tells e e' news) ∧
    ∀ s id, e.order s id = none ↔ e'.order s id = none
  suffices run : R e e' ∧ Coherent policy e'.view none from run.1.1
  refine expire_run (fun e => ⟨⟨[], .unchanged rfl rfl⟩, fun _ _ => Iff.rfl⟩) ?_ ?_ ?_ keys c h
  · rintro e e' e'' ⟨⟨m, told⟩, same⟩ ⟨⟨n, told'⟩, same'⟩
    exact ⟨⟨m ++ n, told.trans told' same'⟩, fun s id => (same s id).trans (same' s id)⟩
  · intro e e' effect
    have orders : e'.order = e.order := congrArg View.record effect.view
    refine ⟨⟨[], .unchanged orders (effect.sent.trans (List.append_nil _))⟩, ?_⟩
    intro s id
    rw [orders]
  · intro e e' s id entry book' execId c done
    exact ⟨done.tells c, done.recorded_after⟩

end Engine

/-- A quantity at an effective price trades away against a queue. -/
def Absorbs (side : Side) (price : D) : D → List (Order D) → Prop
  | rest, [] => rest = 0
  | rest, resting :: queue =>
    rest = 0 ∨ Crosses side price resting.effectivePrice ∧
      (rest ≤ resting.remaining ∨
        ∀ rest', sub rest resting.remaining = .ok rest' → Absorbs side price rest' queue)

theorem absorbs_zero (side : Side) (price : D) (queue : List (Order D)) :
    Absorbs side price 0 queue := by
  cases queue with
  | nil => rfl
  | cons resting queue => exact Or.inl rfl

/-- The walk uses up exactly what the queue absorbs. -/
theorem Walked.absorbs [LawfulDecimal D] {incoming left : Order D}
    {queue untouched : List (Order D)}
    {trades : List (RawTrade D)} (w : Walked incoming queue trades left untouched) :
    left.remaining = 0 ↔
      Absorbs incoming.side incoming.effectivePrice incoming.remaining queue := by
  induction w with
  | @stop incoming queue halts =>
    cases queue with
    | nil => exact Iff.rfl
    | cons resting queue =>
      rcases halts resting rfl with done | apart
      · rw [done]
        exact iff_of_true rfl (absorbs_zero _ _ _)
      · exact ⟨Or.inl, fun h => h.resolve_right (fun crosses => apart crosses.1)⟩
  | @trade incoming resting filled hit left rest untouched trades quantity open_ size fill _ _ ih =>
    obtain ⟨remains, crosses⟩ := not_or.mp open_
    have cont := (OrderBook.applyFill_spec fill).toContinues
    have taken := (OrderBook.applyFill_spec fill).remaining
    rw [ih, cont.side, cont.effectivePrice]
    by_cases whole : incoming.remaining ≤ resting.remaining
    · have all : quantity = incoming.remaining := by
        rw [size, minDecimal]
        split
        · rfl
        · exact le_antisymm (not_lt.mp ‹_›) whole
      rw [all, sub_same] at taken
      rw [← Except.ok.inj taken]
      exact iff_of_true (absorbs_zero _ _ _) (Or.inr ⟨not_not.mp crosses, Or.inl whole⟩)
    · have part : quantity = resting.remaining := by
        rw [size, minDecimal, if_neg (fun h => whole h.le)]
      rw [part] at taken
      constructor
      · intro absorbed
        refine Or.inr ⟨not_not.mp crosses, Or.inr ?_⟩
        intro rest' hrest
        rw [← Except.ok.inj (taken.symm.trans hrest)]
        exact absorbed
      · rintro (done | ⟨-, fits | next⟩)
        · exact absurd done remains
        · exact absurd fits whole
        · exact next _ taken

namespace Engine

/-- The effective price of a market order. -/
def marketPrice (D : Type) [Decimal D] (side : Side) : D :=
  match side with
  | .buy => lit marketBuyPrice 0
  | .sell => 0

/-- A real-mode replacement into a market order that is not refused finds all
its remaining quantity on the opposite side. -/
def Absorbed (e : Engine D) : Command D → Prop
  | .modifyOrderWithType _ s origId newId .market price quantity =>
    e.fillPolicy = .real → ∀ entry remaining,
      e.checkModify s origId newId .market price quantity = .ok entry →
      sub quantity entry.cumQuantity = .ok remaining →
      Absorbs entry.side (marketPrice D entry.side) remaining
        ((e.book entry.instrumentId).queue entry.side.opposite)
  | _ => True

theorem Rekeyed.absorbs [LawfulDecimal D] {e e1 : Engine D} {s : String} {origId newId : OrderId}
    {price quantity : D} {entry order left final : Order D} {remaining : D}
    {book1 book' : OrderBook D} {plan : Option (List D)} {trades : List (RawTrade D)}
    (k : Rekeyed .real e e1 s origId newId .market price quantity entry order remaining book1 plan)
    (a : Coherent.Added (rekeyed e.view entry.instrumentId book1 s origId order)
      (some order.identity) order trades left final book') :
    left.remaining = 0 ↔ Absorbs entry.side (marketPrice D entry.side) remaining
      ((e.book entry.instrumentId).queue entry.side.opposite) := by
  obtain ⟨-, type_eq, -, hrem, -, -, -, hi, hside, -⟩ := k.fields
  have queue_eq : (rekeyed e.view entry.instrumentId book1 s origId order).queue
      order.instrumentId order.side.opposite =
        (e.book entry.instrumentId).queue entry.side.opposite := by
    rw [hi, hside, ← k.left.other]
    simp [rekeyed, View.setRecord, View.setBook, View.queue]
  have price_eq : order.effectivePrice = marketPrice D entry.side := by
    rw [Order.effectivePrice, type_eq, hside]
    rfl
  have iff := a.walked.absorbs
  rw [queue_eq] at iff
  rw [iff, ← hrem, ← price_eq, ← hside]
  rfl

/-- A step that meets the condition reports what becomes of every order. -/
theorem step_tells [LawfulDecimal D] {policy : FillPolicy} {e e' : Engine D}
    {command : Command D} (c : Coherent policy e.view none) (hp : e.fillPolicy = policy)
    (absorbed : Absorbed e command) (h : Step e command e') : ∃ news, Tells e e' news := by
  have unchanged : Tells e e [] := .unchanged rfl rfl
  cases h with
  | createInstrument symbol =>
    obtain ⟨hv, -, hsent, -⟩ := view_createInstrument e symbol
    exact ⟨[], .unchanged (congrArg View.record hv) hsent⟩
  | registerSession s fresh =>
    exact ⟨[], .unchanged (congrArg View.record (view_registerSession fresh)) rfl⟩
  | sessionDisconnect _ s orders quotes visits returns =>
    exact ⟨[], (sessionDisconnect_spec c visits returns).1.tells⟩
  | createOrder _ today s new reply returns =>
    cases policy with
    | real =>
      rcases createReal_cases c hp returns with ⟨_, -, -, rfl⟩ | ⟨-, _, _, _, _, _, _, done⟩
      · exact ⟨[], unchanged⟩
      · exact ⟨_, done.tells⟩
    | tiered =>
      rcases createTiered_cases c hp returns with
        ⟨_, -, -, rfl⟩ | ⟨-, _, _, _, _, _, _, _, done⟩
      · exact ⟨[], unchanged⟩
      · exact done.tells
  | modifyOrderWithType _ today s origId newId orderType price quantity reply returns =>
    cases policy with
    | real =>
      rcases modifyReal_cases c hp returns with
        ⟨⟨_, -, -, rfl⟩, -⟩ | ⟨-, _, entry, _, _, _, k, done⟩
      · exact ⟨[], unchanged⟩
      · refine done.tells c k ?_
        rintro trades left final book' a rfl
        exact (k.absorbs a).mpr (absorbed hp entry _ k.checked k.remains)
    | tiered =>
      rcases modifyTiered_cases c hp returns with
        ⟨_, -, -, rfl⟩ | ⟨-, _, _, _, _, _, _, k, -, done⟩
      · exact ⟨[], unchanged⟩
      · exact done.tells c k
  | cancelOrderWithId _ s origId clOrdId reply returns =>
    rcases cancel_cases c returns with ⟨_, -, -, rfl⟩ | ⟨-, entry, book', execId, done⟩
    · exact ⟨[], unchanged⟩
    · exact done.tells c
  | quote _ s i bidPrice bidQuantity askPrice askQuantity reply returns =>
    cases policy with
    | real =>
      rcases quote_cases c returns with ⟨_, -, -, rfl⟩ | ⟨-, v, trades, fills, done, -⟩
      · exact ⟨[], unchanged⟩
      · exact ⟨_, done.tells⟩
    | tiered =>
      obtain ⟨-, rfl⟩ := quote_tiered hp returns
      exact ⟨[], unchanged⟩
  | expireDayOrdersAt _ today keys visits returns => exact expire_tells c returns

/-- The last report about every recorded order shows the record. -/
def ReportsAgree (e : Engine D) : Prop :=
  ∀ s id r, e.order s id = some r → ∃ o, (about (s, id) e.sent).getLast? = some o ∧ Alike o r

/-- An order that a step ends is reported as ended once, and nothing is said
about an order that had ended before. -/
def EndsOnce (e e' : Engine D) : Prop :=
  ∃ news, e'.sent = e.sent ++ news ∧ ∀ s id r, e'.order s id = some r →
    r.state.isActive = false →
    ((∀ r', e.order s id = some r' → r'.state.isActive) →
      ((about (s, id) news).filter (fun o => !o.state.isActive)).length = 1) ∧
    ∀ r', e.order s id = some r' → r'.state.isActive = false → about (s, id) news = []

theorem Tells.agree {e e' : Engine D} {news : List (Report D)} (told : Tells e e' news)
    (regular : ∀ s id r, e'.order s id = some r → id ≠ quoteOrderId) (h : ReportsAgree e) :
    ReportsAgree e' := by
  intro s id r hr
  have f := told.follows s id (regular s id r hr)
  rw [hr] at f
  rw [told.sent, about_append, List.getLast?_append]
  rcases f.last_alike with ⟨silent, r', before, alike⟩ | ⟨o, last, alike⟩
  · obtain ⟨o, last, alike'⟩ := h s id r' before
    rw [silent, last]
    exact ⟨o, rfl, alike'.trans alike⟩
  · rw [last]
    exact ⟨o, rfl, alike⟩

theorem Tells.endsOnce {e e' : Engine D} {news : List (Report D)} (told : Tells e e' news)
    (regular : ∀ s id r, e'.order s id = some r → id ≠ quoteOrderId) : EndsOnce e e' := by
  refine ⟨news, told.sent, ?_⟩
  intro s id r hr ended
  have f := told.follows s id (regular s id r hr)
  rw [hr] at f
  refine ⟨f.ends_once ended, ?_⟩
  intro r' before ended'
  rw [before] at f
  exact f.silent_after ended'

/-- The cancelled remainder of a replacement is not reported: the last report
shows the order as it was before. -/
theorem ReplacedReal.disagrees [LawfulDecimal D] {e e' e1 : Engine D} {s : String}
    {origId newId : OrderId} {price quantity : D} {entry order : Order D} {remaining : D}
    {book1 : OrderBook D} {plan : Option (List D)} (c : Coherent .real e.view none)
    (k : Rekeyed .real e e1 s origId newId .market price quantity entry order remaining book1 plan)
    (done : ReplacedReal e e' s origId entry order book1)
    (unabsorbed : ¬ Absorbs entry.side (marketPrice D entry.side) remaining
      ((e.book entry.instrumentId).queue entry.side.opposite)) : ¬ ReportsAgree e' := by
  obtain ⟨hid, ht, -, hrem, hcum, -⟩ := k.fields
  have hs := k.session c
  have key : order.identity = (s, newId) := by rw [Order.identity, hid, hs]
  cases done with
  | exhausted hz execId effect =>
    refine absurd ?_ unabsorbed
    rw [← hrem, hz]
    exact absorbs_zero _ _ _
  | matched open_ trades left final book' fills execId a filled effect =>
    have remains : left.remaining ≠ 0 := fun h => unabsorbed ((k.absorbs a).mp h)
    have final_eq : final = { left with state := .cancelled } := by
      rcases a.final_cases with ⟨-, h | h⟩ | ⟨-, -, h⟩
      · exact absurd h remains
      · rw [ht] at h
        cases h
      · exact h
    have recorded := a.record_self (by rw [hid]; exact k.valid.regular)
    have orders : e'.order = ((rekeyed e.view entry.instrumentId book1 s origId order).added order
        trades final book').record := congrArg View.record effect.view
    rw [hid, hs, ← orders] at recorded
    intro agree
    obtain ⟨o, last, alike⟩ := agree s newId final recorded
    rw [effect.sent, about_append, List.getLast?_append, about_cons_self (by exact key),
      about_fills filled _ (registered_iff.mpr k.registered)] at last
    have snaps := a.snapshots_self
    rw [key] at snaps
    have shown : o.state.isActive := by
      rcases snaps with ⟨rfl, rfl⟩ | ⟨early, hsnap, -⟩
      · obtain rfl := Option.some.inj last
        exact k.replacement_active open_
      · rw [hsnap, ← List.cons_append, List.getLast?_concat] at last
        obtain rfl := Option.some.inj last
        exact a.left_active remains
    have ended := alike.active
    rw [shown, final_eq] at ended
    cases ended

theorem absorbed_of_agree [LawfulDecimal D] {policy : FillPolicy} {e e' : Engine D}
    {command : Command D} (c : Coherent policy e.view none) (hp : e.fillPolicy = policy)
    (h : Step e command e') (agree : ReportsAgree e') : Absorbed e command := by
  cases h with
  | modifyOrderWithType _ today s origId newId orderType price quantity reply returns =>
    cases orderType with
    | limit => trivial
    | market =>
      intro real entry remaining checked remains
      obtain rfl : policy = .real := hp.symm.trans real
      rcases modifyReal_cases c hp returns with ⟨-, refused⟩ | ⟨-, _, entry', _, _, _, k, done⟩
      · exact absurd checked (refused entry)
      · obtain rfl := Except.ok.inj (k.checked.symm.trans checked)
        obtain rfl := Except.ok.inj (k.remains.symm.trans remains)
        by_contra unabsorbed
        exact done.disagrees c k unabsorbed agree
  | _ => trivial

/-- In a run without unabsorbed replacements into market orders every owner
knows what became of its orders, and no other step spoils this. -/
theorem last_report_agrees [LawfulDecimal D] {policy : FillPolicy} {e : Engine D}
    (run : RunWith Absorbed (withFillPolicy policy) e) :
    ReportsAgree e ∧ ∀ command e', Step e command e' →
      (ReportsAgree e' ↔ Absorbed e command) ∧ (Absorbed e command → EndsOnce e e') := by
  have regular : ∀ {e : Engine D}, Reachable policy e → ∀ s id r, e.order s id = some r →
      id ≠ quoteOrderId := fun reached s id r hr =>
    ((reachable_coherent reached).1.keyed s id r hr).2.2
  have kept : ∀ {e e' : Engine D} {command : Command D}, Reachable policy e → ReportsAgree e →
      Absorbed e command → Step e command e' → ReportsAgree e' ∧ EndsOnce e e' := by
    intro e e' command reached agree absorbed step
    obtain ⟨c, hp⟩ := reachable_coherent reached
    obtain ⟨news, told⟩ := step_tells c hp absorbed step
    have after := regular (.tail reached ⟨command, trivial, step⟩)
    exact ⟨told.agree after agree, told.endsOnce after⟩
  have agree : ReportsAgree e := by
    induction run with
    | refl =>
      intro s id r hr
      cases hr
    | tail run step ih =>
      obtain ⟨command, absorbed, step⟩ := step
      exact (kept (RunWith.reachable run) ih absorbed step).1
  refine ⟨agree, ?_⟩
  intro command e' step
  have reached := RunWith.reachable run
  obtain ⟨c, hp⟩ := reachable_coherent reached
  exact ⟨⟨absorbed_of_agree c hp step, fun absorbed => (kept reached agree absorbed step).1⟩,
    fun absorbed => (kept reached agree absorbed step).2⟩

theorem last_report_agrees_sample : ReportsAgree (played .real sampleRun) ∧
    ∀ command e', Step (played .real sampleRun) command e' →
      (ReportsAgree e' ↔ Absorbed (played .real sampleRun) command) ∧
        (Absorbed (played .real sampleRun) command → EndsOnce (played .real sampleRun) e') := by
  refine last_report_agrees (played_run .real sampleRun ?_)
  intro command hc e
  simp only [sampleRun, List.mem_cons, List.not_mem_nil, or_false] at hc
  rcases hc with rfl | rfl | rfl | rfl | rfl | rfl | rfl <;> trivial

/-- A buy order of four replaced into a market order while three are offered. -/
def marketReplacement : List (Command ℚ) := [
  .createInstrument "AAA", .registerSession "a", .registerSession "b",
  .createOrder 1 "a" ⟨1, 1, .sell, .limit, 10, 3⟩,
  .createOrder 1 "b" ⟨7, 1, .buy, .limit, 9, 4⟩,
  .modifyOrderWithType 1 "b" 7 8 .market 9 4]

/-- Its record is cancelled, its last report a partial fill. -/
theorem remainder_unreported : Reachable .real (played .real marketReplacement) ∧
    ¬ ReportsAgree (played .real marketReplacement) := by
  refine ⟨played_reachable .real marketReplacement, ?_⟩
  intro agree
  have record : ((played .real marketReplacement).order "b" 8).map (fun r => r.state.isActive) =
      some false := by decide +kernel
  have last : ((about ("b", 8) (played .real marketReplacement).sent).getLast?).map
      (fun o => o.state.isActive) = some true := by decide +kernel
  obtain ⟨r, hr, ended⟩ := Option.map_eq_some_iff.mp record
  obtain ⟨o, ho, alike⟩ := agree "b" 8 r hr
  rw [ho, Option.map_some, Option.some.injEq, alike.active, ended] at last
  cases last

end Engine

end RustTrader
