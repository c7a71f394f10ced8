import RustTrader.MatchEffects

/-!
# Replacements

A replacement takes the original out of its book, gives its record the new
identifier, and then works on what remains like on a new order. The first part
is the same under both policies.
-/

namespace RustTrader

open Decimal

namespace Engine

variable {D : Type} [Decimal D]

theorem checkModify_ok {e : Engine D} {s : String} {origId newId : OrderId}
    {orderType : OrderType} {price quantity : D} {entry : Order D}
    (h : e.checkModify s origId newId orderType price quantity = .ok entry) :
    e.order s origId = some entry ∧ entry.state.isActive ∧
      ValidInput newId orderType price quantity ∧ entry.cumQuantity ≤ quantity ∧
      (newId = origId ∨ e.order s newId = none) ∧
      ∃ session, e.sessions.get? s = some session := by
  unfold checkModify at h
  cases hs : e.sessions.get? s with
  | none => rw [hs] at h; cases h
  | some session =>
    simp only [hs] at h
    cases hr : HashMap.get? session.orders origId with
    | none => rw [hr] at h; cases h
    | some r =>
      simp only [hr] at h
      by_cases ha : r.state.isActive = true
      · simp only [ha, Bool.not_true, Bool.false_eq_true, if_false] at h
        cases hv : validateOrderInput newId orderType price quantity with
        | error err => rw [hv] at h; cases h
        | ok u =>
          simp only [hv, bind, Except.bind] at h
          by_cases hq : quantity < r.cumQuantity
          · rw [if_pos hq] at h; cases h
          · rw [if_neg hq] at h
            by_cases hd : newId ≠ origId ∧ HashMap.contains session.orders newId
            · rw [if_pos hd] at h; cases h
            · rw [if_neg hd] at h
              obtain rfl := Except.ok.inj h
              refine ⟨by simp [order, hs, hr], ha, validateOrderInput_ok hv, not_lt.mp hq, ?_,
                session, rfl⟩
              by_cases hsame : newId = origId
              · exact Or.inl hsame
              · right
                rw [not_and] at hd
                have hc := hd hsame
                simp [order, hs]
                simpa [HashMap.contains] using hc
      · simp only [Bool.not_eq_true] at ha
        simp [ha] at h

theorem checkModify_error {e : Engine D} {s : String} {origId newId : OrderId}
    {orderType : OrderType} {price quantity : D} {err : EngineError}
    (h : e.checkModify s origId newId orderType price quantity = .error err) :
    err.External := by
  unfold checkModify at h
  have plain : ∀ err' : EngineError, err'.External →
      (Except.error err' : Except EngineError (Order D)) = .error err → err.External := by
    intro err' ext same
    cases same
    exact ext
  split at h
  · exact plain _ (by intro context same; cases same) h
  split at h
  · exact plain _ (by intro context same; cases same) h
  split at h
  · exact plain _ (by intro context same; cases same) h
  cases hv : validateOrderInput newId orderType price quantity with
  | error err' =>
    rw [hv] at h
    exact plain _ (validateOrderInput_error hv) h
  | ok u =>
    simp only [hv, bind, Except.bind] at h
    split at h
    · exact plain _ (by intro context same; cases same) h
    split at h
    · exact plain _ (by intro context same; cases same) h
    · cases h

theorem replacementPlan_error {e : Engine D} {entry : Order D} {quantity : D} {err : EngineError}
    (h : e.replacementPlan entry quantity = .ok (.error err)) : err.External := by
  unfold replacementPlan at h
  split at h
  · exact planFor_error h
  · obtain ⟨remaining, -, h⟩ := Exec.bind_ok.mp h
    exact planFor_error h

/-- The view with the original out of its book and its record under the new
identifier. -/
def rekeyed (v : View D) (i : Int) (book : OrderBook D) (s : String) (origId : OrderId)
    (order : Order D) : View D :=
  ((v.setBook i book).setRecord s origId none).setRecord s order.id (some order)

theorem rekey_effect {e e' : Engine D} {today : Int} {s : String} {origId : OrderId}
    {order : Order D} (h : e.rekey today s origId order = .ok e') :
    Effect e e' ((e.view.setRecord s origId none).setRecord s order.id (some order)) [] := by
  unfold rekey at h
  obtain ⟨session, hs, h⟩ := Exec.bind_ok.mp h
  obtain rfl := Except.ok.inj h
  cases hg : e.sessions.get? s with
  | none => rw [hg] at hs; cases hs
  | some session' =>
    rw [hg, unwrap_some] at hs
    obtain rfl := Except.ok.inj hs
    have written := (setOrders_rewrites hg
      (HashMap.set (HashMap.remove session'.orders origId) order.id order)).effect
    have orders : (e.setOrders s session'
        (HashMap.set (HashMap.remove session'.orders origId) order.id order)).order =
        ((e.view.setRecord s origId none).setRecord s order.id (some order)).record := by
      funext s' id'
      rw [order_setOrders]
      by_cases hs' : s' = s
      · subst hs'
        rw [if_pos rfl, HashMap.get?_set, HashMap.get?_remove]
        by_cases hid : id' = order.id
        · simp [hid, View.setRecord]
        · by_cases hid' : id' = origId
          · subst hid'
            simp [hid, View.setRecord]
          · simp [hid, hid', View.setRecord, view, Engine.order, hg]
      · simp [hs', View.setRecord, view]
    rw [orders] at written
    exact ⟨written.view, written.sent, written.registered, written.fillPolicy,
      written.instruments⟩

theorem rekey_traded {e e' : Engine D} {today : Int} {s : String} {origId : OrderId}
    {order : Order D} (h : e.rekey today s origId order = .ok e') : e'.traded = e.traded := by
  unfold rekey at h
  obtain ⟨session, -, h⟩ := Exec.bind_ok.mp h
  cases h
  rfl

/-- What every accepted replacement has in common. -/
structure Rekeyed (policy : FillPolicy) (e e1 : Engine D) (s : String) (origId newId : OrderId)
    (orderType : OrderType) (price quantity : D) (entry order : Order D) (remaining : D)
    (book1 : OrderBook D) (plan : Option (List D)) : Prop where
  checked : e.checkModify s origId newId orderType price quantity = .ok entry
  recorded : e.order s origId = some entry
  active : entry.state.isActive
  valid : ValidInput newId orderType price quantity
  covered : entry.cumQuantity ≤ quantity
  unused : newId = origId ∨ e.order s newId = none
  registered : e.Registered s
  planned : e.replacementPlan entry quantity = .ok (.ok plan)
  remains : sub quantity entry.cumQuantity = .ok remaining
  taken : e.removeFromBook s origId entry.side entry.price entry.instrumentId =
    .ok (.ok { entry with state := .cancelled }, e.setBook entry.instrumentId book1)
  made : order = replacement policy entry newId orderType price quantity remaining
    (e.nextArrival + 1)
  mem : entry ∈ e.view.queue entry.instrumentId entry.side
  left : OrderBook.Left Order.price (e.book entry.instrumentId) entry.side entry book1
  effect : Effect e e1 { rekeyed e.view entry.instrumentId book1 s origId order with
    arrival := e.nextArrival + 1 } []
  traded : e1.traded = e.traded
  coherent : Coherent policy (rekeyed e.view entry.instrumentId book1 s origId order)
    (some order.identity)

theorem rekeyed_coherent {policy : FillPolicy} {v : View D} (c : Coherent policy v none)
    {s : String} {origId : OrderId} {entry order : Order D} {book1 : OrderBook D}
    (recorded : v.record s origId = some entry)
    (mem : entry ∈ v.queue entry.instrumentId entry.side)
    (left : OrderBook.Left Order.price (v.book entry.instrumentId) entry.side entry book1)
    (session : order.sessionId = s) (regular : order.id ≠ quoteOrderId)
    (unused : order.id = origId ∨ v.record s order.id = none) :
    Coherent policy (rekeyed v entry.instrumentId book1 s origId order) (some order.identity) := by
  obtain ⟨hs, hid, hne⟩ := c.keyed s origId entry recorded
  have hident : entry.identity = (s, origId) := by rw [Order.identity, hs, hid]
  have out := c.leave left mem
  rw [if_neg (hid ▸ hne), hident] at out
  have erased : Coherent policy ((v.setBook entry.instrumentId book1).setRecord s origId none)
      none := by
    refine out.setRecord (out.absent _ rfl) ?_ ?_ ?_ ?_
    · intro r hr; cases hr
    · intro r hr; cases hr
    · intro x hx; exact (Option.some.inj hx).symm
    · intro x hx; cases hx
  have none_left : ((v.setBook entry.instrumentId book1).setRecord s origId none).record
      order.sessionId order.id = none := by
    rw [session]
    rcases unused with h | h
    · simp [View.setRecord, h]
    · by_cases hsame : order.id = origId
      · simp [View.setRecord, hsame]
      · simp only [View.setRecord, hsame, and_false, if_false]
        exact h
  have opened := open_request erased regular none_left
  rw [Engine.opened, session] at opened
  exact opened

theorem arrives_rekeyed {v : View D} {i : Int} {book1 : OrderBook D} {s : String}
    {origId : OrderId} {order : Order D} (positive : 0 < order.remaining)
    (price : order.orderType = .limit → 0 < order.price) (newest : v.arrival < order.arrival)
    (regular : order.id ≠ quoteOrderId) (session : order.sessionId = s) :
    View.Arrives (rekeyed v i book1 s origId order) (some order.identity) order := by
  refine ⟨positive, price, newest, .request regular rfl ⟨order, ?_⟩⟩
  simp [rekeyed, View.setRecord, session]

/-- Taking the original out, recording it and moving its record. -/
theorem rekeyed_of_run {policy : FillPolicy} {e ea eb e1 : Engine D}
    (c : Coherent policy e.view none) (hpolicy : e.fillPolicy = policy) {today : Int} {s : String}
    {origId newId : OrderId} {orderType : OrderType} {price quantity remaining : D}
    {entry : Order D} {plan : Option (List D)} {removed : Except EngineError (Order D)}
    (checked : e.checkModify s origId newId orderType price quantity = .ok entry)
    (planned : e.replacementPlan entry quantity = .ok (.ok plan))
    (hremove : e.removeFromBook s origId entry.side entry.price entry.instrumentId =
      .ok (removed, ea))
    (hrecord : ea.recordMarketData entry.instrumentId [] = .ok eb)
    (hsub : sub quantity entry.cumQuantity = .ok remaining)
    (hrekey : rekey { eb with nextArrival := eb.nextArrival + 1 } today s origId
      (replacement eb.fillPolicy entry newId orderType price quantity remaining
        (eb.nextArrival + 1)) = .ok e1) :
    ∃ book1, Rekeyed policy e e1 s origId newId orderType price quantity entry
      (replacement eb.fillPolicy entry newId orderType price quantity remaining
        (eb.nextArrival + 1)) remaining book1 plan := by
  obtain ⟨recorded, active, valid, covered, unused, session, hs⟩ := checkModify_ok checked
  obtain ⟨book1, rfl, rfl, mem, left⟩ := removeFromBook_active c recorded active hremove
  have hq := recordMarketData_quiet hrecord
  have harr : eb.nextArrival = e.nextArrival := hq.nextArrival
  have hpol : eb.fillPolicy = policy := hq.fillPolicy.trans hpolicy
  obtain ⟨hsession, -, -⟩ := c.keyed s origId entry recorded
  have removed := (setBook_effect e entry.instrumentId book1).trans hq.effect
  have counted : Effect eb { eb with nextArrival := eb.nextArrival + 1 }
      { e.view.setBook entry.instrumentId book1 with arrival := e.nextArrival + 1 } [] := by
    refine ⟨?_, by simp, fun _ => Iff.rfl, rfl, rfl⟩
    rw [← harr, ← view_setBook, ← hq.view]
    rfl
  have whole := (removed.trans counted).trans (rekey_effect hrekey)
  refine ⟨book1, ⟨checked, recorded, active, valid, covered, unused, ⟨session, hs⟩, planned, hsub,
    hremove, ?_, mem, left, ?_, ?_, ?_⟩⟩
  · rw [hpol, harr]
  · rw [counted.view] at whole
    exact whole
  · have recorded_ := recordMarketData_traded hrecord
    exact (rekey_traded hrekey).trans recorded_
  · exact rekeyed_coherent c recorded mem left hsession valid.regular unused

theorem modify_cases {policy : FillPolicy} {e e' : Engine D} (c : Coherent policy e.view none)
    (hpolicy : e.fillPolicy = policy) {today : Int} {s : String} {origId newId : OrderId}
    {orderType : OrderType} {price quantity : D} {reply : Except EngineError Unit}
    (h : e.modifyOrderWithType today s origId newId orderType price quantity = .ok (reply, e')) :
    (Refused e e' reply ∧ ∀ entry, e.checkModify s origId newId orderType price quantity =
      .ok entry →
      ∀ plan, e.replacementPlan entry quantity ≠ .ok (.ok plan)) ∨
    ∃ e1 entry order remaining book1 plan, Rekeyed policy e e1 s origId newId orderType price
      quantity entry order remaining book1 plan ∧
      e1.confirmReplacement s origId order plan = .ok (reply, e') := by
  unfold modifyOrderWithType at h
  cases hc : e.checkModify s origId newId orderType price quantity with
  | error err =>
    rw [hc] at h
    cases h
    refine Or.inl ⟨.intro (checkModify_error hc), ?_⟩
    intro entry checked
    cases checked
  | ok entry =>
    rw [hc] at h
    obtain ⟨recorded, active, -⟩ := checkModify_ok hc
    obtain ⟨plan, hplan, h⟩ := Exec.bind_ok.mp h
    cases plan with
    | error err =>
      cases h
      refine Or.inl ⟨.intro (replacementPlan_error hplan), ?_⟩
      intro entry' checked plan planned
      obtain rfl := Except.ok.inj checked
      cases hplan.symm.trans planned
    | ok plan =>
      right
      obtain ⟨⟨removed, ea⟩, hremove, h⟩ := Exec.bind_ok.mp h
      obtain ⟨_, rfl, rfl, -, -⟩ := removeFromBook_active c recorded active hremove
      obtain ⟨eb, hrecord, h⟩ := Exec.bind_ok.mp h
      obtain ⟨remaining, hsub, h⟩ := Exec.bind_ok.mp h
      obtain ⟨e1, hrekey, h⟩ := Exec.bind_ok.mp h
      obtain ⟨book1, rekeyed⟩ := rekeyed_of_run c hpolicy hc hplan hremove hrecord hsub hrekey
      exact ⟨e1, entry, _, remaining, book1, plan, rekeyed, h⟩

namespace Rekeyed

variable {policy : FillPolicy} {e e1 : Engine D} {s : String} {origId newId : OrderId}
  {orderType : OrderType} {price quantity : D} {entry order : Order D} {remaining : D}
  {book1 : OrderBook D} {plan : Option (List D)}

theorem fields (k : Rekeyed policy e e1 s origId newId orderType price quantity entry order
    remaining book1 plan) : order.id = newId ∧ order.orderType = orderType ∧
      order.quantity = quantity ∧ order.remaining = remaining ∧
      order.cumQuantity = entry.cumQuantity ∧ order.arrival = e.nextArrival + 1 ∧
      order.sessionId = entry.sessionId ∧ order.instrumentId = entry.instrumentId ∧
      order.side = entry.side ∧ order.price = bookedPrice policy orderType price := by
  rw [k.made]
  exact ⟨rfl, rfl, rfl, rfl, rfl, rfl, rfl, rfl, rfl, rfl⟩

theorem state (k : Rekeyed policy e e1 s origId newId orderType price quantity entry order
    remaining book1 plan) : order.state = if remaining = 0 then .filled
      else if entry.cumQuantity ≠ 0 then .partialFill else .booked := by
  rw [k.made]
  rfl

theorem session (k : Rekeyed policy e e1 s origId newId orderType price quantity entry order
    remaining book1 plan) (c : Coherent policy e.view none) : order.sessionId = s :=
  k.fields.2.2.2.2.2.2.1.trans (c.keyed s origId entry k.recorded).1

theorem nonneg [LawfulDecimal D] (k : Rekeyed policy e e1 s origId newId orderType price quantity
    entry order remaining book1 plan) : 0 ≤ order.remaining := by
  rw [k.fields.2.2.2.1]
  exact nonneg_of_sub k.covered k.remains

/-- A replacement without a remaining quantity leaves no gap. -/
theorem exhausted (k : Rekeyed policy e e1 s origId newId orderType price quantity entry order
    remaining book1 plan) (c : Coherent policy e.view none) (done : order.remaining = 0) :
    Coherent policy { rekeyed e.view entry.instrumentId book1 s origId order with
      arrival := e.nextArrival + 1 } none := by
  refine (k.coherent.arrive (Nat.le_succ _)).close ?_
  intro s' id' r hg hr
  obtain ⟨rfl, rfl⟩ := Prod.mk.inj (Option.some.inj hg).symm
  have hs := k.session c
  simp only [rekeyed, View.setRecord, hs, and_self, if_true] at hr
  obtain rfl := Option.some.inj hr
  rw [k.state, ← k.fields.2.2.2.1, if_pos done]
  rfl

theorem arrives [LawfulDecimal D] (k : Rekeyed .real e e1 s origId newId orderType price quantity
    entry order remaining book1 plan) (c : Coherent .real e.view none)
    (open_ : order.remaining ≠ 0) :
    View.Arrives (rekeyed e.view entry.instrumentId book1 s origId order) (some order.identity)
      order := by
  obtain ⟨hid, ht, -, -, -, harr, -, -, -, hprice⟩ := k.fields
  refine arrives_rekeyed (lt_of_le_of_ne k.nonneg (Ne.symm open_)) ?_ ?_ ?_ (k.session c)
  · intro hl
    rw [hprice, bookedPrice_real]
    exact k.valid.limit (ht.symm.trans hl)
  · rw [harr]
    exact Nat.lt_succ_self _
  · rw [hid]
    exact k.valid.regular

end Rekeyed

/-- The confirmation of a replacement. -/
def replacedReport (e : Engine D) (order : Order D) (origId : OrderId) (execId : String) :
    Report D :=
  .status order (e.symbolFor order.instrumentId) order.id execId .replaced (some origId)

/-- A confirmed replacement that has nothing left to do. -/
theorem confirm_exhausted {e e' : Engine D} {s : String} {origId : OrderId} {order : Order D}
    {plan : Option (List D)} (registered : e.Registered order.sessionId)
    (done : order.remaining = 0) {reply : Except EngineError Unit}
    (h : e.confirmReplacement s origId order plan = .ok (reply, e')) :
    reply = .ok () ∧ ∃ execId, Effect e e' e.view [e.replacedReport order origId execId] := by
  have rested : e.restReplacement s order plan = .ok (.ok none, e) := by
    unfold restReplacement
    cases plan with
    | none => rfl
    | some plan => simp only [done, if_true]; rfl
  unfold confirmReplacement at h
  rw [rested, Exec.ok_bind] at h
  simp only [done, if_true] at h
  obtain ⟨e2, hpublish, h⟩ := Exec.bind_ok.mp h
  cases h
  obtain ⟨execId, told⟩ := status_effect registered order.id .replaced (some origId)
  have whole := told.trans (publishMarketData_quiet hpublish).effect
  rw [told.view] at whole
  exact ⟨rfl, execId, whole⟩

theorem confirm_traded {e e' : Engine D} {s : String} {origId : OrderId} {order : Order D}
    {plan : Option (List D)} (done : order.remaining = 0) {reply : Except EngineError Unit}
    (h : e.confirmReplacement s origId order plan = .ok (reply, e')) : e'.traded = e.traded := by
  have rested : e.restReplacement s order plan = .ok (.ok none, e) := by
    unfold restReplacement
    cases plan with
    | none => rfl
    | some plan => simp only [done, if_true]; rfl
  unfold confirmReplacement at h
  rw [rested, Exec.ok_bind] at h
  simp only [done, if_true] at h
  obtain ⟨e2, hpublish, h⟩ := Exec.bind_ok.mp h
  cases h
  obtain ⟨_, told⟩ := sendStatusFor_told e order order.id .replaced (some origId)
  rw [publishMarketData_traded hpublish, told.traded]

/-- The effect of an accepted replacement under the real policy. -/
inductive ReplacedReal (e e' : Engine D) (s : String) (origId : OrderId) (entry order : Order D)
    (book1 : OrderBook D) : Prop
  | exhausted (done : order.remaining = 0) (execId : String)
      (effect : Effect e e' { rekeyed e.view entry.instrumentId book1 s origId order with
        arrival := e.nextArrival + 1 } [e.replacedReport order origId execId])
  | matched (open_ : order.remaining ≠ 0) (trades : List (RawTrade D)) (left final : Order D)
      (book' : OrderBook D) (fills : List (Report D)) (execId : String)
      (added : Coherent.Added (rekeyed e.view entry.instrumentId book1 s origId order)
        (some order.identity) order trades left final book')
      (filled : FillNews e (parties trades) fills)
      (effect : Effect e e' ((rekeyed e.view entry.instrumentId book1 s origId order).added order
        trades final book') (e.replacedReport order origId execId :: fills))

theorem modifyReal_cases [LawfulDecimal D] {e e' : Engine D} (c : Coherent .real e.view none)
    (policy : e.fillPolicy = .real) {today : Int} {s : String} {origId newId : OrderId}
    {orderType : OrderType} {price quantity : D} {reply : Except EngineError Unit}
    (h : e.modifyOrderWithType today s origId newId orderType price quantity = .ok (reply, e')) :
    (Refused e e' reply ∧
      ∀ entry, e.checkModify s origId newId orderType price quantity ≠ .ok entry) ∨
    reply = .ok () ∧ ∃ e1 entry order remaining book1, Rekeyed .real e e1 s origId newId orderType
      price quantity entry order remaining book1 none ∧
      ReplacedReal e e' s origId entry order book1 := by
  rcases modify_cases c policy h with
    ⟨refused, unplanned⟩ | ⟨e1, entry, order, remaining, book1, plan, k, h⟩
  · refine Or.inl ⟨refused, ?_⟩
    intro entry checked
    refine unplanned entry checked none ?_
    rw [replacementPlan, policy]
    rfl
  right
  obtain rfl : plan = none := by
    have hp := k.planned
    unfold replacementPlan at hp
    rw [policy] at hp
    cases hp
    rfl
  have registered : e1.Registered order.sessionId := by
    rw [k.effect.registered, k.session c]
    exact k.registered
  by_cases done : order.remaining = 0
  · obtain ⟨rfl, execId, confirmed⟩ := confirm_exhausted registered done h
    have whole := k.effect.trans confirmed
    rw [k.effect.view, replacedReport, symbolFor_congr k.effect.instruments] at whole
    exact ⟨rfl, e1, entry, order, remaining, book1, k, .exhausted done execId whole⟩
  · unfold confirmReplacement at h
    have rested : e1.restReplacement s order none = .ok (.ok none, e1) := rfl
    rw [rested, Exec.ok_bind] at h
    simp only [done, if_false] at h
    obtain ⟨execId, told⟩ := status_effect registered order.id .replaced (some origId)
    unfold workReplacement at h
    obtain ⟨⟨trades, result, ea⟩, hadd, h⟩ := Exec.bind_ok.mp h
    obtain ⟨eb, hrecord, h⟩ := Exec.bind_ok.mp h
    obtain ⟨ec, hpublish, h⟩ := Exec.bind_ok.mp h
    have confirmed := k.effect.trans told
    rw [k.effect.view] at confirmed
    have shows_ : Shows (e1.sendStatusFor order order.id .replaced (some origId))
        (rekeyed e.view entry.instrumentId book1 s origId order) :=
      ⟨(congrArg View.book confirmed.view).symm, (congrArg View.record confirmed.view).symm,
        (congrArg View.leg confirmed.view).symm⟩
    have arrival : order.arrival =
        (e1.sendStatusFor order order.id .replaced (some origId)).nextArrival :=
      k.fields.2.2.2.2.2.1.trans (congrArg View.arrival confirmed.view).symm
    obtain ⟨left, final, book', fills, rfl, added, news, -, synced⟩ :=
      match_effect shows_ k.coherent (k.arrives c done) arrival hadd hrecord hpublish
    cases h
    have whole := confirmed.trans synced
    rw [symbolFor_congr k.effect.instruments] at whole
    exact ⟨rfl, e1, entry, order, remaining, book1, k,
      .matched done trades left final book' fills execId added (news.effect confirmed) whole⟩

theorem ReplacedReal.coherent [LawfulDecimal D] {e e' e1 : Engine D} {s : String}
    {origId newId : OrderId} {orderType : OrderType} {price quantity : D} {entry order : Order D}
    {remaining : D} {book1 : OrderBook D} {plan : Option (List D)}
    (c : Coherent .real e.view none)
    (k : Rekeyed .real e e1 s origId newId orderType price quantity entry order remaining book1
      plan) (done : ReplacedReal e e' s origId entry order book1) :
        Coherent .real e'.view none := by
  cases done with
  | exhausted hz execId effect =>
    rw [effect.view]
    exact k.exhausted c hz
  | matched _ trades left final book' fills execId added _ effect =>
    rw [effect.view]
    exact added.coherent_after

end Engine

end RustTrader
