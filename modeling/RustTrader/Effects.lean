import RustTrader.Runs

/-!
# What an accepted command does

For each command of the engine, from a coherent state: either it is refused and
nothing happened, or its effect on the view and the reports it sent. Branches
of the source that only a broken mirror could reach are ruled out here, once.
-/

namespace RustTrader

open Decimal

/-- The error is no broken invariant of the book. -/
def EngineError.External (err : EngineError) : Prop :=
  ∀ context, err ≠ .bookInvariantViolation context

theorem validateOrderId_error {id : OrderId} {err : EngineError}
    (h : validateOrderId id = .error err) : err.External := by
  unfold validateOrderId at h
  split at h
  · cases h
    intro context same
    cases same
  · cases h

namespace Engine

variable {D : Type} [Decimal D]

/-- The view an engine is left with and the reports sent on the way. -/
structure Effect (e e' : Engine D) (v : View D) (news : List (Report D)) : Prop where
  view : e'.view = v
  sent : e'.sent = e.sent ++ news
  registered : ∀ s, e'.Registered s ↔ e.Registered s
  fillPolicy : e'.fillPolicy = e.fillPolicy
  instruments : e'.instruments = e.instruments

theorem Effect.refl (e : Engine D) : Effect e e e.view [] :=
  ⟨rfl, by simp, fun _ => Iff.rfl, rfl, rfl⟩

theorem Effect.trans {e e' e'' : Engine D} {v v' : View D} {m n : List (Report D)}
    (h : Effect e e' v m) (h' : Effect e' e'' v' n) : Effect e e'' v' (m ++ n) :=
  ⟨h'.view, by rw [h'.sent, h.sent, List.append_assoc],
    fun s => (h'.registered s).trans (h.registered s), h'.fillPolicy.trans h.fillPolicy,
    h'.instruments.trans h.instruments⟩

theorem Quiet.effect {e e' : Engine D} (h : Quiet e e') : Effect e e' e.view [] :=
  ⟨h.view, by rw [h.sent]; simp, h.registered, h.fillPolicy, h.instruments⟩

theorem Told.effect {e e' : Engine D} {news : List (Report D)} (h : Told e e' news) :
    Effect e e' { e.view with record := e'.order } news :=
  ⟨h.view, h.sent, h.registered, h.fillPolicy, h.instruments⟩

theorem setBook_effect (e : Engine D) (i : Int) (book : OrderBook D) :
    Effect e (e.setBook i book) (e.view.setBook i book) [] :=
  ⟨view_setBook e i book, by simp [setBook], fun _ => Iff.rfl, rfl, rfl⟩

theorem Rewrites.effect {e e' : Engine D} (h : Rewrites e e') :
    Effect e e' { e.view with record := e'.order } [] := h.told.effect

theorem sendStatusFor_effect (e : Engine D) (o : Order D) (clOrdId : OrderId)
    (execType : ExecType) (orig : Option OrderId) : ∃ execId,
      Effect e (e.sendStatusFor o clOrdId execType orig) e.view (e.heard o
        (.status o (e.symbolFor o.instrumentId) clOrdId execId execType orig)) := by
  obtain ⟨execId, told⟩ := sendStatusFor_told e o clOrdId execType orig
  have h := told.effect
  rw [order_sendStatusFor] at h
  exact ⟨execId, h⟩

theorem heard_registered {e : Engine D} {o : Order D} (h : e.Registered o.sessionId)
    (report : Report D) : e.heard o report = [report] := by
  unfold heard
  rw [if_pos (registered_iff.mpr h)]

/-- A status report about an order of a registered session. -/
theorem status_effect {e : Engine D} {o : Order D} (h : e.Registered o.sessionId)
    (clOrdId : OrderId) (execType : ExecType) (orig : Option OrderId) : ∃ execId,
      Effect e (e.sendStatusFor o clOrdId execType orig) e.view
        [.status o (e.symbolFor o.instrumentId) clOrdId execId execType orig] := by
  obtain ⟨execId, told⟩ := sendStatusFor_effect e o clOrdId execType orig
  rw [heard_registered h] at told
  exact ⟨execId, told⟩

theorem symbolFor_congr {e e' : Engine D} (h : e'.instruments = e.instruments) :
    e'.symbolFor = e.symbolFor := by
  funext i
  unfold symbolFor
  rw [h]

/-- Writing a record of a registered session. -/
theorem setOrders_effect {e : Engine D} {s : String} {session : Session D}
    (hs : e.sessions.get? s = some session) (id : OrderId) (record : Order D) :
    Effect e (e.setOrders s session (HashMap.set session.orders id record))
      (e.view.setRecord s id (some record)) [] := by
  have h := (setOrders_rewrites hs (HashMap.set session.orders id record)).effect
  have orders : (e.setOrders s session (HashMap.set session.orders id record)).order =
      (e.view.setRecord s id (some record)).record := by
    funext s' id'
    rw [order_setOrders]
    by_cases hs' : s' = s
    · subst hs'
      rw [if_pos rfl, HashMap.get?_set]
      by_cases hid : id' = id
      · simp [hid, View.setRecord]
      · simp [hid, View.setRecord, view, order, hs]
    · simp [hs', View.setRecord, view]
  rw [orders] at h
  exact h

/-- A refused request: nothing happened, and the reason is no internal error. -/
def Refused {α : Type} (e e' : Engine D) (reply : Except EngineError α) : Prop :=
  ∃ err, reply = .error err ∧ err.External ∧ e' = e

theorem Refused.intro {α : Type} {e : Engine D} {err : EngineError} (h : err.External) :
    Refused (α := α) e e (.error err) := ⟨err, rfl, h, rfl⟩

theorem removeFromBook_cases {e e' : Engine D} {i : Int}
    (filed : OrderBook.Filed Order.price (e.book i)) {s : String} {id : OrderId} {side : Side}
    {price : D} {result : Except EngineError (Order D)}
    (h : e.removeFromBook s id side price i = .ok (result, e')) :
    (result = .error .orderNotFound ∧ e' = e ∧
      ∀ o ∈ (e.book i).queue side, o.price = price → o.identity ≠ (s, id)) ∨
    ∃ o book', result = .ok (OrderBook.cancelledIfActive o) ∧ e' = e.setBook i book' ∧
      o ∈ (e.book i).queue side ∧ o.identity = (s, id) ∧ o.price = price ∧
      OrderBook.Left Order.price (e.book i) side o book' := by
  unfold removeFromBook at h
  cases hb : HashMap.get? e.books i with
  | none =>
    left
    simp only [hb] at h
    obtain ⟨rfl, rfl⟩ := Prod.mk.inj (Except.ok.inj h)
    refine ⟨rfl, rfl, ?_⟩
    intro o ho
    rw [book, hb] at ho
    simp at ho
  | some b =>
    have hbook : e.book i = b := by rw [book, hb]; rfl
    simp only [hb] at h
    rw [hbook] at filed ⊢
    obtain ⟨removed, hremove, h⟩ := Exec.bind_ok.mp h
    rcases OrderBook.remove_spec filed hremove with ⟨rfl, absent⟩ | ⟨o, b', rfl, ho, hid, hp, left⟩
    · obtain ⟨rfl, rfl⟩ := Prod.mk.inj (Except.ok.inj h)
      exact Or.inl ⟨rfl, rfl, absent⟩
    · obtain ⟨rfl, rfl⟩ := Prod.mk.inj (Except.ok.inj h)
      exact Or.inr ⟨o, b', rfl, rfl, ho, hid, hp, left⟩

/-- The order of an active record is found where the record says. -/
theorem removeFromBook_active {policy : FillPolicy} {e e' : Engine D}
    (c : Coherent policy e.view none) {s : String} {id : OrderId} {r : Order D}
    (hr : e.order s id = some r) (active : r.state.isActive)
    {result : Except EngineError (Order D)}
    (h : e.removeFromBook s id r.side r.price r.instrumentId = .ok (result, e')) :
    ∃ book', result = .ok { r with state := .cancelled } ∧
      e' = e.setBook r.instrumentId book' ∧ r ∈ e.view.queue r.instrumentId r.side ∧
      OrderBook.Left Order.price (e.book r.instrumentId) r.side r book' := by
  obtain ⟨hs, hid, -⟩ := c.keyed s id r hr
  have hm := c.mem_of_active hr active
  rcases removeFromBook_cases (c.filed r.instrumentId) h with
    ⟨-, -, absent⟩ | ⟨o, book', rfl, rfl, ho, hoid, -, left⟩
  · exact absurd (show r.identity = (s, id) by rw [Order.identity, hs, hid]) (absent r hm rfl)
  · obtain rfl : o = r := ((c.filed r.instrumentId).distinct r.side).eq_of_key ho hm
      (hoid.trans (show r.identity = (s, id) by rw [Order.identity, hs, hid]).symm)
    refine ⟨book', ?_, rfl, hm, left⟩
    rw [OrderBook.cancelledIfActive, if_pos active]

/-- A record that lost its place in the book may become inactive. -/
theorem retired_coherent {policy : FillPolicy} {v : View D} (c : Coherent policy v none)
    {s : String} {id : OrderId} {entry : Order D} {book' : OrderBook D}
    (recorded : v.record s id = some entry)
    (mem : entry ∈ v.queue entry.instrumentId entry.side)
    (left : OrderBook.Left Order.price (v.book entry.instrumentId) entry.side entry book')
    {record : Option (Order D)}
    (retired : ∀ r, record = some r → r.identity = (s, id) ∧ r.state.isActive = false) :
    Coherent policy ((v.setBook entry.instrumentId book').setRecord s id record) none := by
  obtain ⟨hs, hid, hne⟩ := c.keyed s id entry recorded
  have out := c.leave left mem
  have key : entry.identity = (s, id) := by rw [Order.identity, hs, hid]
  rw [if_neg (hid ▸ hne), key] at out
  refine out.setRecord (out.absent _ rfl) ?_ ?_ ?_ ?_
  · intro r hr
    obtain ⟨hs', hid'⟩ := Prod.mk.inj (retired r hr).1
    exact ⟨hs', hid', hne⟩
  · intro r hr active
    rw [(retired r hr).2] at active
    cases active
  · intro x hx
    exact (Option.some.inj hx).symm
  · intro x hx
    cases hx

theorem validateOrderId_ok {id : OrderId} (h : validateOrderId id = .ok ()) :
    0 < id ∧ id ≠ quoteOrderId := by
  unfold validateOrderId at h
  split at h
  · cases h
  · rename_i hn
    rw [not_or] at hn
    exact ⟨not_le.mp hn.1, hn.2⟩

theorem checkCancel_ok {e : Engine D} {s : String} {origId clOrdId : OrderId} {entry : Order D}
    (h : e.checkCancel s origId clOrdId = .ok entry) :
    e.order s origId = some entry ∧ entry.state.isActive ∧
      ∃ session, e.sessions.get? s = some session := by
  unfold checkCancel at h
  cases hv : validateOrderId clOrdId with
  | error err => rw [hv] at h; cases h
  | ok u =>
    rw [hv] at h
    cases hs : e.sessions.get? s with
    | none => simp [hs, bind, Except.bind] at h
    | some session =>
      cases hr : HashMap.get? session.orders origId with
      | none => simp [hs, hr, bind, Except.bind] at h
      | some r =>
        simp only [hs, hr, bind, Except.bind] at h
        split at h
        · cases h
        · split at h
          · cases h
          · rename_i ha
            obtain rfl := Except.ok.inj h
            exact ⟨by simp [order, hs, hr], by simpa using ha, session, rfl⟩

theorem checkCancel_error {e : Engine D} {s : String} {origId clOrdId : OrderId}
    {err : EngineError} (h : e.checkCancel s origId clOrdId = .error err) : err.External := by
  unfold checkCancel at h
  cases hv : validateOrderId clOrdId with
  | error err' =>
    rw [hv] at h
    cases h
    exact validateOrderId_error hv
  | ok u =>
    rw [hv] at h
    simp only [bind, Except.bind] at h
    intro context same
    subst same
    split at h
    · cases h
    · split at h
      · cases h
      · split at h
        · cases h
        · split at h
          · cases h
          · cases h

/-- The effect of an accepted cancellation. -/
structure Cancelled (e e' : Engine D) (s : String) (origId clOrdId : OrderId)
    (entry : Order D) (book' : OrderBook D) (execId : String) : Prop where
  recorded : e.order s origId = some entry
  active : entry.state.isActive
  mem : entry ∈ e.view.queue entry.instrumentId entry.side
  left : OrderBook.Left Order.price (e.book entry.instrumentId) entry.side entry book'
  effect : Effect e e'
    ((e.view.setBook entry.instrumentId book').setRecord s origId
      (some { entry with state := .cancelled }))
    [.status { entry with state := .cancelled } (e.symbolFor entry.instrumentId) clOrdId execId
      .cancelled (some origId)]

theorem cancel_cases {policy : FillPolicy} {e e' : Engine D} (c : Coherent policy e.view none)
    {s : String} {origId clOrdId : OrderId} {reply : Except EngineError Unit}
    (h : e.cancelOrderWithId s origId clOrdId = .ok (reply, e')) :
    Refused e e' reply ∨
    reply = .ok () ∧ ∃ entry book' execId, Cancelled e e' s origId clOrdId entry book' execId := by
  unfold cancelOrderWithId at h
  cases hc : e.checkCancel s origId clOrdId with
  | error err =>
    rw [hc] at h
    obtain ⟨rfl, rfl⟩ := Prod.mk.inj (Except.ok.inj h)
    exact Or.inl (.intro (checkCancel_error hc))
  | ok entry =>
    right
    rw [hc] at h
    obtain ⟨hr, active, session, hs⟩ := checkCancel_ok hc
    obtain ⟨hsession, hid, -⟩ := c.keyed s origId entry hr
    obtain ⟨⟨removed, e1⟩, hremove, h⟩ := Exec.bind_ok.mp h
    obtain ⟨book', rfl, rfl, hm, left⟩ := removeFromBook_active c hr active hremove
    simp only [OrderState.isActive, Bool.false_eq_true, if_false] at h
    have hs' : (e.setBook entry.instrumentId book').sessions.get? s = some session := hs
    rw [hs', unwrap_some, Exec.ok_bind] at h
    obtain ⟨e2, hrecord, h⟩ := Exec.bind_ok.mp h
    obtain ⟨e3, hpublish, h⟩ := Exec.bind_ok.mp h
    obtain ⟨rfl, rfl⟩ := Prod.mk.inj (Except.ok.inj h)
    have written := (setBook_effect e entry.instrumentId book').trans
      (setOrders_effect hs' origId { entry with state := .cancelled })
    have settled := written.trans (publish_quiet hrecord hpublish).effect
    have registered : e3.Registered entry.sessionId := by
      rw [settled.registered, hsession]
      exact ⟨session, hs⟩
    obtain ⟨execId, told⟩ := status_effect (o := { entry with state := .cancelled }) registered
      clOrdId .cancelled (some origId)
    rw [symbolFor_congr settled.instruments, settled.view] at told
    refine ⟨rfl, entry, book', execId, hr, active, hm, left, ?_⟩
    have done := settled.trans told
    rw [written.view, view_setBook] at done
    exact done

theorem Cancelled.coherent {policy : FillPolicy} {e e' : Engine D}
    (c : Coherent policy e.view none) {s : String} {origId clOrdId : OrderId} {entry : Order D}
    {book' : OrderBook D} {execId : String}
    (done : Cancelled e e' s origId clOrdId entry book' execId) : Coherent policy e'.view none := by
  obtain ⟨hs, hid, -⟩ := c.keyed s origId entry done.recorded
  rw [done.effect.view]
  refine retired_coherent c done.recorded done.mem done.left ?_
  intro r hr
  obtain rfl := Option.some.inj hr
  refine ⟨?_, rfl⟩
  rw [← hs, ← hid]
  rfl

end Engine

end RustTrader
