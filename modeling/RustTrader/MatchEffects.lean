import RustTrader.Effects

/-!
# Orders that are matched

New orders and replacements under the real policy: the order is recorded, its
book is matched, the trades are reported, and its record ends at the state the
book reports for it.
-/

namespace RustTrader

open Decimal

/-- What every accepted order request has been checked for. -/
structure ValidInput {D : Type} [Decimal D] (id : OrderId) (orderType : OrderType)
    (price quantity : D) : Prop where
  positiveId : 0 < id
  regular : id ≠ quoteOrderId
  positive : 0 < quantity
  nonneg : 0 ≤ price
  limit : orderType = .limit → 0 < price

theorem validateOrderInput_ok {D : Type} [Decimal D] {id : OrderId} {orderType : OrderType}
    {price quantity : D} (h : validateOrderInput id orderType price quantity = .ok ()) :
    ValidInput id orderType price quantity := by
  unfold validateOrderInput at h
  cases hv : validateOrderId id with
  | error err => rw [hv] at h; cases h
  | ok u =>
    rw [hv] at h
    obtain ⟨hid, hne⟩ := Engine.validateOrderId_ok hv
    change (if quantity ≤ 0 then _ else _) = _ at h
    by_cases hq : quantity ≤ 0
    · rw [if_pos hq] at h; cases h
    · rw [if_neg hq] at h
      by_cases hp : price < 0 ∨ (orderType = .limit ∧ price ≤ 0)
      · rw [if_pos hp] at h; cases h
      · rw [not_or, not_and] at hp
        exact ⟨hid, hne, not_le.mp hq, not_lt.mp hp.1, fun ht => not_le.mp (hp.2 ht)⟩

theorem validateOrderInput_error {D : Type} [Decimal D] {id : OrderId} {orderType : OrderType}
    {price quantity : D} {err : EngineError}
    (h : validateOrderInput id orderType price quantity = .error err) : err.External := by
  unfold validateOrderInput at h
  cases hv : validateOrderId id with
  | error err' =>
    rw [hv] at h
    cases h
    exact validateOrderId_error hv
  | ok u =>
    rw [hv] at h
    intro context same
    subst same
    change (if quantity ≤ 0 then _ else _) = _ at h
    split at h
    · cases h
    · split at h
      · cases h
      · cases h

namespace Engine

variable {D : Type} [Decimal D]

/-- A view that shows the engine with an older arrival counter. -/
structure Shows (e : Engine D) (v : View D) : Prop where
  book : v.book = e.book
  record : v.record = e.order
  leg : v.leg = e.leg

theorem Shows.keyless {policy : FillPolicy} {gap : Gap} {e : Engine D} {v : View D}
    (shows_ : Shows e v) (c : Coherent policy v gap) : e.Keyless := by
  intro s
  rw [← shows_.record]
  cases hr : v.record s quoteOrderId with
  | none => rfl
  | some r => exact absurd rfl (c.keyed s quoteOrderId r hr).2.2

theorem addToBook_ok {e e' : Engine D} {order : Order D} {trades : List (RawTrade D)}
    {result : Option (Order D)} (h : e.addToBook order = .ok (trades, result, e')) :
    ∃ book', (e.book order.instrumentId).add order = .ok (trades, result, book') ∧
      e' = e.setBook order.instrumentId book' := by
  unfold addToBook at h
  obtain ⟨⟨ts, r, book'⟩, hadd, h⟩ := Exec.bind_ok.mp h
  cases h
  exact ⟨book', hadd, rfl⟩

/-- Matching an arriving order, up to the synchronization of its record. -/
theorem match_effect [LawfulDecimal D] {e ea eb ec : Engine D} {v : View D} {gap : Gap}
    {order : Order D} (shows_ : Shows e v) (c : Coherent .real v gap)
    (arrives : View.Arrives v gap order) (arrival : order.arrival = e.nextArrival)
    {trades : List (RawTrade D)} {result : Option (Order D)} {i : Int}
    (hadd : e.addToBook order = .ok (trades, result, ea))
    (hrecord : ea.recordMarketData i trades = .ok eb) (hpublish : eb.publishMarketData = .ok ec) :
    ∃ left final book' fills, result = some final ∧
      Coherent.Added v gap order trades left final book' ∧ FillNews e (parties trades) fills ∧
      Effect e (ec.sendTradeReports trades) { v.added order trades final book' with
        record := View.afterTrades trades v.record } fills ∧
      Effect e ((ec.sendTradeReports trades).syncRecord final)
        (v.added order trades final book') fills := by
  obtain ⟨book', hbook, rfl⟩ := addToBook_ok hadd
  rw [← shows_.book] at hbook
  obtain ⟨left, final, hresult, added⟩ := Coherent.added_of_add c arrives hbook
  have keyless := shows_.keyless c
  have quiet := publish_quiet hrecord hpublish
  have orders : ec.order = e.order := quiet.order
  have keyless' : ec.Keyless := by intro s; rw [orders]; exact keyless s
  obtain ⟨⟨fills, told, news⟩, record⟩ := sendTradeReports_told trades keyless'
  have booked := (setBook_effect e order.instrumentId book').trans quiet.effect
  have news' : FillNews e (parties trades) fills := by
    unfold FillNews at *
    rw [symbolFor_congr booked.instruments] at news
    have same : ec.sessions = e.sessions := quiet.sessions
    rwa [same] at news
  have reported := booked.trans told.effect
  have synced := reported.trans
    (syncRecord_rewrites (ec.sendTradeReports trades) final).effect
  rw [List.append_nil] at synced
  refine ⟨left, final, book', fills, hresult, added, news', ⟨?_, reported.sent,
    reported.registered, reported.fillPolicy, reported.instruments⟩, ⟨?_, synced.sent,
    synced.registered, synced.fillPolicy, synced.instruments⟩⟩
  · rw [reported.view, record, orders, quiet.view, view_setBook]
    unfold View.added View.setBook view
    rw [shows_.book, shows_.leg, shows_.record, arrival]
  · rw [view_reported keyless quiet]
    unfold View.added
    rw [shows_.book, shows_.leg, shows_.record, arrival]

theorem checkCreate_ok {e : Engine D} {s : String} {new : NewOrder D}
    (h : e.checkCreate s new = .ok ()) :
    ValidInput new.id new.orderType new.price new.quantity ∧
      (∃ instrument, e.instruments.getById new.instrumentId = some instrument) ∧
      ∃ session, e.sessions.get? s = some session ∧
        HashMap.get? session.orders new.id = none := by
  unfold checkCreate at h
  cases hi : e.instruments.getById new.instrumentId with
  | none => rw [hi] at h; cases h
  | some instrument =>
    simp only [hi, Option.isNone_some, Bool.false_eq_true, if_false] at h
    cases hv : validateOrderInput new.id new.orderType new.price new.quantity with
    | error err => rw [hv] at h; cases h
    | ok u =>
      cases hs : e.sessions.get? s with
      | none => simp [hs, hv, bind, Except.bind] at h
      | some session =>
        simp only [hs, hv, bind, Except.bind] at h
        refine ⟨validateOrderInput_ok hv, ⟨instrument, rfl⟩, session, rfl, ?_⟩
        split at h
        · cases h
        · rename_i hc
          simpa [HashMap.contains] using hc

theorem checkCreate_error {e : Engine D} {s : String} {new : NewOrder D} {err : EngineError}
    (h : e.checkCreate s new = .error err) : err.External := by
  unfold checkCreate at h
  split at h
  · cases h
    intro context same
    cases same
  · cases hv : validateOrderInput new.id new.orderType new.price new.quantity with
    | error err' =>
      rw [hv] at h
      cases h
      exact validateOrderInput_error hv
    | ok u =>
      rw [hv] at h
      simp only [bind, Except.bind] at h
      intro context same
      subst same
      split at h
      · cases h
      · split at h
        · cases h
        · cases h

theorem tierFillPlan_error {remaining : D} {err : EngineError}
    (h : tierFillPlan remaining = .ok (.error err)) : err.External := by
  unfold tierFillPlan at h
  intro context same
  subst same
  split at h
  · cases h
  split at h
  · cases h
  split at h
  · cases h
  split at h
  · obtain ⟨half, -, h⟩ := Exec.bind_ok.mp h
    cases h
  split at h
  · cases h
  · obtain ⟨lots, -, h⟩ := Exec.bind_ok.mp h
    cases h

theorem planFor_error {policy : FillPolicy} {remaining : D} {err : EngineError}
    (h : planFor policy remaining = .ok (.error err)) : err.External := by
  cases policy with
  | real => cases h
  | tiered =>
    obtain ⟨plan, hplan, h⟩ := Exec.bind_ok.mp h
    cases plan with
    | ok plan => cases h
    | error err' =>
      cases h
      exact tierFillPlan_error hplan

/-- The order a new request becomes. -/
def incoming (e : Engine D) (s : String) (new : NewOrder D) : Order D := (e.numberOrder s new).1

theorem incoming_eq (e : Engine D) (s : String) (new : NewOrder D) :
    e.incoming s new = {
      sessionId := s
      id := new.id
      exchangeId := toString (wrapI32 (e.nextExchangeId + 1))
      instrumentId := new.instrumentId
      side := new.side
      orderType := new.orderType
      price := bookedPrice e.fillPolicy new.orderType
        (if new.orderType = .market then 0 else new.price)
      quantity := new.quantity
      remaining := new.quantity
      cumQuantity := 0
      avgPrice := 0
      state := .new
      arrival := e.nextArrival + 1 } := by
  obtain ⟨id, instrumentId, side, orderType, price, quantity⟩ := new
  cases orderType <;> rfl

theorem incoming_sessionId (e : Engine D) (s : String) (new : NewOrder D) :
    (e.incoming s new).sessionId = s := by rw [incoming_eq]

theorem incoming_id (e : Engine D) (s : String) (new : NewOrder D) :
    (e.incoming s new).id = new.id := by rw [incoming_eq]

theorem incoming_arrival (e : Engine D) (s : String) (new : NewOrder D) :
    (e.incoming s new).arrival = e.nextArrival + 1 := by rw [incoming_eq]

theorem incoming_orderType (e : Engine D) (s : String) (new : NewOrder D) :
    (e.incoming s new).orderType = new.orderType := by rw [incoming_eq]

theorem incoming_remaining (e : Engine D) (s : String) (new : NewOrder D) :
    (e.incoming s new).remaining = new.quantity := by rw [incoming_eq]

/-- The view of a recorded request, before its arrival is counted. -/
def opened (v : View D) (order : Order D) : View D :=
  v.setRecord order.sessionId order.id (some order)

/-- The engine once a new order is numbered, recorded and dated. -/
def admitted (e : Engine D) (today : Int) (s : String) (session : Session D) (new : NewOrder D) :
    Engine D :=
  let order := e.incoming s new
  let e := (e.numberOrder s new).2.setOrders s session (HashMap.set session.orders new.id order)
  { e with orderDates := HashMap.set e.orderDates (s, new.id) today }

theorem admitted_effect {e : Engine D} (today : Int) {s : String} {session : Session D}
    (hs : e.sessions.get? s = some session) (new : NewOrder D) :
    Effect e (e.admitted today s session new)
      { opened e.view (e.incoming s new) with arrival := e.nextArrival + 1 } [] := by
  have numbered : Effect e (e.numberOrder s new).2
      { e.view with arrival := e.nextArrival + 1 } [] :=
    ⟨rfl, by simp [numberOrder], fun _ => Iff.rfl, rfl, rfl⟩
  have hs' : (e.numberOrder s new).2.sessions.get? s = some session := hs
  have written := numbered.trans (setOrders_effect hs' new.id (e.incoming s new))
  rw [opened, incoming_sessionId, incoming_id]
  exact ⟨written.view, written.sent, written.registered, written.fillPolicy,
    written.instruments⟩

/-- An accepted request goes on to be matched or filled by its plan. -/
theorem create_cases {e e' : Engine D} {today : Int} {s : String} {new : NewOrder D}
    {reply : Except EngineError OrderId}
    (h : e.createOrder today s new = .ok (reply, e')) :
    Refused e e' reply ∨
    ∃ session plan, e.checkCreate s new = .ok () ∧
      ValidInput new.id new.orderType new.price new.quantity ∧
      (∃ instrument, e.instruments.getById new.instrumentId = some instrument) ∧
      e.sessions.get? s = some session ∧ HashMap.get? session.orders new.id = none ∧
      planFor e.fillPolicy new.quantity = .ok (.ok plan) ∧
      (match plan with
        | none => (e.admitted today s session new).createReal new (e.incoming s new)
        | some plan => (e.admitted today s session new).createTiered s new (e.incoming s new) plan)
        = .ok (reply, e') := by
  unfold createOrder at h
  cases hc : e.checkCreate s new with
  | error err =>
    rw [hc] at h
    cases h
    exact Or.inl (.intro (checkCreate_error hc))
  | ok u =>
    rw [hc] at h
    obtain ⟨valid, listed, session, hs, fresh⟩ := checkCreate_ok hc
    obtain ⟨plan, hplan, h⟩ := Exec.bind_ok.mp h
    cases plan with
    | error err =>
      cases h
      exact Or.inl (.intro (planFor_error hplan))
    | ok plan =>
      right
      refine ⟨session, plan, rfl, valid, listed, hs, fresh, hplan, ?_⟩
      have hs' : (e.numberOrder s new).2.sessions.get? s = some session := hs
      have hid : (e.numberOrder s new).1.id = new.id := by
        have := congrArg Order.id (incoming_eq e s new)
        exact this
      unfold acceptOrder at h
      simp only [hs', hid] at h
      exact h

/-- A recorded request leaves the one gap it will fill. -/
theorem open_request {policy : FillPolicy} {v : View D} (c : Coherent policy v none)
    {order : Order D} (hid : order.id ≠ quoteOrderId)
    (fresh : v.record order.sessionId order.id = none) :
    Coherent policy (opened v order) (some order.identity) := by
  refine c.setRecord (c.absent_of_none fresh hid) ?_ ?_ ?_ ?_
  · intro r hr
    obtain rfl := Option.some.inj hr
    exact ⟨rfl, rfl, hid⟩
  · intro r _ _
    rfl
  · intro x hx
    cases hx
  · intro x hx
    exact (Option.some.inj hx).symm

theorem arrives_request {v : View D} {order : Order D} (positive : 0 < order.remaining)
    (price : order.orderType = .limit → 0 < order.price) (newest : v.arrival < order.arrival)
    (hid : order.id ≠ quoteOrderId) :
    View.Arrives (opened v order) (some order.identity) order :=
  ⟨positive, price, newest, .request hid rfl ⟨order, by simp [opened, View.setRecord]⟩⟩

theorem bookedPrice_real (orderType : OrderType) (price : D) :
    bookedPrice .real orderType price = price := by simp [bookedPrice]

/-- A new order that passes its checks meets a coherent book under the real policy. -/
theorem incoming_arrives [LawfulDecimal D] {e : Engine D} (c : Coherent .real e.view none)
    (policy : e.fillPolicy = .real) {s : String} {new : NewOrder D}
    (valid : ValidInput new.id new.orderType new.price new.quantity)
    (fresh : e.order s new.id = none) :
    Coherent .real (opened e.view (e.incoming s new)) (some (e.incoming s new).identity) ∧
    View.Arrives (opened e.view (e.incoming s new)) (some (e.incoming s new).identity)
      (e.incoming s new) := by
  have regular : (e.incoming s new).id ≠ quoteOrderId := by
    rw [incoming_id]
    exact valid.regular
  refine ⟨open_request c regular (by rw [incoming_sessionId, incoming_id]; exact fresh), ?_⟩
  refine arrives_request (by rw [incoming_remaining]; exact valid.positive) ?_
    (by rw [incoming_arrival]; exact Nat.lt_succ_self _) regular
  intro limit
  rw [incoming_orderType] at limit
  rw [incoming_eq]
  simp only [policy, bookedPrice_real, limit]
  exact valid.limit limit

/-- The status that closes a matched request: when nothing traded, or when a
market remainder was cancelled. -/
def closing (e : Engine D) (trades : List (RawTrade D)) (orderType : OrderType) (final : Order D)
    (execId : String) : List (Report D) :=
  if trades = [] ∨ (final.state = .cancelled ∧ orderType = .market) then
    [.status final (e.symbolFor final.instrumentId) final.id execId
      (if final.state = .cancelled then .cancelled
        else if final.state = .rejected then .rejected else .new) none]
  else []

theorem sendStatus_effect {e : Engine D} {o : Order D} (h : e.Registered o.sessionId) :
    ∃ execId, Effect e (e.sendStatus o) e.view
      [.status o (e.symbolFor o.instrumentId) o.id execId
        (if o.state = .cancelled then .cancelled
          else if o.state = .rejected then .rejected else .new) none] := by
  obtain ⟨execId, told⟩ := status_effect h o.id (if o.state = .cancelled then .cancelled
          else if o.state = .rejected then .rejected else .new) none
  refine ⟨execId, ?_⟩
  unfold sendStatus
  cases hs : o.state <;> simpa [hs] using told

theorem FillNews.effect {e e' : Engine D} {v : View D} {m n : List (Report D)}
    {p : List (Order D × D × D)} (h : Effect e e' v m) (news : FillNews e' p n) :
    FillNews e p n := by
  have contains : ∀ s, e'.sessions.contains s = e.sessions.contains s := by
    intro s
    rw [Bool.eq_iff_iff, registered_iff, registered_iff, h.registered]
  unfold FillNews at *
  rw [symbolFor_congr h.instruments] at news
  simpa only [contains] using news

/-- The effect of a new order under the real policy. -/
structure CreatedReal (e e' : Engine D) (s : String) (new : NewOrder D)
    (trades : List (RawTrade D)) (left final : Order D) (book' : OrderBook D)
    (fills : List (Report D)) (execId : String) : Prop where
  checked : e.checkCreate s new = .ok ()
  valid : ValidInput new.id new.orderType new.price new.quantity
  listed : ∃ instrument, e.instruments.getById new.instrumentId = some instrument
  registered : e.Registered s
  fresh : e.order s new.id = none
  added : Coherent.Added (opened e.view (e.incoming s new)) (some (e.incoming s new).identity)
    (e.incoming s new) trades left final book'
  filled : FillNews e (parties trades) fills
  effect : Effect e e' ((opened e.view (e.incoming s new)).added
    (e.incoming s new) trades final book')
    (fills ++ closing e trades new.orderType final execId)

theorem createReal_cases [LawfulDecimal D] {e e' : Engine D} (c : Coherent .real e.view none)
    (policy : e.fillPolicy = .real) {today : Int} {s : String} {new : NewOrder D}
    {reply : Except EngineError OrderId}
    (h : e.createOrder today s new = .ok (reply, e')) :
    Refused e e' reply ∨
    reply = .ok new.id ∧ ∃ trades left final book' fills execId,
      CreatedReal e e' s new trades left final book' fills execId := by
  rcases create_cases h with refused | ⟨session, plan, hc, valid, listed, hs, hfresh, hplan, h⟩
  · exact Or.inl refused
  right
  obtain rfl : plan = none := by
    rw [policy] at hplan
    cases hplan
    rfl
  have fresh : e.order s new.id = none := by simp [order, hs, hfresh]
  have admitted := admitted_effect today hs new
  have shows_ : Shows (e.admitted today s session new) (opened e.view (e.incoming s new)) :=
    ⟨(congrArg View.book admitted.view).symm, (congrArg View.record admitted.view).symm,
      (congrArg View.leg admitted.view).symm⟩
  obtain ⟨gapped, arrives⟩ := incoming_arrives c policy valid fresh
  have arrival : (e.incoming s new).arrival = (e.admitted today s session new).nextArrival :=
    (incoming_arrival e s new).trans (congrArg View.arrival admitted.view).symm
  unfold createReal at h
  obtain ⟨⟨trades, result, ea⟩, hadd, h⟩ := Exec.bind_ok.mp h
  obtain ⟨eb, hrecord, h⟩ := Exec.bind_ok.mp h
  obtain ⟨ec, hpublish, h⟩ := Exec.bind_ok.mp h
  obtain ⟨left, final, book', fills, rfl, added, news, -, synced⟩ :=
    match_effect shows_ gapped arrives arrival hadd hrecord hpublish
  have whole := admitted.trans synced
  rw [List.nil_append] at whole
  have made : ∀ execId, Effect e e'
      ((opened e.view (e.incoming s new)).added (e.incoming s new) trades final book')
      (fills ++ closing e trades new.orderType final execId) → reply = .ok new.id →
      reply = .ok new.id ∧ ∃ trades left final book' fills execId,
        CreatedReal e e' s new trades left final book' fills execId :=
    fun execId effect hreply => ⟨hreply, trades, left, final, book', fills, execId,
      hc, valid, listed, ⟨session, hs⟩, fresh, added, news.effect admitted, effect⟩
  by_cases hclose : trades = [] ∨ (final.state = .cancelled ∧ new.orderType = .market)
  · have registered :
        ((ec.sendTradeReports trades).syncRecord final).Registered final.sessionId := by
      rw [whole.registered, (Prod.mk.inj added.final_identity).1, incoming_sessionId]
      exact ⟨session, hs⟩
    obtain ⟨execId, closed⟩ := sendStatus_effect registered
    rw [symbolFor_congr whole.instruments, whole.view] at closed
    have cond : (trades.isEmpty || decide (final.state = .cancelled ∧ new.orderType = .market)) =
        true := by simpa using hclose
    simp only [cond, if_true] at h
    cases h
    refine made execId ?_ rfl
    rw [closing, if_pos hclose]
    exact whole.trans closed
  · have cond : (trades.isEmpty || decide (final.state = .cancelled ∧ new.orderType = .market)) =
        false := by
      rw [Bool.eq_false_iff]
      simpa using hclose
    simp only [cond, Bool.false_eq_true, if_false] at h
    cases h
    refine made "" ?_ rfl
    rw [closing, if_neg hclose, List.append_nil]
    exact whole

end Engine

end RustTrader
