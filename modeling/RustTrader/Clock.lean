import RustTrader.Reference
import RustTrader.Library.Fallible

/-!
# Dates and arrivals

What an engine keeps beside its books and records: the day each order was last
entered on, and the number of the last arrival. Only a few operations touch
either.
-/

namespace RustTrader

open Decimal

variable {D : Type} [Decimal D]

namespace Engine

/-- The entries of the dated orders and the number of the last arrival. -/
def clock (e : Engine D) : HashMap (String × OrderId) Int × Nat := (e.orderDates, e.nextArrival)

theorem clock_send (e : Engine D) (report : Report D) :
    (e.send report).clock = e.clock := by
  unfold send
  split <;> rfl

theorem clock_updateRecord (e : Engine D) (s : String) (id : OrderId) (f : Order D → Order D) :
    (e.updateRecord s id f).clock = e.clock := by
  unfold updateRecord
  split
  · rfl
  · split <;> rfl

theorem clock_syncRecord (e : Engine D) (order : Order D) :
    (e.syncRecord order).clock = e.clock := by
  unfold syncRecord
  split
  · rfl
  · exact clock_updateRecord ..

theorem clock_sendStatusFor (e : Engine D) (order : Order D) (clOrdId : OrderId)
    (execType : ExecType) (orig : Option OrderId) :
    (e.sendStatusFor order clOrdId execType orig).clock = e.clock := clock_send ..

theorem clock_sendStatus (e : Engine D) (order : Order D) :
    (e.sendStatus order).clock = e.clock := clock_sendStatusFor ..

theorem clock_sendFill (e : Engine D) (order : Order D) (price quantity : D) :
    (e.sendFill order price quantity).clock = e.clock := by
  unfold sendFill
  refine (clock_send _ _).trans ?_
  split
  · rfl
  · exact clock_updateRecord ..

theorem clock_sendTradeReports (e : Engine D) (trades : List (RawTrade D)) :
    (e.sendTradeReports trades).clock = e.clock := by
  have loop : ∀ (trades : List (RawTrade D)) (e : Engine D),
      (e.sendFills trades).clock = e.clock := by
    intro trades
    induction trades with
    | nil => exact fun _ => rfl
    | cons t ts ih =>
      intro e
      refine (ih _).trans ?_
      rw [clock_sendFill, clock_sendFill]
  unfold sendTradeReports
  split
  · rfl
  · exact loop _ _

theorem Quiet.clock {e e' : Engine D} (h : Quiet e e') : e'.clock = e.clock := by
  rw [h.rest]
  rfl

theorem clock_removeFromBook {e e' : Engine D} {s : String} {id : OrderId} {side : Side}
    {price : D} {i : Int} {result : Except EngineError (Order D)}
    (h : e.removeFromBook s id side price i = .ok (result, e')) : e'.clock = e.clock := by
  unfold removeFromBook at h
  split at h
  · cases h
    rfl
  · obtain ⟨removed, -, h⟩ := Exec.bind_ok.mp h
    cases removed <;> cases h <;> rfl

theorem clock_addToBook {e e' : Engine D} {order : Order D} {trades : List (RawTrade D)}
    {final : Option (Order D)} (h : e.addToBook order = .ok (trades, final, e')) :
    e'.clock = e.clock := by
  obtain ⟨book', -, rfl⟩ := addToBook_ok h
  rfl

theorem clock_tieredInsert {e e' : Engine D} {s : String} {i : Int} {order : Order D}
    {result : Except EngineError (Order D)} (h : e.tieredInsert s i order = .ok (result, e')) :
    e'.clock = e.clock := by
  unfold tieredInsert at h
  obtain ⟨inserted, -, h⟩ := Exec.bind_ok.mp h
  cases inserted with
  | error err =>
    cases h
    rfl
  | ok pair =>
    cases h
    exact clock_syncRecord ..

theorem clock_tieredFillExisting {s : String} {i : Int} {order : Order D} (plan : List D) :
    ∀ {e e' : Engine D} {index : Nat} {result : Except EngineError Unit},
      tieredFillExisting s i order e plan index = .ok (result, e') →
      e'.clock = e.clock := by
  induction plan with
  | nil =>
    intro e e' index result h
    cases h
    rfl
  | cons chunk plan ih =>
    intro e e' index result h
    unfold tieredFillExisting at h
    split at h
    · cases h
      rfl
    · obtain ⟨executed, -, h⟩ := Exec.bind_ok.mp h
      cases executed with
      | error err =>
        cases h
        rfl
      | ok pair => exact (ih h).trans (clock_sendFill _ _ _ _)

theorem clock_createReal {e e' : Engine D} {new : NewOrder D} {order : Order D}
    {reply : Except EngineError OrderId} (h : e.createReal new order = .ok (reply, e')) :
    e'.clock = e.clock := by
  unfold createReal at h
  obtain ⟨⟨trades, final, ea⟩, hadd, h⟩ := Exec.bind_ok.mp h
  obtain ⟨eb, hrecord, h⟩ := Exec.bind_ok.mp h
  obtain ⟨ec, hpublish, h⟩ := Exec.bind_ok.mp h
  have before : (ec.sendTradeReports trades).clock = e.clock :=
    (clock_sendTradeReports _ _).trans
      ((publish_quiet hrecord hpublish).clock.trans (clock_addToBook hadd))
  cases final with
  | none =>
    cases h
    exact before
  | some final =>
    simp only at h
    split at h
    · cases h
      rw [clock_sendStatus, clock_syncRecord, before]
    · cases h
      rw [clock_syncRecord, before]

theorem clock_createTiered {e e' : Engine D} {s : String} {new : NewOrder D} {order : Order D}
    {plan : List D} {reply : Except EngineError OrderId}
    (h : e.createTiered s new order plan = .ok (reply, e')) : e'.clock = e.clock := by
  unfold createTiered at h
  obtain ⟨⟨inserted, ea⟩, hinsert, h⟩ := Exec.bind_ok.mp h
  have first := clock_tieredInsert hinsert
  cases inserted with
  | error err =>
    obtain ⟨eb, hrecord, h⟩ := Exec.bind_ok.mp h
    obtain ⟨ec, hpublish, h⟩ := Exec.bind_ok.mp h
    cases h
    exact (publish_quiet hrecord hpublish).clock.trans first
  | ok snapshot =>
    obtain ⟨⟨result, eb⟩, hfill, h⟩ := Exec.bind_ok.mp h
    obtain ⟨ec, hrecord, h⟩ := Exec.bind_ok.mp h
    obtain ⟨ed, hpublish, h⟩ := Exec.bind_ok.mp h
    cases h
    exact (publish_quiet hrecord hpublish).clock.trans
      ((clock_tieredFillExisting plan hfill).trans ((clock_sendStatus _ _).trans first))

/-- An accepted order is dated, and has the next arrival. -/
theorem clock_create {e e' : Engine D} {today : Int} {s : String} {new : NewOrder D} {id : OrderId}
    (h : e.createOrder today s new = .ok (.ok id, e')) :
    e'.clock = (HashMap.set e.orderDates (s, new.id) today, e.nextArrival + 1) := by
  unfold createOrder at h
  split at h
  · cases h
  · obtain ⟨planned, -, h⟩ := Exec.bind_ok.mp h
    cases planned with
    | error err => cases h
    | ok plan =>
      have named : (e.numberOrder s new).1.id = new.id := incoming_id e s new
      unfold acceptOrder at h
      simp only at h
      split at h
      · cases h
      · rw [named] at h
        cases plan with
        | none => exact clock_createReal h
        | some plan => exact clock_createTiered h

theorem clock_confirmReplacement {e e' : Engine D} {s : String} {origId : OrderId}
    {order : Order D} {plan : Option (List D)} {reply : Except EngineError Unit}
    (h : e.confirmReplacement s origId order plan = .ok (reply, e')) :
    e'.clock = e.clock := by
  unfold confirmReplacement at h
  obtain ⟨⟨rested, ea⟩, hrest, h⟩ := Exec.bind_ok.mp h
  have first : ea.clock = e.clock := by
    unfold restReplacement at hrest
    cases plan with
    | none =>
      cases hrest
      rfl
    | some plan =>
      simp only at hrest
      split at hrest
      · cases hrest
        rfl
      · obtain ⟨⟨inserted, eb⟩, hinsert, hpure⟩ := Exec.bind_ok.mp hrest
        cases hpure
        exact clock_tieredInsert hinsert
  cases rested with
  | error err =>
    obtain ⟨eb, hrecord, h⟩ := Exec.bind_ok.mp h
    obtain ⟨ec, hpublish, h⟩ := Exec.bind_ok.mp h
    cases h
    exact (publish_quiet hrecord hpublish).clock.trans first
  | ok snapshot =>
    have told := (clock_sendStatusFor ea order order.id .replaced (some origId)).trans first
    simp only at h
    split at h
    · obtain ⟨eb, hpublish, h⟩ := Exec.bind_ok.mp h
      cases h
      exact (publishMarketData_quiet hpublish).clock.trans told
    · unfold workReplacement at h
      cases plan with
      | none =>
        obtain ⟨⟨trades, final, eb⟩, hadd, h⟩ := Exec.bind_ok.mp h
        obtain ⟨ec, hrecord, h⟩ := Exec.bind_ok.mp h
        obtain ⟨ed, hpublish, h⟩ := Exec.bind_ok.mp h
        have reported : (ed.sendTradeReports trades).clock = e.clock :=
          (clock_sendTradeReports _ _).trans ((publish_quiet hrecord hpublish).clock.trans
            ((clock_addToBook hadd).trans told))
        cases final with
        | none =>
          cases h
          exact reported
        | some final =>
          cases h
          rw [clock_syncRecord, reported]
      | some plan =>
        obtain ⟨rested, -, h⟩ := Exec.bind_ok.mp h
        obtain ⟨⟨result, eb⟩, hfill, h⟩ := Exec.bind_ok.mp h
        obtain ⟨ec, hrecord, h⟩ := Exec.bind_ok.mp h
        obtain ⟨ed, hpublish, h⟩ := Exec.bind_ok.mp h
        cases h
        exact (publish_quiet hrecord hpublish).clock.trans
          ((clock_tieredFillExisting plan hfill).trans told)

/-- A replaced order is dated again, and has a new arrival. -/
theorem clock_modify {policy : FillPolicy} {e e' : Engine D} (c : Coherent policy e.view none)
    {today : Int} {s : String} {origId newId : OrderId} {orderType : OrderType} {price quantity : D}
    (h : e.modifyOrderWithType today s origId newId orderType price quantity = .ok (.ok (), e')) :
    e'.clock = (HashMap.set (HashMap.remove e.orderDates (s, origId)) (s, newId) today,
      e.nextArrival + 1) := by
  unfold modifyOrderWithType at h
  cases hc : e.checkModify s origId newId orderType price quantity with
  | error err =>
    rw [hc] at h
    cases h
  | ok entry =>
    rw [hc] at h
    obtain ⟨recorded, active, -⟩ := checkModify_ok hc
    obtain ⟨plan, hplan, h⟩ := Exec.bind_ok.mp h
    cases plan with
    | error err => cases h
    | ok plan =>
      obtain ⟨⟨removed, ea⟩, hremove, h⟩ := Exec.bind_ok.mp h
      have left := clock_removeFromBook hremove
      obtain ⟨_, rfl, -, -, -⟩ := removeFromBook_active c recorded active hremove
      obtain ⟨eb, hrecord, h⟩ := Exec.bind_ok.mp h
      obtain ⟨remaining, hsub, h⟩ := Exec.bind_ok.mp h
      obtain ⟨e1, hrekey, h⟩ := Exec.bind_ok.mp h
      obtain ⟨session, -, hrekey⟩ := Exec.bind_ok.mp hrekey
      cases hrekey
      refine (clock_confirmReplacement h).trans ?_
      obtain ⟨dates, arrival⟩ :=
        Prod.mk.inj (show (eb.orderDates, eb.nextArrival) = (e.orderDates, e.nextArrival) from
          (recordMarketData_quiet hrecord).clock.trans left)
      change (HashMap.set (HashMap.remove eb.orderDates (s, origId)) (s, newId) today,
        eb.nextArrival + 1) = _
      rw [dates, arrival]

theorem clock_cancel {e e' : Engine D} {s : String} {origId clOrdId : OrderId}
    {reply : Except EngineError Unit} (h : e.cancelOrderWithId s origId clOrdId = .ok (reply, e')) :
    e'.clock = e.clock := by
  unfold cancelOrderWithId at h
  split at h
  · cases h
    rfl
  · obtain ⟨⟨removed, ea⟩, hremove, h⟩ := Exec.bind_ok.mp h
    have left := clock_removeFromBook hremove
    cases removed with
    | error err =>
      cases h
      exact left
    | ok removed =>
      obtain ⟨session, -, h⟩ := Exec.bind_ok.mp h
      obtain ⟨eb, hrecord, h⟩ := Exec.bind_ok.mp h
      obtain ⟨ec, hpublish, h⟩ := Exec.bind_ok.mp h
      cases h
      exact (clock_sendStatusFor _ _ _ _ _).trans
        ((publish_quiet hrecord hpublish).clock.trans left)

/-- The dates stay, and arrivals are numbered upwards. -/
def Ticks (e e' : Engine D) : Prop :=
  e'.orderDates = e.orderDates ∧ e.nextArrival ≤ e'.nextArrival

theorem Ticks.of_clock {e e' : Engine D} (h : e'.clock = e.clock) : Ticks e e' :=
  ⟨congrArg Prod.fst h, (congrArg Prod.snd h).ge⟩

theorem Ticks.trans {e e' e'' : Engine D} (h : Ticks e e') (h' : Ticks e' e'') : Ticks e e'' :=
  ⟨h'.1.trans h.1, h.2.trans h'.2⟩

theorem quoteLeg_ticks {e e' : Engine D} {s : String} {i : Int} {side : Side} {price quantity : D}
    {exchangeId : String} {trades : List (RawTrade D)} {leg : Option (Order D)}
    (h : e.quoteLeg s i side price quantity exchangeId = .ok (trades, leg, e')) : Ticks e e' := by
  unfold quoteLeg at h
  split at h
  · cases h
    exact .of_clock rfl
  · obtain ⟨⟨ts, result, ea⟩, hadd, h⟩ := Exec.bind_ok.mp h
    cases h
    have matched := Ticks.of_clock (clock_addToBook hadd)
    exact ⟨matched.1, (Nat.le_succ _).trans matched.2⟩

theorem clock_dropLegs {s : String} {i : Int} {legs : List (Order D)} {e e' : Engine D}
    (h : legs.foldlM (fun e leg => e.dropResting s i leg) e = .ok e') :
    e'.clock = e.clock := by
  refine foldlM_relates (R := fun e e' : Engine D => e'.clock = e.clock) (fun _ => rfl)
    (fun _ _ _ first second => second.trans first) ?_ legs h
  intro e leg e' h
  obtain ⟨⟨removed, mid⟩, hremove, h⟩ := Exec.bind_ok.mp h
  cases h
  exact clock_removeFromBook hremove

theorem quote_ticks {e e' : Engine D} {s : String} {i : Int}
    {bidPrice bidQuantity askPrice askQuantity : D} {reply : Except EngineError Unit}
    (h : e.quote s i bidPrice bidQuantity askPrice askQuantity = .ok (reply, e')) : Ticks e e' := by
  unfold quote at h
  split at h
  · cases h
    exact .of_clock rfl
  · obtain ⟨e1, hdrop, h⟩ := Exec.bind_ok.mp h
    obtain ⟨⟨bidTrades, bid, e2⟩, hbid, h⟩ := Exec.bind_ok.mp h
    obtain ⟨⟨askTrades, ask, e3⟩, hask, h⟩ := Exec.bind_ok.mp h
    obtain ⟨session, -, h⟩ := Exec.bind_ok.mp h
    obtain ⟨e4, hrecord, h⟩ := Exec.bind_ok.mp h
    obtain ⟨e5, hpublish, h⟩ := Exec.bind_ok.mp h
    cases h
    have withdrawn : Ticks e e1 := .of_clock ((clock_dropLegs hdrop).trans rfl)
    have published : Ticks e3 e5 := .of_clock (publish_quiet hrecord hpublish).clock
    exact withdrawn.trans ((quoteLeg_ticks hbid).trans ((quoteLeg_ticks hask).trans
      (published.trans (.of_clock (clock_sendTradeReports _ _)))))

theorem clock_disconnect {e e' : Engine D} {s : String} {orders : List (OrderId × Order D)}
    {quotes : List (Int × QuotePair D)} (h : e.sessionDisconnect s orders quotes = .ok e') :
    e' = e ∧ e.sessions.get? s = none ∨
      e'.clock = (HashMap.retain e.orderDates (fun key => !decide (key.1 = s)), e.nextArrival) := by
  unfold sessionDisconnect at h
  cases hs : e.sessions.get? s with
  | none =>
    rw [hs] at h
    cases h
    exact .inl ⟨rfl, rfl⟩
  | some session =>
    right
    rw [hs] at h
    obtain ⟨ea, horders, h⟩ := Exec.bind_ok.mp h
    obtain ⟨eb, hquotes, hpublish⟩ := Exec.bind_ok.mp h
    have same : ∀ e e' e'' : Engine D, e'.clock = e.clock →
        e''.clock = e'.clock → e''.clock = e.clock :=
      fun _ _ _ first second => second.trans first
    have cancelled : ea.clock = _ :=
      foldlM_relates (R := fun e e' : Engine D => e'.clock = e.clock) (fun _ => rfl) same
        (fun e entry e' h => by
          obtain ⟨⟨removed, mid⟩, hremove, hrecord⟩ := Exec.bind_ok.mp h
          exact (recordMarketData_quiet hrecord).clock.trans (clock_removeFromBook hremove))
        orders horders
    have withdrawn : eb.clock = ea.clock :=
      foldlM_relates (R := fun e e' : Engine D => e'.clock = e.clock) (fun _ => rfl) same
        (fun e entry e' h => by
          obtain ⟨mid, hdrop, hrecord⟩ := Exec.bind_ok.mp h
          exact (recordMarketData_quiet hrecord).clock.trans (clock_dropLegs hdrop))
        quotes hquotes
    exact (publishMarketData_quiet hpublish).clock.trans (withdrawn.trans cancelled)

/-- An expiry drops the entries it looks at. -/
theorem clock_expireOrder {e e' : Engine D} {key : String × OrderId}
    (h : e.expireOrder key = .ok e') : e'.clock =
    (HashMap.remove e.orderDates key, e.nextArrival) := by
  unfold expireOrder at h
  simp only at h
  split at h
  · cases h
    rfl
  · split at h
    · cases h
      rfl
    · obtain ⟨⟨removed, ea⟩, hremove, h⟩ := Exec.bind_ok.mp h
      obtain ⟨eb, hrecord, h⟩ := Exec.bind_ok.mp h
      cases h
      refine (clock_sendStatusFor _ _ _ _ _).trans ((recordMarketData_quiet hrecord).clock.trans
        ((clock_syncRecord _ _).trans ?_))
      exact clock_removeFromBook hremove

theorem clock_expire {e e' : Engine D} {keys : List (String × OrderId)}
    (h : e.expireDayOrdersAt keys = .ok e') : e'.nextArrival = e.nextArrival ∧ ∀ key,
      HashMap.get? e'.orderDates key =
        if key ∈ keys then none else HashMap.get? e.orderDates key := by
  have loop : ∀ (keys : List (String × OrderId)) {e e' : Engine D},
      keys.foldlM expireOrder e = .ok e' → e'.nextArrival = e.nextArrival ∧ ∀ key,
        HashMap.get? e'.orderDates key =
          if key ∈ keys then none else HashMap.get? e.orderDates key := by
    intro keys
    induction keys with
    | nil =>
      intro e e' h
      cases h
      exact ⟨rfl, fun _ => rfl⟩
    | cons k keys ih =>
      intro e e' h
      rw [List.foldlM_cons] at h
      obtain ⟨mid, hmid, h⟩ := Exec.bind_ok.mp h
      obtain ⟨dates, arrival⟩ := Prod.mk.inj (clock_expireOrder hmid)
      obtain ⟨later, rest⟩ := ih h
      refine ⟨later.trans arrival, fun key => ?_⟩
      rw [rest, dates, HashMap.get?_remove]
      by_cases here : key = k
      · simp [here]
      · by_cases later : key ∈ keys <;> simp [here, later]
  unfold expireDayOrdersAt at h
  obtain ⟨mid, hmid, h⟩ := Exec.bind_ok.mp h
  obtain ⟨dates, arrival⟩ := Prod.mk.inj (publishMarketData_quiet h).clock
  rw [dates, arrival]
  exact loop keys hmid

/-- The engine numbered an order on the way from `e` to `e'`. -/
def Numbers (e e' : Engine D) (o : Order D) : Prop :=
  e.nextArrival < o.arrival ∧ o.arrival ≤ e'.nextArrival

theorem Numbers.next {e e' : Engine D} {o : Order D} (one : e'.nextArrival = e.nextArrival + 1)
    (arrival : o.arrival = e.nextArrival + 1) : Numbers e e' o := by
  unfold Numbers
  omega

/-- Arrivals are numbered upwards. -/
theorem step_arrival [LawfulDecimal D] {policy : FillPolicy} {e e' : Engine D}
    {command : Command D} (c : Coherent policy e.view none) (hp : e.fillPolicy = policy)
    (step : Step e command e') : e.nextArrival ≤ e'.nextArrival := by
  cases step with
  | createInstrument symbol => exact (congrArg View.arrival (view_createInstrument e symbol).1).ge
  | registerSession s fresh => exact le_rfl
  | sessionDisconnect _ s orders quotes visits returns =>
    rcases clock_disconnect returns with ⟨rfl, -⟩ | same
    · exact le_rfl
    · exact (congrArg Prod.snd same).ge
  | createOrder _ today s new reply returns =>
    have refused_or : Refused e e' reply ∨ reply = .ok new.id := by
      cases policy with
      | real => exact (createReal_cases c hp returns).imp id And.left
      | tiered => exact (createTiered_cases c hp returns).imp id And.left
    rcases refused_or with ⟨_, -, -, rfl⟩ | rfl
    · exact le_rfl
    · exact (Nat.le_succ _).trans (congrArg Prod.snd (clock_create returns)).ge
  | modifyOrderWithType _ today s origId newId orderType price quantity reply returns =>
    have refused_or : Refused e e' reply ∨ reply = .ok () := by
      cases policy with
      | real => exact (modifyReal_cases c hp returns).imp And.left And.left
      | tiered => exact (modifyTiered_cases c hp returns).imp id And.left
    rcases refused_or with ⟨_, -, -, rfl⟩ | rfl
    · exact le_rfl
    · exact (Nat.le_succ _).trans (congrArg Prod.snd (clock_modify c returns)).ge
  | cancelOrderWithId _ s origId clOrdId reply returns =>
    exact (congrArg Prod.snd (clock_cancel returns)).ge
  | quote _ s i bidPrice bidQuantity askPrice askQuantity reply returns =>
    exact (quote_ticks returns).2
  | expireDayOrdersAt _ today keys visits returns => exact (clock_expire returns).1.ge

end Engine

end RustTrader
