import RustTrader.Fix.Codec
import RustTrader.Executions

/-!
# What the engine reports

Every report a command sends is a fill with a positive price and quantity, or a
status whose event, identifiers and original order follow from the command. The
execution identifiers are numbered.
-/

namespace RustTrader

open Decimal

namespace Engine

variable {D : Type} [Decimal D]

def NumberedId (report : Report D) : Prop :=
  ∃ n : Nat, Fix.execIdOf report = "exec." ++ toString n

/-- Every report carries a numbered execution identifier. -/
structure Numbered (e : Engine D) : Prop where
  named : ∀ report ∈ e.sent, NumberedId report

theorem Numbered.of_sent {e e' : Engine D} (h : e.Numbered) (sent : e'.sent = e.sent) :
    e'.Numbered := by
  constructor
  rw [sent]
  exact h.named

theorem Numbered.send {e : Engine D} (h : e.Numbered) {report : Report D}
    (named : NumberedId report) : (e.send report).Numbered := by
  unfold Engine.send
  split
  · constructor
    intro r hr
    rcases List.mem_append.mp hr with before | now
    · exact h.named r before
    · exact List.mem_singleton.mp now ▸ named
  · exact h

theorem Numbered.sendStatusFor {e : Engine D} (h : e.Numbered) (o : Order D) (clOrdId : OrderId)
    (execType : ExecType) (orig : Option OrderId) :
    (e.sendStatusFor o clOrdId execType orig).Numbered :=
  Numbered.send (e := e.takeExecId.2) (h.of_sent rfl) ⟨_, rfl⟩

theorem Numbered.sendStatus {e : Engine D} (h : e.Numbered) (o : Order D) :
    (e.sendStatus o).Numbered := h.sendStatusFor ..

theorem sent_updateRecord (e : Engine D) (s : String) (id : OrderId) (f : Order D → Order D) :
    (e.updateRecord s id f).sent = e.sent := by
  unfold updateRecord
  split
  · rfl
  · split
    · rfl
    · rfl

theorem sent_syncRecord (e : Engine D) (o : Order D) : (e.syncRecord o).sent = e.sent := by
  unfold syncRecord
  split
  · rfl
  · exact sent_updateRecord ..

theorem Numbered.sendFill {e : Engine D} (h : e.Numbered) (o : Order D) (price quantity : D) :
    (e.sendFill o price quantity).Numbered := by
  have told : ∀ mid : Engine D, mid.sent = e.sent →
      (mid.takeExecId.2.send (.fill o (mid.symbolFor o.instrumentId) price quantity
        mid.takeExecId.1 none)).Numbered := fun mid same =>
    Numbered.send (e := mid.takeExecId.2) (h.of_sent same) ⟨_, rfl⟩
  unfold Engine.sendFill
  split
  · exact told e rfl
  · exact told _ (sent_updateRecord ..)

theorem Numbered.sendFills (trades : List (RawTrade D)) : ∀ {e : Engine D}, e.Numbered →
    (e.sendFills trades).Numbered := by
  induction trades with
  | nil => exact id
  | cons t trades ih => exact fun h => ih ((h.sendFill ..).sendFill ..)

theorem Numbered.sendTradeReports {e : Engine D} (h : e.Numbered) (trades : List (RawTrade D)) :
    (e.sendTradeReports trades).Numbered := by
  unfold Engine.sendTradeReports
  split
  · exact h
  · exact Numbered.sendFills _ (h.of_sent rfl)

theorem Numbered.quiet {e e' : Engine D} (h : e.Numbered) (quiet : Quiet e e') : e'.Numbered :=
  h.of_sent quiet.sent

theorem sent_removeFromBook {e e' : Engine D} {s : String} {id : OrderId} {side : Side} {price : D}
    {i : Int} {result : Except EngineError (Order D)}
    (h : e.removeFromBook s id side price i = .ok (result, e')) : e'.sent = e.sent := by
  unfold removeFromBook at h
  split at h
  · cases h
    rfl
  · obtain ⟨removed, -, h⟩ := Exec.bind_ok.mp h
    cases removed <;> cases h <;> rfl

theorem sent_tieredInsert {e e' : Engine D} {s : String} {i : Int} {order : Order D}
    {result : Except EngineError (Order D)} (h : e.tieredInsert s i order = .ok (result, e')) :
    e'.sent = e.sent := by
  unfold tieredInsert at h
  obtain ⟨inserted, -, h⟩ := Exec.bind_ok.mp h
  cases inserted with
  | error err =>
    cases h
    rfl
  | ok rested =>
    cases h
    exact sent_syncRecord ..

theorem sent_addToBook {e e' : Engine D} {order : Order D} {trades : List (RawTrade D)}
    {final : Option (Order D)} (h : e.addToBook order = .ok (trades, final, e')) :
    e'.sent = e.sent := by
  unfold addToBook at h
  obtain ⟨added, -, h⟩ := Exec.bind_ok.mp h
  cases h
  rfl

theorem Numbered.tieredFillExisting {s : String} {i : Int} {order : Order D} (plan : List D) :
    ∀ {e e' : Engine D} {index : Nat} {reply : Except EngineError Unit}, e.Numbered →
      tieredFillExisting s i order e plan index = .ok (reply, e') → e'.Numbered := by
  induction plan with
  | nil =>
    intro e e' index reply named h
    cases h
    exact named
  | cons chunk plan ih =>
    intro e e' index reply named h
    unfold Engine.tieredFillExisting at h
    split at h
    · cases h
      exact named
    · obtain ⟨executed, -, h⟩ := Exec.bind_ok.mp h
      cases executed with
      | error err =>
        cases h
        exact named
      | ok done =>
        obtain ⟨filled, book⟩ := done
        have booked : (e.setBook i book).Numbered := named.of_sent rfl
        exact ih (booked.sendFill ..) h

theorem Numbered.foldlM {α : Type} {f : Engine D → α → Exec (Engine D)}
    (step : ∀ e a e', e.Numbered → f e a = .ok e' → e'.Numbered) (l : List α) :
    ∀ {e e' : Engine D}, e.Numbered → l.foldlM f e = .ok e' → e'.Numbered := by
  intro e e' named h
  refine foldlM_relates (R := fun e e' : Engine D => e.Numbered → e'.Numbered) (fun _ => id)
    (fun _ _ _ first later named => later (first named)) ?_ l h named
  exact fun e a e' h named => step e a e' named h

theorem Numbered.dropResting {e e' : Engine D} {s : String} {i : Int} {order : Order D}
    (named : e.Numbered) (h : e.dropResting s i order = .ok e') : e'.Numbered := by
  obtain ⟨⟨removed, mid⟩, hremove, h⟩ := Exec.bind_ok.mp h
  cases h
  exact named.of_sent (sent_removeFromBook hremove)

theorem Numbered.createReal {e e' : Engine D} {new : NewOrder D} {order : Order D}
    {reply : Except EngineError OrderId} (named : e.Numbered)
    (h : e.createReal new order = .ok (reply, e')) : e'.Numbered := by
  unfold Engine.createReal at h
  obtain ⟨⟨trades, final, ea⟩, hadd, h⟩ := Exec.bind_ok.mp h
  obtain ⟨eb, hrecord, h⟩ := Exec.bind_ok.mp h
  obtain ⟨ec, hpublish, h⟩ := Exec.bind_ok.mp h
  have added : ea.Numbered := named.of_sent (sent_addToBook hadd)
  have reported := (added.quiet (publish_quiet hrecord hpublish)).sendTradeReports trades
  cases final with
  | none =>
    cases h
    exact reported
  | some final =>
    have synced := reported.of_sent (sent_syncRecord (ec.sendTradeReports trades) final)
    dsimp only at h
    split at h
    · cases h
      exact synced.sendStatus final
    · cases h
      exact synced

theorem Numbered.createTiered {e e' : Engine D} {s : String} {new : NewOrder D} {order : Order D}
    {plan : List D} {reply : Except EngineError OrderId} (named : e.Numbered)
    (h : e.createTiered s new order plan = .ok (reply, e')) : e'.Numbered := by
  unfold Engine.createTiered at h
  obtain ⟨⟨inserted, ea⟩, hinsert, h⟩ := Exec.bind_ok.mp h
  have rested : ea.Numbered := named.of_sent (sent_tieredInsert hinsert)
  cases inserted with
  | error err =>
    obtain ⟨eb, hrecord, h⟩ := Exec.bind_ok.mp h
    obtain ⟨ec, hpublish, h⟩ := Exec.bind_ok.mp h
    cases h
    exact rested.quiet (publish_quiet hrecord hpublish)
  | ok snapshot =>
    obtain ⟨⟨result, eb⟩, hfill, h⟩ := Exec.bind_ok.mp h
    obtain ⟨ec, hrecord, h⟩ := Exec.bind_ok.mp h
    obtain ⟨ed, hpublish, h⟩ := Exec.bind_ok.mp h
    cases h
    exact (Numbered.tieredFillExisting plan (rested.sendStatus snapshot) hfill).quiet
      (publish_quiet hrecord hpublish)

theorem Numbered.createOrder {e e' : Engine D} {today : Int} {s : String} {new : NewOrder D}
    {reply : Except EngineError OrderId} (named : e.Numbered)
    (h : e.createOrder today s new = .ok (reply, e')) : e'.Numbered := by
  unfold Engine.createOrder at h
  split at h
  · cases h
    exact named
  · obtain ⟨plan, -, h⟩ := Exec.bind_ok.mp h
    cases plan with
    | error err =>
      cases h
      exact named
    | ok plan =>
      change e.acceptOrder today s new plan = _ at h
      unfold acceptOrder at h
      dsimp only at h
      split at h
      · cases h
        exact named.of_sent rfl
      · cases plan with
        | none =>
          refine Numbered.createReal ?_ h
          exact named.of_sent rfl
        | some plan =>
          refine Numbered.createTiered ?_ h
          exact named.of_sent rfl

theorem Numbered.workReplacement {e e' : Engine D} {s : String} {order : Order D}
    {plan : Option (List D)} {snapshot : Option (Order D)} {reply : Except EngineError Unit}
    (named : e.Numbered) (h : e.workReplacement s order plan snapshot = .ok (reply, e')) :
    e'.Numbered := by
  unfold Engine.workReplacement at h
  cases plan with
  | none =>
    obtain ⟨⟨trades, final, ea⟩, hadd, h⟩ := Exec.bind_ok.mp h
    obtain ⟨eb, hrecord, h⟩ := Exec.bind_ok.mp h
    obtain ⟨ec, hpublish, h⟩ := Exec.bind_ok.mp h
    have added : ea.Numbered := named.of_sent (sent_addToBook hadd)
    have reported := (added.quiet (publish_quiet hrecord hpublish)).sendTradeReports trades
    cases final with
    | none =>
      cases h
      exact reported
    | some final =>
      cases h
      exact reported.of_sent (sent_syncRecord ..)
  | some plan =>
    obtain ⟨snapshot, -, h⟩ := Exec.bind_ok.mp h
    obtain ⟨⟨result, eb⟩, hfill, h⟩ := Exec.bind_ok.mp h
    obtain ⟨ec, hrecord, h⟩ := Exec.bind_ok.mp h
    obtain ⟨ed, hpublish, h⟩ := Exec.bind_ok.mp h
    cases h
    exact (Numbered.tieredFillExisting plan named hfill).quiet (publish_quiet hrecord hpublish)

theorem sent_restReplacement {e e' : Engine D} {s : String} {order : Order D}
    {plan : Option (List D)} {rested : Except EngineError (Option (Order D))}
    (h : e.restReplacement s order plan = .ok (rested, e')) : e'.sent = e.sent := by
  unfold restReplacement at h
  cases plan with
  | none =>
    cases h
    rfl
  | some plan =>
    dsimp only at h
    split at h
    · cases h
      rfl
    · obtain ⟨⟨inserted, ea⟩, hinsert, h⟩ := Exec.bind_ok.mp h
      cases h
      exact sent_tieredInsert hinsert

theorem Numbered.confirmReplacement {e e' : Engine D} {s : String} {origId : OrderId}
    {order : Order D} {plan : Option (List D)} {reply : Except EngineError Unit}
    (named : e.Numbered) (h : e.confirmReplacement s origId order plan = .ok (reply, e')) :
    e'.Numbered := by
  unfold Engine.confirmReplacement at h
  obtain ⟨⟨rested, ea⟩, hrest, h⟩ := Exec.bind_ok.mp h
  have started : ea.Numbered := named.of_sent (sent_restReplacement hrest)
  cases rested with
  | error err =>
    obtain ⟨eb, hrecord, h⟩ := Exec.bind_ok.mp h
    obtain ⟨ec, hpublish, h⟩ := Exec.bind_ok.mp h
    cases h
    exact started.quiet (publish_quiet hrecord hpublish)
  | ok snapshot =>
    have told := started.sendStatusFor order order.id .replaced (some origId)
    dsimp only at h
    split at h
    · obtain ⟨eb, hpublish, h⟩ := Exec.bind_ok.mp h
      cases h
      exact told.quiet (publishMarketData_quiet hpublish)
    · exact Numbered.workReplacement told h

theorem sent_rekey {e e' : Engine D} {today : Int} {s : String} {origId : OrderId}
    {order : Order D} (h : e.rekey today s origId order = .ok e') : e'.sent = e.sent := by
  unfold rekey at h
  obtain ⟨session, -, h⟩ := Exec.bind_ok.mp h
  cases h
  rfl

theorem Numbered.modifyOrderWithType {e e' : Engine D} {today : Int} {s : String}
    {origId newId : OrderId} {orderType : OrderType} {price quantity : D}
    {reply : Except EngineError Unit} (named : e.Numbered)
    (h : e.modifyOrderWithType today s origId newId orderType price quantity = .ok (reply, e')) :
    e'.Numbered := by
  unfold Engine.modifyOrderWithType at h
  split at h
  · cases h
    exact named
  · obtain ⟨plan, -, h⟩ := Exec.bind_ok.mp h
    cases plan with
    | error err =>
      cases h
      exact named
    | ok plan =>
      obtain ⟨⟨removed, ea⟩, hremove, h⟩ := Exec.bind_ok.mp h
      have taken : ea.Numbered := named.of_sent (sent_removeFromBook hremove)
      cases removed with
      | error err =>
        obtain ⟨record, -, h⟩ := Exec.bind_ok.mp h
        cases h
        exact taken.sendStatus record
      | ok removed =>
        obtain ⟨eb, hrecord, h⟩ := Exec.bind_ok.mp h
        obtain ⟨remaining, -, h⟩ := Exec.bind_ok.mp h
        obtain ⟨ec, hrekey, h⟩ := Exec.bind_ok.mp h
        have recorded := taken.quiet (recordMarketData_quiet hrecord)
        have same := sent_rekey hrekey
        have moved : ec.Numbered := recorded.of_sent same
        exact moved.confirmReplacement h

theorem Numbered.cancelOrderWithId {e e' : Engine D} {s : String} {origId clOrdId : OrderId}
    {reply : Except EngineError Unit} (named : e.Numbered)
    (h : e.cancelOrderWithId s origId clOrdId = .ok (reply, e')) : e'.Numbered := by
  unfold Engine.cancelOrderWithId at h
  split at h
  · cases h
    exact named
  · obtain ⟨⟨removed, ea⟩, hremove, h⟩ := Exec.bind_ok.mp h
    have taken : ea.Numbered := named.of_sent (sent_removeFromBook hremove)
    cases removed with
    | error err =>
      cases h
      exact taken
    | ok removed =>
      obtain ⟨session, -, h⟩ := Exec.bind_ok.mp h
      obtain ⟨eb, hrecord, h⟩ := Exec.bind_ok.mp h
      obtain ⟨ec, hpublish, h⟩ := Exec.bind_ok.mp h
      cases h
      have same := (recordMarketData_quiet hrecord).sent
      have written : eb.Numbered := taken.of_sent same
      exact (written.quiet (publishMarketData_quiet hpublish)).sendStatusFor ..

theorem sent_quoteLeg {e e' : Engine D} {s : String} {i : Int} {side : Side} {price quantity : D}
    {exchangeId : String} {trades : List (RawTrade D)} {leg : Option (Order D)}
    (h : e.quoteLeg s i side price quantity exchangeId = .ok (trades, leg, e')) :
    e'.sent = e.sent := by
  unfold quoteLeg at h
  split at h
  · cases h
    rfl
  · obtain ⟨⟨trades, final, ea⟩, hadd, h⟩ := Exec.bind_ok.mp h
    cases h
    have same := sent_addToBook hadd
    exact same

theorem Numbered.quote {e e' : Engine D} {s : String} {i : Int}
    {bidPrice bidQuantity askPrice askQuantity : D} {reply : Except EngineError Unit}
    (named : e.Numbered)
    (h : e.quote s i bidPrice bidQuantity askPrice askQuantity = .ok (reply, e')) :
    e'.Numbered := by
  unfold Engine.quote at h
  split at h
  · cases h
    exact named
  · obtain ⟨ea, hwithdraw, h⟩ := Exec.bind_ok.mp h
    obtain ⟨⟨bidTrades, bid, eb⟩, hbid, h⟩ := Exec.bind_ok.mp h
    obtain ⟨⟨askTrades, ask, ec⟩, hask, h⟩ := Exec.bind_ok.mp h
    obtain ⟨session, -, h⟩ := Exec.bind_ok.mp h
    obtain ⟨ed, hrecord, h⟩ := Exec.bind_ok.mp h
    obtain ⟨ef, hpublish, h⟩ := Exec.bind_ok.mp h
    cases h
    unfold withdrawPair at hwithdraw
    have withdrawn : ea.Numbered := by
      refine Numbered.foldlM (fun _ _ _ named h => named.dropResting h) _ ?_ hwithdraw
      exact named.of_sent rfl
    have legged : ec.Numbered :=
      (withdrawn.of_sent (sent_quoteLeg hbid)).of_sent (sent_quoteLeg hask)
    have same := (recordMarketData_quiet hrecord).sent
    have recorded : ed.Numbered := legged.of_sent same
    exact (recorded.quiet (publishMarketData_quiet hpublish)).sendTradeReports _

theorem Numbered.sessionDisconnect {e e' : Engine D} {s : String}
    {orders : List (OrderId × Order D)} {quotes : List (Int × QuotePair D)} (named : e.Numbered)
    (h : e.sessionDisconnect s orders quotes = .ok e') : e'.Numbered := by
  unfold Engine.sessionDisconnect at h
  split at h
  · cases h
    exact named
  · obtain ⟨ea, horders, h⟩ := Exec.bind_ok.mp h
    obtain ⟨eb, hquotes, hpublish⟩ := Exec.bind_ok.mp h
    unfold disconnectOrders at horders
    unfold disconnectQuotes at hquotes
    have cancelled : ea.Numbered := by
      refine Numbered.foldlM ?_ _ ?_ horders
      · intro e entry e' named h
        obtain ⟨⟨removed, mid⟩, hremove, hrecord⟩ := Exec.bind_ok.mp h
        have taken : mid.Numbered := named.of_sent (sent_removeFromBook hremove)
        exact taken.quiet (recordMarketData_quiet hrecord)
      · exact named.of_sent rfl
    have withdrawn : eb.Numbered := by
      refine Numbered.foldlM ?_ _ cancelled hquotes
      intro e entry e' named h
      obtain ⟨mid, hdrop, hrecord⟩ := Exec.bind_ok.mp h
      have dropped := Numbered.foldlM (fun _ _ _ named h => named.dropResting h) _ named hdrop
      exact dropped.quiet (recordMarketData_quiet hrecord)
    exact withdrawn.quiet (publishMarketData_quiet hpublish)

theorem Numbered.expireOrder {e e' : Engine D} {key : String × OrderId} (named : e.Numbered)
    (h : e.expireOrder key = .ok e') : e'.Numbered := by
  unfold Engine.expireOrder at h
  dsimp only at h
  split at h
  · cases h
    exact named.of_sent rfl
  · split at h
    · cases h
      exact named.of_sent rfl
    · obtain ⟨⟨removed, ea⟩, hremove, h⟩ := Exec.bind_ok.mp h
      obtain ⟨eb, hrecord, h⟩ := Exec.bind_ok.mp h
      cases h
      have same := sent_removeFromBook hremove
      have taken : ea.Numbered := named.of_sent same
      exact ((taken.of_sent (sent_syncRecord ..)).quiet
        (recordMarketData_quiet hrecord)).sendStatusFor ..

theorem Numbered.step {e e' : Engine D} {command : Command D} (named : e.Numbered)
    (step : Step e command e') : e'.Numbered := by
  cases step with
  | createInstrument symbol => exact named.of_sent (view_createInstrument e symbol).2.2.1
  | registerSession s free => exact named.of_sent rfl
  | sessionDisconnect _ s orders quotes visits returns => exact named.sessionDisconnect returns
  | createOrder _ today s new reply returns => exact named.createOrder returns
  | modifyOrderWithType _ today s origId newId orderType price quantity reply returns =>
    exact named.modifyOrderWithType returns
  | cancelOrderWithId _ s origId clOrdId reply returns => exact named.cancelOrderWithId returns
  | quote _ s i bidPrice bidQuantity askPrice askQuantity reply returns =>
    exact named.quote returns
  | expireDayOrdersAt _ today keys visits returns =>
    obtain ⟨mid, hfold, hpublish⟩ := Exec.bind_ok.mp returns
    have expired := Numbered.foldlM (fun _ _ _ named h => named.expireOrder h) _ named hfold
    exact expired.quiet (publishMarketData_quiet hpublish)

/-- A fill report of the engine. -/
inductive Filled (e : Engine D) : Report D → Prop
  | intro {order : Order D} {price quantity : D} {execId : String} (priced : 0 < price)
      (sized : 0 < quantity) :
      Filled e (.fill order (e.symbolFor order.instrumentId) price quantity execId none)

theorem FillNews.filled {e : Engine D} {trades : List (RawTrade D)} {fills : List (Report D)}
    (news : FillNews e (parties trades) fills) (fair : ∀ t ∈ trades, Fair t) :
    ∀ report ∈ fills, Filled e report := by
  intro report hreport
  obtain ⟨i, hi, rfl⟩ := List.mem_iff_getElem.mp hreport
  obtain ⟨hlen, get⟩ := List.forall₂_iff_get.mp news
  obtain ⟨execId, same⟩ := get i (hlen ▸ hi) hi
  have mem := List.mem_of_mem_filter (List.get_mem _ ⟨i, hlen ▸ hi⟩)
  obtain ⟨t, ht, party⟩ := List.mem_flatMap.mp mem
  have priced := (fair t ht).positive
  have sized := (fair t ht).sized
  rw [List.get_eq_getElem] at same
  rw [same]
  rcases List.mem_cons.mp party with party | party
  · rw [party]
    exact .intro priced sized
  · rw [List.mem_singleton.mp party]
    exact .intro priced sized

theorem fills_sized {price : D} {order last : Order D} {plan : List D} {snaps : List (Order D)}
    (f : Fills price order plan snaps last) : ∀ chunk ∈ plan, 0 < chunk := by
  induction f with
  | done => simp
  | fill positive _ _ _ ih => exact List.forall_mem_cons.mpr ⟨positive, ih⟩

theorem Worked.filled {e e' : Engine D} {v : View D} {order last : Order D} {plan : List D}
    {snaps front back : List (Order D)} {ack : Report D} {fills : List (Report D)}
    (w : Worked e e' v order plan last snaps front back ack fills) (priced : 0 < order.price) :
    ∀ report ∈ fills, Filled e report := by
  intro report hreport
  obtain ⟨i, hi, rfl⟩ := List.mem_iff_getElem.mp hreport
  obtain ⟨hlen, get⟩ := List.forall₂_iff_get.mp w.told
  obtain ⟨execId, same⟩ := get i (hlen ▸ hi) hi
  have mem := List.get_mem (plan.zip snaps) ⟨i, hlen ▸ hi⟩
  have sized := fills_sized w.chain _ (List.of_mem_zip mem).1
  rw [List.get_eq_getElem] at same
  rw [same]
  exact .intro priced sized

/-- What a report of a command says: the event of a status, the identifier of the
order or of the request it answers, and the order that was replaced or cancelled. -/
inductive Announced (e : Engine D) (command : Command D) : Report D → Prop
  | fill {report : Report D} (filled : Filled e report) : Announced e command report
  | own {order : Order D} {execId : String} {execType : ExecType}
      (kind : execType = .new ∨ execType = .cancelled ∨ execType = .expired ∨
        execType = .rejected ∧ order.state = .rejected) :
      Announced e command
        (.status order (e.symbolFor order.instrumentId) order.id execId execType none)
  | cancelled {s : String} {origId clOrdId : OrderId} {order : Order D} {execId : String}
      (asked : command = .cancelOrderWithId s origId clOrdId)
      (identity : order.identity = (s, origId)) :
      Announced e command
        (.status order (e.symbolFor order.instrumentId) clOrdId execId .cancelled (some origId))
  | replaced {today : Int} {s : String} {origId newId : OrderId} {orderType : OrderType}
      {price quantity : D} {order : Order D} {execId : String}
      (asked : command = .modifyOrderWithType today s origId newId orderType price quantity)
      (identity : order.identity = (s, newId)) :
      Announced e command
        (.status order (e.symbolFor order.instrumentId) newId execId .replaced (some origId))

/-- The reports between two states say what the command says. -/
def Announces (e e' : Engine D) (command : Command D) : Prop :=
  ∃ news, e'.sent = e.sent ++ news ∧ ∀ report ∈ news, Announced e command report

theorem Announces.silent {e e' : Engine D} (command : Command D) (sent : e'.sent = e.sent) :
    Announces e e' command := ⟨[], by rw [sent, List.append_nil], by simp⟩

section Lawful

variable [LawfulDecimal D]

omit [LawfulDecimal D] in
theorem closing_announced (e : Engine D) (trades : List (RawTrade D)) (orderType : OrderType)
    (final : Order D) (execId : String) (command : Command D) :
    ∀ report ∈ closing e trades orderType final execId, Announced e command report := by
  intro report hreport
  unfold closing at hreport
  split at hreport
  · obtain rfl := List.mem_singleton.mp hreport
    refine .own ?_
    by_cases cancelled : final.state = .cancelled
    · exact .inr (.inl (if_pos cancelled))
    · rw [if_neg cancelled]
      by_cases rejected : final.state = .rejected
      · exact .inr (.inr (.inr ⟨if_pos rejected, rejected⟩))
      · exact .inl (if_neg rejected)
  · cases hreport

/-- A request for a new order is refused, or answered by reports on that order. -/
theorem create_answers {policy : FillPolicy} {e e' : Engine D} (c : Coherent policy e.view none)
    (hp : e.fillPolicy = policy) {today : Int} {s : String} {new : NewOrder D}
    {reply : Except EngineError OrderId} (h : e.createOrder today s new = .ok (reply, e')) :
    Refused e e' reply ∨ reply = .ok new.id ∧ ∃ news, e'.sent = e.sent ++ news ∧
      (∀ report ∈ news, Announced e (.createOrder today s new) report) ∧
      ∃ report ∈ news, report.order.identity = (s, new.id) := by
  cases policy with
  | real =>
    rcases createReal_cases c hp h with
      refused | ⟨accepted, trades, left, final, book', fills, execId, done⟩
    · exact .inl refused
    refine .inr ⟨accepted, _, done.effect.sent, ?_, ?_⟩
    · intro report hreport
      rcases List.mem_append.mp hreport with fill | close
      · exact .fill (done.filled.filled done.added.fair report fill)
      · exact closing_announced e trades new.orderType final execId _ report close
    · have identity : (e.incoming s new).identity = (s, new.id) := by
        rw [incoming_eq]
        rfl
      rcases done.added.snapshots_self with ⟨idle, -⟩ | ⟨early, told, -⟩
      · have close : ∃ report, closing e trades new.orderType final execId = [report] ∧
            report.order = final := by
          rw [closing, if_pos (.inl idle)]
          exact ⟨_, rfl, rfl⟩
        obtain ⟨report, close, same⟩ := close
        refine ⟨report, List.mem_append_right _ ?_, ?_⟩
        · rw [close]
          exact List.mem_singleton_self _
        · rw [same]
          exact done.added.final_identity.trans identity
      · have shown := about_fills done.filled new.id (registered_iff.mpr done.registered)
        rw [identity] at told
        rw [told] at shown
        have mem : left ∈ about (s, new.id) fills := by
          rw [shown]
          exact List.mem_append_right _ (List.mem_singleton_self _)
        obtain ⟨mem, same⟩ := List.mem_filter.mp mem
        obtain ⟨report, hreport, rfl⟩ := List.mem_map.mp mem
        exact ⟨report, List.mem_append_left _ hreport, of_decide_eq_true same⟩
  | tiered =>
    rcases createTiered_cases c hp h with
      refused | ⟨accepted, plan, last, snaps, front, back, execId, fills, done⟩
    · exact .inl refused
    have priced : 0 < (e.incoming s new).price := by
      rw [incoming_eq]
      simp only [hp]
      cases ht : new.orderType with
      | market => exact bookedPrice_pos (by intro h; cases h)
      | limit => exact bookedPrice_pos (fun _ => done.valid.limit ht)
    refine .inr ⟨accepted, _, done.worked.effect.sent, ?_, ?_⟩
    · intro report hreport
      rcases List.mem_cons.mp hreport with rfl | fill
      · have acknowledged : Announced e (.createOrder today s new)
            (.status (OrderBook.restState (e.incoming s new))
              (e.symbolFor (OrderBook.restState (e.incoming s new)).instrumentId)
              (OrderBook.restState (e.incoming s new)).id execId .new none) := .own (.inl rfl)
        rw [incoming_eq] at acknowledged ⊢
        exact acknowledged
      · exact .fill (done.worked.filled priced report fill)
    · refine ⟨_, List.mem_cons_self, ?_⟩
      rw [incoming_eq]
      rfl

/-- A replacement is refused, or confirmed once, and the other reports are fills. -/
theorem modify_answers {policy : FillPolicy} {e e' : Engine D} (c : Coherent policy e.view none)
    (hp : e.fillPolicy = policy) {today : Int} {s : String} {origId newId : OrderId}
    {orderType : OrderType} {price quantity : D} {reply : Except EngineError Unit}
    (h : e.modifyOrderWithType today s origId newId orderType price quantity = .ok (reply, e')) :
    Refused e e' reply ∨ reply = .ok () ∧ ∃ order execId fills,
      e'.sent = e.sent ++ e.replacedReport order origId execId :: fills ∧
      order.identity = (s, newId) ∧ e.Registered s ∧ (e.order s origId).isSome ∧
      ∀ report ∈ fills, Filled e report := by
  cases policy with
  | real =>
    rcases modifyReal_cases c hp h with
      ⟨refused, -⟩ | ⟨accepted, e1, entry, order, remaining, book1, k, done⟩
    · exact .inl refused
    have identity : order.identity = (s, newId) :=
      Prod.ext (k.session c) k.fields.1
    have recorded : (e.order s origId).isSome := by rw [k.recorded]; rfl
    cases done with
    | exhausted _ execId effect =>
      exact .inr ⟨accepted, order, execId, [], effect.sent, identity, k.registered, recorded,
        by simp⟩
    | matched _ trades left final book' fills execId added filled effect =>
      exact .inr ⟨accepted, order, execId, fills, effect.sent, identity, k.registered, recorded,
        filled.filled added.fair⟩
  | tiered =>
    rcases modifyTiered_cases c hp h with
      refused | ⟨accepted, e1, entry, order, remaining, book1, plan, k, -, done⟩
    · exact .inl refused
    have identity : order.identity = (s, newId) :=
      Prod.ext (k.session c) k.fields.1
    have recorded : (e.order s origId).isSome := by rw [k.recorded]; rfl
    cases done with
    | exhausted _ execId effect =>
      exact .inr ⟨accepted, order, execId, [], effect.sent, identity, k.registered, recorded,
        by simp⟩
    | worked _ last snaps front back execId fills worked =>
      have priced : 0 < order.price := by
        obtain ⟨-, -, -, -, -, -, -, -, -, hprice⟩ := k.fields
        rw [hprice]
        exact bookedPrice_pos k.valid.limit
      exact .inr ⟨accepted, order, execId, fills, worked.effect.sent, identity, k.registered,
        recorded, worked.filled priced⟩

omit [LawfulDecimal D] in
/-- A cancellation is refused, or confirmed once. -/
theorem cancel_answers {policy : FillPolicy} {e e' : Engine D} (c : Coherent policy e.view none)
    {s : String} {origId clOrdId : OrderId} {reply : Except EngineError Unit}
    (h : e.cancelOrderWithId s origId clOrdId = .ok (reply, e')) :
    Refused e e' reply ∨ reply = .ok () ∧ ∃ order execId,
      e'.sent = e.sent ++ [.status order (e.symbolFor order.instrumentId) clOrdId execId
        .cancelled (some origId)] ∧
      order.identity = (s, origId) ∧ (e.order s origId).isSome := by
  rcases cancel_cases c h with refused | ⟨accepted, entry, book', execId, done⟩
  · exact .inl refused
  · obtain ⟨hs, hid, -⟩ := c.keyed s origId entry done.recorded
    refine .inr ⟨accepted, _, execId, done.effect.sent, Prod.ext hs hid, ?_⟩
    rw [done.recorded]
    rfl

omit [LawfulDecimal D] in
theorem expire_announces {policy : FillPolicy} {e e' : Engine D} (c : Coherent policy e.view none)
    {keys : List (String × OrderId)} (h : e.expireDayOrdersAt keys = .ok e') (today : Int) :
    Announces e e' (.expireDayOrdersAt today) := by
  let R : Engine D → Engine D → Prop := fun e e' =>
    e'.instruments = e.instruments ∧ Announces e e' (.expireDayOrdersAt today)
  suffices run : R e e' ∧ Coherent policy e'.view none from run.1.2
  refine expire_run (fun e => ⟨rfl, .silent _ rfl⟩) ?_ ?_ ?_ keys c h
  · rintro e e' e'' ⟨same, m, sent, first⟩ ⟨same', n, sent', second⟩
    refine ⟨same'.trans same, m ++ n, by rw [sent', sent, List.append_assoc], ?_⟩
    intro report hreport
    rcases List.mem_append.mp hreport with before | after
    · exact first report before
    · have said := second report after
      have symbols := symbolFor_congr same
      cases said with
      | fill filled =>
        cases filled with
        | intro priced sized =>
          rw [symbols]
          exact .fill (.intro priced sized)
      | own kind =>
        rw [symbols]
        exact .own kind
      | cancelled asked => cases asked
      | replaced asked => cases asked
  · intro e e' effect
    exact ⟨effect.instruments, .silent _ (effect.sent.trans (List.append_nil _))⟩
  · intro e e' s id entry book' execId c done
    refine ⟨done.effect.instruments, _, done.effect.sent, ?_⟩
    intro report hreport
    obtain rfl := List.mem_singleton.mp hreport
    obtain ⟨-, hid, -⟩ := c.keyed s id entry done.recorded
    rw [← hid]
    exact @Announced.own _ _ _ _ (lapsed entry) _ _ (.inr (.inr (.inl rfl)))

theorem Quoted.fair {e e' : Engine D} {s : String} {i : Int} {v : View D}
    {trades : List (RawTrade D)} {fills : List (Report D)}
    (done : Quoted e e' s i v trades fills) : ∀ t ∈ trades, Fair t := by
  have leg : ∀ {exchangeId : String} {v v' : View D} {trades : List (RawTrade D)},
      LegMatched s i exchangeId v v' trades → ∀ t ∈ trades, Fair t := by
    intro exchangeId v v' trades matched
    cases matched with
    | idle => simp
    | matched terms added => exact added.fair
  obtain ⟨v1, v2, bidTrades, askTrades, -, first, second, rfl⟩ := done.stages
  intro t ht
  rcases List.mem_append.mp ht with ht | ht
  · exact leg first t ht
  · exact leg second t ht

/-- What a step reports. -/
theorem step_announces {policy : FillPolicy} {e e' : Engine D} {command : Command D}
    (c : Coherent policy e.view none) (hp : e.fillPolicy = policy) (step : Step e command e') :
    Announces e e' command := by
  cases step with
  | createInstrument symbol => exact .silent _ (view_createInstrument e symbol).2.2.1
  | registerSession s free => exact .silent _ rfl
  | sessionDisconnect _ s orders quotes visits returns =>
    exact .silent _ (sessionDisconnect_spec c visits returns).1.sent
  | createOrder _ today s new reply returns =>
    rcases create_answers c hp returns with ⟨_, -, -, rfl⟩ | ⟨-, news, sent, said, -⟩
    · exact .silent _ rfl
    · exact ⟨news, sent, said⟩
  | modifyOrderWithType _ today s origId newId orderType price quantity reply returns =>
    rcases modify_answers c hp returns with
      ⟨_, -, -, rfl⟩ | ⟨-, order, execId, fills, sent, identity, -, -, filled⟩
    · exact .silent _ rfl
    · refine ⟨_, sent, ?_⟩
      intro report hreport
      rcases List.mem_cons.mp hreport with rfl | fill
      · have hid : order.id = newId := congrArg Prod.snd identity
        rw [replacedReport, hid]
        exact .replaced rfl identity
      · exact .fill (filled report fill)
  | cancelOrderWithId _ s origId clOrdId reply returns =>
    rcases cancel_answers c returns with ⟨_, -, -, rfl⟩ | ⟨-, order, execId, sent, identity, -⟩
    · exact .silent _ rfl
    · refine ⟨_, sent, ?_⟩
      intro report hreport
      obtain rfl := List.mem_singleton.mp hreport
      exact .cancelled rfl identity
  | quote _ s i bidPrice bidQuantity askPrice askQuantity reply returns =>
    cases policy with
    | real =>
      rcases quote_cases c returns with ⟨_, -, -, rfl⟩ | ⟨-, v, trades, fills, done, -⟩
      · exact .silent _ rfl
      · exact ⟨fills, done.effect.sent,
          fun report hreport => .fill (done.filled.filled done.fair report hreport)⟩
    | tiered =>
      obtain ⟨-, rfl⟩ := quote_tiered hp returns
      exact .silent _ rfl
  | expireDayOrdersAt _ today keys visits returns => exact expire_announces c returns today

end Lawful

end Engine

end RustTrader
