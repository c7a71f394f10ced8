import RustTrader.MarketRounds

/-!
# Commands and market data

For every command: what it recorded and published, and that it could only end
early with a panic that no invariant rules out. The publications at the end of
the operations never fail.
-/

namespace RustTrader

open Decimal

namespace Engine

variable {D : Type} [Decimal D]

theorem sendStatusFor_aside (e : Engine D) (o : Order D) (clOrdId : OrderId)
    (execType : ExecType) (orig : Option OrderId) :
    Aside e (e.sendStatusFor o clOrdId execType orig) := by
  obtain ⟨_, told⟩ := sendStatusFor_told e o clOrdId execType orig
  exact told.aside

theorem sendStatus_aside (e : Engine D) (o : Order D) : Aside e (e.sendStatus o) :=
  sendStatusFor_aside ..

theorem syncRecord_aside (e : Engine D) (o : Order D) : Aside e (e.syncRecord o) :=
  (syncRecord_rewrites e o).told.aside

theorem sendFill_aside (e : Engine D) (o : Order D) (price quantity : D) :
    Aside e (e.sendFill o price quantity) := by
  have sent : ∀ mid : Engine D, Aside e mid → Aside e (mid.takeExecId.2.send
      (.fill o (mid.symbolFor o.instrumentId) price quantity mid.takeExecId.1 none)) := by
    intro mid h
    exact (h.trans (takeExecId_told mid).aside).trans (send_told _ _).aside
  unfold sendFill
  split
  · exact sent e (.refl e)
  · exact sent _ (updateRecord_rewrites ..).told.aside

theorem sendTradeReports_aside (e : Engine D) (trades : List (RawTrade D)) :
    Aside e (e.sendTradeReports trades) := by
  have loop : ∀ (trades : List (RawTrade D)) (e : Engine D), Aside e (e.sendFills trades) := by
    intro trades
    induction trades with
    | nil => exact fun e => .refl e
    | cons t ts ih =>
      intro e
      have first := (sendFill_aside e t.buyer t.price t.quantity).trans
        (sendFill_aside _ t.seller t.price t.quantity)
      exact first.trans (ih _)
  unfold sendTradeReports
  split
  · exact .refl e
  · have numbered : Aside e { e with nextTradeId := e.nextTradeId + 1 } :=
      ⟨fun _ _ => rfl, fun s => ⟨s.instrument, s.filed, s.summed⟩, rfl, rfl, rfl, rfl, rfl,
        fun _ _ p hp => Or.inr ⟨p, hp⟩⟩
    exact numbered.trans (loop _ _)

/-- The day of an order is nobody's business. -/
theorem dated_aside {e e' : Engine D} (dates : HashMap (String × OrderId) Int)
    (h : e' = { e with orderDates := dates }) : Aside e e' := by
  subst h
  exact ⟨fun _ _ => rfl, fun s => ⟨s.instrument, s.filed, s.summed⟩, rfl, rfl, rfl, rfl, rfl,
    fun _ _ p hp => Or.inr ⟨p, hp⟩⟩

theorem setOrders_aside {e : Engine D} {s : String} {session : Session D}
    (hs : e.sessions.get? s = some session) (orders : HashMap OrderId (Order D)) :
    Aside e (e.setOrders s session orders) := (setOrders_rewrites hs orders).told.aside

theorem admitted_aside {e : Engine D} (today : Int) {s : String} {session : Session D}
    (hs : e.sessions.get? s = some session) (new : NewOrder D) :
    Aside e (e.admitted today s session new) := by
  have numbered : Aside e (e.numberOrder s new).2 :=
    ⟨fun _ _ => rfl, fun s => ⟨s.instrument, s.filed, s.summed⟩, rfl, rfl, rfl, rfl, rfl,
      fun _ _ p hp => Or.inr ⟨p, hp⟩⟩
  have hs' : (e.numberOrder s new).2.sessions.get? s = some session := hs
  have written := numbered.trans (setOrders_aside hs'
    (HashMap.set session.orders new.id (e.incoming s new)))
  exact written.trans (dated_aside (HashMap.set e.orderDates (s, new.id) today) rfl)

section Lawful

variable [LawfulDecimal D]

omit [LawfulDecimal D] in
theorem removeFromBook_within {e e' : Engine D} {s : String} {id : OrderId} {side : Side}
    {price : D} {i : Int} {result : Except EngineError (Order D)}
    (h : e.removeFromBook s id side price i = .ok (result, e')) : Within (· = i) e e' := by
  unfold removeFromBook at h
  cases hb : HashMap.get? e.books i with
  | none =>
    simp only [hb] at h
    cases h
    exact .refl e
  | some b =>
    have hbook : e.book i = b := by rw [book, hb]; rfl
    simp only [hb] at h
    obtain ⟨removed, hremove, h⟩ := Exec.bind_ok.mp h
    cases removed with
    | none =>
      cases h
      exact .refl e
    | some pair =>
      obtain ⟨o, book'⟩ := pair
      cases h
      refine within_setBook (fun settled => ?_)
      have filed := settled.filed i
      have summed : ExactDecimal D → b.Summed := fun exact_ => hbook ▸ settled.summed exact_ i
      rw [hbook] at filed ⊢
      refine ⟨OrderBook.remove_instrument hremove, ?_,
        fun exact_ => OrderBook.remove_summed filed (summed exact_) hremove⟩
      rcases OrderBook.remove_spec filed hremove with ⟨none_, -⟩ | ⟨_, _, same, -, -, -, left⟩
      · cases none_
      · obtain ⟨-, rfl⟩ := Prod.mk.inj (Option.some.inj same)
        exact left.filed

theorem removeFromBook_error {e : Engine D} (settled : e.Settled) {s : String} {id : OrderId}
    {side : Side} {price : D} {i : Int} {p : Panic}
    (h : e.removeFromBook s id side price i = .error p) : Tolerable p := by
  unfold removeFromBook at h
  cases hb : HashMap.get? e.books i with
  | none =>
    simp only [hb] at h
    cases h
  | some b =>
    have hbook : e.book i = b := by rw [book, hb]; rfl
    simp only [hb] at h
    rcases Exec.bind_error.mp h with h | ⟨removed, -, h⟩
    · have filed := settled.filed i
      rw [hbook] at filed
      exact Or.inl (OrderBook.remove_error filed h)
    · cases removed <;> cases h

/-- An order that was added to the book the view shows. -/
theorem within_added {e : Engine D} {v : View D} {gap : Gap} {order left final : Order D}
    {trades : List (RawTrade D)} {book' : OrderBook D} (hbook : v.book = e.book)
    (a : Coherent.Added v gap order trades left final book') :
    Within (· = order.instrumentId) e (e.setBook order.instrumentId book') := by
  refine within_setBook (fun settled => ?_)
  have admits := a.coherent.admits a.arrives
  have ran := a.ran
  rw [hbook] at ran admits
  have filed := a.coherent_after.filed order.instrumentId
  refine ⟨a.instrument.trans (settled.instrument _).symm, ?_, fun exact_ =>
    (OrderBook.add_summed admits.filed (settled.summed exact_ order.instrumentId) admits.fresh
      ran).1⟩
  simpa [View.added] using filed

end Lawful

/-- The instruments whose market data a command may change. -/
def Concerns (e : Engine D) : Command D → Int → Prop
  | .createInstrument symbol, i => (e.createInstrument symbol).1 = i
  | .registerSession _, _ => False
  | .sessionDisconnect s, i =>
    (∃ id r, e.order s id = some r ∧ r.instrumentId = i) ∨ ∃ p, e.pair s i = some p
  | .createOrder _ _ new, i => new.instrumentId = i
  | .modifyOrderWithType _ s origId _ _ _ _, i =>
    ∃ r, e.order s origId = some r ∧ r.instrumentId = i
  | .cancelOrderWithId s origId _, i => ∃ r, e.order s origId = some r ∧ r.instrumentId = i
  | .quote _ j _ _ _ _, i => j = i
  | .expireDayOrdersAt today, i => ∃ key ∈ e.expired today, ∃ r, e.order key.1 key.2 = some r ∧
      r.instrumentId = i

/-- Everything orders and quotes can be about has a slot. -/
structure Registry (e : Engine D) : Prop where
  known : ∀ i instrument, e.instruments.getById i = some instrument → e.Listed i
  orders : ∀ s id r, e.order s id = some r → e.Listed r.instrumentId
  pairs : ∀ s i p, e.pair s i = some p → e.Listed i

/-- What a command recorded: rounds for instruments it is about, with the trades
it made. -/
structure Operates (e e' : Engine D) (command : Command D)
    (records : List (Int × List (RawTrade D))) : Prop where
  marketed : Marketed e e' records
  concerns : ∀ i ∈ touched records, Concerns e command i
  listed : ∀ i ∈ touched records, e.Listed i
  trades : e.tradesOf command = records.flatMap Prod.snd
  paired : ∀ x ∈ records, ∀ t ∈ x.2, Paired x.1 t

theorem tradesOf_create_idle {e : Engine D} {today : Int} {s : String} {new : NewOrder D}
    (h : e.fillPolicy = .tiered ∨ ∃ err, e.checkCreate s new = .error err) :
    e.tradesOf (.createOrder today s new) = [] := by
  unfold tradesOf runTrades
  dsimp only
  rcases h with tiered | ⟨err, refused⟩
  · rw [tiered]
    rfl
  · rw [refused]
    cases e.fillPolicy <;> rfl

theorem tradesOf_modify_idle {e : Engine D} {today : Int} {s : String} {origId newId : OrderId}
    {orderType : OrderType} {price quantity : D}
    (h : e.fillPolicy = .tiered ∨
      ∃ err, e.checkModify s origId newId orderType price quantity = .error err) :
    e.tradesOf (.modifyOrderWithType today s origId newId orderType price quantity) = [] := by
  unfold tradesOf runTrades
  dsimp only
  rcases h with tiered | ⟨err, refused⟩
  · rw [tiered]
    rfl
  · rw [refused]
    cases e.fillPolicy <;> rfl

theorem publish_idle {e : Engine D} (h : e.pendingMarketData = ∅) :
    e.publishMarketData = .ok e := by
  have same : { e with pendingMarketData := ∅ } = e := by rw [← h]
  unfold publishMarketData
  rw [same, h]
  rfl

/-- A command that records nothing. -/
theorem Operates.idle {e e' : Engine D} (m : Current e) (aside : Aside e e') {command : Command D}
    (quiet : e.tradesOf command = []) : Operates e e' command [] := by
  refine ⟨⟨e, e, .idle (.refl e), publish_idle m.pending, aside⟩, ?_, ?_, quiet, ?_⟩
  · intro i hi
    cases hi
  · intro i hi
    cases hi
  · intro x hx
    cases hx

/-- A command about one instrument. -/
theorem Operates.about {e e' : Engine D} {command : Command D} {i : Int}
    {records : List (Int × List (RawTrade D))} (marketed : Marketed e e' records)
    (only : ∀ x ∈ records, x.1 = i ∧ ∀ t ∈ x.2, Paired i t) (concerns : Concerns e command i)
    (listed : e.Listed i) (ran : e.tradesOf command = records.flatMap Prod.snd) :
    Operates e e' command records := by
  have place : ∀ j ∈ touched records, j = i := by
    intro j hj
    obtain ⟨x, hx, rfl⟩ := List.mem_map.mp hj
    exact (only x hx).1
  refine ⟨marketed, ?_, ?_, ran, ?_⟩
  · intro j hj
    rw [place j hj]
    exact concerns
  · intro j hj
    rw [place j hj]
    exact listed
  · intro x hx t ht
    rw [(only x hx).1]
    exact (only x hx).2 t ht

/-- The one round of a command about one instrument. -/
theorem Operates.single {e mid mid' e' : Engine D} {command : Command D} {i : Int}
    {trades : List (RawTrade D)} (recorded : Recorded e [(i, trades)] mid)
    (published : mid.publishMarketData = .ok mid') (aside : Aside mid' e')
    (concerns : Concerns e command i) (listed : e.Listed i) (ran : e.tradesOf command = trades)
    (paired : ∀ t ∈ trades, Paired i t) : Operates e e' command [(i, trades)] := by
  refine .about ⟨mid, mid', recorded, published, aside⟩ ?_ concerns listed (by simp [ran])
  intro x hx
  obtain rfl := List.mem_singleton.mp hx
  exact ⟨rfl, paired⟩

theorem listed_single {e : Engine D} {i : Int} {trades : List (RawTrade D)} (h : e.Listed i) :
    ∀ j ∈ touched [(i, trades)], e.Listed j := by
  intro j hj
  obtain rfl := List.mem_singleton.mp hj
  exact h

section Lawful

variable [LawfulDecimal D]

theorem cancel_yields {policy : FillPolicy} {e : Engine D} (c : Coherent policy e.view none)
    (m : Current e) (registry : Registry e) (s : String) (origId clOrdId : OrderId) :
    Yields Tolerable (e.cancelOrderWithId s origId clOrdId)
      (fun r => ∃ records, Operates e r.2 (.cancelOrderWithId s origId clOrdId) records) := by
  unfold cancelOrderWithId
  cases hc : e.checkCancel s origId clOrdId with
  | error err => exact .ok ⟨[], .idle m (.refl e) rfl⟩
  | ok entry =>
    obtain ⟨hr, active, session, hs⟩ := checkCancel_ok hc
    refine Yields.call (fun _ h => removeFromBook_error m.settled h) ?_
    rintro ⟨removed, e1⟩ hremove
    have touch := removeFromBook_within hremove
    obtain ⟨book', rfl, rfl, -, -⟩ := removeFromBook_active c hr active hremove
    have hs' : (e.setBook entry.instrumentId book').sessions.get? s = some session := hs
    simp only [OrderState.isActive, Bool.false_eq_true, if_false, hs', unwrap_some, Exec.ok_bind]
    have written := touch.trans (setOrders_aside hs'
      (HashMap.set session.orders origId { entry with state := .cancelled })).aside
    have listed := registry.orders s origId entry hr
    refine record_yields (fun e2 hrecord => ?_)
    have recorded := Recorded.single written hrecord
    refine publish_yields m recorded (listed_single listed) (fun e3 hpublish => ?_)
    exact .ok ⟨_, .single recorded hpublish (sendStatusFor_aside ..) ⟨entry, hr, rfl⟩ listed rfl
      (by simp)⟩

theorem planFor_returns (policy : FillPolicy) (remaining : D) :
    ∃ plan, planFor policy remaining = .ok plan := by
  cases policy with
  | real => exact ⟨_, rfl⟩
  | tiered =>
    obtain ⟨plan, hplan⟩ := tierFillPlan_returns remaining
    exact ⟨_, by rw [planFor, hplan]; rfl⟩

/-- A call that is known to return. -/
theorem returns_yields {α β : Type} {x : Exec α} {f : α → Exec β} {Q : β → Prop}
    (returns : ∃ a, x = .ok a) (next : ∀ a, x = .ok a → Yields Tolerable (f a) Q) :
    Yields Tolerable (x >>= f) Q := by
  obtain ⟨a, ha⟩ := returns
  refine Yields.call ?_ next
  intro p hp
  rw [ha] at hp
  cases hp

/-- An order on its way to its book, from an engine that shows the book. -/
theorem add_yields {e : Engine D} {v : View D} {gap : Gap} {order : Order D}
    (hbook : v.book = e.book) (c : Coherent .real v gap) (arrives : View.Arrives v gap order)
    {β : Type} {f : List (RawTrade D) × Option (Order D) × Engine D → Exec β} {Q : β → Prop}
    (next : ∀ trades final e', e.addToBook order = .ok (trades, final, e') →
      (v.book order.instrumentId).add order = .ok (trades, final, e'.book order.instrumentId) →
      Within (· = order.instrumentId) e e' → (∀ t ∈ trades, Paired order.instrumentId t) →
      Yields Tolerable (f (trades, final, e')) Q) :
    Yields Tolerable (e.addToBook order >>= f) Q := by
  refine Yields.call ?_ ?_
  · intro p hp
    unfold addToBook at hp
    rcases Exec.bind_error.mp hp with hp | ⟨result, -, hp⟩
    · rw [← hbook] at hp
      exact OrderBook.add_error (c.admits arrives) hp
    · cases hp
  · rintro ⟨trades, final, e'⟩ hadd
    obtain ⟨book', ran, rfl⟩ := addToBook_ok hadd
    rw [← hbook] at ran
    obtain ⟨left, last, -, added⟩ := Coherent.added_of_add c arrives ran
    refine next trades final _ hadd ?_ (within_added hbook added) added.paired
    rw [book_setBook, Function.update_self]
    exact ran

omit [LawfulDecimal D] in
/-- The trades of an admitted order are those of its match. -/
theorem tradesOf_create {e : Engine D} (policy : e.fillPolicy = .real) {today : Int} {s : String}
    {new : NewOrder D} (hc : e.checkCreate s new = .ok ()) {trades : List (RawTrade D)}
    {final : Option (Order D)} {book' : OrderBook D}
    (ran : (e.book (e.incoming s new).instrumentId).add (e.incoming s new) =
      .ok (trades, final, book')) : e.tradesOf (.createOrder today s new) = trades := by
  unfold tradesOf runTrades
  simp only [policy, hc]
  unfold incoming at ran
  rw [ran, Exec.ok_bind]
  rfl

theorem createReal_yields {e : Engine D} (c : Coherent .real e.view none)
    (policy : e.fillPolicy = .real) (m : Current e) (registry : Registry e) (today : Int)
    {s : String} {new : NewOrder D} {session : Session D} (hc : e.checkCreate s new = .ok ())
    (hs : e.sessions.get? s = some session) :
    Yields Tolerable ((e.admitted today s session new).createReal new (e.incoming s new))
      (fun r => ∃ records, Operates e r.2 (.createOrder today s new) records) := by
  obtain ⟨valid, ⟨instrument, known⟩, session', hs', hfresh⟩ := checkCreate_ok hc
  obtain rfl := Option.some.inj (hs'.symm.trans hs)
  have listed := registry.known _ _ known
  have fresh : e.order s new.id = none := by simp [order, hs, hfresh]
  obtain ⟨gapped, arrives⟩ := incoming_arrives c policy valid fresh
  have place : (e.incoming s new).instrumentId = new.instrumentId := by rw [incoming_eq]
  have admitted := admitted_aside today hs new
  have hbook : (opened e.view (e.incoming s new)).book = (e.admitted today s session' new).book :=
    funext (fun i => (admitted.book i id).symm)
  unfold createReal
  refine add_yields hbook gapped arrives (fun trades final ea hadd ran touch paired => ?_)
  rw [place] at touch paired
  have ran' : e.tradesOf (.createOrder today s new) = trades := tradesOf_create policy hc ran
  refine record_yields (fun eb hrecord => ?_)
  have recorded := Recorded.after admitted (Recorded.single touch hrecord)
  refine publish_yields m recorded (listed_single listed) (fun ec hpublish => ?_)
  have done : ∀ e' : Engine D, Aside ec e' →
      ∃ records, Operates e e' (.createOrder today s new) records :=
    fun e' aside => ⟨_, .single recorded hpublish aside rfl listed ran' paired⟩
  have reported := sendTradeReports_aside ec trades
  cases final with
  | none => exact .ok (done _ reported)
  | some final =>
    have synced := reported.trans (syncRecord_aside (ec.sendTradeReports trades) final)
    change Yields Tolerable (if _ then _ else _) _
    split
    · exact .ok (done _ (synced.trans (sendStatus_aside ..)))
    · exact .ok (done _ synced)

omit [LawfulDecimal D] in
theorem tieredInsert_within {e e' : Engine D} {order : Order D} (ready : Restable e.view order)
    {s : String} {result : Except EngineError (Order D)}
    (h : e.tieredInsert s order.instrumentId order = .ok (result, e')) :
    Within (· = order.instrumentId) e e' := by
  unfold tieredInsert at h
  obtain ⟨inserted, hinsert, h⟩ := Exec.bind_ok.mp h
  have filed := ready.coherent.filed order.instrumentId
  have fresh := ready.coherent.absent _ rfl order.instrumentId order.side
  obtain ⟨book', rfl, joined⟩ :=
    OrderBook.insertOnly_spec filed ready.positive fresh hinsert
  cases h
  have touch : Within (· = order.instrumentId) e (e.setBook order.instrumentId book') := by
    refine within_setBook (fun settled => ?_)
    exact ⟨OrderBook.insertOnly_instrument hinsert, joined.filed,
      fun exact_ => OrderBook.insertOnly_summed filed (settled.summed exact_ _) fresh hinsert⟩
  exact touch.trans (syncRecord_aside _ _).aside

theorem tieredInsert_error {e : Engine D} {order : Order D} (ready : Restable e.view order)
    {s : String} {p : Panic} (h : e.tieredInsert s order.instrumentId order = .error p) :
    Tolerable p := by
  unfold tieredInsert at h
  rcases Exec.bind_error.mp h with h | ⟨inserted, -, h⟩
  · exact OrderBook.insertOnly_error (ready.coherent.filed order.instrumentId)
      (ready.coherent.absent _ rfl order.instrumentId order.side) h
  · cases inserted <;> cases h

/-- Filling a resting order as planned touches its book only. -/
theorem tieredFillExisting_yields (order : Order D) {pre post : List (Order D)} (plan : List D) :
    ∀ {e : Engine D} {x : Order D} {index : Nat}, Coherent .tiered e.view none →
      Continues order x → Standing e.view x pre post → Fits x.remaining plan →
      Yields Tolerable (tieredFillExisting order.sessionId order.instrumentId order e plan index)
        (fun r => Within (· = order.instrumentId) e r.2) := by
  induction plan with
  | nil =>
    intro e x index _ _ _ _
    exact .ok (.refl e)
  | cons chunk plan ih =>
    intro e x index c cont standing fits
    obtain ⟨positive, covered, rest', hsub, fits'⟩ := fits
    obtain ⟨book, hb, fill⟩ := fillChunk c standing positive covered
    obtain ⟨hs, hid⟩ := Prod.mk.inj cont.identity
    have hbook : e.book x.instrumentId = book := by rw [Engine.book, hb]; rfl
    have hq := standing.queue
    have open_ : keep x = [x] := by
      rcases keep_cases x with ⟨hz, -⟩ | ⟨-, hk⟩
      · exact absurd hz (positive.trans_le covered).ne'
      · exact hk
    rw [open_] at hq
    have ho : x ∈ book.queue x.side := by
      rw [← hbook]
      change x ∈ e.view.queue x.instrumentId x.side
      rw [hq]
      simp
    have fit := c.fit x.instrumentId x.side x (by rw [hq]; simp)
    have filed : OrderBook.Filed Order.price book := hbook ▸ c.filed x.instrumentId
    unfold tieredFillExisting
    rw [← cont.instrumentId, hb]
    dsimp only
    rw [← hs, ← hid, ← cont.side, ← cont.price]
    refine Yields.call ?_ ?_
    · intro p hp
      exact Or.inl (OrderBook.execute_error filed ho fit.active positive covered fit.price hp)
    · intro executed hexec
      obtain ⟨filled, book', rfl, hfill, m, filling⟩ := fill executed hexec
      have f := OrderBook.applyFill_spec hfill
      obtain ⟨_, _, same, -, done⟩ :=
        OrderBook.execute_spec filed ho fit.active positive covered fit.price hexec
      obtain ⟨rfl, rfl⟩ := Prod.mk.inj (Except.ok.inj same)
      have touch : Within (· = x.instrumentId) e (e.setBook x.instrumentId book') := by
        refine within_setBook (fun settled => ?_)
        rw [hbook]
        exact ⟨done.instrument, done.filed, fun exact_ => OrderBook.execute_summed filed
          (hbook ▸ settled.summed exact_ x.instrumentId) ho fit.active positive covered fit.price
          hexec⟩
      have chunked := touch.trans (sendFill_aside _ filled x.price chunk).aside
      have remains : filled.remaining = rest' := Except.ok.inj (f.remaining.symm.trans hsub)
      have rest := @ih _ filled (index + 1) filling.coherent (cont.trans f.toContinues)
        (filling.standing standing) (by rw [remains]; exact fits')
      rw [cont.instrumentId] at chunked rest ⊢
      rw [hs]
      exact rest.mono (fun r later => chunked.trans later)

/-- Resting an order under the tiered policy. -/
theorem tieredInsert_yields {e : Engine D} {order : Order D} (ready : Restable e.view order)
    {s : String} {β : Type} {f : Except EngineError (Order D) × Engine D → Exec β} {Q : β → Prop}
    (next : ∀ ea front back, Rested e ea order front back → Within (· = order.instrumentId) e ea →
      Yields Tolerable (f (.ok (OrderBook.restState order), ea)) Q) :
    Yields Tolerable (e.tieredInsert s order.instrumentId order >>= f) Q := by
  refine Yields.call (fun _ h => tieredInsert_error ready h) ?_
  rintro ⟨inserted, ea⟩ hinsert
  have touch := tieredInsert_within ready hinsert
  obtain ⟨rfl, front, back, rested, -⟩ := tieredInsert_spec ready hinsert
  exact next ea front back rested touch

/-- An acknowledged order is filled as planned; the fills are recorded as one
change and published. -/
theorem plan_yields {e e1 ea : Engine D} (m : Current e)
    {records : List (Int × List (RawTrade D))} {order : Order D} {front back : List (Order D)}
    (before : Recorded e records e1) (rested : Rested e1 ea order front back)
    (touch : Within (· = order.instrumentId) e1 ea)
    (listed : ∀ i ∈ touched (records ++ [(order.instrumentId, [])]), e.Listed i) (told : Order D)
    (clOrdId : OrderId) (ack : ExecType) (orig : Option OrderId) {plan : List D}
    (fits : Fits order.remaining plan) {α : Type}
    (reply : Except EngineError Unit → Except EngineError α) :
    Yields Tolerable (do
      let (result, ec) ← tieredFillExisting order.sessionId order.instrumentId
        (OrderBook.restState order) (ea.sendStatusFor told clOrdId ack orig) plan 0
      let ed ← ec.recordMarketData order.instrumentId []
      let ee ← ed.publishMarketData
      pure (reply result, ee))
      (fun r => Marketed e r.2 (records ++ [(order.instrumentId, [])])) := by
  obtain ⟨execId, acked⟩ := sendStatusFor_effect ea told clOrdId ack orig
  have coherent : Coherent .tiered (ea.sendStatusFor told clOrdId ack orig).view none := by
    rw [acked.view]
    exact rested.coherent
  have standing : Standing (ea.sendStatusFor told clOrdId ack orig).view
      (OrderBook.restState order) front back := by
    rw [acked.view]
    exact rested.standing
  refine Yields.bind (tieredFillExisting_yields (OrderBook.restState order) plan coherent
    (.refl _) standing fits) ?_
  rintro ⟨result, ec⟩ filled
  have changed := (touch.trans (sendStatusFor_aside ..).aside).trans filled
  refine record_yields (fun ed hrecord => ?_)
  have recorded := before.append (.single changed hrecord)
  refine publish_yields m recorded listed (fun ee hpublish => ?_)
  exact .ok ⟨ed, ee, recorded, hpublish, .refl ee⟩

theorem createTiered_yields {e : Engine D} (c : Coherent .tiered e.view none)
    (policy : e.fillPolicy = .tiered) (m : Current e) (registry : Registry e) (today : Int)
    {s : String} {new : NewOrder D} {session : Session D} {plan : List D}
    (hc : e.checkCreate s new = .ok ()) (hs : e.sessions.get? s = some session)
    (planned : tierFillPlan new.quantity = .ok (.ok plan)) :
    Yields Tolerable ((e.admitted today s session new).createTiered s new (e.incoming s new) plan)
      (fun r => ∃ records, Operates e r.2 (.createOrder today s new) records) := by
  obtain ⟨valid, ⟨instrument, known⟩, session', hs', hfresh⟩ := checkCreate_ok hc
  obtain rfl := Option.some.inj (hs'.symm.trans hs)
  have listed := registry.known _ _ known
  have ready := admitted_restable c policy today hs hfresh valid
  have fits : Fits (e.incoming s new).remaining plan := by
    rw [incoming_remaining]
    exact tierFillPlan_fits valid.positive.le planned
  have place : (e.incoming s new).instrumentId = new.instrumentId := by rw [incoming_eq]
  have owner : (e.incoming s new).sessionId = s := incoming_sessionId e s new
  have quiet : e.tradesOf (.createOrder today s new) = [] := tradesOf_create_idle (Or.inl policy)
  unfold createTiered
  rw [← place]
  refine tieredInsert_yields ready (fun ea front back rested touch => ?_)
  dsimp only
  rw [sendStatus_incoming]
  have work := plan_yields m (.idle (admitted_aside today hs new)) rested touch
    (listed_single (place ▸ listed)) (OrderBook.restState (e.incoming s new)) new.id .new none fits
    (fun result => result.map (fun _ => new.id))
  rw [owner] at work
  refine work.mono (fun r marketed => ⟨_, .about marketed ?_ rfl listed (by simp [quiet])⟩)
  intro x hx
  obtain rfl := List.mem_singleton.mp hx
  exact ⟨place, by simp⟩

theorem create_yields {policy : FillPolicy} {e : Engine D} (c : Coherent policy e.view none)
    (hp : e.fillPolicy = policy) (m : Current e) (registry : Registry e) (today : Int) (s : String)
    (new : NewOrder D) : Yields Tolerable (e.createOrder today s new)
      (fun r => ∃ records, Operates e r.2 (.createOrder today s new) records) := by
  unfold createOrder
  cases hc : e.checkCreate s new with
  | error err => exact .ok ⟨[], .idle m (.refl e) (tradesOf_create_idle (Or.inr ⟨err, hc⟩))⟩
  | ok u =>
    obtain ⟨valid, known, session, hs, hfresh⟩ := checkCreate_ok hc
    have hs' : (e.numberOrder s new).2.sessions.get? s = some session := hs
    have hid : (e.numberOrder s new).1.id = new.id := incoming_id e s new
    refine returns_yields (planFor_returns ..) (fun plan hplan => ?_)
    subst hp
    cases hpolicy : e.fillPolicy with
    | real =>
      rw [hpolicy] at hplan c
      cases hplan
      unfold acceptOrder
      simp only [hs', hid]
      exact createReal_yields c hpolicy m registry today hc hs
    | tiered =>
      rw [hpolicy] at hplan c
      cases plan with
      | error err =>
        exact .ok ⟨[], .idle m (.refl e) (tradesOf_create_idle (Or.inl hpolicy))⟩
      | ok plan =>
        obtain ⟨chunks, rfl, planned⟩ := planFor_tiered hplan
        unfold acceptOrder
        simp only [hs', hid]
        exact createTiered_yields c hpolicy m registry today hc hs planned

omit [LawfulDecimal D] in
theorem rekey_aside {e e' : Engine D} {today : Int} {s : String} {origId : OrderId}
    {order : Order D} (h : e.rekey today s origId order = .ok e') : Aside e e' := by
  unfold rekey at h
  obtain ⟨session, hs, h⟩ := Exec.bind_ok.mp h
  cases hg : e.sessions.get? s with
  | none =>
    rw [hg] at hs
    cases hs
  | some session' =>
    rw [hg, unwrap_some] at hs
    obtain rfl := Except.ok.inj hs
    cases h
    exact (setOrders_aside hg _).trans (dated_aside _ rfl)

omit [LawfulDecimal D] in
theorem rekey_returns {e : Engine D} (today : Int) {s : String} {session : Session D}
    (hs : e.sessions.get? s = some session) (origId : OrderId) (order : Order D) :
    ∃ e', e.rekey today s origId order = .ok e' := by
  unfold rekey
  rw [hs]
  exact ⟨_, rfl⟩

theorem replacementPlan_error' {e : Engine D} {entry : Order D} {quantity : D} {p : Panic}
    (h : e.replacementPlan entry quantity = .error p) : Tolerable p := by
  have returns : ∀ policy (remaining : D), planFor policy remaining ≠ .error p := by
    intro policy remaining failed
    obtain ⟨plan, hplan⟩ := planFor_returns policy remaining
    cases hplan.symm.trans failed
  unfold replacementPlan at h
  split at h
  · exact absurd h (returns _ _)
  · rcases Exec.bind_error.mp h with h | ⟨remaining, -, h⟩
    · exact Or.inl ((LawfulDecimal.sub_rounds _ _).panic p h)
    · exact absurd h (returns _ _)

/-- What a replacement does once its original is out of the book and recorded as gone. -/
theorem modify_yields_of {policy : FillPolicy} {e : Engine D} (c : Coherent policy e.view none)
    (hp : e.fillPolicy = policy) (m : Current e) {today : Int} {s : String}
    {origId newId : OrderId} {orderType : OrderType} {price quantity : D}
    {Q : Except EngineError Unit × Engine D → Prop}
    (refused : ∀ err, (e.fillPolicy = .tiered ∨
      ∃ err, e.checkModify s origId newId orderType price quantity = .error err) →
        Q (.error err, e))
    (next : ∀ e1 entry order remaining book1 plan, Rekeyed policy e e1 s origId newId orderType
      price quantity entry order remaining book1 plan →
      Recorded e [(entry.instrumentId, [])] e1 →
      Yields Tolerable (e1.confirmReplacement s origId order plan) Q) :
    Yields Tolerable (e.modifyOrderWithType today s origId newId orderType price quantity) Q := by
  unfold modifyOrderWithType
  cases hc : e.checkModify s origId newId orderType price quantity with
  | error err => exact .ok (refused err (Or.inr ⟨err, hc⟩))
  | ok entry =>
    obtain ⟨recorded, active, -, -, -, session, hs⟩ := checkModify_ok hc
    refine Yields.call (fun _ h => replacementPlan_error' h) ?_
    intro plan hplan
    cases plan with
    | error err =>
      refine .ok (refused err (Or.inl ?_))
      unfold replacementPlan at hplan
      cases policy : e.fillPolicy with
      | real =>
        rw [policy] at hplan
        cases hplan
      | tiered => rfl
    | ok plan =>
      refine Yields.call (fun _ h => removeFromBook_error m.settled h) ?_
      rintro ⟨removed, ea⟩ hremove
      have touch := removeFromBook_within hremove
      obtain ⟨_, rfl, hea, -, -⟩ := removeFromBook_active c recorded active hremove
      refine record_yields (fun eb hrecord => ?_)
      refine Yields.call (fun p h => Or.inl ((LawfulDecimal.sub_rounds _ _).panic p h)) ?_
      intro remaining hsub
      let numbered : Engine D := { eb with nextArrival := eb.nextArrival + 1 }
      have hsb : numbered.sessions.get? s = some session := by
        change eb.sessions.get? s = some session
        rw [(recordMarketData_quiet hrecord).sessions, hea]
        exact hs
      refine returns_yields (rekey_returns today hsb origId _) (fun e1 hrekey => ?_)
      obtain ⟨book1, rekeyed⟩ := rekeyed_of_run c hp hc hplan hremove hrecord hsub hrekey
      have counted : Aside eb numbered :=
        ⟨fun _ _ => rfl, fun s => ⟨s.instrument, s.filed, s.summed⟩, rfl, rfl, rfl, rfl, rfl,
          fun _ _ p hp => Or.inr ⟨p, hp⟩⟩
      exact next e1 entry _ remaining book1 plan rekeyed
        ((Recorded.single touch hrecord).append (.idle (counted.trans (rekey_aside hrekey))))

omit [LawfulDecimal D] in
/-- The trades of a replacement under the real policy. -/
theorem Rekeyed.tradesOf {e e1 : Engine D} {s : String} {origId newId : OrderId}
    {orderType : OrderType} {price quantity remaining : D} {entry order : Order D}
    {book1 : OrderBook D} {plan : Option (List D)}
    (k : Rekeyed .real e e1 s origId newId orderType price quantity entry order remaining book1
      plan) (policy : e.fillPolicy = .real) (today : Int) :
    e.tradesOf (.modifyOrderWithType today s origId newId orderType price quantity) =
      if order.remaining = 0 then []
      else match ((rekeyed e.view entry.instrumentId book1 s origId order).book
          order.instrumentId).add order with
        | .ok (trades, _, _) => trades
        | .error _ => [] := by
  have made := k.made
  have hremaining := k.fields.2.2.2.1
  unfold Engine.tradesOf runTrades
  dsimp only
  rw [policy, k.checked]
  dsimp only
  rw [k.taken, Exec.ok_bind]
  dsimp only
  rw [k.remains, Exec.ok_bind]
  rw [← made, ← hremaining]
  by_cases done : order.remaining = 0
  · simp only [done, if_true]
    rfl
  · have same : (e.setBook entry.instrumentId book1).book =
        (rekeyed e.view entry.instrumentId book1 s origId order).book := by
      rw [book_setBook]
      rfl
    simp only [done, if_false, same]
    cases ((rekeyed e.view entry.instrumentId book1 s origId order).book
      order.instrumentId).add order <;> rfl

theorem modifyReal_yields {e : Engine D} (c : Coherent .real e.view none)
    (policy : e.fillPolicy = .real) (m : Current e) (registry : Registry e) (today : Int)
    (s : String) (origId newId : OrderId) (orderType : OrderType) (price quantity : D) :
    Yields Tolerable (e.modifyOrderWithType today s origId newId orderType price quantity)
      (fun r => ∃ records, Operates e r.2
        (.modifyOrderWithType today s origId newId orderType price quantity) records) := by
  refine modify_yields_of c policy m
    (fun err h => ⟨[], .idle m (.refl e) (tradesOf_modify_idle h)⟩) ?_
  intro e1 entry order remaining book1 plan k recorded
  have hplan := k.planned
  unfold replacementPlan at hplan
  rw [policy] at hplan
  cases hplan
  obtain ⟨-, -, -, hremaining, -, -, -, place, -, -⟩ := k.fields
  have listed := registry.orders s origId entry k.recorded
  have concerns : Concerns e (.modifyOrderWithType today s origId newId orderType price quantity)
      entry.instrumentId := ⟨entry, k.recorded, rfl⟩
  have acked : Recorded e [(entry.instrumentId, [])]
      (e1.sendStatusFor order order.id .replaced (some origId)) :=
    recorded.append (.idle (sendStatusFor_aside ..))
  unfold confirmReplacement restReplacement
  by_cases done : order.remaining = 0
  · simp only [done, if_true]
    refine publish_yields m acked (listed_single listed) (fun e2 hpublish => ?_)
    have quiet := k.tradesOf policy today
    rw [if_pos done] at quiet
    exact .ok ⟨_, .single acked hpublish (.refl e2) concerns listed quiet (by simp)⟩
  · simp only [done, if_false]
    have arrives := k.arrives c done
    obtain ⟨execId, told⟩ := sendStatusFor_effect e1 order order.id .replaced (some origId)
    have hbook : (rekeyed e.view entry.instrumentId book1 s origId order).book =
        (e1.sendStatusFor order order.id .replaced (some origId)).book :=
      (congrArg View.book (told.view.trans k.effect.view)).symm
    unfold workReplacement
    refine add_yields hbook k.coherent arrives (fun trades final ea hadd ran touch paired => ?_)
    have ran' := k.tradesOf policy today
    rw [if_neg done, ran] at ran'
    refine record_yields (fun eb hrecord => ?_)
    have rounds := acked.append (.single touch hrecord)
    rw [place] at rounds paired
    have only : ∀ x ∈ [(entry.instrumentId, [])] ++ [(entry.instrumentId, trades)],
        x.1 = entry.instrumentId ∧ ∀ t ∈ x.2, Paired entry.instrumentId t := by
      intro x hx
      rcases List.mem_cons.mp hx with rfl | hx
      · exact ⟨rfl, by simp⟩
      · obtain rfl := List.mem_singleton.mp hx
        exact ⟨rfl, paired⟩
    have known : ∀ i ∈ touched ([(entry.instrumentId, [])] ++ [(entry.instrumentId, trades)]),
        e.Listed i := by
      intro i hi
      obtain ⟨x, hx, rfl⟩ := List.mem_map.mp hi
      rw [(only x hx).1]
      exact listed
    refine publish_yields m rounds known (fun ec hpublish => ?_)
    have finish : ∀ e' : Engine D, Aside ec e' → ∃ records, Operates e e'
        (.modifyOrderWithType today s origId newId orderType price quantity) records :=
      fun e' aside => ⟨_, .about ⟨eb, ec, rounds, hpublish, aside⟩ only concerns listed
        (by simpa using ran')⟩
    have reported := sendTradeReports_aside ec trades
    cases final with
    | none => exact .ok (finish _ reported)
    | some final => exact .ok (finish _ (reported.trans (syncRecord_aside _ final)))

theorem modifyTiered_yields {e : Engine D} (c : Coherent .tiered e.view none)
    (policy : e.fillPolicy = .tiered) (m : Current e) (registry : Registry e) (today : Int)
    (s : String) (origId newId : OrderId) (orderType : OrderType) (price quantity : D) :
    Yields Tolerable (e.modifyOrderWithType today s origId newId orderType price quantity)
      (fun r => ∃ records, Operates e r.2
        (.modifyOrderWithType today s origId newId orderType price quantity) records) := by
  refine modify_yields_of c policy m
    (fun err h => ⟨[], .idle m (.refl e) (tradesOf_modify_idle h)⟩) ?_
  intro e1 entry order remaining book1 plan k recorded
  obtain ⟨chunks, rfl, planned⟩ := k.planned_tiered policy
  obtain ⟨-, -, -, hremaining, -, -, -, place, -, -⟩ := k.fields
  have listed := registry.orders s origId entry k.recorded
  have concerns : Concerns e (.modifyOrderWithType today s origId newId orderType price quantity)
      entry.instrumentId := ⟨entry, k.recorded, rfl⟩
  have quiet : e.tradesOf (.modifyOrderWithType today s origId newId orderType price quantity) =
      [] := tradesOf_modify_idle (Or.inl policy)
  unfold confirmReplacement restReplacement
  by_cases done : order.remaining = 0
  · have acked : Recorded e [(entry.instrumentId, [])]
        (e1.sendStatusFor order order.id .replaced (some origId)) :=
      recorded.append (.idle (sendStatusFor_aside ..))
    simp only [done, if_true]
    refine publish_yields m acked (listed_single listed) (fun e2 hpublish => ?_)
    exact .ok ⟨_, .single acked hpublish (.refl e2) concerns listed quiet (by simp)⟩
  · simp only [done, if_false]
    have ready := k.restable c done
    have fits : Fits order.remaining chunks := by
      have nonneg := k.nonneg
      rw [hremaining] at nonneg ⊢
      exact tierFillPlan_fits nonneg planned
    have only : ∀ x ∈ [(entry.instrumentId, ([] : List (RawTrade D)))] ++
        [(order.instrumentId, [])], x.1 = entry.instrumentId ∧
          ∀ t ∈ x.2, Paired entry.instrumentId t := by
      intro x hx
      rcases List.mem_cons.mp hx with rfl | hx
      · exact ⟨rfl, by simp⟩
      · obtain rfl := List.mem_singleton.mp hx
        exact ⟨place, by simp⟩
    have known : ∀ i ∈ touched ([(entry.instrumentId, ([] : List (RawTrade D)))] ++
        [(order.instrumentId, [])]), e.Listed i := by
      intro i hi
      obtain ⟨x, hx, rfl⟩ := List.mem_map.mp hi
      rw [(only x hx).1]
      exact listed
    rw [bind_assoc]
    refine tieredInsert_yields ready (fun ea front back rested touch => ?_)
    dsimp only [Except.map]
    rw [pure_bind]
    unfold workReplacement
    dsimp only
    rw [unwrap_some, Exec.ok_bind]
    have work := plan_yields m recorded rested touch known order order.id .replaced (some origId)
      fits id
    rw [k.session c] at work
    exact work.mono (fun r marketed => ⟨_, .about marketed only concerns listed (by simp [quiet])⟩)

theorem modify_yields {policy : FillPolicy} {e : Engine D} (c : Coherent policy e.view none)
    (hp : e.fillPolicy = policy) (m : Current e) (registry : Registry e) (today : Int)
    (s : String) (origId newId : OrderId) (orderType : OrderType) (price quantity : D) :
    Yields Tolerable (e.modifyOrderWithType today s origId newId orderType price quantity)
      (fun r => ∃ records, Operates e r.2
        (.modifyOrderWithType today s origId newId orderType price quantity) records) := by
  cases policy with
  | real => exact modifyReal_yields c hp m registry today s origId newId orderType price quantity
  | tiered =>
    exact modifyTiered_yields c hp m registry today s origId newId orderType price quantity

theorem dropResting_yields {e : Engine D} (settled : e.Settled) (s : String) (i : Int)
    (leg : Order D) : Yields Tolerable (e.dropResting s i leg) (fun e' => Within (· = i) e e') := by
  unfold dropResting
  refine Yields.call (fun _ h => removeFromBook_error settled h) ?_
  rintro ⟨removed, e1⟩ hremove
  exact .ok (removeFromBook_within hremove)

theorem dropLegs_yields (s : String) (i : Int) (legs : List (Order D)) {e : Engine D}
    (settled : e.Settled) : Yields Tolerable
      (legs.foldlM (fun e leg => e.dropResting s i leg) e) (fun e' => Within (· = i) e e') := by
  refine Yields.foldlM (fun _ mid => Within (· = i) e mid) ?_ legs e (.refl e)
  intro leg rest mid touch
  exact (dropResting_yields (touch.settled settled) s i leg).mono (fun _ more => touch.trans more)

omit [LawfulDecimal D] in
/-- A session that has lost its pair for an instrument. -/
theorem seated_bare_aside {e : Engine D} {s : String} {session : Session D}
    (hs : e.sessions.get? s = some session) (i : Int) :
    Aside e (e.seated s (bareSession session i)) := by
  refine ⟨fun _ _ => rfl, fun s => ⟨s.instrument, s.filed, s.summed⟩, rfl, rfl, rfl, rfl, rfl, ?_⟩
  intro s' j p hp
  right
  by_cases same : s' = s
  · subst same
    by_cases hj : j = i
    · subst hj
      simp [pair, seated, bareSession] at hp
    · refine ⟨p, ?_⟩
      simpa [pair, seated, bareSession, hs, HashMap.get?_remove_ne, hj] using hp
  · exact ⟨p, by simpa [pair, seated, SortedMap.get?_insert_ne, same] using hp⟩

omit [LawfulDecimal D] in
/-- A session with a new pair for an instrument. -/
theorem seated_full_within {e : Engine D} {s : String} {session : Session D}
    (hs : e.sessions.get? s = some session) (i : Int) (p : QuotePair D) :
    Within (· = i) e
      (e.seated s { session with quotes := HashMap.set session.quotes i p }) := by
  refine ⟨fun _ _ => rfl, fun s => ⟨s.instrument, s.filed, s.summed⟩, rfl, rfl, rfl, rfl, rfl, ?_⟩
  intro s' j p' hp
  by_cases hj : j = i
  · exact Or.inl hj
  · right
    by_cases same : s' = s
    · subst same
      exact ⟨p', by simpa [pair, seated, hs, HashMap.get?_set_ne, hj] using hp⟩
    · exact ⟨p', by simpa [pair, seated, SortedMap.get?_insert_ne, same] using hp⟩

theorem quoteLeg_yields {e : Engine D} {v : View D} (c : Coherent .real v none)
    (hbook : v.book = e.book) (harr : v.arrival = e.nextArrival) {s : String} {i : Int}
    {side : Side} {price quantity : D} {exchangeId : String} (nonneg : 0 ≤ price)
    (sized : price ≠ 0 → 0 < quantity)
    (hleg : price ≠ 0 → v.leg s i side = some (e.legOrder s i side price quantity exchangeId))
    (fresh : Withdrawn e s i side) (apart : side = .sell ∨ Withdrawn e s i side.opposite)
    {β : Type} {f : List (RawTrade D) × Option (Order D) × Engine D → Exec β} {Q : β → Prop}
    (next : ∀ trades leg e', e.quoteLeg s i side price quantity exchangeId =
      .ok (trades, leg, e') → Within (· = i) e e' → (∀ t ∈ trades, Paired i t) →
      Yields Tolerable (f (trades, leg, e')) Q) :
    Yields Tolerable (e.quoteLeg s i side price quantity exchangeId >>= f) Q := by
  by_cases hz : price = 0
  · have idle : e.quoteLeg s i side price quantity exchangeId = .ok ([], none, e) := by
      unfold quoteLeg
      rw [if_pos hz]
      rfl
    have rest := next [] none e idle (.refl e) (by simp)
    rw [idle]
    exact rest
  · let order := e.legOrder s i side price quantity exchangeId
    let numbered : Engine D := { e with
      nextExchangeId := wrapI32 (e.nextExchangeId + 1)
      nextArrival := e.nextArrival + 1 }
    have shape : e.quoteLeg s i side price quantity exchangeId =
        (numbered.addToBook order >>= fun r => pure (r.1, some order, r.2.2)) := by
      unfold quoteLeg
      rw [if_neg hz]
      rfl
    have counted : Aside e numbered :=
      ⟨fun _ _ => rfl, fun s => ⟨s.instrument, s.filed, s.summed⟩, rfl, rfl, rfl, rfl, rfl,
        fun _ _ p hp => Or.inr ⟨p, hp⟩⟩
    have arrives := leg_arrives hbook harr (lt_of_le_of_ne nonneg (Ne.symm hz)) (sized hz)
      (hleg hz) fresh apart
    have hbook' : v.book = numbered.book := hbook
    rw [shape, bind_assoc]
    refine add_yields hbook' c arrives (fun trades final e' hadd ran touch paired => ?_)
    rw [pure_bind]
    refine next trades (some order) e' ?_ (counted.aside.trans touch) paired
    rw [shape, hadd]
    rfl

theorem quote_yields {policy : FillPolicy} {e : Engine D} (c : Coherent policy e.view none)
    (hp : e.fillPolicy = policy) (m : Current e) (registry : Registry e) (s : String) (i : Int)
    (bidPrice bidQuantity askPrice askQuantity : D) :
    Yields Tolerable (e.quote s i bidPrice bidQuantity askPrice askQuantity)
      (fun r => ∃ records, Operates e r.2
        (.quote s i bidPrice bidQuantity askPrice askQuantity) records) := by
  unfold quote
  cases hc : e.checkQuote s i bidPrice bidQuantity askPrice askQuantity with
  | error err =>
    refine .ok ⟨[], .idle m (.refl e) ?_⟩
    unfold tradesOf runTrades
    dsimp only
    rw [hc]
    rfl
  | ok session =>
    have valid := checkQuote_ok hc
    have hs := valid.registered
    have real : policy = .real := by
      cases policy with
      | real => rfl
      | tiered => exact absurd hp valid.real
    subst real
    obtain ⟨instrument, known⟩ := valid.listed
    have listed := registry.known i instrument known
    let e0 := e.seated s (bareSession session i)
    have bare := seated_bare_aside hs i
    have withdraws : Yields Tolerable (e.withdrawPair s i session)
        (fun e1 => Within (· = i) e0 e1) := by
      rw [withdrawPair_eq hs]
      exact dropLegs_yields s i _ (bare.settled m.settled)
    refine Yields.call withdraws.fails (fun e1 hdrop => ?_)
    have touch1 := withdraws.returns e1 hdrop
    have hdrop' := (withdrawPair_eq hs i).symm.trans hdrop
    let bid' := if bidPrice = 0 then none
      else some (e1.legOrder s i .buy bidPrice bidQuantity ("quote.bid." ++ toString i))
    have sided : ∀ side leg, newLegs bid' none side = some leg →
        leg.id = quoteOrderId ∧ leg.side = side := by
      intro side leg h
      cases side
      · simp only [newLegs, QuotePair.leg, bid'] at h
        split at h
        · cases h
        · obtain rfl := Option.some.inj h
          exact ⟨rfl, rfl⟩
      · cases h
    obtain ⟨only, -, goneBuy, goneSell, ready⟩ :=
      legs_ready c (show e0.book = e.book from rfl) hdrop' (newLegs bid' none) sided
    have harr1 : e.nextArrival = e1.nextArrival := by rw [only.rest]; rfl
    refine quoteLeg_yields ready rfl harr1 valid.bid valid.bidSized
      (fun hz => by simp [newLegs, QuotePair.leg, bid', hz]) goneBuy (Or.inr goneSell)
      (fun bidTrades bid e2 hbid touch2 bidPaired => ?_)
    obtain ⟨v, half⟩ := bidLeg_spec (y := "quote.ask." ++ toString i) c valid
      (show e0.book = e.book from rfl) rfl hdrop' hbid
    refine quoteLeg_yields half.coherent half.book half.arrival valid.ask valid.askSized
      (fun hz => by rw [half.legs]; simp [QuotePair.leg, hz]) half.fresh (Or.inl rfl)
      (fun askTrades ask e3 hask touch3 askPaired => ?_)
    obtain ⟨-, -, -, -, -, -, -, -, rest⟩ :=
      matchLegs c valid (show e0.book = e.book from rfl) rfl hdrop' hbid hask
    have found : e3.sessions.get? s = some (bareSession session i) := by
      rw [rest]
      exact SortedMap.get?_insert_self ..
    dsimp only
    rw [found, unwrap_some, Exec.ok_bind]
    have changed := (((bare.aside.trans touch1).trans touch2).trans touch3).trans
      (seated_full_within found i ⟨bid, ask⟩)
    refine record_yields (fun e4 hrecord => ?_)
    have recorded := Recorded.single changed hrecord
    refine publish_yields m recorded (listed_single listed) (fun e5 hpublish => ?_)
    refine .ok ⟨_, .single recorded hpublish (sendTradeReports_aside ..) rfl listed ?_ ?_⟩
    · unfold tradesOf runTrades
      dsimp only
      rw [hc]
      dsimp only
      rw [hdrop, Exec.ok_bind, hbid, Exec.ok_bind]
      dsimp only
      rw [hask]
      rfl
    · intro t ht
      rcases List.mem_append.mp ht with ht | ht
      · exact bidPaired t ht
      · exact askPaired t ht

/-- In the middle of a command that only takes orders away. -/
def Clearing (e : Engine D) (command : Command D) (mid : Engine D) : Prop :=
  ∃ records, Recorded e records mid ∧
    ∀ x ∈ records, Concerns e command x.1 ∧ e.Listed x.1 ∧ x.2 = []

namespace Clearing

variable {e mid mid' : Engine D} {command : Command D}

omit [LawfulDecimal D] in
theorem start (h : Aside e mid) : Clearing e command mid := by
  refine ⟨[], .idle h, ?_⟩
  intro x hx
  cases hx

omit [LawfulDecimal D] in
theorem aside (h : Clearing e command mid) (aside : Aside mid mid') : Clearing e command mid' := by
  obtain ⟨records, recorded, only⟩ := h
  refine ⟨records, ?_, only⟩
  have both := recorded.append (.idle aside)
  rwa [List.append_nil] at both

omit [LawfulDecimal D] in
theorem settled (h : Clearing e command mid) (settled : e.Settled) : mid.Settled := by
  obtain ⟨records, recorded, -⟩ := h
  exact recorded.kept.settled settled

omit [LawfulDecimal D] in
/-- One book is changed and recorded. -/
theorem round (h : Clearing e command mid) {i : Int} (concerns : Concerns e command i)
    (listed : e.Listed i) {e1 : Engine D} (touch : Within (· = i) mid e1)
    (record : e1.recordMarketData i [] = .ok mid') : Clearing e command mid' := by
  obtain ⟨records, recorded, only⟩ := h
  refine ⟨records ++ [(i, [])], recorded.append (.single touch record), ?_⟩
  intro x hx
  rcases List.mem_append.mp hx with hx | hx
  · exact only x hx
  · obtain rfl := List.mem_singleton.mp hx
    exact ⟨concerns, listed, rfl⟩

omit [LawfulDecimal D] in
theorem publish (h : Clearing e command mid) (m : Current e) (quiet : e.tradesOf command = []) :
    Yields Tolerable mid.publishMarketData (fun e' => ∃ records,
      Operates e e' command records) := by
  obtain ⟨records, recorded, only⟩ := h
  have listed : ∀ i ∈ touched records, e.Listed i := by
    intro i hi
    obtain ⟨x, hx, rfl⟩ := List.mem_map.mp hi
    exact (only x hx).2.1
  have silent : records.flatMap Prod.snd = [] := by
    rw [List.flatMap_eq_nil_iff]
    exact fun x hx => (only x hx).2.2
  refine ⟨fun e' published => ⟨records, ⟨mid, e', recorded, published, .refl e'⟩, ?_, listed, ?_,
    ?_⟩, ?_⟩
  · intro i hi
    obtain ⟨x, hx, rfl⟩ := List.mem_map.mp hi
    exact (only x hx).1
  · rw [quiet, silent]
  · intro x hx t ht
    rw [(only x hx).2.2] at ht
    cases ht
  · intro p failed
    obtain ⟨e', published, -⟩ := publishMarketData_issues (recorded.ready m listed)
    cases published.symm.trans failed

end Clearing

theorem disconnectOrders_yields {e mid : Engine D} {command : Command D} (m : Current e)
    (s : String) (orders : List (OrderId × Order D))
    (about : ∀ entry ∈ orders, Concerns e command entry.2.instrumentId ∧
      e.Listed entry.2.instrumentId) (start : Clearing e command mid) :
    Yields Tolerable (mid.disconnectOrders s orders) (Clearing e command) := by
  unfold disconnectOrders
  refine (Yields.foldlM (fun rest now => (∀ entry ∈ rest, Concerns e command entry.2.instrumentId ∧
      e.Listed entry.2.instrumentId) ∧ Clearing e command now) ?_ orders mid ⟨about, start⟩).mono
    (fun _ done => done.2)
  rintro entry rest now ⟨about, clearing⟩
  have settled := clearing.settled m.settled
  obtain ⟨concerns, listed⟩ := about entry List.mem_cons_self
  refine Yields.call (fun _ h => removeFromBook_error settled h) ?_
  rintro ⟨removed, e1⟩ hremove
  refine ⟨fun e2 hrecord => ⟨fun x hx => about x (List.mem_cons_of_mem _ hx), ?_⟩,
    fun _ h => recordMarketData_error h⟩
  exact clearing.round concerns listed (removeFromBook_within hremove) hrecord

theorem disconnectQuotes_yields {e mid : Engine D} {command : Command D} (m : Current e)
    (s : String) (quotes : List (Int × QuotePair D))
    (about : ∀ entry ∈ quotes, Concerns e command entry.1 ∧ e.Listed entry.1)
    (start : Clearing e command mid) :
    Yields Tolerable (mid.disconnectQuotes s quotes) (Clearing e command) := by
  unfold disconnectQuotes
  refine (Yields.foldlM (fun rest now => (∀ entry ∈ rest, Concerns e command entry.1 ∧
      e.Listed entry.1) ∧ Clearing e command now) ?_ quotes mid ⟨about, start⟩).mono
    (fun _ done => done.2)
  rintro entry rest now ⟨about, clearing⟩
  have settled := clearing.settled m.settled
  obtain ⟨concerns, listed⟩ := about entry List.mem_cons_self
  refine Yields.bind (dropLegs_yields s entry.1 _ settled) ?_
  intro e1 touch
  refine ⟨fun e2 hrecord => ⟨fun x hx => about x (List.mem_cons_of_mem _ hx), ?_⟩,
    fun _ h => recordMarketData_error h⟩
  exact clearing.round concerns listed touch hrecord

theorem disconnect_yields {e : Engine D} (m : Current e) (registry : Registry e) (s : String)
    {orders : List (OrderId × Order D)} {quotes : List (Int × QuotePair D)}
    (visits : ∀ session, e.sessions.get? s = some session → Visits session orders quotes) :
    Yields Tolerable (e.sessionDisconnect s orders quotes)
      (fun e' => ∃ records, Operates e e' (.sessionDisconnect s) records) := by
  unfold sessionDisconnect
  cases hs : e.sessions.get? s with
  | none => exact .ok ⟨[], .idle m (.refl e) rfl⟩
  | some session =>
    obtain ⟨ordersPerm, quotesPerm⟩ := visits session hs
    have ordered : ∀ entry ∈ orders, Concerns e (.sessionDisconnect s) entry.2.instrumentId ∧
        e.Listed entry.2.instrumentId := by
      intro entry hentry
      have found := HashMap.mem_pairs.mp (ordersPerm.mem_iff.mp hentry)
      have recorded : e.order s entry.1 = some entry.2 := by
        rw [order, hs]
        exact found
      exact ⟨Or.inl ⟨entry.1, entry.2, recorded, rfl⟩, registry.orders s entry.1 entry.2 recorded⟩
    have quoted : ∀ entry ∈ quotes, Concerns e (.sessionDisconnect s) entry.1 ∧
        e.Listed entry.1 := by
      intro entry hentry
      have found := HashMap.mem_pairs.mp (quotesPerm.mem_iff.mp hentry)
      have paired : e.pair s entry.1 = some entry.2 := by
        rw [pair, hs]
        exact found
      exact ⟨Or.inr ⟨entry.2, paired⟩, registry.pairs s entry.1 entry.2 paired⟩
    have left : Aside e { e with
        sessions := e.sessions.erase s
        orderDates := HashMap.retain e.orderDates (fun key => !decide (key.1 = s)) } := by
      refine ⟨fun _ _ => rfl, fun s => ⟨s.instrument, s.filed, s.summed⟩, rfl, rfl, rfl, rfl, rfl,
        ?_⟩
      intro s' i p hp
      right
      by_cases same : s' = s
      · subst same
        simp [pair] at hp
      · exact ⟨p, by simpa [pair, SortedMap.get?_erase_ne, same] using hp⟩
    refine Yields.bind (disconnectOrders_yields m s orders ordered (.start left)) ?_
    intro e1 cleared
    refine Yields.bind (disconnectQuotes_yields m s quotes quoted cleared) ?_
    intro e2 cleared
    exact cleared.publish m rfl

/-- Expiring an order is at most one recorded change of its book. -/
theorem expireOrder_yields {e : Engine D} (settled : e.Settled) (key : String × OrderId) :
    Yields Tolerable (e.expireOrder key) (fun e' => Aside e e' ∨ ∃ o e1 e2,
      e.order key.1 key.2 = some o ∧ Within (· = o.instrumentId) e e1 ∧
      e1.recordMarketData o.instrumentId [] = .ok e2 ∧ Aside e2 e') := by
  have undated := dated_aside (e := e) (HashMap.remove e.orderDates key) rfl
  unfold expireOrder
  cases ho : e.order key.1 key.2 with
  | none =>
    have same : order { e with orderDates := HashMap.remove e.orderDates key } key.1 key.2 =
        none := ho
    simp only [same]
    exact .ok (Or.inl undated)
  | some o =>
    have same : order { e with orderDates := HashMap.remove e.orderDates key } key.1 key.2 =
        some o := ho
    simp only [same]
    split
    · exact .ok (Or.inl undated)
    · refine Yields.call (fun _ h => removeFromBook_error (undated.settled settled) h) ?_
      rintro ⟨removed, e1⟩ hremove
      have touch := (undated.aside.trans (removeFromBook_within hremove)).trans
        (syncRecord_aside e1 { o with state := .expired, remaining := 0 }).aside
      refine record_yields (fun e2 hrecord => ?_)
      exact .ok (Or.inr ⟨o, _, e2, rfl, touch, hrecord, sendStatusFor_aside ..⟩)

omit [LawfulDecimal D] in
/-- Records keep their places when orders expire. -/
theorem expireOrder_places {policy : FillPolicy} {e e' : Engine D}
    (c : Coherent policy e.view none) {key : String × OrderId} (h : e.expireOrder key = .ok e') :
    Coherent policy e'.view none ∧ ∀ s id r, e'.order s id = some r →
      ∃ r0, e.order s id = some r0 ∧ r0.instrumentId = r.instrumentId := by
  rcases expireOrder_cases c h with ⟨same, -⟩ | ⟨entry, book', execId, done⟩
  · refine ⟨same.view ▸ c, fun s id r hr => ⟨r, ?_, rfl⟩⟩
    rw [← hr]
    exact (congrFun (congrFun (congrArg View.record same.view) s) id).symm
  · refine ⟨done.coherent c, ?_⟩
    intro s id r hr
    have now : e'.order s id = (e.view.setRecord key.1 key.2 (some (lapsed entry))).record s id :=
      congrFun (congrFun (congrArg View.record done.effect.view) s) id
    rw [now] at hr
    by_cases same : s = key.1 ∧ id = key.2
    · obtain ⟨rfl, rfl⟩ := same
      simp only [View.setRecord, and_self, if_true] at hr
      obtain rfl := Option.some.inj hr
      exact ⟨entry, done.recorded, rfl⟩
    · simp only [View.setRecord, same, if_false] at hr
      exact ⟨r, hr, rfl⟩

theorem expire_yields {policy : FillPolicy} {e : Engine D} (c : Coherent policy e.view none)
    (m : Current e) (registry : Registry e) (today : Int) {keys : List (String × OrderId)}
    (visits : keys.Perm (e.expired today)) : Yields Tolerable (e.expireDayOrdersAt keys)
      (fun e' => ∃ records, Operates e e' (.expireDayOrdersAt today) records) := by
  have loop : Yields Tolerable (keys.foldlM expireOrder e)
      (Clearing e (.expireDayOrdersAt today)) := by
    refine (Yields.foldlM (fun rest now => (∀ key ∈ rest, key ∈ e.expired today) ∧
      Clearing e (.expireDayOrdersAt today) now ∧ Coherent policy now.view none ∧
      ∀ s id r, now.order s id = some r →
        ∃ r0, e.order s id = some r0 ∧ r0.instrumentId = r.instrumentId) ?_ keys e
      ⟨fun key hkey => visits.mem_iff.mp hkey, .start (.refl e), c,
        fun s id r hr => ⟨r, hr, rfl⟩⟩).mono (fun _ done => done.2.1)
    rintro key rest now ⟨due, clearing, c, places⟩
    have yields := expireOrder_yields (clearing.settled m.settled) key
    refine ⟨fun now' h => ⟨fun x hx => due x (List.mem_cons_of_mem _ hx), ?_, ?_⟩, yields.fails⟩
    · rcases yields.returns now' h with aside | ⟨o, e1, e2, ho, touch, record, aside⟩
      · exact clearing.aside aside
      · obtain ⟨r0, hr0, place⟩ := places key.1 key.2 o ho
        have concerns : Concerns e (.expireDayOrdersAt today) o.instrumentId :=
          ⟨key, due key List.mem_cons_self, r0, hr0, place⟩
        have listed := registry.orders key.1 key.2 r0 hr0
        rw [place] at listed
        exact (clearing.round concerns listed touch record).aside aside
    · obtain ⟨c', kept⟩ := expireOrder_places c h
      refine ⟨c', ?_⟩
      intro s id r hr
      obtain ⟨r1, hr1, same⟩ := kept s id r hr
      obtain ⟨r0, hr0, place⟩ := places s id r1 hr1
      exact ⟨r0, hr0, place.trans same⟩
  unfold expireDayOrdersAt
  exact loop.bind (fun mid clearing => clearing.publish m rfl)

end Lawful

end Engine

end RustTrader
