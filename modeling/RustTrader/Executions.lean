import RustTrader.MarketRuns

/-!
# Executions

The trades of a run, put one after the other on a tape. The fill reports sent
are the two parties of every trade on the tape, the buyer's first, and the
statistics of an instrument sum up the trades on it, so that what was bought and
what was sold are both its volume. Under the tiered policy the tape stays empty.
-/

namespace RustTrader

open Decimal

namespace Engine

variable {D : Type} [Decimal D]

/-- Volume, high, low and their flag are those of the trades. -/
structure Sums (trades : List (RawTrade D)) (figures : D × D × D × Bool) : Prop where
  volume : val figures.1 = (trades.map (fun t => val t.quantity)).sum
  flag : figures.2.2.2 = true ↔ trades ≠ []
  high : trades ≠ [] → (∃ t ∈ trades, t.price = figures.2.1) ∧ ∀ t ∈ trades, t.price ≤ figures.2.1
  low : trades ≠ [] → (∃ t ∈ trades, t.price = figures.2.2.1) ∧
    ∀ t ∈ trades, figures.2.2.1 ≤ t.price

theorem sums_nil [LawfulDecimal D] : Sums ([] : List (RawTrade D)) (0, 0, 0, false) := by
  refine ⟨?_, ?_, ?_, ?_⟩
  · exact LawfulDecimal.val_zero
  · simp
  · intro h
    exact absurd rfl h
  · intro h
    exact absurd rfl h

/-- The greatest value of a list, with one more element. -/
theorem greatest_append {α β : Type} [LinearOrder β] {f : α → β} {l : List α} {high : β} (a : α)
    (h : (∃ x ∈ l, f x = high) ∧ ∀ x ∈ l, f x ≤ high) :
    (∃ x ∈ l ++ [a], f x = if high < f a then f a else high) ∧
      ∀ x ∈ l ++ [a], f x ≤ if high < f a then f a else high := by
  obtain ⟨⟨b, mem, reached⟩, bound⟩ := h
  by_cases above : high < f a
  · rw [if_pos above]
    refine ⟨⟨a, by simp, rfl⟩, ?_⟩
    intro x hx
    rcases List.mem_append.mp hx with hx | hx
    · exact (bound x hx).trans above.le
    · rw [List.mem_singleton.mp hx]
  · rw [if_neg above]
    refine ⟨⟨b, List.mem_append_left _ mem, reached⟩, ?_⟩
    intro x hx
    rcases List.mem_append.mp hx with hx | hx
    · exact bound x hx
    · rw [List.mem_singleton.mp hx]
      exact not_lt.mp above

/-- One more trade. -/
theorem Sums.trade [ExactDecimal D] {trades : List (RawTrade D)} {stats stats' : Statistics D}
    (h : Sums trades stats.traded) {t : RawTrade D}
    (step : stats.trade t.price t.quantity = .ok stats') :
    Sums (trades ++ [t]) stats'.traded := by
  unfold Statistics.trade at step
  obtain ⟨volume, hadd, step⟩ := Exec.bind_ok.mp step
  have sum : val volume = ((trades ++ [t]).map (fun t => val t.quantity)).sum := by
    have before : val stats.volume = (trades.map (fun t => val t.quantity)).sum := h.volume
    rw [val_add hadd, before]
    simp
  by_cases any : stats.hasHighLow = true
  · have some_ : trades ≠ [] := h.flag.mp any
    simp only [any, Bool.not_true, Bool.false_eq_true, if_false] at step
    cases step
    refine ⟨sum, by simp [Statistics.traded], ?_, ?_⟩
    · intro _
      exact greatest_append (f := RawTrade.price) t (h.high some_)
    · intro _
      -- the lowest price is the greatest in the dual order
      exact greatest_append (β := Dᵒᵈ) (f := RawTrade.price) t (h.low some_)
  · obtain rfl : trades = [] := by
      by_contra some_
      exact any (h.flag.mpr some_)
    simp only [any, Bool.not_false, if_true] at step
    cases step
    refine ⟨sum, by simp [Statistics.traded], ?_, ?_⟩
    · intro _
      simp [Statistics.traded]
    · intro _
      simp [Statistics.traded]

theorem Sums.trades [ExactDecimal D] (more : List (RawTrade D)) :
    ∀ {trades : List (RawTrade D)} {stats stats' : Statistics D}, Sums trades stats.traded →
      more.foldlM (fun stats t => stats.trade t.price t.quantity) stats = .ok stats' →
      Sums (trades ++ more) stats'.traded := by
  induction more with
  | nil =>
    intro trades stats stats' h run
    cases run
    rwa [List.append_nil]
  | cons t more ih =>
    intro trades stats stats' h run
    rw [List.foldlM_cons] at run
    obtain ⟨mid, hmid, run⟩ := Exec.bind_ok.mp run
    have rest := ih (h.trade hmid) run
    rwa [List.append_assoc] at rest

/-- Recording trades sums them up for their instrument, and for no other. -/
theorem recordMarketData_sums [ExactDecimal D] {e e' : Engine D} {i : Int}
    {trades more : List (RawTrade D)} (h : Sums trades (e.traded i))
    (record : e.recordMarketData i more = .ok e') :
    Sums (trades ++ more) (e'.traded i) ∧ ∀ j, j ≠ i → e'.traded j = e.traded j := by
  unfold recordMarketData at record
  obtain ⟨stats, fold, record⟩ := Exec.bind_ok.mp record
  cases record
  refine ⟨?_, ?_⟩
  · have start : Sums trades ((HashMap.get? e.statsCache i).getD
        (Statistics.initial (e.symbolFor i))).traded := by
      unfold traded at h
      cases hc : HashMap.get? e.statsCache i with
      | none =>
        rw [hc] at h
        exact h
      | some old =>
        rw [hc] at h
        exact h
    have sums := start.trades more fold
    unfold traded
    simpa using sums
  · intro j hj
    unfold traded
    rw [HashMap.get?_set_ne _ _ hj]

/-- The trades of one instrument. -/
def tradesOn (i : Int) (trades : List (RawTrade D)) : List (RawTrade D) :=
  trades.filter (fun t => t.buyer.instrumentId = i)

omit [Decimal D] in
theorem tradesOn_append (i : Int) (ts us : List (RawTrade D)) :
    tradesOn i (ts ++ us) = tradesOn i ts ++ tradesOn i us := List.filter_append ..

omit [Decimal D] in
theorem tradesOn_paired {i j : Int} {trades : List (RawTrade D)}
    (paired : ∀ t ∈ trades, Paired j t) :
    tradesOn i trades = if j = i then trades else [] := by
  unfold tradesOn
  by_cases h : j = i
  · rw [if_pos h]
    apply List.filter_eq_self.mpr
    intro t ht
    rw [(paired t ht).bought]
    exact decide_eq_true h
  · rw [if_neg h]
    apply List.filter_eq_nil_iff.mpr
    intro t ht
    rw [(paired t ht).bought]
    simpa using h

theorem Within.traded {P : Int → Prop} {e e' : Engine D} (h : Within P e e') :
    e'.traded = e.traded := by
  funext i
  unfold Engine.traded
  rw [h.cache]

/-- Recorded rounds add their trades to what the statistics sum up. -/
theorem Recorded.sums [ExactDecimal D] {e e' : Engine D}
    {records : List (Int × List (RawTrade D))} (h : Recorded e records e') :
    ∀ {trades : List (RawTrade D)}, (∀ x ∈ records, ∀ t ∈ x.2, Paired x.1 t) →
      (∀ i, Sums (tradesOn i trades) (e.traded i)) →
      ∀ i, Sums (tradesOn i (trades ++ records.flatMap Prod.snd)) (e'.traded i) := by
  induction h with
  | idle aside =>
    intro trades _ sums i
    rw [aside.traded]
    simpa using sums i
  | @round e e1 e2 e' j more records touch record rest ih =>
    intro trades paired sums i
    have here : ∀ i, Sums (tradesOn i (trades ++ more)) (e2.traded i) := by
      intro i
      have before := sums j
      rw [← touch.traded] at before
      obtain ⟨added, others⟩ := recordMarketData_sums before record
      rw [tradesOn_append, tradesOn_paired (paired _ List.mem_cons_self)]
      by_cases hi : j = i
      · subst hi
        rw [if_pos rfl]
        exact added
      · rw [if_neg hi, List.append_nil, others i (fun same => hi same.symm), touch.traded]
        exact sums i
    have later := ih (fun x hx => paired x (List.mem_cons_of_mem _ hx)) here i
    rw [List.flatMap_cons]
    rwa [List.append_assoc] at later

/-- The fills among some reports: whose they are, at what price, how much. -/
def executions (reports : List (Report D)) : List (Order D × D × D) :=
  reports.filterMap (fun report =>
    match report with
    | .fill order _ price quantity _ _ => some (order, price, quantity)
    | .status .. => none)

omit [Decimal D] in
theorem executions_append (m n : List (Report D)) :
    executions (m ++ n) = executions m ++ executions n := List.filterMap_append ..

/-- When every party is registered, every one of them gets its fill. -/
theorem FillNews.executions {e : Engine D} {p : List (Order D × D × D)}
    {fills : List (Report D)} (news : FillNews e p fills)
    (registered : ∀ x ∈ p, e.Registered x.1.sessionId) : executions fills = p := by
  have all : p.filter (fun x => e.sessions.contains x.1.sessionId) = p := by
    apply List.filter_eq_self.mpr
    intro x hx
    exact registered_iff.mpr (registered x hx)
  unfold FillNews at news
  rw [all] at news
  induction news with
  | nil => rfl
  | cons told _ ih =>
    obtain ⟨execId, rfl⟩ := told
    have rest := ih (fun x hx => registered x (List.mem_cons_of_mem _ hx))
      (by
        apply List.filter_eq_self.mpr
        intro x hx
        exact registered_iff.mpr (registered x (List.mem_cons_of_mem _ hx)))
    change _ :: Engine.executions _ = _
    rw [rest]

theorem executions_closing (e : Engine D) (trades : List (RawTrade D)) (orderType : OrderType)
    (final : Order D) (execId : String) :
    executions (closing e trades orderType final execId) = [] := by
  unfold closing
  split <;> rfl

theorem lasting_registered (e : Engine D) :
    Lasting (fun o : Order D => e.Registered o.sessionId) :=
  lasting_labels fun owner _ => e.Registered owner

/-- Whoever has a known order is registered. -/
theorem registered_of_known {policy : FillPolicy} {e : Engine D}
    (c : Coherent policy e.view none) (o : Order D) (h : e.view.Known o) :
    e.Registered o.sessionId := by
  rcases h with recorded | ⟨i, side, ho⟩
  · exact registered_of_order recorded
  · have owned := c.owned i side o ho
    by_cases quoted : o.id = quoteOrderId
    · obtain ⟨leg, hleg, -⟩ := owned.legged quoted
      exact registered_of_leg hleg
    · exact registered_of_order (owned.record quoted)

theorem parties_registered {e : Engine D} {trades : List (RawTrade D)}
    (h : ∀ t ∈ trades, e.Registered t.buyer.sessionId ∧ e.Registered t.seller.sessionId) :
    ∀ x ∈ parties trades, e.Registered x.1.sessionId := by
  intro x hx
  obtain ⟨t, ht, member⟩ := List.mem_flatMap.mp hx
  rcases List.mem_cons.mp member with rfl | member
  · exact (h t ht).1
  · rw [List.mem_singleton.mp member]
    exact (h t ht).2

/-- The fill reports an operation sends are those of its trades. -/
def Fulfils (e e' : Engine D) (command : Command D) : Prop :=
  ∃ news, e'.sent = e.sent ++ news ∧ executions news = parties (e.tradesOf command)

theorem Fulfils.idle {e e' : Engine D} {command : Command D} {news : List (Report D)}
    (sent : e'.sent = e.sent ++ news) (silent : executions news = [])
    (quiet : e.tradesOf command = []) : Fulfils e e' command :=
  ⟨news, sent, by rw [silent, quiet]; rfl⟩

section Lawful

variable [LawfulDecimal D]

omit [LawfulDecimal D] in
theorem createReal_reply {e e' : Engine D} {new : NewOrder D} {order : Order D}
    {err : EngineError} (h : e.createReal new order = .ok (.error err, e')) : False := by
  unfold createReal at h
  obtain ⟨⟨trades, final, e1⟩, -, h⟩ := Exec.bind_ok.mp h
  obtain ⟨e2, -, h⟩ := Exec.bind_ok.mp h
  obtain ⟨e3, -, h⟩ := Exec.bind_ok.mp h
  cases final with
  | none => cases h
  | some final =>
    dsimp only at h
    split at h
    · cases h
    · cases h

omit [LawfulDecimal D] in
/-- An admitted order is accepted. -/
theorem createOrder_accepts {e e' : Engine D} (policy : e.fillPolicy = .real) {today : Int}
    {s : String} {new : NewOrder D} {reply : Except EngineError OrderId}
    (hc : e.checkCreate s new = .ok ())
    (h : e.createOrder today s new = .ok (reply, e')) : ∀ err, reply ≠ .error err := by
  rintro err rfl
  obtain ⟨valid, known, session, hs, fresh⟩ := checkCreate_ok hc
  have hs' : (e.numberOrder s new).2.sessions.get? s = some session := hs
  have hid : (e.numberOrder s new).1.id = new.id := incoming_id e s new
  unfold createOrder at h
  rw [hc, policy] at h
  change acceptOrder _ _ _ _ none = _ at h
  unfold acceptOrder at h
  simp only [hs', hid] at h
  exact createReal_reply h

omit [LawfulDecimal D] in
/-- An admitted quote is accepted. -/
theorem quote_accepts {e e' : Engine D} {s : String} {i : Int}
    {bidPrice bidQuantity askPrice askQuantity : D} {session : Session D} {err : EngineError}
    (hc : e.checkQuote s i bidPrice bidQuantity askPrice askQuantity = .ok session)
    (h : e.quote s i bidPrice bidQuantity askPrice askQuantity = .ok (.error err, e')) : False := by
  unfold quote at h
  rw [hc] at h
  obtain ⟨e1, -, h⟩ := Exec.bind_ok.mp h
  obtain ⟨⟨bidTrades, bid, e2⟩, -, h⟩ := Exec.bind_ok.mp h
  obtain ⟨⟨askTrades, ask, e3⟩, -, h⟩ := Exec.bind_ok.mp h
  obtain ⟨found, -, h⟩ := Exec.bind_ok.mp h
  obtain ⟨e4, -, h⟩ := Exec.bind_ok.mp h
  obtain ⟨e5, -, h⟩ := Exec.bind_ok.mp h
  cases h

omit [LawfulDecimal D] in
theorem tradesOf_quote_idle {e : Engine D} {s : String} {i : Int}
    {bidPrice bidQuantity askPrice askQuantity : D} {err : EngineError}
    (h : e.checkQuote s i bidPrice bidQuantity askPrice askQuantity = .error err) :
    e.tradesOf (.quote s i bidPrice bidQuantity askPrice askQuantity) = [] := by
  unfold tradesOf runTrades
  dsimp only
  rw [h]
  rfl

theorem create_fulfils {e e' : Engine D} (c : Coherent .real e.view none)
    (policy : e.fillPolicy = .real) {today : Int} {s : String} {new : NewOrder D}
    {reply : Except EngineError OrderId} (h : e.createOrder today s new = .ok (reply, e')) :
    Fulfils e e' (.createOrder today s new) := by
  have lasting := lasting_registered e
  have known := registered_of_known c
  cases hc : e.checkCreate s new with
  | error err =>
    have kept : e' = e := by
      unfold createOrder at h
      rw [hc] at h
      cases h
      rfl
    subst kept
    exact .idle (List.append_nil _).symm rfl (tradesOf_create_idle (Or.inr ⟨err, hc⟩))
  | ok u =>
    rcases createReal_cases c policy h with
      ⟨err, refused, -⟩ | ⟨-, trades, left, final, book', fills, execId, done⟩
    · exact absurd refused (createOrder_accepts policy hc h err)
    · have home : e.Registered (e.incoming s new).sessionId := by
        rw [incoming_sessionId]
        exact done.registered
      obtain ⟨-, parties, -⟩ := done.added.carries lasting (known_opened known) home
      refine ⟨_, done.effect.sent, ?_⟩
      rw [executions_append, executions_closing, List.append_nil,
        tradesOf_create policy done.checked done.added.ran]
      exact done.filled.executions (parties_registered parties)

theorem modify_fulfils {e e' : Engine D} (c : Coherent .real e.view none)
    (policy : e.fillPolicy = .real) {today : Int} {s : String} {origId newId : OrderId}
    {orderType : OrderType} {price quantity : D} {reply : Except EngineError Unit}
    (h : e.modifyOrderWithType today s origId newId orderType price quantity = .ok (reply, e')) :
    Fulfils e e' (.modifyOrderWithType today s origId newId orderType price quantity) := by
  have lasting := lasting_registered e
  have known := registered_of_known c
  rcases modifyReal_cases c policy h with
    ⟨⟨_, -, -, rfl⟩, refused⟩ | ⟨-, e1, entry, order, remaining, book1, k, done⟩
  · refine .idle (List.append_nil _).symm rfl (tradesOf_modify_idle (Or.inr ?_))
    cases hc : e'.checkModify s origId newId orderType price quantity with
    | error err => exact ⟨err, rfl⟩
    | ok entry => exact absurd hc (refused entry)
  · have traded := k.tradesOf policy today
    cases done with
    | exhausted done execId effect =>
      rw [if_pos done] at traded
      exact .idle effect.sent rfl traded
    | matched open_ trades left final book' fills execId added filled effect =>
      rw [if_neg open_, added.ran] at traded
      have home : e.Registered order.sessionId := by
        rw [k.session c]
        exact k.registered
      obtain ⟨-, parties, -⟩ := added.carries lasting (known_rekeyed c k known) home
      refine ⟨_, effect.sent, ?_⟩
      rw [traded]
      exact filled.executions (parties_registered parties)

theorem quote_fulfils {e e' : Engine D} (c : Coherent .real e.view none) {s : String} {i : Int}
    {bidPrice bidQuantity askPrice askQuantity : D} {reply : Except EngineError Unit}
    (h : e.quote s i bidPrice bidQuantity askPrice askQuantity = .ok (reply, e')) :
    Fulfils e e' (.quote s i bidPrice bidQuantity askPrice askQuantity) := by
  rcases quote_cases c h with ⟨err, rfl, -, rfl⟩ | ⟨-, v, trades, fills, done, run⟩
  · refine .idle (List.append_nil _).symm rfl ?_
    cases hc : e'.checkQuote s i bidPrice bidQuantity askPrice askQuantity with
    | error err => exact tradesOf_quote_idle hc
    | ok session => exact (quote_accepts hc h).elim
  · have traded := run.tradesOf
    obtain ⟨session, _, _, _, _, _, _, _, checked, -⟩ := run
    have home : e.Registered s := ⟨session, (checkQuote_ok checked).registered⟩
    obtain ⟨-, parties⟩ := done.parties (lasting_registered e) (registered_of_known c)
      (fun exchangeId order _ terms _ _ _ => by
        have owner : e.Registered order.sessionId := terms.owner ▸ home
        exact ⟨fun _ => owner, fun _ => owner, fun _ => owner⟩)
    refine ⟨fills, done.effect.sent, ?_⟩
    rw [traded]
    exact done.filled.executions (parties_registered parties)

omit [LawfulDecimal D] in
theorem expire_silent {policy : FillPolicy} {e e' : Engine D} (c : Coherent policy e.view none)
    {keys : List (String × OrderId)} (h : e.expireDayOrdersAt keys = .ok e') :
    ∃ news, e'.sent = e.sent ++ news ∧ executions news = [] := by
  let R : Engine D → Engine D → Prop :=
    fun e e' => ∃ news, e'.sent = e.sent ++ news ∧ executions news = []
  suffices run : R e e' ∧ Coherent policy e'.view none from run.1
  refine expire_run (fun e => ⟨[], (List.append_nil _).symm, rfl⟩) ?_ ?_ ?_ keys c h
  · rintro e e' e'' ⟨m, sent, silent⟩ ⟨n, sent', silent'⟩
    refine ⟨m ++ n, ?_, ?_⟩
    · rw [sent', sent, List.append_assoc]
    · rw [executions_append, silent, silent']
      rfl
  · intro e e' effect
    exact ⟨[], effect.sent, rfl⟩
  · intro e e' s id entry book' execId _ done
    exact ⟨_, done.effect.sent, rfl⟩

/-- Every step sends the fills of its trades, and no others. -/
theorem step_fulfils {e e' : Engine D} {command : Command D} (c : Coherent .real e.view none)
    (policy : e.fillPolicy = .real) (step : Step e command e') : Fulfils e e' command := by
  cases step with
  | createInstrument symbol =>
    obtain ⟨-, -, sent, -⟩ := view_createInstrument e symbol
    exact .idle (sent.trans (List.append_nil _).symm) rfl rfl
  | registerSession s free => exact .idle (List.append_nil _).symm rfl rfl
  | sessionDisconnect _ s orders quotes visits returns =>
    obtain ⟨departed, -⟩ := sessionDisconnect_spec c visits returns
    exact .idle (departed.sent.trans (List.append_nil _).symm) rfl rfl
  | createOrder _ today s new reply returns => exact create_fulfils c policy returns
  | modifyOrderWithType _ today s origId newId orderType price quantity reply returns =>
    exact modify_fulfils c policy returns
  | cancelOrderWithId _ s origId clOrdId reply returns =>
    rcases cancel_cases c returns with ⟨_, -, -, rfl⟩ | ⟨-, entry, book', execId, done⟩
    · exact .idle (List.append_nil _).symm rfl rfl
    · exact .idle done.effect.sent rfl rfl
  | quote _ s i bidPrice bidQuantity askPrice askQuantity reply returns =>
    exact quote_fulfils c returns
  | expireDayOrdersAt _ today keys visits returns =>
    obtain ⟨news, sent, silent⟩ := expire_silent c returns
    exact .idle sent silent rfl

end Lawful

/-- A run and the trades its commands made, in their order. -/
inductive Taped (policy : FillPolicy) : Engine D → List (RawTrade D) → Prop
  | start : Taped policy (withFillPolicy policy) []
  | step {e e' : Engine D} {tape : List (RawTrade D)} {command : Command D}
      (run : Taped policy e tape) (step : Step e command e') :
      Taped policy e' (tape ++ e.tradesOf command)

theorem Taped.reachable {policy : FillPolicy} {e : Engine D} {tape : List (RawTrade D)}
    (h : Taped policy e tape) : Reachable policy e := by
  induction h with
  | start => exact .refl
  | step _ step ih => exact ih.tail ⟨_, trivial, step⟩

theorem reachable_taped {policy : FillPolicy} {e : Engine D} (h : Reachable policy e) :
    ∃ tape, Taped policy e tape := by
  refine Reachable.invariant (P := fun e => ∃ tape, Taped policy e tape) ⟨[], .start⟩ ?_ h
  rintro e command e' ⟨tape, run⟩ step
  exact ⟨_, run.step step⟩

/-- The figures of an instrument nothing was traded on. -/
def untraded : D × D × D × Bool := (0, 0, 0, false)

/-- The statistics sum up the tape, in the cache and in what is published. -/
structure Figures (e : Engine D) (tape : List (RawTrade D)) : Prop where
  paired : ∀ t ∈ tape, Paired t.buyer.instrumentId t
  sums : ∀ i, Sums (tradesOn i tape) (e.traded i)
  shown : ∀ i snap, e.marketData.snapshot i = some snap → snap.stats.traded = e.traded i
  unlisted : ∀ i, ¬ e.Listed i → e.traded i = untraded

theorem start_figures [LawfulDecimal D] (policy : FillPolicy) :
    Figures (withFillPolicy policy : Engine D) [] := by
  refine ⟨?_, fun _ => sums_nil, ?_, fun _ _ => rfl⟩
  · intro t ht
    cases ht
  · intro i snap hsnap
    cases hsnap

section Exact

variable [ExactDecimal D]

omit [ExactDecimal D] in
/-- A round leaves the figures of the other instruments alone. -/
theorem Marketed.untouched {e e' : Engine D} {records : List (Int × List (RawTrade D))}
    (h : Marketed e e' records) {i : Int} (hi : i ∉ touched records) :
    e'.traded i = e.traded i := by
  obtain ⟨mid, mid', recorded, published, aside⟩ := h
  rw [aside.traded, publishMarketData_traded published]
  unfold traded
  rw [recorded.kept.cache i hi]

theorem Operates.figures {e e' : Engine D} {command : Command D}
    {records : List (Int × List (RawTrade D))} (m : Current e)
    (done : Operates e e' command records) {tape : List (RawTrade D)} (h : Figures e tape) :
    Figures e' (tape ++ e.tradesOf command) := by
  obtain ⟨current, renewed⟩ := done.marketed.current m done.listed
  have untouched : ∀ i, i ∉ touched records → e'.traded i = e.traded i :=
    fun i => done.marketed.untouched
  refine ⟨?_, ?_, ?_, ?_⟩
  · intro t ht
    rcases List.mem_append.mp ht with ht | ht
    · exact h.paired t ht
    · rw [done.trades] at ht
      obtain ⟨x, hx, member⟩ := List.mem_flatMap.mp ht
      have paired := done.paired x hx t member
      rw [paired.bought]
      exact paired
  · intro i
    obtain ⟨mid, mid', recorded, published, aside⟩ := done.marketed
    rw [aside.traded, publishMarketData_traded published, done.trades]
    exact recorded.sums done.paired h.sums i
  · intro i snap hsnap
    by_cases versioned : snap.version = 0
    · have hi : i ∉ touched records := by
        intro hi
        obtain ⟨snap', hsnap', later⟩ := renewed.renewed i hi
        obtain rfl := Option.some.inj (hsnap.symm.trans hsnap')
        omega
      rw [untouched i hi]
      exact h.shown i snap ((renewed.spared i hi).1.symm.trans hsnap)
    · have cached := (current.faithful i snap hsnap versioned).stats
      unfold traded
      rw [cached]
      rfl
  · intro i absent
    have before : ¬ e.Listed i := fun listed => absent (Marketed.listed renewed listed)
    have hi : i ∉ touched records := fun hi => before (done.listed i hi)
    rw [untouched i hi]
    exact h.unlisted i before

omit [ExactDecimal D] in
/-- A new slot shows no trades. -/
theorem snapshot_createInstrument_stats (e : Engine D) (symbol : String) {i : Int}
    (absent : e.marketData.snapshot i = none) {snap : InstrumentSnapshot D}
    (h : (e.createInstrument symbol).2.marketData.snapshot i = some snap) :
    snap.stats.traded = untraded := by
  unfold createInstrument at h
  cases hs : e.instruments.getBySymbol symbol with
  | some instrument =>
    rw [hs] at h
    cases absent.symm.trans h
  | none =>
    rw [hs] at h
    unfold MarketDataPublisher.register MarketDataPublisher.snapshot at h
    unfold MarketDataPublisher.snapshot at absent
    by_cases hi : i = e.instruments.nextId + 1
    · subst hi
      simp only [HashMap.contains, absent, Option.isSome_none, Bool.false_eq_true, if_false,
        HashMap.get?_set_self] at h
      rw [← Option.some.inj h]
      rfl
    · dsimp only at h
      split at h
      · cases absent.symm.trans h
      · rw [HashMap.get?_set_ne _ _ hi] at h
        cases absent.symm.trans h

theorem step_figures {policy : FillPolicy} {e e' : Engine D} {command : Command D}
    (c : Coherent policy e.view none) (hp : e.fillPolicy = policy) (m : Current e)
    (registry : Registry e) {tape : List (RawTrade D)} (h : Figures e tape)
    (step : Step e command e') : Figures e' (tape ++ e.tradesOf command) := by
  by_cases creates : ∃ symbol, command = .createInstrument symbol
  · obtain ⟨symbol, rfl⟩ := creates
    cases step
    have traded_ : (e.createInstrument symbol).2.traded = e.traded := by
      unfold traded createInstrument
      cases e.instruments.getBySymbol symbol <;> rfl
    have quiet : e.tradesOf (.createInstrument symbol) = [] := rfl
    rw [quiet, List.append_nil]
    refine ⟨h.paired, ?_, ?_, ?_⟩
    · intro i
      rw [traded_]
      exact h.sums i
    · intro i snap hsnap
      rw [traded_]
      cases hold : e.marketData.snapshot i with
      | none =>
        rw [h.unlisted i (by rintro ⟨old, hold'⟩; cases hold.symm.trans hold')]
        exact snapshot_createInstrument_stats e symbol hold hsnap
      | some old =>
        rcases snapshot_createInstrument e symbol i with same | ⟨absent, -⟩
        · exact h.shown i snap (same.symm.trans hsnap)
        · cases absent.symm.trans hold
    · intro i absent
      rw [traded_]
      refine h.unlisted i ?_
      rintro ⟨old, hold⟩
      exact absent ((createInstrument_current m registry symbol).2.1 i ⟨old, hold⟩)
  · have yields := outcome_yields c hp m registry (step_iff_outcome.mp step)
      (fun symbol same => creates ⟨symbol, same⟩)
    obtain ⟨records, done⟩ := yields.returns e' rfl
    exact done.figures m h

theorem Taped.figures {policy : FillPolicy} {e : Engine D} {tape : List (RawTrade D)}
    (h : Taped policy e tape) : Figures e tape := by
  induction h with
  | start => exact start_figures policy
  | step run step ih =>
    obtain ⟨c, hp⟩ := reachable_coherent run.reachable
    obtain ⟨m, registry⟩ := reachable_current run.reachable
    exact step_figures c hp m registry ih step

omit [ExactDecimal D] in
theorem Taped.fills [LawfulDecimal D] {e : Engine D} {tape : List (RawTrade D)}
    (h : Taped .real e tape) : executions e.sent = parties tape := by
  induction h with
  | start => rfl
  | step run step ih =>
    obtain ⟨c, hp⟩ := reachable_coherent run.reachable
    obtain ⟨news, sent, fills⟩ := step_fulfils c hp step
    rw [sent, executions_append, ih, fills]
    exact List.flatMap_append.symm

omit [ExactDecimal D] in
theorem tradesOf_tiered {e : Engine D} (policy : e.fillPolicy = .tiered) (command : Command D) :
    e.tradesOf command = [] := by
  cases command with
  | createOrder today s new => exact tradesOf_create_idle (Or.inl policy)
  | modifyOrderWithType today s origId newId orderType price quantity =>
    exact tradesOf_modify_idle (Or.inl policy)
  | quote s i bidPrice bidQuantity askPrice askQuantity =>
    have refused : e.checkQuote s i bidPrice bidQuantity askPrice askQuantity =
        .error .quoteNotSupportedInTiered := by
      unfold checkQuote
      rw [if_pos policy]
    exact tradesOf_quote_idle refused
  | _ => rfl

omit [ExactDecimal D] in
theorem Taped.quiet [LawfulDecimal D] {e : Engine D} {tape : List (RawTrade D)}
    (h : Taped .tiered e tape) : tape = [] := by
  induction h with
  | start => rfl
  | step run step ih =>
    rw [ih, tradesOf_tiered (reachable_coherent run.reachable).2]
    rfl

/-- What was filled of the orders and quotes on one side of an instrument. -/
def filledOn (side : Side) (i : Int) (reports : List (Report D)) : ℚ :=
  (((executions reports).filter (fun x => x.1.side = side ∧ x.1.instrumentId = i)).map
    (fun x => val x.2.2)).sum

omit [ExactDecimal D] in
theorem parties_on (side : Side) (i : Int) {tape : List (RawTrade D)}
    (paired : ∀ t ∈ tape, Paired t.buyer.instrumentId t) :
    (((parties tape).filter (fun x => x.1.side = side ∧ x.1.instrumentId = i)).map
      (fun x => val x.2.2)).sum = ((tradesOn i tape).map (fun t => val t.quantity)).sum := by
  induction tape with
  | nil => rfl
  | cons t tape ih =>
    have rest := ih (fun x hx => paired x (List.mem_cons_of_mem _ hx))
    have pair := paired t List.mem_cons_self
    have split : parties (t :: tape) =
        [(t.buyer, t.price, t.quantity), (t.seller, t.price, t.quantity)] ++ parties tape := rfl
    have here : tradesOn i (t :: tape) = tradesOn i [t] ++ tradesOn i tape :=
      tradesOn_append i [t] tape
    rw [split, here, List.filter_append, List.map_append, List.sum_append, List.map_append,
      List.sum_append, rest]
    congr 1
    have sold : t.seller.instrumentId = t.buyer.instrumentId := pair.sold
    by_cases hi : t.buyer.instrumentId = i
    · cases side <;> simp [tradesOn, pair.buyer, pair.seller, sold, hi]
    · cases side <;> simp [tradesOn, sold, hi]

/-- Every trade is reported to its buyer and its seller, and the statistics of
an instrument are those of its trades; nothing trades under the tiered policy. -/
theorem executions_conserved {policy : FillPolicy} {e : Engine D} {tape : List (RawTrade D)}
    (h : Taped policy e tape) :
    (∀ i, Sums (tradesOn i tape) (e.traded i) ∧
      ∀ snap, e.marketData.snapshot i = some snap → snap.stats.traded = e.traded i) ∧
    (policy = .real → executions e.sent = parties tape ∧
      ∀ i, filledOn .buy i e.sent = val (e.traded i).1 ∧
        filledOn .sell i e.sent = val (e.traded i).1) ∧
    (policy = .tiered → ∀ i, (e.traded i).1 = 0 ∧ (e.traded i).2.2.2 = false) := by
  have figures := h.figures
  refine ⟨fun i => ⟨figures.sums i, figures.shown i⟩, ?_, ?_⟩
  · rintro rfl
    have fills := h.fills
    refine ⟨fills, ?_⟩
    intro i
    have both : ∀ side, filledOn side i e.sent = val (e.traded i).1 := by
      intro side
      unfold filledOn
      rw [fills, parties_on side i figures.paired]
      exact (figures.sums i).volume.symm
    exact ⟨both .buy, both .sell⟩
  · rintro rfl i
    obtain rfl := h.quiet
    have sums := figures.sums i
    constructor
    · refine val_inj.mp ?_
      rw [sums.volume, LawfulDecimal.val_zero]
      rfl
    · cases hf : (e.traded i).2.2.2 with
      | false => rfl
      | true => exact absurd rfl (sums.flag.mp hf)

end Exact

theorem executions_conserved_sample : ∃ tape, Taped .real (played .real sampleRun) tape ∧
    executions (played .real sampleRun).sent = parties tape ∧ tape.length = 2 ∧
    filledOn .buy 1 (played .real sampleRun).sent = 6 := by
  obtain ⟨tape, run⟩ := reachable_taped (played_reachable .real sampleRun)
  obtain ⟨-, real, -⟩ := executions_conserved run
  obtain ⟨fills, sides⟩ := real rfl
  have four : (executions (played .real sampleRun).sent).length = 4 := by decide +kernel
  have volume : ((played .real sampleRun).traded 1).1 = 6 := by decide +kernel
  refine ⟨tape, run, fills, ?_, (sides 1).1.trans volume⟩
  rw [fills] at four
  simp [parties] at four
  omega

end Engine

end RustTrader
