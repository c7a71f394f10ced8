import RustTrader.MarketEffects
import RustTrader.Lineage

/-!
# Published market data

Along every run, after every operation, what readers see is the trading state:
every snapshot that has a version shows the current book of its instrument, and
an operation leaves the snapshots of the instruments it is not about alone. The
publications never fail, whatever else may stop an operation.
-/

namespace RustTrader

open Decimal

namespace Engine

variable {D : Type} [Decimal D]

/-- The outcomes of a command, those that end in a panic included. -/
inductive Outcome : Engine D → Command D → Exec (Engine D) → Prop
  | createInstrument (e : Engine D) (symbol : String) :
      Outcome e (.createInstrument symbol) (.ok (e.createInstrument symbol).2)
  | registerSession (e : Engine D) (session : String) (fresh : ¬ e.Registered session) :
      Outcome e (.registerSession session) (.ok (e.registerSession session))
  | sessionDisconnect (e : Engine D) (session : String) (orders : List (OrderId × Order D))
      (quotes : List (Int × QuotePair D))
      (visits : ∀ s, e.sessions.get? session = some s → Visits s orders quotes) :
      Outcome e (.sessionDisconnect session) (e.sessionDisconnect session orders quotes)
  | createOrder (e : Engine D) (today : Int) (session : String) (new : NewOrder D) :
      Outcome e (.createOrder today session new)
        (e.createOrder today session new >>= fun r => pure r.2)
  | modifyOrderWithType (e : Engine D) (today : Int) (session : String) (origId newId : OrderId)
      (orderType : OrderType) (price quantity : D) :
      Outcome e (.modifyOrderWithType today session origId newId orderType price quantity)
        (e.modifyOrderWithType today session origId newId orderType price quantity >>=
          fun r => pure r.2)
  | cancelOrderWithId (e : Engine D) (session : String) (origId clOrdId : OrderId) :
      Outcome e (.cancelOrderWithId session origId clOrdId)
        (e.cancelOrderWithId session origId clOrdId >>= fun r => pure r.2)
  | quote (e : Engine D) (session : String) (instrumentId : Int)
      (bidPrice bidQuantity askPrice askQuantity : D) :
      Outcome e (.quote session instrumentId bidPrice bidQuantity askPrice askQuantity)
        (e.quote session instrumentId bidPrice bidQuantity askPrice askQuantity >>=
          fun r => pure r.2)
  | expireDayOrdersAt (e : Engine D) (today : Int) (keys : List (String × OrderId))
      (visits : keys.Perm (e.expired today)) :
      Outcome e (.expireDayOrdersAt today) (e.expireDayOrdersAt keys)

/-- A step is an outcome without a panic. -/
theorem step_iff_outcome {e e' : Engine D} {command : Command D} :
    Step e command e' ↔ Outcome e command (.ok e') := by
  constructor
  · intro step
    have replied : ∀ {α : Type} {reply : Reply D α} {r : Except EngineError α},
        reply = .ok (r, e') → (reply >>= fun r => pure r.2) = .ok e' := by
      intro α reply r returns
      rw [returns]
      rfl
    cases step with
    | createInstrument symbol => exact .createInstrument e symbol
    | registerSession s fresh => exact .registerSession e s fresh
    | sessionDisconnect _ s orders quotes visits returns =>
      exact returns ▸ .sessionDisconnect e s orders quotes visits
    | createOrder _ today s new reply returns =>
      exact replied returns ▸ .createOrder e today s new
    | modifyOrderWithType _ today s origId newId orderType price quantity reply returns =>
      exact replied returns ▸ .modifyOrderWithType e today s origId newId orderType price quantity
    | cancelOrderWithId _ s origId clOrdId reply returns =>
      exact replied returns ▸ .cancelOrderWithId e s origId clOrdId
    | quote _ s i bidPrice bidQuantity askPrice askQuantity reply returns =>
      exact replied returns ▸ .quote e s i bidPrice bidQuantity askPrice askQuantity
    | expireDayOrdersAt _ today keys visits returns =>
      exact returns ▸ .expireDayOrdersAt e today keys visits
  · intro outcome
    have replied : ∀ {α : Type} {reply : Reply D α}, (reply >>= fun r => pure r.2) = .ok e' →
        ∃ r, reply = .ok (r, e') := by
      intro α reply returns
      obtain ⟨⟨r, last⟩, same, final⟩ := Exec.bind_ok.mp returns
      cases final
      exact ⟨r, same⟩
    generalize hr : (Except.ok e' : Exec (Engine D)) = r at outcome
    cases outcome with
    | createInstrument symbol =>
      cases hr
      exact .createInstrument e symbol
    | registerSession s fresh =>
      cases hr
      exact .registerSession e s fresh
    | sessionDisconnect s orders quotes visits =>
      exact .sessionDisconnect e e' s orders quotes visits hr.symm
    | createOrder today s new =>
      obtain ⟨reply, returns⟩ := replied hr.symm
      exact .createOrder e e' today s new reply returns
    | modifyOrderWithType today s origId newId orderType price quantity =>
      obtain ⟨reply, returns⟩ := replied hr.symm
      exact .modifyOrderWithType e e' today s origId newId orderType price quantity reply returns
    | cancelOrderWithId s origId clOrdId =>
      obtain ⟨reply, returns⟩ := replied hr.symm
      exact .cancelOrderWithId e e' s origId clOrdId reply returns
    | quote s i bidPrice bidQuantity askPrice askQuantity =>
      obtain ⟨reply, returns⟩ := replied hr.symm
      exact .quote e e' s i bidPrice bidQuantity askPrice askQuantity reply returns
    | expireDayOrdersAt today keys visits =>
      exact .expireDayOrdersAt e e' today keys visits hr.symm

/-- The version of the snapshot of an instrument, zero without one. -/
def version (e : Engine D) (i : Int) : Nat :=
  ((e.marketData.snapshot i).map InstrumentSnapshot.version).getD 0

/-- An instrument that has a slot keeps it. -/
theorem Marketed.listed {e e' : Engine D} {records : List (Int × List (RawTrade D))}
    (renewed : Renewed e e' (touched records)) {i : Int} (h : e.Listed i) : e'.Listed i := by
  by_cases hi : i ∈ touched records
  · obtain ⟨snap, hsnap, -⟩ := renewed.renewed i hi
    exact ⟨snap, hsnap⟩
  · obtain ⟨snap, hsnap⟩ := h
    exact ⟨snap, (renewed.spared i hi).1.trans hsnap⟩

/-- Instruments and quote pairs after a published operation. -/
theorem Marketed.kept {e e' : Engine D} {records : List (Int × List (RawTrade D))}
    (c : Current e) (listed : ∀ i ∈ touched records, e.Listed i) (h : Marketed e e' records) :
    e'.instruments = e.instruments ∧
      ∀ s i p, e'.pair s i = some p → i ∈ touched records ∨ ∃ p', e.pair s i = some p' := by
  obtain ⟨mid, mid', recorded, published, aside⟩ := h
  have kept := recorded.kept
  obtain ⟨again, published', issued⟩ := publishMarketData_issues (recorded.ready c listed)
  obtain rfl : again = mid' := Except.ok.inj (published'.symm.trans published)
  refine ⟨aside.instruments.trans (issued.instruments.trans kept.instruments), ?_⟩
  intro s i p hp
  rcases aside.pair s i p hp with impossible | ⟨p', hp'⟩
  · exact impossible.elim
  · rw [issued.pair] at hp'
    exact kept.pair s i p' hp'

/-- Every known order is about an instrument with a slot. -/
theorem Registry.places {policy : FillPolicy} {e : Engine D} (registry : Registry e)
    (c : Coherent policy e.view none) (o : Order D) (h : e.view.Known o) :
    e.Listed o.instrumentId := by
  rcases h with recorded | ⟨i, side, ho⟩
  · exact registry.orders _ _ o recorded
  · have owned := c.owned i side o ho
    by_cases quoted : o.id = quoteOrderId
    · obtain ⟨leg, hleg, -⟩ := owned.legged quoted
      change e.leg o.sessionId o.instrumentId o.side = some leg at hleg
      cases hp : e.pair o.sessionId o.instrumentId with
      | none =>
        unfold Engine.leg at hleg
        rw [hp] at hleg
        cases hleg
      | some p => exact registry.pairs _ _ p hp
    · exact registry.orders _ _ o (owned.record quoted)

theorem lasting_listed (e : Engine D) : Lasting (fun o : Order D => e.Listed o.instrumentId) := by
  refine ⟨?_, ?_, ?_⟩
  · intro o o' quantity price h _ f _ _ _
    rw [f.instrumentId]
    exact h
  · intro o h _
    exact h
  · intro o h
    exact h

/-- Orders, instruments and pairs stay within the registry. -/
theorem Registry.step [LawfulDecimal D] {policy : FillPolicy} {e e' : Engine D}
    {command : Command D} (registry : Registry e) (c : Coherent policy e.view none)
    (hp : e.fillPolicy = policy) (h : Step e command e')
    (kept : ∀ i, e.Listed i → e'.Listed i)
    (known : ∀ i instrument, e'.instruments.getById i = some instrument → e'.Listed i)
    (pairs : ∀ s i p, e'.pair s i = some p → e'.Listed i) : Registry e' := by
  obtain ⟨news, carried⟩ := step_carries (lasting_listed e') c hp
    (fun o ho => kept _ (registry.places c o ho)) (by
      intro o fresh _
      suffices place : e'.Listed o.instrumentId from
        ⟨fun _ => place, fun _ => place, fun _ => place⟩
      cases fresh with
      | request asked listed valid =>
        obtain ⟨instrument, found⟩ := listed
        rw [incoming_eq]
        exact kept _ (registry.known _ instrument found)
      | @replacement _ _ _ _ _ _ _ _ entry asked recorded =>
        have place := registry.orders _ _ entry recorded
        exact kept _ place
      | leg asked listed named terms =>
        obtain ⟨instrument, found⟩ := listed
        rw [terms.place]
        exact kept _ (registry.known _ instrument found)) h
  refine ⟨known, ?_, pairs⟩
  intro s id r hr
  have c' := (step_coherent c hp h).1
  obtain ⟨hs, hid, -⟩ := c'.keyed s id r hr
  refine carried.known r (Or.inl ?_)
  rw [hs, hid]
  exact hr

section Lawful

variable [LawfulDecimal D]

omit [LawfulDecimal D] in
theorem registerSession_aside {e : Engine D} {s : String} (fresh : ¬ e.Registered s) :
    Aside e (e.registerSession s) := by
  refine ⟨fun _ _ => rfl, fun h => ⟨h.instrument, h.filed, h.summed⟩, rfl, rfl, rfl, rfl, rfl, ?_⟩
  intro s' i p hp
  right
  by_cases same : s' = s
  · subst same
    simp [pair, registerSession] at hp
  · exact ⟨p, by simpa [pair, registerSession, SortedMap.get?_insert_ne, same] using hp⟩

/-- Every command but the creation of an instrument works in recorded rounds. -/
theorem outcome_yields {policy : FillPolicy} {e : Engine D} {command : Command D}
    {r : Exec (Engine D)} (c : Coherent policy e.view none) (hp : e.fillPolicy = policy)
    (m : Current e) (registry : Registry e) (h : Outcome e command r)
    (other : ∀ symbol, command ≠ .createInstrument symbol) :
    Yields Tolerable r (fun e' => ∃ records, Operates e e' command records) := by
  cases h with
  | createInstrument symbol => exact absurd rfl (other symbol)
  | registerSession s fresh => exact .ok ⟨[], .idle m (registerSession_aside fresh) rfl⟩
  | sessionDisconnect s orders quotes visits => exact disconnect_yields m registry s visits
  | createOrder today s new =>
    exact (create_yields c hp m registry today s new).bind (fun _ done => .ok done)
  | modifyOrderWithType today s origId newId orderType price quantity =>
    exact (modify_yields c hp m registry today s origId newId orderType price quantity).bind
      (fun _ done => .ok done)
  | cancelOrderWithId s origId clOrdId =>
    exact (cancel_yields c m registry s origId clOrdId).bind (fun _ done => .ok done)
  | quote s i bidPrice bidQuantity askPrice askQuantity =>
    exact (quote_yields c hp m registry s i bidPrice bidQuantity askPrice askQuantity).bind
      (fun _ done => .ok done)
  | expireDayOrdersAt today keys visits => exact expire_yields c m registry today visits

omit [LawfulDecimal D] in
/-- The slot of a new instrument is empty; all others stay as they are. -/
theorem snapshot_createInstrument (e : Engine D) (symbol : String) (i : Int) :
    (e.createInstrument symbol).2.marketData.snapshot i = e.marketData.snapshot i ∨
      e.marketData.snapshot i = none ∧ (e.createInstrument symbol).1 = i ∧
      ∃ snap, (e.createInstrument symbol).2.marketData.snapshot i = some snap ∧
        snap.version = 0 := by
  unfold createInstrument
  cases hs : e.instruments.getBySymbol symbol with
  | some instrument => exact Or.inl rfl
  | none =>
    unfold MarketDataPublisher.register MarketDataPublisher.snapshot
    cases hc : HashMap.get? e.marketData.byId (e.instruments.nextId + 1) with
    | some snap =>
      left
      simp [HashMap.contains, hc]
    | none =>
      by_cases hi : i = e.instruments.nextId + 1
      · subst hi
        right
        refine ⟨hc, rfl, ?_⟩
        simp [HashMap.contains, hc]
      · left
        simp [HashMap.contains, hc, HashMap.get?_set_ne, hi]

omit [LawfulDecimal D] in
/-- A new instrument does not touch what is published of the others. -/
theorem createInstrument_current {e : Engine D} (m : Current e) (registry : Registry e)
    (symbol : String) : Current (e.createInstrument symbol).2 ∧
      (∀ i, e.Listed i → (e.createInstrument symbol).2.Listed i) ∧
      ∀ i instrument, (e.createInstrument symbol).2.instruments.getById i = some instrument →
        (e.createInstrument symbol).2.Listed i := by
  have snapshot := snapshot_createInstrument e symbol
  have kept : ∀ i, e.Listed i → (e.createInstrument symbol).2.Listed i := by
    rintro i ⟨snap, hsnap⟩
    rcases snapshot i with same | ⟨absent, -⟩
    · exact ⟨snap, same.trans hsnap⟩
    · cases absent.symm.trans hsnap
  have parts : (e.createInstrument symbol).2.book = e.book ∧
      (e.createInstrument symbol).2.pendingMarketData = e.pendingMarketData ∧
      (e.createInstrument symbol).2.statsCache = e.statsCache ∧
      (e.createInstrument symbol).2.sequence = e.sequence := by
    unfold createInstrument
    cases e.instruments.getBySymbol symbol <;> exact ⟨rfl, rfl, rfl, rfl⟩
  obtain ⟨books, pending, cache, sequence⟩ := parts
  refine ⟨⟨m.settled.congr books, pending.trans m.pending, ?_, ?_⟩, kept, ?_⟩
  · intro i snap hsnap hversion
    rcases snapshot i with same | ⟨-, -, fresh, hfresh, empty⟩
    · rw [same] at hsnap
      obtain ⟨hb, hs, ht⟩ := m.faithful i snap hsnap hversion
      refine ⟨?_, ?_, ht⟩
      · rw [hb]
        unfold numberedBook
        rw [books]
      · rw [cache]
        exact hs
    · obtain rfl := Option.some.inj (hfresh.symm.trans hsnap)
      exact absurd empty hversion
  · intro i snap hsnap
    rw [sequence]
    rcases snapshot i with same | ⟨-, -, fresh, hfresh, empty⟩
    · rw [same] at hsnap
      exact m.past i snap hsnap
    · obtain rfl := Option.some.inj (hfresh.symm.trans hsnap)
      omega
  · intro i instrument found
    unfold createInstrument at found ⊢
    cases hs : e.instruments.getBySymbol symbol with
    | some old =>
      simp only [hs] at found
      exact registry.known i instrument found
    | none =>
      simp only [hs] at found
      by_cases hi : i = e.instruments.nextId + 1
      · subst hi
        unfold Listed MarketDataPublisher.register MarketDataPublisher.snapshot
        cases hc : HashMap.get? e.marketData.byId (e.instruments.nextId + 1) with
        | some snap => exact ⟨snap, by simp [HashMap.contains, hc]⟩
        | none => exact ⟨_, by simp [HashMap.contains, hc]; rfl⟩
      · have before : e.instruments.getById i = some instrument := by
          simpa [InstrumentMap.put, InstrumentMap.getById, HashMap.get?_set_ne, hi] using found
        obtain ⟨snap, hsnap⟩ := registry.known i instrument before
        have again := kept i ⟨snap, hsnap⟩
        unfold createInstrument at again
        simpa only [hs] using again

/-- What an operation may do to published market data. -/
structure Publishes (e : Engine D) (command : Command D) (e' : Engine D) : Prop where
  current : Current e'
  registry : Registry e'
  renewed : ∀ i, e'.book i ≠ e.book i → e.version i < e'.version i
  spared : ∀ i, e'.marketData.snapshot i ≠ e.marketData.snapshot i → Concerns e command i ∧
    (e.version i < e'.version i ∨ e.marketData.snapshot i = none)

theorem outcome_publishes {policy : FillPolicy} {e : Engine D} {command : Command D}
    {r : Exec (Engine D)} (c : Coherent policy e.view none) (hp : e.fillPolicy = policy)
    (m : Current e) (registry : Registry e) (h : Outcome e command r) :
    Yields Tolerable r (Publishes e command) := by
  by_cases creates : ∃ symbol, command = .createInstrument symbol
  · obtain ⟨symbol, rfl⟩ := creates
    have step := Step.createInstrument e symbol
    obtain ⟨current, kept, known⟩ := createInstrument_current m registry symbol
    have sessions := (view_createInstrument e symbol).2.1
    have registry' := registry.step c hp step kept known (by
      intro s i p hpair
      have before : e.pair s i = some p := by
        rw [← hpair]
        unfold Engine.pair
        rw [sessions]
      exact kept i (registry.pairs s i p before))
    cases h
    refine .ok ⟨current, registry', ?_, ?_⟩
    · intro i changed
      refine absurd ?_ changed
      exact congrFun (congrArg View.book (view_createInstrument e symbol).1) i
    · intro i changed
      rcases snapshot_createInstrument e symbol i with same | ⟨absent, place, -⟩
      · exact absurd same changed
      · exact ⟨place, Or.inr absent⟩
  · have yields := outcome_yields c hp m registry h (fun symbol same => creates ⟨symbol, same⟩)
    refine ⟨?_, yields.fails⟩
    rintro e' rfl
    obtain ⟨records, done⟩ := yields.returns e' rfl
    obtain ⟨current, renewed⟩ := done.marketed.current m done.listed
    obtain ⟨instruments, pairs⟩ := done.marketed.kept m done.listed
    have kept : ∀ i, e.Listed i → e'.Listed i := fun i => Marketed.listed renewed
    have newer : ∀ i ∈ touched records, e.version i < e'.version i := by
      intro i hi
      obtain ⟨snap, hsnap, later⟩ := renewed.renewed i hi
      obtain ⟨old, hold⟩ := done.listed i hi
      have past := m.past i old hold
      unfold version
      rw [hsnap, hold]
      exact lt_of_le_of_lt past later
    refine ⟨current, ?_, ?_, ?_⟩
    · refine registry.step c hp (step_iff_outcome.mpr h) kept ?_ ?_
      · intro i instrument found
        rw [instruments] at found
        exact kept i (registry.known i instrument found)
      · intro s i p hpair
        rcases pairs s i p hpair with hi | ⟨p', before⟩
        · exact kept i (done.listed i hi)
        · exact kept i (registry.pairs s i p' before)
    · intro i changed
      by_contra stale
      have hi : i ∉ touched records := fun hi => stale (newer i hi)
      exact changed (renewed.spared i hi).2
    · intro i changed
      have hi : i ∈ touched records := by
        by_contra hi
        exact changed (renewed.spared i hi).1
      exact ⟨done.concerns i hi, Or.inl (newer i hi)⟩

omit [LawfulDecimal D] in
theorem start_current (policy : FillPolicy) :
    Current (withFillPolicy policy : Engine D) ∧ Registry (withFillPolicy policy : Engine D) := by
  have books : ∀ i, (withFillPolicy policy : Engine D).book i = OrderBook.new i := fun _ => rfl
  refine ⟨⟨⟨?_, ?_, ?_⟩, rfl, ?_, ?_⟩, ⟨?_, ?_, ?_⟩⟩
  · intro i
    rfl
  · intro i
    exact (Coherent.empty (D := D) .real 0).filed i
  · intro exact_ i
    rw [books]
    exact OrderBook.new_summed i
  · intro i snap hsnap
    cases hsnap
  · intro i snap hsnap
    cases hsnap
  · intro i instrument found
    cases found
  · intro s id r hr
    cases hr
  · intro s i p hp
    cases hp

theorem reachable_current {policy : FillPolicy} {e : Engine D} (h : Reachable policy e) :
    Current e ∧ Registry e := by
  refine Reachable.invariant (P := fun e => (Coherent policy e.view none ∧ e.fillPolicy = policy) ∧
    Current e ∧ Registry e) ⟨reachable_coherent .refl, start_current policy⟩ ?_ h |>.2
  rintro e command e' ⟨⟨c, hp⟩, m, registry⟩ step
  have done := (outcome_publishes c hp m registry (step_iff_outcome.mp step)).returns e' rfl
  exact ⟨step_coherent c hp step, done.current, done.registry⟩

/-- The best level of published levels, zero when there is none. -/
def best (levels : List (BookLevel D)) : D × D :=
  (levels.head?.map (fun l => (l.price, l.quantity))).getD (0, 0)

/-- A snapshot that shows the trading state of its instrument. -/
structure Shown (e : Engine D) (i : Int) (snap : InstrumentSnapshot D) : Prop where
  instrument : snap.book.instrumentId = i
  version : snap.version = snap.book.sequence
  levels : snap.book.bids = (e.book i).buildBook.bids ∧ snap.book.asks = (e.book i).buildBook.asks
  bids : (e.book i).Depicts .buy snap.book.bids
  asks : (e.book i).Depicts .sell snap.book.asks
  open_ : ∀ l ∈ snap.book.bids ++ snap.book.asks, 0 < val l.quantity
  bid : (snap.stats.bidPrice, snap.stats.bidQty) = best snap.book.bids
  ask : (snap.stats.askPrice, snap.stats.askQty) = best snap.book.asks
  cached : HashMap.get? e.statsCache i = some snap.stats

/-- Published market data equals the trading state. -/
structure Published (e : Engine D) : Prop where
  pending : e.pendingMarketData = ∅
  shown : ∀ i snap, e.marketData.snapshot i = some snap → snap.version ≠ 0 → Shown e i snap

theorem openQuantity_pos {orders : List (Order D)} (some_ : orders ≠ [])
    (positive : ∀ o ∈ orders, 0 < o.remaining) : 0 < openQuantity orders := by
  induction orders with
  | nil => exact absurd rfl some_
  | cons o rest ih =>
    have here : 0 < val o.remaining := val_pos.mpr (positive o List.mem_cons_self)
    rw [openQuantity_cons]
    by_cases more : rest = []
    · subst more
      simpa using here
    · have later := ih more (fun x hx => positive x (List.mem_cons_of_mem _ hx))
      linarith

theorem openQuantity_nonneg {orders : List (Order D)} (positive : ∀ o ∈ orders, 0 < o.remaining) :
    0 ≤ openQuantity orders := by
  by_cases empty : orders = []
  · rw [empty, openQuantity_nil]
  · exact (openQuantity_pos empty positive).le

omit [LawfulDecimal D] in
theorem Current.published [ExactDecimal D] {policy : FillPolicy} {e : Engine D}
    (c : Coherent policy e.view none) (m : Current e) : Published e := by
  refine ⟨m.pending, ?_⟩
  intro i snap hsnap hversion
  obtain ⟨book, cached, tops⟩ := m.faithful i snap hsnap hversion
  have bids : (e.book i).Depicts .buy snap.book.bids := by
    rw [book]
    exact OrderBook.depth_depicts (m.settled.filed i) (m.settled.summed inferInstance i) .buy
  have asks : (e.book i).Depicts .sell snap.book.asks := by
    rw [book]
    exact OrderBook.depth_depicts (m.settled.filed i) (m.settled.summed inferInstance i) .sell
  have open_ : ∀ {side : Side} {levels : List (BookLevel D)}, (e.book i).Depicts side levels →
      ∀ l ∈ levels, 0 < val l.quantity := by
    intro side levels depicts l hl
    obtain ⟨o, ho, price⟩ := depicts.inhabited l hl
    rw [depicts.total l hl]
    refine openQuantity_pos ?_ ?_
    · exact List.ne_nil_of_mem (List.mem_filter.mpr ⟨ho, decide_eq_true price⟩)
    · intro x hx
      exact (c.fit i side x (List.mem_filter.mp hx).1).positive
  refine ⟨?_, ?_, ?_, bids, asks, ?_, ?_, ?_, cached⟩
  · rw [book]
    exact m.settled.instrument i
  · rw [book]
    rfl
  · rw [book]
    exact ⟨rfl, rfl⟩
  · intro l hl
    rcases List.mem_append.mp hl with hl | hl
    · exact open_ bids l hl
    · exact open_ asks l hl
  · rw [tops]
    rfl
  · rw [tops]
    rfl

omit [LawfulDecimal D] in
/-- Readers see the trading state after every operation, whatever its outcome;
what changed has a newer version, the rest is untouched, and no publication fails. -/
theorem published_market_data [ExactDecimal D] {policy : FillPolicy} {e : Engine D}
    (h : Reachable policy e) :
    Published e ∧ ∀ command r, Outcome e command r → Yields Tolerable r (fun e' => Published e' ∧
      (∀ i, e'.book i ≠ e.book i → e.version i < e'.version i) ∧
      ∀ i, e'.marketData.snapshot i ≠ e.marketData.snapshot i → Concerns e command i ∧
        (e.version i < e'.version i ∨ e.marketData.snapshot i = none)) := by
  obtain ⟨c, hp⟩ := reachable_coherent h
  obtain ⟨m, registry⟩ := reachable_current h
  refine ⟨m.published c, ?_⟩
  intro command r outcome
  have yields := outcome_publishes c hp m registry outcome
  refine ⟨?_, yields.fails⟩
  rintro e' rfl
  have done := yields.returns e' rfl
  have c' := (step_coherent c hp (step_iff_outcome.mpr outcome)).1
  exact ⟨done.current.published c', done.renewed, done.spared⟩

end Lawful

/-- Whether a reply leaves an engine with a newer version of an instrument. -/
def renews (v : Nat) (i : Int) {α : Type} : Reply D α → Bool
  | .ok (_, e) => decide (v < e.version i)
  | .error _ => false

theorem of_renews {v : Nat} {i : Int} {α : Type} (r : Reply D α) (h : renews v i r = true) :
    ∃ reply e', r = .ok (reply, e') ∧ v < e'.version i := by
  unfold renews at h
  split at h
  · rename_i reply e'
    exact ⟨reply, e', rfl, of_decide_eq_true h⟩
  · cases h

theorem published_market_data_sample : Published (played .real sampleRun) ∧
    (played .real sampleRun).version 1 ≠ 0 ∧
    ∃ e', Step (played .real sampleRun) (.quote "b" 1 8 1 12 1) e' ∧
      (played .real sampleRun).version 1 < e'.version 1 ∧ Published e' := by
  have shown := published_market_data (played_reachable .real sampleRun)
  obtain ⟨reply, e', returns, newer⟩ := of_renews
    ((played .real sampleRun).quote "b" 1 8 1 12 1) (by decide +kernel :
      renews ((played .real sampleRun).version 1) 1 _ = true)
  have step := Step.quote _ e' "b" 1 8 1 12 1 _ returns
  exact ⟨shown.1, by decide +kernel, e', step, newer,
    ((shown.2 _ _ (step_iff_outcome.mp step)).returns e' rfl).1⟩

end Engine

end RustTrader
