import RustTrader.Ledger
import RustTrader.LevelTotals
import RustTrader.Library.Fallible

/-!
# Rounds of market data

An operation changes books, records each change under a new sequence number,
and publishes what it recorded at its end. A round is one change with its
record; what was published before stays true of every book outside the rounds.
-/

namespace RustTrader

open Decimal

namespace Engine

variable {D : Type} [Decimal D]

/-- The panics no invariant can rule out: a decimal that does not fit, and a
price level that has handed out all its priorities. -/
def Tolerable (p : Panic) : Prop := p = .decimal ∨ p = .priorityExhausted

/-- Books belong to their instruments, are well filed, and their levels show what
they hold, when the decimals are exact. -/
structure Settled (e : Engine D) : Prop where
  instrument : ∀ i, (e.book i).instrumentId = i
  filed : ∀ i, OrderBook.Filed Order.price (e.book i)
  summed : ExactDecimal D → ∀ i, (e.book i).Summed

/-- Books and quote pairs have changed for instruments in `P` only, and market
data not at all. -/
structure Within (P : Int → Prop) (e e' : Engine D) : Prop where
  book : ∀ i, ¬ P i → e'.book i = e.book i
  settled : e.Settled → e'.Settled
  market : e'.marketData = e.marketData
  pending : e'.pendingMarketData = e.pendingMarketData
  cache : e'.statsCache = e.statsCache
  sequence : e'.sequence = e.sequence
  instruments : e'.instruments = e.instruments
  pair : ∀ s i p, e'.pair s i = some p → P i ∨ ∃ p', e.pair s i = some p'

/-- Nothing a reader of market data could see has changed. -/
abbrev Aside (e e' : Engine D) : Prop := Within (fun _ => False) e e'

namespace Within

variable {P Q : Int → Prop} {e e' e'' : Engine D}

theorem refl (e : Engine D) : Within P e e :=
  ⟨fun _ _ => rfl, id, rfl, rfl, rfl, rfl, rfl, fun _ _ p hp => Or.inr ⟨p, hp⟩⟩

theorem mono (h : Within P e e') (imp : ∀ i, P i → Q i) : Within Q e e' :=
  ⟨fun i hi => h.book i (fun hp => hi (imp i hp)), h.settled, h.market, h.pending, h.cache,
    h.sequence, h.instruments, fun s i p hp => (h.pair s i p hp).imp_left (imp i)⟩

theorem trans (h : Within P e e') (h' : Within P e' e'') : Within P e e'' := by
  refine ⟨fun i hi => (h'.book i hi).trans (h.book i hi), fun s => h'.settled (h.settled s),
    h'.market.trans h.market, h'.pending.trans h.pending, h'.cache.trans h.cache,
    h'.sequence.trans h.sequence, h'.instruments.trans h.instruments, ?_⟩
  intro s i p hp
  rcases h'.pair s i p hp with hi | ⟨p', hp'⟩
  · exact Or.inl hi
  · exact h.pair s i p' hp'

theorem aside (h : Aside e e') : Within P e e' := h.mono (fun _ impossible => impossible.elim)

end Within

/-- What a change of one book has to keep. -/
structure Tended (book book' : OrderBook D) : Prop where
  instrument : book'.instrumentId = book.instrumentId
  filed : OrderBook.Filed Order.price book'
  summed : ExactDecimal D → book'.Summed

theorem within_setBook {e : Engine D} {i : Int} {book' : OrderBook D}
    (tended : e.Settled → Tended (e.book i) book') : Within (· = i) e (e.setBook i book') := by
  refine ⟨?_, ?_, rfl, rfl, rfl, rfl, rfl, fun _ _ p hp => Or.inr ⟨p, hp⟩⟩
  · intro j hj
    rw [book_setBook, Function.update_of_ne hj]
  · intro settled
    have each : ∀ j, Tended (e.book j) ((e.setBook i book').book j) := by
      intro j
      rw [book_setBook]
      by_cases hj : j = i
      · subst hj
        rw [Function.update_self]
        exact tended settled
      · rw [Function.update_of_ne hj]
        exact ⟨rfl, settled.filed j, fun exact_ => settled.summed exact_ j⟩
    exact ⟨fun j => (each j).instrument.trans (settled.instrument j), fun j => (each j).filed,
      fun exact_ j => (each j).summed exact_⟩

theorem Settled.congr {e e' : Engine D} (h : e.Settled) (same : e'.book = e.book) : e'.Settled := by
  refine ⟨?_, ?_, ?_⟩
  · rw [same]
    exact h.instrument
  · rw [same]
    exact h.filed
  · rw [same]
    exact h.summed

theorem Told.aside {e e' : Engine D} {news : List (Report D)} (h : Told e e' news) :
    Aside e e' := by
  have books : e'.book = e.book := h.book
  refine ⟨fun i _ => congrFun books i, fun s => s.congr books, ?_, ?_, ?_, ?_, h.instruments, ?_⟩
  · rw [h.rest]
  · rw [h.rest]
  · rw [h.rest]
  · rw [h.rest]
  · intro s i p hp
    rw [h.pair] at hp
    exact Or.inr ⟨p, hp⟩

/-- An instrument readers of market data know. -/
def Listed (e : Engine D) (i : Int) : Prop := ∃ snap, e.marketData.snapshot i = some snap

/-- Rounds of book changes, each recorded together with its trades. -/
inductive Recorded : Engine D → List (Int × List (RawTrade D)) → Engine D → Prop
  | idle {e e' : Engine D} (aside : Aside e e') : Recorded e [] e'
  | round {e e1 e2 e' : Engine D} {i : Int} {trades : List (RawTrade D)}
      {records : List (Int × List (RawTrade D))} (touch : Within (· = i) e e1)
      (record : e1.recordMarketData i trades = .ok e2) (rest : Recorded e2 records e') :
      Recorded e ((i, trades) :: records) e'

theorem Recorded.after {e e1 e' : Engine D} {records : List (Int × List (RawTrade D))}
    (h : Aside e e1) (h' : Recorded e1 records e') : Recorded e records e' := by
  cases h' with
  | idle aside => exact .idle (h.trans aside)
  | round touch record rest => exact .round (h.aside.trans touch) record rest

theorem Recorded.append {e mid e' : Engine D} {m n : List (Int × List (RawTrade D))}
    (h : Recorded e m mid) (h' : Recorded mid n e') : Recorded e (m ++ n) e' := by
  induction h with
  | idle aside => exact .after aside h'
  | round touch record _ ih => exact .round touch record (ih h')

theorem Recorded.single {e e1 e' : Engine D} {i : Int} {trades : List (RawTrade D)}
    (touch : Within (· = i) e e1) (record : e1.recordMarketData i trades = .ok e') :
    Recorded e [(i, trades)] e' := .round touch record (.idle (.refl e'))

/-- The instruments of some rounds. -/
def touched (records : List (Int × List (RawTrade D))) : List Int := records.map Prod.fst

/-- What one record changes. -/
structure Marks (e e' : Engine D) (i : Int) : Prop where
  book : e'.book = e.book
  market : e'.marketData = e.marketData
  instruments : e'.instruments = e.instruments
  sequence : e'.sequence = e.sequence + 1
  pending : e'.pendingMarketData = HashMap.set e.pendingMarketData i (e.sequence + 1)
  cache : ∃ stats, e'.statsCache = HashMap.set e.statsCache i stats
  pair : e'.pair = e.pair

theorem recordMarketData_marks {e e' : Engine D} {i : Int} {trades : List (RawTrade D)}
    (h : e.recordMarketData i trades = .ok e') : Marks e e' i := by
  unfold recordMarketData at h
  obtain ⟨stats, -, h⟩ := Exec.bind_ok.mp h
  cases h
  exact ⟨rfl, rfl, rfl, rfl, rfl, ⟨stats, rfl⟩, rfl⟩

theorem recordMarketData_error [LawfulDecimal D] {e : Engine D} {i : Int}
    {trades : List (RawTrade D)} {p : Panic} (h : e.recordMarketData i trades = .error p) :
    Tolerable p := by
  have loop : ∀ (trades : List (RawTrade D)) (stats : Statistics D),
      trades.foldlM (fun stats trade => stats.trade trade.price trade.quantity) stats = .error p →
      Tolerable p := by
    intro trades
    induction trades with
    | nil =>
      intro stats h
      cases h
    | cons t ts ih =>
      intro stats h
      rw [List.foldlM_cons] at h
      rcases Exec.bind_error.mp h with h | ⟨next, -, h⟩
      · unfold Statistics.trade at h
        rcases Exec.bind_error.mp h with h | ⟨volume, -, h⟩
        · exact Or.inl ((LawfulDecimal.add_rounds _ _).panic p h)
        · split at h <;> cases h
      · exact ih next h
  unfold recordMarketData at h
  rcases Exec.bind_error.mp h with h | ⟨stats, -, h⟩
  · exact loop trades _ h
  · cases h

/-- What some rounds leave. -/
structure Kept (e e' : Engine D) (touched : List Int) : Prop where
  settled : e.Settled → e'.Settled
  market : e'.marketData = e.marketData
  instruments : e'.instruments = e.instruments
  sequence : e.sequence ≤ e'.sequence
  book : ∀ i, i ∉ touched → e'.book i = e.book i
  cache : ∀ i, i ∉ touched → HashMap.get? e'.statsCache i = HashMap.get? e.statsCache i
  unpending : ∀ i, i ∉ touched →
    HashMap.get? e'.pendingMarketData i = HashMap.get? e.pendingMarketData i
  pending : ∀ i ∈ touched, ∃ seq, HashMap.get? e'.pendingMarketData i = some seq ∧
    e.sequence < seq ∧ seq ≤ e'.sequence
  cached : ∀ i, (i ∈ touched ∨ ∃ stats, HashMap.get? e.statsCache i = some stats) →
    ∃ stats, HashMap.get? e'.statsCache i = some stats
  pair : ∀ s i p, e'.pair s i = some p → i ∈ touched ∨ ∃ p', e.pair s i = some p'

theorem Recorded.kept {e e' : Engine D} {records : List (Int × List (RawTrade D))}
    (h : Recorded e records e') : Kept e e' (touched records) := by
  induction h with
  | @idle e e' aside =>
    refine ⟨aside.settled, aside.market, aside.instruments, aside.sequence.ge,
      fun i _ => aside.book i id, fun i _ => by rw [aside.cache], fun i _ => by rw [aside.pending],
      ?_, ?_, ?_⟩
    · intro i hi
      cases hi
    · intro i hi
      rw [aside.cache]
      exact hi.resolve_left (by simp [touched])
    · intro s i p hp
      exact (aside.pair s i p hp).imp_left (fun impossible => impossible.elim)
  | @round e e1 e2 e' i trades records touch record _ ih =>
    have marks := recordMarketData_marks record
    obtain ⟨stats, cached⟩ := marks.cache
    have grown : e2.sequence = e.sequence + 1 := by rw [marks.sequence, touch.sequence]
    have step := ih.sequence
    constructor
    · intro settled
      exact ih.settled ((touch.settled settled).congr marks.book)
    · rw [ih.market, marks.market, touch.market]
    · rw [ih.instruments, marks.instruments, touch.instruments]
    · omega
    · intro j hj
      obtain ⟨hne, hj⟩ := not_or.mp (fun h => hj (List.mem_cons.mpr h))
      rw [ih.book j hj, marks.book, touch.book j hne]
    · intro j hj
      obtain ⟨hne, hj⟩ := not_or.mp (fun h => hj (List.mem_cons.mpr h))
      rw [ih.cache j hj, cached, HashMap.get?_set_ne _ _ hne, touch.cache]
    · intro j hj
      obtain ⟨hne, hj⟩ := not_or.mp (fun h => hj (List.mem_cons.mpr h))
      rw [ih.unpending j hj, marks.pending, HashMap.get?_set_ne _ _ hne, touch.pending]
    · intro j hj
      by_cases later : j ∈ touched records
      · obtain ⟨seq, hseq, lower, upper⟩ := ih.pending j later
        exact ⟨seq, hseq, by omega, upper⟩
      · obtain rfl := (List.mem_cons.mp hj).resolve_right later
        refine ⟨e2.sequence, ?_, by omega, step⟩
        rw [ih.unpending _ later, marks.pending, marks.sequence]
        exact HashMap.get?_set_self ..
    · intro j hj
      refine ih.cached j ?_
      by_cases same : j = i
      · right
        rw [cached, same]
        exact ⟨stats, HashMap.get?_set_self ..⟩
      · rcases hj with hj | ⟨stats', hj⟩
        · exact Or.inl ((List.mem_cons.mp hj).resolve_left same)
        · right
          rw [cached, HashMap.get?_set_ne _ _ same, touch.cache]
          exact ⟨stats', hj⟩
    · intro s j p hp
      rcases ih.pair s j p hp with hj | ⟨p', hp'⟩
      · exact Or.inl (List.mem_cons_of_mem _ hj)
      · rw [marks.pair] at hp'
        rcases touch.pair s j p' hp' with rfl | before
        · exact Or.inl List.mem_cons_self
        · exact Or.inr before

/-- The book of an instrument as it is published under a sequence number. -/
def numberedBook (e : Engine D) (i : Int) (sequence : Nat) : Book D :=
  { (e.book i).buildBook with sequence := sequence }

/-- What publishing some recorded instruments changes. -/
structure Issued (e e' : Engine D) (sequenceOf : Int → Option Nat) : Prop where
  book : e'.book = e.book
  sequence : e'.sequence = e.sequence
  pending : e'.pendingMarketData = e.pendingMarketData
  instruments : e'.instruments = e.instruments
  pair : e'.pair = e.pair
  traded : e'.traded = e.traded
  issued : ∀ i sequence, sequenceOf i = some sequence → ∃ stats,
    HashMap.get? e.statsCache i = some stats ∧
    HashMap.get? e'.statsCache i = some (stats.quoted (e.numberedBook i sequence)) ∧
    e'.marketData.snapshot i =
      some ⟨e.numberedBook i sequence, stats.quoted (e.numberedBook i sequence), sequence⟩
  spared : ∀ i, sequenceOf i = none →
    HashMap.get? e'.statsCache i = HashMap.get? e.statsCache i ∧
    e'.marketData.snapshot i = e.marketData.snapshot i

omit [Decimal D] in
theorem publish_listed {publisher : MarketDataPublisher D} {book : Book D} {stats : Statistics D}
    {snap : InstrumentSnapshot D}
    (slot : HashMap.get? publisher.byId book.instrumentId = some snap) :
    publisher.publish book stats = .ok { publisher with
      byId := HashMap.set publisher.byId book.instrumentId ⟨book, stats, book.sequence⟩ } := by
  unfold MarketDataPublisher.publish
  rw [slot]
  rfl

/-- An instrument with a slot and statistics is published. -/
theorem publishInstrument_issues {e : Engine D} {i : Int} {sequence : Nat} (settled : e.Settled)
    (listed : e.Listed i) (cached : ∃ stats, HashMap.get? e.statsCache i = some stats) :
    ∃ e', e.publishInstrument i sequence = .ok e' ∧
      Issued e e' (fun j => if j = i then some sequence else none) := by
  obtain ⟨snap, hsnap⟩ := listed
  obtain ⟨stats, hstats⟩ := cached
  have books : (e.setBook i (e.book i)).book = e.book := by
    rw [book_setBook, Function.update_eq_self]
  have owner : (e.book i).buildBook.instrumentId = i := settled.instrument i
  unfold publishInstrument
  simp only [books]
  rw [show HashMap.get? (e.setBook i (e.book i)).statsCache i = some stats from hstats,
    unwrap_some, Exec.ok_bind]
  have slot : HashMap.get? (e.setBook i (e.book i)).marketData.byId
      (e.numberedBook i sequence).instrumentId = some snap := by
    change HashMap.get? e.marketData.byId (e.book i).buildBook.instrumentId = some snap
    rw [owner]
    exact hsnap
  have published := @publish_listed _ _ _ (stats.quoted (e.numberedBook i sequence)) _ slot
  have same : (e.numberedBook i sequence).instrumentId = i := owner
  rw [same] at published
  refine ⟨_, Exec.bind_ok.mpr ⟨_, published, rfl⟩, ?_⟩
  · refine ⟨books, rfl, rfl, rfl, rfl, ?_, ?_, ?_⟩
    · refine traded_set rfl ?_
      rw [traded, hstats]
      rfl
    · intro j seq hseq
      by_cases hj : j = i
      · subst hj
        rw [if_pos rfl] at hseq
        obtain rfl := Option.some.inj hseq
        exact ⟨stats, hstats, HashMap.get?_set_self .., HashMap.get?_set_self ..⟩
      · rw [if_neg hj] at hseq
        cases hseq
    · intro j hj
      have hne : j ≠ i := by
        rintro rfl
        rw [if_pos rfl] at hj
        cases hj
      exact ⟨HashMap.get?_set_ne _ _ hne, HashMap.get?_set_ne _ _ hne⟩

/-- The loop over the recorded instruments. -/
theorem publishAll_issues (pending : List ((_ : Int) × Nat)) : ∀ {e : Engine D}, e.Settled →
    (pending.map Sigma.fst).Nodup → (∀ entry ∈ pending, e.Listed entry.1) →
    (∀ entry ∈ pending, ∃ stats, HashMap.get? e.statsCache entry.1 = some stats) →
    ∃ e', pending.foldlM (fun e entry => e.publishInstrument entry.1 entry.2) e = .ok e' ∧
      Issued e e' (fun i => pending.dlookup i) := by
  induction pending with
  | nil =>
    intro e _ _ _ _
    refine ⟨e, rfl, rfl, rfl, rfl, rfl, rfl, rfl, ?_, fun i _ => ⟨rfl, rfl⟩⟩
    intro i seq hseq
    cases hseq
  | cons entry pending ih =>
    intro e settled nodup listed cached
    obtain ⟨i, seq⟩ := entry
    obtain ⟨fresh, nodup⟩ := List.nodup_cons.mp nodup
    obtain ⟨mid, hmid, first⟩ := @publishInstrument_issues _ _ _ i seq settled
      (listed _ List.mem_cons_self) (cached _ List.mem_cons_self)
    have apart : ∀ entry ∈ pending, entry.1 ≠ i := by
      intro entry hentry same
      exact fresh (List.mem_map.mpr ⟨entry, hentry, same⟩)
    have spared : ∀ entry ∈ pending, HashMap.get? mid.statsCache entry.1 =
        HashMap.get? e.statsCache entry.1 ∧
        mid.marketData.snapshot entry.1 = e.marketData.snapshot entry.1 :=
      fun entry hentry => first.spared entry.1 (if_neg (apart entry hentry))
    obtain ⟨e', hrest, rest⟩ := ih (settled.congr first.book) nodup
      (by
        intro entry hentry
        obtain ⟨snap, hsnap⟩ := listed entry (List.mem_cons_of_mem _ hentry)
        exact ⟨snap, (spared entry hentry).2.trans hsnap⟩)
      (by
        intro entry hentry
        rw [(spared entry hentry).1]
        exact cached entry (List.mem_cons_of_mem _ hentry))
    have numbered : mid.numberedBook = e.numberedBook := by
      funext j n
      unfold numberedBook
      rw [first.book]
    refine ⟨e', ?_, rest.book.trans first.book, rest.sequence.trans first.sequence,
      rest.pending.trans first.pending, rest.instruments.trans first.instruments,
      rest.pair.trans first.pair, rest.traded.trans first.traded, ?_, ?_⟩
    · rw [List.foldlM_cons, hmid]
      exact hrest
    · intro j n hn
      by_cases hj : j = i
      · subst hj
        rw [List.dlookup_cons_eq] at hn
        obtain rfl := Option.some.inj hn
        obtain ⟨stats, before, after, snap⟩ := first.issued j seq (if_pos rfl)
        have silent : List.dlookup j pending = none := by
          rw [List.dlookup_eq_none]
          exact fresh
        obtain ⟨sameStats, sameSnap⟩ := rest.spared j silent
        exact ⟨stats, before, sameStats.trans after, sameSnap.trans snap⟩
      · rw [List.dlookup_cons_ne _ _ hj] at hn
        obtain ⟨stats, before, after, snap⟩ := rest.issued j n hn
        rw [numbered] at after snap
        exact ⟨stats, (first.spared j (if_neg hj)).1.symm.trans before, after, snap⟩
    · intro j hj
      have hne : j ≠ i := by
        rintro rfl
        rw [List.dlookup_cons_eq] at hj
        cases hj
      rw [List.dlookup_cons_ne _ _ hne] at hj
      obtain ⟨stats, snap⟩ := rest.spared j hj
      obtain ⟨stats', snap'⟩ := first.spared j (if_neg hne)
      exact ⟨stats.trans stats', snap.trans snap'⟩

/-- Everything recorded has a slot and statistics. -/
structure Ready (e : Engine D) : Prop where
  settled : e.Settled
  listed : ∀ i seq, HashMap.get? e.pendingMarketData i = some seq → e.Listed i
  cached : ∀ i seq, HashMap.get? e.pendingMarketData i = some seq →
    ∃ stats, HashMap.get? e.statsCache i = some stats

/-- Publishing what has been recorded properly cannot fail. -/
theorem publishMarketData_issues {e : Engine D} (ready : e.Ready) :
    ∃ e', e.publishMarketData = .ok e' ∧ Issued { e with pendingMarketData := ∅ } e'
      (fun i => HashMap.get? e.pendingMarketData i) := by
  have found : ∀ entry ∈ e.pendingMarketData.entries,
      HashMap.get? e.pendingMarketData entry.1 = some entry.2 :=
    fun entry hentry => AList.mem_lookup_iff.mpr hentry
  exact publishAll_issues e.pendingMarketData.entries (e := { e with pendingMarketData := ∅ })
    ⟨ready.settled.instrument, ready.settled.filed, ready.settled.summed⟩
      e.pendingMarketData.nodupKeys
    (fun entry hentry => ready.listed entry.1 entry.2 (found entry hentry))
    (fun entry hentry => ready.cached entry.1 entry.2 (found entry hentry))

/-- A snapshot shows the book and the statistics of its instrument. -/
structure Faithful (e : Engine D) (i : Int) (snap : InstrumentSnapshot D) : Prop where
  book : snap.book = e.numberedBook i snap.version
  stats : HashMap.get? e.statsCache i = some snap.stats
  tops : snap.stats = snap.stats.quoted snap.book

/-- Market data between operations. -/
structure Current (e : Engine D) : Prop where
  settled : e.Settled
  pending : e.pendingMarketData = ∅
  faithful : ∀ i snap, e.marketData.snapshot i = some snap → snap.version ≠ 0 → e.Faithful i snap
  past : ∀ i snap, e.marketData.snapshot i = some snap → snap.version ≤ e.sequence

/-- An operation whose changes are recorded in rounds and published at the end. -/
def Marketed (e e' : Engine D) (records : List (Int × List (RawTrade D))) : Prop :=
  ∃ mid mid', Recorded e records mid ∧ mid.publishMarketData = .ok mid' ∧ Aside mid' e'

/-- Instruments in `touched` have a newer version, all others are as before. -/
structure Renewed (e e' : Engine D) (touched : List Int) : Prop where
  renewed : ∀ i ∈ touched, ∃ snap, e'.marketData.snapshot i = some snap ∧ e.sequence < snap.version
  spared : ∀ i, i ∉ touched →
    e'.marketData.snapshot i = e.marketData.snapshot i ∧ e'.book i = e.book i

theorem Recorded.ready {e mid : Engine D} {records : List (Int × List (RawTrade D))}
    (c : Current e) (h : Recorded e records mid) (listed : ∀ i ∈ touched records, e.Listed i) :
    mid.Ready := by
  have kept := h.kept
  have only : ∀ i seq, HashMap.get? mid.pendingMarketData i = some seq → i ∈ touched records := by
    intro i seq hseq
    by_contra hi
    rw [kept.unpending i hi, c.pending, HashMap.get?_empty] at hseq
    cases hseq
  refine ⟨kept.settled c.settled, ?_, fun i seq hseq => kept.cached i (Or.inl (only i seq hseq))⟩
  intro i seq hseq
  obtain ⟨snap, hsnap⟩ := listed i (only i seq hseq)
  exact ⟨snap, by rw [kept.market, hsnap]⟩

/-- Readers see the books of the new state. -/
theorem Marketed.current {e e' : Engine D} {records : List (Int × List (RawTrade D))}
    (c : Current e) (listed : ∀ i ∈ touched records, e.Listed i) (h : Marketed e e' records) :
    Current e' ∧ Renewed e e' (touched records) := by
  obtain ⟨mid, mid', recorded, published, aside⟩ := h
  have kept := recorded.kept
  obtain ⟨again, published', issued⟩ := publishMarketData_issues (recorded.ready c listed)
  obtain rfl : again = mid' := Except.ok.inj (published'.symm.trans published)
  have books : e'.book = mid.book := funext (fun i => (aside.book i id).trans
    (congrFun issued.book i))
  have numbered : e'.numberedBook = mid.numberedBook := by
    funext i n
    unfold numberedBook
    rw [books]
  have fresh : ∀ i ∈ touched records, ∃ seq, ∃ stats : Statistics D, e.sequence < seq ∧ seq ≤
    e'.sequence ∧
      HashMap.get? e'.statsCache i = some (stats.quoted (mid.numberedBook i seq)) ∧
      e'.marketData.snapshot i =
        some ⟨mid.numberedBook i seq, stats.quoted (mid.numberedBook i seq), seq⟩ := by
    intro i hi
    obtain ⟨seq, hseq, lower, upper⟩ := kept.pending i hi
    obtain ⟨stats, -, cached, snap⟩ := issued.issued i seq hseq
    refine ⟨seq, stats, lower, ?_, ?_, ?_⟩
    · rw [aside.sequence, issued.sequence]
      exact upper
    · rw [aside.cache]
      exact cached
    · rw [aside.market]
      exact snap
  have spared : ∀ i, i ∉ touched records →
      HashMap.get? e'.statsCache i = HashMap.get? e.statsCache i ∧
      e'.marketData.snapshot i = e.marketData.snapshot i ∧ e'.book i = e.book i := by
    intro i hi
    have idle : HashMap.get? mid.pendingMarketData i = none := by
      rw [kept.unpending i hi, c.pending, HashMap.get?_empty]
    obtain ⟨stats, snap⟩ := issued.spared i idle
    refine ⟨?_, ?_, ?_⟩
    · rw [aside.cache, stats]
      exact kept.cache i hi
    · rw [aside.market, snap]
      exact congrArg (fun m => m.snapshot i) kept.market
    · rw [books]
      exact kept.book i hi
  have grown : e.sequence ≤ e'.sequence := by
    rw [aside.sequence, issued.sequence]
    exact kept.sequence
  refine ⟨⟨?_, ?_, ?_, ?_⟩, ?_, fun i hi => (spared i hi).2⟩
  · exact (kept.settled c.settled).congr books
  · rw [aside.pending, issued.pending]
  · intro i snap hsnap hversion
    by_cases hi : i ∈ touched records
    · obtain ⟨seq, stats, -, -, cached, shown⟩ := fresh i hi
      obtain rfl := Option.some.inj (shown.symm.trans hsnap)
      exact ⟨by rw [numbered], cached, rfl⟩
    · obtain ⟨cached, shown, book⟩ := spared i hi
      rw [shown] at hsnap
      obtain ⟨hb, hs, ht⟩ := c.faithful i snap hsnap hversion
      refine ⟨?_, cached.trans hs, ht⟩
      rw [hb]
      unfold numberedBook
      rw [book]
  · intro i snap hsnap
    by_cases hi : i ∈ touched records
    · obtain ⟨seq, stats, -, upper, -, shown⟩ := fresh i hi
      obtain rfl := Option.some.inj (shown.symm.trans hsnap)
      exact upper
    · rw [(spared i hi).2.1] at hsnap
      exact (c.past i snap hsnap).trans grown
  · intro i hi
    obtain ⟨seq, stats, lower, -, -, shown⟩ := fresh i hi
    exact ⟨_, shown, lower⟩

/-- The publication at the end of an operation. -/
theorem publish_yields {β : Type} {e mid : Engine D} {records : List (Int × List (RawTrade D))}
    (c : Current e) (h : Recorded e records mid) (listed : ∀ i ∈ touched records, e.Listed i)
    {f : Engine D → Exec β} {Q : β → Prop}
    (next : ∀ mid', mid.publishMarketData = .ok mid' → Yields Tolerable (f mid') Q) :
    Yields Tolerable (mid.publishMarketData >>= f) Q := by
  refine Yields.call ?_ next
  intro p hp
  obtain ⟨mid', published, -⟩ := publishMarketData_issues (h.ready c listed)
  rw [published] at hp
  cases hp

/-- A record in the middle of an operation. -/
theorem record_yields [LawfulDecimal D] {β : Type} {e : Engine D} {i : Int}
    {trades : List (RawTrade D)} {f : Engine D → Exec β} {Q : β → Prop}
    (next : ∀ e', e.recordMarketData i trades = .ok e' → Yields Tolerable (f e') Q) :
    Yields Tolerable (e.recordMarketData i trades >>= f) Q :=
  Yields.call (fun _ hp => recordMarketData_error hp) next

end Engine

end RustTrader
