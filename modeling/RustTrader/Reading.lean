import RustTrader.Rest

/-!
# Reading beside the engine

Every answer of the read-only service is one that an engine would have given on its own
before or after the operation under way, and nobody reads an older version after a newer
one.
-/

namespace RustTrader.Rest

open Engine

variable {D : Type} [Decimal D]

theorem publishInstrument_catalog {e e' : Engine D} {i : Int} {sequence : Nat}
    (h : e.publishInstrument i sequence = .ok e') :
    e'.marketData.catalog = e.marketData.catalog := by
  unfold publishInstrument at h
  obtain ⟨stats, -, h⟩ := Exec.bind_ok.mp h
  obtain ⟨marketData, published, h⟩ := Exec.bind_ok.mp h
  cases h
  unfold MarketDataPublisher.publish at published
  split at published
  · cases published
  · cases published
    rfl

theorem publishMarketData_catalog {e e' : Engine D} (h : e.publishMarketData = .ok e') :
    e'.marketData.catalog = e.marketData.catalog := by
  unfold publishMarketData at h
  refine (foldlM_relates (R := fun e e' : Engine D =>
    e'.marketData.catalog = e.marketData.catalog) (fun _ => rfl)
    (fun _ _ _ first later => later.trans first)
    (fun _ _ _ step => publishInstrument_catalog step) _ h).trans rfl

/-- Symbols are catalogued under their instruments. -/
def Catalogued (e : Engine D) : Prop := ∀ symbol,
  e.marketData.catalog.get? symbol = (e.instruments.getBySymbol symbol).map Instrument.id

theorem Catalogued.create {e : Engine D} (h : Catalogued e) (symbol : String) :
    Catalogued (e.createInstrument symbol).2 := by
  unfold createInstrument
  cases known : e.instruments.getBySymbol symbol with
  | some instrument => exact h
  | none =>
    intro other
    unfold InstrumentMap.getBySymbol InstrumentMap.put MarketDataPublisher.register
    dsimp only
    rw [SortedMap.get?_insert, HashMap.get?_set]
    split
    · rfl
    · exact h other

/-- What readers could load they still can, in no older version. -/
structure Advances (e e' : Engine D) : Prop where
  catalog : ∀ symbol slot, e.marketData.catalog.get? symbol = some slot →
    e'.marketData.catalog.get? symbol = some slot
  snapshot : ∀ i snap, e.marketData.snapshot i = some snap →
    ∃ snap', e'.marketData.snapshot i = some snap' ∧ snap.version ≤ snap'.version

theorem Advances.of_same {e e' : Engine D} (catalog : e'.marketData.catalog = e.marketData.catalog)
    (same : ∀ i, e'.marketData.snapshot i = e.marketData.snapshot i) : Advances e e' := by
  constructor
  · intro symbol slot listed
    rw [catalog]
    exact listed
  · intro i snap shown
    exact ⟨snap, (same i).trans shown, le_refl _⟩

theorem advances_create {e : Engine D} (h : Catalogued e) (symbol : String) :
    Advances e (e.createInstrument symbol).2 := by
  constructor
  · intro other slot listed
    unfold createInstrument
    cases known : e.instruments.getBySymbol symbol with
    | some instrument => exact listed
    | none =>
      have apart : other ≠ symbol := by
        rintro rfl
        rw [h, known] at listed
        cases listed
      exact (SortedMap.get?_insert_ne _ _ apart).trans listed
  · intro i snap shown
    rcases snapshot_createInstrument e symbol i with same | ⟨absent, -⟩
    · exact ⟨snap, same.trans shown, le_refl _⟩
    · cases absent.symm.trans shown

section Working

variable {e mid e' : Engine D} {records : List (Int × List (RawTrade D))}

theorem Working.catalog (w : Working e records mid e') :
    e'.marketData.catalog = e.marketData.catalog := by
  obtain ⟨mid', published, aside⟩ := w.finished
  rw [aside.market, publishMarketData_catalog published, w.recorded.kept.market]

/-- What is recorded is what will be stored. -/
theorem Working.issued (w : Working e records mid e') (m : Current e) :
    (∀ i seq, HashMap.get? mid.pendingMarketData i = some seq → e.sequence < seq ∧
      ∃ stats, HashMap.get? mid.statsCache i = some stats ∧ e'.marketData.snapshot i =
        some ⟨mid.numberedBook i seq, stats.quoted (mid.numberedBook i seq), seq⟩) ∧
    ∀ i, HashMap.get? mid.pendingMarketData i = none →
      e'.marketData.snapshot i = mid.marketData.snapshot i := by
  obtain ⟨mid', published, aside⟩ := w.finished
  obtain ⟨again, published', issued⟩ := publishMarketData_issues (w.recorded.ready m w.listed)
  obtain rfl : again = mid' := Except.ok.inj (published'.symm.trans published)
  have kept := w.recorded.kept
  constructor
  · intro i seq pending
    have recorded : i ∈ touched records := by
      by_contra absent
      rw [kept.unpending i absent, m.pending, HashMap.get?_empty] at pending
      cases pending
    obtain ⟨seq', pending', later, -⟩ := kept.pending i recorded
    obtain rfl := Option.some.inj (pending'.symm.trans pending)
    obtain ⟨stats, cached, -, shown⟩ := issued.issued i seq' pending
    exact ⟨later, stats, cached, by rw [aside.market]; exact shown⟩
  · intro i idle
    rw [aside.market]
    exact (issued.spared i idle).2

end Working

/-- What `now` will store of an instrument is what `after` shows of it. -/
structure Due (s : Desk D) (entry : (_ : Int) × Nat) : Prop where
  listed : s.now.Listed entry.1
  stored : ∃ stats, HashMap.get? s.now.statsCache entry.1 = some stats ∧
    s.after.marketData.snapshot entry.1 = some ⟨s.now.numberedBook entry.1 entry.2,
      stats.quoted (s.now.numberedBook entry.1 entry.2), entry.2⟩
  unchanged : s.now.marketData.snapshot entry.1 = s.before.marketData.snapshot entry.1
  newer : ∀ snap, s.now.marketData.snapshot entry.1 = some snap → snap.version ≤ entry.2

/-- Of the operation under way only `left` is still to be stored. -/
structure Storing (s : Desk D) (left : List ((_ : Int) × Nat)) : Prop where
  once : (left.map Sigma.fst).Nodup
  due : ∀ entry ∈ left, Due s entry
  done : ∀ i, i ∉ left.map Sigma.fst →
    s.now.marketData.snapshot i = s.after.marketData.snapshot i

theorem Storing.congr {s s' : Desk D} {left : List ((_ : Int) × Nat)} (h : Storing s left)
    (before : s'.before = s.before) (now : s'.now = s.now) (after : s'.after = s.after) :
    Storing s' left := by
  refine ⟨h.once, fun entry mem => ?_, fun i absent => ?_⟩
  · have due := h.due entry mem
    constructor
    · rw [now]
      exact due.listed
    · rw [now, after]
      exact due.stored
    · rw [now, before]
      exact due.unchanged
    · rw [now]
      exact due.newer
  · rw [now, after]
    exact h.done i absent

/-- The market data in an answer can still be read, in no older version. -/
def Seen (e : Engine D) (reply : Snapshot D) : Prop := ∀ symbol version,
  reply.shown = some (symbol, version) → ∃ slot snap,
    e.marketData.catalog.get? symbol = some slot ∧ e.marketData.snapshot slot = some snap ∧
    version ≤ snap.version

theorem Seen.advances {e e' : Engine D} {reply : Snapshot D} (h : Seen e reply)
    (advances : Advances e e') : Seen e' reply := by
  intro symbol version shown
  obtain ⟨slot, snap, listed, read, newer⟩ := h symbol version shown
  obtain ⟨snap', read', newer'⟩ := advances.snapshot slot snap read
  exact ⟨slot, snap', advances.catalog symbol slot listed, read', newer.trans newer'⟩

/-- A later answer about a symbol shows it, in no older version. -/
def Newer (earlier later : Answer D) : Prop := ∀ symbol version book,
  earlier.reply.shown = some (symbol, version) → route later.path = .market book symbol →
    later.reply.status = 200 ∧
      ∃ version', version ≤ version' ∧ later.reply.shown = some (symbol, version')

omit [Decimal D] in
theorem Snapshot.status_shown {reply : Snapshot D} {symbol : String} {version : Nat}
    (shown : reply.shown = some (symbol, version)) : reply.status = 200 := by
  cases reply with
  | book | stats => rfl
  | strings | missing => cases shown

/-- An answer of the engine before or after the operation under way. -/
structure Sequential (policy : FillPolicy) (a : Answer D) : Prop where
  before : Reachable policy a.before
  between : a.after = a.before ∨ ∃ command, Step a.before command a.after
  answers : a.reply = respond a.before a.path ∨ a.reply = respond a.after a.path

structure Sound (policy : FillPolicy) (s : Desk D) : Prop where
  before : Reachable policy s.before
  between : s.after = s.before ∨ ∃ command, Step s.before command s.after
  free : s.busy = none → s.after = s.before ∧ s.now = s.before
  now : s.now.marketData.catalog = s.before.marketData.catalog
  after : s.after.marketData.catalog = s.before.marketData.catalog
  settled : s.now.Settled
  storing : ∀ left, s.busy = some left → Storing s left
  holds : ∀ worker held, s.holding worker = some held →
    route held.path = .market held.book held.symbol ∧
    s.now.marketData.catalog.get? held.symbol = some held.slot
  sequential : ∀ a ∈ s.answers, Sequential policy a
  seen : ∀ a ∈ s.answers, Seen s.now a.reply
  newer : s.answers.Pairwise Newer

namespace Sound

variable {policy : FillPolicy} {s s' : Desk D}

/-- A reader loads what was there before the operation or what is there after it. -/
theorem either (h : Sound policy s) (i : Int) :
    s.now.marketData.snapshot i = s.before.marketData.snapshot i ∨
      s.now.marketData.snapshot i = s.after.marketData.snapshot i := by
  cases busy : s.busy with
  | none => exact .inl (by rw [(h.free busy).2])
  | some left =>
    have storing := h.storing left busy
    by_cases due : i ∈ left.map Sigma.fst
    · obtain ⟨entry, mem, rfl⟩ := List.mem_map.mp due
      exact .inl (storing.due entry mem).unchanged
    · exact .inr (storing.done i due)

theorem afterwards (h : Sound policy s) : Reachable policy s.after := by
  rcases h.between with same | ⟨command, step⟩
  · rw [same]
    exact h.before
  · exact h.before.tail ⟨command, trivial, step⟩

/-- An answer that agrees with what can be read now. -/
theorem answered (h : Sound policy s) {path : String} {reply : Snapshot D}
    (answers : reply = respond s.before path ∨ reply = respond s.after path)
    (seen : Seen s.now reply)
    (newer : ∀ book symbol slot, route path = .market book symbol →
      s.now.marketData.catalog.get? symbol = some slot →
      ∃ snap, s.now.marketData.snapshot slot = some snap ∧
        reply.shown = some (symbol, snap.version)) : Sound policy (s.answer path reply) := by
  refine { h with
    storing := fun left busy => (h.storing left busy).congr rfl rfl rfl
    sequential := ?_, seen := ?_, newer := ?_ }
  · intro a mem
    rcases List.mem_append.mp mem with earlier | last
    · exact h.sequential a earlier
    · obtain rfl := List.mem_singleton.mp last
      exact ⟨h.before, h.between, answers⟩
  · intro a mem
    rcases List.mem_append.mp mem with earlier | last
    · exact h.seen a earlier
    · obtain rfl := List.mem_singleton.mp last
      exact seen
  · refine List.pairwise_append.mpr ⟨h.newer, List.pairwise_singleton _ _, ?_⟩
    intro a earlier b last symbol version book shown asked
    obtain rfl := List.mem_singleton.mp last
    obtain ⟨slot, snap, listed, read, grown⟩ := h.seen a earlier symbol version shown
    obtain ⟨snap', read', shown'⟩ := newer book symbol slot asked listed
    obtain rfl := Option.some.inj (read.symm.trans read')
    exact ⟨Snapshot.status_shown shown', snap.version, grown, shown'⟩

/-- The publication of one instrument. -/
theorem store (h : Sound policy s) {entry : (_ : Int) × Nat} {left : List ((_ : Int) × Nat)}
    {now' : Engine D} (busy : s.busy = some (entry :: left))
    (stored : s.now.publishInstrument entry.1 entry.2 = .ok now') :
    Advances s.now now' ∧ Sound policy { s with now := now', busy := some left } := by
  have storing := h.storing _ busy
  have due := storing.due entry List.mem_cons_self
  obtain ⟨stats, cached, shown⟩ := due.stored
  obtain ⟨again, stored', issued⟩ := @publishInstrument_issues _ _ _ _ entry.2 h.settled
    due.listed ⟨stats, cached⟩
  obtain rfl : again = now' := Except.ok.inj (stored'.symm.trans stored)
  obtain ⟨first, later⟩ := List.nodup_cons.mp storing.once
  obtain ⟨stats', cached', -, published⟩ := issued.issued entry.1 entry.2 (if_pos rfl)
  obtain rfl : stats' = stats := Option.some.inj (cached'.symm.trans cached)
  have spared : ∀ i, i ≠ entry.1 → HashMap.get? again.statsCache i =
      HashMap.get? s.now.statsCache i ∧
      again.marketData.snapshot i = s.now.marketData.snapshot i :=
    fun i apart => issued.spared i (if_neg apart)
  have numbered : again.numberedBook = s.now.numberedBook := by
    funext i n
    unfold numberedBook
    rw [issued.book]
  have catalog := publishInstrument_catalog stored
  have advances : Advances s.now again := by
    constructor
    · intro symbol slot listed
      rw [catalog]
      exact listed
    · intro i snap read
      by_cases here : i = entry.1
      · subst here
        exact ⟨_, published, due.newer snap read⟩
      · exact ⟨snap, (spared i here).2.trans read, le_refl _⟩
  refine ⟨advances, { h with
    free := by rintro ⟨⟩, now := catalog.trans h.now, settled := h.settled.congr issued.book,
    storing := ?_, holds := ?_, seen := fun a mem => (h.seen a mem).advances advances }⟩
  · rintro left' ⟨⟩
    refine ⟨later, fun other mem => ?_, fun i absent => ?_⟩
    · have apart : other.1 ≠ entry.1 := by
        intro same
        exact first (same ▸ List.mem_map_of_mem mem)
      have due' := storing.due other (List.mem_cons_of_mem _ mem)
      obtain ⟨same_stats, same_snapshot⟩ := spared other.1 apart
      obtain ⟨snap, read⟩ := due'.listed
      refine ⟨⟨snap, same_snapshot.trans read⟩, ?_, same_snapshot.trans due'.unchanged, ?_⟩
      · obtain ⟨stats, cached, shown⟩ := due'.stored
        refine ⟨stats, same_stats.trans cached, ?_⟩
        rw [numbered]
        exact shown
      · intro snap read
        exact due'.newer snap (same_snapshot.symm.trans read)
    · by_cases here : i = entry.1
      · subst here
        exact published.trans shown.symm
      · refine (spared i here).2.trans (storing.done i ?_)
        rw [List.map_cons, List.mem_cons]
        exact not_or.mpr ⟨here, absent⟩
  · intro worker held holds
    obtain ⟨asked, listed⟩ := h.holds worker held holds
    exact ⟨asked, advances.catalog _ _ listed⟩

/-- A state in which no operation is under way. -/
theorem rest (h : Sound policy s) {e : Engine D} (reach : Reachable policy e)
    (settled : e.Settled) (advances : Advances s.now e) : Sound policy (s.rest e) where
  before := reach
  between := .inl rfl
  free _ := ⟨rfl, rfl⟩
  now := rfl
  after := rfl
  settled := settled
  storing := by rintro left ⟨⟩
  holds worker held holds := by
    obtain ⟨asked, listed⟩ := h.holds worker held holds
    exact ⟨asked, advances.catalog _ _ listed⟩
  sequential := h.sequential
  seen a mem := (h.seen a mem).advances advances
  newer := h.newer

/-- What one load of the catalog answers. -/
theorem looked (h : Sound policy s) {path : String} {reply : Snapshot D}
    (market : route path ≠ .sessions) (found : lookUp s.now.marketData path = .inl reply) :
    Sound policy (s.answer path reply) := by
  have same : lookUp s.before.marketData path = .inl reply := by
    rw [← found]
    unfold lookUp MarketDataReader.allSymbols
    rw [h.now]
  obtain ⟨silent, unlisted⟩ := lookUp_reply found
  refine h.answered (.inl (respond_lookUp market same).symm) ?_ ?_
  · intro symbol version shown
    cases silent.symm.trans shown
  · intro book symbol slot asked listed
    cases (unlisted book symbol asked).symm.trans listed

theorem hold (h : Sound policy s) {worker : Nat} {held : Option Held}
    (holds : ∀ found, held = some found →
      route found.path = .market found.book found.symbol ∧
      s.now.marketData.catalog.get? found.symbol = some found.slot) :
    Sound policy (s.hold worker held) := by
  refine { h with
    storing := fun left busy => (h.storing left busy).congr rfl rfl rfl
    holds := ?_ }
  intro worker' found here
  by_cases same : worker' = worker
  · subst same
    exact holds found (by simpa [Desk.hold] using here)
  · exact h.holds worker' found (by simpa [Desk.hold, same] using here)

end Sound

section Lawful

variable [LawfulDecimal D] {policy : FillPolicy} {s s' : Desk D}

/-- Every operation that trades is worked on and then published. -/
theorem step_working {e e' : Engine D} {command : Command D} (reach : Reachable policy e)
    (trades : Trades command) (step : Step e command e') :
    ∃ records mid, Working e records mid e' := by
  obtain ⟨c, hp⟩ := reachable_coherent reach
  obtain ⟨m, registry⟩ := reachable_current reach
  have other : ∀ symbol, command ≠ .createInstrument symbol := by
    rintro symbol rfl
    exact trades
  obtain ⟨records, operates⟩ := (outcome_yields c hp m registry (step_iff_outcome.mp step)
    other).returns e' rfl
  obtain ⟨mid, mid', recorded, published, aside⟩ := operates.marketed
  exact ⟨records, mid, recorded, operates.listed, mid', published, aside⟩

theorem reachable_catalogued {e : Engine D} (reach : Reachable policy e) : Catalogued e := by
  induction reach with
  | refl =>
    intro symbol
    rfl
  | @tail e e' run step ih =>
    obtain ⟨command, -, step⟩ := step
    obtain ⟨c, hp⟩ := reachable_coherent run
    by_cases trades : Trades command
    · obtain ⟨records, mid, working⟩ := step_working run trades step
      intro symbol
      rw [working.catalog, step_instruments c hp trades step]
      exact ih symbol
    · cases step with
      | createInstrument symbol => exact ih.create symbol
      | _ => exact absurd trivial trades

/-- The start of an operation. -/
theorem Sound.operate (h : Sound policy s) {command : Command D}
    {records : List (Int × List (RawTrade D))} {mid e' : Engine D}
    {left : List ((_ : Int) × Nat)} (free : s.busy = none) (step : Step s.after command e')
    (working : Working s.after records mid e')
    (order : left.Perm mid.pendingMarketData.entries) : Sound policy { s with
      before := s.after
      now := { mid with pendingMarketData := ∅ }
      after := e'
      busy := some left } := by
  obtain ⟨same, now⟩ := h.free free
  have reach := h.afterwards
  obtain ⟨m, -⟩ := reachable_current reach
  have kept := working.recorded.kept
  have market : mid.marketData = s.now.marketData := by rw [kept.market, now, same]
  obtain ⟨recorded, idle⟩ := working.issued m
  have pending : ∀ entry ∈ left,
      HashMap.get? mid.pendingMarketData entry.1 = some entry.2 :=
    fun entry mem => AList.mem_lookup_iff.mpr (order.mem_iff.mp mem)
  have ready := working.recorded.ready m working.listed
  have catalog : mid.marketData.catalog = s.after.marketData.catalog := by rw [kept.market]
  refine { h with
    before := reach, between := .inr ⟨command, step⟩, free := by rintro ⟨⟩, now := catalog,
    after := working.catalog, settled := ?_, storing := ?_, holds := ?_, seen := ?_ }
  · exact ⟨ready.settled.instrument, ready.settled.filed, ready.settled.summed⟩
  · rintro left' ⟨⟩
    refine ⟨?_, fun entry mem => ?_, fun i absent => ?_⟩
    · exact (order.map Sigma.fst).nodup_iff.mpr mid.pendingMarketData.nodupKeys
    · obtain ⟨later, stats, cached, shown⟩ := recorded entry.1 entry.2 (pending entry mem)
      refine ⟨ready.listed _ _ (pending entry mem), ⟨stats, cached, shown⟩, ?_, ?_⟩
      · exact congrArg (fun m => m.snapshot entry.1) kept.market
      · intro snap read
        have before : s.after.marketData.snapshot entry.1 = some snap := by
          rw [← kept.market]
          exact read
        have past := m.past entry.1 snap before
        omega
    · refine (idle i ?_).symm
      rw [HashMap.get?, AList.lookup_eq_none]
      intro mem
      exact absent ((order.map Sigma.fst).mem_iff.mpr (AList.mem_keys.mp mem))
  · intro worker held holds
    obtain ⟨asked, listed⟩ := h.holds worker held holds
    refine ⟨asked, ?_⟩
    change mid.marketData.catalog.get? _ = _
    rw [market]
    exact listed
  · intro a mem
    refine (h.seen a mem).advances (.of_same ?_ fun i => ?_)
    · exact congrArg MarketDataPublisher.catalog market
    · exact congrArg (fun m => m.snapshot i) market

/-- Every move keeps the answers sound. -/
theorem Sound.move (h : Sound policy s) (move : Move s s') : Sound policy s' := by
  cases move with
  | create symbol free =>
    obtain ⟨same, now⟩ := h.free free
    obtain ⟨m, registry⟩ := reachable_current h.afterwards
    refine h.rest (h.afterwards.tail ⟨_, trivial, .createInstrument _ symbol⟩)
      (createInstrument_current m registry symbol).1.settled ?_
    rw [now, ← same]
    exact advances_create (reachable_catalogued h.afterwards) symbol
  | operate free trades step working order => exact h.operate free step working order
  | store busy stored => exact (h.store busy stored).2
  | finish busy =>
    have storing := h.storing [] busy
    refine h.rest h.afterwards (reachable_current h.afterwards).1.settled
      (.of_same (h.after.trans h.now.symm) fun i => ?_)
    exact (storing.done i List.not_mem_nil).symm
  | sessions free asked =>
    obtain ⟨same, now⟩ := h.free free
    refine h.answered (.inl ?_) (by rintro _ _ ⟨⟩) fun book symbol slot market => ?_
    · rw [respond_route, asked, now]
    · rw [asked] at market
      cases market
  | answer market found => exact h.looked market found
  | find idle found =>
    obtain ⟨rfl, asked, listed⟩ := lookUp_held found
    refine h.hold ?_
    rintro _ ⟨⟩
    exact ⟨asked, listed⟩
  | @fetch worker held snap holds shown =>
    obtain ⟨asked, listed⟩ := h.holds worker held holds
    have quiet : Sound policy (s.hold worker none) := h.hold (by rintro _ ⟨⟩)
    have before : s.before.marketData.catalog.get? held.symbol = some held.slot := by
      rw [← h.now]
      exact listed
    have after : s.after.marketData.catalog.get? held.symbol = some held.slot := by
      rw [h.after]
      exact before
    have version : (held.shows snap).shown = some (held.symbol, snap.version) := by
      unfold Held.shows
      split <;> rfl
    refine quiet.answered ?_ ?_ ?_
    · rcases h.either held.slot with same | same
      · exact .inl (respond_held asked before (same.symm.trans shown)).symm
      · exact .inr (respond_held asked after (same.symm.trans shown)).symm
    · intro symbol version' read
      obtain ⟨rfl, rfl⟩ := Prod.mk.inj (Option.some.inj (version.symm.trans read))
      exact ⟨held.slot, snap, listed, shown, le_refl _⟩
    · intro book symbol slot asked' listed'
      obtain ⟨-, rfl⟩ := Route.market.inj (asked.symm.trans asked')
      obtain rfl : held.slot = slot := Option.some.inj (listed.symm.trans listed')
      exact ⟨snap, shown, version⟩

omit [LawfulDecimal D] in
theorem Sound.start (policy : FillPolicy) :
    Sound policy (Desk.idle (withFillPolicy policy : Engine D)) where
  before := .refl
  between := .inl rfl
  free _ := ⟨rfl, rfl⟩
  now := rfl
  after := rfl
  settled := (start_current policy).1.settled
  storing _ busy := by cases busy
  holds _ _ held := by cases held
  sequential := List.forall_mem_nil _
  seen := List.forall_mem_nil _
  newer := .nil

end Lawful

end RustTrader.Rest
