import RustTrader.Loading

/-!
# What a file of instruments lists

`InstrumentMap::load_from_reader` against a reading of the file line by line: it
is accepted when every line that says something lists one instrument and none is
listed twice, and then the registry holds what is listed. A refused file leaves
the registry as it was.
-/

namespace RustTrader

namespace InstrumentMap

/-- `load_from_reader` on a registry: the file is parsed apart from it. -/
def load (map : InstrumentMap) (text : String) : Except String Unit × InstrumentMap :=
  match loadFromReader text with
  | .error message => (.error message, map)
  | .ok loaded => (.ok (), loaded)

/-- A line is blank or a comment. -/
def Silent (line : List Char) : Prop :=
  trim line = [] ∨ ['/', '/'] <+: trim line ∨ ['#'] <+: trim line

instance (line : List Char) : Decidable (Silent line) := by
  unfold Silent
  infer_instance

/-- The lines that say something. -/
def listing (text : String) : List (List Char) :=
  (text.toList.splitOn '\n').filter (fun line => !decide (Silent line))

/-- A line lists an instrument: a number and a symbol, and nothing else. -/
structure Lists (line : List Char) (entry : Instrument) : Prop where
  words : ∃ number symbol, splitWhitespace (trim line) = [number, symbol] ∧
    Numeral.parseSigned 64 (String.ofList number) = some entry.id ∧
    entry.symbol = String.ofList symbol ∧ ∀ c ∈ symbol, graphic c ∧ c ≠ '='
  positive : 0 < entry.id
  bound : entry.id < i64Max

/-- A map holds the entries under their keys. -/
def Holds {K : Type} [DecidableEq K] (key : Instrument → K) (map : HashMap K Instrument)
    (entries : List Instrument) : Prop :=
  ∀ k x, HashMap.get? map k = some x ↔ x ∈ entries ∧ key x = k

theorem Holds.set {K : Type} [DecidableEq K] {key : Instrument → K} {map : HashMap K Instrument}
    {entries : List Instrument} (h : Holds key map entries) {entry : Instrument}
    (fresh : HashMap.get? map (key entry) = none) :
    Holds key (HashMap.set map (key entry) entry) (entries ++ [entry]) := by
  intro k x
  rw [HashMap.get?_set, List.mem_append, List.mem_singleton]
  split
  · rename_i same
    subst same
    constructor
    · intro found
      obtain rfl := Option.some.inj found
      exact ⟨.inr rfl, rfl⟩
    · rintro ⟨old | rfl, same⟩
      · rw [(h (key entry) x).mpr ⟨old, same⟩] at fresh
        cases fresh
      · rfl
  · rename_i other
    rw [h k x]
    constructor
    · rintro ⟨mem, same⟩
      exact ⟨.inl mem, same⟩
    · rintro ⟨old | rfl, same⟩
      · exact ⟨old, same⟩
      · exact absurd same.symm other

theorem Holds.fresh_iff {K : Type} [DecidableEq K] {key : Instrument → K}
    {map : HashMap K Instrument} {entries : List Instrument} (h : Holds key map entries) (k : K) :
    HashMap.get? map k = none ↔ k ∉ entries.map key := by
  rw [← not_iff_not, ← Ne, Option.ne_none_iff_exists', not_not, List.mem_map]
  exact exists_congr (h k)

/-- The registry holds the listed instruments, and numbers on above them. -/
structure Registers (map : InstrumentMap) (entries : List Instrument) : Prop where
  byId : Holds Instrument.id map.byId entries
  bySymbol : Holds Instrument.symbol map.bySymbol entries
  next : ∀ x ∈ entries, x.id ≤ map.nextId
  room : map.nextId < i64Max

theorem registers_new : Registers new [] := by
  refine ⟨?_, ?_, by simp, by decide⟩
  · intro id x
    simp [new]
  · intro symbol x
    simp [new]

/-- The registry with one more instrument. -/
def enlist (map : InstrumentMap) (entry : Instrument) : InstrumentMap :=
  { map with nextId := max map.nextId entry.id }.put entry

theorem Registers.enlist {map : InstrumentMap} {entries : List Instrument}
    (h : Registers map entries) {entry : Instrument} (bound : entry.id < i64Max)
    (newId : map.getById entry.id = none) (newSymbol : map.getBySymbol entry.symbol = none) :
    Registers (map.enlist entry) (entries ++ [entry]) := by
  refine ⟨h.byId.set newId, h.bySymbol.set newSymbol, ?_, max_lt h.room bound⟩
  intro x mem
  rcases List.mem_append.mp mem with old | here
  · exact (h.next x old).trans (le_max_left _ _)
  · rw [List.mem_singleton.mp here]
    exact le_max_right _ _

theorem silent_iff {line : List Char} : Silent line ↔ (((trim line).isEmpty ||
    ['/', '/'].isPrefixOf (trim line) || ['#'].isPrefixOf (trim line)) = true) := by
  unfold Silent
  rw [Bool.or_eq_true, Bool.or_eq_true, List.isEmpty_iff, List.isPrefixOf_iff_prefix,
    List.isPrefixOf_iff_prefix, or_assoc]

theorem loadLine_silent {map : InstrumentMap} {line : List Char} (silent : Silent line)
    (index : Nat) : map.loadLine index line = .ok map := by
  unfold loadLine
  rw [if_pos (silent_iff.mp silent)]

theorem plain_iff {symbol : List Char} :
    symbol.all (fun c => graphic c && c != '=') = true ↔ ∀ c ∈ symbol, graphic c ∧ c ≠ '=' := by
  simp [List.all_eq_true]

/-- A line that says something is accepted when it lists a new instrument. -/
theorem loadLine_ok {map map' : InstrumentMap} {line : List Char} (speaks : ¬ Silent line)
    {index : Nat} : map.loadLine index line = .ok map' ↔ ∃ entry, Lists line entry ∧
      map.getById entry.id = none ∧ map.getBySymbol entry.symbol = none ∧
      map' = map.enlist entry := by
  unfold loadLine
  dsimp only
  rw [if_neg (fun h => speaks (silent_iff.mpr h))]
  constructor
  · intro load
    split at load
    · rename_i number symbol words
      split at load
      · cases load
      rename_i id parsed
      split at load
      · cases load
      rename_i range
      rw [not_or, not_le] at range
      split at load
      · cases load
      rename_i plain
      split at load
      · cases load
      rename_i newId
      split at load
      · cases load
      rename_i newSymbol
      obtain rfl := Except.ok.inj load
      rw [Bool.not_eq_true', Bool.not_eq_false] at plain
      rw [Bool.not_eq_true, Option.isSome_eq_false_iff, Option.isNone_iff_eq_none]
        at newId newSymbol
      have most : id < 2 ^ 63 := by
        obtain ⟨-, fits⟩ := Option.filter_eq_some_iff.mp parsed
        simp only [decide_eq_true_eq] at fits
        exact fits.2
      have below : id < i64Max := by
        have := range.2
        unfold i64Max at this ⊢
        omega
      exact ⟨⟨id, String.ofList symbol⟩,
        ⟨⟨number, symbol, words, parsed, rfl, plain_iff.mp plain⟩, range.1, below⟩, newId,
          newSymbol,
        rfl⟩
    · cases load
  · rintro ⟨⟨id, name⟩, ⟨⟨number, symbol, words, parsed, rfl, plain⟩, positive, bound⟩, newId,
      newSymbol, rfl⟩
    have range : ¬ (id ≤ 0 ∨ id = i64Max) := by
      rintro (low | high)
      · exact absurd positive (not_lt.mpr low)
      · exact absurd bound (by rw [high]; exact lt_irrefl _)
    rw [words]
    simp only [parsed, range, plain_iff.mpr plain, newId, newSymbol, if_false, Bool.not_true,
      Bool.false_eq_true, Option.isSome_none]
    rfl

/-- All different, by number and by symbol. -/
def Distinct (entries : List Instrument) : Prop :=
  (entries.map Instrument.id).Nodup ∧ (entries.map Instrument.symbol).Nodup

theorem distinct_snoc {entries : List Instrument} {entry : Instrument} :
    Distinct (entries ++ [entry]) ↔ Distinct entries ∧
      entry.id ∉ entries.map Instrument.id ∧ entry.symbol ∉ entries.map Instrument.symbol := by
  have snoc : ∀ {K : Type} (key : Instrument → K), ((entries ++ [entry]).map key).Nodup ↔
      (entries.map key).Nodup ∧ key entry ∉ entries.map key := by
    intro K key
    rw [List.map_append, List.map_singleton, List.nodup_append_comm, List.singleton_append,
      List.nodup_cons, and_comm]
  unfold Distinct
  rw [snoc, snoc]
  tauto

theorem Distinct.left {entries more : List Instrument} (h : Distinct (entries ++ more)) :
    Distinct entries := by
  unfold Distinct at h
  rw [List.map_append, List.map_append] at h
  exact ⟨h.1.of_append_left, h.2.of_append_left⟩

/-- The lines of a file from some point on are accepted when those that say
something list further instruments, different from each other and from those before. -/
theorem loadLines_ok (lines : List (List Char)) : ∀ {map map' : InstrumentMap}
    {entries : List Instrument} {index : Nat}, Registers map entries → Distinct entries →
      (map.loadLines index lines = .ok map' ↔
        ∃ more, List.Forall₂ Lists (lines.filter (fun line => !decide (Silent line))) more ∧
          Distinct (entries ++ more) ∧ map' = more.foldl InstrumentMap.enlist map) := by
  induction lines with
  | nil =>
    intro map map' entries index registers distinct
    rw [loadLines, List.filter_nil]
    constructor
    · intro load
      exact ⟨[], .nil, by simpa using distinct, (Except.ok.inj load).symm⟩
    · rintro ⟨more, none_, -, rfl⟩
      cases none_
      rfl
  | cons line lines ih =>
    intro map map' entries index registers distinct
    rw [loadLines, bind_eq_ok]
    by_cases silent : Silent line
    · rw [List.filter_cons_of_neg (by simp [silent]), loadLine_silent silent]
      rw [← ih registers distinct]
      constructor
      · rintro ⟨next, same, load⟩
        cases same
        exact load
      · exact fun load => ⟨map, rfl, load⟩
    · rw [List.filter_cons_of_pos (by simp [silent])]
      have fresh : ∀ {entry : Instrument}, (map.getById entry.id = none ∧
          map.getBySymbol entry.symbol = none) ↔ Distinct (entries ++ [entry]) := by
        intro entry
        rw [distinct_snoc]
        exact (and_congr (registers.byId.fresh_iff _) (registers.bySymbol.fresh_iff _)).trans
          (and_iff_right distinct).symm
      constructor
      · rintro ⟨next, here, load⟩
        obtain ⟨entry, lists, newId, newSymbol, rfl⟩ := (loadLine_ok silent).mp here
        have apart := fresh.mp ⟨newId, newSymbol⟩
        obtain ⟨more, rest, different, rfl⟩ :=
          (ih (registers.enlist lists.bound newId newSymbol) apart).mp load
        rw [List.append_assoc] at different
        exact ⟨entry :: more, .cons lists rest, different, rfl⟩
      · rintro ⟨more, all, different, rfl⟩
        cases all with
        | @cons _ entry _ more lists rest =>
          rw [← List.singleton_append, ← List.append_assoc] at different
          obtain ⟨newId, newSymbol⟩ := fresh.mpr different.left
          refine ⟨map.enlist entry,
            (loadLine_ok silent).mpr ⟨entry, lists, newId, newSymbol, rfl⟩, ?_⟩
          exact (ih (registers.enlist lists.bound newId newSymbol) different.left).mpr
            ⟨more, rest, different, rfl⟩

theorem Registers.all {more : List Instrument} : ∀ {map : InstrumentMap}
    {entries : List Instrument}, Registers map entries → Distinct (entries ++ more) →
      (∀ x ∈ more, x.id < i64Max) →
      Registers (more.foldl InstrumentMap.enlist map) (entries ++ more) := by
  induction more with
  | nil =>
    intro map entries registers _ _
    simpa using registers
  | cons entry more ih =>
    intro map entries registers different bounded
    rw [← List.singleton_append, ← List.append_assoc] at different ⊢
    obtain ⟨-, newId, newSymbol⟩ := distinct_snoc.mp different.left
    exact ih (registers.enlist (bounded entry (by simp)) ((registers.byId.fresh_iff _).mpr newId)
      ((registers.bySymbol.fresh_iff _).mpr newSymbol)) different
      (fun x mem => bounded x (by simp [mem]))

theorem bounded_of_lists {lines : List (List Char)} {entries : List Instrument}
    (h : List.Forall₂ Lists lines entries) : ∀ x ∈ entries, x.id < i64Max := by
  induction h with
  | nil => simp
  | cons lists _ ih =>
    intro x mem
    rcases List.mem_cons.mp mem with rfl | mem
    · exact lists.bound
    · exact ih x mem

theorem Registers.isEmpty {map : InstrumentMap} {entries : List Instrument}
    (h : Registers map entries) : map.byId.entries.isEmpty = true ↔ entries = [] := by
  constructor
  · intro empty
    refine List.eq_nil_iff_forall_not_mem.mpr ?_
    intro x mem
    have found := HashMap.mem_pairs.mpr ((h.byId x.id x).mpr ⟨mem, rfl⟩)
    rw [HashMap.pairs, List.isEmpty_iff.mp empty] at found
    cases found
  · rintro rfl
    rw [List.isEmpty_iff, ← List.map_eq_nil_iff (f := fun entry => (entry.1, entry.2))]
    refine List.eq_nil_iff_forall_not_mem.mpr ?_
    rintro ⟨id, x⟩ mem
    cases ((h.byId id x).mp (HashMap.mem_pairs.mp mem)).1

/-- A file is accepted when it lists some instruments, all different, and then the
registry is that of the list. -/
theorem loadFromReader_ok {text : String} {loaded : InstrumentMap} :
    loadFromReader text = .ok loaded ↔ ∃ entries, List.Forall₂ Lists (listing text) entries ∧
      Distinct entries ∧ entries ≠ [] ∧ loaded = entries.foldl InstrumentMap.enlist new := by
  have lines : ∀ map', new.loadLines 0 (text.toList.splitOn '\n') = .ok map' ↔
      ∃ entries, List.Forall₂ Lists (listing text) entries ∧ Distinct ([] ++ entries) ∧
        map' = entries.foldl InstrumentMap.enlist new :=
    fun _ => loadLines_ok _ registers_new ⟨List.nodup_nil, List.nodup_nil⟩
  unfold loadFromReader
  rw [bind_eq_ok]
  constructor
  · rintro ⟨map, parsed, checked⟩
    obtain ⟨entries, lists, distinct, rfl⟩ := (lines map).mp parsed
    have registers := registers_new.all distinct (bounded_of_lists lists)
    refine ⟨entries, lists, distinct, ?_, ?_⟩
    · intro none_
      rw [if_pos (registers.isEmpty.mpr none_)] at checked
      cases checked
    · split at checked
      · cases checked
      · exact (Except.ok.inj checked).symm
  · rintro ⟨entries, lists, distinct, some_, rfl⟩
    have registers : Registers _ ([] ++ entries) :=
      registers_new.all distinct (bounded_of_lists lists)
    refine ⟨_, (lines _).mpr ⟨entries, lists, distinct, rfl⟩, ?_⟩
    rw [if_neg (fun empty => some_ (registers.isEmpty.mp empty))]
    rfl

/-- A file is loaded as a whole or not at all: it is accepted just when it lists
different instruments, the registry then holds exactly these, both ways, and numbers
on above them; a refused file changes nothing. -/
theorem load_all_or_nothing (previous : InstrumentMap) (text : String) :
    ((∃ loaded, previous.load text = (.ok (), loaded)) ↔
      ∃ entries, List.Forall₂ Lists (listing text) entries ∧ listing text ≠ [] ∧
        Distinct entries) ∧
    (∀ loaded, previous.load text = (.ok (), loaded) →
      ∃ entries, List.Forall₂ Lists (listing text) entries ∧
        (∀ id x, loaded.getById id = some x ↔ x ∈ entries ∧ x.id = id) ∧
        (∀ symbol x, loaded.getBySymbol symbol = some x ↔ x ∈ entries ∧ x.symbol = symbol) ∧
        (∀ id symbol, loaded.getById id = some ⟨id, symbol⟩ ↔
          loaded.getBySymbol symbol = some ⟨id, symbol⟩) ∧
        (∀ x ∈ entries, x.id < loaded.nextId + 1) ∧ loaded.nextId + 1 ≤ i64Max) ∧
    ∀ message after, previous.load text = (.error message, after) → after = previous := by
  have accepted : ∀ loaded, previous.load text = (.ok (), loaded) ↔
      loadFromReader text = .ok loaded := by
    intro loaded
    unfold load
    cases loadFromReader text <;> simp
  refine ⟨?_, ?_, ?_⟩
  · simp only [accepted, loadFromReader_ok]
    constructor
    · rintro ⟨loaded, entries, lists, distinct, some_, -⟩
      refine ⟨entries, lists, ?_, distinct⟩
      intro none_
      rw [none_] at lists
      exact some_ (List.forall₂_nil_left_iff.mp lists)
    · rintro ⟨entries, lists, some_, distinct⟩
      refine ⟨_, entries, lists, distinct, ?_, rfl⟩
      rintro rfl
      exact some_ (List.forall₂_nil_right_iff.mp lists)
  · intro loaded h
    rw [accepted, loadFromReader_ok] at h
    obtain ⟨entries, lists, distinct, -, rfl⟩ := h
    have registers : Registers _ ([] ++ entries) :=
      registers_new.all distinct (bounded_of_lists lists)
    rw [List.nil_append] at registers
    refine ⟨entries, lists, registers.byId, registers.bySymbol, ?_, ?_, registers.room⟩
    · intro id symbol
      refine (registers.byId id ⟨id, symbol⟩).trans ?_
      rw [and_iff_left rfl]
      exact ((registers.bySymbol symbol ⟨id, symbol⟩).trans (and_iff_left rfl)).symm
    · intro x mem
      exact Int.lt_add_one_of_le (registers.next x mem)
  · intro message after h
    unfold load at h
    split at h
    · exact (Prod.mk.inj h).2.symm
    · cases (Prod.mk.inj h).1

end InstrumentMap

end RustTrader
