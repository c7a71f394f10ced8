import RustTrader.Engine
import RustTrader.Library.Numeral

/-!
# Wire identifiers

`WireIdMap` of `fix/session.rs`: a connection names orders by texts, the engine by
numbers. A text gets a number once, its own value if that is free, and the two
maps stay inverse to each other.
-/

namespace RustTrader.Fix

structure WireIdMap where
  wireToInternal : HashMap String OrderId
  internalToWire : HashMap OrderId String
  nextInternal : OrderId

namespace WireIdMap

def i32Max : Int := 2 ^ 31 - 1

def new : WireIdMap := ⟨∅, ∅, 1⟩

def free (map : WireIdMap) (id : OrderId) : Bool :=
  decide (0 < id ∧ id ≠ quoteOrderId) && !HashMap.contains map.internalToWire id

/-- The first free number from `candidate` on, among the next few. -/
def search (map : WireIdMap) : Nat → OrderId → Option OrderId
  | 0, _ => none
  | fuel + 1, candidate =>
    if map.free candidate then some candidate else map.search fuel (candidate + 1)

/-- The number a text stands for itself. -/
def preferred (wire : String) : Option OrderId :=
  (Numeral.parseSigned 32 wire).filter (fun id => 0 < id ∧ id ≠ quoteOrderId)

/-- The number a new text gets, and where the next search starts. -/
def pick (map : WireIdMap) (wire : String) : Option (OrderId × OrderId) :=
  let searched :=
    let start := max map.nextInternal 1
    (map.search (i32Max - start + 1).toNat start).map fun candidate =>
      (candidate, max (min (candidate + 1) i32Max) 1)
  match preferred wire with
  | some id => if HashMap.contains map.internalToWire id then searched
      else some (id, map.nextInternal)
  | none => searched

def intern (map : WireIdMap) (wire : String) : Except String OrderId × WireIdMap :=
  if wire = "" then (.error "ClOrdID must not be empty", map)
  else match HashMap.get? map.wireToInternal wire with
    | some id => (.ok id, map)
    | none =>
      match map.pick wire with
      | none => (.error "too many ClOrdIDs", map)
      | some (id, next) =>
        (.ok id, ⟨HashMap.set map.wireToInternal wire id, HashMap.set map.internalToWire id wire,
          next⟩)

def wireFor (map : WireIdMap) (id : OrderId) : Option String := HashMap.get? map.internalToWire id

/-- The number of a text never seen before. -/
def freshId (map : WireIdMap) (wire : String) : Except String OrderId × WireIdMap :=
  if HashMap.contains map.wireToInternal wire then (.error "duplicate ClOrdID", map)
  else map.intern wire

/-- The maps are inverse to each other, between texts and positive 32 bit numbers. -/
structure Paired (map : WireIdMap) : Prop where
  forth : ∀ wire id, HashMap.get? map.wireToInternal wire = some id → map.wireFor id = some wire
  back : ∀ wire id, map.wireFor id = some wire → HashMap.get? map.wireToInternal wire = some id
  range : ∀ wire id, map.wireFor id = some wire → 0 < id ∧ id ≤ i32Max

/-- No text has lost its number. -/
def Extends (map map' : WireIdMap) : Prop :=
  ∀ wire id, HashMap.get? map.wireToInternal wire = some id →
    HashMap.get? map'.wireToInternal wire = some id

theorem Extends.refl (map : WireIdMap) : map.Extends map := fun _ _ h => h

theorem Extends.trans {map map' map'' : WireIdMap} (h : map.Extends map')
    (h' : map'.Extends map'') : map.Extends map'' := fun wire id found => h' wire id
    (h wire id found)

theorem paired_new : new.Paired := by
  refine ⟨?_, ?_, ?_⟩
  · intro wire id found
    cases found
  · intro wire id found
    cases found
  · intro wire id found
    cases found

theorem free_iff {map : WireIdMap} {id : Int} :
    map.free id = true ↔ 0 < id ∧ map.wireFor id = none := by
  unfold free wireFor HashMap.contains quoteOrderId
  rw [Bool.and_eq_true, decide_eq_true_eq, Bool.not_eq_true', Option.isSome_eq_false_iff,
    Option.isNone_iff_eq_none]
  constructor
  · exact fun ⟨⟨positive, _⟩, unused⟩ => ⟨positive, unused⟩
  · exact fun ⟨positive, unused⟩ => ⟨⟨positive, ne_of_gt positive⟩, unused⟩

theorem search_free {map : WireIdMap} {fuel : Nat} : ∀ {start id : Int},
    map.search fuel start = some id → map.free id = true ∧ id < start + fuel := by
  induction fuel with
  | zero =>
    intro start id h
    cases h
  | succ fuel ih =>
    intro start id h
    unfold search at h
    split at h
    · rename_i here
      cases h
      exact ⟨here, by omega⟩
    · obtain ⟨unused, bound⟩ := ih h
      exact ⟨unused, by omega⟩

theorem preferred_range {wire : String} {id : Int} (h : preferred wire = some id) :
    0 < id ∧ id ≤ i32Max := by
  obtain ⟨parsed, positive⟩ := Option.filter_eq_some_iff.mp h
  obtain ⟨-, range⟩ := Option.filter_eq_some_iff.mp parsed
  simp only [decide_eq_true_eq] at positive range
  exact ⟨positive.1, Int.le_sub_one_of_lt range.2⟩

/-- A number that is picked is free and fits. -/
theorem pick_free {map : WireIdMap} {wire : String} {id next : Int}
    (h : map.pick wire = some (id, next)) : 0 < id ∧ id ≤ i32Max ∧ map.wireFor id = none := by
  have searched : ∀ start : Int, 1 ≤ start → (map.search (i32Max - start + 1).toNat start).map
      (fun candidate => (candidate, max (min (candidate + 1) i32Max) 1)) = some (id, next) →
      0 < id ∧ id ≤ i32Max ∧ map.wireFor id = none := by
    intro start low found
    obtain ⟨candidate, hit, same⟩ := Option.map_eq_some_iff.mp found
    obtain rfl := congrArg Prod.fst same
    obtain ⟨unused, bound⟩ := search_free hit
    obtain ⟨positive, unused⟩ := free_iff.mp unused
    refine ⟨positive, ?_, unused⟩
    by_cases room : start ≤ i32Max
    · dsimp only at bound ⊢
      omega
    · have past := not_le.mp room
      rw [Int.toNat_of_nonpos (by omega)] at hit
      cases hit
  unfold pick at h
  dsimp only at h
  split at h
  · rename_i own found
    split at h
    · exact searched _ (le_max_right _ _) h
    · rename_i unused
      cases h
      obtain ⟨positive, bound⟩ := preferred_range found
      refine ⟨positive, bound, ?_⟩
      rw [HashMap.contains, Bool.not_eq_true, Option.isSome_eq_false_iff,
        Option.isNone_iff_eq_none] at unused
      exact unused
  · exact searched _ (le_max_right _ _) h

/-- What giving a number to a text does: the two are paired, a text that is known keeps
its number, a new one gets a number no text has, and nothing else changes. -/
structure Interned (map map' : WireIdMap) (wire : String) (id : OrderId) : Prop where
  given : HashMap.get? map'.wireToInternal wire = some id
  named : map'.wireFor id = some wire
  known : HashMap.get? map.wireToInternal wire ≠ none → map' = map
  fresh : HashMap.get? map.wireToInternal wire = none → map.wireFor id = none
  others : ∀ wire', wire' ≠ wire →
    HashMap.get? map'.wireToInternal wire' = HashMap.get? map.wireToInternal wire'

theorem intern_cases {map map' : WireIdMap} (paired : map.Paired) {wire : String}
    {result : Except String OrderId} (h : map.intern wire = (result, map')) :
    map'.Paired ∧ map.Extends map' ∧
      ((∃ reason, result = .error reason ∧ map' = map) ∨
        ∃ id, result = .ok id ∧ Interned map map' wire id) := by
  unfold intern at h
  split at h
  · cases h
    exact ⟨paired, .refl _, .inl ⟨_, rfl, rfl⟩⟩
  · split at h
    · rename_i id found
      cases h
      exact ⟨paired, .refl _, .inr ⟨id, rfl, found, paired.forth wire id found, fun _ => rfl,
        fun absent => (by rw [absent] at found; cases found), fun _ _ => rfl⟩⟩
    · rename_i unknown
      split at h
      · cases h
        exact ⟨paired, .refl _, .inl ⟨_, rfl, rfl⟩⟩
      · rename_i id next picked
        cases h
        obtain ⟨positive, bound, unused⟩ := pick_free picked
        have others : ∀ wire', wire' ≠ wire → HashMap.get? (HashMap.set map.wireToInternal wire id)
            wire' = HashMap.get? map.wireToInternal wire' :=
          fun wire' other => HashMap.get?_set_ne _ _ other
        have named : ∀ id', (HashMap.set map.internalToWire id wire).get? id' =
            if id' = id then some wire else map.wireFor id' :=
          fun id' => HashMap.get?_set _ _ _ _
        refine ⟨⟨?_, ?_, ?_⟩, ?_, .inr ⟨id, rfl, HashMap.get?_set_self _ _ _,
          HashMap.get?_set_self _ _ _, fun some_ => absurd unknown some_, fun _ => unused,
          others⟩⟩
        · intro wire' id' found
          rw [HashMap.get?_set] at found
          rw [wireFor, named]
          split at found
          · cases found
            rw [if_pos rfl]
            simp [*]
          · have before := paired.forth wire' id' found
            rw [if_neg (fun same => by rw [same, unused] at before; cases before)]
            exact before
        · intro wire' id' found
          rw [wireFor, named] at found
          rw [HashMap.get?_set]
          split at found
          · cases found
            rw [if_pos rfl]
            simp [*]
          · have before := paired.back wire' id' found
            rw [if_neg (fun same => by rw [same, unknown] at before; cases before)]
            exact before
        · intro wire' id' found
          rw [wireFor, named] at found
          split at found
          · rename_i same
            exact same ▸ ⟨positive, bound⟩
          · exact paired.range wire' id' found
        · intro wire' id' found
          rw [HashMap.get?_set, if_neg (fun same => by rw [same, unknown] at found; cases found)]
          exact found

/-- A text is fresh once: it gets a number no text had. -/
theorem freshId_cases {map map' : WireIdMap} (paired : map.Paired) {wire : String}
    {result : Except String OrderId} (h : map.freshId wire = (result, map')) :
    map'.Paired ∧ map.Extends map' ∧
      ((∃ reason, result = .error reason ∧ map' = map) ∨
        ∃ id, result = .ok id ∧ Interned map map' wire id ∧
          HashMap.get? map.wireToInternal wire = none ∧ map.wireFor id = none) := by
  unfold freshId at h
  split at h
  · cases h
    exact ⟨paired, .refl _, .inl ⟨_, rfl, rfl⟩⟩
  · rename_i unseen
    have unknown : HashMap.get? map.wireToInternal wire = none := by
      simpa [HashMap.contains] using unseen
    obtain ⟨paired', extends_, refused | ⟨id, given, interned⟩⟩ := intern_cases paired h
    · exact ⟨paired', extends_, .inl refused⟩
    · exact ⟨paired', extends_, .inr ⟨id, given, interned, unknown, interned.fresh unknown⟩⟩

/-- The search from a candidate to the last positive 32 bit number. -/
def searchFrom (map : WireIdMap) (candidate : Int) : Option OrderId :=
  map.search (i32Max - candidate + 1).toNat candidate

/-- The search is the loop over all candidates: it stops at the first free one, or
when there is no next one. -/
theorem searchFrom_eq (map : WireIdMap) {candidate : Int} (room : candidate ≤ i32Max) :
    map.searchFrom candidate =
      if map.free candidate then some candidate
      else if candidate = i32Max then none
      else map.searchFrom (candidate + 1) := by
  have fuel : (i32Max - candidate + 1).toNat = (i32Max - (candidate + 1) + 1).toNat + 1 := by omega
  unfold searchFrom
  rw [fuel, search]
  by_cases last : candidate = i32Max
  · subst last
    simp [search]
  · rw [if_neg last]

/-- A search that fails has seen every number taken. -/
theorem search_none {map : WireIdMap} {fuel : Nat} : ∀ {start : Int},
    map.search fuel start = none ↔ ∀ id, start ≤ id → id < start + fuel → map.free id = false := by
  induction fuel with
  | zero =>
    intro start
    simp only [search, true_iff]
    omega
  | succ fuel ih =>
    intro start
    unfold search
    by_cases here : map.free start = true
    · rw [if_pos here]
      constructor
      · intro h
        cases h
      · intro taken
        have := taken start le_rfl (by omega)
        rw [here] at this
        cases this
    · rw [if_neg here, ih]
      constructor
      · intro taken id above below
        by_cases same : id = start
        · rw [same]
          simpa using here
        · exact taken id (by omega) (by omega)
      · intro taken id above below
        exact taken id (by omega) (by omega)

/-- What the search passes over is taken. -/
theorem search_passes {map : WireIdMap} {fuel : Nat} : ∀ {start found : Int},
    map.search fuel start = some found →
      start ≤ found ∧ ∀ id, start ≤ id → id < found → map.free id = false := by
  induction fuel with
  | zero =>
    intro start found h
    cases h
  | succ fuel ih =>
    intro start found h
    unfold search at h
    split at h
    · obtain rfl := Option.some.inj h
      exact ⟨le_rfl, fun id above below => absurd above (by omega)⟩
    · rename_i here
      obtain ⟨above, passed⟩ := ih h
      refine ⟨by omega, ?_⟩
      intro id low high
      by_cases same : id = start
      · rw [same]
        simpa using here
      · exact passed id (by omega) high

/-- The pointer is a positive 32 bit number, and every number below it is taken. -/
structure Packed (map : WireIdMap) : Prop where
  positive : 1 ≤ map.nextInternal
  bound : map.nextInternal ≤ i32Max
  below : ∀ id, 0 < id → id < map.nextInternal → map.wireFor id ≠ none

/-- Every positive 32 bit number is taken. -/
def Full (map : WireIdMap) : Prop := ∀ id, 0 < id → id ≤ i32Max → map.wireFor id ≠ none

theorem taken_iff {map : WireIdMap} {id : Int} (positive : 0 < id) :
    map.free id = false ↔ map.wireFor id ≠ none := by
  rw [← Bool.not_eq_true, free_iff]
  simp [positive]

/-- A text gets its own number, or the one that is searched for. -/
theorem pick_cases {map : WireIdMap} (packed : map.Packed) (wire : String) :
    (∃ id, 0 < id ∧ id ≤ i32Max ∧ map.wireFor id = none ∧
        map.pick wire = some (id, map.nextInternal)) ∨
      map.pick wire = (map.searchFrom map.nextInternal).map fun candidate =>
        (candidate, max (min (candidate + 1) i32Max) 1) := by
  unfold pick searchFrom
  rw [max_eq_left packed.positive]
  cases own : preferred wire with
  | none => exact .inr rfl
  | some id =>
    dsimp only
    obtain ⟨positive, bound⟩ := preferred_range own
    split
    · exact .inr rfl
    · rename_i unused
      refine .inl ⟨id, positive, bound, ?_, rfl⟩
      simpa [HashMap.contains, wireFor] using unused

/-- Nothing is picked just when nothing is left. -/
theorem pick_none {map : WireIdMap} (packed : map.Packed) (wire : String) :
    map.pick wire = none ↔ map.Full := by
  have low : (1 : Int) ≤ map.nextInternal := packed.positive
  have high : map.nextInternal ≤ (i32Max : Int) := packed.bound
  have searched : map.searchFrom map.nextInternal = none ↔ map.Full := by
    unfold searchFrom
    rw [search_none]
    constructor
    · intro taken id positive bound
      by_cases below : id < map.nextInternal
      · exact packed.below id positive below
      · exact (taken_iff positive).mp (taken id (by omega) (by omega))
    · intro full id above below
      exact (taken_iff (by omega)).mpr (full id (by omega) (by omega))
  rcases pick_cases packed wire with ⟨id, positive, bound, unused, picked⟩ | picked
  · rw [picked]
    constructor
    · intro h
      cases h
    · intro full
      exact absurd unused (full id positive bound)
  · rw [picked, Option.map_eq_none_iff, searched]

/-- What is picked leaves no gap below the pointer. -/
theorem pick_packed {map : WireIdMap} (packed : map.Packed) {wire : String} {id next : Int}
    (h : map.pick wire = some (id, next)) : 1 ≤ next ∧ next ≤ i32Max ∧
      ∀ id', 0 < id' → id' < next → id' = id ∨ map.wireFor id' ≠ none := by
  have low : (1 : Int) ≤ map.nextInternal := packed.positive
  have high : map.nextInternal ≤ (i32Max : Int) := packed.bound
  rcases pick_cases packed wire with ⟨own, positive, bound, unused, picked⟩ | picked
  · obtain ⟨rfl, rfl⟩ := Prod.mk.inj (Option.some.inj (picked.symm.trans h))
    exact ⟨low, high, fun id' positive below => .inr (packed.below id' positive below)⟩
  · obtain ⟨candidate, found, same⟩ := Option.map_eq_some_iff.mp (picked.symm.trans h)
    obtain ⟨rfl, rfl⟩ := Prod.mk.inj same
    obtain ⟨above, passed⟩ := search_passes found
    have most : (1 : Int) ≤ i32Max := by decide
    refine ⟨le_max_right _ _, by omega, ?_⟩
    intro id' positive below
    by_cases pointer : id' < map.nextInternal
    · exact .inr (packed.below id' positive pointer)
    · by_cases here : id' = candidate
      · exact .inl here
      · exact .inr ((taken_iff positive).mp (passed id' (by omega) (by omega)))

/-- The map after some texts. -/
def internAll (map : WireIdMap) (wires : List String) : WireIdMap :=
  wires.foldl (fun map wire => (map.intern wire).2) map

theorem packed_new : new.Packed := by
  refine ⟨le_rfl, by decide, ?_⟩
  intro id positive below
  exact absurd below (not_lt.mpr positive)

/-- A text is refused just when it is empty, or new while no number is left. -/
theorem intern_refused {map : WireIdMap} (packed : map.Packed) (wire : String) :
    (map.intern wire).2.Packed ∧
      ((∃ reason, (map.intern wire).1 = .error reason) ↔
        wire = "" ∨ HashMap.get? map.wireToInternal wire = none ∧ map.Full) := by
  unfold intern
  by_cases empty : wire = ""
  · rw [if_pos empty]
    exact ⟨packed, iff_of_true ⟨_, rfl⟩ (.inl empty)⟩
  rw [if_neg empty]
  cases known : HashMap.get? map.wireToInternal wire with
  | some id =>
    refine ⟨packed, iff_of_false ?_ ?_⟩
    · rintro ⟨reason, same⟩
      cases same
    · rintro (same | ⟨unknown, -⟩)
      · exact empty same
      · cases unknown
  | none =>
    dsimp only
    cases picked : map.pick wire with
    | none => exact ⟨packed, iff_of_true ⟨_, rfl⟩ (.inr ⟨rfl, (pick_none packed wire).mp picked⟩)⟩
    | some pair =>
      obtain ⟨id, next⟩ := pair
      obtain ⟨positive, bound, below⟩ := pick_packed packed picked
      refine ⟨⟨positive, bound, ?_⟩, iff_of_false ?_ ?_⟩
      · intro id' positive' less
        change HashMap.get? (HashMap.set map.internalToWire id wire) id' ≠ none
        rw [HashMap.get?_set]
        rcases below id' positive' less with rfl | taken
        · simp
        · split
          · simp
          · exact taken
      · rintro ⟨reason, same⟩
        cases same
      · rintro (same | ⟨-, full⟩)
        · exact empty same
        · rw [(pick_none packed wire).mpr full] at picked
          cases picked

/-- What one text does to the map: it is refused, without a trace, when it is empty, or
new while no number is left, and otherwise has a number afterwards. -/
theorem intern_spec {map : WireIdMap} (paired : map.Paired) (packed : map.Packed)
    (wire : String) : (map.intern wire).2.Paired ∧ (map.intern wire).2.Packed ∧
      map.Extends (map.intern wire).2 ∧
      ((∃ reason, (map.intern wire).1 = .error reason) ↔
        wire = "" ∨ HashMap.get? map.wireToInternal wire = none ∧ map.Full) ∧
      ((∃ reason, (map.intern wire).1 = .error reason) → (map.intern wire).2 = map) ∧
      ∀ id, (map.intern wire).1 = .ok id → Interned map (map.intern wire).2 wire id := by
  have split : map.intern wire = ((map.intern wire).1, (map.intern wire).2) := rfl
  obtain ⟨packed', refused⟩ := intern_refused packed wire
  obtain ⟨paired', extended, ⟨reason, failed, same⟩ | ⟨id, given, interned⟩⟩ :=
    intern_cases paired split
  · refine ⟨paired', packed', extended, refused, fun _ => same, fun id given => ?_⟩
    rw [failed] at given
    cases given
  · refine ⟨paired', packed', extended, refused, ?_, ?_⟩
    · rintro ⟨reason, failed⟩
      rw [failed] at given
      cases given
    · intro id' given'
      obtain rfl := Except.ok.inj (given.symm.trans given')
      exact interned

theorem internAll_invariant (wires : List String) : ∀ {map : WireIdMap}, map.Paired → map.Packed →
    (map.internAll wires).Paired ∧ (map.internAll wires).Packed ∧
      map.Extends (map.internAll wires) := by
  induction wires with
  | nil => exact fun paired packed => ⟨paired, packed, .refl _⟩
  | cons wire wires ih =>
    intro map paired packed
    obtain ⟨paired', packed', extended, -⟩ := intern_spec paired packed wire
    obtain ⟨paired'', packed'', later⟩ := ih paired' packed'
    exact ⟨paired'', packed'', extended.trans later⟩

/-- A growing bijection that gives out numbers until none is left: what it knows stays,
the search for a number passes each taken one, a text is refused, without a trace, just
when it is empty or new on a full map, and any other text is paired with the number it
gets, its own if it is known and one that no text has if it is new. -/
structure Serviceable (map : WireIdMap) : Prop where
  paired : map.Paired
  packed : map.Packed
  lasting : ∀ more wire id, HashMap.get? map.wireToInternal wire = some id →
    HashMap.get? (map.internAll more).wireToInternal wire = some id ∧
      (map.internAll more).wireFor id = some wire
  searching : ∀ candidate, candidate ≤ i32Max → map.searchFrom candidate =
    if map.free candidate then some candidate
    else if candidate = i32Max then none
    else map.searchFrom (candidate + 1)
  refused : ∀ wire, (∃ reason, (map.intern wire).1 = .error reason) ↔
    wire = "" ∨ HashMap.get? map.wireToInternal wire = none ∧ map.Full
  unchanged : ∀ wire, (∃ reason, (map.intern wire).1 = .error reason) →
    (map.intern wire).2 = map
  interned : ∀ wire id, (map.intern wire).1 = .ok id →
    Interned map (map.intern wire).2 wire id
  served : ∀ wire id, wire ≠ "" → HashMap.get? map.wireToInternal wire = some id →
    map.intern wire = (.ok id, map)

/-- After any texts the map is serviceable. -/
theorem ids_until_exhaustion (wires : List String) : Serviceable (internAll new wires) := by
  obtain ⟨paired, packed, -⟩ := internAll_invariant wires paired_new packed_new
  have spec := intern_spec paired packed
  refine ⟨paired, packed, ?_, fun candidate => searchFrom_eq _, fun wire => (spec wire).2.2.2.1,
    fun wire => (spec wire).2.2.2.2.1, fun wire => (spec wire).2.2.2.2.2, ?_⟩
  · intro more wire id found
    obtain ⟨paired', -, extended⟩ := internAll_invariant more paired packed
    have kept := extended wire id found
    exact ⟨kept, paired'.forth wire id kept⟩
  · intro wire id text found
    unfold intern
    rw [if_neg text, found]

end WireIdMap

end RustTrader.Fix
