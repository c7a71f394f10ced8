import Mathlib.Data.List.AList

/-!
# Unordered finite maps

Association lists without duplicate keys, read through `get?` only. Nothing
here depends on the order of the underlying list: code that iterates over such
a map takes the order of iteration as an argument.
-/

abbrev HashMap (K V : Type) := AList (fun _ : K => V)

namespace HashMap

variable {K V : Type} [DecidableEq K]

def get? (m : HashMap K V) (k : K) : Option V := AList.lookup k m

def contains (m : HashMap K V) (k : K) : Bool := (get? m k).isSome

def set (m : HashMap K V) (k : K) (v : V) : HashMap K V := AList.insert k v m

def remove (m : HashMap K V) (k : K) : HashMap K V := AList.erase k m

/-- Keep the bindings whose key satisfies `p`. -/
def retain (m : HashMap K V) (p : K → Bool) : HashMap K V :=
  ⟨m.entries.filter (fun e => p e.1), m.nodupKeys.sublist List.filter_sublist⟩

@[simp] theorem get?_empty (k : K) : get? (∅ : HashMap K V) k = none := AList.lookup_empty k

theorem get?_set (m : HashMap K V) (k : K) (v : V) (k' : K) :
    get? (set m k v) k' = if k' = k then some v else get? m k' := by
  by_cases h : k' = k
  · subst h
    rw [if_pos rfl]
    exact AList.lookup_insert m
  · rw [if_neg h]
    exact AList.lookup_insert_ne h

theorem get?_remove (m : HashMap K V) (k k' : K) :
    get? (remove m k) k' = if k' = k then none else get? m k' := by
  by_cases h : k' = k
  · subst h
    rw [if_pos rfl]
    exact AList.lookup_erase k' m
  · rw [if_neg h]
    exact AList.lookup_erase_ne h

@[simp] theorem get?_set_self (m : HashMap K V) (k : K) (v : V) : get? (set m k v) k = some v := by
  rw [get?_set, if_pos rfl]

@[simp] theorem get?_remove_self (m : HashMap K V) (k : K) : get? (remove m k) k = none := by
  rw [get?_remove, if_pos rfl]

theorem get?_set_ne (m : HashMap K V) {k k' : K} (v : V) (h : k' ≠ k) :
    get? (set m k v) k' = get? m k' := by rw [get?_set, if_neg h]

theorem get?_remove_ne (m : HashMap K V) {k k' : K} (h : k' ≠ k) :
    get? (remove m k) k' = get? m k' := by rw [get?_remove, if_neg h]

theorem remove_of_get? {m : HashMap K V} {k : K} (h : get? m k = none) : remove m k = m := by
  apply AList.ext
  exact List.kerase_of_notMem_keys (AList.lookup_eq_none.mp h)

theorem get?_retain (m : HashMap K V) (p : K → Bool) (k : K) :
    get? (retain m p) k = if p k then get? m k else none := by
  apply Option.ext
  intro v
  have mem : ∀ n : HashMap K V, get? n k = some v ↔ (⟨k, v⟩ : (_ : K) × V) ∈ n.entries :=
    fun n => AList.mem_lookup_iff
  rw [mem]
  simp only [retain, List.mem_filter]
  by_cases h : p k
  · simp [h, mem]
  · simp [h]

/-- All bindings of `other`, and those of `m` under other keys. -/
def extend (m other : HashMap K V) : HashMap K V := other ∪ m

theorem get?_extend (m other : HashMap K V) (k : K) :
    get? (extend m other) k = (get? other k).or (get? m k) := by
  apply Option.ext
  intro v
  have union : get? (extend m other) k = some v ↔
      get? other k = some v ∨ k ∉ other ∧ get? m k = some v := AList.mem_lookup_union
  rw [union]
  cases here : get? other k with
  | none => simp [AList.lookup_eq_none.mp here]
  | some w =>
    have present : k ∈ other := AList.lookup_isSome.mp (Option.isSome_of_eq_some here)
    simp [present]

/-- The bindings of a map, in no particular order. -/
def pairs (m : HashMap K V) : List (K × V) := m.entries.map (fun entry => (entry.1, entry.2))

theorem mem_pairs {m : HashMap K V} {k : K} {v : V} : (k, v) ∈ pairs m ↔ get? m k = some v := by
  have mem : get? m k = some v ↔ (⟨k, v⟩ : (_ : K) × V) ∈ m.entries := AList.mem_lookup_iff
  rw [mem, pairs, List.mem_map]
  constructor
  · rintro ⟨⟨k', v'⟩, he, h⟩
    cases h
    exact he
  · intro he
    exact ⟨⟨k, v⟩, he, rfl⟩

omit [DecidableEq K] in
theorem pairs_keys_nodup (m : HashMap K V) : ((pairs m).map Prod.fst).Nodup := by
  have h : (pairs m).map Prod.fst = m.keys := by
    rw [pairs, List.map_map]
    rfl
  rw [h]
  exact m.nodupKeys

end HashMap
