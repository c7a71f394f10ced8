import Mathlib.Data.List.Pairwise
import Mathlib.Order.Basic
import Mathlib.Order.Lattice

/-!
# Finite maps in key order

A map is its list of entries in strictly ascending key order, so two maps with
the same bindings are equal and iteration order is part of the value. Updates
at a key are stated by splitting the entries at that key: what lies below it
and what lies above it never moves.
-/

/-- Entries in strictly ascending key order; unsorted lists cannot be built. -/
structure SortedMap (K V : Type) [LinearOrder K] where
  entries : List (K × V)
  ordered : entries.Pairwise (fun a b => a.1 < b.1)

namespace SortedMap

variable {K V : Type} [LinearOrder K]

instance [DecidableEq V] : DecidableEq (SortedMap K V) := fun m n =>
  decidable_of_iff (m.entries = n.entries) (by
    cases m; cases n; simp)

def empty : SortedMap K V := ⟨[], List.Pairwise.nil⟩

instance : EmptyCollection (SortedMap K V) := ⟨empty⟩
instance : Inhabited (SortedMap K V) := ⟨empty⟩

def get? (m : SortedMap K V) (k : K) : Option V :=
  (m.entries.find? (fun e => e.1 = k)).map Prod.snd

def getD (m : SortedMap K V) (k : K) (v : V) : V := (m.get? k).getD v

def contains (m : SortedMap K V) (k : K) : Bool := (m.get? k).isSome

def isEmpty (m : SortedMap K V) : Bool := m.entries.isEmpty

def size (m : SortedMap K V) : Nat := m.entries.length

def keys (m : SortedMap K V) : List K := m.entries.map Prod.fst

def values (m : SortedMap K V) : List V := m.entries.map Prod.snd

def first? (m : SortedMap K V) : Option (K × V) := m.entries.head?

def last? (m : SortedMap K V) : Option (K × V) := m.entries.getLast?

def below (m : SortedMap K V) (k : K) : List (K × V) := m.entries.filter (fun e => e.1 < k)

def above (m : SortedMap K V) (k : K) : List (K × V) := m.entries.filter (fun e => k < e.1)

theorem below_lt {m : SortedMap K V} {k : K} {e : K × V} (h : e ∈ m.below k) : e.1 < k := by
  simpa using (List.mem_filter.mp h).2

theorem above_lt {m : SortedMap K V} {k : K} {e : K × V} (h : e ∈ m.above k) : k < e.1 := by
  simpa using (List.mem_filter.mp h).2

theorem below_ordered (m : SortedMap K V) (k : K) :
    (m.below k).Pairwise (fun a b => a.1 < b.1) := m.ordered.filter _

theorem above_ordered (m : SortedMap K V) (k : K) :
    (m.above k).Pairwise (fun a b => a.1 < b.1) := m.ordered.filter _

def insert (m : SortedMap K V) (k : K) (v : V) : SortedMap K V where
  entries := m.below k ++ (k, v) :: m.above k
  ordered := by
    rw [List.pairwise_append, List.pairwise_cons]
    refine ⟨m.below_ordered k, ⟨fun e he => above_lt he, m.above_ordered k⟩, ?_⟩
    intro a ha b hb
    rcases List.mem_cons.mp hb with rfl | hb
    · exact below_lt ha
    · exact (below_lt ha).trans (above_lt hb)

def erase (m : SortedMap K V) (k : K) : SortedMap K V where
  entries := m.below k ++ m.above k
  ordered := by
    rw [List.pairwise_append]
    exact ⟨m.below_ordered k, m.above_ordered k,
      fun a ha b hb => (below_lt ha).trans (above_lt hb)⟩

/-- Keep the bindings whose key and value satisfy `p`. -/
def filter (m : SortedMap K V) (p : K × V → Bool) : SortedMap K V where
  entries := m.entries.filter p
  ordered := m.ordered.filter _

theorem ext_entries {m n : SortedMap K V} (h : m.entries = n.entries) : m = n := by
  cases m; cases n; cases h; rfl

theorem unique_of_mem {m : SortedMap K V} {k : K} {v w : V}
    (hv : (k, v) ∈ m.entries) (hw : (k, w) ∈ m.entries) : v = w := by
  obtain ⟨l, ho⟩ := m
  induction l with
  | nil => cases hv
  | cons e l ih =>
    obtain ⟨hlt, ho⟩ := List.pairwise_cons.mp ho
    rcases List.mem_cons.mp hv with rfl | hv' <;> rcases List.mem_cons.mp hw with h | hw'
    · exact (Prod.mk.inj h).2.symm
    · exact absurd (hlt _ hw') (lt_irrefl _)
    · subst h
      exact absurd (hlt _ hv') (lt_irrefl _)
    · exact ih ho hv' hw'

theorem get?_eq_some {m : SortedMap K V} {k : K} {v : V} :
    m.get? k = some v ↔ (k, v) ∈ m.entries := by
  constructor
  · intro h
    obtain ⟨e, he, rfl⟩ := Option.map_eq_some_iff.mp h
    have hk : e.1 = k := by simpa using List.find?_some he
    subst hk
    exact List.mem_of_find?_eq_some he
  · intro h
    cases hf : m.entries.find? (fun e => e.1 = k) with
    | none =>
      have := List.find?_eq_none.mp hf (k, v) h
      simp at this
    | some e =>
      have hk : e.1 = k := by simpa using List.find?_some hf
      have he : (k, e.2) ∈ m.entries := by
        rw [← hk]
        exact List.mem_of_find?_eq_some hf
      simp only [get?, hf, Option.map_some, unique_of_mem he h]

theorem ext_get? {m n : SortedMap K V} (h : ∀ k, m.get? k = n.get? k) : m = n := by
  apply ext_entries
  have mem_iff : ∀ e, e ∈ m.entries ↔ e ∈ n.entries := by
    rintro ⟨k, v⟩
    rw [← get?_eq_some, ← get?_eq_some, h]
  have nodup : ∀ l : SortedMap K V, l.entries.Nodup := fun l =>
    l.ordered.imp (fun {a b} hab heq => by rw [heq] at hab; exact lt_irrefl _ hab)
  have perm := (List.perm_ext_iff_of_nodup (nodup m) (nodup n)).mpr mem_iff
  exact perm.eq_of_pairwise (fun a b _ _ hab hba => absurd hab (lt_asymm hba)) m.ordered n.ordered

@[simp] theorem get?_empty (k : K) : (∅ : SortedMap K V).get? k = none := rfl

@[simp] theorem entries_empty : (∅ : SortedMap K V).entries = [] := rfl

theorem mem_below {m : SortedMap K V} {k : K} {e : K × V} :
    e ∈ m.below k ↔ e ∈ m.entries ∧ e.1 < k := by simp [below]

theorem mem_above {m : SortedMap K V} {k : K} {e : K × V} :
    e ∈ m.above k ↔ e ∈ m.entries ∧ k < e.1 := by simp [above]

private theorem split_list {l : List (K × V)} (ho : l.Pairwise (fun a b => a.1 < b.1)) (k : K) :
    l = l.filter (fun e => e.1 < k) ++ l.filter (fun e => e.1 = k) ++
      l.filter (fun e => k < e.1) := by
  induction l with
  | nil => rfl
  | cons e l ih =>
    obtain ⟨hlt, ho⟩ := List.pairwise_cons.mp ho
    rcases lt_trichotomy e.1 k with h | h | h
    · have h1 : ¬ e.1 = k := ne_of_lt h
      have h2 : ¬ k < e.1 := not_lt_of_gt h
      simp only [h, h1, h2, List.filter_cons, decide_true, decide_false, if_true,
        Bool.false_eq_true, if_false, List.cons_append]
      exact congrArg _ (ih ho)
    · have low : l.filter (fun a => a.1 < k) = [] := by
        rw [List.filter_eq_nil_iff]
        intro a ha
        simpa using le_of_lt (h ▸ hlt a ha)
      have h1 : ¬ e.1 < k := by rw [h]; exact lt_irrefl k
      have h2 : ¬ k < e.1 := by rw [h]; exact lt_irrefl k
      have := ih ho
      rw [low] at this
      simp only [h, lt_irrefl, List.filter_cons, decide_true, decide_false, if_true,
        Bool.false_eq_true, if_false, low, List.nil_append, List.cons_append]
      exact congrArg _ (by simpa using this)
    · have rest : ∀ a ∈ l, k < a.1 := fun a ha => h.trans (hlt a ha)
      have low : l.filter (fun a => a.1 < k) = [] := by
        rw [List.filter_eq_nil_iff]
        intro a ha
        simpa using le_of_lt (rest a ha)
      have mid : l.filter (fun a => a.1 = k) = [] := by
        rw [List.filter_eq_nil_iff]
        intro a ha
        simpa using (ne_of_gt (rest a ha))
      have h1 : ¬ e.1 < k := not_lt_of_gt h
      have h2 : ¬ e.1 = k := ne_of_gt h
      have := ih ho
      rw [low, mid] at this
      simp only [h, h1, h2, List.filter_cons, decide_true, decide_false, if_true,
        Bool.false_eq_true, if_false, low, mid, List.nil_append]
      exact congrArg _ (by simpa using this)

/-- The binding at a key, as a list with at most one entry. -/
def binding (m : SortedMap K V) (k : K) : List (K × V) := (m.get? k).toList.map (fun v => (k, v))

theorem filter_eq_binding (m : SortedMap K V) (k : K) :
    m.entries.filter (fun e => e.1 = k) = m.binding k := by
  have ho := m.ordered.filter (fun e => e.1 = k)
  have mem : ∀ e, e ∈ m.entries.filter (fun e => e.1 = k) ↔ e.1 = k ∧ m.get? k = some e.2 := by
    rintro ⟨k', v⟩
    rw [get?_eq_some]
    simp only [List.mem_filter, decide_eq_true_eq]
    constructor
    · rintro ⟨h, rfl⟩
      exact ⟨rfl, h⟩
    · rintro ⟨rfl, h⟩
      exact ⟨h, rfl⟩
  generalize m.entries.filter (fun e => decide (e.1 = k)) = l at ho mem
  rw [binding]
  match l with
  | [] =>
    cases hg : m.get? k with
    | none => rfl
    | some v => exact absurd ((mem (k, v)).mpr ⟨rfl, hg⟩) (by simp)
  | [e] =>
    obtain ⟨hk, hv⟩ := (mem e).mp List.mem_cons_self
    rw [hv]
    simp [← hk]
  | a :: b :: l =>
    have hab := (List.pairwise_cons.mp ho).1 b List.mem_cons_self
    have ha := ((mem a).mp List.mem_cons_self).1
    have hb := ((mem b).mp (List.mem_cons_of_mem _ List.mem_cons_self)).1
    rw [ha, hb] at hab
    exact absurd hab (lt_irrefl k)

theorem entries_split (m : SortedMap K V) (k : K) :
    m.entries = m.below k ++ m.binding k ++ m.above k := by
  rw [← filter_eq_binding]
  exact split_list m.ordered k

theorem entries_of_get? {m : SortedMap K V} {k : K} {v : V} (h : m.get? k = some v) :
    m.entries = m.below k ++ (k, v) :: m.above k := by
  have := m.entries_split k
  simpa [binding, h] using this

theorem entries_insert (m : SortedMap K V) (k : K) (v : V) :
    (m.insert k v).entries = m.below k ++ (k, v) :: m.above k := rfl

theorem entries_erase (m : SortedMap K V) (k : K) :
    (m.erase k).entries = m.below k ++ m.above k := rfl

theorem mem_insert {m : SortedMap K V} {k : K} {v : V} {e : K × V} :
    e ∈ (m.insert k v).entries ↔ e = (k, v) ∨ (e ∈ m.entries ∧ e.1 ≠ k) := by
  rw [entries_insert, List.mem_append, List.mem_cons, mem_below, mem_above]
  constructor
  · rintro (⟨h, hlt⟩ | rfl | ⟨h, hlt⟩)
    · exact Or.inr ⟨h, ne_of_lt hlt⟩
    · exact Or.inl rfl
    · exact Or.inr ⟨h, ne_of_gt hlt⟩
  · rintro (rfl | ⟨h, hne⟩)
    · exact Or.inr (Or.inl rfl)
    · rcases lt_or_gt_of_ne hne with hlt | hlt
      · exact Or.inl ⟨h, hlt⟩
      · exact Or.inr (Or.inr ⟨h, hlt⟩)

theorem mem_erase {m : SortedMap K V} {k : K} {e : K × V} :
    e ∈ (m.erase k).entries ↔ e ∈ m.entries ∧ e.1 ≠ k := by
  rw [entries_erase, List.mem_append, mem_below, mem_above]
  constructor
  · rintro (⟨h, hlt⟩ | ⟨h, hlt⟩)
    · exact ⟨h, ne_of_lt hlt⟩
    · exact ⟨h, ne_of_gt hlt⟩
  · rintro ⟨h, hne⟩
    rcases lt_or_gt_of_ne hne with hlt | hlt
    · exact Or.inl ⟨h, hlt⟩
    · exact Or.inr ⟨h, hlt⟩

theorem get?_insert (m : SortedMap K V) (k : K) (v : V) (k' : K) :
    (m.insert k v).get? k' = if k' = k then some v else m.get? k' := by
  apply Option.ext
  intro w
  rw [get?_eq_some, mem_insert]
  by_cases h : k' = k
  · subst h
    simp [eq_comm]
  · simp [h, get?_eq_some]

theorem get?_erase (m : SortedMap K V) (k k' : K) :
    (m.erase k).get? k' = if k' = k then none else m.get? k' := by
  apply Option.ext
  intro w
  rw [get?_eq_some, mem_erase]
  by_cases h : k' = k
  · simp [h]
  · simp [h, get?_eq_some]

@[simp] theorem get?_insert_self (m : SortedMap K V) (k : K) (v : V) :
    (m.insert k v).get? k = some v := by rw [get?_insert, if_pos rfl]

@[simp] theorem get?_erase_self (m : SortedMap K V) (k : K) : (m.erase k).get? k = none := by
  rw [get?_erase, if_pos rfl]

theorem get?_insert_ne (m : SortedMap K V) {k k' : K} (v : V) (h : k' ≠ k) :
    (m.insert k v).get? k' = m.get? k' := by rw [get?_insert, if_neg h]

theorem get?_erase_ne (m : SortedMap K V) {k k' : K} (h : k' ≠ k) :
    (m.erase k).get? k' = m.get? k' := by rw [get?_erase, if_neg h]

theorem get?_filter (m : SortedMap K V) (p : K × V → Bool) (k : K) :
    (m.filter p).get? k = (m.get? k).filter (fun v => p (k, v)) := by
  apply Option.ext
  intro v
  simp only [get?_eq_some, filter, List.mem_filter, Option.filter_eq_some_iff]

/-- Writing back what is there changes nothing. -/
theorem insert_of_get? {m : SortedMap K V} {k : K} {v : V} (h : m.get? k = some v) :
    m.insert k v = m := by
  apply ext_entries
  rw [entries_insert, ← entries_of_get? h]

theorem insert_insert (m : SortedMap K V) (k : K) (v w : V) :
    (m.insert k v).insert k w = m.insert k w := by
  apply ext_get?
  intro k'
  rw [get?_insert, get?_insert, get?_insert]
  split <;> rfl

theorem size_erase_le (m : SortedMap K V) (k : K) : (m.erase k).size ≤ m.size := by
  have split := congrArg List.length (m.entries_split k)
  simp only [List.length_append] at split
  simp only [size, entries_erase, List.length_append]
  omega

theorem size_insert_le (m : SortedMap K V) (k : K) (v : V) : (m.insert k v).size ≤ m.size + 1 := by
  have fewer := m.size_erase_le k
  simp only [size, entries_erase, entries_insert, List.length_append, List.length_cons] at fewer ⊢
  omega

theorem size_filter_le (m : SortedMap K V) (p : K × V → Bool) : (m.filter p).size ≤ m.size :=
  List.length_filter_le _ _

@[simp] theorem below_insert (m : SortedMap K V) (k : K) (v : V) :
    (m.insert k v).below k = m.below k := by
  have low : (m.below k).filter (fun e => decide (e.1 < k)) = m.below k :=
    List.filter_eq_self.mpr (fun e he => by simpa using below_lt he)
  have high : (m.above k).filter (fun e => decide (e.1 < k)) = [] :=
    List.filter_eq_nil_iff.mpr (fun e he => by simpa using le_of_lt (above_lt he))
  rw [below, entries_insert, List.filter_append, low, List.filter_cons_of_neg (by simp), high,
    List.append_nil]

@[simp] theorem above_insert (m : SortedMap K V) (k : K) (v : V) :
    (m.insert k v).above k = m.above k := by
  have low : (m.below k).filter (fun e => decide (k < e.1)) = [] :=
    List.filter_eq_nil_iff.mpr (fun e he => by simpa using le_of_lt (below_lt he))
  have high : (m.above k).filter (fun e => decide (k < e.1)) = m.above k :=
    List.filter_eq_self.mpr (fun e he => by simpa using above_lt he)
  rw [above, entries_insert, List.filter_append, low, List.filter_cons_of_neg (by simp), high,
    List.nil_append]

end SortedMap
