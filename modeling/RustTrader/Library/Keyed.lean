import Mathlib.Data.List.Nodup
import Mathlib.Data.List.Pairwise

/-!
# Lists whose elements have distinct keys

A queue in which every element is located by its key: where an element stands
is determined, and replacing or dropping it in place keeps the keys distinct.
-/

namespace Keyed

variable {A K : Type}

/-- No key occurs twice. -/
def Distinct (key : A → K) (l : List A) : Prop := (l.map key).Nodup

theorem Distinct.eq_of_key {key : A → K} {l : List A} (h : Distinct key l) {a b : A}
    (ha : a ∈ l) (hb : b ∈ l) (same : key a = key b) : a = b :=
  List.inj_on_of_nodup_map h ha hb same

theorem distinct_cons {key : A → K} {a : A} {l : List A} :
    Distinct key (a :: l) ↔ (∀ b ∈ l, key b ≠ key a) ∧ Distinct key l := by
  simp [Distinct, List.nodup_cons]

theorem distinct_middle {key : A → K} {pre post : List A} {a : A} :
    Distinct key (pre ++ a :: post) ↔
      (∀ b ∈ pre ++ post, key b ≠ key a) ∧ Distinct key (pre ++ post) := by
  have perm : (pre ++ a :: post).Perm (a :: (pre ++ post)) := List.perm_middle
  rw [Distinct, (perm.map key).nodup_iff]
  exact distinct_cons

theorem Distinct.sublist {key : A → K} {l l' : List A} (h : Distinct key l)
    (sub : List.Sublist l' l) : Distinct key l' := List.Nodup.sublist (sub.map key) h

/-- Replacing an element by one with the same key, or by nothing. -/
theorem Distinct.replace {key : A → K} {pre post : List A} {a : A} {keep : List A}
    (h : Distinct key (pre ++ a :: post)) (hkeep : keep = [] ∨ ∃ b, keep = [b] ∧ key b = key a) :
    Distinct key (pre ++ keep ++ post) := by
  obtain ⟨fresh, rest⟩ := distinct_middle.mp h
  rcases hkeep with rfl | ⟨b, rfl, hb⟩
  · simpa using rest
  · rw [List.append_assoc, List.singleton_append, distinct_middle, hb]
    exact ⟨fresh, rest⟩

theorem Distinct.insert {key : A → K} {pre post : List A} {a : A}
    (h : Distinct key (pre ++ post)) (fresh : ∀ b ∈ pre ++ post, key b ≠ key a) :
    Distinct key (pre ++ [a] ++ post) := by
  rw [List.append_assoc, List.singleton_append, distinct_middle]
  exact ⟨fresh, h⟩

/-- The element under a key stands at one place only. -/
theorem Distinct.split_unique {key : A → K} {pre post pre' post' : List A} {a b : A}
    (h : Distinct key (pre ++ a :: post)) (same : pre ++ a :: post = pre' ++ b :: post')
    (hkey : key a = key b) : pre = pre' ∧ a = b ∧ post = post' := by
  have hab : a = b := h.eq_of_key (by simp) (by rw [same]; simp) hkey
  subst hab
  have nodup : (pre ++ a :: post).Nodup := List.Nodup.of_map key h
  have not_mem : ∀ l l' : List A, (l ++ a :: l').Nodup → a ∉ l ++ l' := by
    intro l l' hn
    exact (List.nodup_middle.mp hn).notMem
  have hpre : a ∉ pre := fun hm => not_mem pre post nodup (List.mem_append_left _ hm)
  have hpre' : a ∉ pre' := fun hm =>
    not_mem pre' post' (same ▸ nodup) (List.mem_append_left _ hm)
  induction pre generalizing pre' with
  | nil =>
    cases pre' with
    | nil => exact ⟨rfl, rfl, (List.cons.inj same).2⟩
    | cons x xs => exact absurd (List.cons.inj same).1 (fun e => hpre' (e ▸ List.mem_cons_self))
  | cons y ys ih =>
    cases pre' with
    | nil => exact absurd (List.cons.inj same).1.symm (fun e => hpre (e ▸ List.mem_cons_self))
    | cons x xs =>
      obtain ⟨rfl, same'⟩ := List.cons.inj same
      have hd : Distinct key (ys ++ a :: post) := h.sublist (List.sublist_cons_self _ _)
      obtain ⟨rfl, -, rfl⟩ := ih hd same' (List.Nodup.of_map key hd)
        (fun hm => hpre (List.mem_cons_of_mem _ hm)) (fun hm => hpre' (List.mem_cons_of_mem _ hm))
      exact ⟨rfl, rfl, rfl⟩

/-- Membership after replacing the element under a key. -/
theorem Distinct.mem_replace {key : A → K} {pre post : List A} {a : A}
    (h : Distinct key (pre ++ a :: post)) (keep : List A) (b : A) :
    b ∈ pre ++ keep ++ post ↔ (b ∈ pre ++ a :: post ∧ key b ≠ key a) ∨ b ∈ keep := by
  obtain ⟨fresh, -⟩ := distinct_middle.mp h
  constructor
  · intro hb
    rcases List.mem_append.mp hb with hb | hb
    · rcases List.mem_append.mp hb with hb | hb
      · exact Or.inl ⟨List.mem_append_left _ hb, fresh b (List.mem_append_left _ hb)⟩
      · exact Or.inr hb
    · exact Or.inl ⟨List.mem_append_right _ (List.mem_cons_of_mem _ hb),
        fresh b (List.mem_append_right _ hb)⟩
  · rintro (⟨hb, hne⟩ | hb)
    · rcases List.mem_append.mp hb with hb | hb
      · simp [hb]
      · rcases List.mem_cons.mp hb with rfl | hb
        · exact absurd rfl hne
        · simp [hb]
    · simp [hb]

end Keyed
