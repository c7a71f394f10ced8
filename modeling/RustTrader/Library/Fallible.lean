import Mathlib.Data.List.Forall2

/-!
# Computations that may fail

A computation in `Except` returns a value or ends with an error. `Yields`
bounds both at once, and its rules follow a program from call to call.
-/

/-- Values of `x` satisfy `Q`, errors of `x` satisfy `bad`. -/
structure Yields {ε α : Type} (bad : ε → Prop) (x : Except ε α) (Q : α → Prop) : Prop where
  returns : ∀ a, x = .ok a → Q a
  fails : ∀ err, x = .error err → bad err

namespace Yields

variable {ε α β : Type} {bad : ε → Prop}

theorem ok {a : α} {Q : α → Prop} (h : Q a) : Yields bad (.ok a) Q := by
  constructor
  · intro b same
    exact Except.ok.inj same ▸ h
  · intro err same
    cases same

theorem error {err : ε} {Q : α → Prop} (h : bad err) : Yields bad (.error err) Q := by
  constructor
  · intro b same
    cases same
  · intro err' same
    exact Except.error.inj same ▸ h

theorem mono {x : Except ε α} {P Q : α → Prop} (h : Yields bad x P) (imp : ∀ a, P a → Q a) :
    Yields bad x Q := ⟨fun a same => imp a (h.returns a same), h.fails⟩

theorem bind {x : Except ε α} {f : α → Except ε β} {P : α → Prop} {Q : β → Prop}
    (h : Yields bad x P) (next : ∀ a, P a → Yields bad (f a) Q) : Yields bad (x >>= f) Q := by
  cases x with
  | error err => exact error (h.fails err rfl)
  | ok a => exact next a (h.returns a rfl)

/-- A call whose value is only known to be returned by it. -/
theorem call {x : Except ε α} {f : α → Except ε β} {Q : β → Prop}
    (fails : ∀ err, x = .error err → bad err) (next : ∀ a, x = .ok a → Yields bad (f a) Q) :
    Yields bad (x >>= f) Q := bind ⟨fun _ same => same, fails⟩ next

/-- A loop that keeps an invariant of its state and of what is left to visit. -/
theorem foldlM {f : β → α → Except ε β} (I : List α → β → Prop)
    (step : ∀ a l b, I (a :: l) b → Yields bad (f b a) (I l)) (l : List α) : ∀ b, I l b →
      Yields bad (l.foldlM f b) (I []) := by
  induction l with
  | nil =>
    intro b h
    exact ok h
  | cons a l ih =>
    intro b h
    rw [List.foldlM_cons]
    exact (step a l b h).bind ih

/-- A check of an optional value. -/
theorem forM_option {o : Option α} {f : α → Except ε Unit}
    (each : ∀ a, Yields bad (f a) fun _ => True) :
    Yields bad (o.forM f) fun _ => True := by
  cases o with
  | none => exact ok trivial
  | some a => exact each a

/-- A check of every element of a list. -/
theorem forM_list {f : α → Except ε Unit} {l : List α}
    (each : ∀ a ∈ l, Yields bad (f a) fun _ => True) : Yields bad (l.forM f) fun _ => True := by
  induction l with
  | nil => exact ok trivial
  | cons a l ih =>
    rw [List.forall_mem_cons] at each
    exact each.1.bind fun _ _ => ih each.2

end Yields

/-- A loop relates its first and last state as its steps relate theirs. -/
theorem foldlM_relates {ε α β : Type} {f : β → α → Except ε β} {R : β → β → Prop}
    (refl : ∀ b, R b b) (trans : ∀ b b' b'', R b b' → R b' b'' → R b b'')
    (step : ∀ b a b', f b a = .ok b' → R b b') (l : List α) :
    ∀ {b b' : β}, l.foldlM f b = .ok b' → R b b' := by
  induction l with
  | nil =>
    intro b b' h
    obtain rfl := Except.ok.inj h
    exact refl b
  | cons a l ih =>
    intro b b' h
    rw [List.foldlM_cons] at h
    cases first : f b a with
    | error err =>
      rw [first] at h
      cases h
    | ok mid =>
      rw [first] at h
      exact trans b mid b' (step b a mid first) (ih h)

theorem toOption_eq_some {ε α : Type} {x : Except ε α} {a : α} :
    x.toOption = some a ↔ x = .ok a := by
  cases x with
  | error err => simp [Except.toOption]
  | ok b => simp [Except.toOption]

theorem bind_eq_ok {ε α β : Type} {x : Except ε α} {f : α → Except ε β} {b : β} :
    (x >>= f) = .ok b ↔ ∃ a, x = .ok a ∧ f a = .ok b := by
  cases x with
  | error err =>
    constructor
    · intro h
      cases h
    · rintro ⟨a, same, -⟩
      cases same
  | ok a =>
    constructor
    · intro h
      exact ⟨a, rfl, h⟩
    · rintro ⟨a', same, h⟩
      cases same
      exact h

/-- A check in front of the rest of a computation. -/
theorem guard_eq_ok {ε β : Type} {p : Prop} [Decidable p] {err : ε} {f : Unit → Except ε β}
    {b : β} :
    (if p then (throw err : Except ε Unit) >>= f else f ()) = .ok b ↔ ¬ p ∧ f () = .ok b := by
  by_cases bad : p
  · rw [if_pos bad]
    constructor
    · intro h
      cases h
    · rintro ⟨fine, -⟩
      exact absurd bad fine
  · rw [if_neg bad]
    exact ⟨fun h => ⟨bad, h⟩, fun h => h.2⟩

/-- A loop over two lists, one after the other. -/
theorem foldlM_append_ok {ε α β : Type} {f : β → α → Except ε β} {l r : List α} {b c : β} :
    (l ++ r).foldlM f b = .ok c ↔ ∃ mid, l.foldlM f b = .ok mid ∧ r.foldlM f mid = .ok c := by
  rw [List.foldlM_append, bind_eq_ok]

theorem foldlM_cons_ok {ε α β : Type} {f : β → α → Except ε β} {a : α} {l : List α} {b c : β} :
    (a :: l).foldlM f b = .ok c ↔ ∃ mid, f b a = .ok mid ∧ l.foldlM f mid = .ok c := by
  rw [List.foldlM_cons, bind_eq_ok]

/-- A list is mapped when each of its elements is. -/
theorem mapM_eq_ok {ε α β : Type} {f : α → Except ε β} {l : List α} :
    ∀ {r : List β}, l.mapM f = .ok r ↔ List.Forall₂ (fun a b => f a = .ok b) l r := by
  induction l with
  | nil =>
    intro r
    constructor
    · intro h
      cases h
      exact .nil
    · intro h
      cases h
      rfl
  | cons a l ih =>
    intro r
    rw [List.mapM_cons]
    constructor
    · intro h
      cases first : f a with
      | error err =>
        rw [first] at h
        cases h
      | ok b =>
        rw [first] at h
        cases later : l.mapM f with
        | error err =>
          rw [later] at h
          cases h
        | ok bs =>
          rw [later] at h
          cases h
          exact .cons first (ih.mp later)
    · intro h
      cases h with
      | cons first later =>
        rw [first, ih.mpr later]
        rfl

/-- A check of an optional value. -/
theorem forM_option_eq_ok {ε α : Type} {f : α → Except ε Unit} {o : Option α} :
    o.forM f = .ok () ↔ ∀ a, o = some a → f a = .ok () := by
  cases o with
  | none =>
    constructor
    · rintro - a ⟨⟩
    · intro _
      rfl
  | some a =>
    constructor
    · rintro h b ⟨⟩
      exact h
    · intro h
      exact h a rfl

/-- A check of every element of a list. -/
theorem forM_list_eq_ok {ε α : Type} {f : α → Except ε Unit} {l : List α} :
    l.forM f = .ok () ↔ ∀ a ∈ l, f a = .ok () := by
  induction l with
  | nil =>
    constructor
    · rintro - a ⟨⟩
    · intro _
      rfl
  | cons a l ih =>
    rw [List.forall_mem_cons, ← ih]
    refine bind_eq_ok.trans ?_
    constructor
    · rintro ⟨⟨⟩, first, later⟩
      exact ⟨first, later⟩
    · rintro ⟨first, later⟩
      exact ⟨(), first, later⟩
