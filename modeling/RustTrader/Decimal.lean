import Mathlib.Algebra.Order.Field.Rat
import Mathlib.Tactic.Linarith
import Mathlib.Tactic.NormNum
import RustTrader.Library.Numeral

/-!
# Decimal arithmetic

Prices and quantities are `rust_decimal` values. That crate is not part of the
repository, so the engine is written over any type `D` of decimals whose
operators may panic, and `LawfulDecimal` states what the crate documents: an
operator returns the exact result rounded to a neighbouring decimal, and
panics only when the result does not fit. Exact rational arithmetic is the
instance that never rounds and never panics.
-/

namespace RustTrader

/-- Why a call of the source aborts its thread instead of returning.
`diverged` is no panic of the source: it marks an exhausted loop budget. -/
inductive Panic where
  | decimal
  | priorityExhausted
  | duplicateOrder
  | missing
  | unregistered
  | diverged
  deriving DecidableEq, Repr

abbrev Exec := Except Panic

instance {α : Type} [DecidableEq α] : DecidableEq (Exec α) := fun x y =>
  match x, y with
  | .ok a, .ok b => decidable_of_iff (a = b) (by simp)
  | .error a, .error b => decidable_of_iff (a = b) (by simp)
  | .ok _, .error _ => isFalse (by simp)
  | .error _, .ok _ => isFalse (by simp)

/-- What the source does when it meets `None` under an `unwrap` or `expect`. -/
def unwrap {α : Type} : Option α → Exec α
  | some a => .ok a
  | none => .error .missing

@[simp] theorem unwrap_some {α : Type} (a : α) : unwrap (some a) = .ok a := rfl

/-- Inversion of one step of an aborting computation. -/
theorem Exec.bind_ok {α β : Type} {x : Exec α} {f : α → Exec β} {b : β} :
    (x >>= f) = .ok b ↔ ∃ a, x = .ok a ∧ f a = .ok b := by
  cases x with
  | error p => simp [bind, Except.bind]
  | ok a => simp [bind, Except.bind]

theorem Exec.bind_error {α β : Type} {x : Exec α} {f : α → Exec β} {p : Panic} :
    (x >>= f) = .error p ↔ x = .error p ∨ ∃ a, x = .ok a ∧ f a = .error p := by
  cases x with
  | error q => simp [bind, Except.bind]
  | ok a => simp [bind, Except.bind]

@[simp] theorem Exec.ok_bind {α β : Type} (a : α) (f : α → Exec β) :
    ((Except.ok a : Exec α) >>= f) = f a := rfl

@[simp] theorem Exec.error_bind {α β : Type} (p : Panic) (f : α → Exec β) :
    ((Except.error p : Exec α) >>= f) = .error p := rfl

/-- `Decimal` with the operators the engine uses; `lit m s` is `m / 10 ^ s` and
`display` the text of a normalized value. -/
class Decimal (D : Type) extends LinearOrder D, Zero D where
  val : D → ℚ
  lit : Int → Nat → D
  add : D → D → Exec D
  sub : D → D → Exec D
  mul : D → D → Exec D
  div : D → D → Exec D
  display : D → String

open Decimal

/-- The outcome of an operator whose exact result is `exact`: it panics only as
a decimal operator, it returns when the exact result lies between two decimals,
and no decimal lies strictly between the returned one and the exact result. -/
structure Rounds {D : Type} [Decimal D] (outcome : Exec D) (exact : ℚ) : Prop where
  panic : ∀ p, outcome = .error p → p = .decimal
  returns : ∀ x y : D, val x ≤ exact → exact ≤ val y → ∃ c, outcome = .ok c
  upper : ∀ c x : D, outcome = .ok c → exact ≤ val x → c ≤ x
  lower : ∀ c x : D, outcome = .ok c → val x ≤ exact → x ≤ c

/-- The documented behaviour of the decimal operators. -/
class LawfulDecimal (D : Type) [Decimal D] : Prop where
  val_lt : ∀ a b : D, val a < val b ↔ a < b
  val_zero : val (0 : D) = 0
  val_lit : ∀ (m : Int) (s : Nat), |m| < 2 ^ 63 → s ≤ 28 → val (lit m s : D) = m / 10 ^ s
  add_rounds : ∀ a b : D, Rounds (add a b) (val a + val b)
  sub_rounds : ∀ a b : D, Rounds (sub a b) (val a - val b)
  mul_rounds : ∀ a b : D, Rounds (mul a b) (val a * val b)
  div_rounds : ∀ a b : D, b ≠ 0 → Rounds (div a b) (val a / val b)
  sub_eq_zero : ∀ a b : D, sub a b = .ok 0 → a = b

/-- The parser of decimals, with the text of its errors. -/
class DecimalText (D : Type) where
  parse : String → Except String D

/-- An optional sign, digits, and an optional fraction. -/
structure Plain (s : String) : Prop where
  parts : ∃ sign whole fraction : List Char, s.toList = sign ++ (whole ++ fraction) ∧
    (sign = [] ∨ sign = ['-']) ∧ whole ≠ [] ∧ (∀ c ∈ whole, c.isDigit) ∧
    (fraction = [] ∨ ∃ digits, fraction = '.' :: digits ∧ ∀ c ∈ digits, c.isDigit)

/-- The documented behaviour of printing a normalized value and reading it. -/
class LawfulText (D : Type) [Decimal D] [DecimalText D] : Prop where
  plain : ∀ d : D, Plain (display d)
  parse_display : ∀ d : D, DecimalText.parse (display d) = .ok d

instance : Decimal ℚ where
  val := id
  lit m s := m / 10 ^ s
  add a b := .ok (a + b)
  sub a b := .ok (a - b)
  mul a b := .ok (a * b)
  div a b := .ok (a / b)
  display := Numeral.ratText 28

theorem rounds_exact (q : ℚ) : Rounds (D := ℚ) (.ok q) q where
  panic := by intro p h; cases h
  returns := fun _ _ _ _ => ⟨q, rfl⟩
  upper := by intro c x h hx; cases h; exact hx
  lower := by intro c x h hx; cases h; exact hx

instance : LawfulDecimal ℚ where
  val_lt _ _ := Iff.rfl
  val_zero := rfl
  val_lit _ _ _ _ := rfl
  add_rounds a b := rounds_exact (a + b)
  sub_rounds a b := rounds_exact (a - b)
  mul_rounds a b := rounds_exact (a * b)
  div_rounds a b _ := rounds_exact (a / b)
  sub_eq_zero a b h := by
    have : a - b = 0 := Except.ok.inj h
    linarith

/-- The decimals on which every operator is exact and none panics. -/
class ExactDecimal (D : Type) [Decimal D] : Prop extends LawfulDecimal D where
  add_exact : ∀ a b : D, ∃ c, add a b = .ok c ∧ val c = val a + val b
  sub_exact : ∀ a b : D, ∃ c, sub a b = .ok c ∧ val c = val a - val b
  mul_exact : ∀ a b : D, ∃ c, mul a b = .ok c ∧ val c = val a * val b
  div_exact : ∀ a b : D, ∃ c, div a b = .ok c ∧ val c = val a / val b

instance : ExactDecimal ℚ where
  add_exact _ _ := ⟨_, rfl, rfl⟩
  sub_exact _ _ := ⟨_, rfl, rfl⟩
  mul_exact _ _ := ⟨_, rfl, rfl⟩
  div_exact _ _ := ⟨_, rfl, rfl⟩

theorem Rounds.eq_of_val {D : Type} [Decimal D] {outcome : Exec D} {exact : ℚ}
    (h : Rounds outcome exact) {c x : D}
    (ok : outcome = .ok c) (hx : val x = exact) : c = x :=
  le_antisymm (h.upper c x ok (le_of_eq hx.symm)) (h.lower c x ok (le_of_eq hx))

theorem Rounds.ok_of_val {D : Type} [Decimal D] {outcome : Exec D} {exact : ℚ}
    (h : Rounds outcome exact) {x : D}
    (hx : val x = exact) : outcome = .ok x := by
  obtain ⟨c, hc⟩ := h.returns x x (le_of_eq hx) (le_of_eq hx.symm)
  rw [hc, h.eq_of_val hc hx]

namespace Decimal

variable {D : Type} [Decimal D] [LawfulDecimal D]

theorem val_le {a b : D} : val a ≤ val b ↔ a ≤ b := by
  rw [← not_lt, ← not_lt, LawfulDecimal.val_lt]

theorem val_inj {a b : D} : val a = val b ↔ a = b := by
  rw [le_antisymm_iff, le_antisymm_iff, val_le, val_le]

theorem val_nonneg {a : D} : 0 ≤ val a ↔ 0 ≤ a := by
  rw [← LawfulDecimal.val_zero (D := D), val_le]

theorem val_pos {a : D} : 0 < val a ↔ 0 < a := by
  rw [← LawfulDecimal.val_zero (D := D), LawfulDecimal.val_lt]

theorem sub_same (a : D) : sub a a = .ok 0 :=
  Rounds.ok_of_val (LawfulDecimal.sub_rounds a a) (by rw [LawfulDecimal.val_zero]; linarith)

/-- Taking a part from a whole never panics. -/
theorem sub_returns {a b : D} (hb : 0 ≤ b) (hba : b ≤ a) : ∃ c, sub a b = .ok c := by
  have h0 := val_nonneg.mpr hb
  have h1 := val_le.mpr hba
  apply (LawfulDecimal.sub_rounds a b).returns 0 a
  · rw [LawfulDecimal.val_zero]; linarith
  · linarith

theorem nonneg_of_sub {a b c : D} (hba : b ≤ a) (h : sub a b = .ok c) : 0 ≤ c := by
  apply (LawfulDecimal.sub_rounds a b).lower c 0 h
  have := val_le.mpr hba
  rw [LawfulDecimal.val_zero]
  linarith

theorem zero_of_sub {a b c : D} (hba : b ≤ a) (h : sub a b = .ok c) : c = 0 ↔ a = b := by
  constructor
  · rintro rfl
    exact LawfulDecimal.sub_eq_zero a b h
  · rintro rfl
    exact Except.ok.inj (h.symm.trans (sub_same a))

section Exact

variable {D : Type} [Decimal D] [ExactDecimal D]

theorem val_add {a b c : D} (h : add a b = .ok c) : val c = val a + val b := by
  obtain ⟨c', h', hval⟩ := ExactDecimal.add_exact a b
  obtain rfl := Except.ok.inj (h.symm.trans h')
  exact hval

theorem val_sub {a b c : D} (h : sub a b = .ok c) : val c = val a - val b := by
  obtain ⟨c', h', hval⟩ := ExactDecimal.sub_exact a b
  obtain rfl := Except.ok.inj (h.symm.trans h')
  exact hval

theorem val_mul {a b c : D} (h : mul a b = .ok c) : val c = val a * val b := by
  obtain ⟨c', h', hval⟩ := ExactDecimal.mul_exact a b
  obtain rfl := Except.ok.inj (h.symm.trans h')
  exact hval

theorem val_div {a b c : D} (h : div a b = .ok c) : val c = val a / val b := by
  obtain ⟨c', h', hval⟩ := ExactDecimal.div_exact a b
  obtain rfl := Except.ok.inj (h.symm.trans h')
  exact hval

end Exact

end Decimal

end RustTrader
