import Mathlib.Data.Rat.Floor
import RustTrader.Decimal

/-!
# Decimals with a 96-bit mantissa

The decimals of the crate: a mantissa below `2 ^ 96` over a power of ten up to
`10 ^ 28`. An operator keeps as many fractional digits as fit, rounding half to
even, and panics when the whole part does not fit. A value is a number of units
of `10 ^ -28`.
-/

namespace RustTrader

open Decimal

def roundEven (q : ℚ) : Int :=
  let floor := ⌊q⌋
  let rest := q - floor
  if rest < 1 / 2 then floor
  else if 1 / 2 < rest then floor + 1
  else if floor % 2 = 0 then floor
  else floor + 1

/-- An integer next to a number. -/
def Near (q : ℚ) (n : Int) : Prop := (n : ℚ) - 1 / 2 ≤ q ∧ q ≤ n + 1 / 2

theorem roundEven_near (q : ℚ) : Near q (roundEven q) := by
  have low := Int.floor_le q
  have high := Int.lt_floor_add_one q
  unfold Near roundEven
  dsimp only
  split
  · constructor <;> linarith
  · split
    · push_cast
      constructor <;> linarith
    · split
      · constructor <;> linarith
      · push_cast
        constructor <;> linarith

theorem Near.neg {q : ℚ} {n : Int} (h : Near q n) : Near (-q) (-n) := by
  obtain ⟨low, high⟩ := h
  unfold Near
  push_cast
  constructor <;> linarith

theorem Near.le {q : ℚ} {n k : Int} (h : Near q n) (hk : q ≤ k) : n ≤ k := by
  have : (n : ℚ) < k + 1 := by
    have := h.1
    linarith
  have : n < k + 1 := by exact_mod_cast this
  omega

def maxMantissa : Int := 2 ^ 96 - 1

/-- Some scale takes the value to a mantissa that fits. -/
def Representable (units : Int) : Prop :=
  ∃ scale ≤ 28, ∃ m : Int, |m| ≤ maxMantissa ∧ units = m * 10 ^ (28 - scale)

structure Dec96 where
  units : Int
  fits : Representable units

namespace Dec96

theorem units_injective : Function.Injective units := by
  rintro ⟨a, _⟩ ⟨b, _⟩ h
  cases h
  rfl

instance : DecidableEq Dec96 := fun a b => decidable_of_iff (a.units = b.units)
  units_injective.eq_iff

instance : LinearOrder Dec96 := LinearOrder.lift' units units_injective

theorem fits_zero : Representable 0 := ⟨28, le_refl _, 0, by decide, rfl⟩

instance : Zero Dec96 := ⟨⟨0, fits_zero⟩⟩

/-- A mantissa at a scale. -/
def ofScale (scale : Nat) (hs : scale ≤ 28) (m : Int) (hm : |m| ≤ maxMantissa) : Dec96 :=
  ⟨m * 10 ^ (28 - scale), scale, hs, m, hm, rfl⟩

/-- The rounding at the largest scale, from `scale` down, at which it fits. -/
def roundFrom (q : ℚ) : (scale : Nat) → scale ≤ 28 → Exec Dec96
  | 0, hs =>
    if h : |roundEven q| ≤ maxMantissa then .ok (ofScale 0 hs (roundEven q) h)
    else .error .decimal
  | scale + 1, hs =>
    if h : |roundEven (q * 10 ^ (scale + 1))| ≤ maxMantissa then
      .ok (ofScale (scale + 1) hs (roundEven (q * 10 ^ (scale + 1))) h)
    else roundFrom q scale (Nat.le_of_succ_le hs)

def rounded (q : ℚ) : Exec Dec96 := roundFrom q 28 (le_refl _)

theorem roundFrom_ok {q : ℚ} {c : Dec96} : ∀ {scale : Nat} {hs : scale ≤ 28},
    roundFrom q scale hs = .ok c →
    ∃ s ≤ scale, c.units = roundEven (q * 10 ^ s) * 10 ^ (28 - s) ∧
      |roundEven (q * 10 ^ s)| ≤ maxMantissa ∧
      ∀ s', s < s' → s' ≤ scale → maxMantissa < |roundEven (q * 10 ^ s')| := by
  intro scale
  induction scale with
  | zero =>
    intro hs h
    unfold roundFrom at h
    split at h
    · rename_i small
      cases h
      refine ⟨0, le_refl _, ?_, ?_, ?_⟩
      · rw [pow_zero, mul_one]
        rfl
      · rwa [pow_zero, mul_one]
      · omega
    · cases h
  | succ scale ih =>
    intro hs h
    unfold roundFrom at h
    split at h
    · rename_i small
      cases h
      exact ⟨scale + 1, le_refl _, rfl, small, by omega⟩
    · rename_i large
      obtain ⟨s, hs', units, small, above⟩ := ih h
      refine ⟨s, by omega, units, small, ?_⟩
      intro s' low high
      rcases Nat.lt_or_ge scale s' with last | earlier
      · obtain rfl : s' = scale + 1 := by omega
        exact not_le.mp large
      · exact above s' low earlier

theorem roundFrom_returns {q : ℚ} (h : |roundEven q| ≤ maxMantissa) :
    ∀ {scale : Nat} {hs : scale ≤ 28}, ∃ c, roundFrom q scale hs = .ok c := by
  intro scale
  induction scale with
  | zero =>
    intro hs
    exact ⟨_, dif_pos h⟩
  | succ scale ih =>
    intro hs
    unfold roundFrom
    split
    · exact ⟨_, rfl⟩
    · exact ih

theorem roundFrom_error {q : ℚ} {p : Panic} : ∀ {scale : Nat} {hs : scale ≤ 28},
    roundFrom q scale hs = .error p → p = .decimal := by
  intro scale
  induction scale with
  | zero =>
    intro hs h
    unfold roundFrom at h
    split at h
    · cases h
    · cases h
      rfl
  | succ scale ih =>
    intro hs h
    unfold roundFrom at h
    split at h
    · cases h
    · exact ih h

/-- A number and its rounding at the largest scale that fits lie on the same
side of every decimal. -/
theorem scaled_le {q : ℚ} {s t : Nat} {n m : Int} (hs : s ≤ 28) (ht : t ≤ 28)
    (near : Near (q * 10 ^ s) n)
    (above : s < t → ∃ r, Near (q * 10 ^ (s + 1)) r ∧ maxMantissa < |r|)
    (hm : |m| ≤ maxMantissa) (h : q * 10 ^ t ≤ m) : n * 10 ^ (28 - s) ≤ m * 10 ^ (28 - t) := by
  have positive : ∀ k : Nat, (0 : ℚ) < 10 ^ k := fun k => by positivity
  rcases Nat.lt_or_ge s t with finer | coarser
  · obtain ⟨r, next, large⟩ := above finer
    have shift : q * 10 ^ t = q * 10 ^ (s + 1) * 10 ^ (t - (s + 1)) := by
      rw [mul_assoc, ← pow_add, Nat.add_sub_cancel' finer]
    have unit : (1 : ℚ) ≤ 10 ^ (t - (s + 1)) := one_le_pow₀ (by norm_num)
    have bound : ((m : Int) : ℚ) ≤ maxMantissa := by exact_mod_cast (abs_le.mp hm).2
    rcases lt_abs.mp large with high | low
    · -- then the number itself is above every mantissa at the finer scale
      have : (maxMantissa : ℚ) + 1 ≤ r := by exact_mod_cast high
      have big : (maxMantissa : ℚ) < q * 10 ^ (s + 1) := by
        have := next.1
        linarith
      have : (0 : ℚ) ≤ maxMantissa := by
        unfold maxMantissa
        norm_num
      have : q * 10 ^ (s + 1) ≤ q * 10 ^ (s + 1) * 10 ^ (t - (s + 1)) :=
        le_mul_of_one_le_right (by linarith) unit
      linarith
    · have : (r : ℚ) ≤ -maxMantissa - 1 := by
        have : r ≤ -maxMantissa - 1 := by omega
        exact_mod_cast this
      have small : q * 10 ^ s * 10 ≤ -maxMantissa - 1 / 2 := by
        have := next.2
        rw [pow_succ, ← mul_assoc] at this
        linarith
      -- rounding loses at most half a unit, and the mantissa ends in 5
      have rounded : n * 10 ≤ -(maxMantissa + 5) := by
        have : (n : ℚ) * 10 ≤ -maxMantissa + 9 / 2 := by
          have := near.1
          linarith
        have : (n : ℚ) * 10 < -maxMantissa + 5 := by linarith
        have : n * 10 < -maxMantissa + 5 := by exact_mod_cast this
        unfold maxMantissa at this ⊢
        omega
      have power : (10 : Int) ^ (28 - s) = 10 * 10 ^ (27 - s) := by
        rw [← pow_succ']
        congr 1
        omega
      have fewer : (10 : Int) ^ (28 - t) ≤ 10 ^ (27 - s) :=
        pow_le_pow_right₀ (by norm_num) (by omega)
      have least : -maxMantissa ≤ m := (abs_le.mp hm).1
      have unit : (0 : Int) < 10 ^ (28 - t) := by positivity
      have maximal : (0 : Int) < maxMantissa := by decide
      calc n * 10 ^ (28 - s) = n * 10 * 10 ^ (27 - s) := by rw [power, mul_assoc]
        _ ≤ -(maxMantissa + 5) * 10 ^ (27 - s) :=
          mul_le_mul_of_nonneg_right rounded (by positivity)
        _ ≤ -maxMantissa * 10 ^ (28 - t) := by nlinarith
        _ ≤ m * 10 ^ (28 - t) := mul_le_mul_of_nonneg_right least unit.le
  · have shift : q * 10 ^ s ≤ ((m * 10 ^ (s - t) : Int) : ℚ) := by
      push_cast
      rw [← Nat.add_sub_cancel' coarser, pow_add, ← mul_assoc, Nat.add_sub_cancel_left]
      exact mul_le_mul_of_nonneg_right h (positive _).le
    have whole := near.le shift
    have power : (10 : Int) ^ (28 - t) = 10 ^ (s - t) * 10 ^ (28 - s) := by
      rw [← pow_add]
      congr 1
      omega
    rw [power, ← mul_assoc]
    exact mul_le_mul_of_nonneg_right whole (by positivity)

def unit : ℚ := 10 ^ 28

theorem unit_pos : 0 < unit := by
  unfold unit
  positivity

def value (a : Dec96) : ℚ := a.units / unit

/-- A literal; one that does not fit stands for nothing the source writes. -/
def literal (m : Int) (scale : Nat) : Dec96 :=
  if h : scale ≤ 28 ∧ |m| ≤ maxMantissa then ofScale scale h.1 m h.2 else 0

/-- A mantissa without zeros at the end of its fraction. -/
def strip : Nat → Int → Int × Nat
  | 0, m => (m, 0)
  | scale + 1, m => if m % 10 = 0 then strip scale (m / 10) else (m, scale + 1)

def text (a : Dec96) : String := Numeral.decimalText (strip 28 a.units).1 (strip 28 a.units).2

instance : Decimal Dec96 where
  val := value
  lit := literal
  add a b := rounded (value a + value b)
  sub a b := rounded (value a - value b)
  mul a b := rounded (value a * value b)
  div a b := if b.units = 0 then .error .decimal else rounded (value a / value b)
  display := text

def ofText (s : String) : Except String Dec96 :=
  match Numeral.readDecimal s with
  | none => .error "invalid decimal"
  | some (m, scale) =>
    if h : scale ≤ 28 ∧ |m| ≤ maxMantissa then .ok (ofScale scale h.1 m h.2)
    else .error "out of range"

instance : DecimalText Dec96 where
  parse := ofText

theorem val_def (a : Dec96) : val a = value a := rfl

/-- A value between its scale's mantissa and its units. -/
theorem value_scaled (a : Dec96) : ∃ t ≤ 28, ∃ m : Int, |m| ≤ maxMantissa ∧
    a.units = m * 10 ^ (28 - t) ∧ value a * 10 ^ t = m := by
  obtain ⟨t, ht, m, hm, units⟩ := a.fits
  refine ⟨t, ht, m, hm, units, ?_⟩
  have power : unit = 10 ^ (28 - t) * 10 ^ t := by
    rw [← pow_add, Nat.sub_add_cancel ht]
    rfl
  have positive : (0 : ℚ) < 10 ^ (28 - t) * 10 ^ t := by positivity
  rw [value, units, power, div_mul_eq_mul_div, div_eq_iff positive.ne']
  push_cast
  rw [mul_assoc]

theorem units_le {q : ℚ} {c x : Dec96} (hc : rounded q = .ok c) (h : q ≤ value x) : c ≤ x := by
  obtain ⟨s, hs, units, -, above⟩ := roundFrom_ok hc
  obtain ⟨t, ht, m, hm, units', scaled⟩ := value_scaled x
  have positive : (0 : ℚ) ≤ 10 ^ t := by positivity
  change c.units ≤ x.units
  rw [units, units']
  apply scaled_le hs ht (roundEven_near _) ?_ hm
  · rw [← scaled]
    exact mul_le_mul_of_nonneg_right h positive
  · intro finer
    exact ⟨_, roundEven_near _, above (s + 1) (Nat.lt_succ_self s) (by omega)⟩

theorem le_units {q : ℚ} {c x : Dec96} (hc : rounded q = .ok c) (h : value x ≤ q) : x ≤ c := by
  obtain ⟨s, hs, units, -, above⟩ := roundFrom_ok hc
  obtain ⟨t, ht, m, hm, units', scaled⟩ := value_scaled x
  have positive : (0 : ℚ) ≤ 10 ^ t := by positivity
  have mirrored : -roundEven (q * 10 ^ s) * 10 ^ (28 - s) ≤ -m * 10 ^ (28 - t) := by
    apply scaled_le (q := -q) hs ht
    · rw [neg_mul]
      exact (roundEven_near _).neg
    · intro finer
      refine ⟨-roundEven (q * 10 ^ (s + 1)), ?_, ?_⟩
      · rw [neg_mul]
        exact (roundEven_near _).neg
      · rw [abs_neg]
        exact above (s + 1) (Nat.lt_succ_self s) (by omega)
    · rwa [abs_neg]
    · push_cast
      rw [neg_mul, ← scaled]
      exact neg_le_neg (mul_le_mul_of_nonneg_right h positive)
  change x.units ≤ c.units
  rw [units, units']
  rw [neg_mul, neg_mul] at mirrored
  omega

theorem value_bounds (a : Dec96) : |value a| ≤ maxMantissa := by
  obtain ⟨t, ht, m, hm, -, scaled⟩ := value_scaled a
  have positive : (1 : ℚ) ≤ 10 ^ t := one_le_pow₀ (by norm_num)
  have bound : |(m : ℚ)| ≤ maxMantissa := by exact_mod_cast hm
  calc |value a| ≤ |value a| * 10 ^ t := le_mul_of_one_le_right (abs_nonneg _) positive
    _ = |(m : ℚ)| := by rw [← scaled, abs_mul, abs_of_pos (by linarith : (0 : ℚ) < 10 ^ t)]
    _ ≤ maxMantissa := bound

theorem rounds_rounded (q : ℚ) : Rounds (D := Dec96) (rounded q) q where
  panic _ h := roundFrom_error h
  returns x y low high := by
    apply roundFrom_returns
    have least := (abs_le.mp (value_bounds x)).1
    have most := (abs_le.mp (value_bounds y)).2
    rw [val_def] at low high
    rw [abs_le]
    constructor
    · have := (roundEven_near q).neg.le (k := maxMantissa) (by linarith)
      omega
    · exact (roundEven_near q).le (by linarith)
  upper _ _ hc h := units_le hc h
  lower _ _ hc h := le_units hc h

theorem value_zero {a : Dec96} : value a = 0 ↔ a = 0 := by
  unfold value
  rw [div_eq_zero_iff, or_iff_left unit_pos.ne', Int.cast_eq_zero]
  exact ⟨fun h => units_injective h, fun h => congrArg units h⟩

/-- Only zero is rounded to zero, among the multiples of a unit. -/
theorem zero_of_rounded {n : Int} (h : rounded (n / unit) = .ok 0) : n = 0 := by
  obtain ⟨s, hs, units, -, above⟩ := roundFrom_ok h
  have zero : roundEven (n / unit * 10 ^ s) = 0 := by
    have : (0 : Int) < 10 ^ (28 - s) := by positivity
    rcases mul_eq_zero.mp units.symm with zero | impossible
    · exact zero
    · omega
  have near := roundEven_near (n / unit * 10 ^ s)
  rw [zero] at near
  obtain ⟨low, high⟩ := near
  rcases Nat.lt_or_ge s 28 with finer | whole
  · -- one more digit would have fitted
    have large := above (s + 1) (Nat.lt_succ_self s) (by omega)
    have next := roundEven_near (n / unit * 10 ^ (s + 1))
    rw [pow_succ, ← mul_assoc] at next
    have small : |roundEven (n / unit * 10 ^ (s + 1))| ≤ 5 := by
      rw [pow_succ, ← mul_assoc, abs_le]
      constructor
      · have := next.neg.le (k := 5) (by push_cast at low ⊢; linarith)
        omega
      · exact next.le (by push_cast at high ⊢; linarith)
    unfold maxMantissa at large
    omega
  · obtain rfl : s = 28 := by omega
    have exact_ : (n : ℚ) / unit * 10 ^ 28 = n := div_mul_cancel₀ _ unit_pos.ne'
    rw [exact_] at zero
    have := Near.le (q := (n : ℚ)) (k := n) (roundEven_near _) (le_refl _)
    have := Near.le (q := -(n : ℚ)) (k := -n) (roundEven_near _).neg (by push_cast; rfl)
    omega

instance : LawfulDecimal Dec96 where
  val_lt a b := by
    rw [val_def, val_def, value, value, div_lt_div_iff_of_pos_right unit_pos, Int.cast_lt]
    rfl
  val_zero := value_zero.mpr rfl
  val_lit m s hm hs := by
    have small : |m| ≤ maxMantissa := hm.le.trans (by decide)
    have units : (literal m s).units = m * 10 ^ (28 - s) := by
      rw [literal, dif_pos ⟨hs, small⟩]
      rfl
    have positive : (0 : ℚ) < 10 ^ s := by positivity
    change value (literal m s) = _
    rw [value, units, div_eq_div_iff unit_pos.ne' positive.ne', unit]
    push_cast
    rw [mul_assoc, ← pow_add, Nat.sub_add_cancel hs]
  add_rounds a b := rounds_rounded _
  sub_rounds a b := rounds_rounded _
  mul_rounds a b := rounds_rounded _
  div_rounds a b hb := by
    have nonzero : b.units ≠ 0 := fun h => hb (units_injective h)
    change Rounds (if b.units = 0 then _ else _) _
    rw [if_neg nonzero]
    exact rounds_rounded _
  sub_eq_zero a b h := by
    have same : rounded ((a.units - b.units : Int) / unit) = .ok 0 := by
      have : value a - value b = (a.units - b.units : Int) / unit := by
        rw [value, value, ← sub_div]
        push_cast
        rfl
      rw [← this]
      exact h
    exact units_injective (sub_eq_zero.mp (zero_of_rounded same))

theorem strip_eq (scale : Nat) : ∀ m : Int,
    (strip scale m).2 ≤ scale ∧ m = (strip scale m).1 * 10 ^ (scale - (strip scale m).2) := by
  induction scale with
  | zero => exact fun m => ⟨le_refl _, by simp [strip]⟩
  | succ scale ih =>
    intro m
    unfold strip
    by_cases zero : m % 10 = 0
    · rw [if_pos zero]
      obtain ⟨small, whole⟩ := ih (m / 10)
      refine ⟨by omega, ?_⟩
      have power : (10 : Int) ^ (scale + 1 - (strip scale (m / 10)).2) =
          10 ^ (scale - (strip scale (m / 10)).2) * 10 := by
        rw [← pow_succ]
        congr 1
        omega
      rw [power, ← mul_assoc, ← whole]
      omega
    · rw [if_neg zero]
      simp

/-- The mantissa without zeros is the smallest. -/
theorem strip_small (scale : Nat) : ∀ {t : Nat} {m k : Int}, t ≤ scale →
    k = m * 10 ^ (scale - t) → |(strip scale k).1| ≤ |m| := by
  induction scale with
  | zero =>
    intro t m k ht hk
    obtain rfl : t = 0 := by omega
    simp [strip, hk]
  | succ scale ih =>
    intro t m k ht hk
    unfold strip
    by_cases zero : k % 10 = 0
    · rw [if_pos zero]
      rcases Nat.lt_or_ge scale t with finest | coarser
      · obtain rfl : t = scale + 1 := by omega
        rw [Nat.sub_self, pow_zero, mul_one] at hk
        subst hk
        have tenth : |k / 10| ≤ |k| := by
          rw [abs_le]
          constructor
          · have := neg_abs_le k
            have := abs_nonneg k
            omega
          · have := le_abs_self k
            have := abs_nonneg k
            omega
        refine le_trans (ih (t := scale) (m := k / 10) (le_refl _) (by simp)) tenth
      · apply ih coarser
        have power : (10 : Int) ^ (scale + 1 - t) = 10 ^ (scale - t) * 10 := by
          rw [← pow_succ]
          congr 1
          omega
        rw [hk, power, ← mul_assoc, Int.mul_ediv_cancel _ (by decide)]
    · rw [if_neg zero]
      rcases Nat.lt_or_ge scale t with finest | coarser
      · obtain rfl : t = scale + 1 := by omega
        rw [hk, Nat.sub_self, pow_zero, mul_one]
      · have power : (10 : Int) ^ (scale + 1 - t) = 10 ^ (scale - t) * 10 := by
          rw [← pow_succ]
          congr 1
          omega
        rw [hk, power, ← mul_assoc, Int.mul_emod_left] at zero
        exact absurd rfl zero

theorem ofText_text (a : Dec96) : ofText (text a) = .ok a := by
  obtain ⟨scale, whole⟩ := strip_eq 28 a.units
  obtain ⟨t, ht, m, hm, units⟩ := a.fits
  have small := (strip_small 28 ht units).trans hm
  rw [ofText, text, Numeral.readDecimal_decimalText]
  dsimp only
  rw [dif_pos ⟨scale, small⟩]
  exact congrArg Except.ok (units_injective whole.symm)

instance : LawfulText Dec96 where
  plain a := by
    refine ⟨_, _, _, Numeral.decimalText_toList _ _, ?_, Numeral.repr_toList_ne_nil _,
      Numeral.repr_digits _, ?_⟩
    · split
      · exact .inr rfl
      · exact .inl rfl
    · unfold Numeral.fractionText
      split
      · exact .inl rfl
      · exact .inr ⟨_, rfl, Numeral.padded_digits _ _⟩
  parse_display := ofText_text

end Dec96

end RustTrader
