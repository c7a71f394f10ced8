import Mathlib.Algebra.Order.Field.Rat

/-!
# Decimal numerals

Printing and parsing of natural numbers and of finite decimals. Parsing
accepts leading zeros, printing produces none, and printing then parsing is the
identity.
-/

namespace Numeral

/-- A nonempty string of ASCII digits, read in base ten. -/
def parseNat (s : String) : Option Nat :=
  if s.toList ≠ [] ∧ s.toList.all Char.isDigit then some (Nat.ofDigitChars 10 s.toList 0) else none

@[simp] theorem parseNat_repr (n : Nat) : parseNat n.repr = some n := by
  have nonempty : Nat.toDigits 10 n ≠ [] := Nat.toDigits_ne_nil
  have digits : (Nat.toDigits 10 n).all Char.isDigit := by
    rw [List.all_eq_true]
    intro c hc
    exact Nat.isDigit_of_mem_toDigits (by decide) (by decide) hc
  simp [parseNat, Nat.toList_repr, nonempty, digits]

def dropPlus : List Char → List Char
  | '+' :: rest => rest
  | chars => chars

/-- An unsigned integer below a bound, with an optional plus sign. -/
def parseUnsigned (bound : Nat) (s : String) : Option Nat :=
  (parseNat (String.ofList (dropPlus s.toList))).filter (fun n => n < bound)

/-- A signed integer of some width, with an optional sign. -/
def parseSigned (width : Nat) (s : String) : Option Int :=
  let value : Option Int := match s.toList with
    | '-' :: rest => (parseNat (String.ofList rest)).map (fun n => -(n : Int))
    | chars => (parseNat (String.ofList (dropPlus chars))).map (fun n => (n : Int))
  value.filter (fun n => -2 ^ (width - 1) ≤ n ∧ n < 2 ^ (width - 1))

theorem repr_digits (n : Nat) : ∀ c ∈ n.repr.toList, c.isDigit := by
  intro c hc
  rw [Nat.toList_repr] at hc
  exact Nat.isDigit_of_mem_toDigits (by decide) (by decide) hc

theorem repr_toList_ne_nil (n : Nat) : n.repr.toList ≠ [] := by
  rw [Nat.toList_repr]
  exact Nat.toDigits_ne_nil

theorem parseUnsigned_repr_eq (bound n : Nat) :
    parseUnsigned bound n.repr = if n < bound then some n else none := by
  have plain : dropPlus n.repr.toList = n.repr.toList := by
    unfold dropPlus
    split
    · rename_i rest heq
      have digit := repr_digits n '+' (by rw [heq]; exact List.mem_cons_self)
      cases digit
    · rfl
  unfold parseUnsigned
  rw [plain, String.ofList_toList, parseNat_repr]
  simp [Option.filter]

@[simp] theorem parseUnsigned_repr {bound n : Nat} (h : n < bound) :
    parseUnsigned bound n.repr = some n := by
  rw [parseUnsigned_repr_eq, if_pos h]

theorem parseSigned_repr {width n : Nat} (h : n < 2 ^ (width - 1)) :
    parseSigned width n.repr = some (n : Int) := by
  have plain : parseNat (String.ofList (dropPlus n.repr.toList)) = some n := by
    have parsed := @parseUnsigned_repr (n + 1) n (Nat.lt_succ_self n)
    exact (Option.filter_eq_some_iff.mp parsed).1
  unfold parseSigned
  split
  · rename_i rest heq
    have digit := repr_digits n '-' (by rw [heq]; exact List.mem_cons_self)
    cases digit
  · have low : (0 : Int) ≤ 2 ^ (width - 1) := Int.pow_nonneg (by decide)
    have high : (n : Int) < 2 ^ (width - 1) := by exact_mod_cast h
    have fits : -2 ^ (width - 1) ≤ (n : Int) ∧ (n : Int) < 2 ^ (width - 1) := by omega
    rw [plain]
    exact Option.filter_eq_some_iff.mpr ⟨rfl, decide_eq_true fits⟩

/-- `m / 10 ^ scale` with exactly `scale` fractional digits. -/
def decimalText (m : Int) (scale : Nat) : String :=
  let sign := if m < 0 then "-" else ""
  let whole := (m.natAbs / 10 ^ scale).repr
  let fraction := (m.natAbs % 10 ^ scale).repr
  if scale = 0 then sign ++ whole
  else sign ++ whole ++ "." ++ String.ofList (List.replicate (scale - fraction.length) '0') ++
    fraction

/-- The digits of a fraction, padded with zeros. -/
def padded (n scale : Nat) : List Char :=
  List.replicate (scale - n.repr.length) '0' ++ n.repr.toList

/-- What follows the whole part. -/
def fractionText (n scale : Nat) : List Char := if scale = 0 then [] else '.' :: padded n scale

theorem decimalText_toList (m : Int) (scale : Nat) : (decimalText m scale).toList =
    (if m < 0 then ['-'] else []) ++ ((m.natAbs / 10 ^ scale).repr.toList ++
      fractionText (m.natAbs % 10 ^ scale) scale) := by
  unfold decimalText fractionText padded
  by_cases negative : m < 0
  · by_cases whole : scale = 0
    · simp [negative, whole]
    · simp [negative, whole]
  · by_cases whole : scale = 0
    · simp [negative, whole]
    · simp [negative, whole]

theorem padded_digits (n scale : Nat) : ∀ c ∈ padded n scale, c.isDigit := by
  intro c hc
  rcases List.mem_append.mp hc with hc | hc
  · rw [List.eq_of_mem_replicate hc]
    rfl
  · exact repr_digits n c hc

theorem padded_length {n scale : Nat} (h : n < 10 ^ scale) (positive : 0 < scale) :
    (padded n scale).length = scale := by
  have short : n.repr.length ≤ scale := (Nat.length_repr_le_iff positive).mpr h
  rw [padded, List.length_append, List.length_replicate, String.length_toList]
  omega

theorem padded_number (n scale : Nat) : Nat.ofDigitChars 10 (padded n scale) 0 = n := by
  rw [padded, Nat.ofDigitChars_append, Nat.ofDigitChars_replicate_zero, Nat.toList_repr,
    Nat.mul_zero, Nat.ofDigitChars_ten_toDigits]

theorem parseNat_digits {digits : List Char} (some_ : digits ≠ []) (all : ∀ c ∈ digits, c.isDigit) :
    parseNat (String.ofList digits) = some (Nat.ofDigitChars 10 digits 0) := by
  rw [parseNat, String.toList_ofList, if_pos ⟨some_, List.all_eq_true.mpr all⟩]

/-- A sign, digits and a fraction, as a mantissa and a number of fractional
digits. -/
def readDecimal (s : String) : Option (Int × Nat) :=
  let negative := s.toList.head? = some '-'
  let chars := if negative then s.toList.tail else s.toList
  let whole := chars.takeWhile (fun c => c != '.')
  let fraction := (chars.dropWhile (fun c => c != '.')).tail
  (parseNat (String.ofList (whole ++ fraction))).map fun (n : Nat) =>
    (if negative then -(n : Int) else n, fraction.length)

theorem digit_ne {c d : Char} (h : c.isDigit) (hd : d.isDigit = false) : c ≠ d := by
  rintro rfl
  rw [h] at hd
  cases hd

/-- Digits, and a fraction of as many digits as `scale` says. -/
theorem readDecimal_parts {whole fraction : List Char} {scale : Nat} (negative : Bool)
    (some_ : whole ≠ []) (digits : ∀ c ∈ whole, c.isDigit) (digits' : ∀ c ∈ fraction, c.isDigit)
    (length : fraction.length = scale) {s : String}
    (hs : s.toList = (if negative then ['-'] else []) ++ (whole ++
      if scale = 0 then [] else '.' :: fraction)) :
    readDecimal s = some (if negative then
      -(Nat.ofDigitChars 10 (whole ++ fraction) 0 : Int)
      else Nat.ofDigitChars 10 (whole ++ fraction) 0, scale) := by
  have plain : ∀ c ∈ whole, (c != '.') = true := by
    intro c hc
    rw [bne_iff_ne]
    exact digit_ne (digits c hc) rfl
  have head : (s.toList.head? = some '-') ↔ negative = true := by
    rw [hs]
    cases negative with
    | true => simp
    | false =>
      cases whole with
      | nil => exact absurd rfl some_
      | cons c whole =>
        have other : c ≠ '-' := digit_ne (digits c List.mem_cons_self) rfl
        simp [other]
  have chars : (if negative then s.toList.tail else s.toList) = whole ++
      if scale = 0 then [] else '.' :: fraction := by
    rw [hs]
    cases negative <;> rfl
  have taken : (whole ++ if scale = 0 then [] else '.' :: fraction).takeWhile
      (fun c => c != '.') = whole := by
    rw [List.takeWhile_append_of_pos plain]
    split <;> simp
  have dropped : ((whole ++ if scale = 0 then [] else '.' :: fraction).dropWhile
      (fun c => c != '.')).tail = fraction := by
    rw [List.dropWhile_append_of_pos plain]
    by_cases none_ : scale = 0
    · rw [if_pos none_]
      exact (List.length_eq_zero_iff.mp (length.trans none_)).symm
    · rw [if_neg none_]
      rfl
  have number : parseNat (String.ofList (whole ++ fraction)) =
      some (Nat.ofDigitChars 10 (whole ++ fraction) 0) := by
    apply parseNat_digits
    · simp [some_]
    · intro c hc
      exact (List.mem_append.mp hc).elim (digits c) (digits' c)
  unfold readDecimal
  simp only [head, chars, taken, dropped, number, Option.map_some, length]

theorem signed_natAbs (m : Int) :
    (if decide (m < 0) = true then -(m.natAbs : Int) else (m.natAbs : Int)) = m := by
  by_cases negative : m < 0
  · rw [decide_eq_true negative, if_pos rfl]
    omega
  · rw [decide_eq_false negative, if_neg Bool.false_ne_true]
    omega

@[simp] theorem readDecimal_decimalText (m : Int) (scale : Nat) :
    readDecimal (decimalText m scale) = some (m, scale) := by
  have text := decimalText_toList m scale
  have sign : (if m < 0 then ['-'] else []) = if decide (m < 0) then ['-']
    else ([] : List Char) := by
    simp
  by_cases whole : scale = 0
  · subst whole
    rw [sign] at text
    have none_ : ([] : List Char).length = 0 := rfl
    rw [readDecimal_parts (decide (m < 0)) (repr_toList_ne_nil _) (repr_digits _) (by simp) none_
      (by simpa [fractionText] using text)]
    rw [List.append_nil, Nat.toList_repr, Nat.ofDigitChars_ten_toDigits, signed_natAbs]
  · have below : m.natAbs % 10 ^ scale < 10 ^ scale := Nat.mod_lt _ (Nat.pow_pos (by decide))
    have length := padded_length below (Nat.pos_of_ne_zero whole)
    rw [sign, fractionText] at text
    rw [readDecimal_parts (decide (m < 0)) (repr_toList_ne_nil _) (repr_digits _)
      (padded_digits _ _) length text]
    rw [Nat.ofDigitChars_append, Nat.ofDigitChars_eq_ofDigitChars_zero, padded_number, length,
      Nat.toList_repr, Nat.ofDigitChars_ten_toDigits, Nat.div_add_mod,
      signed_natAbs]

/-- The shortest decimal expansion with at most `limit` fractional digits, and
a fraction where there is none. -/
def ratText (limit : Nat) (q : ℚ) : String :=
  match (List.range (limit + 1)).find? (fun s => decide (10 ^ s % q.den = 0)) with
  | some s => decimalText (q.num * ((10 ^ s / q.den : Nat) : Int)) s
  | none => decimalText q.num 0 ++ "/" ++ q.den.repr

end Numeral
