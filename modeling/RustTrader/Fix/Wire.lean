import Mathlib.Data.List.Infix
import RustTrader.Library.Numeral

/-!
# Bytes and text on the wire

Messages travel as bytes and are read as ASCII text. A value that may be put
into a field is not empty and printable; its bytes hold no separator, and the
text is read back from them.
-/

namespace RustTrader.Fix

/-- The field separator. -/
def soh : UInt8 := 1

def equalsSign : UInt8 := 61

/-- The bytes of a text. -/
def wireBytes (s : String) : List UInt8 := s.toList.flatMap String.utf8EncodeChar

/-- ASCII bytes as a text. -/
def asciiText (bytes : List UInt8) : String :=
  String.ofList (bytes.map (fun b => Char.ofNat b.toNat))

def isDigitByte (b : UInt8) : Bool := 48 ≤ b && b ≤ 57

def PrintableChar (c : Char) : Prop := 32 ≤ c.toNat ∧ c.toNat ≤ 126

instance (c : Char) : Decidable (PrintableChar c) :=
  inferInstanceAs (Decidable (32 ≤ c.toNat ∧ c.toNat ≤ 126))

/-- What a field may hold. -/
structure Value (s : String) : Prop where
  nonempty : s ≠ ""
  printable : ∀ c ∈ s.toList, PrintableChar c

instance (s : String) : Decidable (Value s) :=
  decidable_of_iff (s ≠ "" ∧ s.toList.all (fun c => decide (PrintableChar c)) = true)
    ⟨fun h => ⟨h.1, fun c hc => of_decide_eq_true (List.all_eq_true.mp h.2 c hc)⟩,
      fun h => ⟨h.nonempty,
        List.all_eq_true.mpr fun c hc => decide_eq_true (h.printable c hc)⟩⟩

theorem wireBytes_append (s t : String) : wireBytes (s ++ t) = wireBytes s ++ wireBytes t := by
  simp [wireBytes]

def Ascii (s : String) : Prop := ∀ c ∈ s.toList, c.toNat ≤ 127

instance (s : String) : Decidable (Ascii s) :=
  decidable_of_iff (s.toList.all (fun c => decide (c.toNat ≤ 127)) = true)
    ⟨fun h c hc => of_decide_eq_true (List.all_eq_true.mp h c hc),
      fun h => List.all_eq_true.mpr fun c hc => decide_eq_true (h c hc)⟩

theorem ascii_of_printable {s : String} (h : ∀ c ∈ s.toList, PrintableChar c) : Ascii s :=
  fun c hc => (h c hc).2.trans (by omega)

theorem Ascii.append {s t : String} (hs : Ascii s) (ht : Ascii t) : Ascii (s ++ t) := by
  intro c hc
  rw [String.toList_append] at hc
  rcases List.mem_append.mp hc with hc | hc
  · exact hs c hc
  · exact ht c hc

theorem encode_ascii {c : Char} (h : c.toNat ≤ 127) :
    String.utf8EncodeChar c = [UInt8.ofNat c.toNat] := by
  unfold String.utf8EncodeChar
  exact if_pos h

theorem byte_ascii {c : Char} (h : c.toNat ≤ 127) : (UInt8.ofNat c.toNat).toNat = c.toNat := by
  rw [UInt8.toNat_ofNat']
  omega

theorem wireBytes_ascii {s : String} (h : Ascii s) :
    wireBytes s = s.toList.map (fun c => UInt8.ofNat c.toNat) := by
  unfold wireBytes
  unfold Ascii at h
  generalize s.toList = chars at h
  induction chars with
  | nil => rfl
  | cons c chars ih =>
    rw [List.flatMap_cons, List.map_cons, encode_ascii (h c List.mem_cons_self),
      ih (fun d hd => h d (List.mem_cons_of_mem _ hd))]
    rfl

theorem asciiText_wireBytes {s : String} (h : Ascii s) : asciiText (wireBytes s) = s := by
  rw [wireBytes_ascii h, asciiText, List.map_map]
  have same : s.toList.map ((fun b : UInt8 => Char.ofNat b.toNat) ∘ fun c => UInt8.ofNat c.toNat) =
      s.toList := by
    conv_rhs => rw [← List.map_id s.toList]
    apply List.map_congr_left
    intro c hc
    change Char.ofNat (UInt8.ofNat c.toNat).toNat = c
    rw [byte_ascii (h c hc), Char.ofNat_toNat]
  rw [same, String.ofList_toList]

theorem wireBytes_printable {s : String} (h : ∀ c ∈ s.toList, PrintableChar c) :
    wireBytes s = s.toList.map (fun c => UInt8.ofNat c.toNat) :=
  wireBytes_ascii (ascii_of_printable h)

theorem byte_printable {c : Char} (h : PrintableChar c) :
    (UInt8.ofNat c.toNat).toNat = c.toNat :=
  byte_ascii (h.2.trans (by omega))

theorem Value.ascii {s : String} (h : Value s) : Ascii s := ascii_of_printable h.printable

/-- The bytes of printable text are printable. -/
theorem wireBytes_range {s : String} (h : ∀ c ∈ s.toList, PrintableChar c) :
    ∀ b ∈ wireBytes s, 32 ≤ b.toNat ∧ b.toNat ≤ 126 := by
  intro b hb
  rw [wireBytes_printable h] at hb
  obtain ⟨c, hc, rfl⟩ := List.mem_map.mp hb
  rw [byte_printable (h c hc)]
  exact h c hc

theorem soh_not_mem {s : String} (h : ∀ c ∈ s.toList, PrintableChar c) : soh ∉ wireBytes s := by
  intro mem
  have range := (wireBytes_range h soh mem).1
  revert range
  decide

theorem Value.bytes_ne_nil {s : String} (h : Value s) : wireBytes s ≠ [] := by
  rw [wireBytes_printable h.printable]
  intro none_
  apply h.nonempty
  rw [← String.toList_inj]
  exact List.map_eq_nil_iff.mp none_

theorem digit_range {c : Char} (h : c.isDigit) : 48 ≤ c.toNat ∧ c.toNat ≤ 57 := by
  have low : '0'.val.toNat = 48 := rfl
  have high : '9'.val.toNat = 57 := rfl
  simp only [Char.isDigit, Bool.and_eq_true, decide_eq_true_eq, ge_iff_le,
    UInt32.le_iff_toNat_le] at h
  unfold Char.toNat
  omega

theorem printable_of_digit {c : Char} (h : c.isDigit) : PrintableChar c := by
  have range := digit_range h
  unfold PrintableChar
  omega

theorem value_repr (n : Nat) : Value n.repr := by
  constructor
  · intro none_
    apply Numeral.repr_toList_ne_nil n
    rw [none_]
    rfl
  · intro c hc
    exact printable_of_digit (Numeral.repr_digits n c hc)

theorem digit_byte {c : Char} (h : c.isDigit) : isDigitByte (UInt8.ofNat c.toNat) = true := by
  have range := digit_range h
  have same := byte_printable (printable_of_digit h)
  simp only [isDigitByte, Bool.and_eq_true, decide_eq_true_eq, UInt8.le_iff_toNat_le, same]
  exact range

/-- The bytes of a number are digits. -/
theorem repr_bytes (n : Nat) : ∀ b ∈ wireBytes n.repr, isDigitByte b = true := by
  intro b hb
  rw [wireBytes_printable (value_repr n).printable] at hb
  obtain ⟨c, hc, rfl⟩ := List.mem_map.mp hb
  exact digit_byte (Numeral.repr_digits n c hc)

end RustTrader.Fix
