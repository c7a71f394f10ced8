import RustTrader.Fix.Codec
import RustTrader.Fix.Grammar

/-!
# Sequence resets on the wire

`frame_gap_fill` of `fix/session.rs` builds the one message whose header says that it
may be a duplicate. Any list of fields that begins with the message type is read back
from the frame around it.
-/

namespace RustTrader.Fix

/-- A body between the leading fields and the checksum. -/
def enclosed (beginString body : String) : String :=
  let message := "8=" ++ beginString ++ "\x01" ++ "9=" ++ (wireBytes body).length.repr ++ "\x01" ++
    body
  message ++ "10=" ++ threeDigits (checksum message) ++ "\x01"

/-- The header of a sequence reset, which says that it may be a duplicate. -/
def duplicateHeader (msgType : String) (seq : Nat) (sender target now : String) : Fields :=
  [(35, msgType), (34, seq.repr), (49, sender), (56, target), (43, "Y"), (52, now), (122, now)]

/-- `frame_gap_fill`. -/
def frameGapFill (beginString msgType : String) (seq : Nat) (sender target now : String)
    (fields : Fields) : List UInt8 :=
  wireBytes (enclosed beginString
    (bodyText (duplicateHeader msgType seq sender target now ++ fields)))

/-- The bytes of a field. -/
def fieldPart (field : Nat × String) : FieldPart := (wireBytes field.1.repr, wireBytes field.2)

theorem digits_repr (n : Nat) : Digits (wireBytes n.repr) :=
  ⟨(value_repr n).bytes_ne_nil, repr_bytes n⟩

theorem digitsNumber_repr (n : Nat) : digitsNumber (wireBytes n.repr) = n := by
  have number := parseNat_ascii (digits_repr n)
  rw [asciiText_wireBytes (value_repr n).ascii, Numeral.parseNat_repr] at number
  exact (Option.some.inj number).symm

theorem fieldPart_field {field : Nat × String} (h : Value field.2) :
    (fieldPart field).field = field := by
  unfold fieldPart FieldPart.field
  rw [digitsNumber_repr, asciiText_wireBytes h.ascii]

theorem fieldPart_valid {field : Nat × String} (h : BodyField field) : (fieldPart field).Valid := by
  refine ⟨digits_repr _, ?_, h.value.bytes_ne_nil, soh_not_mem h.value.printable⟩
  rw [fieldPart, digitsNumber_repr]
  exact h.tag

theorem bodyText_parts (fields : Fields) :
    wireBytes (bodyText fields) = (fields.map fieldPart).flatMap FieldPart.bytes := by
  rw [wireBytes_bodyText, List.flatMap_map]
  refine List.flatMap_congr fun field _ => ?_
  simp [fieldBytes, fieldPart, FieldPart.bytes]

/-- A text of printable characters and separators. -/
def Wired (s : String) : Prop := ∀ c ∈ s.toList, c = '\x01' ∨ PrintableChar c

theorem Value.wired {s : String} (h : Value s) : Wired s := fun c mem => .inr (h.printable c mem)

theorem Wired.append {s t : String} (hs : Wired s) (ht : Wired t) : Wired (s ++ t) := by
  intro c mem
  rw [String.toList_append] at mem
  rcases List.mem_append.mp mem with here | here
  · exact hs c here
  · exact ht c here

theorem wired_separator : Wired "\x01" := by
  intro c mem
  exact .inl (List.mem_singleton.mp mem)

theorem Wired.ascii {s : String} (h : Wired s) : Ascii s := by
  intro c mem
  rcases h c mem with rfl | range
  · decide
  · exact range.2.trans (by decide)

theorem Wired.bytes {s : String} (h : Wired s) :
    ∀ b ∈ wireBytes s, b = soh ∨ 32 ≤ b.toNat ∧ b.toNat ≤ 126 := by
  intro b mem
  rw [wireBytes_ascii h.ascii] at mem
  obtain ⟨c, here, rfl⟩ := List.mem_map.mp mem
  rcases h c here with rfl | range
  · exact .inl rfl
  · rw [byte_printable range]
    exact .inr range

theorem wired_bodyText {fields : Fields} (ok : ∀ field ∈ fields, Value field.2) :
    Wired (bodyText fields) := by
  unfold bodyText
  refine List.foldlRecOn fields _ (motive := Wired) (fun c mem => by cases mem) ?_
  intro body wired field mem
  exact wired.append ((((value_repr field.1).wired.append (by decide : Value "=").wired).append
    (ok field mem).wired).append wired_separator)

theorem wired_enclosed {fields : Fields} (ok : ∀ field ∈ fields, BodyField field) :
    Wired (enclosed "FIX.4.2" (bodyText fields)) := by
  have body : Wired (bodyText fields) := wired_bodyText fun field mem => (ok field mem).value
  have lead : Wired ("8=" ++ "FIX.4.2" ++ "\x01" ++ "9=") :=
    ((by decide : Value ("8=" ++ "FIX.4.2")).wired.append wired_separator).append
      (by decide : Value "9=").wired
  have tag : Wired "10=" := (by decide : Value "10=").wired
  have digits : Wired (threeDigits (checksum ("8=" ++ "FIX.4.2" ++ "\x01" ++ "9=" ++
      (wireBytes (bodyText fields)).length.repr ++ "\x01" ++ bodyText fields))) :=
    fun c mem => .inr (threeDigits_printable _ c mem)
  exact (((((lead.append (value_repr _).wired).append wired_separator).append body).append
    tag).append digits).append wired_separator

theorem checksum_lt (text : String) : checksum text < 1000 :=
  (Nat.mod_lt _ (by decide)).trans (by decide)

theorem threeDigits_bytes {n : Nat} (small : n < 1000) :
    Digits (wireBytes (threeDigits n)) ∧ (wireBytes (threeDigits n)).length = 3 ∧
      digitsNumber (wireBytes (threeDigits n)) = n := by
  have length := threeDigits_length small
  have digits : Digits (wireBytes (threeDigits n)) := by
    constructor
    · intro none_
      rw [none_] at length
      cases length
    · intro b mem
      rw [wireBytes_printable (threeDigits_printable n)] at mem
      obtain ⟨c, here, rfl⟩ := List.mem_map.mp mem
      exact digit_byte (threeDigits_digits n c here)
  refine ⟨digits, length, ?_⟩
  have number := parseNat_ascii digits
  rw [asciiText_wireBytes (ascii_of_printable (threeDigits_printable n)),
    parseNat_threeDigits] at number
  exact (Option.some.inj number).symm

/-- What is enclosed is read back. -/
theorem enclosed_parsed {value : String} {rest : Fields}
    (ok : ∀ field ∈ (35, value) :: rest, BodyField field) :
    parseWire (wireBytes (enclosed "FIX.4.2" (bodyText ((35, value) :: rest)))) =
      .ok ⟨"FIX.4.2", (35, value) :: rest,
        enclosed "FIX.4.2" (bodyText ((35, value) :: rest))⟩ := by
  generalize all : (35, value) :: rest = fields at ok ⊢
  have wired := wired_enclosed ok
  have separator : wireBytes "\x01" = [soh] := rfl
  have begins : wireBytes "8=" ++ wireBytes "FIX.4.2" = wireBytes ("8=" ++ "FIX.4.2") := rfl
  let parts := fields.map fieldPart
  let length := wireBytes (wireBytes (bodyText fields)).length.repr
  let message := "8=" ++ "FIX.4.2" ++ "\x01" ++ "9=" ++ (wireBytes (bodyText fields)).length.repr ++
    "\x01" ++ bodyText fields
  have front : wireBytes message =
      leading (wireBytes "FIX.4.2") length ++ parts.flatMap FieldPart.bytes := by
    simp only [message, wireBytes_append _ "\x01", wireBytes_append _ (bodyText _),
      wireBytes_append _ "9=", wireBytes_append _ (Nat.repr _), separator, leading, parts, length,
      bodyText_parts, begins, List.append_assoc]
  have whole : wireBytes (enclosed "FIX.4.2" (bodyText fields)) =
      leading (wireBytes "FIX.4.2") length ++ parts.flatMap FieldPart.bytes ++
        (wireBytes "10=" ++ wireBytes (threeDigits (checksum message)) ++ [soh]) := by
    change wireBytes (message ++ "10=" ++ threeDigits (checksum message) ++ "\x01") = _
    rw [wireBytes_append, wireBytes_append, wireBytes_append, front, separator]
    simp only [List.append_assoc]
  obtain ⟨sum_digits, sum_length, sum_number⟩ := threeDigits_bytes (checksum_lt message)
  have sum_eq : digitsNumber (wireBytes (threeDigits (checksum message))) =
      ((leading (wireBytes "FIX.4.2") length ++ parts.flatMap FieldPart.bytes).map
        UInt8.toNat).sum % 256 := by
    rw [sum_number, ← checksum_eq, running_sum, front]
  have seven : (wireBytes "10=" ++ wireBytes (threeDigits (checksum message)) ++ [soh]).length =
      7 := by
    rw [List.length_append, List.length_append, sum_length]
    rfl
  have inner : soh ∉ wireBytes "FIX.4.2" := by decide
  have printable := wired.bytes
  have kind : wireBytes "35=" <+: parts.flatMap FieldPart.bytes := by
    refine ⟨wireBytes value ++ soh :: (rest.map fieldPart).flatMap FieldPart.bytes, ?_⟩
    have sign : wireBytes "35=" = wireBytes (35 : Nat).repr ++ [equalsSign] := rfl
    simp only [parts, ← all, List.map_cons, List.flatMap_cons, fieldPart, FieldPart.bytes, sign,
      List.append_assoc, List.cons_append, List.nil_append]
  rw [whole] at printable ⊢
  refine parseWire_of_sealed inner (digits_repr _) seven ?_
  refine ⟨printable, ⟨_, rfl, sum_digits, sum_length, sum_eq⟩, kind, parts, rfl, ?_, ?_⟩
  · intro part mem
    obtain ⟨field, here, rfl⟩ := List.mem_map.mp mem
    exact fieldPart_valid (ok field here)
  · have names : parts.map FieldPart.field = fields := by
      rw [List.map_map]
      exact (List.map_congr_left fun field mem => fieldPart_field (ok field mem).value).trans
        (List.map_id _)
    rw [names, ← whole, asciiText_wireBytes wired.ascii]
    rfl

end RustTrader.Fix
