import RustTrader.Fix.Frame
import RustTrader.Library.Fallible

/-!
# Frames are read back

What `frame` writes is parsed to the fields it was given, and the size of a
frame is known from its first two fields on, whatever follows them.
-/

namespace RustTrader.Fix

abbrev BodyTag (tag : Nat) : Prop :=
  tag ≠ 0 ∧ tag < 2 ^ 32 ∧ tag ≠ 8 ∧ tag ≠ 9 ∧ tag ≠ 10

/-- What may stand in the body of a frame. -/
structure BodyField (field : Nat × String) : Prop where
  tag : BodyTag field.1
  value : Value field.2

theorem bodyField {tag : Nat} {value : String} (ok : BodyTag tag) (h : Value value) :
    BodyField (tag, value) := ⟨ok, h⟩

def fieldBytes (field : Nat × String) : List UInt8 :=
  wireBytes field.1.repr ++ equalsSign :: wireBytes field.2

theorem wireBytes_fieldText (field : Nat × String) :
    wireBytes (fieldText field) = fieldBytes field ++ [soh] := by
  have sign : wireBytes "=" = [equalsSign] := rfl
  have separator : wireBytes "\x01" = [soh] := rfl
  simp only [fieldText, fieldBytes, wireBytes_append, sign, separator, List.append_assoc,
    List.cons_append, List.nil_append]

theorem bodyText_from (fields : List (Nat × String)) (start : String) :
    wireBytes (fields.foldl (fun body field => body ++ fieldText field) start) =
      wireBytes start ++ fields.flatMap (fun field => fieldBytes field ++ [soh]) := by
  induction fields generalizing start with
  | nil => simp
  | cons field fields ih =>
    rw [List.foldl_cons, ih, wireBytes_append, wireBytes_fieldText, List.flatMap_cons,
      List.append_assoc]

theorem wireBytes_bodyText (fields : List (Nat × String)) :
    wireBytes (bodyText fields) = fields.flatMap (fun field => fieldBytes field ++ [soh]) := by
  rw [bodyText, bodyText_from]
  rfl

theorem digits_printable (n : Nat) : ∀ c ∈ n.repr.toList, PrintableChar c :=
  (value_repr n).printable

theorem equalsSign_not_mem (n : Nat) : equalsSign ∉ wireBytes n.repr := by
  intro mem
  have digit := repr_bytes n equalsSign mem
  revert digit
  decide

theorem soh_not_mem_field {field : Nat × String} (h : Value field.2) : soh ∉ fieldBytes field := by
  intro mem
  rcases List.mem_append.mp mem with mem | mem
  · exact soh_not_mem (digits_printable _) mem
  · rcases List.mem_cons.mp mem with same | mem
    · exact absurd same (by decide)
    · exact soh_not_mem h.printable mem

theorem fieldBytes_range {field : Nat × String} (h : Value field.2) :
    ∀ b ∈ fieldBytes field, 32 ≤ b.toNat ∧ b.toNat ≤ 126 := by
  intro b mem
  rcases List.mem_append.mp mem with mem | mem
  · exact wireBytes_range (digits_printable _) b mem
  · rcases List.mem_cons.mp mem with rfl | mem
    · decide
    · exact wireBytes_range h.printable b mem

theorem splitOnce_append {sep : UInt8} {before : List UInt8} (h : sep ∉ before)
    (after : List UInt8) : splitOnce sep (before ++ sep :: after) = some (before, after) := by
  have others : ∀ b ∈ before, (b != sep) = true := by
    intro b hb
    rw [bne_iff_ne]
    rintro rfl
    exact h hb
  have dropped : (before ++ sep :: after).dropWhile (fun b => b != sep) = sep :: after := by
    rw [List.dropWhile_append_of_pos others]
    exact List.dropWhile_cons_of_neg (by simp)
  have taken : (before ++ sep :: after).takeWhile (fun b => b != sep) = before := by
    rw [List.takeWhile_append_of_pos others, List.takeWhile_cons_of_neg (by simp),
      List.append_nil]
  rw [splitOnce, dropped, taken]

theorem parseField_fieldBytes {field : Nat × String} (h : BodyField field) :
    parseField (fieldBytes field) = .ok field := by
  obtain ⟨tag, value⟩ := field
  have some_ : (wireBytes tag.repr).isEmpty = false := by
    rw [List.isEmpty_eq_false_iff]
    exact (value_repr tag).bytes_ne_nil
  have digits : (wireBytes tag.repr).all isDigitByte = true := by
    rw [List.all_eq_true]
    exact repr_bytes tag
  have full : (wireBytes value).isEmpty = false := by
    rw [List.isEmpty_eq_false_iff]
    exact h.value.bytes_ne_nil
  have number : Numeral.parseUnsigned (2 ^ 32) (asciiText (wireBytes tag.repr)) = some tag := by
    rw [asciiText_wireBytes (value_repr tag).ascii, Numeral.parseUnsigned_repr h.tag.2.1]
  have nonzero : tag ≠ 0 := h.tag.1
  unfold parseField
  rw [fieldBytes, splitOnce_append (equalsSign_not_mem tag)]
  simp only [some_, digits, full, number, asciiText_wireBytes h.value.ascii, Bool.not_true,
    Bool.or_false, Bool.false_eq_true, if_false]

/-- The fields of a body, each followed by a separator. -/
theorem flatMap_separated (fields : List (Nat × String)) (some_ : fields ≠ []) :
    fields.flatMap (fun field => fieldBytes field ++ [soh]) =
      [soh].intercalate (fields.map fieldBytes) ++ [soh] := by
  induction fields with
  | nil => exact absurd rfl some_
  | cons field fields ih =>
    cases fields with
    | nil => simp
    | cons next fields =>
      have later : next :: fields ≠ [] := List.cons_ne_nil _ _
      rw [List.flatMap_cons, ih later]
      simp only [List.map_cons, List.intercalate_cons_cons, List.append_assoc]

theorem parseFields_bodyText {fields : List (Nat × String)} (some_ : fields ≠ [])
    (h : ∀ field ∈ fields, BodyField field) :
    parseFields (wireBytes (bodyText fields)) = .ok fields := by
  have apart : ∀ part ∈ fields.map fieldBytes, soh ∉ part := by
    intro part hpart
    obtain ⟨field, hfield, rfl⟩ := List.mem_map.mp hpart
    exact soh_not_mem_field (h field hfield).value
  unfold parseFields
  rw [wireBytes_bodyText, flatMap_separated fields some_, List.getLast?_concat, if_pos rfl,
    List.dropLast_concat]
  dsimp only
  rw [List.splitOn_intercalate soh apart (by simpa using some_)]
  rw [mapM_eq_ok, List.forall₂_map_left_iff, List.forall₂_same]
  exact fun field hfield => parseField_fieldBytes (h field hfield)

theorem ascii_bodyText {fields : List (Nat × String)} (h : ∀ field ∈ fields, Value field.2) :
    Ascii (bodyText fields) := by
  have from_ : ∀ start, Ascii start →
      Ascii (fields.foldl (fun body field => body ++ fieldText field) start) := by
    induction fields with
    | nil => exact fun start hs => hs
    | cons field fields ih =>
      intro start hs
      have first : Ascii (fieldText field) :=
        (((value_repr field.1).ascii.append (by decide)).append
          (h field List.mem_cons_self).ascii).append (by decide)
      exact ih (fun f hf => h f (List.mem_cons_of_mem _ hf)) _ (hs.append first)
  exact from_ "" (by decide)

theorem threeDigits_toList (n : Nat) : (threeDigits n).toList = Numeral.padded n 3 := by
  rw [threeDigits, String.toList_append, String.toList_ofList]
  rfl

theorem threeDigits_digits (n : Nat) : ∀ c ∈ (threeDigits n).toList, c.isDigit := by
  rw [threeDigits_toList]
  exact Numeral.padded_digits n 3

theorem threeDigits_printable (n : Nat) : ∀ c ∈ (threeDigits n).toList, PrintableChar c :=
  fun c hc => printable_of_digit (threeDigits_digits n c hc)

theorem threeDigits_length {n : Nat} (h : n < 1000) : (wireBytes (threeDigits n)).length = 3 := by
  rw [wireBytes_printable (threeDigits_printable n), List.length_map, threeDigits_toList]
  exact Numeral.padded_length h (by decide)

theorem parseNat_threeDigits (n : Nat) : Numeral.parseNat (threeDigits n) = some n := by
  have some_ : Numeral.padded n 3 ≠ [] :=
    fun none_ => Numeral.repr_toList_ne_nil n (List.append_eq_nil_iff.mp none_).2
  have text : threeDigits n = String.ofList (Numeral.padded n 3) := by
    rw [← threeDigits_toList, String.ofList_toList]
  rw [text, Numeral.parseNat_digits some_ (Numeral.padded_digits n 3), Numeral.padded_number]

theorem foldl_sum (bytes : List UInt8) (start : UInt8) :
    (bytes.foldl (fun sum b => sum + b) start).toNat =
      (start.toNat + (bytes.map UInt8.toNat).sum) % 256 := by
  induction bytes generalizing start with
  | nil =>
    have := start.toNat_lt
    simp only [List.foldl_nil, List.map_nil, List.sum_nil]
    omega
  | cons b bytes ih =>
    rw [List.foldl_cons, ih, UInt8.toNat_add, List.map_cons, List.sum_cons]
    omega

/-- The reader's running sum is the writer's checksum. -/
theorem checksum_eq (text : String) :
    ((wireBytes text).foldl (fun sum b => sum + b) (0 : UInt8)).toNat = checksum text := by
  rw [foldl_sum, checksum]
  change (0 + _) % 256 = _
  omega

theorem position_none {bytes : List UInt8} (h : soh ∉ bytes) : position bytes = none := by
  rw [position, List.findIdx?_eq_none_iff]
  intro b hb
  rw [beq_eq_false_iff_ne]
  rintro rfl
  exact h hb

theorem position_append {before : List UInt8} (h : soh ∉ before) (after : List UInt8) :
    position (before ++ soh :: after) = some before.length := by
  have none_ : List.findIdx? (fun b => b == soh) before = none := position_none h
  rw [position, List.findIdx?_append, none_, List.findIdx?_cons]
  simp

/-- Two fields and what follows them. -/
def header (first second rest : List UInt8) : List UInt8 := first ++ soh :: (second ++ soh :: rest)

theorem header_length (first second rest : List UInt8) :
    (header first second rest).length = first.length + 1 + second.length + 1 + rest.length := by
  simp only [header, List.length_append, List.length_cons]
  omega

theorem header_append (first second rest more : List UInt8) :
    header first second rest ++ more = header first second (rest ++ more) := by
  simp [header]

theorem header_position {first : List UInt8} (h : soh ∉ first) (second rest : List UInt8) :
    position (header first second rest) = some first.length :=
  position_append h _

section

variable (first second rest : List UInt8)

theorem header_drop : (header first second rest).drop (first.length + 1) =
    second ++ soh :: rest := by
  rw [header, List.drop_append, List.drop_eq_nil_of_le (by omega)]
  simp

theorem header_take : (header first second rest).take first.length = first := by
  rw [header, List.take_left']
  rfl

theorem header_second :
    ((header first second rest).take (first.length + 1 + second.length)).drop (first.length + 1) =
      second := by
  rw [List.drop_take, header_drop, Nat.add_sub_cancel_left, List.take_left']
  rfl

theorem header_rest :
    (header first second rest).drop (first.length + 1 + second.length + 1) = rest := by
  have two_steps : first.length + 1 + second.length + 1 =
      (first.length + 1) + (second.length + 1) := by omega
  rw [two_steps, ← List.drop_drop, header_drop, List.drop_append,
    List.drop_eq_nil_of_le (by omega)]
  simp

end

/-- What a session hands to `frame`; `now` is the sending time. -/
structure Outgoing where
  msgType : String
  seq : Nat
  sender : String
  target : String
  now : String
  fields : List (Nat × String)
  msgType_value : Value msgType
  seq_lt : seq < 2 ^ 64
  sender_value : Value sender
  target_value : Value target
  now_value : Value now
  body_fields : ∀ field ∈ fields, BodyField field

namespace Outgoing

variable (m : Outgoing)

def allFields : List (Nat × String) :=
  headerFields m.msgType m.seq m.sender m.target m.now ++ m.fields

def text : String := frameText "FIX.4.2" m.msgType m.seq m.sender m.target m.now m.fields

def bytes : List UInt8 := frame "FIX.4.2" m.msgType m.seq m.sender m.target m.now m.fields

/-- The message a reader gets. -/
def message : FixMessage := ⟨"FIX.4.2", m.allFields, m.text⟩

theorem allFields_ne_nil : m.allFields ≠ [] := by simp [allFields, headerFields]

theorem allFields_ok : ∀ field ∈ m.allFields, BodyField field := by
  intro field hfield
  rcases List.mem_append.mp hfield with header | extra
  · simp only [headerFields, List.mem_cons, List.not_mem_nil, or_false] at header
    rcases header with rfl | rfl | rfl | rfl | rfl
    · exact bodyField (by decide) m.msgType_value
    · exact bodyField (by decide) (value_repr m.seq)
    · exact bodyField (by decide) m.sender_value
    · exact bodyField (by decide) m.target_value
    · exact bodyField (by decide) m.now_value
  · exact m.body_fields field extra

def beginBytes : List UInt8 := wireBytes "8=FIX.4.2"

def bodyBytes : List UInt8 := wireBytes (bodyText m.allFields)

def lengthBytes : List UInt8 := wireBytes "9=" ++ wireBytes m.bodyBytes.length.repr

/-- What the checksum is taken of. -/
def start : List UInt8 := header beginBytes m.lengthBytes m.bodyBytes

def sumBytes : List UInt8 :=
  wireBytes (threeDigits (m.start.foldl (fun sum b => sum + b) (0 : UInt8)).toNat)

def trailer : List UInt8 := wireBytes "10=" ++ m.sumBytes ++ [soh]

theorem bytes_eq : m.bytes = m.start ++ m.trailer := by
  have separator : wireBytes "\x01" = [soh] := rfl
  have start_eq : wireBytes ("8=" ++ "FIX.4.2" ++ "\x01" ++ "9=" ++ m.bodyBytes.length.repr ++
      "\x01" ++ bodyText m.allFields) = m.start := by
    simp only [start, header, lengthBytes, beginBytes, bodyBytes, wireBytes_append, separator,
      List.append_assoc, List.cons_append, List.nil_append]
    rfl
  unfold bytes frame frameText
  simp only [wireBytes_append _ "\x01", wireBytes_append _ (threeDigits _),
    wireBytes_append _ "10=", separator, ← checksum_eq]
  rw [trailer, sumBytes, ← start_eq]
  simp only [List.append_assoc]
  rfl

theorem bytes_header :
    m.bytes = header beginBytes m.lengthBytes (m.bodyBytes ++ m.trailer) := by
  rw [bytes_eq, start, header_append]

theorem sumBytes_eq : ∃ n, n < 1000 ∧ m.sumBytes = wireBytes (threeDigits n) ∧
    n = (m.start.foldl (fun sum b => sum + b) (0 : UInt8)).toNat :=
  ⟨_, (UInt8.toNat_lt _).trans (by decide), rfl, rfl⟩

theorem sumBytes_length : m.sumBytes.length = 3 := by
  obtain ⟨n, small, hn, -⟩ := m.sumBytes_eq
  rw [hn, threeDigits_length small]

theorem sumBytes_digits : m.sumBytes.all isDigitByte = true := by
  rw [List.all_eq_true]
  intro b hb
  obtain ⟨n, -, hn, -⟩ := m.sumBytes_eq
  rw [hn, wireBytes_printable (threeDigits_printable n)] at hb
  obtain ⟨c, hc, rfl⟩ := List.mem_map.mp hb
  exact digit_byte (threeDigits_digits n c hc)

theorem sumBytes_number : Numeral.parseNat (asciiText m.sumBytes) =
    some (m.start.foldl (fun sum b => sum + b) (0 : UInt8)).toNat := by
  rw [sumBytes, asciiText_wireBytes (ascii_of_printable (threeDigits_printable _)),
    parseNat_threeDigits]

theorem trailer_length : m.trailer.length = 7 := by
  have tag : (wireBytes "10=").length = 3 := rfl
  simp only [trailer, List.length_append, tag, sumBytes_length, List.length_singleton]

theorem trailer_digits : (m.trailer.take 6).drop 3 = m.sumBytes := by
  have front : (wireBytes "10=" ++ m.sumBytes).length = 6 := by
    rw [List.length_append, sumBytes_length]
    rfl
  rw [trailer, List.take_left' front]
  exact List.drop_left' rfl

theorem body_first : ∃ rest, m.bodyBytes = wireBytes "35=" ++
    (wireBytes m.msgType ++ soh :: rest) := by
  refine ⟨m.allFields.tail.flatMap fun field => fieldBytes field ++ [soh], ?_⟩
  have sign : wireBytes "35=" = wireBytes (35 : Nat).repr ++ [equalsSign] := rfl
  rw [bodyBytes, wireBytes_bodyText, allFields, headerFields, sign]
  simp [fieldBytes]

theorem body_starts : startsWith "35=" m.bodyBytes = true := by
  obtain ⟨rest, first⟩ := m.body_first
  rw [startsWith, first, List.isPrefixOf_iff_prefix]
  exact List.prefix_append _ _

theorem body_long : 5 ≤ m.bodyBytes.length := by
  obtain ⟨rest, first⟩ := m.body_first
  have tag : (wireBytes "35=").length = 3 := rfl
  have value := List.length_pos_iff.mpr m.msgType_value.bytes_ne_nil
  rw [first, List.length_append, List.length_append, List.length_cons, tag]
  omega

theorem body_ends : m.bodyBytes.getLast? = some soh := by
  rw [bodyBytes, wireBytes_bodyText, flatMap_separated _ m.allFields_ne_nil, List.getLast?_concat]

theorem bodyBytes_range : ∀ b ∈ m.bodyBytes, b = soh ∨ 32 ≤ b.toNat ∧ b.toNat ≤ 126 := by
  intro b hb
  rw [bodyBytes, wireBytes_bodyText] at hb
  obtain ⟨field, hfield, hb⟩ := List.mem_flatMap.mp hb
  rcases List.mem_append.mp hb with hb | hb
  · exact .inr (fieldBytes_range (m.allFields_ok field hfield).value b hb)
  · exact .inl (List.mem_singleton.mp hb)

theorem lengthBytes_range : ∀ b ∈ m.lengthBytes, 32 ≤ b.toNat ∧ b.toNat ≤ 126 := by
  intro b hb
  rcases List.mem_append.mp hb with hb | hb
  · exact wireBytes_range (by decide : Value "9=").printable b hb
  · exact wireBytes_range (digits_printable _) b hb

theorem soh_not_mem_length : soh ∉ m.lengthBytes := by
  intro mem
  have range := (m.lengthBytes_range soh mem).1
  revert range
  decide

theorem beginBytes_range : ∀ b ∈ beginBytes, 32 ≤ b.toNat ∧ b.toNat ≤ 126 :=
  wireBytes_range (by decide : Value "8=FIX.4.2").printable

theorem trailer_range : ∀ b ∈ m.trailer, b = soh ∨ 32 ≤ b.toNat ∧ b.toNat ≤ 126 := by
  intro b hb
  rcases List.mem_append.mp hb with hb | hb
  · rcases List.mem_append.mp hb with hb | hb
    · exact .inr (wireBytes_range (by decide : Value "10=").printable b hb)
    · exact .inr (wireBytes_range (threeDigits_printable _) b hb)
  · exact .inl (List.mem_singleton.mp hb)

theorem bytes_range : ∀ b ∈ m.bytes, b = soh ∨ 32 ≤ b.toNat ∧ b.toNat ≤ 126 := by
  intro b hb
  rw [bytes_header, header] at hb
  simp only [List.mem_append, List.mem_cons] at hb
  rcases hb with hb | rfl | hb | rfl | hb | hb
  · exact .inr (beginBytes_range b hb)
  · exact .inl rfl
  · exact .inr (m.lengthBytes_range b hb)
  · exact .inl rfl
  · exact m.bodyBytes_range b hb
  · exact m.trailer_range b hb

theorem text_ascii : Ascii m.text := by
  have body : Ascii (bodyText m.allFields) := ascii_bodyText
    (fun f hf => (m.allFields_ok f hf).value)
  have eight : Ascii "8=" := by decide
  have begin_ : Ascii "FIX.4.2" := by decide
  have separator : Ascii "\x01" := by decide
  have nine : Ascii "9=" := by decide
  have ten : Ascii "10=" := by decide
  have number : ∀ n : Nat, Ascii n.repr := fun n => (value_repr n).ascii
  unfold text frameText
  refine Ascii.append (Ascii.append (Ascii.append (Ascii.append ?_ body) ten) ?_) separator
  · exact ((((eight.append begin_).append separator).append nine).append (number _)).append
      separator
  · exact ascii_of_printable (threeDigits_printable _)

theorem message_parsed : parseWire m.bytes = .ok m.message := by
  have range : m.bytes.all (fun b => b == soh || (32 ≤ b && b ≤ 126)) = true := by
    rw [List.all_eq_true]
    intro b hb
    rcases m.bytes_range b hb with rfl | ⟨low, high⟩
    · rfl
    · have low' : (32 : UInt8) ≤ b := UInt8.le_iff_toNat_le.mpr low
      have high' : b ≤ (126 : UInt8) := UInt8.le_iff_toNat_le.mpr high
      simp [low', high']
  have begin_end : position m.bytes = some beginBytes.length := by
    rw [bytes_header]
    exact header_position (by decide) _ _
  have length_end : position (m.bytes.drop (beginBytes.length + 1)) =
    some m.lengthBytes.length := by
    rw [bytes_header, header_drop]
    exact position_append m.soh_not_mem_length _
  have size : m.bytes.length - 7 = m.start.length := by
    rw [bytes_eq, List.length_append, trailer_length]
    omega
  have front : m.bytes.take m.start.length = m.start := by
    rw [bytes_eq, List.take_left' rfl]
  have back : m.bytes.drop m.start.length = m.trailer := by
    rw [bytes_eq, List.drop_left' rfl]
  have begins : startsWith "10=" m.trailer = true := by
    rw [startsWith, List.isPrefixOf_iff_prefix, trailer, List.append_assoc]
    exact List.prefix_append _ _
  have ends : m.trailer.getLast? = some soh := List.getLast?_concat
  have body : m.start.drop (beginBytes.length + 1 + m.lengthBytes.length + 1) = m.bodyBytes :=
    header_rest _ _ _
  have fields : parseFields m.bodyBytes = .ok m.allFields :=
    parseFields_bodyText m.allFields_ne_nil m.allFields_ok
  have inner : m.allFields.any (fun field => field.1 == 8 || field.1 == 9 || field.1 == 10) =
      false := by
    rw [List.any_eq_false]
    intro field hfield
    have tag := (m.allFields_ok field hfield).tag
    simp [tag.2.2.1, tag.2.2.2.1, tag.2.2.2.2]
  have name : asciiText ((m.bytes.take beginBytes.length).drop 2) = "FIX.4.2" := by
    rw [bytes_header, header_take]
    rfl
  have raw : asciiText m.bytes = m.text := asciiText_wireBytes m.text_ascii
  unfold parseWire
  simp only [range, begin_end, length_end, size, front, back, begins, ends, trailer_digits,
    sumBytes_digits, sumBytes_number, body, body_starts, body_ends, fields, name, raw, ne_eq,
    not_true_eq_false, decide_false, Bool.not_true, Bool.or_false, Bool.false_eq_true, if_false]
  change (if (m.allFields.any _) = true then _ else _) = _
  rw [inner]
  rfl

end Outgoing

end RustTrader.Fix
