import RustTrader.Fix.Codec
import RustTrader.Fix.Reader

/-!
# What the builders write is decoded

Decimals are read back from their text, a message whose fields fit the profile of
its kind passes validation, and a built message has the fields it was built from.
-/

namespace RustTrader.Fix

open Decimal

theorem plain_value {s : String} (h : Plain s) : Value s := by
  obtain ⟨sign, whole, fraction, text, signed, some_, digits, tail⟩ := h.parts
  constructor
  · intro none_
    rw [none_] at text
    have empty : sign ++ (whole ++ fraction) = [] := text.symm
    simp only [List.append_eq_nil_iff] at empty
    exact some_ empty.2.1
  · intro c hc
    rw [text] at hc
    rcases List.mem_append.mp hc with hc | hc
    · rcases signed with rfl | rfl
      · cases hc
      · rw [List.mem_singleton.mp hc]
        decide
    · rcases List.mem_append.mp hc with hc | hc
      · exact printable_of_digit (digits c hc)
      · rcases tail with rfl | ⟨more, rfl, hmore⟩
        · cases hc
        · rcases List.mem_cons.mp hc with rfl | hc
          · decide
          · exact printable_of_digit (hmore c hc)

theorem stripMinus_of_digit {c : Char} {rest : List Char} (h : c.isDigit) :
    stripMinus (c :: rest) = c :: rest := by
  unfold stripMinus
  split
  · rename_i same
    obtain ⟨rfl, -⟩ := List.cons.inj same
    cases h
  · rfl

section

variable {D : Type} [Decimal D] [DecimalText D] [LawfulText D]

theorem value_fixDecimal (d : D) : Value (fixDecimal d) := plain_value (LawfulText.plain d)

@[simp] theorem parseDecimal_fixDecimal (d : D) : parseDecimal (fixDecimal d) = .ok d := by
  obtain ⟨sign, whole, fraction, text, signed, some_, digits, tail⟩ :=
    (LawfulText.plain d).parts
  have stripped : stripMinus (fixDecimal d).toList = whole ++ fraction := by
    obtain ⟨c, rest, rfl⟩ := List.exists_cons_of_ne_nil some_
    have digit := digits c List.mem_cons_self
    rw [fixDecimal, text]
    rcases signed with rfl | rfl
    · exact stripMinus_of_digit digit
    · rfl
  have dots : fraction.count '.' ≤ 1 := by
    rcases tail with rfl | ⟨more, rfl, hmore⟩
    · simp
    · have none_ : more.count '.' = 0 := by
        rw [List.count_eq_zero]
        intro mem
        cases hmore '.' mem
      rw [List.count_cons_self, none_]
  have no_dots : whole.count '.' = 0 := by
    rw [List.count_eq_zero]
    intro mem
    cases digits '.' mem
  have empty : (whole ++ fraction).isEmpty = false := by
    rw [List.isEmpty_eq_false_iff]
    exact fun none_ => some_ (List.append_eq_nil_iff.mp none_).1
  have any : (whole ++ fraction).any Char.isDigit = true := by
    obtain ⟨c, rest, rfl⟩ := List.exists_cons_of_ne_nil some_
    rw [List.any_eq_true]
    exact ⟨c, List.mem_append_left _ List.mem_cons_self, digits c List.mem_cons_self⟩
  have all : (whole ++ fraction).all (fun c => c.isDigit || c == '.') = true := by
    rw [List.all_eq_true]
    intro c hc
    rcases List.mem_append.mp hc with hc | hc
    · simp [digits c hc]
    · rcases tail with rfl | ⟨more, rfl, hmore⟩
      · cases hc
      · rcases List.mem_cons.mp hc with rfl | hc
        · rfl
        · simp [hmore c hc]
  have few : ¬ 1 < (whole ++ fraction).count '.' := by
    rw [List.count_append]
    omega
  unfold parseDecimal
  simp only [stripped, empty, any, all, few, Bool.not_true, decide_false, Bool.or_false,
    Bool.false_eq_true, if_false]
  rw [fixDecimal, LawfulText.parse_display]

end

theorem value_append {s t : String} (hs : Value s) (ht : ∀ c ∈ t.toList, PrintableChar c) :
    Value (s ++ t) := by
  constructor
  · intro none_
    apply hs.nonempty
    have := congrArg String.toList none_
    rw [String.toList_append] at this
    rw [← String.toList_inj]
    exact (List.append_eq_nil_iff.mp this).1
  · intro c hc
    rw [String.toList_append] at hc
    exact (List.mem_append.mp hc).elim (hs.printable c) (ht c)

theorem value_toString (n : Int) : Value (toString n) := by
  cases n with
  | ofNat n => exact value_repr n
  | negSucc n => exact value_append (by decide : Value "-") (value_repr _).printable

theorem value_messageIdentifier {start : String} (h : Value start) (micros : Int) (next : Nat) :
    Value (messageIdentifier start micros next) := by
  have dash : ∀ c ∈ "-".toList, PrintableChar c := (by decide : Value "-").printable
  exact value_append (value_append (value_append (value_append h dash)
    (value_toString micros).printable) dash) (value_repr next).printable

/-- A time in the format of the clock, which its parser accepts. -/
structure SendingTime [Chrono] (now : String) : Prop where
  value : Value now
  length : now.utf8ByteSize = 21
  parsed : ∃ t, Chrono.parse now "%Y%m%d-%H:%M:%S%.3f" = some t

theorem validateTimestamp_ok [Chrono] {now : String} (h : SendingTime now) :
    validateTimestamp now = .ok () := by
  obtain ⟨t, parsed⟩ := h.parsed
  unfold validateTimestamp
  simp [h.length, parsed]

theorem validateValues_ok : ∀ {fields : Fields} {seen : List Nat},
    (fields.map Prod.fst).Nodup → (∀ tag ∈ fields.map Prod.fst, tag ∉ seen) →
    (∀ field ∈ fields, field.2 ≠ "" ∧ validEnumeration field.1 field.2 = true) →
    ∃ all, validateValues seen fields = .ok all ∧
      ∀ tag, tag ∈ all ↔ tag ∈ seen ∨ tag ∈ fields.map Prod.fst := by
  intro fields
  induction fields with
  | nil => exact fun _ _ _ => ⟨_, rfl, by simp⟩
  | cons field fields ih =>
    obtain ⟨tag, value⟩ := field
    intro seen distinct fresh fine
    obtain ⟨new, distinct⟩ := List.nodup_cons.mp distinct
    have unseen : seen.contains tag = false := by
      rw [← Bool.not_eq_true, List.contains_iff_mem]
      exact fresh tag List.mem_cons_self
    obtain ⟨some_, valid⟩ := fine (tag, value) List.mem_cons_self
    have later : ∀ t ∈ fields.map Prod.fst, t ∉ tag :: seen := by
      intro t ht mem
      rcases List.mem_cons.mp mem with rfl | mem
      · exact new ht
      · exact fresh t (List.mem_cons_of_mem _ ht) mem
    obtain ⟨all, result, mem⟩ := ih distinct later (fun f hf => fine f (List.mem_cons_of_mem _ hf))
    refine ⟨all, ?_, ?_⟩
    · unfold validateValues
      simp only [unseen, some_, valid, Bool.false_eq_true, if_false, Bool.not_true, result]
    · intro t
      rw [mem, List.map_cons, List.mem_cons, List.mem_cons]
      tauto

/-- The fields of a message fit the profile of its kind. -/
structure Fitting [Chrono] (message : FixMessage) (kind : String) (required : List Nat) :
    Prop where
  named : message.msgType = some kind
  scopes : validateFieldScopes (message.fields.map Prod.fst) kind = .ok ()
  distinct : (message.fields.map Prod.fst).Nodup
  values : ∀ field ∈ message.fields, field.2 ≠ "" ∧ validEnumeration field.1 field.2 = true
  known : requiredFields kind = some required
  present : ∀ tag ∈ required, tag ∈ message.fields.map Prod.fst
  time : ∀ time, message.get 60 = some time → SendingTime time
  handling : kind = "D" ∨ kind = "G" → message.get 21 = some "1" ∧ message.get 59 = none

theorem Fitting.validated [Chrono] {message : FixMessage} {kind : String} {required : List Nat}
    (h : Fitting message kind required) : validateProfile message kind = .ok () := by
  have unseen : ∀ tag ∈ message.fields.map Prod.fst, tag ∉ ([] : List Nat) :=
    fun _ _ => List.not_mem_nil
  obtain ⟨seen, values, mem⟩ := validateValues_ok h.distinct unseen h.values
  have complete : validateRequired required seen kind = .ok () := by
    have none_ : required.find? (fun tag => !seen.contains tag) = none := by
      rw [List.find?_eq_none]
      intro tag htag
      have seen_ := (mem tag).mpr (.inr (h.present tag htag))
      simp [seen_]
    rw [validateRequired, none_]
  have timed : validateTransactTime message = .ok () := by
    unfold validateTransactTime
    cases time : message.get 60 with
    | none => rfl
    | some now => exact validateTimestamp_ok (h.time now time)
  have handled : validateHandling message kind = .ok () := by
    unfold validateHandling
    by_cases order : kind = "D" ∨ kind = "G"
    · obtain ⟨automated, day⟩ := h.handling order
      simp [order, automated, day]
    · rw [if_neg order]
  unfold validateProfile
  rw [h.known]
  simp only [bind, Except.bind, h.scopes, values, complete, timed, handled]

/-- The message a reader gets of a kind, a header and further fields. -/
def built (kind : String) (seq : Nat) (sender target now : String) (fields : Fields)
    (raw : String) : FixMessage :=
  ⟨"FIX.4.2", headerFields kind seq sender target now ++ fields, raw⟩

abbrev headerTagsBuilt : List Nat := [35, 34, 49, 56, 52]

/-- The tags of a built message fit the profile of its kind. -/
structure Shape (kind : String) (required tags : List Nat) : Prop where
  scopes : validateFieldScopes (headerTagsBuilt ++ tags) kind = .ok ()
  distinct : (headerTagsBuilt ++ tags).Nodup
  known : requiredFields kind = some required
  present : ∀ tag ∈ required, tag ∈ tags
  plain : ∀ tag ∈ tags, tag ∉ [373, 380, 102, 300]

theorem validEnumeration_plain {tag : Nat} (h : tag ∉ [373, 380, 102, 300]) (value : String) :
    validEnumeration tag value = true := by
  unfold validEnumeration
  split
  · exact absurd (by decide) h
  · exact absurd (by decide) h
  · exact absurd (by decide) h
  · exact absurd (by decide) h
  · rfl

section

variable {kind sender target now raw : String} {seq : Nat} {fields : Fields}

theorem get_built {tag : Nat} (h : tag ∉ headerTagsBuilt) :
    (built kind seq sender target now fields raw).get tag =
      (fields.find? (fun field => field.1 == tag)).map Prod.snd := by
  simp only [List.mem_cons, List.not_mem_nil, or_false, not_or] at h
  obtain ⟨h₁, h₂, h₃, h₄, h₅⟩ := h
  simp [FixMessage.get, built, headerFields, Ne.symm h₁, Ne.symm h₂, Ne.symm h₃, Ne.symm h₄,
    Ne.symm h₅]

theorem fitting_built [Chrono] {required tags : List Nat} (tagged : fields.map Prod.fst = tags)
    (shape : Shape kind required tags) (hkind : Value kind) (hsender : Value sender)
    (htarget : Value target) (hnow : Value now) (values : ∀ field ∈ fields, Value field.2)
    (time : ∀ time, (built kind seq sender target now fields raw).get 60 = some time →
      SendingTime time)
    (handling : kind = "D" ∨ kind = "G" →
      (built kind seq sender target now fields raw).get 21 = some "1" ∧ 59 ∉ tags) :
    Fitting (built kind seq sender target now fields raw) kind required := by
  have all_tags : (built kind seq sender target now fields raw).fields.map Prod.fst =
      headerTagsBuilt ++ tags := by
    rw [built, List.map_append, tagged]
    rfl
  have header : ∀ field ∈ headerFields kind seq sender target now,
      Value field.2 ∧ field.1 ∉ [373, 380, 102, 300] := by
    intro field hfield
    simp only [headerFields, List.mem_cons, List.not_mem_nil, or_false] at hfield
    rcases hfield with rfl | rfl | rfl | rfl | rfl
    · exact ⟨hkind, by simp⟩
    · exact ⟨value_repr seq, by simp⟩
    · exact ⟨hsender, by simp⟩
    · exact ⟨htarget, by simp⟩
    · exact ⟨hnow, by simp⟩
  refine ⟨rfl, ?_, ?_, ?_, shape.known, ?_, time, ?_⟩
  · rw [all_tags]
    exact shape.scopes
  · rw [all_tags]
    exact shape.distinct
  · intro field hfield
    rcases List.mem_append.mp hfield with hfield | hfield
    · obtain ⟨value, plain⟩ := header field hfield
      exact ⟨value.nonempty, validEnumeration_plain plain _⟩
    · have mem : field.1 ∈ tags := by
        rw [← tagged]
        exact List.mem_map_of_mem hfield
      exact ⟨(values field hfield).nonempty, validEnumeration_plain (shape.plain _ mem) _⟩
  · intro tag htag
    rw [all_tags]
    exact List.mem_append_right _ (shape.present tag htag)
  · intro order
    obtain ⟨automated, absent⟩ := handling order
    refine ⟨automated, ?_⟩
    rw [get_built (by decide), Option.map_eq_none_iff, List.find?_eq_none]
    intro field hfield same
    apply absent
    rw [← tagged]
    rw [beq_iff_eq] at same
    exact same ▸ List.mem_map_of_mem hfield

end

section

variable {D : Type} [Decimal D] [DecimalText D] [LawfulText D] {message : FixMessage} {tag : Nat}

theorem need_some {value : String} (h : message.get tag = some value) :
    message.need tag = .ok value := by
  rw [FixMessage.need, h]

theorem dec_some {d : D} (h : message.get tag = some (fixDecimal d)) :
    message.dec tag = .ok d := by
  rw [FixMessage.dec, need_some h]
  exact parseDecimal_fixDecimal d

theorem positive_cases {d : D} (h : message.get tag = some (fixDecimal d)) :
    message.positive tag = if d ≤ 0 then .error ("tag " ++ tag.repr ++ " must be positive")
      else .ok d := by
  rw [FixMessage.positive, dec_some h]
  rfl

omit [Decimal D] [LawfulText D] in
theorem optionalDec_none {default : D} (h : message.get tag = none) :
    message.optionalDec tag default = .ok default := by
  rw [FixMessage.optionalDec, h]

theorem optionalDec_some {d default : D} (h : message.get tag = some (fixDecimal d)) :
    message.optionalDec tag default = .ok d := by
  rw [FixMessage.optionalDec, h]
  exact parseDecimal_fixDecimal d

theorem quoteValue_cases {d : D} (h : message.get tag = some (fixDecimal d)) :
    message.quoteValue tag = if d < 0 then .error ("negative quote tag " ++ tag.repr)
      else .ok d := by
  rw [FixMessage.quoteValue, optionalDec_some h]
  rfl

theorem natural_some {n : Nat} (h : message.get tag = some n.repr) (small : n < 2 ^ 64) :
    message.natural tag = .ok n := by
  have digits : n.repr.toList.all Char.isDigit = true :=
    List.all_eq_true.mpr (Numeral.repr_digits n)
  rw [FixMessage.natural, need_some h]
  change (if (!n.repr.toList.all Char.isDigit) = true then _ else _) = _
  rw [digits, Numeral.parseUnsigned_repr small]
  rfl

theorem side_some {side : Side} (h : message.get 54 = some (sideToFix side)) :
    message.side = .ok side := by
  rw [FixMessage.side, need_some h]
  cases side <;> rfl

theorem orderType_some {orderType : OrderType}
    (h : message.get 40 = some (ordTypeToFix orderType)) :
    message.orderType = .ok orderType := by
  rw [FixMessage.orderType, need_some h]
  cases orderType <;> rfl

end

end RustTrader.Fix
