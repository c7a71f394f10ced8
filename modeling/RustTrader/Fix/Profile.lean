import RustTrader.Fix.Decoding
import RustTrader.Library.Fallible

/-!
# What a profile accepts

The checks of `validate_profile` read back as conditions on the fields: each tag
once and with a value, the required tags there, and a walk over the tags that
keeps header and body apart. A lookup in fields with distinct tags is membership.
-/

namespace RustTrader.Fix

theorem get_of_mem {message : FixMessage} (distinct : (message.fields.map Prod.fst).Nodup)
    {tag : Nat} {value : String} :
    message.get tag = some value ↔ (tag, value) ∈ message.fields := by
  obtain ⟨begin_, fields, raw⟩ := message
  unfold FixMessage.get
  dsimp only at distinct ⊢
  induction fields with
  | nil => simp
  | cons field fields ih =>
    obtain ⟨t, v⟩ := field
    obtain ⟨new, distinct⟩ := List.nodup_cons.mp distinct
    by_cases same : t = tag
    · subst same
      have absent : (t, value) ∉ fields := fun mem =>
        new (List.mem_map.mpr ⟨(t, value), mem, rfl⟩)
      simp [absent, eq_comm]
    · have other : (t == tag) = false := beq_false_of_ne same
      rw [List.find?_cons, other]
      dsimp only
      rw [ih distinct, List.mem_cons, Prod.mk.injEq]
      simp [Ne.symm same]

/-- A further field under another tag is not found. -/
theorem get_insert {begin_ raw : String} {front back : Fields} {field : Nat × String} {tag : Nat}
    (other : field.1 ≠ tag) :
    (FixMessage.mk begin_ (front ++ field :: back) raw).get tag =
      (FixMessage.mk begin_ (front ++ back) raw).get tag := by
  simp [FixMessage.get, List.find?_append, other]

theorem validateValues_iff {fields : Fields} : ∀ {seen all : List Nat},
    validateValues seen fields = .ok all → (∀ tag, tag ∈ all ↔ tag ∈ seen ∨
      tag ∈ fields.map Prod.fst) ∧ (fields.map Prod.fst).Nodup ∧
      (∀ tag ∈ fields.map Prod.fst, tag ∉ seen) ∧
      ∀ field ∈ fields, field.2 ≠ "" ∧ validEnumeration field.1 field.2 = true := by
  induction fields with
  | nil =>
    intro seen all h
    cases h
    simp
  | cons field fields ih =>
    obtain ⟨tag, value⟩ := field
    intro seen all h
    unfold validateValues at h
    split at h
    · cases h
    rename_i fresh
    split at h
    · cases h
    rename_i some_
    split at h
    · cases h
    rename_i valid
    rw [List.contains_iff_mem] at fresh
    obtain ⟨mem, distinct, unseen, fine⟩ := ih h
    refine ⟨?_, ?_, ?_, ?_⟩
    · intro t
      rw [mem, List.map_cons, List.mem_cons, List.mem_cons]
      tauto
    · rw [List.map_cons, List.nodup_cons]
      exact ⟨fun again => unseen tag again List.mem_cons_self, distinct⟩
    · intro t ht
      rcases List.mem_cons.mp ht with rfl | ht
      · exact fresh
      · exact fun again => unseen t ht (List.mem_cons_of_mem _ again)
    · intro f hf
      rcases List.mem_cons.mp hf with rfl | hf
      · exact ⟨some_, by simpa using valid⟩
      · exact fine f hf

/-- The fields pass the checks of a kind. -/
structure Profiled [Chrono] (message : FixMessage) (kind : String) (required : List Nat) :
    Prop where
  scopes : validateFieldScopes (message.fields.map Prod.fst) kind = .ok ()
  distinct : (message.fields.map Prod.fst).Nodup
  values : ∀ field ∈ message.fields, field.2 ≠ "" ∧ validEnumeration field.1 field.2 = true
  present : ∀ tag ∈ required, tag ∈ message.fields.map Prod.fst
  time : validateTransactTime message = .ok ()
  handling : validateHandling message kind = .ok ()

theorem validateRequired_iff {required seen : List Nat} {kind : String} :
    validateRequired required seen kind = .ok () ↔ ∀ tag ∈ required, tag ∈ seen := by
  unfold validateRequired
  cases missing : required.find? (fun tag => !seen.contains tag) with
  | none =>
    rw [List.find?_eq_none] at missing
    simpa using missing
  | some tag =>
    have absent := List.find?_some missing
    have mem := List.mem_of_find?_eq_some missing
    constructor
    · intro h
      cases h
    · intro all
      have there := all tag mem
      simp [there] at absent

theorem validateProfile_iff [Chrono] {message : FixMessage} {kind : String} {required : List Nat}
    (known : requiredFields kind = some required) :
    validateProfile message kind = .ok () ↔ Profiled message kind required := by
  unfold validateProfile
  rw [known]
  dsimp only
  constructor
  · intro h
    obtain ⟨⟨⟩, scopes, h⟩ := bind_eq_ok.mp h
    obtain ⟨seen, values, h⟩ := bind_eq_ok.mp h
    obtain ⟨⟨⟩, complete, h⟩ := bind_eq_ok.mp h
    obtain ⟨⟨⟩, time, handling⟩ := bind_eq_ok.mp h
    obtain ⟨mem, distinct, -, fine⟩ := validateValues_iff values
    refine ⟨scopes, distinct, fine, ?_, time, handling⟩
    intro tag htag
    have seen_ := (mem tag).mp (validateRequired_iff.mp complete tag htag)
    simpa using seen_
  · rintro ⟨scopes, distinct, values, present, time, handling⟩
    have unseen : ∀ tag ∈ message.fields.map Prod.fst, tag ∉ ([] : List Nat) :=
      fun _ _ => List.not_mem_nil
    obtain ⟨seen, read, mem⟩ := validateValues_ok distinct unseen values
    have complete : validateRequired required seen kind = .ok () :=
      validateRequired_iff.mpr fun tag htag => (mem tag).mpr (.inr (present tag htag))
    simp only [bind, Except.bind, scopes, read, complete, time, handling]

theorem validateFieldShape_iff {tag : Nat} {kind : String} :
    validateFieldShape tag kind = .ok () ↔ tag ∉ dataFields ∧ ¬ (348 ≤ tag ∧ tag ≤ 365) ∧
      (tag ∈ groupFields → kind = "i" ∧ (tag = 295 ∨ tag = 296)) := by
  unfold validateFieldShape
  split
  · rename_i data
    simp only [Bool.or_eq_true, List.contains_iff_mem, Bool.and_eq_true, decide_eq_true_eq] at data
    constructor
    · intro h
      cases h
    · rintro ⟨plain, outside, -⟩
      exact absurd data (not_or.mpr ⟨plain, outside⟩)
  · rename_i data
    simp only [Bool.or_eq_true, List.contains_iff_mem, Bool.and_eq_true, decide_eq_true_eq,
      not_or] at data
    split
    · rename_i group
      simp only [Bool.and_eq_true, List.contains_iff_mem, Bool.not_eq_true', Bool.and_eq_false_iff,
        beq_eq_false_iff_ne, Bool.or_eq_false_iff] at group
      constructor
      · intro h
        cases h
      · rintro ⟨-, -, quotes⟩
        obtain ⟨rfl, counts⟩ := quotes group.1
        rcases group.2 with no | ⟨no, no'⟩
        · exact absurd rfl no
        · exact absurd counts (not_or.mpr ⟨no, no'⟩)
    · rename_i group
      refine ⟨fun _ => ⟨data.1, data.2, fun mem => ?_⟩, fun _ => rfl⟩
      simp only [Bool.and_eq_true, List.contains_iff_mem, mem, true_and, Bool.not_eq_true',
        Bool.not_eq_false, beq_iff_eq, Bool.or_eq_true] at group
      exact group

/-- A tag below the custom ones that stands for itself in a body. -/
def Plain (tag : Nat) : Prop :=
  tag < 5000 ∧ tag ∉ headerTags ∧ tag ∉ dataFields ∧ ¬ (348 ≤ tag ∧ tag ≤ 365) ∧
    tag ∉ groupFields

instance (tag : Nat) : Decidable (Plain tag) :=
  inferInstanceAs (Decidable (tag < 5000 ∧ tag ∉ headerTags ∧ tag ∉ dataFields ∧
    ¬ (348 ≤ tag ∧ tag ≤ 365) ∧ tag ∉ groupFields))

theorem Plain.shape {tag : Nat} (h : Plain tag) (kind : String) :
    validateFieldShape tag kind = .ok () := by
  obtain ⟨-, -, plain, outside, single⟩ := h
  exact validateFieldShape_iff.mpr ⟨plain, outside, fun group => absurd group single⟩

theorem plain_scalar {tag : Nat} {kind : String} (h : tag ∈ scalarFields kind) : Plain tag := by
  revert tag
  unfold scalarFields
  split <;> decide

theorem shape_header {tag : Nat} (h : tag ∈ headerTags) (kind : String) :
    validateFieldShape tag kind = .ok () := by
  have plain : ∀ tag ∈ headerTags, tag < 5000 ∧ tag ∉ dataFields ∧
      ¬ (348 ≤ tag ∧ tag ≤ 365) ∧ tag ∉ groupFields := by decide
  obtain ⟨-, plain, outside, single⟩ := plain tag h
  exact validateFieldShape_iff.mpr ⟨plain, outside, fun group => absurd group single⟩

theorem header_small {tag : Nat} (h : tag ∈ headerTags) : tag < 5000 := by
  revert tag
  decide

theorem shape_custom {tag : Nat} (h : 5000 ≤ tag) (kind : String) :
    validateFieldShape tag kind = .ok () := by
  have small : ∀ tag ∈ dataFields ++ groupFields, tag < 5000 := by decide
  refine validateFieldShape_iff.mpr ⟨?_, by omega, ?_⟩
  · intro mem
    have low := small tag (List.mem_append_left _ mem)
    omega
  · intro mem
    have low := small tag (List.mem_append_right _ mem)
    omega

theorem dictionary_small {scope : Scope} {kind : String} {tag : Nat}
    (h : tag ∈ scope.fields kind) : tag < 5000 := by
  have set : ∀ tag ∈ quoteSetFields, tag < 5000 := by decide
  have entry : ∀ tag ∈ quoteEntryFields, tag < 5000 := by decide
  unfold Scope.fields at h
  split at h
  · exact set tag h
  · split at h
    · exact entry tag h
    · exact (plain_scalar h).1

theorem scopeField_header {kind : String} {scope after : Scope} {tag : Nat}
    (h : tag ∈ headerTags) : scopeField kind scope tag = .ok after ↔
      scope.bodyStarted = false ∧ after = scope := by
  unfold scopeField
  rw [shape_header h kind]
  simp only [bind, Except.bind, List.contains_iff_mem.mpr h, if_true]
  cases scope.bodyStarted with
  | true => simp [throw, throwThe, MonadExceptOf.throw]
  | false => simp [pure, Except.pure, eq_comm]

theorem scopeField_custom {kind : String} {scope after : Scope} {tag : Nat} (h : 5000 ≤ tag) :
    scopeField kind scope tag = .ok after ↔ scope.needsDelimiter = false ∧
      after = ⟨true, scope.quoteScope, scope.previous, false⟩ := by
  obtain ⟨started, quoteScope, previous, delayed⟩ := scope
  have body : tag ∉ headerTags := fun mem => absurd (header_small mem) (by omega)
  have single : ¬ (kind = "i" ∧ tag = 296) := by omega
  have unlisted : (Scope.fields ⟨true, quoteScope, previous, delayed⟩ kind).head? ≠ some tag :=
    fun first => absurd (dictionary_small (List.mem_of_mem_head? first)) (by omega)
  unfold scopeField
  rw [shape_custom h kind]
  simp only [bind, Except.bind, List.contains_iff_mem, body, if_false, single, h, if_true]
  cases delayed with
  | true =>
    rw [if_pos ⟨rfl, unlisted⟩]
    simp [throw, throwThe, MonadExceptOf.throw]
  | false =>
    rw [if_neg (by simp)]
    simp [pure, Except.pure, eq_comm]

/-- The count of quote sets opens the set. -/
theorem scopeField_sets {scope after : Scope} :
    scopeField "i" scope 296 = .ok after ↔ after = ⟨true, 1, none, true⟩ := by
  have result : scopeField "i" scope 296 = .ok ⟨true, 1, none, true⟩ := rfl
  rw [result, Except.ok.injEq, eq_comm]

theorem scopeField_known {kind : String} {scope after : Scope} {tag : Nat}
    (body : tag ∉ headerTags) (small : tag < 5000) (single : ¬ (kind = "i" ∧ tag = 296)) :
    scopeField kind scope tag = .ok after ↔ validateFieldShape tag kind = .ok () ∧
      (scope.needsDelimiter = true → (scope.fields kind).head? = some tag) ∧
      ∃ position, (scope.fields kind).findIdx? (fun known => known == tag) = some position ∧
        (scope.quoteScope ≠ 0 → ∀ previous, scope.previous = some previous →
          previous < position) ∧
        after = if kind = "i" ∧ tag = 295 then ⟨true, 2, none, true⟩
          else ⟨true, scope.quoteScope,
            if scope.quoteScope ≠ 0 then some position else scope.previous, false⟩ := by
  obtain ⟨started, quoteScope, previous, delayed⟩ := scope
  have fields : Scope.fields ⟨true, quoteScope, previous, delayed⟩ kind =
    Scope.fields ⟨started, quoteScope, previous, delayed⟩ kind := rfl
  unfold scopeField
  cases shape : validateFieldShape tag kind with
  | error err =>
    constructor
    · intro h
      cases h
    · rintro ⟨h, -⟩
      cases h
  | ok done =>
    cases done
    simp only [bind, Except.bind, List.contains_iff_mem, body, if_false, single, fields, true_and]
    generalize Scope.fields ⟨started, quoteScope, previous, delayed⟩ kind = known
    by_cases late : delayed = true ∧ known.head? ≠ some tag
    · rw [if_pos late]
      constructor
      · intro h
        cases h
      · rintro ⟨punctual, -⟩
        exact absurd (punctual late.1) late.2
    have punctual : delayed = true → known.head? = some tag := by
      intro delayed_
      by_contra other
      exact late ⟨delayed_, other⟩
    rw [if_neg late, if_neg (by omega : ¬ 5000 ≤ tag)]
    cases found : known.findIdx? (fun known => known == tag) with
    | none =>
      constructor
      · intro h
        cases h
      · rintro ⟨-, position, same, -⟩
        cases same
    | some position =>
      dsimp only
      by_cases unordered : quoteScope ≠ 0 ∧ previous.any (fun prev => position ≤ prev) = true
      · rw [if_pos unordered]
        constructor
        · intro h
          cases h
        · rintro ⟨-, position', same', ordered, -⟩
          cases same'
          cases previous with
          | none => simp at unordered
          | some prev =>
            have low := ordered unordered.1 prev rfl
            simp only [Option.any_some, decide_eq_true_eq] at unordered
            omega
      have ordered : quoteScope ≠ 0 → ∀ prev, previous = some prev → prev < position := by
        rintro grouped prev rfl
        by_contra high
        exact unordered ⟨grouped, by simpa using high⟩
      rw [if_neg unordered]
      have result : ∀ (x : Scope) (y : Nat → Scope), x = y position →
          ((pure x : Except String Scope) = .ok after ↔
            (delayed = true → known.head? = some tag) ∧ ∃ p, some position = some p ∧
              (quoteScope ≠ 0 → ∀ prev, previous = some prev → prev < p) ∧ after = y p) := by
        rintro x y rfl
        constructor
        · intro h
          exact ⟨punctual, position, rfl, ordered, (Except.ok.inj h).symm⟩
        · rintro ⟨-, p, same, -, rfl⟩
          cases same
          rfl
      by_cases second : kind = "i" ∧ tag = 295
      · simp only [if_pos second]
        exact result _ (fun _ => ⟨true, 2, none, true⟩) (by split <;> rfl)
      · simp only [if_neg second]
        exact result _ (fun p => ⟨true, quoteScope,
          if quoteScope ≠ 0 then some p else previous, false⟩) (by split <;> rfl)

/-- What a body may hold outside groups. -/
def Allowed (kind : String) (tag : Nat) : Prop := 5000 ≤ tag ∨ tag ∈ scalarFields kind

theorem Allowed.not_header {kind : String} {tag : Nat} (h : Allowed kind tag) :
    tag ∉ headerTags := by
  rcases h with custom | known
  · exact fun mem => absurd (header_small mem) (by omega)
  · exact (plain_scalar known).2.1

theorem findIdx_mem {tags : List Nat} {tag : Nat} :
    (∃ position, tags.findIdx? (fun known => known == tag) = some position) ↔ tag ∈ tags := by
  rw [← Option.isSome_iff_exists, List.findIdx?_isSome, List.any_eq_true]
  simp

theorem scopeField_root {kind : String} {started : Bool} {after : Scope} {tag : Nat}
    (body : tag ∉ headerTags) (single : ¬ (kind = "i" ∧ tag = 296)) :
    scopeField kind ⟨started, 0, none, false⟩ tag = .ok after ↔
      Allowed kind tag ∧ after = ⟨true, 0, none, false⟩ := by
  by_cases custom : 5000 ≤ tag
  · rw [scopeField_custom custom]
    exact ⟨fun h => ⟨.inl custom, h.2⟩, fun h => ⟨rfl, h.2⟩⟩
  have fields : Scope.fields ⟨started, 0, none, false⟩ kind = scalarFields kind := rfl
  rw [scopeField_known body (by omega) single, fields]
  have second : tag ∈ scalarFields kind → ¬ (kind = "i" ∧ tag = 295) := by
    rintro known ⟨-, rfl⟩
    exact (plain_scalar known).2.2.2.2 (by decide)
  constructor
  · rintro ⟨-, -, position, found, -, rfl⟩
    have known := findIdx_mem.mp ⟨position, found⟩
    rw [if_neg (second known)]
    exact ⟨.inr known, rfl⟩
  · rintro ⟨allowed, rfl⟩
    have known : tag ∈ scalarFields kind := allowed.resolve_left custom
    obtain ⟨position, found⟩ := findIdx_mem.mpr known
    refine ⟨(plain_scalar known).shape kind, ?_, position, found, ?_, ?_⟩
    · intro delayed
      cases delayed
    · intro grouped
      exact absurd rfl grouped
    · rw [if_neg (second known)]
      rfl

/-- Past the header only the fields of the body may follow. -/
theorem body_walk {kind : String} {after : Scope} {tags : List Nat}
    (single : kind = "i" → 296 ∉ tags) :
    tags.foldlM (scopeField kind) ⟨true, 0, none, false⟩ = .ok after ↔
      (∀ tag ∈ tags, Allowed kind tag) ∧ after = ⟨true, 0, none, false⟩ := by
  induction tags with
  | nil =>
    constructor
    · intro h
      exact ⟨by simp, (Except.ok.inj h).symm⟩
    · rintro ⟨-, rfl⟩
      rfl
  | cons tag tags ih =>
    have later : kind = "i" → 296 ∉ tags := fun quotes mem =>
      single quotes (List.mem_cons_of_mem _ mem)
    have here : ¬ (kind = "i" ∧ tag = 296) := by
      rintro ⟨quotes, rfl⟩
      exact single quotes List.mem_cons_self
    rw [foldlM_cons_ok, List.forall_mem_cons]
    by_cases header : tag ∈ headerTags
    · constructor
      · rintro ⟨mid, step, -⟩
        cases (scopeField_header header).mp step |>.1
      · rintro ⟨⟨allowed, -⟩, -⟩
        exact absurd header allowed.not_header
    · constructor
      · rintro ⟨mid, step, walk⟩
        obtain ⟨allowed, rfl⟩ := (scopeField_root header here).mp step
        obtain ⟨rest, rfl⟩ := (ih later).mp walk
        exact ⟨⟨allowed, rest⟩, rfl⟩
      · rintro ⟨⟨allowed, rest⟩, rfl⟩
        exact ⟨_, (scopeField_root header here).mpr ⟨allowed, rfl⟩, (ih later).mpr ⟨rest, rfl⟩⟩

/-- The walk from the start: header fields, then fields of the body. -/
theorem root_walk {kind : String} {after : Scope} {tags : List Nat}
    (single : kind = "i" → 296 ∉ tags) :
    tags.foldlM (scopeField kind) ⟨false, 0, none, false⟩ = .ok after ↔
      ∃ header body, tags = header ++ body ∧ (∀ tag ∈ header, tag ∈ headerTags) ∧
        (∀ tag ∈ body, Allowed kind tag) ∧ after = ⟨!body.isEmpty, 0, none, false⟩ := by
  induction tags with
  | nil =>
    constructor
    · intro h
      exact ⟨[], [], rfl, by simp, by simp, (Except.ok.inj h).symm⟩
    · rintro ⟨header, body, same, -, -, rfl⟩
      obtain ⟨rfl, rfl⟩ := List.append_eq_nil_iff.mp same.symm
      rfl
  | cons tag tags ih =>
    have later : kind = "i" → 296 ∉ tags := fun quotes mem =>
      single quotes (List.mem_cons_of_mem _ mem)
    have here : ¬ (kind = "i" ∧ tag = 296) := by
      rintro ⟨quotes, rfl⟩
      exact single quotes List.mem_cons_self
    rw [foldlM_cons_ok]
    by_cases known : tag ∈ headerTags
    · constructor
      · rintro ⟨mid, step, walk⟩
        obtain ⟨-, rfl⟩ := (scopeField_header known).mp step
        obtain ⟨header, body, rfl, headers, allowed, rfl⟩ := (ih later).mp walk
        exact ⟨tag :: header, body, rfl, by simpa using ⟨known, headers⟩, allowed, rfl⟩
      · rintro ⟨header, body, same, headers, allowed, rfl⟩
        cases header with
        | nil =>
          subst same
          exact absurd known (allowed tag List.mem_cons_self).not_header
        | cons first header =>
          obtain ⟨rfl, rfl⟩ := List.cons.inj same
          obtain ⟨-, headers⟩ := List.forall_mem_cons.mp headers
          exact ⟨_, (scopeField_header known).mpr ⟨rfl, rfl⟩,
            (ih later).mpr ⟨header, body, rfl, headers, allowed, rfl⟩⟩
    · constructor
      · rintro ⟨mid, step, walk⟩
        obtain ⟨allowed, rfl⟩ := (scopeField_root known here).mp step
        obtain ⟨rest, rfl⟩ := (body_walk later).mp walk
        exact ⟨[], tag :: tags, rfl, by simp, by simpa using ⟨allowed, rest⟩, rfl⟩
      · rintro ⟨header, body, same, headers, allowed, rfl⟩
        cases header with
        | nil =>
          subst same
          obtain ⟨here', rest⟩ := List.forall_mem_cons.mp allowed
          exact ⟨_, (scopeField_root known here).mpr ⟨here', rfl⟩,
            (body_walk later).mpr ⟨rest, rfl⟩⟩
        | cons first header =>
          obtain ⟨rfl, -⟩ := List.cons.inj same
          exact absurd (headers tag List.mem_cons_self) known

/-- Outside mass quotes the walk asks only for header fields before fields of
the body. -/
theorem scopes_flat {kind : String} (flat : kind ≠ "i") {tags : List Nat} :
    validateFieldScopes tags kind = .ok () ↔ ∃ header body, tags = header ++ body ∧
      (∀ tag ∈ header, tag ∈ headerTags) ∧ ∀ tag ∈ body, Allowed kind tag := by
  have single : kind = "i" → 296 ∉ tags := fun quotes => absurd quotes flat
  unfold validateFieldScopes
  rw [bind_eq_ok]
  constructor
  · rintro ⟨scope, walk, -⟩
    obtain ⟨header, body, same, headers, allowed, -⟩ := (root_walk single).mp walk
    exact ⟨header, body, same, headers, allowed⟩
  · rintro ⟨header, body, same, headers, allowed⟩
    exact ⟨_, (root_walk single).mpr ⟨header, body, same, headers, allowed, rfl⟩, rfl⟩

end RustTrader.Fix
