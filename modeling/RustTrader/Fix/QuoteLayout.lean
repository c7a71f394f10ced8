import RustTrader.Fix.Extensions

/-!
# The layout of a mass quote

Header and root fields, one quote set and in it one quote entry, each group
opened by its delimiter and in dictionary order: that is what the walk over the
tags lets through, and where the decoded values stand.
-/

namespace RustTrader.Fix

/-- A dictionary from one of its fields on. -/
theorem cons_sublist_at {tag : Nat} {tags : List Nat} : ∀ {dictionary : List Nat},
    (tag :: tags).Sublist dictionary ↔
      ∃ i, dictionary[i]? = some tag ∧ tags.Sublist (dictionary.drop (i + 1)) := by
  intro dictionary
  induction dictionary with
  | nil => simp
  | cons known dictionary ih =>
    constructor
    · intro h
      rcases List.sublist_cons_iff.mp h with later | ⟨rest, same, later⟩
      · obtain ⟨i, found, rest⟩ := ih.mp later
        exact ⟨i + 1, found, rest⟩
      · obtain ⟨rfl, rfl⟩ := List.cons.inj same
        exact ⟨0, rfl, later⟩
    · rintro ⟨i, found, rest⟩
      cases i with
      | zero =>
        cases found
        exact rest.cons_cons tag
      | succ i => exact (ih.mpr ⟨i, found, rest⟩).cons known

theorem cons_sublist_drop {tag : Nat} {tags dictionary : List Nat} {start : Nat} :
    (tag :: tags).Sublist (dictionary.drop start) ↔
      ∃ i, start ≤ i ∧ dictionary[i]? = some tag ∧ tags.Sublist (dictionary.drop (i + 1)) := by
  rw [cons_sublist_at]
  constructor
  · rintro ⟨i, found, rest⟩
    rw [List.getElem?_drop] at found
    rw [List.drop_drop] at rest
    exact ⟨start + i, Nat.le_add_right _ _, found, rest⟩
  · rintro ⟨i, late, found, rest⟩
    refine ⟨i - start, ?_, ?_⟩
    · rw [List.getElem?_drop, Nat.add_sub_cancel' late]
      exact found
    · rw [List.drop_drop, ← Nat.add_assoc, Nat.add_sub_cancel' late]
      exact rest

theorem findIdx_at {tags : List Nat} (distinct : tags.Nodup) {tag i : Nat} :
    tags.findIdx? (fun known => known == tag) = some i ↔ tags[i]? = some tag := by
  rw [List.findIdx?_eq_some_iff_getElem]
  constructor
  · rintro ⟨inside, same, -⟩
    rw [List.getElem?_eq_getElem inside, beq_iff_eq.mp same]
  · intro found
    obtain ⟨inside, rfl⟩ := List.getElem?_eq_some_iff.mp found
    refine ⟨inside, beq_self_eq_true _, ?_⟩
    intro j before same
    have equal := (List.Nodup.getElem_inj_iff distinct).mp (beq_iff_eq.mp same)
    omega

/-- The tags of a group stand in the order of its dictionary, custom ones
anywhere. -/
def Ordered (dictionary tags : List Nat) : Prop :=
  (tags.filter (fun tag => tag < 5000)).Sublist dictionary

/-- The fields of a group. -/
def groupOf (quoteScope : Nat) : List Nat :=
  if quoteScope = 1 then quoteSetFields else quoteEntryFields

theorem groupOf_fields {quoteScope : Nat} (group : quoteScope = 1 ∨ quoteScope = 2)
    {started delayed : Bool} {previous : Option Nat} :
    Scope.fields ⟨started, quoteScope, previous, delayed⟩ "i" = groupOf quoteScope := by
  rcases group with rfl | rfl <;> rfl

theorem groupOf_distinct (quoteScope : Nat) : (groupOf quoteScope).Nodup := by
  unfold groupOf
  split <;> decide

theorem groupOf_plain {quoteScope tag : Nat} (known : tag ∈ groupOf quoteScope)
    (inner : tag ≠ 295) : Plain tag := by
  revert tag
  unfold groupOf
  split <;> decide

/-- The first position a further field may have. -/
def firstAfter : Option Nat → Nat
  | none => 0
  | some previous => previous + 1

theorem firstAfter_le {previous : Option Nat} {position : Nat} :
    firstAfter previous ≤ position ↔ ∀ prev, previous = some prev → prev < position := by
  cases previous with
  | none =>
    constructor
    · intro _ prev same
      cases same
    · intro _
      exact Nat.zero_le _
  | some prev =>
    constructor
    · rintro after _ same
      obtain rfl := Option.some.inj same
      exact after
    · intro before
      exact before prev rfl

theorem scopeField_group {quoteScope : Nat} (group : quoteScope = 1 ∨ quoteScope = 2)
    {previous : Option Nat} {after : Scope} {tag : Nat} (small : tag < 5000) (inner : tag ≠ 295)
    (inner' : tag ≠ 296) :
    scopeField "i" ⟨true, quoteScope, previous, false⟩ tag = .ok after ↔
      ∃ i, firstAfter previous ≤ i ∧ (groupOf quoteScope)[i]? = some tag ∧
        after = ⟨true, quoteScope, some i, false⟩ := by
  have grouped : quoteScope ≠ 0 := by omega
  by_cases header : tag ∈ headerTags
  · rw [scopeField_header header]
    constructor
    · rintro ⟨early, -⟩
      cases early
    · rintro ⟨i, -, found, -⟩
      exact absurd header (groupOf_plain (List.mem_of_getElem? found) inner).2.1
  · rw [scopeField_known header small (by omega), groupOf_fields group]
    constructor
    · rintro ⟨-, -, i, found, ordered, rfl⟩
      refine ⟨i, firstAfter_le.mpr (ordered grouped), (findIdx_at (groupOf_distinct _)).mp found,
        ?_⟩
      rw [if_neg (by omega), if_pos grouped]
    · rintro ⟨i, late, found, rfl⟩
      refine ⟨(groupOf_plain (List.mem_of_getElem? found) inner).shape "i", ?_, i,
        (findIdx_at (groupOf_distinct _)).mpr found, fun _ => firstAfter_le.mp late, ?_⟩
      · intro delayed
        cases delayed
      · rw [if_neg (by omega), if_pos grouped]

theorem groupOf_head {quoteScope tag : Nat} (first : (groupOf quoteScope).head? = some tag) :
    tag = 302 ∨ tag = 299 := by
  unfold groupOf at first
  split at first
  · exact .inl (Option.some.inj first).symm
  · exact .inr (Option.some.inj first).symm

/-- After a group count comes the delimiter of the group. -/
theorem scopeField_delimiter {quoteScope : Nat} (group : quoteScope = 1 ∨ quoteScope = 2)
    {after : Scope} {tag : Nat} (inner : tag ≠ 296) :
    scopeField "i" ⟨true, quoteScope, none, true⟩ tag = .ok after ↔
      (groupOf quoteScope).head? = some tag ∧ after = ⟨true, quoteScope, some 0, false⟩ := by
  have grouped : quoteScope ≠ 0 := by omega
  by_cases header : tag ∈ headerTags
  · rw [scopeField_header header]
    constructor
    · rintro ⟨early, -⟩
      cases early
    · rintro ⟨first, -⟩
      rcases groupOf_head first with rfl | rfl <;> exact absurd header (by decide)
  by_cases custom : 5000 ≤ tag
  · rw [scopeField_custom custom]
    constructor
    · rintro ⟨free, -⟩
      cases free
    · rintro ⟨first, -⟩
      have low := groupOf_head first
      omega
  rw [scopeField_known header (by omega) (by omega), groupOf_fields group]
  have start : ∀ i, (groupOf quoteScope).head? = some tag →
      ((groupOf quoteScope).findIdx? (fun known => known == tag) = some i ↔ i = 0) := by
    intro i first
    rw [List.head?_eq_getElem?] at first
    have zero := (findIdx_at (groupOf_distinct _)).mpr first
    rw [zero, Option.some.injEq, eq_comm]
  constructor
  · rintro ⟨-, punctual, i, found, -, rfl⟩
    have first := punctual rfl
    have low := groupOf_head first
    obtain rfl := (start i first).mp found
    exact ⟨first, by rw [if_neg (by omega), if_pos grouped]⟩
  · rintro ⟨first, rfl⟩
    have low := groupOf_head first
    have known := groupOf_plain (List.mem_of_mem_head? first) (by omega)
    refine ⟨known.shape "i", fun _ => first, 0, (start 0 first).mpr rfl, ?_, ?_⟩
    · intro _ previous none_
      cases none_
    · rw [if_neg (by omega), if_pos grouped]

/-- Inside a group. -/
theorem group_walk {quoteScope : Nat} (group : quoteScope = 1 ∨ quoteScope = 2)
    {tags : List Nat} (inner : ∀ tag ∈ tags, tag ≠ 295 ∧ tag ≠ 296) :
    ∀ {previous : Option Nat} {after : Scope},
      tags.foldlM (scopeField "i") ⟨true, quoteScope, previous, false⟩ = .ok after →
      (tags.filter (fun tag => tag < 5000)).Sublist
          ((groupOf quoteScope).drop (firstAfter previous)) ∧
        ∃ last, after = ⟨true, quoteScope, last, false⟩ ∧
          (last = previous ∨
            ∃ i, last = some i ∧ ∃ tag ∈ tags, (groupOf quoteScope)[i]? = some tag) := by
  induction tags with
  | nil =>
    intro previous after walk
    obtain rfl := Except.ok.inj walk
    exact ⟨List.nil_sublist _, previous, rfl, .inl rfl⟩
  | cons tag tags ih =>
    intro previous after walk
    obtain ⟨⟨notEntries, notSets⟩, later⟩ := List.forall_mem_cons.mp inner
    obtain ⟨mid, step, walk⟩ := foldlM_cons_ok.mp walk
    by_cases custom : 5000 ≤ tag
    · obtain ⟨-, rfl⟩ := (scopeField_custom custom).mp step
      obtain ⟨ordered, last, same, origin⟩ := ih later walk
      rw [List.filter_cons_of_neg (by simpa using custom)]
      refine ⟨ordered, last, same, origin.imp_right ?_⟩
      rintro ⟨i, at_, tag', mem, found⟩
      exact ⟨i, at_, tag', List.mem_cons_of_mem _ mem, found⟩
    · obtain ⟨i, late, found, rfl⟩ :=
        (scopeField_group group (by omega) notEntries notSets).mp step
      obtain ⟨ordered, last, same, origin⟩ := ih later walk
      rw [List.filter_cons_of_pos (by simpa using custom)]
      refine ⟨cons_sublist_drop.mpr ⟨i, late, found, ordered⟩, last, same, .inr ?_⟩
      rcases origin with rfl | ⟨j, at_, tag', mem, found'⟩
      · exact ⟨i, rfl, tag, List.mem_cons_self, found⟩
      · exact ⟨j, at_, tag', List.mem_cons_of_mem _ mem, found'⟩

theorem group_walks {quoteScope : Nat} (group : quoteScope = 1 ∨ quoteScope = 2)
    {tags : List Nat} (inner : ∀ tag ∈ tags, tag ≠ 295 ∧ tag ≠ 296) :
    ∀ {previous : Option Nat},
      (tags.filter (fun tag => tag < 5000)).Sublist
          ((groupOf quoteScope).drop (firstAfter previous)) →
      ∃ after, tags.foldlM (scopeField "i") ⟨true, quoteScope, previous, false⟩ = .ok after := by
  induction tags with
  | nil => exact fun _ => ⟨_, rfl⟩
  | cons tag tags ih =>
    intro previous ordered
    obtain ⟨⟨notEntries, notSets⟩, later⟩ := List.forall_mem_cons.mp inner
    by_cases custom : 5000 ≤ tag
    · rw [List.filter_cons_of_neg (by simpa using custom)] at ordered
      obtain ⟨after, walk⟩ := ih later ordered
      exact ⟨after, foldlM_cons_ok.mpr ⟨_, (scopeField_custom custom).mpr ⟨rfl, rfl⟩, walk⟩⟩
    · rw [List.filter_cons_of_pos (by simpa using custom)] at ordered
      obtain ⟨i, late, found, rest⟩ := cons_sublist_drop.mp ordered
      obtain ⟨after, walk⟩ := @ih later (some i) rest
      have step := (scopeField_group group (by omega) notEntries notSets).mpr
        ⟨i, late, found, rfl⟩
      exact ⟨after, foldlM_cons_ok.mpr ⟨_, step, walk⟩⟩

/-- The count of entries ends the set. -/
theorem scopeField_entries {previous : Option Nat} {after : Scope} :
    scopeField "i" ⟨true, 1, previous, false⟩ 295 = .ok after ↔
      firstAfter previous ≤ 18 ∧ after = ⟨true, 2, none, true⟩ := by
  have fields : Scope.fields ⟨true, 1, previous, false⟩ "i" = quoteSetFields := rfl
  have here : quoteSetFields.findIdx? (fun known => known == 295) = some 18 := by decide
  rw [scopeField_known (by decide) (by decide) (by decide), fields, here]
  constructor
  · rintro ⟨-, -, i, found, ordered, rfl⟩
    obtain rfl := Option.some.inj found
    exact ⟨firstAfter_le.mpr (ordered Nat.one_ne_zero), rfl⟩
  · rintro ⟨room, rfl⟩
    refine ⟨rfl, ?_, 18, rfl, fun _ => firstAfter_le.mp room, rfl⟩
    intro delayed
    cases delayed

theorem set_walk {set : List Nat} {after : Scope} (inner : ∀ tag ∈ set, tag ≠ 295 ∧ tag ≠ 296) :
    (302 :: set ++ [295]).foldlM (scopeField "i") ⟨true, 1, none, true⟩ = .ok after ↔
      Ordered (quoteSetFields.drop 1) set ∧ after = ⟨true, 2, none, true⟩ := by
  have opened : scopeField "i" ⟨true, 1, none, true⟩ 302 = .ok ⟨true, 1, some 0, false⟩ := rfl
  -- 295 is last in its dictionary, so whatever field came before leaves room for it
  have room : ∀ {mid : Scope},
      set.foldlM (scopeField "i") ⟨true, 1, some 0, false⟩ = .ok mid →
      ∃ last, mid = ⟨true, 1, last, false⟩ ∧ firstAfter last ≤ 18 := by
    intro mid walk
    obtain ⟨-, last, rfl, rfl | ⟨i, rfl, tag, mem, found⟩⟩ := group_walk (.inl rfl) inner walk
    · exact ⟨_, rfl, by decide⟩
    · refine ⟨_, rfl, ?_⟩
      obtain ⟨inside, same⟩ := List.getElem?_eq_some_iff.mp found
      have short : i < 19 := inside
      have other : i ≠ 18 := by
        rintro rfl
        exact (inner tag mem).1 same.symm
      change i + 1 ≤ 18
      omega
  rw [List.cons_append, List.foldlM_cons, opened]
  change (set ++ [295]).foldlM (scopeField "i") ⟨true, 1, some 0, false⟩ = .ok after ↔ _
  rw [foldlM_append_ok]
  constructor
  · rintro ⟨mid, walk, ends⟩
    obtain ⟨ordered, -⟩ := group_walk (.inl rfl) inner walk
    obtain ⟨last, rfl, -⟩ := room walk
    obtain ⟨_, step, same⟩ := foldlM_cons_ok.mp ends
    obtain rfl := Except.ok.inj same
    exact ⟨ordered, (scopeField_entries.mp step).2⟩
  · rintro ⟨ordered, rfl⟩
    obtain ⟨mid, walk⟩ := @group_walks 1 (.inl rfl) _ inner (some 0) ordered
    obtain ⟨last, rfl, fits⟩ := room walk
    exact ⟨_, walk, foldlM_cons_ok.mpr ⟨_, scopeField_entries.mpr ⟨fits, rfl⟩, rfl⟩⟩

theorem entry_walk {entry : List Nat} (inner : ∀ tag ∈ entry, tag ≠ 295 ∧ tag ≠ 296) :
    (∃ after, (299 :: entry).foldlM (scopeField "i") ⟨true, 2, none, true⟩ = .ok after ∧
      after.needsDelimiter = false) ↔ Ordered (quoteEntryFields.drop 1) entry := by
  have opened : scopeField "i" ⟨true, 2, none, true⟩ 299 = .ok ⟨true, 2, some 0, false⟩ := rfl
  rw [List.foldlM_cons, opened]
  change (∃ after, entry.foldlM (scopeField "i") ⟨true, 2, some 0, false⟩ = .ok after ∧
    after.needsDelimiter = false) ↔ _
  constructor
  · rintro ⟨after, walk, -⟩
    exact (group_walk (.inr rfl) inner walk).1
  · intro ordered
    obtain ⟨after, walk⟩ := @group_walks 2 (.inr rfl) _ inner (some 0) ordered
    obtain ⟨-, last, rfl, -⟩ := group_walk (.inr rfl) inner walk
    exact ⟨_, walk, rfl⟩

/-- The tags of a mass quote, part by part. -/
structure QuoteTags (tags header root set entry : List Nat) : Prop where
  split : tags = header ++ root ++ 296 :: 302 :: set ++ 295 :: 299 :: entry
  headers : ∀ tag ∈ header, tag ∈ headerTags
  roots : ∀ tag ∈ root, Allowed "i" tag
  set : Ordered (quoteSetFields.drop 1) set
  entry : Ordered (quoteEntryFields.drop 1) entry

theorem allowed_inner {tag : Nat} (h : Allowed "i" tag) : tag ≠ 295 ∧ tag ≠ 296 := by
  have known : ∀ tag ∈ scalarFields "i", tag ≠ 295 ∧ tag ≠ 296 := by decide
  rcases h with custom | scalar
  · omega
  · exact known tag scalar

theorem header_inner {tag : Nat} (h : tag ∈ headerTags) : tag ≠ 295 ∧ tag ≠ 296 := by
  revert tag
  decide

theorem closed_iff {scope : Scope} : (if scope.needsDelimiter then
    throw "missing MassQuote group delimiter" else pure () : Except String Unit) = .ok () ↔
      scope.needsDelimiter = false := by
  cases scope.needsDelimiter with
  | false => exact ⟨fun _ => rfl, fun _ => rfl⟩
  | true =>
    constructor
    · intro h
      cases h
    · intro h
      cases h

/-- Counts that occur once are nowhere else. -/
theorem inner_of_distinct {front set entry : List Nat}
    (distinct : (front ++ 296 :: (set ++ 295 :: entry)).Nodup) : 296 ∉ front ∧
      (∀ tag ∈ set, tag ≠ 295 ∧ tag ≠ 296) ∧ ∀ tag ∈ entry, tag ≠ 295 ∧ tag ≠ 296 := by
  obtain ⟨-, back, apart⟩ := List.nodup_append.mp distinct
  obtain ⟨once, inside⟩ := List.nodup_cons.mp back
  obtain ⟨-, rear, apart'⟩ := List.nodup_append.mp inside
  obtain ⟨once', -⟩ := List.nodup_cons.mp rear
  refine ⟨fun mem => apart 296 mem 296 List.mem_cons_self rfl, ?_, ?_⟩
  · intro tag mem
    refine ⟨fun same => apart' tag mem 295 List.mem_cons_self same, ?_⟩
    rintro rfl
    exact once (List.mem_append_left _ mem)
  · intro tag mem
    constructor
    · rintro rfl
      exact once' mem
    · rintro rfl
      exact once (List.mem_append_right _ (List.mem_cons_of_mem _ mem))

theorem scopes_quote {tags : List Nat} (distinct : tags.Nodup) (sets : 296 ∈ tags)
    (entries : 295 ∈ tags) : validateFieldScopes tags "i" = .ok () ↔
      ∃ header root set entry, QuoteTags tags header root set entry := by
  unfold validateFieldScopes
  rw [bind_eq_ok]
  constructor
  · rintro ⟨after, walk, done⟩
    obtain ⟨front, back, rfl⟩ := List.append_of_mem sets
    obtain ⟨mid, first, second⟩ := foldlM_append_ok.mp walk
    obtain ⟨_, step, grouped⟩ := foldlM_cons_ok.mp second
    obtain rfl := scopeField_sets.mp step
    have early : 296 ∉ front := fun mem =>
      (List.nodup_append.mp distinct).2.2 296 mem 296 List.mem_cons_self rfl
    obtain ⟨header, root, rfl, headers, roots, -⟩ := (root_walk fun _ => early).mp first
    have late : 295 ∈ back := by
      rcases List.mem_append.mp entries with mem | mem
      · rcases List.mem_append.mp mem with mem | mem
        · exact absurd rfl (header_inner (headers _ mem)).1
        · exact absurd rfl (allowed_inner (roots _ mem)).1
      · exact (List.mem_cons.mp mem).resolve_left (by decide)
    obtain ⟨set, entry, rfl⟩ := List.append_of_mem late
    obtain ⟨-, innerSet, innerEntry⟩ := inner_of_distinct distinct
    cases set with
    | nil =>
      obtain ⟨_, step, -⟩ := foldlM_cons_ok.mp grouped
      obtain ⟨first, -⟩ := (scopeField_delimiter (.inl rfl) (by decide)).mp step
      cases first
    | cons tag set =>
      obtain ⟨inner, innerRest⟩ := List.forall_mem_cons.mp innerSet
      obtain ⟨_, step, -⟩ := foldlM_cons_ok.mp grouped
      obtain ⟨first, -⟩ := (scopeField_delimiter (.inl rfl) inner.2).mp step
      obtain rfl : 302 = tag := Option.some.inj first
      have join : 302 :: set ++ 295 :: entry = 302 :: set ++ [295] ++ entry := by simp
      rw [join] at grouped
      obtain ⟨_, opened, rest⟩ := foldlM_append_ok.mp grouped
      obtain ⟨ordered, rfl⟩ := (set_walk innerRest).mp opened
      cases entry with
      | nil =>
        obtain rfl := Except.ok.inj rest
        cases done
      | cons tag entry =>
        obtain ⟨inner, innerRest⟩ := List.forall_mem_cons.mp innerEntry
        obtain ⟨_, step, -⟩ := foldlM_cons_ok.mp rest
        obtain ⟨first, -⟩ := (scopeField_delimiter (.inr rfl) inner.2).mp step
        obtain rfl : 299 = tag := Option.some.inj first
        have ordered' := (entry_walk innerRest).mp ⟨after, rest, closed_iff.mp done⟩
        exact ⟨header, root, set, entry, by simp, headers, roots, ordered, ordered'⟩
  · rintro ⟨header, root, set, entry, rfl, headers, roots, ordered, ordered'⟩
    have shape : header ++ root ++ 296 :: 302 :: set ++ 295 :: 299 :: entry =
        header ++ root ++ 296 :: (302 :: set ++ 295 :: 299 :: entry) := by simp
    rw [shape] at distinct ⊢
    obtain ⟨early, innerSet, innerEntry⟩ := inner_of_distinct distinct
    obtain ⟨-, innerSet'⟩ := List.forall_mem_cons.mp innerSet
    obtain ⟨-, innerEntry'⟩ := List.forall_mem_cons.mp innerEntry
    obtain ⟨after, rest, closed⟩ := (entry_walk innerEntry').mpr ordered'
    have join : 302 :: set ++ 295 :: 299 :: entry = 302 :: set ++ [295] ++ 299 :: entry := by simp
    have front : (header ++ root).foldlM (scopeField "i") ⟨false, 0, none, false⟩ =
        .ok ⟨!root.isEmpty, 0, none, false⟩ :=
      (root_walk fun _ => early).mpr ⟨header, root, rfl, headers, roots, rfl⟩
    have groups : (302 :: set ++ 295 :: 299 :: entry).foldlM (scopeField "i")
        ⟨true, 1, none, true⟩ = .ok after := by
      rw [join]
      exact foldlM_append_ok.mpr ⟨_, (set_walk innerSet').mpr ⟨ordered, rfl⟩, rest⟩
    refine ⟨after, ?_, closed_iff.mpr closed⟩
    exact foldlM_append_ok.mpr
      ⟨_, front, foldlM_cons_ok.mpr ⟨_, scopeField_sets.mpr rfl, groups⟩⟩

variable {D : Type} [Decimal D] [DecimalText D] {m : FixMessage}

theorem need_iff {tag : Nat} {value : String} :
    m.need tag = .ok value ↔ m.get tag = some value := by
  unfold FixMessage.need
  cases m.get tag with
  | none =>
    constructor
    · intro h
      cases h
    · intro h
      cases h
  | some found =>
    constructor
    · intro h
      rw [Except.ok.inj h]
    · intro h
      rw [Option.some.inj h]

/-- A quote value that is left out is zero. -/
def QuoteValue (m : FixMessage) (tag : Nat) (d : D) : Prop :=
  0 ≤ d ∧ ((m.get tag = none ∧ d = 0) ∨
    ∃ value, m.get tag = some value ∧ parseDecimal value = .ok d)

theorem quoteValue_iff {tag : Nat} {d : D} : m.quoteValue tag = .ok d ↔ QuoteValue m tag d := by
  have optional : m.optionalDec tag (0 : D) = .ok d ↔
      (m.get tag = none ∧ d = 0) ∨
        ∃ value, m.get tag = some value ∧ parseDecimal value = .ok d := by
    unfold FixMessage.optionalDec
    cases m.get tag with
    | none => simp [eq_comm]
    | some value => simp
  unfold FixMessage.quoteValue QuoteValue
  rw [bind_eq_ok, ← optional]
  constructor
  · rintro ⟨value, read, h⟩
    split at h
    · cases h
    rename_i positive
    obtain rfl := Except.ok.inj h
    exact ⟨not_lt.mp positive, read⟩
  · rintro ⟨positive, read⟩
    refine ⟨d, read, ?_⟩
    rw [if_neg (not_lt.mpr positive)]
    rfl

theorem decodeMassQuote_iff {inbound : Inbound D} : decodeMassQuote m = .ok inbound ↔
    m.get 296 = some "1" ∧ m.get 295 = some "1" ∧ m.get 304 = some "1" ∧
      ∃ level quoteId symbol bidPx bidQty offerPx offerQty,
        responseLevel ((m.get 301).getD "0") = .ok level ∧ m.get 117 = some quoteId ∧
        m.get 55 = some symbol ∧ QuoteValue m 132 bidPx ∧ QuoteValue m 134 bidQty ∧
        QuoteValue m 133 offerPx ∧ QuoteValue m 135 offerQty ∧
        inbound = .massQuote quoteId level symbol bidPx bidQty offerPx offerQty := by
  unfold decodeMassQuote
  simp only [bind_eq_ok, guard_eq_ok, need_iff, quoteValue_iff, ne_eq, not_not]
  constructor
  · rintro ⟨_, sets, rfl, _, entries, rfl, _, total, rfl, level, read, quoteId, named, symbol,
      listed, bidPx, bid, bidQty, bid', offerPx, offer, offerQty, offer', same⟩
    exact ⟨sets, entries, total, level, quoteId, symbol, bidPx, bidQty, offerPx, offerQty, read,
      named, listed, bid, bid', offer, offer', (Except.ok.inj same).symm⟩
  · rintro ⟨sets, entries, total, level, quoteId, symbol, bidPx, bidQty, offerPx, offerQty, read,
      named, listed, bid, bid', offer, offer', rfl⟩
    exact ⟨_, sets, rfl, _, entries, rfl, _, total, rfl, level, read, quoteId, named, symbol,
      listed, bidPx, bid, bidQty, bid', offerPx, offer, offerQty, offer', rfl⟩

/-- The parts of a mass quote; the group counts and delimiters stand between. -/
structure QuoteLayout where
  header : Fields
  root : Fields
  setId : String
  set : Fields
  entryId : String
  entry : Fields

def QuoteLayout.fields (l : QuoteLayout) : Fields :=
  l.header ++ l.root ++ (296, "1") :: (302, l.setId) :: l.set ++
    (295, "1") :: (299, l.entryId) :: l.entry

/-- Each part holds the fields of its scope. -/
structure QuoteLayout.Placed (l : QuoteLayout) : Prop where
  headers : ∀ field ∈ l.header, field.1 ∈ headerTags
  roots : ∀ field ∈ l.root, field.1 ∈ [131, 117, 301, 293, 294] ∨ 5000 ≤ field.1
  setFields : Ordered quoteSetFields (302 :: l.set.map Prod.fst ++ [295])
  entryFields : Ordered quoteEntryFields (299 :: l.entry.map Prod.fst)

structure QuoteLayout.Valid (D : Type) [Decimal D] [DecimalText D] [Chrono] (l : QuoteLayout) :
    Prop extends l.Placed where
  named : 117 ∈ l.root.map Prod.fst
  level : ∀ value, (301, value) ∈ l.root → value ∈ ["0", "1", "2"]
  underlying : 311 ∈ l.set.map Prod.fst
  total : (304, "1") ∈ l.set
  listed : 55 ∈ l.entry.map Prod.fst
  distinct : (l.fields.map Prod.fst).Nodup
  values : ∀ field ∈ l.fields, field.2 ≠ ""
  decimals : ∀ field ∈ l.fields, field.1 ∈ [132, 133, 134, 135] →
    ∃ d : D, parseDecimal field.2 = .ok d ∧ 0 ≤ d
  time : ∀ value, (60, value) ∈ l.fields → validateTimestamp value = .ok ()

theorem Ordered.mem {dictionary tags : List Nat} (h : Ordered dictionary tags) {tag : Nat}
    (mem : tag ∈ tags) (small : tag < 5000) : tag ∈ dictionary :=
  h.subset (List.mem_filter.mpr ⟨mem, decide_eq_true small⟩)

theorem ordered_entry {entry : List Nat} :
    Ordered quoteEntryFields (299 :: entry) ↔ Ordered (quoteEntryFields.drop 1) entry := by
  unfold Ordered
  rw [List.filter_cons_of_pos (by decide)]
  exact List.cons_sublist_cons

theorem ordered_set {set : List Nat} (once : 295 ∉ set) :
    Ordered quoteSetFields (302 :: set ++ [295]) ↔ Ordered (quoteSetFields.drop 1) set := by
  unfold Ordered
  have inner : quoteSetFields.drop 1 = (quoteSetFields.drop 1).dropLast ++ [295] := by
    decide
  have absent : 295 ∉ set.filter (fun tag => tag < 5000) :=
    fun mem => once (List.mem_filter.mp mem).1
  rw [List.cons_append, List.filter_cons_of_pos (by decide), List.filter_append]
  constructor
  · intro h
    exact (List.sublist_append_left _ _).trans (List.cons_sublist_cons.mp h)
  · intro h
    refine List.cons_sublist_cons.mpr ?_
    change (set.filter (fun tag => tag < 5000) ++ [295]).Sublist (quoteSetFields.drop 1)
    rw [inner] at h ⊢
    obtain ⟨front, back, same, early, late⟩ := List.sublist_append_iff.mp h
    rcases List.sublist_singleton.mp late with rfl | rfl
    · rw [same, List.append_nil]
      exact early.append (List.Sublist.refl _)
    · rw [same] at absent
      exact absurd (List.mem_append_right _ List.mem_cons_self) absent

namespace QuoteLayout

variable {l : QuoteLayout}

/-- Where a field below the custom ones can stand. -/
theorem Placed.place (h : l.Placed) {field : Nat × String} (mem : field ∈ l.fields)
    (small : field.1 < 5000) : field ∈ l.header ∧ field.1 ∈ headerTags ∨
      field ∈ l.root ∧ field.1 ∈ [131, 117, 301, 293, 294] ∨
      field ∈ l.set ∧ field.1 ∈ quoteSetFields ∨
      field ∈ l.entry ∧ field.1 ∈ quoteEntryFields ∨ field.1 ∈ [296, 302, 295, 299] := by
  simp only [fields, List.mem_append, List.mem_cons] at mem
  rcases mem with ((mem | mem) | rfl | rfl | mem) | rfl | rfl | mem
  · exact .inl ⟨mem, h.headers field mem⟩
  · exact .inr (.inl ⟨mem, (h.roots field mem).resolve_right (by omega)⟩)
  · simp
  · simp
  · refine .inr (.inr (.inl ⟨mem, h.setFields.mem ?_ small⟩))
    simp only [List.cons_append, List.mem_cons, List.mem_append]
    exact .inr (.inl (List.mem_map_of_mem mem))
  · simp
  · simp
  · exact .inr (.inr (.inr (.inl ⟨mem,
      h.entryFields.mem (List.mem_cons_of_mem _ (List.mem_map_of_mem mem)) small⟩)))

theorem Placed.in_root (h : l.Placed) {tag : Nat} {value : String} (own : tag ∈ [117, 301]) :
    (tag, value) ∈ l.fields ↔ (tag, value) ∈ l.root := by
  have foreign : ∀ tag ∈ [117, 301], tag < 5000 ∧ tag ∉ headerTags ∧ tag ∉ quoteSetFields ∧
      tag ∉ quoteEntryFields ∧ tag ∉ [296, 302, 295, 299] := by decide
  obtain ⟨small, notHeader, notSet, notEntry, notCount⟩ := foreign tag own
  constructor
  · intro mem
    rcases h.place mem small with ⟨-, known⟩ | ⟨mem, -⟩ | ⟨-, known⟩ | ⟨-, known⟩ | known
    · exact absurd known notHeader
    · exact mem
    · exact absurd known notSet
    · exact absurd known notEntry
    · exact absurd known notCount
  · intro mem
    simp only [fields, List.mem_append]
    exact .inl (.inl (.inr mem))

theorem Placed.in_set (h : l.Placed) {tag : Nat} {value : String} (own : tag ∈ [304, 311]) :
    (tag, value) ∈ l.fields ↔ (tag, value) ∈ l.set := by
  have foreign : ∀ tag ∈ [304, 311], tag < 5000 ∧ tag ∉ headerTags ∧
      tag ∉ [131, 117, 301, 293, 294] ∧ tag ∉ quoteEntryFields ∧ tag ∉ [296, 302, 295, 299] := by
    decide
  obtain ⟨small, notHeader, notRoot, notEntry, notCount⟩ := foreign tag own
  constructor
  · intro mem
    rcases h.place mem small with ⟨-, known⟩ | ⟨-, known⟩ | ⟨mem, -⟩ | ⟨-, known⟩ | known
    · exact absurd known notHeader
    · exact absurd known notRoot
    · exact mem
    · exact absurd known notEntry
    · exact absurd known notCount
  · intro mem
    simp only [fields, List.mem_append, List.mem_cons]
    exact .inl (.inr (.inr (.inr mem)))

theorem Placed.in_entry (h : l.Placed) {tag : Nat} {value : String}
    (own : tag ∈ [55, 60, 132, 133, 134, 135]) :
    (tag, value) ∈ l.fields ↔ (tag, value) ∈ l.entry := by
  have foreign : ∀ tag ∈ [55, 60, 132, 133, 134, 135], tag < 5000 ∧ tag ∉ headerTags ∧
      tag ∉ [131, 117, 301, 293, 294] ∧ tag ∉ quoteSetFields ∧ tag ∉ [296, 302, 295, 299] := by
    decide
  obtain ⟨small, notHeader, notRoot, notSet, notCount⟩ := foreign tag own
  constructor
  · intro mem
    rcases h.place mem small with ⟨-, known⟩ | ⟨-, known⟩ | ⟨-, known⟩ | ⟨mem, -⟩ | known
    · exact absurd known notHeader
    · exact absurd known notRoot
    · exact absurd known notSet
    · exact mem
    · exact absurd known notCount
  · intro mem
    simp only [fields, List.mem_append, List.mem_cons]
    exact .inr (.inr (.inr mem))

end QuoteLayout

/-- The tags of a placed layout are those the walk lets through. -/
theorem QuoteLayout.tags_split {l : QuoteLayout} : l.fields.map Prod.fst =
    l.header.map Prod.fst ++ l.root.map Prod.fst ++ 296 :: 302 :: l.set.map Prod.fst ++
      295 :: 299 :: l.entry.map Prod.fst := by
  simp [QuoteLayout.fields]

theorem QuoteLayout.set_once {l : QuoteLayout} (distinct : (l.fields.map Prod.fst).Nodup) :
    295 ∉ l.set.map Prod.fst := by
  have shape : l.fields.map Prod.fst = l.header.map Prod.fst ++ l.root.map Prod.fst ++
      296 :: (302 :: l.set.map Prod.fst ++ 295 :: 299 :: l.entry.map Prod.fst) := by
    simp [QuoteLayout.fields]
  rw [shape] at distinct
  obtain ⟨-, inner, -⟩ := inner_of_distinct distinct
  exact fun mem => (inner 295 (List.mem_cons_of_mem _ mem)).1 rfl

theorem allowed_root {tag : Nat} :
    Allowed "i" tag ↔ tag ∈ [131, 117, 301, 293, 294] ∨ 5000 ≤ tag := or_comm

theorem QuoteLayout.placed_iff {l : QuoteLayout} (distinct : (l.fields.map Prod.fst).Nodup) :
    l.Placed ↔ QuoteTags (l.fields.map Prod.fst) (l.header.map Prod.fst) (l.root.map Prod.fst)
      (l.set.map Prod.fst) (l.entry.map Prod.fst) := by
  constructor
  · intro h
    refine ⟨tags_split, ?_, ?_, (ordered_set (set_once distinct)).mp h.setFields,
      ordered_entry.mp h.entryFields⟩
    · intro tag mem
      obtain ⟨field, hfield, rfl⟩ := List.mem_map.mp mem
      exact h.headers field hfield
    · intro tag mem
      obtain ⟨field, hfield, rfl⟩ := List.mem_map.mp mem
      exact allowed_root.mpr (h.roots field hfield)
  · intro h
    refine ⟨?_, ?_, (ordered_set (set_once distinct)).mpr h.set, ordered_entry.mpr h.entry⟩
    · intro field hfield
      exact h.headers _ (List.mem_map_of_mem hfield)
    · intro field hfield
      exact allowed_root.mp (h.roots _ (List.mem_map_of_mem hfield))

/-- Fields whose tags split have a layout, whatever the values of the counts. -/
theorem layout_of_tags {fields : Fields} (distinct : (fields.map Prod.fst).Nodup)
    (sets : (296, "1") ∈ fields) (entries : (295, "1") ∈ fields) {header root set entry : List Nat}
    (split : QuoteTags (fields.map Prod.fst) header root set entry) :
    ∃ l : QuoteLayout, l.fields = fields ∧ l.Placed := by
  obtain ⟨front, rear, same, frontTags, rearTags⟩ := List.map_eq_append_iff.mp split.split
  obtain ⟨first, group, rfl, firstTags, groupTags⟩ := List.map_eq_append_iff.mp frontTags
  obtain ⟨headers, roots, rfl, rfl, rfl⟩ := List.map_eq_append_iff.mp firstTags
  obtain ⟨count, group, rfl, named, groupTags⟩ := List.map_eq_cons_iff.mp groupTags
  obtain ⟨setField, sets', rfl, named', rfl⟩ := List.map_eq_cons_iff.mp groupTags
  obtain ⟨count', rear, rfl, named'', rearTags⟩ := List.map_eq_cons_iff.mp rearTags
  obtain ⟨entryField, entries', rfl, named''', rfl⟩ := List.map_eq_cons_iff.mp rearTags
  have once : ∀ {field field' : Nat × String}, field ∈ fields → field' ∈ fields →
      field.1 = field'.1 → field = field' :=
    fun mem mem' => List.inj_on_of_nodup_map distinct mem mem'
  obtain rfl : count = (296, "1") := once (by rw [same]; simp) sets named
  obtain rfl : count' = (295, "1") := once (by rw [same]; simp) entries named''
  obtain ⟨tag, setId⟩ := setField
  obtain ⟨tag', entryId⟩ := entryField
  cases named'
  cases named'''
  have whole : QuoteLayout.fields ⟨headers, roots, setId, sets', entryId, entries'⟩ = fields := by
    rw [same]
    rfl
  refine ⟨_, whole, (QuoteLayout.placed_iff ?_).mpr ?_⟩
  · rw [whole]
    exact distinct
  · rw [whole]
    exact split

/-- A lookup that finds what a part holds misses what it does not hold. -/
theorem missing_iff {part : Fields} {tag : Nat}
    (found : ∀ {value : String}, m.get tag = some value ↔ (tag, value) ∈ part) :
    m.get tag = none ↔ tag ∉ part.map Prod.fst := by
  constructor
  · intro none_ mem
    obtain ⟨⟨tag, value⟩, hfield, rfl⟩ := List.mem_map.mp mem
    have some_ := found.mpr hfield
    rw [none_] at some_
    cases some_
  · intro absent
    cases given : m.get tag with
    | none => rfl
    | some value => exact absurd (List.mem_map_of_mem (found.mp given)) absent

theorem responseLevel_iff {value : String} :
    (∃ level, responseLevel value = .ok level) ↔ value ∈ ["0", "1", "2"] := by
  unfold responseLevel
  split
  · simp [*]
  · split
    · simp [*]
    · split <;> simp [*]

section

variable [Chrono]

theorem QuoteLayout.Valid.profiled {l : QuoteLayout} (h : l.Valid D) (same : l.fields = m.fields) :
    Profiled m "i" [117, 296, 302, 311, 304, 295, 299, 55] := by
  have counts : ∀ tag ∈ [296, 302, 295, 299], tag ∈ m.fields.map Prod.fst := by
    rw [← same, QuoteLayout.tags_split]
    simp
  have distinct : (m.fields.map Prod.fst).Nodup := same ▸ h.distinct
  have there : ∀ {tag : Nat} {part : Fields}, (∀ field ∈ part, field ∈ l.fields) →
      tag ∈ part.map Prod.fst → tag ∈ m.fields.map Prod.fst := by
    intro tag part inside mem
    obtain ⟨field, hfield, rfl⟩ := List.mem_map.mp mem
    exact List.mem_map_of_mem (same ▸ inside field hfield)
  have roots : ∀ field ∈ l.root, field ∈ l.fields := by
    intro field mem
    simp [QuoteLayout.fields, mem]
  have sets : ∀ field ∈ l.set, field ∈ l.fields := by
    intro field mem
    simp [QuoteLayout.fields, mem]
  have entries : ∀ field ∈ l.entry, field ∈ l.fields := by
    intro field mem
    simp [QuoteLayout.fields, mem]
  refine ⟨?_, distinct, ?_, ?_, ?_, ?_⟩
  · rw [scopes_quote distinct (counts 296 (by decide)) (counts 295 (by decide)), ← same]
    exact ⟨_, _, _, _, (QuoteLayout.placed_iff h.distinct).mp h.toPlaced⟩
  · intro field mem
    rw [← same] at mem
    refine ⟨h.values field mem, validEnumeration_plain ?_ _⟩
    have plain : ∀ tag ∈ [373, 380, 102, 300], tag < 5000 ∧ tag ∉ headerTags ∧
        tag ∉ [131, 117, 301, 293, 294] ∧ tag ∉ quoteSetFields ∧ tag ∉ quoteEntryFields ∧
        tag ∉ [296, 302, 295, 299] := by decide
    intro enumerated
    obtain ⟨small, notHeader, notRoot, notSet, notEntry, notCount⟩ := plain field.1 enumerated
    rcases h.place mem small with ⟨-, known⟩ | ⟨-, known⟩ | ⟨-, known⟩ | ⟨-, known⟩ | known
    · exact notHeader known
    · exact notRoot known
    · exact notSet known
    · exact notEntry known
    · exact notCount known
  · intro tag mem
    simp only [List.mem_cons, List.not_mem_nil, or_false] at mem
    rcases mem with rfl | rfl | rfl | rfl | rfl | rfl | rfl | rfl
    · exact there roots h.named
    · exact counts _ (by decide)
    · exact counts _ (by decide)
    · exact there sets h.underlying
    · exact there sets (List.mem_map_of_mem h.total)
    · exact counts _ (by decide)
    · exact counts _ (by decide)
    · exact there entries h.listed
  · unfold validateTransactTime
    cases given : m.get 60 with
    | none => rfl
    | some value => exact h.time value (same ▸ (get_of_mem distinct).mp given)
  · rfl

/-- A value of the entry; one that is left out is zero. -/
def EntryValue (entry : Fields) (tag : Nat) (d : D) : Prop :=
  0 ≤ d ∧ ((tag ∉ entry.map Prod.fst ∧ d = 0) ∨
    ∃ value, (tag, value) ∈ entry ∧ parseDecimal value = .ok d)

/-- The response level a root asks for. -/
def AsksLevel (root : Fields) (level : Nat) : Prop :=
  (301 ∉ root.map Prod.fst ∧ level = 0) ∨
    ∃ value, (301, value) ∈ root ∧ responseLevel value = .ok level

theorem QuoteLayout.Valid.entryValue_iff {l : QuoteLayout} (h : l.Valid D)
    (same : l.fields = m.fields) {tag : Nat} (own : tag ∈ [132, 133, 134, 135]) {d : D} :
    QuoteValue m tag d ↔ EntryValue l.entry tag d := by
  have inside : tag ∈ [55, 60, 132, 133, 134, 135] := by
    simp only [List.mem_cons, List.not_mem_nil, or_false] at own ⊢
    omega
  have found : ∀ {value : String}, m.get tag = some value ↔ (tag, value) ∈ l.entry := by
    intro value
    rw [get_of_mem (same ▸ h.distinct), ← same]
    exact h.toPlaced.in_entry inside
  unfold QuoteValue EntryValue
  simp only [found, missing_iff found]

theorem QuoteLayout.Valid.level_iff {l : QuoteLayout} (h : l.Valid D)
    (same : l.fields = m.fields) {level : Nat} :
    responseLevel ((m.get 301).getD "0") = .ok level ↔ AsksLevel l.root level := by
  have found : ∀ {value : String}, m.get 301 = some value ↔ (301, value) ∈ l.root := by
    intro value
    rw [get_of_mem (same ▸ h.distinct), ← same]
    exact h.toPlaced.in_root (by decide)
  unfold AsksLevel
  rw [← missing_iff found]
  simp only [← found]
  cases m.get 301 with
  | none => simp [responseLevel, eq_comm]
  | some value => simp

/-- The values of a valid layout. -/
theorem QuoteLayout.Valid.decodes {l : QuoteLayout} (h : l.Valid D) (same : l.fields = m.fields)
    (named : m.msgType = some "i") {inbound : Inbound D} : decode m = .ok (.ok inbound) ↔
      ∃ level quoteId symbol bidPx bidQty offerPx offerQty, AsksLevel l.root level ∧
        (117, quoteId) ∈ l.root ∧ (55, symbol) ∈ l.entry ∧ EntryValue l.entry 132 bidPx ∧
        EntryValue l.entry 134 bidQty ∧ EntryValue l.entry 133 offerPx ∧
        EntryValue l.entry 135 offerQty ∧
        inbound = .massQuote quoteId level symbol bidPx bidQty offerPx offerQty := by
  have distinct : (m.fields.map Prod.fst).Nodup := same ▸ h.distinct
  have read : decode m = .ok (.ok inbound) ↔ decodeMassQuote m = .ok inbound := by
    rw [decode_iff]
    constructor
    · rintro ⟨kind, named', -, read⟩
      cases named.symm.trans named'
      exact Except.ok.inj read
    · intro read
      refine ⟨"i", named, ?_, ?_⟩
      · rintro required known
        cases known
        exact h.profiled same
      · rw [if_neg (by decide)]
        exact congrArg Except.ok read
  have g296 : m.get 296 = some "1" := by
    rw [get_of_mem distinct, ← same]
    simp [QuoteLayout.fields]
  have g295 : m.get 295 = some "1" := by
    rw [get_of_mem distinct, ← same]
    simp [QuoteLayout.fields]
  have g304 : m.get 304 = some "1" := by
    rw [get_of_mem distinct, ← same, h.toPlaced.in_set (by decide)]
    exact h.total
  have g117 : ∀ {value : String}, m.get 117 = some value ↔ (117, value) ∈ l.root := by
    intro value
    rw [get_of_mem distinct, ← same, h.toPlaced.in_root (by decide)]
  have g55 : ∀ {value : String}, m.get 55 = some value ↔ (55, value) ∈ l.entry := by
    intro value
    rw [get_of_mem distinct, ← same, h.toPlaced.in_entry (by decide)]
  rw [read, decodeMassQuote_iff]
  simp only [g296, g295, g304, true_and, g117, g55, h.level_iff same,
    h.entryValue_iff same (by decide : 132 ∈ [132, 133, 134, 135]),
    h.entryValue_iff same (by decide : 133 ∈ [132, 133, 134, 135]),
    h.entryValue_iff same (by decide : 134 ∈ [132, 133, 134, 135]),
    h.entryValue_iff same (by decide : 135 ∈ [132, 133, 134, 135])]

/-- A decoded mass quote has a valid layout. -/
theorem layout_of_decoded (named : m.msgType = some "i") {inbound : Inbound D}
    (decoded : decode m = .ok (.ok inbound)) :
    ∃ l : QuoteLayout, l.fields = m.fields ∧ l.Valid D := by
  obtain ⟨kind, named', checked, read⟩ := decode_iff.mp decoded
  cases named.symm.trans named'
  have profiled := checked _ rfl
  have distinct := profiled.distinct
  rw [if_neg (by decide)] at read
  obtain ⟨sets, entries, total, level, quoteId, symbol, bidPx, bidQty, offerPx, offerQty, asked,
    -, -, bid, bid', offer, offer', -⟩ := decodeMassQuote_iff.mp (Except.ok.inj read)
  obtain ⟨header, root, set, entry, split⟩ := (scopes_quote distinct
    (profiled.present 296 (by decide)) (profiled.present 295 (by decide))).mp profiled.scopes
  obtain ⟨l, same, placed⟩ := layout_of_tags distinct ((get_of_mem distinct).mp sets)
    ((get_of_mem distinct).mp entries) split
  have mem : ∀ {tag : Nat} {value : String}, m.get tag = some value ↔ (tag, value) ∈ l.fields := by
    intro tag value
    rw [get_of_mem distinct, same]
  have present : ∀ {tag : Nat}, tag ∈ [117, 296, 302, 311, 304, 295, 299, 55] →
      ∃ value, (tag, value) ∈ l.fields := by
    intro tag required
    obtain ⟨⟨tag, value⟩, hfield, rfl⟩ := List.mem_map.mp (profiled.present tag required)
    exact ⟨value, same ▸ hfield⟩
  refine ⟨l, same, placed, ?_, ?_, ?_, ?_, ?_, ?_, ?_, ?_, ?_⟩
  · obtain ⟨value, hfield⟩ := present (by decide : 117 ∈ _)
    exact List.mem_map_of_mem ((placed.in_root (by decide)).mp hfield)
  · intro value hvalue
    have given := mem.mpr ((placed.in_root (by decide)).mpr hvalue)
    rw [given] at asked
    exact responseLevel_iff.mp ⟨level, asked⟩
  · obtain ⟨value, hfield⟩ := present (by decide : 311 ∈ _)
    exact List.mem_map_of_mem ((placed.in_set (by decide)).mp hfield)
  · exact (placed.in_set (by decide)).mp (mem.mp total)
  · obtain ⟨value, hfield⟩ := present (by decide : 55 ∈ _)
    exact List.mem_map_of_mem ((placed.in_entry (by decide)).mp hfield)
  · rw [same]
    exact distinct
  · intro field hfield
    exact (profiled.values field (same ▸ hfield)).1
  · rintro ⟨tag, value⟩ hfield quoted
    have given := mem.mpr hfield
    have read : ∀ {d : D}, QuoteValue m tag d → ∃ d : D, parseDecimal value = .ok d ∧ 0 ≤ d := by
      rintro d ⟨positive, ⟨none_, -⟩ | ⟨value', some_, parsed⟩⟩
      · rw [given] at none_
        cases none_
      · cases given.symm.trans some_
        exact ⟨d, parsed, positive⟩
    simp only [List.mem_cons, List.not_mem_nil, or_false] at quoted
    rcases quoted with rfl | rfl | rfl | rfl
    · exact read bid
    · exact read offer
    · exact read bid'
    · exact read offer'
  · intro value hvalue
    have time := profiled.time
    unfold validateTransactTime at time
    rw [mem.mpr hvalue] at time
    exact time

theorem QuoteLayout.Valid.entryValue_some {l : QuoteLayout} (h : l.Valid D) {tag : Nat}
    (own : tag ∈ [132, 133, 134, 135]) : ∃ d : D, EntryValue l.entry tag d := by
  by_cases given : tag ∈ l.entry.map Prod.fst
  · obtain ⟨⟨tag, value⟩, hfield, rfl⟩ := List.mem_map.mp given
    have whole : (tag, value) ∈ l.fields := by simp [QuoteLayout.fields, hfield]
    obtain ⟨d, parsed, positive⟩ := h.decimals _ whole own
    exact ⟨d, positive, .inr ⟨value, hfield, parsed⟩⟩
  · exact ⟨0, le_rfl, .inl ⟨given, rfl⟩⟩

theorem QuoteLayout.Valid.level_some {l : QuoteLayout} (h : l.Valid D) :
    ∃ level, AsksLevel l.root level := by
  by_cases given : 301 ∈ l.root.map Prod.fst
  · obtain ⟨⟨tag, value⟩, hfield, rfl⟩ := List.mem_map.mp given
    obtain ⟨level, asked⟩ := responseLevel_iff.mpr (h.level value hfield)
    exact ⟨level, .inr ⟨value, hfield, asked⟩⟩
  · exact ⟨0, .inl ⟨given, rfl⟩⟩

/-- A mass quote is decoded exactly when its fields are laid out as one set with
one entry; the values are those of the root and of the entry. -/
theorem mass_quote_layout (m : FixMessage) (named : m.msgType = some "i") :
    ((∃ inbound : Inbound D, decode m = .ok (.ok inbound)) ↔
      ∃ l : QuoteLayout, l.fields = m.fields ∧ l.Valid D) ∧
    ∀ l : QuoteLayout, l.fields = m.fields → l.Valid D → ∀ inbound : Inbound D,
      decode m = .ok (.ok inbound) ↔ ∃ level quoteId symbol bidPx bidQty offerPx offerQty,
        AsksLevel l.root level ∧ (117, quoteId) ∈ l.root ∧ (55, symbol) ∈ l.entry ∧
        EntryValue l.entry 132 bidPx ∧ EntryValue l.entry 134 bidQty ∧
        EntryValue l.entry 133 offerPx ∧ EntryValue l.entry 135 offerQty ∧
        inbound = .massQuote quoteId level symbol bidPx bidQty offerPx offerQty := by
  refine ⟨⟨?_, ?_⟩, ?_⟩
  · rintro ⟨inbound, decoded⟩
    exact layout_of_decoded named decoded
  · rintro ⟨l, same, valid⟩
    obtain ⟨level, asked⟩ := valid.level_some
    obtain ⟨⟨tag, quoteId⟩, root, rfl⟩ := List.mem_map.mp valid.named
    obtain ⟨⟨tag', symbol⟩, entry, rfl⟩ := List.mem_map.mp valid.listed
    obtain ⟨bidPx, bid⟩ := valid.entryValue_some (by decide : 132 ∈ _)
    obtain ⟨bidQty, bid'⟩ := valid.entryValue_some (by decide : 134 ∈ _)
    obtain ⟨offerPx, offer⟩ := valid.entryValue_some (by decide : 133 ∈ _)
    obtain ⟨offerQty, offer'⟩ := valid.entryValue_some (by decide : 135 ∈ _)
    exact ⟨_, (valid.decodes same named).mpr ⟨level, quoteId, symbol, bidPx, bidQty, offerPx,
      offerQty, asked, root, entry, bid, bid', offer, offer', rfl⟩⟩
  · intro l same valid inbound
    exact valid.decodes same named

end

/-- A bid of 2.5 at 10.25, with custom fields in every part. -/
def bidOnly : FixMessage where
  beginString := "FIX.4.2"
  fields := [(35, "i"), (34, "2"), (49, "CLIENT"), (56, "GOX"), (52, "20260912-19:24:59.056"),
    (5001, "a"), (301, "2"), (117, "Q1"), (296, "1"), (302, "1"), (5002, "b"), (311, "AAA"),
    (304, "1"), (295, "1"), (299, "1"), (55, "AAA"), (132, "10.25"), (5003, "c"), (134, "2.5")]
  raw := ""

theorem mass_quote_layout_sample : ∃ l : QuoteLayout, l.fields = bidOnly.fields ∧
    l.Valid Dec96 ∧ (55, "AAA") ∈ l.entry ∧ EntryValue l.entry 132 (Dec96.literal 1025 2) ∧
    EntryValue l.entry 133 (0 : Dec96) := by
  have decoded : decode bidOnly = .ok (.ok (.massQuote "Q1" 2 "AAA" (Dec96.literal 1025 2)
      (Dec96.literal 25 1) (0 : Dec96) 0)) := by decide
  obtain ⟨accepted, values⟩ := mass_quote_layout (D := Dec96) bidOnly rfl
  obtain ⟨l, same, valid⟩ := accepted.mp ⟨_, decoded⟩
  obtain ⟨level, quoteId, symbol, bidPx, bidQty, offerPx, offerQty, -, -, listed, bid, -, offer, -,
    same'⟩ := (values l same valid _).mp decoded
  obtain ⟨rfl, rfl, rfl, rfl, rfl, rfl, rfl⟩ := Inbound.massQuote.inj same'
  exact ⟨l, same, valid, listed, bid, offer⟩

end RustTrader.Fix
