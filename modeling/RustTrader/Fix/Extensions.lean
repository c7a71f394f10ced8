import RustTrader.Fix.Profile
import RustTrader.Fix.Requests

/-!
# Fields without a meaning

A custom field adds nothing to a message: the walk over the tags steps over it,
and no decoder looks below its tag. Nor does the order of the fields matter
outside mass quotes. A tag given twice is refused wherever it stands.
-/

namespace RustTrader.Fix

variable {D : Type} [Decimal D] [DecimalText D] {m m' : FixMessage}

/-- The messages show the same under every tag that is not a custom one. -/
def Same (m m' : FixMessage) : Prop := ∀ tag < 5000, m.get tag = m'.get tag

namespace Same

theorem get (h : Same m m') {tag : Nat} (small : tag < 5000) : m.get tag = m'.get tag :=
  h tag small

theorem need (h : Same m m') {tag : Nat} (small : tag < 5000) : m.need tag = m'.need tag := by
  rw [FixMessage.need, FixMessage.need, h tag small]

omit [Decimal D] in
theorem dec (h : Same m m') {tag : Nat} (small : tag < 5000) :
    (m.dec tag : Except String D) = m'.dec tag := by
  rw [FixMessage.dec, FixMessage.dec, h.need small]

theorem positive (h : Same m m') {tag : Nat} (small : tag < 5000) :
    (m.positive tag : Except String D) = m'.positive tag := by
  rw [FixMessage.positive, FixMessage.positive, h.dec small]

omit [Decimal D] in
theorem optionalDec (h : Same m m') {tag : Nat} (small : tag < 5000) (default : D) :
    m.optionalDec tag default = m'.optionalDec tag default := by
  rw [FixMessage.optionalDec, FixMessage.optionalDec, h tag small]

theorem natural (h : Same m m') {tag : Nat} (small : tag < 5000) :
    m.natural tag = m'.natural tag := by
  rw [FixMessage.natural, FixMessage.natural, h.need small]

theorem boolean (h : Same m m') {tag : Nat} (small : tag < 5000) (default : Bool) :
    m.boolean tag default = m'.boolean tag default := by
  rw [FixMessage.boolean, FixMessage.boolean, h tag small]

theorem orderType (h : Same m m') : m.orderType = m'.orderType := by
  rw [FixMessage.orderType, FixMessage.orderType, h.need (by decide)]

theorem orderPrice (h : Same m m') (orderType : OrderType) :
    (m.orderPrice orderType : Except String D) = m'.orderPrice orderType := by
  rw [FixMessage.orderPrice, FixMessage.orderPrice, h.positive (by decide),
    h.optionalDec (by decide)]

theorem side (h : Same m m') : m.side = m'.side := by
  rw [FixMessage.side, FixMessage.side, h.need (by decide)]

theorem quoteValue (h : Same m m') {tag : Nat} (small : tag < 5000) :
    (m.quoteValue tag : Except String D) = m'.quoteValue tag := by
  rw [FixMessage.quoteValue, FixMessage.quoteValue, h.optionalDec small]

theorem lastField (h : Same m m') {tag : Nat} (small : tag < 5000) (isFill : Bool) :
    (Fix.lastField m isFill tag : Except String D) = Fix.lastField m' isFill tag := by
  rw [Fix.lastField, Fix.lastField, h.positive small, h.optionalDec small]

theorem decodeRequest (h : Same m m') (kind : String) :
    (Fix.decodeRequest m kind : Except String (Inbound D)) = Fix.decodeRequest m' kind := by
  have text := h 58 (by decide)
  unfold Fix.decodeRequest
  split
  · rw [decodeLogon, decodeLogon, h.need (by decide), h.boolean (by decide), h.natural (by decide)]
  · rfl
  · rw [h.need (by decide)]
  · rw [decodeResendRequest, decodeResendRequest, h.natural (by decide), h.natural (by decide)]
  · rw [h.natural (by decide), text]
  · rw [decodeSequenceReset, decodeSequenceReset, h.natural (by decide), h.boolean (by decide)]
  · rfl
  · simp only [decodeNewOrderSingle, h.orderType, h.need, h.side, h.orderPrice, h.positive,
      Nat.reduceLT]
  · simp only [decodeCancelRequest, h.get, h.need, h.side, h.positive, Nat.reduceLT]
  · simp only [decodeCancelReplace, h.orderType, h.need, h.side, h.orderPrice, h.positive,
      Nat.reduceLT]
  · simp only [decodeCancelReject, h.need, text, Nat.reduceLT]
  · simp only [decodeMassQuote, h.get, h.need, h.quoteValue, Nat.reduceLT]
  · simp only [decodeSecurityDefinition, h.need, h.natural, Nat.reduceLT]
  · rw [h.natural (by decide), text]
  · simp only [decodeQuoteAcknowledgement, h.get, h.need, Nat.reduceLT]
  · rfl

theorem decodeExecutionReport (h : Same m m') :
    (Fix.decodeExecutionReport m : Exec (Except String (Inbound D))) =
      Fix.decodeExecutionReport m' := by
  have fields : (reportFields m : Except String (ExecReportData D × Option D × D)) =
      reportFields m' := by
    simp only [reportFields, h.get, h.need, h.dec, h.lastField, h.side, h.optionalDec,
      Nat.reduceLT]
  rw [Fix.decodeExecutionReport, Fix.decodeExecutionReport, fields]

theorem validateHandling (h : Same m m') (kind : String) :
    Fix.validateHandling m kind = Fix.validateHandling m' kind := by
  rw [Fix.validateHandling, Fix.validateHandling, h 21 (by decide), h 59 (by decide)]

theorem validateTransactTime [Chrono] (h : Same m m') :
    Fix.validateTransactTime m = Fix.validateTransactTime m' := by
  rw [Fix.validateTransactTime, Fix.validateTransactTime, h 60 (by decide)]

end Same

/-- A message is decoded to a value when its kind is unchecked or its fields
pass the checks of the kind. -/
theorem decode_iff [Chrono] {inbound : Inbound D} : decode m = .ok (.ok inbound) ↔
    ∃ kind, m.msgType = some kind ∧
      (∀ required, requiredFields kind = some required → Profiled m kind required) ∧
      (if kind = "8" then decodeExecutionReport m else pure (decodeRequest m kind)) =
        .ok (.ok inbound) := by
  unfold decode
  cases named : m.msgType with
  | none =>
    constructor
    · intro h
      cases h
    · rintro ⟨kind, same, -⟩
      cases same
  | some kind =>
    have checked : validateProfile m kind = .ok () ↔ ∀ required,
        requiredFields kind = some required → Profiled m kind required := by
      cases known : requiredFields kind with
      | none => simp [validateProfile, known]
      | some required =>
        rw [validateProfile_iff known]
        simp
    dsimp only
    cases valid : validateProfile m kind with
    | error err =>
      constructor
      · intro h
        cases h
      · rintro ⟨kind', same, profiled, -⟩
        cases same
        rw [checked.mpr profiled] at valid
        cases valid
    | ok done =>
      constructor
      · intro h
        exact ⟨kind, rfl, checked.mp valid, h⟩
      · rintro ⟨kind', same, -, h⟩
        cases same
        exact h

/-- Messages that show the same are decoded alike where both pass the checks. -/
theorem decode_same [Chrono] (same : Same m m')
    (profiled : ∀ kind required, m.msgType = some kind → requiredFields kind = some required →
      Profiled m kind required → Profiled m' kind required) {inbound : Inbound D}
    (h : decode m = .ok (.ok inbound)) : decode m' = .ok (.ok inbound) := by
  obtain ⟨kind, named, checked, read⟩ := decode_iff.mp h
  refine decode_iff.mpr ⟨kind, ?_, ?_, ?_⟩
  · rw [FixMessage.msgType, ← same 35 (by decide)]
    exact named
  · intro required known
    exact profiled kind required named known (checked required known)
  · rw [← same.decodeExecutionReport, ← same.decodeRequest]
    exact read

/-- Where a delimiter is due: in a body, right after a group count of a mass
quote. -/
theorem scopeField_delays {kind : String} {scope after : Scope} {tag : Nat}
    (started : scope.needsDelimiter = true → scope.bodyStarted = true)
    (step : scopeField kind scope tag = .ok after) (delayed : after.needsDelimiter = true) :
    after.bodyStarted = true ∧ kind = "i" ∧ (tag = 296 ∨ tag = 295) := by
  by_cases header : tag ∈ headerTags
  · obtain ⟨early, rfl⟩ := (scopeField_header header).mp step
    rw [started delayed] at early
    cases early
  by_cases custom : 5000 ≤ tag
  · obtain ⟨-, rfl⟩ := (scopeField_custom custom).mp step
    cases delayed
  by_cases sets : kind = "i" ∧ tag = 296
  · obtain ⟨rfl, rfl⟩ := sets
    obtain rfl := scopeField_sets.mp step
    exact ⟨rfl, rfl, .inl rfl⟩
  · obtain ⟨-, -, position, -, -, rfl⟩ := (scopeField_known header (by omega) sets).mp step
    by_cases entries : kind = "i" ∧ tag = 295
    · rw [if_pos entries]
      exact ⟨rfl, entries.1, .inr entries.2⟩
    · rw [if_neg entries] at delayed
      cases delayed

/-- What the walk owes after some fields is owed to the last of them. -/
theorem walk_delays {kind : String} {tags : List Nat} {after : Scope}
    (walk : tags.foldlM (scopeField kind) ⟨false, 0, none, false⟩ = .ok after)
    (delayed : after.needsDelimiter = true) : after.bodyStarted = true ∧ kind = "i" ∧
      ∃ front tag, tags = front ++ [tag] ∧ (tag = 296 ∨ tag = 295) := by
  induction tags using List.reverseRecOn generalizing after with
  | nil =>
    obtain rfl := Except.ok.inj walk
    cases delayed
  | append_singleton front tag ih =>
    obtain ⟨mid, first, last⟩ := foldlM_append_ok.mp walk
    obtain ⟨_, step, ends⟩ := foldlM_cons_ok.mp last
    obtain rfl := Except.ok.inj ends
    obtain ⟨started, quotes, count⟩ :=
      scopeField_delays (fun delayed' => (ih first delayed').1) step delayed
    exact ⟨started, quotes, front, tag, rfl, count⟩

/-- Fields of the body do not ask whether they are the first. -/
theorem scopeField_started {kind : String} {scope : Scope} {tag : Nat} (body : tag ∉ headerTags) :
    scopeField kind { scope with bodyStarted := true } tag = scopeField kind scope tag := by
  unfold scopeField
  simp only [List.contains_iff_mem, body, if_false]

theorem walk_started {kind : String} {scope after : Scope} {tags : List Nat}
    (body : ∀ tag ∈ tags, tag ∉ headerTags)
    (walk : tags.foldlM (scopeField kind) scope = .ok after) :
    ∃ after', tags.foldlM (scopeField kind) { scope with bodyStarted := true } = .ok after' ∧
      after'.needsDelimiter = after.needsDelimiter := by
  cases tags with
  | nil =>
    obtain rfl := Except.ok.inj walk
    exact ⟨_, rfl, rfl⟩
  | cons tag tags =>
    rw [List.foldlM_cons, scopeField_started (body tag List.mem_cons_self)]
    exact ⟨after, walk, rfl⟩

/-- The walk steps over a custom field between two fields, unless a delimiter
is due there. -/
theorem scopes_custom {kind : String} {front back : List Nat} {tag : Nat} (custom : 5000 ≤ tag)
    (body : ∀ tag ∈ back, tag ∉ headerTags)
    (apart : kind = "i" → ∀ last, front.getLast? = some last → last ≠ 296 ∧ last ≠ 295)
    (valid : validateFieldScopes (front ++ back) kind = .ok ()) :
    validateFieldScopes (front ++ tag :: back) kind = .ok () := by
  unfold validateFieldScopes at valid ⊢
  obtain ⟨after, walk, done⟩ := bind_eq_ok.mp valid
  obtain ⟨mid, first, last⟩ := foldlM_append_ok.mp walk
  have free : mid.needsDelimiter = false := by
    cases delayed : mid.needsDelimiter with
    | false => rfl
    | true =>
      obtain ⟨-, quotes, front', count, rfl, which⟩ := walk_delays first delayed
      obtain ⟨sets, entries⟩ := apart quotes count List.getLast?_concat
      exact absurd which (not_or.mpr ⟨sets, entries⟩)
  obtain ⟨after', last', same⟩ := walk_started body last
  have step : scopeField kind mid tag = .ok { mid with bodyStarted := true } := by
    rw [scopeField_custom custom, ← free]
    exact ⟨rfl, rfl⟩
  refine bind_eq_ok.mpr ⟨after', ?_, ?_⟩
  · exact foldlM_append_ok.mpr ⟨mid, first, foldlM_cons_ok.mpr ⟨_, step, last'⟩⟩
  · rw [same]
    exact done

theorem same_custom {field : Nat × String} {front back : Fields} (custom : 5000 ≤ field.1)
    (fields : m.fields = front ++ back) :
    Same m { m with fields := front ++ field :: back } := by
  intro tag small
  obtain ⟨begin_, _, raw⟩ := m
  cases fields
  exact (get_insert (by omega)).symm

theorem Profiled.custom [Chrono] {kind : String} {required : List Nat} {front back : Fields}
    {tag : Nat} {value : String} (h : Profiled m kind required)
    (fields : m.fields = front ++ back) (body : ∀ field ∈ back, field.1 ∉ headerTags)
    (custom : 5000 ≤ tag) (new : tag ∉ m.fields.map Prod.fst) (some_ : value ≠ "")
    (apart : kind = "i" → ∀ last, front.getLast? = some last → last.1 ≠ 296 ∧ last.1 ≠ 295) :
    Profiled { m with fields := front ++ (tag, value) :: back } kind required := by
  have same : Same m { m with fields := front ++ (tag, value) :: back } :=
    same_custom custom fields
  have more : (front ++ (tag, value) :: back).Perm ((tag, value) :: m.fields) := by
    rw [fields]
    exact List.perm_middle
  refine ⟨?_, ?_, ?_, ?_, ?_, ?_⟩
  · have scopes := h.scopes
    rw [fields, List.map_append] at scopes
    rw [List.map_append, List.map_cons]
    refine scopes_custom custom ?_ ?_ scopes
    · intro t ht
      obtain ⟨field, hfield, rfl⟩ := List.mem_map.mp ht
      exact body field hfield
    · intro quotes last hlast
      rw [List.getLast?_map] at hlast
      obtain ⟨field, hfield, rfl⟩ := Option.map_eq_some_iff.mp hlast
      exact apart quotes field hfield
  · exact ((more.map Prod.fst).nodup_iff).mpr (List.nodup_cons.mpr ⟨new, h.distinct⟩)
  · intro field hfield
    rcases List.mem_cons.mp (more.mem_iff.mp hfield) with rfl | hfield
    · refine ⟨some_, validEnumeration_plain ?_ value⟩
      intro mem
      simp only [List.mem_cons, List.not_mem_nil, or_false] at mem
      omega
    · exact h.values field hfield
  · intro t ht
    exact (more.map Prod.fst).mem_iff.mpr (List.mem_cons_of_mem _ (h.present t ht))
  · rw [← same.validateTransactTime]
    exact h.time
  · rw [← same.validateHandling]
    exact h.handling

theorem same_perm {fields : Fields} (distinct : (m.fields.map Prod.fst).Nodup)
    (perm : fields.Perm m.fields) : Same m { m with fields := fields } := by
  have distinct' : (fields.map Prod.fst).Nodup := (perm.map Prod.fst).nodup_iff.mpr distinct
  intro tag _
  apply Option.ext
  intro value
  rw [get_of_mem distinct, get_of_mem distinct']
  exact perm.mem_iff.symm

theorem Profiled.perm [Chrono] {kind : String} {required : List Nat} {header body : Fields}
    (h : Profiled m kind required) (flat : kind ≠ "i") (perm : (header ++ body).Perm m.fields)
    (headers : ∀ field ∈ header, field.1 ∈ headerTags)
    (bodies : ∀ field ∈ body, field.1 ∉ headerTags) :
    Profiled { m with fields := header ++ body } kind required := by
  have same : Same m { m with fields := header ++ body } := same_perm h.distinct perm
  refine ⟨?_, ?_, ?_, ?_, ?_, ?_⟩
  · obtain ⟨header', body', tags, headers', allowed⟩ := (scopes_flat flat).mp h.scopes
    refine (scopes_flat flat).mpr ⟨header.map Prod.fst, body.map Prod.fst,
      List.map_append, ?_, ?_⟩
    · intro tag htag
      obtain ⟨field, hfield, rfl⟩ := List.mem_map.mp htag
      exact headers field hfield
    · intro tag htag
      obtain ⟨field, hfield, rfl⟩ := List.mem_map.mp htag
      have there : field.1 ∈ header' ++ body' := by
        rw [← tags]
        exact List.mem_map_of_mem (perm.mem_iff.mp (List.mem_append_right _ hfield))
      rcases List.mem_append.mp there with known | known
      · exact absurd (headers' _ known) (bodies field hfield)
      · exact allowed _ known
  · exact (perm.map Prod.fst).nodup_iff.mpr h.distinct
  · intro field hfield
    exact h.values field (perm.mem_iff.mp hfield)
  · intro tag htag
    exact (perm.map Prod.fst).mem_iff.mpr (h.present tag htag)
  · rw [← same.validateTransactTime]
    exact h.time
  · rw [← same.validateHandling]
    exact h.handling

/-- A repeated tag is refused before anything is decoded. -/
theorem repeated_refused [Chrono] {kind : String} {required : List Nat} {front back : Fields}
    {tag : Nat} {value : String} (named : m.msgType = some kind)
    (known : requiredFields kind = some required) (fields : m.fields = front ++ back)
    (again : tag ∈ m.fields.map Prod.fst) (other : tag ≠ 35) :
    ∃ reason, decode { m with fields := front ++ (tag, value) :: back } =
      (.ok (.error reason) : Exec (Except String (Inbound D))) := by
  obtain ⟨begin_, _, raw⟩ := m
  cases fields
  have named' : (FixMessage.mk begin_ (front ++ (tag, value) :: back) raw).msgType = some kind := by
    rw [FixMessage.msgType, get_insert other]
    exact named
  unfold decode
  rw [named']
  dsimp only
  cases valid : validateProfile ⟨begin_, front ++ (tag, value) :: back, raw⟩ kind with
  | error reason => exact ⟨reason, rfl⟩
  | ok done =>
    have distinct := ((validateProfile_iff known).mp valid).distinct
    have more : (front ++ (tag, value) :: back).Perm ((tag, value) :: (front ++ back)) :=
      List.perm_middle
    have once := List.nodup_cons.mp ((more.map Prod.fst).nodup_iff.mp distinct)
    exact absurd again once.1

/-- Custom fields and the order of the fields leave what is decoded as it is,
and a tag given twice is refused. -/
theorem extensions_ignored [Chrono] (m : FixMessage) :
    (∀ (inbound : Inbound D) front back tag value, decode m = .ok (.ok inbound) →
      m.fields = front ++ back → (∀ field ∈ back, field.1 ∉ headerTags) → 5000 ≤ tag →
      tag ∉ m.fields.map Prod.fst → value ≠ "" →
      (m.msgType = some "i" →
        ∀ last, front.getLast? = some last → last.1 ≠ 296 ∧ last.1 ≠ 295) →
      decode { m with fields := front ++ (tag, value) :: back } = .ok (.ok inbound)) ∧
    (∀ (inbound : Inbound D) kind required header body header' body',
      decode m = .ok (.ok inbound) → m.msgType = some kind →
      requiredFields kind = some required → kind ≠ "i" → m.fields = header ++ body →
      (∀ field ∈ header, field.1 ∈ headerTags) → (∀ field ∈ body, field.1 ∉ headerTags) →
      header'.Perm header → body'.Perm body →
      decode { m with fields := header' ++ body' } = .ok (.ok inbound)) ∧
    ∀ kind required front back tag value, m.msgType = some kind →
      requiredFields kind = some required → m.fields = front ++ back →
      tag ∈ m.fields.map Prod.fst → tag ≠ 35 →
      ∃ reason, decode { m with fields := front ++ (tag, value) :: back } =
        (.ok (.error reason) : Exec (Except String (Inbound D))) := by
  refine ⟨?_, ?_, ?_⟩
  · intro inbound front back tag value decoded fields body custom new some_ apart
    refine decode_same (same_custom custom fields) ?_ decoded
    intro kind required named known h
    exact h.custom fields body custom new some_ fun quotes => apart (quotes ▸ named)
  · intro inbound kind required header body header' body' decoded named known flat fields headers
      bodies header_perm body_perm
    have perm : (header' ++ body').Perm m.fields := by
      rw [fields]
      exact header_perm.append body_perm
    have headers' : ∀ field ∈ header', field.1 ∈ headerTags :=
      fun field hfield => headers field (header_perm.mem_iff.mp hfield)
    have bodies' : ∀ field ∈ body', field.1 ∉ headerTags :=
      fun field hfield => bodies field (body_perm.mem_iff.mp hfield)
    obtain ⟨_, same, checked, -⟩ := decode_iff.mp decoded
    cases named.symm.trans same
    have profiled := checked required known
    refine decode_same (same_perm profiled.distinct perm) ?_ decoded
    intro kind' required' named' known' h
    cases named.symm.trans named'
    exact h.perm flat perm headers' bodies'
  · intro kind required front back tag value named known fields again other
    exact repeated_refused named known fields again other

/-- The limit order as its fields. -/
def orderHeader : Fields :=
  [(35, "D"), (34, "2"), (49, "CLIENT"), (56, "GOX"), (52, "20260912-19:24:59.056")]

def orderBody : Fields :=
  [(11, "007"), (21, "1"), (55, "AAA"), (54, "2"), (60, "20260912-19:24:59.056"), (40, "2"),
    (38, "2.5"), (44, "10.25")]

theorem extensions_ignored_sample :
    let order : FixMessage := ⟨"FIX.4.2", orderHeader ++ orderBody, ""⟩
    let inbound : Inbound Dec96 :=
      .newOrderSingle "007" "AAA" .sell .limit (Dec96.literal 1025 2) (Dec96.literal 25 1)
    decode { order with fields := orderHeader ++ (5001, "desk") :: orderBody } =
        .ok (.ok inbound) ∧
      decode { order with fields := orderHeader.reverse ++ orderBody.reverse } =
        .ok (.ok inbound) ∧
      ∃ reason, decode { order with fields := orderHeader ++ (44, "99") :: orderBody } =
        (.ok (.error reason) : Exec (Except String (Inbound Dec96))) := by
  intro order inbound
  have decoded : decode order = .ok (.ok inbound) := by decide +kernel
  obtain ⟨custom, perm, again⟩ := extensions_ignored (D := Dec96) order
  refine ⟨?_, ?_, ?_⟩
  · exact custom inbound orderHeader orderBody 5001 "desk" decoded rfl (by decide) (by decide)
      (by decide) (by decide) (fun quotes => absurd quotes (by decide))
  · exact perm inbound "D" [11, 21, 55, 54, 60, 40, 38] orderHeader orderBody _ _ decoded rfl rfl
      (by decide) rfl (by decide) (by decide) (List.reverse_perm _) (List.reverse_perm _)
  · exact again "D" [11, 21, 55, 54, 60, 40, 38] orderHeader orderBody 44 "99" rfl rfl rfl
      (by decide) (by decide)

end RustTrader.Fix
