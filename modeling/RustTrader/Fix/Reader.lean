import RustTrader.Fix.RoundTrip

/-!
# The reader as a resumable decoder

The reader caches the size of the frame it is in. The cache only saves work: a
call does what the decoder that measures the bytes it holds does, so the frames
sent are read one after the other however they arrive.
-/

namespace RustTrader.Fix

/-- What the reader does next, from the bytes it holds. -/
def pollFrame (pending : List UInt8) : Framing.Poll FixMessage :=
  match frameSize pending with
  | .error _ => .invalid
  | .ok none => .want 1
  | .ok (some n) =>
    if n = pending.length then
      match parseWire pending with
      | .error _ => .invalid
      | .ok message => .done message
    else .want (min (n - pending.length) 8192)

/-- What `frameSize` checks of the first two fields, `start` bytes in all. -/
def declaredSize (start : Nat) (first second : List UInt8) : Except IoError Nat :=
  if !startsWith "8=" first || first.length ≤ 2 then
    .error (invalid "expected 8=BeginString")
  else if !startsWith "9=" second || second.length ≤ 2 || !(second.drop 2).all isDigitByte then
    .error (invalid "expected numeric 9=BodyLength")
  else match Numeral.parseUnsigned (2 ^ 64) (asciiText (second.drop 2)) with
    | none => .error (invalid "bad BodyLength")
    | some bodyLen =>
      if maxMessageSize < start + bodyLen + 7 then
        .error (invalid "FIX message exceeds maximum size")
      else if bodyLen < 5 then .error (invalid "BodyLength too small")
      else .ok (start + bodyLen + 7)

theorem position_some {bytes : List UInt8} {n : Nat} (h : position bytes = some n) :
    ∃ before after, bytes = before ++ soh :: after ∧ soh ∉ before ∧ before.length = n := by
  obtain ⟨hn, found, earlier⟩ := List.findIdx?_eq_some_iff_getElem.mp h
  refine ⟨bytes.take n, bytes.drop (n + 1), ?_, ?_, ?_⟩
  · have here : bytes[n] = soh := by simpa using found
    rw [← here, ← List.drop_eq_getElem_cons hn, List.take_append_drop]
  · intro mem
    obtain ⟨i, hi, same⟩ := List.mem_iff_getElem.mp mem
    have small : i < n := (List.length_take_le n bytes).trans_lt' hi
    have different := earlier i small
    rw [List.getElem_take] at same
    simp [same] at different
  · rw [List.length_take]
    omega

theorem frameSize_header {first second : List UInt8} (h₁ : soh ∉ first) (h₂ : soh ∉ second)
    (rest : List UInt8) : frameSize (header first second rest) =
      (declaredSize (first.length + 1 + second.length + 1) first second).map some := by
  have here : position ((header first second rest).drop (first.length + 1)) =
      some second.length := by
    rw [header_drop]
    exact position_append h₂ _
  unfold frameSize declaredSize
  simp only [header_position h₁, here, header_take, header_second]
  split
  · rfl
  · split
    · rfl
    · cases Numeral.parseUnsigned (2 ^ 64) (asciiText (second.drop 2)) with
      | none => rfl
      | some bodyLen =>
        dsimp only
        split
        · rfl
        · split
          · rfl
          · rfl

/-- Either both fields are there, or the size is not known yet. -/
theorem header_cases (pending : List UInt8) :
    (∃ first second rest, pending = header first second rest ∧ soh ∉ first ∧ soh ∉ second) ∨
      frameSize pending = frameSize.short pending := by
  unfold frameSize
  cases h₁ : position pending with
  | none => exact .inr rfl
  | some firstEnd =>
    obtain ⟨first, after, rfl, outer, rfl⟩ := position_some h₁
    have dropped : (first ++ soh :: after).drop (first.length + 1) = after := by
      rw [List.drop_append, List.drop_eq_nil_of_le (by omega)]
      simp
    simp only [dropped]
    cases h₂ : position after with
    | none => exact .inr rfl
    | some relative =>
      obtain ⟨second, rest, rfl, inner, rfl⟩ := position_some h₂
      exact .inl ⟨first, second, rest, rfl, outer, inner⟩

/-- A known size stays as it is while bytes arrive. -/
theorem frameSize_append {pending : List UInt8} {n : Nat} (h : frameSize pending = .ok (some n))
    (more : List UInt8) : frameSize (pending ++ more) = .ok (some n) := by
  rcases header_cases pending with ⟨first, second, rest, rfl, h₁, h₂⟩ | short
  · rw [header_append, frameSize_header h₁ h₂, ← h, frameSize_header h₁ h₂]
  · rw [short, frameSize.short] at h
    split at h <;> cases h

/-- The cached size is the size measured. -/
def FrameReader.Measured (reader : FrameReader) : Prop :=
  ∀ n, reader.total = some n → frameSize reader.pending = .ok (some n)

theorem measured_fresh (pending : List UInt8) : FrameReader.Measured ⟨pending, none⟩ := by
  intro n known
  cases known

theorem measure_cases {reader : FrameReader} (h : reader.Measured) :
    (∃ err, reader.measure = .error err ∧ frameSize reader.pending = .error err) ∨
      ∃ total, reader.measure = .ok { reader with total := total } ∧
        frameSize reader.pending = .ok total := by
  unfold FrameReader.measure
  cases known : reader.total with
  | some n =>
    refine .inr ⟨some n, ?_, h n known⟩
    dsimp only
    rw [← known]
  | none =>
    cases size : frameSize reader.pending with
    | error err => exact .inl ⟨err, rfl, rfl⟩
    | ok total => exact .inr ⟨total, rfl, rfl⟩

/-- The part of a call that waits for its source. -/
def awaitData (script : List (Framing.Event Interruption)) (reader : FrameReader)
    (data : List UInt8) :
    ReadResult × FrameReader × List UInt8 × List (Framing.Event Interruption) :=
  match script with
  | [] => (none, reader, data, [])
  | .fail failure :: script =>
    if failure = .interrupted then readMessage script reader data
    else (some (.error ⟨failure.kind, ""⟩), reader, data, script)
  | .piece spare :: script =>
    let piece := data.take (min (spare + 1) reader.want)
    if piece = [] then
      (some (if reader.pending = [] then .ok none else .error broken), reader, data, script)
    else readMessage script { reader with pending := reader.pending ++ piece }
      (data.drop piece.length)

/-- What a call does with the bytes it holds. -/
inductive Polled (reader : FrameReader) : Framing.Poll FixMessage → Prop
  | done (m : FixMessage) (eq : ∀ script data, readMessage script reader data =
      (some (.ok (some m)), FrameReader.new, data, script)) : Polled reader (.done m)
  | invalid (err : IoError) (same : FrameReader) (pending : same.pending = reader.pending)
      (measured : same.Measured) (eq : ∀ script data, readMessage script reader data =
        (some (.error err), same, data, script)) : Polled reader .invalid
  | want (same : FrameReader) (pending : same.pending = reader.pending)
      (measured : same.Measured) (eq : ∀ script data, readMessage script reader data =
        awaitData script same data) : Polled reader (.want same.want)

theorem polled {reader : FrameReader} (h : reader.Measured) :
    Polled reader (pollFrame reader.pending) := by
  rcases measure_cases h with ⟨err, measured, size⟩ | ⟨total, measured, size⟩
  · have eq : ∀ script data, readMessage script reader data =
        (some (.error err), reader, data, script) := by
      intro script data
      rw [readMessage.eq_def]
      simp only [measured]
    rw [pollFrame, size]
    exact .invalid err reader rfl h eq
  · have known : FrameReader.Measured { reader with total := total } := by
      rintro n rfl
      exact size
    by_cases full : total = some reader.pending.length
    · rw [pollFrame, size, full]
      cases parsed : parseWire reader.pending with
      | error err =>
        simp only [if_true]
        refine .invalid err { reader with total := total } rfl known ?_
        intro script data
        rw [readMessage.eq_def]
        simp only [measured, full, if_true, parsed]
      | ok m =>
        simp only [if_true]
        refine .done m ?_
        intro script data
        rw [readMessage.eq_def]
        simp only [measured, full, if_true, parsed]
    · have eq : ∀ script data, readMessage script reader data =
          awaitData script { reader with total := total } data := by
        intro script data
        rw [readMessage.eq_def]
        simp only [measured, full, if_false]
        rfl
      have asks : pollFrame reader.pending =
          .want (FrameReader.want { reader with total := total }) := by
        rw [pollFrame, size]
        cases total with
        | none => rfl
        | some n =>
          have open_ : n ≠ reader.pending.length := fun same => full (congrArg some same)
          simp only [open_, if_false]
          rfl
      rw [asks]
      exact .want { reader with total := total } rfl known eq

/-- How the answers of the reader and of the decoder correspond. -/
inductive Answers : ReadResult → Framing.Result FixMessage Interruption → Prop
  | message (m : FixMessage) : Answers (some (.ok (some m))) (.message m)
  | ended : Answers (some (.ok none)) .ended
  | failed (failure : Interruption) :
      Answers (some (.error ⟨failure.kind, ""⟩)) (.failed failure)
  | truncated : Answers (some (.error broken)) .truncated
  | invalid (err : IoError) : Answers (some (.error err)) .invalid
  | waiting : Answers none .waiting

def retried (failure : Interruption) : Bool := failure = .interrupted

/-- A call answers as the decoder does and leaves the same. -/
structure Follows (out : ReadResult × FrameReader × List UInt8 × List (Framing.Event Interruption))
    (abstract : Framing.Result FixMessage Interruption × List UInt8 × List UInt8 ×
      List (Framing.Event Interruption)) : Prop where
  answers : Answers out.1 abstract.1
  pending : out.2.1.pending = abstract.2.1
  left : out.2.2 = abstract.2.2
  measured : out.2.1.Measured

theorem readMessage_follows (script : List (Framing.Event Interruption)) :
    ∀ {reader : FrameReader} (data : List UInt8), reader.Measured →
      Follows (readMessage script reader data)
        (Framing.read pollFrame retried script reader.pending data) := by
  induction script with
  | nil =>
    intro reader data measured
    have call := polled measured
    rw [Framing.read]
    generalize pollFrame reader.pending = next at call
    cases call with
    | done m eq =>
      rw [eq]
      exact ⟨.message m, rfl, rfl, measured_fresh _⟩
    | invalid err same pending measured' eq =>
      rw [eq]
      exact ⟨.invalid err, pending, rfl, measured'⟩
    | want same pending measured' eq =>
      rw [eq]
      exact ⟨.waiting, pending, rfl, measured'⟩
  | cons event script ih =>
    intro reader data measured
    have call := polled measured
    rw [Framing.read]
    generalize pollFrame reader.pending = next at call
    cases call with
    | done m eq =>
      rw [eq]
      exact ⟨.message m, rfl, rfl, measured_fresh _⟩
    | invalid err same pending measured' eq =>
      rw [eq]
      exact ⟨.invalid err, pending, rfl, measured'⟩
    | want same pending measured' eq =>
      rw [eq, ← pending]
      cases event with
      | fail failure =>
        rw [awaitData]
        by_cases again : failure = .interrupted
        · simp only [again, retried, decide_true, if_true]
          exact ih data measured'
        · simp only [again, retried, decide_false, Bool.false_eq_true, if_false]
          exact ⟨.failed failure, rfl, rfl, measured'⟩
      | piece spare =>
        rw [awaitData]
        dsimp only
        by_cases empty : data.take (min (spare + 1) same.want) = []
        · simp only [empty, if_true]
          by_cases between : same.pending = []
          · simp only [between, if_true]
            exact ⟨.ended, between, rfl, measured'⟩
          · simp only [between, if_false]
            exact ⟨.truncated, rfl, rfl, measured'⟩
        · simp only [empty, if_false]
          refine @ih { same with
            pending := same.pending ++ data.take (min (spare + 1) same.want) } _ ?_
          intro n known
          exact frameSize_append (measured' n known) _

/-- Successive calls answer as the decoder does. -/
theorem readMessages_follows (n : Nat) :
    ∀ {script : List (Framing.Event Interruption)} {reader : FrameReader} {data : List UInt8},
      reader.Measured →
      let out := readMessages n script reader data
      let abstract := Framing.calls pollFrame retried n script reader.pending data
      List.Forall₂ Answers out.1 abstract.1 ∧ out.2.1.pending = abstract.2.1 ∧
        out.2.2 = abstract.2.2 := by
  induction n with
  | zero =>
    intro script reader data _
    exact ⟨.nil, rfl, rfl⟩
  | succ n ih =>
    intro script reader data measured
    have first := readMessage_follows script data measured
    rcases here : readMessage script reader data with ⟨result, reader', data', script'⟩
    rcases there : Framing.read pollFrame retried script reader.pending data with
      ⟨abstract, held, data'', script''⟩
    rw [here, there] at first
    obtain ⟨answers, pending, left, measured'⟩ := first
    cases pending
    cases left
    obtain ⟨later, same⟩ := @ih script' _ data' measured'
    dsimp only
    rw [readMessages, Framing.calls, here, there]
    exact ⟨.cons answers later, same⟩

/-- The first two fields, if they are there, are short enough to be read. -/
def Early (bytes : List UInt8) : Prop :=
  ∀ first second rest, bytes = header first second rest → soh ∉ first → soh ∉ second →
    first.length + 1 + second.length + 1 ≤ maxPrefixSize

theorem cut_once {before before' after after' : List UInt8} (h : soh ∉ before)
    (h' : soh ∉ before') (same : before ++ soh :: after = before' ++ soh :: after') :
    before = before' ∧ after = after' := by
  have sizes := position_append h after
  rw [same, position_append h'] at sizes
  obtain ⟨rfl, rest⟩ := List.append_inj same (Option.some.inj sizes).symm
  exact ⟨rfl, (List.cons.inj rest).2⟩

theorem header_inj {first second rest first' second' rest' : List UInt8} (h₁ : soh ∉ first)
    (h₂ : soh ∉ second) (h₁' : soh ∉ first') (h₂' : soh ∉ second')
    (same : header first second rest = header first' second' rest') :
    first = first' ∧ second = second' ∧ rest = rest' := by
  obtain ⟨rfl, later⟩ := cut_once h₁ h₁' same
  exact ⟨rfl, cut_once h₂ h₂' later⟩

theorem early_header {first second rest : List UInt8} (h₁ : soh ∉ first) (h₂ : soh ∉ second) :
    Early (header first second rest) ↔ first.length + 1 + second.length + 1 ≤ maxPrefixSize := by
  constructor
  · exact fun early => early first second rest rfl h₁ h₂
  · intro short first' second' rest' same h₁' h₂'
    obtain ⟨rfl, rfl, -⟩ := header_inj h₁ h₂ h₁' h₂' same
    exact short

/-- Two fields have not both ended where the second is still open. -/
theorem frameSize_open {first second held : List UInt8} (h₁ : soh ∉ first) (h₂ : soh ∉ second)
    (part : held <+: first ++ soh :: second) : frameSize held = frameSize.short held := by
  rcases header_cases held with ⟨first', second', rest, rfl, -, -⟩ | short
  · have one : List.count soh (first ++ soh :: second) = 1 := by
      rw [List.count_append, List.count_cons_self, List.count_eq_zero.mpr h₁,
        List.count_eq_zero.mpr h₂]
    have few := part.sublist.count_le soh
    rw [one, header, List.count_append, List.count_cons_self, List.count_append,
      List.count_cons_self] at few
    omega
  · exact short

theorem header_concat (first second rest : List UInt8) :
    header first second rest = first ++ soh :: second ++ [soh] ++ rest := by
  simp [header]

/-- What can be measured early and parsed is read, whatever the pieces. -/
theorem frames_of {wire : List UInt8} {message : FixMessage}
    (known : frameSize wire = .ok (some wire.length)) (parsed : parseWire wire = .ok message)
    (early : Early wire) : Framing.Frames pollFrame wire message := by
  rcases header_cases wire with ⟨first, second, body, rfl, h₁, h₂⟩ | short
  · have short := (early_header h₁ h₂).mp early
    have size := known
    rw [frameSize_header h₁ h₂] at size
    have measured : ∀ rest, frameSize (header first second rest) =
        .ok (some (header first second body).length) := by
      intro rest
      rw [frameSize_header h₁ h₂, size]
    have asks : ∀ rest, (header first second rest).length < (header first second body).length →
        ∃ limit, pollFrame (header first second rest) = .want limit ∧ 0 < limit ∧
          (header first second rest).length + limit ≤ (header first second body).length := by
      intro rest shorter
      refine ⟨min ((header first second body).length - (header first second rest).length) 8192,
        ?_, ?_, ?_⟩
      · rw [pollFrame, measured]
        exact if_neg shorter.ne'
      · omega
      · omega
    refine ⟨by rw [header_concat]; simp, ?_, ?_⟩
    · intro held part open_
      have shorter : held.length < (header first second body).length :=
        lt_of_le_of_ne part.length_le (fun same => open_ (part.eq_of_length same))
      have front : first ++ soh :: second ++ [soh] <+: header first second body := by
        rw [header_concat]
        exact List.prefix_append _ _
      rcases List.prefix_or_prefix_of_prefix part front with before | ⟨rest, same⟩
      · rcases List.prefix_concat_iff.mp before with same | before
        · have here := header_concat first second []
          rw [List.append_nil, ← same] at here
          rw [← here] at shorter ⊢
          exact asks [] shorter
        · have few := before.length_le
          rw [List.length_append, List.length_cons] at few
          refine ⟨1, ?_, Nat.one_pos, shorter⟩
          rw [pollFrame, frameSize_open h₁ h₂ before, frameSize.short, if_neg (by omega)]
      · rw [← header_concat] at same
        rw [← same] at shorter ⊢
        exact asks rest shorter
    · rw [pollFrame, known]
      simp only [if_true, parsed]
  · rw [short, frameSize.short] at known
    split at known <;> cases known

theorem size_known (m : Outgoing) (fits : m.bytes.length ≤ maxMessageSize) (rest : List UInt8) :
    frameSize (header Outgoing.beginBytes m.lengthBytes rest) = .ok (some m.bytes.length) := by
  have length : m.bytes.length = Outgoing.beginBytes.length + 1 + m.lengthBytes.length + 1 +
      m.bodyBytes.length + 7 := by
    rw [m.bytes_header, header_length, List.length_append, m.trailer_length]
    omega
  have begins : startsWith "9=" m.lengthBytes = true := by
    rw [startsWith, List.isPrefixOf_iff_prefix]
    exact List.prefix_append _ _
  have digits : m.lengthBytes.drop 2 = wireBytes m.bodyBytes.length.repr := List.drop_left' rfl
  have all_digits : (wireBytes m.bodyBytes.length.repr).all isDigitByte = true := by
    rw [List.all_eq_true]
    exact repr_bytes _
  have more : ¬ m.lengthBytes.length ≤ 2 := by
    have some_ := List.length_pos_iff.mpr (value_repr m.bodyBytes.length).bytes_ne_nil
    rw [← digits, List.length_drop] at some_
    omega
  have large : ¬ m.bodyBytes.length < 5 := by
    have := m.body_long
    omega
  have small : m.bodyBytes.length < 2 ^ 64 := by
    unfold maxMessageSize at fits
    omega
  have first : (!startsWith "8=" Outgoing.beginBytes || Outgoing.beginBytes.length ≤ 2) = false :=
    by decide
  rw [frameSize_header (by decide) m.soh_not_mem_length, declaredSize, if_neg (by rw [first]; simp)]
  simp only [begins, digits, all_digits, more, Bool.not_true, decide_false, Bool.or_false,
    Bool.false_eq_true, if_false, asciiText_wireBytes (value_repr _).ascii,
    Numeral.parseUnsigned_repr small, ← length, if_neg (Nat.not_lt.mpr fits), large]
  rfl

theorem start_short (m : Outgoing) (fits : m.bytes.length ≤ maxMessageSize) :
    (Outgoing.beginBytes ++ soh :: m.lengthBytes).length < maxPrefixSize := by
  have small : m.bodyBytes.length < 10 ^ 7 := by
    have := congrArg List.length m.bytes_header
    rw [header_length, List.length_append] at this
    unfold maxMessageSize at fits
    omega
  have digits : (wireBytes m.bodyBytes.length.repr).length ≤ 7 := by
    rw [wireBytes_printable (value_repr _).printable, List.length_map, String.length_toList]
    exact (Nat.length_repr_le_iff (by decide)).mpr small
  have begin_ : Outgoing.beginBytes.length = 9 := rfl
  have tag : (wireBytes "9=").length = 2 := rfl
  simp only [List.length_append, List.length_cons, Outgoing.lengthBytes, begin_, tag,
    maxPrefixSize]
  omega

theorem frames (m : Outgoing) (fits : m.bytes.length ≤ maxMessageSize) :
    Framing.Frames pollFrame m.bytes m.message := by
  have known := size_known m fits (m.bodyBytes ++ m.trailer)
  have start := start_short m fits
  rw [← m.bytes_header] at known
  refine frames_of known m.message_parsed ?_
  rw [m.bytes_header, early_header (by decide) m.soh_not_mem_length]
  rw [List.length_append, List.length_cons] at start
  omega

/-- The messages among the answers. -/
def received (results : List ReadResult) : List FixMessage :=
  results.filterMap (fun r => match r with
    | some (.ok message) => message
    | _ => none)

/-- The errors among the answers. -/
def surfaced (results : List ReadResult) : List IoError :=
  results.filterMap (fun r => match r with
    | some (.error err) => some err
    | _ => none)

/-- The errors a source will report, those a call retries left out. -/
def timeouts (script : List (Framing.Event Interruption)) : List IoError :=
  (Framing.faults retried script).map (fun failure => ⟨failure.kind, ""⟩)

theorem answers_received {results : List ReadResult}
    {abstract : List (Framing.Result FixMessage Interruption)}
    (h : List.Forall₂ Answers results abstract) : received results = Framing.messages abstract := by
  induction h with
  | nil => rfl
  | cons first _ ih =>
    unfold received Framing.messages at ih ⊢
    rw [List.filterMap_cons, List.filterMap_cons, ih]
    cases first <;> rfl

theorem answers_surfaced {results : List ReadResult}
    {abstract : List (Framing.Result FixMessage Interruption)}
    (h : List.Forall₂ Answers results abstract)
    (sound : ∀ r ∈ abstract, r ≠ .truncated ∧ r ≠ .invalid) :
    surfaced results = (Framing.errors abstract).map (fun failure => ⟨failure.kind, ""⟩) := by
  induction h with
  | nil => rfl
  | @cons result answer _ _ first _ ih =>
    have later := ih (fun r hr => sound r (List.mem_cons_of_mem _ hr))
    have here := sound answer List.mem_cons_self
    unfold surfaced Framing.errors at later ⊢
    rw [List.filterMap_cons, List.filterMap_cons, later]
    cases first with
    | truncated => exact absurd rfl here.1
    | invalid err => exact absurd rfl here.2
    | message m => rfl
    | ended => rfl
    | failed failure => rfl
    | waiting => rfl

theorem answers_ended {results : List ReadResult}
    {abstract : List (Framing.Result FixMessage Interruption)}
    (h : List.Forall₂ Answers results abstract) :
    some (.ok none) ∈ results ↔ .ended ∈ abstract := by
  induction h with
  | nil => simp
  | cons first _ ih =>
    rw [List.mem_cons, List.mem_cons, ih]
    cases first <;> simp

/-- However the frames arrive, the messages sent are returned in order, no byte
is lost or read twice, and each timeout is an error of one call. -/
theorem frames_returned (sent : List Outgoing)
    (fits : ∀ m ∈ sent, m.bytes.length ≤ maxMessageSize)
    (script : List (Framing.Event Interruption)) (n : Nat) :
    let out := readMessages n script FrameReader.new (sent.flatMap Outgoing.bytes)
    (∃ before after, sent = before ++ after ∧ received out.1 = before.map Outgoing.message ∧
      out.2.1.pending ++ out.2.2.1 = after.flatMap Outgoing.bytes) ∧
    timeouts script = surfaced out.1 ++ timeouts out.2.2.2 ∧
    (some (.ok none) ∈ out.1 → received out.1 = sent.map Outgoing.message) ∧
    ((sent.flatMap Outgoing.bytes).length < Framing.pieces script →
      sent.length + (timeouts script).length < n → some (.ok none) ∈ out.1) := by
  have fresh : FrameReader.new.Measured := measured_fresh []
  obtain ⟨answers, pending, left⟩ :=
    @readMessages_follows n script _ (sent.flatMap Outgoing.bytes) fresh
  have empty : FrameReader.new.pending = [] := rfl
  rw [empty] at answers pending left
  have framed : ∀ f ∈ sent.map (fun m => (m.bytes, m.message)),
      Framing.Frames pollFrame f.1 f.2 := by
    intro f hf
    obtain ⟨m, hm, rfl⟩ := List.mem_map.mp hf
    dsimp only
    exact frames m (fits m hm)
  have bytes : ∀ l : List Outgoing, (l.map (fun m => (m.bytes, m.message))).flatMap Prod.fst =
      l.flatMap Outgoing.bytes := by
    intro l
    rw [List.flatMap_map]
  have start := Framing.positioned framed
  rw [bytes] at start
  obtain ⟨delivers, ends⟩ :=
    @Framing.calls_deliver _ _ _ _ retried ⟨1, rfl⟩ n _ script _ _ framed start
  intro out
  refine ⟨?_, ?_, ?_, ?_⟩
  · obtain ⟨before, after, hsent, messages, hleft⟩ := delivers.kept
    obtain ⟨before, after, rfl, rfl, rfl⟩ := List.map_eq_append_iff.mp hsent
    refine ⟨before, after, rfl, ?_, ?_⟩
    · rw [answers_received answers]
      refine messages.trans ?_
      rw [List.map_map]
      rfl
    · rw [pending, left]
      exact hleft.trans (bytes after)
  · rw [answers_surfaced answers delivers.sound, left, timeouts, timeouts, delivers.errors,
      List.map_append]
  · intro ended
    rw [answers_received answers]
    refine (delivers.finished ((answers_ended answers).mp ended)).trans ?_
    rw [List.map_map]
    rfl
  · intro enough many
    refine (answers_ended answers).mpr (ends enough ?_)
    rw [timeouts, List.length_map] at many
    rw [List.length_map]
    exact many

/-- The size of a frame beyond the limit is refused. -/
theorem size_refused (m : Outgoing) (large : maxMessageSize < m.bytes.length) :
    ∃ err, frameSize m.bytes = .error err := by
  have length : m.bytes.length = Outgoing.beginBytes.length + 1 + m.lengthBytes.length + 1 +
      m.bodyBytes.length + 7 := by
    rw [m.bytes_header, header_length, List.length_append, m.trailer_length]
    omega
  have digits : m.lengthBytes.drop 2 = wireBytes m.bodyBytes.length.repr := List.drop_left' rfl
  have value : Numeral.parseUnsigned (2 ^ 64) (asciiText (m.lengthBytes.drop 2)) = none ∨
      Numeral.parseUnsigned (2 ^ 64) (asciiText (m.lengthBytes.drop 2)) =
        some m.bodyBytes.length := by
    rw [digits, asciiText_wireBytes (value_repr _).ascii, Numeral.parseUnsigned_repr_eq]
    split
    · exact .inr rfl
    · exact .inl rfl
  rw [m.bytes_header, frameSize_header (by decide) m.soh_not_mem_length, declaredSize]
  split
  · exact ⟨_, rfl⟩
  · split
    · exact ⟨_, rfl⟩
    · rcases value with value | value
      · rw [value]
        exact ⟨_, rfl⟩
      · rw [value]
        dsimp only
        rw [← length, if_pos large]
        exact ⟨_, rfl⟩

/-- A frame beyond the limit is never read. -/
theorem oversized_unread (m : Outgoing) (large : maxMessageSize < m.bytes.length)
    (script : List (Framing.Event Interruption)) (n : Nat) :
    received (readMessages n script FrameReader.new m.bytes).1 = [] := by
  have fresh : FrameReader.new.Measured := measured_fresh []
  obtain ⟨answers, -, -⟩ := @readMessages_follows n script _ m.bytes fresh
  have empty : FrameReader.new.pending = [] := rfl
  rw [empty] at answers
  rw [answers_received answers]
  refine @Framing.calls_stuck _ _ _ _ _ m.bytes ?_ n _ _ _ (List.nil_append _)
  intro held part message done
  obtain ⟨err, refused⟩ := size_refused m large
  obtain ⟨rest, same⟩ := part
  unfold pollFrame at done
  cases size : frameSize held with
  | error err => simp only [size, reduceCtorEq] at done
  | ok total =>
    cases total with
    | none => simp only [size, reduceCtorEq] at done
    | some n =>
      -- a size once known stays, so the whole frame would have it
      have known := frameSize_append size rest
      rw [same, refused] at known
      cases known

/-- A test request and its identifier. -/
def testRequest : Outgoing where
  msgType := "1"
  seq := 7
  sender := "CLIENT"
  target := "GOX"
  now := "20260912-19:24:59.056"
  fields := [(112, "TEST=1")]
  msgType_value := by decide
  seq_lt := by decide
  sender_value := by decide
  target_value := by decide
  now_value := by decide
  body_fields := by
    intro field hfield
    obtain rfl := List.mem_singleton.mp hfield
    exact bodyField (by decide) (by decide)

/-- Two bytes at a time, with a timeout and an interruption in between. -/
def slowly : List (Framing.Event Interruption) :=
  List.replicate 30 (.piece 1) ++ [.fail .timedOut, .fail .interrupted] ++
    List.replicate 200 (.piece 1)

theorem frames_returned_sample :
    (∀ m ∈ [testRequest, testRequest], m.bytes.length ≤ maxMessageSize) ∧
    some (.ok none) ∈ (readMessages 4 slowly FrameReader.new
      ([testRequest, testRequest].flatMap Outgoing.bytes)).1 ∧
    received (readMessages 4 slowly FrameReader.new
      ([testRequest, testRequest].flatMap Outgoing.bytes)).1 =
        [testRequest.message, testRequest.message] := by
  have fits : ∀ m ∈ [testRequest, testRequest], m.bytes.length ≤ maxMessageSize := by
    decide +kernel
  obtain ⟨-, -, complete, ends⟩ := frames_returned [testRequest, testRequest] fits slowly 4
  have ended := ends (by decide +kernel) (by decide +kernel)
  exact ⟨fits, ended, complete ended⟩

end RustTrader.Fix
