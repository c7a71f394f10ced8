import RustTrader.Fix.Grammar

/-!
# The reader with its checks

The reader once more, as it would fail: every slice, subtraction and `unwrap` of
the source may have no value. On what a reader holds none of them fails, so this
reader is the one of `readMessage`.
-/

namespace RustTrader.Fix

/-- `bytes[low..high]`. -/
def slice (bytes : List UInt8) (low high : Nat) : Option (List UInt8) :=
  if low ≤ high ∧ high ≤ bytes.length then some ((bytes.take high).drop low) else none

/-- `a - b` on sizes. -/
def minus (a b : Nat) : Option Nat := if b ≤ a then some (a - b) else none

/-- `from_utf8(bytes).unwrap()`, which is only used on ASCII bytes. -/
def utf8 (bytes : List UInt8) : Option String :=
  if bytes.all (fun b => b ≤ 127) then some (asciiText bytes) else none

def checkedSize (pending : List UInt8) : Option (Except IoError (Option Nat)) :=
  match position pending with
  | none => some (frameSize.short pending)
  | some firstEnd => do
    match position (← slice pending (firstEnd + 1) pending.length) with
    | none => some (frameSize.short pending)
    | some relative =>
      let secondEnd := firstEnd + 1 + relative
      let beginField ← slice pending 0 firstEnd
      if !startsWith "8=" beginField || beginField.length ≤ 2 then
        return .error (invalid "expected 8=BeginString")
      let length ← slice pending (firstEnd + 1) secondEnd
      if !startsWith "9=" length || length.length ≤ 2 then
        return .error (invalid "expected numeric 9=BodyLength")
      let digits ← slice length 2 length.length
      if !digits.all isDigitByte then
        return .error (invalid "expected numeric 9=BodyLength")
      match Numeral.parseUnsigned (2 ^ 64) (← utf8 digits) with
      | none => return .error (invalid "bad BodyLength")
      | some bodyLen =>
        if maxMessageSize < secondEnd + 1 + bodyLen + 7 then
          return .error (invalid "FIX message exceeds maximum size")
        if bodyLen < 5 then return .error (invalid "BodyLength too small")
        return .ok (some (secondEnd + 1 + bodyLen + 7))

def checkedParse (wire : List UInt8) : Option (Except IoError FixMessage) := do
  if !wire.all (fun b => b == soh || (32 ≤ b && b ≤ 126)) then
    return .error (invalid "only ASCII FIX fields are supported")
  let some beginEnd := position wire | return .error broken
  let some relative := position (← slice wire (beginEnd + 1) wire.length) | return .error broken
  let lengthEnd := beginEnd + 1 + relative
  let checksumStart ← minus wire.length 7
  let trailer ← slice wire checksumStart wire.length
  if (← slice trailer 0 3) ≠ wireBytes "10=" then
    return .error (invalid "expected three-digit CheckSum after body")
  if (← trailer[6]?) ≠ soh then
    return .error (invalid "expected three-digit CheckSum after body")
  let digits ← slice trailer 3 6
  if !digits.all isDigitByte then
    return .error (invalid "expected three-digit CheckSum after body")
  let actual := (← slice wire 0 checksumStart).foldl (fun sum b => sum + b) (0 : UInt8)
  let declared ← Numeral.parseUnsigned (2 ^ 16) (← utf8 digits)
  if declared ≠ actual.toNat then return .error (invalid "CheckSum mismatch")
  let body ← slice wire (lengthEnd + 1) checksumStart
  if !startsWith "35=" body || body.getLast? ≠ some soh then
    return .error (invalid "MsgType must be third field and body must end with SOH")
  match parseFields body with
  | .error err => return .error err
  | .ok fields =>
    if fields.any (fun field => field.1 == 8 || field.1 == 9 || field.1 == 10) then
      return .error (invalid "framing fields inside FIX body")
    let name ← slice wire 2 beginEnd
    return .ok ⟨asciiText name, fields, asciiText wire⟩

namespace FrameReader

def checkedMeasure (reader : FrameReader) : Option (Except IoError FrameReader) :=
  match reader.total with
  | some _ => some (.ok reader)
  | none => do
    let total ← checkedSize reader.pending
    pure (total.map (fun total => { reader with total := total }))

def checkedWant (reader : FrameReader) : Option Nat :=
  match reader.total with
  | some n => do
    let missing ← minus n reader.pending.length
    pure (min missing 8192)
  | none => some 1

end FrameReader

def checkedRead : List (Framing.Event Interruption) → FrameReader → List UInt8 →
    Option (ReadResult × FrameReader × List UInt8 × List (Framing.Event Interruption))
  | script, reader, data => do
    match ← reader.checkedMeasure with
    | .error err => pure (some (.error err), reader, data, script)
    | .ok reader =>
      if reader.total = some reader.pending.length then
        match ← checkedParse reader.pending with
        | .error err => pure (some (.error err), reader, data, script)
        | .ok message => pure (some (.ok (some message)), FrameReader.new, data, script)
      else
        let want ← reader.checkedWant
        match script with
        | [] => pure (none, reader, data, [])
        | .fail failure :: script =>
          if failure = .interrupted then checkedRead script reader data
          else pure (some (.error ⟨failure.kind, ""⟩), reader, data, script)
        | .piece spare :: script =>
          let piece := data.take (min (spare + 1) want)
          let ended := if reader.pending = [] then .ok none else .error broken
          if piece = [] then
            pure (some ended, reader, data, script)
          else
            checkedRead script ⟨reader.pending ++ piece, reader.total⟩ (data.drop piece.length)

theorem slice_some {bytes : List UInt8} {low high : Nat} (h : low ≤ high)
    (h' : high ≤ bytes.length) : slice bytes low high = some ((bytes.take high).drop low) :=
  if_pos ⟨h, h'⟩

theorem minus_some {a b : Nat} (h : b ≤ a) : minus a b = some (a - b) := if_pos h

theorem utf8_digits {bytes : List UInt8} (h : bytes.all isDigitByte = true) :
    utf8 bytes = some (asciiText bytes) := by
  have small : bytes.all (fun b => b ≤ 127) = true := by
    rw [List.all_eq_true] at h ⊢
    intro b hb
    have range := digit_byte_range (h b hb)
    rw [decide_eq_true_eq, UInt8.le_iff_toNat_le]
    exact range.2.trans (by decide)
  exact if_pos small

theorem slice_from {bytes : List UInt8} {low : Nat} (h : low ≤ bytes.length) :
    slice bytes low bytes.length = some (bytes.drop low) := by
  rw [slice_some h le_rfl, List.take_length]

theorem slice_to {bytes : List UInt8} {high : Nat} (h : high ≤ bytes.length) :
    slice bytes 0 high = some (bytes.take high) := slice_some (Nat.zero_le _) h

theorem position_lt {bytes : List UInt8} {n : Nat} (h : position bytes = some n) :
    n < bytes.length := by
  obtain ⟨before, after, rfl, -, rfl⟩ := position_some h
  rw [List.length_append, List.length_cons]
  omega

theorem checkedSize_eq (pending : List UInt8) :
    checkedSize pending = some (frameSize pending) := by
  unfold checkedSize frameSize
  cases first : position pending with
  | none => rfl
  | some firstEnd =>
    have inside := position_lt first
    simp only [slice_from (Nat.succ_le_of_lt inside), Option.bind_eq_bind, Option.bind_some]
    cases second : position (pending.drop (firstEnd + 1)) with
    | none => rfl
    | some relative =>
      have inside' := position_lt second
      rw [List.length_drop] at inside'
      have whole : firstEnd + 1 + relative ≤ pending.length := by omega
      simp only [slice_to inside.le, slice_some (Nat.le_add_right (firstEnd + 1) relative) whole,
        Option.bind_some]
      generalize (pending.take (firstEnd + 1 + relative)).drop (firstEnd + 1) = length
      split
      · rfl
      by_cases shape : (!startsWith "9=" length || decide (length.length ≤ 2)) = true
      · rw [if_pos shape, if_pos (by rw [shape]; rfl)]
        rfl
      rw [if_neg shape]
      have long : 2 ≤ length.length := by
        simp only [Bool.or_eq_true, decide_eq_true_eq, not_or] at shape
        omega
      rw [slice_from long]
      by_cases digits : (length.drop 2).all isDigitByte = true
      · simp only [Option.bind_some, utf8_digits digits, digits, Bool.not_true, Bool.or_false,
          if_neg shape, Bool.false_eq_true, if_false]
        cases Numeral.parseUnsigned (2 ^ 64) (asciiText (length.drop 2)) with
        | none => rfl
        | some bodyLen =>
          dsimp only
          split
          · rfl
          split <;> rfl
      · simp only [Bool.not_eq_true] at digits
        simp only [Option.bind_some, digits, Bool.not_false, Bool.or_true, if_true]
        rfl

theorem digitsNumber_lt {bytes : List UInt8} (h : bytes.all isDigitByte = true) :
    digitsNumber bytes < 10 ^ bytes.length := by
  have from_ : ∀ (bytes : List UInt8) (start : Nat), bytes.all isDigitByte = true →
      bytes.foldl (fun n b => 10 * n + (b.toNat - 48)) start < (start + 1) * 10 ^ bytes.length := by
    intro bytes
    induction bytes with
    | nil =>
      intro start _
      simp
    | cons b bytes ih =>
      intro start digits
      rw [List.all_cons, Bool.and_eq_true] at digits
      have range := digit_byte_range digits.1
      rw [List.foldl_cons, List.length_cons, Nat.pow_succ']
      refine (ih _ digits.2).trans_le ?_
      rw [← Nat.mul_assoc]
      refine Nat.mul_le_mul_right _ ?_
      omega
  have bound := from_ bytes 0 h
  rwa [Nat.zero_add, Nat.one_mul] at bound

/-- The slices of a trailer of seven bytes. -/
theorem trailer_slices {trailer : List UInt8} (seven : trailer.length = 7) :
    slice trailer 0 3 = some (trailer.take 3) ∧ slice trailer 3 6 = some ((trailer.take 6).drop 3) ∧
      trailer[6]? = trailer.getLast? ∧
      startsWith "10=" trailer = decide (trailer.take 3 = wireBytes "10=") := by
  refine ⟨slice_to (by omega), slice_some (by omega) (by omega), ?_, ?_⟩
  · rw [List.getLast?_eq_getElem?, seven]
  · rw [Bool.eq_iff_iff, startsWith, List.isPrefixOf_iff_prefix, decide_eq_true_eq,
      List.prefix_iff_eq_take]
    exact eq_comm

/-- A measured frame has two leading fields, and seven bytes after them. -/
theorem measured_cuts {wire : List UInt8} (known : frameSize wire = .ok (some wire.length)) :
    ∃ beginEnd relative, position wire = some beginEnd ∧
      position (wire.drop (beginEnd + 1)) = some relative ∧ 2 ≤ beginEnd ∧
      beginEnd + 1 + relative + 1 ≤ wire.length - 7 ∧ 7 ≤ wire.length := by
  obtain ⟨begin_, length, rest, rfl, nonempty, inner, numeral, long, size, -⟩ :=
    frameSize_some.mp known
  have whole := leading_header begin_ length rest
  have front := leading_length begin_ length
  have two : (wireBytes "8=").length = 2 := rfl
  refine ⟨(wireBytes "8=" ++ begin_).length, (wireBytes "9=" ++ length).length, ?_, ?_, ?_, ?_, ?_⟩
  · rw [whole]
    exact header_position (soh_not_mem_first inner) _ _
  · rw [whole, header_drop]
    exact position_append (soh_not_mem_second numeral) _
  · rw [List.length_append]
    omega
  · omega
  · omega

/-- Three digits read the same with and without a bound. -/
theorem declared_checked {digits : List UInt8} (numeral : digits.all isDigitByte = true)
    (three : digits.length = 3) :
    Numeral.parseUnsigned (2 ^ 16) (asciiText digits) = some (digitsNumber digits) ∧
      Numeral.parseNat (asciiText digits) = some (digitsNumber digits) := by
  have numeral' : Digits digits := by
    refine ⟨?_, List.all_eq_true.mp numeral⟩
    rintro rfl
    cases three
  have small : digitsNumber digits < 2 ^ 16 := by
    have bound := digitsNumber_lt numeral
    rw [three] at bound
    omega
  exact ⟨by rw [parseUnsigned_ascii numeral', if_pos small], parseNat_ascii numeral'⟩

/-- A frame that has been measured is long enough for every slice of the parser. -/
theorem checkedParse_eq {wire : List UInt8} (known : frameSize wire = .ok (some wire.length)) :
    checkedParse wire = some (parseWire wire) := by
  obtain ⟨beginEnd, relative, begin_end, length_end, two, ends, seven⟩ := measured_cuts known
  have closing := Nat.sub_le wire.length 7
  have start : beginEnd + 1 ≤ wire.length := by omega
  have room : (wire.drop (wire.length - 7)).length = 7 := by
    rw [List.length_drop]
    omega
  obtain ⟨mark, number, last, marked⟩ := trailer_slices room
  have name : slice wire 2 beginEnd = some ((wire.take beginEnd).drop 2) :=
    slice_some two (by omega)
  obtain ⟨closer, hcloser⟩ : ∃ closer, (wire.drop (wire.length - 7)).getLast? = some closer := by
    rw [← Option.isSome_iff_exists, Option.isSome_iff_ne_none, ne_eq, List.getLast?_eq_none_iff]
    intro none_
    rw [none_] at room
    cases room
  unfold checkedParse parseWire
  split
  · rfl
  simp only [begin_end, length_end, Option.bind_eq_bind, slice_from start, minus_some seven,
    slice_from closing, mark, number, last, marked, slice_to closing, slice_some ends closing, name,
    hcloser, Option.bind_some]
  generalize wire.drop (wire.length - 7) = trailer at room ⊢
  generalize (wire.take (wire.length - 7)).drop (beginEnd + 1 + relative + 1) = body
  by_cases h₁ : trailer.take 3 = wireBytes "10="
  case neg => simp only [h₁, ne_eq, not_false_eq_true, decide_false, Bool.not_false, Bool.true_or,
    if_true]; rfl
  by_cases h₂ : closer = soh
  case neg => simp only [h₁, h₂, ne_eq, not_false_eq_true, not_true_eq_false, decide_true,
    Option.some.injEq, Bool.or_true, Bool.true_or, if_true, if_false]; rfl
  cases h₃ : ((trailer.take 6).drop 3).all isDigitByte with
  | false =>
    simp only [h₁, h₂, ne_eq, not_true_eq_false, Bool.not_false, Bool.or_true, if_true, if_false]
    rfl
  | true =>
    have three : ((trailer.take 6).drop 3).length = 3 := by
      rw [List.length_drop, List.length_take, room]
      rfl
    obtain ⟨bounded, unbounded⟩ := declared_checked h₃ three
    simp only [h₁, h₂, utf8_digits h₃, bounded, unbounded, ne_eq, not_true_eq_false, decide_true,
      decide_false, Bool.not_true, Bool.or_false, Bool.false_eq_true, if_false, Option.bind_some,
      Option.some.injEq]
    split
    · rfl
    split
    · rfl
    cases parseFields body with
    | error err => rfl
    | ok fields =>
      change (if _ then _ else _) = some (if _ then _ else _)
      split <;> rfl

theorem checkedMeasure_eq (reader : FrameReader) : reader.checkedMeasure = some reader.measure := by
  unfold FrameReader.checkedMeasure FrameReader.measure
  cases reader.total with
  | some n => rfl
  | none =>
    dsimp only
    rw [checkedSize_eq]
    cases frameSize reader.pending <;> rfl

theorem checkedWant_eq {reader : FrameReader} (measured : reader.Measured)
    (fine : Fine reader.pending) : reader.checkedWant = some reader.want := by
  unfold FrameReader.checkedWant FrameReader.want
  cases known : reader.total with
  | none => rfl
  | some n =>
    have within := fine.within n (measured n known)
    simp only [minus_some within]
    rfl

/-- Before its source is asked, a call has failed nowhere: it is over, or it waits. -/
inductive Started (script : List (Framing.Event Interruption)) (reader : FrameReader)
    (data : List UInt8) : Prop
  | done (same : checkedRead script reader data = some (readMessage script reader data)) :
      Started script reader data
  | awaits (next : FrameReader) (pending : next.pending = reader.pending)
      (measured : next.Measured)
      (limit : pollFrame reader.pending = .want next.want)
      (checked : checkedRead script reader data = (do
        let want ← next.checkedWant
        match script with
        | [] => pure (none, next, data, [])
        | .fail failure :: script =>
          if failure = .interrupted then checkedRead script next data
          else pure (some (.error ⟨failure.kind, ""⟩), next, data, script)
        | .piece spare :: script =>
          let piece := data.take (min (spare + 1) want)
          let ended := if next.pending = [] then .ok none else .error broken
          if piece = [] then
            pure (some ended, next, data, script)
          else
            checkedRead script ⟨next.pending ++ piece, next.total⟩ (data.drop piece.length)))
      (plain : readMessage script reader data = awaitData script next data) :
      Started script reader data

theorem started (script : List (Framing.Event Interruption)) {reader : FrameReader}
    (data : List UInt8) (measured : reader.Measured) : Started script reader data := by
  have here := checkedMeasure_eq reader
  rcases measure_cases measured with ⟨err, hm, size⟩ | ⟨total, hm, size⟩ <;> rw [hm] at here
  · refine .done ?_
    rw [checkedRead.eq_def, readMessage.eq_def]
    simp only [here, hm, Option.bind_eq_bind, Option.bind_some]
    rfl
  · by_cases full : total = some reader.pending.length
    · refine .done ?_
      rw [full] at size
      rw [checkedRead.eq_def, readMessage.eq_def]
      simp only [here, hm, full, if_true, Option.bind_eq_bind, Option.bind_some,
        checkedParse_eq size]
      cases parseWire reader.pending <;> rfl
    · refine .awaits { reader with total := total } rfl ?_ ?_ ?_ ?_
      · rintro n rfl
        exact size
      · rw [pollFrame, size]
        cases total with
        | none => rfl
        | some n =>
          have open_ : n ≠ reader.pending.length := fun same => full (congrArg some same)
          simp only [open_, if_false]
          rfl
      · rw [checkedRead.eq_def]
        simp only [here, full, if_false, Option.bind_eq_bind, Option.bind_some]
      · rw [readMessage.eq_def]
        simp only [hm, full, if_false]
        rfl

/-- Nothing in a call can fail, on any data and whatever its source does. -/
theorem checkedRead_eq (script : List (Framing.Event Interruption)) :
    ∀ {reader : FrameReader} (data : List UInt8), reader.Measured → Fine reader.pending →
      checkedRead script reader data = some (readMessage script reader data) := by
  induction script with
  | nil =>
    intro reader data measured fine
    cases started [] data measured with
    | done same => exact same
    | awaits next pending measured' limit checked plain =>
      rw [checked, plain, checkedWant_eq measured' (pending ▸ fine)]
      rfl
  | cons event script ih =>
    intro reader data measured fine
    cases started (event :: script) data measured with
    | done same => exact same
    | awaits next pending measured' limit checked plain =>
      have fine' : Fine next.pending := pending ▸ fine
      rw [checked, plain, checkedWant_eq measured' fine']
      cases event with
      | fail failure =>
        rw [awaitData]
        by_cases again : failure = .interrupted
        · simp only [again, if_true, Option.bind_eq_bind, Option.bind_some]
          exact ih data measured' fine'
        · simp only [again, if_false, Option.bind_eq_bind, Option.bind_some]
          rfl
      | piece spare =>
        rw [awaitData]
        simp only [Option.bind_eq_bind, Option.bind_some]
        by_cases empty : data.take (min (spare + 1) next.want) = []
        · simp only [empty, if_true]
          rfl
        · simp only [empty, if_false]
          have short : (data.take (min (spare + 1) next.want)).length ≤ next.want :=
            (List.length_take_le _ _).trans (min_le_right _ _)
          rw [← pending] at limit
          refine ih _ ?_ (fine_holds next.pending next.want _ fine' limit empty short)
          intro n known
          exact frameSize_append (measured' n known) _

/-- On any data a fresh reader fails nowhere, and where its source lets it end
it accepts exactly the frames. -/
theorem reader_accepts_frames (data : List UInt8) (script : List (Framing.Event Interruption)) :
    checkedRead script FrameReader.new data = some (readMessage script FrameReader.new data) ∧
      (Reliable script data → ∃ result reader left events,
        readMessage script FrameReader.new data = (some result, reader, left, events) ∧
          Verdict data result reader left) :=
  ⟨checkedRead_eq script data nofun fine_nil, fresh_verdict⟩

/-- A heartbeat whose length is spelled with leading zeros, and the start of
another frame. -/
def paddedHeartbeat : List UInt8 :=
  wireBytes "8=FIX.4.2\x019=005\x0135=0\x0110=001\x018=F"

/-- A source that hands out four bytes at most. -/
def bySmallPieces : List (Framing.Event Interruption) := List.replicate 40 (.piece 3)

theorem reader_accepts_frames_sample : ∃ message reader left events,
    readMessage bySmallPieces FrameReader.new paddedHeartbeat =
      (some (.ok (some message)), reader, left, events) ∧
    ∃ frame rest, paddedHeartbeat = frame ++ rest ∧ Framed frame message ∧ left = rest := by
  have reliable : Reliable bySmallPieces paddedHeartbeat := ⟨by decide +kernel, by decide +kernel⟩
  obtain ⟨result, reader, left, events, read, verdict⟩ :=
    (reader_accepts_frames paddedHeartbeat bySmallPieces).2 reliable
  have one : (received [(readMessage bySmallPieces FrameReader.new paddedHeartbeat).1]).length =
    1 := by
    decide +kernel
  rw [read] at one
  cases result with
  | error err => cases one
  | ok answer =>
    cases answer with
    | none => cases one
    | some message =>
      obtain ⟨frame, rest, same, framed⟩ := (verdict.message message).mp rfl
      exact ⟨message, reader, left, events, read, frame, rest, same, framed,
        (verdict.taken frame rest message same framed).2.1⟩

end RustTrader.Fix
