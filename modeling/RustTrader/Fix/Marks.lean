import RustTrader.Fix.Outbound

/-!
# What the frames of a writer say

A peer that reads a frame of `writer_loop` gets back a message whose header it accepts.
A numbered message carries the next number; a sequence reset stands under a number that
was used before and goes no further than the next one.
-/

namespace RustTrader.Fix

variable {D : Type} [Decimal D]

theorem uniqueHeaderTag_only {message : FixMessage} {tag : Nat} {value : String}
    (some_ : value ≠ "") (only : message.fields.filter (fun field => field.1 == tag) =
      [(tag, value)]) : message.validateUniqueHeaderTag tag = .ok value := by
  unfold FixMessage.validateUniqueHeaderTag
  rw [only]
  exact if_neg some_

variable [Chrono]

theorem parseFixTimestamp_ok {now : String} (time : SendingTime now) :
    ∃ t, ∀ tag, parseFixTimestamp now tag = .ok t := by
  obtain ⟨t, parsed⟩ := time.parsed
  refine ⟨t, fun tag => ?_⟩
  unfold parseFixTimestamp
  simp [time.length, parsed]

theorem stamps_plain {message : FixMessage} {now : String} (time : SendingTime now)
    (sent : message.get 52 = some now) (flag : message.get 43 = none) :
    validateTimestampFields message = .ok () := by
  obtain ⟨t, stamp⟩ := parseFixTimestamp_ok time
  have text : message.parseRequiredText 52 = .ok now := by
    unfold FixMessage.parseRequiredText
    simp [sent, time.value.nonempty]
  unfold validateTimestampFields
  simp only [text, stamp, flag, bind, Except.bind]
  rfl

/-- A duplicate is sent no earlier than the original. -/
theorem stamps_duplicate {message : FixMessage} {now : String} (time : SendingTime now)
    (sent : message.get 52 = some now) (flag : message.get 43 = some "Y")
    (original : message.get 122 = some now) : validateTimestampFields message = .ok () := by
  obtain ⟨t, stamp⟩ := parseFixTimestamp_ok time
  have text : ∀ tag, message.get tag = some now → message.parseRequiredText tag = .ok now := by
    intro tag here
    unfold FixMessage.parseRequiredText
    simp [here, time.value.nonempty]
  unfold validateTimestampFields
  simp only [text 52 sent, text 122 original, stamp, flag, bind, Except.bind, lt_irrefl, if_false]
  rfl

/-- A header with every field once and the right names is accepted. -/
theorem validateHeader_ok {message : FixMessage} {peer : Peer} {kind number time : String} {n : Nat}
    (version : message.beginString = peer.beginString)
    (type : message.validateUniqueHeaderTag 35 = .ok kind)
    (sender : message.validateUniqueHeaderTag 49 = .ok peer.sender)
    (target : message.validateUniqueHeaderTag 56 = .ok peer.target)
    (numbered : message.validateUniqueHeaderTag 34 = .ok number)
    (sent : message.validateUniqueHeaderTag 52 = .ok time)
    (stamps : validateTimestampFields message = .ok ())
    (seq : message.parseRequiredSeq = .ok n) : validateHeader message peer = .ok n := by
  unfold validateHeader
  simp only [version, type, sender, target, numbered, sent, stamps, seq, ne_eq, not_true_eq_false,
    or_self, if_false, bind, Except.bind]

theorem validateHeader_seq {message : FixMessage} {peer : Peer} {n : Nat}
    (h : validateHeader message peer = .ok n) : message.parseRequiredSeq = .ok n := by
  unfold validateHeader at h
  split at h
  · cases h
  obtain ⟨_, -, h⟩ := bind_eq_ok.mp h
  obtain ⟨_, -, h⟩ := bind_eq_ok.mp h
  obtain ⟨_, -, h⟩ := bind_eq_ok.mp h
  split at h
  · cases h
  obtain ⟨_, -, h⟩ := bind_eq_ok.mp h
  obtain ⟨_, -, h⟩ := bind_eq_ok.mp h
  obtain ⟨_, -, h⟩ := bind_eq_ok.mp h
  exact h

/-- A frame on its way, with what its writer knows of it: the number of the writer when
it was written, and whether it took that number for itself. -/
structure Frame where
  bytes : List UInt8
  mark : Nat
  counts : Bool

/-- A message under a number of its own. -/
structure Ordinary (peer : Peer) (frame : Frame) (message : FixMessage) : Prop where
  counts : frame.counts = true
  kind : message.msgType ≠ some "4"
  header : validateHeader message peer = .ok frame.mark

/-- A sequence reset from a used number to at most the next one. -/
structure Filling (peer : Peer) (frame : Frame) (message : FixMessage) (beginSeq newSeq : Nat) :
    Prop where
  counts : frame.counts = false
  kind : message.msgType = some "4"
  flag : message.get 123 = some "Y"
  duplicate : SequenceState.isDuplicate message = true
  header : validateHeader message peer = .ok beginSeq
  target : message.parseRequiredU64 36 = .ok newSeq
  natural : message.natural 36 = .ok newSeq
  fits : validateProfile message "4" = .ok ()
  covers : beginSeq < newSeq
  sent : newSeq ≤ frame.mark + 1

inductive Carries (peer : Peer) (frame : Frame) (message : FixMessage) : Prop where
  | ordinary (h : Ordinary peer frame message)
  | filling {beginSeq newSeq : Nat} (h : Filling peer frame message beginSeq newSeq)

section Written

variable {sender target now kind raw : String} {seq : Nat} {fields : Fields}

omit [Chrono] in
theorem filter_body {tag : Nat} (header : tag ∈ [34, 35, 43, 49, 52, 56])
    (body : ∀ field ∈ fields, field.1 ∉ [34, 35, 43, 49, 52, 56]) :
    fields.filter (fun field => field.1 == tag) = [] := by
  rw [List.filter_eq_nil_iff]
  intro field mem same
  rw [beq_iff_eq] at same
  exact body field mem (same ▸ header)

/-- The header of a numbered message is accepted. -/
theorem ordinary_header (time : SendingTime now) (hkind : kind ≠ "") (hsender : sender ≠ "")
    (htarget : target ≠ "") (positive : 0 < seq) (small : seq < 2 ^ 64)
    (body : ∀ field ∈ fields, field.1 ∉ [34, 35, 43, 49, 52, 56]) :
    validateHeader ⟨"FIX.4.2", headerFields kind seq sender target now ++ fields, raw⟩
      ⟨"FIX.4.2", sender, target⟩ = .ok seq := by
  have only : ∀ tag ∈ [34, 35, 43, 49, 52, 56],
      (headerFields kind seq sender target now ++ fields).filter (fun field => field.1 == tag) =
        (headerFields kind seq sender target now).filter (fun field => field.1 == tag) := by
    intro tag mem
    rw [List.filter_append, filter_body mem body, List.append_nil]
  refine validateHeader_ok rfl (uniqueHeaderTag_only hkind (only 35 (by decide)))
    (uniqueHeaderTag_only hsender (only 49 (by decide)))
    (uniqueHeaderTag_only htarget (only 56 (by decide)))
    (uniqueHeaderTag_only (value_repr seq).nonempty (only 34 (by decide)))
    (uniqueHeaderTag_only time.value.nonempty (only 52 (by decide)))
    (stamps_plain time rfl ?_) (parseRequiredU64_repr rfl positive small)
  have none_ : (headerFields kind seq sender target now ++ fields).filter
      (fun field => field.1 == 43) = [] := only 43 (by decide)
  exact congrArg (Option.map Prod.snd)
    (List.find?_eq_none.mpr (List.filter_eq_nil_iff.mp none_))

/-- The header of a sequence reset is accepted. -/
theorem filling_header (time : SendingTime now) (hsender : sender ≠ "")
    (htarget : target ≠ "") (positive : 0 < seq) (small : seq < 2 ^ 64) (newSeq : String) :
    validateHeader ⟨"FIX.4.2", duplicateHeader "4" seq sender target now ++
      [(36, newSeq), (123, "Y")], raw⟩ ⟨"FIX.4.2", sender, target⟩ = .ok seq := by
  refine validateHeader_ok rfl (uniqueHeaderTag_only (by decide) rfl)
    (uniqueHeaderTag_only hsender rfl) (uniqueHeaderTag_only htarget rfl)
    (uniqueHeaderTag_only (value_repr seq).nonempty rfl)
    (uniqueHeaderTag_only time.value.nonempty rfl) (stamps_duplicate time rfl rfl rfl)
    (parseRequiredU64_repr rfl positive small)

/-- A sequence reset is in the profile. -/
theorem filling_fits (time : SendingTime now) (hsender : sender ≠ "") (htarget : target ≠ "")
    (newSeq : Nat) : validateProfile ⟨"FIX.4.2", duplicateHeader "4" seq sender target now ++
      [(36, newSeq.repr), (123, "Y")], raw⟩ "4" = .ok () := by
  have fitting : Fitting ⟨"FIX.4.2", duplicateHeader "4" seq sender target now ++
      [(36, newSeq.repr), (123, "Y")], raw⟩ "4" [36] := by
    have distinct : ([35, 34, 49, 56, 43, 52, 122, 36, 123] : List Nat).Nodup := by decide
    have present : ∀ tag ∈ [36], tag ∈ ([35, 34, 49, 56, 43, 52, 122, 36, 123] : List Nat) := by
      decide
    have other : ¬ (("4" : String) = "D" ∨ ("4" : String) = "G") := by decide
    refine ⟨rfl, rfl, distinct, ?_, rfl, present, nofun, fun order => absurd order other⟩
    have plain : ∀ {tag : Nat} {value : String}, tag ∉ [373, 380, 102, 300] → value ≠ "" →
        value ≠ "" ∧ validEnumeration tag value = true :=
      fun other some_ => ⟨some_, validEnumeration_plain other _⟩
    simp only [duplicateHeader, List.cons_append, List.nil_append, List.forall_mem_cons]
    exact ⟨plain (by decide) (by decide), plain (by decide) (value_repr seq).nonempty,
      plain (by decide) hsender, plain (by decide) htarget, plain (by decide) (by decide),
      plain (by decide) time.value.nonempty, plain (by decide) time.value.nonempty,
      plain (by decide) (value_repr newSeq).nonempty, plain (by decide) (by decide),
      fun _ mem => by cases mem⟩
  exact fitting.validated

end Written

/-- The values a writer puts into every header. -/
structure Named (w : WriterState) (peer : Peer) : Prop where
  version : w.beginString = "FIX.4.2" ∧ peer.beginString = "FIX.4.2"
  sender : w.senderCompId = peer.sender ∧ Value peer.sender
  target : w.targetCompId = peer.target ∧ Value peer.target

omit [Chrono] in
theorem Named.like {w w' : WriterState} {peer : Peer} (h : Named w peer) (like : w.Like w') :
    Named w' peer :=
  ⟨⟨like.beginString.trans h.version.1, h.version.2⟩, ⟨like.sender.trans h.sender.1, h.sender.2⟩,
    ⟨like.target.trans h.target.1, h.target.2⟩⟩

/-- What a round writes is read back by the peer. -/
theorem round_carries {w w' : WriterState} {peer : Peer} (named : Named w peer)
    {built now : String} {ids : Option WireIdMap} {out : OutMsg D} {bytes : List UInt8}
    (sound : Sound built now ids out) (small : w'.seq < u64Max)
    (round : Round w built now ids out (some bytes, w')) :
    ∃ message, parseWire bytes = .ok message ∧
      Carries peer ⟨bytes, w'.seq, out.Counts⟩ message := by
  obtain ⟨version, sender, target⟩ := peer
  obtain ⟨⟨begins, rfl⟩, ⟨from_, hsender⟩, ⟨to_, htarget⟩⟩ := named
  dsimp only at from_ hsender to_ htarget
  cases round with
  | @numbered kind fields _ like counts contents seq running =>
    obtain ⟨other, hkind⟩ := sound.kind kind fields contents
    have body := sound.body kind fields contents
    have bound : w'.seq < 2 ^ 64 := small.trans (by decide)
    have sized : 0 < u64Max := by decide
    have positive : 0 < w'.seq := by omega
    let m : Outgoing := ⟨kind, w'.seq, sender, target, now, fields, hkind, bound, hsender, htarget,
      sound.time.value, fun field mem => (body field mem).1⟩
    refine ⟨m.message, ?_, .ordinary ⟨counts, ?_, ?_⟩⟩
    · rw [begins, from_, to_]
      exact m.message_parsed
    · exact fun same => other (Option.some.inj same)
    · exact ordinary_header sound.time hkind.nonempty hsender.nonempty htarget.nonempty
        positive bound fun field mem => (body field mem).2
  | @filled beginSeq last _ like counts final positive covers sent same running =>
    have bound : last + 1 ≤ u64Max := by omega
    rw [begins, from_, to_, Nat.min_eq_left bound]
    have sized : u64Max < 2 ^ 64 := by decide
    have ok : ∀ field ∈ duplicateHeader "4" beginSeq sender target now ++
        [(36, (last + 1).repr), (123, "Y")], BodyField field := by
      simp only [duplicateHeader, List.cons_append, List.nil_append, List.forall_mem_cons]
      exact ⟨bodyField (by decide) (by decide), bodyField (by decide) (value_repr beginSeq),
        bodyField (by decide) hsender, bodyField (by decide) htarget,
        bodyField (by decide) (by decide), bodyField (by decide) sound.time.value,
        bodyField (by decide) sound.time.value, bodyField (by decide) (value_repr _),
        bodyField (by decide) (by decide), fun _ mem => by cases mem⟩
    exact ⟨_, enclosed_parsed ok, .filling ⟨counts, rfl, rfl, rfl,
      filling_header sound.time hsender.nonempty htarget.nonempty positive (by omega) _,
      parseRequiredU64_repr rfl (by omega) (by omega), natural_some rfl (by omega),
      filling_fits sound.time hsender.nonempty htarget.nonempty _, by omega, by dsimp only; omega⟩⟩

/-- The frames of a history, numbered as they come: a numbered message takes the next
number, a sequence reset none. -/
inductive Marked : List Frame → Nat → Prop where
  | nil : Marked [] 0
  | numbered {frames : List Frame} {n : Nat} (bytes : List UInt8) (h : Marked frames n) :
      Marked (frames ++ [⟨bytes, n + 1, true⟩]) (n + 1)
  | filling {frames : List Frame} {n : Nat} (bytes : List UInt8) (h : Marked frames n) :
      Marked (frames ++ [⟨bytes, n, false⟩]) n

/-- One frame comes after another. -/
def Frame.Follows (a b : Frame) : Prop := a.mark ≤ b.mark ∧ (b.counts = true → a.mark < b.mark)

namespace Marked

variable {frames : List Frame} {n : Nat}

omit [Chrono] in
theorem le (h : Marked frames n) : ∀ frame ∈ frames, frame.mark ≤ n := by
  induction h with
  | nil => exact fun frame mem => by cases mem
  | numbered bytes h ih =>
    intro frame mem
    rcases List.mem_append.mp mem with old | new
    · exact (ih frame old).trans (Nat.le_succ _)
    · rw [List.mem_singleton.mp new]
  | filling bytes h ih =>
    intro frame mem
    rcases List.mem_append.mp mem with old | new
    · exact ih frame old
    · rw [List.mem_singleton.mp new]

omit [Chrono] in
theorem follows (h : Marked frames n) : frames.Pairwise Frame.Follows := by
  induction h with
  | nil => exact .nil
  | numbered bytes h ih =>
    rw [List.pairwise_append]
    refine ⟨ih, List.pairwise_singleton _ _, fun a mem b last => ?_⟩
    have bound := h.le a mem
    rw [List.mem_singleton.mp last]
    exact ⟨by dsimp only; omega, fun _ => by dsimp only; omega⟩
  | filling bytes h ih =>
    rw [List.pairwise_append]
    refine ⟨ih, List.pairwise_singleton _ _, fun a mem b last => ?_⟩
    rw [List.mem_singleton.mp last]
    exact ⟨h.le a mem, nofun⟩

omit [Chrono] in
/-- The numbers that were taken are the first ones, each once. -/
theorem numbers (h : Marked frames n) :
    (frames.filter Frame.counts).map Frame.mark = List.range' 1 n := by
  induction h with
  | nil => rfl
  | numbered bytes h ih =>
    rw [List.filter_append, List.map_append, ih, List.range'_concat]
    simp [Nat.add_comm]
  | filling bytes h ih =>
    rw [List.filter_append, List.map_append, ih]
    simp

omit [Chrono] in
theorem upTo (h : Marked frames n) {earlier later : List Frame} {frame : Frame}
    (split : frames = earlier ++ frame :: later) : Marked (earlier ++ [frame]) frame.mark := by
  induction h generalizing later with
  | nil => cases earlier <;> cases split
  | numbered bytes h ih =>
    rcases Outbound.snoc_split split with ⟨rfl, rfl, rfl⟩ | ⟨rest, rfl, inner⟩
    · exact .numbered bytes h
    · exact ih inner
  | filling bytes h ih =>
    rcases Outbound.snoc_split split with ⟨rfl, rfl, rfl⟩ | ⟨rest, rfl, inner⟩
    · exact .filling bytes h
    · exact ih inner

end Marked

namespace Outbound

/-- The frames of a history, in order. -/
def marked (log : List (Entry D)) : List Frame :=
  log.filterMap fun entry => entry.frame.map fun bytes => ⟨bytes, entry.mark, entry.out.Counts⟩

omit [Decimal D] [Chrono] in
theorem marked_snoc (log : List (Entry D)) (entry : Entry D) :
    marked (log ++ [entry]) = marked log ++
      (entry.frame.map fun bytes => (⟨bytes, entry.mark, entry.out.Counts⟩ : Frame)).toList := by
  unfold marked
  rw [List.filterMap_append, List.filterMap_cons, List.filterMap_nil]
  cases entry.frame <;> rfl

/-- Whether all outputs that were handled were sound. -/
def Valid (x : Outbound D) : Prop :=
  ∀ entry ∈ x.log, Sound entry.built entry.now entry.ids entry.out

omit [Chrono] in
/-- What a move adds to the history. -/
inductive Progress (x y : Outbound D) : Prop where
  | silent (log : y.log = x.log) (seq : y.writer.seq = x.writer.seq)
      (like : x.writer.Like y.writer)
  | handled {prompted : Bool} {built now : String} {ids : Option WireIdMap} {out : OutMsg D}
      {frame : Option (List UInt8)} (round : Round x.writer built now ids out (frame, y.writer))
      (log : y.log = x.log ++ [⟨out, prompted, built, now, ids, frame, y.writer.seq⟩])

omit [Chrono] in
theorem handle_progress (x : Outbound D) (mailbox : Mailbox (OutMsg D) mailboxCapacity)
    (prompted : Bool) (built now : String) (ids : Option WireIdMap) (out : OutMsg D) : Progress x
      (({ x with mailbox := mailbox } : Outbound D).handle prompted built now ids out) := by
  obtain ⟨frame, writer, round, same⟩ :=
    handle_spec ({ x with mailbox := mailbox } : Outbound D) prompted built now ids out
  rw [same]
  exact .handled round rfl

omit [Chrono] in
theorem move_progress {x y : Outbound D} (move : Move x y) : Progress x y := by
  cases move with
  | take built now ids out => exact handle_progress x _ true built now ids out
  | idle built now ids => exact handle_progress x x.mailbox false built now ids _
  | offer | turnAway | accept | deny | refuse | fail | look | stop | leave =>
    exact .silent rfl rfl ⟨rfl, rfl, rfl⟩

omit [Chrono] in
theorem Progress.grows {x y : Outbound D} (h : Progress x y) : ∃ more, y.log = x.log ++ more := by
  cases h with
  | silent log => exact ⟨[], log.trans (List.append_nil _).symm⟩
  | handled round log => exact ⟨_, log⟩

omit [Chrono] in
theorem runs_grow {x y : Outbound D} (run : Runs x y) : ∃ more, y.log = x.log ++ more := by
  induction run with
  | refl => exact ⟨[], (List.append_nil _).symm⟩
  | tail _ move ih =>
    obtain ⟨more, log⟩ := ih
    obtain ⟨last, log'⟩ := (move_progress move).grows
    exact ⟨more ++ last, by rw [log', log, List.append_assoc]⟩

/-- What is valid after a move was so before. -/
theorem Progress.valid {x y : Outbound D} (h : Progress x y) (valid : y.Valid) : x.Valid := by
  obtain ⟨more, log⟩ := h.grows
  exact fun entry mem => valid entry (log ▸ List.mem_append_left _ mem)

/-- A history that the peer can read. -/
structure Legible (peer : Peer) (x : Outbound D) : Prop where
  named : Named x.writer peer
  marks : Marked (marked x.log) x.writer.seq
  carried : ∀ frame ∈ marked x.log, ∃ message, parseWire frame.bytes = .ok message ∧
    Carries peer frame message

omit [Chrono] in
theorem Progress.seq_le {x y : Outbound D} (h : Progress x y) (small : y.writer.seq < u64Max) :
    x.writer.seq ≤ y.writer.seq := by
  cases h with
  | silent log seq like => exact seq.ge
  | handled round log =>
    obtain ⟨seq, -⟩ := round_seq round
    split at seq <;> omega

theorem Legible.progress {peer : Peer} {x y : Outbound D} (h : Legible peer x)
    (progress : Progress x y) (valid : y.Valid) (small : y.writer.seq < u64Max) :
    Legible peer y := by
  cases progress with
  | silent log seq like =>
    refine ⟨h.named.like like, ?_, ?_⟩
    · rw [log, seq]
      exact h.marks
    · rw [log]
      exact h.carried
  | @handled prompted built now ids out frame round log =>
    obtain ⟨-, -, like⟩ := round_seq round
    have sound : Sound built now ids out := valid _ (by
      rw [log]
      exact List.mem_append_right _ (List.mem_singleton_self _))
    have marks : Marked (marked y.log) y.writer.seq := by
      rw [log, marked_snoc]
      cases round with
      | quiet _ counts same running =>
        rw [same]
        simpa using h.marks
      | numbered _ counts contents seq running =>
        rw [seq, Nat.min_eq_left (by omega), counts]
        exact h.marks.numbered _
      | filled _ counts final positive covers sent same running =>
        rw [same, counts]
        exact h.marks.filling _
    refine ⟨h.named.like like, marks, ?_⟩
    intro here mem
    rw [log, marked_snoc] at mem
    rcases List.mem_append.mp mem with old | new
    · exact h.carried here old
    · obtain ⟨bytes, rfl, rfl⟩ := Option.map_eq_some_iff.mp (Option.mem_toList.mp new)
      exact round_carries h.named sound small round

end Outbound

end RustTrader.Fix
