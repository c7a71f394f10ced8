import RustTrader.Fix.Link

/-!
# Links that lose nothing, and links that recover

When no frame is lost, the reader takes up every numbered message in its turn, asks for
nothing and holds nothing back; the sequence resets are then duplicates. After a loss one
sequence reset from the cursor or before it to the end makes the reader current again.
-/

namespace RustTrader.Fix

variable {D : Type} [Decimal D] [DecimalText D]

namespace Marked

variable {frames : List Frame} {n m : Nat}

theorem unique (h : Marked frames n) (h' : Marked frames m) : n = m := by
  have same := congrArg List.length (h.numbers.symm.trans h'.numbers)
  simpa using same

/-- The number of a frame that comes next. -/
theorem next {read : List Frame} {frame : Frame} (h : Marked read n)
    (h' : Marked (read ++ [frame]) m) : m = if frame.counts then n + 1 else n := by
  have lengths := congrArg List.length h'.numbers
  have before := congrArg List.length h.numbers
  cases counts : frame.counts <;> simp [counts] at lengths before ⊢ <;> omega

end Marked

namespace Link

/-- What a reader gets from frames. -/
def messages (frames : List Frame) : List FixMessage :=
  frames.filterMap fun frame => (parseWire frame.bytes).toOption

/-- What was read before the loop began: the Logon of an acceptor. -/
def Opening (party : Party) (l : Listening D) (opening : List FixMessage) : Prop :=
  match party with
  | .initiator _ => opening = []
  | .acceptor => ∃ logon, opening = [logon] ∧ l.start = Loop.accepting logon 1

/-- A turn of a loop that misses nothing: a numbered message is taken up at the cursor, a
sequence reset is a duplicate, and only a first message that is no Logon closes. -/
def TakenInTurn (t : Taken D) : Prop :=
  match t.turn with
  | .gap _ => False
  | .duplicate => t.message.msgType = some "4"
  | .dispatched _ | .rejected _ => t.message.msgType ≠ some "4" ∧
      t.message.parseRequiredSeq = .ok t.before.sequence.expected
  | .closed _ => t.before.first = true ∧ t.message.msgType ≠ some "A" ∧
      t.message.msgType ≠ some "5"

/-- A reader that has missed nothing. -/
structure UpToDate (party : Party) (heard : Nat) (read : List Frame) (l : Listening D) : Prop where
  taken : ∃ opening, Opening party l opening ∧
    messages read = opening ++ l.turns.map Taken.message
  inTurn : ∀ t ∈ l.turns, TakenInTurn t
  empty : l.loop.sequence.queued = ∅
  cursor : l.loop.opened = true → l.loop.sequence.expected = heard + 1

/-- Everything written was read, in order, or is still under way. -/
structure Straight (party : Party) (x : Link D) (read : List Frame) : Prop where
  whole : Outbound.marked x.outbound.log = read ++ x.underway
  marks : Marked read x.heard
  waiting : x.listening = none → read = []
  upToDate : ∀ l, x.listening = some l → UpToDate party x.heard read l

variable {party : Party} {peer : Peer} {x y : Link D} {read : List Frame}

section Runs

variable [Chrono]

omit [Decimal D] [DecimalText D] [Chrono] in
theorem straight_start : Straight party (start party peer : Link D) [] := by
  refine ⟨rfl, .nil, fun _ => rfl, fun l here => ?_⟩
  cases party with
  | acceptor => cases here
  | initiator heartBtInt =>
    cases here
    exact ⟨⟨[], rfl, rfl⟩, fun t mem => (by cases mem), rfl, fun _ => rfl⟩

/-- The number of a message that comes up in its turn, and what it is then. -/
theorem arrives_straight {state : SequenceState} {frame : Frame} {message : FixMessage}
    {heard : Nat} (carries : Carries peer frame message)
    (cursor : state.expected = heard + 1)
    (mark : frame.mark = if frame.counts then heard + 1 else heard) :
    frame.mark + 1 = state.expected + (if frame.counts then 1 else 0) ∧
    (message.msgType ≠ some "4" ∧ frame.counts = true ∧
      message.parseRequiredSeq = .ok state.expected ∨
    message.msgType = some "4" ∧ frame.counts = false ∧
      (∃ seq, message.parseRequiredSeq = .ok seq ∧ seq < state.expected) ∧
      ¬ AtCursor state message) := by
  cases carries with
  | ordinary sent =>
    have numbered := validateHeader_seq sent.header
    rw [sent.counts] at mark ⊢
    rw [if_pos rfl] at mark ⊢
    rw [mark, ← cursor] at numbered
    exact ⟨by omega, .inl ⟨sent.kind, rfl, numbered⟩⟩
  | @filling beginSeq newSeq sent =>
    have numbered := validateHeader_seq sent.header
    have covers := sent.covers
    have bound := sent.sent
    rw [sent.counts] at mark ⊢
    rw [if_neg Bool.false_ne_true] at mark ⊢
    refine ⟨by omega, .inr ⟨sent.kind, rfl, ⟨beginSeq, numbered, by omega⟩, ?_⟩⟩
    rintro ⟨seq, numbered', here⟩
    obtain rfl := Except.ok.inj (numbered.symm.trans numbered')
    rw [if_pos sent.kind] at here
    obtain ⟨target, read, overrides | same⟩ := here
    · obtain rfl := Except.ok.inj (read.symm.trans sent.target)
      simp only [SequenceState.overrides, sent.flag, bne_self_eq_false, Bool.false_or,
        Bool.and_eq_true, decide_eq_true_eq] at overrides
      omega
    · omega

/-- A turn on the next frame of a reader that has missed nothing. -/
theorem turn_straight {loop after : Loop} {frame : Frame} {message : FixMessage} {turn : Turn D}
    {heard : Nat} (arrives : Arrives peer loop.sequence frame.mark frame message)
    (cursor : loop.sequence.expected = heard + 1) (empty : loop.sequence.queued = ∅)
    (mark : frame.mark = if frame.counts then heard + 1 else heard) (small : frame.mark < u64Max)
    (taken : loop.consume party peer message = .ok (turn, after)) :
    TakenInTurn ⟨loop, message, turn, after⟩ ∧ after.sequence.queued = ∅ ∧
      (after.opened = true → after.sequence.expected = frame.mark + 1) := by
  obtain ⟨next, kinds⟩ := arrives_straight arrives.carries cursor mark
  have consumed := Loop.consume_spec taken
  cases consumed with
  | closed same closed =>
    refine ⟨?_, same ▸ empty, fun opened => by rw [closed] at opened; cases opened⟩
    rcases arrives.closed taken with early | full
    · exact early
    · rw [empty] at full
      cases full
  | duplicate classified =>
    rcases kinds with ⟨-, -, numbered⟩ | ⟨kind, counts, -, -⟩
    · generalize after.sequence = state at classified
      cases classified with
      | duplicate numbered' low =>
        have same := Except.ok.inj (numbered.symm.trans numbered')
        omega
    · rw [counts] at next
      generalize after.sequence = state at classified ⊢
      cases classified with
      | duplicate => exact ⟨kind, empty, fun _ => next.symm⟩
  | gap classified =>
    generalize after.sequence = state at classified
    cases classified with
    | gap numbered' high room =>
      rcases kinds with ⟨-, -, numbered⟩ | ⟨-, -, ⟨seq, numbered, low⟩, -⟩
      · have same := Except.ok.inj (numbered.symm.trans numbered')
        omega
      · have same := Except.ok.inj (numbered.symm.trans numbered')
        omega
  | rejected takenUp refused skipped =>
    rcases kinds with ⟨kind, counts, numbered⟩ | ⟨-, -, -, missed⟩
    · rw [counts, if_pos rfl] at next
      refine ⟨⟨kind, numbered⟩, skipped ▸ empty, fun _ => ?_⟩
      rw [skipped, skip_expected (by omega)]
      exact next.symm
    · exact absurd takenUp.cursor missed
  | dispatched takenUp decoded advanced =>
    rcases kinds with ⟨kind, counts, numbered⟩ | ⟨-, -, -, missed⟩
    · rw [counts, if_pos rfl] at next
      generalize after.sequence = state at advanced ⊢
      cases advanced with
      | reset kind' => exact absurd kind' kind
      | next kind' numbered' =>
        refine ⟨⟨kind, numbered⟩, empty, fun _ => ?_⟩
        dsimp only
        omega
    · exact absurd takenUp.cursor missed

omit [DecimalText D] in
theorem Straight.outbound (h : Straight party x read) {o : Outbound D}
    (move : Outbound.Move x.outbound o) (small : o.writer.seq < u64Max) :
    Straight party { x with outbound := o, underway := x.underway ++ fresh x.outbound o } read := by
  obtain ⟨grown, -⟩ := fresh_spec (Outbound.move_progress move) small
  refine ⟨?_, h.marks, h.waiting, h.upToDate⟩
  dsimp only
  rw [grown, h.whole, List.append_assoc]

/-- The next frame of a link that has lost nothing. -/
theorem Straight.next (h : Straight party x read) (agrees : Agrees party peer x) {frame : Frame}
    {rest : List Frame} (first : x.underway = frame :: rest) :
    Marked (read ++ [frame]) frame.mark ∧
      frame.mark = if frame.counts then x.heard + 1 else x.heard := by
  have split : Outbound.marked x.outbound.log = read ++ frame :: rest := by rw [h.whole, first]
  have marks := agrees.legible.marks.upTo split
  exact ⟨marks, h.marks.next marks⟩

omit [Chrono] in
theorem messages_snoc {frame : Frame} {message : FixMessage}
    (parsed : parseWire frame.bytes = .ok message) :
    messages (read ++ [frame]) = messages read ++ [message] := by
  unfold messages
  rw [List.filterMap_append, List.filterMap_cons_some (b := message) (by rw [parsed]; rfl),
    List.filterMap_nil]

theorem Straight.move (h : Straight party x read) (agrees : Agrees party peer x)
    (move : Move party peer x y) (small : y.outbound.writer.seq < u64Max) (kept : y.lost = []) :
    ∃ read', Straight party y read' := by
  cases move with
  | outbound move => exact ⟨read, h.outbound move small⟩
  | lose gone => exact absurd kept (by simp)
  | @logOn frame rest message config client heart seq accepting waiting first framed valid =>
    subst accepting
    obtain rfl := h.waiting waiting
    obtain ⟨marks, mark⟩ := h.next agrees first
    have parsed := (framed_iff.mp framed).2.1
    obtain ⟨kind, numbered⟩ := validateLogon_ok valid
    have one : frame.mark = 1 ∧ seq = 1 := by
      cases agrees.carried (agrees.head first).2.1 parsed with
      | ordinary sent =>
        rw [sent.counts, if_pos rfl, ← Marked.nil.unique h.marks] at mark
        exact ⟨mark, Except.ok.inj (numbered.symm.trans
          ((validateHeader_seq sent.header).trans (congrArg Except.ok mark)))⟩
      | filling sent =>
        rw [sent.kind] at kind
        exact absurd kind (by decide)
    obtain ⟨mark, rfl⟩ := one
    refine ⟨[frame], h.whole.trans first, marks, nofun, fun l here => ?_⟩
    cases here
    refine ⟨⟨[message], ⟨message, rfl, rfl⟩, (messages_snoc parsed : messages ([] ++ [frame]) = _)⟩,
      fun t mem => (by cases mem), rfl, fun _ => ?_⟩
    dsimp only
    rw [mark]
    rfl
  | @early l message sequence turn after here opened queued taken =>
    have found := (Prod.mk.inj queued).1
    rw [(h.upToDate l here).empty] at found
    cases found
  | @read l frame rest message turn after here opened ready first framed taken =>
    obtain ⟨marks, mark⟩ := h.next agrees first
    obtain ⟨-, known, bound, -⟩ := agrees.head first
    obtain ⟨⟨opening, opens, all⟩, inTurn, empty, cursor⟩ := h.upToDate l here
    have parsed := (framed_iff.mp framed).2.1
    have at_ := cursor opened
    have arrives : Arrives peer l.loop.sequence frame.mark frame message := by
      refine ⟨agrees.carried known parsed, le_rfl, ?_, fun counts => ?_⟩
      · split at mark <;> omega
      · rw [counts, if_pos rfl] at mark
        omega
    obtain ⟨straight, empty', cursor'⟩ :=
      turn_straight arrives at_ empty mark (bound.trans_lt small) taken
    refine ⟨read ++ [frame], ?_, marks, nofun, fun l' here' => ?_⟩
    · dsimp only
      rw [h.whole, first, List.append_assoc, List.singleton_append]
    · cases here'
      refine ⟨⟨opening, opens, ?_⟩, ?_, empty', cursor'⟩
      · rw [messages_snoc parsed, all, Listening.turn, List.map_append, List.append_assoc]
        rfl
      · intro t mem
        rcases List.mem_append.mp mem with old | new
        · exact inTurn t old
        · rw [List.mem_singleton.mp new]
          exact straight

theorem lost_le (move : Move party peer x y) (kept : y.lost = []) : x.lost = [] := by
  cases move with
  | lose gone => exact absurd kept (by simp)
  | outbound | logOn | early | read => exact kept

/-- A link that loses nothing delivers every message once and in order, as long as the
outputs are sound and the numbers do not run out. -/
theorem nothing_lost (version : peer.beginString = "FIX.4.2") (sender : Value peer.sender)
    (target : Value peer.target) (run : Runs party peer (start party peer) x)
    (kept : x.lost = []) (valid : x.outbound.Valid) (small : x.outbound.writer.seq < u64Max) :
    ∃ read, Straight party x read := by
  induction run with
  | refl => exact ⟨_, straight_start⟩
  | tail before move ih =>
    have small' := (seq_le move small).trans_lt small
    have valid' := move_valid move valid
    obtain ⟨read, straight⟩ := ih (lost_le move kept) valid' small'
    exact straight.move (agrees_run version sender target before valid' small') move small kept

end Runs

/-- The Logon is read, and the rest is under way. -/
theorem nothing_lost_sample : ∃ (x : Link Dec96) (read : List Frame),
    Runs (.initiator 30) exchange (start (.initiator 30) exchange) x ∧
    x.underway.length = 2 ∧ Straight (.initiator 30) x read := by
  obtain ⟨message, framed, turn, after, taken, -⟩ := logonFrame_read
  obtain ⟨x, heartbeat, run, underway, waiting, kept, valid, seq⟩ := written_sample
  generalize logonFrame = bytes at framed underway
  have last := run.tail (.read waiting rfl rfl underway framed taken)
  obtain ⟨read, straight⟩ := nothing_lost rfl (by decide) (by decide) last kept valid (by
    dsimp only
    rw [seq]
    decide)
  exact ⟨_, read, last, rfl, straight⟩

section Recovery

variable [Chrono]

/-- A sequence reset in the profile is decoded. -/
theorem filling_decoded {frame : Frame} {message : FixMessage} {beginSeq newSeq : Nat}
    (sent : Filling peer frame message beginSeq newSeq) :
    decode message =
      (.ok (.ok (.sequenceReset newSeq true)) : Exec (Except String (Inbound D))) := by
  have positive := parseRequiredU64_pos sent.target
  have flag : message.boolean 123 false = .ok true := by
    unfold FixMessage.boolean
    rw [sent.flag]
    rfl
  have reset : (decodeSequenceReset message : Except String (Inbound D)) =
      .ok (.sequenceReset newSeq true) := by
    unfold decodeSequenceReset
    simp only [sent.natural, flag, bind, Except.bind, Nat.pos_iff_ne_zero.mp positive, if_false]
    rfl
  have other : ("4" : String) ≠ "8" := by decide
  unfold decode
  rw [sent.kind]
  simp only [sent.fits, if_neg other]
  exact congrArg Except.ok reset

/-- Everything that waits was heard. -/
theorem stored_filter {frames : List Frame} {heard newSeq : Nat}
    {queued : SortedMap Nat FixMessage} (stored : Stored peer frames heard queued)
    (beyond : heard < newSeq) : queued.filter (fun entry => newSeq ≤ entry.1) = ∅ := by
  refine SortedMap.ext_get? fun seq => ?_
  rw [SortedMap.get?_filter]
  cases waits : queued.get? seq with
  | none => rfl
  | some message =>
    obtain ⟨frame, -, -, carries, past, numbered⟩ := stored seq message waits
    have low : seq ≤ heard := by
      cases carries with
      | ordinary sent =>
        have same := Except.ok.inj (numbered.symm.trans (validateHeader_seq sent.header))
        omega
      | filling sent =>
        have same := Except.ok.inj (numbered.symm.trans (validateHeader_seq sent.header))
        have covers := sent.covers
        have bound := sent.sent
        omega
    have late : ¬ newSeq ≤ seq := by omega
    exact (Option.filter_eq_none_iff.mpr fun _ same => by cases same; simp [late]).trans rfl

/-- Whatever a link of sound outputs has lost, a sequence reset from the cursor or before
it to the end of what was written makes a reader as new that is open, past its first
message and with nothing ready in its queue. -/
theorem reset_recovers (version : peer.beginString = "FIX.4.2") (sender : Value peer.sender)
    (target : Value peer.target) (run : Runs party peer (start party peer) x)
    (valid : x.outbound.Valid) (small : x.outbound.writer.seq < u64Max) {l : Listening D}
    (here : x.listening = some l) (opened : l.loop.opened = true) (loggedIn : l.loop.first = false)
    (ready : l.loop.sequence.takeReady.1 = none) {frame : Frame} {rest : List Frame}
    (first : x.underway = frame :: rest) {message : FixMessage}
    (framed : Framed frame.bytes message) {seq : Nat} (kind : message.msgType = some "4")
    (numbered : message.parseRequiredSeq = .ok seq) (low : seq ≤ l.loop.sequence.expected)
    (whole : message.parseRequiredU64 36 = .ok (frame.mark + 1))
    (behind : l.loop.sequence.expected ≤ frame.mark) :
    ∃ y, Move party peer x y ∧ y.underway = rest ∧ y.heard = frame.mark ∧
      ∃ l', y.listening = some l' ∧ l'.loop.opened = true ∧
        l'.loop.sequence = SequenceState.new (y.heard + 1) := by
  have agrees := agrees_run version sender target run valid small
  obtain ⟨later, known, bound, -⟩ := agrees.head first
  have hears := agrees.hears l here
  have parsed := (framed_iff.mp framed).2.1
  cases agrees.carried known parsed with
  | ordinary sent => exact absurd kind sent.kind
  | @filling beginSeq newSeq sent =>
    obtain rfl := Except.ok.inj (numbered.symm.trans (validateHeader_seq sent.header))
    obtain rfl := Except.ok.inj (sent.target.symm.trans whole)
    have cursor : AtCursor l.loop.sequence message := by
      refine ⟨seq, numbered, ?_⟩
      rw [if_pos kind]
      refine ⟨_, whole, ?_⟩
      rcases lt_or_eq_of_le low with before | same
      · left
        simp only [SequenceState.overrides, sent.duplicate, before, Nat.lt_succ_of_le behind,
          decide_true, Bool.and_self, Bool.or_true]
      · exact .inr same
    have classified := SequenceState.classify_ready.mpr cursor
    have advanced := advance_reset kind numbered whole (Nat.lt_succ_of_le behind)
    rw [stored_filter hears.stored (Nat.lt_succ_of_le later)] at advanced
    have none_ : SequenceState.stillResent (frame.mark + 1) l.loop.sequence.resendFrom = none := by
      refine Option.filter_eq_none_iff.mpr fun first asked => ?_
      have earlier := hears.resent first asked
      simp only [decide_eq_true_eq]
      omega
    rw [none_] at advanced
    have taken : l.loop.consume (D := D) party peer message = .ok
        (.dispatched (.sequenceReset (frame.mark + 1) true),
          { l.loop with first := false, sequence := SequenceState.new (frame.mark + 1) }) := by
      unfold Loop.consume
      rw [sent.header]
      dsimp only
      rw [if_neg (by rw [loggedIn]; exact fun other => Bool.false_ne_true other.1), classified]
      dsimp only
      rw [filling_decoded sent, Exec.ok_bind]
      dsimp only
      rw [advanced]
      rfl
    exact ⟨_, .read here opened ready first framed taken, rfl, rfl, _, rfl, opened, rfl⟩

end Recovery

/-- What a client makes of the reset. -/
theorem resetFrame_read : ∃ message, Framed resetFrame message ∧ message.msgType = some "4" ∧
    message.parseRequiredSeq = .ok 2 ∧ message.parseRequiredU64 36 = .ok (2 + 1) := by
  have ran : (parseWire resetFrame).toOption.map (fun message =>
      (message.msgType, message.parseRequiredSeq.toOption,
        (message.parseRequiredU64 36).toOption)) = some (some "4", some 2, some 3) := by
    decide +kernel
  obtain ⟨message, parsed, facts⟩ := Option.map_eq_some_iff.mp ran
  simp only [Prod.mk.injEq] at facts
  obtain ⟨kind, numbered, target⟩ := facts
  rw [toOption_eq_some] at parsed numbered target
  exact ⟨message, framed_sample ⟨by decide +kernel, by decide +kernel⟩
    (by decide +kernel : resetFrame = leading _ (wireBytes "94") ++ _) (by decide)
    (by decide +kernel) parsed, kind, numbered, target⟩

/-- The second message is lost, and the reset makes up for it. -/
theorem reset_recovers_sample : ∃ x y : Link Dec96,
    Runs (.initiator 30) exchange (start (.initiator 30) exchange) x ∧ x.lost.length = 1 ∧
    Move (.initiator 30) exchange x y ∧ ∃ l', y.listening = some l' ∧ l'.loop.opened = true ∧
      l'.loop.sequence = SequenceState.new (2 + 1) := by
  obtain ⟨message, framed, turn, after, taken, opened, loggedIn, cursor, ready⟩ := logonFrame_read
  obtain ⟨reset, framed', kind, numbered, target⟩ := resetFrame_read
  obtain ⟨x, heartbeat, run, underway, waiting, kept, valid, seq⟩ := written_sample
  have first := run.tail (.lose (underway : _ = [⟨logonFrame, 1, true⟩] ++ _ :: _))
  generalize logonFrame = bytes at framed first
  generalize resetFrame = bytes' at framed' first
  have second := first.tail (.read waiting rfl rfl
    (rfl : _ = (⟨bytes, 1, true⟩ : Frame) :: [⟨bytes', 2, false⟩]) framed taken)
  obtain ⟨y, move, -, heard, rest⟩ := reset_recovers rfl (by decide) (by decide) second valid (by
    dsimp only
    rw [seq]
    decide) rfl opened loggedIn ready rfl framed' kind numbered cursor.ge target cursor.le
  rw [heard] at rest
  refine ⟨_, y, second, ?_, move, rest⟩
  rw [kept]
  rfl

end Link

end RustTrader.Fix
