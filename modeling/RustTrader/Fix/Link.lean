import RustTrader.Fix.Marks
import RustTrader.Fix.Recovery

/-!
# One direction of a connection

A writer, the frames on their way, any of which may be lost, and the reader loop of the
peer. Sequence resets may be asked for at any time and for any range, and reuse old
numbers; still the two ends agree on what every number stands for.
-/

namespace RustTrader.Fix

variable {D : Type} [Decimal D] [DecimalText D]

/-- A reader loop, with where it began and what it has done. -/
structure Listening (D : Type) where
  start : Loop
  loop : Loop
  turns : List (Taken D)

/-- A turn of the loop. -/
def Listening.turn (l : Listening D) (before : Loop) (message : FixMessage) (turn : Turn D)
    (after : Loop) : Listening D :=
  { l with loop := after, turns := l.turns ++ [⟨before, message, turn, after⟩] }

/-- One direction of a connection; `heard` is the number of the writer when the last
frame that was read was written, `lost` what never arrives. -/
structure Link (D : Type) where
  outbound : Outbound D
  underway : List Frame
  lost : List Frame
  heard : Nat
  listening : Option (Listening D)

namespace Link

/-- An acceptor waits for the Logon before its loop begins. -/
def start (party : Party) (peer : Peer) : Link D where
  outbound := Outbound.start peer.sender peer.target
  underway := []
  lost := []
  heard := 0
  listening := match party with
    | .acceptor => none
    | .initiator _ => some ⟨Loop.initiating, Loop.initiating, []⟩

/-- The frames that are written between two states of a writer. -/
def fresh (x y : Outbound D) : List Frame := Outbound.marked (y.log.drop x.log.length)

variable [Chrono]

/-- What can happen: the writer moves on, a frame is lost, the acceptor takes up the
Logon, and the loop takes a message from its queue or else from the wire. -/
inductive Move (party : Party) (peer : Peer) (x : Link D) : Link D → Prop where
  | outbound {y : Outbound D} (move : Outbound.Move x.outbound y) :
      Move party peer x { x with outbound := y, underway := x.underway ++ fresh x.outbound y }
  | lose {before after : List Frame} {frame : Frame}
      (gone : x.underway = before ++ frame :: after) :
      Move party peer x { x with underway := before ++ after, lost := x.lost ++ [frame] }
  | logOn {frame : Frame} {rest : List Frame} {message : FixMessage} {config : AcceptorConfig}
      {client : String} {heart seq : Nat} (accepting : party = .acceptor)
      (waiting : x.listening = none) (first : x.underway = frame :: rest)
      (read : Framed frame.bytes message)
      (valid : validateLogon message config = .ok (client, heart, seq)) :
      Move party peer x { x with
        underway := rest
        heard := frame.mark
        listening := some ⟨Loop.accepting message seq, Loop.accepting message seq, []⟩ }
  | early {l : Listening D} {message : FixMessage} {sequence : SequenceState} {turn : Turn D}
      {after : Loop} (here : x.listening = some l) (opened : l.loop.opened)
      (queued : l.loop.sequence.takeReady = (some message, sequence))
      (taken : { l.loop with sequence := sequence }.consume party peer message =
        .ok (turn, after)) :
      Move party peer x { x with
        listening := some (l.turn { l.loop with sequence := sequence } message turn after) }
  | read {l : Listening D} {frame : Frame} {rest : List Frame} {message : FixMessage}
      {turn : Turn D} {after : Loop} (here : x.listening = some l) (opened : l.loop.opened)
      (ready : l.loop.sequence.takeReady.1 = none) (first : x.underway = frame :: rest)
      (read : Framed frame.bytes message)
      (taken : l.loop.consume party peer message = .ok (turn, after)) :
      Move party peer x { x with
        underway := rest
        heard := frame.mark
        listening := some (l.turn l.loop message turn after) }

def Runs (party : Party) (peer : Peer) : Link D → Link D → Prop :=
  Relation.ReflTransGen (Move party peer)

end Link

/-- A message that comes up at a loop: nothing that was written after it has been heard,
and a numbered one is not behind the cursor. -/
structure Arrives [Chrono] (peer : Peer) (state : SequenceState) (heard : Nat) (frame : Frame)
    (message : FixMessage) : Prop where
  carries : Carries peer frame message
  past : frame.mark ≤ heard
  cursor : state.expected ≤ heard + 1
  ahead : frame.counts = true → state.expected ≤ frame.mark

section Arrives

variable [Chrono] {peer : Peer} {state : SequenceState} {heard : Nat} {frame : Frame}
  {message : FixMessage}

omit [Chrono] in
theorem advance_next (kind : message.msgType ≠ some "4")
    (numbered : message.parseRequiredSeq = .ok state.expected) :
    ∃ next, state.advance message = .ok next := by
  refine ⟨⟨min (state.expected + 1) u64Max, state.queued,
    SequenceState.stillResent (min (state.expected + 1) u64Max) state.resendFrom⟩, ?_⟩
  unfold SequenceState.advance
  simp only [numbered, bind, Except.bind, kind, if_false, ne_eq, not_true_eq_false]

omit [Chrono] in
theorem advance_reset {seq newSeq : Nat} (kind : message.msgType = some "4")
    (numbered : message.parseRequiredSeq = .ok seq)
    (target : message.parseRequiredU64 36 = .ok newSeq) (above : state.expected < newSeq) :
    state.advance message = .ok ⟨newSeq, state.queued.filter (fun entry => newSeq ≤ entry.1),
      SequenceState.stillResent newSeq state.resendFrom⟩ := by
  unfold SequenceState.advance
  simp only [numbered, target, kind, bind, Except.bind, if_true, not_le.mpr above, if_false]

omit [Chrono] in
/-- A number at or after the cursor is placed, if there is room. -/
theorem place_ahead (message : FixMessage) {seq : Nat} (ahead : state.expected ≤ seq)
    (room : state.queued.size < maxQueuedMessages) :
    ∃ action state', state.place message seq = .ok (action, state') ∧
      (action = .ready → seq = state.expected) := by
  unfold SequenceState.place
  rw [if_neg (not_lt.mpr ahead)]
  split
  · rw [if_neg (not_le.mpr room)]
    exact ⟨_, _, rfl, nofun⟩
  · exact ⟨_, _, rfl, fun _ => by omega⟩

/-- The state machine has no objection, unless its queue is full. -/
theorem Arrives.classified (h : Arrives peer state heard frame message)
    (room : state.queued.size < maxQueuedMessages) :
    ∃ action state', state.classify message = .ok (action, state') ∧
      (action = .ready → ∃ next, state.advance message = .ok next) := by
  cases h.carries with
  | ordinary sent =>
    have numbered := validateHeader_seq sent.header
    obtain ⟨action, state', placed, ready⟩ :=
      place_ahead message (h.ahead sent.counts) room
    refine ⟨action, state', ?_, ?_⟩
    · unfold SequenceState.classify
      simp only [numbered, bind, Except.bind, sent.kind, if_false, placed]
    · intro taken
      exact advance_next sent.kind (numbered.trans (congrArg Except.ok (ready taken)))
  | @filling beginSeq newSeq sent =>
    have numbered := validateHeader_seq sent.header
    have classify : state.classify message =
        if state.overrides message beginSeq newSeq then .ok (.ready, state)
        else state.place message beginSeq := by
      unfold SequenceState.classify
      simp only [numbered, sent.target, sent.kind, bind, Except.bind, if_true]
      rfl
    rw [classify]
    by_cases low : beginSeq < state.expected
    · by_cases high : state.expected < newSeq
      · rw [if_pos (by simp [SequenceState.overrides, low, high, sent.duplicate])]
        exact ⟨_, _, rfl, fun _ => ⟨_, advance_reset sent.kind numbered sent.target high⟩⟩
      · rw [if_neg (by simp [SequenceState.overrides, sent.flag, high])]
        unfold SequenceState.place
        rw [if_pos low, if_pos sent.duplicate]
        exact ⟨_, _, rfl, nofun⟩
    · rw [if_neg (by simp [SequenceState.overrides, sent.flag, low])]
      obtain ⟨action, state', placed, ready⟩ :=
        place_ahead message (not_lt.mp low) room
      refine ⟨action, state', placed, fun taken => ?_⟩
      exact ⟨_, advance_reset sent.kind numbered sent.target (ready taken ▸ sent.covers)⟩

/-- What is taken up was written before what has been heard. -/
theorem Arrives.reached (h : Arrives peer state heard frame message)
    (cursor : AtCursor state message) : state.expected ≤ heard := by
  have past := h.past
  obtain ⟨seq, numbered, here⟩ := cursor
  cases h.carries with
  | ordinary sent =>
    rw [if_neg sent.kind] at here
    obtain rfl : seq = frame.mark :=
      Except.ok.inj (numbered.symm.trans (validateHeader_seq sent.header))
    omega
  | @filling beginSeq newSeq sent =>
    rw [if_pos sent.kind] at here
    obtain rfl : seq = beginSeq :=
      Except.ok.inj (numbered.symm.trans (validateHeader_seq sent.header))
    obtain ⟨target, read, here⟩ := here
    obtain rfl : target = newSeq := Except.ok.inj (read.symm.trans sent.target)
    have covers := sent.covers
    have bound := sent.sent
    rcases here with overrides | same
    · simp only [SequenceState.overrides, sent.flag, bne_self_eq_false, Bool.false_or,
        Bool.and_eq_true, decide_eq_true_eq] at overrides
      omega
    · omega

variable {party : Party} {loop loop' : Loop} {turn : Turn D}

/-- A loop closes on what arrives only before the Logon, or with its queue full. -/
theorem Arrives.closed (h : Arrives peer loop.sequence heard frame message) {reason : String}
    (taken : loop.consume (D := D) party peer message = .ok (.closed reason, loop')) :
    (loop.first = true ∧ message.msgType ≠ some "A" ∧ message.msgType ≠ some "5") ∨
      maxQueuedMessages ≤ loop.sequence.queued.size := by
  by_contra other
  obtain ⟨answer, room⟩ := not_or.mp other
  obtain ⟨action, state', classified, ready⟩ := h.classified (not_le.mp room)
  have header : ∃ n, validateHeader message peer = .ok n := by
    cases h.carries with
    | ordinary sent => exact ⟨_, sent.header⟩
    | filling sent => exact ⟨_, sent.header⟩
  obtain ⟨n, header⟩ := header
  unfold Loop.consume at taken
  rw [header] at taken
  dsimp only at taken
  rw [if_neg answer, classified] at taken
  cases action with
  | gap request => cases taken
  | duplicate => cases taken
  | ready =>
    obtain ⟨next, advanced⟩ := ready rfl
    obtain rfl := (SequenceState.classify_spec classified).ready_same
    obtain ⟨outcome, decoded, taken⟩ := Exec.bind_ok.mp taken
    cases outcome with
    | error reason => cases taken
    | ok inbound =>
      dsimp only at taken
      rw [advanced] at taken
      cases taken

/-- The cursor stays within what has been heard. -/
theorem Arrives.cursor_le (h : Arrives peer loop.sequence heard frame message)
    (small : heard < u64Max) (consumed : Consumed party peer loop message turn loop') :
    loop'.sequence.expected ≤ heard + 1 := by
  have cursor := h.cursor
  cases consumed with
  | closed same _ =>
    rw [same]
    exact cursor
  | duplicate classified | gap classified =>
    rw [classified.expected]
    exact cursor
  | rejected taken refused skipped =>
    have reached := h.reached taken.cursor
    rw [skipped, skip_expected (by omega)]
    omega
  | dispatched taken decoded advanced =>
    have reached := h.reached taken.cursor
    generalize loop'.sequence = state at advanced
    cases advanced with
    | next kind numbered =>
      dsimp only
      omega
    | @reset newSeq kind target above =>
      cases h.carries with
      | ordinary sent => exact absurd kind sent.kind
      | filling sent =>
        have bound := sent.sent
        have past := h.past
        obtain rfl := Except.ok.inj (target.symm.trans sent.target)
        dsimp only
        omega

/-- A resend is asked for from the cursor, which only moves on. -/
theorem Arrives.resent (h : Arrives peer loop.sequence heard frame message)
    (small : heard < u64Max) (consumed : Consumed party peer loop message turn loop')
    (before : ∀ first, loop.sequence.resendFrom = some first → first ≤ loop.sequence.expected) :
    ∀ first, loop'.sequence.resendFrom = some first → first ≤ loop'.sequence.expected := by
  cases consumed with
  | closed same _ =>
    rw [same]
    exact before
  | duplicate classified =>
    generalize loop'.sequence = state at classified ⊢
    cases classified with
    | duplicate => exact before
  | gap classified =>
    generalize loop'.sequence = state at classified ⊢
    cases classified with
    | gap numbered high room =>
      intro first asked
      cases earlier : loop.sequence.resendFrom with
      | none =>
        rw [earlier] at asked
        exact (Option.some.inj asked).ge
      | some start =>
        rw [earlier] at asked
        obtain rfl := Option.some.inj asked
        exact before start earlier
  | rejected taken refused skipped =>
    intro first asked
    rw [skipped] at asked ⊢
    have reached := h.reached taken.cursor
    have earlier := before first asked
    rw [skip_expected (by omega)]
    omega
  | dispatched taken decoded advanced =>
    intro first asked
    have earlier := before first (advanced.resent asked)
    have reached := h.reached taken.cursor
    generalize loop'.sequence = state at advanced asked ⊢
    cases advanced with
    | next => dsimp only; omega
    | reset kind target above => dsimp only; omega

/-- Only the message itself joins the queue, under its number. -/
theorem Consumed.queued (consumed : Consumed party peer loop message turn loop') {seq : Nat}
    {waiting : FixMessage} (waits : loop'.sequence.queued.get? seq = some waiting) :
    loop.sequence.queued.get? seq = some waiting ∨
      waiting = message ∧ message.parseRequiredSeq = .ok seq := by
  cases consumed with
  | closed same _ => exact .inl (same ▸ waits)
  | duplicate classified =>
    generalize loop'.sequence = state at classified waits
    cases classified with
    | duplicate => exact .inl waits
  | gap classified =>
    generalize loop'.sequence = state at classified waits
    cases classified with
    | @gap seq' numbered high room =>
      dsimp only [SequenceState.enqueue] at waits
      split at waits
      · exact .inl waits
      · rw [SortedMap.get?_insert] at waits
        split at waits
        · rename_i same
          exact .inr ⟨(Option.some.inj waits).symm, same ▸ numbered⟩
        · exact .inl waits
  | rejected taken refused skipped =>
    rw [skipped] at waits
    exact .inl waits
  | dispatched taken decoded advanced =>
    generalize loop'.sequence = state at advanced waits
    cases advanced with
    | next => exact .inl waits
    | reset kind target above =>
      rw [SortedMap.get?_filter] at waits
      exact .inl (Option.filter_eq_some_iff.mp waits).1

/-- What is dispatched, other than a sequence reset, is a numbered message. -/
theorem Arrives.dispatched (h : Arrives peer loop.sequence heard frame message)
    (consumed : Consumed party peer loop message turn loop')
    (sends : message ∈ dispatches [⟨loop, message, turn, loop'⟩]) :
    frame.counts = true ∧ message.parseRequiredSeq = .ok frame.mark := by
  cases h.carries with
  | ordinary sent => exact ⟨sent.counts, validateHeader_seq sent.header⟩
  | filling sent =>
    cases consumed with
    | dispatched taken decoded advanced =>
      obtain ⟨gapFill, rfl⟩ := decode_reset sent.kind sent.target decoded
      cases sends
    | closed | duplicate | gap | rejected => cases sends

end Arrives

/-- Where the messages in a queue come from. -/
def Stored [Chrono] (peer : Peer) (frames : List Frame) (heard : Nat)
    (queued : SortedMap Nat FixMessage) : Prop :=
  ∀ seq message, queued.get? seq = some message → ∃ frame ∈ frames,
    parseWire frame.bytes = .ok message ∧ Carries peer frame message ∧ frame.mark ≤ heard ∧
      message.parseRequiredSeq = .ok seq

/-- A loop in agreement with the frames it has heard. -/
structure Hears [Chrono] (party : Party) (peer : Peer) (frames : List Frame) (heard : Nat)
    (l : Listening D) : Prop where
  starts : Starts party l.start
  reads : Reads party peer l.start l.turns l.loop
  cursor : l.loop.sequence.expected ≤ heard + 1
  stored : Stored peer frames heard l.loop.sequence.queued
  resent : ∀ first, l.loop.sequence.resendFrom = some first → first ≤ l.loop.sequence.expected
  closed : ∀ t ∈ l.turns, ∀ reason, t.turn = .closed reason →
    (t.before.first = true ∧ t.message.msgType ≠ some "A" ∧ t.message.msgType ≠ some "5") ∨
      maxQueuedMessages ≤ t.before.sequence.queued.size
  dispatched : ∀ message ∈ dispatches l.turns, ∃ frame ∈ frames, frame.counts = true ∧
    parseWire frame.bytes = .ok message ∧ message.parseRequiredSeq = .ok frame.mark
  sequence : InSequence l.turns l.loop.sequence

section Hears

variable [Chrono] {party : Party} {peer : Peer} {frames : List Frame} {heard : Nat}
  {l : Listening D}

theorem Hears.more (h : Hears party peer frames heard l) (added : List Frame) :
    Hears party peer (frames ++ added) heard l := by
  refine ⟨h.starts, h.reads, h.cursor, ?_, h.resent, h.closed, ?_, h.sequence⟩
  · intro seq message waits
    obtain ⟨frame, mem, rest⟩ := h.stored seq message waits
    exact ⟨frame, List.mem_append_left _ mem, rest⟩
  · intro message mem
    obtain ⟨frame, mem, rest⟩ := h.dispatched message mem
    exact ⟨frame, List.mem_append_left _ mem, rest⟩

/-- A turn on a message that comes up keeps the agreement. -/
theorem Hears.turn (h : Hears party peer frames heard l) {before after : Loop}
    {message : FixMessage} {turn : Turn D} {heard' : Nat} {frame : Frame}
    (same : before.sequence.expected = l.loop.sequence.expected)
    (sub : ∀ seq waiting, before.sequence.queued.get? seq = some waiting →
      l.loop.sequence.queued.get? seq = some waiting)
    (asked : before.sequence.resendFrom = l.loop.sequence.resendFrom)
    (reads : Reads party peer l.start (l.turns ++ [⟨before, message, turn, after⟩]) after)
    (taken : before.consume party peer message = .ok (turn, after)) (later : heard ≤ heard')
    (small : heard' < u64Max) (mem : frame ∈ frames) (parsed : parseWire frame.bytes = .ok message)
    (arrives : Arrives peer before.sequence heard' frame message) :
    Hears party peer frames heard' (l.turn before message turn after) := by
  have consumed := Loop.consume_spec taken
  refine ⟨h.starts, reads, arrives.cursor_le small consumed, ?_, ?_, ?_, ?_, ?_⟩
  · intro seq waiting waits
    rcases consumed.queued waits with old | ⟨rfl, numbered⟩
    · obtain ⟨frame, mem, parsed, carries, past, numbered⟩ := h.stored seq waiting (sub _ _ old)
      exact ⟨frame, mem, parsed, carries, past.trans later, numbered⟩
    · exact ⟨frame, mem, parsed, arrives.carries, arrives.past, numbered⟩
  · refine arrives.resent small consumed ?_
    rw [asked, same]
    exact h.resent
  · intro t inside reason closed
    rcases List.mem_append.mp inside with old | new
    · exact h.closed t old reason closed
    · cases List.mem_singleton.mp new
      dsimp only at closed ⊢
      exact arrives.closed (closed ▸ taken)
  · intro sent inside
    have split : dispatches (l.turns ++ [⟨before, message, turn, after⟩]) =
        dispatches l.turns ++ dispatches [⟨before, message, turn, after⟩] := dispatches_snoc ..
    change sent ∈ dispatches (l.turns ++ [⟨before, message, turn, after⟩]) at inside
    rw [split] at inside
    rcases List.mem_append.mp inside with old | new
    · exact h.dispatched sent old
    · rcases dispatches_single before after message turn with none_ | one
      · rw [none_] at new
        cases new
      · rw [one] at new
        obtain rfl := List.mem_singleton.mp new
        obtain ⟨counts, numbered⟩ := arrives.dispatched consumed (one ▸ List.mem_singleton_self _)
        exact ⟨frame, mem, counts, parsed, numbered⟩
  · have held : InSequence l.turns before.sequence := by
      refine ⟨h.sequence.increasing, ?_⟩
      rw [same]
      exact h.sequence.below
    exact held.turn taken fun takenUp _ => (arrives.reached takenUp.cursor).trans_lt small

end Hears

omit [DecimalText D] in
/-- The frames written between two states of a writer come after everything before. -/
theorem fresh_spec [Chrono] {x y : Outbound D} (progress : Outbound.Progress x y)
    (small : y.writer.seq < u64Max) :
    Outbound.marked y.log = Outbound.marked x.log ++ Link.fresh x y ∧
      ∀ frame ∈ Link.fresh x y,
        x.writer.seq ≤ frame.mark ∧ (frame.counts = true → x.writer.seq < frame.mark) := by
  have le := progress.seq_le small
  unfold Link.fresh
  cases progress with
  | silent log seq like =>
    rw [log, List.drop_length]
    exact ⟨(List.append_nil _).symm, fun frame mem => by cases mem⟩
  | @handled prompted built now ids out bytes round log =>
    rw [log, List.drop_left]
    refine ⟨List.filterMap_append, ?_⟩
    intro frame mem
    obtain ⟨seq, -⟩ := Outbound.round_seq round
    obtain ⟨entry, only, written⟩ := List.mem_filterMap.mp mem
    cases List.mem_singleton.mp only
    obtain ⟨_, -, rfl⟩ := Option.map_eq_some_iff.mp written
    refine ⟨le, fun counts => ?_⟩
    dsimp only at counts ⊢
    rw [if_pos counts] at seq
    omega

namespace Link

variable [Chrono] {party : Party} {peer : Peer} {x y : Link D}

/-- The agreement of a writer, the frames on their way and the loop. -/
structure Agrees (party : Party) (peer : Peer) (x : Link D) : Prop where
  legible : Outbound.Legible peer x.outbound
  known : ∀ frame ∈ x.underway, frame ∈ Outbound.marked x.outbound.log
  ordered : x.underway.Pairwise Frame.Follows
  ahead : ∀ frame ∈ x.underway, x.heard ≤ frame.mark ∧ (frame.counts = true → x.heard < frame.mark)
  heard : x.heard ≤ x.outbound.writer.seq
  hears : ∀ l, x.listening = some l →
    Hears party peer (Outbound.marked x.outbound.log) x.heard l

theorem agrees_start (version : peer.beginString = "FIX.4.2") (sender : Value peer.sender)
    (target : Value peer.target) : Agrees party peer (start party peer : Link D) := by
  refine ⟨⟨⟨⟨rfl, version⟩, ⟨rfl, sender⟩, ⟨rfl, target⟩⟩, .nil, fun _ mem => (by cases mem)⟩,
    fun _ mem => (by cases mem), .nil, fun _ mem => (by cases mem), le_refl _, ?_⟩
  intro l here
  cases party with
  | acceptor => cases here
  | initiator heartBtInt =>
    cases here
    refine ⟨.initiator heartBtInt, .start, le_refl _, ?_, nofun, ?_, ?_, ?_⟩
    · intro seq message waits
      cases waits
    · intro t mem
      cases mem
    · intro message mem
      cases mem
    · exact ⟨.nil, fun message mem => (by cases mem)⟩

theorem Agrees.outbound (h : Agrees party peer x) {o : Outbound D}
    (move : Outbound.Move x.outbound o) (valid : o.Valid) (small : o.writer.seq < u64Max) :
    Agrees party peer { x with outbound := o, underway := x.underway ++ fresh x.outbound o } := by
  have progress := Outbound.move_progress move
  have legible := h.legible.progress progress valid small
  obtain ⟨grown, beyond⟩ := fresh_spec progress small
  have follows := legible.marks.follows
  rw [grown, List.pairwise_append] at follows
  have bound := h.heard
  refine ⟨legible, ?_, ?_, ?_, bound.trans (progress.seq_le small), ?_⟩
  · intro frame mem
    dsimp only at mem ⊢
    rw [grown]
    rcases List.mem_append.mp mem with old | new
    · exact List.mem_append_left _ (h.known frame old)
    · exact List.mem_append_right _ new
  · refine List.pairwise_append.mpr ⟨h.ordered, follows.2.1, ?_⟩
    exact fun a mem b new => follows.2.2 a (h.known a mem) b new
  · intro frame mem
    rcases List.mem_append.mp mem with old | new
    · exact h.ahead frame old
    · obtain ⟨le, lt⟩ := beyond frame new
      exact ⟨bound.trans le, fun counts => bound.trans_lt (lt counts)⟩
  · intro l here
    dsimp only
    rw [grown]
    exact (h.hears l here).more _

/-- Reading the first frame moves what has been heard up to it. -/
theorem Agrees.head (h : Agrees party peer x) {frame : Frame} {rest : List Frame}
    (first : x.underway = frame :: rest) :
    x.heard ≤ frame.mark ∧ frame ∈ Outbound.marked x.outbound.log ∧
      frame.mark ≤ x.outbound.writer.seq ∧
      (∀ later ∈ rest, frame.Follows later) ∧ rest.Pairwise Frame.Follows := by
  have mem : frame ∈ x.underway := first ▸ List.mem_cons_self
  have known := h.known frame mem
  have ordered := h.ordered
  rw [first, List.pairwise_cons] at ordered
  exact ⟨(h.ahead frame mem).1, known, h.legible.marks.le frame known, ordered.1, ordered.2⟩

theorem Agrees.lose (h : Agrees party peer x) {before after : List Frame} {frame : Frame}
    (gone : x.underway = before ++ frame :: after) :
    Agrees party peer { x with underway := before ++ after, lost := x.lost ++ [frame] } := by
  have sub : (before ++ after).Sublist x.underway := by
    rw [gone]
    exact (List.Sublist.refl before).append (List.sublist_cons_self frame after)
  exact ⟨h.legible, fun f mem => h.known f (sub.subset mem), h.ordered.sublist sub,
    fun f mem => h.ahead f (sub.subset mem), h.heard, h.hears⟩

/-- What the peer reads is what the writer put into the frame. -/
theorem Agrees.carried (h : Agrees party peer x) {frame : Frame}
    (known : frame ∈ Outbound.marked x.outbound.log) {message : FixMessage}
    (parsed : parseWire frame.bytes = .ok message) : Carries peer frame message := by
  obtain ⟨written, read, carries⟩ := h.legible.carried frame known
  cases Except.ok.inj (parsed.symm.trans read)
  exact carries

/-- Reading the first frame, whatever the reader becomes. -/
theorem Agrees.hear (h : Agrees party peer x) {frame : Frame} {rest : List Frame}
    (first : x.underway = frame :: rest) {l : Listening D}
    (hears : Hears party peer (Outbound.marked x.outbound.log) frame.mark l) :
    Agrees party peer { x with
      underway := rest
      heard := frame.mark
      listening := some l } := by
  obtain ⟨-, -, bound, follows, ordered⟩ := h.head first
  refine ⟨h.legible, ?_, ordered, follows, bound, ?_⟩
  · intro f mem
    exact h.known f (first ▸ List.mem_cons_of_mem _ mem)
  · intro l' here
    cases here
    exact hears

theorem validateLogon_ok {message : FixMessage} {config : AcceptorConfig} {client : String}
    {heart seq : Nat} (h : validateLogon message config = .ok (client, heart, seq)) :
    message.msgType = some "A" ∧ message.parseRequiredSeq = .ok seq := by
  unfold validateLogon at h
  by_cases version : message.beginString ≠ config.beginString
  · rw [if_pos version] at h
    cases h
  rw [if_neg version] at h
  by_cases kind : message.msgType ≠ some "A"
  · rw [if_pos kind] at h
    cases h
  rw [if_neg kind] at h
  obtain ⟨_, -, h⟩ := bind_eq_ok.mp h
  obtain ⟨addressee, -, h⟩ := bind_eq_ok.mp h
  by_cases known : addressee ≠ config.senderCompId
  · rw [if_pos known] at h
    cases h
  rw [if_neg known] at h
  obtain ⟨_, -, h⟩ := bind_eq_ok.mp h
  obtain ⟨_, -, h⟩ := bind_eq_ok.mp h
  obtain ⟨_, -, h⟩ := bind_eq_ok.mp h
  obtain ⟨method, -, h⟩ := bind_eq_ok.mp h
  by_cases plain : method ≠ "0"
  · rw [if_pos plain] at h
    cases h
  rw [if_neg plain] at h
  obtain ⟨interval, -, h⟩ := bind_eq_ok.mp h
  by_cases large : 2 ^ 32 ≤ interval
  · rw [if_pos large] at h
    cases h
  rw [if_neg large] at h
  obtain ⟨_, numbered, h⟩ := bind_eq_ok.mp h
  cases h
  exact ⟨not_not.mp kind, numbered⟩

omit [Chrono] in
theorem parseRequiredU64_pos {message : FixMessage} {tag n : Nat}
    (h : message.parseRequiredU64 tag = .ok n) : 0 < n := by
  unfold FixMessage.parseRequiredU64 at h
  split at h
  · cases h
  split at h
  · cases h
  split at h
  · cases h
  · rename_i nonzero
    cases h
    exact Nat.pos_of_ne_zero nonzero

/-- The loop of an acceptor begins behind its Logon. -/
theorem hears_accepting {frames : List Frame} {frame : Frame} {message : FixMessage} {seq : Nat}
    (known : frame ∈ frames) (parsed : parseWire frame.bytes = .ok message)
    (carries : Carries peer frame message) (kind : message.msgType = some "A")
    (numbered : message.parseRequiredSeq = .ok seq) :
    Hears (D := D) .acceptor peer frames frame.mark
      ⟨Loop.accepting message seq, Loop.accepting message seq, []⟩ := by
  have positive := parseRequiredU64_pos numbered
  have mark : frame.mark = seq := by
    cases carries with
    | ordinary sent =>
      exact Except.ok.inj ((validateHeader_seq sent.header).symm.trans numbered)
    | filling sent =>
      rw [sent.kind] at kind
      exact absurd kind (by decide)
  refine ⟨.acceptor numbered, .start, ?_, ?_, ?_, ?_, ?_, ?_⟩
  · unfold Loop.accepting SequenceState.new
    dsimp only
    split
    · exact Nat.le_add_left 1 _
    · dsimp only
      split <;> omega
  · intro n waiting waits
    unfold Loop.accepting SequenceState.new at waits
    dsimp only at waits
    split at waits
    · rw [SortedMap.get?_insert] at waits
      split at waits
      · rename_i same
        cases waits
        exact ⟨frame, known, parsed, carries, le_refl _, same ▸ numbered⟩
      · cases waits
    · cases waits
  · intro first asked
    unfold Loop.accepting SequenceState.new at asked ⊢
    dsimp only at asked ⊢
    split at asked
    · cases asked
      rw [if_pos ‹_›]
    · cases asked
  · intro t mem
    cases mem
  · intro sent mem
    cases mem
  · exact ⟨.nil, fun sent mem => (by cases mem)⟩

omit [Chrono] in
theorem next_early {loop : Loop} {message : FixMessage} {sequence : SequenceState}
    (queued : loop.sequence.takeReady = (some message, sequence)) (socket : FixMessage) :
    loop.next socket = (message, { loop with sequence := sequence }) := by
  unfold Loop.next
  rw [queued]

omit [Chrono] in
theorem next_fresh {loop : Loop} (ready : loop.sequence.takeReady.1 = none)
    (socket : FixMessage) : loop.next socket = (socket, loop) := by
  unfold Loop.next
  generalize loop.sequence.takeReady = taken at ready
  obtain ⟨_, sequence⟩ := taken
  cases ready
  rfl

theorem Agrees.move (h : Agrees party peer x) (move : Move party peer x y)
    (valid : y.outbound.Valid) (small : y.outbound.writer.seq < u64Max) :
    Agrees party peer y := by
  cases move with
  | outbound move => exact h.outbound move valid small
  | lose gone => exact h.lose gone
  | @logOn frame rest message config client heart seq accepting waiting first read accepted =>
    subst accepting
    obtain ⟨-, known, -⟩ := h.head first
    obtain ⟨kind, numbered⟩ := validateLogon_ok accepted
    have parsed := (framed_iff.mp read).2.1
    exact h.hear first (hears_accepting known parsed (h.carried known parsed) kind numbered)
  | @early l message sequence turn after here opened queued taken =>
    have hears := h.hears l here
    obtain ⟨found, rfl⟩ := Prod.mk.inj queued
    obtain ⟨frame, known, parsed, carries, past, numbered⟩ := hears.stored _ _ found
    have ahead : frame.counts = true → l.loop.sequence.expected ≤ frame.mark := by
      intro counts
      cases carries with
      | ordinary sent =>
        exact (Except.ok.inj (numbered.symm.trans (validateHeader_seq sent.header))).le
      | filling sent =>
        rw [sent.counts] at counts
        cases counts
    have reads := next_early queued message ▸ Reads.turn message hears.reads opened
      (by rw [next_early queued]; exact taken)
    refine ⟨h.legible, h.known, h.ordered, h.ahead, h.heard, fun l' same => ?_⟩
    cases same
    refine hears.turn rfl ?_ rfl reads taken le_rfl (h.heard.trans_lt small) known parsed
      ⟨carries, past, hears.cursor, ahead⟩
    intro n waiting waits
    dsimp only at waits
    rw [SortedMap.get?_erase] at waits
    split at waits
    · cases waits
    · exact waits
  | @read l frame rest message turn after here opened ready first read taken =>
    obtain ⟨later, known, bound, -⟩ := h.head first
    have parsed := (framed_iff.mp read).2.1
    have hears := h.hears l here
    have ahead : frame.counts = true → l.loop.sequence.expected ≤ frame.mark := by
      intro counts
      have beyond := (h.ahead frame (first ▸ List.mem_cons_self)).2 counts
      have cursor := hears.cursor
      omega
    have reads := next_fresh ready message ▸ Reads.turn message hears.reads opened
      (by rw [next_fresh ready]; exact taken)
    exact h.hear first (hears.turn rfl (fun _ _ => id) rfl reads taken later (bound.trans_lt small)
      known parsed ⟨h.carried known parsed, le_rfl, hears.cursor.trans (by omega), ahead⟩)

theorem seq_le (move : Move party peer x y) (small : y.outbound.writer.seq < u64Max) :
    x.outbound.writer.seq ≤ y.outbound.writer.seq := by
  cases move with
  | outbound move => exact (Outbound.move_progress move).seq_le small
  | lose | logOn | early | read => exact le_rfl

theorem move_valid (move : Move party peer x y) (valid : y.outbound.Valid) :
    x.outbound.Valid := by
  cases move with
  | outbound move => exact (Outbound.move_progress move).valid valid
  | lose | logOn | early | read => exact valid

theorem agrees_run (version : peer.beginString = "FIX.4.2") (sender : Value peer.sender)
    (target : Value peer.target) (run : Runs party peer (start party peer) x)
    (valid : x.outbound.Valid) (small : x.outbound.writer.seq < u64Max) :
    Agrees party peer x := by
  induction run with
  | refl => exact agrees_start version sender target
  | tail _ move ih =>
    have before := ih (move_valid move valid) ((seq_le move small).trans_lt small)
    exact before.move move valid small

end Link

/-- The Logon of an exchange, and a reset from the second message on. -/
def logonFrame : List UInt8 :=
  frame "FIX.4.2" "A" 1 "GOX" "CLIENT" "20260912-19:24:59.056" (buildLogon 30)

def resetFrame : List UInt8 :=
  frameGapFill "FIX.4.2" "4" 2 "GOX" "CLIENT" "20260912-19:24:59.056" [(36, "3"), (123, "Y")]

def exchange : Peer := ⟨"FIX.4.2", "GOX", "CLIENT"⟩

theorem framed_sample {bytes : List UInt8} {length : List UInt8} (digits : Digits length)
    (split : bytes = leading (wireBytes "FIX.4.2") length ++ bytes.drop 15)
    (short : (leading (wireBytes "FIX.4.2") length).length ≤ maxPrefixSize)
    (size : frameSize bytes = .ok (some bytes.length)) {message : FixMessage}
    (parsed : parseWire bytes = .ok message) : Framed bytes message := by
  refine framed_iff.mpr ⟨size, parsed, ?_⟩
  rw [split]
  exact (early_leading (by decide) digits).mpr short

/-- A client reads the Logon. -/
theorem logonFrame_read : ∃ message, Framed logonFrame message ∧ ∃ turn after,
    Loop.initiating.consume (D := Dec96) (.initiator 30) exchange message = .ok (turn, after) ∧
    after.opened = true ∧ after.first = false ∧ after.sequence.expected = 2 ∧
    after.sequence.takeReady.1 = none := by
  have ran : ((parseWire logonFrame).toOption.bind fun message =>
      (Loop.initiating.consume (D := Dec96) (.initiator 30) exchange message).toOption.map
        fun read => (read.2.opened, read.2.first, read.2.sequence.expected,
          read.2.sequence.takeReady.1.isNone)) = some (true, false, 2, true) := by decide +kernel
  obtain ⟨message, parsed, ran⟩ := Option.bind_eq_some_iff.mp ran
  obtain ⟨⟨turn, after⟩, taken, facts⟩ := Option.map_eq_some_iff.mp ran
  rw [toOption_eq_some] at parsed taken
  simp only [Prod.mk.injEq, Option.isNone_iff_eq_none] at facts
  exact ⟨message, framed_sample ⟨by decide +kernel, by decide +kernel⟩
    (by decide +kernel : logonFrame = leading _ (wireBytes "64") ++ _) (by decide)
    (by decide +kernel) parsed, turn, after, taken, facts⟩

namespace Link

omit [Decimal D] [DecimalText D] in
theorem fresh_trans {x y z : Outbound D} (first : ∃ more, y.log = x.log ++ more)
    (second : ∃ more, z.log = y.log ++ more) : fresh x z = fresh x y ++ fresh y z := by
  obtain ⟨more, log⟩ := first
  obtain ⟨last, log'⟩ := second
  unfold fresh
  rw [log', log, List.drop_left, List.drop_left, List.append_assoc, List.drop_left]
  exact List.filterMap_append

/-- What a writer does on its own it does on a link. -/
theorem writes [Chrono] {party : Party} {peer : Peer} {x : Link D} {o : Outbound D}
    (run : Outbound.Runs x.outbound o) : Runs party peer x
      { x with outbound := o, underway := x.underway ++ fresh x.outbound o } := by
  induction run with
  | refl =>
    have none_ : fresh x.outbound x.outbound = [] := by
      unfold fresh
      rw [List.drop_length]
      rfl
    rw [none_, List.append_nil]
    exact .refl
  | tail before move ih =>
    rw [fresh_trans (Outbound.runs_grow before) (Outbound.move_progress move).grows,
      ← List.append_assoc]
    exact ih.tail (.outbound move)

/-- A Logon, a heartbeat and a reset are under way. -/
theorem written_sample : ∃ (x : Link Dec96) (heartbeat : List UInt8),
    Runs (.initiator 30) exchange (start (.initiator 30) exchange) x ∧
    x.underway = ⟨logonFrame, 1, true⟩ :: ⟨heartbeat, 2, true⟩ :: [⟨resetFrame, 2, false⟩] ∧
    x.listening = some ⟨Loop.initiating, Loop.initiating, []⟩ ∧ x.lost = [] ∧
    x.outbound.Valid ∧ x.outbound.writer.seq = 2 := by
  have logOn := sound_sample (D := Dec96) "A" (by decide) (buildLogon 30) (by decide)
  have heartbeat := sound_sample (D := Dec96) "0" (by decide) [] (by decide)
  have reset : Sound "now" "20260912-19:24:59.056" none (.gapFill 2 0 : OutMsg Dec96) :=
    ⟨sendingTime_sample, nofun, nofun⟩
  have first := Outbound.spoken (start (D := Dec96) (.initiator 30) exchange).outbound "now"
    "20260912-19:24:59.056" none (.message "A" (buildLogon 30)) rfl rfl
  have second := first.trans
    (Outbound.spoken _ "now" "20260912-19:24:59.056" none (.message "0" []) rfl rfl)
  have third := second.trans
    (Outbound.spoken _ "now" "20260912-19:24:59.056" none (.gapFill 2 0) rfl rfl)
  have run : Runs (.initiator 30) exchange (start (.initiator 30) exchange) _ := writes third
  have one : min (0 + 1) u64Max = 1 := by decide
  have two : min (1 + 1) u64Max = 2 := by decide
  have three : (min (2 + 1) u64Max).repr = "3" := by decide
  have begins : max 2 1 = 2 := by decide
  generalize written : Link.mk _ _ _ _ _ = x at run
  have underway : x.underway = ⟨frame "FIX.4.2" "A" (min (0 + 1) u64Max) "GOX" "CLIENT"
        "20260912-19:24:59.056" (buildLogon 30), min (0 + 1) u64Max, true⟩ ::
      ⟨frame "FIX.4.2" "0" (min (min (0 + 1) u64Max + 1) u64Max) "GOX" "CLIENT"
        "20260912-19:24:59.056" [], min (min (0 + 1) u64Max + 1) u64Max, true⟩ ::
      [⟨frameGapFill "FIX.4.2" "4" (max 2 1) "GOX" "CLIENT" "20260912-19:24:59.056"
        [(36, (min (min (min (0 + 1) u64Max + 1) u64Max + 1) u64Max).repr), (123, "Y")],
        max (min (min (0 + 1) u64Max + 1) u64Max) (min (min (0 + 1) u64Max + 1) u64Max),
        false⟩] := by
    rw [← written]
    rfl
  rw [one, two, three, begins, Nat.max_self] at underway
  refine ⟨x, _, run, underway, ?_, ?_, ?_, ?_⟩
  · rw [← written]
    rfl
  · rw [← written]
    rfl
  · rw [← written]
    exact List.forall_mem_cons.mpr ⟨logOn, List.forall_mem_cons.mpr ⟨heartbeat,
      List.forall_mem_singleton.mpr reset⟩⟩
  · rw [← written]
    decide

end Link

end RustTrader.Fix
