import RustTrader.Fix.Requests
import RustTrader.Fix.Sequence

/-!
# Recovery of inbound messages

What every run of a reader loop keeps of its sequence state, and where a message that
is taken up but not understood breaks it: the loop then moves the cursor past the
bookkeeping of `advance`.
-/

namespace RustTrader.Fix

variable {D : Type} [Decimal D] [DecimalText D]

/-- The early messages are numbered from the cursor on, and not too many. -/
structure Queued (state : SequenceState) : Prop where
  ahead : ∀ seq message, state.queued.get? seq = some message → state.expected ≤ seq
  room : state.queued.size ≤ maxQueuedMessages
  cursor : state.expected ≤ u64Max

theorem parseRequiredU64_le {message : FixMessage} {tag n : Nat}
    (h : message.parseRequiredU64 tag = .ok n) : n ≤ u64Max := by
  unfold FixMessage.parseRequiredU64 at h
  split at h
  · cases h
  split at h
  · cases h
  rename_i parsed
  split at h
  · cases h
  obtain rfl := Except.ok.inj h
  obtain ⟨-, below⟩ := Option.filter_eq_some_iff.mp parsed
  simp only [decide_eq_true_eq] at below
  unfold u64Max
  omega

/-- The state in which a message is taken up: what waits is beyond the cursor. -/
theorem Queued.next {loop : Loop} (h : Queued loop.sequence) (socket : FixMessage) :
    Queued (loop.next socket).2.sequence ∧
    (∀ seq message, (loop.next socket).2.sequence.queued.get? seq = some message →
      (loop.next socket).2.sequence.expected < seq) ∧
    (loop.next socket).2.sequence.expected = loop.sequence.expected ∧
    (loop.next socket).2.sequence.resendFrom = loop.sequence.resendFrom := by
  unfold Loop.next SequenceState.takeReady
  cases found : loop.sequence.queued.get? loop.sequence.expected with
  | none =>
    refine ⟨h, ?_, rfl, rfl⟩
    intro seq message waits
    refine lt_of_le_of_ne (h.ahead seq message waits) ?_
    rintro rfl
    rw [found] at waits
    cases waits
  | some early =>
    have beyond : ∀ seq message, (loop.sequence.queued.erase loop.sequence.expected).get? seq =
        some message → loop.sequence.expected < seq := by
      intro seq message waits
      rw [SortedMap.get?_erase] at waits
      split at waits
      · cases waits
      · rename_i other
        exact lt_of_le_of_ne (h.ahead seq message waits) (Ne.symm other)
    exact ⟨⟨fun seq message waits => (beyond seq message waits).le,
      (SortedMap.size_erase_le _ _).trans h.room, h.cursor⟩, beyond, rfl, rfl⟩

theorem Queued.classified {state state' : SequenceState} {message : FixMessage}
    {action : SequenceAction} (h : Queued state)
    (classified : Classified state message action state') : Queued state' := by
  cases classified with
  | reset | inOrder | duplicate => exact h
  | gap numbered high room =>
    refine ⟨?_, ?_, h.cursor⟩
    · intro seq waiting waits
      dsimp only [SequenceState.enqueue] at waits ⊢
      split at waits
      · exact h.ahead seq waiting waits
      · rw [SortedMap.get?_insert] at waits
        split at waits
        · rename_i same
          omega
        · exact h.ahead seq waiting waits
    · dsimp only [SequenceState.enqueue]
      split
      · exact h.room
      · exact (SortedMap.size_insert_le _ _ _).trans room

theorem Queued.advanced {state state' : SequenceState} {message : FixMessage} (h : Queued state)
    (beyond : ∀ seq message, state.queued.get? seq = some message → state.expected < seq)
    (advanced : Advanced state message state') : Queued state' := by
  cases advanced with
  | reset kind target above =>
    refine ⟨?_, (SortedMap.size_filter_le _ _).trans h.room, parseRequiredU64_le target⟩
    intro seq waiting waits
    dsimp only at waits ⊢
    rw [SortedMap.get?_filter] at waits
    obtain ⟨-, kept⟩ := Option.filter_eq_some_iff.mp waits
    simpa using kept
  | next kind numbered =>
    refine ⟨?_, h.room, Nat.min_le_right _ _⟩
    intro seq waiting waits
    have := beyond seq waiting waits
    exact (Nat.min_le_left _ _).trans this

theorem Queued.skip {state : SequenceState} (h : Queued state)
    (beyond : ∀ seq message, state.queued.get? seq = some message → state.expected < seq) :
    Queued state.skip := by
  refine ⟨?_, h.room, ?_⟩
  · intro seq waiting waits
    exact (Nat.mod_le _ _).trans (beyond seq waiting waits)
  · have below := Nat.mod_lt (state.expected + 1) (show 0 < 2 ^ 64 by decide)
    unfold SequenceState.skip u64Max
    dsimp only
    omega

theorem Queued.consume [Chrono] {party : Party} {peer : Peer} {loop loop' : Loop}
    {message : FixMessage} {turn : Turn D} (h : Queued loop.sequence)
    (beyond : ∀ seq message, loop.sequence.queued.get? seq = some message →
      loop.sequence.expected < seq)
    (consumed : Consumed party peer loop message turn loop') : Queued loop'.sequence := by
  cases consumed with
  | closed kept _ => rwa [kept]
  | duplicate classified => exact h.classified classified
  | gap classified => exact h.classified classified
  | rejected taken refused skipped =>
    rw [skipped]
    exact h.skip beyond
  | dispatched taken decoded advanced => exact h.advanced beyond advanced

theorem Starts.queued {party : Party} {start : Loop} (h : Starts party start) :
    Queued start.sequence := by
  cases h with
  | @acceptor logon seq numbered =>
    unfold Loop.accepting
    split
    · refine ⟨?_, ?_, show 1 ≤ u64Max by decide⟩
      · intro n message waits
        dsimp only at waits ⊢
        rw [SortedMap.get?_insert] at waits
        split at waits
        · omega
        · cases waits
      · exact show 1 ≤ maxQueuedMessages by decide
    · refine ⟨fun n message waits => (by cases waits), Nat.zero_le _, ?_⟩
      dsimp only [SequenceState.new]
      split <;> decide
  | initiator heartBtInt =>
    exact ⟨fun n message waits => (by cases waits), Nat.zero_le _, by decide⟩

/-- In every run the queue is in order, whatever is rejected. -/
theorem Reads.queued [Chrono] {party : Party} {peer : Peer} {start loop : Loop}
    {turns : List (Taken D)} (starts : Starts party start)
    (run : Reads party peer start turns loop) : Queued loop.sequence := by
  induction run with
  | start => exact starts.queued
  | turn socket before opened taken ih =>
    obtain ⟨queued, beyond, -, -⟩ := ih.next socket
    exact queued.consume beyond (Loop.consume_spec taken)

/-- The resend requests of a run. -/
def requests (turns : List (Taken D)) : List Nat :=
  turns.filterMap (fun taken => match taken.turn with
    | .gap request => request
    | _ => none)

/-- All resends asked for: an acceptor whose Logon came early asks before its first turn. -/
def asked (start : Loop) (turns : List (Taken D)) : List Nat :=
  start.sequence.resendFrom.toList ++ requests turns

/-- The outstanding resend begins at the message that is missing. -/
def Current (state : SequenceState) : Prop :=
  ∀ first, state.resendFrom = some first → first = state.expected

/-- No message is refused at the cursor while a resend is outstanding. -/
def Understood [Chrono] (peer : Peer) (taken : Taken D) : Prop :=
  taken.before.sequence.resendFrom = none ∨
    ¬ (TakenUp peer taken.before taken.message ∧ Refused D taken.message)

theorem current_stillResent {state : SequenceState} (h : Current state) {expected : Nat}
    (moved : state.expected ≤ expected) (queued : SortedMap Nat FixMessage) :
    Current ⟨expected, queued, SequenceState.stillResent expected state.resendFrom⟩ := by
  intro first resent
  obtain ⟨before, kept⟩ := Option.filter_eq_some_iff.mp resent
  have same := h first before
  simp only [decide_eq_true_eq] at kept
  dsimp only
  omega

theorem Current.classified {state state' : SequenceState} {message : FixMessage}
    {action : SequenceAction} (h : Current state)
    (classified : Classified state message action state') : Current state' := by
  cases classified with
  | reset | inOrder | duplicate => exact h
  | gap numbered high room =>
    intro first resent
    dsimp only at resent ⊢
    cases before : state.resendFrom with
    | none =>
      rw [before] at resent
      exact (Option.some.inj resent).symm
    | some start =>
      rw [before] at resent
      exact h first (before.trans resent)

theorem Current.advanced {state state' : SequenceState} {message : FixMessage} (h : Current state)
    (cursor : state.expected ≤ u64Max) (advanced : Advanced state message state') :
    Current state' := by
  cases advanced with
  | reset kind target above => exact current_stillResent h above.le _
  | next kind numbered => exact current_stillResent h (le_min (Nat.le_succ _) cursor) _

/-- A skipped message leaves the resend where it was. -/
theorem current_skip {state : SequenceState} (h : Current state) :
    Current state.skip ↔ state.resendFrom = none := by
  constructor
  · intro after
    cases before : state.resendFrom with
    | none => rfl
    | some first =>
      have same := h first before
      have moved : first = (state.expected + 1) % 2 ^ 64 := after first before
      omega
  · intro none_ first resent
    have before : state.resendFrom = some first := resent
    rw [none_] at before
    cases before

theorem Current.consume_iff [Chrono] {party : Party} {peer : Peer} {before after : Loop}
    {message : FixMessage} {turn : Turn D} (h : Current before.sequence)
    (cursor : before.sequence.expected ≤ u64Max)
    (taken : before.consume party peer message = .ok (turn, after)) :
    Current after.sequence ↔ Understood peer ⟨before, message, turn, after⟩ := by
  have rejected := Loop.rejected_iff taken
  have kept : (∀ reason, turn ≠ .rejected reason) → Understood peer
    ⟨before, message, turn, after⟩ := by
    intro other
    refine .inr fun both => ?_
    obtain ⟨reason, same⟩ := rejected.mpr both
    exact other reason same
  cases Loop.consume_spec taken with
  | closed same _ => exact iff_of_true (same ▸ h) (kept fun _ same => by cases same)
  | duplicate classified =>
    exact iff_of_true (h.classified classified) (kept fun _ same => by cases same)
  | gap classified => exact iff_of_true (h.classified classified) (kept fun _ same => by cases same)
  | rejected takenUp refused skipped =>
    rw [skipped, current_skip h]
    exact (or_iff_left (not_not_intro (rejected.mp ⟨_, rfl⟩))).symm
  | dispatched _ _ advanced =>
    exact iff_of_true (h.advanced cursor advanced) (kept fun _ same => by cases same)

omit [Decimal D] [DecimalText D] in
theorem mem_asked_snoc {start : Loop} {turns : List (Taken D)} {first : Nat}
    (h : first ∈ asked start turns) (taken : Taken D) : first ∈ asked start (turns ++ [taken]) := by
  unfold asked requests at *
  rw [List.filterMap_append, ← List.append_assoc]
  exact List.mem_append_left _ h

omit [Decimal D] [DecimalText D] in
theorem asked_gap (start : Loop) (turns : List (Taken D)) (before after : Loop)
    (message : FixMessage) (first : Nat) :
    first ∈ asked start (turns ++ [⟨before, message, .gap (some first), after⟩]) := by
  unfold asked requests
  rw [List.filterMap_append]
  exact List.mem_append_right _ (List.mem_append_right _ List.mem_cons_self)

/-- The turns of a run: each takes a message up in a state with its queue in order. -/
theorem Reads.mem [Chrono] {party : Party} {peer : Peer} {start loop : Loop}
    {turns : List (Taken D)} (starts : Starts party start)
    (run : Reads party peer start turns loop) {t : Taken D} (mem : t ∈ turns) :
    Queued t.before.sequence ∧ t.before.consume party peer t.message = .ok (t.turn, t.after) := by
  induction run with
  | start => cases mem
  | turn socket before opened taken ih =>
    rcases List.mem_append.mp mem with mem | mem
    · exact ih mem
    · rw [List.mem_singleton.mp mem]
      exact ⟨((before.queued starts).next socket).1, taken⟩

/-- What is outstanding was asked for, and so is every gap. -/
structure Asked (start : Loop) (turns : List (Taken D)) (state : SequenceState) : Prop where
  current : Current state
  sent : ∀ first, state.resendFrom = some first → first ∈ asked start turns
  gaps : ∀ taken ∈ turns, ∀ request, taken.turn = .gap request →
    taken.before.sequence.expected ∈ asked start turns

theorem Advanced.resent {state state' : SequenceState} {message : FixMessage}
    (h : Advanced state message state') {first : Nat} (resent : state'.resendFrom = some first) :
    state.resendFrom = some first := by
  cases h with
  | reset | next => exact (Option.filter_eq_some_iff.mp resent).1

/-- A resend that is outstanding was so before, or has just been asked for. -/
theorem Consumed.resent [Chrono] {party : Party} {peer : Peer} {before after : Loop}
    {message : FixMessage} {turn : Turn D} (h : Consumed party peer before message turn after)
    {first : Nat} (resent : after.sequence.resendFrom = some first) :
    before.sequence.resendFrom = some first ∨ turn = .gap (some first) := by
  cases h with
  | closed kept _ => exact .inl (kept ▸ resent)
  | duplicate classified =>
    left
    generalize after.sequence = state at classified resent
    cases classified
    exact resent
  | gap classified =>
    generalize after.sequence = state at classified resent
    cases classified with
    | gap numbered high room =>
      unfold SequenceState.request
      cases outstanding : before.sequence.resendFrom with
      | none =>
        rw [outstanding] at resent
        exact .inr (congrArg Turn.gap resent)
      | some start =>
        rw [outstanding] at resent
        exact .inl resent
  | rejected _ _ skipped =>
    rw [skipped] at resent
    exact .inl resent
  | dispatched _ _ advanced => exact .inl (advanced.resent resent)

/-- A gap leaves a resend outstanding and the cursor where it was. -/
theorem Consumed.gapped [Chrono] {party : Party} {peer : Peer} {before after : Loop}
    {message : FixMessage} {request : Option Nat}
    (h : Consumed (D := D) party peer before message (.gap request) after) :
    after.sequence.expected = before.sequence.expected ∧
      ∃ first, after.sequence.resendFrom = some first := by
  cases h with
  | gap classified =>
    generalize after.sequence = state at classified
    cases classified with
    | gap => exact ⟨rfl, _, rfl⟩

theorem Starts.current {party : Party} {start : Loop} (h : Starts party start) :
    Current start.sequence := by
  cases h with
  | @acceptor logon seq numbered =>
    unfold Loop.accepting
    split
    · intro first resent
      exact (Option.some.inj resent).symm
    · intro first resent
      cases resent
  | initiator heartBtInt =>
    intro first resent
    cases resent

theorem Reads.asked [Chrono] {party : Party} {peer : Peer} {start loop : Loop}
    {turns : List (Taken D)} (starts : Starts party start)
    (run : Reads party peer start turns loop) (understood : ∀ t ∈ turns, Understood peer t) :
    Asked start turns loop.sequence := by
  induction run with
  | start =>
    refine ⟨starts.current, ?_, fun taken mem => (by cases mem)⟩
    intro first resent
    unfold Fix.asked
    rw [resent]
    exact List.mem_append_left _ List.mem_cons_self
  | @turn turns loop loop' turn socket before opened taken ih =>
    obtain ⟨current, sent, gaps⟩ := ih fun t mem => understood t (List.mem_append_left _ mem)
    obtain ⟨queued, beyond, same, resend⟩ := (before.queued starts).next socket
    have first_ : Current (loop.next socket).2.sequence := by
      unfold Current
      rw [same, resend]
      exact current
    have after := (first_.consume_iff queued.cursor taken).mpr
      (understood _ (List.mem_append_right _ (List.mem_singleton_self _)))
    have consumed := Loop.consume_spec taken
    have sentAfter : ∀ first, loop'.sequence.resendFrom = some first → first ∈ Fix.asked start
        (turns ++ [⟨(loop.next socket).2, (loop.next socket).1, turn, loop'⟩]) := by
      intro first resent
      rcases consumed.resent resent with old | rfl
      · rw [resend] at old
        exact mem_asked_snoc (sent first old) _
      · exact asked_gap start turns _ _ _ first
    refine ⟨after, sentAfter, ?_⟩
    intro t mem request gap
    rcases List.mem_append.mp mem with mem | mem
    · exact mem_asked_snoc (gaps t mem request gap) _
    · obtain rfl := List.mem_singleton.mp mem
      dsimp only at gap ⊢
      rw [gap] at consumed
      obtain ⟨same, first, resent⟩ := consumed.gapped
      rw [← same, ← after first resent]
      exact sentAfter first resent

/-- The queue is in order in every run. The outstanding resend is the one for the missing
message, and every gap has been asked for, as long as nothing is refused at the cursor
while a resend is outstanding; each such refusal makes the resend stale. -/
theorem gap_recovery [Chrono] {party : Party} {peer : Peer} {start loop : Loop}
    {turns : List (Taken D)} (starts : Starts party start)
    (run : Reads party peer start turns loop) :
    (∀ seq message, loop.sequence.queued.get? seq = some message → loop.sequence.expected ≤ seq) ∧
    loop.sequence.queued.size ≤ maxQueuedMessages ∧
    ((∀ t ∈ turns, Understood peer t) → Asked start turns loop.sequence) ∧
    ∀ t ∈ turns, Current t.before.sequence →
      (Current t.after.sequence ↔ Understood peer t) := by
  have queued := run.queued starts
  refine ⟨queued.ahead, queued.room, run.asked starts, ?_⟩
  intro t mem current
  obtain ⟨ordered, taken⟩ := run.mem starts mem
  exact current.consume_iff ordered.cursor taken

/-- Both readings of a number agree where both succeed. -/
theorem natural_eq {message : FixMessage} {tag n m : Nat} (natural : message.natural tag = .ok n)
    (required : message.parseRequiredU64 tag = .ok m) : n = m := by
  unfold FixMessage.natural FixMessage.need at natural
  unfold FixMessage.parseRequiredU64 at required
  cases found : message.get tag with
  | none =>
    rw [found] at required
    cases required
  | some value =>
    rw [found] at natural required
    obtain ⟨text, same, natural⟩ := bind_eq_ok.mp natural
    obtain rfl := Except.ok.inj same
    dsimp only at required
    split at natural
    · cases natural
    split at natural
    · cases natural
    rename_i read
    obtain rfl := Except.ok.inj natural
    rw [read] at required
    dsimp only at required
    split at required
    · cases required
    · exact Except.ok.inj required

omit [Decimal D] [DecimalText D] in
theorem decodeSequenceReset_ok {message : FixMessage} {inbound : Inbound D}
    (h : decodeSequenceReset message = .ok inbound) :
    ∃ n gapFill, message.natural 36 = .ok n ∧ inbound = .sequenceReset n gapFill := by
  unfold decodeSequenceReset at h
  obtain ⟨n, natural, h⟩ := bind_eq_ok.mp h
  dsimp only at h
  split at h
  · cases h
  · obtain ⟨gapFill, -, h⟩ := bind_eq_ok.mp h
    exact ⟨n, gapFill, natural, (Except.ok.inj h).symm⟩

/-- A SequenceReset that is decoded has the number that it is applied with. -/
theorem decode_reset [Chrono] {message : FixMessage} {inbound : Inbound D} {newSeq : Nat}
    (kind : message.msgType = some "4") (target : message.parseRequiredU64 36 = .ok newSeq)
    (decoded : decode message = .ok (.ok inbound)) :
    ∃ gapFill, inbound = .sequenceReset newSeq gapFill := by
  unfold decode at decoded
  rw [kind] at decoded
  dsimp only at decoded
  split at decoded
  · cases decoded
  rw [if_neg (by decide)] at decoded
  obtain ⟨n, gapFill, natural, same⟩ := decodeSequenceReset_ok (Except.ok.inj decoded)
  obtain rfl := natural_eq natural target
  exact ⟨gapFill, same⟩

/-- The cursor only passes a number whose message it took up, or goes where an accepted
SequenceReset says. -/
def NoSkip [Chrono] (taken : Taken D) : Prop :=
  taken.before.sequence.expected < taken.after.sequence.expected →
    taken.message.parseRequiredSeq = .ok taken.before.sequence.expected ∨
    ∃ newSeq gapFill, decode taken.message = .ok (.ok (.sequenceReset newSeq gapFill : Inbound D)) ∧
      taken.after.sequence.expected = newSeq

/-- A message that is refused at the cursor has the expected number, unless none is above. -/
def Counted [Chrono] (peer : Peer) (taken : Taken D) : Prop :=
  TakenUp peer taken.before taken.message → Refused D taken.message →
    taken.message.parseRequiredSeq = .ok taken.before.sequence.expected ∨
      taken.before.sequence.expected = u64Max

theorem Classified.expected {state state' : SequenceState} {message : FixMessage}
    {action : SequenceAction} (h : Classified state message action state') :
    state'.expected = state.expected := by
  cases h <;> rfl

theorem skip_expected {state : SequenceState} (below : state.expected < u64Max) :
    state.skip.expected = state.expected + 1 := by
  unfold u64Max at below
  exact Nat.mod_eq_of_lt (by omega)

theorem skip_last {state : SequenceState} (last : state.expected = u64Max) :
    state.skip.expected = 0 := by
  unfold SequenceState.skip
  rw [last]
  rfl

theorem noSkip_iff [Chrono] {party : Party} {peer : Peer} {before after : Loop}
    {message : FixMessage} {turn : Turn D} (cursor : before.sequence.expected ≤ u64Max)
    (taken : before.consume party peer message = .ok (turn, after)) :
    NoSkip (⟨before, message, turn, after⟩ : Taken D) ↔
      Counted peer (⟨before, message, turn, after⟩ : Taken D) := by
  have rejected := Loop.rejected_iff taken
  have counted : (∀ reason, turn ≠ .rejected reason) →
      Counted peer (⟨before, message, turn, after⟩ : Taken D) := by
    intro other takenUp refused
    obtain ⟨reason, same⟩ := rejected.mpr ⟨takenUp, refused⟩
    exact absurd same (other reason)
  have stays : after.sequence.expected = before.sequence.expected →
      NoSkip (⟨before, message, turn, after⟩ : Taken D) := by
    intro same more
    exact absurd same (Nat.ne_of_gt more)
  cases Loop.consume_spec taken with
  | closed same _ => exact iff_of_true (stays (by rw [same])) (counted fun _ same => by cases same)
  | duplicate classified =>
    exact iff_of_true (stays classified.expected) (counted fun _ same => by cases same)
  | gap classified =>
    exact iff_of_true (stays classified.expected) (counted fun _ same => by cases same)
  | rejected takenUp refused skipped =>
    constructor
    · intro noSkip _ _
      rcases eq_or_lt_of_le cursor with last | below
      · exact .inr last
      · have more : before.sequence.expected < after.sequence.expected := by
          rw [skipped, skip_expected below]
          exact Nat.lt_succ_self _
        rcases noSkip more with same | ⟨newSeq, gapFill, decoded, -⟩
        · exact .inl same
        · dsimp only at decoded
          rw [refused] at decoded
          cases decoded
    · intro counted more
      dsimp only at more ⊢
      rcases counted takenUp ⟨_, refused⟩ with same | last
      · exact .inl same
      · rw [skipped, skip_last last] at more
        omega
  | dispatched takenUp decoded advanced =>
    refine iff_of_true ?_ (counted fun _ same => by cases same)
    intro more
    dsimp only at more ⊢
    generalize after.sequence = state at advanced
    cases advanced with
    | next kind numbered => exact .inl numbered
    | reset kind target above =>
      obtain ⟨gapFill, rfl⟩ := decode_reset kind target decoded
      exact .inr ⟨_, gapFill, decoded, rfl⟩

/-- A turn skips no message just when what it refuses is counted under its own number. -/
theorem cursor_skips_nothing [Chrono] {party : Party} {peer : Peer} {start loop : Loop}
    {turns : List (Taken D)} (starts : Starts party start)
    (run : Reads party peer start turns loop) :
    ((∀ t ∈ turns, Counted peer t) → ∀ t ∈ turns, NoSkip t) ∧
    ∀ t ∈ turns, (NoSkip t ↔ Counted peer t) := by
  have exact_ : ∀ t ∈ turns, (NoSkip t ↔ Counted peer t) := by
    intro t mem
    obtain ⟨queued, taken⟩ := run.mem starts mem
    exact noSkip_iff queued.cursor taken
  exact ⟨fun counted t mem => (exact_ t mem).mpr (counted t mem), exact_⟩

/-- The messages that are dispatched, other than SequenceResets. -/
def dispatches (turns : List (Taken D)) : List FixMessage :=
  turns.filterMap (fun taken => match taken.turn with
    | .dispatched (.sequenceReset ..) => none
    | .dispatched _ => some taken.message
    | _ => none)

def Precedes (a b : FixMessage) : Prop :=
  ∃ m n, a.parseRequiredSeq = .ok m ∧ b.parseRequiredSeq = .ok n ∧ m < n

/-- No message uses up the last number. -/
def Below [Chrono] (peer : Peer) (taken : Taken D) : Prop :=
  TakenUp peer taken.before taken.message →
    (taken.message.msgType = some "4" → Refused D taken.message) →
    taken.before.sequence.expected < u64Max

/-- What was dispatched is numbered in order, below the cursor. -/
structure InSequence (turns : List (Taken D)) (state : SequenceState) : Prop where
  increasing : (dispatches turns).Pairwise Precedes
  below : ∀ message ∈ dispatches turns, ∃ n, message.parseRequiredSeq = .ok n ∧ n < state.expected

omit [Decimal D] [DecimalText D] in
theorem dispatches_snoc (turns : List (Taken D)) (taken : Taken D) :
    dispatches (turns ++ [taken]) = dispatches turns ++ dispatches [taken] := List.filterMap_append

omit [Decimal D] [DecimalText D] in
theorem dispatches_single (before after : Loop) (message : FixMessage) (turn : Turn D) :
    dispatches [⟨before, message, turn, after⟩] = [] ∨
      dispatches [⟨before, message, turn, after⟩] = [message] := by
  unfold dispatches
  rw [List.filterMap_cons, List.filterMap_nil]
  split
  · exact .inl rfl
  · rename_i found
    split at found
    · cases found
    · exact .inr (congrArg (fun m => [m]) (Option.some.inj found).symm)
    · cases found

omit [Decimal D] [DecimalText D] in
theorem InSequence.silent {turns : List (Taken D)} {state state' : SequenceState}
    (h : InSequence turns state) {taken : Taken D} (none_ : dispatches [taken] = [])
    (up : state.expected ≤ state'.expected) : InSequence (turns ++ [taken]) state' := by
  have same : dispatches (turns ++ [taken]) = dispatches turns := by
    rw [dispatches_snoc, none_, List.append_nil]
  constructor
  · rw [same]
    exact h.increasing
  · intro message mem
    rw [same] at mem
    obtain ⟨n, numbered, below⟩ := h.below message mem
    exact ⟨n, numbered, below.trans_le up⟩

omit [Decimal D] [DecimalText D] in
theorem InSequence.sends {turns : List (Taken D)} {state state' : SequenceState}
    (h : InSequence turns state) {taken : Taken D} {message : FixMessage}
    (one : dispatches [taken] = [message])
    (numbered : message.parseRequiredSeq = .ok state.expected)
    (up : state.expected < state'.expected) : InSequence (turns ++ [taken]) state' := by
  have more : dispatches (turns ++ [taken]) = dispatches turns ++ [message] := by
    rw [dispatches_snoc, one]
  constructor
  · rw [more, List.pairwise_append]
    refine ⟨h.increasing, List.pairwise_singleton _ _, ?_⟩
    intro a mem b last
    obtain ⟨n, before, below⟩ := h.below a mem
    rw [List.mem_singleton.mp last]
    exact ⟨n, _, before, numbered, below⟩
  · intro other mem
    rw [more] at mem
    rcases List.mem_append.mp mem with mem | mem
    · obtain ⟨n, before, below⟩ := h.below other mem
      exact ⟨n, before, below.trans up⟩
    · rw [List.mem_singleton.mp mem]
      exact ⟨_, numbered, up⟩

theorem InSequence.turn [Chrono] {party : Party} {peer : Peer} {turns : List (Taken D)}
    {before after : Loop} {message : FixMessage} {turn : Turn D}
    (h : InSequence turns before.sequence)
    (taken : before.consume party peer message = .ok (turn, after))
    (bounded : Below peer (⟨before, message, turn, after⟩ : Taken D)) :
    InSequence (turns ++ [⟨before, message, turn, after⟩]) after.sequence := by
  cases Loop.consume_spec taken with
  | closed same _ => exact h.silent rfl (by rw [same])
  | duplicate classified => exact h.silent rfl classified.expected.ge
  | gap classified => exact h.silent rfl classified.expected.ge
  | rejected takenUp refused skipped =>
    refine h.silent rfl ?_
    rw [skipped, skip_expected (bounded takenUp fun _ => ⟨_, refused⟩)]
    exact Nat.le_succ _
  | dispatched takenUp decoded advanced =>
    generalize state_eq : after.sequence = state at advanced
    cases advanced with
    | reset kind target above =>
      obtain ⟨gapFill, rfl⟩ := decode_reset kind target decoded
      exact h.silent rfl above.le
    | next kind numbered =>
      have room := bounded takenUp fun reset => absurd reset kind
      have up : before.sequence.expected < min (before.sequence.expected + 1) u64Max :=
        lt_min (Nat.lt_succ_self _) room
      rcases dispatches_single before after message (.dispatched _) with none_ | one
      · exact h.silent none_ up.le
      · exact h.sends one numbered up

/-- As long as the last number is not used up, messages are dispatched in increasing order,
each once. -/
theorem dispatched_once [Chrono] {party : Party} {peer : Peer} {start loop : Loop}
    {turns : List (Taken D)} (starts : Starts party start)
    (run : Reads party peer start turns loop) (below : ∀ t ∈ turns, Below peer t) :
    (dispatches turns).Pairwise Precedes := by
  suffices sequence : InSequence turns loop.sequence from sequence.increasing
  induction run with
  | start => exact ⟨.nil, fun message mem => (by cases mem)⟩
  | @turn turns loop loop' turn socket before opened taken ih =>
    have first := ih fun t mem => below t (List.mem_append_left _ mem)
    obtain ⟨-, -, same, -⟩ := (before.queued starts).next socket
    have resumed : InSequence turns (loop.next socket).2.sequence := by
      refine ⟨first.increasing, ?_⟩
      rw [same]
      exact first.below
    exact resumed.turn taken (below _ (List.mem_append_right _ (List.mem_singleton_self _)))

/-- The turns over the messages of a list, one for each. -/
def readAll [Chrono] (party : Party) (peer : Peer) :
    Loop → List FixMessage → Option (List (Taken D) × Loop)
  | loop, [] => some ([], loop)
  | loop, socket :: sockets =>
    if loop.opened then
      match (loop.next socket).2.consume party peer (loop.next socket).1 with
      | .ok (turn, after) => (readAll party peer after sockets).map fun (turns, last) =>
        (⟨(loop.next socket).2, (loop.next socket).1, turn, after⟩ :: turns, last)
      | .error _ => none
    else none

theorem readAll_reads [Chrono] {party : Party} {peer : Peer} {start : Loop}
    (sockets : List FixMessage) : ∀ {loop last : Loop} {turns more : List (Taken D)},
      Reads party peer start turns loop → readAll party peer loop sockets = some (more, last) →
      Reads party peer start (turns ++ more) last := by
  induction sockets with
  | nil =>
    intro loop last turns more before read
    obtain ⟨rfl, rfl⟩ := Prod.mk.inj (Option.some.inj read)
    rwa [List.append_nil]
  | cons socket sockets ih =>
    intro loop last turns more before read
    rw [readAll] at read
    split at read
    · rename_i opened
      split at read
      · rename_i turn after taken
        obtain ⟨⟨rest, final⟩, later, same⟩ := Option.map_eq_some_iff.mp read
        obtain ⟨rfl, rfl⟩ := Prod.mk.inj same
        have run := ih (before.turn socket opened taken) later
        rwa [List.append_assoc] at run
      · cases read
    · cases read

def client : Peer := ⟨"FIX.4.2", "CLIENT", "GOX"⟩

/-- A message of the client with its header. -/
def incoming (kind : String) (seq : Nat) (fields : Fields) : FixMessage :=
  ⟨"FIX.4.2", headerFields kind seq "CLIENT" "GOX" "20260912-19:24:59.056" ++ fields, ""⟩

def clientLogon : FixMessage := incoming "A" 1 [(98, "0"), (108, "30")]

/-- The acceptor of a client that has logged on. -/
def serving : Loop := Loop.accepting clientLogon 1

theorem serving_starts : Starts .acceptor serving := .acceptor (by decide)

def Turn.isRejected : Turn D → Bool
  | .rejected _ => true
  | _ => false

/-- A run over a list, with what is seen of it. -/
theorem reads_of_readAll [Chrono] {party : Party} {peer : Peer} {start : Loop}
    {sockets : List FixMessage} {A : Type} {see : List (Taken D) × Loop → A} {a : A}
    (ran : (readAll party peer start sockets).map see = some a) :
    ∃ turns loop, Reads party peer start turns loop ∧ see (turns, loop) = a := by
  obtain ⟨⟨turns, loop⟩, read, seen⟩ := Option.map_eq_some_iff.mp ran
  exact ⟨turns, loop, readAll_reads sockets .start read, seen⟩

/-- In a run without rejections every message is understood. -/
theorem understood_of_turns [Chrono] {party : Party} {peer : Peer} {start loop : Loop}
    {turns : List (Taken D)} (starts : Starts party start)
    (run : Reads party peer start turns loop)
    (accepted : turns.map (fun t => t.turn.isRejected) = turns.map fun _ => false) :
    ∀ t ∈ turns, ¬ (TakenUp peer t.before t.message ∧ Refused D t.message) := by
  intro t mem both
  obtain ⟨-, taken⟩ := run.mem starts mem
  obtain ⟨reason, same⟩ := (Loop.rejected_iff taken).mpr both
  have none_ := List.map_inj_left.mp accepted t mem
  rw [same] at none_
  cases none_

/-- A gap is recovered by the two missing messages. -/
def recovered : List FixMessage :=
  [incoming "0" 4 [], incoming "0" 2 [], incoming "0" 3 [], incoming "0" 5 []]

theorem recovered_run : ∃ (turns : List (Taken Dec96)) (loop : Loop),
    Reads .acceptor client serving turns loop ∧ loop.sequence.expected = 5 ∧
    (∀ t ∈ turns, ¬ (TakenUp client t.before t.message ∧ Refused Dec96 t.message)) ∧
    ∀ t ∈ turns, t.before.sequence.expected < u64Max := by
  have ran : (readAll (D := Dec96) .acceptor client serving recovered).map (fun read =>
      (read.2.sequence.expected, read.1.map (fun t => t.turn.isRejected) ==
        read.1.map (fun _ => false), read.1.all fun t => t.before.sequence.expected < u64Max)) =
      some (5, true, true) := by decide
  obtain ⟨turns, loop, run, seen⟩ := reads_of_readAll ran
  obtain ⟨cursor, rest⟩ := Prod.mk.inj seen
  obtain ⟨accepted, below⟩ := Prod.mk.inj rest
  refine ⟨turns, loop, run, cursor, understood_of_turns serving_starts run (beq_iff_eq.mp accepted),
    ?_⟩
  intro t mem
  simpa using List.all_eq_true.mp below t mem

theorem gap_recovery_sample : ∃ (turns : List (Taken Dec96)) (loop : Loop),
    Starts .acceptor serving ∧ Reads .acceptor client serving turns loop ∧
    loop.sequence.expected = 5 ∧ Asked serving turns loop.sequence := by
  obtain ⟨turns, loop, run, cursor, accepted, -⟩ := recovered_run
  exact ⟨turns, loop, serving_starts, run, cursor, (gap_recovery serving_starts run).2.2.1
    fun t mem => .inr (accepted t mem)⟩

/-- A test request without its identifier is refused in the middle of a recovery. -/
def refusedInGap : List FixMessage := [incoming "0" 4 [], incoming "1" 2 [], incoming "0" 6 []]

/-- The third message is then missing, but only the second has been asked for. -/
theorem resend_stale : ∃ (turns : List (Taken Dec96)) (loop : Loop),
    Starts .acceptor serving ∧ Reads .acceptor client serving turns loop ∧
    loop.sequence.expected = 3 ∧ loop.sequence.resendFrom = some 2 ∧ asked serving turns = [2] ∧
    loop.sequence.queued.contains 6 := by
  have ran : (readAll (D := Dec96) .acceptor client serving refusedInGap).map (fun read =>
      (read.2.sequence.expected, read.2.sequence.resendFrom, asked serving read.1,
        read.2.sequence.queued.contains 6)) = some (3, some 2, [2], true) := by decide
  obtain ⟨turns, loop, run, seen⟩ := reads_of_readAll ran
  simp only [Prod.mk.injEq] at seen
  exact ⟨turns, loop, serving_starts, run, seen⟩

theorem cursor_skips_nothing_sample : ∃ (turns : List (Taken Dec96)) (loop : Loop),
    Starts .acceptor serving ∧ Reads .acceptor client serving turns loop ∧
    loop.sequence.expected = 5 ∧ ∀ t ∈ turns, NoSkip t := by
  obtain ⟨turns, loop, run, cursor, accepted, -⟩ := recovered_run
  exact ⟨turns, loop, serving_starts, run, cursor, (cursor_skips_nothing serving_starts run).1
    fun t mem takenUp refused => absurd ⟨takenUp, refused⟩ (accepted t mem)⟩

/-- A SequenceReset far ahead with a flag that is neither Y nor N. -/
def strayReset : FixMessage := incoming "4" 9 [(123, "X"), (36, "20")]

/-- It is refused, and the message it stands before is skipped. -/
theorem strayReset_skips : ∃ (turns : List (Taken Dec96)) (loop : Loop),
    Starts .acceptor serving ∧ Reads .acceptor client serving turns loop ∧
    ∃ t ∈ turns, ¬ NoSkip t := by
  have ran : (readAll (D := Dec96) .acceptor client serving [strayReset]).map (fun read =>
      read.1.map fun t => (t.before.sequence.expected, t.message, t.turn.isRejected)) =
      some [(2, strayReset, true)] := by decide
  obtain ⟨turns, loop, run, seen⟩ := reads_of_readAll ran
  obtain ⟨t, rfl, same⟩ := List.map_eq_singleton_iff.mp seen
  simp only [Prod.mk.injEq] at same
  obtain ⟨cursor, message, rejected⟩ := same
  refine ⟨[t], loop, serving_starts, run, t, List.mem_singleton_self t, ?_⟩
  obtain ⟨queued, taken⟩ := run.mem serving_starts (List.mem_singleton_self t)
  have refused : ∃ reason, t.turn = .rejected reason := by
    cases turn : t.turn with
    | rejected reason => exact ⟨reason, rfl⟩
    | closed | gap | duplicate | dispatched =>
      rw [turn] at rejected
      cases rejected
  obtain ⟨takenUp, refused⟩ := (Loop.rejected_iff taken).mp refused
  intro noSkip
  have counted := (noSkip_iff queued.cursor taken).mp noSkip
  rcases counted takenUp refused with same | last
  · rw [message, cursor] at same
    exact absurd same (by decide)
  · rw [cursor] at last
    exact absurd last (by decide)

theorem dispatched_once_sample : ∃ (turns : List (Taken Dec96)) (loop : Loop),
    Starts .acceptor serving ∧ Reads .acceptor client serving turns loop ∧
    loop.sequence.expected = 5 ∧ (dispatches turns).Pairwise Precedes := by
  obtain ⟨turns, loop, run, cursor, -, below⟩ := recovered_run
  exact ⟨turns, loop, serving_starts, run, cursor,
    dispatched_once serving_starts run fun t mem _ _ => below t mem⟩

/-- An order under the last number. -/
def lastOrder : FixMessage := incoming "D" u64Max [(11, "7"), (21, "1"), (55, "AAA"), (54, "2"),
  (60, "20260912-19:24:59.056"), (40, "2"), (38, "5"), (44, "10")]

/-- The cursor is moved to the last number, and the order is executed each time it comes. -/
theorem lastOrder_again : ∃ (turns : List (Taken Dec96)) (loop : Loop),
    Starts .acceptor serving ∧ Reads .acceptor client serving turns loop ∧
    dispatches turns = [lastOrder, lastOrder] ∧ ¬ (dispatches turns).Pairwise Precedes := by
  have ran : (readAll (D := Dec96) .acceptor client serving
      [incoming "4" 2 [(36, u64Max.repr)], lastOrder, lastOrder]).map
      (fun read => dispatches read.1) = some [lastOrder, lastOrder] := by decide
  obtain ⟨turns, loop, run, seen⟩ := reads_of_readAll ran
  refine ⟨turns, loop, serving_starts, run, seen, ?_⟩
  change dispatches turns = _ at seen
  rw [seen]
  intro increasing
  obtain ⟨m, n, first, second, below⟩ := List.pairwise_pair.mp increasing
  rw [first] at second
  exact absurd (Except.ok.inj second) (Nat.ne_of_lt below)

end RustTrader.Fix
