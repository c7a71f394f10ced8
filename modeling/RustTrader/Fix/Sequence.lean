import RustTrader.Fix.Codec
import RustTrader.Library.Fallible
import RustTrader.Library.SortedMap

/-!
# Inbound sequence numbers

`SequenceState` of `fix/session.rs` and the reader loops of both parties around it:
a message is checked, classified, decoded and only then counted. Early messages wait
in a queue and are taken up before the socket is read again.
-/

namespace RustTrader.Fix

/-- The largest `u64`. -/
def u64Max : Nat := 2 ^ 64 - 1

def maxQueuedMessages : Nat := 4096

namespace FixMessage

variable (message : FixMessage)

def parseRequiredU64 (tag : Nat) : Except String Nat :=
  match message.get tag with
  | none => .error ("missing required tag " ++ tag.repr)
  | some value =>
    match Numeral.parseUnsigned (2 ^ 64) value with
    | none => .error ("tag " ++ tag.repr ++ " is not a valid positive integer")
    | some parsed =>
      if parsed = 0 then .error ("tag " ++ tag.repr ++ " must be positive") else .ok parsed

def parseRequiredSeq : Except String Nat := message.parseRequiredU64 34

def parseRequiredText (tag : Nat) : Except String String :=
  match message.get tag with
  | none => .error ("missing required tag " ++ tag.repr)
  | some value => if value = "" then .error ("tag " ++ tag.repr ++ " must not be empty")
      else .ok value

def validateUniqueHeaderTag (tag : Nat) : Except String String :=
  match message.fields.filter (fun field => field.1 == tag) with
  | [] => .error ("missing required tag " ++ tag.repr)
  | [field] => if field.2 = "" then .error ("tag " ++ tag.repr ++ " must not be empty")
      else .ok field.2
  | _ => .error ("duplicate required header tag " ++ tag.repr)

end FixMessage

def parseFixTimestamp [Chrono] (value : String) (tag : Nat) : Except String Int :=
  let read (format : String) : Except String Int :=
    match Chrono.parse value format with
    | some time => .ok time
    | none => .error ("tag " ++ tag.repr ++ " is not a valid FIX timestamp")
  if value.utf8ByteSize = 17 then read "%Y%m%d-%H:%M:%S"
  else if value.utf8ByteSize = 21 then read "%Y%m%d-%H:%M:%S%.3f"
  else .error ("tag " ++ tag.repr ++ " has invalid FIX timestamp length")

def validateTimestampFields [Chrono] (message : FixMessage) : Except String Unit := do
  let sendingTime ← parseFixTimestamp (← message.parseRequiredText 52) 52
  match message.get 43 with
  | none => pure ()
  | some flag =>
    if flag = "N" then pure ()
    else if flag = "Y" then
      let original ← parseFixTimestamp (← message.parseRequiredText 122) 122
      if sendingTime < original then throw "OrigSendingTime(122) is after SendingTime(52)"
    else throw ("PossDupFlag(43) must be Y or N, got " ++ flag)

/-- Whom a reader listens to, and as whom. -/
structure Peer where
  beginString : String
  sender : String
  target : String

def validateHeader [Chrono] (message : FixMessage) (peer : Peer) : Except String Nat := do
  if message.beginString ≠ peer.beginString then
    throw ("unsupported BeginString " ++ message.beginString)
  let _ ← message.validateUniqueHeaderTag 35
  let sender ← message.validateUniqueHeaderTag 49
  let target ← message.validateUniqueHeaderTag 56
  if sender ≠ peer.sender ∨ target ≠ peer.target then
    throw ("CompID mismatch: expected " ++ peer.sender ++ " -> " ++ peer.target ++
      ", received " ++ sender ++ " -> " ++ target)
  let _ ← message.validateUniqueHeaderTag 34
  let _ ← message.validateUniqueHeaderTag 52
  validateTimestampFields message
  message.parseRequiredSeq

structure SequenceState where
  expected : Nat
  queued : SortedMap Nat FixMessage
  resendFrom : Option Nat

inductive SequenceAction where
  | ready
  | gap (requestFrom : Option Nat)
  | duplicate
  deriving DecidableEq

namespace SequenceState

def new (expected : Nat) : SequenceState := ⟨expected, ∅, none⟩

def isDuplicate (message : FixMessage) : Bool := message.get 43 == some "Y"

/-- A SequenceReset that is applied whatever its number: one in reset mode, or a
repeated gap fill that reaches beyond the cursor. -/
def overrides (state : SequenceState) (message : FixMessage) (seq newSeq : Nat) : Bool :=
  message.get 123 != some "Y" ||
    (seq < state.expected && state.expected < newSeq && isDuplicate message)

/-- The queue with an early message, unless one of its number is there. -/
def enqueue (state : SequenceState) (seq : Nat) (message : FixMessage) :
    SortedMap Nat FixMessage :=
  if state.queued.contains seq then state.queued else state.queued.insert seq message

/-- The resend to ask for at a gap, unless one is outstanding. -/
def request (state : SequenceState) : Option Nat :=
  match state.resendFrom with
  | none => some state.expected
  | some _ => none

/-- A message by its number. -/
def place (state : SequenceState) (message : FixMessage) (seq : Nat) :
    Except String (SequenceAction × SequenceState) :=
  if seq < state.expected then
    if isDuplicate message then .ok (.duplicate, state)
    else .error ("MsgSeqNum too low, expecting " ++ state.expected.repr ++ " but received " ++
      seq.repr)
  else if state.expected < seq then
    if maxQueuedMessages ≤ state.queued.size then
      .error "too many queued messages while recovering sequence gap"
    else .ok (.gap state.request, { state with
      queued := state.enqueue seq message
      resendFrom := some (state.resendFrom.getD state.expected) })
  else .ok (.ready, state)

def classify (state : SequenceState) (message : FixMessage) :
    Except String (SequenceAction × SequenceState) := do
  let seq ← message.parseRequiredSeq
  if message.msgType = some "4" then
    let newSeq ← message.parseRequiredU64 36
    if state.overrides message seq newSeq then pure (.ready, state) else state.place message seq
  else state.place message seq

/-- The resend that is outstanding once the cursor has moved. -/
def stillResent (expected : Nat) (resendFrom : Option Nat) : Option Nat :=
  resendFrom.filter (fun start => expected ≤ start)

def advance (state : SequenceState) (message : FixMessage) : Except String SequenceState := do
  let seq ← message.parseRequiredSeq
  if message.msgType = some "4" then
    let newSeq ← message.parseRequiredU64 36
    if newSeq ≤ state.expected then
      .error ("SequenceReset NewSeqNo " ++ newSeq.repr ++ " is not above " ++ state.expected.repr)
    else .ok ⟨newSeq, state.queued.filter (fun entry => newSeq ≤ entry.1),
      stillResent newSeq state.resendFrom⟩
  else if seq ≠ state.expected then
    .error ("internal sequence mismatch: expected " ++ state.expected.repr ++ ", got " ++ seq.repr)
  else
    let next := min (state.expected + 1) u64Max
    .ok ⟨next, state.queued, stillResent next state.resendFrom⟩

def takeReady (state : SequenceState) : Option FixMessage × SequenceState :=
  (state.queued.get? state.expected,
    { state with queued := state.queued.erase state.expected })

/-- The cursor after a message that was not understood: a plain increment of a `u64`. -/
def skip (state : SequenceState) : SequenceState :=
  { state with expected := (state.expected + 1) % 2 ^ 64 }

end SequenceState

variable {D : Type} [Decimal D] [DecimalText D]

inductive Party where
  | acceptor
  | initiator (heartBtInt : Nat)

/-- The reader loop of one connection. -/
structure Loop where
  sequence : SequenceState
  first : Bool
  loggedIn : Bool
  opened : Bool

/-- What became of a message. -/
inductive Turn (D : Type) where
  | closed (reason : String)
  | gap (requestFrom : Option Nat)
  | duplicate
  | rejected (reason : String)
  | dispatched (inbound : Inbound D)

namespace Loop

def close (loop : Loop) : Loop := { loop with opened := false }

/-- The loop after a decoded message; what the exchange does with a request does not
concern it. -/
def dispatch (loop : Loop) (party : Party) : Inbound D → Loop
  | .logout => loop.close
  | .logon heart =>
    match party with
    | .acceptor => loop
    | .initiator heartBtInt =>
      if loop.loggedIn ∨ heart ≠ heartBtInt then loop.close else { loop with loggedIn := true }
  | _ => loop

/-- One message, from its header to its dispatch. -/
def consume [Chrono] (party : Party) (peer : Peer) (loop : Loop) (message : FixMessage) :
    Exec (Turn D × Loop) := do
  match validateHeader message peer with
  | .error reason => return (.closed reason, loop.close)
  | .ok _ =>
    if loop.first ∧ message.msgType ≠ some "A" ∧ message.msgType ≠ some "5" then
      return (.closed "expected Logon response", loop.close)
    let loop := { loop with first := false }
    match loop.sequence.classify message with
    | .error reason => return (.closed reason, loop.close)
    | .ok (.duplicate, sequence) => return (.duplicate, { loop with sequence := sequence })
    | .ok (.gap request, sequence) => return (.gap request, { loop with sequence := sequence })
    | .ok (.ready, sequence) =>
      match ← decode message with
      | .error reason => return (.rejected reason, { loop with sequence := sequence.skip })
      | .ok inbound =>
        match sequence.advance message with
        | .error reason => return (.closed reason, loop.close)
        | .ok sequence =>
          return (.dispatched inbound, { loop with sequence := sequence }.dispatch party inbound)

/-- The next message: an early one whose turn has come, or the one on the socket. -/
def next (loop : Loop) (socket : FixMessage) : FixMessage × Loop :=
  match loop.sequence.takeReady with
  | (some message, sequence) => (message, { loop with sequence := sequence })
  | (none, _) => (socket, loop)

/-- The acceptor after a Logon with the number `seq`. -/
def accepting (logon : FixMessage) (seq : Nat) : Loop where
  sequence :=
    if 1 < seq then ⟨1, (∅ : SortedMap Nat FixMessage).insert seq logon, some 1⟩
    else SequenceState.new (if seq = 1 then 2 else 1)
  first := false
  loggedIn := true
  opened := true

/-- The initiator before the answer to its Logon. -/
def initiating : Loop := ⟨SequenceState.new 1, true, false, true⟩

end Loop

/-- One turn of a loop: the state in which a message was taken up, what became of the
message, and the state after it. -/
structure Taken (D : Type) where
  before : Loop
  message : FixMessage
  turn : Turn D
  after : Loop

/-- The turns of a reader loop, from a start, over any messages on the socket. The loop
may also end between two turns. -/
inductive Reads [Chrono] (party : Party) (peer : Peer) (start : Loop) :
    List (Taken D) → Loop → Prop where
  | start : Reads party peer start [] start
  | turn {turns : List (Taken D)} {loop loop' : Loop} {turn : Turn D} (socket : FixMessage)
      (before : Reads party peer start turns loop) (opened : loop.opened)
      (taken : (loop.next socket).2.consume party peer (loop.next socket).1 =
        .ok (turn, loop')) :
      Reads party peer start
        (turns ++ [⟨(loop.next socket).2, (loop.next socket).1, turn, loop'⟩]) loop'

/-- The starts of the two loops. -/
inductive Starts : Party → Loop → Prop where
  | acceptor {logon : FixMessage} {seq : Nat} (numbered : logon.parseRequiredSeq = .ok seq) :
      Starts .acceptor (Loop.accepting logon seq)
  | initiator (heartBtInt : Nat) : Starts (.initiator heartBtInt) Loop.initiating

/-- The results of a classification. -/
inductive Classified (state : SequenceState) (message : FixMessage) :
    SequenceAction → SequenceState → Prop where
  | reset {seq newSeq : Nat} (numbered : message.parseRequiredSeq = .ok seq)
      (kind : message.msgType = some "4") (target : message.parseRequiredU64 36 = .ok newSeq)
      (overrides : state.overrides message seq newSeq = true) :
        Classified state message .ready state
  | inOrder (numbered : message.parseRequiredSeq = .ok state.expected) :
      Classified state message .ready state
  | duplicate {seq : Nat} (numbered : message.parseRequiredSeq = .ok seq)
      (low : seq < state.expected) : Classified state message .duplicate state
  | gap {seq : Nat} (numbered : message.parseRequiredSeq = .ok seq) (high : state.expected < seq)
      (room : state.queued.size < maxQueuedMessages) :
      Classified state message (.gap state.request)
        ⟨state.expected, state.enqueue seq message, some (state.resendFrom.getD state.expected)⟩

theorem SequenceState.place_spec {state state' : SequenceState} {message : FixMessage} {seq : Nat}
    (numbered : message.parseRequiredSeq = .ok seq) {action : SequenceAction}
    (h : state.place message seq = .ok (action, state')) :
    Classified state message action state' := by
  unfold place at h
  split at h
  · rename_i low
    split at h
    · obtain ⟨rfl, rfl⟩ := Prod.mk.inj (Except.ok.inj h)
      exact .duplicate numbered low
    · cases h
  rename_i notLow
  split at h
  · rename_i high
    split at h
    · cases h
    · rename_i room
      obtain ⟨rfl, rfl⟩ := Prod.mk.inj (Except.ok.inj h)
      exact .gap numbered high (not_le.mp room)
  · rename_i notHigh
    obtain ⟨rfl, rfl⟩ := Prod.mk.inj (Except.ok.inj h)
    obtain rfl : seq = state.expected := by omega
    exact .inOrder numbered

theorem SequenceState.classify_spec {state state' : SequenceState} {message : FixMessage}
    {action : SequenceAction} (h : state.classify message = .ok (action, state')) :
    Classified state message action state' := by
  unfold classify at h
  obtain ⟨seq, numbered, h⟩ := bind_eq_ok.mp h
  split at h
  · rename_i kind
    obtain ⟨newSeq, target, h⟩ := bind_eq_ok.mp h
    split at h
    · rename_i overrides
      obtain ⟨rfl, rfl⟩ := Prod.mk.inj (Except.ok.inj h)
      exact .reset numbered kind target overrides
    · exact place_spec numbered h
  · exact place_spec numbered h

/-- The results of an advance. -/
inductive Advanced (state : SequenceState) (message : FixMessage) : SequenceState → Prop where
  | reset {newSeq : Nat} (kind : message.msgType = some "4")
      (target : message.parseRequiredU64 36 = .ok newSeq) (above : state.expected < newSeq) :
      Advanced state message ⟨newSeq, state.queued.filter (fun entry => newSeq ≤ entry.1),
        SequenceState.stillResent newSeq state.resendFrom⟩
  | next (kind : message.msgType ≠ some "4")
      (numbered : message.parseRequiredSeq = .ok state.expected) :
      Advanced state message ⟨min (state.expected + 1) u64Max, state.queued,
        SequenceState.stillResent (min (state.expected + 1) u64Max) state.resendFrom⟩

theorem SequenceState.advance_spec {state state' : SequenceState} {message : FixMessage}
    (h : state.advance message = .ok state') : Advanced state message state' := by
  unfold advance at h
  obtain ⟨seq, numbered, h⟩ := bind_eq_ok.mp h
  split at h
  · rename_i kind
    obtain ⟨newSeq, target, h⟩ := bind_eq_ok.mp h
    split at h
    · cases h
    · rename_i above
      obtain rfl := Except.ok.inj h
      exact .reset kind target (not_le.mp above)
  · rename_i kind
    split at h
    · cases h
    · rename_i same
      obtain rfl := Except.ok.inj h
      rw [not_not] at same
      exact .next kind (same ▸ numbered)

/-- The message comes next, or is a SequenceReset that is applied whatever its number. -/
def AtCursor (state : SequenceState) (message : FixMessage) : Prop :=
  ∃ seq, message.parseRequiredSeq = .ok seq ∧
    if message.msgType = some "4" then
      ∃ newSeq, message.parseRequiredU64 36 = .ok newSeq ∧
        (state.overrides message seq newSeq = true ∨ seq = state.expected)
    else seq = state.expected

/-- The loop listens to the sender of the message and takes it up. -/
structure TakenUp [Chrono] (peer : Peer) (loop : Loop) (message : FixMessage) : Prop where
  header : ∃ seq, validateHeader message peer = .ok seq
  answer : loop.first → message.msgType = some "A" ∨ message.msgType = some "5"
  cursor : AtCursor loop.sequence message

/-- `decode` refuses the message. -/
def Refused (D : Type) [Decimal D] [DecimalText D] [Chrono] (message : FixMessage) : Prop :=
  ∃ reason, decode (D := D) message = .ok (.error reason)

theorem SequenceState.place_ready {state : SequenceState} {message : FixMessage} {seq : Nat} :
    state.place message seq = .ok (.ready, state) ↔ seq = state.expected := by
  unfold place
  split
  · rename_i low
    constructor
    · intro h
      split at h <;> cases h
    · omega
  · split
    · rename_i high
      constructor
      · intro h
        split at h <;> cases h
      · omega
    · exact iff_of_true rfl (by omega)

theorem SequenceState.classify_ready {state : SequenceState} {message : FixMessage} :
    state.classify message = .ok (.ready, state) ↔ AtCursor state message := by
  unfold classify
  rw [bind_eq_ok]
  refine exists_congr fun seq => and_congr_right fun _ => ?_
  split
  · rw [bind_eq_ok]
    refine exists_congr fun newSeq => and_congr_right fun _ => ?_
    split
    · rename_i overrides
      exact iff_of_true rfl (.inl overrides)
    · rename_i kept
      rw [place_ready, or_iff_right kept]
  · exact place_ready

/-- The results of a turn. -/
inductive Consumed [Chrono] (party : Party) (peer : Peer) (loop : Loop) (message : FixMessage) :
    Turn D → Loop → Prop where
  | closed {reason : String} {loop' : Loop} (kept : loop'.sequence = loop.sequence)
      (closed : loop'.opened = false) : Consumed party peer loop message (.closed reason) loop'
  | duplicate {loop' : Loop} (classified : Classified loop.sequence message .duplicate
      loop'.sequence) :
      Consumed party peer loop message .duplicate loop'
  | gap {request : Option Nat} {loop' : Loop}
      (classified : Classified loop.sequence message (.gap request) loop'.sequence) :
      Consumed party peer loop message (.gap request) loop'
  | rejected {reason : String} {loop' : Loop} (taken : TakenUp peer loop message)
      (refused : decode (D := D) message = .ok (.error reason))
      (skipped : loop'.sequence = loop.sequence.skip) :
      Consumed party peer loop message (.rejected reason) loop'
  | dispatched {inbound : Inbound D} {loop' : Loop} (taken : TakenUp peer loop message)
      (decoded : decode message = .ok (.ok inbound))
      (advanced : Advanced loop.sequence message loop'.sequence) :
      Consumed party peer loop message (.dispatched inbound) loop'

omit [Decimal D] [DecimalText D] in
theorem Loop.dispatch_sequence (loop : Loop) (party : Party) (inbound : Inbound D) :
    (loop.dispatch party inbound).sequence = loop.sequence := by
  unfold dispatch
  split
  · rfl
  · split
    · rfl
    · split <;> rfl
  · rfl

theorem Classified.ready_same {state state' : SequenceState} {message : FixMessage}
    (h : Classified state message .ready state') : state' = state := by
  cases h <;> rfl

theorem Loop.consume_spec [Chrono] {party : Party} {peer : Peer} {loop loop' : Loop}
    {message : FixMessage} {turn : Turn D}
    (h : loop.consume party peer message = .ok (turn, loop')) :
    Consumed party peer loop message turn loop' := by
  unfold consume at h
  split at h
  · obtain ⟨rfl, rfl⟩ := Prod.mk.inj (Except.ok.inj h)
    exact .closed rfl rfl
  rename_i number header
  split at h
  · obtain ⟨rfl, rfl⟩ := Prod.mk.inj (Except.ok.inj h)
    exact .closed rfl rfl
  rename_i answer
  dsimp only at h
  split at h
  · obtain ⟨rfl, rfl⟩ := Prod.mk.inj (Except.ok.inj h)
    exact .closed rfl rfl
  · rename_i classified
    obtain ⟨rfl, rfl⟩ := Prod.mk.inj (Except.ok.inj h)
    exact .duplicate (SequenceState.classify_spec classified)
  · rename_i classified
    obtain ⟨rfl, rfl⟩ := Prod.mk.inj (Except.ok.inj h)
    exact .gap (SequenceState.classify_spec classified)
  rename_i sequence classified
  obtain rfl := (SequenceState.classify_spec classified).ready_same
  have taken : TakenUp peer loop message := by
    refine ⟨⟨number, header⟩, ?_, SequenceState.classify_ready.mp classified⟩
    intro first
    by_contra other
    rw [not_or] at other
    exact answer ⟨first, other⟩
  obtain ⟨outcome, decoded, h⟩ := Exec.bind_ok.mp h
  cases outcome with
  | error reason =>
    obtain ⟨rfl, rfl⟩ := Prod.mk.inj (Except.ok.inj h)
    exact .rejected taken decoded rfl
  | ok inbound =>
    dsimp only at h
    split at h
    · obtain ⟨rfl, rfl⟩ := Prod.mk.inj (Except.ok.inj h)
      exact .closed rfl rfl
    · rename_i next advanced
      obtain ⟨rfl, rfl⟩ := Prod.mk.inj (Except.ok.inj h)
      refine .dispatched taken decoded ?_
      rw [dispatch_sequence]
      exact SequenceState.advance_spec advanced

/-- A message that is taken up and refused only moves the cursor. -/
theorem Loop.consume_refused [Chrono] {peer : Peer} {loop : Loop} {message : FixMessage}
    (taken : TakenUp peer loop message) {reason : String}
    (refused : decode (D := D) message = .ok (.error reason)) (party : Party) :
    loop.consume (D := D) party peer message =
      .ok (.rejected reason, { loop with first := false, sequence := loop.sequence.skip }) := by
  obtain ⟨number, header⟩ := taken.header
  have answer : ¬ (loop.first ∧ message.msgType ≠ some "A" ∧ message.msgType ≠ some "5") := by
    rintro ⟨first, notLogon, notLogout⟩
    exact (taken.answer first).elim notLogon notLogout
  have classified : loop.sequence.classify message = .ok (.ready, loop.sequence) :=
    SequenceState.classify_ready.mpr taken.cursor
  unfold consume
  rw [header]
  dsimp only
  rw [if_neg answer]
  simp only [classified]
  rw [refused]
  rfl

/-- A message is rejected when it is taken up and refused. -/
theorem Loop.rejected_iff [Chrono] {party : Party} {peer : Peer} {loop loop' : Loop}
    {message : FixMessage} {turn : Turn D}
    (h : loop.consume party peer message = .ok (turn, loop')) :
    (∃ reason, turn = .rejected reason) ↔ TakenUp peer loop message ∧ Refused D message := by
  constructor
  · rintro ⟨reason, rfl⟩
    cases consume_spec h with
    | rejected taken refused _ => exact ⟨taken, reason, refused⟩
  · rintro ⟨taken, reason, refused⟩
    rw [consume_refused taken refused] at h
    exact ⟨reason, (Prod.mk.inj (Except.ok.inj h)).1.symm⟩

end RustTrader.Fix
