import Mathlib.Data.List.Basic

/-!
# Mailboxes

The bounded queues of `queue.rs`: sending never blocks, and the first value that does
not fit fails the queue for good.
-/

namespace RustTrader

/-- `CAPACITY` of `queue.rs`. -/
def mailboxCapacity : Nat := 1024

/-- A queue with its failure flag and whether somebody still receives from it. -/
structure Mailbox (α : Type) (capacity : Nat) where
  pending : List α
  listening : Bool
  failed : Bool
  room : pending.length ≤ capacity

inductive TrySendError (α : Type) where
  | full (value : α)
  | disconnected (value : α)

namespace Mailbox

variable {α : Type} {capacity : Nat}

/-- `channel_with_flag`. -/
def channel (failed : Bool) : Mailbox α capacity := ⟨[], true, failed, Nat.zero_le _⟩

/-- Set the failure flag. -/
def fail (m : Mailbox α capacity) : Mailbox α capacity := { m with failed := true }

/-- `try_send` of the channel inside. -/
def trySend (m : Mailbox α capacity) (value : α) :
    Except (TrySendError α) (Mailbox α capacity) :=
  if m.listening then
    if room : m.pending.length < capacity then
      .ok { m with
        pending := m.pending ++ [value]
        room := by
          rw [List.length_append]
          exact room }
    else .error (.full value)
  else .error (.disconnected value)

/-- `Sender::send`, with nobody else in between. -/
def send (m : Mailbox α capacity) (value : α) :
    Except (TrySendError α) Unit × Mailbox α capacity :=
  if m.failed then (.error (.disconnected value), m)
  else match m.trySend value with
    | .ok m' => (.ok (), m')
    | .error error => (.error error, m.fail)

/-- The receiver takes the oldest value. -/
def receive (m : Mailbox α capacity) : Option (α × Mailbox α capacity) :=
  match h : m.pending with
  | [] => none
  | value :: rest => some (value, { m with
      pending := rest
      room := by
        have := m.room
        rw [h, List.length_cons] at this
        omega })

/-- The receiver goes away. -/
def hangUp (m : Mailbox α capacity) : Mailbox α capacity := { m with listening := false }

variable {m m' : Mailbox α capacity} {value : α}

theorem trySend_spec (h : m.trySend value = .ok m') : m.listening = true ∧
    m'.pending = m.pending ++ [value] ∧ m'.listening = m.listening ∧ m'.failed = m.failed := by
  unfold trySend at h
  split at h
  · rename_i heard
    split at h
    · cases h
      exact ⟨heard, rfl, rfl, rfl⟩
    · cases h
  · cases h

/-- A value that is accepted waits behind the others; one that is refused fails the
mailbox and changes nothing else. -/
inductive Sent (m : Mailbox α capacity) (value : α) :
    Except (TrySendError α) Unit × Mailbox α capacity → Prop where
  | accepted {m' : Mailbox α capacity} (working : m.failed = false) (heard : m.listening = true)
      (queued : m'.pending = m.pending ++ [value]) (listening : m'.listening = m.listening)
      (failed : m'.failed = false) : Sent m value (.ok (), m')
  | refused {err : TrySendError α} {m' : Mailbox α capacity} (kept : m'.pending = m.pending)
      (listening : m'.listening = m.listening) (failed : m'.failed = true) :
      Sent m value (.error err, m')

theorem send_spec (m : Mailbox α capacity) (value : α) : m.Sent value (m.send value) := by
  unfold send
  split
  · rename_i broken
    exact .refused rfl rfl broken
  · rename_i working
    cases tried : m.trySend value with
    | ok m' =>
      obtain ⟨heard, queued, listening, failed⟩ := trySend_spec tried
      have open_ : m.failed = false := by simpa using working
      exact .accepted open_ heard queued listening (failed.trans open_)
    | error err => exact .refused rfl rfl rfl

theorem receive_spec (h : m.receive = some (value, m')) :
    m.pending = value :: m'.pending ∧ m'.listening = m.listening ∧ m'.failed = m.failed := by
  unfold receive at h
  split at h
  · cases h
  · rename_i next
    cases h
    exact ⟨next, rfl, rfl⟩

end Mailbox

end RustTrader
