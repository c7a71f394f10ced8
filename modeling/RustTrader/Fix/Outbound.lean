import Mathlib.Logic.Relation
import RustTrader.Mailbox
import RustTrader.Fix.GapFill
import RustTrader.Fix.Startup
import RustTrader.Fix.Writer

/-!
# The output of a connection

Everybody who has something to say on a connection puts it into one mailbox.
`writer_loop` of `fix/session.rs` takes it out, numbers it and writes it, sends a
heartbeat when nothing came, and stops when it finds the mailbox failed. What was accepted
is written in the order of acceptance, once, or not at all after the end.
-/

namespace RustTrader.Fix

variable {D : Type} [Decimal D]

structure WriterState where
  beginString : String
  senderCompId : String
  targetCompId : String
  seq : Nat
  running : Bool

/-- The fields of a report; only the acceptor keeps identifiers. -/
def wiredReport (built : String) (ids : Option WireIdMap) (report : Report D) : Fields :=
  match ids with
  | some ids => writtenReport built ids report
  | none => buildExecutionReport built report

namespace WriterState

/-- Write a message under the next number. -/
def put (w : WriterState) (now msgType : String) (fields : Fields) :
    Option (List UInt8) × WriterState :=
  let seq := min (w.seq + 1) u64Max
  (some (frame w.beginString msgType seq w.senderCompId w.targetCompId now fields),
    { w with seq := seq })

/-- One round of `writer_loop`: what is written, and the state after it. -/
def round (w : WriterState) (built now : String) (ids : Option WireIdMap) :
    OutMsg D → Option (List UInt8) × WriterState
  | .shutdown => (none, { w with running := false })
  | .gapFill beginSeq endSeq =>
    let beginSeq := max beginSeq 1
    let effectiveEnd := if endSeq = 0 then w.seq else min endSeq w.seq
    if effectiveEnd < beginSeq then (none, w)
    else
      let newSeq := min (effectiveEnd + 1) u64Max
      (some (frameGapFill w.beginString "4" beginSeq w.senderCompId w.targetCompId now
        [(36, newSeq.repr), (123, "Y")]), { w with seq := max w.seq effectiveEnd })
  | .message msgType fields => w.put now msgType fields
  | .report report => w.put now "8" (wiredReport built ids report)
  | .logoutAndShutdown fields =>
    let (bytes, w) := w.put now "5" fields
    (bytes, { w with running := false })

end WriterState

/-- The type and the fields under which an output takes a number of its own. -/
def OutMsg.contents (built : String) (ids : Option WireIdMap) : OutMsg D → Option (String × Fields)
  | .message msgType fields => some (msgType, fields)
  | .report news => some ("8", wiredReport built ids news)
  | .logoutAndShutdown fields => some ("5", fields)
  | .gapFill .. | .shutdown => none

/-- After these the writer stops. -/
def OutMsg.Final : OutMsg D → Bool
  | .logoutAndShutdown .. | .shutdown => true
  | _ => false

/-- Whether an output takes a number of its own. -/
def OutMsg.Counts : OutMsg D → Bool
  | .message .. | .report .. | .logoutAndShutdown .. => true
  | .gapFill .. | .shutdown => false

/-- A writer of the same session. -/
structure WriterState.Like (w w' : WriterState) : Prop where
  beginString : w'.beginString = w.beginString
  sender : w'.senderCompId = w.senderCompId
  target : w'.targetCompId = w.targetCompId

/-- What a round does, by the kind of the output. -/
inductive Round (w : WriterState) (built now : String) (ids : Option WireIdMap) (out : OutMsg D) :
    Option (List UInt8) × WriterState → Prop where
  | quiet {w' : WriterState} (like : w.Like w') (counts : out.Counts = false)
      (same : w'.seq = w.seq) (running : w'.running = (w.running && !out.Final)) :
      Round w built now ids out (none, w')
  | numbered {kind : String} {fields : Fields} {w' : WriterState} (like : w.Like w')
      (counts : out.Counts = true) (contents : out.contents built ids = some (kind, fields))
      (seq : w'.seq = min (w.seq + 1) u64Max) (running : w'.running = (w.running && !out.Final)) :
      Round w built now ids out
        (some (frame w.beginString kind w'.seq w.senderCompId w.targetCompId now fields), w')
  | filled {beginSeq last : Nat} {w' : WriterState} (like : w.Like w')
      (counts : out.Counts = false) (final : out.Final = false)
      (positive : 0 < beginSeq) (covers : beginSeq ≤ last) (sent : last ≤ w.seq)
      (same : w'.seq = w.seq) (running : w'.running = w.running) :
      Round w built now ids out (some (frameGapFill w.beginString "4" beginSeq w.senderCompId
        w.targetCompId now [(36, (min (last + 1) u64Max).repr), (123, "Y")]), w')

theorem Round.put {w : WriterState} {built now : String} {ids : Option WireIdMap}
    (out : OutMsg D) {kind : String} {fields : Fields} (counts : out.Counts = true)
    (contents : out.contents built ids = some (kind, fields)) {running : Bool}
    (ends : running = (w.running && !out.Final)) :
    Round w built now ids out
      ((w.put now kind fields).1, { (w.put now kind fields).2 with running := running }) := by
  let after : WriterState := { w with seq := min (w.seq + 1) u64Max, running := running }
  exact (Round.numbered ⟨rfl, rfl, rfl⟩ counts contents rfl ends : Round w built now ids out
    (some (frame w.beginString kind after.seq w.senderCompId w.targetCompId now fields), after))

theorem WriterState.round_spec (w : WriterState) (built now : String) (ids : Option WireIdMap)
    (out : OutMsg D) : Round w built now ids out (w.round built now ids out) := by
  cases out with
  | message kind fields =>
    exact .put (.message kind fields) rfl rfl (Bool.and_true _).symm
  | report news => exact .put (.report news) rfl rfl (Bool.and_true _).symm
  | shutdown => exact .quiet ⟨rfl, rfl, rfl⟩ rfl rfl (Bool.and_false _).symm
  | logoutAndShutdown fields =>
    exact .put (.logoutAndShutdown fields) rfl rfl (Bool.and_false _).symm
  | gapFill beginSeq endSeq =>
    have within : (if endSeq = 0 then w.seq else min endSeq w.seq) ≤ w.seq := by
      split
      · exact le_refl _
      · exact Nat.min_le_right _ _
    unfold round
    dsimp only
    generalize (if endSeq = 0 then w.seq else min endSeq w.seq) = effectiveEnd at *
    split
    · exact .quiet ⟨rfl, rfl, rfl⟩ rfl rfl (Bool.and_true _).symm
    · rename_i covered
      refine .filled ⟨rfl, rfl, rfl⟩ rfl rfl ?_ ?_ within (Nat.max_eq_left within) rfl
      all_goals omega

/-- One output in the history of a writer: whether it came from the mailbox, what it was
written with, what was written for it, and the number of the writer after it. -/
structure Outbound.Entry (D : Type) where
  out : OutMsg D
  prompted : Bool
  built : String
  now : String
  ids : Option WireIdMap
  frame : Option (List UInt8)
  mark : Nat

/-- A mailbox and its writer. A sender looks at the failure flag before it tries to send,
and sets it after it was denied: `offered` and `denied` are the outputs in between,
`accepted` and `refused` those whose sender is done. The writer looks at the flag too,
and then is `waiting` for an output; `log` is what it has handled. -/
structure Outbound (D : Type) where
  mailbox : Mailbox (OutMsg D) mailboxCapacity
  offered : List (OutMsg D)
  denied : List (OutMsg D)
  accepted : List (OutMsg D)
  refused : List (OutMsg D)
  writer : WriterState
  waiting : Bool
  log : List (Outbound.Entry D)

/-- Whether the time can be sent, and an output that is numbered is not a sequence
reset and can be put into fields that are not those of the header. -/
structure Sound [Chrono] (built now : String) (ids : Option WireIdMap) (out : OutMsg D) : Prop where
  time : SendingTime now
  kind : ∀ kind fields, out.contents built ids = some (kind, fields) → kind ≠ "4" ∧ Value kind
  body : ∀ kind fields, out.contents built ids = some (kind, fields) →
    ∀ field ∈ fields, BodyField field ∧ field.1 ∉ [34, 35, 43, 49, 52, 56]

namespace Outbound

/-- A writer that has not written yet. -/
def start (sender target : String) : Outbound D :=
  ⟨Mailbox.channel false, [], [], [], [], ⟨"FIX.4.2", sender, target, 0, true⟩, false, []⟩

/-- The writer handles an output. -/
def handle (x : Outbound D) (prompted : Bool) (built now : String) (ids : Option WireIdMap)
    (out : OutMsg D) : Outbound D :=
  let (bytes, writer) := x.writer.round built now ids out
  { x with
    writer := writer
    waiting := false
    log := x.log ++ [⟨out, prompted, built, now, ids, bytes, writer.seq⟩] }

/-- What can happen to a mailbox and its writer. A sender offers an output, or is turned
away by the flag; what is offered is accepted or denied, and what is denied fails the
mailbox, which others can do as well. The writer looks at the flag, takes the next output
or sends a heartbeat when there is none, stops, and lets the mailbox go. -/
inductive Move (x : Outbound D) : Outbound D → Prop where
  | offer (out : OutMsg D) (working : x.mailbox.failed = false) :
      Move x { x with offered := x.offered ++ [out] }
  | turnAway (out : OutMsg D) (broken : x.mailbox.failed = true) :
      Move x { x with refused := x.refused ++ [out] }
  | accept {out : OutMsg D} {before after : List (OutMsg D)}
      {mailbox : Mailbox (OutMsg D) mailboxCapacity} (here : x.offered = before ++ out :: after)
      (tried : x.mailbox.trySend out = .ok mailbox) :
      Move x { x with
        mailbox := mailbox
        offered := before ++ after
        accepted := x.accepted ++ [out] }
  | deny {out : OutMsg D} {before after : List (OutMsg D)} {err : TrySendError (OutMsg D)}
      (here : x.offered = before ++ out :: after) (tried : x.mailbox.trySend out = .error err) :
      Move x { x with
        offered := before ++ after
        denied := x.denied ++ [out] }
  | refuse {out : OutMsg D} {before after : List (OutMsg D)}
      (here : x.denied = before ++ out :: after) :
      Move x { x with
        mailbox := x.mailbox.fail
        denied := before ++ after
        refused := x.refused ++ [out] }
  | fail : Move x { x with mailbox := x.mailbox.fail }
  | look (running : x.writer.running = true) (working : x.mailbox.failed = false) :
      Move x { x with waiting := true }
  | take {mailbox : Mailbox (OutMsg D) mailboxCapacity} (built now : String)
      (ids : Option WireIdMap) (out : OutMsg D) (running : x.writer.running = true)
      (waits : x.waiting = true) (next : x.mailbox.receive = some (out, mailbox)) :
      Move x (({ x with mailbox := mailbox } : Outbound D).handle true built now ids out)
  | idle (built now : String) (ids : Option WireIdMap) (running : x.writer.running = true)
      (waits : x.waiting = true) (empty : x.mailbox.receive = none) :
      Move x (x.handle false built now ids (.message "0" []))
  | stop : Move x { x with writer := { x.writer with running := false } }
  | leave (stopped : x.writer.running = false) : Move x { x with mailbox := x.mailbox.hangUp }

def Runs : Outbound D → Outbound D → Prop := Relation.ReflTransGen Move

/-- A numbered output stands in its frame, under the mark. -/
def WrittenBy (w : WriterState) (entry : Entry D) : Prop :=
  entry.out.Counts = true → ∃ kind fields,
    entry.out.contents entry.built entry.ids = some (kind, fields) ∧ entry.frame = some
      (frame w.beginString kind entry.mark w.senderCompId w.targetCompId entry.now fields)

/-- What a history keeps of the mailbox: everything accepted was taken in order or waits,
a refusal fails the mailbox, every numbered output is written under its place among them,
and nothing follows the end. -/
structure Orderly (x : Outbound D) : Prop where
  accounted : x.accepted = (x.log.filter Entry.prompted).map Entry.out ++ x.mailbox.pending
  refused : x.refused ≠ [] → x.mailbox.failed = true
  written : ∀ entry ∈ x.log, WrittenBy x.writer entry
  counted : ∀ earlier entry later, x.log = earlier ++ entry :: later →
    entry.mark = min ((earlier ++ [entry]).countP fun e => e.out.Counts) u64Max
  last : ∀ earlier entry later, x.log = earlier ++ entry :: later → entry.out.Final = true →
    later = []
  seq : x.writer.seq = min (x.log.countP fun e => e.out.Counts) u64Max
  ended : ∀ entry ∈ x.log, entry.out.Final = true → x.writer.running = false

theorem snoc_split {α : Type} {front earlier later : List α} {a b : α}
    (h : front ++ [a] = earlier ++ b :: later) :
    later = [] ∧ front = earlier ∧ a = b ∨
      ∃ rest, later = rest ++ [a] ∧ front = earlier ++ b :: rest := by
  rcases List.eq_nil_or_concat later with rfl | ⟨rest, c, rfl⟩
  · obtain ⟨same, last⟩ := List.append_inj' h rfl
    cases last
    exact .inl ⟨rfl, same, rfl⟩
  · rw [List.concat_eq_append, ← List.cons_append, ← List.append_assoc] at h
    obtain ⟨same, last⟩ := List.append_inj' h rfl
    cases last
    exact .inr ⟨rest, List.concat_eq_append, same⟩

variable {x y z : Outbound D}

theorem orderly_start (sender target : String) : Orderly (start sender target : Outbound D) := by
  refine ⟨rfl, fun some_ => absurd rfl some_, fun entry mem => (by cases mem), ?_, ?_, rfl,
    fun entry mem => (by cases mem)⟩
  · intro earlier entry later split
    cases earlier <;> cases split
  · intro earlier entry later split
    cases earlier <;> cases split

theorem handle_spec (x : Outbound D) (prompted : Bool) (built now : String)
    (ids : Option WireIdMap) (out : OutMsg D) : ∃ frame writer,
      Round x.writer built now ids out (frame, writer) ∧
      x.handle prompted built now ids out = { x with
        writer := writer
        waiting := false
        log := x.log ++ [⟨out, prompted, built, now, ids, frame, writer.seq⟩] } :=
  ⟨_, _, x.writer.round_spec built now ids out, rfl⟩

theorem round_seq {w w' : WriterState} {built now : String} {ids : Option WireIdMap}
    {out : OutMsg D} {frame : Option (List UInt8)}
    (round : Round w built now ids out (frame, w')) :
    w'.seq = (if out.Counts then min (w.seq + 1) u64Max else w.seq) ∧
      w'.running = (w.running && !out.Final) ∧ w.Like w' := by
  cases round with
  | quiet like counts same running => exact ⟨by rw [counts, same]; rfl, running, like⟩
  | numbered like counts contents seq running => exact ⟨by rw [counts, seq]; rfl, running, like⟩
  | filled like counts final positive covers sent same running =>
    refine ⟨by rw [counts, same]; rfl, ?_, like⟩
    rw [running, final, Bool.not_false, Bool.and_true]

theorem WrittenBy.like {w w' : WriterState} {entry : Entry D} (h : WrittenBy w entry)
    (like : w.Like w') : WrittenBy w' entry := by
  intro counts
  rw [like.beginString, like.sender, like.target]
  exact h counts

theorem round_written {w w' : WriterState} {built now : String} {ids : Option WireIdMap}
    {out : OutMsg D} {frame : Option (List UInt8)}
    (round : Round w built now ids out (frame, w')) (prompted : Bool) :
    WrittenBy w' ⟨out, prompted, built, now, ids, frame, w'.seq⟩ := by
  intro counts
  cases round with
  | quiet like silent | filled like silent =>
    rw [silent] at counts
    cases counts
  | numbered like _ contents =>
    rw [like.beginString, like.sender, like.target]
    exact ⟨_, _, contents, rfl⟩

/-- What the writer handles joins the history at its end. -/
theorem Orderly.handle (h : Orderly x) (running : x.writer.running = true) (prompted : Bool)
    (built now : String) (ids : Option WireIdMap) (out : OutMsg D)
    {mailbox : Mailbox (OutMsg D) mailboxCapacity}
    (pending : x.mailbox.pending = (if prompted then [out] else []) ++ mailbox.pending)
    (failed : mailbox.failed = x.mailbox.failed) :
    Orderly (({ x with mailbox := mailbox } : Outbound D).handle prompted built now ids out) := by
  obtain ⟨frame, writer, round, same⟩ :=
    handle_spec ({ x with mailbox := mailbox } : Outbound D) prompted built now ids out
  obtain ⟨seq, stops, like⟩ := round_seq round
  have open_ : ∀ entry ∈ x.log, entry.out.Final = false := by
    intro entry mem
    by_contra final
    have ended := h.ended entry mem (by simpa using final)
    rw [ended] at running
    cases running
  have counts : writer.seq = min ((x.log ++
      [(⟨out, prompted, built, now, ids, frame, writer.seq⟩ : Entry D)]).countP
        fun e => e.out.Counts) u64Max := by
    rw [seq, List.countP_append, List.countP_singleton, h.seq]
    split <;> omega
  rw [same]
  refine ⟨?_, ?_, ?_, ?_, ?_, counts, ?_⟩
  · rw [h.accounted, pending]
    cases prompted <;> simp
  · exact fun some_ => failed.trans (h.refused some_)
  · intro entry mem
    rcases List.mem_append.mp mem with old | new
    · exact (h.written entry old).like like
    · cases List.mem_singleton.mp new
      exact round_written round prompted
  · intro earlier entry later split
    rcases snoc_split split with ⟨rfl, rfl, rfl⟩ | ⟨rest, rfl, inner⟩
    · exact counts
    · exact h.counted earlier entry rest inner
  · intro earlier entry later split final
    rcases snoc_split split with ⟨rfl, rfl, rfl⟩ | ⟨rest, rfl, inner⟩
    · rfl
    · have mem : entry ∈ x.log := by
        rw [inner]
        exact List.mem_append_right _ List.mem_cons_self
      rw [open_ entry mem] at final
      cases final
  · intro entry mem final
    rcases List.mem_append.mp mem with old | new
    · rw [open_ entry old] at final
      cases final
    · cases List.mem_singleton.mp new
      rw [stops, final]
      exact Bool.and_false _

theorem Orderly.move (h : Orderly x) (move : Move x y) : Orderly y := by
  cases move with
  | offer | look | deny =>
    exact ⟨h.accounted, h.refused, h.written, h.counted, h.last, h.seq, h.ended⟩
  | turnAway out broken =>
    exact ⟨h.accounted, fun _ => broken, h.written, h.counted, h.last, h.seq, h.ended⟩
  | accept here tried =>
    obtain ⟨-, queued, -, failed⟩ := Mailbox.trySend_spec tried
    refine ⟨?_, fun some_ => failed.trans (h.refused some_), h.written, h.counted, h.last, h.seq,
      h.ended⟩
    dsimp only
    rw [h.accounted, queued, List.append_assoc]
  | refuse | fail =>
    exact ⟨h.accounted, fun _ => rfl, h.written, h.counted, h.last, h.seq, h.ended⟩
  | take built now ids out running waits next =>
    obtain ⟨pending, -, failed⟩ := Mailbox.receive_spec next
    exact h.handle running true built now ids out pending failed
  | idle built now ids running waits empty =>
    exact h.handle running false built now ids _ rfl rfl
  | stop => exact ⟨h.accounted, h.refused, h.written, h.counted, h.last, h.seq, fun _ _ _ => rfl⟩
  | leave stopped => exact ⟨h.accounted, h.refused, h.written, h.counted, h.last, h.seq, h.ended⟩

/-- After a failure only what was offered before can still be accepted, and only a writer
that waited before writes something, once; a writer that has stopped writes nothing. -/
structure Shut (x y : Outbound D) : Prop where
  failed : x.mailbox.failed = true → y.mailbox.failed = true
  accepted : x.mailbox.failed = true → ∃ late, y.accepted = x.accepted ++ late ∧
    (late ++ y.offered).Subperm x.offered
  written : x.mailbox.failed = true → ∃ last, y.log = x.log ++ last ∧
    last.length + y.waiting.toNat ≤ x.waiting.toNat
  stopped : x.writer.running = false → y.log = x.log ∧ y.writer.running = false

omit [Decimal D] in
theorem Shut.refl (x : Outbound D) : Shut x x where
  failed := id
  accepted _ := ⟨[], (List.append_nil _).symm, .refl _⟩
  written _ := ⟨[], (List.append_nil _).symm, (Nat.zero_add _).le⟩
  stopped stopped := ⟨rfl, stopped⟩

omit [Decimal D] in
theorem Shut.trans (h : Shut x y) (h' : Shut y z) : Shut x z where
  failed failed := h'.failed (h.failed failed)
  accepted failed := by
    obtain ⟨late, accepted, offered⟩ := h.accepted failed
    obtain ⟨later, accepted', offered'⟩ := h'.accepted (h.failed failed)
    refine ⟨late ++ later, by rw [accepted', accepted, List.append_assoc], ?_⟩
    rw [List.append_assoc]
    exact ((List.subperm_append_left late).mpr offered').trans offered
  written failed := by
    obtain ⟨last, log, waits⟩ := h.written failed
    obtain ⟨further, log', waits'⟩ := h'.written (h.failed failed)
    refine ⟨last ++ further, by rw [log', log, List.append_assoc], ?_⟩
    rw [List.length_append]
    omega
  stopped stopped := by
    obtain ⟨log, still⟩ := h.stopped stopped
    obtain ⟨log', still'⟩ := h'.stopped still
    exact ⟨log'.trans log, still'⟩

/-- What the writer handles it had waited for. -/
theorem shut_handle (running : x.writer.running = true) (waits : x.waiting = true)
    (prompted : Bool) (built now : String) (ids : Option WireIdMap) (out : OutMsg D)
    {mailbox : Mailbox (OutMsg D) mailboxCapacity} (failed : mailbox.failed = x.mailbox.failed) :
    Shut x (({ x with mailbox := mailbox } : Outbound D).handle prompted built now ids out) where
  failed broken := failed.trans broken
  accepted _ := ⟨[], (List.append_nil _).symm, .refl _⟩
  written _ := ⟨_, rfl, by rw [waits]; exact le_rfl⟩
  stopped stopped := by
    rw [running] at stopped
    cases stopped

theorem shut_move (move : Move x y) : Shut x y := by
  cases move with
  | offer out working | look running working =>
    refine ⟨id, fun broken => ?_, fun broken => ?_, fun stopped => ⟨rfl, stopped⟩⟩
    · rw [working] at broken
      cases broken
    · rw [working] at broken
      cases broken
  | turnAway | leave => exact { Shut.refl x with }
  | fail => exact { Shut.refl x with failed := fun _ => rfl }
  | refuse here => exact { Shut.refl x with failed := fun _ => rfl }
  | stop => exact { Shut.refl x with stopped := fun _ => ⟨rfl, rfl⟩ }
  | @accept out before after mailbox here tried =>
    refine { Shut.refl x with failed := ?_, accepted := fun _ => ⟨[out], rfl, ?_⟩ }
    · exact (Mailbox.trySend_spec tried).2.2.2.trans
    · have moved : (out :: (before ++ after)).Perm (before ++ out :: after) :=
        List.perm_middle.symm
      rw [here]
      exact moved.subperm
  | @deny out before after err here tried =>
    refine { Shut.refl x with accepted := fun _ => ⟨[], (List.append_nil _).symm, ?_⟩ }
    rw [here]
    exact ((List.sublist_cons_self out after).append_left before).subperm
  | take built now ids out running waits next =>
    exact shut_handle running waits true built now ids out (Mailbox.receive_spec next).2.2
  | idle built now ids running waits empty =>
    exact shut_handle running waits false built now ids _ rfl

theorem shut_runs (run : Runs x y) : Shut x y := by
  induction run with
  | refl => exact .refl x
  | tail _ move ih => exact ih.trans (shut_move move)

/-- In every interleaving of those who send on a connection with its writer, what was
accepted is written in order, and what can still happen after a failure or the end was
under way before. -/
theorem written_in_order {sender target : String} (run : Runs (start sender target) x) :
    Orderly x ∧ ∀ y, Runs x y → Shut x y := by
  refine ⟨?_, fun y => shut_runs⟩
  induction run with
  | refl => exact orderly_start sender target
  | tail _ move ih => exact ih.move move

/-- An output on its way through an empty mailbox. -/
theorem spoken (x : Outbound D) (built now : String) (ids : Option WireIdMap) (out : OutMsg D)
    (running : x.writer.running = true) (open_ : x.mailbox = Mailbox.channel false) :
    Runs x (({ x with accepted := x.accepted ++ [out] } : Outbound D).handle true built now ids
      out) := by
  obtain ⟨mailbox, offered, denied, accepted, refused, writer, waiting, log⟩ := x
  subst open_
  have first := Relation.ReflTransGen.single (Move.offer out rfl :
    Move (⟨Mailbox.channel false, offered, denied, accepted, refused, writer, waiting, log⟩ :
      Outbound D) _)
  have second := first.tail (.accept (rfl : _ = offered ++ out :: []) rfl)
  rw [List.append_nil] at second
  exact (second.tail (.look running rfl)).tail (.take built now ids out running rfl rfl)

/-- An output that was offered in time, on its way to a writer that waits. -/
theorem spoken_late (x : Outbound D) (built now : String) (ids : Option WireIdMap)
    {out : OutMsg D} (running : x.writer.running = true) (waits : x.waiting = true)
    (here : x.offered = [out]) (failed : x.mailbox = Mailbox.channel true) :
    Runs x (({ x with offered := [], accepted := x.accepted ++ [out] } : Outbound D).handle true
      built now ids out) := by
  obtain ⟨mailbox, offered, denied, accepted, refused, writer, waiting, log⟩ := x
  subst here failed waits
  have first := Relation.ReflTransGen.single (Move.accept (rfl : _ = [] ++ out :: []) rfl :
    Move (⟨Mailbox.channel true, [out], denied, accepted, refused, writer, true, log⟩ :
      Outbound D) _)
  exact first.tail (.take built now ids out running rfl rfl)

/-- A Logon, and a heartbeat that is accepted and written although the mailbox has failed
in between. -/
theorem written_in_order_sample : ∃ x y : Outbound ℚ, Runs (start "GOX" "CLIENT") x ∧ Runs x y ∧
    x.mailbox.failed = true ∧ (x.accepted.length, x.log.length) = (1, 1) ∧
    (y.accepted.length, y.log.length) = (2, 2) ∧ Orderly x ∧ Shut x y := by
  have first := spoken (start "GOX" "CLIENT" : Outbound ℚ) "now" "20260912-19:24:59.056" none
    (.message "A" (buildLogon 30)) rfl rfl
  have second := first.tail (.offer (.message "0" []) rfl)
  have third := (second.tail (.look rfl rfl)).tail .fail
  obtain ⟨x, run, running, waits, offered, failed, accepted, written⟩ :
      ∃ x : Outbound ℚ, Runs (start "GOX" "CLIENT") x ∧ x.writer.running = true ∧
        x.waiting = true ∧ x.offered = [.message "0" []] ∧ x.mailbox = Mailbox.channel true ∧
        x.accepted.length = 1 ∧ x.log.length = 1 :=
    ⟨_, third, rfl, rfl, rfl, rfl, rfl, rfl⟩
  have late := spoken_late x "now" "20260912-19:24:59.056" none running waits offered failed
  obtain ⟨orderly, shut⟩ := written_in_order run
  refine ⟨x, _, run, late, by rw [failed]; rfl, by rw [accepted, written], ?_, orderly,
    shut _ late⟩
  unfold handle
  simp [accepted, written]

end Outbound

theorem sound_sample (kind : String) (other : kind ≠ "4" ∧ Value kind) (fields : Fields)
    (body : ∀ field ∈ fields, (BodyTag field.1 ∧ Value field.2) ∧
      field.1 ∉ [34, 35, 43, 49, 52, 56]) :
    Sound "now" "20260912-19:24:59.056" none (.message kind fields : OutMsg D) := by
  refine ⟨sendingTime_sample, ?_, ?_⟩
  · rintro _ _ ⟨⟩
    exact other
  · rintro _ _ ⟨⟩ field mem
    exact ⟨⟨(body field mem).1.1, (body field mem).1.2⟩, (body field mem).2⟩

end RustTrader.Fix
