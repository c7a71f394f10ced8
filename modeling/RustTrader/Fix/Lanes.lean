import RustTrader.Fix.Refusals
import RustTrader.Fix.Views

/-!
# One direction of a connection

A bounded queue, a writer and the frames on the wire. What is accepted into the queue
is read at the other end as the message it stands for, in order, as long as the texts
of the identifiers are the identifiers themselves.
-/

namespace RustTrader.Fix

variable {D : Type} [Decimal D]

theorem number_injective {i j : OrderId} (hi : Requestable i) (hj : Requestable j)
    (same : toString i = toString j) : i = j := by
  have parsed := parseI32_number hi.1 hi.2
  rw [same, parseI32_number hj.1 hj.2] at parsed
  exact (Option.some.inj parsed).symm

namespace WireIdMap

/-- Every text is the number it stands for. -/
def Literal (map : WireIdMap) : Prop := ∀ id wire, map.wireFor id = some wire → wire = toString id

theorem literal_new : new.Literal := by
  intro id wire found
  cases found

/-- A number that is free is given to its text. -/
theorem freshId_number {map : WireIdMap} (paired : map.Paired) (literal : map.Literal)
    {id : OrderId} (requestable : Requestable id) (free : map.wireFor id = none) :
    ∃ map', map.freshId (toString id) = (.ok id, map') ∧ map'.Paired ∧ map'.Literal ∧
      (∀ k, map'.wireFor k = if k = id then some (toString id) else map.wireFor k) := by
  have unknown : HashMap.get? map.wireToInternal (toString id) = none := by
    cases known : HashMap.get? map.wireToInternal (toString id) with
    | none => rfl
    | some k =>
      have back := paired.forth _ _ known
      have same := literal k _ back
      have same := number_injective requestable (paired.range _ _ back) same
      rw [← same, free] at back
      cases back
  have preferred_ : preferred (toString id) = some id := by
    unfold preferred
    change (parseI32 (toString id)).filter _ = _
    rw [parseI32_number requestable.1 requestable.2, Option.filter_some, if_pos]
    exact decide_eq_true ⟨requestable.1, requestable.1.ne'⟩
  have unused : HashMap.contains map.internalToWire id = false := by
    unfold HashMap.contains
    unfold wireFor at free
    rw [free]
    rfl
  have picked : map.pick (toString id) = some (id, map.nextInternal) := by
    unfold pick
    rw [preferred_]
    dsimp only
    rw [unused]
    exact if_neg Bool.false_ne_true
  have result : map.freshId (toString id) = (.ok id,
      ⟨HashMap.set map.wireToInternal (toString id) id,
        HashMap.set map.internalToWire id (toString id), map.nextInternal⟩) := by
    unfold freshId intern HashMap.contains
    rw [unknown]
    dsimp only
    rw [Option.isSome_none, if_neg Bool.false_ne_true, if_neg (number_ne_empty id), picked]
  have names : ∀ k, HashMap.get? (HashMap.set map.internalToWire id (toString id)) k =
      if k = id then some (toString id) else map.wireFor k := fun k => HashMap.get?_set _ _ _ _
  refine ⟨_, result, (freshId_cases paired result).1, ?_, names⟩
  intro k wire found
  have named := (names k).symm.trans found
  split at named
  · rename_i here
    rw [here]
    exact (Option.some.inj named).symm
  · exact literal k wire named

end WireIdMap

theorem setField_same {tag : Nat} {value : String} {fields : Fields}
    (same : ∀ field ∈ fields, field.1 = tag → field.2 = value) :
    setField tag value fields = fields := by
  induction fields with
  | nil => rfl
  | cons field fields ih =>
    obtain ⟨first, rest⟩ := List.forall_mem_cons.mp same
    unfold setField
    split
    · rename_i here
      rw [← first here]
    · rw [ih rest]

/-- The fields of a report under the two tags of identifiers. -/
theorem built_named {now : String} {report : Report D} :
    ∀ field ∈ buildExecutionReport now report,
      (field.1 = 11 → clOrdIdOf report ≠ 0 ∧ field.2 = toString (clOrdIdOf report)) ∧
      (field.1 = 41 → ∃ id, origClOrdIdOf report = some id ∧ field.2 = toString id) := by
  intro field mem
  rw [buildExecutionReport_eq] at mem
  rcases List.mem_append.mp mem with mem | mem
  · simp only [List.mem_cons, List.not_mem_nil, or_false] at mem
    rcases mem with rfl | rfl | rfl | rfl | rfl | rfl | rfl | rfl | rfl | rfl | rfl | rfl | rfl <;>
      exact ⟨nofun, nofun⟩
  rcases List.mem_append.mp mem with mem | mem
  · split at mem
    · rename_i regular
      rw [List.mem_singleton.mp mem]
      exact ⟨fun _ => ⟨regular, rfl⟩, nofun⟩
    · cases mem
  rcases List.mem_append.mp mem with mem | mem
  · obtain ⟨id, named, rfl⟩ := List.mem_map.mp mem
    exact ⟨nofun, fun _ => ⟨id, Option.mem_toList.mp named, rfl⟩⟩
  rcases List.mem_append.mp mem with mem | mem
  · split at mem
    · rw [List.mem_singleton.mp mem]
      exact ⟨nofun, nofun⟩
    · cases mem
  · simp only [List.mem_cons, List.not_mem_nil, or_false] at mem
    rcases mem with rfl | rfl <;> exact ⟨nofun, nofun⟩

theorem wireText_literal {ids : WireIdMap} (literal : ids.Literal) {id : OrderId}
    (requestable : Requestable id) : wireText ids (toString id) = toString id := by
  have parsed : Numeral.parseSigned 32 (toString id) = some id :=
    parseI32_number requestable.1 requestable.2
  unfold wireText
  rw [parsed, Option.bind_some]
  cases named : ids.wireFor id with
  | none => rfl
  | some wire => exact literal id wire named

/-- The writer leaves the identifiers of a report as they are. -/
theorem writtenReport_literal {now : String} {ids : WireIdMap} (literal : ids.Literal)
    {report : Report D} (original : ∀ id, origClOrdIdOf report = some id → Requestable id) :
    writtenReport now ids report = buildExecutionReport now report := by
  have kept : (buildExecutionReport now report).map (translateOrig ids) =
      buildExecutionReport now report := by
    refine (List.map_congr_left fun field mem => ?_).trans (List.map_id _)
    unfold translateOrig
    split
    · rename_i here
      obtain ⟨id, named, text⟩ := (built_named field mem).2 here
      rw [text, wireText_literal literal (original id named), ← text]
      rfl
    · rfl
  unfold writtenReport
  dsimp only
  rw [kept]
  split
  · rename_i wire named
    refine setField_same fun field mem here => ?_
    rw [literal _ _ named]
    exact ((built_named field mem).1 here).2
  · rfl

/-- The number of a frame fits. -/
theorem seq_fits (w : WriterState) : min (w.seq + 1) u64Max < 2 ^ 64 :=
  lt_of_le_of_lt (Nat.min_le_right _ _) (by decide)

section

variable [DecimalText D] [Chrono]

/-- A frame is read as a message, unless the decoder panics. -/
def ReadAs (bytes : List UInt8) (inbound : Inbound D) : Prop :=
  ∃ m, parseWire bytes = .ok m ∧ ∀ reply, decode m = .ok reply → reply = .ok inbound

/-- A writer whose header can be read. -/
structure WriterState.Proper (w : WriterState) : Prop where
  beginString : w.beginString = "FIX.4.2"
  sender : Value w.senderCompId
  target : Value w.targetCompId

/-- Whenever an output is written, it is read as a message. -/
def Speaks (out : OutMsg D) (inbound : Inbound D) : Prop :=
  ∀ (w : WriterState) (built now : String) (ids : Option WireIdMap), w.Proper →
    SendingTime built → SendingTime now → (∀ map, ids = some map → map.Literal) →
    ∃ bytes, (w.round built now ids out).1 = some bytes ∧ ReadAs bytes inbound

theorem speaks_message {msgType : String} {fields : Fields} {inbound : Inbound D}
    (reads : ∀ (seq : Nat) (sender target now : String), Value sender → Value target →
      SendingTime now → seq < 2 ^ 64 →
      ReadAs (frame "FIX.4.2" msgType seq sender target now fields) inbound) :
    Speaks (.message msgType fields) inbound := by
  intro w built now ids proper _ time _
  refine ⟨_, rfl, ?_⟩
  rw [proper.beginString]
  exact reads _ _ _ _ proper.sender proper.target time (seq_fits w)

variable [LawfulText D]

theorem speaks_request (r : Request D) (around : Surroundings) (printable : r.Printable)
    (admitted : r.Admitted) (transact : SendingTime around.transactTime) :
    Speaks (.message r.msgType (r.fields around)) (r.inbound around) := by
  refine speaks_message fun seq sender target now hsender htarget time small => ?_
  obtain ⟨m, parsed, accepted, -⟩ := requests_decoded r printable around transact sender target now
    seq hsender htarget time.value small
  refine ⟨m, parsed, fun reply returns => ?_⟩
  rw [accepted admitted] at returns
  exact (Except.ok.inj returns).symm

theorem speaks_report {report : Report D} (reportable : Reportable report)
    (original : ∀ id, origClOrdIdOf report = some id → Requestable id) :
    Speaks (.report report) (spoken report) := by
  intro w built now ids proper transact time literal
  have fields : wiredReport built ids report = buildExecutionReport built report := by
    cases ids with
    | none => rfl
    | some map => exact writtenReport_literal (literal map rfl) original
  refine ⟨_, rfl, ?_⟩
  rw [fields, proper.beginString]
  obtain ⟨m, parsed, decoded⟩ := report_received reportable transact proper.sender proper.target
    time.value (seq_fits w)
  refine ⟨m, parsed, fun reply returns => ?_⟩
  rw [decoded] at returns
  obtain ⟨sum, -, returns⟩ := Exec.bind_ok.mp returns
  exact (Except.ok.inj returns).symm

omit [LawfulText D] in
theorem speaks_cancelReject {clOrdId origClOrdId responseTo reason : String}
    {order : Option (Order D)} (hclOrdId : Value clOrdId) (horig : Value origClOrdId)
    (hto : responseTo = "1" ∨ responseTo = "2") (hreason : Value reason)
    (exchangeId : ∀ o, order = some o → Value o.exchangeId) :
    Speaks (.message "9" (cancelRejectFields clOrdId origClOrdId responseTo order reason))
      (.cancelReject clOrdId origClOrdId (namedState order) reason : Inbound D) := by
  refine speaks_message fun seq sender target now hsender htarget time small => ?_
  obtain ⟨m, parsed, decoded⟩ := cancelReject_received hclOrdId horig hto hreason exchangeId hsender
    htarget time.value small
  refine ⟨m, parsed, fun reply returns => ?_⟩
  rw [decoded] at returns
  exact (Except.ok.inj returns).symm

theorem speaks_rejectedOrder [ZeroText D] {clOrdId symbol reason time : String} {side : Side}
    {orderType : OrderType} {price quantity : D} {rejectId : Nat} (hclOrdId : Value clOrdId)
    (hsymbol : Value symbol) (hreason : Value reason) (transact : SendingTime time) :
    Speaks (.message "8" (rejectedOrderFields time rejectId clOrdId symbol side orderType price
        quantity reason))
      (.executionReport (rejectedData clOrdId symbol side price quantity)) := by
  refine speaks_message fun seq sender target now hsender htarget timed small => ?_
  obtain ⟨m, parsed, decoded⟩ := rejectedOrder_received (D := D) hclOrdId hsymbol hreason transact
    hsender htarget timed.value small
  refine ⟨m, parsed, fun reply returns => ?_⟩
  rw [decoded] at returns
  obtain ⟨sum, -, returns⟩ := Exec.bind_ok.mp returns
  exact (Except.ok.inj returns).symm

end

theorem round_proper {w : WriterState} (proper : w.Proper) (built now : String)
    (ids : Option WireIdMap) (out : OutMsg D) : (w.round built now ids out).2.Proper := by
  have like := (Outbound.round_seq (w.round_spec built now ids out)).2.2
  exact ⟨like.beginString.trans proper.beginString, like.sender ▸ proper.sender,
    like.target ▸ proper.target⟩

/-- A queue with its writer, and the frames that have not been read yet. -/
structure Lane (D : Type) [Decimal D] where
  queue : Mailbox (OutMsg D) mailboxCapacity
  writer : WriterState
  wire : List (List UInt8)

namespace Lane

/-- A lane on which everything has been read up to a number. -/
def opened (sender target : String) (seq : Nat) : Lane D :=
  ⟨.channel false, ⟨"FIX.4.2", sender, target, seq, true⟩, []⟩

/-- Put an output into the queue. -/
def send (l : Lane D) (out : OutMsg D) : Lane D := { l with queue := (l.queue.send out).2 }

def sendAll (l : Lane D) (outs : List (OutMsg D)) : Lane D := outs.foldl send l

/-- The writer takes the next output, unless the queue has failed. -/
def write (l : Lane D) (built now : String) (ids : Option WireIdMap) : Option (Lane D) :=
  if l.writer.running && !l.queue.failed then
    l.queue.receive.map fun (out, queue) =>
      let (bytes, writer) := l.writer.round built now ids out
      ⟨queue, writer, l.wire ++ bytes.toList⟩
  else none

/-- Nothing waits and nothing is under way. -/
def Quiet (l : Lane D) : Prop := l.queue.pending = [] ∧ l.wire = []

variable {l l' : Lane D} {out : OutMsg D}

theorem send_failed (out : OutMsg D) (failed : l.queue.failed = true) :
    (l.send out).queue.failed = true := by
  unfold send Mailbox.send
  rw [failed]
  exact failed

theorem sendAll_failed (outs : List (OutMsg D)) (failed : l.queue.failed = true) :
    (l.sendAll outs).queue.failed = true := by
  induction outs generalizing l with
  | nil => exact failed
  | cons out outs ih => exact ih (send_failed out failed)

theorem write_failed {built now : String} {ids : Option WireIdMap}
    (written : l.write built now ids = some l') : l'.queue.failed = l.queue.failed := by
  unfold write at written
  split at written
  · obtain ⟨⟨out, queue⟩, next, rfl⟩ := Option.map_eq_some_iff.mp written
    exact (Mailbox.receive_spec next).2.2
  · cases written

section

variable [DecimalText D] [Chrono] {messages : List (Inbound D)}

/-- What waits or is under way is read as some messages, in order. -/
structure Carries (l : Lane D) (messages : List (Inbound D)) : Prop where
  proper : l.writer.Proper
  split : ∃ written waiting, messages = written ++ waiting ∧
    List.Forall₂ ReadAs l.wire written ∧ List.Forall₂ Speaks l.queue.pending waiting

theorem carries_opened {sender target : String} (hsender : Value sender) (htarget : Value target)
    (seq : Nat) : (opened sender target seq : Lane D).Carries [] :=
  ⟨⟨rfl, hsender, htarget⟩, [], [], rfl, .nil, .nil⟩

/-- What is accepted is heard last. -/
theorem Carries.send (h : l.Carries messages) {inbound : Inbound D} (speaks : Speaks out inbound)
    (working : (l.send out).queue.failed = false) :
    (l.send out).Carries (messages ++ [inbound]) := by
  obtain ⟨proper, written, waiting, rfl, read, spoken⟩ := h
  have sent := l.queue.send_spec out
  refine ⟨proper, written, waiting ++ [inbound], List.append_assoc _ _ _, read, ?_⟩
  unfold Lane.send at working ⊢
  dsimp only at working ⊢
  generalize l.queue.send out = result at sent working ⊢
  cases sent with
  | accepted _ heard queued listening failed =>
    rw [queued]
    exact List.rel_append spoken (.cons speaks .nil)
  | refused kept listening failed =>
    rw [failed] at working
    cases working

theorem Carries.sendAll (h : l.Carries messages) {outs : List (OutMsg D)}
    {news : List (Inbound D)} (speak : List.Forall₂ Speaks outs news)
    (working : (l.sendAll outs).queue.failed = false) :
    (l.sendAll outs).Carries (messages ++ news) := by
  induction speak generalizing l messages with
  | nil =>
    rw [List.append_nil]
    exact h
  | @cons out inbound outs news first rest ih =>
    have accepted : (l.send out).queue.failed = false := by
      by_contra failed
      have broken := sendAll_failed outs (l := l.send out) (by simpa using failed)
      exact absurd (broken.symm.trans working) (by decide)
    have sent := ih (h.send first accepted) working
    rw [List.append_assoc] at sent
    exact sent

/-- Writing moves a message from the queue to the wire. -/
theorem Carries.write (h : l.Carries messages) {built now : String} {ids : Option WireIdMap}
    (transact : SendingTime built) (time : SendingTime now)
    (literal : ∀ map, ids = some map → map.Literal) (written : l.write built now ids = some l') :
    l'.Carries messages := by
  obtain ⟨proper, before, waiting, rfl, read, spoken⟩ := h
  unfold Lane.write at written
  split at written
  · obtain ⟨⟨out, queue⟩, next, rfl⟩ := Option.map_eq_some_iff.mp written
    obtain ⟨pending, -, -⟩ := Mailbox.receive_spec next
    rw [pending] at spoken
    obtain ⟨inbound, rest, speaks, rest_spoken, rfl⟩ := List.forall₂_cons_left_iff.mp spoken
    obtain ⟨bytes, produced, reads⟩ := speaks l.writer built now ids proper transact time literal
    refine ⟨round_proper proper built now ids out, before ++ [inbound], rest, ?_, ?_, rest_spoken⟩
    · rw [List.append_assoc]
      rfl
    · dsimp only
      rw [produced]
      exact List.rel_append read (.cons reads .nil)
  · cases written

/-- The frame at the head of the wire is read as the first message. -/
theorem Carries.take (h : l.Carries messages) {bytes : List UInt8} {wire : List (List UInt8)}
    (next : l.wire = bytes :: wire) : ∃ inbound rest, messages = inbound :: rest ∧
      ReadAs bytes inbound ∧ ({ l with wire := wire } : Lane D).Carries rest := by
  obtain ⟨proper, before, waiting, rfl, read, spoken⟩ := h
  rw [next] at read
  obtain ⟨inbound, rest, reads, rest_read, rfl⟩ := List.forall₂_cons_left_iff.mp read
  exact ⟨inbound, rest ++ waiting, rfl, reads, proper, rest, waiting, rfl, rest_read, spoken⟩

theorem Carries.quiet (h : l.Carries messages) (quiet : l.Quiet) : messages = [] := by
  obtain ⟨-, before, waiting, rfl, read, spoken⟩ := h
  rw [quiet.1] at spoken
  rw [quiet.2] at read
  cases spoken
  cases read
  rfl

end

end Lane

end RustTrader.Fix
