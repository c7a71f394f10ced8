import RustTrader.Fix.Synchrony

/-!
# Client and exchange agree when nothing is under way

Whatever a client asks for, and in whatever order requests, answers, the trades of others
and the ends of days follow each other: what it has heard, and what is on its way to it,
tells it what the exchange has recorded. So when nothing is under way its active views
are the active orders of its session.
-/

namespace RustTrader.Fix

variable {D : Type} [Decimal D]

section

omit [Decimal D]

variable {views : Views D} {k : OrderId} {v : OrderView D}

/-- A view is of an order that had one or is named, for the symbol of some view before. -/
theorem Views.tell_source {answer : Answer D} (known : views.tell answer k = some v) :
    ((views k).isSome ∨ k ∈ answer.names) ∧
      ∃ n old, views n = some old ∧ old.symbol = v.symbol := by
  cases answer with
  | report id original data =>
    unfold Views.tell at known
    dsimp only at known
    split at known
    · cases known
    split at known
    · rename_i here
      refine ⟨.inr (here ▸ List.mem_cons_self), ?_⟩
      obtain ⟨record, found, rfl⟩ := Option.map_eq_some_iff.mp known
      rcases Option.or_eq_some_iff.mp found with own | ⟨-, adopted⟩
      · exact ⟨id, record, own, rfl⟩
      · obtain ⟨old, taken, rfl⟩ := Option.map_eq_some_iff.mp adopted
        obtain ⟨n, -, old_known⟩ := Option.bind_eq_some_iff.mp taken
        exact ⟨n, old, old_known, rfl⟩
    · exact ⟨.inl (known ▸ rfl), k, v, known, rfl⟩
  | reject id original state =>
    unfold Views.tell at known
    dsimp only at known
    split at known
    · cases known
    split at known
    · obtain ⟨old, old_known, rfl⟩ := Option.map_eq_some_iff.mp known
      exact ⟨.inl (old_known ▸ rfl), k, old, old_known, rfl⟩
    · exact ⟨.inl (known ▸ rfl), k, v, known, rfl⟩

theorem Views.hear_source {message : Inbound D} {reached : OrderId}
    (bounded : Bounded reached message) (known : views.hear message k = some v) :
    ((views k).isSome ∨ 0 < k ∧ k ≤ reached) ∧
      ∃ n old, views n = some old ∧ old.symbol = v.symbol := by
  unfold Views.hear at known
  cases said : Answer.of message with
  | none =>
    rw [said] at known
    have known : views k = some v := known
    exact ⟨.inl (known ▸ rfl), k, v, known, rfl⟩
  | some answer =>
    rw [said] at known
    obtain ⟨source, symbol⟩ := Views.tell_source known
    exact ⟨source.imp_right (bounded answer said k), symbol⟩

end

namespace Trading

theorem sendAll_working {l : Lane D} (outs : List (OutMsg D))
    (working : (l.sendAll outs).queue.failed = false) : l.queue.failed = false := by
  by_contra failed
  have broken := Lane.sendAll_failed outs (l := l) (by simpa using failed)
  exact absurd (broken.symm.trans working) (by decide)

/-- A call of the client leaves a queue that has failed as it is. -/
theorem call_working {t : Trading D} (call : Call D)
    (working : (t.asked (call.made t.client t.requests.queue)).Working) : t.Working := by
  obtain ⟨requests, answers⟩ := working
  refine ⟨?_, answers⟩
  change (call.made t.client t.requests.queue).2.failed = false at requests
  rcases call.made_outcome t.client t.requests.queue with same | ⟨c', out, same, -⟩
  · rw [same] at requests
    exact requests
  · rw [same] at requests
    exact sendAll_working [out] requests

section

variable [DecimalText D] [Chrono] {s : String} {t t' : Trading D}

/-- A queue that works after a step has worked before it. -/
theorem Move.working (move : Move s t t') (working : t'.Working) : t.Working := by
  cases move with
  | request built now lane transact time written =>
    exact ⟨(Lane.write_failed written).symm.trans working.1, working.2⟩
  | serve => exact ⟨working.1, sendAll_working _ working.2⟩
  | refuse => exact ⟨working.1, sendAll_working [_] working.2⟩
  | act => exact ⟨working.1, sendAll_working _ working.2⟩
  | answer built now lane transact time written =>
    exact ⟨working.1, (Lane.write_failed written).symm.trans working.2⟩
  | receive => exact working
  | ignore => exact ⟨sendAll_working [_] working.1, working.2⟩

theorem Move.nextOrder (move : Move s t t') : t'.client.nextOrder = t.client.nextOrder := by
  cases move with
  | receive bytes wire m inbound => exact (Initiator.receive_nextOrder t.client inbound).1
  | request | serve | refuse | act | answer | ignore => rfl

end

section

variable [DecimalText D] [Chrono] {policy : FillPolicy} {instruments : InstrumentMap} {s : String}
  {t t' : Trading D} {asks : List (Ask D)} {told : List (Inbound D)} {reached : OrderId}

theorem readAs_decoded {bytes : List UInt8} {m : FixMessage} {inbound : Inbound D}
    {reply : Except String (Inbound D)} (reads : ReadAs bytes inbound)
    (parsed : parseWire bytes = .ok m) (decoded : decode m = .ok reply) :
    reply = .ok inbound := by
  obtain ⟨m', parsed', reads⟩ := reads
  obtain rfl : m' = m := Except.ok.inj (parsed'.symm.trans parsed)
  exact reads reply decoded

namespace Synchronised

/-- The client hears what is first under way. -/
theorem receive (h : Synchronised policy instruments s t asks told reached) {bytes : List UInt8}
    {wire : List (List UInt8)} {m : FixMessage} {inbound : Inbound D}
    (next : t.answers.wire = bytes :: wire) (parsed : parseWire bytes = .ok m)
    (decoded : decode m = .ok (.ok inbound)) : ∃ told', Synchronised policy instruments s
      { t with
        client := (t.client.receive inbound).1
        answers := { t.answers with wire := wire } } asks told' reached := by
  obtain ⟨first, rest, rfl, reads, carried⟩ := h.answers.take next
  obtain rfl : inbound = first := Except.ok.inj (readAs_decoded reads parsed decoded)
  obtain ⟨bounded, later⟩ := List.forall_mem_cons.mp h.bounded
  have view := Initiator.receive_view t.client inbound
  have ids := (Initiator.receive_nextOrder t.client inbound).1
  refine ⟨rest, h.attends, h.requests, carried, ?_, h.low, ?_, later, ?_, ?_, ?_⟩
  · rw [ids]
    exact h.ascending
  · rw [ids]
    exact h.room
  · intro id awaited
    rw [view, Views.hear_other (bounded.silent (awaited_above h.ascending awaited))]
    exact h.viewed id awaited
  · intro id v known
    rw [view] at known
    obtain ⟨source, n, old, old_known, symbol⟩ := Views.hear_source bounded known
    refine and_assoc.mp ⟨?_, symbol ▸ (h.ranged n old old_known).2.2⟩
    rw [ids]
    rcases source with had | ⟨positive, before⟩
    · obtain ⟨w, had⟩ := Option.isSome_iff_exists.mp had
      exact ⟨(h.ranged id w had).1, (h.ranged id w had).2.1⟩
    · exact ⟨positive, before.trans (ascending_le h.ascending)⟩
  · intro id regular
    unfold views
    rw [view]
    exact h.agree id regular

variable [LawfulDecimal D] [LawfulText D] [ZeroText D]

/-- A step that leaves the queues working. -/
theorem move (h : Synchronised policy instruments s t asks told reached) (move : Move s t t')
    (working : t'.Working) : ∃ asks' told' reached',
      Synchronised policy instruments s t' asks' told' reached' := by
  cases move with
  | request built now lane transact time written =>
    have carried := h.requests.write transact time (fun map none_ => by cases none_) written
    exact ⟨asks, told, reached, { h with requests := carried }⟩
  | serve bytes wire m inbound today now rejectId handled transact next parsed decoded returns =>
    obtain ⟨first, rest, asked, reads, carried⟩ := h.requests.take next
    obtain rfl : inbound = first := Except.ok.inj (readAs_decoded reads parsed decoded)
    cases asks with
    | nil => cases asked
    | cons ask asks =>
      obtain ⟨rfl, rfl⟩ := List.cons.inj asked
      rw [sendAll_working _ working.2] at returns
      obtain ⟨told', reached', h⟩ := h.serve transact carried returns working.2
      exact ⟨asks, told', reached', h⟩
  | refuse bytes wire m reason next parsed failed =>
    obtain ⟨first, rest, -, reads, -⟩ := h.requests.take next
    cases readAs_decoded reads parsed failed
  | act command e' others step =>
    obtain ⟨told', h⟩ := h.act others step working
    exact ⟨asks, told', reached, h⟩
  | answer built now lane transact time written =>
    have literal : ∀ map, some t.ids = some map → map.Literal := by
      rintro _ ⟨⟩
      exact h.attends.enrolled.literal
    have carried := h.answers.write transact time literal written
    exact ⟨asks, told, reached, { h with answers := carried }⟩
  | receive bytes wire m inbound next parsed decoded =>
    obtain ⟨told', h⟩ := h.receive next parsed decoded
    exact ⟨asks, told', reached, h⟩
  | ignore bytes wire m reason next parsed failed =>
    obtain ⟨first, rest, -, reads, -⟩ := h.answers.take next
    cases readAs_decoded reads parsed failed

/-- Every step of a run in which the calls were proper and too few to run out of
identifiers keeps the account. -/
theorem run (h : Synchronised policy instruments s t asks told reached) {calls : List (Call D)}
    (run : Runs s t calls t') (proper : ∀ call ∈ calls, call.Proper)
    (few : t.client.nextOrder + calls.length ≤ WireIdMap.i32Max) (working : t'.Working) :
    (∃ asks' told' reached', Synchronised policy instruments s t' asks' told' reached') ∧
      t'.client.nextOrder ≤ t.client.nextOrder + calls.length := by
  induction run with
  | refl => exact ⟨⟨asks, told, reached, h⟩, (Int.add_zero _).ge⟩
  | move run move ih =>
    obtain ⟨⟨asks', told', reached', h⟩, drawn⟩ := ih proper few (move.working working)
    exact ⟨h.move move working, move.nextOrder.trans_le drawn⟩
  | @call calls mid run call time ih =>
    rw [List.forall_mem_append, List.forall_mem_singleton] at proper
    rw [List.length_append, List.length_singleton] at few ⊢
    push_cast at few ⊢
    obtain ⟨⟨asks', told', reached', h⟩, drawn⟩ :=
      ih proper.1 (by linarith) (call_working call working)
    have low : 0 ≤ mid.client.nextOrder := h.low.trans (ascending_le h.ascending)
    have free : mid.client.nextOrder < WireIdMap.i32Max := by linarith
    obtain ⟨asks'', h⟩ := h.call time proper.2 free working
    have next : (call.made mid.client mid.requests.queue).1.nextOrder ≤
        mid.client.nextOrder + 1 := call.made_nextOrder _ low free
    exact ⟨⟨asks'', told', reached', h⟩, next.trans (by linarith)⟩

end Synchronised

end

end Trading

/-- The instruments of an engine that loaded them are those of the file. -/
theorem loaded_settled [LawfulDecimal D] {policy : FillPolicy} {text : String} {e : Engine D}
    (loaded : Engine.Loaded policy text e) :
    e.instruments.Wordy ∧ Coherent policy e.view none ∧ e.fillPolicy = policy := by
  obtain ⟨start, load, run⟩ := loaded
  obtain ⟨file, made⟩ := Engine.loadInstruments_ok load
  induction run with
  | refl =>
    refine ⟨InstrumentMap.loadFromReader_wordy file, ?_⟩
    have same : start.view = (Engine.withFillPolicy policy : Engine D).view := by
      rw [made]
      rfl
    have reached : Reachable policy (Engine.withFillPolicy policy : Engine D) := .refl
    have empty := Engine.reachable_coherent reached
    rw [same, made]
    exact empty
  | tail _ step ih =>
    obtain ⟨wordy, c, hp⟩ := ih
    obtain ⟨command, trades, step⟩ := step
    rw [Engine.step_instruments c hp trades step]
    exact ⟨wordy, Engine.step_coherent c hp step⟩

namespace Trading

section

variable [DecimalText D] [Chrono] [LawfulDecimal D] {policy : FillPolicy} {text s : String}
  {e : Engine D} {client exchange : String}

/-- Nothing is under way after a Logon on a session the engine does not know. -/
theorem start_synchronised (loaded : Engine.Loaded policy text e) (fresh : ¬ e.Registered s)
    (hclient : Value client) (hexchange : Value exchange) :
    ∃ instruments, Synchronised policy instruments s (start s client exchange e) [] [] 0 := by
  obtain ⟨wordy, c, hp⟩ := loaded_settled loaded
  obtain ⟨instruments, presents⟩ := loaded.presents
  rw [presents.same] at wordy
  have step := Step.registerSession e s fresh
  have trades : Engine.Trades (.registerSession s : Command D) := trivial
  obtain ⟨coherent, same⟩ := Engine.step_coherent c hp step
  have unknown : ∀ id, (e.registerSession s).order s id = none := fun id =>
    (congrFun (congrFun (Engine.order_registerSession fresh) s) id).trans
      (Engine.order_unregistered fresh id)
  refine ⟨instruments, ⟨coherent, same, wordy, presents.step wordy c hp trades step, ?_, ?_⟩,
    Lane.carries_opened hclient hexchange 1, Lane.carries_opened hexchange hclient 1, le_rfl,
    le_rfl, (by decide : (0 : OrderId) ≤ WireIdMap.i32Max), nofun, ?_, nofun, ?_⟩
  · intro o known own regular
    have recorded := Engine.terms_known coherent regular known (Prod.ext own rfl)
    rw [unknown] at recorded
    cases recorded
  · refine ⟨WireIdMap.paired_new, WireIdMap.literal_new, ?_, ?_⟩
    · intro id taken
      exact absurd rfl taken
    · intro id r recorded
      cases (unknown id).symm.trans recorded
  · rintro id ⟨ask, mem, -⟩
    cases mem
  · intro id _
    change Agreeing none ((e.registerSession s).order s id) _
    rw [unknown]
    exact ⟨nofun, nofun⟩

end

/-- What writers and readers do without being asked. -/
inductive Deed where
  | request
  | serve
  | answer
  | receive

section

variable [DecimalText D] [Chrono]

/-- What the first frame on a lane is read as. -/
def heardFirst (l : Lane D) : Option (Inbound D × List (List UInt8)) :=
  match l.wire with
  | [] => none
  | bytes :: wire => do
    let m ← (parseWire bytes).toOption
    let reply ← (decode m).toOption
    let inbound ← reply.toOption
    pure (inbound, wire)

def deed (s : String) (today : Int) (now : String) (t : Trading D) : Deed → Option (Trading D)
  | .request => (t.requests.write now now none).map fun lane => { t with requests := lane }
  | .serve => do
    let (inbound, wire) ← heardFirst t.requests
    let handled ← (handleBusiness today now 1 t.answers.queue.failed t.engine s t.ids
      inbound).toOption
    pure ({ t with
      requests := { t.requests with wire := wire }
      ids := handled.ids }.answered s handled.engine handled.messages)
  | .answer => (t.answers.write now now (some t.ids)).map fun lane => { t with answers := lane }
  | .receive => do
    let (inbound, wire) ← heardFirst t.answers
    pure { t with
      client := (t.client.receive inbound).1
      answers := { t.answers with wire := wire } }

variable {s now : String} {today : Int} {t t' : Trading D}

theorem heardFirst_spec {l : Lane D} {inbound : Inbound D} {wire : List (List UInt8)}
    (heard : heardFirst l = some (inbound, wire)) : ∃ bytes m, l.wire = bytes :: wire ∧
      parseWire bytes = .ok m ∧ decode m = .ok (.ok inbound) := by
  unfold heardFirst at heard
  split at heard
  · cases heard
  · rename_i bytes wire' next
    obtain ⟨m, parsed, heard⟩ := Option.bind_eq_some_iff.mp heard
    obtain ⟨reply, decoded, heard⟩ := Option.bind_eq_some_iff.mp heard
    obtain ⟨read, accepted, same⟩ := Option.bind_eq_some_iff.mp heard
    cases same
    rw [toOption_eq_some] at parsed decoded accepted
    exact ⟨bytes, m, next, parsed, accepted ▸ decoded⟩

theorem deed_move (time : SendingTime now) {d : Deed} (done : deed s today now t d = some t') :
    Move s t t' := by
  cases d with
  | request =>
    obtain ⟨lane, written, rfl⟩ := Option.map_eq_some_iff.mp done
    exact .request now now lane time time written
  | serve =>
    obtain ⟨⟨inbound, wire⟩, heard, done⟩ := Option.bind_eq_some_iff.mp done
    obtain ⟨handled, returns, same⟩ := Option.bind_eq_some_iff.mp done
    obtain ⟨bytes, m, next, parsed, decoded⟩ := heardFirst_spec heard
    rw [toOption_eq_some] at returns
    cases same
    exact .serve bytes wire m inbound today now 1 handled time next parsed decoded returns
  | answer =>
    obtain ⟨lane, written, rfl⟩ := Option.map_eq_some_iff.mp done
    exact .answer now now lane time time written
  | receive =>
    obtain ⟨⟨inbound, wire⟩, heard, same⟩ := Option.bind_eq_some_iff.mp done
    obtain ⟨bytes, m, next, parsed, decoded⟩ := heardFirst_spec heard
    cases same
    exact .receive bytes wire m inbound next parsed decoded

theorem Runs.deeds {calls : List (Call D)} {t'' : Trading D} (run : Runs s t calls t')
    (time : SendingTime now) {deeds : List Deed}
    (done : deeds.foldlM (deed s today now) t' = some t'') : Runs s t calls t'' := by
  induction deeds generalizing t' with
  | nil =>
    cases done
    exact run
  | cons d deeds ih =>
    rw [List.foldlM_cons] at done
    obtain ⟨next, first, rest⟩ := Option.bind_eq_some_iff.mp done
    exact ih (.move run (deed_move time first)) rest

end

/-- The client has an active view of just the active orders of its session, and the
views show their quantities and the prices of limit orders. -/
structure Agreed (s : String) (t : Trading D) : Prop where
  active : ∀ id, (∃ v, t.client.view id = some v ∧ v.state.isActive) ↔
    ∃ o, t.engine.order s id = some o ∧ o.state.isActive
  shown : ∀ id o, t.engine.order s id = some o → o.state.isActive →
    ∃ v, t.client.view id = some v ∧ v.Mirrors o

section

variable [DecimalText D] [Chrono]

theorem Synchronised.agreed {policy : FillPolicy} {instruments : InstrumentMap} {s : String}
    {t : Trading D} {reached : OrderId} (h : Synchronised policy instruments s t [] [] reached) :
    Agreed s t := by
  have idle : ∀ id, ¬ Awaited id ([] : List (Ask D)) := by
    rintro id ⟨ask, mem, -⟩
    cases mem
  have agree : ∀ id, id ≠ quoteOrderId →
      Agreeing (t.client.view id) (t.engine.order s id) (Awaited id []) := h.agree
  refine ⟨fun id => ⟨?_, ?_⟩, ?_⟩
  · rintro ⟨v, known, active⟩
    have regular : id ≠ quoteOrderId := (h.ranged id v known).1.ne'
    exact ((agree id regular).backed v known active).resolve_right (idle id)
  · rintro ⟨o, recorded, active⟩
    have regular := (h.attends.coherent.keyed s id o recorded).2.2
    obtain ⟨v, known, mirrors⟩ := (agree id regular).shown o recorded active
    exact ⟨v, known, mirrors.active⟩
  · intro id o recorded active
    exact (agree id (h.attends.coherent.keyed s id o recorded).2.2).shown o recorded active

/-- After calls that were proper and too few to run out of identifiers, and whatever else
has happened in between, client and exchange agree on the active orders when nothing is
under way. -/
theorem client_agrees [LawfulDecimal D] [LawfulText D] [ZeroText D] {policy : FillPolicy}
    {text s client exchange : String} {e : Engine D} {t : Trading D} {calls : List (Call D)}
    (loaded : Engine.Loaded policy text e) (fresh : ¬ e.Registered s) (hclient : Value client)
    (hexchange : Value exchange) (run : Runs s (start s client exchange e) calls t)
    (proper : ∀ call ∈ calls, call.Proper) (few : (calls.length : Int) ≤ WireIdMap.i32Max)
    (working : t.Working) (requests : t.requests.Quiet) (answers : t.answers.Quiet) :
    Agreed s t := by
  obtain ⟨instruments, before⟩ := start_synchronised loaded fresh hclient hexchange
  obtain ⟨⟨asks, told, reached, h⟩, -⟩ :=
    before.run run proper ((Int.zero_add _).trans_le few) working
  have asked := h.requests.quiet requests
  have heard := h.answers.quiet answers
  rw [List.map_eq_nil_iff] at asked
  subst asked heard
  exact h.agreed

end

/-- A session offers two. -/
def offered : List (Command Dec96) := [
  .registerSession "b",
  .createOrder 1 "b" ⟨1, 1, .sell, .limit, Dec96.literal 10 0, Dec96.literal 2 0⟩]

/-- A client that asks for five. -/
def bid : Call Dec96 :=
  .createOrder "20260912-19:24:59.056" "AAA" .buy .limit (Dec96.literal 10 0) (Dec96.literal 5 0)

def bidder (e : Engine Dec96) : Trading Dec96 :=
  let t := start "a" "CLIENT" "GOX" e
  t.asked (bid.made t.client t.requests.queue)

theorem bid_proper : bid.Proper := by
  have positive : 0 < Dec96.literal 5 0 ∧ 0 < Dec96.literal 10 0 := by decide +kernel
  exact ⟨by decide, positive.1, fun _ => positive.2⟩

/-- An order that has been bought in part. -/
theorem client_agrees_sample : ∃ (e : Engine Dec96) (t : Trading Dec96),
    Engine.Loaded .real "1 AAA\n" e ∧ Runs "a" (start "a" "CLIENT" "GOX" e) [bid] t ∧
    (t.client.view 1).map (fun v => (v.quantity, v.remaining, v.state.isActive)) =
      some (Dec96.literal 5 0, Dec96.literal 3 0, true) ∧ Agreed "a" t := by
  have ran : (Engine.replayed .real "1 AAA\n" offered).bind (fun e =>
      ([.request, .serve, .answer, .receive].foldlM (deed "a" 1 "20260912-19:24:59.056")
        (bidder e)).map fun t =>
          ([(e.sessions.get? "a").isNone, !t.requests.queue.failed, !t.answers.queue.failed,
            t.requests.queue.pending.isEmpty, t.requests.wire.isEmpty,
            t.answers.queue.pending.isEmpty, t.answers.wire.isEmpty],
          (t.client.view 1).map fun v => (v.quantity, v.remaining, v.state.isActive))) =
      some (List.replicate 7 true, some (Dec96.literal 5 0, Dec96.literal 3 0, true)) := by
    decide +kernel
  obtain ⟨e, played, ran⟩ := Option.bind_eq_some_iff.mp ran
  obtain ⟨t, done, seen⟩ := Option.map_eq_some_iff.mp ran
  obtain ⟨facts, shown⟩ := Prod.mk.inj seen
  simp only [List.replicate, List.cons.injEq, Bool.not_eq_true', List.isEmpty_iff,
    and_true] at facts
  obtain ⟨vacant, requests, answers, asked, sent, told, heard⟩ := facts
  have loaded : Engine.Loaded .real "1 AAA\n" e := Engine.replayed_loaded (by decide) played
  have run := (Runs.refl.call bid sendingTime_sample :
    Runs "a" (start "a" "CLIENT" "GOX" e) _ _).deeds sendingTime_sample done
  have fresh : ¬ e.Registered "a" := by
    rintro ⟨session, found⟩
    rw [found] at vacant
    cases vacant
  exact ⟨e, t, loaded, run, shown, client_agrees loaded fresh (by decide) (by decide) run
    (List.forall_mem_singleton.mpr bid_proper) (by decide) ⟨requests, answers⟩ ⟨asked, sent⟩
    ⟨told, heard⟩⟩

end Trading

end RustTrader.Fix
