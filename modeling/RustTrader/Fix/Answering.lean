import RustTrader.Fix.Serving

/-!
# The exchange answers a session

What the exchange tells a session of the steps of others and of its own requests: it can
be read, it is about orders that have been asked for, and views that agreed with the
records before agree with them once it has been heard.
-/

namespace RustTrader.Fix

variable {D : Type} [Decimal D] {s : String} {e e' : Engine D} {command : Command D}
  {reached reached' : OrderId} {ids ids' : WireIdMap}

/-- A report about orders that have been asked for. -/
structure Deliverable (reached : OrderId) (report : Report D) : Prop where
  reportable : Reportable report
  named : clOrdIdOf report ≠ 0 → Requestable (clOrdIdOf report) ∧ clOrdIdOf report ≤ reached
  moved : ∀ id, origClOrdIdOf report = some id → Requestable id ∧ id ≤ reached

/-- A message about orders that have been asked for. -/
def Bounded (reached : OrderId) (message : Inbound D) : Prop :=
  ∀ answer, Answer.of message = some answer → ∀ k ∈ answer.names, 0 < k ∧ k ≤ reached

omit [Decimal D] in
theorem Bounded.mono {message : Inbound D} (h : Bounded reached message)
    (later : reached ≤ reached') : Bounded reached' message := by
  intro answer said k mem
  obtain ⟨positive, before⟩ := h answer said k mem
  exact ⟨positive, before.trans later⟩

omit [Decimal D] in
theorem Bounded.silent {message : Inbound D} (h : Bounded reached message) {id : OrderId}
    (later : reached < id) : Silent id message := by
  intro answer said mem
  exact absurd (h answer said id mem).2 (not_le.mpr later)

theorem Deliverable.bounded {report : Report D} (h : Deliverable reached report) :
    Bounded reached (spoken report) := by
  intro answer said k mem
  unfold Answer.of spoken at said
  dsimp only at said
  split at said
  · cases said
  rename_i regular
  have nonzero : clOrdIdOf report ≠ 0 := by
    intro zero
    apply regular
    unfold ExecReportData.isQuote reported
    simp [zero]
  obtain ⟨named, before⟩ := h.named nonzero
  have text : (reported report).clOrdId = toString (clOrdIdOf report) := if_neg nonzero
  have orig : (reported report).origClOrdId.bind parseI32 = origClOrdIdOf report := by
    change ((origClOrdIdOf report).map toString).bind parseI32 = _
    cases moved : origClOrdIdOf report with
    | none => rfl
    | some id => exact parseI32_number (h.moved id moved).1.1 (h.moved id moved).1.2
  rw [text, parseI32_number named.1 named.2, orig] at said
  cases said
  rcases List.mem_cons.mp mem with rfl | mem
  · exact ⟨named.1, before⟩
  · obtain ⟨requestable, before⟩ := h.moved k (Option.mem_toList.mp mem)
    exact ⟨requestable.1, before⟩

theorem deliverable_plain {report : Report D} (plain : Unprompted report)
    (own : report.order.sessionId = s) (titled : Titled s reached report.order)
    (reportable : Reportable report) : Deliverable reached report := by
  refine ⟨reportable, fun regular => ?_, fun id moved => ?_⟩
  · rw [plain.own] at regular ⊢
    obtain ⟨named, before, -⟩ := titled own regular
    exact ⟨named, before⟩
  · rw [plain.alone] at moved
    cases moved

omit [Decimal D] in
theorem bounded_reject {id original : OrderId} {state : OrderState} {reason : String}
    (requestable : Requestable id) (target : Requestable original) (before : original ≤ id) :
    Bounded id (.cancelReject (toString id) (toString original) state reason : Inbound D) := by
  intro answer said k mem
  unfold Answer.of at said
  dsimp only at said
  rw [parseI32_number requestable.1 requestable.2, parseI32_number target.1 target.2] at said
  cases said
  simp only [Answer.names, Option.toList_some, List.cons_append, List.nil_append, List.mem_cons,
    List.not_mem_nil, or_false] at mem
  rcases mem with rfl | rfl
  · exact ⟨requestable.1, le_rfl⟩
  · exact ⟨target.1, before⟩

theorem bounded_rejected {id : OrderId} {symbol : String} {side : Side} {price quantity : D}
    (requestable : Requestable id) :
    Bounded id (.executionReport (rejectedData (toString id) symbol side price quantity)) := by
  intro answer said k mem
  rw [of_rejected requestable] at said
  cases said
  simp only [Answer.names, Option.toList_none, List.mem_singleton] at mem
  rw [mem]
  exact ⟨requestable.1, le_rfl⟩

theorem speak_news [DecimalText D] [LawfulText D] [Chrono] {news : List (Report D)}
    (deliverable : ∀ report ∈ news, Deliverable reached report) :
    List.Forall₂ Speaks (news.map OutMsg.report) (news.map spoken) := by
  rw [List.forall₂_map_left_iff, List.forall₂_map_right_iff, List.forall₂_same]
  intro report mem
  have h := deliverable report mem
  exact speaks_report h.reportable fun id moved => (h.moved id moved).1

/-- What holds of the exchange while a session trades. -/
structure Attends (policy : FillPolicy) (instruments : InstrumentMap) (s : String)
    (reached : OrderId) (e : Engine D) (ids : WireIdMap) : Prop where
  coherent : Coherent policy e.view none
  fillPolicy : e.fillPolicy = policy
  wordy : instruments.Wordy
  presents : Engine.Presents instruments e
  titled : ∀ o, e.view.Known o → Titled s reached o
  enrolled : Enrolled s reached e ids

section Lawful

variable [LawfulDecimal D] {policy : FillPolicy} {instruments : InstrumentMap}

/-- A step after which every new order of the session has its identifier. -/
theorem Attends.step (h : Attends policy instruments s reached e ids)
    (step : Step e command e') (trades : Engine.Trades command) (later : reached ≤ reached')
    (enrolled : Enrolled s reached' e ids')
    (asked : ∀ o, Engine.Fresh e command o → o.sessionId = s → o.id ≠ quoteOrderId →
      Requestable o.id ∧ o.id ≤ reached' ∧ ids'.wireFor o.id = some (toString o.id)) :
    Attends policy instruments s reached' e' ids' ∧ ∀ report ∈ newsFor s e e',
      report.order.sessionId = s ∧ Engine.Announced e command report ∧
        Titled s reached' report.order ∧ Reportable report := by
  obtain ⟨titled, told⟩ := step_titled h.coherent h.fillPolicy later h.titled
    (fun o fresh own regular => (asked o fresh own regular).imp_right And.left) step
  obtain ⟨coherent, same⟩ := Engine.step_coherent h.coherent h.fillPolicy step
  have presents := h.presents.step h.wordy h.coherent h.fillPolicy trades step
  refine ⟨⟨coherent, same, h.wordy, presents, titled, enrolled.serves ?_⟩, ?_⟩
  · intro id r recorded
    obtain ⟨-, -, regular⟩ := coherent.keyed s id r recorded
    by_cases known : e.order s id = none
    · obtain ⟨o, fresh, identity⟩ := Engine.step_entered h.coherent h.fillPolicy step regular known
        recorded
      obtain ⟨own, rfl⟩ := Prod.mk.inj identity
      exact .inr (asked o fresh own regular).2.2
    · exact .inl known
  · intro report mem
    obtain ⟨own, announced⟩ := newsFor_announced h.coherent h.fillPolicy step report mem
    refine ⟨own, announced, told report mem, presents.sent report ?_⟩
    exact List.mem_of_mem_drop (List.mem_of_mem_filter mem)

omit [LawfulDecimal D] in
theorem fresh_owner {o : Order D} (fresh : Engine.Fresh e command o)
    (c : Coherent policy e.view none) (others : ByOthers s command) : o.sessionId ≠ s := by
  cases fresh with
  | request asked =>
    subst asked
    rw [Engine.incoming_eq]
    exact others
  | @replacement today s' origId newId orderType price quantity remaining entry asked recorded =>
    subst asked
    obtain ⟨owner, -⟩ := c.keyed s' origId entry recorded
    change entry.sessionId ≠ s
    rw [owner]
    exact others
  | leg asked listed named terms =>
    subst asked
    rw [terms.owner]
    exact others

/-- What others do is heard by a session as it happens. -/
theorem act_heard (h : Attends policy instruments s reached e ids) (others : ByOthers s command)
    (step : Step e command e') :
    Attends policy instruments s reached e' ids ∧
      (∀ report ∈ newsFor s e e', Deliverable reached report) ∧
      ∀ (views : Views D) (id : OrderId) (opening : Prop), id ≠ quoteOrderId →
        (opening → e.order s id = none) → Agreeing (views id) (e.order s id) opening →
        Agreeing (views.hearAll ((newsFor s e e').map spoken) id) (e'.order s id) opening := by
  have owned : ∀ o, Engine.Fresh e command o → o.sessionId ≠ s := fun o fresh =>
    fresh_owner fresh h.coherent others
  have trades : Engine.Trades command := by
    cases command with
    | createInstrument symbol => exact others.elim
    | _ => trivial
  have quiet : ¬ Prompts s command := by
    intro prompts
    cases command with
    | modifyOrderWithType | cancelOrderWithId => exact others prompts
    | _ => exact prompts.elim
  obtain ⟨attends, told⟩ := h.step step trades le_rfl h.enrolled
    fun o fresh own _ => absurd own (owned o fresh)
  refine ⟨attends, fun report mem => ?_, fun views id opening regular unopened agree => ?_⟩
  · obtain ⟨own, announced, titled, reportable⟩ := told report mem
    exact deliverable_plain (unprompted_plain announced own quiet).1 own titled reportable
  · refine step_heard h.coherent h.fillPolicy step quiet (fun report mem => (told report mem).2.2.1)
      ⟨regular, ?_, ?_, ?_, ?_⟩ agree unopened fun _ open_ => open_
    · rintro _ _ _ _ _ rfl
      exact others rfl
    · intro taken
      cases command with
      | modifyOrderWithType => exact others taken.1.symm
      | sessionDisconnect => exact others taken.symm
      | _ => exact taken.elim
    · intro o fresh same
      exact absurd (Prod.mk.inj same).1 (owned o fresh)
    · intro o fresh same
      exact absurd (Prod.mk.inj same).1 (owned o fresh)

omit [LawfulDecimal D] in
/-- Nothing is recorded under a number that has not been given. -/
theorem Attends.unknown (h : Attends policy instruments s reached e ids) {id : OrderId}
    (later : reached < id) : e.order s id = none := by
  cases recorded : e.order s id with
  | none => rfl
  | some r =>
    have taken := h.enrolled.issued id (by rw [h.enrolled.recorded id r recorded]; simp)
    exact absurd taken (not_le.mpr later)

omit [LawfulDecimal D] in
theorem Attends.enrol (h : Attends policy instruments s reached e ids) (later : reached ≤ reached')
    (enrolled : Enrolled s reached' e ids') : Attends policy instruments s reached' e ids' :=
  ⟨h.coherent, h.fillPolicy, h.wordy, h.presents, fun o known => (h.titled o known).mono later,
    enrolled⟩

omit [LawfulDecimal D] in
theorem Attends.texts (h : Attends policy instruments s reached e ids) {id : OrderId}
    {o : Order D} (recorded : e.order s id = some o) : Value o.exchangeId := by
  obtain ⟨rfl, rfl, -⟩ := h.coherent.keyed s id o recorded
  exact (h.presents.known o (.inl recorded)).exchangeId

/-- What serving a request leaves: what is said can be read, is about orders that have
been asked for, and keeps views in agreement. -/
structure Served [DecimalText D] [Chrono] (policy : FillPolicy) (instruments : InstrumentMap)
    (s : String) (e : Engine D) (ask : Trading.Ask D) (reached : OrderId) (e' : Engine D)
    (ids' : WireIdMap) (outs : List (OutMsg D)) (news : List (Inbound D)) : Prop where
  attends : Attends policy instruments s reached e' ids'
  speak : List.Forall₂ Speaks outs news
  bounded : ∀ message ∈ news, Bounded reached message
  agree : ∀ (views : Views D) (id : OrderId) (opening opening' : Prop), id ≠ quoteOrderId →
    (opening → e.order s id = none) → (∀ n, ask.opens = some n → (views n).isSome) →
    (ask.opens ≠ some id → opening → opening') → Agreeing (views id) (e.order s id) opening →
    Agreeing (views.hearAll news id) (e'.order s id) opening'

section

variable [DecimalText D] [LawfulText D] [ZeroText D] [Chrono] {today : Int} {now symbol : String}
  {rejectId : Nat} {side : Side} {orderType : OrderType} {price quantity : D} {handled : Handled D}
  {id original : OrderId}

theorem serve_create (h : Attends policy instruments s reached e ids)
    (requestable : Requestable id) (later : reached < id) (printable : Value symbol)
    (transact : SendingTime now)
    (returns : handleBusiness today now rejectId false e s ids
      (Trading.Ask.create id symbol side orderType price quantity).heard = .ok handled) :
    ∃ news, Served policy instruments s e
      (.create id symbol side orderType price quantity) id handled.engine handled.ids
      ((newsFor s e handled.engine).map .report ++ handled.messages) news := by
  obtain ⟨ids', given, named, enrolled⟩ := h.enrolled.fresh requestable later
  have unknown := h.unknown later
  obtain ⟨same, ⟨reason, worded, unchanged, said⟩ | ⟨silent, instrumentId, step, report, mem,
    identity⟩⟩ := create_served h.coherent h.fillPolicy given returns
  · rw [unchanged, same, said, newsFor_same]
    refine ⟨_, h.enrol later.le enrolled,
      .cons (speaks_rejectedOrder (value_toString id) printable worded transact) .nil, ?_, ?_⟩
    · rw [List.forall_mem_singleton]
      exact bounded_rejected requestable
    · intro views k opening opening' regular _ _ still agree
      exact rejectedOrder_heard requestable unknown agree
        fun other => still fun here => other (Option.some.inj here).symm
  · have fresh_id : ∀ o, Engine.Fresh e (.createOrder today s ⟨id, instrumentId, side, orderType,
        if orderType = .limit then price else 0, quantity⟩) o → o.id = id := by
      intro o fresh
      cases fresh with
      | request asked =>
        cases asked
        rw [Engine.incoming_eq]
      | replacement asked => cases asked
      | leg asked => cases asked
    obtain ⟨attends, told⟩ := h.step step trivial later.le enrolled fun o fresh _ _ => by
      rw [fresh_id o fresh]
      exact ⟨requestable, le_rfl, named⟩
    rw [same, silent, List.append_nil]
    have deliverable : ∀ report ∈ newsFor s e handled.engine, Deliverable id report := by
      intro report mem
      obtain ⟨own, announced, titled, reportable⟩ := told report mem
      exact deliverable_plain (unprompted_plain announced own (fun quiet => quiet)).1 own titled
        reportable
    refine ⟨_, attends, speak_news deliverable, ?_, ?_⟩
    · exact List.forall_mem_map.mpr fun report mem => (deliverable report mem).bounded
    · intro views k opening opening' regular unopened viewed still agree
      refine step_heard h.coherent h.fillPolicy step (fun quiet => quiet)
        (fun report mem => (told report mem).2.2.1)
        ⟨regular, nofun, fun taken => taken, ?_, ?_⟩ agree unopened ?_
      · intro o fresh here
        rw [← (Prod.mk.inj here).2, fresh_id o fresh]
        exact unknown
      · intro o fresh here
        rw [← (Prod.mk.inj here).2, fresh_id o fresh]
        exact viewed id rfl
      · intro nothing
        refine still ?_
        intro here
        obtain rfl : id = k := Option.some.inj here
        have about_ : report ∈ concerning (s, id) (newsFor s e handled.engine) :=
          List.mem_filter.mpr ⟨mem, decide_eq_true identity⟩
        rw [nothing] at about_
        cases about_

omit [ZeroText D] in
theorem serve_cancel (h : Attends policy instruments s reached e ids)
    (requestable : Requestable id) (later : reached < id) (target : Requestable original)
    (before : original < id)
    (returns : handleBusiness today now rejectId false e s ids
      (Trading.Ask.cancel id original symbol side).heard = .ok handled) :
    ∃ news, Served policy instruments s e (.cancel id original symbol side) id handled.engine
      handled.ids ((newsFor s e handled.engine).map .report ++ handled.messages) news := by
  obtain ⟨ids', given, named, enrolled⟩ := h.enrolled.fresh requestable later
  have unknown := h.unknown later
  obtain ⟨same, ⟨reason, worded, unchanged, said⟩ | ⟨silent, step, entry, book', execId, done⟩⟩ :=
    cancel_served h.coherent given enrolled target returns
  · rw [unchanged, same, said, newsFor_same]
    refine ⟨_, h.enrol later.le enrolled, .cons (speaks_cancelReject (value_toString id)
      (value_toString original) (.inl rfl) worded fun o recorded => h.texts recorded) .nil, ?_, ?_⟩
    · rw [List.forall_mem_singleton]
      exact bounded_reject requestable target before.le
    · intro views k opening opening' regular _ _ still agree
      exact cancelReject_heard reason requestable target unknown agree fun _ => still nofun
  · obtain ⟨attends, told⟩ := h.step step trivial later.le enrolled fun o fresh _ _ => by
      cases fresh with
      | request asked => cases asked
      | replacement asked => cases asked
      | leg asked => cases asked
    rw [same, silent, List.append_nil]
    have owner : entry.sessionId = s := (h.coherent.keyed s original entry done.recorded).1
    have only := newsFor_cons done.effect.sent owner
    have deliverable : ∀ report ∈ newsFor s e handled.engine, Deliverable id report := by
      intro report mem
      have reportable := (told report mem).2.2.2
      rw [only, List.filter_nil] at mem
      obtain rfl := List.mem_singleton.mp mem
      refine ⟨reportable, fun _ => ⟨requestable, le_rfl⟩, fun k moved => ?_⟩
      obtain rfl : original = k := Option.some.inj moved
      exact ⟨target, before.le⟩
    refine ⟨_, attends, speak_news deliverable, ?_, ?_⟩
    · exact List.forall_mem_map.mpr fun report mem => (deliverable report mem).bounded
    · intro views k opening opening' regular unopened _ still agree
      exact cancel_heard h.coherent h.titled done requestable unknown agree fun _ => still nofun

omit [ZeroText D] in
theorem serve_replace (h : Attends policy instruments s reached e ids)
    (requestable : Requestable id) (later : reached < id) (target : Requestable original)
    (before : original < id)
    (returns : handleBusiness today now rejectId false e s ids
      (Trading.Ask.replace id original symbol side price quantity).heard = .ok handled) :
    ∃ news, Served policy instruments s e (.replace id original symbol side price quantity) id
      handled.engine handled.ids
      ((newsFor s e handled.engine).map .report ++ handled.messages) news := by
  obtain ⟨ids', given, named, enrolled⟩ := h.enrolled.fresh requestable later
  have unknown := h.unknown later
  obtain ⟨same, ⟨reason, worded, unchanged, said⟩ | ⟨silent, replied⟩⟩ :=
    replace_served h.coherent h.fillPolicy given enrolled target returns
  · rw [unchanged, same, said, newsFor_same]
    refine ⟨_, h.enrol later.le enrolled, .cons (speaks_cancelReject (value_toString id)
      (value_toString original) (.inr rfl) worded fun o recorded => h.texts recorded) .nil, ?_, ?_⟩
    · rw [List.forall_mem_singleton]
      exact bounded_reject requestable target before.le
    · intro views k opening opening' regular _ _ still agree
      exact cancelReject_heard reason requestable target unknown agree
        fun other => still fun here => other (Option.some.inj here).symm
  · have step := Step.modifyOrderWithType _ _ _ _ _ _ _ _ _ _ replied
    obtain ⟨attends, told⟩ := h.step step trivial later.le enrolled fun o fresh _ _ => by
      cases fresh with
      | request asked => cases asked
      | replacement asked =>
        cases asked
        exact ⟨requestable, le_rfl, named⟩
      | leg asked => cases asked
    rw [same, silent, List.append_nil]
    rcases Engine.modify_answers h.coherent h.fillPolicy replied with
      ⟨_, refused, -⟩ | ⟨-, order, execId, fills, sent, identity, -, recorded, filled⟩
    · cases refused
    obtain ⟨owner, number⟩ : order.sessionId = s ∧ order.id = id := Prod.mk.inj identity
    have only := newsFor_cons sent owner
    have deliverable : ∀ report ∈ newsFor s e handled.engine, Deliverable id report := by
      intro report mem
      obtain ⟨own, -, titled, reportable⟩ := told report mem
      rw [only] at mem
      rcases List.mem_cons.mp mem with rfl | mem
      · refine ⟨reportable, fun _ => ?_, fun k moved => ?_⟩
        · change Requestable order.id ∧ order.id ≤ id
          rw [number]
          exact ⟨requestable, le_rfl⟩
        · obtain rfl : original = k := Option.some.inj moved
          exact ⟨target, before.le⟩
      · have plain := filled_plain (filled report (List.mem_of_mem_filter mem))
        exact deliverable_plain plain own titled reportable
    refine ⟨_, attends, speak_news deliverable, ?_, ?_⟩
    · exact List.forall_mem_map.mpr fun report mem => (deliverable report mem).bounded
    · intro views k opening opening' regular unopened viewed still agree
      exact modify_heard h.coherent h.fillPolicy h.titled replied sent identity recorded filled
        requestable later.le unknown (viewed id rfl) regular agree unopened
        fun other => still fun here => other (Option.some.inj here).symm

omit [ZeroText D] in
theorem serve_quote (h : Attends policy instruments s reached e ids) {quoteId : String}
    {bidPrice bidQuantity askPrice askQuantity : D}
    (returns : handleBusiness today now rejectId false e s ids
      (Trading.Ask.quote quoteId symbol bidPrice bidQuantity askPrice askQuantity).heard =
        .ok handled) :
    ∃ news, Served policy instruments s e
      (.quote quoteId symbol bidPrice bidQuantity askPrice askQuantity) reached handled.engine
      handled.ids ((newsFor s e handled.engine).map .report ++ handled.messages) news := by
  obtain ⟨⟨result, e'⟩, quoted, same⟩ := Exec.bind_ok.mp returns
  cases same
  have silent : (quoteAck quoteId 0 result : List (OutMsg D)) = [] := by
    cases result <;> rfl
  rw [silent, List.append_nil]
  unfold massQuote at quoted
  split at quoted
  · cases quoted
    rw [newsFor_same]
    refine ⟨[], h, .nil, nofun, ?_⟩
    intro views k opening opening' _ _ _ still agree
    exact ⟨agree.shown, fun v known active => (agree.backed v known active).imp_right (still nofun)⟩
  · rename_i instrument _
    obtain ⟨⟨reply, e''⟩, replied, same⟩ := Exec.bind_ok.mp quoted
    cases same
    have step := Step.quote _ _ _ _ _ _ _ _ _ replied
    have leg : ∀ o, Engine.Fresh e (.quote s instrument.id bidPrice bidQuantity askPrice
        askQuantity) o → o.id = quoteOrderId := by
      intro o fresh
      cases fresh with
      | request asked => cases asked
      | replacement asked => cases asked
      | leg asked listed named terms => exact terms.quoted
    obtain ⟨attends, told⟩ := h.step step trivial le_rfl h.enrolled
      fun o fresh _ regular => absurd (leg o fresh) regular
    have deliverable : ∀ report ∈ newsFor s e e', Deliverable reached report := by
      intro report mem
      obtain ⟨own, announced, titled, reportable⟩ := told report mem
      exact deliverable_plain (unprompted_plain announced own (fun quiet => quiet)).1 own titled
        reportable
    refine ⟨_, attends, speak_news deliverable, ?_, ?_⟩
    · exact List.forall_mem_map.mpr fun report mem => (deliverable report mem).bounded
    · intro views k opening opening' regular unopened _ still agree
      refine step_heard h.coherent h.fillPolicy step (fun quiet => quiet)
        (fun report mem => (told report mem).2.2.1)
        ⟨regular, nofun, fun taken => taken, ?_, ?_⟩ agree unopened fun _ => still nofun
      · intro o fresh here
        exact absurd ((Prod.mk.inj here).2.symm.trans (leg o fresh)) regular
      · intro o fresh here
        exact absurd ((Prod.mk.inj here).2.symm.trans (leg o fresh)) regular

end

end Lawful

end RustTrader.Fix
