import RustTrader.Fix.Answering

/-!
# What is under way between client and exchange

The client has asked for something the exchange has not served, and the exchange has
told it something it has not heard. Both together account for every difference between
the views of the client and the records of its session, and each call of the client and
each step of the exchange keeps the account.
-/

namespace RustTrader.Fix.Trading

variable {D : Type} [Decimal D]

section

omit [Decimal D]

variable {low high high' : OrderId} {ask : Ask D} {asks : List (Ask D)}

theorem ascending_le (h : Ascending low asks high) : low ≤ high := by
  induction asks generalizing low with
  | nil => exact h
  | cons ask asks ih =>
    obtain ⟨-, above, rest⟩ := h
    have tail := ih rest
    cases named : ask.id with
    | none =>
      rw [named] at tail
      exact tail
    | some id =>
      rw [named] at tail
      exact (above id named).le.trans tail

theorem ascending_snoc (h : Ascending low asks high) (grounded : ask.Grounded)
    (above : ∀ id, ask.id = some id → high < id ∧ id ≤ high') (later : high ≤ high') :
    Ascending low (asks ++ [ask]) high' := by
  induction asks generalizing low with
  | nil =>
    refine ⟨grounded, fun id named => lt_of_le_of_lt h (above id named).1, ?_⟩
    cases named : ask.id with
    | none => exact le_trans h later
    | some id => exact (above id named).2
  | cons first asks ih =>
    obtain ⟨first_grounded, first_above, rest⟩ := h
    exact ⟨first_grounded, first_above, ih rest⟩

theorem opens_id {id : OrderId} (opens : ask.opens = some id) : ask.id = some id := by
  cases ask with
  | create => exact opens
  | replace => exact opens
  | cancel => cases opens
  | quote => cases opens

/-- What is awaited comes after everything that has been served. -/
theorem awaited_above (h : Ascending low asks high) {id : OrderId} (awaited : Awaited id asks) :
    low < id := by
  induction asks generalizing low with
  | nil =>
    obtain ⟨ask, mem, -⟩ := awaited
    cases mem
  | cons first asks ih =>
    obtain ⟨-, above, rest⟩ := h
    obtain ⟨ask, mem, opens⟩ := awaited
    rcases List.mem_cons.mp mem with rfl | mem
    · exact above id (opens_id opens)
    · have later := ih rest ⟨ask, mem, opens⟩
      cases named : first.id with
      | none =>
        rw [named] at later
        exact later
      | some id' =>
        rw [named] at later
        exact (above id' named).trans later

theorem awaited_mono {id : OrderId} {asks' : List (Ask D)} (h : Awaited id asks)
    (sub : ∀ ask ∈ asks, ask ∈ asks') : Awaited id asks' := by
  obtain ⟨ask, mem, opens⟩ := h
  exact ⟨ask, sub ask mem, opens⟩

/-- What is awaited after the first request is not what that request opens. -/
theorem awaited_tail {id : OrderId} (h : Awaited id (ask :: asks))
    (other : ask.opens ≠ some id) : Awaited id asks := by
  obtain ⟨ask', mem, opens⟩ := h
  rcases List.mem_cons.mp mem with rfl | mem
  · exact absurd opens other
  · exact ⟨ask', mem, opens⟩

end

theorem wrapI32_next {n : Int} (low : 0 ≤ n) (room : n < WireIdMap.i32Max) :
    wrapI32 (n + 1) = n + 1 := by
  unfold wrapI32
  unfold WireIdMap.i32Max at room
  omega

/-- The client after it has drawn an identifier, and perhaps tracked a view under it. -/
def drawn (c : Initiator D) (view : Option (OrderView D)) : Initiator D :=
  match view with
  | some view => c.draw.2.track view
  | none => c.draw.2

omit [Decimal D] in
theorem drawn_view (c : Initiator D) (view : Option (OrderView D)) (k : OrderId) :
    (drawn c view).view k = if view.map OrderView.id = some k then view else c.view k := by
  cases view with
  | none => rfl
  | some view =>
    refine (HashMap.get?_set _ _ _ _).trans (if_congr ?_ rfl rfl)
    rw [Option.map_some, Option.some.injEq]
    exact eq_comm

omit [Decimal D] in
theorem drawn_nextOrder (c : Initiator D) (view : Option (OrderView D)) :
    (drawn c view).nextOrder = wrapI32 (c.nextOrder + 1) := by
  cases view <;> rfl

section

variable (c : Initiator D) (tx : Initiator.Queue D)

theorem hand_outcome {α : Type} (msgType : String) (fields : Fields) (result : α) :
    (c.hand tx msgType fields result).2 = (c, (tx.send (.message msgType fields)).2) := by
  unfold Initiator.hand
  generalize tx.send (.message msgType fields) = sent
  obtain ⟨outcome, queue⟩ := sent
  cases outcome <;> rfl

theorem createOrder_outcome (now symbol : String) (side : Side) (orderType : OrderType)
    (price quantity : D) :
    (c.createOrder tx now symbol side orderType price quantity).2 =
      let id := wrapI32 (c.nextOrder + 1)
      if c.loggedIn then (drawn c (some (.requested id symbol side price quantity)),
        (tx.send (.message "D"
          (buildNewOrderSingle now (toString id) symbol side orderType price quantity))).2)
      else (c, tx) := by
  unfold Initiator.createOrder
  dsimp only
  split
  · exact hand_outcome ..
  · rfl

theorem modifyOrder_outcome (now : String) (id : OrderId) (price quantity : D) :
    (c.modifyOrder tx now id price quantity).2 = (c, tx) ∨ ∃ v, c.view id = some v ∧
      (c.modifyOrder tx now id price quantity).2 =
        let request := wrapI32 (c.nextOrder + 1)
        (drawn c (some (.requested request v.symbol v.side price quantity)),
          (tx.send (.message "G" (buildCancelReplace now (toString id) (toString request) v.symbol
            v.side price quantity))).2) := by
  unfold Initiator.modifyOrder
  split
  · split
    · exact .inl rfl
    · rename_i v known
      exact .inr ⟨v, known, hand_outcome ..⟩
  · exact .inl rfl

theorem cancelOrder_outcome (now : String) (id : OrderId) :
    (c.cancelOrder tx now id).2 = (c, tx) ∨ ∃ v, c.view id = some v ∧
      (c.cancelOrder tx now id).2 =
        let request := wrapI32 (c.nextOrder + 1)
        (drawn c none, (tx.send (.message "F" (buildCancelRequest now (toString id)
          (toString request) v.symbol v.side))).2) := by
  unfold Initiator.cancelOrder
  split
  · split
    · exact .inl rfl
    · rename_i v known
      exact .inr ⟨v, known, hand_outcome ..⟩
  · exact .inl rfl

theorem quote_outcome (quoteId symbol : String)
    (bidPrice bidQuantity askPrice askQuantity : D) :
    (c.quote tx quoteId symbol bidPrice bidQuantity askPrice askQuantity).2 =
      if c.loggedIn then (c, (tx.send (.message "i"
        (buildMassQuote quoteId symbol bidPrice bidQuantity askPrice askQuantity))).2)
      else (c, tx) := by
  unfold Initiator.quote
  split
  · exact hand_outcome ..
  · rfl

/-- A call does nothing, or sends one request and draws one identifier at most. -/
theorem Call.made_outcome (call : Call D) :
    call.made c tx = (c, tx) ∨ ∃ c' out, call.made c tx = (c', (tx.send out).2) ∧
      (c' = c ∨ ∃ view, c' = drawn c view) := by
  cases call with
  | createOrder now symbol side orderType price quantity =>
    rcases Bool.eq_false_or_eq_true c.loggedIn with on | off
    · exact .inr ⟨_, _, (createOrder_outcome c tx now symbol side orderType price quantity).trans
        (if_pos on), .inr ⟨_, rfl⟩⟩
    · exact .inl ((createOrder_outcome c tx now symbol side orderType price quantity).trans
        (if_neg (by rw [off]; exact Bool.false_ne_true)))
  | modifyOrder now id price quantity =>
    rcases modifyOrder_outcome c tx now id price quantity with idle | ⟨v, -, handed⟩
    · exact .inl idle
    · exact .inr ⟨_, _, handed, .inr ⟨_, rfl⟩⟩
  | cancelOrder now id =>
    rcases cancelOrder_outcome c tx now id with idle | ⟨v, -, handed⟩
    · exact .inl idle
    · exact .inr ⟨_, _, handed, .inr ⟨_, rfl⟩⟩
  | quote around symbol bidPrice bidQuantity askPrice askQuantity =>
    have outcome := quote_outcome c tx around.quoteId symbol bidPrice bidQuantity askPrice
      askQuantity
    rcases Bool.eq_false_or_eq_true c.loggedIn with on | off
    · exact .inr ⟨_, _, outcome.trans (if_pos on), .inl rfl⟩
    · exact .inl (outcome.trans (if_neg (by rw [off]; exact Bool.false_ne_true)))

variable {c} in
theorem Call.made_nextOrder (call : Call D) (low : 0 ≤ c.nextOrder)
    (room : c.nextOrder < WireIdMap.i32Max) :
    (call.made c tx).1.nextOrder ≤ c.nextOrder + 1 := by
  have kept : c.nextOrder ≤ c.nextOrder + 1 := (Int.lt_succ _).le
  rcases call.made_outcome c tx with same | ⟨c', out, same, rfl | ⟨view, rfl⟩⟩
  · rw [same]
    exact kept
  · rw [same]
    exact kept
  · rw [same, drawn_nextOrder, wrapI32_next low room]

end

/-- The views of the client once it has heard what is under way. -/
def views (t : Trading D) (told : List (Inbound D)) : Views D := Views.hearAll t.client.view told

section

variable [DecimalText D] [Chrono]

/-- What is under way between client and exchange, and what it comes to: the client will
agree with the exchange on every order, but for those it has only asked for. -/
structure Synchronised (policy : FillPolicy) (instruments : InstrumentMap) (s : String)
    (t : Trading D) (asks : List (Ask D)) (told : List (Inbound D)) (reached : OrderId) : Prop where
  attends : Attends policy instruments s reached t.engine t.ids
  requests : t.requests.Carries (asks.map Ask.heard)
  answers : t.answers.Carries told
  ascending : Ascending reached asks t.client.nextOrder
  low : 0 ≤ reached
  room : t.client.nextOrder ≤ WireIdMap.i32Max
  bounded : ∀ message ∈ told, Bounded reached message
  viewed : ∀ id, Awaited id asks → (t.client.view id).isSome
  ranged : ∀ id v, t.client.view id = some v →
    0 < id ∧ id ≤ t.client.nextOrder ∧ Value v.symbol
  agree : ∀ id, id ≠ quoteOrderId →
    Agreeing (t.views told id) (t.engine.order s id) (Awaited id asks)

variable {policy : FillPolicy} {instruments : InstrumentMap} {s : String} {t : Trading D}
  {asks : List (Ask D)} {told : List (Inbound D)} {reached : OrderId}

namespace Synchronised

/-- An order that is awaited is not recorded yet. -/
theorem unopened (h : Synchronised policy instruments s t asks told reached) {id : OrderId}
    (awaited : Awaited id asks) : t.engine.order s id = none :=
  h.attends.unknown (awaited_above h.ascending awaited)

/-- The views of orders that no message is about are those the client has. -/
theorem views_above (h : Synchronised policy instruments s t asks told reached) {id : OrderId}
    (later : reached < id) : t.views told id = t.client.view id :=
  Views.hearAll_other fun message mem => (h.bounded message mem).silent later

/-- What the exchange says in a step is under way afterwards. -/
theorem tell (h : Synchronised policy instruments s t asks told reached) {asks' : List (Ask D)}
    {requests : Lane D} {e' : Engine D} {ids' : WireIdMap} {reached' : OrderId}
    {outs : List (OutMsg D)} {news : List (Inbound D)}
    (attends : Attends policy instruments s reached' e' ids')
    (carried : requests.Carries (asks'.map Ask.heard))
    (ascending : Ascending reached' asks' t.client.nextOrder) (later : reached ≤ reached')
    (sub : ∀ ask ∈ asks', ask ∈ asks) (speak : List.Forall₂ Speaks outs news)
    (bounded : ∀ message ∈ news, Bounded reached' message)
    (working : (t.answers.sendAll outs).queue.failed = false)
    (agree : ∀ id, id ≠ quoteOrderId →
      Agreeing ((t.views told).hearAll news id) (e'.order s id) (Awaited id asks')) :
    Synchronised policy instruments s
      ⟨t.client, requests, e', ids', t.answers.sendAll outs⟩ asks' (told ++ news) reached' := by
  refine ⟨attends, carried, h.answers.sendAll speak working, ascending, h.low.trans later, h.room,
    ?_, fun id awaited => h.viewed id (awaited_mono awaited sub), h.ranged, ?_⟩
  · rw [List.forall_mem_append]
    exact ⟨fun message mem => (h.bounded message mem).mono later, bounded⟩
  · intro id regular
    unfold views Views.hearAll
    rw [List.foldl_append]
    exact agree id regular

variable [LawfulDecimal D] [LawfulText D]

/-- Others trade. -/
theorem act (h : Synchronised policy instruments s t asks told reached) {command : Command D}
    {e' : Engine D} (others : ByOthers s command) (step : Step t.engine command e')
    (working : (t.answered s e' []).Working) : ∃ told', Synchronised policy instruments s
      (t.answered s e' []) asks told' reached := by
  obtain ⟨attends, deliverable, agree⟩ := act_heard h.attends others step
  have working : (t.answers.sendAll ((newsFor s t.engine e').map .report ++ [])).queue.failed =
      false := working.2
  have outs : (newsFor s t.engine e').map (OutMsg.report (D := D)) ++ [] =
      (newsFor s t.engine e').map .report := List.append_nil _
  refine ⟨told ++ (newsFor s t.engine e').map spoken, ?_⟩
  unfold answered
  rw [outs] at working ⊢
  refine h.tell attends h.requests h.ascending le_rfl (fun ask mem => mem)
    (speak_news deliverable) ?_ working fun id regular => ?_
  · exact List.forall_mem_map.mpr fun report mem => (deliverable report mem).bounded
  · exact agree _ id _ regular h.unopened (h.agree id regular)

/-- The exchange serves the first request. -/
theorem serve [ZeroText D] {ask : Ask D}
    (h : Synchronised policy instruments s t (ask :: asks) told reached)
    {wire : List (List UInt8)} {today : Int} {now : String} {rejectId : Nat} {handled : Handled D}
    (transact : SendingTime now)
    (carried : ({ t.requests with wire := wire } : Lane D).Carries (asks.map Ask.heard))
    (returns : handleBusiness today now rejectId false t.engine s t.ids ask.heard = .ok handled)
    (working : (t.answers.sendAll ((newsFor s t.engine handled.engine).map .report ++
      handled.messages)).queue.failed = false) : ∃ told' reached',
    Synchronised policy instruments s ⟨t.client, { t.requests with wire := wire }, handled.engine,
      handled.ids, t.answers.sendAll ((newsFor s t.engine handled.engine).map .report ++
        handled.messages)⟩ asks told' reached' := by
  obtain ⟨grounded, above, rest⟩ := h.ascending
  have served : ∃ news, Served policy instruments s t.engine ask (ask.id.getD reached)
      handled.engine handled.ids ((newsFor s t.engine handled.engine).map .report ++
        handled.messages) news := by
    have bound := ascending_le rest
    have originals := grounded.original
    cases ask with
    | create id symbol side orderType price quantity =>
      have later : reached < id := above id rfl
      exact serve_create h.attends ⟨h.low.trans_lt later, le_trans bound h.room⟩ later
        grounded.printable transact returns
    | replace id original symbol side price quantity =>
      have later : reached < id := above id rfl
      obtain ⟨positive, before⟩ := originals original rfl
      exact serve_replace h.attends ⟨h.low.trans_lt later, le_trans bound h.room⟩ later
        ⟨positive, (before id rfl).le.trans (le_trans bound h.room)⟩ (before id rfl) returns
    | cancel id original symbol side =>
      have later : reached < id := above id rfl
      obtain ⟨positive, before⟩ := originals original rfl
      exact serve_cancel h.attends ⟨h.low.trans_lt later, le_trans bound h.room⟩ later
        ⟨positive, (before id rfl).le.trans (le_trans bound h.room)⟩ (before id rfl) returns
    | quote quoteId symbol bidPrice bidQuantity askPrice askQuantity =>
      exact serve_quote h.attends returns
  obtain ⟨news, served⟩ := served
  refine ⟨told ++ news, ask.id.getD reached, h.tell served.attends carried rest ?_
    (fun ask' mem => List.mem_cons_of_mem _ mem) served.speak served.bounded working ?_⟩
  · cases named : ask.id with
    | none => exact le_rfl
    | some id => exact (above id named).le
  · intro id regular
    refine served.agree _ id _ _ regular h.unopened ?_ ?_ (h.agree id regular)
    · intro n opens
      have awaited : Awaited n (ask :: asks) := ⟨ask, List.mem_cons_self, opens⟩
      rw [h.views_above (awaited_above h.ascending awaited)]
      exact h.viewed n awaited
    · exact fun other awaited => awaited_tail awaited other

omit [LawfulDecimal D] [LawfulText D] in
/-- A request that is accepted into the queue is under way, and what it opens is viewed. -/
theorem ask (h : Synchronised policy instruments s t asks told reached) (ask : Ask D)
    {client : Initiator D} {out : OutMsg D} (grounded : ask.Grounded)
    (speaks : Speaks out ask.heard)
    (named : ∀ id, ask.id = some id → t.client.nextOrder < id ∧ id ≤ client.nextOrder)
    (later : t.client.nextOrder ≤ client.nextOrder) (room : client.nextOrder ≤ WireIdMap.i32Max)
    (kept : ∀ k, ask.opens ≠ some k → client.view k = t.client.view k)
    (opened : ∀ k, ask.opens = some k → ∃ v, client.view k = some v ∧ Value v.symbol)
    (working : (t.requests.send out).queue.failed = false) :
    Synchronised policy instruments s
      ⟨client, t.requests.send out, t.engine, t.ids, t.answers⟩ (asks ++ [ask]) told reached := by
  have start := ascending_le h.ascending
  have above : ∀ k, ask.opens = some k → t.client.nextOrder < k ∧ k ≤ client.nextOrder :=
    fun k opens => named k (opens_id opens)
  have silent : ∀ k, ask.opens = some k → ∀ message ∈ told, Silent k message :=
    fun k opens message mem => (h.bounded message mem).silent (start.trans_lt (above k opens).1)
  refine ⟨h.attends, ?_, h.answers, ascending_snoc h.ascending grounded named later, h.low, room,
    h.bounded, ?_, ?_, ?_⟩
  · rw [List.map_append]
    exact h.requests.send speaks working
  · rintro id ⟨ask', mem, opens⟩
    by_cases here : ask.opens = some id
    · obtain ⟨v, known, -⟩ := opened id here
      rw [known]
      rfl
    · rw [kept id here]
      rcases List.mem_append.mp mem with old | new
      · exact h.viewed id ⟨ask', old, opens⟩
      · rw [List.mem_singleton.mp new] at opens
        exact absurd opens here
  · intro id v known
    by_cases here : ask.opens = some id
    · obtain ⟨v', known', written⟩ := opened id here
      obtain rfl : v' = v := Option.some.inj (known'.symm.trans known)
      exact ⟨h.low.trans_lt (start.trans_lt (above id here).1), (above id here).2, written⟩
    · rw [kept id here] at known
      obtain ⟨positive, before, written⟩ := h.ranged id v known
      exact ⟨positive, before.trans later, written⟩
  · intro id regular
    by_cases here : ask.opens = some id
    · obtain ⟨v, known, -⟩ := opened id here
      have unheard : Views.hearAll client.view told id = client.view id :=
        Views.hearAll_other (silent id here)
      have unknown : t.engine.order s id = none :=
        h.attends.unknown (start.trans_lt (above id here).1)
      change Agreeing (Views.hearAll client.view told id) (t.engine.order s id) _
      rw [unheard, known, unknown]
      exact ⟨fun r recorded => (by cases recorded), fun _ _ _ =>
        .inr ⟨ask, List.mem_append_right _ (List.mem_singleton_self ask), here⟩⟩
    · have same : Views.hearAll client.view told id = t.views told id := by
        cases opens : ask.opens with
        | none =>
          have all : client.view = t.client.view := funext fun k => kept k (by rw [opens]; nofun)
          rw [all]
          rfl
        | some n =>
          refine Views.hearAll_congr (silent n opens) (fun k other => kept k ?_) id ?_
          · rw [opens]
            exact fun same => other (Option.some.inj same).symm
          · rintro rfl
            exact here opens
      have agree := h.agree id regular
      change Agreeing (Views.hearAll client.view told id) (t.engine.order s id) _
      rw [same]
      refine ⟨agree.shown, fun v known active => (agree.backed v known active).imp_right ?_⟩
      exact fun awaited => awaited_mono awaited fun ask mem => List.mem_append_left _ mem

end Synchronised

namespace Synchronised

variable [LawfulText D]

omit [LawfulText D] in
/-- A call that draws an identifier leaves its request under way. -/
theorem drew (h : Synchronised policy instruments s t asks told reached)
    (free : t.client.nextOrder < WireIdMap.i32Max) (ask : Ask D) (view : Option (OrderView D))
    {out : OutMsg D} (grounded : ask.Grounded) (speaks : Speaks out ask.heard)
    (named : ask.id = some (wrapI32 (t.client.nextOrder + 1)))
    (opens : ask.opens = view.map OrderView.id) (written : ∀ v, view = some v → Value v.symbol)
    (working : (t.requests.send out).queue.failed = false) :
    ∃ asks', Synchronised policy instruments s ⟨drawn t.client view, t.requests.send out,
      t.engine, t.ids, t.answers⟩ asks' told reached := by
  have low : 0 ≤ t.client.nextOrder := h.low.trans (ascending_le h.ascending)
  have next : (drawn t.client view).nextOrder = t.client.nextOrder + 1 :=
    (drawn_nextOrder _ _).trans (wrapI32_next low free)
  rw [wrapI32_next low free] at named
  refine ⟨_, h.ask ask grounded speaks ?_ ?_ ?_ ?_ ?_ working⟩
  · intro id same
    rw [named] at same
    obtain rfl := Option.some.inj same
    rw [next]
    exact ⟨Int.lt_succ _, le_rfl⟩
  · rw [next]
    exact (Int.lt_succ _).le
  · rw [next]
    exact Int.add_one_le_of_lt free
  · intro k other
    rw [drawn_view, if_neg (opens ▸ other)]
  · intro k here
    rw [opens] at here
    obtain ⟨v, known, -⟩ := Option.map_eq_some_iff.mp here
    refine ⟨v, ?_, written v known⟩
    rw [drawn_view, if_pos here, known]

theorem createOrder (h : Synchronised policy instruments s t asks told reached)
    {now symbol : String} {side : Side} {orderType : OrderType} {price quantity : D}
    (transact : SendingTime now)
    (proper : (Call.createOrder now symbol side orderType price quantity).Proper)
    (free : t.client.nextOrder < WireIdMap.i32Max)
    (working : (t.asked (t.client.createOrder t.requests.queue now symbol side orderType price
      quantity).2).Working) : ∃ asks', Synchronised policy instruments s
        (t.asked (t.client.createOrder t.requests.queue now symbol side orderType price quantity).2)
        asks' told reached := by
  obtain ⟨printable, sized, priced⟩ := proper
  have lane := working.1
  unfold asked at lane ⊢
  rw [createOrder_outcome] at lane ⊢
  dsimp only at lane ⊢
  split at lane
  · rename_i on
    rw [if_pos on]
    refine h.drew free (.create _ symbol side orderType price quantity) (some _)
      ⟨printable, nofun⟩ ?_ rfl rfl ?_ lane
    · exact speaks_request (.newOrderSingle _ symbol side orderType price quantity) ⟨now, 0, 0⟩
        ⟨value_toString _, printable⟩ ⟨sized, priced⟩ transact
    · rintro v ⟨⟩
      exact printable
  · rename_i off
    rw [if_neg off]
    exact ⟨asks, h⟩

theorem modifyOrder (h : Synchronised policy instruments s t asks told reached) {now : String}
    {id : OrderId} {price quantity : D} (transact : SendingTime now)
    (proper : (Call.modifyOrder now id price quantity).Proper)
    (free : t.client.nextOrder < WireIdMap.i32Max)
    (working : (t.asked (t.client.modifyOrder t.requests.queue now id price quantity).2).Working) :
    ∃ asks', Synchronised policy instruments s
      (t.asked (t.client.modifyOrder t.requests.queue now id price quantity).2) asks' told
      reached := by
  obtain ⟨sized, priced⟩ := proper
  have lane := working.1
  unfold asked at lane ⊢
  rcases modifyOrder_outcome t.client t.requests.queue now id price quantity with
    idle | ⟨v, known, handed⟩
  · rw [idle]
    exact ⟨asks, h⟩
  · rw [handed] at lane ⊢
    obtain ⟨positive, before, printable⟩ := h.ranged id v known
    have low : 0 ≤ t.client.nextOrder := h.low.trans (ascending_le h.ascending)
    refine h.drew free (.replace _ id v.symbol v.side price quantity) (some _)
      ⟨printable, ?_⟩ ?_ rfl rfl ?_ lane
    · rintro _ ⟨⟩
      refine ⟨positive, ?_⟩
      rintro _ ⟨⟩
      rw [wrapI32_next low free]
      exact Int.lt_add_one_of_le before
    · exact speaks_request (.cancelReplace _ _ v.symbol v.side price quantity) ⟨now, 0, 0⟩
        ⟨value_toString _, value_toString _, printable⟩ ⟨sized, priced⟩ transact
    · rintro _ ⟨⟩
      exact printable

theorem cancelOrder (h : Synchronised policy instruments s t asks told reached) {now : String}
    {id : OrderId} (transact : SendingTime now) (free : t.client.nextOrder < WireIdMap.i32Max)
    (working : (t.asked (t.client.cancelOrder t.requests.queue now id).2).Working) :
    ∃ asks', Synchronised policy instruments s
      (t.asked (t.client.cancelOrder t.requests.queue now id).2) asks' told reached := by
  have lane := working.1
  unfold asked at lane ⊢
  rcases cancelOrder_outcome t.client t.requests.queue now id with idle | ⟨v, known, handed⟩
  · rw [idle]
    exact ⟨asks, h⟩
  · rw [handed] at lane ⊢
    obtain ⟨positive, before, printable⟩ := h.ranged id v known
    have low : 0 ≤ t.client.nextOrder := h.low.trans (ascending_le h.ascending)
    refine h.drew free (.cancel _ id v.symbol v.side) none ⟨printable, ?_⟩ ?_ rfl rfl nofun lane
    · rintro _ ⟨⟩
      refine ⟨positive, ?_⟩
      rintro _ ⟨⟩
      rw [wrapI32_next low free]
      exact Int.lt_add_one_of_le before
    · exact speaks_request (.cancelRequest _ _ v.symbol v.side) ⟨now, 0, 0⟩
        ⟨value_toString _, value_toString _, printable⟩ trivial transact

theorem quote (h : Synchronised policy instruments s t asks told reached) {around : Surroundings}
    {symbol : String} {bidPrice bidQuantity askPrice askQuantity : D}
    (transact : SendingTime around.transactTime)
    (proper : (Call.quote around symbol bidPrice bidQuantity askPrice askQuantity).Proper)
    (working : (t.asked (t.client.quote t.requests.queue around.quoteId symbol bidPrice bidQuantity
      askPrice askQuantity).2).Working) : ∃ asks', Synchronised policy instruments s
        (t.asked (t.client.quote t.requests.queue around.quoteId symbol bidPrice bidQuantity
          askPrice askQuantity).2) asks' told reached := by
  obtain ⟨printable, signs⟩ := proper
  have lane := working.1
  unfold asked at lane ⊢
  rw [quote_outcome] at lane ⊢
  split at lane
  · rename_i on
    rw [if_pos on]
    have speaks := speaks_request (.massQuote symbol bidPrice bidQuantity askPrice askQuantity)
      around printable signs transact
    exact ⟨_, h.ask (.quote around.quoteId symbol bidPrice bidQuantity askPrice askQuantity)
      ⟨printable, nofun⟩ speaks nofun le_rfl h.room (fun _ _ => rfl) nofun lane⟩
  · rename_i off
    rw [if_neg off]
    exact ⟨asks, h⟩

/-- A proper call is under way, if it is not refused. -/
theorem call (h : Synchronised policy instruments s t asks told reached) {call : Call D}
    (time : SendingTime call.time) (proper : call.Proper)
    (free : t.client.nextOrder < WireIdMap.i32Max)
    (working : (t.asked (call.made t.client t.requests.queue)).Working) :
    ∃ asks', Synchronised policy instruments s
      (t.asked (call.made t.client t.requests.queue)) asks' told reached := by
  cases call with
  | createOrder => exact h.createOrder time proper free working
  | modifyOrder => exact h.modifyOrder time proper free working
  | cancelOrder => exact h.cancelOrder time free working
  | quote => exact h.quote time proper working

end Synchronised

end

end RustTrader.Fix.Trading
