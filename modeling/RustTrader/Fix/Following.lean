import RustTrader.Fix.Trading

/-!
# Views follow the engine

A step of the engine tells a session what becomes of its orders, and the views of the
client that hears it agree with the records afterwards if they did before.
-/

namespace RustTrader.Fix

variable {D : Type} [Decimal D] {s : String} {e e' : Engine D} {command : Command D}

theorem newsFor_sent {news : List (Report D)} (sent : e'.sent = e.sent ++ news) :
    newsFor s e e' = news.filter fun report => report.order.sessionId = s := by
  unfold newsFor
  rw [sent, List.drop_left]

theorem newsFor_cons {report : Report D} {rest : List (Report D)}
    (sent : e'.sent = e.sent ++ report :: rest) (own : report.order.sessionId = s) :
    newsFor s e e' = report :: rest.filter fun report => report.order.sessionId = s := by
  rw [newsFor_sent sent]
  exact List.filter_cons_of_pos (decide_eq_true own)

theorem newsFor_same : newsFor s e e = [] := by
  unfold newsFor
  rw [List.drop_length]
  rfl

omit [Decimal D] in
theorem concerning_filter (s : String) (id : OrderId) (news : List (Report D)) :
    concerning (s, id) (news.filter fun report => report.order.sessionId = s) =
      concerning (s, id) news := by
  unfold concerning
  rw [List.filter_filter]
  refine List.filter_congr fun report _ => ?_
  by_cases same : report.order.identity = (s, id)
  · have owner : report.order.sessionId = s := (Prod.mk.inj same).1
    simp [same, owner]
  · simp [same]

/-- A report that shows whether its order is open. -/
def Showing (report : Report D) : Prop :=
  (shownState report).isActive = report.order.state.isActive

theorem showing_of_event {report : Report D} (other : eventOf report ≠ .replaced) :
    Showing report := by
  unfold Showing shownState
  rw [if_neg fun h => other h.1]
  split
  · rename_i new
    rw [new]
    rfl
  · rfl

theorem filled_showing {report : Report D} (filled : Engine.Filled e report) :
    Showing report := by
  refine showing_of_event ?_
  cases filled with
  | intro priced sized =>
    unfold eventOf
    dsimp only
    split <;> decide

/-- Requests of a session that are answered under an identifier of their own. -/
def Prompts (s : String) : Command D → Prop
  | .modifyOrderWithType _ s' _ _ _ _ _ | .cancelOrderWithId s' _ _ => s' = s
  | _ => False

/-- What a session is told about its orders when it has not asked. -/
theorem unprompted_plain {report : Report D} (announced : Engine.Announced e command report)
    (own : report.order.sessionId = s) (quiet : ¬ Prompts s command) :
    Unprompted report ∧ Showing report := by
  cases announced with
  | fill filled => exact ⟨filled_plain filled, filled_showing filled⟩
  | own kind =>
    refine ⟨⟨rfl, rfl⟩, showing_of_event ?_⟩
    rcases kind with rfl | rfl | rfl | ⟨rfl, -⟩ <;> exact nofun
  | cancelled asked identity =>
    subst asked
    exact absurd ((Prod.mk.inj identity).1.symm.trans own) quiet
  | replaced asked identity =>
    subst asked
    exact absurd ((Prod.mk.inj identity).1.symm.trans own) quiet

/-- An order of the session that can be told from a quote, under an identifier that has
been asked for. -/
def Titled (s : String) (reached : OrderId) (o : Order D) : Prop :=
  o.sessionId = s → o.id ≠ quoteOrderId →
    Requestable o.id ∧ o.id ≤ reached ∧ Unquoted o.exchangeId

omit [Decimal D] in
theorem Titled.mono {reached reached' : OrderId} {o : Order D} (h : Titled s reached o)
    (later : reached ≤ reached') : Titled s reached' o := by
  intro own regular
  obtain ⟨named, before, unquoted⟩ := h own regular
  exact ⟨named, before.trans later, unquoted⟩

theorem unquoted_number (n : Int) : Unquoted (toString n) := by
  have plain : ∀ c ∈ (toString n).toList, c ≠ 'q' := by
    cases n with
    | ofNat n =>
      intro c mem same
      have digit := Numeral.repr_digits n c mem
      rw [same] at digit
      exact absurd digit (by decide)
    | negSucc n =>
      intro c mem same
      have text : (toString (Int.negSucc n)).toList = '-' :: (Nat.repr (n + 1)).toList := by
        simp [toString, Int.repr, String.toList_append]
      rw [text] at mem
      rcases List.mem_cons.mp mem with rfl | mem
      · exact absurd same (by decide)
      · have digit := Numeral.repr_digits _ c mem
        rw [same] at digit
        exact absurd digit (by decide)
  unfold Unquoted
  cases text : (toString n).toList with
  | nil => rfl
  | cons c rest =>
    rw [text] at plain
    have first := plain c List.mem_cons_self
    simp [List.isPrefixOf, Ne.symm first]

theorem lasting_titled (reached : OrderId) : Lasting (Titled (D := D) s reached) := by
  refine ⟨?_, fun h _ => h, fun h => h⟩
  intro o o' quantity price h _ f _ _ _
  obtain ⟨owner, number⟩ := Prod.mk.inj f.identity
  have text : o'.exchangeId = o.exchangeId := by rw [f.rest]
  unfold Titled
  rw [owner, number, text]
  exact h

section Lawful

variable [LawfulDecimal D] {policy : FillPolicy}

omit [LawfulDecimal D] in
/-- What enters a book for a session is titled if its identifier is. -/
theorem fresh_titled {reached reached' : OrderId} (c : Coherent policy e.view none)
    (known : ∀ o, e.view.Known o → Titled s reached o)
    (asked : ∀ o, Engine.Fresh e command o → o.sessionId = s → o.id ≠ quoteOrderId →
      Requestable o.id ∧ o.id ≤ reached') {o : Order D} (fresh : Engine.Fresh e command o) :
    Enters policy (Titled s reached') o := by
  suffices h : Titled s reached' o from ⟨fun _ => h, fun _ => h, fun _ => h⟩
  intro own regular
  obtain ⟨named, before⟩ := asked o fresh own regular
  refine ⟨named, before, ?_⟩
  cases fresh with
  | request asked listed valid =>
    rw [Engine.incoming_eq]
    exact unquoted_number _
  | @replacement today s' origId newId orderType price quantity remaining entry asked recorded =>
    obtain ⟨owner, number, regular'⟩ := c.keyed s' origId entry recorded
    have recorded' : e.view.record entry.sessionId entry.id = some entry := by
      rw [owner, number]
      exact recorded
    have same : entry.sessionId = s := own
    exact (known entry (.inl recorded') same (number ▸ regular')).2.2
  | leg asked listed named' terms => exact absurd terms.quoted regular

/-- A step leaves the orders of a session titled, and reports on titled ones. -/
theorem step_titled {reached reached' : OrderId} (c : Coherent policy e.view none)
    (hp : e.fillPolicy = policy) (later : reached ≤ reached')
    (known : ∀ o, e.view.Known o → Titled s reached o)
    (asked : ∀ o, Engine.Fresh e command o → o.sessionId = s → o.id ≠ quoteOrderId →
      Requestable o.id ∧ o.id ≤ reached') (step : Step e command e') :
    (∀ o, e'.view.Known o → Titled s reached' o) ∧
      ∀ report ∈ newsFor s e e', Titled s reached' report.order := by
  obtain ⟨news, carries⟩ := Engine.step_carries (lasting_titled reached') c hp
    (fun o ho => (known o ho).mono later) (fun o fresh _ => fresh_titled c known asked fresh) step
  refine ⟨carries.known, fun report mem => ?_⟩
  rw [newsFor_sent carries.sent] at mem
  exact carries.told report (List.mem_of_mem_filter mem)

theorem newsFor_announced (c : Coherent policy e.view none) (hp : e.fillPolicy = policy)
    (step : Step e command e') : ∀ report ∈ newsFor s e e',
      report.order.sessionId = s ∧ Engine.Announced e command report := by
  obtain ⟨news, sent, said⟩ := Engine.step_announces c hp step
  intro report mem
  rw [newsFor_sent sent] at mem
  obtain ⟨here, own⟩ := List.mem_filter.mp mem
  exact ⟨of_decide_eq_true own, said report here⟩

/-- What is asked of a step for an order of a session to be followed. -/
structure Followable (s : String) (id : OrderId) (e : Engine D) (command : Command D)
    (view : Option (OrderView D)) : Prop where
  regular : id ≠ quoteOrderId
  own : ∀ today origId newId price quantity,
    command ≠ .modifyOrderWithType today s origId newId .market price quantity
  untaken : ¬ Engine.Takes s command id
  unused : ∀ o, Engine.Fresh e command o → o.identity = (s, id) → e.order s id = none
  entered : ∀ o, Engine.Fresh e command o → o.identity = (s, id) → view.isSome

/-- A view that followed the reports about its order agrees with the record. -/
theorem step_follows (c : Coherent policy e.view none) (hp : e.fillPolicy = policy)
    (step : Step e command e') {id : OrderId} {view : Option (OrderView D)}
    {opening opening' : Prop} (followable : Followable s id e command view)
    (agree : Agreeing view (e.order s id) opening)
    (showing : ∀ report ∈ newsFor s e e', Showing report)
    (unopened : opening → e.order s id = none)
    (still : concerning (s, id) (newsFor s e e') = [] → opening → opening') :
    Agreeing (view.map fun v => v.followed (concerning (s, id) (newsFor s e e')))
      (e'.order s id) opening' := by
  obtain ⟨news, informs⟩ := Engine.step_informs c hp followable.own step
  obtain ⟨terms, news', termed⟩ := Engine.step_terms c hp step followable.regular followable.unused
  obtain rfl : news = news' := List.append_cancel_left (informs.sent.symm.trans termed.sent)
  rw [newsFor_sent informs.sent] at showing still ⊢
  rw [concerning_filter] at still ⊢
  have about_ : ∀ report ∈ concerning (s, id) news, report ∈ news ∧
      report.order.identity = (s, id) := by
    intro report mem
    obtain ⟨here, same⟩ := List.mem_filter.mp mem
    exact ⟨here, of_decide_eq_true same⟩
  have follows : RustTrader.Follows (e.order s id) ((concerning (s, id) news).map Report.order)
      (e'.order s id) := by
    rw [concerning_orders]
    exact informs.follows id followable.regular
  refine agree.follow follows (Engine.step_keeps c hp step id followable.untaken) termed.before
    termed.after ?_ ?_ unopened ?_ ?_
  · intro report mem
    obtain ⟨here, same⟩ := about_ report mem
    exact termed.told report here same
  · intro unknown recorded
    obtain ⟨r, here⟩ := Option.isSome_iff_exists.mp recorded
    obtain ⟨o, fresh, same⟩ := Engine.step_entered c hp step followable.regular unknown here
    exact followable.entered o fresh same
  · intro gone
    rw [gone] at follows
    exact still (List.map_eq_nil_iff.mp follows.nil_of_none)
  · intro report mem
    obtain ⟨here, same⟩ := about_ report mem
    refine showing report (List.mem_filter.mpr ⟨here, decide_eq_true ?_⟩)
    exact (Prod.mk.inj same).1

omit [Decimal D] [LawfulDecimal D] in
theorem titled_utterable {reached : OrderId} {report : Report D}
    (titled : Titled s reached report.order) (own : report.order.sessionId = s) :
    Utterable report := by
  intro regular
  obtain ⟨named, -, unquoted⟩ := titled own regular
  exact ⟨named, unquoted⟩

/-- A step that answers nobody in particular is followed by listening to it. -/
theorem step_heard (c : Coherent policy e.view none) (hp : e.fillPolicy = policy)
    (step : Step e command e') (quiet : ¬ Prompts s command) {reached : OrderId}
    (titled : ∀ report ∈ newsFor s e e', Titled s reached report.order)
    {views : Views D} {id : OrderId} {opening opening' : Prop}
    (followable : Followable s id e command (views id))
    (agree : Agreeing (views id) (e.order s id) opening)
    (unopened : opening → e.order s id = none)
    (still : concerning (s, id) (newsFor s e e') = [] → opening → opening') :
    Agreeing (views.hearAll ((newsFor s e e').map spoken) id) (e'.order s id) opening' := by
  have said := newsFor_announced (s := s) c hp step
  rw [hearAll_unprompted (s := s) ?_ followable.regular]
  · exact step_follows c hp step followable agree
      (fun report mem => (unprompted_plain (said report mem).2 (said report mem).1 quiet).2)
      unopened still
  · intro report mem
    obtain ⟨own, announced⟩ := said report mem
    exact ⟨(unprompted_plain announced own quiet).1, titled_utterable (titled report mem) own, own⟩

omit [Decimal D] [LawfulDecimal D] in
theorem agreeing_gone {record : Option (Order D)} {opening : Prop}
    (ended : ∀ r, record = some r → ¬ r.state.isActive) :
    Agreeing (none : Option (OrderView D)) record opening :=
  ⟨fun r recorded active => absurd active (ended r recorded), fun v here => (by cases here)⟩

omit [Decimal D] [LawfulDecimal D] in
theorem agreeing_ended {view : Option (OrderView D)} {opening : Prop}
    (ended : ∀ v, view = some v → ¬ v.state.isActive) :
    Agreeing view (none : Option (Order D)) opening :=
  ⟨fun r recorded => (by cases recorded), fun v here active => absurd active (ended v here)⟩

omit [LawfulDecimal D] in
/-- How an answer to a request changes the views. -/
theorem hear_answer (report : Report D) (request original : OrderId)
    (named : clOrdIdOf report = request) (moved : origClOrdIdOf report = some original)
    (hrequest : Requestable request) (horiginal : Requestable original)
    (unquoted : Unquoted report.order.exchangeId) (views : Views D) :
    views.hear (spoken report) =
      views.tell (.report request (some original) (reported report)) := by
  unfold Views.hear
  rw [of_spoken (named ▸ hrequest) unquoted, named, moved]
  intro id same
  rw [moved] at same
  exact Option.some.inj same ▸ horiginal

omit [LawfulDecimal D] in
/-- The record of an order and what is known of it. -/
theorem titled_recorded {reached : OrderId} (c : Coherent policy e.view none)
    (known : ∀ o, e.view.Known o → Titled s reached o) {id : OrderId} {r : Order D}
    (recorded : e.order s id = some r) :
    r.identity = (s, id) ∧ Requestable id ∧ id ≤ reached ∧ Unquoted r.exchangeId := by
  obtain ⟨rfl, rfl, regular⟩ := c.keyed s id r recorded
  exact ⟨rfl, known r (.inl recorded) rfl regular⟩

omit [LawfulDecimal D] in
/-- A confirmed cancellation ends both the order and the view of the request. -/
theorem cancel_heard {reached : OrderId} (c : Coherent policy e.view none)
    (known : ∀ o, e.view.Known o → Titled s reached o) {origId clOrdId : OrderId}
    {entry : Order D} {book' : OrderBook D} {execId : String}
    (done : Engine.Cancelled e e' s origId clOrdId entry book' execId)
    (hrequest : Requestable clOrdId) (unknown : e.order s clOrdId = none)
    {views : Views D} {id : OrderId} {opening opening' : Prop}
    (agree : Agreeing (views id) (e.order s id) opening)
    (still : id ≠ clOrdId → opening → opening') :
    Agreeing (views.hearAll ((newsFor s e e').map spoken) id) (e'.order s id) opening' := by
  obtain ⟨identity, horiginal, -, unquoted⟩ := titled_recorded c known done.recorded
  have owner : entry.sessionId = s := (Prod.mk.inj identity).1
  have apart : clOrdId ≠ origId := by
    rintro rfl
    rw [done.recorded] at unknown
    cases unknown
  have record : e'.order s id = if id = origId then some { entry with state := .cancelled }
      else e.order s id := by
    refine (congrFun (congrFun (congrArg View.record done.effect.view) s) id).trans ?_
    unfold View.setRecord
    dsimp only
    refine if_congr ?_ rfl rfl
    exact ⟨fun h => h.2, fun h => ⟨rfl, h⟩⟩
  rw [newsFor_cons done.effect.sent owner, List.filter_nil]
  change Agreeing (views.hear (spoken _) id) _ _
  rw [hear_answer (.status { entry with state := .cancelled } (e.symbolFor entry.instrumentId)
    clOrdId execId .cancelled (some origId)) clOrdId origId rfl rfl hrequest horiginal unquoted,
    record]
  unfold Views.tell
  dsimp only
  by_cases target : id = origId
  · rw [if_pos ⟨congrArg some target.symm, target ▸ Ne.symm apart⟩, if_pos target]
    refine agreeing_gone fun r same active => ?_
    rw [← Option.some.inj same] at active
    cases active
  · rw [if_neg fun h => target (Option.some.inj h.1).symm, if_neg target]
    by_cases asked : id = clOrdId
    · rw [if_pos asked, asked, unknown]
      refine agreeing_ended fun v same active => ?_
      obtain ⟨record, -, rfl⟩ := Option.map_eq_some_iff.mp same
      cases active
    · rw [if_neg asked]
      refine ⟨agree.shown, fun v here active => ?_⟩
      exact (agree.backed v here active).imp_right (still asked)

omit [LawfulDecimal D] in
theorem replaced_showing {order : Order D} {origId : OrderId} {execId : String}
    (shown : order.cumQuantity = 0 → order.state.isActive) :
    Showing (e.replacedReport order origId execId) := by
  unfold Showing shownState
  split
  · rename_i fresh
    exact (shown fresh.2).symm
  · split
    · rename_i new
      rw [new]
      rfl
    · rfl

omit [LawfulDecimal D] in
/-- A confirmation closes the view of the original; the other views follow it. -/
theorem tell_replaced {origId newId : OrderId} {order : Order D} {execId : String}
    (moved : origId ≠ newId) (identity : order.identity = (s, newId)) {views : Views D}
    (viewed : (views newId).isSome) (id : OrderId) (fills : List (Report D)) :
    ((views.tell (.report newId (some origId) (reported (e.replacedReport order origId execId)))
        id).map fun v => v.followed (concerning (s, id) fills)) =
      if id = origId then none
      else (views id).map fun v =>
        v.followed (concerning (s, id) (e.replacedReport order origId execId :: fills)) := by
  unfold Views.tell
  dsimp only
  by_cases target : id = origId
  · rw [if_pos ⟨congrArg some target.symm, target ▸ moved⟩, if_pos target]
    rfl
  · rw [if_neg fun h => target (Option.some.inj h.1).symm, if_neg target]
    by_cases asked : id = newId
    · obtain ⟨v, here⟩ := Option.isSome_iff_exists.mp viewed
      have about_ : (e.replacedReport order origId execId).order.identity = (s, newId) := identity
      rw [if_pos asked, asked, here]
      simp [concerning, about_, OrderView.followed]
    · have about_ : (e.replacedReport order origId execId).order.identity ≠ (s, id) :=
        fun same => asked (Prod.mk.inj (identity.symm.trans same)).2.symm
      rw [if_neg asked]
      simp [concerning, about_]

omit [LawfulDecimal D] in
theorem modify_fresh {today : Int} {origId newId : OrderId} {orderType : OrderType}
    {price quantity : D} {o : Order D} (fresh : Engine.Fresh e
      (.modifyOrderWithType today s origId newId orderType price quantity) o) : o.id = newId := by
  cases fresh with
  | request asked => cases asked
  | replacement asked => cases asked; rfl
  | leg asked => cases asked

omit [LawfulDecimal D] in
/-- Every order but the original is followed through a replacement. -/
theorem modify_followable {today : Int} {origId newId id : OrderId} {price quantity : D}
    (unknown : e.order s newId = none) {views : Views D} (viewed : (views newId).isSome)
    (regular : id ≠ quoteOrderId) (other : id ≠ origId) :
    Followable s id e (.modifyOrderWithType today s origId newId .limit price quantity)
      (views id) := by
  have here : ∀ o, Engine.Fresh e
      (.modifyOrderWithType today s origId newId .limit price quantity) o →
      o.identity = (s, id) → id = newId :=
    fun o fresh same => (Prod.mk.inj same).2.symm.trans (modify_fresh fresh)
  refine ⟨regular, ?_, fun taken => other taken.2, ?_, ?_⟩
  · intro _ _ _ _ _ same
    cases same
  · exact fun o fresh same => here o fresh same ▸ unknown
  · exact fun o fresh same => here o fresh same ▸ viewed

/-- A confirmed replacement moves the view with the order. -/
theorem modify_heard {reached : OrderId} (c : Coherent policy e.view none)
    (hp : e.fillPolicy = policy) (known : ∀ o, e.view.Known o → Titled s reached o)
    {today : Int} {origId newId : OrderId} {price quantity : D} {order : Order D} {execId : String}
    {fills : List (Report D)}
    (returns : e.modifyOrderWithType today s origId newId .limit price quantity =
      .ok (.ok (), e'))
    (sent : e'.sent = e.sent ++ e.replacedReport order origId execId :: fills)
    (identity : order.identity = (s, newId)) (recorded : (e.order s origId).isSome)
    (filled : ∀ report ∈ fills, Engine.Filled e report)
    (hrequest : Requestable newId) (later : reached ≤ newId) (unknown : e.order s newId = none)
    {views : Views D} (viewed : (views newId).isSome) {id : OrderId} (regular : id ≠ quoteOrderId)
    {opening opening' : Prop} (agree : Agreeing (views id) (e.order s id) opening)
    (unopened : opening → e.order s id = none)
    (still : id ≠ newId → opening → opening') :
    Agreeing (views.hearAll ((newsFor s e e').map spoken) id) (e'.order s id) opening' := by
  obtain ⟨r, original⟩ := Option.isSome_iff_exists.mp recorded
  obtain ⟨-, horiginal, -, -⟩ := titled_recorded c known original
  have moved : origId ≠ newId := by
    rintro rfl
    rw [original] at unknown
    cases unknown
  obtain ⟨owner, number⟩ : order.sessionId = s ∧ order.id = newId := Prod.mk.inj identity
  have step : Step e (.modifyOrderWithType today s origId newId .limit price quantity) e' :=
    .modifyOrderWithType _ _ _ _ _ _ _ _ _ _ returns
  have titled := (step_titled c hp later known (fun o fresh _ _ => by
    rw [modify_fresh fresh]
    exact ⟨hrequest, le_rfl⟩) step).2
  have heard := newsFor_cons sent owner
  rw [heard] at titled
  obtain ⟨first, rest⟩ := List.forall_mem_cons.mp titled
  have unquoted := (first owner (number ▸ hrequest.1.ne')).2.2
  have fillsPlain : ∀ report ∈ fills.filter (fun report => report.order.sessionId = s),
      Unprompted report ∧ Utterable report ∧ report.order.sessionId = s := by
    intro report mem
    have own : report.order.sessionId = s := of_decide_eq_true (List.mem_filter.mp mem).2
    exact ⟨filled_plain (filled report (List.mem_of_mem_filter mem)),
      titled_utterable (rest report mem) own, own⟩
  have named : clOrdIdOf (e.replacedReport order origId execId) = newId := number
  rw [heard, List.map_cons]
  change Agreeing ((views.hear (spoken _)).hearAll _ id) _ _
  rw [hear_answer _ newId origId named rfl hrequest horiginal unquoted,
    hearAll_unprompted fillsPlain regular, tell_replaced moved identity viewed, ← heard]
  by_cases target : id = origId
  · rw [if_pos target, target, Engine.modify_vacates c hp moved returns]
    exact agreeing_ended fun v same => by cases same
  · rw [if_neg target]
    refine step_follows c hp step (modify_followable unknown viewed regular target) agree ?_
      unopened ?_
    · rw [heard]
      refine List.forall_mem_cons.mpr ⟨?_, ?_⟩
      · exact replaced_showing (Engine.modify_shown c hp returns sent)
      · exact fun report mem => filled_showing (filled report (List.mem_of_mem_filter mem))
    · intro silent
      refine still ?_
      rintro rfl
      rw [heard, concerning, List.filter_cons_of_pos] at silent
      · cases silent
      · exact decide_eq_true identity

end Lawful

section

variable {id n original : OrderId} {views : Views D} {opening opening' : Prop}

theorem of_rejected {symbol : String} {side : Side} {price quantity : D}
    (requestable : Requestable n) :
    Answer.of (.executionReport (rejectedData (toString n) symbol side price quantity)) =
      some (.report n none (rejectedData (toString n) symbol side price quantity)) := by
  have regular : (rejectedData (toString n) symbol side price quantity).isQuote = false := by
    unfold ExecReportData.isQuote rejectedData
    dsimp only
    rw [decide_eq_false (number_ne_empty n)]
    decide
  unfold Answer.of
  dsimp only
  rw [regular]
  unfold rejectedData
  dsimp only
  rw [parseI32_number requestable.1 requestable.2]
  rfl

/-- A rejected order ends its view. -/
theorem rejectedOrder_heard {symbol : String} {side : Side} {price quantity : D}
    (requestable : Requestable n) (unknown : e.order s n = none)
    (agree : Agreeing (views id) (e.order s id) opening) (still : id ≠ n → opening → opening') :
    Agreeing (views.hear (.executionReport
      (rejectedData (toString n) symbol side price quantity)) id) (e.order s id) opening' := by
  unfold Views.hear
  rw [of_rejected requestable]
  unfold Views.tell
  dsimp only
  rw [if_neg fun h => nomatch h.1]
  by_cases here : id = n
  · rw [if_pos here, here, unknown]
    refine agreeing_ended fun v same active => ?_
    obtain ⟨record, -, rfl⟩ := Option.map_eq_some_iff.mp same
    cases active
  · rw [if_neg here]
    exact ⟨agree.shown, fun v known active =>
      (agree.backed v known active).imp_right (still here)⟩

omit [Decimal D] in
theorem namedState_active (o : Order D) :
    (namedState (some o)).isActive = o.state.isActive := by
  unfold namedState
  rw [Option.map_some, Option.getD_some]
  split
  · rename_i new
    rw [new]
    rfl
  · rfl

/-- A refused cancellation or replacement ends the view of the request, and shows the
state of the order it was about. -/
theorem cancelReject_heard (reason : String) (requestable : Requestable n)
    (target : Requestable original) (unknown : e.order s n = none)
    (agree : Agreeing (views id) (e.order s id) opening) (still : id ≠ n → opening → opening') :
    Agreeing (views.hear (.cancelReject (toString n) (toString original)
      (namedState (e.order s original)) reason) id) (e.order s id) opening' := by
  have answer : Answer.of (.cancelReject (toString n) (toString original)
      (namedState (e.order s original)) reason : Inbound D) =
      some (.reject (some n) (some original) (namedState (e.order s original))) := by
    unfold Answer.of
    dsimp only
    rw [parseI32_number requestable.1 requestable.2, parseI32_number target.1 target.2]
  unfold Views.hear
  rw [answer]
  unfold Views.tell
  dsimp only
  by_cases here : id = n
  · rw [if_pos (congrArg some here.symm), here, unknown]
    exact agreeing_gone fun r recorded => (by cases recorded)
  rw [if_neg fun h => here (Option.some.inj h).symm]
  by_cases about_ : id = original
  · rw [if_pos (congrArg some about_.symm), ← about_]
    cases recorded : e.order s id with
    | none =>
      refine agreeing_ended fun v same active => ?_
      obtain ⟨old, -, rfl⟩ := Option.map_eq_some_iff.mp same
      cases active
    | some o =>
      rw [recorded] at agree
      constructor
      · intro r same active
        obtain rfl := Option.some.inj same
        obtain ⟨v, known, mirrors⟩ := agree.shown o rfl active
        rw [known]
        exact ⟨_, rfl, (namedState_active o).trans active, mirrors.quantity, mirrors.remaining,
          mirrors.price⟩
      · intro v same active
        obtain ⟨old, known, rfl⟩ := Option.map_eq_some_iff.mp same
        exact .inl ⟨o, rfl, (namedState_active o).symm.trans active⟩
  · rw [if_neg fun h => about_ (Option.some.inj h).symm]
    exact ⟨agree.shown, fun v known active =>
      (agree.backed v known active).imp_right (still here)⟩

end

end RustTrader.Fix
