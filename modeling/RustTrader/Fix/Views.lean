import RustTrader.Tidings
import RustTrader.Fix.Dialogue
import RustTrader.Fix.Initiator
import RustTrader.Fix.Reports

/-!
# What a client makes of the answers

The views of a client as a function of the identifiers, and what an answer changes in
it. Reports that answer no request in particular only rewrite the view of their order,
so that a view that followed them all shows what the last one showed.
-/

namespace RustTrader.Fix

variable {D : Type} [Decimal D]

abbrev Views (D : Type) := OrderId → Option (OrderView D)

/-- What a message says about orders. -/
inductive Answer (D : Type) where
  | report (id : OrderId) (original : Option OrderId) (data : ExecReportData D)
  | reject (id original : Option OrderId) (state : OrderState)

namespace Answer

def of : Inbound D → Option (Answer D)
  | .executionReport data =>
    if data.isQuote then none
    else (parseI32 data.clOrdId).map fun id => .report id (data.origClOrdId.bind parseI32) data
  | .cancelReject clOrdId origClOrdId state _ =>
    some (.reject (parseI32 clOrdId) (parseI32 origClOrdId) state)
  | _ => none

/-- The orders an answer names. -/
def names : Answer D → List OrderId
  | .report id original _ => id :: original.toList
  | .reject id original _ => id.toList ++ original.toList

end Answer

namespace Views

/-- What an answer changes. -/
def tell (views : Views D) : Answer D → Views D
  | .report id original data => fun k =>
    if original = some k ∧ k ≠ id then none
    else if k = id then
      ((views id).or ((original.bind views).map fun old => { old with id := id })).map
        fun record => record.updated data
    else views k
  | .reject id original state => fun k =>
    if id = some k then none
    else if original = some k then (views k).map fun o => { o with state := state }
    else views k

def hear (views : Views D) (message : Inbound D) : Views D :=
  match Answer.of message with
  | some answer => views.tell answer
  | none => views

def hearAll (views : Views D) (messages : List (Inbound D)) : Views D := messages.foldl hear views

end Views

omit [Decimal D] in
theorem forget_get (orders : OrderViews D) (id : Option OrderId) (k : OrderId) :
    HashMap.get? (orders.forget id) k = if id = some k then none else HashMap.get? orders k := by
  cases id with
  | none => rfl
  | some id =>
    refine (HashMap.get?_remove _ _ _).trans ?_
    by_cases here : k = id
    · rw [if_pos here, if_pos (here ▸ rfl)]
    · rw [if_neg here, if_neg fun same => here (Option.some.inj same).symm]

omit [Decimal D] in
theorem adopt_get (orders : OrderViews D) (id : OrderId) (original : Option OrderId)
    (k : OrderId) : HashMap.get? (orders.adopt id original) k =
      if k = id then (HashMap.get? orders id).or
        ((original.bind (HashMap.get? orders)).map fun old => { old with id := id })
      else HashMap.get? orders k := by
  unfold OrderViews.adopt HashMap.contains
  cases known : HashMap.get? orders id with
  | some record =>
    rw [Option.isSome_some, if_pos rfl]
    split
    · rename_i same
      rw [same, known]
      rfl
    · rfl
  | none =>
    rw [Option.isSome_none, if_neg Bool.false_ne_true]
    cases original.bind (HashMap.get? orders) with
    | none =>
      dsimp only
      split
      · rename_i same
        rw [same, known]
        rfl
      · rfl
    | some old => exact HashMap.get?_set _ _ _ _

omit [Decimal D] in
theorem report_get (orders : OrderViews D) (id : OrderId) (original : Option OrderId)
    (data : ExecReportData D) : HashMap.get? (orders.report id original data).1 =
      Views.tell (HashMap.get? orders) (.report id original data) := by
  funext k
  unfold OrderViews.report Views.tell
  have adopted := adopt_get orders id original
  generalize orders.adopt id original = after at adopted ⊢
  have gone : (original.filter fun n => n ≠ id) = some k ↔ original = some k ∧ k ≠ id := by
    rw [Option.filter_eq_some_iff, decide_eq_true_iff]
  dsimp only
  rw [forget_get]
  refine if_congr gone rfl ?_
  cases known : HashMap.get? after id with
  | none =>
    have self := adopted id
    rw [if_pos rfl, known] at self
    dsimp only [Option.map_none]
    rw [adopted, ← self]
    rfl
  | some record =>
    have self := adopted id
    rw [if_pos rfl, known] at self
    refine (HashMap.get?_set _ _ _ _).trans ?_
    rw [← self]
    split
    · rfl
    · rename_i other
      rw [adopted, if_neg other]

omit [Decimal D] in
theorem reject_get (orders : OrderViews D) (id original : Option OrderId) (state : OrderState) :
    HashMap.get? (orders.reject id original state).1 =
      Views.tell (HashMap.get? orders) (.reject id original state) := by
  funext k
  unfold OrderViews.reject Views.tell
  have forgotten := forget_get orders id
  generalize orders.forget id = after at forgotten ⊢
  dsimp only
  have left : (if id = some k then none else if original = some k then
      (HashMap.get? orders k).map fun o => { o with state := state } else HashMap.get? orders k) =
      if original = some k then (HashMap.get? after k).map fun o => { o with state := state }
      else HashMap.get? after k := by
    rw [forgotten]
    split
    · split <;> rfl
    · rfl
  rw [left]
  cases original with
  | none => rfl
  | some n =>
    rw [Option.bind_some]
    cases known : HashMap.get? after n with
    | none =>
      dsimp only [Option.map_none]
      split
      · rename_i same
        cases same
        rw [known]
        rfl
      · rfl
    | some o =>
      refine (HashMap.get?_set _ _ _ _).trans ?_
      by_cases here : k = n
      · subst here
        rw [if_pos rfl, if_pos rfl, known]
        rfl
      · rw [if_neg here, if_neg fun same => here (Option.some.inj same).symm]

namespace Initiator

omit [Decimal D] in
/-- Receiving a message changes the views as the answer in it says. -/
theorem receive_view (c : Initiator D) (message : Inbound D) :
    (c.receive message).1.view = Views.hear c.view message := by
  unfold Views.hear
  cases message with
  | executionReport data =>
    unfold receive handleExecutionReport Answer.of view
    dsimp only
    split
    · rfl
    · cases parseI32 data.clOrdId with
      | none => rfl
      | some id => exact report_get ..
  | cancelReject clOrdId origClOrdId state reason => exact reject_get ..
  | _ => rfl

omit [Decimal D] in
theorem receive_nextOrder (c : Initiator D) (message : Inbound D) :
    (c.receive message).1.nextOrder = c.nextOrder ∧
      (c.receive message).1.loggedIn = c.loggedIn := by
  cases message <;> exact ⟨rfl, rfl⟩

end Initiator

/-- A message that says nothing about an order. -/
def Silent (id : OrderId) (message : Inbound D) : Prop :=
  ∀ answer, Answer.of message = some answer → id ∉ answer.names

namespace Views

variable {views views' : Views D} {id : OrderId}

omit [Decimal D] in
theorem tell_other {answer : Answer D} (apart : id ∉ answer.names) :
    views.tell answer id = views id := by
  cases answer with
  | report request original data =>
    simp only [Answer.names, List.mem_cons, Option.mem_toList, not_or] at apart
    unfold tell
    dsimp only
    rw [if_neg fun gone => apart.2 gone.1, if_neg apart.1]
  | reject request original state =>
    simp only [Answer.names, List.mem_append, Option.mem_toList, not_or] at apart
    unfold tell
    dsimp only
    rw [if_neg apart.1, if_neg apart.2]

omit [Decimal D] in
theorem tell_congr (agree : ∀ k, k ≠ id → views k = views' k) {answer : Answer D}
    (apart : id ∉ answer.names) : ∀ k, k ≠ id → views.tell answer k = views'.tell answer k := by
  intro k other
  cases answer with
  | report request original data =>
    simp only [Answer.names, List.mem_cons, Option.mem_toList, not_or] at apart
    have taken : original.bind views = original.bind views' := by
      cases original with
      | none => rfl
      | some n => exact agree n fun same => apart.2 (same ▸ rfl)
    unfold tell
    dsimp only
    rw [agree k other, agree request (Ne.symm apart.1), taken]
  | reject request original state =>
    unfold tell
    dsimp only
    rw [agree k other]

omit [Decimal D] in
theorem hear_other {message : Inbound D} (silent : Silent id message) :
    views.hear message id = views id := by
  unfold hear
  cases said : Answer.of message with
  | some answer => exact tell_other (silent answer said)
  | none => rfl

omit [Decimal D] in
theorem hear_congr (agree : ∀ k, k ≠ id → views k = views' k) {message : Inbound D}
    (silent : Silent id message) : ∀ k, k ≠ id → views.hear message k = views'.hear message k := by
  unfold hear
  cases said : Answer.of message with
  | some answer => exact tell_congr agree (silent answer said)
  | none => exact agree

omit [Decimal D] in
theorem hearAll_other {messages : List (Inbound D)}
    (silent : ∀ message ∈ messages, Silent id message) :
    views.hearAll messages id = views id := by
  induction messages generalizing views with
  | nil => rfl
  | cons message messages ih =>
    obtain ⟨first, rest⟩ := List.forall_mem_cons.mp silent
    exact (ih rest).trans (hear_other first)

omit [Decimal D] in
/-- Views that differ in an order no message names differ in it alone afterwards. -/
theorem hearAll_congr {messages : List (Inbound D)}
    (silent : ∀ message ∈ messages, Silent id message)
    (agree : ∀ k, k ≠ id → views k = views' k) :
    ∀ k, k ≠ id → views.hearAll messages k = views'.hearAll messages k := by
  induction messages generalizing views views' with
  | nil => exact agree
  | cons message messages ih =>
    obtain ⟨first, rest⟩ := List.forall_mem_cons.mp silent
    exact ih rest (hear_congr agree first)

end Views

theorem parseI32_number {id : OrderId} (positive : 0 < id) (bound : id ≤ WireIdMap.i32Max) :
    parseI32 (toString id) = some id := by
  obtain ⟨n, rfl⟩ := Int.eq_ofNat_of_zero_le positive.le
  have limit : (n : Int) ≤ 2 ^ 31 - 1 := bound
  have small : n < 2 ^ 31 := by omega
  exact Numeral.parseSigned_repr small

/-- An identifier that a client can have asked under. -/
def Requestable (id : OrderId) : Prop := 0 < id ∧ id ≤ WireIdMap.i32Max

/-- An exchange identifier that does not pass for that of a quote. -/
def Unquoted (exchangeId : String) : Prop :=
  "quote.".toList.isPrefixOf exchangeId.toList = false

/-- How a report reaches the client. -/
def spoken (report : Report D) : Inbound D := .executionReport (reported report)

theorem number_ne_empty (id : OrderId) : toString id ≠ "" := by
  intro empty
  have parsed : (toString id).toList = [] := by rw [empty]; rfl
  cases id with
  | ofNat n => exact Numeral.repr_toList_ne_nil n parsed
  | negSucc n => simp [toString, Int.repr, String.toList_append] at parsed

theorem of_spoken {report : Report D} (named : Requestable (clOrdIdOf report))
    (unquoted : Unquoted report.order.exchangeId)
    (original : ∀ id, origClOrdIdOf report = some id → Requestable id) :
    Answer.of (spoken report) =
      some (.report (clOrdIdOf report) (origClOrdIdOf report) (reported report)) := by
  have text : (reported report).clOrdId = toString (clOrdIdOf report) := if_neg named.1.ne'
  have regular : (reported report).isQuote = false := by
    unfold ExecReportData.isQuote
    rw [text, decide_eq_false (number_ne_empty _)]
    exact unquoted
  have parsed : (reported report).origClOrdId.bind parseI32 = origClOrdIdOf report := by
    change ((origClOrdIdOf report).map toString).bind parseI32 = _
    cases moved : origClOrdIdOf report with
    | none => rfl
    | some id => exact parseI32_number (original id moved).1 (original id moved).2
  unfold Answer.of spoken
  dsimp only
  rw [regular, text, parseI32_number named.1 named.2, parsed]
  rfl

theorem of_quote {report : Report D} (quoted : clOrdIdOf report = 0) :
    Answer.of (spoken report) = none := by
  have text : (reported report).clOrdId = "" := if_pos quoted
  unfold Answer.of spoken ExecReportData.isQuote
  simp [text]

/-- A report that can be told from one about a quote. -/
def Utterable (report : Report D) : Prop := report.order.id ≠ quoteOrderId →
  Requestable report.order.id ∧ Unquoted report.order.exchangeId

theorem hear_unprompted {report : Report D} (plain : Unprompted report)
    (utterable : Utterable report) {views : Views D} {id : OrderId} (regular : id ≠ quoteOrderId) :
    views.hear (spoken report) id = if id = report.order.id then
      (views id).map fun v => v.updated (reported report) else views id := by
  unfold Views.hear
  by_cases quoted : report.order.id = quoteOrderId
  · rw [of_quote (plain.own.trans quoted), if_neg fun same => regular (same.trans quoted)]
  · obtain ⟨named, unquoted⟩ := utterable quoted
    rw [of_spoken (plain.own ▸ named) unquoted (by rw [plain.alone]; exact nofun)]
    unfold Views.tell
    rw [plain.own, plain.alone]
    dsimp only
    rw [if_neg (by simp)]
    split
    · rename_i same
      rw [same, Option.bind_none, Option.map_none, Option.or_none]
    · rfl

/-- Views of an order rewritten by the reports about it. -/
def OrderView.followed (view : OrderView D) (reports : List (Report D)) : OrderView D :=
  reports.foldl (fun v report => v.updated (reported report)) view

/-- The reports about an order. -/
def concerning (identity : String × OrderId) (reports : List (Report D)) : List (Report D) :=
  reports.filter fun report => report.order.identity = identity

omit [Decimal D] in
theorem concerning_orders (identity : String × OrderId) (reports : List (Report D)) :
    (concerning identity reports).map Report.order = about identity reports := by
  unfold concerning about
  rw [List.filter_map]
  rfl

theorem hearAll_unprompted {s : String} {reports : List (Report D)}
    (plain : ∀ report ∈ reports, Unprompted report ∧ Utterable report ∧ report.order.sessionId = s)
    {views : Views D} {id : OrderId} (regular : id ≠ quoteOrderId) :
    views.hearAll (reports.map spoken) id =
      (views id).map fun v => v.followed (concerning (s, id) reports) := by
  induction reports generalizing views with
  | nil => simp [Views.hearAll, concerning, OrderView.followed]
  | cons report reports ih =>
    obtain ⟨⟨own, utterable, session⟩, rest⟩ := List.forall_mem_cons.mp plain
    refine (ih rest).trans ?_
    rw [hear_unprompted own utterable regular]
    by_cases same : id = report.order.id
    · have here : report.order.identity = (s, id) := Prod.ext session same.symm
      rw [if_pos same, Option.map_map]
      simp [concerning, here, OrderView.followed, Function.comp_def]
    · have elsewhere : report.order.identity ≠ (s, id) := fun h => same (Prod.mk.inj h).2.symm
      rw [if_neg same]
      simp [concerning, elsewhere]

/-- What a view of an active order should show. -/
structure OrderView.Mirrors (view : OrderView D) (record : Order D) : Prop where
  active : view.state.isActive
  quantity : view.quantity = record.quantity
  remaining : view.remaining = record.remaining
  price : record.orderType = .limit → view.price = record.price

/-- The view of an order agrees with its record: an active record has a view that mirrors
it, and an active view belongs to an active record or to an order that is still to be
opened. -/
structure Agreeing (view : Option (OrderView D)) (record : Option (Order D)) (opening : Prop) :
    Prop where
  shown : ∀ r, record = some r → r.state.isActive → ∃ v, view = some v ∧ v.Mirrors r
  backed : ∀ v, view = some v → v.state.isActive →
    (∃ r, record = some r ∧ r.state.isActive) ∨ opening

/-- The last report a view followed is what it shows. -/
theorem followed_last (view : OrderView D) (early : List (Report D)) (last : Report D) :
    view.followed (early ++ [last]) = (view.followed early).updated (reported last) := by
  unfold OrderView.followed
  rw [List.foldl_append]
  rfl

theorem mirrors_reported {view : OrderView D} {last : Report D} {r : Order D}
    (alike : Alike last.order r) (terms : last.order.terms = r.terms)
    (shown : (shownState last).isActive = last.order.state.isActive) (active : r.state.isActive) :
    (view.updated (reported last)).Mirrors r := by
  obtain ⟨quantity, price, kind⟩ : last.order.quantity = r.quantity ∧
      last.order.price = r.price ∧ last.order.orderType = r.orderType := by
    simpa [Order.terms] using terms
  refine ⟨shown.trans (alike.active.trans active), quantity, ?_, ?_⟩
  · refine (alike.leaves : last.order.leaves = r.leaves).trans ?_
    rw [Order.leaves, if_pos active]
  · intro limit
    exact (if_pos (kind.trans limit)).trans price

theorem OrderView.Mirrors.alike {view : OrderView D} {r r' : Order D} (h : view.Mirrors r)
    (alike : Alike r r') (terms : r.terms = r'.terms) (active : r'.state.isActive) :
    view.Mirrors r' := by
  obtain ⟨quantity, price, kind⟩ : r.quantity = r'.quantity ∧ r.price = r'.price ∧
      r.orderType = r'.orderType := by
    simpa [Order.terms] using terms
  have before : r.state.isActive := alike.active.trans active
  have leaves := alike.leaves
  rw [Order.leaves, Order.leaves, if_pos before, if_pos active] at leaves
  exact ⟨h.active, h.quantity.trans quantity, h.remaining.trans leaves,
    fun limit => (h.price (kind.trans limit)).trans price⟩

/-- Agreement follows what is reported about an order. -/
theorem Agreeing.follow {view : Option (OrderView D)} {before after : Option (Order D)}
    {opening opening' : Prop} {reports : List (Report D)} (h : Agreeing view before opening)
    (follows : RustTrader.Follows before (reports.map Report.order) after)
    (kept : before.isSome → after.isSome) {terms : D × D × OrderType}
    (past : ∀ r, before = some r → r.terms = terms)
    (present : ∀ r, after = some r → r.terms = terms)
    (told : ∀ report ∈ reports, report.order.terms = terms)
    (entered : before = none → after.isSome → view.isSome) (unopened : opening → before = none)
    (still : after = none → opening → opening')
    (shown : ∀ report ∈ reports,
      (shownState report).isActive = report.order.state.isActive) :
    Agreeing (view.map fun v => v.followed reports) after opening' := by
  rcases List.eq_nil_or_concat reports with rfl | ⟨early, last, rfl⟩
  · have same : (view.map fun v => v.followed []) = view := by
      cases view <;> rfl
    rw [same]
    generalize none_said : ([] : List (Report D)).map Report.order = orders at follows
    cases follows with
    | told => simp at none_said
    | gone before =>
      have none_ : before = none := by
        by_contra some_
        cases kept (Option.isSome_iff_ne_none.mpr some_)
      subst none_
      refine ⟨fun r recorded => (by cases recorded), ?_⟩
      intro v here active
      rcases h.backed v here active with ⟨r, recorded, -⟩ | opening
      · cases recorded
      · exact .inr (still rfl opening)
    | @kept r r' alike =>
      constructor
      · intro r'' recorded active
        obtain rfl := Option.some.inj recorded
        obtain ⟨v, here, mirrors⟩ := h.shown r rfl (alike.active.trans active)
        exact ⟨v, here, mirrors.alike alike ((past r rfl).trans (present r' rfl).symm) active⟩
      · intro v here active
        rcases h.backed v here active with ⟨r'', recorded, open_⟩ | opening
        · obtain rfl := Option.some.inj recorded
          exact .inl ⟨r', rfl, alike.active.symm.trans open_⟩
        · cases unopened opening
  · rw [List.concat_eq_append] at follows told shown ⊢
    have mem : last ∈ early ++ [last] := List.mem_append_right _ (List.mem_singleton_self last)
    rw [List.map_append, List.map_singleton] at follows
    generalize all : early.map Report.order ++ [last.order] = orders at follows
    cases follows with
    | gone => simp at all
    | kept => simp at all
    | @told _ early' last' r open_ running alike =>
      obtain ⟨-, same⟩ := List.append_inj' all rfl
      obtain rfl : last.order = last' := by simpa using same
      have known : view.isSome := by
        cases recorded : before with
        | none => exact entered recorded rfl
        | some r0 =>
          obtain ⟨v, here, -⟩ := h.shown r0 recorded (open_ r0 recorded)
          rw [here]
          rfl
      obtain ⟨v, rfl⟩ := Option.isSome_iff_exists.mp known
      have agreed : last.order.terms = r.terms := (told last mem).trans (present r rfl).symm
      rw [Option.map_some, followed_last]
      constructor
      · intro r' recorded active
        obtain rfl := Option.some.inj recorded
        exact ⟨_, rfl, mirrors_reported alike agreed (shown last mem) active⟩
      · intro v' here active
        obtain rfl := Option.some.inj here
        exact .inl ⟨r, rfl, alike.active.symm.trans ((shown last mem).symm.trans active)⟩

end RustTrader.Fix
