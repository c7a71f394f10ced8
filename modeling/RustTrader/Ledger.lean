import RustTrader.Accounts

/-!
# The ledger of a run

Along a run every order carries the fills reported about it and about the
orders it replaced. Every command posts to the ledger what it reports, so the
executed quantity and value of a record are the sums over its chain.
-/

namespace RustTrader

open Decimal

namespace Engine

variable {D : Type} [Decimal D]

/-- The order that goes on under `id`: the one recorded there, otherwise the one
the command replaces. -/
def predecessor (e : Engine D) (command : Command D) (s : String) (id : OrderId) :
    Option OrderId :=
  if (e.order s id).isSome then some id
  else match command with
    | .modifyOrderWithType _ s' origId newId _ _ _ =>
      if s' = s ∧ newId = id ∧ (e.order s origId).isSome then some origId else none
    | _ => none

/-- What had been executed of the order that goes on under `id`. -/
def opening (e : Engine D) (command : Command D) (s : String) (id : OrderId) : Tally :=
  (((e.predecessor command s id).bind (e.order s)).map Order.tally).getD 0

theorem opening_recorded {e : Engine D} {s : String} {id : OrderId} {r : Order D}
    (h : e.order s id = some r) (command : Command D) : e.opening command s id = r.tally := by
  simp [opening, predecessor, h]

/-- What a command reports, posted to the books of the orders. -/
structure Accounts (e e' : Engine D) (command : Command D) (news : List (Report D)) : Prop where
  sent : e'.sent = e.sent ++ news
  told : ∀ report ∈ news, Balanced report.order
  accounted : e'.view.Accounted
  entries : ∀ s id r, e'.order s id = some r →
    r.tally = e.opening command s id + tallyOf (s, id) news

/-- The same for a change that brings no new order. -/
structure Posts (e e' : Engine D) (news : List (Report D)) : Prop where
  sent : e'.sent = e.sent ++ news
  told : ∀ report ∈ news, Balanced report.order
  accounted : e'.view.Accounted
  entries : ∀ s id r', e'.order s id = some r' → ∃ r, e.order s id = some r ∧
    r'.tally = r.tally + tallyOf (s, id) news

theorem Posts.accounts {e e' : Engine D} {news : List (Report D)} (h : Posts e e' news)
    (command : Command D) : Accounts e e' command news := by
  refine ⟨h.sent, h.told, h.accounted, ?_⟩
  intro s id r' hr'
  obtain ⟨r, hr, same⟩ := h.entries s id r' hr'
  rw [opening_recorded hr]
  exact same

theorem Posts.unchanged {e e' : Engine D} (accounted : e.view.Accounted) (view : e'.view = e.view)
    (sent : e'.sent = e.sent) : Posts e e' [] := by
  refine ⟨sent.trans (List.append_nil _).symm, by simp, view ▸ accounted, ?_⟩
  intro s id r' hr'
  have orders : e'.order = e.order := congrArg View.record view
  rw [orders] at hr'
  exact ⟨r', hr', by simp⟩

theorem Posts.trans {e e' e'' : Engine D} {m n : List (Report D)} (h : Posts e e' m)
    (h' : Posts e' e'' n) : Posts e e'' (m ++ n) := by
  refine ⟨by rw [h'.sent, h.sent, List.append_assoc], ?_, h'.accounted, ?_⟩
  · intro report hreport
    rcases List.mem_append.mp hreport with hm | hn
    · exact h.told report hm
    · exact h'.told report hn
  · intro s id r'' hr''
    obtain ⟨r', hr', last⟩ := h'.entries s id r'' hr''
    obtain ⟨r, hr, first⟩ := h.entries s id r' hr'
    exact ⟨r, hr, by rw [last, first, tallyOf_append, add_assoc]⟩

theorem FillNews.tally {e : Engine D} {trades : List (RawTrade D)} {fills : List (Report D)}
    (news : FillNews e (parties trades) fills) {s : String} (id : OrderId)
    (registered : e.Registered s) :
    tallyOf (s, id) fills = partyTally (s, id) (parties trades) := by
  have sums : ∀ {l : List (Order D × D × D)} {fills : List (Report D)},
      List.Forall₂ (fun p report => ∃ execId, report = Report.fill p.1
        (e.symbolFor p.1.instrumentId) p.2.1 p.2.2 execId none) l fills →
      tallyOf (s, id) fills = partyTally (s, id) l := by
    intro l fills h
    unfold tallyOf partyTally
    induction h with
    | nil => rfl
    | @cons p report l fills head _ ih =>
      obtain ⟨execId, rfl⟩ := head
      have here : decide ((Report.fill p.1 (e.symbolFor p.1.instrumentId) p.2.1 p.2.2 execId
          none).order.identity = (s, id)) = decide (p.1.identity = (s, id)) := rfl
      rw [List.filter_cons, List.filter_cons, here]
      split
      · rw [List.map_cons, List.map_cons, List.sum_cons, List.sum_cons, ih]
        rfl
      · exact ih
  rw [sums news]
  unfold partyTally
  rw [List.filter_filter]
  congr 2
  refine List.filter_congr ?_
  intro p _
  by_cases here : p.1.identity = (s, id)
  · have known : e.sessions.contains p.1.sessionId = true := by
      rw [(Prod.mk.inj here).1]
      exact registered_iff.mpr registered
    simp [here, known]
  · simp [here]

theorem Departed.posts {e e' : Engine D} {s : String} (accounted : e.view.Accounted)
    (done : Departed e e' s) : Posts e e' [] := by
  have kept : ∀ s' id r', e'.order s' id = some r' → e.order s' id = some r' := by
    intro s' id r' hr'
    rw [done.record] at hr'
    split at hr'
    · cases hr'
    · exact hr'
  refine ⟨done.sent.trans (List.append_nil _).symm, by simp, ⟨?_, ?_⟩, ?_⟩
  · intro i side o ho
    exact accounted.resting i side o (done.thinned i side o ho)
  · intro s' id r' hr'
    exact accounted.recorded s' id r' (kept s' id r' hr')
  · intro s' id r' hr'
    exact ⟨r', kept s' id r' hr', by simp⟩

/-- An order that leaves its book and is told so keeps what it has executed. -/
theorem posts_end {policy : FillPolicy} {e e' : Engine D} (c : Coherent policy e.view none)
    (accounted : e.view.Accounted) {s : String} {id : OrderId} {entry last : Order D}
    {book' : OrderBook D} (recorded : e.order s id = some entry)
    (left : OrderBook.Left Order.price (e.book entry.instrumentId) entry.side entry book')
    {symbol execId : String} {clOrdId : OrderId} {execType : ExecType} {orig : Option OrderId}
    (effect : Effect e e' ((e.view.setBook entry.instrumentId book').setRecord s id (some last))
      [.status last symbol clOrdId execId execType orig])
    (balanced : Balanced last) (same : last.tally = entry.tally) :
    Posts e e' [.status last symbol clOrdId execId execType orig] := by
  have orders : ∀ s' id' r', e'.order s' id' = some r' →
      (s' = s ∧ id' = id) ∧ r' = last ∨ e.order s' id' = some r' := by
    intro s' id' r' hr'
    have h : e'.order = ((e.view.setBook entry.instrumentId book').setRecord s id
        (some last)).record := congrArg View.record effect.view
    rw [h] at hr'
    simp only [View.setRecord] at hr'
    split at hr'
    next self => exact Or.inl ⟨self, (Option.some.inj hr').symm⟩
    next => exact Or.inr hr'
  refine ⟨effect.sent, ?_, ⟨?_, ?_⟩, ?_⟩
  · intro report hreport
    obtain rfl := List.mem_singleton.mp hreport
    exact balanced
  · intro i side o ho
    rw [effect.view] at ho
    exact accounted.resting i side o ((c.mem_leave left).mp ho).1
  · intro s' id' r' hr'
    rcases orders s' id' r' hr' with ⟨-, rfl⟩ | before
    · exact balanced
    · exact accounted.recorded s' id' r' before
  · intro s' id' r' hr'
    rw [tallyOf_status, tallyOf_nil]
    rcases orders s' id' r' hr' with ⟨⟨rfl, rfl⟩, rfl⟩ | before
    · exact ⟨entry, recorded, by rw [same, add_zero]⟩
    · exact ⟨r', before, (add_zero _).symm⟩

theorem Cancelled.posts {policy : FillPolicy} {e e' : Engine D} (c : Coherent policy e.view none)
    (accounted : e.view.Accounted) {s : String} {origId clOrdId : OrderId} {entry : Order D}
    {book' : OrderBook D} {execId : String}
    (done : Cancelled e e' s origId clOrdId entry book' execId) : ∃ news, Posts e e' news := by
  have balanced := accounted.recorded s origId entry done.recorded
  exact ⟨_, posts_end c accounted done.recorded done.left done.effect
    (balanced.restated (alive_of_active done.active) rfl rfl rfl) rfl⟩

theorem Expired.posts [LawfulDecimal D] {policy : FillPolicy} {e e' : Engine D}
    (c : Coherent policy e.view none) (accounted : e.view.Accounted) {s : String} {id : OrderId}
    {entry : Order D} {book' : OrderBook D} {execId : String}
    (done : Expired e e' s id entry book' execId) : ∃ news, Posts e e' news := by
  have balanced := accounted.recorded s id entry done.recorded
  have last : Balanced (lapsed entry) :=
    ⟨balanced.executed, le_rfl, balanced.covered, fun alive => absurd rfl alive⟩
  exact ⟨_, posts_end c accounted done.recorded done.left done.effect last rfl⟩

theorem expire_posts [LawfulDecimal D] {policy : FillPolicy} {e e' : Engine D}
    (c : Coherent policy e.view none) (accounted : e.view.Accounted)
    {keys : List (String × OrderId)} (h : e.expireDayOrdersAt keys = .ok e') :
    ∃ news, Posts e e' news := by
  let R : Engine D → Engine D → Prop := fun e e' => e.view.Accounted → ∃ news, Posts e e' news
  suffices run : R e e' ∧ Coherent policy e'.view none from run.1 accounted
  refine expire_run (fun e accounted => ⟨[], .unchanged accounted rfl rfl⟩) ?_ ?_ ?_ keys c h
  · intro e e' e'' first second accounted
    obtain ⟨m, posts⟩ := first accounted
    obtain ⟨n, posts'⟩ := second posts.accounted
    exact ⟨m ++ n, posts.trans posts'⟩
  · intro e e' effect accounted
    exact ⟨[], .unchanged accounted effect.view (effect.sent.trans (List.append_nil _))⟩
  · intro e e' s id entry book' execId c done accounted
    exact done.posts c accounted

section Exact

variable [ExactDecimal D]

/-- An order under an identifier of its own that is matched. -/
theorem added_entries {e e' : Engine D} {v : View D} {gap : Gap} {order left final : Order D}
    {trades : List (RawTrade D)} {book' : OrderBook D} {fills : List (Report D)}
    (a : Coherent.Added v gap order trades left final book') (accounted : v.Accounted)
    (balanced : Balanced order) (alive : order.state ≠ .expired)
    (regular : order.id ≠ quoteOrderId) (filled : FillNews e (parties trades) fills)
    (registered : ∀ s id r, v.record s id = some r → e.Registered s)
    (home : e.Registered order.sessionId)
    (orders : e'.order = (v.added order trades final book').record) :
    ∀ s id r', e'.order s id = some r' →
      (s, id) = order.identity ∧ r'.tally = order.tally + tallyOf (s, id) fills ∨
      (s, id) ≠ order.identity ∧ ∃ r, v.record s id = some r ∧
        r'.tally = r.tally + tallyOf (s, id) fills := by
  intro s id r' hr'
  rw [orders] at hr'
  by_cases self : (s, id) = order.identity
  · left
    obtain ⟨rfl, rfl⟩ := Prod.mk.inj self
    rw [a.record_self regular] at hr'
    obtain rfl := Option.some.inj hr'
    refine ⟨rfl, ?_⟩
    rw [filled.tally order.id home]
    exact (a.executes_self balanced alive regular).tally
  · right
    refine ⟨self, ?_⟩
    cases hr : v.record s id with
    | none =>
      rw [a.record_other self, afterTrades_none trades hr] at hr'
      cases hr'
    | some r =>
      have regular' := (a.coherent.keyed s id r hr).2.2
      obtain ⟨r'', hr'', -, executes⟩ :=
        a.executes_other accounted balanced alive regular' self hr
      obtain rfl := Option.some.inj (hr'.symm.trans hr'')
      refine ⟨r, rfl, ?_⟩
      rw [filled.tally id (registered s id r hr)]
      exact executes.tally

omit [ExactDecimal D] in
theorem closing_tally (e : Engine D) (trades : List (RawTrade D)) (orderType : OrderType)
    (final : Order D) (execId : String) (identity : String × OrderId) :
    tallyOf identity (closing e trades orderType final execId) = 0 := by
  unfold closing
  split
  · rw [tallyOf_status, tallyOf_nil]
  · exact tallyOf_nil _

theorem balanced_incoming {e : Engine D} {s : String} {new : NewOrder D}
    (positive : 0 < new.quantity) : Balanced (e.incoming s new) := by
  rw [incoming_eq]
  exact balanced_fresh rfl rfl positive

theorem tally_incoming (e : Engine D) (s : String) (new : NewOrder D) :
    (e.incoming s new).tally = 0 := by
  rw [incoming_eq]
  simp [Order.tally, LawfulDecimal.val_zero]

theorem CreatedReal.accounts {e e' : Engine D} {today : Int} {s : String} {new : NewOrder D}
    {trades : List (RawTrade D)} {left final : Order D} {book' : OrderBook D}
    {fills : List (Report D)} {execId : String} (accounted : e.view.Accounted)
    (done : CreatedReal e e' s new trades left final book' fills execId) :
    Accounts e e' (.createOrder today s new)
      (fills ++ closing e trades new.orderType final execId) := by
  have a := done.added
  have balanced : Balanced (e.incoming s new) := balanced_incoming done.valid.positive
  have alive : (e.incoming s new).state ≠ .expired := by
    rw [incoming_eq]
    exact fun same => by cases same
  have key : (e.incoming s new).identity = (s, new.id) := by
    rw [Order.identity, incoming_id, incoming_sessionId]
  have regular : (e.incoming s new).id ≠ quoteOrderId := by
    rw [incoming_id]
    exact done.valid.regular
  have opened_ : (opened e.view (e.incoming s new)).Accounted :=
    accounted.setRecord (fun r hr => Option.some.inj hr ▸ balanced)
  have orders : e'.order = ((opened e.view (e.incoming s new)).added (e.incoming s new) trades
      final book').record := congrArg View.record done.effect.view
  have before : ∀ s' id, (s', id) ≠ (s, new.id) →
      (opened e.view (e.incoming s new)).record s' id = e.order s' id := by
    intro s' id other
    have hne : ¬ (s' = s ∧ id = new.id) := fun h => other (by rw [h.1, h.2])
    simp only [opened, View.setRecord, incoming_id, incoming_sessionId, hne, if_false]
    rfl
  have home : e.Registered (e.incoming s new).sessionId := by
    rw [incoming_sessionId]
    exact done.registered
  have registered : ∀ s' id r, (opened e.view (e.incoming s new)).record s' id = some r →
      e.Registered s' := by
    intro s' id r hr
    by_cases self : (s', id) = (s, new.id)
    · rw [(Prod.mk.inj self).1]
      exact done.registered
    · rw [before s' id self] at hr
      exact registered_of_order hr
  refine ⟨done.effect.sent, ?_, ?_, ?_⟩
  · intro report hreport
    rcases List.mem_append.mp hreport with hfill | hclose
    · exact done.filled.all (a.kept opened_ balanced alive).parties report hfill
    · unfold closing at hclose
      split at hclose
      · obtain rfl := List.mem_singleton.mp hclose
        exact a.balanced_final opened_ balanced alive
      · cases hclose
  · rw [done.effect.view]
    exact a.accounted opened_ balanced alive
  · intro s' id r' hr'
    rw [tallyOf_append, closing_tally, add_zero]
    rcases added_entries a opened_ balanced alive regular done.filled registered home orders
      s' id r' hr' with ⟨self, posted⟩ | ⟨other, r, hr, posted⟩
    · obtain ⟨rfl, rfl⟩ := Prod.mk.inj (self.trans key)
      have none_ : e.opening (.createOrder today s' new) s' new.id = 0 := by
        simp [opening, predecessor, done.fresh]
      rw [none_, posted, tally_incoming]
    · rw [key] at other
      rw [before s' id other] at hr
      rw [opening_recorded hr]
      exact posted

namespace Rekeyed

variable {policy : FillPolicy} {e e1 : Engine D} {s : String} {origId newId : OrderId}
  {orderType : OrderType} {price quantity : D} {entry order : Order D} {remaining : D}
  {book1 : OrderBook D} {plan : Option (List D)}

omit [ExactDecimal D] in
theorem tally (k : Rekeyed policy e e1 s origId newId orderType price quantity entry order
    remaining book1 plan) : order.tally = entry.tally := by
  rw [k.made]
  rfl

omit [ExactDecimal D] in
theorem alive (k : Rekeyed policy e e1 s origId newId orderType price quantity entry order
    remaining book1 plan) : order.state ≠ .expired := by
  rw [k.state]
  split
  · decide
  · split <;> decide

theorem balanced (k : Rekeyed policy e e1 s origId newId orderType price quantity entry order
    remaining book1 plan) (accounted : e.view.Accounted) : Balanced order := by
  obtain ⟨-, -, hq, hr, hc, -⟩ := k.fields
  have before := accounted.recorded s origId entry k.recorded
  have remains := val_sub k.remains
  refine ⟨hc ▸ before.executed, k.nonneg, ?_, ?_⟩
  · rw [hc, hq]
    exact k.covered
  · intro _
    rw [hq, hc, hr, remains]
    linarith

omit [ExactDecimal D] in
/-- The replacement takes over what the original had executed. -/
theorem opening (k : Rekeyed policy e e1 s origId newId orderType price quantity entry order
    remaining book1 plan) (today : Int) : e.opening
      (.modifyOrderWithType today s origId newId orderType price quantity) s newId =
        order.tally := by
  rw [k.tally]
  rcases k.unused with rfl | fresh
  · exact opening_recorded k.recorded _
  · simp [Engine.opening, predecessor, fresh, k.recorded]

theorem accounted (k : Rekeyed policy e e1 s origId newId orderType price quantity entry order
    remaining book1 plan) (c : Coherent policy e.view none) (h : e.view.Accounted) :
    (rekeyed e.view entry.instrumentId book1 s origId order).Accounted := by
  have removed : (e.view.setBook entry.instrumentId book1).Accounted := by
    refine ⟨?_, h.recorded⟩
    intro i side o ho
    exact h.resting i side o ((c.mem_leave k.left).mp ho).1
  refine View.Accounted.setRecord (removed.setRecord ?_) ?_
  · intro r hr
    cases hr
  · intro r hr
    exact Option.some.inj hr ▸ k.balanced h

omit [ExactDecimal D] in
/-- Every other record is the one from before. -/
theorem record_cases (k : Rekeyed policy e e1 s origId newId orderType price quantity entry order
    remaining book1 plan) {s' : String} {id : OrderId} (other : (s', id) ≠ (s, newId))
    {r : Order D} (hr : (rekeyed e.view entry.instrumentId book1 s origId order).record s' id =
      some r) : e.order s' id = some r := by
  by_cases old : (s', id) = (s, origId)
  · obtain ⟨rfl, rfl⟩ := Prod.mk.inj old
    have hne : id ≠ newId := fun h => other (by rw [h])
    simp [rekeyed, View.setRecord, k.fields.1, hne] at hr
  · rwa [k.record_other other old] at hr

omit [ExactDecimal D] in
theorem registered_of_record (k : Rekeyed policy e e1 s origId newId orderType price quantity entry
    order remaining book1 plan) (s' : String) (id : OrderId) (r : Order D)
    (hr : (rekeyed e.view entry.instrumentId book1 s origId order).record s' id = some r) :
    e.Registered s' := by
  by_cases self : (s', id) = (s, newId)
  · rw [(Prod.mk.inj self).1]
    exact k.registered
  · exact registered_of_order (k.record_cases self hr)

/-- A replacement with nothing left to do posts nothing. -/
theorem accounts_exhausted (k : Rekeyed policy e e1 s origId newId orderType price quantity entry
    order remaining book1 plan) (c : Coherent policy e.view none) (h : e.view.Accounted)
    {e' : Engine D} {execId : String} (today : Int)
    (effect : Effect e e' { rekeyed e.view entry.instrumentId book1 s origId order with
      arrival := e.nextArrival + 1 } [e.replacedReport order origId execId]) :
    Accounts e e' (.modifyOrderWithType today s origId newId orderType price quantity)
      [e.replacedReport order origId execId] := by
  have orders : e'.order = (rekeyed e.view entry.instrumentId book1 s origId order).record :=
    congrArg View.record effect.view
  have accounted := k.accounted c h
  refine ⟨effect.sent, ?_, ?_, ?_⟩
  · intro report hreport
    obtain rfl := List.mem_singleton.mp hreport
    exact k.balanced h
  · rw [effect.view]
    exact ⟨accounted.resting, accounted.recorded⟩
  · intro s' id r' hr'
    rw [replacedReport, tallyOf_status, tallyOf_nil, add_zero]
    rw [orders] at hr'
    by_cases self : (s', id) = (s, newId)
    · obtain ⟨rfl, rfl⟩ := Prod.mk.inj self
      rw [k.opening today]
      simp only [rekeyed, View.setRecord, k.fields.1, and_self, if_true] at hr'
      rw [← Option.some.inj hr']
    · rw [opening_recorded (k.record_cases self hr')]

end Rekeyed

theorem ReplacedReal.accounts {e e' e1 : Engine D} {today : Int} {s : String}
    {origId newId : OrderId} {orderType : OrderType} {price quantity : D} {entry order : Order D}
    {remaining : D} {book1 : OrderBook D} {plan : Option (List D)}
    (c : Coherent .real e.view none) (h : e.view.Accounted)
    (k : Rekeyed .real e e1 s origId newId orderType price quantity entry order remaining book1
      plan) (done : ReplacedReal e e' s origId entry order book1) :
    ∃ news, Accounts e e' (.modifyOrderWithType today s origId newId orderType price quantity)
      news := by
  cases done with
  | exhausted _ execId effect => exact ⟨_, k.accounts_exhausted c h today effect⟩
  | matched open_ trades left final book' fills execId a filled effect =>
    have hid := k.fields.1
    have hs := k.session c
    have key : order.identity = (s, newId) := by rw [Order.identity, hid, hs]
    have balanced := k.balanced h
    have rekeyed_ := k.accounted c h
    have regular : order.id ≠ quoteOrderId := by
      rw [hid]
      exact k.valid.regular
    have home : e.Registered order.sessionId := by
      rw [hs]
      exact k.registered
    refine ⟨_, effect.sent, ?_, ?_, ?_⟩
    · intro report hreport
      rcases List.mem_cons.mp hreport with rfl | hfill
      · exact balanced
      · exact filled.all (a.kept rekeyed_ balanced k.alive).parties report hfill
    · rw [effect.view]
      exact a.accounted rekeyed_ balanced k.alive
    · intro s' id r' hr'
      rw [replacedReport, tallyOf_status]
      rcases added_entries a rekeyed_ balanced k.alive regular filled k.registered_of_record home
        (congrArg View.record effect.view) s' id r' hr' with
        ⟨self, posted⟩ | ⟨other, r, hr, posted⟩
      · obtain ⟨rfl, rfl⟩ := Prod.mk.inj (self.trans key)
        rw [k.opening today]
        exact posted
      · rw [key] at other
        rw [opening_recorded (k.record_cases other hr)]
        exact posted

theorem Quoted.posts {e e' : Engine D} {s : String} {i : Int} {v : View D}
    {trades : List (RawTrade D)} {fills : List (Report D)} (h : e.view.Accounted)
    (done : Quoted e e' s i v trades fills) :
    Posts e e' fills := by
  obtain ⟨v1, v2, bidTrades, askTrades, vacated, first, second, rfl⟩ := done.stages
  have start : v1.Accounted := by
    refine ⟨?_, ?_⟩
    · intro i side o ho
      exact h.resting i side o (vacated.thinned i side o ho)
    · intro s id r hr
      rw [vacated.record] at hr
      exact h.recorded s id r hr
  obtain ⟨half, bids, bidEntries⟩ := legMatched_accounts start first
  obtain ⟨accounted, asks, askEntries⟩ := legMatched_accounts half second
  refine ⟨done.effect.sent, ?_, ?_, ?_⟩
  · refine done.filled.all ?_
    intro t ht
    rcases List.mem_append.mp ht with hbid | hask
    · exact bids t hbid
    · exact asks t hask
  · rw [done.effect.view]
    exact accounted
  · intro s id r' hr'
    have orders : e'.order = v.record := congrArg View.record done.effect.view
    rw [orders] at hr'
    have regular := (done.coherent.keyed s id r' hr').2.2
    obtain ⟨r1, hr1, last⟩ := askEntries s id regular r' hr'
    obtain ⟨r, hr, early⟩ := bidEntries s id regular r1 hr1
    rw [vacated.record] at hr
    refine ⟨r, hr, ?_⟩
    have all : partyTally (s, id) (parties (bidTrades ++ askTrades)) =
        partyTally (s, id) (parties bidTrades) + partyTally (s, id) (parties askTrades) := by
      simp [partyTally, parties]
    rw [done.filled.tally id (registered_of_order hr), all]
    exact (early.trans last).tally

omit [ExactDecimal D] in
/-- Nothing is reported of other orders. -/
theorem tallyOf_other {identity : String × OrderId} {reports : List (Report D)}
    (h : ∀ report ∈ reports, report.order.identity ≠ identity) : tallyOf identity reports = 0 := by
  unfold tallyOf
  rw [List.filter_eq_nil_iff.mpr (fun report hr => by simpa using h report hr)]
  rfl

/-- An order that is worked on by its plan. -/
theorem Worked.accounts {e e' : Engine D} {v : View D} {order last told : Order D}
    {plan : List D} {snaps front back : List (Order D)} {fills : List (Report D)} {s : String}
    {id : OrderId} {symbol execId : String} {clOrdId : OrderId} {execType : ExecType}
    {orig : Option OrderId}
    (w : Worked e e' v order plan last snaps front back
      (.status told symbol clOrdId execId execType orig) fills)
    (key : order.identity = (s, id)) (accounted : v.Accounted) (balanced : Balanced order)
    (alive : order.state ≠ .expired) (shown : Balanced told) {command : Command D}
    (opens : e.opening command s id = order.tally) (recorded : ∃ r, v.record s id = some r)
    (records : ∀ s' id', (s', id') ≠ (s, id) → ∀ r, v.record s' id' = some r →
      e.order s' id' = some r) :
    Accounts e e' command (.status told symbol clOrdId execId execType orig :: fills) := by
  have rested : Balanced (OrderBook.restState order) := balanced.restated alive rfl rfl rfl
  have told_ := w.told
  obtain ⟨bl, -, others, executes⟩ :=
    fills_executes w.chain rested (alive_of_active (restState_active order)) told_
  have cont : Continues order last := (OrderBook.restState_continues order).trans w.chain.continues
  have last_key : last.identity = (s, id) := cont.identity.trans key
  have shows_ : ∀ report ∈ fills, report.order.identity = (s, id) := by
    intro report hreport
    have mem : report.order ∈ snaps := by
      rw [← w.chain.zip, ← fill_orders told_]
      exact List.mem_map_of_mem hreport
    exact (w.chain.identities _ mem).trans key
  have entries : ∀ s' id' r', e'.order s' id' = some r' →
      (s', id') = (s, id) ∧ r' = last ∨ (s', id') ≠ (s, id) ∧ v.record s' id' = some r' := by
    intro s' id' r' hr'
    rw [w.record, View.synced, last_key] at hr'
    split at hr'
    next self =>
      obtain ⟨rfl, rfl⟩ := Prod.mk.inj self
      obtain ⟨r, hr⟩ := recorded
      rw [hr, Option.map_some] at hr'
      exact Or.inl ⟨rfl, (Option.some.inj hr').symm⟩
    next other => exact Or.inr ⟨other, hr'⟩
  refine ⟨w.effect.sent, ?_, ⟨?_, ?_⟩, ?_⟩
  · intro report hreport
    rcases List.mem_cons.mp hreport with rfl | hfill
    · exact shown
    · exact others report hfill
  · intro i side o ho
    by_cases here : i = order.instrumentId ∧ side = order.side
    · obtain ⟨rfl, rfl⟩ := here
      rw [w.after] at ho
      have spared : o ∈ front ++ back → Balanced o := fun mem =>
        accounted.resting _ _ o (w.before ▸ mem)
      simp only [List.append_assoc, List.mem_append] at ho spared
      rcases ho with ho | ho | ho
      · exact spared (Or.inl ho)
      · rw [(mem_keep.mp ho).1]
        exact bl
      · exact spared (Or.inr ho)
    · rw [w.elsewhere i side here] at ho
      exact accounted.resting i side o ho
  · intro s' id' r' hr'
    rcases entries s' id' r' hr' with ⟨-, rfl⟩ | ⟨-, before⟩
    · exact bl
    · exact accounted.recorded s' id' r' before
  · intro s' id' r' hr'
    rw [tallyOf_status]
    rcases entries s' id' r' hr' with ⟨self, rfl⟩ | ⟨other, before⟩
    · obtain ⟨rfl, rfl⟩ := Prod.mk.inj self
      rw [opens]
      have same : (OrderBook.restState order).identity = (s', id') := key
      rw [same] at executes
      exact executes.tally
    · rw [opening_recorded (records s' id' other r' before), tallyOf_other, add_zero]
      intro report hreport
      rw [shows_ report hreport]
      exact Ne.symm other

theorem CreatedTiered.accounts {e e' : Engine D} {today : Int} {s : String} {new : NewOrder D}
    {plan : List D} {last : Order D} {snaps front back : List (Order D)} {execId : String}
    {fills : List (Report D)} (h : e.view.Accounted)
    (done : CreatedTiered e e' s new plan last snaps front back execId fills) :
    ∃ news, Accounts e e' (.createOrder today s new) news := by
  have key : (e.incoming s new).identity = (s, new.id) := by
    rw [Order.identity, incoming_id, incoming_sessionId]
  have balanced : Balanced (e.incoming s new) := balanced_incoming done.valid.positive
  have alive : (e.incoming s new).state ≠ .expired := by
    rw [incoming_eq]
    exact fun same => by cases same
  have opened_ : (opened e.view (e.incoming s new)).Accounted :=
    h.setRecord (fun r hr => Option.some.inj hr ▸ balanced)
  refine ⟨_, done.worked.accounts key ⟨opened_.resting, opened_.recorded⟩ balanced alive
    (balanced.restated alive rfl rfl rfl) ?_ ?_ ?_⟩
  · rw [tally_incoming]
    simp [opening, predecessor, done.fresh]
  · exact ⟨e.incoming s new, by simp [opened, View.setRecord, incoming_id, incoming_sessionId]⟩
  · intro s' id' hne r hr
    have hne' : ¬ (s' = s ∧ id' = new.id) := fun h => hne (by rw [h.1, h.2])
    simp only [opened, View.setRecord, incoming_id, incoming_sessionId, hne', if_false] at hr
    exact hr

theorem ReplacedTiered.accounts {e e' e1 : Engine D} {today : Int} {s : String}
    {origId newId : OrderId} {orderType : OrderType} {price quantity : D} {entry order : Order D}
    {remaining : D} {book1 : OrderBook D} {plan : List D} (c : Coherent .tiered e.view none)
    (h : e.view.Accounted)
    (k : Rekeyed .tiered e e1 s origId newId orderType price quantity entry order remaining book1
      (some plan)) (done : ReplacedTiered e e' s origId entry order book1 plan) :
    ∃ news, Accounts e e' (.modifyOrderWithType today s origId newId orderType price quantity)
      news := by
  have key : order.identity = (s, newId) := by rw [Order.identity, k.fields.1, k.session c]
  cases done with
  | exhausted _ execId effect _ => exact ⟨_, k.accounts_exhausted c h today effect⟩
  | worked open_ last snapshots front back execId fills worked =>
    have accounted := k.accounted c h
    refine ⟨_, worked.accounts key ⟨accounted.resting, accounted.recorded⟩ (k.balanced h) k.alive
      (k.balanced h) (k.opening today) ⟨order, ?_⟩ ?_⟩
    · simp [rekeyed, View.setRecord, k.fields.1]
    · intro s' id' hne r hr
      exact k.record_cases hne hr

/-- Every command posts what it reports. -/
theorem step_accounts {policy : FillPolicy} {e e' : Engine D} {command : Command D}
    (c : Coherent policy e.view none) (hp : e.fillPolicy = policy) (h : e.view.Accounted)
    (step : Step e command e') : ∃ news, Accounts e e' command news := by
  have unchanged : ∃ news, Accounts e e command news := ⟨[], (Posts.unchanged h rfl rfl).accounts _⟩
  cases step with
  | createInstrument symbol =>
    obtain ⟨hv, -, hsent, -⟩ := view_createInstrument e symbol
    exact ⟨[], (Posts.unchanged h hv hsent).accounts _⟩
  | registerSession s fresh =>
    exact ⟨[], (Posts.unchanged h (view_registerSession fresh) rfl).accounts _⟩
  | sessionDisconnect _ s orders quotes visits returns =>
    exact ⟨[], ((sessionDisconnect_spec c visits returns).1.posts h).accounts _⟩
  | createOrder _ today s new reply returns =>
    cases policy with
    | real =>
      rcases createReal_cases c hp returns with ⟨_, -, -, rfl⟩ | ⟨-, _, _, _, _, _, _, done⟩
      · exact unchanged
      · exact ⟨_, done.accounts h⟩
    | tiered =>
      rcases createTiered_cases c hp returns with
        ⟨_, -, -, rfl⟩ | ⟨-, _, _, _, _, _, _, _, done⟩
      · exact unchanged
      · exact done.accounts h
  | modifyOrderWithType _ today s origId newId orderType price quantity reply returns =>
    cases policy with
    | real =>
      rcases modifyReal_cases c hp returns with ⟨⟨_, -, -, rfl⟩, -⟩ | ⟨-, _, _, _, _, _, k, done⟩
      · exact unchanged
      · exact done.accounts c h k
    | tiered =>
      rcases modifyTiered_cases c hp returns with
        ⟨_, -, -, rfl⟩ | ⟨-, _, _, _, _, _, _, k, -, done⟩
      · exact unchanged
      · exact done.accounts c h k
  | cancelOrderWithId _ s origId clOrdId reply returns =>
    rcases cancel_cases c returns with ⟨_, -, -, rfl⟩ | ⟨-, entry, book', execId, done⟩
    · exact unchanged
    · obtain ⟨news, posts⟩ := done.posts c h
      exact ⟨news, posts.accounts _⟩
  | quote _ s i bidPrice bidQuantity askPrice askQuantity reply returns =>
    cases policy with
    | real =>
      rcases quote_cases c returns with ⟨_, -, -, rfl⟩ | ⟨-, v, trades, fills, done, -⟩
      · exact unchanged
      · exact ⟨_, (done.posts h).accounts _⟩
    | tiered =>
      obtain ⟨-, rfl⟩ := quote_tiered hp returns
      exact unchanged
  | expireDayOrdersAt _ today keys visits returns =>
    obtain ⟨news, posts⟩ := expire_posts c h returns
    exact ⟨news, posts.accounts _⟩

/-- The chains of reports behind the orders, after a command that says `news`: a
replacement continues the chain of the order it replaces. -/
def chained (e : Engine D) (command : Command D) (chain : String → OrderId → List (Report D))
    (news : List (Report D)) (s : String) (id : OrderId) : List (Report D) :=
  ((e.predecessor command s id).map (chain s)).getD [] ++
    news.filter (fun report => report.order.identity = (s, id))

/-- A run together with the reports sent for the chain of every order. -/
inductive Chained (policy : FillPolicy) :
    Engine D → (String → OrderId → List (Report D)) → Prop
  | start : Chained policy (withFillPolicy policy) (fun _ _ => [])
  | step {e e' : Engine D} {chain : String → OrderId → List (Report D)} {command : Command D}
      {news : List (Report D)} (run : Chained policy e chain) (step : Step e command e')
      (sent : e'.sent = e.sent ++ news) : Chained policy e' (e.chained command chain news)

omit [ExactDecimal D] in
theorem Chained.reachable {policy : FillPolicy} {e : Engine D}
    {chain : String → OrderId → List (Report D)} (h : Chained policy e chain) :
    Reachable policy e := by
  induction h with
  | start => exact .refl
  | step _ step _ ih => exact .tail ih ⟨_, trivial, step⟩

/-- All books are in order along a run. -/
structure InOrder (e : Engine D) (chain : String → OrderId → List (Report D)) : Prop where
  accounted : e.view.Accounted
  told : ∀ report ∈ e.sent, Balanced report.order
  entries : ∀ s id r, e.order s id = some r → r.tally = ((chain s id).map Report.tally).sum

omit [ExactDecimal D] in
theorem InOrder.step {e e' : Engine D} {chain : String → OrderId → List (Report D)}
    {command : Command D} {news : List (Report D)} (h : InOrder e chain)
    (posted : Accounts e e' command news) : InOrder e' (e.chained command chain news) := by
  refine ⟨posted.accounted, ?_, ?_⟩
  · intro report hreport
    rw [posted.sent] at hreport
    rcases List.mem_append.mp hreport with before | now
    · exact h.told report before
    · exact posted.told report now
  · intro s id r hr
    have carried : e.opening command s id =
        ((((e.predecessor command s id).map (chain s)).getD []).map Report.tally).sum := by
      unfold opening
      cases hp : e.predecessor command s id with
      | none => rfl
      | some p =>
        have recorded : (e.order s p).isSome := by
          unfold predecessor at hp
          split at hp
          next here => exact Option.some.inj hp ▸ here
          next =>
            split at hp
            · split at hp
              next replaces => exact Option.some.inj hp ▸ replaces.2.2
              next => cases hp
            · cases hp
        obtain ⟨r0, hr0⟩ := Option.isSome_iff_exists.mp recorded
        simpa [hr0] using h.entries s p r0 hr0
    rw [posted.entries s id r hr, carried, chained, List.map_append, List.sum_append]
    rfl

theorem chained_inOrder {policy : FillPolicy} {e : Engine D}
    {chain : String → OrderId → List (Report D)} (h : Chained policy e chain) :
    InOrder e chain := by
  induction h with
  | start =>
    refine ⟨⟨?_, ?_⟩, by simp [withFillPolicy], ?_⟩
    · intro i side o ho
      simp [view, View.queue, book, withFillPolicy] at ho
    · intro s id r hr
      cases hr
    · intro s id r hr
      cases hr
  | @step e e' chain command news run step sent ih =>
    obtain ⟨c, hp⟩ := reachable_coherent run.reachable
    obtain ⟨news', posted⟩ := step_accounts c hp ih.accounted step
    obtain rfl : news' = news := List.append_cancel_left (posted.sent.symm.trans sent)
    exact ih.step posted

/-- Every run has chains. -/
theorem reachable_chained {policy : FillPolicy} {e : Engine D} (h : Reachable policy e) :
    ∃ chain, Chained policy e chain := by
  induction h with
  | refl => exact ⟨_, .start⟩
  | tail _ step ih =>
    obtain ⟨chain, run⟩ := ih
    obtain ⟨command, -, step⟩ := step
    obtain ⟨c, hp⟩ := reachable_coherent run.reachable
    obtain ⟨news, posted⟩ := step_accounts c hp (chained_inOrder run).accounted step
    exact ⟨_, run.step step posted.sent⟩

end Exact

end Engine

end RustTrader
