import RustTrader.Loading
import RustTrader.Requests
import RustTrader.Twins

/-!
# Replacing is cancelling and entering again

Under either policy a replacement comes to the same as a cancellation of the original
and a new order for what is left: the same trades, the same queues, and the same of all
other orders.
-/

namespace RustTrader.Engine

open Decimal

variable {D : Type} [Decimal D]

/-- An order that could be asked for. -/
structure Admitted (instruments : InstrumentMap) (o : Order D) : Prop where
  positive : o.id ≠ quoteOrderId → 0 < o.id
  listed : ∃ instrument, instruments.getById o.instrumentId = some instrument

section

variable {instruments : InstrumentMap} {o o' : Order D}

omit [Decimal D] in
theorem Admitted.moved (h : Admitted instruments o) (id : o'.id = o.id)
    (instrumentId : o'.instrumentId = o.instrumentId) : Admitted instruments o' :=
  ⟨id ▸ h.positive, instrumentId ▸ h.listed⟩

end

section Lawful

variable [LawfulDecimal D] {policy : FillPolicy} {e : Engine D}

omit [LawfulDecimal D] in
theorem checkCreate_of {s : String} {new : NewOrder D}
    (valid : ValidInput new.id new.orderType new.price new.quantity)
    (listed : ∃ instrument, e.instruments.getById new.instrumentId = some instrument)
    (registered : e.Registered s) (fresh : e.order s new.id = none) :
    e.checkCreate s new = .ok () := by
  obtain ⟨instrument, listed⟩ := listed
  obtain ⟨session, found⟩ := registered
  have unused : HashMap.get? session.orders new.id = none := by
    unfold order at fresh
    rw [found] at fresh
    exact fresh
  have named : validateOrderId new.id = .ok () :=
    if_neg (not_or.mpr ⟨not_le.mpr valid.positiveId, valid.regular⟩)
  have priced : ¬ (new.price < 0 ∨ (new.orderType = .limit ∧ new.price ≤ 0)) := by
    rintro (negative | ⟨limit, low⟩)
    · exact absurd valid.nonneg (not_le.mpr negative)
    · exact absurd (valid.limit limit) (not_lt.mpr low)
  have input : validateOrderInput new.id new.orderType new.price new.quantity = .ok () := by
    unfold validateOrderInput
    rw [named]
    change (if new.quantity ≤ 0 then _ else if _ then _ else _) = _
    rw [if_neg (not_le.mpr valid.positive), if_neg priced]
  unfold checkCreate
  rw [listed, input]
  dsimp only [bind, Except.bind]
  rw [found]
  change (if HashMap.contains session.orders new.id then _ else _) = _
  unfold HashMap.contains
  rw [unused]
  rfl

end Lawful

/-- What has been reported between two states. -/
def since (e e' : Engine D) : List (Report D) := e'.sent.drop e.sent.length

/-- A report that is not about one of two orders. -/
def aside (s : String) (a b : OrderId) (report : Report D) : Bool :=
  report.order.identity ≠ (s, a) ∧ report.order.identity ≠ (s, b)

/-- Two runs come to the same, but for what was said of the two orders `a` and `b` of a
session besides their trades. -/
structure SameTrading (s : String) (a b : OrderId) (e e1 e2 : Engine D) : Prop where
  deals : (since e e1).filterMap Report.deal = (since e e2).filterMap Report.deal
  queues : ∀ i side, ((e1.book i).queue side).map Order.shelf =
    ((e2.book i).queue side).map Order.shelf
  record : ∃ o o', e1.order s b = some o ∧ e2.order s b = some o' ∧ o.Twin o'
  others : ∀ s' id, (s', id) ≠ (s, a) → (s', id) ≠ (s, b) → e1.order s' id = e2.order s' id
  legs : e1.leg = e2.leg
  told : ((since e e1).filter (aside s a b)).map Report.unnumbered =
    ((since e e2).filter (aside s a b)).map Report.unnumbered

section

omit [Decimal D]

variable {s : String} {a b : OrderId}

/-- A report on the state of one of two orders. -/
def Own (s : String) (a b : OrderId) (report : Report D) : Prop :=
  report.deal = none ∧ (report.order.identity = (s, a) ∨ report.order.identity = (s, b))

theorem own_status {o : Order D} {symbol execId : String} {clOrdId : OrderId}
    {execType : ExecType} {orig : Option OrderId}
    (own : o.identity = (s, a) ∨ o.identity = (s, b)) :
    Own s a b (.status o symbol clOrdId execId execType orig) := ⟨rfl, own⟩

theorem own_deals {reports : List (Report D)} (own : ∀ report ∈ reports, Own s a b report) :
    reports.filterMap Report.deal = [] :=
  List.filterMap_eq_nil_iff.mpr fun report mem => (own report mem).1

theorem own_aside {reports : List (Report D)} (own : ∀ report ∈ reports, Own s a b report) :
    reports.filter (aside s a b) = [] := by
  refine List.filter_eq_nil_iff.mpr fun report mem => ?_
  unfold aside
  rw [decide_eq_true_eq]
  rcases (own report mem).2 with here | here
  · exact fun apart => apart.1 here
  · exact fun apart => apart.2 here

/-- Reports alike between reports on the two orders themselves. -/
theorem said_alike {lead fills tail lead' fills' tail' : List (Report D)}
    (own : ∀ report ∈ lead ++ tail ++ (lead' ++ tail'), Own s a b report)
    (alike : List.Forall₂ (Report.Alike (s, b)) fills fills') :
    (lead ++ fills ++ tail).filterMap Report.deal =
      (lead' ++ fills' ++ tail').filterMap Report.deal ∧
    ((lead ++ fills ++ tail).filter (aside s a b)).map Report.unnumbered =
      ((lead' ++ fills' ++ tail').filter (aside s a b)).map Report.unnumbered := by
  simp only [List.forall_mem_append] at own
  obtain ⟨⟨first, last⟩, first', last'⟩ := own
  have others : (fills.filter (aside s a b)).map Report.unnumbered =
      (fills'.filter (aside s a b)).map Report.unnumbered :=
    others_alike (p := fun identity => decide (identity ≠ (s, a) ∧ identity ≠ (s, b))) alike
      (by simp)
  constructor
  · simp only [List.filterMap_append]
    rw [own_deals first, own_deals last, own_deals first', own_deals last', deals_alike alike]
  · simp only [List.filter_append, List.map_append]
    rw [own_aside first, own_aside last, own_aside first', own_aside last', others]

end

omit [Decimal D] in
theorem synced_at {record : String → OrderId → Option (Order D)} {last old : Order D} {s : String}
    {id : OrderId} (own : last.identity = (s, id)) (known : record s id = some old) :
    View.synced last record s id = some last := by
  unfold View.synced
  rw [if_pos own.symm, known]
  rfl

theorem opened_other (v : View D) {o : Order D} {s : String} {id : OrderId}
    (other : (s, id) ≠ o.identity) : (opened v o).record s id = v.record s id :=
  if_neg fun same => other (Prod.ext same.1 same.2)

/-- The request for what is left of an order under a new identifier. -/
def reentry (entry : Order D) (id : OrderId) (orderType : OrderType) (price left : D) :
    NewOrder D :=
  ⟨id, entry.instrumentId, entry.side, orderType, price, left⟩

/-- A replacement and a cancellation of the same order. -/
structure Reentering (policy : FillPolicy) (e e' e2 : Engine D) (s : String) (a b : OrderId)
    (orderType : OrderType) (price quantity : D) (entry order : Order D) (left : D)
    (book1 book2 : OrderBook D) (plan : Option (List D)) (execId : String) : Prop where
  rekeyed : Rekeyed policy e e' s a b orderType price quantity entry order left book1 plan
  cancelled : Cancelled e e2 s a a entry book2 execId
  policy : e2.fillPolicy = policy
  open_ : order.remaining ≠ 0

namespace Reentering

variable {policy : FillPolicy} {e e' e2 : Engine D} {s : String} {a b : OrderId}
  {orderType : OrderType} {price quantity left : D} {entry order : Order D}
  {book1 book2 : OrderBook D} {plan : Option (List D)} {execId : String}

theorem key (r : Reentering policy e e' e2 s a b orderType price quantity entry order left book1
    book2 plan execId) (c : Coherent policy e.view none) : order.identity = (s, b) := by
  rw [Order.identity, r.rekeyed.fields.1, r.rekeyed.session c]

/-- The replaced order and the one that is entered again are twins. -/
theorem twin (r : Reentering policy e e' e2 s a b orderType price quantity entry order left book1
    book2 plan execId) (c : Coherent policy e.view none) :
    order.Twin (e2.incoming s (reentry entry b orderType price left)) := by
  have k := r.rekeyed
  obtain ⟨-, kind, -, remaining, -, -, -, instrumentId, side, booked⟩ := k.fields
  rw [incoming_eq, r.policy]
  refine ⟨r.key c, instrumentId, side, kind, ?_, remaining, ?_⟩
  · intro limit
    rw [booked]
    have other : orderType ≠ .market := by
      rw [← kind, limit]
      decide
    change _ = bookedPrice policy orderType (if orderType = .market then 0 else price)
    rw [if_neg other]
  · have open_ : left ≠ 0 := remaining ▸ r.open_
    rw [k.state, if_neg open_]
    split <;> rfl

/-- Both find the same queues. -/
theorem queues (r : Reentering policy e e' e2 s a b orderType price quantity entry order left
    book1 book2 plan execId) (c : Coherent policy e.view none) (i : Int) (side : Side) :
    (Engine.rekeyed e.view entry.instrumentId book1 s a order).queue i side =
      e2.view.queue i side := by
  have k := r.rekeyed
  have done := r.cancelled
  have same : e2.view.queue i side = (e.view.setBook entry.instrumentId book2).queue i side := by
    rw [done.effect.view]
    rfl
  have one := removed_queue c k.recorded k.mem k.left i side
  have other := removed_queue c k.recorded k.mem done.left i side
  rw [same, ← other, one]
  rfl

/-- The cancellation leaves the other records alone. -/
theorem order_other (r : Reentering policy e e' e2 s a b orderType price quantity entry order left
    book1 book2 plan execId) {s' : String} {id : OrderId} (other : (s', id) ≠ (s, a)) :
    e2.order s' id = e.order s' id := by
  have orders : e2.order = _ := congrArg View.record r.cancelled.effect.view
  rw [orders]
  exact if_neg fun same => other (Prod.ext same.1 same.2)

/-- Both leave the other records alone. -/
theorem records (r : Reentering policy e e' e2 s a b orderType price quantity entry order left
    book1 book2 plan execId) {s' : String} {id : OrderId} (other : (s', id) ≠ (s, a))
    (other' : (s', id) ≠ (s, b)) :
    (Engine.rekeyed e.view entry.instrumentId book1 s a order).record s' id = e2.order s' id := by
  rw [r.rekeyed.record_other other' other, r.order_other other]

theorem leg (r : Reentering policy e e' e2 s a b orderType price quantity entry order left book1
    book2 plan execId) : e2.leg = e.leg := congrArg View.leg r.cancelled.effect.view

/-- The order can be entered again. -/
theorem checked (r : Reentering policy e e' e2 s a b orderType price quantity entry order left
    book1 book2 plan execId) [LawfulDecimal D]
    (listed : ∃ instrument, e.instruments.getById entry.instrumentId = some instrument)
    (moved : b ≠ a) : e2.checkCreate s (reentry entry b orderType price left) = .ok () := by
  have k := r.rekeyed
  have positive : 0 < left := k.fields.2.2.2.1 ▸ lt_of_le_of_ne k.nonneg r.open_.symm
  refine checkCreate_of ⟨k.valid.positiveId, k.valid.regular, positive, k.valid.nonneg,
    k.valid.limit⟩ ?_ ?_ ?_
  · rw [r.cancelled.effect.instruments]
    exact listed
  · rw [r.cancelled.effect.registered]
    exact k.registered
  · have apart : (s, b) ≠ (s, a) := fun same => moved (Prod.mk.inj same).2
    exact (r.order_other apart).trans (k.unused.resolve_left moved)

variable {e1 e3 : Engine D}

/-- What is said on both ways, but for the reports on the two orders themselves. -/
theorem said (r : Reentering policy e e' e2 s a b orderType price quantity entry order left book1
    book2 plan execId) (c : Coherent policy e.view none) {ack : Report D}
    {fills fills' : List (Report D)} (lead tail : List (Report D))
    (sent : e1.sent = e.sent ++ ack :: fills)
    (sent' : e3.sent = e2.sent ++ (lead ++ fills' ++ tail)) (confirmed : Own s a b ack)
    (own : ∀ report ∈ lead ++ tail, Own s a b report)
    (alike : List.Forall₂ (Report.Alike (s, b)) fills fills') :
    (since e e1).filterMap Report.deal = (since e e3).filterMap Report.deal ∧
    ((since e e1).filter (aside s a b)).map Report.unnumbered =
      ((since e e3).filter (aside s a b)).map Report.unnumbered := by
  obtain ⟨owner, number, -⟩ := c.keyed s a entry r.rekeyed.recorded
  have cancelled : Own s a b (.status { entry with state := .cancelled }
      (e.symbolFor entry.instrumentId) a execId .cancelled (some a)) :=
    own_status (.inl (Prod.ext owner number))
  have one : since e e1 = [ack] ++ fills ++ [] := by
    unfold since
    rw [sent, List.drop_left, List.append_nil]
    rfl
  have other : since e e3 = (.status { entry with state := .cancelled }
      (e.symbolFor entry.instrumentId) a execId .cancelled (some a) :: lead) ++ fills' ++ tail := by
    unfold since
    rw [sent', r.cancelled.effect.sent, List.append_assoc, List.drop_left]
    rfl
  rw [one, other]
  refine said_alike ?_ alike
  rw [List.append_nil, List.singleton_append, List.cons_append]
  exact List.forall_mem_cons.mpr ⟨confirmed, List.forall_mem_cons.mpr ⟨cancelled, own⟩⟩

/-- Under the real policy both orders meet the same queues. -/
theorem real (r : Reentering .real e e' e2 s a b orderType price quantity entry order left book1
    book2 plan execId) (c : Coherent .real e.view none)
    (done : ReplacedReal e e1 s a entry order book1) {trades' : List (RawTrade D)}
    {left' final' : Order D} {book'' : OrderBook D} {fills' : List (Report D)} {execId' : String}
    (created : CreatedReal e2 e3 s (reentry entry b orderType price left) trades' left' final'
      book'' fills' execId') : SameTrading s a b e e1 e3 := by
  have twin := r.twin c
  have regular := r.rekeyed.valid.regular
  have key := r.key c
  have key' := twin.identity.symm.trans key
  cases done with
  | exhausted spent => exact absurd spent r.open_
  | matched open_ trades left'' final book' fills execId'' added filled effect =>
    obtain ⟨final_twin, alike, shelves⟩ :=
      added.twin created.added twin fun side => r.queues c order.instrumentId side
    rw [key] at alike
    have final_key := final_twin.identity.symm.trans (added.final_identity.trans key)
    have closed : ∀ report ∈ [] ++ closing e2 trades' orderType final' execId',
        Own s a b report := by
      unfold closing
      split
      · rw [List.nil_append, List.forall_mem_singleton]
        exact own_status (.inr final_key)
      · exact List.forall_mem_nil _
    obtain ⟨deals, told⟩ := r.said c [] _ effect.sent created.effect.sent
      (own_status (.inr key)) closed
      (fills_alike alike filled (created.filled.effect r.cancelled.effect))
    have records : e1.order = _ := congrArg View.record effect.view
    have records' : e3.order = _ := congrArg View.record created.effect.view
    refine ⟨deals, ?_, ?_, ?_, ?_, told⟩
    · intro i side
      have one := Coherent.Added.queue_added
        (Engine.rekeyed e.view entry.instrumentId book1 s a order) order trades final book' i side
      have other := Coherent.Added.queue_added
        (opened e2.view (e2.incoming s (reentry entry b orderType price left)))
        (e2.incoming s (reentry entry b orderType price left)) trades' final' book'' i side
      rw [← effect.view] at one
      rw [← created.effect.view, ← twin.instrumentId] at other
      change (e1.view.queue i side).map _ = (e3.view.queue i side).map _
      rw [one, other]
      split
      · exact shelves side
      · exact congrArg _ (r.queues c i side)
    · have self := added.record_self (by rw [r.rekeyed.fields.1]; exact regular)
      have self' := created.added.record_self (by rw [incoming_id]; exact regular)
      obtain ⟨owner, number⟩ := Prod.mk.inj key
      obtain ⟨owner', number'⟩ := Prod.mk.inj key'
      rw [← records, owner, number] at self
      rw [← records', owner', number'] at self'
      exact ⟨final, final', self, self', final_twin⟩
    · intro s' id other other'
      rw [records, records', added.record_other (key ▸ other'),
        created.added.record_other (key' ▸ other')]
      refine afterTrades_alike alike other' ((r.records other other').trans ?_)
      exact (opened_other e2.view (key' ▸ other')).symm
    · have leg : e1.leg = e.leg := congrArg View.leg effect.view
      have leg' : e3.leg = e2.leg := congrArg View.leg created.effect.view
      rw [leg, leg', r.leg]

/-- Under the tiered policy both orders rest at the same spot and are filled alike. -/
theorem tiered (r : Reentering .tiered e e' e2 s a b orderType price quantity entry order left
    book1 book2 plan execId) (c : Coherent .tiered e.view none) {chunks : List D}
    {last last' : Order D} {snapshots snapshots' front front' back back' : List (Order D)}
    {fills fills' : List (Report D)} {arrival : Nat} {execId' execId'' : String}
    (worked : Worked e e1 { Engine.rekeyed e.view entry.instrumentId book1 s a order with
      arrival := arrival } order chunks last snapshots front back
      (e.replacedReport order a execId') fills) (behind : Behind order front back)
    (created : CreatedTiered e2 e3 s (reentry entry b orderType price left) chunks last' snapshots'
      front' back' execId'' fills')
    (behind' : Behind (e2.incoming s (reentry entry b orderType price left)) front' back') :
    SameTrading s a b e e1 e3 := by
  have twin := r.twin c
  have again := created.worked
  have key := r.key c
  have key' := twin.identity.symm.trans key
  have priced : order.price = (e2.incoming s (reentry entry b orderType price left)).price := by
    rw [r.rekeyed.fields.2.2.2.2.2.2.2.2.2, incoming_eq, r.policy]
    unfold reentry bookedPrice
    cases orderType <;> rfl
  have chain' := again.chain
  rw [← priced] at chain'
  obtain ⟨last_twin, alike⟩ := worked.chain.twin chain' twin.restState
  have rest_key : (OrderBook.restState order).identity = (s, b) := key
  rw [rest_key] at alike
  have symbols : e2.symbolFor = e.symbolFor := symbolFor_congr r.cancelled.effect.instruments
  have filled := again.told
  rw [symbols, ← priced] at filled
  have ack : Own s a b (.status (OrderBook.restState
      (e2.incoming s (reentry entry b orderType price left)))
      (e2.symbolFor (reentry entry b orderType price left).instrumentId) b execId'' .new none) :=
    own_status (.inr key')
  obtain ⟨deals, told⟩ := r.said c [_] [] worked.effect.sent
    (by rw [List.append_nil]; exact again.effect.sent) (own_status (.inr key))
    (List.forall_mem_singleton.mpr ack) (plan_alike alike worked.told filled)
  have last_key : last.identity = (s, b) := worked.chain.continues.identity.trans rest_key
  have last_price : last.price = last'.price := by
    rw [worked.chain.continues.price, again.chain.continues.price]
    exact priced
  have queues : ∀ i side, (Engine.rekeyed e.view entry.instrumentId book1 s a order).queue i side =
      (opened e2.view (e2.incoming s (reentry entry b orderType price left))).queue i side :=
    r.queues c
  have same : front ++ back = front' ++ back' := by
    have before := again.before
    rw [← twin.instrumentId, ← twin.side] at before
    exact worked.before.symm.trans ((queues _ _).trans before)
  obtain ⟨rfl, rfl⟩ := behind.unique behind' twin.side priced same
  have last_key' := last_twin.identity.symm.trans last_key
  refine ⟨deals, ?_, ⟨last, last', ?_, ?_, last_twin⟩, ?_, ?_, told⟩
  · intro i side
    change (e1.view.queue i side).map _ = (e3.view.queue i side).map _
    by_cases here : i = order.instrumentId ∧ side = order.side
    · obtain ⟨rfl, rfl⟩ := here
      have after := again.after
      rw [← twin.instrumentId, ← twin.side] at after
      rw [worked.after, after, List.map_append, List.map_append, List.map_append, List.map_append,
        keep_twin last_twin last_price]
    · have apart := here
      rw [twin.instrumentId, twin.side] at apart
      rw [worked.elsewhere i side here, again.elsewhere i side apart]
      exact congrArg _ (queues i side)
  · rw [worked.record]
    exact synced_at last_key (if_pos ⟨rfl, r.rekeyed.fields.1.symm⟩)
  · rw [again.record]
    obtain ⟨owner, number⟩ := Prod.mk.inj key'
    exact synced_at last_key' (if_pos ⟨owner.symm, number.symm⟩)
  · intro s' id other other'
    rw [worked.record, again.record]
    unfold View.synced
    rw [if_neg (last_key ▸ other'), if_neg (last_key' ▸ other')]
    refine (r.records other other').trans ?_
    exact (opened_other e2.view (key' ▸ other')).symm
  · rw [worked.leg, again.leg]
    exact r.leg.symm

end Reentering

variable [LawfulDecimal D]

end RustTrader.Engine
