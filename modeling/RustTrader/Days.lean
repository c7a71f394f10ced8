import RustTrader.Clock
import RustTrader.LastReport

/-!
# Days

Every accepted order is dated, and again when it is replaced. Cancellation and
fills leave its entry behind; expiry and disconnection remove entries. An active
order has the entry of the day it was last entered on.
-/

namespace RustTrader

open Decimal

variable {D : Type} [Decimal D]

/-- An order that is active now was active before. -/
def Older (before after : Option (Order D)) : Prop :=
  ∀ r', after = some r' → r'.state.isActive → ∃ r, before = some r ∧ r.state.isActive

omit [Decimal D] in
theorem Older.refl (r : Option (Order D)) : Older r r := fun r' recorded active =>
  ⟨r', recorded, active⟩

omit [Decimal D] in
theorem Older.gone (r : Option (Order D)) : Older r none := fun _ recorded _ => by cases recorded

theorem Follows.older {before after : Option (Order D)} {told : List (Order D)}
    (h : Follows before told after) (known : after ≠ none → before ≠ none) :
    Older before after := by
  intro r' recorded active
  cases before with
  | none => exact absurd rfl (known (by rw [recorded]; simp))
  | some r =>
    refine ⟨r, rfl, ?_⟩
    subst recorded
    cases h with
    | kept alike => rw [alike.active, active]
    | told open_ => exact open_ r rfl

theorem Coherent.Added.older [LawfulDecimal D] {v : View D} {gap : Gap} {order left final : Order D}
    {trades : List (RawTrade D)} {book' : OrderBook D}
    (a : Coherent.Added v gap order trades left final book') {s : String} {id : OrderId}
    (other : (s, id) ≠ order.identity) :
    Older (v.record s id) ((v.added order trades final book').record s id) := by
  have known : (v.added order trades final book').record s id ≠ none → v.record s id ≠ none := by
    rw [a.record_other other]
    exact fun after before => after (afterTrades_none trades before)
  by_cases hid : id = quoteOrderId
  · intro r' recorded _
    cases before : v.record s id with
    | none => exact absurd before (known (by rw [recorded]; simp))
    | some r => exact absurd hid (a.coherent.keyed s id r before).2.2
  · exact (a.follows hid other).older known

namespace Engine

/-- The day each order was last entered on, a command later. -/
def dayAfter (e : Engine D) (command : Command D) (days : String → OrderId → Option Int) :
    String → OrderId → Option Int :=
  match command with
  | .createOrder today s new =>
    if (accepted (e.createOrder today s new)).isSome then
      fun s' id => if (s', id) = (s, new.id) then some today else days s' id
    else days
  | .modifyOrderWithType today s origId newId orderType price quantity =>
    if (accepted (e.modifyOrderWithType today s origId newId orderType price quantity)).isSome then
      fun s' id => if (s', id) = (s, newId) then some today else days s' id
    else days
  | _ => days

/-- Runs of the engine, with the day each order was last entered on. -/
inductive DatedRun (policy : FillPolicy) : Engine D → (String → OrderId → Option Int) → Prop
  | start : DatedRun policy (withFillPolicy policy) (fun _ _ => none)
  | step {e e' : Engine D} {command : Command D} {days : String → OrderId → Option Int}
      (run : DatedRun policy e days) (step : Step e command e') :
      DatedRun policy e' (e.dayAfter command days)

theorem DatedRun.reachable {policy : FillPolicy} {e : Engine D}
    {days : String → OrderId → Option Int} (run : DatedRun policy e days) : Reachable policy e := by
  induction run with
  | start => exact .refl
  | step _ step ih => exact ih.tail ⟨_, trivial, step⟩

theorem Reachable.dated {policy : FillPolicy} {e : Engine D} (h : Reachable policy e) :
    ∃ days, DatedRun policy e days := by
  induction h with
  | refl => exact ⟨_, .start⟩
  | tail _ step ih =>
    obtain ⟨days, run⟩ := ih
    obtain ⟨command, -, step⟩ := step
    exact ⟨_, run.step step⟩

/-- Active orders are dated as `days` says, and only orders of registered sessions
are. -/
structure Dated (e : Engine D) (days : String → OrderId → Option Int) : Prop where
  entries : ∀ s id r, e.order s id = some r → r.state.isActive →
    ∃ day, days s id = some day ∧ HashMap.get? e.orderDates (s, id) = some day
  owners : ∀ s id day, HashMap.get? e.orderDates (s, id) = some day → e.Registered s

variable {days : String → OrderId → Option Int}

/-- A step that dates nothing. -/
theorem Dated.undated {e e' : Engine D} (h : Dated e days) (dates : e'.orderDates = e.orderDates)
    (registered : ∀ s, e.Registered s → e'.Registered s)
    (older : ∀ s id, Older (e.order s id) (e'.order s id)) : Dated e' days := by
  constructor
  · intro s id r' recorded active
    obtain ⟨r, before, active⟩ := older s id r' recorded active
    rw [dates]
    exact h.entries s id r before active
  · intro s id day entry
    rw [dates] at entry
    exact registered s (h.owners s id day entry)

/-- A step that enters one order, under its own identity or another's. -/
theorem Dated.entered {e e' : Engine D} (h : Dated e days) {s : String} {id : OrderId} {today : Int}
    (here : HashMap.get? e'.orderDates (s, id) = some today)
    (dates : ∀ s' id', (s', id') ≠ (s, id) → ∀ r', e'.order s' id' = some r' → r'.state.isActive →
      HashMap.get? e'.orderDates (s', id') = HashMap.get? e.orderDates (s', id'))
    (only : ∀ key, key ≠ (s, id) → ∀ day, HashMap.get? e'.orderDates key = some day →
      HashMap.get? e.orderDates key = some day)
    (self : e.Registered s) (registered : ∀ s, e'.Registered s ↔ e.Registered s)
    (older : ∀ s' id', (s', id') ≠ (s, id) → Older (e.order s' id') (e'.order s' id')) :
    Dated e' (fun s' id' => if (s', id') = (s, id) then some today else days s' id') := by
  constructor
  · intro s' id' r' recorded active
    by_cases same : (s', id') = (s, id)
    · exact ⟨today, if_pos same, same ▸ here⟩
    · obtain ⟨r, before, active'⟩ := older s' id' same r' recorded active
      obtain ⟨day, on, entry⟩ := h.entries s' id' r before active'
      exact ⟨day, (if_neg same).trans on, (dates s' id' same r' recorded active).trans entry⟩
  · intro s' id' day entry
    rw [registered]
    by_cases same : (s', id') = (s, id)
    · obtain ⟨rfl, -⟩ := Prod.mk.inj same
      exact self
    · exact h.owners s' id' day (only _ same day entry)

/-- Another order's record where an order has been recorded under a fresh identifier. -/
theorem record_opened {v : View D} {order : Order D} {s : String} {id : OrderId}
    (other : (s, id) ≠ order.identity) : (opened v order).record s id = v.record s id := by
  unfold opened View.setRecord
  exact if_neg (fun same => other (Prod.ext same.1 same.2))

theorem CreatedReal.older [LawfulDecimal D] {e e' : Engine D} {s : String} {new : NewOrder D}
    {trades : List (RawTrade D)} {left final : Order D} {book' : OrderBook D}
    {fills : List (Report D)} {execId : String}
    (done : CreatedReal e e' s new trades left final book' fills execId) {s' : String}
    {id : OrderId} (other : (s', id) ≠ (s, new.id)) : Older (e.order s' id) (e'.order s' id) := by
  have key : (e.incoming s new).identity = (s, new.id) := by
    rw [Order.identity, incoming_id, incoming_sessionId]
  rw [← key] at other
  have orders : e'.order = _ := congrArg View.record done.effect.view
  have before := record_opened (v := e.view) other
  rw [orders, show e.order s' id = _ from before.symm]
  exact done.added.older other

theorem Worked.record_other {e e' : Engine D} {v : View D} {order last : Order D} {plan : List D}
    {snaps front back : List (Order D)} {ack : Report D} {fills : List (Report D)}
    (w : Worked e e' v order plan last snaps front back ack fills) {s : String} {id : OrderId}
    (other : (s, id) ≠ order.identity) : e'.order s id = v.record s id := by
  have cont : Continues order last := (OrderBook.restState_continues order).trans w.chain.continues
  rw [w.record, View.synced, cont.identity, if_neg other]

theorem CreatedTiered.older {e e' : Engine D} {s : String} {new : NewOrder D} {plan : List D}
    {last : Order D} {snaps front back : List (Order D)} {execId : String}
    {fills : List (Report D)} (done : CreatedTiered e e' s new plan last snaps front back execId
      fills)
    {s' : String} {id : OrderId} (other : (s', id) ≠ (s, new.id)) :
    Older (e.order s' id) (e'.order s' id) := by
  have key : (e.incoming s new).identity = (s, new.id) := by
    rw [Order.identity, incoming_id, incoming_sessionId]
  rw [← key] at other
  have before := record_opened (v := e.view) other
  rw [done.worked.record_other other]
  change Older _ ((opened e.view (e.incoming s new)).record s' id)
  rw [before]
  exact .refl _

namespace Rekeyed

variable {policy : FillPolicy} {e e1 : Engine D} {s : String} {origId newId : OrderId}
  {orderType : OrderType} {price quantity remaining : D} {entry order : Order D}
  {book1 : OrderBook D} {plan : Option (List D)}

/-- No record is left under the identifier a replacement has given up. -/
theorem record_gone (k : Rekeyed policy e e1 s origId newId orderType price quantity entry order
    remaining book1 plan) (other : origId ≠ newId) :
    (rekeyed e.view entry.instrumentId book1 s origId order).record s origId = none := by
  unfold rekeyed View.setRecord
  simp [k.fields.1, other]

/-- The records of other identities once the original has left: gone, or as before. -/
theorem record_older (k : Rekeyed policy e e1 s origId newId orderType price quantity entry order
    remaining book1 plan) {s' : String} {id : OrderId} (other : (s', id) ≠ (s, newId)) :
    Older (e.order s' id)
      ((rekeyed e.view entry.instrumentId book1 s origId order).record s' id) := by
  by_cases orig : (s', id) = (s, origId)
  · obtain ⟨rfl, rfl⟩ := Prod.mk.inj orig
    rw [k.record_gone (fun same => other (by rw [same]))]
    exact .gone _
  · rw [k.record_other other orig]
    exact .refl _

end Rekeyed

/-- What a replacement makes of the records under other identifiers. -/
structure Supplants (e e' : Engine D) (s : String) (origId newId : OrderId) : Prop where
  older : ∀ s' id, (s', id) ≠ (s, newId) → Older (e.order s' id) (e'.order s' id)
  gone : origId ≠ newId → e'.order s origId = none
  registered : ∀ s', e'.Registered s' ↔ e.Registered s'

theorem ReplacedReal.supplants [LawfulDecimal D] {e e' e1 : Engine D} {s : String}
    {origId newId : OrderId} {orderType : OrderType} {price quantity remaining : D}
    {entry order : Order D} {book1 : OrderBook D} {plan : Option (List D)}
    (c : Coherent .real e.view none)
    (k : Rekeyed .real e e1 s origId newId orderType price quantity entry order remaining book1
      plan) (done : ReplacedReal e e' s origId entry order book1) :
    Supplants e e' s origId newId := by
  have key : order.identity = (s, newId) := by rw [Order.identity, k.session c, k.fields.1]
  cases done with
  | exhausted _ execId effect =>
    have orders : e'.order = _ := congrArg View.record effect.view
    refine ⟨fun s' id other => ?_, fun other => ?_, effect.registered⟩
    · rw [orders]
      exact k.record_older other
    · rw [orders]
      exact k.record_gone other
  | matched _ trades left final book' fills execId a filled effect =>
    have orders : e'.order = _ := congrArg View.record effect.view
    refine ⟨fun s' id other => ?_, fun other => ?_, effect.registered⟩
    · intro r' recorded active
      rw [orders] at recorded
      obtain ⟨r, before, active⟩ := a.older (key ▸ other) r' recorded active
      exact k.record_older other r before active
    · rw [orders, a.record_other (by rw [key]; simp [other])]
      exact afterTrades_none trades (k.record_gone other)

theorem ReplacedTiered.supplants {e e' e1 : Engine D} {s : String}
    {origId newId : OrderId} {orderType : OrderType} {price quantity remaining : D}
    {entry order : Order D} {book1 : OrderBook D} {plan : List D}
    (c : Coherent .tiered e.view none)
    (k : Rekeyed .tiered e e1 s origId newId orderType price quantity entry order remaining book1
      (some plan)) (done : ReplacedTiered e e' s origId entry order book1 plan) :
    Supplants e e' s origId newId := by
  have key : order.identity = (s, newId) := by rw [Order.identity, k.session c, k.fields.1]
  cases done with
  | exhausted _ execId effect =>
    have orders : e'.order = _ := congrArg View.record effect.view
    refine ⟨fun s' id other => ?_, fun other => ?_, effect.registered⟩
    · rw [orders]
      exact k.record_older other
    · rw [orders]
      exact k.record_gone other
  | worked _ last snaps front back execId fills w =>
    refine ⟨fun s' id other => ?_, fun other => ?_, w.effect.registered⟩
    · rw [w.record_other (key ▸ other)]
      exact k.record_older other
    · rw [w.record_other (by rw [key]; simp [other])]
      exact k.record_gone other

theorem Dated.created [LawfulDecimal D] {policy : FillPolicy} {e e' : Engine D}
    (c : Coherent policy e.view none) (hp : e.fillPolicy = policy) (h : Dated e days) {today : Int}
    {s : String} {new : NewOrder D} {reply : Except EngineError OrderId}
    (returns : e.createOrder today s new = .ok (reply, e')) :
    Dated e' (e.dayAfter (.createOrder today s new) days) := by
  have refused : ∀ err, e.createOrder today s new = .ok (.error err, e) →
      Dated e (e.dayAfter (.createOrder today s new) days) := by
    intro err returns
    simp only [dayAfter, returns, accepted]
    exact h
  have done : ∀ id, e.createOrder today s new = .ok (.ok id, e') → e.Registered s →
      (∀ s', e'.Registered s' ↔ e.Registered s') →
      (∀ s' id, (s', id) ≠ (s, new.id) → Older (e.order s' id) (e'.order s' id)) →
      Dated e' (e.dayAfter (.createOrder today s new) days) := by
    intro id returns self registered older
    obtain ⟨dates, -⟩ := Prod.mk.inj (clock_create returns)
    simp only [dayAfter, returns, accepted]
    refine h.entered ?_ ?_ ?_ self registered older
    · rw [dates, HashMap.get?_set_self]
    · intro s' id' other _ _ _
      rw [dates, HashMap.get?_set_ne _ _ other]
    · intro key other day entry
      rwa [dates, HashMap.get?_set_ne _ _ other] at entry
  cases policy with
  | real =>
    rcases createReal_cases c hp returns with
      ⟨err, rfl, -, rfl⟩ | ⟨rfl, trades, left, final, book', fills, execId, new'⟩
    · exact refused err returns
    · exact done _ returns new'.registered new'.effect.registered (fun _ _ => new'.older)
  | tiered =>
    rcases createTiered_cases c hp returns with
      ⟨err, rfl, -, rfl⟩ | ⟨rfl, plan, last, snaps, front, back, execId, fills, new'⟩
    · exact refused err returns
    · exact done _ returns new'.registered new'.worked.effect.registered (fun _ _ => new'.older)

theorem Dated.replaced [LawfulDecimal D] {policy : FillPolicy} {e e' : Engine D}
    (c : Coherent policy e.view none) (hp : e.fillPolicy = policy) (h : Dated e days) {today : Int}
    {s : String} {origId newId : OrderId} {orderType : OrderType} {price quantity : D}
    {reply : Except EngineError Unit}
    (returns : e.modifyOrderWithType today s origId newId orderType price quantity =
      .ok (reply, e')) :
    Dated e' (e.dayAfter (.modifyOrderWithType today s origId newId orderType price quantity)
      days) := by
  have refused : ∀ err, e.modifyOrderWithType today s origId newId orderType price quantity =
      .ok (.error err, e) → Dated e
        (e.dayAfter (.modifyOrderWithType today s origId newId orderType price quantity) days) := by
    intro err returns
    simp only [dayAfter, returns, accepted]
    exact h
  have done : e.modifyOrderWithType today s origId newId orderType price quantity =
      .ok (.ok (), e') → e.Registered s → Supplants e e' s origId newId → Dated e'
        (e.dayAfter (.modifyOrderWithType today s origId newId orderType price quantity) days) := by
    intro returns self replaced
    obtain ⟨dates, -⟩ := Prod.mk.inj (clock_modify c returns)
    simp only [dayAfter, returns, accepted]
    refine h.entered ?_ ?_ ?_ self replaced.registered replaced.older
    · rw [dates, HashMap.get?_set_self]
    · intro s' id' other r' recorded _
      rw [dates, HashMap.get?_set_ne _ _ other]
      refine HashMap.get?_remove_ne _ ?_
      intro orig
      obtain ⟨rfl, rfl⟩ := Prod.mk.inj orig
      have gone := replaced.gone (fun same => other (by rw [same]))
      rw [recorded] at gone
      cases gone
    · intro key other day entry
      rw [dates, HashMap.get?_set_ne _ _ other, HashMap.get?_remove] at entry
      split at entry
      · cases entry
      · exact entry
  cases policy with
  | real =>
    rcases modifyReal_cases c hp returns with
      ⟨⟨err, rfl, -, rfl⟩, -⟩ | ⟨rfl, e1, entry, order, remaining, book1, k, new'⟩
    · exact refused err returns
    · exact done returns k.registered (new'.supplants c k)
  | tiered =>
    rcases modifyTiered_cases c hp returns with
      ⟨err, rfl, -, rfl⟩ | ⟨rfl, e1, entry, order, remaining, book1, plan, k, -, new'⟩
    · exact refused err returns
    · exact done returns k.registered (new'.supplants c k)

theorem Expired.older {e e' : Engine D} {s : String} {id : OrderId} {entry : Order D}
    {book' : OrderBook D} {execId : String} (done : Expired e e' s id entry book' execId)
    (s' : String) (id' : OrderId) : Older (e.order s' id') (e'.order s' id') := by
  have orders : e'.order = _ := congrArg View.record done.effect.view
  rw [orders]
  intro r' recorded active
  by_cases same : s' = s ∧ id' = id
  · obtain ⟨rfl, rfl⟩ := same
    exact ⟨entry, done.recorded, done.active⟩
  · refine ⟨r', ?_, active⟩
    simp only [View.setRecord, same, if_false] at recorded
    exact recorded

theorem Cancelled.older {e e' : Engine D} {s : String} {origId clOrdId : OrderId}
    {entry : Order D} {book' : OrderBook D} {execId : String}
    (done : Cancelled e e' s origId clOrdId entry book' execId) (s' : String) (id' : OrderId) :
    Older (e.order s' id') (e'.order s' id') := by
  have orders : e'.order = _ := congrArg View.record done.effect.view
  rw [orders]
  intro r' recorded active
  by_cases same : s' = s ∧ id' = origId
  · obtain ⟨rfl, rfl⟩ := same
    exact ⟨entry, done.recorded, done.active⟩
  · refine ⟨r', ?_, active⟩
    simp only [View.setRecord, same, if_false] at recorded
    exact recorded

theorem Quoted.older {e e' : Engine D} {s : String} {i : Int} {v : View D}
    {trades : List (RawTrade D)} {fills : List (Report D)} (done : Quoted e e' s i v trades fills)
    (s' : String) (id : OrderId) : Older (e.order s' id) (e'.order s' id) := by
  have orders : e'.order = v.record := congrArg View.record done.effect.view
  have known : v.record s' id ≠ none → e.order s' id ≠ none := by
    rw [done.record]
    exact fun after before => after (afterTrades_none trades before)
  rw [orders]
  by_cases hid : id = quoteOrderId
  · intro r' recorded _
    exact absurd hid (done.coherent.keyed s' id r' recorded).2.2
  · exact (done.follows s' id hid).older known

/-- Expiry leaves every order older, and nobody unregistered. -/
theorem expire_older {policy : FillPolicy} {e e' : Engine D} (c : Coherent policy e.view none)
    {keys : List (String × OrderId)} (h : e.expireDayOrdersAt keys = .ok e') :
    (∀ s, e'.Registered s ↔ e.Registered s) ∧
      ∀ s id, Older (e.order s id) (e'.order s id) := by
  refine (expire_run (R := fun e e' => (∀ s, e'.Registered s ↔ e.Registered s) ∧
    ∀ s id, Older (e.order s id) (e'.order s id)) ?_ ?_ ?_ ?_ keys c h).1
  · exact fun e => ⟨fun _ => Iff.rfl, fun _ _ => .refl _⟩
  · rintro e e' e'' ⟨registered, older⟩ ⟨registered', older'⟩
    refine ⟨fun s => (registered' s).trans (registered s), ?_⟩
    intro s id r' recorded active
    obtain ⟨r, before, active⟩ := older' s id r' recorded active
    exact older s id r before active
  · intro e e' effect
    have orders : e'.order = e.order := congrArg View.record effect.view
    refine ⟨effect.registered, fun s id => ?_⟩
    rw [orders]
    exact .refl _
  · intro e e' s id entry book' execId _ done
    exact ⟨done.effect.registered, done.older⟩

theorem Dated.expired [LawfulDecimal D] {policy : FillPolicy} {e e' : Engine D}
    (c : Coherent policy e.view none) (h : Dated e days) {keys : List (String × OrderId)}
    (returns : e.expireDayOrdersAt keys = .ok e') (ended : ∀ key ∈ keys, ∀ r',
      e'.order key.1 key.2 = some r' → r'.state.isActive = false) : Dated e' days := by
  obtain ⟨registered, older⟩ := expire_older c returns
  have dates := (clock_expire returns).2
  constructor
  · intro s id r' recorded active
    obtain ⟨r, before, active'⟩ := older s id r' recorded active
    have kept : (s, id) ∉ keys := by
      intro mem
      rw [ended (s, id) mem r' recorded] at active
      cases active
    rw [dates, if_neg kept]
    exact h.entries s id r before active'
  · intro s id day entry
    rw [dates] at entry
    split at entry
    · cases entry
    · exact (registered s).mpr (h.owners s id day entry)

end Engine

end RustTrader
