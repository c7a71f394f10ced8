import RustTrader.Reference
import RustTrader.MarketRuns

/-!
# The duplicate-order assertion

A price level panics when an order is queued that it already holds. No command
runs into that panic: everything but the matcher cannot, whatever the books hold,
and the orders the engine adds are not in the book they are added to.
-/

namespace RustTrader

open Decimal

variable {D : Type} [Decimal D]

/-- The computation does not end in the assertion. -/
structure Spared {α : Type} (x : Exec α) : Prop where
  avoids : x ≠ .error .duplicateOrder

namespace Spared

variable {α β : Type}

theorem ok {a : α} : Spared (.ok a) := ⟨nofun⟩

theorem pure {a : α} : Spared (Pure.pure a : Exec α) := ok

theorem error {p : Panic} (h : p ≠ .duplicateOrder) : Spared (.error p : Exec α) :=
  ⟨fun same => h (Except.error.inj same)⟩

theorem of_fails {x : Exec α} (h : ∀ p, x = .error p → p ≠ .duplicateOrder) : Spared x :=
  ⟨fun same => h _ same rfl⟩

theorem bind {x : Exec α} {f : α → Exec β} (h : Spared x)
    (next : ∀ a, x = .ok a → Spared (f a)) : Spared (x >>= f) := by
  cases x with
  | error p => exact error (fun same => h.avoids (congrArg Except.error same))
  | ok a => exact next a rfl

theorem unwrap (x : Option α) : Spared (RustTrader.unwrap x) := by
  cases x with
  | none => exact error (by decide)
  | some a => exact ok

theorem foldlM {f : β → α → Exec β} (step : ∀ b a, Spared (f b a)) (l : List α) :
    ∀ b, Spared (l.foldlM f b) := by
  induction l with
  | nil => exact fun b => ok
  | cons a l ih =>
    intro b
    rw [List.foldlM_cons]
    exact (step b a).bind (fun b' _ => ih b')

theorem rounds {x : Exec D} {exact_ : ℚ} (h : Rounds x exact_) : Spared x := by
  refine of_fails ?_
  intro p hp
  rw [h.panic p hp]
  decide

end Spared

section Lawful

variable [LawfulDecimal D]

theorem spared_tolerable {α : Type} {x : Exec α}
    (h : ∀ p, x = .error p → p = .decimal ∨ p = .priorityExhausted) : Spared x := by
  refine .of_fails ?_
  intro p hp
  rcases h p hp with rfl | rfl <;> decide

namespace PriceLevel

theorem spared_remove (level : PriceLevel D) (session : String) (id : OrderId) :
    Spared (level.remove session id) := by
  unfold remove
  split
  · exact .pure
  · refine Spared.bind (.unwrap _) (fun order _ => ?_)
    exact Spared.bind (.rounds (LawfulDecimal.sub_rounds _ _)) (fun total _ => .pure)

theorem spared_pushBack {level : PriceLevel D} {order : Order D}
    (absent : HashMap.contains level.index order.identity = false) :
    Spared (level.pushBack order) := by
  unfold pushBack
  simp only
  split
  · exact .error (by decide)
  · unfold insertAt
    rw [absent]
    exact Spared.bind (.rounds (LawfulDecimal.add_rounds _ _)) (fun total _ => .pure)

theorem spared_updateFill (level : PriceLevel D) (order : Order D) (quantity : D) :
    Spared (level.updateFill order quantity) := by
  unfold updateFill
  split
  · refine Spared.bind (spared_remove ..) (fun removed _ => ?_)
    exact Spared.bind (.unwrap _) (fun pair _ => .pure)
  · refine Spared.bind (.rounds (LawfulDecimal.sub_rounds _ _)) (fun total _ => ?_)
    refine Spared.bind (.unwrap _) (fun key _ => ?_)
    exact Spared.bind (.unwrap _) (fun resting _ => .pure)

end PriceLevel

namespace OrderBook

theorem spared_remove (book : OrderBook D) (session : String) (id : OrderId) (side : Side)
    (price : D) : Spared (book.remove session id side price) := by
  unfold remove
  split
  · exact .pure
  · refine Spared.bind (PriceLevel.spared_remove ..) (fun removed _ => ?_)
    cases removed <;> exact .pure

/-- The tiered book looks for a duplicate before it queues an order. -/
theorem spared_insertOnly (book : OrderBook D) (order : Order D) :
    Spared (book.insertOnly order) := by
  unfold insertOnly
  split
  · exact .pure
  · change Spared (if HashMap.contains ((book.levels order.side).getD order.price
      (PriceLevel.new order.price)).index order.identity = true then _ else _)
    split
    · exact .pure
    · rename_i absent
      have waits : ((book.levels order.side).getD order.price
          (PriceLevel.new order.price)).index.contains (restState order).identity = false :=
        eq_false_of_ne_true absent
      exact Spared.bind (PriceLevel.spared_pushBack waits) (fun level _ => .pure)

theorem spared_execute (book : OrderBook D) (session : String) (id : OrderId) (side : Side)
    (keyPrice qty fillPrice : D) :
    Spared (book.execute session id side keyPrice qty fillPrice) := by
  unfold execute
  split
  · exact .pure
  split
  · exact .pure
  split
  · exact .pure
  split
  · exact .pure
  split
  · exact .pure
  refine Spared.bind ?_ (fun filled _ => ?_)
  · refine .of_fails (fun p hp => ?_)
    rw [applyFill_error hp]
    decide
  · exact Spared.bind (PriceLevel.spared_updateFill ..) (fun level _ => .pure)

end OrderBook

namespace Engine

theorem spared_removeFromBook (e : Engine D) (s : String) (id : OrderId) (side : Side) (price : D)
    (i : Int) : Spared (e.removeFromBook s id side price i) := by
  unfold removeFromBook
  split
  · exact .pure
  · refine Spared.bind (OrderBook.spared_remove ..) (fun removed _ => ?_)
    cases removed <;> exact .pure

theorem spared_recordMarketData (e : Engine D) (i : Int) (trades : List (RawTrade D)) :
    Spared (e.recordMarketData i trades) :=
  spared_tolerable (fun _ h => recordMarketData_error h)

omit [LawfulDecimal D] in
theorem spared_publishMarketData (e : Engine D) : Spared e.publishMarketData := by
  unfold publishMarketData
  refine Spared.foldlM ?_ _ _
  intro e entry
  unfold publishInstrument
  refine Spared.bind (.unwrap _) (fun stats _ => Spared.bind ?_ (fun marketData _ => .pure))
  unfold MarketDataPublisher.publish
  split
  · exact .error (by decide)
  · exact .pure

theorem spared_dropResting (e : Engine D) (s : String) (i : Int) (leg : Order D) :
    Spared (e.dropResting s i leg) :=
  Spared.bind (spared_removeFromBook ..) (fun _ _ => .pure)

theorem spared_sessionDisconnect (e : Engine D) (s : String) (orders : List (OrderId × Order D))
    (quotes : List (Int × QuotePair D)) : Spared (e.sessionDisconnect s orders quotes) := by
  unfold sessionDisconnect
  split
  · exact .pure
  · refine Spared.bind ?_ (fun ea _ => Spared.bind ?_ (fun eb _ => spared_publishMarketData eb))
    · refine Spared.foldlM ?_ _ _
      intro e entry
      exact Spared.bind (spared_removeFromBook ..) (fun _ _ => spared_recordMarketData ..)
    · refine Spared.foldlM ?_ _ _
      intro e entry
      exact Spared.bind (Spared.foldlM (fun e leg => spared_dropResting e s _ leg) _ _)
        (fun _ _ => spared_recordMarketData ..)

theorem spared_expireDayOrdersAt (e : Engine D) (keys : List (String × OrderId)) :
    Spared (e.expireDayOrdersAt keys) := by
  unfold expireDayOrdersAt
  refine Spared.bind (Spared.foldlM ?_ _ _) (fun mid _ => spared_publishMarketData mid)
  intro e key
  unfold expireOrder
  simp only
  split
  · exact .pure
  · split
    · exact .pure
    · refine Spared.bind (spared_removeFromBook ..) (fun _ _ => ?_)
      exact Spared.bind (spared_recordMarketData ..) (fun _ _ => .pure)

theorem spared_cancelOrderWithId (e : Engine D) (s : String) (origId clOrdId : OrderId) :
    Spared (e.cancelOrderWithId s origId clOrdId) := by
  unfold cancelOrderWithId
  split
  · exact .pure
  · refine Spared.bind (spared_removeFromBook ..) (fun pair _ => ?_)
    obtain ⟨removed, ea⟩ := pair
    cases removed with
    | error err => exact .pure
    | ok removed =>
      refine Spared.bind (.unwrap _) (fun session _ => ?_)
      refine Spared.bind (spared_recordMarketData ..) (fun _ _ => ?_)
      exact Spared.bind (spared_publishMarketData _) (fun _ _ => .pure)

theorem spared_tieredInsert (e : Engine D) (s : String) (i : Int) (order : Order D) :
    Spared (e.tieredInsert s i order) := by
  unfold tieredInsert
  refine Spared.bind (OrderBook.spared_insertOnly ..) (fun inserted _ => ?_)
  cases inserted <;> exact .pure

theorem spared_tieredFillExisting (s : String) (i : Int) (order : Order D) (plan : List D) :
    ∀ (e : Engine D) (index : Nat), Spared (tieredFillExisting s i order e plan index) := by
  induction plan with
  | nil => exact fun _ _ => .pure
  | cons chunk plan ih =>
    intro e index
    unfold tieredFillExisting
    split
    · exact .pure
    · refine Spared.bind (OrderBook.spared_execute ..) (fun executed _ => ?_)
      cases executed with
      | error err => exact .pure
      | ok pair => exact ih _ _

theorem spared_createTiered (e : Engine D) (s : String) (new : NewOrder D) (order : Order D)
    (plan : List D) : Spared (e.createTiered s new order plan) := by
  unfold createTiered
  refine Spared.bind (spared_tieredInsert ..) (fun pair _ => ?_)
  obtain ⟨inserted, ea⟩ := pair
  cases inserted with
  | error err =>
    refine Spared.bind (spared_recordMarketData ..) (fun _ _ => ?_)
    exact Spared.bind (spared_publishMarketData _) (fun _ _ => .pure)
  | ok snapshot =>
    refine Spared.bind (spared_tieredFillExisting ..) (fun _ _ => ?_)
    refine Spared.bind (spared_recordMarketData ..) (fun _ _ => ?_)
    exact Spared.bind (spared_publishMarketData _) (fun _ _ => .pure)

theorem spared_tierFillPlan (remaining : D) : Spared (tierFillPlan remaining) := by
  have lots : ∀ (fuel : Nat) (rest : D), Spared (tierLots fuel rest) := by
    intro fuel
    induction fuel with
    | zero => exact fun _ => .error (by decide)
    | succ fuel ih =>
      intro rest
      unfold tierLots
      split
      · refine Spared.bind (.rounds (LawfulDecimal.sub_rounds _ _)) (fun rest' _ => ?_)
        exact Spared.bind (ih rest') (fun _ _ => .pure)
      · exact .pure
  have two : (lit 2 0 : D) ≠ 0 := by
    intro same
    have h := congrArg val same
    rw [LawfulDecimal.val_zero, LawfulDecimal.val_lit _ _ (by norm_num) (by norm_num)] at h
    norm_num at h
  unfold tierFillPlan
  split
  · exact .pure
  split
  · exact .pure
  split
  · exact .pure
  split
  · exact Spared.bind (.rounds (LawfulDecimal.div_rounds _ _ two)) (fun _ _ => .pure)
  split
  · exact .pure
  · exact Spared.bind (lots _ _) (fun _ _ => .pure)

theorem spared_planFor (policy : FillPolicy) (remaining : D) :
    Spared (planFor policy remaining) := by
  cases policy with
  | real => exact .pure
  | tiered => exact Spared.bind (spared_tierFillPlan _) (fun _ _ => .pure)

/-- An order that the engine adds is not in the book that it is added to. -/
theorem Incoming.spared {e : Engine D} (c : Coherent .real e.view none)
    (policy : e.fillPolicy = .real)
    {book : OrderBook D} {order : Order D} (incoming : Incoming e book order) :
    Spared (book.add order) := by
  obtain ⟨v, gap, cv, arrives, rfl⟩ := incoming.arrives c policy
  exact spared_tolerable (fun _ h => OrderBook.add_error (cv.admits arrives) h)

omit [LawfulDecimal D] in
theorem spared_addToBook {e : Engine D} {order : Order D}
    (h : Spared ((e.book order.instrumentId).add order)) : Spared (e.addToBook order) :=
  Spared.bind h (fun _ _ => .pure)

theorem spared_createReal {e ea : Engine D} (c : Coherent .real e.view none)
    (policy : e.fillPolicy = .real) {s : String} {new : NewOrder D}
    (accepted : e.checkCreate s new = .ok ())
    (books : ea.book new.instrumentId = e.book new.instrumentId) :
    Spared (ea.createReal new (e.numberOrder s new).1) := by
  have place : (e.numberOrder s new).1.instrumentId = new.instrumentId := by
    change (e.incoming s new).instrumentId = _
    rw [incoming_eq]
  unfold createReal
  refine Spared.bind (spared_addToBook ?_) (fun added _ => ?_)
  · rw [place, books]
    exact (Incoming.create s new accepted).spared c policy
  · refine Spared.bind (spared_recordMarketData ..) (fun eb _ => ?_)
    refine Spared.bind (spared_publishMarketData _) (fun ec _ => ?_)
    split
    · exact .pure
    · change Spared (if _ then _ else _)
      split <;> exact .pure

theorem spared_createOrder {policy : FillPolicy} {e : Engine D} (c : Coherent policy e.view none)
    (hpolicy : e.fillPolicy = policy) (today : Int) (s : String) (new : NewOrder D) :
    Spared (e.createOrder today s new) := by
  unfold createOrder
  cases accepted : e.checkCreate s new with
  | error err => exact .pure
  | ok u =>
    refine Spared.bind (spared_planFor ..) (fun plan hplan => ?_)
    cases plan with
    | error err => exact .pure
    | ok plan =>
      unfold acceptOrder
      simp only
      split
      · exact .pure
      · cases plan with
        | some plan => exact spared_createTiered ..
        | none =>
          subst hpolicy
          cases policy : e.fillPolicy with
          | tiered =>
            rw [policy] at hplan
            obtain ⟨plan, -, hplan⟩ := Exec.bind_ok.mp hplan
            cases plan <;> cases hplan
          | real =>
            rw [policy] at c
            exact spared_createReal c policy accepted rfl

theorem spared_replacementPlan (e : Engine D) (entry : Order D) (quantity : D) :
    Spared (e.replacementPlan entry quantity) := by
  unfold replacementPlan
  split
  · exact spared_planFor ..
  · exact Spared.bind (.rounds (LawfulDecimal.sub_rounds _ _)) (fun _ _ => spared_planFor ..)

omit [LawfulDecimal D] in
/-- Only the real policy replaces without a plan. -/
theorem replacementPlan_none {e : Engine D} {entry : Order D} {quantity : D}
    (h : e.replacementPlan entry quantity = .ok (.ok none)) : e.fillPolicy = .real := by
  unfold replacementPlan at h
  split at h
  · assumption
  · obtain ⟨remaining, -, h⟩ := Exec.bind_ok.mp h
    obtain ⟨plan, -, h⟩ := Exec.bind_ok.mp h
    cases plan <;> cases h

omit [LawfulDecimal D] in
theorem spared_rekey (e : Engine D) (today : Int) (s : String) (origId : OrderId)
    (order : Order D) : Spared (e.rekey today s origId order) :=
  Spared.bind (.unwrap _) (fun _ _ => .pure)

/-- Confirming a replacement adds it to the book, if at all. -/
theorem spared_confirmReplacement {e : Engine D} {s : String} {origId : OrderId} {order : Order D}
    {plan : Option (List D)} (h : plan = none → order.remaining ≠ 0 →
      Spared ((e.book order.instrumentId).add order)) :
    Spared (e.confirmReplacement s origId order plan) := by
  unfold confirmReplacement
  refine Spared.bind ?_ (fun pair hrest => ?_)
  · unfold restReplacement
    split
    · exact .pure
    split
    · exact .pure
    · exact Spared.bind (spared_tieredInsert ..) (fun _ _ => .pure)
  obtain ⟨rested, ea⟩ := pair
  cases rested with
  | error err =>
    refine Spared.bind (spared_recordMarketData ..) (fun _ _ => ?_)
    exact Spared.bind (spared_publishMarketData _) (fun _ _ => .pure)
  | ok snapshot =>
    change Spared (if _ then _ else _)
    split
    · exact Spared.bind (spared_publishMarketData _) (fun _ _ => .pure)
    · rename_i remains
      unfold workReplacement
      cases plan with
      | none =>
        cases hrest
        refine Spared.bind (spared_addToBook ?_) (fun added _ => ?_)
        · obtain ⟨execId, told⟩ := sendStatusFor_effect e order order.id .replaced (some origId)
          have books := congrArg View.book told.view
          change Spared (((e.sendStatusFor ..).view.book _).add order)
          rw [books]
          exact h rfl remains
        refine Spared.bind (spared_recordMarketData ..) (fun eb _ => ?_)
        refine Spared.bind (spared_publishMarketData _) (fun ec _ => ?_)
        split <;> exact .pure
      | some plan =>
        refine Spared.bind (.unwrap _) (fun _ _ => ?_)
        refine Spared.bind (spared_tieredFillExisting ..) (fun _ _ => ?_)
        refine Spared.bind (spared_recordMarketData ..) (fun eb _ => ?_)
        exact Spared.bind (spared_publishMarketData _) (fun ec _ => .pure)

theorem spared_modifyOrderWithType {policy : FillPolicy} {e : Engine D}
    (c : Coherent policy e.view none) (hpolicy : e.fillPolicy = policy) (today : Int) (s : String)
    (origId newId : OrderId) (orderType : OrderType) (price quantity : D) :
    Spared (e.modifyOrderWithType today s origId newId orderType price quantity) := by
  unfold modifyOrderWithType
  cases checked : e.checkModify s origId newId orderType price quantity with
  | error err => exact .pure
  | ok entry =>
    refine Spared.bind (spared_replacementPlan ..) (fun plan hplan => ?_)
    cases plan with
    | error err => exact .pure
    | ok plan =>
      refine Spared.bind (spared_removeFromBook ..) (fun pair hremove => ?_)
      obtain ⟨removed, ea⟩ := pair
      cases removed with
      | error err => exact Spared.bind (.unwrap _) (fun _ _ => .pure)
      | ok removed =>
        refine Spared.bind (spared_recordMarketData ..) (fun eb hrecord => ?_)
        refine Spared.bind (.rounds (LawfulDecimal.sub_rounds _ _)) (fun remaining hsub => ?_)
        refine Spared.bind (spared_rekey ..) (fun e1 hrekey => ?_)
        refine spared_confirmReplacement ?_
        rintro rfl open_
        have hq := recordMarketData_quiet hrecord
        have books : e1.book = ea.book := by
          have moved := congrArg View.book (rekey_effect hrekey).view
          exact moved.trans (congrArg View.book hq.view)
        obtain ⟨recorded, active, -⟩ := checkModify_ok checked
        obtain ⟨book1, same, rfl, -, -⟩ := removeFromBook_active c recorded active hremove
        have numbered : eb.nextArrival = e.nextArrival := hq.nextArrival
        have kept : eb.fillPolicy = e.fillPolicy := hq.fillPolicy
        have policy := replacementPlan_none hplan
        rw [books, kept, policy, numbered]
        subst hpolicy
        rw [policy] at c
        exact (Incoming.replace s origId newId orderType price quantity entry removed _ remaining
          checked hremove hsub open_).spared c policy

omit [LawfulDecimal D] in
theorem spared_quoteLeg {e : Engine D} {s : String} {i : Int} {side : Side} {price quantity : D}
    {exchangeId : String} (h : price ≠ 0 →
      Spared ((e.book i).add (e.legOrder s i side price quantity exchangeId))) :
    Spared (e.quoteLeg s i side price quantity exchangeId) := by
  unfold quoteLeg
  split
  · exact .pure
  · rename_i priced
    exact Spared.bind (spared_addToBook (h priced)) (fun _ _ => .pure)

theorem spared_quote {policy : FillPolicy} {e : Engine D} (c : Coherent policy e.view none)
    (hpolicy : e.fillPolicy = policy) (s : String) (i : Int)
    (bidPrice bidQuantity askPrice askQuantity : D) :
    Spared (e.quote s i bidPrice bidQuantity askPrice askQuantity) := by
  unfold quote
  cases accepted : e.checkQuote s i bidPrice bidQuantity askPrice askQuantity with
  | error err => exact .pure
  | ok session =>
    have policy : e.fillPolicy = .real := by
      have real := (checkQuote_ok accepted).real
      cases hp : e.fillPolicy with
      | real => rfl
      | tiered => exact absurd hp real
    subst hpolicy
    rw [policy] at c
    refine Spared.bind (Spared.foldlM (fun e leg => spared_dropResting e s i leg) _ _)
      (fun e1 withdrawn => ?_)
    refine Spared.bind (spared_quoteLeg (fun priced => ?_)) (fun bid matched => ?_)
    · exact (Incoming.bid s i bidPrice bidQuantity askPrice askQuantity session e1 accepted
        withdrawn priced).spared c policy
    obtain ⟨bidTrades, bid, e2⟩ := bid
    refine Spared.bind (spared_quoteLeg (fun priced => ?_)) (fun ask _ => ?_)
    · exact (Incoming.ask s i bidPrice bidQuantity askPrice askQuantity session e1 e2 bidTrades bid
        accepted withdrawn matched priced).spared c policy
    refine Spared.bind (.unwrap _) (fun session _ => ?_)
    refine Spared.bind (spared_recordMarketData ..) (fun eb _ => ?_)
    exact Spared.bind (spared_publishMarketData _) (fun ec _ => .pure)

/-- No command of a reachable engine runs into the assertion. -/
theorem never_duplicate {policy : FillPolicy} {e : Engine D} (h : Reachable policy e)
    {command : Command D} {x : Exec (Engine D)} (outcome : Outcome e command x) : Spared x := by
  obtain ⟨c, hpolicy⟩ := reachable_coherent h
  cases outcome with
  | createInstrument symbol => exact .ok
  | registerSession s fresh => exact .ok
  | sessionDisconnect s orders quotes visits => exact spared_sessionDisconnect ..
  | createOrder today s new =>
    exact Spared.bind (spared_createOrder c hpolicy ..) (fun _ _ => .pure)
  | modifyOrderWithType today s origId newId orderType price quantity =>
    exact Spared.bind (spared_modifyOrderWithType c hpolicy ..) (fun _ _ => .pure)
  | cancelOrderWithId s origId clOrdId =>
    exact Spared.bind (spared_cancelOrderWithId ..) (fun _ _ => .pure)
  | quote s i bidPrice bidQuantity askPrice askQuantity =>
    exact Spared.bind (spared_quote c hpolicy ..) (fun _ _ => .pure)
  | expireDayOrdersAt today keys visits => exact spared_expireDayOrdersAt ..

end Engine

end Lawful

end RustTrader
