import RustTrader.States
import RustTrader.Fix.Announcements
import RustTrader.Fix.WireIds

/-!
# Trading requests

`handle_business` of `fix/session.rs`: a decoded request is checked against the
identifiers of the connection and the engine, handed to the engine, and refused
with one message if either of them refuses it.
-/

namespace RustTrader.Fix

open Decimal

variable {D : Type} [Decimal D]

/-- What a connection has to write. -/
inductive OutMsg (D : Type) where
  | message (msgType : String) (fields : Fields)
  | report (report : Report D)
  | gapFill (beginSeq endSeq : Nat)
  | shutdown
  | logoutAndShutdown (fields : Fields)

def cancelRejectFields (clOrdId origClOrdId responseTo : String) (order : Option (Order D))
    (reason : String) : Fields :=
  [(37, (order.map Order.exchangeId).getD "NONE"), (11, clOrdId), (41, origClOrdId),
    (434, responseTo), (102, if order.isSome then "0" else "1"),
    (39, (order.map fun o => ordStatusToFix o.state).getD "8"), (58, reason)]

/-- The fields of a rejected order; `rejectId` is the counter of rejections. -/
def rejectedExecutionFields (now : String) (rejectId : Nat) (clOrdId : String)
    (origClOrdId : Option String) (symbol : String) (side : Side) (orderType : OrderType)
    (quantity : D) (reason : String) : Fields :=
  [(37, "0"), (17, "REJ-" ++ rejectId.repr), (20, "0"), (150, "8"), (39, "8"),
    (54, sideToFix side), (38, fixDecimal quantity),
    (40, if orderType = .market then "1" else "2"), (151, "0"), (14, "0"), (44, "0"),
    (11, clOrdId), (55, symbol), (58, reason), (60, now)] ++
  (origClOrdId.toList.map fun orig => (41, orig))

/-- Set the first field with a tag. -/
def setField (tag : Nat) (value : String) : Fields → Fields
  | [] => []
  | field :: fields =>
    if field.1 = tag then (field.1, value) :: fields else field :: setField tag value fields

/-- The rejection of a new order. -/
def rejectedOrderFields (now : String) (rejectId : Nat) (clOrdId symbol : String) (side : Side)
    (orderType : OrderType) (price quantity : D) (reason : String) : Fields :=
  setField 44 (fixDecimal price)
    (rejectedExecutionFields now rejectId clOrdId none symbol side orderType quantity reason ++
      [(6, "0")])

/-- Whether an error fails the connection, and its text. -/
def propagateEngineFault : EngineError → Bool × String
  | .bookInvariantViolation context => (true, "internal book fault: " ++ context)
  | err => (false, err.display)

/-- The order a text names, if the session has it. -/
def named (e : Engine D) (session : String) (ids : WireIdMap) (wire : String) : Option (Order D) :=
  (HashMap.get? ids.wireToInternal wire).bind (e.order session)

/-- The order a cancellation or replacement is about. -/
def original (e : Engine D) (session : String) (ids : WireIdMap) (origClOrdId symbol : String)
    (side : Side) : Except String OrderId :=
  match HashMap.get? ids.wireToInternal origClOrdId with
  | none => .error "unknown original ClOrdID"
  | some id =>
    match e.order session id with
    | none => .error "unknown order"
    | some order =>
      match e.instruments.getBySymbol symbol with
      | none => .error "unknown symbol"
      | some instrument =>
        if order.side ≠ side ∨ order.instrumentId ≠ instrument.id then
          .error "symbol/side differs from original order"
        else .ok id

/-- The outcome of a request: done, or refused with a text and perhaps a fault. -/
abbrev Attempt (D : Type) [Decimal D] := Except (Bool × String) Unit × Engine D

def attempt {α : Type} (reply : Except EngineError α × Engine D) : Attempt D :=
  ((reply.1.map fun _ => ()).mapError propagateEngineFault, reply.2)

def enterOrder (today : Int) (e : Engine D) (session : String) (fresh : Except String OrderId)
    (symbol : String) (side : Side) (orderType : OrderType) (price quantity : D) :
    Exec (Attempt D) :=
  match fresh with
  | .error reason => pure (.error (false, reason), e)
  | .ok id =>
    match e.instruments.getBySymbol symbol with
    | none => pure (.error (false, "unknown symbol"), e)
    | some instrument => do
      let reply ← e.createOrder today session
        ⟨id, instrument.id, side, orderType, price, quantity⟩
      pure (attempt reply)

def cancelOrder (e : Engine D) (session : String) (ids : WireIdMap)
    (fresh : Except String OrderId) (origClOrdId symbol : String) (side : Side) :
    Exec (Attempt D) :=
  match fresh with
  | .error reason => pure (.error (false, reason), e)
  | .ok request =>
    match original e session ids origClOrdId symbol side with
    | .error reason => pure (.error (false, reason), e)
    | .ok original => do
      let reply ← e.cancelOrderWithId session original request
      pure (attempt reply)

def replaceOrder (today : Int) (e : Engine D) (session : String) (ids : WireIdMap)
    (fresh : Except String OrderId) (origClOrdId symbol : String) (side : Side)
    (orderType : OrderType) (price quantity : D) : Exec (Attempt D) :=
  match fresh with
  | .error reason => pure (.error (false, reason), e)
  | .ok request =>
    match original e session ids origClOrdId symbol side with
    | .error reason => pure (.error (false, reason), e)
    | .ok original => do
      let reply ← e.modifyOrderWithType today session original request orderType price quantity
      pure (attempt reply)

/-- What a request leaves: the messages sent besides the engine's reports, whether
the connection has failed, and the fault to log. -/
structure Handled (D : Type) [Decimal D] where
  engine : Engine D
  ids : WireIdMap
  messages : List (OutMsg D)
  failed : Bool
  fault : Option String

/-- Refuse what was refused, unless the connection has failed. -/
def conclude (failed : Bool) (ids : WireIdMap) (refuse : Engine D → String → OutMsg D) :
    Attempt D → Handled D
  | (.ok (), e) => ⟨e, ids, [], failed, none⟩
  | (.error (fault, reason), e) =>
    if failed || fault then ⟨e, ids, [], true, some reason⟩
    else ⟨e, ids, [refuse e reason], false, none⟩

def massQuote (e : Engine D) (session symbol : String) (bidPx bidQty offerPx offerQty : D) :
    Exec (Except String Unit × Engine D) :=
  match e.instruments.getBySymbol symbol with
  | none => pure (.error "unknown symbol", e)
  | some instrument => do
    let (reply, e) ← e.quote session instrument.id bidPx bidQty offerPx offerQty
    pure (reply.mapError EngineError.display, e)

/-- The acknowledgement of a quote, if one was asked for. -/
def quoteAck (quoteId : String) (responseLevel : Nat) (result : Except String Unit) :
    List (OutMsg D) :=
  match result with
  | .ok () =>
    if responseLevel = 2 then [.message "b" (buildMassQuoteAck quoteId)] else []
  | .error err =>
    if responseLevel = 2 ∨ responseLevel = 1 then
      [.message "b" (setField 297 "5" (buildMassQuoteAck quoteId) ++ [(300, "8"), (58, err)])]
    else []

def handleBusiness (today : Int) (now : String) (rejectId : Nat) (failed : Bool) (e : Engine D)
    (session : String) (ids : WireIdMap) : Inbound D → Exec (Handled D)
  | .newOrderSingle clOrdId symbol side orderType price quantity => do
    let (fresh, ids) := ids.freshId clOrdId
    let done ← enterOrder today e session fresh symbol side orderType price quantity
    pure (conclude failed ids (fun _ reason => .message "8"
      (rejectedOrderFields now rejectId clOrdId symbol side orderType price quantity reason)) done)
  | .cancelRequest clOrdId origClOrdId symbol side => do
    let (fresh, ids) := ids.freshId clOrdId
    let done ← cancelOrder e session ids fresh origClOrdId symbol side
    pure (conclude failed ids (fun e reason => .message "9"
      (cancelRejectFields clOrdId origClOrdId "1" (named e session ids origClOrdId) reason)) done)
  | .cancelReplace clOrdId origClOrdId symbol side orderType price quantity => do
    let (fresh, ids) := ids.freshId clOrdId
    let done ← replaceOrder today e session ids fresh origClOrdId symbol side orderType price
      quantity
    pure (conclude failed ids (fun e reason => .message "9"
      (cancelRejectFields clOrdId origClOrdId "2" (named e session ids origClOrdId) reason)) done)
  | .massQuote quoteId responseLevel symbol bidPx bidQty offerPx offerQty => do
    let (result, e) ← massQuote e session symbol bidPx bidQty offerPx offerQty
    pure ⟨e, ids, quoteAck quoteId responseLevel result, failed, none⟩
  | _ => pure ⟨e, ids, [], failed, none⟩

/-- A refused attempt leaves the engine alone and does not fail the connection. -/
def Declined (e : Engine D) (done : Attempt D) : Prop :=
  ∃ reason, done = (.error (false, reason), e)

theorem attempt_refused {α : Type} {e e' : Engine D} {reply : Except EngineError α}
    (h : Engine.Refused e e' reply) : Declined e (attempt (reply, e')) := by
  obtain ⟨err, rfl, external, rfl⟩ := h
  cases err with
  | bookInvariantViolation context => exact absurd rfl (external context)
  | _ => exact ⟨_, rfl⟩

theorem conclude_declined {e : Engine D} {done : Attempt D} (h : Declined e done)
    (ids : WireIdMap) (refuse : Engine D → String → OutMsg D) :
    ∃ reason, conclude false ids refuse done = ⟨e, ids, [refuse e reason], false, none⟩ := by
  obtain ⟨reason, rfl⟩ := h
  exact ⟨reason, rfl⟩

@[simp] theorem conclude_engine (failed : Bool) (ids : WireIdMap)
    (refuse : Engine D → String → OutMsg D) (done : Attempt D) :
    (conclude failed ids refuse done).engine = done.2 := by
  obtain ⟨outcome, e⟩ := done
  cases outcome with
  | ok _ => rfl
  | error refused =>
    unfold conclude
    dsimp only
    split <;> rfl

section Lawful

variable [LawfulDecimal D] {policy : FillPolicy} {e : Engine D} {today : Int} {session : String}
  {ids : WireIdMap} {fresh : Except String OrderId} {symbol origClOrdId : String} {side : Side}
  {orderType : OrderType} {price quantity : D} {done : Attempt D}

/-- A new order is declined, or reported on. -/
theorem enterOrder_cases (c : Coherent policy e.view none) (hp : e.fillPolicy = policy)
    (h : enterOrder today e session fresh symbol side orderType price quantity = .ok done) :
    Declined e done ∨ ∃ id instrumentId news, fresh = .ok id ∧ done.1 = .ok () ∧
      Step e (.createOrder today session
        ⟨id, instrumentId, side, orderType, price, quantity⟩) done.2 ∧
      done.2.sent = e.sent ++ news ∧
      (∀ report ∈ news, Engine.Announced e (.createOrder today session
        ⟨id, instrumentId, side, orderType, price, quantity⟩) report) ∧
      ∃ report ∈ news, report.order.identity = (session, id) := by
  unfold enterOrder at h
  cases fresh with
  | error reason =>
    cases h
    exact .inl ⟨reason, rfl⟩
  | ok id =>
    dsimp only at h
    split at h
    · cases h
      exact .inl ⟨_, rfl⟩
    · rename_i instrument found
      obtain ⟨⟨reply, e'⟩, returns, h⟩ := Exec.bind_ok.mp h
      cases h
      rcases Engine.create_answers c hp returns with refused | ⟨rfl, news, sent, said, told⟩
      · exact .inl (attempt_refused refused)
      · exact .inr ⟨id, instrument.id, news, rfl, rfl, .createOrder _ _ _ _ _ _ returns, sent, said,
          told⟩

omit [LawfulDecimal D] in
theorem original_ok {id : OrderId} (h : original e session ids origClOrdId symbol side = .ok id) :
    HashMap.get? ids.wireToInternal origClOrdId = some id := by
  unfold original at h
  split at h
  · cases h
  · split at h
    · cases h
    · split at h
      · cases h
      · split at h
        · cases h
        · cases h
          assumption

omit [LawfulDecimal D] in
/-- A cancellation is declined, or confirmed with one report. -/
theorem cancelOrder_cases (c : Coherent policy e.view none)
    (h : cancelOrder e session ids fresh origClOrdId symbol side = .ok done) :
    Declined e done ∨ ∃ request original order execId, fresh = .ok request ∧ done.1 = .ok () ∧
      HashMap.get? ids.wireToInternal origClOrdId = some original ∧
      Step e (.cancelOrderWithId session original request) done.2 ∧
      done.2.sent = e.sent ++ [.status order (e.symbolFor order.instrumentId) request execId
        .cancelled (some original)] ∧
      order.identity = (session, original) := by
  unfold cancelOrder at h
  cases fresh with
  | error reason =>
    cases h
    exact .inl ⟨reason, rfl⟩
  | ok request =>
    dsimp only at h
    split at h
    · cases h
      exact .inl ⟨_, rfl⟩
    · rename_i original found
      obtain ⟨⟨reply, e'⟩, returns, h⟩ := Exec.bind_ok.mp h
      cases h
      rcases Engine.cancel_answers c returns with refused | ⟨rfl, order, execId, sent, identity, -⟩
      · exact .inl (attempt_refused refused)
      · exact .inr ⟨request, original, order, execId, rfl, rfl, original_ok found,
          .cancelOrderWithId _ _ _ _ _ _ returns, sent, identity⟩

/-- A replacement is declined, or confirmed once, and what else is reported are fills. -/
theorem replaceOrder_cases (c : Coherent policy e.view none) (hp : e.fillPolicy = policy)
    (h : replaceOrder today e session ids fresh origClOrdId symbol side orderType price quantity =
      .ok done) :
    Declined e done ∨ ∃ request original order execId fills, fresh = .ok request ∧
      done.1 = .ok () ∧ HashMap.get? ids.wireToInternal origClOrdId = some original ∧
      Step e
        (.modifyOrderWithType today session original request orderType price quantity) done.2 ∧
      done.2.sent = e.sent ++ e.replacedReport order original execId :: fills ∧
      order.identity = (session, request) ∧ ∀ report ∈ fills, Engine.Filled e report := by
  unfold replaceOrder at h
  cases fresh with
  | error reason =>
    cases h
    exact .inl ⟨reason, rfl⟩
  | ok request =>
    dsimp only at h
    split at h
    · cases h
      exact .inl ⟨_, rfl⟩
    · rename_i original found
      obtain ⟨⟨reply, e'⟩, returns, h⟩ := Exec.bind_ok.mp h
      cases h
      rcases Engine.modify_answers c hp returns with
        refused | ⟨rfl, order, execId, fills, sent, identity, -, -, filled⟩
      · exact .inl (attempt_refused refused)
      · exact .inr ⟨request, original, order, execId, fills, rfl, rfl, original_ok found,
          .modifyOrderWithType _ _ _ _ _ _ _ _ _ _ returns, sent, identity, filled⟩

section

variable {failed : Bool} {now : String} {rejectId : Nat} {handled : Handled D} {clOrdId : String}

omit [LawfulDecimal D] in
theorem handle_newOrderSingle (h : handleBusiness today now rejectId failed e session ids
      (.newOrderSingle clOrdId symbol side orderType price quantity) = .ok handled) :
    ∃ done, enterOrder today e session (ids.freshId clOrdId).1 symbol side orderType price
        quantity = .ok done ∧
      handled = conclude failed (ids.freshId clOrdId).2 (fun _ reason => .message "8"
        (rejectedOrderFields now rejectId clOrdId symbol side orderType price quantity reason))
        done := by
  obtain ⟨done, entered, h⟩ := Exec.bind_ok.mp h
  exact ⟨done, entered, (Except.ok.inj h).symm⟩

omit [LawfulDecimal D] in
theorem handle_cancelRequest (h : handleBusiness today now rejectId failed e session ids
      (.cancelRequest clOrdId origClOrdId symbol side) = .ok handled) :
    ∃ done, cancelOrder e session (ids.freshId clOrdId).2 (ids.freshId clOrdId).1 origClOrdId
        symbol side = .ok done ∧
      handled = conclude failed (ids.freshId clOrdId).2 (fun e reason => .message "9"
        (cancelRejectFields clOrdId origClOrdId "1"
          (named e session (ids.freshId clOrdId).2 origClOrdId) reason)) done := by
  obtain ⟨done, cancelled, h⟩ := Exec.bind_ok.mp h
  exact ⟨done, cancelled, (Except.ok.inj h).symm⟩

omit [LawfulDecimal D] in
theorem handle_cancelReplace (h : handleBusiness today now rejectId failed e session ids
      (.cancelReplace clOrdId origClOrdId symbol side orderType price quantity) = .ok handled) :
    ∃ done, replaceOrder today e session (ids.freshId clOrdId).2 (ids.freshId clOrdId).1
        origClOrdId symbol side orderType price quantity = .ok done ∧
      handled = conclude failed (ids.freshId clOrdId).2 (fun e reason => .message "9"
        (cancelRejectFields clOrdId origClOrdId "2"
          (named e session (ids.freshId clOrdId).2 origClOrdId) reason)) done := by
  obtain ⟨done, replaced, h⟩ := Exec.bind_ok.mp h
  exact ⟨done, replaced, (Except.ok.inj h).symm⟩

omit [LawfulDecimal D] in
/-- An attempt that was done sends nothing itself. -/
theorem conclude_done {refuse : Engine D → String → OutMsg D} (ok : done.1 = .ok ()) :
    conclude failed ids refuse done = ⟨done.2, ids, [], failed, none⟩ := by
  obtain ⟨result, e'⟩ := done
  cases ok
  rfl

end

/-- Every cancel reject is about the order its text names, in the engine as it is. -/
theorem cancelReject_shows (c : Coherent policy e.view none) (hp : e.fillPolicy = policy)
    {now : String} {rejectId : Nat} {inbound : Inbound D} {handled : Handled D}
    (h : handleBusiness today now rejectId false e session ids inbound = .ok handled)
    {fields : Fields} (sent : .message "9" fields ∈ handled.messages) :
    handled.engine = e ∧ ∃ clOrdId origClOrdId responseTo reason,
      fields = cancelRejectFields clOrdId origClOrdId responseTo
        (named e session handled.ids origClOrdId) reason := by
  cases inbound with
  | newOrderSingle clOrdId symbol side orderType price quantity =>
    obtain ⟨⟨result, e'⟩, entered, rfl⟩ := handle_newOrderSingle h
    cases result with
    | ok =>
      simp only [conclude] at sent
      cases sent
    | error refusal =>
      obtain ⟨fault, reason⟩ := refusal
      cases fault <;> simp [conclude] at sent
  | cancelRequest clOrdId origClOrdId symbol side =>
    obtain ⟨done, cancelled, rfl⟩ := handle_cancelRequest h
    rcases cancelOrder_cases c cancelled with declined | ⟨_, _, _, _, -, ok, -⟩
    · obtain ⟨reason, same⟩ := conclude_declined declined _ _
      rw [same] at sent ⊢
      cases List.mem_singleton.mp sent
      exact ⟨rfl, clOrdId, origClOrdId, "1", reason, rfl⟩
    · rw [conclude_done ok] at sent
      cases sent
  | cancelReplace clOrdId origClOrdId symbol side orderType price quantity =>
    obtain ⟨done, replaced, rfl⟩ := handle_cancelReplace h
    rcases replaceOrder_cases c hp replaced with declined | ⟨_, _, _, _, _, -, ok, -⟩
    · obtain ⟨reason, same⟩ := conclude_declined declined _ _
      rw [same] at sent ⊢
      cases List.mem_singleton.mp sent
      exact ⟨rfl, clOrdId, origClOrdId, "2", reason, rfl⟩
    · rw [conclude_done ok] at sent
      cases sent
  | massQuote quoteId responseLevel symbol bidPx bidQty offerPx offerQty =>
    obtain ⟨⟨result, e'⟩, quoted, h⟩ := Exec.bind_ok.mp h
    cases h
    unfold quoteAck at sent
    cases result <;> split at sent <;> simp at sent
  | _ =>
    cases h
    cases sent

/-- A cancel reject for an active order shows whether the order has executions. -/
def ShowsState (o : Order D) (fields : Fields) : Prop :=
  (fields.find? (fun field => field.1 == 39)) =
    some (39, if 0 < o.cumQuantity then "1" else "0")

/-- The cancel rejects in an engine show the states of the orders they are about. -/
def RejectsTell (e : Engine D) : Prop :=
  ∀ (today : Int) (now : String) (rejectId : Nat) (session : String) (ids : WireIdMap)
    (inbound : Inbound D) (handled : Handled D),
    handleBusiness today now rejectId false e session ids inbound = .ok handled →
    ∀ fields, .message "9" fields ∈ handled.messages →
      ∃ wire, (41, wire) ∈ fields ∧ ∀ o, named e session handled.ids wire = some o →
        o.state.isActive → ShowsState o fields

omit [LawfulDecimal D] in
theorem named_known (c : Coherent policy e.view none) {wire : String} {o : Order D}
    (h : named e session ids wire = some o) : e.view.Known o := by
  obtain ⟨id, -, recorded⟩ := Option.bind_eq_some_iff.mp h
  obtain ⟨hs, hid, -⟩ := c.keyed session id o recorded
  exact Or.inl (by rw [hs, hid]; exact recorded)

theorem rejectsTell (c : Coherent policy e.view none) (hp : e.fillPolicy = policy)
    (truthful : ∀ o, e.view.Known o → Truthful o) : RejectsTell e := by
  intro today now rejectId session ids inbound handled h fields sent
  obtain ⟨-, clOrdId, wire, responseTo, reason, rfl⟩ := cancelReject_shows c hp h sent
  refine ⟨wire, by simp [cancelRejectFields], ?_⟩
  intro o found active
  have known := named_known c found
  obtain ⟨partial_, booked⟩ := truthful o known active
  rw [ShowsState, found]
  have status : ordStatusToFix o.state = if 0 < o.cumQuantity then "1" else "0" := by
    by_cases executed : 0 < o.cumQuantity
    · rw [if_pos executed, partial_.mpr executed]
      rfl
    · rw [if_neg executed]
      cases hs : o.state with
      | new => rfl
      | booked => rfl
      | partialFill => exact absurd (partial_.mp hs) executed
      | _ =>
        rw [hs] at active
        cases active
  rw [← status]
  rfl

end Lawful

end RustTrader.Fix

namespace RustTrader.Engine

variable {D : Type} [Decimal D]

/-- In a run without rebooking the state of every active order shows whether it has
executions, and so does every cancel reject about it; no other step spoils this. -/
theorem states_reported [LawfulDecimal D] {policy : FillPolicy} {e : Engine D}
    (run : RunWith (fun e command => ¬ Rebooks e command) (withFillPolicy policy) e) :
    StatesTell e ∧ Fix.RejectsTell e ∧
      ∀ command e', Step e command e' → (StatesTell e' ↔ ¬ Rebooks e command) := by
  obtain ⟨tell, steps⟩ := states_run run
  obtain ⟨c, hp⟩ := reachable_coherent run.reachable
  exact ⟨tell, Fix.rejectsTell c hp tell, steps⟩

theorem states_reported_sample : StatesTell (played .real (sampleRun.take 5)) ∧
    Fix.RejectsTell (played .real (sampleRun.take 5)) ∧ ∀ command e',
      Step (played .real (sampleRun.take 5)) command e' →
        (StatesTell e' ↔ ¬ Rebooks (played .real (sampleRun.take 5)) command) := by
  refine states_reported (played_run .real (sampleRun.take 5) ?_)
  intro command hc e
  simp only [sampleRun, List.take, List.mem_cons, List.not_mem_nil, or_false] at hc
  rcases hc with rfl | rfl | rfl | rfl | rfl <;> exact id

/-- A sell order of five is replaced, after a fill of three, at a higher price. -/
def partialReplacement : List (Command ℚ) := [
  .createInstrument "AAA", .registerSession "a", .registerSession "b",
  .createOrder 1 "a" ⟨1, 1, .sell, .limit, 10, 5⟩,
  .createOrder 1 "b" ⟨1, 1, .buy, .limit, 10, 3⟩,
  .modifyOrderWithType 1 "a" 1 2 .limit 12 6]

/-- The order rests as booked, and a cancel reject about it shows no executions. -/
theorem replaced_booked : Reachable .real (played .real partialReplacement) ∧
    ((played .real partialReplacement).order "a" 2).map (fun o => (o.state, o.cumQuantity)) =
      some (.booked, 3) ∧
    ((Fix.handleBusiness 1 "now" 1 false (played .real partialReplacement) "a"
      (Fix.WireIdMap.new.intern "2").2 (.cancelRequest "9" "2" "AAA" .buy)).toOption.map
        fun handled => handled.messages.map fun
          | .message _ fields => (fields.find? (fun field => field.1 == 39))
          | _ => none) = some [some (39, "0")] := by
  refine ⟨played_reachable .real partialReplacement, ?_⟩
  decide +kernel

end RustTrader.Engine
