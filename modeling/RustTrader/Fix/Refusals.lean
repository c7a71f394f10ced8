import RustTrader.Fix.Dialogue
import RustTrader.Fix.Reports

/-!
# Refusals on the wire

What the exchange writes when it refuses a request, and what a client reads there. The
reasons are printable whatever was asked for, so that a refusal does not get lost.
-/

namespace RustTrader

open Decimal

variable {D : Type} [Decimal D]

/-- An error that names an instrument names it by a text that can be written. -/
def EngineError.Readable (err : EngineError) : Prop :=
  ∀ symbol, err = .unknownSymbol symbol → Fix.Value symbol

/-- The errors of a reply are readable. -/
def Readable {α β : Type} (reply : Exec (Except EngineError α × β)) : Prop :=
  ∀ err after, reply = .ok (.error err, after) → err.Readable

section

variable {α β γ : Type}

omit [Decimal D] in
theorem readable_error {err : EngineError} (h : err.Readable) (after : β) :
    Readable (pure (.error err, after) : Exec (Except EngineError α × β)) := by
  intro err' after' same
  cases same
  exact h

theorem readable_ok (a : α) (after : β) :
    Readable (pure (.ok a, after) : Exec (Except EngineError α × β)) := by
  intro err after' same
  cases same

theorem readable_bind {x : Exec γ} {f : γ → Exec (Except EngineError α × β)}
    (h : ∀ c, x = .ok c → Readable (f c)) : Readable (x >>= f) := by
  intro err after returns
  obtain ⟨c, first, rest⟩ := Exec.bind_ok.mp returns
  exact h c first err after rest

end

/-- An error that names no instrument. -/
theorem readable_orderNotFound : EngineError.orderNotFound.Readable := by
  rintro symbol ⟨⟩

theorem validateOrderInput_readable {id : OrderId} {orderType : OrderType} {price quantity : D}
    {err : EngineError} (h : validateOrderInput id orderType price quantity = .error err) :
    err.Readable := by
  rintro symbol rfl
  unfold validateOrderInput validateOrderId at h
  simp only [bind, Except.bind] at h
  split at h
  · rename_i err' failed
    split at failed
    · cases failed
      cases h
    · cases failed
  · split at h
    · cases h
    · split at h
      · cases h
      · cases h

theorem tierFillPlan_readable {remaining : D} {err : EngineError}
    (h : tierFillPlan remaining = .ok (.error err)) : err.Readable := by
  rintro symbol rfl
  unfold tierFillPlan at h
  split at h
  · cases h
  split at h
  · cases h
  split at h
  · cases h
  split at h
  · obtain ⟨half, -, h⟩ := Exec.bind_ok.mp h
    cases h
  split at h
  · cases h
  · obtain ⟨lots, -, h⟩ := Exec.bind_ok.mp h
    cases h

namespace Engine

theorem readable_violation (s : String) (i : Int) (detail : String) :
    (invariantViolation s i detail).Readable := by
  rintro symbol same
  cases same

theorem planFor_readable {policy : FillPolicy} {remaining : D} {err : EngineError}
    (h : planFor policy remaining = .ok (.error err)) : err.Readable := by
  cases policy with
  | real => cases h
  | tiered =>
    obtain ⟨plan, chosen, h⟩ := Exec.bind_ok.mp h
    cases plan with
    | ok plan => cases h
    | error err' =>
      cases h
      exact tierFillPlan_readable chosen

theorem checkCreate_readable {e : Engine D} {s : String} {new : NewOrder D} {err : EngineError}
    (h : e.checkCreate s new = .error err) : err.Readable := by
  unfold checkCreate at h
  split at h
  · cases h
    rintro symbol same
    cases same
    exact Fix.value_toString new.instrumentId
  · cases input : validateOrderInput new.id new.orderType new.price new.quantity with
    | error err' =>
      rw [input] at h
      cases h
      exact validateOrderInput_readable input
    | ok _ =>
      rw [input] at h
      simp only [bind, Except.bind] at h
      rintro symbol rfl
      split at h
      · cases h
      · split at h
        · cases h
        · cases h

theorem checkModify_readable {e : Engine D} {s : String} {origId newId : OrderId}
    {orderType : OrderType} {price quantity : D} {err : EngineError}
    (h : e.checkModify s origId newId orderType price quantity = .error err) : err.Readable := by
  unfold checkModify at h
  cases found : e.sessions.get? s with
  | none =>
    rw [found] at h
    cases h
    rintro symbol ⟨⟩
  | some session =>
    rw [found] at h
    dsimp only at h
    cases recorded : HashMap.get? session.orders origId with
    | none =>
      rw [recorded] at h
      cases h
      rintro symbol ⟨⟩
    | some entry =>
      rw [recorded] at h
      dsimp only at h
      by_cases active : entry.state.isActive
      · rw [active, Bool.not_true, if_neg Bool.false_ne_true] at h
        cases input : validateOrderInput newId orderType price quantity with
        | error err' =>
          rw [input] at h
          cases h
          exact validateOrderInput_readable input
        | ok _ =>
          rw [input] at h
          change (if _ then _ else if _ then _ else _) = _ at h
          split at h
          · cases h
            rintro symbol ⟨⟩
          · split at h
            · cases h
              rintro symbol ⟨⟩
            · cases h
      · rw [Bool.not_eq_true] at active
        rw [active, Bool.not_false, if_pos rfl] at h
        cases h
        rintro symbol ⟨⟩

theorem checkCancel_readable {e : Engine D} {s : String} {origId clOrdId : OrderId}
    {err : EngineError} (h : e.checkCancel s origId clOrdId = .error err) : err.Readable := by
  rintro symbol rfl
  unfold checkCancel validateOrderId at h
  simp only [bind, Except.bind] at h
  split at h
  · rename_i failed
    split at failed
    · cases failed
      cases h
    · cases failed
  · split at h
    · cases h
    · split at h
      · cases h
      · split at h
        · cases h
        · split at h
          · cases h
          · cases h

theorem removeFromBook_readable (e : Engine D) (s : String) (id : OrderId) (side : Side)
    (price : D) (i : Int) : Readable (e.removeFromBook s id side price i) := by
  unfold removeFromBook
  split
  · exact readable_error readable_orderNotFound _
  · refine readable_bind fun removed _ => ?_
    cases removed with
    | none => exact readable_error readable_orderNotFound _
    | some removed => exact readable_ok _ _

theorem tieredInsert_readable (e : Engine D) (s : String) (i : Int) (order : Order D) :
    Readable (e.tieredInsert s i order) := by
  unfold tieredInsert
  refine readable_bind fun inserted _ => ?_
  cases inserted with
  | error err => exact readable_error (readable_violation s i _) _
  | ok inserted => exact readable_ok _ _

theorem tieredFillExisting_readable (s : String) (i : Int) (order : Order D) (plan : List D) :
    ∀ (e : Engine D) (index : Nat), Readable (tieredFillExisting s i order e plan index) := by
  induction plan with
  | nil => exact fun e index => readable_ok _ _
  | cons chunk plan ih =>
    intro e index
    unfold tieredFillExisting
    split
    · exact readable_error (readable_violation s i _) _
    · refine readable_bind fun executed _ => ?_
      cases executed with
      | error err => exact readable_error (readable_violation s i _) _
      | ok executed => exact ih _ _

theorem createReal_readable (e : Engine D) (new : NewOrder D) (order : Order D) :
    Readable (e.createReal new order) := by
  unfold createReal
  refine readable_bind fun added _ => ?_
  obtain ⟨trades, final, e⟩ := added
  refine readable_bind fun e _ => readable_bind fun e _ => ?_
  cases final with
  | none => exact readable_ok _ _
  | some final =>
    dsimp only
    split
    · exact readable_ok _ _
    · exact readable_ok _ _

/-- The errors of a first part are those of the whole, where the rest has none. -/
theorem readable_after {α β γ : Type} {x : Exec (Except EngineError α × γ)} (h : Readable x)
    {f : Except EngineError α × γ → Exec (Except EngineError β × γ)}
    (errors : ∀ err after, err.Readable → Readable (f (.error err, after)))
    (rest : ∀ a after, Readable (f (.ok a, after))) : Readable (x >>= f) := by
  refine readable_bind fun reply returns => ?_
  obtain ⟨outcome, after⟩ := reply
  cases outcome with
  | error err => exact errors err after (h err after returns)
  | ok a => exact rest a after

theorem createTiered_readable (e : Engine D) (s : String) (new : NewOrder D) (order : Order D)
    (plan : List D) : Readable (e.createTiered s new order plan) := by
  unfold createTiered
  refine readable_after (tieredInsert_readable e s new.instrumentId order) ?_ ?_
  · intro err e readable
    exact readable_bind fun e _ => readable_bind fun e _ => readable_error readable e
  · intro snapshot e
    refine readable_after (tieredFillExisting_readable s new.instrumentId snapshot plan _ 0) ?_ ?_
    · intro err e readable
      exact readable_bind fun e _ => readable_bind fun e _ => readable_error readable e
    · intro _ e
      exact readable_bind fun e _ => readable_bind fun e _ => readable_ok _ e

theorem createOrder_readable (e : Engine D) (today : Int) (s : String) (new : NewOrder D) :
    Readable (e.createOrder today s new) := by
  unfold createOrder
  split
  · rename_i err failed
    exact readable_error (checkCreate_readable failed) e
  · refine readable_bind fun plan chosen => ?_
    cases plan with
    | error err => exact readable_error (planFor_readable chosen) e
    | ok plan =>
      dsimp only
      unfold acceptOrder
      dsimp only
      split
      · exact readable_error readable_orderNotFound _
      · cases plan with
        | none => exact createReal_readable _ _ _
        | some plan => exact createTiered_readable _ _ _ _ _

theorem restReplacement_readable (e : Engine D) (s : String) (order : Order D)
    (plan : Option (List D)) : Readable (e.restReplacement s order plan) := by
  cases plan with
  | none => exact readable_ok _ _
  | some plan =>
    unfold restReplacement
    dsimp only
    split
    · exact readable_ok _ _
    · exact readable_after (tieredInsert_readable e s order.instrumentId order)
        (fun err e readable => readable_error readable e) (fun _ e => readable_ok _ e)

theorem workReplacement_readable (e : Engine D) (s : String) (order : Order D)
    (plan : Option (List D)) (snapshot : Option (Order D)) :
    Readable (e.workReplacement s order plan snapshot) := by
  unfold workReplacement
  cases plan with
  | none =>
    refine readable_bind fun added _ => ?_
    obtain ⟨trades, final, e⟩ := added
    refine readable_bind fun e _ => readable_bind fun e _ => ?_
    cases final with
    | none => exact readable_ok _ _
    | some final => exact readable_ok _ _
  | some plan =>
    refine readable_bind fun snapshot _ => ?_
    refine readable_after (tieredFillExisting_readable s order.instrumentId snapshot plan e 0) ?_ ?_
    · intro err e readable
      exact readable_bind fun e _ => readable_bind fun e _ => readable_error readable e
    · intro _ e
      exact readable_bind fun e _ => readable_bind fun e _ => readable_ok _ e

theorem confirmReplacement_readable (e : Engine D) (s : String) (origId : OrderId)
    (order : Order D) (plan : Option (List D)) :
    Readable (e.confirmReplacement s origId order plan) := by
  unfold confirmReplacement
  refine readable_after (restReplacement_readable e s order plan) ?_ ?_
  · intro err e readable
    exact readable_bind fun e _ => readable_bind fun e _ => readable_error readable e
  · intro snapshot e
    dsimp only
    split
    · exact readable_bind fun e _ => readable_ok _ e
    · exact workReplacement_readable _ _ _ _ _

theorem modifyOrderWithType_readable (e : Engine D) (today : Int) (s : String)
    (origId newId : OrderId) (orderType : OrderType) (price quantity : D) :
    Readable (e.modifyOrderWithType today s origId newId orderType price quantity) := by
  unfold modifyOrderWithType
  split
  · rename_i err failed
    exact readable_error (checkModify_readable failed) e
  · rename_i entry _
    refine readable_bind fun plan chosen => ?_
    cases plan with
    | error err =>
      refine readable_error ?_ e
      unfold replacementPlan at chosen
      split at chosen
      · exact planFor_readable chosen
      · obtain ⟨remaining, -, chosen⟩ := Exec.bind_ok.mp chosen
        exact planFor_readable chosen
    | ok plan =>
      refine readable_after (removeFromBook_readable e s origId _ _ _) ?_ ?_
      · intro err e _
        exact readable_bind fun record _ => readable_ok _ _
      · intro removed e
        refine readable_bind fun e _ => readable_bind fun remaining _ => ?_
        exact readable_bind fun e _ => confirmReplacement_readable _ _ _ _ _

theorem cancelOrderWithId_readable (e : Engine D) (s : String) (origId clOrdId : OrderId) :
    Readable (e.cancelOrderWithId s origId clOrdId) := by
  unfold cancelOrderWithId
  split
  · rename_i err failed
    exact readable_error (checkCancel_readable failed) e
  · refine readable_after (removeFromBook_readable e s origId _ _ _) ?_ ?_
    · exact fun err e readable => readable_error readable e
    · intro removed e
      refine readable_bind fun session _ => readable_bind fun e _ => ?_
      exact readable_bind fun e _ => readable_ok _ _

end Engine

namespace Fix

theorem value_display {err : EngineError} (readable : err.Readable) (external : err.External) :
    Value err.display := by
  cases err with
  | duplicateOrderId id =>
    exact value_append (by decide : Value "duplicate order id ") (value_toString id).printable
  | invalidOrderId id =>
    exact value_append (by decide : Value "invalid order id ") (value_toString id).printable
  | unknownSymbol symbol =>
    exact value_append (by decide : Value "unknown symbol ") (readable symbol rfl).printable
  | bookInvariantViolation context => exact absurd rfl (external context)
  | _ => decide

theorem freshId_reason {ids : WireIdMap} {wire reason : String}
    (h : (ids.freshId wire).1 = .error reason) : Value reason := by
  unfold WireIdMap.freshId at h
  split at h
  · cases h
    decide
  · unfold WireIdMap.intern at h
    split at h
    · cases h
      decide
    · split at h
      · cases h
      · split at h
        · cases h
          decide
        · cases h

theorem original_reason {e : Engine D} {s : String} {ids : WireIdMap} {wire symbol reason : String}
    {side : Side} (h : original e s ids wire symbol side = .error reason) : Value reason := by
  unfold original at h
  split at h
  · cases h
    decide
  · split at h
    · cases h
      decide
    · split at h
      · cases h
        decide
      · split at h
        · cases h
          decide
        · cases h

/-- The reason of a refusal that does not fail the connection can be written. -/
def Reasoned (outcome : Exec (Attempt D)) : Prop :=
  ∀ reason e', outcome = .ok (.error (false, reason), e') → Value reason

theorem reasoned_refusal {reason : String} (h : Value reason) (e : Engine D) :
    Reasoned (pure (.error (false, reason), e) : Exec (Attempt D)) := by
  rintro reason' e' same
  cases same
  exact h

theorem reasoned_attempt {α : Type} {reply : Exec (Except EngineError α × Engine D)}
    (readable : Readable reply) : Reasoned (reply >>= fun reply => pure (attempt reply)) := by
  intro reason e' same
  obtain ⟨⟨outcome, after⟩, returns, same⟩ := Exec.bind_ok.mp same
  cases outcome with
  | ok a => cases same
  | error err =>
    have said := readable err after returns
    cases err with
    | bookInvariantViolation context => cases same
    | _ =>
      cases same
      exact value_display said nofun

theorem enterOrder_reasoned (today : Int) (e : Engine D) (s : String)
    {ids : WireIdMap} {wire : String} (symbol : String) (side : Side) (orderType : OrderType)
    (price quantity : D) :
    Reasoned (enterOrder today e s (ids.freshId wire).1 symbol side orderType price quantity) := by
  unfold enterOrder
  split
  · rename_i refused
    exact reasoned_refusal (freshId_reason refused) e
  · split
    · exact reasoned_refusal (by decide) e
    · exact reasoned_attempt (e.createOrder_readable today s _)

theorem cancelOrder_reasoned (e : Engine D) (s : String) {ids : WireIdMap} {wire : String}
    (later : WireIdMap) (origClOrdId symbol : String) (side : Side) :
    Reasoned (cancelOrder e s later (ids.freshId wire).1 origClOrdId symbol side) := by
  unfold cancelOrder
  split
  · rename_i refused
    exact reasoned_refusal (freshId_reason refused) e
  · split
    · rename_i refused
      exact reasoned_refusal (original_reason refused) e
    · exact reasoned_attempt (e.cancelOrderWithId_readable s _ _)

theorem replaceOrder_reasoned (today : Int) (e : Engine D) (s : String) {ids : WireIdMap}
    {wire : String} (later : WireIdMap) (origClOrdId symbol : String) (side : Side)
    (orderType : OrderType) (price quantity : D) :
    Reasoned (replaceOrder today e s later (ids.freshId wire).1 origClOrdId symbol side orderType
      price quantity) := by
  unfold replaceOrder
  split
  · rename_i refused
    exact reasoned_refusal (freshId_reason refused) e
  · split
    · rename_i refused
      exact reasoned_refusal (original_reason refused) e
    · exact reasoned_attempt (e.modifyOrderWithType_readable today s _ _ _ _ _)

/-- The documented text of zero. -/
class ZeroText (D : Type) [Decimal D] [DecimalText D] : Prop where
  display_zero : display (0 : D) = "0"

instance : ZeroText Dec96 := ⟨by decide⟩

/-- The state of an order in a refusal, as it is read. -/
def namedState (order : Option (Order D)) : OrderState :=
  (order.map fun o => if o.state = .new then .booked else o.state).getD .rejected

omit [Decimal D] in
theorem namedState_decoded (order : Option (Order D)) :
    ordStatusFromFix ((order.map fun o => ordStatusToFix o.state).getD "8") =
      .ok (namedState order) := by
  cases order with
  | none => rfl
  | some o =>
    unfold namedState
    rw [Option.map_some, Option.map_some, Option.getD_some, Option.getD_some]
    cases o.state <;> rfl

/-- A refused order, as it is read. -/
def rejectedData (clOrdId symbol : String) (side : Side) (price quantity : D) :
    ExecReportData D where
  exchangeId := "0"
  clOrdId := clOrdId
  origClOrdId := none
  symbol := symbol
  state := .rejected
  isFill := false
  side := side
  price := price
  quantity := quantity
  remaining := 0
  lastPrice := 0
  lastQuantity := 0

section

variable {sender target now : String} {seq : Nat} {clOrdId origClOrdId responseTo reason : String}
  {order : Option (Order D)}

omit [Decimal D] in
theorem cancelReject_values (hclOrdId : Value clOrdId) (horig : Value origClOrdId)
    (hto : responseTo = "1" ∨ responseTo = "2") (hreason : Value reason)
    (exchangeId : ∀ o, order = some o → Value o.exchangeId) :
    ∀ field ∈ cancelRejectFields clOrdId origClOrdId responseTo order reason,
      BodyField field ∧ validEnumeration field.1 field.2 = true := by
  have to_ : Value responseTo := by
    rcases hto with rfl | rfl <;> decide
  have identity : Value ((order.map Order.exchangeId).getD "NONE") := by
    cases order with
    | none => exact (by decide : Value "NONE")
    | some o => exact exchangeId o rfl
  have state : Value ((order.map fun o => ordStatusToFix o.state).getD "8") := by
    cases order with
    | none => exact (by decide : Value "8")
    | some o =>
      change Value (ordStatusToFix o.state)
      cases o.state <;> decide
  have known : Value (if order.isSome then "0" else "1") ∧
      validEnumeration 102 (if order.isSome then "0" else "1") = true := by
    cases order with
    | none => exact (by decide : Value "1" ∧ validEnumeration 102 "1" = true)
    | some o => exact (by decide : Value "0" ∧ validEnumeration 102 "0" = true)
  unfold cancelRejectFields
  simp only [List.forall_mem_cons]
  refine ⟨⟨⟨by simp [BodyTag], identity⟩, rfl⟩, ⟨⟨by simp [BodyTag], hclOrdId⟩, rfl⟩,
    ⟨⟨by simp [BodyTag], horig⟩, rfl⟩, ⟨⟨by simp [BodyTag], to_⟩, rfl⟩,
    ⟨⟨by simp [BodyTag], known.1⟩, known.2⟩, ⟨⟨by simp [BodyTag], state⟩, rfl⟩,
    ⟨⟨by simp [BodyTag], hreason⟩, rfl⟩, by simp⟩

/-- A refused cancellation or replacement is read as one. -/
theorem cancelReject_received [Chrono] [DecimalText D] (hclOrdId : Value clOrdId)
    (horig : Value origClOrdId)
    (hto : responseTo = "1" ∨ responseTo = "2") (hreason : Value reason)
    (exchangeId : ∀ o, order = some o → Value o.exchangeId) (hsender : Value sender)
    (htarget : Value target) (hnow : Value now) (hseq : seq < 2 ^ 64) :
    ∃ m, parseWire (frame "FIX.4.2" "9" seq sender target now
        (cancelRejectFields clOrdId origClOrdId responseTo order reason)) = .ok m ∧
      (decode m : Exec (Except String (Inbound D))) =
        .ok (.ok (.cancelReject clOrdId origClOrdId (namedState order) reason)) := by
  have values := cancelReject_values hclOrdId horig hto hreason exchangeId
  let out : Outgoing := {
    msgType := "9", seq := seq, sender := sender, target := target, now := now
    fields := cancelRejectFields clOrdId origClOrdId responseTo order reason
    msgType_value := by decide
    seq_lt := hseq, sender_value := hsender, target_value := htarget, now_value := hnow
    body_fields := fun field mem => (values field mem).1 }
  have tags : out.message.fields.map Prod.fst =
      headerTagsBuilt ++ [37, 11, 41, 434, 102, 39, 58] := rfl
  have get : ∀ tag, tag ∉ headerTagsBuilt → out.message.get tag =
      ((cancelRejectFields clOrdId origClOrdId responseTo order reason).find?
        fun field => field.1 == tag).map Prod.snd := fun tag other => get_built other
  have fitting : Fitting out.message "9" [37, 11, 41, 39, 434] := by
    refine ⟨rfl, ?_, ?_, ?_, rfl, ?_, ?_, fun order => absurd order (by decide)⟩
    · rw [tags]
      rfl
    · rw [tags]
      decide
    · intro field mem
      rcases List.mem_append.mp mem with mem | mem
      · simp only [headerFields, List.mem_cons, List.not_mem_nil, or_false] at mem
        rcases mem with rfl | rfl | rfl | rfl | rfl
        · exact ⟨out.msgType_value.nonempty, rfl⟩
        · exact ⟨(value_repr seq).nonempty, rfl⟩
        · exact ⟨hsender.nonempty, rfl⟩
        · exact ⟨htarget.nonempty, rfl⟩
        · exact ⟨hnow.nonempty, rfl⟩
      · exact ⟨(values field mem).1.value.nonempty, (values field mem).2⟩
    · rw [tags]
      decide
    · intro time h
      rw [get 60 (by decide)] at h
      cases h
  refine ⟨out.message, out.message_parsed, ?_⟩
  have response : out.message.need 434 = .ok responseTo := need_some (get 434 (by decide))
  have request : out.message.need 11 = .ok clOrdId := need_some (get 11 (by decide))
  have target_ : out.message.need 41 = .ok origClOrdId := need_some (get 41 (by decide))
  have state : out.message.need 39 = .ok ((order.map fun o => ordStatusToFix o.state).getD "8") :=
    need_some (get 39 (by decide))
  have text : out.message.get 58 = some reason := get 58 (by decide)
  have known : ["1", "2"].contains responseTo = true := by
    rcases hto with rfl | rfl <;> decide
  have body : (decodeCancelReject out.message : Except String (Inbound D)) =
      .ok (.cancelReject clOrdId origClOrdId (namedState order) reason) := by
    unfold decodeCancelReject
    simp only [response, known, request, target_, state, namedState_decoded, text, bind,
      Except.bind]
    rfl
  unfold decode
  rw [fitting.named]
  simp only [fitting.validated]
  rw [if_neg (by decide)]
  exact congrArg (fun reply => (pure reply : Exec (Except String (Inbound D)))) body

variable [DecimalText D] {time symbol : String} {side : Side} {orderType : OrderType}
  {price quantity : D} {rejectId : Nat}

omit [DecimalText D] in
theorem rejectedOrderFields_eq : rejectedOrderFields time rejectId clOrdId symbol side orderType
    price quantity reason =
      [(37, "0"), (17, "REJ-" ++ rejectId.repr), (20, "0"), (150, "8"), (39, "8"),
        (54, sideToFix side), (38, fixDecimal quantity),
        (40, if orderType = .market then "1" else "2"), (151, "0"), (14, "0"),
        (44, fixDecimal price), (11, clOrdId), (55, symbol), (58, reason), (60, time),
        (6, "0")] := by
  simp [rejectedOrderFields, rejectedExecutionFields, setField]

theorem rejectedOrder_shape : Shape "8" [37, 17, 20, 150, 39, 55, 54, 151, 14, 6]
    [37, 17, 20, 150, 39, 54, 38, 40, 151, 14, 44, 11, 55, 58, 60, 6] :=
  ⟨rfl, by decide, rfl, by decide, by decide⟩

theorem rejectedOrder_values [LawfulText D] (hclOrdId : Value clOrdId) (hsymbol : Value symbol)
    (hreason : Value reason) (htime : Value time) :
    ∀ field ∈ rejectedOrderFields time rejectId clOrdId symbol side orderType price quantity
      reason, Value field.2 := by
  have zero : Value "0" := by decide
  have eight : Value "8" := by decide
  have sided : Value (sideToFix side) := by cases side <;> decide
  have typed : Value (if orderType = .market then "1" else "2") := by
    cases orderType <;> decide
  have named : Value ("REJ-" ++ rejectId.repr) :=
    value_append (by decide) (value_repr rejectId).printable
  rw [rejectedOrderFields_eq]
  simp only [List.forall_mem_cons]
  exact ⟨zero, named, zero, eight, eight, sided, value_fixDecimal _, typed, zero, zero,
    value_fixDecimal _, hclOrdId, hsymbol, hreason, htime, zero, by simp⟩

theorem rejectedOrder_decoded [LawfulText D] [ZeroText D] {m : FixMessage}
    (get : Request.Holds m (rejectedOrderFields time rejectId clOrdId symbol side orderType price
      quantity reason)) :
    decodeExecutionReport m = (add (0 : D) 0 >>= fun _ =>
      .ok (.ok (.executionReport (rejectedData clOrdId symbol side price quantity)))) := by
  have zero : fixDecimal (0 : D) = "0" := ZeroText.display_zero
  have found : ∀ {tag : Nat} {value : String}, tag ∉ headerTagsBuilt →
      ([(37, "0"), (17, "REJ-" ++ rejectId.repr), (20, "0"), (150, "8"), (39, "8"),
        (54, sideToFix side), (38, fixDecimal quantity),
        (40, if orderType = .market then "1" else "2"), (151, "0"), (14, "0"),
        (44, fixDecimal price), (11, clOrdId), (55, symbol), (58, reason), (60, time),
        (6, "0")] : Fields).find? (fun field => field.1 == tag) = some (tag, value) →
      m.get tag = some value := by
    intro tag value other here
    rw [get tag other, rejectedOrderFields_eq, here]
    rfl
  have none_ : ∀ {tag : Nat}, tag ∉ headerTagsBuilt →
      ([(37, "0"), (17, "REJ-" ++ rejectId.repr), (20, "0"), (150, "8"), (39, "8"),
        (54, sideToFix side), (38, fixDecimal quantity),
        (40, if orderType = .market then "1" else "2"), (151, "0"), (14, "0"),
        (44, fixDecimal price), (11, clOrdId), (55, symbol), (58, reason), (60, time),
        (6, "0")] : Fields).find? (fun field => field.1 == tag) = none → m.get tag = none := by
    intro tag other here
    rw [get tag other, rejectedOrderFields_eq, here]
    rfl
  have g11 : m.get 11 = some clOrdId := found (by decide) rfl
  have g41 : m.get 41 = none := none_ (by decide) rfl
  have g20 : m.need 20 = .ok "0" := need_some (found (by decide) rfl)
  have g150 : m.need 150 = .ok "8" := need_some (found (by decide) rfl)
  have g14 : m.dec 14 = .ok (0 : D) := dec_some (by rw [zero]; exact found (by decide) rfl)
  have g151 : m.dec 151 = .ok (0 : D) := dec_some (by rw [zero]; exact found (by decide) rfl)
  have g6 : m.dec 6 = .ok (0 : D) := dec_some (by rw [zero]; exact found (by decide) rfl)
  have g31 : m.optionalDec 31 (0 : D) = .ok 0 := optionalDec_none (none_ (by decide) rfl)
  have g32 : m.optionalDec 32 (0 : D) = .ok 0 := optionalDec_none (none_ (by decide) rfl)
  have g37 : m.need 37 = .ok "0" := need_some (found (by decide) rfl)
  have g55 : m.need 55 = .ok symbol := need_some (found (by decide) rfl)
  have g39 : m.need 39 = .ok "8" := need_some (found (by decide) rfl)
  have g54 : m.side = .ok side := side_some (found (by decide) rfl)
  have g44 : m.optionalDec 44 (0 : D) = .ok price := optionalDec_some (found (by decide) rfl)
  have g38 : m.get 38 = some (fixDecimal quantity) := found (by decide) rfl
  have event : ["0", "1", "2", "4", "5", "8", "C"].contains "8" = true := by decide
  have plain : ["1", "2"].contains "8" = false := by decide
  have status : ordStatusFromFix "8" = .ok .rejected := by rfl
  have last : ∀ {tag : Nat}, m.optionalDec tag (0 : D) = .ok 0 →
      (lastField m false tag : Except String D) = .ok 0 := fun h => h
  have signs : ¬ ((0 : D) < 0 ∨ (0 : D) < 0 ∨ (0 : D) < 0) := by simp
  have replaced : ¬ ("8" = "5" ∧ (some clOrdId).isSome ∧ (none : Option String).isNone) := by
    rintro ⟨same, -⟩
    exact absurd same (by decide)
  have fields : reportFields m = .ok (rejectedData clOrdId symbol side price (0 : D),
      some quantity, 0) := by
    unfold reportFields
    simp only [g20, g150, event, plain, g11, g41, g14, g151, g6, signs, last g31, last g32, g37,
      g55, g39, status, g54, g44, g38, replaced, parseDecimal_fixDecimal, bind, Except.bind,
      Bool.not_true, Bool.false_eq_true, ne_eq, not_true_eq_false, if_false]
    rfl
  unfold decodeExecutionReport
  rw [fields]
  rfl

/-- A refused order is read as rejected. -/
theorem rejectedOrder_received [Chrono] [LawfulText D] [ZeroText D] (hclOrdId : Value clOrdId)
    (hsymbol : Value symbol) (hreason : Value reason) (transact : SendingTime time)
    (hsender : Value sender) (htarget : Value target) (hnow : Value now) (hseq : seq < 2 ^ 64) :
    ∃ m, parseWire (frame "FIX.4.2" "8" seq sender target now (rejectedOrderFields time rejectId
        clOrdId symbol side orderType price quantity reason)) = .ok m ∧
      decode m = (add (0 : D) 0 >>= fun _ =>
        .ok (.ok (.executionReport (rejectedData clOrdId symbol side price quantity)))) := by
  have values : ∀ field ∈ rejectedOrderFields time rejectId clOrdId symbol side orderType price
      quantity reason, Value field.2 :=
    rejectedOrder_values hclOrdId hsymbol hreason transact.value
  have tags : (rejectedOrderFields time rejectId clOrdId symbol side orderType price quantity
      reason).map Prod.fst = [37, 17, 20, 150, 39, 54, 38, 40, 151, 14, 44, 11, 55, 58, 60, 6] := by
    rw [rejectedOrderFields_eq]
    rfl
  let out : Outgoing := {
    msgType := "8", seq := seq, sender := sender, target := target, now := now
    fields := rejectedOrderFields time rejectId clOrdId symbol side orderType price quantity reason
    msgType_value := by decide
    seq_lt := hseq, sender_value := hsender, target_value := htarget, now_value := hnow
    body_fields := by
      intro field mem
      refine ⟨?_, values field mem⟩
      have tag := tags ▸ List.mem_map_of_mem (f := Prod.fst) mem
      revert tag
      generalize field.1 = n
      intro tag
      simp only [List.mem_cons, List.not_mem_nil, or_false] at tag
      rcases tag with rfl | rfl | rfl | rfl | rfl | rfl | rfl | rfl | rfl | rfl | rfl | rfl |
        rfl | rfl | rfl | rfl <;> simp [BodyTag] }
  have holds : Request.Holds out.message (rejectedOrderFields time rejectId clOrdId symbol side
      orderType price quantity reason) := fun tag other => get_built other
  have dated : out.message.get 60 = some time := by
    rw [holds 60 (by decide), rejectedOrderFields_eq]
    rfl
  have fitting : Fitting out.message "8" [37, 17, 20, 150, 39, 55, 54, 151, 14, 6] := by
    refine fitting_built tags rejectedOrder_shape out.msgType_value hsender htarget hnow values
      ?_ ?_
    · intro t ht
      obtain rfl := Option.some.inj (dated.symm.trans ht)
      exact transact
    · exact fun order => absurd order (by decide : ¬ ("8" = "D" ∨ "8" = "G"))
  refine ⟨out.message, out.message_parsed, ?_⟩
  unfold decode
  rw [fitting.named]
  simp only [fitting.validated, if_true]
  exact rejectedOrder_decoded holds

end

end Fix

end RustTrader
