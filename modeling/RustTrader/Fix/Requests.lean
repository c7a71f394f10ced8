import RustTrader.Dec96
import RustTrader.Fix.Decoding

/-!
# Requests of the initiator

Every message an initiator builds, with texts a field may hold, is parsed and
decoded to what was asked; one whose quantities or prices the profile does not
admit is built all the same and refused.
-/

namespace RustTrader.Fix

open Decimal

/-- What an initiator asks for, in the arguments of the builders. -/
inductive Request (D : Type) where
  | logon (heartBtInt : Nat)
  | heartbeat (testReqId : Option String)
  | testRequest (reqId : String)
  | newOrderSingle (clOrdId symbol : String) (side : Side) (orderType : OrderType)
      (price quantity : D)
  | cancelRequest (origClOrdId clOrdId symbol : String) (side : Side)
  | cancelReplace (origClOrdId clOrdId symbol : String) (side : Side) (price quantity : D)
  | massQuote (symbol : String) (bidPrice bidQuantity askPrice askQuantity : D)

/-- What the builders take from their surroundings. -/
structure Surroundings where
  transactTime : String
  micros : Int
  next : Nat

def Surroundings.quoteId (around : Surroundings) : String :=
  messageIdentifier "q" around.micros around.next

namespace Request

variable {D : Type} [Decimal D]

def msgType : Request D → String
  | .logon _ => "A"
  | .heartbeat _ => "0"
  | .testRequest _ => "1"
  | .newOrderSingle .. => "D"
  | .cancelRequest .. => "F"
  | .cancelReplace .. => "G"
  | .massQuote .. => "i"

def fields (around : Surroundings) : Request D → Fields
  | .logon heartBtInt => buildLogon heartBtInt
  | .heartbeat testReqId => buildHeartbeat testReqId
  | .testRequest reqId => buildTestRequest reqId
  | .newOrderSingle clOrdId symbol side orderType price quantity =>
    buildNewOrderSingle around.transactTime clOrdId symbol side orderType price quantity
  | .cancelRequest origClOrdId clOrdId symbol side =>
    buildCancelRequest around.transactTime origClOrdId clOrdId symbol side
  | .cancelReplace origClOrdId clOrdId symbol side price quantity =>
    buildCancelReplace around.transactTime origClOrdId clOrdId symbol side price quantity
  | .massQuote symbol bidPrice bidQuantity askPrice askQuantity =>
    buildMassQuote around.quoteId symbol bidPrice bidQuantity askPrice askQuantity

/-- Identifiers and symbols are not empty and printable; the interval is an
unsigned 32-bit number. -/
def Printable : Request D → Prop
  | .logon heartBtInt => heartBtInt < 2 ^ 32
  | .heartbeat testReqId => ∀ id, testReqId = some id → Value id
  | .testRequest reqId => Value reqId
  | .newOrderSingle clOrdId symbol .. => Value clOrdId ∧ Value symbol
  | .cancelRequest origClOrdId clOrdId symbol _ =>
    Value origClOrdId ∧ Value clOrdId ∧ Value symbol
  | .cancelReplace origClOrdId clOrdId symbol .. =>
    Value origClOrdId ∧ Value clOrdId ∧ Value symbol
  | .massQuote symbol .. => Value symbol

/-- The numbers the profile admits. -/
def Admitted : Request D → Prop
  | .logon heartBtInt => 0 < heartBtInt
  | .newOrderSingle _ _ _ orderType price quantity =>
    0 < quantity ∧ (orderType = .limit → 0 < price)
  | .cancelReplace _ _ _ _ price quantity => 0 < quantity ∧ 0 < price
  | .massQuote _ bidPrice bidQuantity askPrice askQuantity =>
    0 ≤ bidPrice ∧ 0 ≤ bidQuantity ∧ 0 ≤ askPrice ∧ 0 ≤ askQuantity
  | _ => True

/-- What the exchange is to make of a request. -/
def inbound (around : Surroundings) : Request D → Inbound D
  | .logon heartBtInt => .logon heartBtInt
  | .heartbeat _ => .heartbeat
  | .testRequest reqId => .testRequest reqId
  | .newOrderSingle clOrdId symbol side orderType price quantity =>
    .newOrderSingle clOrdId symbol side orderType (if orderType = .limit then price else 0) quantity
  | .cancelRequest origClOrdId clOrdId symbol side =>
    .cancelRequest clOrdId origClOrdId symbol side
  | .cancelReplace origClOrdId clOrdId symbol side price quantity =>
    .cancelReplace clOrdId origClOrdId symbol side .limit price quantity
  | .massQuote symbol bidPrice bidQuantity askPrice askQuantity =>
    .massQuote around.quoteId 0 symbol bidPrice bidQuantity askPrice askQuantity

section

variable [DecimalText D] [LawfulText D] {around : Surroundings}

theorem fields_values (time : Value around.transactTime) {r : Request D} (h : r.Printable) :
    ∀ field ∈ r.fields around, Value field.2 := by
  have one : Value "1" := by decide
  have two : Value "2" := by decide
  have sided : ∀ side, Value (sideToFix side) := fun side => by cases side <;> assumption
  have stamped : Value around.quoteId :=
    value_messageIdentifier (by decide) _ _
  cases r with
  | logon heartBtInt =>
    simp only [fields, buildLogon, List.forall_mem_cons]
    exact ⟨by decide, value_repr _, by simp⟩
  | heartbeat testReqId =>
    cases testReqId with
    | none => exact fun field hfield => by cases hfield
    | some id =>
      intro field hfield
      rw [List.mem_singleton.mp hfield]
      exact h id rfl
  | testRequest reqId =>
    intro field hfield
    rw [List.mem_singleton.mp hfield]
    exact h
  | newOrderSingle clOrdId symbol side orderType price quantity =>
    have typed : Value (ordTypeToFix orderType) := by cases orderType <;> assumption
    simp only [fields, buildNewOrderSingle, List.forall_mem_append, List.forall_mem_cons]
    refine ⟨⟨h.1, one, h.2, sided side, time, typed, value_fixDecimal _, by simp⟩, ?_⟩
    intro field hfield
    split at hfield
    · rw [List.mem_singleton.mp hfield]
      exact value_fixDecimal _
    · cases hfield
  | cancelRequest origClOrdId clOrdId symbol side =>
    simp only [fields, buildCancelRequest, List.forall_mem_cons]
    exact ⟨h.1, h.2.1, h.2.2, sided side, time, by simp⟩
  | cancelReplace origClOrdId clOrdId symbol side price quantity =>
    simp only [fields, buildCancelReplace, List.forall_mem_cons]
    exact ⟨h.1, h.2.1, one, h.2.2, sided side, time, two, value_fixDecimal _, value_fixDecimal _,
      by simp⟩
  | massQuote symbol bidPrice bidQuantity askPrice askQuantity =>
    have printed : Value symbol := h
    simp only [fields, buildMassQuote, List.forall_mem_cons]
    exact ⟨stamped, one, one, printed, one, one, printed, printed, value_fixDecimal _,
      value_fixDecimal _, value_fixDecimal _, value_fixDecimal _, by simp⟩

/-- The tags of a request, and those its profile requires. -/
def tags : Request D → List Nat
  | .logon _ => [98, 108]
  | .heartbeat none => []
  | .heartbeat (some _) => [112]
  | .testRequest _ => [112]
  | .newOrderSingle _ _ _ .limit .. => [11, 21, 55, 54, 60, 40, 38, 44]
  | .newOrderSingle _ _ _ .market .. => [11, 21, 55, 54, 60, 40, 38]
  | .cancelRequest .. => [41, 11, 55, 54, 60]
  | .cancelReplace .. => [41, 11, 21, 55, 54, 60, 40, 38, 44]
  | .massQuote .. => [117, 296, 302, 311, 304, 295, 299, 55, 132, 133, 134, 135]

omit [DecimalText D] [LawfulText D] in
theorem fields_tags (r : Request D) : (r.fields around).map Prod.fst = r.tags := by
  cases r with
  | heartbeat testReqId => cases testReqId <;> rfl
  | newOrderSingle clOrdId symbol side orderType price quantity => cases orderType <;> rfl
  | _ => rfl

theorem logon_shape : Shape "A" [98, 108] [98, 108] :=
  ⟨rfl, by decide, rfl, by decide, by decide⟩

theorem heartbeat_shape : Shape "0" [] [] := ⟨rfl, by decide, rfl, by decide, by decide⟩

theorem answer_shape : Shape "0" [] [112] := ⟨rfl, by decide, rfl, by decide, by decide⟩

theorem testRequest_shape : Shape "1" [112] [112] :=
  ⟨rfl, by decide, rfl, by decide, by decide⟩

theorem limitOrder_shape : Shape "D" [11, 21, 55, 54, 60, 40, 38]
    [11, 21, 55, 54, 60, 40, 38, 44] :=
  ⟨rfl, by decide, rfl, by decide, by decide⟩

theorem marketOrder_shape : Shape "D" [11, 21, 55, 54, 60, 40, 38]
    [11, 21, 55, 54, 60, 40, 38] :=
  ⟨rfl, by decide, rfl, by decide, by decide⟩

theorem cancelRequest_shape : Shape "F" [11, 41, 55, 54, 60] [41, 11, 55, 54, 60] :=
  ⟨rfl, by decide, rfl, by decide, by decide⟩

theorem cancelReplace_shape : Shape "G" [11, 41, 21, 55, 54, 60, 40, 38]
    [41, 11, 21, 55, 54, 60, 40, 38, 44] :=
  ⟨rfl, by decide, rfl, by decide, by decide⟩

theorem massQuote_shape : Shape "i" [117, 296, 302, 311, 304, 295, 299, 55]
    [117, 296, 302, 311, 304, 295, 299, 55, 132, 133, 134, 135] :=
  ⟨rfl, by decide, rfl, by decide, by decide⟩

omit [Decimal D] [DecimalText D] [LawfulText D] in
theorem tags_shape (r : Request D) : ∃ required, Shape r.msgType required r.tags := by
  cases r with
  | logon => exact ⟨_, logon_shape⟩
  | heartbeat testReqId =>
    cases testReqId with
    | none => exact ⟨_, heartbeat_shape⟩
    | some id => exact ⟨_, answer_shape⟩
  | testRequest => exact ⟨_, testRequest_shape⟩
  | newOrderSingle clOrdId symbol side orderType price quantity =>
    cases orderType with
    | limit => exact ⟨_, limitOrder_shape⟩
    | market => exact ⟨_, marketOrder_shape⟩
  | cancelRequest => exact ⟨_, cancelRequest_shape⟩
  | cancelReplace => exact ⟨_, cancelReplace_shape⟩
  | massQuote => exact ⟨_, massQuote_shape⟩

end

section

variable {around : Surroundings} {sender target now raw : String} {seq : Nat}

/-- The message the exchange gets of a request. -/
def message (around : Surroundings) (seq : Nat) (sender target now raw : String)
    (r : Request D) : FixMessage :=
  built r.msgType seq sender target now (r.fields around) raw

theorem message_get (r : Request D) {tag : Nat} (h : tag ∉ headerTagsBuilt) :
    (r.message around seq sender target now raw).get tag =
      ((r.fields around).find? (fun field => field.1 == tag)).map Prod.snd :=
  get_built h

omit [Decimal D] in
theorem kind_value (r : Request D) : Value r.msgType ∧ r.msgType ≠ "8" := by
  cases r with
  | logon => exact (by decide : Value "A" ∧ "A" ≠ "8")
  | heartbeat => exact (by decide : Value "0" ∧ "0" ≠ "8")
  | testRequest => exact (by decide : Value "1" ∧ "1" ≠ "8")
  | newOrderSingle => exact (by decide : Value "D" ∧ "D" ≠ "8")
  | cancelRequest => exact (by decide : Value "F" ∧ "F" ≠ "8")
  | cancelReplace => exact (by decide : Value "G" ∧ "G" ≠ "8")
  | massQuote => exact (by decide : Value "i" ∧ "i" ≠ "8")

/-- The time an order carries is that of its making. -/
theorem message_time (r : Request D) : ∀ time,
    (r.message around seq sender target now raw).get 60 = some time →
      time = around.transactTime := by
  intro time h
  rw [message_get r (by decide)] at h
  cases r with
  | heartbeat testReqId => cases testReqId <;> cases h
  | newOrderSingle clOrdId symbol side orderType price quantity =>
    cases orderType <;> exact (Option.some.inj h).symm
  | cancelRequest => exact (Option.some.inj h).symm
  | cancelReplace => exact (Option.some.inj h).symm
  | _ => cases h

theorem message_handling (r : Request D) (order : r.msgType = "D" ∨ r.msgType = "G") :
    (r.message around seq sender target now raw).get 21 = some "1" ∧ 59 ∉ r.tags := by
  rw [message_get r (by decide)]
  cases r with
  | newOrderSingle clOrdId symbol side orderType price quantity =>
    cases orderType
    · exact ⟨rfl, (by decide : 59 ∉ [11, 21, 55, 54, 60, 40, 38])⟩
    · exact ⟨rfl, (by decide : 59 ∉ [11, 21, 55, 54, 60, 40, 38, 44])⟩
  | cancelReplace => exact ⟨rfl, (by decide : 59 ∉ [41, 11, 21, 55, 54, 60, 40, 38, 44])⟩
  | _ => exact absurd order (by simp [msgType])

variable [DecimalText D] [LawfulText D]

theorem decode_message [Chrono] {r : Request D} (h : r.Printable)
    (time : SendingTime around.transactTime)
    (hsender : Value sender) (htarget : Value target) (hnow : Value now) :
    decode (r.message around seq sender target now raw) =
      (.ok (decodeRequest (r.message around seq sender target now raw) r.msgType) :
        Exec (Except String (Inbound D))) := by
  obtain ⟨required, shape⟩ := r.tags_shape
  obtain ⟨kind, other⟩ := r.kind_value
  have fitting : Fitting (r.message around seq sender target now raw) r.msgType required := by
    refine fitting_built r.fields_tags shape kind hsender htarget hnow
      (fields_values time.value h) ?_ r.message_handling
    intro t ht
    rw [r.message_time t ht]
    exact time
  unfold decode
  rw [fitting.named]
  simp only [fitting.validated, if_neg other]
  rfl

/-- A message whose further fields are those of a request. -/
def Holds (m : FixMessage) (fields : Fields) : Prop :=
  ∀ tag, tag ∉ headerTagsBuilt →
    m.get tag = (fields.find? (fun field => field.1 == tag)).map Prod.snd

variable {m : FixMessage}

omit [Decimal D] [DecimalText D] [LawfulText D] in
theorem logon_decoded {heartBtInt : Nat} (small : heartBtInt < 2 ^ 32)
    (get : Holds m (buildLogon heartBtInt)) : (decodeLogon m : Except String (Inbound D)) =
      if heartBtInt = 0 then .error "HeartBtInt must be positive in this profile"
      else .ok (.logon heartBtInt) := by
  have g98 : m.get 98 = some "0" := get 98 (by decide)
  have g141 : m.get 141 = none := get 141 (by decide)
  have g108 : m.get 108 = some heartBtInt.repr := get 108 (by decide)
  have flag : m.boolean 141 false = .ok false := by rw [FixMessage.boolean, g141]
  have heart := natural_some g108 (small.trans (by decide))
  have fits : ¬ 2 ^ 32 ≤ heartBtInt := not_le.mpr small
  unfold decodeLogon
  simp only [need_some g98, flag, heart, bind, Except.bind, fits, ne_eq, not_true_eq_false,
    if_false]
  split
  · rfl
  · rfl

omit [LawfulText D] in
theorem testRequest_decoded {reqId : String} (get : Holds m (buildTestRequest reqId)) :
    (decodeRequest m "1" : Except String (Inbound D)) = .ok (.testRequest reqId) := by
  have g112 : m.get 112 = some reqId := get 112 (by decide)
  change (m.need 112 >>= fun testReqId => pure (Inbound.testRequest testReqId)) = _
  rw [need_some g112]
  rfl

theorem orderPrice_decoded {orderType : OrderType} {price : D}
    (h : m.get 44 = if orderType = .limit then some (fixDecimal price) else none) :
    m.orderPrice orderType =
      if orderType = .limit ∧ price ≤ 0 then .error "tag 44 must be positive"
      else .ok (if orderType = .limit then price else 0) := by
  unfold FixMessage.orderPrice
  cases orderType with
  | limit =>
    rw [if_pos rfl] at h ⊢
    rw [positive_cases h]
    simp
    rfl
  | market =>
    rw [if_neg (by decide)] at h ⊢
    simp [optionalDec_none h]

theorem newOrderSingle_decoded {clOrdId symbol : String} {side : Side} {orderType : OrderType}
    {price quantity : D}
    (get : Holds m (buildNewOrderSingle around.transactTime clOrdId symbol side orderType price
      quantity)) :
    (decodeNewOrderSingle m : Except String (Inbound D)) =
      if orderType = .limit ∧ price ≤ 0 then .error "tag 44 must be positive"
      else if quantity ≤ 0 then .error "tag 38 must be positive"
      else .ok (.newOrderSingle clOrdId symbol side orderType
        (if orderType = .limit then price else 0) quantity) := by
  have g40 : m.get 40 = some (ordTypeToFix orderType) := get 40 (by decide)
  have g11 : m.get 11 = some clOrdId := get 11 (by decide)
  have g55 : m.get 55 = some symbol := get 55 (by decide)
  have g54 : m.get 54 = some (sideToFix side) := get 54 (by decide)
  have g38 : m.get 38 = some (fixDecimal quantity) := get 38 (by decide)
  have g44 : m.get 44 = if orderType = .limit then some (fixDecimal price) else none := by
    rw [get 44 (by decide)]
    cases orderType <;> rfl
  unfold decodeNewOrderSingle
  simp only [orderType_some g40, need_some g11, need_some g55, side_some g54,
    orderPrice_decoded g44, positive_cases g38, bind, Except.bind]
  by_cases priced : orderType = .limit ∧ price ≤ 0
  · simp only [priced, and_self, if_true]
  · by_cases low : quantity ≤ 0
    · simp only [priced, low, if_true, if_false]
      rfl
    · simp only [priced, low, if_false]
      rfl

omit [LawfulText D] in
theorem cancelRequest_decoded {origClOrdId clOrdId symbol : String} {side : Side}
    (get : Holds m (buildCancelRequest around.transactTime origClOrdId clOrdId symbol side)) :
    (decodeCancelRequest m : Except String (Inbound D)) =
      .ok (.cancelRequest clOrdId origClOrdId symbol side) := by
  have g38 : m.get 38 = none := get 38 (by decide)
  have g11 : m.get 11 = some clOrdId := get 11 (by decide)
  have g41 : m.get 41 = some origClOrdId := get 41 (by decide)
  have g55 : m.get 55 = some symbol := get 55 (by decide)
  have g54 : m.get 54 = some (sideToFix side) := get 54 (by decide)
  unfold decodeCancelRequest
  simp only [g38, need_some g11, need_some g41, need_some g55, side_some g54, bind, Except.bind]
  rfl

theorem cancelReplace_decoded {origClOrdId clOrdId symbol : String} {side : Side}
    {price quantity : D}
    (get : Holds m (buildCancelReplace around.transactTime origClOrdId clOrdId symbol side price
      quantity)) :
    (decodeCancelReplace m : Except String (Inbound D)) =
      if price ≤ 0 then .error "tag 44 must be positive"
      else if quantity ≤ 0 then .error "tag 38 must be positive"
      else .ok (.cancelReplace clOrdId origClOrdId symbol side .limit price quantity) := by
  have g40 : m.get 40 = some (ordTypeToFix .limit) := get 40 (by decide)
  have g11 : m.get 11 = some clOrdId := get 11 (by decide)
  have g41 : m.get 41 = some origClOrdId := get 41 (by decide)
  have g55 : m.get 55 = some symbol := get 55 (by decide)
  have g54 : m.get 54 = some (sideToFix side) := get 54 (by decide)
  have g38 : m.get 38 = some (fixDecimal quantity) := get 38 (by decide)
  have g44 : m.get 44 = some (fixDecimal price) := get 44 (by decide)
  have priced : m.orderPrice .limit =
      if OrderType.limit = .limit ∧ price ≤ 0 then .error "tag 44 must be positive"
      else .ok (if OrderType.limit = .limit then price else 0) :=
    orderPrice_decoded (by rw [if_pos rfl, g44])
  unfold decodeCancelReplace
  simp only [orderType_some g40, need_some g11, need_some g41, need_some g55, side_some g54,
    priced, positive_cases g38, bind, Except.bind, true_and, if_true]
  by_cases priced : price ≤ 0
  · simp only [priced, if_true]
  · by_cases low : quantity ≤ 0
    · simp only [priced, low, if_true, if_false]
      rfl
    · simp only [priced, low, if_false]
      rfl

theorem massQuote_decoded {quoteId symbol : String}
    {bidPrice bidQuantity askPrice askQuantity : D}
    (get : Holds m (buildMassQuote quoteId symbol bidPrice bidQuantity askPrice askQuantity)) :
    (decodeMassQuote m : Except String (Inbound D)) =
      if bidPrice < 0 then .error "negative quote tag 132"
      else if bidQuantity < 0 then .error "negative quote tag 134"
      else if askPrice < 0 then .error "negative quote tag 133"
      else if askQuantity < 0 then .error "negative quote tag 135"
      else .ok (.massQuote quoteId 0 symbol bidPrice bidQuantity askPrice askQuantity) := by
  have g296 : m.get 296 = some "1" := get 296 (by decide)
  have g295 : m.get 295 = some "1" := get 295 (by decide)
  have g304 : m.get 304 = some "1" := get 304 (by decide)
  have g301 : m.get 301 = none := get 301 (by decide)
  have g117 : m.get 117 = some quoteId := get 117 (by decide)
  have g55 : m.get 55 = some symbol := get 55 (by decide)
  have g132 : m.get 132 = some (fixDecimal bidPrice) := get 132 (by decide)
  have g134 : m.get 134 = some (fixDecimal bidQuantity) := get 134 (by decide)
  have g133 : m.get 133 = some (fixDecimal askPrice) := get 133 (by decide)
  have g135 : m.get 135 = some (fixDecimal askQuantity) := get 135 (by decide)
  have level : responseLevel ((none : Option String).getD "0") = .ok 0 := rfl
  unfold decodeMassQuote
  simp only [need_some g296, need_some g295, need_some g304, g301, level, need_some g117,
    need_some g55, quoteValue_cases g132, quoteValue_cases g134, quoteValue_cases g133,
    quoteValue_cases g135, bind, Except.bind, ne_eq, not_true_eq_false, if_false]
  by_cases bid : bidPrice < 0
  · simp only [bid, if_true]
    rfl
  · by_cases bidSize : bidQuantity < 0
    · simp only [bid, bidSize, if_true, if_false]
      rfl
    · by_cases ask : askPrice < 0
      · simp only [bid, bidSize, ask, if_true, if_false]
        rfl
      · by_cases askSize : askQuantity < 0
        · simp only [bid, bidSize, ask, askSize, if_true, if_false]
          rfl
        · simp only [bid, bidSize, ask, askSize, if_false]
          rfl

/-- The exchange makes of a request what was asked, or refuses it. -/
theorem decodeRequest_cases {r : Request D} (h : r.Printable) (get : Holds m (r.fields around)) :
    (r.Admitted → decodeRequest m r.msgType = .ok (r.inbound around)) ∧
      (¬ r.Admitted → ∃ reason, (decodeRequest m r.msgType : Except String (Inbound D)) =
        .error reason) := by
  cases r with
  | logon heartBtInt =>
    change (0 < heartBtInt → decodeLogon m = .ok (.logon heartBtInt)) ∧
      (¬ 0 < heartBtInt → ∃ reason, (decodeLogon m : Except String (Inbound D)) = .error reason)
    rw [logon_decoded h get]
    constructor
    · intro positive
      rw [if_neg (Nat.pos_iff_ne_zero.mp positive)]
    · intro zero
      rw [if_pos (Nat.eq_zero_of_not_pos zero)]
      exact ⟨_, rfl⟩
  | heartbeat testReqId => exact ⟨fun _ => rfl, fun refused => absurd trivial refused⟩
  | testRequest reqId =>
    exact ⟨fun _ => testRequest_decoded get, fun refused => absurd trivial refused⟩
  | newOrderSingle clOrdId symbol side orderType price quantity =>
    have decoded := newOrderSingle_decoded get
    refine ⟨?_, ?_⟩
    · rintro ⟨positive, priced⟩
      have dear : ¬ (orderType = .limit ∧ price ≤ 0) := fun low =>
        absurd (priced low.1) (not_lt.mpr low.2)
      rw [if_neg dear, if_neg (not_le.mpr positive)] at decoded
      exact decoded
    · intro refused
      by_cases low : orderType = .limit ∧ price ≤ 0
      · rw [if_pos low] at decoded
        exact ⟨_, decoded⟩
      · have none_ : quantity ≤ 0 := by
          by_contra positive
          refine refused ⟨not_le.mp positive, ?_⟩
          intro limit
          by_contra cheap
          exact low ⟨limit, not_lt.mp cheap⟩
        rw [if_neg low, if_pos none_] at decoded
        exact ⟨_, decoded⟩
  | cancelRequest origClOrdId clOrdId symbol side =>
    exact ⟨fun _ => cancelRequest_decoded get, fun refused => absurd trivial refused⟩
  | cancelReplace origClOrdId clOrdId symbol side price quantity =>
    have decoded := cancelReplace_decoded get
    refine ⟨?_, ?_⟩
    · rintro ⟨positive, priced⟩
      rw [if_neg (not_le.mpr priced), if_neg (not_le.mpr positive)] at decoded
      exact decoded
    · intro refused
      by_cases low : price ≤ 0
      · rw [if_pos low] at decoded
        exact ⟨_, decoded⟩
      · have none_ : quantity ≤ 0 := by
          by_contra positive
          exact refused ⟨not_le.mp positive, not_le.mp low⟩
        rw [if_neg low, if_pos none_] at decoded
        exact ⟨_, decoded⟩
  | massQuote symbol bidPrice bidQuantity askPrice askQuantity =>
    have decoded := massQuote_decoded get
    refine ⟨?_, ?_⟩
    · rintro ⟨bid, bidSize, ask, askSize⟩
      rw [if_neg (not_lt.mpr bid), if_neg (not_lt.mpr bidSize), if_neg (not_lt.mpr ask),
        if_neg (not_lt.mpr askSize)] at decoded
      exact decoded
    · intro refused
      by_cases bid : bidPrice < 0
      · rw [if_pos bid] at decoded
        exact ⟨_, decoded⟩
      · by_cases bidSize : bidQuantity < 0
        · rw [if_neg bid, if_pos bidSize] at decoded
          exact ⟨_, decoded⟩
        · by_cases ask : askPrice < 0
          · rw [if_neg bid, if_neg bidSize, if_pos ask] at decoded
            exact ⟨_, decoded⟩
          · have askSize : askQuantity < 0 := by
              by_contra askSize
              exact refused ⟨not_lt.mp bid, not_lt.mp bidSize, not_lt.mp ask, not_lt.mp askSize⟩
            rw [if_neg bid, if_neg bidSize, if_neg ask, if_pos askSize] at decoded
            exact ⟨_, decoded⟩

end

section

variable [DecimalText D] [LawfulText D] {around : Surroundings} {sender target now : String}
  {seq : Nat}

omit [Decimal D] [DecimalText D] [LawfulText D] in
theorem tags_body (r : Request D) : ∀ tag ∈ r.tags, BodyTag tag := by
  cases r with
  | heartbeat testReqId => cases testReqId <;> simp [tags, BodyTag]
  | newOrderSingle clOrdId symbol side orderType price quantity =>
    cases orderType <;> simp [tags, BodyTag]
  | _ => simp [tags, BodyTag]

theorem fields_body (time : Value around.transactTime) {r : Request D} (h : r.Printable) :
    ∀ field ∈ r.fields around, BodyField field := by
  intro field hfield
  refine ⟨r.tags_body _ ?_, fields_values time h field hfield⟩
  have tags : (r.fields around).map Prod.fst = r.tags := r.fields_tags
  rw [← tags]
  exact List.mem_map_of_mem hfield

/-- What the initiator writes for a request. -/
def outgoing (around : Surroundings) (seq : Nat) (sender target now : String) (r : Request D)
    (h : r.Printable) (time : Value around.transactTime) (hsender : Value sender)
    (htarget : Value target) (hnow : Value now) (hseq : seq < 2 ^ 64) : Outgoing where
  msgType := r.msgType
  seq := seq
  sender := sender
  target := target
  now := now
  fields := r.fields around
  msgType_value := r.kind_value.1
  seq_lt := hseq
  sender_value := hsender
  target_value := htarget
  now_value := hnow
  body_fields := fields_body time h

end

end Request

/-- One frame is read as one message. -/
theorem frame_received (m : Outgoing) (fits : m.bytes.length ≤ maxMessageSize)
    (script : List (Framing.Event Interruption)) (n : Nat)
    (enough : m.bytes.length < Framing.pieces script) (many : 1 + (timeouts script).length < n) :
    received (readMessages n script FrameReader.new m.bytes).1 = [m.message] := by
  have one : [m].flatMap Outgoing.bytes = m.bytes := List.flatMap_singleton ..
  obtain ⟨-, -, complete, ends⟩ := frames_returned [m]
    (fun m' hm => List.mem_singleton.mp hm ▸ fits) script n
  rw [one] at complete ends
  exact complete (ends enough many)

variable {D : Type} [Decimal D] [DecimalText D] [LawfulText D]

/-- Every frame an initiator builds is parsed, and decoded to what was asked if
its numbers are admitted and refused otherwise; one of a size the reader allows
reaches the exchange however it arrives. -/
theorem requests_decoded [Chrono] (r : Request D) (printable : r.Printable)
    (around : Surroundings) (transact : SendingTime around.transactTime)
    (sender target now : String) (seq : Nat) (hsender : Value sender) (htarget : Value target)
    (hnow : Value now) (hseq : seq < 2 ^ 64) :
    let bytes := frame "FIX.4.2" r.msgType seq sender target now (r.fields around)
    ∃ m, parseWire bytes = .ok m ∧
      (r.Admitted → decode m = .ok (.ok (r.inbound around))) ∧
      (¬ r.Admitted → ∃ reason, (decode m : Exec (Except String (Inbound D))) =
        .ok (.error reason)) ∧
      (bytes.length ≤ maxMessageSize → ∀ script n, bytes.length < Framing.pieces script →
        1 + (timeouts script).length < n →
        received (readMessages n script FrameReader.new bytes).1 = [m]) := by
  intro bytes
  let out := r.outgoing around seq sender target now printable transact.value hsender htarget hnow
    hseq
  have decoded : decode out.message =
      (.ok (decodeRequest out.message r.msgType) : Exec (Except String (Inbound D))) :=
    Request.decode_message printable transact hsender htarget hnow
  obtain ⟨accepted, refused⟩ := Request.decodeRequest_cases (m := out.message)
    printable (fun tag htag => Request.message_get r htag)
  refine ⟨out.message, out.message_parsed, ?_, ?_, ?_⟩
  · intro admitted
    rw [decoded, accepted admitted]
  · intro wrong
    obtain ⟨reason, err⟩ := refused wrong
    exact ⟨reason, by rw [decoded, err]⟩
  · intro fits script n enough many
    exact frame_received out fits script n enough many

/-- Whether a text has the digits and separators of a pattern. -/
def shaped (pattern text : List Char) : Bool :=
  pattern.length == text.length &&
    (pattern.zip text).all fun (p, c) => if p = '0' then c.isDigit else p == c

/-- A clock for the two formats in use; months and times of day are in range. -/
instance wallClock : Chrono where
  parse value format :=
    let cs := value.toList
    let number (start count : Nat) := Nat.ofDigitChars 10 ((cs.drop start).take count) 0
    let pattern := if format = "%Y%m%d-%H:%M:%S" then "00000000-00:00:00"
      else "00000000-00:00:00.000"
    if shaped pattern.toList cs ∧ 1 ≤ number 4 2 ∧ number 4 2 ≤ 12 ∧ 1 ≤ number 6 2 ∧
        number 6 2 ≤ 31 ∧ number 9 2 < 24 ∧ number 12 2 < 60 ∧ number 15 2 ≤ 60 then
      some (number 0 8 * 86400000 + number 9 2 * 3600000 + number 12 2 * 60000 +
        number 15 2 * 1000 + number 18 3)
    else none

theorem sendingTime_sample : SendingTime "20260912-19:24:59.056" :=
  ⟨by decide, by decide, Option.isSome_iff_exists.mp (by decide +kernel)⟩

def surroundings : Surroundings := ⟨"20260912-19:24:59.056", 1789241099056000, 3⟩

/-- A limit order of 2.5 at 10.25. -/
def limitOrder : Request Dec96 :=
  .newOrderSingle "007" "AAA" .sell .limit (Dec96.literal 1025 2) (Dec96.literal 25 1)

theorem requests_decoded_sample :
    ∃ m, parseWire (frame "FIX.4.2" "D" 2 "CLIENT" "GOX" "20260912-19:24:59.056"
        (limitOrder.fields surroundings)) = .ok m ∧
      decode m = .ok (.ok (.newOrderSingle "007" "AAA" .sell .limit (Dec96.literal 1025 2)
        (Dec96.literal 25 1))) ∧
      received (readMessages 3 (List.replicate 400 (.piece 0)) FrameReader.new
        (frame "FIX.4.2" "D" 2 "CLIENT" "GOX" "20260912-19:24:59.056"
          (limitOrder.fields surroundings))).1 = [m] := by
  obtain ⟨m, parsed, accepted, -, read⟩ := requests_decoded limitOrder
    (by decide : Value "007" ∧ Value "AAA") surroundings sendingTime_sample "CLIENT" "GOX"
    "20260912-19:24:59.056" 2 (by decide) (by decide) (by decide) (by decide)
  refine ⟨m, parsed, ?_, ?_⟩
  · exact accepted (by decide +kernel : 0 < Dec96.literal 25 1 ∧
      (OrderType.limit = .limit → 0 < Dec96.literal 1025 2))
  · exact read (by decide +kernel) _ _ (by decide +kernel) (by decide +kernel)

theorem field_length (m : Outgoing) {field : Nat × String} (h : field ∈ m.fields) :
    (wireBytes field.2).length < m.bytes.length := by
  obtain ⟨before, after, split⟩ := List.append_of_mem h
  have body : m.bodyBytes.length = (wireBytes (bodyText m.allFields)).length := rfl
  rw [wireBytes_bodyText, Outgoing.allFields, split] at body
  have whole := congrArg List.length m.bytes_header
  simp only [List.flatMap_append, List.flatMap_cons, List.length_append, List.length_cons,
    fieldBytes, header_length] at body whole
  omega

/-- An identifier as long as the largest frame. -/
def longRequest : Request Dec96 := .testRequest (String.ofList (List.replicate (2 ^ 20) 'A'))

theorem longRequest_printable : longRequest.Printable := by
  constructor
  · intro none_
    have empty := congrArg String.toList none_
    rw [String.toList_ofList] at empty
    exact absurd (congrArg List.length empty) (by rw [List.length_replicate]; decide)
  · intro c hc
    rw [String.toList_ofList] at hc
    rw [List.eq_of_mem_replicate hc]
    decide

theorem longRequest_unread :
    longRequest.Printable ∧ longRequest.Admitted ∧ ∀ script n,
      received (readMessages n script FrameReader.new (frame "FIX.4.2" longRequest.msgType 2
        "CLIENT" "GOX" "20260912-19:24:59.056" (longRequest.fields surroundings))).1 = [] := by
  refine ⟨longRequest_printable, trivial, ?_⟩
  intro script n
  let out := longRequest.outgoing surroundings 2 "CLIENT" "GOX" "20260912-19:24:59.056"
    longRequest_printable (by decide) (by decide) (by decide) (by decide) (by decide)
  refine oversized_unread out ?_ script n
  have long := field_length out (List.mem_singleton_self _)
  refine lt_of_le_of_lt ?_ long
  rw [wireBytes_printable longRequest_printable.printable, List.length_map, String.toList_ofList,
    List.length_replicate]
  decide

end RustTrader.Fix
