import RustTrader.Fix.Following

/-!
# Requests are served

What the exchange does with a request whose identifiers stand for themselves: it
accepts it and steps, or it leaves everything as it is and says so.
-/

namespace RustTrader.Fix

variable {D : Type} [Decimal D] {s : String} {e : Engine D} {ids : WireIdMap}

/-- Identifiers that stand for themselves, and have been given to every order recorded
for the session. -/
structure Enrolled (s : String) (reached : OrderId) (e : Engine D) (ids : WireIdMap) : Prop where
  paired : ids.Paired
  literal : ids.Literal
  issued : ∀ id, ids.wireFor id ≠ none → id ≤ reached
  recorded : ∀ id r, e.order s id = some r → ids.wireFor id = some (toString id)

variable {reached : OrderId}

/-- The order a number names is the one recorded under it. -/
theorem Enrolled.named (h : Enrolled s reached e ids) {id : OrderId}
    (requestable : Requestable id) :
    named e s ids (toString id) = e.order s id := by
  unfold Fix.named
  cases known : HashMap.get? ids.wireToInternal (toString id) with
  | none =>
    cases recorded : e.order s id with
    | none => rfl
    | some r =>
      rw [h.paired.back _ _ (h.recorded id r recorded)] at known
      cases known
  | some k =>
    have back := h.paired.forth _ _ known
    rw [number_injective requestable (h.paired.range _ _ back) (h.literal _ _ back)]
    rfl

/-- The number that an identifier is a text of. -/
theorem Enrolled.target (h : Enrolled s reached e ids) {id k : OrderId}
    (requestable : Requestable id)
    (known : HashMap.get? ids.wireToInternal (toString id) = some k) : k = id := by
  have back := h.paired.forth _ _ known
  exact (number_injective requestable (h.paired.range _ _ back) (h.literal _ _ back)).symm

/-- A new number joins the enrolled. -/
theorem Enrolled.fresh (h : Enrolled s reached e ids) {id : OrderId} (requestable : Requestable id)
    (later : reached < id) : ∃ ids', ids.freshId (toString id) = (.ok id, ids') ∧
      ids'.wireFor id = some (toString id) ∧ Enrolled s id e ids' := by
  have free : ids.wireFor id = none := by
    by_contra taken
    exact absurd (h.issued id taken) (not_le.mpr later)
  obtain ⟨ids', given, paired, literal, names⟩ :=
    WireIdMap.freshId_number h.paired h.literal requestable free
  refine ⟨ids', given, (names id).trans (if_pos rfl), paired, literal, ?_, ?_⟩
  · intro k taken
    rw [names k] at taken
    split at taken
    · rename_i same
      exact same.le
    · exact (h.issued k taken).trans later.le
  · intro k r recorded
    rw [names k]
    split
    · rename_i same
      rw [same]
    · exact h.recorded k r recorded

/-- The enrolled serves another engine that records what has been asked for. -/
theorem Enrolled.serves (h : Enrolled s reached e ids) {e' : Engine D}
    (entered : ∀ id r, e'.order s id = some r →
      e.order s id ≠ none ∨ ids.wireFor id = some (toString id)) : Enrolled s reached e' ids := by
  refine ⟨h.paired, h.literal, h.issued, fun id r recorded => ?_⟩
  rcases entered id r recorded with known | named
  · obtain ⟨r', before⟩ := Option.ne_none_iff_exists'.mp known
    exact h.recorded id r' before
  · exact named

/-- A refusal shows the order that is recorded. -/
theorem reject_concluded {id original : OrderId} (enrolled : Enrolled s id e ids)
    (requestable : Requestable original) {responseTo reason : String} :
    conclude false ids (fun e reason => .message "9" (cancelRejectFields (toString id)
        (toString original) responseTo (named e s ids (toString original)) reason))
      (.error (false, reason), e) =
    ⟨e, ids, [.message "9" (cancelRejectFields (toString id) (toString original) responseTo
      (e.order s original) reason)], false, none⟩ := by
  rw [← enrolled.named requestable]
  rfl

section Lawful

variable [LawfulDecimal D] {policy : FillPolicy} {today : Int} {now symbol : String}
  {rejectId : Nat} {side : Side} {orderType : OrderType} {price quantity : D} {handled : Handled D}
  {id original : OrderId}

/-- A new order is rejected, or entered and reported on. -/
theorem create_served (c : Coherent policy e.view none) (hp : e.fillPolicy = policy)
    {ids' : WireIdMap} (given : ids.freshId (toString id) = (.ok id, ids'))
    (h : handleBusiness today now rejectId false e s ids
      (.newOrderSingle (toString id) symbol side orderType price quantity) = .ok handled) :
    handled.ids = ids' ∧ ((∃ reason, Value reason ∧ handled.engine = e ∧ handled.messages =
        [.message "8" (rejectedOrderFields now rejectId (toString id) symbol side orderType price
          quantity reason)]) ∨
      handled.messages = [] ∧ ∃ instrumentId, Step e (.createOrder today s
          ⟨id, instrumentId, side, orderType, price, quantity⟩) handled.engine ∧
        ∃ report ∈ newsFor s e handled.engine, report.order.identity = (s, id)) := by
  obtain ⟨done, returns, rfl⟩ := handle_newOrderSingle h
  have reasoned : Reasoned (enterOrder today e s (ids.freshId (toString id)).1 symbol side orderType
      price quantity) := enterOrder_reasoned today e s symbol side orderType price quantity
  rw [given] at returns reasoned ⊢
  rcases enterOrder_cases c hp returns with ⟨reason, rfl⟩ |
      ⟨id', instrumentId, news, fresh, accepted, step, sent, -, report, here, identity⟩
  · exact ⟨rfl, .inl ⟨reason, reasoned reason e returns, rfl, rfl⟩⟩
  · cases fresh
    rw [conclude_done accepted]
    refine ⟨rfl, .inr ⟨rfl, instrumentId, step, report, ?_, identity⟩⟩
    rw [newsFor_sent sent]
    exact List.mem_filter.mpr ⟨here, decide_eq_true (Prod.mk.inj identity).1⟩

omit [LawfulDecimal D] in
/-- A cancellation is rejected with the state of its order, or confirmed. -/
theorem cancel_served (c : Coherent policy e.view none) {ids' : WireIdMap}
    (given : ids.freshId (toString id) = (.ok id, ids'))
    (enrolled' : Enrolled s id e ids') (requestable : Requestable original)
    (h : handleBusiness today now rejectId false e s ids
      (.cancelRequest (toString id) (toString original) symbol side) = .ok handled) :
    handled.ids = ids' ∧ ((∃ reason, Value reason ∧ handled.engine = e ∧ handled.messages =
        [.message "9" (cancelRejectFields (toString id) (toString original) "1"
          (e.order s original) reason)]) ∨
      handled.messages = [] ∧ Step e (.cancelOrderWithId s original id) handled.engine ∧
        ∃ entry book' execId,
          Engine.Cancelled e handled.engine s original id entry book' execId) := by
  obtain ⟨done, returns, rfl⟩ := handle_cancelRequest h
  have reasoned : Reasoned (cancelOrder e s ids' (ids.freshId (toString id)).1 (toString original)
      symbol side) := cancelOrder_reasoned e s ids' (toString original) symbol side
  rw [given] at returns reasoned ⊢
  have declined : ∀ reason, done = (.error (false, reason), e) → Value reason := by
    rintro reason rfl
    exact reasoned reason e returns
  unfold cancelOrder at returns
  dsimp only at returns
  split at returns
  · rename_i reason refused
    cases returns
    rw [reject_concluded enrolled' requestable]
    exact ⟨rfl, .inl ⟨reason, declined reason rfl, rfl, rfl⟩⟩
  · rename_i target found
    obtain rfl := enrolled'.target requestable (original_ok found)
    obtain ⟨⟨reply, e'⟩, replied, outcome⟩ := Exec.bind_ok.mp returns
    cases outcome
    rcases Engine.cancel_cases c replied with refused | ⟨rfl, entry, book', execId, cancelled⟩
    · obtain ⟨reason, same⟩ := attempt_refused refused
      rw [same, reject_concluded enrolled' requestable]
      exact ⟨rfl, .inl ⟨reason, declined reason same, rfl, rfl⟩⟩
    · exact ⟨rfl, .inr ⟨rfl, .cancelOrderWithId _ _ _ _ _ _ replied, entry, book', execId,
        cancelled⟩⟩

/-- A replacement is rejected with the state of its order, or confirmed. -/
theorem replace_served (c : Coherent policy e.view none) (hp : e.fillPolicy = policy)
    {ids' : WireIdMap} (given : ids.freshId (toString id) = (.ok id, ids'))
    (enrolled' : Enrolled s id e ids') (requestable : Requestable original)
    (h : handleBusiness today now rejectId false e s ids
      (.cancelReplace (toString id) (toString original) symbol side orderType price quantity) =
        .ok handled) :
    handled.ids = ids' ∧ ((∃ reason, Value reason ∧ handled.engine = e ∧ handled.messages =
        [.message "9" (cancelRejectFields (toString id) (toString original) "2"
          (e.order s original) reason)]) ∨
      handled.messages = [] ∧
        e.modifyOrderWithType today s original id orderType price quantity =
          .ok (.ok (), handled.engine)) := by
  obtain ⟨done, returns, rfl⟩ := handle_cancelReplace h
  have reasoned : Reasoned (replaceOrder today e s ids' (ids.freshId (toString id)).1
      (toString original) symbol side orderType price quantity) :=
    replaceOrder_reasoned today e s ids' (toString original) symbol side orderType price quantity
  rw [given] at returns reasoned ⊢
  have declined : ∀ reason, done = (.error (false, reason), e) → Value reason := by
    rintro reason rfl
    exact reasoned reason e returns
  unfold replaceOrder at returns
  dsimp only at returns
  split at returns
  · rename_i reason refused
    cases returns
    rw [reject_concluded enrolled' requestable]
    exact ⟨rfl, .inl ⟨reason, declined reason rfl, rfl, rfl⟩⟩
  · rename_i target found
    obtain rfl := enrolled'.target requestable (original_ok found)
    obtain ⟨⟨reply, e'⟩, replied, outcome⟩ := Exec.bind_ok.mp returns
    cases outcome
    rcases Engine.modify_answers c hp replied with refused | ⟨rfl, -⟩
    · obtain ⟨reason, same⟩ := attempt_refused refused
      rw [same, reject_concluded enrolled' requestable]
      exact ⟨rfl, .inl ⟨reason, declined reason same, rfl, rfl⟩⟩
    · exact ⟨rfl, .inr ⟨rfl, replied⟩⟩

end Lawful

end RustTrader.Fix
