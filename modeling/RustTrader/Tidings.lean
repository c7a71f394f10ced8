import RustTrader.Days
import RustTrader.LastReport
import RustTrader.Lineage
import RustTrader.Reference

/-!
# What a session learns

Seen from one session, a step of the engine keeps its records unless the session itself
replaces an order or leaves, enters an order only where a request asked for it, and
reports what becomes of every record. The terms of an order stay what they were when it
was entered.
-/

namespace RustTrader

open Decimal

variable {D : Type} [Decimal D]

omit [Decimal D] in
/-- What a request fixes about an order. -/
def Order.terms (o : Order D) : D × D × OrderType := (o.quantity, o.price, o.orderType)

namespace Engine

/-- The orders recorded for a session stay recorded, but for those left out. -/
def Keeps (s : String) (out : OrderId → Prop)
    (record record' : String → OrderId → Option (Order D)) : Prop :=
  ∀ id, ¬ out id → (record s id).isSome → (record' s id).isSome

section

variable {s : String} {out : OrderId → Prop}
  {record record' record'' : String → OrderId → Option (Order D)}

omit [Decimal D] in
theorem Keeps.refl (record : String → OrderId → Option (Order D)) : Keeps s out record record :=
  fun _ _ known => known

omit [Decimal D] in
theorem Keeps.trans (h : Keeps s out record record') (h' : Keeps s out record' record'') :
    Keeps s out record record'' := fun id other known => h' id other (h id other known)

theorem keeps_setRecord (v : View D) (s' : String) (id' : OrderId) (order : Order D) :
    Keeps s out v.record (v.setRecord s' id' (some order)).record := by
  intro id _ known
  unfold View.setRecord
  dsimp only
  split
  · rfl
  · exact known

omit [Decimal D] in
theorem keeps_afterTrades (trades : List (RawTrade D)) :
    Keeps s out record (View.afterTrades trades record) := by
  intro id _ known
  unfold View.afterTrades
  rw [Option.isSome_map]
  exact known

omit [Decimal D] in
theorem keeps_synced (final : Order D) : Keeps s out record (View.synced final record) := by
  intro id _ known
  unfold View.synced
  split
  · rw [Option.isSome_map]
    exact known
  · exact known

theorem keeps_added (v : View D) (order final : Order D) (trades : List (RawTrade D))
    (book' : OrderBook D) : Keeps s out v.record (v.added order trades final book').record :=
  (keeps_afterTrades trades).trans (keeps_synced final)

theorem keeps_rekeyed (v : View D) (i : Int) (book1 : OrderBook D) (s' : String)
    (origId : OrderId) (order : Order D) (moved : s = s' → out origId) :
    Keeps s out v.record (rekeyed v i book1 s' origId order).record := by
  intro id other known
  unfold rekeyed View.setRecord
  dsimp only
  split
  · rfl
  · split
    · rename_i gone
      exact absurd (gone.2 ▸ moved gone.1) other
    · exact known

theorem Effect.keeps {e e' : Engine D} {v : View D} {news : List (Report D)}
    (effect : Effect e e' v news) (h : Keeps s out e.order v.record) :
    Keeps s out e.order e'.order := by
  have orders : e'.order = v.record := congrArg View.record effect.view
  rw [orders]
  exact h

theorem keeps_same {e e' : Engine D} (same : e'.order = e.order) :
    Keeps s out e.order e'.order := by
  rw [same]
  exact .refl _

end

/-- The identifiers a command takes from a session. -/
def Takes (s : String) : Command D → OrderId → Prop
  | .modifyOrderWithType _ s' origId _ _ _ _, id => s = s' ∧ id = origId
  | .sessionDisconnect s', _ => s = s'
  | _, _ => False

section Lawful

variable [LawfulDecimal D] {policy : FillPolicy} {s : String} {e e' : Engine D}
  {command : Command D}

omit [LawfulDecimal D] in
theorem ReplacedReal.keeps {out : OrderId → Prop} {s' : String} {origId : OrderId}
    {entry order : Order D} {book1 : OrderBook D} (moved : s = s' → out origId)
    (done : ReplacedReal e e' s' origId entry order book1) : Keeps s out e.order e'.order := by
  have start := keeps_rekeyed e.view entry.instrumentId book1 s' origId order moved
  cases done with
  | exhausted _ execId effect => exact effect.keeps start
  | matched _ trades left final book' fills execId a filled effect =>
    exact effect.keeps (start.trans (keeps_added _ _ _ _ _))

omit [LawfulDecimal D] in
theorem ReplacedTiered.keeps {out : OrderId → Prop} {s' : String} {origId : OrderId}
    {entry order : Order D} {book1 : OrderBook D} {plan : List D} (moved : s = s' → out origId)
    (done : ReplacedTiered e e' s' origId entry order book1 plan) :
    Keeps s out e.order e'.order := by
  have start := keeps_rekeyed e.view entry.instrumentId book1 s' origId order moved
  cases done with
  | exhausted _ execId effect traded => exact effect.keeps start
  | worked _ last snapshots front back execId fills worked =>
    rw [worked.record]
    exact start.trans (keeps_synced last)

/-- The records of a session after a step. -/
theorem step_keeps (c : Coherent policy e.view none) (hp : e.fillPolicy = policy)
    (step : Step e command e') : Keeps s (Takes s command) e.order e'.order := by
  cases step with
  | createInstrument symbol =>
    exact keeps_same (congrArg View.record (view_createInstrument e symbol).1)
  | registerSession s' fresh =>
    exact keeps_same (congrArg View.record (view_registerSession fresh))
  | sessionDisconnect _ s' orders quotes visits returns =>
    intro id other known
    rw [(sessionDisconnect_spec c visits returns).1.record, if_neg (show ¬ s = s' from other)]
    exact known
  | createOrder _ today s' new reply returns =>
    have start : Keeps s (Takes s (.createOrder today s' new)) e.order
        (opened e.view (e.incoming s' new)).record := keeps_setRecord e.view _ _ _
    cases policy with
    | real =>
      rcases createReal_cases c hp returns with ⟨_, -, -, rfl⟩ | ⟨-, _, _, _, _, _, _, done⟩
      · exact .refl _
      · exact done.effect.keeps (start.trans (keeps_added _ _ _ _ _))
    | tiered =>
      rcases createTiered_cases c hp returns with
        ⟨_, -, -, rfl⟩ | ⟨-, _, _, _, _, _, _, _, done⟩
      · exact .refl _
      · rw [done.worked.record]
        exact start.trans (keeps_synced _)
  | modifyOrderWithType _ today s' origId newId orderType price quantity reply returns =>
    cases policy with
    | real =>
      rcases modifyReal_cases c hp returns with
        ⟨⟨_, -, -, rfl⟩, -⟩ | ⟨-, _, _, _, _, _, -, done⟩
      · exact .refl _
      · exact done.keeps fun same => ⟨same, rfl⟩
    | tiered =>
      rcases modifyTiered_cases c hp returns with
        ⟨_, -, -, rfl⟩ | ⟨-, _, _, _, _, _, _, -, -, done⟩
      · exact .refl _
      · exact done.keeps fun same => ⟨same, rfl⟩
  | cancelOrderWithId _ s' origId clOrdId reply returns =>
    rcases cancel_cases c returns with ⟨_, -, -, rfl⟩ | ⟨-, entry, book', execId, done⟩
    · exact .refl _
    · exact done.effect.keeps (keeps_setRecord (e.view.setBook entry.instrumentId book') _ _ _)
  | quote _ s' i bidPrice bidQuantity askPrice askQuantity reply returns =>
    cases policy with
    | real =>
      rcases quote_cases c returns with ⟨_, -, -, rfl⟩ | ⟨-, v, trades, fills, done, -⟩
      · exact .refl _
      · refine done.effect.keeps ?_
        rw [done.record]
        exact keeps_afterTrades trades
    | tiered =>
      obtain ⟨-, rfl⟩ := quote_tiered hp returns
      exact .refl _
  | expireDayOrdersAt _ today keys visits returns =>
    refine (expire_run
      (R := fun e e' => Keeps s (Takes s (.expireDayOrdersAt today)) e.order e'.order)
      (fun e => .refl _) (fun e e' e'' h h' => h.trans h') ?_ ?_ keys c returns).1
    · intro e e' effect
      exact effect.keeps (.refl _)
    · intro e e' s' id entry book' execId c done
      exact done.effect.keeps (keeps_setRecord (e.view.setBook entry.instrumentId book') _ _ _)

/-- What is said about the orders of a session leads to their records. -/
structure Informs (s : String) (e e' : Engine D) (news : List (Report D)) : Prop where
  sent : e'.sent = e.sent ++ news
  follows : ∀ id, id ≠ quoteOrderId →
    Follows (e.order s id) (about (s, id) news) (e'.order s id)

omit [LawfulDecimal D] in
theorem Tells.informs {news : List (Report D)} (told : Tells e e' news) (s : String) :
    Informs s e e' news := ⟨told.sent, told.follows s⟩

/-- A replacement is only its owner's business, however it ends. -/
theorem ReplacedReal.informs {e1 : Engine D} {s' : String} {origId newId : OrderId}
    {orderType : OrderType} {price quantity remaining : D} {entry order : Order D}
    {book1 : OrderBook D} {plan : Option (List D)} (c : Coherent .real e.view none)
    (k : Rekeyed .real e e1 s' origId newId orderType price quantity entry order remaining book1
      plan) (done : ReplacedReal e e' s' origId entry order book1) (apart : s ≠ s') :
    ∃ news, Informs s e e' news := by
  have key : order.identity = (s', newId) := by rw [Order.identity, k.fields.1, k.session c]
  cases done with
  | exhausted _ execId effect => exact ⟨_, (replaced_silently c k effect).informs s⟩
  | matched open_ trades left final book' fills execId a filled effect =>
    refine ⟨_, effect.sent, ?_⟩
    have orders : e'.order = ((rekeyed e.view entry.instrumentId book1 s' origId order).added order
        trades final book').record := congrArg View.record effect.view
    intro id regular
    have other : ∀ id', (s, id) ≠ (s', id') := fun id' same => apart (Prod.mk.inj same).1
    have f := a.follows regular (show (s, id) ≠ order.identity from key ▸ other newId)
    rw [k.record_other (other newId) (other origId)] at f
    rw [orders, about_cons_other (by exact key ▸ (other newId).symm)]
    exact follows_about filled f fun unknown => order_none_of_unregistered effect unknown id

omit [LawfulDecimal D] in
theorem market_of_unabsorbed (unabsorbed : ¬ Absorbed e command) :
    ∃ today s' origId newId price quantity,
      command = .modifyOrderWithType today s' origId newId .market price quantity := by
  cases command with
  | modifyOrderWithType today s' origId newId orderType price quantity =>
    cases orderType with
    | market => exact ⟨_, _, _, _, _, _, rfl⟩
    | limit => exact absurd trivial unabsorbed
  | _ => exact absurd trivial unabsorbed

/-- A session that replaces nothing by a market order is told of all its orders. -/
theorem step_informs (c : Coherent policy e.view none) (hp : e.fillPolicy = policy)
    (own : ∀ today origId newId price quantity,
      command ≠ .modifyOrderWithType today s origId newId .market price quantity)
    (step : Step e command e') : ∃ news, Informs s e e' news := by
  by_cases absorbed : Absorbed e command
  · obtain ⟨news, told⟩ := step_tells c hp absorbed step
    exact ⟨news, told.informs s⟩
  · obtain ⟨today, s', origId, newId, price, quantity, rfl⟩ := market_of_unabsorbed absorbed
    have apart : s ≠ s' := by
      rintro rfl
      exact own _ _ _ _ _ rfl
    cases step with
    | modifyOrderWithType _ _ _ _ _ _ _ _ reply returns =>
      cases policy with
      | real =>
        rcases modifyReal_cases c hp returns with
          ⟨⟨_, -, -, rfl⟩, -⟩ | ⟨-, _, _, _, _, _, k, done⟩
        · exact ⟨[], (Tells.unchanged rfl rfl).informs s⟩
        · exact done.informs c k apart
      | tiered => exact absurd (fun real => by rw [hp] at real; cases real) absorbed

omit [LawfulDecimal D] in
theorem lasting_terms (Q : String × OrderId → D × D × OrderType → Prop) :
    Lasting (fun o : Order D => Q o.identity o.terms) := by
  refine ⟨?_, ?_, ?_⟩
  · intro o o' quantity price h _ f _ _ _
    have terms : o'.terms = o.terms := by
      unfold Order.terms
      rw [f.quantity, f.price, f.orderType]
    rw [f.identity, terms]
    exact h
  · intro o h _
    exact h
  · intro o h
    exact h

omit [LawfulDecimal D] in
theorem enters_terms {Q : String × OrderId → D × D × OrderType → Prop} {o : Order D}
    (h : Q o.identity o.terms) : Enters policy (fun o : Order D => Q o.identity o.terms) o :=
  ⟨fun _ => h, fun _ => h, fun _ => h⟩

omit [LawfulDecimal D] in
/-- What is known of a recorded order is what its record shows. -/
theorem terms_known (c : Coherent policy e.view none) {s : String} {id : OrderId}
    (regular : id ≠ quoteOrderId) {o : Order D} (known : e.view.Known o)
    (identity : o.identity = (s, id)) : e.order s id = some o := by
  obtain ⟨rfl, rfl⟩ := Prod.mk.inj identity
  rcases known with recorded | ⟨i, side, resting⟩
  · exact recorded
  · exact (c.owned i side o resting).record regular

omit [LawfulDecimal D] in
theorem recorded_known (c : Coherent policy e.view none) {id : OrderId} {r : Order D}
    (recorded : e.order s id = some r) : e.view.Known r ∧ r.identity = (s, id) := by
  obtain ⟨rfl, rfl, -⟩ := c.keyed s id r recorded
  exact ⟨.inl recorded, rfl⟩

/-- An order that is newly recorded was asked for. -/
theorem step_entered (c : Coherent policy e.view none) (hp : e.fillPolicy = policy)
    (step : Step e command e') {id : OrderId} (regular : id ≠ quoteOrderId)
    (unknown : e.order s id = none) {r : Order D} (recorded : e'.order s id = some r) :
    ∃ o, Fresh e command o ∧ o.identity = (s, id) := by
  by_contra unasked
  let Q : String × OrderId → D × D × OrderType → Prop := fun identity _ => identity ≠ (s, id)
  have known : ∀ o, e.view.Known o → Q o.identity o.terms := by
    intro o known same
    rw [terms_known c regular known same] at unknown
    cases unknown
  obtain ⟨news, carries⟩ := step_carries (lasting_terms Q) c hp known
    (fun o fresh _ => enters_terms (Q := Q) fun same => unasked ⟨o, fresh, same⟩) step
  obtain ⟨known, identity⟩ := recorded_known (step_coherent c hp step).1 recorded
  exact carries.known r known identity

omit [LawfulDecimal D] in
/-- One command asks for one order under an identifier. -/
theorem Fresh.terms {o o' : Order D} (h : Fresh e command o) (h' : Fresh e command o')
    (same : o.identity = o'.identity) (regular : o.id ≠ quoteOrderId) : o.terms = o'.terms := by
  cases h with
  | request asked =>
    subst asked
    cases h' with
    | request asked' =>
      cases asked'
      rfl
    | replacement asked' => cases asked'
    | leg asked' => cases asked'
  | replacement asked recorded active valid covered remains =>
    subst asked
    cases h' with
    | request asked' => cases asked'
    | replacement asked' recorded' =>
      cases asked'
      rfl
    | leg asked' => cases asked'
  | leg asked listed named terms => exact absurd terms.quoted regular

/-- What is recorded and said under one identifier has the same terms, before and after
a step. -/
structure Termed (identity : String × OrderId) (terms : D × D × OrderType) (e e' : Engine D)
    (news : List (Report D)) : Prop where
  sent : e'.sent = e.sent ++ news
  before : ∀ r, e.order identity.1 identity.2 = some r → r.terms = terms
  after : ∀ r, e'.order identity.1 identity.2 = some r → r.terms = terms
  told : ∀ report ∈ news, report.order.identity = identity → report.order.terms = terms

/-- An identifier that is not given twice keeps its terms. -/
theorem step_terms (c : Coherent policy e.view none) (hp : e.fillPolicy = policy)
    (step : Step e command e') {id : OrderId} (regular : id ≠ quoteOrderId)
    (unused : ∀ o, Fresh e command o → o.identity = (s, id) → e.order s id = none) :
    ∃ terms news, Termed (s, id) terms e e' news := by
  have chosen : ∃ terms, (∀ r, e.order s id = some r → r.terms = terms) ∧
      ∀ o, Fresh e command o → o.identity = (s, id) → o.terms = terms := by
    cases recorded : e.order s id with
    | some r =>
      refine ⟨r.terms, fun r' same => Option.some.inj same ▸ rfl, ?_⟩
      intro o fresh same
      rw [unused o fresh same] at recorded
      cases recorded
    | none =>
      by_cases asked : ∃ o, Fresh e command o ∧ o.identity = (s, id)
      · obtain ⟨o, fresh, same⟩ := asked
        refine ⟨o.terms, fun r h => (by cases h), ?_⟩
        intro o' fresh' same'
        exact fresh'.terms fresh (same'.trans same.symm)
          (fun quoted => regular ((Prod.mk.inj same').2.symm.trans quoted))
      · exact ⟨(0, 0, .limit), fun r h => (by cases h), fun o fresh same =>
          absurd ⟨o, fresh, same⟩ asked⟩
  obtain ⟨terms, before, fresh⟩ := chosen
  let Q : String × OrderId → D × D × OrderType → Prop := fun identity terms' =>
    identity = (s, id) → terms' = terms
  obtain ⟨news, carries⟩ := step_carries (lasting_terms Q) c hp
    (fun o known same => before o (terms_known c regular known same))
    (fun o asked _ => enters_terms (Q := Q) (fresh o asked)) step
  refine ⟨terms, news, carries.sent, before, ?_, carries.told⟩
  intro r recorded
  obtain ⟨known, identity⟩ := recorded_known (step_coherent c hp step).1 recorded
  exact carries.known r known identity

omit [LawfulDecimal D] in
theorem rekeyed_vacates (v : View D) (i : Int) (book1 : OrderBook D) {origId : OrderId}
    {order : Order D} (moved : origId ≠ order.id) :
    (rekeyed v i book1 s origId order).record s origId = none := by
  simp [rekeyed, View.setRecord, moved]

/-- A replacement leaves nothing under the identifier it replaces. -/
theorem modify_vacates (c : Coherent policy e.view none) (hp : e.fillPolicy = policy)
    {today : Int} {origId newId : OrderId} {orderType : OrderType} {price quantity : D}
    (moved : origId ≠ newId)
    (h : e.modifyOrderWithType today s origId newId orderType price quantity = .ok (.ok (), e')) :
    e'.order s origId = none := by
  have key : ∀ {policy e1 entry order remaining book1 plan},
      Rekeyed policy e e1 s origId newId orderType price quantity entry order remaining book1
        plan → order.id = newId := fun k => k.fields.1
  cases policy with
  | real =>
    rcases modifyReal_cases c hp h with
      ⟨⟨_, failed, -, -⟩, -⟩ | ⟨-, _, entry, order, _, book1, k, done⟩
    · cases failed
    · have gone := rekeyed_vacates (s := s) e.view entry.instrumentId book1 (key k ▸ moved)
      cases done with
      | exhausted _ execId effect =>
        exact (congrFun (congrFun (congrArg View.record effect.view) s) origId).trans gone
      | matched _ trades left final book' fills execId a filled effect =>
        refine (congrFun (congrFun (congrArg View.record effect.view) s) origId).trans ?_
        rw [a.record_other (fun same => moved ((Prod.mk.inj same).2.trans (key k)))]
        exact afterTrades_none trades gone
  | tiered =>
    rcases modifyTiered_cases c hp h with
      ⟨_, failed, -, -⟩ | ⟨-, _, entry, order, _, book1, _, k, -, done⟩
    · cases failed
    · have gone := rekeyed_vacates (s := s) e.view entry.instrumentId book1 (key k ▸ moved)
      cases done with
      | exhausted _ execId effect traded =>
        exact (congrFun (congrFun (congrArg View.record effect.view) s) origId).trans gone
      | worked _ last snapshots front back execId fills worked =>
        rw [worked.record_other fun same => moved ((Prod.mk.inj same).2.trans (key k))]
        exact gone

/-- A replacement of which nothing has been executed is active. -/
theorem Rekeyed.untouched {e1 : Engine D} {origId newId : OrderId} {orderType : OrderType}
    {price quantity remaining : D} {entry order : Order D} {book1 : OrderBook D}
    {plan : Option (List D)}
    (k : Rekeyed policy e e1 s origId newId orderType price quantity entry order remaining book1
      plan) (none_ : order.cumQuantity = 0) : order.state.isActive := by
  rw [k.fields.2.2.2.2.1] at none_
  have open_ : remaining ≠ 0 := by
    intro done
    have whole := (zero_of_sub k.covered k.remains).mp done
    exact absurd (whole.trans none_) k.valid.positive.ne'
  rw [k.state, if_neg open_]
  split <;> rfl

/-- The confirmation of a replacement shows an order that is active, unless something
of it has been executed. -/
theorem modify_shown (c : Coherent policy e.view none) (hp : e.fillPolicy = policy)
    {today : Int} {origId newId : OrderId} {orderType : OrderType} {price quantity : D}
    {order : Order D} {execId : String} {fills : List (Report D)}
    (h : e.modifyOrderWithType today s origId newId orderType price quantity = .ok (.ok (), e'))
    (sent : e'.sent = e.sent ++ e.replacedReport order origId execId :: fills)
    (none_ : order.cumQuantity = 0) : order.state.isActive := by
  have same : ∀ {order' : Order D} {execId' : String} {fills' : List (Report D)},
      e'.sent = e.sent ++ e.replacedReport order' origId execId' :: fills' → order' = order := by
    intro order' execId' fills' sent'
    have heads := (List.cons.inj (List.append_cancel_left (sent'.symm.trans sent))).1
    unfold replacedReport at heads
    injection heads
  cases policy with
  | real =>
    rcases modifyReal_cases c hp h with
      ⟨⟨_, failed, -, -⟩, -⟩ | ⟨-, _, entry, order', _, book1, k, done⟩
    · cases failed
    · cases done with
      | exhausted _ _ effect => exact same effect.sent ▸ k.untouched (same effect.sent ▸ none_)
      | matched _ _ _ _ _ _ _ _ _ effect =>
        exact same effect.sent ▸ k.untouched (same effect.sent ▸ none_)
  | tiered =>
    rcases modifyTiered_cases c hp h with
      ⟨_, failed, -, -⟩ | ⟨-, _, entry, order', _, book1, _, k, -, done⟩
    · cases failed
    · cases done with
      | exhausted _ _ effect => exact same effect.sent ▸ k.untouched (same effect.sent ▸ none_)
      | worked _ _ _ _ _ _ _ worked =>
        exact same worked.effect.sent ▸ k.untouched (same worked.effect.sent ▸ none_)

end Lawful

end Engine

end RustTrader
