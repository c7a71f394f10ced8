import RustTrader.Coherence

/-!
# What a request does

A refused request leaves the engine as it was, under either policy. An accepted
one under the tiered policy is acknowledged and filled as its plan says, and
touches nothing else.
-/

namespace RustTrader

open Decimal

namespace Engine

variable {D : Type} [Decimal D]

theorem create_refused [LawfulDecimal D] {policy : FillPolicy} {e e' : Engine D}
    (h : Reachable policy e) {today : Int} {s : String} {new : NewOrder D} {err : EngineError}
    (returns : e.createOrder today s new = .ok (.error err, e')) : err.External ∧ e' = e := by
  obtain ⟨c, hp⟩ := reachable_coherent h
  cases policy with
  | real =>
    rcases createReal_cases c hp returns with ⟨_, same, ext, rfl⟩ | ⟨accepted, -⟩
    · cases same
      exact ⟨ext, rfl⟩
    · cases accepted
  | tiered =>
    rcases createTiered_cases c hp returns with ⟨_, same, ext, rfl⟩ | ⟨accepted, -⟩
    · cases same
      exact ⟨ext, rfl⟩
    · cases accepted

theorem modify_refused [LawfulDecimal D] {policy : FillPolicy} {e e' : Engine D}
    (h : Reachable policy e) {today : Int} {s : String} {origId newId : OrderId}
    {orderType : OrderType} {price quantity : D} {err : EngineError}
    (returns : e.modifyOrderWithType today s origId newId orderType price quantity =
      .ok (.error err, e')) : err.External ∧ e' = e := by
  obtain ⟨c, hp⟩ := reachable_coherent h
  cases policy with
  | real =>
    rcases modifyReal_cases c hp returns with ⟨⟨_, same, ext, rfl⟩, -⟩ | ⟨accepted, -⟩
    · cases same
      exact ⟨ext, rfl⟩
    · cases accepted
  | tiered =>
    rcases modifyTiered_cases c hp returns with ⟨_, same, ext, rfl⟩ | ⟨accepted, -⟩
    · cases same
      exact ⟨ext, rfl⟩
    · cases accepted

theorem cancel_refused [LawfulDecimal D] {policy : FillPolicy} {e e' : Engine D}
    (h : Reachable policy e) {s : String} {origId clOrdId : OrderId} {err : EngineError}
    (returns : e.cancelOrderWithId s origId clOrdId = .ok (.error err, e')) :
    err.External ∧ e' = e := by
  rcases cancel_cases (reachable_coherent h).1 returns with ⟨_, same, ext, rfl⟩ | ⟨accepted, -⟩
  · cases same
    exact ⟨ext, rfl⟩
  · cases accepted

theorem quote_refused [LawfulDecimal D] {policy : FillPolicy} {e e' : Engine D}
    (h : Reachable policy e) {s : String} {i : Int}
    {bidPrice bidQuantity askPrice askQuantity : D} {err : EngineError}
    (returns : e.quote s i bidPrice bidQuantity askPrice askQuantity = .ok (.error err, e')) :
    err.External ∧ e' = e := by
  obtain ⟨c, hp⟩ := reachable_coherent h
  cases policy with
  | real =>
    rcases quote_cases c returns with ⟨_, same, ext, rfl⟩ | ⟨accepted, -⟩
    · cases same
      exact ⟨ext, rfl⟩
    · cases accepted
  | tiered =>
    obtain ⟨same, rfl⟩ := quote_tiered hp returns
    cases same
    refine ⟨?_, rfl⟩
    intro context same
    cases same

/-- A request that is answered by an error has changed nothing at all, and the
error is not a broken invariant of the book. -/
theorem refused_changes_nothing [LawfulDecimal D] {policy : FillPolicy} {e : Engine D}
    (h : Reachable policy e) :
    (∀ today s new err e', e.createOrder today s new = .ok (.error err, e') →
      err.External ∧ e' = e) ∧
    (∀ today s origId newId orderType price quantity err e',
      e.modifyOrderWithType today s origId newId orderType price quantity = .ok (.error err, e') →
      err.External ∧ e' = e) ∧
    (∀ s origId clOrdId err e', e.cancelOrderWithId s origId clOrdId = .ok (.error err, e') →
      err.External ∧ e' = e) ∧
    (∀ s i bidPrice bidQuantity askPrice askQuantity err e',
      e.quote s i bidPrice bidQuantity askPrice askQuantity = .ok (.error err, e') →
      err.External ∧ e' = e) :=
  ⟨fun _ _ _ _ _ returns => create_refused h returns,
    fun _ _ _ _ _ _ _ _ _ returns => modify_refused h returns,
    fun _ _ _ _ _ returns => cancel_refused h returns,
    fun _ _ _ _ _ _ _ _ returns => quote_refused h returns⟩

def isRefused {α : Type} : Reply D α → Bool
  | .ok (.error _, _) => true
  | _ => false

theorem of_isRefused {α : Type} (reply : Reply D α) (h : isRefused reply = true) :
    ∃ err e', reply = .ok (.error err, e') := by
  unfold isRefused at h
  split at h
  · exact ⟨_, _, rfl⟩
  · cases h

/-- On a book with orders of both sessions, a filled order is not replaced. -/
theorem refused_changes_nothing_sample : ∃ err e',
    (played .real sampleRun).modifyOrderWithType 1 "b" 7 8 .limit 9 2 = .ok (.error err, e') ∧
      err.External ∧ e' = played .real sampleRun := by
  obtain ⟨err, e', refused⟩ := of_isRefused
    ((played .real sampleRun).modifyOrderWithType 1 "b" 7 8 .limit 9 2)
    (by decide +kernel)
  have unchanged := (refused_changes_nothing (played_reachable .real sampleRun)).2.1
  exact ⟨err, e', refused, unchanged 1 "b" 7 8 .limit 9 2 err e' refused⟩

/-- The fill reports of a plan: one per chunk at the order's price, the executed
quantity growing by the chunk and the rest following it. -/
def PlannedFills (symbol : String) (identity : String × OrderId) (quantity price : D) :
    D → List D → List (Report D) → Prop
  | _, [], [] => True
  | executed, chunk :: plan, report :: reports =>
    ∃ o execId, report = .fill o symbol price chunk execId none ∧ o.identity = identity ∧
      o.quantity = quantity ∧ val o.cumQuantity = val executed + val chunk ∧
      val o.remaining = val quantity - val o.cumQuantity ∧
      PlannedFills symbol identity quantity price o.cumQuantity plan reports
  | _, _, _ => False

/-- One acknowledgement, the fills of the plan, and nothing else. -/
structure Followed (e e' : Engine D) (s : String) (old id : OrderId) (i : Int)
    (quantity executed price : D) (plan : List D) (ack : ExecType) (orig : Option OrderId) :
    Prop where
  reports : ∃ order execId fills,
    e'.sent = e.sent ++ .status order (e.symbolFor i) id execId ack orig :: fills ∧
    order.identity = (s, id) ∧ order.quantity = quantity ∧ order.cumQuantity = executed ∧
    val order.remaining = val quantity - val executed ∧
    PlannedFills (e.symbolFor i) (s, id) quantity price executed plan fills
  settled : ∃ last, e'.order s id = some last ∧ last.quantity = quantity ∧
    val last.cumQuantity = val executed + (plan.map val).sum ∧
    val last.remaining = val quantity - val last.cumQuantity ∧
    ((∃ j side key priority o, e'.RestsAt j side key priority o ∧ o.identity = (s, id)) ↔
      0 < last.remaining)
  records : ∀ s' id', (s', id') ≠ (s, id) → (s', id') ≠ (s, old) →
    e'.order s' id' = e.order s' id'
  queues : ∀ j side, ((e'.book j).queue side).filter (fun o => o.identity ≠ (s, id)) =
    ((e.book j).queue side).filter (fun o => o.identity ≠ (s, old))
  statistics : e'.traded = e.traded

/-- An order with a record rests as long as something of it remains. -/
theorem rests_iff {e : Engine D} (c : Coherent .tiered e.view none) {s : String} {id : OrderId}
    {last : Order D} (recorded : e.order s id = some last)
    (mem : last.remaining ≠ 0 → last ∈ e.view.queue last.instrumentId last.side) :
    (∃ j side key priority o, e.RestsAt j side key priority o ∧ o.identity = (s, id)) ↔
      0 < last.remaining := by
  obtain ⟨hs, hid, hne⟩ := c.keyed s id last recorded
  constructor
  · rintro ⟨j, side, key, priority, o, rests, same⟩
    have ho := mem_of_restsAt rests
    obtain ⟨hos, hoi⟩ := Prod.mk.inj same
    have owned := (c.owned j side o ho).record (hoi ▸ hne)
    rw [hos, hoi] at owned
    obtain rfl := Option.some.inj (owned.symm.trans recorded)
    exact (c.fit j side o ho).positive
  · intro positive
    obtain ⟨priority, rests⟩ := restsAt_of_mem (c.filed _) (mem positive.ne')
    exact ⟨_, _, _, priority, last, rests, by rw [Order.identity, hs, hid]⟩

section Exact

variable [ExactDecimal D]

/-- The reports of the fills an order went through are those of its plan. -/
theorem planned_of_fills {symbolOf : Int → String} {price : D} {order last : Order D}
    {plan : List D}
    {snapshots : List (Order D)} (f : Fills price order plan snapshots last)
    (balanced : val order.remaining = val order.quantity - val order.cumQuantity) :
    ∀ {fills : List (Report D)}, List.Forall₂ (fun (p : D × Order D) report => ∃ execId,
      report = .fill p.2 (symbolOf p.2.instrumentId) price p.1 execId none)
      (plan.zip snapshots) fills →
    PlannedFills (symbolOf order.instrumentId) order.identity order.quantity price
      order.cumQuantity plan fills ∧
      val last.cumQuantity = val order.cumQuantity + (plan.map val).sum ∧
      val last.remaining = val last.quantity - val last.cumQuantity := by
  induction f with
  | done =>
    intro fills told
    cases told
    exact ⟨trivial, by simp, balanced⟩
  | @fill order filled last chunk plan snapshots _ _ apply _ ih =>
    intro fills told
    have f := OrderBook.applyFill_spec apply
    have hcum := val_add f.cum
    have hrem := val_sub f.remaining
    have balanced' : val filled.remaining = val filled.quantity - val filled.cumQuantity := by
      rw [hrem, hcum, f.quantity, balanced]
      linarith
    rw [List.zip_cons_cons] at told
    cases told with
    | cons first rest =>
      obtain ⟨execId, rfl⟩ := first
      obtain ⟨tail, total, final⟩ := ih balanced' rest
      rw [f.identity, f.quantity, f.instrumentId] at tail
      refine ⟨⟨filled, execId, ?_, f.identity, f.quantity, hcum, ?_, tail⟩, ?_, final⟩
      · rw [← f.instrumentId]
      · rw [balanced', f.quantity]
      · rw [total, hcum, List.map_cons, List.sum_cons, add_assoc]

omit [ExactDecimal D] [Decimal D] in
/-- A queue in which an identity does not rest. -/
theorem filter_absent {l : List (Order D)} {x : String × OrderId}
    (h : ∀ o ∈ l, o.identity ≠ x) : l.filter (fun o => o.identity ≠ x) = l := by
  rw [List.filter_eq_self]
  intro o ho
  simpa using h o ho

omit [ExactDecimal D] in
theorem filter_keep {last : Order D} {x : String × OrderId} (h : last.identity = x) :
    (keep last).filter (fun o => o.identity ≠ x) = [] := by
  rw [List.filter_eq_nil_iff]
  intro o ho
  obtain ⟨rfl, -⟩ := mem_keep.mp ho
  simpa using h

/-- What working on an order means for its owner and for everybody else. -/
theorem Worked.followed {e e' : Engine D} {v : View D} {order last : Order D} {plan : List D}
    {snapshots front back : List (Order D)} {fills : List (Report D)} {s : String}
    {old id : OrderId} {i : Int} {quantity executed price : D} {ack : ExecType}
    {orig : Option OrderId} {told : Order D} {execId : String}
    (w : Worked e e' v order plan last snapshots front back
      (.status told (e.symbolFor i) id execId ack orig) fills)
    (key : order.identity = (s, id)) (hi : order.instrumentId = i)
    (hq : order.quantity = quantity) (hcum : order.cumQuantity = executed)
    (hprice : order.price = price) (snapshot : Continues order told)
    (counted : told.cumQuantity = order.cumQuantity) (open_ : told.remaining = order.remaining)
    (balanced : val order.remaining = val order.quantity - val order.cumQuantity)
    (recorded : ∃ r, v.record s id = some r)
    (records : ∀ s' id', (s', id') ≠ (s, id) → (s', id') ≠ (s, old) →
      v.record s' id' = e.order s' id')
    (queues : ∀ j side, (v.queue j side).filter (fun o => o.identity ≠ (s, id)) =
      ((e.book j).queue side).filter (fun o => o.identity ≠ (s, old))) :
    Followed e e' s old id i quantity executed price plan ack orig := by
  subst hi hq hcum hprice
  have cont : Continues order last := (OrderBook.restState_continues order).trans w.chain.continues
  have balanced' : val (OrderBook.restState order).remaining =
      val (OrderBook.restState order).quantity - val (OrderBook.restState order).cumQuantity :=
    balanced
  obtain ⟨planned, total, final⟩ := planned_of_fills w.chain balanced' w.told
  have rested : (OrderBook.restState order).identity = (s, id) := key
  rw [rested] at planned
  have last_key : last.identity = (s, id) := cont.identity.trans key
  have self : e'.order s id = some last := by
    obtain ⟨rfl, rfl⟩ := Prod.mk.inj last_key
    rw [w.record]
    exact recorded.elim fun _ => View.synced_found
  refine ⟨⟨told, execId, fills, w.effect.sent, snapshot.identity.trans key, snapshot.quantity,
    counted, ?_, planned⟩, ⟨last, self, cont.quantity, total, cont.quantity ▸ final,
    rests_iff w.coherent self ?_⟩, ?_, ?_, w.traded⟩
  · rw [open_, balanced]
  · intro hz
    rw [cont.instrumentId, cont.side, w.after]
    rcases keep_cases last with ⟨h, -⟩ | ⟨-, hk⟩
    · exact absurd h hz
    · simp [hk]
  · intro s' id' hne hne'
    rw [w.record, View.synced_other (last_key ▸ hne)]
    exact records s' id' hne hne'
  · intro j side
    rw [← queues]
    by_cases here : j = order.instrumentId ∧ side = order.side
    · obtain ⟨rfl, rfl⟩ := here
      have after := w.after
      change (e'.book order.instrumentId).queue order.side = _ at after
      rw [w.before, after, List.filter_append, List.filter_append, List.filter_append,
        filter_keep last_key, List.append_nil]
    · have same := w.elsewhere j side here
      exact congrArg (List.filter _) same

theorem create_followed {e e' : Engine D} (c : Coherent .tiered e.view none)
    (policy : e.fillPolicy = .tiered) {s : String}
    {new : NewOrder D} {plan : List D} {last : Order D} {snapshots front back : List (Order D)}
    {execId : String} {fills : List (Report D)}
    (done : CreatedTiered e e' s new plan last snapshots front back execId fills) :
    Followed e e' s new.id new.id new.instrumentId new.quantity 0
      (bookedPrice .tiered new.orderType new.price) plan .new none := by
  have key : (e.incoming s new).identity = (s, new.id) := by
    rw [Order.identity, incoming_id, incoming_sessionId]
  have fields := incoming_eq e s new
  have absent := c.absent_of_none done.fresh done.valid.regular
  refine done.worked.followed key (by rw [fields]) (by rw [fields]) (by rw [fields]) ?_
    (OrderBook.restState_continues _) rfl rfl ?_ ?_ ?_ ?_
  · rw [fields, policy]
    cases new.orderType <;> simp [bookedPrice]
  · rw [fields]
    simp [LawfulDecimal.val_zero]
  · exact ⟨e.incoming s new, by simp [opened, View.setRecord, incoming_id, incoming_sessionId]⟩
  · intro s' id' hne _
    have hne' : ¬ (s' = s ∧ id' = new.id) := fun h => hne (by rw [h.1, h.2])
    simp only [opened, View.setRecord, incoming_id, incoming_sessionId, hne', if_false]
    rfl
  · intro j side
    rfl

theorem tierFillPlan_zero : tierFillPlan (0 : D) = .ok (.ok []) := by
  unfold tierFillPlan
  rw [if_neg (lt_irrefl 0), if_pos tierChunk_pos.le]
  rfl

omit [ExactDecimal D] in
/-- Taking an order out of its book leaves the others of every queue. -/
theorem removed_queue {policy : FillPolicy} {v : View D} (c : Coherent policy v none) {s : String}
    {origId : OrderId} {entry : Order D} {book1 : OrderBook D}
    (recorded : v.record s origId = some entry)
    (mem : entry ∈ v.queue entry.instrumentId entry.side)
    (left : OrderBook.Left Order.price (v.book entry.instrumentId) entry.side entry book1)
    (j : Int) (side : Side) :
    (v.queue j side).filter (fun o => o.identity ≠ (s, origId)) =
      (v.setBook entry.instrumentId book1).queue j side := by
  obtain ⟨hs, hid, hne⟩ := c.keyed s origId entry recorded
  have key : entry.identity = (s, origId) := by rw [Order.identity, hs, hid]
  have out := c.leave left mem
  rw [if_neg (hid ▸ hne), key] at out
  have absent := out.absent _ rfl j side
  rw [View.queue_setBook] at absent ⊢
  by_cases here : j = entry.instrumentId
  · subst here
    rw [if_pos rfl] at absent ⊢
    rcases OrderBook.mem_side entry.side side with rfl | rfl
    · obtain ⟨pre, post, hq, hq'⟩ := left.split
      change v.queue entry.instrumentId entry.side = _ at hq
      rw [hq'] at absent
      rw [hq, hq', List.filter_append, List.filter_cons_of_neg (by simp [key]),
        ← List.filter_append]
      exact filter_absent absent
    · rw [left.other] at absent ⊢
      exact filter_absent absent
  · rw [if_neg here] at absent ⊢
    exact filter_absent absent

theorem replace_followed {e e' e1 : Engine D} (c : Coherent .tiered e.view none) {s : String}
    {origId newId : OrderId} {orderType : OrderType} {price quantity : D} {entry order : Order D}
    {remaining : D} {book1 : OrderBook D} {plan : List D}
    (k : Rekeyed .tiered e e1 s origId newId orderType price quantity entry order remaining book1
      (some plan)) (planned : tierFillPlan remaining = .ok (.ok plan))
    (done : ReplacedTiered e e' s origId entry order book1 plan) :
    Followed e e' s origId newId entry.instrumentId quantity entry.cumQuantity
      (bookedPrice .tiered orderType price) plan .replaced (some origId) := by
  obtain ⟨hid, -, hq, hrem, hcum, -, hsession, hi, -, hprice⟩ := k.fields
  have key : order.identity = (s, newId) := by rw [Order.identity, hid, k.session c]
  have balanced : val order.remaining = val order.quantity - val order.cumQuantity := by
    rw [hrem, hq, hcum]
    exact val_sub k.remains
  have recorded : (rekeyed e.view entry.instrumentId book1 s origId order).record s newId =
      some order := by simp [rekeyed, View.setRecord, hid]
  have records : ∀ s' id', (s', id') ≠ (s, newId) → (s', id') ≠ (s, origId) →
      (rekeyed e.view entry.instrumentId book1 s origId order).record s' id' = e.order s' id' := by
    intro s' id' hne hne'
    have h : ¬ (s' = s ∧ id' = newId) := fun h => hne (by rw [h.1, h.2])
    have h' : ¬ (s' = s ∧ id' = origId) := fun h => hne' (by rw [h.1, h.2])
    simp only [rekeyed, View.setRecord, hid, h, h', if_false]
    rfl
  have queues : ∀ j side, ((rekeyed e.view entry.instrumentId book1 s origId order).queue j
      side).filter (fun o => o.identity ≠ (s, newId)) =
      ((e.book j).queue side).filter (fun o => o.identity ≠ (s, origId)) := by
    intro j side
    have absent := k.coherent.absent _ rfl j side
    rw [key] at absent
    rw [filter_absent absent]
    exact (removed_queue c k.recorded k.mem k.left j side).symm
  cases done with
  | exhausted hz execId effect traded =>
    have empty : plan = [] := by
      rw [← hrem, hz, tierFillPlan_zero] at planned
      cases planned
      rfl
    subst empty
    have after : Coherent .tiered e'.view none := by
      rw [effect.view]
      exact k.exhausted c hz
    have self : e'.order s newId = some order := by
      have h := congrArg View.record effect.view
      change e'.order = _ at h
      rw [h]
      exact recorded
    refine ⟨⟨order, execId, [], ?_, key, hq, hcum, ?_, trivial⟩, ⟨order, self, hq, by simp [hcum],
      hq ▸ balanced, rests_iff after self (fun h => absurd hz h)⟩, ?_, ?_, traded⟩
    · rw [effect.sent, replacedReport, hi, hid]
    · rw [balanced, hq, hcum]
    · intro s' id' hne hne'
      have h := congrArg View.record effect.view
      change e'.order = _ at h
      rw [h]
      exact records s' id' hne hne'
    · intro j side
      have h := congrArg View.book effect.view
      change e'.book = _ at h
      rw [← queues, h]
      rfl
  | worked _ last snapshots front back execId fills worked =>
    rw [replacedReport, hi, hid] at worked
    exact worked.followed key hi hq hcum hprice (.refl order) rfl rfl balanced ⟨order, recorded⟩
      records queues

omit [ExactDecimal D] in
/-- The loop over the lots ends within the cap. -/
theorem tierLots_returns [LawfulDecimal D] (fuel : Nat) : ∀ {rest : D}, fuel ≤ maxTierFills →
    val rest ≤ 100 * fuel → 0 < fuel → ∃ plan, tierLots fuel rest = .ok plan := by
  induction fuel with
  | zero =>
    intro rest _ _ h
    exact absurd h (lt_irrefl 0)
  | succ fuel ih =>
    intro rest capped bounded _
    rw [tierLots]
    by_cases more : tierChunk < rest
    · rw [if_pos more]
      have above : (100 : ℚ) < val rest := by
        rw [← val_tierChunk (D := D)]
        exact (LawfulDecimal.val_lt _ _).mpr more
      push_cast at bounded
      have positive : 0 < fuel := by
        rcases Nat.eq_zero_or_pos fuel with rfl | h
        · norm_num at bounded
          linarith
        · exact h
      -- The rest is at most a number of whole lots, which is a decimal.
      have lots : val (lit (100 * fuel) 0 : D) = 100 * fuel := by
        rw [LawfulDecimal.val_lit _ _ _ (by norm_num)]
        · norm_num
        · rw [abs_of_nonneg (by positivity)]
          unfold maxTierFills at capped
          omega
      have rounds := LawfulDecimal.sub_rounds rest tierChunk
      rw [val_tierChunk] at rounds
      have within : val rest - 100 ≤ val (lit (100 * fuel) 0 : D) := by
        rw [lots]
        linarith
      obtain ⟨rest', hsub⟩ := rounds.returns 0 (lit (100 * fuel) 0)
        (by rw [LawfulDecimal.val_zero]; linarith) within
      have bounded' : val rest' ≤ 100 * fuel := by
        rw [← lots]
        exact val_le.mpr (rounds.upper rest' _ hsub within)
      obtain ⟨plan, hplan⟩ := ih (Nat.le_of_succ_le capped) bounded' positive
      exact ⟨tierChunk :: plan, by rw [hsub, Exec.ok_bind, hplan]; rfl⟩
    · rw [if_neg more]
      exact ⟨_, rfl⟩

omit [ExactDecimal D] in
theorem tierFillPlan_returns [LawfulDecimal D] (remaining : D) :
    ∃ result, tierFillPlan remaining = .ok result := by
  unfold tierFillPlan
  split
  · exact ⟨_, rfl⟩
  split
  · exact ⟨_, rfl⟩
  split
  · exact ⟨_, rfl⟩
  split
  · rename_i signed _ _ _
    have nonneg := val_nonneg.mpr (not_lt.mp signed)
    have two : val (lit 2 0 : D) = 2 := by
      rw [LawfulDecimal.val_lit _ _ (by norm_num) (by norm_num)]
      norm_num
    have nonzero : (lit 2 0 : D) ≠ 0 := by
      intro zero
      rw [zero, LawfulDecimal.val_zero] at two
      norm_num at two
    have rounds := LawfulDecimal.div_rounds remaining (lit 2 0) nonzero
    rw [two] at rounds
    obtain ⟨half, hdiv⟩ := rounds.returns 0 remaining
      (by rw [LawfulDecimal.val_zero]; linarith) (by linarith)
    exact ⟨_, by rw [hdiv]; rfl⟩
  split
  · exact ⟨_, rfl⟩
  · rename_i capped
    have bounded : val remaining ≤ 100 * (maxTierFills : Nat) := by
      have h := val_le.mpr (not_lt.mp capped)
      rw [tierMaxRemaining, LawfulDecimal.val_lit _ _ (by norm_num [maxTierFills, tierChunkSize])
        (by norm_num)] at h
      norm_num [maxTierFills, tierChunkSize] at h ⊢
      exact h
    obtain ⟨plan, hplan⟩ := tierLots_returns maxTierFills le_rfl bounded (by decide)
    exact ⟨_, by rw [hplan]; rfl⟩

/-- Under the tiered policy an accepted order, new or replaced, is acknowledged
once, filled exactly as planned, and nothing else changes. -/
theorem tiered_follows_plan {e : Engine D} (h : Reachable .tiered e) :
    (∀ remaining : D, ∃ result, tierFillPlan remaining = .ok result) ∧
    (∀ today s new reply e', e.createOrder today s new = .ok (reply, e') →
      (∃ err, reply = .error err ∧ err.External) ∨
      reply = .ok new.id ∧ ∃ plan, tierFillPlan new.quantity = .ok (.ok plan) ∧
        Followed e e' s new.id new.id new.instrumentId new.quantity 0
          (if new.orderType = .market then tieredMarketPrice else new.price) plan .new none) ∧
    (∀ today s origId newId orderType price quantity reply e',
      e.modifyOrderWithType today s origId newId orderType price quantity = .ok (reply, e') →
      (∃ err, reply = .error err ∧ err.External) ∨
      reply = .ok () ∧ ∃ entry remaining plan, e.order s origId = some entry ∧
        val remaining = val quantity - val entry.cumQuantity ∧
        tierFillPlan remaining = .ok (.ok plan) ∧
        Followed e e' s origId newId entry.instrumentId quantity entry.cumQuantity
          (if orderType = .market then tieredMarketPrice else price) plan .replaced
          (some origId)) := by
  obtain ⟨c, policy⟩ := reachable_coherent h
  have price_eq : ∀ (orderType : OrderType) (price : D), bookedPrice .tiered orderType price =
      if orderType = .market then tieredMarketPrice else price := by
    intro orderType price
    simp [bookedPrice]
  refine ⟨tierFillPlan_returns, ?_, ?_⟩
  · intro today s new reply e' returns
    rcases createTiered_cases c policy returns with
      ⟨err, hreply, ext, -⟩ | ⟨hreply, plan, last, snapshots, front, back, execId, fills, done⟩
    · exact Or.inl ⟨err, hreply, ext⟩
    · right
      rw [← price_eq]
      exact ⟨hreply, plan, done.planned, create_followed c policy done⟩
  · intro today s origId newId orderType price quantity reply e' returns
    rcases modifyTiered_cases c policy returns with
      ⟨err, hreply, ext, -⟩ | ⟨hreply, e1, entry, order, remaining, book1, plan, k, planned, done⟩
    · exact Or.inl ⟨err, hreply, ext⟩
    · right
      rw [← price_eq]
      exact ⟨hreply, entry, remaining, plan, k.recorded, val_sub k.remains, planned,
        replace_followed c k planned done⟩

end Exact

/-- A tiered exchange with a resting order of another session. -/
def sampleTiered : List (Command ℚ) := [
  .createInstrument "AAA", .registerSession "a", .registerSession "b",
  .createOrder 1 "a" ⟨1, 1, .sell, .limit, 10, 50⟩,
  .createOrder 1 "b" ⟨7, 1, .buy, .market, 0, 1500⟩]

/-- Price and quantity of the fills among some reports. -/
def fillsOf (reports : List (Report D)) : List (D × D) :=
  reports.filterMap fun
    | .fill _ _ lastPrice lastQuantity _ _ => some (lastPrice, lastQuantity)
    | .status .. => none

/-- What is left of 2150 after the largest lots goes in one of 50. -/
theorem tiered_follows_plan_sample : ∃ e',
    (played .tiered sampleTiered).createOrder 1 "b" ⟨8, 1, .sell, .limit, 10, 2150⟩ =
      .ok (.ok 8, e') ∧
    tierFillPlan (2150 : ℚ) = .ok (.ok (List.replicate 21 100 ++ [50])) ∧
    fillsOf (e'.sent.drop (played .tiered sampleTiered).sent.length) =
      List.replicate 21 (10, 100) ++ [(10, 50)] ∧
    Followed (played .tiered sampleTiered) e' "b" 8 8 1 2150 0 10 (List.replicate 21 100 ++ [50])
      .new none := by
  have ran : (accepted ((played .tiered sampleTiered).createOrder 1 "b"
      ⟨8, 1, .sell, .limit, 10, 2150⟩)).map (fun (id, e') =>
        (id, fillsOf (e'.sent.drop (played .tiered sampleTiered).sent.length))) =
      some (8, List.replicate 21 (10, 100) ++ [(10, 50)]) := by decide +kernel
  have plan : tierFillPlan (2150 : ℚ) = .ok (.ok (List.replicate 21 100 ++ [50])) := by
    decide +kernel
  obtain ⟨⟨id, e'⟩, created, seen⟩ := Option.map_eq_some_iff.mp ran
  obtain ⟨rfl, fills⟩ := Prod.mk.inj seen
  have returns := accepted_eq created
  rcases (tiered_follows_plan (played_reachable .tiered sampleTiered)).2.1 1 "b"
    ⟨8, 1, .sell, .limit, 10, 2150⟩ (.ok 8) e' returns with
    ⟨err, refused, -⟩ | ⟨-, planned, same, followed⟩
  · cases refused
  · obtain rfl := Except.ok.inj (Except.ok.inj (plan.symm.trans same))
    exact ⟨e', returns, plan, fills, followed⟩

end Engine

end RustTrader
