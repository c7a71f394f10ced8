import RustTrader.Departures

/-!
# Fixed fills

The tiered policy: a plan computed from the remaining quantity, an order rested
without matching, and one fill per chunk of the plan. The plan and the resting
order are reduced by the same subtractions, so no chunk finds too little left.
-/

namespace RustTrader

open Decimal

variable {D : Type} [Decimal D]

/-- Every chunk of the plan is positive and still covered when its turn comes. -/
def Fits : D → List D → Prop
  | _, [] => True
  | rest, chunk :: plan => 0 < chunk ∧ chunk ≤ rest ∧
      ∃ rest', sub rest chunk = .ok rest' ∧ Fits rest' plan

theorem fits_whole [LawfulDecimal D] {rest : D} (h : 0 < rest) : Fits rest [rest] :=
  ⟨h, le_rfl, 0, sub_same rest, trivial⟩

theorem fits_part [LawfulDecimal D] {rest chunk : D} (h : 0 < chunk) (hle : chunk ≤ rest) :
    Fits rest [chunk] := by
  obtain ⟨rest', hsub⟩ := sub_returns h.le hle
  exact ⟨h, hle, rest', hsub, trivial⟩

theorem val_tierChunk [LawfulDecimal D] : val (tierChunk : D) = 100 := by
  rw [tierChunk, LawfulDecimal.val_lit _ _ (by norm_num [tierChunkSize]) (by norm_num)]
  norm_num [tierChunkSize]

theorem tierChunk_pos [LawfulDecimal D] : 0 < (tierChunk : D) := by
  rw [← val_pos, val_tierChunk]
  norm_num

theorem tierLots_fits [LawfulDecimal D] (fuel : Nat) : ∀ {rest : D} {plan : List D}, 0 ≤ rest →
    tierLots fuel rest = .ok plan → Fits rest plan := by
  induction fuel with
  | zero =>
    intro rest plan _ h
    cases h
  | succ fuel ih =>
    intro rest plan nonneg h
    rw [tierLots] at h
    by_cases more : tierChunk < rest
    · rw [if_pos more] at h
      obtain ⟨rest', hsub, h⟩ := Exec.bind_ok.mp h
      obtain ⟨plan', hplan, h⟩ := Exec.bind_ok.mp h
      cases h
      exact ⟨tierChunk_pos, more.le, rest', hsub, ih (nonneg_of_sub more.le hsub) hplan⟩
    · rw [if_neg more] at h
      cases h
      by_cases hz : rest = 0
      · rw [if_pos hz]
        trivial
      · rw [if_neg hz]
        exact fits_whole (lt_of_le_of_ne nonneg (Ne.symm hz))

theorem half_fits [LawfulDecimal D] {rest half : D} (large : 1000 < val rest)
    (hdiv : div rest (lit 2 0) = .ok half) : Fits rest [half] := by
  have htwo : val (lit 2 0 : D) = 2 := by
    rw [LawfulDecimal.val_lit _ _ (by norm_num) (by norm_num)]
    norm_num
  have hne : (lit 2 0 : D) ≠ 0 := by
    rw [Ne, ← val_inj, htwo, LawfulDecimal.val_zero]
    norm_num
  have rounds := LawfulDecimal.div_rounds rest (lit 2 0) hne
  rw [htwo] at rounds
  have lower : tierChunk ≤ half := by
    refine rounds.lower half tierChunk hdiv ?_
    rw [val_tierChunk]
    linarith
  have upper : half ≤ rest := by
    refine rounds.upper half rest hdiv ?_
    linarith
  exact fits_part (tierChunk_pos.trans_le lower) upper

/-- What the plan of a valid remaining quantity looks like to the book. -/
theorem tierFillPlan_fits [LawfulDecimal D] {remaining : D} {plan : List D} (nonneg : 0 ≤ remaining)
    (h : tierFillPlan remaining = .ok (.ok plan)) : Fits remaining plan := by
  unfold tierFillPlan at h
  rw [if_neg (not_lt.mpr nonneg)] at h
  by_cases h1 : remaining ≤ tierChunk
  · rw [if_pos h1] at h
    cases h
    trivial
  rw [if_neg h1] at h
  have above : tierChunk < remaining := not_le.mp h1
  by_cases h2 : remaining ≤ lit 1000 0
  · rw [if_pos h2] at h
    cases h
    exact fits_whole (tierChunk_pos.trans above)
  rw [if_neg h2] at h
  have large : 1000 < val remaining := by
    have hlt := LawfulDecimal.val_lt _ _ |>.mpr (not_le.mp h2)
    rw [LawfulDecimal.val_lit _ _ (by norm_num) (by norm_num)] at hlt
    norm_num at hlt
    exact hlt
  by_cases h3 : remaining ≤ lit 2000 0
  · rw [if_pos h3] at h
    obtain ⟨half, hdiv, h⟩ := Exec.bind_ok.mp h
    cases h
    exact half_fits large hdiv
  rw [if_neg h3] at h
  by_cases h4 : tierMaxRemaining < remaining
  · rw [if_pos h4] at h
    cases h
  rw [if_neg h4] at h
  obtain ⟨lots, hlots, h⟩ := Exec.bind_ok.mp h
  cases h
  exact tierLots_fits _ nonneg hlots

/-- The snapshots of an order filled by the chunks of a plan. -/
inductive Fills (price : D) : Order D → List D → List (Order D) → Order D → Prop
  | done {order : Order D} : Fills price order [] [] order
  | fill {order filled last : Order D} {chunk : D} {plan : List D} {snapshots : List (Order D)}
      (positive : 0 < chunk) (covered : chunk ≤ order.remaining)
      (apply : applyFill order chunk price = .ok filled)
      (tail : Fills price filled plan snapshots last) :
      Fills price order (chunk :: plan) (filled :: snapshots) last

theorem Fills.continues {price : D} {order last : Order D} {plan : List D}
    {snapshots : List (Order D)} (f : Fills price order plan snapshots last) :
    Continues order last := by
  induction f with
  | done => exact .refl _
  | fill _ _ apply _ ih => exact (OrderBook.applyFill_spec apply).toContinues.trans ih

theorem Fills.zip {price : D} {order last : Order D} {plan : List D} {snaps : List (Order D)}
    (f : Fills price order plan snaps last) : (plan.zip snaps).map (fun p => p.2) = snaps := by
  induction f with
  | done => rfl
  | fill _ _ _ _ ih => rw [List.zip_cons_cons, List.map_cons, ih]

theorem Fills.identities {price : D} {order last : Order D} {plan : List D}
    {snaps : List (Order D)} (f : Fills price order plan snaps last) :
    ∀ o ∈ snaps, o.identity = order.identity := by
  induction f with
  | done => simp
  | fill _ _ apply _ ih =>
    have h := (OrderBook.applyFill_spec apply).identity
    intro o ho
    rcases List.mem_cons.mp ho with rfl | ho
    · exact h
    · exact (ih o ho).trans h

/-- Only the last fill of a plan can end the order. -/
theorem Fills.running [LawfulDecimal D] {price : D} {order last : Order D} {plan : List D}
    {snaps : List (Order D)} (f : Fills price order plan snaps last) :
    snaps = [] ∧ last = order ∨
      ∃ early, snaps = early ++ [last] ∧ ∀ o ∈ early, o.state.isActive := by
  induction f with
  | done => exact Or.inl ⟨rfl, rfl⟩
  | @fill order filled last chunk plan snaps _ _ apply tail ih =>
    right
    have f := OrderBook.applyFill_spec apply
    rcases ih with ⟨rfl, rfl⟩ | ⟨early, rfl, running⟩
    · exact ⟨[], rfl, by simp⟩
    · refine ⟨filled :: early, rfl, ?_⟩
      intro o ho
      rcases List.mem_cons.mp ho with rfl | ho
      · have more : o.remaining ≠ 0 := by
          intro hz
          generalize hs : early ++ [last] = snaps at tail
          cases tail with
          | done => simp at hs
          | fill positive covered =>
            rw [hz] at covered
            exact absurd (positive.trans_le covered) (lt_irrefl 0)
        rw [f.state, if_neg more]
        rfl
      · exact running o ho

namespace Engine

/-- A tiered order during its fills: recorded, and resting unless it is filled. -/
structure Standing (v : View D) (order : Order D) (pre post : List (Order D)) : Prop where
  queue : v.queue order.instrumentId order.side = pre ++ keep order ++ post
  record : v.record order.sessionId order.id = some order

/-- What working off a plan does. -/
structure Filling (e e' : Engine D) (order last : Order D) (plan : List D)
    (snapshots : List (Order D)) (pre post : List (Order D)) (news : List (Report D)) : Prop where
  fills : Fills order.price order plan snapshots last
  coherent : Coherent .tiered e'.view none
  queue : e'.view.queue order.instrumentId order.side = pre ++ keep last ++ post
  elsewhere : ∀ i side, ¬ (i = order.instrumentId ∧ side = order.side) →
    e'.view.queue i side = e.view.queue i side
  record : e'.order = View.synced last e.order
  leg : e'.leg = e.leg
  effect : Effect e e' e'.view news
  told : List.Forall₂ (fun (p : D × Order D) report => ∃ execId, report =
    .fill p.2 (e.symbolFor p.2.instrumentId) order.price p.1 execId none)
    (plan.zip snapshots) news
  rest : e' = { e with
    books := e'.books
    sessions := e'.sessions
    nextExecId := e'.nextExecId
    nextTradeId := e'.nextTradeId
    sent := e'.sent }

omit [Decimal D] in
theorem synced_self {record : String → OrderId → Option (Order D)} {order : Order D}
    (h : record order.sessionId order.id = some order) : View.synced order record = record := by
  funext s id
  unfold View.synced
  split
  · rename_i hs
    obtain ⟨rfl, rfl⟩ := Prod.mk.inj hs
    rw [h]
    rfl
  · rfl

omit [Decimal D] in
theorem synced_synced {record : String → OrderId → Option (Order D)} {order last : Order D}
    (h : last.identity = order.identity) :
    View.synced last (View.synced order record) = View.synced last record := by
  funext s id
  unfold View.synced
  rw [h]
  split
  · rw [Option.map_map]
    rfl
  · rfl

omit [Decimal D] in
theorem copied_synced {record : String → OrderId → Option (Order D)} {order filled : Order D}
    (h : record order.sessionId order.id = some order) (c : Continues order filled) :
    copied filled record = View.synced filled record := by
  funext s id
  unfold copied View.synced
  rw [c.identity]
  by_cases hs : (s, id) = order.identity
  · rw [if_pos hs.symm, if_pos hs]
    obtain ⟨rfl, rfl⟩ := Prod.mk.inj hs
    rw [h, Option.map_some, Option.map_some, View.copyFill_of_continues c]
  · rw [if_neg (Ne.symm hs), if_neg hs]

/-- One chunk of a plan. -/
theorem fillChunk [LawfulDecimal D] {e : Engine D} {x : Order D} {pre post : List (Order D)}
    (c : Coherent .tiered e.view none) (standing : Standing e.view x pre post) {chunk : D}
    (positive : 0 < chunk) (covered : chunk ≤ x.remaining) :
    ∃ book, HashMap.get? e.books x.instrumentId = some book ∧
      ∀ result, book.execute x.sessionId x.id x.side x.price chunk x.price = .ok result →
        ∃ filled book', result = .ok (filled, book') ∧ applyFill x chunk x.price = .ok filled ∧
          ∃ news, Filling e ((e.setBook x.instrumentId book').sendFill filled x.price chunk) x
            filled [chunk] [filled] pre post news := by
  have hpos : 0 < x.remaining := positive.trans_le covered
  have hkeep : keep x = [x] := by
    rcases keep_cases x with ⟨hz, -⟩ | ⟨-, hk⟩
    · exact absurd hz hpos.ne'
    · exact hk
  have hq : e.view.queue x.instrumentId x.side = pre ++ x :: post := by
    rw [standing.queue, hkeep]
    simp
  have ho : x ∈ e.view.queue x.instrumentId x.side := by rw [hq]; simp
  have fit := c.fit _ _ x ho
  cases hb : HashMap.get? e.books x.instrumentId with
  | none =>
    have empty : e.book x.instrumentId = OrderBook.new x.instrumentId := by rw [book, hb]; rfl
    have ho' : x ∈ (e.book x.instrumentId).queue x.side := ho
    rw [empty] at ho'
    simp at ho'
  | some book =>
    have hbook : e.book x.instrumentId = book := by rw [Engine.book, hb]; rfl
    refine ⟨book, rfl, ?_⟩
    intro result h
    rw [← hbook] at h
    obtain ⟨filled, book', rfl, hfill, executed⟩ :=
      OrderBook.execute_spec (c.filed x.instrumentId) ho fit.active positive covered fit.price h
    have f := OrderBook.applyFill_spec hfill
    refine ⟨filled, book', rfl, hfill, ?_⟩
    have keyless : (e.setBook x.instrumentId book').Keyless := (keyless_of_coherent c : e.Keyless)
    obtain ⟨⟨execId, told⟩, record⟩ := sendFill_told keyless filled x.price chunk
    have horder : ((e.setBook x.instrumentId book').sendFill filled x.price chunk).order =
        View.synced filled e.order :=
      record.trans (copied_synced standing.record f.toContinues)
    have hview : ((e.setBook x.instrumentId book').sendFill filled x.price chunk).view =
        { e.view.setBook x.instrumentId book' with record := View.synced filled e.order } := by
      rw [told.view, horder, view_setBook]
    have registered : (e.setBook x.instrumentId book').Registered filled.sessionId := by
      rw [(Prod.mk.inj f.identity).1]
      exact registered_of_order (e := e) standing.record
    rw [heard_registered registered] at told
    have effect := (setBook_effect e x.instrumentId book').trans told.effect
    rw [List.nil_append] at effect
    refine ⟨[.fill filled (e.symbolFor filled.instrumentId) x.price chunk execId none],
      .fill positive covered hfill .done, ?_, ?_, ?_, horder, ?_, ?_, ?_, ?_⟩
    · rw [hview]
      exact c.fill ho hfill covered executed
    · rw [hview]
      change (e.view.setBook x.instrumentId book').queue _ _ = _
      rw [View.queue_setBook, if_pos rfl]
      obtain ⟨pre', post', hsplit, hq'⟩ := executed.split
      have distinct := (c.filed x.instrumentId).distinct x.side
      change Keyed.Distinct Order.identity (e.view.queue x.instrumentId x.side) at distinct
      rw [hq] at distinct
      obtain ⟨rfl, -, rfl⟩ := distinct.split_unique (hq.symm.trans hsplit) rfl
      exact hq'
    · intro i side apart
      rw [hview]
      change (e.view.setBook x.instrumentId book').queue i side = _
      rw [View.queue_setBook]
      by_cases hi : i = x.instrumentId
      · subst hi
        rw [if_pos rfl]
        rcases OrderBook.mem_side x.side side with rfl | rfl
        · exact absurd ⟨rfl, rfl⟩ apart
        · exact executed.other
      · rw [if_neg hi]
    · exact told.leg
    · exact ⟨rfl, effect.sent, effect.registered, effect.fillPolicy, effect.instruments⟩
    · exact .cons ⟨execId, rfl⟩ .nil
    · rw [told.rest]
      rfl

theorem Filling.trans {e mid e' : Engine D} {x filled last : Order D} {chunk : D} {plan : List D}
    {snapshots : List (Order D)} {pre post : List (Order D)} {m n : List (Report D)}
    (positive : 0 < chunk) (covered : chunk ≤ x.remaining)
    (hfill : applyFill x chunk x.price = .ok filled)
    (h : Filling e mid x filled [chunk] [filled] pre post m)
    (h' : Filling mid e' filled last plan snapshots pre post n) :
    Filling e e' x last (chunk :: plan) (filled :: snapshots) pre post (m ++ n) := by
  have f := OrderBook.applyFill_spec hfill
  have hfills := h'.fills
  have hqueue := h'.queue
  have helse := h'.elsewhere
  have htold := h'.told
  rw [f.price] at hfills htold
  rw [f.instrumentId, f.side] at hqueue helse
  refine ⟨.fill positive covered hfill hfills, h'.coherent, hqueue,
    fun i side apart => (helse i side apart).trans (h.elsewhere i side apart), ?_,
    h'.leg.trans h.leg, h.effect.trans h'.effect, ?_, ?_⟩
  · rw [h'.record, h.record, synced_synced h'.fills.continues.identity]
  · refine List.rel_append h.told ?_
    rwa [symbolFor_congr h.effect.instruments] at htold
  · rw [h'.rest, h.rest]

theorem Filling.standing {e e' : Engine D} {x filled : Order D} {chunk : D}
    {pre post : List (Order D)} {news : List (Report D)}
    (h : Filling e e' x filled [chunk] [filled] pre post news)
    (standing : Standing e.view x pre post) : Standing e'.view filled pre post := by
  have same := h.fills.continues
  refine ⟨?_, ?_⟩
  · rw [same.instrumentId, same.side]
    exact h.queue
  · change e'.order _ _ = _
    rw [h.record]
    refine View.synced_found (show _ = some x from ?_)
    rw [(Prod.mk.inj same.identity).1, (Prod.mk.inj same.identity).2]
    exact standing.record

theorem tieredFillExisting_spec [LawfulDecimal D] (order : Order D) {pre post : List (Order D)}
    (plan : List D) : ∀ {e e' : Engine D} {x : Order D} {index : Nat}
      {result : Except EngineError Unit},
      Coherent .tiered e.view none → Continues order x → Standing e.view x pre post →
      Fits x.remaining plan →
      tieredFillExisting order.sessionId order.instrumentId order e plan index =
        .ok (result, e') →
      result = .ok () ∧ ∃ last snapshots news,
        Filling e e' x last plan snapshots pre post news := by
  induction plan with
  | nil =>
    intro e e' x index result c _ standing _ h
    cases h
    refine ⟨rfl, x, [], [], ⟨.done, c, standing.queue, fun _ _ _ => rfl, ?_, rfl, .refl e, .nil,
      rfl⟩⟩
    exact (synced_self standing.record).symm
  | cons chunk plan ih =>
    intro e e' x index result c cont standing fits h
    obtain ⟨positive, covered, rest', hsub, fits'⟩ := fits
    obtain ⟨book, hb, fill⟩ := fillChunk c standing positive covered
    obtain ⟨hs, hid⟩ := Prod.mk.inj cont.identity
    unfold tieredFillExisting at h
    rw [← cont.instrumentId, hb, ← hs, ← hid, ← cont.side, ← cont.price] at h
    obtain ⟨executed, hexec, h⟩ := Exec.bind_ok.mp h
    obtain ⟨filled, book', rfl, hfill, m, filling⟩ := fill executed hexec
    have f := OrderBook.applyFill_spec hfill
    have same := f.remaining.symm.trans hsub
    obtain rfl : filled.remaining = rest' := Except.ok.inj same
    rw [hs, cont.instrumentId] at h
    obtain ⟨hresult, last, snapshots, n, filling'⟩ :=
      ih filling.coherent (cont.trans f.toContinues) (filling.standing standing) fits'
        (by rw [cont.instrumentId]; exact h)
    exact ⟨hresult, last, filled :: snapshots, m ++ n,
      filling.trans positive covered hfill filling'⟩

/-- The effect of working on an order under the tiered policy: it is rested
between `front` and `back`, acknowledged, and filled as planned. -/
structure Worked (e e' : Engine D) (v : View D) (order : Order D) (plan : List D)
    (last : Order D) (snapshots front back : List (Order D)) (ack : Report D)
    (fills : List (Report D)) : Prop where
  chain : Fills order.price (OrderBook.restState order) plan snapshots last
  coherent : Coherent .tiered e'.view none
  before : v.queue order.instrumentId order.side = front ++ back
  after : e'.view.queue order.instrumentId order.side = front ++ keep last ++ back
  elsewhere : ∀ i side, ¬ (i = order.instrumentId ∧ side = order.side) →
    e'.view.queue i side = v.queue i side
  record : e'.order = View.synced last v.record
  leg : e'.leg = v.leg
  effect : Effect e e' e'.view (ack :: fills)
  told : List.Forall₂ (fun (p : D × Order D) report => ∃ execId, report =
    .fill p.2 (e.symbolFor p.2.instrumentId) order.price p.1 execId none)
    (plan.zip snapshots) fills
  traded : e'.traded = e.traded

/-- An order to be rested under the tiered policy. -/
structure Restable (v : View D) (order : Order D) : Prop where
  coherent : Coherent .tiered v (some order.identity)
  positive : 0 < order.remaining
  price : 0 < order.price
  regular : order.id ≠ quoteOrderId
  recorded : ∃ r, v.record order.sessionId order.id = some r

/-- The effect of resting an order. -/
structure Rested (e e' : Engine D) (order : Order D) (front back : List (Order D)) : Prop where
  coherent : Coherent .tiered e'.view none
  before : e.view.queue order.instrumentId order.side = front ++ back
  standing : Standing e'.view (OrderBook.restState order) front back
  elsewhere : ∀ i side, ¬ (i = order.instrumentId ∧ side = order.side) →
    e'.view.queue i side = e.view.queue i side
  record : e'.order = View.synced (OrderBook.restState order) e.order
  leg : e'.leg = e.leg
  effect : Effect e e' e'.view []
  traded : e'.traded = e.traded

/-- Behind the orders at its price, before those at worse prices. -/
structure Behind (order : Order D) (front back : List (Order D)) : Prop where
  front : ∀ o ∈ front, ¬ Levels.Prefers order.side order.price o.price
  back : ∀ o ∈ back, Levels.Prefers order.side order.price o.price

theorem tieredInsert_spec {e e' : Engine D} {order : Order D} (ready : Restable e.view order)
    {s : String} {result : Except EngineError (Order D)}
    (h : e.tieredInsert s order.instrumentId order = .ok (result, e')) :
    result = .ok (OrderBook.restState order) ∧
      ∃ front back, Rested e e' order front back ∧ Behind order front back := by
  let rested := OrderBook.restState order
  unfold tieredInsert at h
  obtain ⟨inserted, hinsert, h⟩ := Exec.bind_ok.mp h
  obtain ⟨book', rfl, joined⟩ := OrderBook.insertOnly_spec
    (ready.coherent.filed order.instrumentId) ready.positive
    (ready.coherent.absent _ rfl order.instrumentId order.side) hinsert
  cases h
  have keyless : (e.setBook order.instrumentId book').Keyless :=
    (keyless_of_coherent ready.coherent : e.Keyless)
  have rewrites := syncRecord_rewrites (e.setBook order.instrumentId book') rested
  have synced := (setBook_effect e order.instrumentId book').trans rewrites.effect
  have record : ((e.setBook order.instrumentId book').syncRecord rested).order =
      View.synced rested e.order := order_syncRecord keyless rested
  have hview := synced.view
  rw [record, view_setBook] at hview
  have active : rested.state.isActive := by
    change (if order.cumQuantity = 0 then OrderState.booked else .partialFill).isActive = true
    split <;> rfl
  have open_ : Coherent .tiered e.view (some rested.identity) := ready.coherent
  have positive : 0 < rested.remaining := ready.positive
  have coherent := open_.join positive active ready.price ready.regular ready.recorded joined
  obtain ⟨front, back, hq, hq', before, after⟩ := joined.split
  have queue : ∀ i side, ((e.setBook order.instrumentId book').syncRecord rested).view.queue i
    side =
      if i = order.instrumentId then book'.queue side else e.view.queue i side := by
    intro i side
    rw [hview]
    exact View.queue_setBook e.view order.instrumentId book' i side
  have hkeep : keep rested = [rested] := by
    rcases keep_cases rested with ⟨hz, -⟩ | ⟨-, hk⟩
    · exact absurd hz ready.positive.ne'
    · exact hk
  refine ⟨rfl, front, back, ⟨?_, hq, ⟨?_, ?_⟩, ?_, record, ?_, ?_, ?_⟩, before, after⟩
  · rw [hview]
    exact coherent
  · rw [hkeep, queue]
    exact (if_pos rfl).trans hq'
  · change ((e.setBook order.instrumentId book').syncRecord rested).order _ _ = _
    rw [record]
    obtain ⟨r, hr⟩ := ready.recorded
    exact View.synced_found hr
  · intro i side apart
    rw [queue]
    split
    · rename_i hi
      subst hi
      rcases OrderBook.mem_side order.side side with rfl | rfl
      · exact absurd ⟨rfl, rfl⟩ apart
      · exact joined.other
    · rfl
  · exact rewrites.leg
  · exact ⟨rfl, synced.sent, synced.registered, synced.fillPolicy, synced.instruments⟩
  · unfold traded
    rw [rewrites.rest]
    rfl

/-- Acknowledging a rested order and working on it. -/
theorem work_spec [LawfulDecimal D] {e ea eb ec ed e' : Engine D} {order : Order D}
    {front back : List (Order D)} (rested : Rested e ea order front back) {ack : Report D}
    (told : Effect ea eb ea.view [ack]) (quietly : eb.traded = ea.traded) (leg : eb.leg = ea.leg)
    {plan : List D} (fits : Fits order.remaining plan)
    {result : Except EngineError Unit} {s : String} {i : Int} (hs : s = order.sessionId)
    (hi : i = order.instrumentId)
    (hfill : tieredFillExisting s i (OrderBook.restState order) eb plan 0 = .ok (result, ec))
    (hrecord : ec.recordMarketData i [] = .ok ed) (hpublish : ed.publishMarketData = .ok e') :
    result = .ok () ∧ ∃ last snapshots fills,
      Worked e e' e.view order plan last snapshots front back ack fills := by
  subst hs hi
  have standing : Standing eb.view (OrderBook.restState order) front back := by
    rw [told.view]
    exact rested.standing
  have coherent : Coherent .tiered eb.view none := by
    rw [told.view]
    exact rested.coherent
  obtain ⟨hresult, last, snapshots, fills, filling⟩ := tieredFillExisting_spec
    (OrderBook.restState order) plan coherent (.refl _) standing fits hfill
  have quiet := publish_quiet hrecord hpublish
  have orderb : eb.order = ea.order := congrArg View.record told.view
  have effect := ((rested.effect.trans told).trans filling.effect).trans quiet.effect
  refine ⟨hresult, last, snapshots, fills, filling.fills, ?_, rested.before, ?_, ?_, ?_, ?_, ?_,
    ?_, ?_⟩
  · rw [quiet.view]
    exact filling.coherent
  · rw [quiet.view]
    exact filling.queue
  · intro i side apart
    rw [quiet.view, filling.elsewhere i side apart, told.view]
    exact rested.elsewhere i side apart
  · rw [quiet.order, filling.record, orderb, rested.record,
      synced_synced filling.fills.continues.identity]
    rfl
  · rw [quiet.leg, filling.leg, leg, rested.leg]
    rfl
  · have done := effect
    simp only [List.nil_append, List.append_nil] at done
    exact ⟨rfl, done.sent, done.registered, done.fillPolicy, done.instruments⟩
  · have news := filling.told
    rwa [symbolFor_congr told.instruments, symbolFor_congr rested.effect.instruments] at news
  · rw [publishMarketData_traded hpublish, recordMarketData_traded hrecord]
    have same : ec.traded = eb.traded := by
      unfold traded
      rw [filling.rest]
    rw [same, quietly, rested.traded]

theorem tieredMarketPrice_pos [LawfulDecimal D] : 0 < (tieredMarketPrice : D) := by
  rw [← val_pos, tieredMarketPrice, LawfulDecimal.val_lit _ _ (by norm_num) (by norm_num)]
  norm_num

theorem bookedPrice_pos [LawfulDecimal D] {orderType : OrderType} {price : D}
    (limit : orderType = .limit → 0 < price) : 0 < bookedPrice .tiered orderType price := by
  unfold bookedPrice
  cases orderType with
  | market => simpa using tieredMarketPrice_pos
  | limit => simpa using limit rfl

/-- What precedes an acknowledgement does not show in what is said afterwards. -/
theorem Worked.preceded {e ea e' : Engine D} {order : Order D} {plan : List D} {last : Order D}
    {snapshots front back : List (Order D)} {ack : Report D} {fills : List (Report D)}
    (before : Effect e ea ea.view []) (quietly : ea.traded = e.traded)
    (w : Worked ea e' ea.view order plan last snapshots front back ack fills) :
    Worked e e' ea.view order plan last snapshots front back ack fills := by
  refine ⟨w.chain, w.coherent, w.before, w.after, w.elsewhere, w.record, w.leg, ?_, ?_, ?_⟩
  · have done := before.trans w.effect
    rwa [List.nil_append] at done
  · have news := w.told
    rwa [symbolFor_congr before.instruments] at news
  · rw [w.traded, quietly]

/-- The effect of a new order under the tiered policy. -/
structure CreatedTiered (e e' : Engine D) (s : String) (new : NewOrder D) (plan : List D)
    (last : Order D) (snapshots front back : List (Order D)) (execId : String)
    (fills : List (Report D)) : Prop where
  valid : ValidInput new.id new.orderType new.price new.quantity
  listed : ∃ instrument, e.instruments.getById new.instrumentId = some instrument
  registered : e.Registered s
  fresh : e.order s new.id = none
  planned : tierFillPlan new.quantity = .ok (.ok plan)
  worked : Worked e e'
    { opened e.view (e.incoming s new) with arrival := e.nextArrival + 1 } (e.incoming s new) plan
    last snapshots front back
    (.status (OrderBook.restState (e.incoming s new)) (e.symbolFor new.instrumentId) new.id execId
      .new none) fills

theorem incoming_restState (e : Engine D) (s : String) (new : NewOrder D) :
    (OrderBook.restState (e.incoming s new)).state = .booked := by
  rw [incoming_eq]
  exact if_pos rfl

theorem planFor_tiered {remaining : D} {plan : Option (List D)}
    (h : planFor .tiered remaining = .ok (.ok plan)) :
    ∃ chunks, plan = some chunks ∧ tierFillPlan remaining = .ok (.ok chunks) := by
  unfold planFor at h
  obtain ⟨result, hplan, h⟩ := Exec.bind_ok.mp h
  cases result with
  | error err => cases h
  | ok chunks =>
    cases h
    exact ⟨chunks, rfl, hplan⟩

/-- An admitted request is ready to rest. -/
theorem admitted_restable [LawfulDecimal D] {e : Engine D} (c : Coherent .tiered e.view none)
    (policy : e.fillPolicy = .tiered) (today : Int) {s : String} {new : NewOrder D}
    {session : Session D} (hs : e.sessions.get? s = some session)
    (hfresh : HashMap.get? session.orders new.id = none)
    (valid : ValidInput new.id new.orderType new.price new.quantity) :
    Restable (e.admitted today s session new).view (e.incoming s new) := by
  have fresh : e.order s new.id = none := by simp [order, hs, hfresh]
  have hne : (e.incoming s new).id ≠ quoteOrderId := by
    rw [incoming_id]
    exact valid.regular
  have gapped := open_request c hne (by rw [incoming_sessionId, incoming_id]; exact fresh)
  rw [(admitted_effect today hs new).view]
  refine ⟨gapped.arrive (Nat.le_succ _), ?_, ?_, hne, e.incoming s new, ?_⟩
  · rw [incoming_remaining]
    exact valid.positive
  · rw [incoming_eq]
    simp only [policy]
    cases ht : new.orderType with
    | market => exact bookedPrice_pos (by intro h; cases h)
    | limit => exact bookedPrice_pos (fun _ => valid.limit ht)
  · simp [opened, View.setRecord]

theorem sendStatus_incoming (e ea : Engine D) (s : String) (new : NewOrder D) :
    ea.sendStatus (OrderBook.restState (e.incoming s new)) =
      ea.sendStatusFor (OrderBook.restState (e.incoming s new)) new.id .new none := by
  unfold sendStatus
  rw [incoming_restState, ← incoming_id e s new]
  rfl

/-- An accepted order rests behind the orders at its price. -/
theorem createTiered_placed [LawfulDecimal D] {e e' : Engine D}
    (c : Coherent .tiered e.view none) (policy : e.fillPolicy = .tiered) {today : Int}
    {s : String} {new : NewOrder D} {reply : Except EngineError OrderId}
    (h : e.createOrder today s new = .ok (reply, e')) :
    Refused e e' reply ∨
    reply = .ok new.id ∧ ∃ plan last snapshots front back execId fills,
      CreatedTiered e e' s new plan last snapshots front back execId fills ∧
      Behind (e.incoming s new) front back := by
  rcases create_cases h with refused | ⟨session, plan, -, valid, listed, hs, hfresh, hplan, h⟩
  · exact Or.inl refused
  right
  rw [policy] at hplan
  obtain ⟨chunks, rfl, planned⟩ := planFor_tiered hplan
  have fresh : e.order s new.id = none := by simp [order, hs, hfresh]
  have admitted := admitted_effect today hs new
  have ready := admitted_restable c policy today hs hfresh valid
  have fits : Fits (e.incoming s new).remaining chunks := by
    rw [incoming_remaining]
    exact tierFillPlan_fits valid.positive.le planned
  have hinstrument : (e.incoming s new).instrumentId = new.instrumentId := by rw [incoming_eq]
  have hsession : (e.incoming s new).sessionId = s := incoming_sessionId e s new
  unfold createTiered at h
  obtain ⟨⟨inserted, ea⟩, hinsert, h⟩ := Exec.bind_ok.mp h
  rw [← hinstrument] at hinsert
  obtain ⟨rfl, front, back, rested, behind⟩ := tieredInsert_spec ready hinsert
  obtain ⟨⟨result, ec⟩, hfill, h⟩ := Exec.bind_ok.mp h
  obtain ⟨ed, hrecord, h⟩ := Exec.bind_ok.mp h
  obtain ⟨ee, hpublish, h⟩ := Exec.bind_ok.mp h
  have registered : ea.Registered (OrderBook.restState (e.incoming s new)).sessionId := by
    rw [rested.effect.registered, admitted.registered]
    refine ⟨session, ?_⟩
    change e.sessions.get? (e.incoming s new).sessionId = _
    rw [hsession, hs]
  obtain ⟨execId, told⟩ := status_effect registered new.id .new none
  have hack := sendStatus_incoming e ea s new
  obtain ⟨_, mute⟩ := sendStatusFor_told ea (OrderBook.restState (e.incoming s new)) new.id
    .new none
  rw [← hack] at told mute
  rw [symbolFor_congr rested.effect.instruments, symbolFor_congr admitted.instruments] at told
  obtain ⟨rfl, last, snapshots, fills, worked⟩ :=
    work_spec rested told mute.traded mute.leg fits hsession.symm hinstrument.symm hfill hrecord
      hpublish
  cases h
  have whole := worked.preceded ⟨rfl, admitted.sent, admitted.registered, admitted.fillPolicy,
    admitted.instruments⟩ rfl
  rw [admitted.view] at whole
  refine ⟨rfl, chunks, last, snapshots, front, back, execId, fills, ⟨valid, listed, ⟨session, hs⟩,
    fresh, planned, ?_⟩, behind⟩
  rw [← hinstrument]
  exact whole

theorem createTiered_cases [LawfulDecimal D] {e e' : Engine D}
    (c : Coherent .tiered e.view none) (policy : e.fillPolicy = .tiered) {today : Int}
    {s : String} {new : NewOrder D} {reply : Except EngineError OrderId}
    (h : e.createOrder today s new = .ok (reply, e')) :
    Refused e e' reply ∨
    reply = .ok new.id ∧ ∃ plan last snapshots front back execId fills,
      CreatedTiered e e' s new plan last snapshots front back execId fills := by
  rcases createTiered_placed c policy h with
    refused | ⟨accepted, plan, last, snapshots, front, back, execId, fills, done, -⟩
  · exact .inl refused
  · exact .inr ⟨accepted, plan, last, snapshots, front, back, execId, fills, done⟩

/-- The effect of an accepted replacement under the tiered policy. -/
inductive ReplacedTiered (e e' : Engine D) (s : String) (origId : OrderId)
    (entry order : Order D) (book1 : OrderBook D) (plan : List D) : Prop
  | exhausted (done : order.remaining = 0) (execId : String)
      (effect : Effect e e' { rekeyed e.view entry.instrumentId book1 s origId order with
        arrival := e.nextArrival + 1 } [e.replacedReport order origId execId])
      (traded : e'.traded = e.traded)
  | worked (open_ : order.remaining ≠ 0) (last : Order D) (snapshots front back : List (Order D))
      (execId : String) (fills : List (Report D))
      (worked : Worked e e' { rekeyed e.view entry.instrumentId book1 s origId order with
        arrival := e.nextArrival + 1 } order plan last snapshots front back
        (e.replacedReport order origId execId) fills)

/-- A replacement with something left is ready to rest. -/
theorem Rekeyed.restable [LawfulDecimal D] {e e1 : Engine D} {s : String}
    {origId newId : OrderId} {orderType : OrderType} {price quantity : D} {entry order : Order D}
    {remaining : D} {book1 : OrderBook D} {plan : Option (List D)}
    (k : Rekeyed .tiered e e1 s origId newId orderType price quantity entry order remaining book1
      plan) (c : Coherent .tiered e.view none) (open_ : order.remaining ≠ 0) :
    Restable e1.view order := by
  obtain ⟨hid, -, -, -, -, -, -, -, -, hprice⟩ := k.fields
  rw [k.effect.view]
  refine ⟨k.coherent.arrive (Nat.le_succ _), lt_of_le_of_ne k.nonneg (Ne.symm open_), ?_, ?_,
    order, ?_⟩
  · rw [hprice]
    exact bookedPrice_pos k.valid.limit
  · rw [hid]
    exact k.valid.regular
  · simp [rekeyed, View.setRecord, k.session c]

theorem Rekeyed.planned_tiered {e e1 : Engine D} {s : String}
    {origId newId : OrderId} {orderType : OrderType} {price quantity : D} {entry order : Order D}
    {remaining : D} {book1 : OrderBook D} {plan : Option (List D)}
    (k : Rekeyed .tiered e e1 s origId newId orderType price quantity entry order remaining book1
      plan) (policy : e.fillPolicy = .tiered) :
    ∃ chunks, plan = some chunks ∧ tierFillPlan remaining = .ok (.ok chunks) := by
  have planned := k.planned
  unfold replacementPlan at planned
  rw [policy] at planned
  obtain ⟨remaining', hsub, planned⟩ := Exec.bind_ok.mp planned
  obtain rfl : remaining' = remaining := Except.ok.inj (hsub.symm.trans k.remains)
  exact planFor_tiered planned

/-- A replacement with something left rests behind the orders at its price. -/
theorem modifyTiered_placed [LawfulDecimal D] {e e' : Engine D}
    (c : Coherent .tiered e.view none) (policy : e.fillPolicy = .tiered) {today : Int}
    {s : String} {origId newId : OrderId} {orderType : OrderType} {price quantity : D}
    {reply : Except EngineError Unit}
    (h : e.modifyOrderWithType today s origId newId orderType price quantity = .ok (reply, e')) :
    Refused e e' reply ∨
    reply = .ok () ∧ ∃ e1 entry order remaining book1 plan,
      Rekeyed .tiered e e1 s origId newId orderType price quantity entry order remaining book1
        (some plan) ∧ tierFillPlan remaining = .ok (.ok plan) ∧
      ReplacedTiered e e' s origId entry order book1 plan ∧
      (order.remaining ≠ 0 → ∃ last snapshots front back execId fills,
        Worked e e' { rekeyed e.view entry.instrumentId book1 s origId order with
          arrival := e.nextArrival + 1 } order plan last snapshots front back
          (e.replacedReport order origId execId) fills ∧ Behind order front back) := by
  rcases modify_cases c policy h with
    ⟨refused, -⟩ | ⟨e1, entry, order, remaining, book1, plan, k, h⟩
  · exact Or.inl refused
  right
  obtain ⟨chunks, rfl, planned⟩ := k.planned_tiered policy
  have registered : e1.Registered order.sessionId := by
    rw [k.effect.registered, k.session c]
    exact k.registered
  have hremaining : order.remaining = remaining := k.fields.2.2.2.1
  by_cases done : order.remaining = 0
  · have quietly := confirm_traded done h
    obtain ⟨rfl, execId, confirmed⟩ := confirm_exhausted registered done h
    have whole := k.effect.trans confirmed
    rw [k.effect.view, replacedReport, symbolFor_congr k.effect.instruments] at whole
    exact ⟨rfl, e1, entry, order, remaining, book1, chunks, k, planned,
      .exhausted done execId whole (quietly.trans k.traded), fun open_ => absurd done open_⟩
  · have ready := k.restable c done
    have fits : Fits order.remaining chunks := by
      rw [hremaining]
      exact tierFillPlan_fits (hremaining ▸ k.nonneg) planned
    unfold confirmReplacement at h
    obtain ⟨⟨inserted, ea⟩, hrest, h⟩ := Exec.bind_ok.mp h
    unfold restReplacement at hrest
    simp only [done, if_false] at hrest
    obtain ⟨⟨result, eb⟩, hinsert, hrest⟩ := Exec.bind_ok.mp hrest
    obtain ⟨rfl, front, back, rested, behind⟩ := tieredInsert_spec ready hinsert
    cases hrest
    simp only [Except.map, done, if_false] at h
    obtain ⟨execId, told⟩ := status_effect
      (o := order) ((rested.effect.registered _).mpr registered) order.id .replaced (some origId)
    obtain ⟨_, mute⟩ := sendStatusFor_told eb order order.id .replaced (some origId)
    rw [symbolFor_congr rested.effect.instruments, symbolFor_congr k.effect.instruments] at told
    unfold workReplacement at h
    simp only [unwrap_some, Exec.ok_bind] at h
    obtain ⟨⟨result, ec⟩, hfill, h⟩ := Exec.bind_ok.mp h
    obtain ⟨ed, hrecord, h⟩ := Exec.bind_ok.mp h
    obtain ⟨ee, hpublish, h⟩ := Exec.bind_ok.mp h
    obtain ⟨rfl, last, snapshots, fills, worked⟩ :=
      work_spec rested told mute.traded mute.leg fits (k.session c).symm rfl hfill hrecord hpublish
    cases h
    have whole := worked.preceded ⟨rfl, k.effect.sent, k.effect.registered, k.effect.fillPolicy,
      k.effect.instruments⟩ k.traded
    rw [k.effect.view] at whole
    exact ⟨rfl, e1, entry, order, remaining, book1, chunks, k, planned,
      .worked done last snapshots front back execId fills whole,
      fun _ => ⟨last, snapshots, front, back, execId, fills, whole, behind⟩⟩

theorem modifyTiered_cases [LawfulDecimal D] {e e' : Engine D}
    (c : Coherent .tiered e.view none) (policy : e.fillPolicy = .tiered) {today : Int}
    {s : String} {origId newId : OrderId} {orderType : OrderType} {price quantity : D}
    {reply : Except EngineError Unit}
    (h : e.modifyOrderWithType today s origId newId orderType price quantity = .ok (reply, e')) :
    Refused e e' reply ∨
    reply = .ok () ∧ ∃ e1 entry order remaining book1 plan,
      Rekeyed .tiered e e1 s origId newId orderType price quantity entry order remaining book1
        (some plan) ∧ tierFillPlan remaining = .ok (.ok plan) ∧
      ReplacedTiered e e' s origId entry order book1 plan := by
  rcases modifyTiered_placed c policy h with
    refused | ⟨accepted, e1, entry, order, remaining, book1, plan, k, planned, done, -⟩
  · exact .inl refused
  · exact .inr ⟨accepted, e1, entry, order, remaining, book1, plan, k, planned, done⟩

theorem ReplacedTiered.coherent [LawfulDecimal D] {e e' e1 : Engine D} {s : String}
    {origId newId : OrderId} {orderType : OrderType} {price quantity : D} {entry order : Order D}
    {remaining : D} {book1 : OrderBook D} {plan : Option (List D)} {chunks : List D}
    (c : Coherent .tiered e.view none)
    (k : Rekeyed .tiered e e1 s origId newId orderType price quantity entry order remaining book1
      plan) (done : ReplacedTiered e e' s origId entry order book1 chunks) :
    Coherent .tiered e'.view none := by
  cases done with
  | exhausted hz execId effect _ =>
    rw [effect.view]
    exact k.exhausted c hz
  | worked _ last snapshots front back execId fills worked => exact worked.coherent

end Engine

end RustTrader
