import RustTrader.LevelChanges

/-!
# The representation of a book

A price level keeps its orders five times over: by priority, by identity, as a
total, as a priority counter and under its key in the book. The calls of
`OrderBook` are run one after the other, each on the book the last one left, and
each changes one level at a time; what holds of every level is followed through
these changes.
-/

namespace RustTrader

open Decimal

variable {D : Type} [Decimal D]

namespace PriceLevel

/-- `remove` as it writes: the index first, then the orders, then the total. -/
def removeIn (level : PriceLevel D) (session : String) (id : OrderId) :
    Exec (Except Unit (Order D) × PriceLevel D) :=
  let found := HashMap.get? level.index (session, id)
  let level := { level with index := HashMap.remove level.index (session, id) }
  match found with
  | none => pure (.error (), level)
  | some key => do
    let order ← unwrap (level.orders.get? key)
    let level := { level with orders := level.orders.erase key }
    let total ← sub level.total order.remaining
    pure (.ok order, { level with total := total })

end PriceLevel

namespace OrderBook

/-- `insert_only` as it writes: the level is there before the identity is checked. -/
def insertOnlyIn (book : OrderBook D) (order : Order D) :
    Exec (Except TieredBookError (Order D) × OrderBook D) := do
  if order.remaining ≤ 0 then
    return (.error (.invalidExecution ("resting order " ++ toString order.id ++
      " must have positive remaining, got " ++ display order.remaining)), book)
  let order := { order with state := if order.cumQuantity = 0 then .booked else .partialFill }
  let price := order.price
  let level := (book.levels order.side).getD price (PriceLevel.new price)
  let levels := (book.levels order.side).insert price level
  if HashMap.contains level.index order.identity then
    return (.error .duplicateOrder, book.setLevels order.side levels)
  let level ← level.pushBack order
  return (.ok order, book.setLevels order.side (levels.insert price level))

def executeIn (book : OrderBook D) (session : String) (id : OrderId) (side : Side)
    (keyPrice qty fillPrice : D) : Exec (Except TieredBookError (Order D) × OrderBook D) := do
  if qty ≤ 0 ∨ fillPrice ≤ 0 then
    return (.error (.invalidExecution ("fill quantity " ++ display qty ++ " and price " ++
      display fillPrice ++ " must be positive")), book)
  match (book.levels side).get? keyPrice with
  | none => return (.error .orderNotFound, book)
  | some level =>
    match level.locate session id with
    | none => return (.error .orderNotFound, book)
    | some order =>
      if !order.state.isActive then
        return (.error (.invalidExecution ("order " ++ toString id ++ " is not active (" ++
          order.state.debug ++ ")")), book)
      if order.remaining < qty then
        return (.error (.invalidExecution ("fill quantity " ++ display qty ++
          " exceeds remaining " ++ display order.remaining)), book)
      let order ← applyFill order qty fillPrice
      let level ← level.updateFill order qty
      return (.ok order, book.setLevels side (storeLevel (book.levels side) keyPrice level))

def removeIn (book : OrderBook D) (sessionId : String) (id : OrderId) (side : Side) (price : D) :
    Exec (Except Unit (Order D) × OrderBook D) :=
  match (book.levels side).get? price with
  | none => pure (.error (), book)
  | some level => do
    match ← level.removeIn sessionId id with
    | (.error (), level) =>
      pure (.error (), book.setLevels side ((book.levels side).insert price level))
    | (.ok removed, level) =>
      pure (.ok (cancelledIfActive removed),
        book.setLevels side (storeLevel (book.levels side) price level))

/-- A result with the book it leaves: an error leaves the book as it was. -/
def kept {E A : Type} (book : OrderBook D) : Except E (A × OrderBook D) → Except E A × OrderBook D
  | .ok (a, after) => (.ok a, after)
  | .error e => (.error e, book)

theorem setLevels_levels (book : OrderBook D) (side : Side) :
    book.setLevels side (book.levels side) = book := by cases side <;> rfl

/-- The duplicate check only fails on a level that was there before. -/
theorem insertOnlyIn_eq (book : OrderBook D) (order : Order D) :
    book.insertOnlyIn order = kept book <$> book.insertOnly order := by
  unfold insertOnlyIn insertOnly
  by_cases positive : order.remaining ≤ 0
  · rw [if_pos positive, if_pos positive]
    rfl
  rw [if_neg positive, if_neg positive]
  change (if HashMap.contains ((book.levels order.side).getD order.price
      (PriceLevel.new order.price)).index order.identity = true then _ else _) =
    kept book <$> (if HashMap.contains ((book.levels order.side).getD order.price
      (PriceLevel.new order.price)).index order.identity = true then _ else _)
  by_cases duplicate : HashMap.contains ((book.levels order.side).getD order.price
      (PriceLevel.new order.price)).index order.identity = true
  · rw [if_pos duplicate, if_pos duplicate]
    cases found : (book.levels order.side).get? order.price with
    | none =>
      simp only [SortedMap.getD, found, Option.getD_none] at duplicate
      cases duplicate
    | some level =>
      have same : (book.levels order.side).insert order.price
          ((book.levels order.side).getD order.price (PriceLevel.new order.price)) =
          book.levels order.side := by
        simp only [SortedMap.getD, found, Option.getD_some]
        exact SortedMap.insert_of_get? found
      exact congrArg (fun levels => Except.ok (Except.error TieredBookError.duplicateOrder, levels))
        ((congrArg (book.setLevels order.side) same).trans (setLevels_levels book order.side))
  · rw [if_neg duplicate, if_neg duplicate]
    rw [map_bind]
    refine bind_congr ?_
    intro level
    exact congrArg (fun levels => Except.ok (Except.ok (restState order), levels))
      (congrArg (book.setLevels order.side) (SortedMap.insert_insert _ order.price _ level))

theorem executeIn_eq (book : OrderBook D) (session : String) (id : OrderId) (side : Side)
    (keyPrice qty fillPrice : D) : book.executeIn session id side keyPrice qty fillPrice =
      kept book <$> book.execute session id side keyPrice qty fillPrice := by
  unfold executeIn execute
  by_cases positive : qty ≤ 0 ∨ fillPrice ≤ 0
  · rw [if_pos positive, if_pos positive]
    rfl
  rw [if_neg positive, if_neg positive]
  cases (book.levels side).get? keyPrice with
  | none => rfl
  | some level =>
    dsimp only
    cases level.locate session id with
    | none => rfl
    | some order =>
      dsimp only
      by_cases active : (!order.state.isActive) = true
      · rw [if_pos active, if_pos active]
        rfl
      rw [if_neg active, if_neg active]
      by_cases enough : order.remaining < qty
      · rw [if_pos enough, if_pos enough]
        rfl
      rw [if_neg enough, if_neg enough]
      simp only [map_bind]
      rfl

theorem removeIn_eq (book : OrderBook D) (sessionId : String) (id : OrderId) (side : Side)
    (price : D) : book.removeIn sessionId id side price =
      (fun removed => kept book (removed.elim (.error ()) .ok)) <$>
        book.remove sessionId id side price := by
  unfold removeIn remove
  cases found : (book.levels side).get? price with
  | none => rfl
  | some level =>
    dsimp only
    unfold PriceLevel.removeIn PriceLevel.remove
    cases indexed : HashMap.get? level.index (sessionId, id) with
    | none =>
      dsimp only
      rw [HashMap.remove_of_get? indexed]
      exact congrArg (fun book => Except.ok (Except.error (), book))
        ((congrArg (book.setLevels side) (SortedMap.insert_of_get? found)).trans
          (setLevels_levels book side))
    | some key =>
      dsimp only
      cases level.orders.get? key with
      | none => rfl
      | some order =>
        rw [unwrap_some, Exec.ok_bind, Exec.ok_bind]
        cases sub level.total order.remaining <;> rfl

end OrderBook

/-- Where an order was filed: the side, the key and its identity. -/
abbrev Filing (D : Type) := Side × D × Order.Identity

/-- Those waiting under a key came in that order: the log has the latest filing first. -/
structure InOrder (log : List (Filing D)) (side : Side) (key : D) (ids : List Order.Identity) :
    Prop where
  filed : ∀ id ∈ ids, (side, key, id) ∈ log
  earlier : ids.Pairwise (fun a b => log.idxOf (side, key, b) < log.idxOf (side, key, a))

theorem InOrder.sublist {log : List (Filing D)} {side : Side} {key : D}
    {ids ids' : List Order.Identity} (h : InOrder log side key ids) (less : ids'.Sublist ids) :
    InOrder log side key ids' :=
  ⟨fun id mem => h.filed id (less.subset mem), h.earlier.sublist less⟩

/-- A filing elsewhere, or of an order that does not wait here. -/
theorem InOrder.cons {log : List (Filing D)} {side : Side} {key : D} {ids : List Order.Identity}
    (h : InOrder log side key ids) {filing : Filing D}
    (other : ∀ id ∈ ids, filing ≠ (side, key, id)) : InOrder (filing :: log) side key ids := by
  constructor
  · exact fun id mem => List.mem_cons_of_mem _ (h.filed id mem)
  · refine h.earlier.imp_of_mem ?_
    intro a b memA memB lt
    rw [List.idxOf_cons_ne log (other a memA), List.idxOf_cons_ne log (other b memB)]
    omega

theorem InOrder.snoc {log : List (Filing D)} {side : Side} {key : D} {ids : List Order.Identity}
    (h : InOrder log side key ids) {id : Order.Identity} (fresh : id ∉ ids) :
    InOrder ((side, key, id) :: log) side key (ids ++ [id]) := by
  have other : ∀ a ∈ ids, ((side, key, id) : Filing D) ≠ (side, key, a) := by
    rintro a mem same
    exact fresh (by rwa [(Prod.mk.inj (Prod.mk.inj same).2).2])
  have before := h.cons other
  constructor
  · intro a mem
    rcases List.mem_append.mp mem with mem | mem
    · exact before.filed a mem
    · rw [List.mem_singleton.mp mem]
      exact List.mem_cons_self
  · rw [List.pairwise_append]
    refine ⟨before.earlier, List.pairwise_singleton _ _, ?_⟩
    intro a memA b memB
    rw [List.mem_singleton.mp memB, List.idxOf_cons_self, List.idxOf_cons_ne log (other a memA)]
    omega

/-- One price level: its price is its key, the index is the inverse of the orders and
the counter is above every priority in use, the total is what remains, those waiting
came in that order, and none of them belongs on a worse key. -/
structure Represented (log : List (Filing D)) (side : Side) (key : D) (level : PriceLevel D) :
    Prop where
  wf : level.WF
  price : level.price = key
  total : val level.total = openQuantity level.queue
  fifo : InOrder log side key level.waiting
  placed : ∀ o ∈ level.queue, o.side = side ∧ ¬ Levels.Prefers side key o.effectivePrice

theorem Represented.shrinks [ExactDecimal D] {log : List (Filing D)} {side : Side} {key : D}
    {level level' : PriceLevel D} (h : Represented log side key level)
    (step : level.Shrinks level') : Represented log side key level' := by
  obtain ⟨wf, price, waiting, continues⟩ := step.spec h.wf
  refine ⟨wf, price.trans h.price, step.summed h.wf h.total, h.fifo.sublist waiting, ?_⟩
  intro o mem
  obtain ⟨before, rested, cont⟩ := continues o mem
  rw [cont.side, cont.effectivePrice]
  exact h.placed before rested

namespace OrderBook

/-- An order joins the back of a level, which is made if it is not there. -/
inductive Grows (book : OrderBook D) (side : Side) (key : D) (order : Order D) :
    OrderBook D → Prop where
  | level {level' : PriceLevel D}
      (pushed : ((book.levels side).getD key (PriceLevel.new key)).pushBack order = .ok level') :
      Grows book side key order (book.setLevels side ((book.levels side).insert key level'))

theorem represented_new (log : List (Filing D)) (side : Side) (key : D) [ExactDecimal D] :
    Represented log side key (PriceLevel.new key) where
  wf := PriceLevel.new_wf key
  price := rfl
  total := PriceLevel.new_summed key
  fifo := ⟨fun _ mem => (by cases mem), List.Pairwise.nil⟩
  placed := fun _ mem => (by cases mem)

theorem Each.getD [ExactDecimal D] {log : List (Filing D)} {book : OrderBook D}
    (h : book.Each (Represented log)) (side : Side) (key : D) :
    Represented log side key ((book.levels side).getD key (PriceLevel.new key)) := by
  unfold SortedMap.getD
  cases found : (book.levels side).get? key with
  | none => exact represented_new log side key
  | some level => exact (h side key level found).2

theorem Grows.waiting [ExactDecimal D] {log : List (Filing D)} {book book' : OrderBook D}
    {side : Side} {key : D} {order : Order D} (h : book.Each (Represented log))
    (step : book.Grows side key order book') (s : Side) (k : D) :
    book'.waiting s k =
      book.waiting s k ++ if s = side ∧ k = key then [order.identity] else [] := by
  cases step with
  | @level level' pushed =>
    have wf := (h.getD side key).wf
    have fresh := PriceLevel.pushBack_fresh wf pushed
    have spec := PriceLevel.pushBack_spec wf
      (fun o mem same => fresh (same ▸ List.mem_map_of_mem mem)) pushed
    rw [waiting_setLevels]
    by_cases here : s = side
    · subst here
      rw [if_pos rfl, Levels.waiting_insert]
      by_cases there : k = key
      · subst there
        rw [if_pos rfl, if_pos ⟨rfl, rfl⟩, PriceLevel.waiting, spec.queue, List.map_append]
        rfl
      · rw [if_neg there, if_neg (fun both => there both.2), List.append_nil]
        rfl
    · rw [if_neg here, if_neg (fun both => here both.1), List.append_nil]

theorem Grows.represented [ExactDecimal D] {log : List (Filing D)} {book book' : OrderBook D}
    {side : Side} {key : D} {order : Order D} (h : book.Each (Represented log))
    (own : order.side = side) (placed : ¬ Levels.Prefers side key order.effectivePrice)
    (step : book.Grows side key order book') :
    book'.Each (Represented ((side, key, order.identity) :: log)) := by
  have moved : ∀ s k level, (s = side → k ≠ key) → Represented log s k level →
      Represented ((side, key, order.identity) :: log) s k level := by
    intro s k level other represented
    refine { represented with fifo := represented.fifo.cons ?_ }
    intro id _ same
    obtain ⟨rfl, rest⟩ := Prod.mk.inj same
    exact other rfl (Prod.mk.inj rest).1.symm
  cases step with
  | @level level' pushed =>
    have before := h.getD side key
    have fresh := PriceLevel.pushBack_fresh before.wf pushed
    have spec := PriceLevel.pushBack_spec before.wf
      (fun o mem same => fresh (same ▸ List.mem_map_of_mem mem)) pushed
    have joined : level'.waiting = _ ++ [order.identity] :=
      (congrArg (List.map Order.identity) spec.queue).trans List.map_append
    have here : Represented ((side, key, order.identity) :: log) side key level' := by
      refine ⟨spec.wf, spec.price.trans before.price, spec.summed before.total, ?_, ?_⟩
      · rw [joined]
        exact before.fifo.snoc fresh
      · intro o mem
        rw [spec.queue] at mem
        rcases List.mem_append.mp mem with mem | mem
        · exact before.placed o mem
        · rw [List.mem_singleton.mp mem]
          exact ⟨own, placed⟩
    have inhabited : level'.queue ≠ [] := by
      rw [spec.queue]
      simp
    intro s k level found
    by_cases same : s = side
    · subst same
      rw [levels_setLevels, SortedMap.get?_insert] at found
      split at found
      · rename_i same
        obtain rfl := Option.some.inj found
        subst same
        exact ⟨inhabited, here⟩
      · rename_i other
        obtain ⟨inhabited, represented⟩ := h s k level found
        exact ⟨inhabited, moved s k level (fun _ => other) represented⟩
    · rw [levels_setLevels_ne book _ same] at found
      obtain ⟨inhabited, represented⟩ := h s k level found
      exact ⟨inhabited, moved s k level (fun own => absurd own same) represented⟩

theorem insert_grows {book book' : OrderBook D} {order : Order D}
    (h : book.insert order = .ok book') :
    book.Grows order.side order.effectivePrice order book' := by
  unfold insert at h
  obtain ⟨level, pushed, h⟩ := Exec.bind_ok.mp h
  obtain rfl := Except.ok.inj h
  exact .level pushed

/-- The first order of the best level is written back to that level. -/
theorem settle_shrinks {log : List (Filing D)} {side : Side} {levels levels' : Levels D}
    (h : Levels.Each (Represented log side) levels) {key : D} {level : PriceLevel D}
    (best : Levels.best? side levels = some (key, level)) {top filled : Order D}
    {quantity price : D}
    (rests : top ∈ level.queue) (fill : FillOf top quantity price filled)
    (ok : settle levels filled quantity = .ok levels') :
    ∃ level', levels.get? key = some level ∧ level.Shrinks level' ∧
      levels' = storeLevel levels key level' := by
  obtain ⟨found, least⟩ := Levels.best?_spec best
  obtain ⟨other, level', stored, done, rfl⟩ := settle_ok ok
  -- a market order may rest under a worse key than its effective price, never a better one
  have placed := ((h key level found).2.placed top rests).2
  rw [← fill.effectivePrice] at placed
  have same := Levels.eq_of_not_prefers (least _ _ stored) placed
  rw [same] at stored ⊢
  obtain rfl := Option.some.inj (stored.symm.trans found)
  exact ⟨level', found, .fill rests fill done, rfl⟩

theorem Round.shrinks {log : List (Filing D)} {book book' : OrderBook D} {trade : RawTrade D}
    (h : book.Each (Represented log)) (round : book.Round trade book') :
    Relation.ReflTransGen Shrinks book book' := by
  obtain ⟨bidKey, bidLevel, askKey, askLevel, bid, ask, bestB, topB, bestA, topA, -, -, fillB,
    fillA,
    settledB, settledA, same⟩ := round.tops
  obtain ⟨bids, queueB⟩ := PriceLevel.queue_of_top topB
  obtain ⟨asks, queueA⟩ := PriceLevel.queue_of_top topA
  obtain ⟨bidLevel', foundB, shrinksB, eqB⟩ :=
    settle_shrinks (h .buy) bestB (by rw [queueB]; exact List.mem_cons_self) fillB settledB
  obtain ⟨askLevel', foundA, shrinksA, eqA⟩ :=
    settle_shrinks (h .sell) bestA (by rw [queueA]; exact List.mem_cons_self) fillA settledA
  have bidsDone : Shrinks book (book.setLevels .buy book'.bids) := by
    rw [eqB]
    exact .level .buy foundB shrinksB
  have asksDone : Shrinks (book.setLevels .buy book'.bids) book' := by
    have step : Shrinks (book.setLevels .buy book'.bids)
        ((book.setLevels .buy book'.bids).setLevels .sell
          (storeLevel (book.levels .sell) askKey askLevel')) :=
      .level .sell foundA shrinksA
    rw [← eqA] at step
    obtain ⟨id', bids', asks'⟩ := book'
    obtain rfl := same
    exact step
  exact .tail (.single bidsDone) asksDone

theorem Each.shrinksAll [ExactDecimal D] {log : List (Filing D)} {book book' : OrderBook D}
    (h : book.Each (Represented log)) (steps : Relation.ReflTransGen Shrinks book book') :
    book'.Each (Represented log) ∧ ∀ side key, (book'.waiting side key).Sublist
      (book.waiting side key) := by
  induction steps with
  | refl => exact ⟨h, fun _ _ => .refl _⟩
  | tail _ step ih =>
    obtain ⟨represented, waiting⟩ := ih
    refine ⟨represented.shrinks (fun _ _ _ _ => Represented.shrinks) step, fun side key => ?_⟩
    exact (step.waiting (fun s k l found => ⟨(represented s k l found).1,
      (represented s k l found).2.wf⟩) side key).trans (waiting side key)

theorem matchLoop_shrinks [ExactDecimal D] {log : List (Filing D)} (fuel : Nat) :
    ∀ {book book' : OrderBook D} {trades : List (RawTrade D)}, book.Each (Represented log) →
      matchLoop fuel book = .ok (trades, book') → Relation.ReflTransGen Shrinks book book' := by
  induction fuel with
  | zero =>
    intro book book' trades _ ok
    cases ok
  | succ fuel ih =>
    intro book book' trades h ok
    rw [matchLoop] at ok
    obtain ⟨outcome, step, ok⟩ := Exec.bind_ok.mp ok
    cases outcome with
    | none =>
      obtain ⟨rfl, rfl⟩ := Prod.mk.inj (Except.ok.inj ok)
      exact .refl
    | some result =>
      obtain ⟨trade, mid⟩ := result
      obtain ⟨⟨later, last⟩, rest, ok⟩ := Exec.bind_ok.mp ok
      obtain ⟨rfl, rfl⟩ := Prod.mk.inj (Except.ok.inj ok)
      have round := (matchStep_round step).shrinks h
      exact round.trans (ih (h.shrinksAll round).1 rest)

theorem remove_shrinks {book book' : OrderBook D} {session : String} {id : OrderId} {side : Side}
    {price : D} {removed : Order D}
    (h : book.remove session id side price = .ok (some (removed, book'))) :
    book.Shrinks book' := by
  unfold remove at h
  split at h
  · cases h
  · rename_i level found
    obtain ⟨result, done, h⟩ := Exec.bind_ok.mp h
    cases result with
    | none => cases h
    | some pair =>
      obtain ⟨order, level'⟩ := pair
      obtain ⟨-, rfl⟩ := Prod.mk.inj (Option.some.inj (Except.ok.inj h))
      exact .level side found (.remove done)

theorem finish_shrinks {book book' : OrderBook D} {order : Order D} {trades : List (RawTrade D)}
    {final : Option (Order D)} (h : book.finish order trades = .ok (final, book')) :
    Relation.ReflTransGen Shrinks book book' := by
  unfold finish at h
  split at h
  · split at h
    · obtain ⟨result, removed, h⟩ := Exec.bind_ok.mp h
      cases result with
      | none => cases h
      | some pair =>
        obtain ⟨-, rfl⟩ := Prod.mk.inj (Except.ok.inj h)
        exact .single (remove_shrinks removed)
    · obtain ⟨-, rfl⟩ := Prod.mk.inj (Except.ok.inj h)
      exact .refl
  · obtain ⟨-, rfl⟩ := Prod.mk.inj (Except.ok.inj h)
    exact .refl

theorem insertOnly_grows {book book' : OrderBook D} {order rested : Order D}
    (h : book.insertOnly order = .ok (.ok (rested, book'))) :
    book.Grows order.side order.price (restState order) book' := by
  unfold insertOnly at h
  split at h
  · cases h
  change (if HashMap.contains ((book.levels order.side).getD order.price
    (PriceLevel.new order.price)).index order.identity = true then _ else _) = _ at h
  split at h
  · cases h
  obtain ⟨level, pushed, h⟩ := Exec.bind_ok.mp h
  obtain ⟨-, rfl⟩ := Prod.mk.inj (Except.ok.inj (Except.ok.inj h))
  exact .level pushed

theorem execute_shrinks {book book' : OrderBook D} {session : String} {id : OrderId} {side : Side}
    {keyPrice qty fillPrice : D} {filled : Order D}
    (h : book.execute session id side keyPrice qty fillPrice = .ok (.ok (filled, book'))) :
    book.Shrinks book' := by
  unfold execute at h
  split at h
  · cases h
  split at h
  · cases h
  rename_i level found
  split at h
  · cases h
  rename_i order located
  split at h
  · cases h
  split at h
  · cases h
  obtain ⟨next, fill, h⟩ := Exec.bind_ok.mp h
  obtain ⟨level', done, h⟩ := Exec.bind_ok.mp h
  obtain ⟨-, rfl⟩ := Prod.mk.inj (Except.ok.inj (Except.ok.inj h))
  obtain ⟨key, -, stored⟩ := Option.bind_eq_some_iff.mp located
  exact .level side found
    (.fill (PriceLevel.mem_queue.mpr ⟨key, stored⟩) (applyFill_spec fill) done)

end OrderBook

inductive Call (D : Type) where
  | add (order : Order D)
  | insertOnly (order : Order D)
  | execute (session : String) (id : OrderId) (side : Side) (keyPrice qty fillPrice : D)
  | remove (session : String) (id : OrderId) (side : Side) (price : D)

namespace Call

/-- Where a call files an order if it succeeds. -/
def files : Call D → Option (Filing D)
  | .add order => some (order.side, order.effectivePrice, order.identity)
  | .insertOnly order => some (order.side, order.price, order.identity)
  | .execute .. => none
  | .remove .. => none

/-- No order of this identity rests where the call files one. -/
def Fresh (book : OrderBook D) (call : Call D) : Prop :=
  ∀ side key id, call.files = some (side, key, id) → id ∉ book.waiting side key

/-- `insert_only` files no market order under a better key than its effective price. -/
def Within : Call D → Prop
  | .insertOnly order => ¬ Levels.Prefers order.side order.price order.effectivePrice
  | _ => True

/-- The filing of a call, with whether the call succeeded. -/
def recorded (call : Call D) (succeeded : Bool) : List (Filing D) :=
  if succeeded then call.files.toList else []

end Call

namespace OrderBook

/-- One call on a book: whether it succeeded, and the book it leaves. -/
def perform (book : OrderBook D) : Call D → Exec (Bool × OrderBook D)
  | .add order => do
    let (_, _, book) ← book.add order
    pure (true, book)
  | .insertOnly order => do
    let (result, book) ← book.insertOnlyIn order
    pure (result.toBool, book)
  | .execute session id side keyPrice qty fillPrice => do
    let (result, book) ← book.executeIn session id side keyPrice qty fillPrice
    pure (result.toBool, book)
  | .remove session id side price => do
    let (result, book) ← book.removeIn session id side price
    pure (result.toBool, book)

/-- The books that a sequence of calls leaves, each call `allowed` when it is made, with
the orders filed, latest first. -/
inductive Reaches (allowed : OrderBook D → Call D → Prop) (instrumentId : Int) :
    List (Filing D) → OrderBook D → Prop where
  | start : Reaches allowed instrumentId [] (new instrumentId)
  | call {log : List (Filing D)} {book book' : OrderBook D} {call : Call D} {succeeded : Bool}
      (before : Reaches allowed instrumentId log book) (may : allowed book call)
      (done : book.perform call = .ok (succeeded, book')) :
      Reaches allowed instrumentId (call.recorded succeeded ++ log) book'

/-- What a call leaves: the same book if it fails, else a book in which the order it
files has joined and then some have left or been filled. -/
inductive Changes (book : OrderBook D) (call : Call D) : Bool → OrderBook D → Prop where
  | failed : Changes book call false book
  | shrinks {book' : OrderBook D} (files : call.files = none)
      (steps : Relation.ReflTransGen Shrinks book book') : Changes book call true book'
  | grows {side : Side} {key : D} {order : Order D} {mid book' : OrderBook D}
      (joins : book.Grows side key order mid)
      (files : call.files = some (side, key, order.identity))
      (own : order.side = side) (placed : ¬ Levels.Prefers side key order.effectivePrice)
      (steps : Relation.ReflTransGen Shrinks mid book') :
      Changes book call true book'

theorem kept_cases {E A : Type} {book book' : OrderBook D}
    {outcome : Exec (Except E (A × OrderBook D))}
    {result : Except E A} (h : kept book <$> outcome = .ok (result, book')) :
    (result.toBool = false ∧ book' = book) ∨
      (result.toBool = true ∧ ∃ a, outcome = .ok (.ok (a, book'))) := by
  cases outcome with
  | error p => cases h
  | ok returned =>
    have same : kept book returned = (result, book') := Except.ok.inj h
    cases returned with
    | error e =>
      obtain ⟨rfl, rfl⟩ := Prod.mk.inj same
      exact .inl ⟨rfl, rfl⟩
    | ok pair =>
      obtain ⟨rfl, rfl⟩ := Prod.mk.inj same
      exact .inr ⟨rfl, pair.1, rfl⟩

theorem add_changes [ExactDecimal D] {log : List (Filing D)} {book book' : OrderBook D}
    (h : book.Each (Represented log)) {order : Order D} {trades : List (RawTrade D)}
    {final : Option (Order D)} (ok : book.add order = .ok (trades, final, book')) :
    book.Changes (.add order) true book' := by
  unfold add at ok
  obtain ⟨mid, inserted, ok⟩ := Exec.bind_ok.mp ok
  obtain ⟨⟨traded, matched⟩, loop, ok⟩ := Exec.bind_ok.mp ok
  obtain ⟨⟨last, after⟩, finished, ok⟩ := Exec.bind_ok.mp ok
  obtain ⟨rfl, same⟩ := Prod.mk.inj (Except.ok.inj ok)
  obtain ⟨rfl, rfl⟩ := Prod.mk.inj same
  have joins := insert_grows inserted
  have placed : ∀ side (key : D), ¬ Levels.Prefers side key key := by
    intro side key
    cases side <;> exact lt_irrefl _
  have represented := joins.represented h rfl (placed _ _)
  exact .grows joins rfl rfl (placed _ _)
    ((matchLoop_shrinks _ represented loop).trans (finish_shrinks finished))

theorem perform_changes [ExactDecimal D] {log : List (Filing D)} {book book' : OrderBook D}
    (h : book.Each (Represented log)) {call : Call D} (within : call.Within) {succeeded : Bool}
    (done : book.perform call = .ok (succeeded, book')) : book.Changes call succeeded book' := by
  cases call with
  | add order =>
    obtain ⟨⟨trades, final, after⟩, added, done⟩ := Exec.bind_ok.mp done
    obtain ⟨rfl, rfl⟩ := Prod.mk.inj (Except.ok.inj done)
    exact add_changes h added
  | insertOnly order =>
    obtain ⟨⟨result, after⟩, called, done⟩ := Exec.bind_ok.mp done
    obtain ⟨rfl, rfl⟩ := Prod.mk.inj (Except.ok.inj done)
    rw [insertOnlyIn_eq] at called
    rcases kept_cases called with ⟨failed, rfl⟩ | ⟨succeeded, rested, called⟩
    · rw [failed]
      exact .failed
    · rw [succeeded]
      exact .grows (insertOnly_grows called) rfl rfl within .refl
  | execute session id side keyPrice qty fillPrice =>
    obtain ⟨⟨result, after⟩, called, done⟩ := Exec.bind_ok.mp done
    obtain ⟨rfl, rfl⟩ := Prod.mk.inj (Except.ok.inj done)
    rw [executeIn_eq] at called
    rcases kept_cases called with ⟨failed, rfl⟩ | ⟨succeeded, filled, called⟩
    · rw [failed]
      exact .failed
    · rw [succeeded]
      exact .shrinks rfl (.single (execute_shrinks called))
  | remove session id side price =>
    obtain ⟨⟨result, after⟩, called, done⟩ := Exec.bind_ok.mp done
    obtain ⟨rfl, rfl⟩ := Prod.mk.inj (Except.ok.inj done)
    rw [removeIn_eq, ← Function.comp_def (kept book), comp_map] at called
    rcases kept_cases called with ⟨failed, rfl⟩ | ⟨succeeded, removed, called⟩
    · rw [failed]
      exact .failed
    · rw [succeeded]
      cases outcome : book.remove session id side price with
      | error p =>
        rw [outcome] at called
        cases called
      | ok found =>
        rw [outcome] at called
        cases found with
        | none => cases called
        | some pair =>
          obtain rfl := Except.ok.inj (Except.ok.inj called)
          exact .shrinks rfl (.single (remove_shrinks outcome))

/-- What a call enters under a key. -/
def entering (call : Call D) (side : Side) (key : D) : List Order.Identity :=
  match call.files with
  | some (s, k, id) => if side = s ∧ key = k then [id] else []
  | none => []

/-- A call keeps the invariant, lets nobody pass, and leaves the book alone if it fails. -/
theorem Changes.spec [ExactDecimal D] {log : List (Filing D)} {book book' : OrderBook D}
    (h : book.Each (Represented log)) {call : Call D} {succeeded : Bool}
    (changes : book.Changes call succeeded book') :
    book'.Each (Represented (call.recorded succeeded ++ log)) ∧ ∀ side key,
      (book'.waiting side key).Sublist (book.waiting side key ++ entering call side key) := by
  cases changes with
  | failed => exact ⟨h, fun _ _ => List.sublist_append_left _ _⟩
  | shrinks files steps =>
    obtain ⟨represented, waiting⟩ := h.shrinksAll steps
    have none_ : call.recorded true = [] := by rw [Call.recorded, files]; rfl
    rw [none_]
    exact ⟨represented, fun side key => (waiting side key).trans (List.sublist_append_left _ _)⟩
  | @grows side key order mid _ joins files own placed steps =>
    obtain ⟨represented, waiting⟩ := (joins.represented h own placed).shrinksAll steps
    have one : call.recorded true = [(side, key, order.identity)] := by
      rw [Call.recorded, files]
      rfl
    rw [one]
    refine ⟨represented, fun s k => ?_⟩
    have enters : entering call s k = if s = side ∧ k = key then [order.identity] else [] := by
      rw [entering, files]
    rw [enters, ← joins.waiting h s k]
    exact waiting s k

theorem new_each (P : Side → D → PriceLevel D → Prop) (instrumentId : Int) :
    (new instrumentId : OrderBook D).Each P := by
  intro side key level found
  cases side <;> cases found

/-- Every book that such calls reach is represented by its levels. -/
theorem reaches_represented [ExactDecimal D] {instrumentId : Int} {log : List (Filing D)}
    {book : OrderBook D} (h : Reaches (fun _ call => call.Within) instrumentId log book) :
    book.Each (Represented log) := by
  induction h with
  | start => exact new_each _ _
  | call _ may done ih => exact ((perform_changes ih may done).spec ih).1

/-- In a book that such calls reach, every level is represented; the next call lets
nobody pass on any level, and leaves the book alone if it fails. -/
theorem levels_represented [ExactDecimal D] {instrumentId : Int} {log : List (Filing D)}
    {book : OrderBook D} (h : Reaches (fun _ call => call.Within) instrumentId log book) :
    (∀ side key level, (book.levels side).get? key = some level →
      level.queue ≠ [] ∧ Represented log side key level) ∧
    ∀ call succeeded book', call.Within → book.perform call = .ok (succeeded, book') →
      (∀ side key, (book'.waiting side key).Sublist
        (book.waiting side key ++ entering call side key)) ∧
      (succeeded = false → book' = book) := by
  have represented := reaches_represented h
  refine ⟨represented, ?_⟩
  intro call succeeded book' within done
  have changes := perform_changes represented within done
  refine ⟨(changes.spec represented).2, ?_⟩
  rintro rfl
  cases changes
  rfl

/-- The calls of a list, each on the book the last one left, as long as they are allowed. -/
def performAll (allowed : OrderBook D → Call D → Prop)
    [∀ book call, Decidable (allowed book call)] :
    List (Filing D) → OrderBook D → List (Call D) → Option (List (Filing D) × OrderBook D)
  | log, book, [] => some (log, book)
  | log, book, call :: calls =>
    if allowed book call then
      match book.perform call with
      | .ok (succeeded, book) => performAll allowed (call.recorded succeeded ++ log) book calls
      | .error _ => none
    else none

theorem performAll_reaches {allowed : OrderBook D → Call D → Prop}
    [∀ book call, Decidable (allowed book call)] {instrumentId : Int} (calls : List (Call D)) :
    ∀ {log log' : List (Filing D)} {book book' : OrderBook D},
      Reaches allowed instrumentId log book →
      performAll allowed log book calls = some (log', book') →
      Reaches allowed instrumentId log' book' := by
  induction calls with
  | nil =>
    intro log log' book book' before performed
    obtain ⟨rfl, rfl⟩ := Prod.mk.inj (Option.some.inj performed)
    exact before
  | cons call calls ih =>
    intro log log' book book' before performed
    rw [performAll] at performed
    split at performed
    · rename_i may
      split at performed
      · rename_i done
        exact ih (before.call may done) performed
      · cases performed
    · cases performed

instance (call : Call D) : Decidable call.Within := by
  unfold Call.Within
  split <;> infer_instance

instance (book : OrderBook D) (call : Call D) : Decidable (call.Fresh book) :=
  decidable_of_iff (∀ filing ∈ call.files, filing.2.2 ∉ book.waiting filing.1 filing.2.1)
    ⟨fun h side key id files => h (side, key, id) files, fun h _ files => h _ _ _ files⟩

/-- Two offers at one price, the first of which is taken. -/
def offers : List (Call ℚ) := [
  .add (Order.limit "a" 1 1 .sell 10 3 1), .add (Order.limit "b" 2 1 .sell 10 4 2),
  .add (Order.limit "c" 3 1 .buy 10 3 3)]

theorem levels_represented_sample : ∃ (log : List (Filing ℚ)) (book : OrderBook ℚ),
    book.waiting .sell 10 = [("b", 2)] ∧ ∀ side key level,
      (book.levels side).get? key = some level → level.queue ≠ [] ∧
        Represented log side key level := by
  have ran : (performAll (fun _ call => call.Within) [] (new 1) offers).map
      (fun reached => reached.2.waiting .sell 10) = some [("b", 2)] := by
    decide +kernel
  obtain ⟨⟨log, book⟩, performed, waiting⟩ := Option.map_eq_some_iff.mp ran
  exact ⟨log, book, waiting, (levels_represented (performAll_reaches offers .start performed)).1⟩

/-- A market sell order is filed below zero, and a limit order of the same identity at
zero, where the matching looks for the market order. -/
def confused : List (Call ℚ) := [
  .insertOnly { Order.market "s" 1 1 .sell 3 1 with price := -5 },
  .add (Order.limit "s" 1 1 .sell 0 10 2), .add (Order.limit "t" 2 1 .buy 1 1 3)]

/-- The level at zero then shows nine where two remain. -/
theorem confused_total : ∃ (log : List (Filing ℚ)) (book : OrderBook ℚ) (level : PriceLevel ℚ),
    Reaches (fun book call => call.Fresh book) 1 log book ∧
    (book.levels .sell).get? 0 = some level ∧ val level.total = (9 : ℚ) ∧
    openQuantity level.queue = 2 := by
  have ran : (performAll (fun book call => call.Fresh book) [] (new 1) confused).bind
      (fun reached => ((reached.2.levels .sell).get? 0).map
        (fun level => (val level.total, openQuantity level.queue))) = some ((9 : ℚ), 2) := by
    decide +kernel
  obtain ⟨⟨log, book⟩, performed, found⟩ := Option.bind_eq_some_iff.mp ran
  obtain ⟨level, stored, same⟩ := Option.map_eq_some_iff.mp found
  obtain ⟨total, remains⟩ := Prod.mk.inj same
  exact ⟨log, book, level, performAll_reaches confused .start performed, stored, total, remains⟩

end OrderBook

end RustTrader
