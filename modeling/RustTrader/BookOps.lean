import RustTrader.BookView
import RustTrader.Library.Keyed

/-!
# What the book operations do to the queues

One specification per operation, on the queue of a side: joining the back of a
price level, leaving the book, and a fill in place. Callers use these and never
look into a level again.
-/

namespace RustTrader

open Decimal

/-- What stays of an order after a fill. -/
def keep {D : Type} [Decimal D] (order : Order D) : List (Order D) :=
  if order.remaining = 0 then [] else [order]

theorem keep_cases {D : Type} [Decimal D] (order : Order D) :
    (order.remaining = 0 ∧ keep order = []) ∨ (order.remaining ≠ 0 ∧ keep order = [order]) := by
  by_cases h : order.remaining = 0 <;> simp [keep, h]

theorem mem_keep {D : Type} [Decimal D] {order o : Order D} :
    o ∈ keep order ↔ o = order ∧ order.remaining ≠ 0 := by
  rcases keep_cases order with ⟨h, hk⟩ | ⟨h, hk⟩ <;> simp [hk, h]

namespace Levels

variable {D : Type} [Decimal D] {keyOf : Order D → D} {levels : Levels D}

theorem WF.fill (side : Side) (wf : WF keyOf levels) {key : D} {level level' : PriceLevel D}
    {order : Order D} {quantity : D} (hget : levels.get? key = some level)
    (hkey : keyOf order = key) (h : level.updateFill order quantity = .ok level') :
    WF keyOf (OrderBook.storeLevel levels key level') ∧ ∃ pre resting post,
      resting.identity = order.identity ∧ keyOf resting = key ∧
      queue side levels = pre ++ resting :: post ∧
      queue side (OrderBook.storeLevel levels key level') = pre ++ keep order ++ post := by
  have spec := PriceLevel.updateFill_spec (wf.level key level hget) h
  obtain ⟨front, resting, back, hid, hq, hq', -⟩ := spec.queue
  have hfiled : ∀ o ∈ level'.queue, keyOf o = key := by
    intro o ho
    rw [hq', List.mem_append, List.mem_append] at ho
    rcases ho with (ho | ho) | ho
    · exact wf.filed key level hget o (by rw [hq]; simp [ho])
    · by_cases hz : order.remaining = 0
      · simp [hz] at ho
      · simp only [hz, if_false, List.mem_singleton] at ho
        rw [ho, hkey]
    · exact wf.filed key level hget o (by rw [hq]; simp [ho])
  refine ⟨wf.storeLevel spec.wf (spec.price.trans (wf.price key level hget)) hfiled,
    ordersOf (better side levels key) ++ front, resting,
    back ++ ordersOf (worse side levels key), hid,
    wf.filed key level hget resting (by rw [hq]; simp), ?_, ?_⟩
  · rw [queue_of_get? hget, hq]
    simp
  · rw [queue_storeLevel, hq']
    simp [keep]

theorem WF.remove (side : Side) (wf : WF keyOf levels) {key : D} {level level' : PriceLevel D}
    {session : String} {id : OrderId} {order : Order D} (hget : levels.get? key = some level)
    (h : level.remove session id = .ok (some (order, level'))) :
    WF keyOf (OrderBook.storeLevel levels key level') ∧ order.identity = (session, id) ∧
      keyOf order = key ∧ ∃ pre post, queue side levels = pre ++ order :: post ∧
      queue side (OrderBook.storeLevel levels key level') = pre ++ post := by
  obtain ⟨hloc, hspec⟩ := PriceLevel.remove_spec (wf.level key level hget) h
  have spec := hspec order level' rfl
  obtain ⟨hmem, hid⟩ := (wf.level key level hget).locate_some.mp hloc.symm
  obtain ⟨front, back, hq, hq'⟩ := spec.queue
  have hfiled : ∀ o ∈ level'.queue, keyOf o = key := by
    intro o ho
    rw [hq', List.mem_append] at ho
    apply wf.filed key level hget o
    rw [hq]
    rcases ho with ho | ho <;> simp [ho]
  refine ⟨wf.storeLevel spec.wf (spec.price.trans (wf.price key level hget)) hfiled, hid,
    wf.filed key level hget order hmem, ordersOf (better side levels key) ++ front,
    back ++ ordersOf (worse side levels key), ?_, ?_⟩
  · rw [queue_of_get? hget, hq]
    simp
  · rw [queue_storeLevel, hq']
    simp

/-- The level an order is about to join, existing or new. -/
theorem WF.getD_wf (wf : WF keyOf levels) (key : D) :
    (levels.getD key (PriceLevel.new key)).WF ∧
      (levels.getD key (PriceLevel.new key)).price = key ∧
      ∀ o ∈ (levels.getD key (PriceLevel.new key)).queue, keyOf o = key := by
  cases hget : levels.get? key with
  | none =>
    simp only [SortedMap.getD, hget, Option.getD_none, PriceLevel.queue_new]
    exact ⟨PriceLevel.new_wf key, rfl, by intro o ho; cases ho⟩
  | some level =>
    simp only [SortedMap.getD, hget, Option.getD_some]
    exact ⟨wf.level key level hget, wf.price key level hget, wf.filed key level hget⟩

theorem WF.push (side : Side) (wf : WF keyOf levels) {key : D} {level' : PriceLevel D}
    {order : Order D} (hkey : keyOf order = key)
    (fresh : ∀ o ∈ queue side levels, o.identity ≠ order.identity)
    (h : (levels.getD key (PriceLevel.new key)).pushBack order = .ok level') :
    WF keyOf (levels.insert key level') ∧ ∃ front back,
      queue side levels = front ++ back ∧
      queue side (levels.insert key level') = front ++ [order] ++ back ∧
      (∀ o ∈ front, ¬ Prefers side key (keyOf o)) ∧ ∀ o ∈ back, Prefers side key (keyOf o) := by
  obtain ⟨hwf, hprice, hfiled⟩ := wf.getD_wf key
  have hq := queue_of_getD side levels key
  have spec := PriceLevel.pushBack_spec hwf (fun o ho => fresh o (by rw [hq]; simp [ho])) h
  have hfiled' : ∀ o ∈ level'.queue, keyOf o = key := by
    intro o ho
    rw [spec.queue, List.mem_append, List.mem_singleton] at ho
    rcases ho with ho | rfl
    · exact hfiled o ho
    · exact hkey
  refine ⟨wf.insert spec.wf (by rw [spec.queue]; simp) (spec.price.trans hprice) hfiled',
    ordersOf (better side levels key) ++ (levels.getD key (PriceLevel.new key)).queue,
    ordersOf (worse side levels key), hq, ?_, ?_, fun o ho => wf.worse_key ho⟩
  · rw [queue_insert, spec.queue]
    simp
  · intro o ho
    rcases List.mem_append.mp ho with ho | ho
    · have hlt := wf.better_key ho
      cases side <;> exact lt_asymm hlt
    · rw [hfiled o ho]
      cases side <;> exact lt_irrefl key

end Levels

namespace OrderBook

variable {D : Type} [Decimal D]

def queue (book : OrderBook D) (side : Side) : List (Order D) :=
  Levels.queue side (book.levels side)

/-- Both sides are filed by `keyOf` and no identity rests twice on a side. -/
structure Filed (keyOf : Order D → D) (book : OrderBook D) : Prop where
  wf : ∀ side, Levels.WF keyOf (book.levels side)
  distinct : ∀ side, Keyed.Distinct Order.identity (book.queue side)

@[simp] theorem levels_setLevels (book : OrderBook D) (side : Side) (levels : Levels D) :
    (book.setLevels side levels).levels side = levels := by cases side <;> rfl

theorem levels_setLevels_ne (book : OrderBook D) {side side' : Side} (levels : Levels D)
    (h : side' ≠ side) : (book.setLevels side levels).levels side' = book.levels side' := by
  cases side <;> cases side' <;> first | exact absurd rfl h | rfl

@[simp] theorem instrumentId_setLevels (book : OrderBook D) (side : Side) (levels : Levels D) :
    (book.setLevels side levels).instrumentId = book.instrumentId := by cases side <;> rfl

@[simp] theorem queue_new (instrumentId : Int) (side : Side) :
    (new instrumentId : OrderBook D).queue side = [] := by
  cases side <;> simp [queue, new, levels]

theorem new_filed (keyOf : Order D → D) (instrumentId : Int) :
    Filed keyOf (new instrumentId : OrderBook D) where
  wf := by intro side; cases side <;> exact Levels.empty_wf keyOf
  distinct := by intro side; rw [queue_new]; exact List.nodup_nil

theorem mem_side (side side' : Side) : side' = side ∨ side' = side.opposite := by
  cases side <;> cases side' <;> decide

/-- A change of one side only. -/
theorem Filed.setLevels {keyOf : Order D → D} {book : OrderBook D} (filed : Filed keyOf book)
    {side : Side} {levels : Levels D} (wf : Levels.WF keyOf levels)
    (distinct : Keyed.Distinct Order.identity (Levels.queue side levels)) :
    Filed keyOf (book.setLevels side levels) where
  wf := by
    intro side'
    by_cases h : side' = side
    · subst h; simpa using wf
    · rw [levels_setLevels_ne book levels h]; exact filed.wf side'
  distinct := by
    intro side'
    by_cases h : side' = side
    · subst h; simpa [queue] using distinct
    · rw [queue, levels_setLevels_ne book levels h]; exact filed.distinct side'

theorem queue_setLevels (book : OrderBook D) (side : Side) (levels : Levels D) :
    (book.setLevels side levels).queue side = Levels.queue side levels := by simp [queue]

theorem queue_setLevels_ne (book : OrderBook D) {side side' : Side} (levels : Levels D)
    (h : side' ≠ side) : (book.setLevels side levels).queue side' = book.queue side' := by
  rw [queue, levels_setLevels_ne book levels h, queue]

theorem Filed.locate_some {keyOf : Order D → D} {book : OrderBook D} (filed : Filed keyOf book)
    {session : String} {id : OrderId} {side : Side} {price : D} {order : Order D} :
    book.locate session id side price = some order ↔
      order ∈ book.queue side ∧ order.identity = (session, id) ∧ keyOf order = price := by
  simp only [locate, Option.bind_eq_bind, Option.bind_eq_some_iff]
  constructor
  · rintro ⟨level, hget, hloc⟩
    obtain ⟨hm, hid⟩ := ((filed.wf side).level price level hget).locate_some.mp hloc
    exact ⟨Levels.mem_queue.mpr ⟨price, level, hget, hm⟩, hid,
      (filed.wf side).filed price level hget order hm⟩
  · rintro ⟨hm, hid, rfl⟩
    obtain ⟨level, hget, hm⟩ := (filed.wf side).get_of_mem hm
    exact ⟨level, hget, ((filed.wf side).level _ level hget).locate_some.mpr ⟨hm, hid⟩⟩

/-- The effect of a successful removal of `order`, as it rested. -/
structure Left (keyOf : Order D → D) (book : OrderBook D) (side : Side) (order : Order D)
    (book' : OrderBook D) : Prop where
  filed : Filed keyOf book'
  instrument : book'.instrumentId = book.instrumentId
  other : book'.queue side.opposite = book.queue side.opposite
  split : ∃ pre post, book.queue side = pre ++ order :: post ∧ book'.queue side = pre ++ post

def cancelledIfActive (order : Order D) : Order D :=
  if order.state.isActive then { order with state := .cancelled } else order

theorem remove_spec {keyOf : Order D → D} {book : OrderBook D} (filed : Filed keyOf book)
    {session : String} {id : OrderId} {side : Side} {price : D}
    {result : Option (Order D × OrderBook D)}
    (h : book.remove session id side price = .ok result) :
    (result = none ∧ ∀ o ∈ book.queue side, keyOf o = price → o.identity ≠ (session, id)) ∨
    ∃ order book', result = some (cancelledIfActive order, book') ∧
      order ∈ book.queue side ∧ order.identity = (session, id) ∧ keyOf order = price ∧
      Left keyOf book side order book' := by
  unfold remove at h
  cases hget : (book.levels side).get? price with
  | none =>
    left
    simp only [hget] at h
    refine ⟨(Except.ok.inj h).symm, ?_⟩
    intro o ho hkey
    obtain ⟨level, hl, -⟩ := (filed.wf side).get_of_mem ho
    rw [hkey, hget] at hl
    cases hl
  | some level =>
    simp only [hget] at h
    obtain ⟨removed, hremoved, h⟩ := Exec.bind_ok.mp h
    cases removed with
    | none =>
      left
      refine ⟨(Except.ok.inj h).symm, ?_⟩
      intro o ho hkey hid
      obtain ⟨level', hl, hm⟩ := (filed.wf side).get_of_mem ho
      rw [hkey, hget] at hl
      obtain rfl := Option.some.inj hl
      have hwf := (filed.wf side).level price level hget
      have hloc := (PriceLevel.remove_spec hwf hremoved).1
      have := hwf.locate_none.mp hloc.symm
      exact this o hm hid
    | some pair =>
      right
      obtain ⟨order, level'⟩ := pair
      obtain ⟨wf', hid, hkey, pre, post, hq, hq'⟩ := (filed.wf side).remove side hget hremoved
      have hd := filed.distinct side
      rw [queue, hq] at hd
      refine ⟨order, _, (Except.ok.inj h).symm, by rw [queue, hq]; simp, hid, hkey, ?_⟩
      refine ⟨filed.setLevels wf' ?_, instrumentId_setLevels .., ?_, pre, post, hq, ?_⟩
      · rw [hq']
        exact (Keyed.distinct_middle.mp hd).2
      · exact queue_setLevels_ne _ _ (Side.opposite_ne side)
      · rw [queue_setLevels, hq']

theorem remove_error [LawfulDecimal D] {keyOf : Order D → D} {book : OrderBook D}
    (filed : Filed keyOf book) {session : String} {id : OrderId} {side : Side} {price : D}
    {p : Panic} (h : book.remove session id side price = .error p) : p = .decimal := by
  unfold remove at h
  cases hget : (book.levels side).get? price with
  | none => simp [hget, pure, Except.pure] at h
  | some level =>
    simp only [hget] at h
    rcases Exec.bind_error.mp h with h | ⟨removed, -, h⟩
    · exact PriceLevel.remove_error ((filed.wf side).level price level hget) h
    · cases removed <;> cases h

/-- An order that rests where it is looked up is found. -/
theorem remove_of_mem {keyOf : Order D → D} {book : OrderBook D} (filed : Filed keyOf book)
    {order : Order D} {side : Side} (hm : order ∈ book.queue side)
    {result : Option (Order D × OrderBook D)}
    (h : book.remove order.sessionId order.id side (keyOf order) = .ok result) :
    ∃ book', result = some (cancelledIfActive order, book') ∧ Left keyOf book side order book' := by
  rcases remove_spec filed h with ⟨-, absent⟩ | ⟨o, book', hr, ho, hid, -, hleft⟩
  · exact absurd rfl (absent order hm rfl)
  · obtain rfl := (filed.distinct side).eq_of_key hm ho hid.symm
    exact ⟨book', hr, hleft⟩

theorem Left.mem {keyOf : Order D → D} {book book' : OrderBook D} {side : Side} {order : Order D}
    (filed : Filed keyOf book) (hleft : Left keyOf book side order book') {o : Order D} :
    o ∈ book'.queue side ↔ o ∈ book.queue side ∧ o.identity ≠ order.identity := by
  obtain ⟨pre, post, hq, hq'⟩ := hleft.split
  have hd := filed.distinct side
  rw [hq] at hd
  have := hd.mem_replace [] o
  rw [hq, hq']
  simpa using this

/-- The effect of resting `order` under the key `keyOf` files it by. -/
structure Joined (keyOf : Order D → D) (book : OrderBook D) (order : Order D)
    (book' : OrderBook D) : Prop where
  filed : Filed keyOf book'
  instrument : book'.instrumentId = book.instrumentId
  other : book'.queue order.side.opposite = book.queue order.side.opposite
  split : ∃ front back, book.queue order.side = front ++ back ∧
    book'.queue order.side = front ++ [order] ++ back ∧
    (∀ o ∈ front, ¬ Levels.Prefers order.side (keyOf order) (keyOf o)) ∧
    ∀ o ∈ back, Levels.Prefers order.side (keyOf order) (keyOf o)

theorem push_spec {keyOf : Order D → D} {book : OrderBook D} (filed : Filed keyOf book)
    {order : Order D} {level' : PriceLevel D}
    (fresh : ∀ o ∈ book.queue order.side, o.identity ≠ order.identity)
    (h : ((book.levels order.side).getD (keyOf order) (PriceLevel.new (keyOf order))).pushBack
      order = .ok level') :
    Joined keyOf book order
      (book.setLevels order.side ((book.levels order.side).insert (keyOf order) level')) := by
  obtain ⟨wf', front, back, hq, hq', hf, hb⟩ := (filed.wf order.side).push order.side rfl fresh h
  have hd := filed.distinct order.side
  rw [queue, hq] at hd
  refine ⟨filed.setLevels wf' ?_, instrumentId_setLevels .., ?_, front, back, hq, ?_, hf, hb⟩
  · rw [hq']
    refine hd.insert (fun b hb => fresh b ?_)
    rw [queue, hq]
    exact hb
  · exact queue_setLevels_ne _ _ (Side.opposite_ne order.side)
  · rw [queue_setLevels, hq']

theorem Joined.mem {keyOf : Order D → D} {book book' : OrderBook D} {order : Order D}
    (joined : Joined keyOf book order book') {o : Order D} :
    o ∈ book'.queue order.side ↔ o ∈ book.queue order.side ∨ o = order := by
  obtain ⟨front, back, hq, hq', -⟩ := joined.split
  rw [hq, hq']
  simp only [List.mem_append, List.mem_singleton]
  constructor
  · rintro ((h | h) | h)
    · exact Or.inl (Or.inl h)
    · exact Or.inr h
    · exact Or.inl (Or.inr h)
  · rintro ((h | h) | h)
    · exact Or.inl (Or.inl h)
    · exact Or.inr h
    · exact Or.inl (Or.inr h)

theorem insert_spec {book book' : OrderBook D} (filed : Filed Order.effectivePrice book)
    {order : Order D} (fresh : ∀ o ∈ book.queue order.side, o.identity ≠ order.identity)
    (h : book.insert order = .ok book') : Joined Order.effectivePrice book order book' := by
  unfold insert at h
  obtain ⟨level', hlevel, h⟩ := Exec.bind_ok.mp h
  obtain rfl := Except.ok.inj h
  exact push_spec filed fresh hlevel

theorem insert_error [LawfulDecimal D] {book : OrderBook D}
    (filed : Filed Order.effectivePrice book) {order : Order D}
    (fresh : ∀ o ∈ book.queue order.side, o.identity ≠ order.identity) {p : Panic}
    (h : book.insert order = .error p) : p = .decimal ∨ p = .priorityExhausted := by
  unfold insert at h
  rcases Exec.bind_error.mp h with h | ⟨level', -, h⟩
  · refine PriceLevel.pushBack_error ((filed.wf order.side).getD_wf _).1 (fun o ho => fresh o ?_) h
    rw [queue, Levels.queue_of_getD order.side _ order.effectivePrice]
    simp [ho]
  · cases h

/-- What one fill changes of an order. -/
structure FillOf (order : Order D) (quantity price : D) (order' : Order D) : Prop
    extends Continues order order' where
  cum : Decimal.add order.cumQuantity quantity = .ok order'.cumQuantity
  average : averagePrice order quantity price order'.cumQuantity = .ok order'.avgPrice
  remaining : sub order.remaining quantity = .ok order'.remaining
  state : order'.state = if order'.remaining = 0 then .filled else .partialFill

theorem applyFill_spec {order order' : Order D} {quantity price : D}
    (h : applyFill order quantity price = .ok order') : FillOf order quantity price order' := by
  unfold applyFill at h
  obtain ⟨newCum, hcum, h⟩ := Exec.bind_ok.mp h
  obtain ⟨avgPrice, havg, h⟩ := Exec.bind_ok.mp h
  obtain ⟨remaining, hrem, h⟩ := Exec.bind_ok.mp h
  obtain rfl := Except.ok.inj h
  exact ⟨⟨rfl⟩, hcum, havg, hrem, rfl⟩

theorem averagePrice_error [LawfulDecimal D] {order : Order D} {quantity price newCum : D}
    {p : Panic} (h : averagePrice order quantity price newCum = .error p) : p = .decimal := by
  unfold averagePrice at h
  by_cases hz : newCum = 0
  · simp [hz, pure, Except.pure] at h
  · rw [if_neg hz] at h
    rcases Exec.bind_error.mp h with h | ⟨before, -, h⟩
    · exact (LawfulDecimal.mul_rounds _ _).panic p h
    rcases Exec.bind_error.mp h with h | ⟨now, -, h⟩
    · exact (LawfulDecimal.mul_rounds _ _).panic p h
    rcases Exec.bind_error.mp h with h | ⟨sum, -, h⟩
    · exact (LawfulDecimal.add_rounds _ _).panic p h
    · exact (LawfulDecimal.div_rounds _ _ hz).panic p h

theorem applyFill_error [LawfulDecimal D] {order : Order D} {quantity price : D} {p : Panic}
    (h : applyFill order quantity price = .error p) : p = .decimal := by
  unfold applyFill at h
  rcases Exec.bind_error.mp h with h | ⟨newCum, -, h⟩
  · exact (LawfulDecimal.add_rounds _ _).panic p h
  rcases Exec.bind_error.mp h with h | ⟨avgPrice, -, h⟩
  · exact averagePrice_error h
  rcases Exec.bind_error.mp h with h | ⟨remaining, -, h⟩
  · exact (LawfulDecimal.sub_rounds _ _).panic p h
  · cases h

/-- A fill of the best order of a side. -/
theorem settle_spec {keyOf : Order D → D} (side : Side) {levels levels' : Levels D}
    (hkeyOf : keyOf = Order.effectivePrice) (wf : Levels.WF keyOf levels)
    (distinct : Keyed.Distinct Order.identity (Levels.queue side levels))
    {top order : Order D} {rest : List (Order D)} {quantity : D}
    (hq : Levels.queue side levels = top :: rest) (hid : order.identity = top.identity)
    (h : settle levels order quantity = .ok levels') :
    Levels.WF keyOf levels' ∧ Levels.queue side levels' = keep order ++ rest := by
  subst hkeyOf
  unfold settle at h
  obtain ⟨level, hlevel, h⟩ := Exec.bind_ok.mp h
  obtain ⟨level', hfill, h⟩ := Exec.bind_ok.mp h
  obtain rfl := Except.ok.inj h
  cases hget : levels.get? order.effectivePrice with
  | none => simp [hget, unwrap] at hlevel
  | some l =>
    rw [hget, unwrap_some] at hlevel
    obtain rfl := Except.ok.inj hlevel
    obtain ⟨wf', pre, resting, post, hrest, -, hsplit, hq'⟩ := wf.fill side hget rfl hfill
    have same : ([] : List (Order D)) ++ top :: rest = pre ++ resting :: post := by
      rw [List.nil_append, ← hq, hsplit]
    rw [hq] at distinct
    have distinct' : Keyed.Distinct Order.identity ([] ++ top :: rest) := distinct
    obtain ⟨rfl, rfl, rfl⟩ := distinct'.split_unique same (hid.symm.trans hrest.symm)
    exact ⟨wf', by simpa using hq'⟩

theorem settle_error [LawfulDecimal D] (side : Side) {levels : Levels D}
    (wf : Levels.WF Order.effectivePrice levels) {top order : Order D} {rest : List (Order D)}
    {quantity : D} (hq : Levels.queue side levels = top :: rest)
    (hid : order.identity = top.identity) (hkey : order.effectivePrice = top.effectivePrice)
    {p : Panic} (h : settle levels order quantity = .error p) : p = .decimal := by
  have rests : top ∈ Levels.queue side levels := by
    rw [hq]
    exact List.mem_cons_self
  obtain ⟨level, hget, hm⟩ := wf.get_of_mem rests
  rw [← hkey] at hget
  unfold settle at h
  simp only [hget, unwrap_some, Exec.ok_bind] at h
  rcases Exec.bind_error.mp h with h | ⟨level', -, h⟩
  · exact PriceLevel.updateFill_error (wf.level _ _ hget) ⟨top, hm, hid.symm⟩ h
  · cases h

/-- The state in which the tiered policy rests an order. -/
def restState (order : Order D) : Order D :=
  { order with state := if order.cumQuantity = 0 then .booked else .partialFill }

theorem restState_continues (order : Order D) : Continues order (restState order) := ⟨rfl⟩

theorem insertOnly_spec {book : OrderBook D} (filed : Filed Order.price book) {order : Order D}
    (positive : 0 < order.remaining)
    (fresh : ∀ o ∈ book.queue order.side, o.identity ≠ order.identity)
    {result : Except TieredBookError (Order D × OrderBook D)}
    (h : book.insertOnly order = .ok result) :
    ∃ book', result = .ok (restState order, book') ∧
      Joined Order.price book (restState order) book' := by
  have hdup : HashMap.contains ((book.levels order.side).getD order.price
      (PriceLevel.new order.price)).index order.identity = false := by
    rw [HashMap.contains, Option.isSome_eq_false_iff, Option.isNone_iff_eq_none,
      Option.eq_none_iff_forall_ne_some]
    intro key hk
    obtain ⟨hwf, -, -⟩ := (filed.wf order.side).getD_wf order.price
    obtain ⟨o, ho, hid⟩ := (hwf.indexed _ _).mp hk
    refine fresh o ?_ hid
    rw [queue, Levels.queue_of_getD order.side _ order.price]
    simp [PriceLevel.mem_queue.mpr ⟨key, ho⟩]
  unfold insertOnly at h
  rw [if_neg (not_le.mpr positive)] at h
  change (if HashMap.contains ((book.levels order.side).getD order.price
    (PriceLevel.new order.price)).index order.identity = true then _ else _) = _ at h
  rw [hdup, if_neg (by decide)] at h
  obtain ⟨level', hlevel, h⟩ := Exec.bind_ok.mp h
  obtain rfl := Except.ok.inj h
  have fresh' : ∀ o ∈ book.queue (restState order).side,
      o.identity ≠ (restState order).identity := fresh
  exact ⟨_, rfl, push_spec filed fresh' hlevel⟩

theorem insertOnly_error [LawfulDecimal D] {book : OrderBook D} (filed : Filed Order.price book)
    {order : Order D} (fresh : ∀ o ∈ book.queue order.side, o.identity ≠ order.identity)
    {p : Panic} (h : book.insertOnly order = .error p) :
    p = .decimal ∨ p = .priorityExhausted := by
  unfold insertOnly at h
  split at h
  · cases h
  · change (if HashMap.contains ((book.levels order.side).getD order.price
      (PriceLevel.new order.price)).index order.identity = true then _ else _) = _ at h
    split at h
    · cases h
    · rcases Exec.bind_error.mp h with h | ⟨level', -, h⟩
      · have wf := ((filed.wf order.side).getD_wf order.price).1
        have fresh' : ∀ o ∈ ((book.levels order.side).getD order.price
            (PriceLevel.new order.price)).queue, o.identity ≠ (restState order).identity := by
          intro o ho
          refine fresh o ?_
          rw [queue, Levels.queue_of_getD order.side _ order.price]
          simp [ho]
        exact PriceLevel.pushBack_error wf fresh' h
      · cases h

/-- The effect of one fixed fill of a resting order. -/
structure Executed (book : OrderBook D) (side : Side) (o filled : Order D) (book' : OrderBook D) :
    Prop where
  filed : Filed Order.price book'
  instrument : book'.instrumentId = book.instrumentId
  other : book'.queue side.opposite = book.queue side.opposite
  split : ∃ pre post, book.queue side = pre ++ o :: post ∧
    book'.queue side = pre ++ keep filled ++ post

/-- A valid fill of a resting order is applied to it. -/
theorem execute_eq {book : OrderBook D} (filed : Filed Order.price book) {side : Side}
    {o : Order D} (ho : o ∈ book.queue side) (active : o.state.isActive) {qty price : D}
    (hqty : 0 < qty) (hle : qty ≤ o.remaining) (hprice : 0 < price) :
    ∃ level, (book.levels side).get? o.price = some level ∧ o ∈ level.queue ∧
      book.execute o.sessionId o.id side o.price qty price = (do
        let filled ← applyFill o qty price
        let level ← level.updateFill filled qty
        pure (.ok (filled, book.setLevels side
          (storeLevel (book.levels side) o.price level)))) := by
  obtain ⟨level, hget, hm⟩ := (filed.wf side).get_of_mem ho
  have hloc : level.locate o.sessionId o.id = some o :=
    ((filed.wf side).level _ level hget).locate_some.mpr ⟨hm, rfl⟩
  refine ⟨level, hget, hm, ?_⟩
  have hguard : ¬ (qty ≤ 0 ∨ price ≤ 0) := by
    rintro (h | h)
    · exact not_le.mpr hqty h
    · exact not_le.mpr hprice h
  unfold execute
  rw [if_neg hguard]
  simp only [hget, hloc, active, Bool.not_true, Bool.false_eq_true, if_false,
    if_neg (not_lt.mpr hle)]

theorem execute_spec {book : OrderBook D} (filed : Filed Order.price book) {side : Side}
    {o : Order D} (ho : o ∈ book.queue side) (active : o.state.isActive) {qty price : D}
    (hqty : 0 < qty) (hle : qty ≤ o.remaining) (hprice : 0 < price)
    {result : Except TieredBookError (Order D × OrderBook D)}
    (h : book.execute o.sessionId o.id side o.price qty price = .ok result) :
    ∃ filled book', result = .ok (filled, book') ∧ applyFill o qty price = .ok filled ∧
      Executed book side o filled book' := by
  obtain ⟨level, hget, -, heq⟩ := execute_eq filed ho active hqty hle hprice
  rw [heq] at h
  obtain ⟨filled, hfill, h⟩ := Exec.bind_ok.mp h
  obtain ⟨level', hlevel, h⟩ := Exec.bind_ok.mp h
  obtain rfl := Except.ok.inj h
  have f := applyFill_spec hfill
  obtain ⟨wf', pre, resting, post, hid, -, hq, hq'⟩ :=
    (filed.wf side).fill side hget f.price hlevel
  have hd := filed.distinct side
  obtain rfl : resting = o := hd.eq_of_key (by rw [queue, hq]; simp) ho
    (hid.trans f.identity)
  refine ⟨filled, _, rfl, hfill, filed.setLevels wf' ?_, instrumentId_setLevels .., ?_,
    pre, post, hq, ?_⟩
  · rw [hq']
    rw [queue, hq] at hd
    refine hd.replace ?_
    rcases keep_cases filled with ⟨-, hk⟩ | ⟨-, hk⟩
    · exact Or.inl hk
    · exact Or.inr ⟨filled, hk, f.identity⟩
  · exact queue_setLevels_ne _ _ (Side.opposite_ne side)
  · rw [queue_setLevels, hq']

theorem execute_error [LawfulDecimal D] {book : OrderBook D} (filed : Filed Order.price book)
    {side : Side} {o : Order D} (ho : o ∈ book.queue side) (active : o.state.isActive)
    {qty price : D} (hqty : 0 < qty) (hle : qty ≤ o.remaining) (hprice : 0 < price) {p : Panic}
    (h : book.execute o.sessionId o.id side o.price qty price = .error p) : p = .decimal := by
  obtain ⟨level, hget, hm, heq⟩ := execute_eq filed ho active hqty hle hprice
  rw [heq] at h
  rcases Exec.bind_error.mp h with h | ⟨filled, hfill, h⟩
  · exact applyFill_error h
  rcases Exec.bind_error.mp h with h | ⟨level', -, h⟩
  · exact PriceLevel.updateFill_error ((filed.wf side).level _ level hget)
      ⟨o, hm, (applyFill_spec hfill).identity.symm⟩ h
  · cases h

theorem Executed.mem {book book' : OrderBook D} {side : Side} {o filled : Order D}
    (filed : Filed Order.price book) (e : Executed book side o filled book') {x : Order D} :
    x ∈ book'.queue side ↔
      (x ∈ book.queue side ∧ x.identity ≠ o.identity) ∨ x ∈ keep filled := by
  obtain ⟨pre, post, hq, hq'⟩ := e.split
  have hd := filed.distinct side
  rw [hq] at hd
  rw [hq, hq']
  exact hd.mem_replace _ _

end OrderBook

end RustTrader
