import RustTrader.Order
import RustTrader.Library.SortedMap
import RustTrader.Library.HashMap

/-!
# Price levels

One price level of `core/orderbook.rs`: the resting orders keyed by a growing
priority, an index from identity to priority, and the aggregate quantity. The
queue of a level is its orders in priority order, which is arrival order
because priorities are only handed out at the back.
-/

namespace RustTrader

open Decimal

/-- The largest `i64`. -/
def i64Max : Int := 2 ^ 63 - 1

structure PriceLevel (D : Type) where
  price : D
  orders : SortedMap Int (Order D)
  index : HashMap (String × OrderId) Int
  total : D
  next : Int
  deriving DecidableEq

namespace PriceLevel

variable {D : Type} [Decimal D]

def new (price : D) : PriceLevel D where
  price := price
  orders := ∅
  index := ∅
  total := 0
  next := 0

def top (level : PriceLevel D) : Exec (Order D) := do
  let entry ← unwrap level.orders.first?
  pure entry.2

def insertAt (level : PriceLevel D) (key : Int) (order : Order D) : Exec (PriceLevel D) := do
  if HashMap.contains level.index order.identity then
    throw .duplicateOrder
  let total ← add level.total order.remaining
  pure { level with
    total := total
    index := HashMap.set level.index order.identity key
    orders := level.orders.insert key order }

def pushBack (level : PriceLevel D) (order : Order D) : Exec (PriceLevel D) := do
  let key := level.next
  if key = i64Max then
    throw .priorityExhausted
  insertAt { level with next := key + 1 } key order

def locate (level : PriceLevel D) (session : String) (id : OrderId) : Option (Order D) := do
  let key ← HashMap.get? level.index (session, id)
  level.orders.get? key

/-- `none` is the source's `Err(())`: no such order on this level. -/
def remove (level : PriceLevel D) (session : String) (id : OrderId) :
    Exec (Option (Order D × PriceLevel D)) :=
  match HashMap.get? level.index (session, id) with
  | none => pure none
  | some key => do
    let order ← unwrap (level.orders.get? key)
    let total ← sub level.total order.remaining
    pure (some (order, { level with
      index := HashMap.remove level.index (session, id)
      orders := level.orders.erase key
      total := total }))

def updateFill (level : PriceLevel D) (order : Order D) (quantity : D) : Exec (PriceLevel D) := do
  if order.remaining = 0 then
    let removed ← level.remove order.sessionId order.id
    let (_, level) ← unwrap removed
    pure level
  else
    let total ← sub level.total quantity
    let key ← unwrap (HashMap.get? level.index (order.sessionId, order.id))
    let _ ← unwrap (level.orders.get? key)
    pure { level with total := total, orders := level.orders.insert key order }

/-- The resting orders, first in first out. -/
def queue (level : PriceLevel D) : List (Order D) := level.orders.values

/-- The index is the inverse of the order table, and every priority in use is
below the next one. -/
structure WF (level : PriceLevel D) : Prop where
  indexed : ∀ identity key, HashMap.get? level.index identity = some key ↔
    ∃ order, level.orders.get? key = some order ∧ order.identity = identity
  fresh : ∀ key order, level.orders.get? key = some order → key < level.next

omit [Decimal D] in
theorem mem_queue {level : PriceLevel D} {order : Order D} :
    order ∈ level.queue ↔ ∃ key, level.orders.get? key = some order := by
  simp only [queue, SortedMap.values, List.mem_map, SortedMap.get?_eq_some]
  constructor
  · rintro ⟨e, he, rfl⟩
    exact ⟨e.1, he⟩
  · rintro ⟨key, h⟩
    exact ⟨_, h, rfl⟩

theorem new_wf (price : D) : (new price).WF where
  indexed := by intro identity key; simp [new]
  fresh := by intro key order h; simp [new] at h

@[simp] theorem queue_new (price : D) : (new price).queue = [] := rfl

omit [Decimal D] in
/-- A priority determines the identity stored under it, and conversely. -/
theorem WF.key_unique {level : PriceLevel D} (wf : level.WF) {k k' : Int} {o o' : Order D}
    (h : level.orders.get? k = some o) (h' : level.orders.get? k' = some o')
    (same : o.identity = o'.identity) : k = k' := by
  have hk := (wf.indexed o.identity k).mpr ⟨o, h, rfl⟩
  have hk' := (wf.indexed o.identity k').mpr ⟨o', h', same.symm⟩
  exact Option.some.inj (hk.symm.trans hk')

omit [Decimal D] in
theorem WF.queue_nodup {level : PriceLevel D} (wf : level.WF) :
    (level.queue.map Order.identity).Nodup := by
  simp only [queue, SortedMap.values, List.map_map]
  rw [List.Nodup, List.pairwise_map]
  refine level.orders.ordered.imp_of_mem ?_
  intro a b ha hb hlt same
  have hk := wf.key_unique (SortedMap.get?_eq_some.mpr ha) (SortedMap.get?_eq_some.mpr hb) same
  rw [hk] at hlt
  exact lt_irrefl _ hlt

omit [Decimal D] in
theorem queue_insert {level : PriceLevel D} {key : Int} {order : Order D} :
    (level.orders.insert key order).values =
      (level.orders.below key).map Prod.snd ++ order ::
        (level.orders.above key).map Prod.snd := by
  simp [SortedMap.values, SortedMap.entries_insert]

omit [Decimal D] in
theorem queue_split {level : PriceLevel D} {key : Int} {order : Order D}
    (h : level.orders.get? key = some order) :
    level.queue = (level.orders.below key).map Prod.snd ++ order ::
      (level.orders.above key).map Prod.snd := by
  simp [queue, SortedMap.values, SortedMap.entries_of_get? h]

omit [Decimal D] in
theorem WF.locate_some {level : PriceLevel D} (wf : level.WF) {session : String} {id : OrderId}
    {order : Order D} : level.locate session id = some order ↔
      order ∈ level.queue ∧ order.identity = (session, id) := by
  simp only [locate, Option.bind_eq_bind, Option.bind_eq_some_iff, mem_queue]
  constructor
  · rintro ⟨key, hk, ho⟩
    obtain ⟨o, ho', hid⟩ := (wf.indexed _ _).mp hk
    obtain rfl := Option.some.inj (ho.symm.trans ho')
    exact ⟨⟨key, ho⟩, hid⟩
  · rintro ⟨⟨key, ho⟩, hid⟩
    exact ⟨key, (wf.indexed _ _).mpr ⟨order, ho, hid⟩, ho⟩

omit [Decimal D] in
theorem WF.locate_none {level : PriceLevel D} (wf : level.WF) {session : String} {id : OrderId} :
    level.locate session id = none ↔ ∀ o ∈ level.queue, o.identity ≠ (session, id) := by
  rw [Option.eq_none_iff_forall_ne_some]
  constructor
  · intro h o ho hid
    exact h o (wf.locate_some.mpr ⟨ho, hid⟩)
  · intro h o ho
    obtain ⟨hm, hid⟩ := wf.locate_some.mp ho
    exact h o hm hid

/-- The effect of a successful `pushBack`. -/
structure Pushed (level : PriceLevel D) (order : Order D) (level' : PriceLevel D) : Prop where
  wf : level'.WF
  queue : level'.queue = level.queue ++ [order]
  price : level'.price = level.price
  total : add level.total order.remaining = .ok level'.total

theorem pushBack_spec {level level' : PriceLevel D} {order : Order D} (wf : level.WF)
    (fresh : ∀ o ∈ level.queue, o.identity ≠ order.identity)
    (h : level.pushBack order = .ok level') : Pushed level order level' := by
  have low : level.orders.below level.next = level.orders.entries :=
    List.filter_eq_self.mpr (fun e he => by
      simpa using wf.fresh e.1 e.2 (SortedMap.get?_eq_some.mpr he))
  have high : level.orders.above level.next = [] :=
    List.filter_eq_nil_iff.mpr (fun e he => by
      simpa using (wf.fresh e.1 e.2 (SortedMap.get?_eq_some.mpr he)).le)
  have absent : level.orders.get? level.next = none := by
    rw [Option.eq_none_iff_forall_ne_some]
    intro o ho
    exact lt_irrefl _ (wf.fresh _ _ ho)
  unfold pushBack insertAt at h
  by_cases hmax : level.next = i64Max
  · simp [hmax, throw, throwThe, MonadExceptOf.throw] at h
  by_cases hdup : HashMap.contains level.index order.identity
  · simp [hmax, hdup, throw, throwThe, MonadExceptOf.throw] at h
  simp only [hmax, hdup, if_false, Bool.false_eq_true] at h
  obtain ⟨total, htotal, h⟩ := Exec.bind_ok.mp h
  obtain rfl := Except.ok.inj h
  refine ⟨⟨?_, ?_⟩, ?_, rfl, htotal⟩
  · intro identity key
    simp only [HashMap.get?_set, SortedMap.get?_insert]
    by_cases hid : identity = order.identity
    · subst hid
      rw [if_pos rfl]
      constructor
      · intro hk
        obtain rfl := Option.some.inj hk
        exact ⟨order, by rw [if_pos rfl], rfl⟩
      · rintro ⟨o, ho, hid⟩
        by_cases hk : key = level.next
        · rw [hk]
        · rw [if_neg hk] at ho
          exact absurd hid (fresh o (mem_queue.mpr ⟨key, ho⟩))
    · rw [if_neg hid, wf.indexed]
      constructor
      · rintro ⟨o, ho, hoid⟩
        have hk : key ≠ level.next := by
          rintro rfl
          rw [absent] at ho
          cases ho
        exact ⟨o, by rw [if_neg hk]; exact ho, hoid⟩
      · rintro ⟨o, ho, hoid⟩
        by_cases hk : key = level.next
        · rw [if_pos hk] at ho
          obtain rfl := Option.some.inj ho
          exact absurd hoid.symm hid
        · exact ⟨o, by rwa [if_neg hk] at ho, hoid⟩
  · intro key o ho
    simp only [SortedMap.get?_insert] at ho
    by_cases hk : key = level.next
    · simp [hk]
    · rw [if_neg hk] at ho
      have := wf.fresh key o ho
      simp only
      omega
  · simp [queue, SortedMap.values, SortedMap.entries_insert, low, high]

theorem pushBack_error {level : PriceLevel D} [LawfulDecimal D] {order : Order D} (wf : level.WF)
    (fresh : ∀ o ∈ level.queue, o.identity ≠ order.identity) {p : Panic}
    (h : level.pushBack order = .error p) : p = .decimal ∨ p = .priorityExhausted := by
  have hdup : HashMap.contains level.index order.identity = false := by
    rw [HashMap.contains, Option.isSome_eq_false_iff, Option.isNone_iff_eq_none,
      Option.eq_none_iff_forall_ne_some]
    intro key hk
    obtain ⟨o, ho, hid⟩ := (wf.indexed _ _).mp hk
    exact fresh o (mem_queue.mpr ⟨key, ho⟩) hid
  unfold pushBack insertAt at h
  by_cases hmax : level.next = i64Max
  · simp only [hmax, if_true, throw, throwThe, MonadExceptOf.throw, Exec.error_bind] at h
    exact Or.inr (Except.error.inj h).symm
  · simp only [hmax, hdup, if_false, Bool.false_eq_true] at h
    rcases Exec.bind_error.mp h with h | ⟨total, -, h⟩
    · exact Or.inl ((LawfulDecimal.add_rounds _ _).panic p h)
    · cases h

/-- The effect of a successful removal of `order`. -/
structure Removed (level : PriceLevel D) (order : Order D) (level' : PriceLevel D) : Prop where
  wf : level'.WF
  price : level'.price = level.price
  next : level'.next = level.next
  total : sub level.total order.remaining = .ok level'.total
  queue : ∃ front back, level.queue = front ++ order :: back ∧ level'.queue = front ++ back

theorem remove_spec {level : PriceLevel D} (wf : level.WF) {session : String} {id : OrderId}
    {result : Option (Order D × PriceLevel D)} (h : level.remove session id = .ok result) :
    result.map Prod.fst = level.locate session id ∧
      ∀ order level', result = some (order, level') → Removed level order level' := by
  unfold remove at h
  cases hidx : HashMap.get? level.index (session, id) with
  | none =>
    simp only [hidx] at h
    obtain rfl := Except.ok.inj h
    exact ⟨by simp [locate, hidx], by intro o l hs; cases hs⟩
  | some key =>
    simp only [hidx] at h
    obtain ⟨order, horder, hid⟩ := (wf.indexed _ _).mp hidx
    simp only [horder, unwrap_some, Exec.ok_bind] at h
    obtain ⟨total, htotal, h⟩ := Exec.bind_ok.mp h
    obtain rfl := Except.ok.inj h
    refine ⟨by simp [locate, hidx, horder], ?_⟩
    intro o l' hs
    obtain ⟨rfl, rfl⟩ := Prod.mk.inj (Option.some.inj hs)
    refine ⟨⟨?_, ?_⟩, rfl, rfl, htotal, _, _, queue_split horder, ?_⟩
    · intro identity k
      simp only [HashMap.get?_remove, SortedMap.get?_erase]
      by_cases heq : identity = (session, id)
      · subst heq
        simp only [if_pos, reduceCtorEq, false_iff]
        rintro ⟨o', ho', hid'⟩
        by_cases hk : k = key
        · simp [hk] at ho'
        · rw [if_neg hk] at ho'
          exact hk (wf.key_unique ho' horder (hid'.trans hid.symm))
      · rw [if_neg heq, wf.indexed]
        constructor
        · rintro ⟨o', ho', hid'⟩
          have hk : k ≠ key := by
            rintro rfl
            obtain rfl := Option.some.inj (ho'.symm.trans horder)
            exact heq (hid'.symm.trans hid)
          exact ⟨o', by rw [if_neg hk]; exact ho', hid'⟩
        · rintro ⟨o', ho', hid'⟩
          by_cases hk : k = key
          · simp [hk] at ho'
          · exact ⟨o', by rwa [if_neg hk] at ho', hid'⟩
    · intro k o' ho'
      simp only [SortedMap.get?_erase] at ho'
      by_cases hk : k = key
      · simp [hk] at ho'
      · rw [if_neg hk] at ho'
        exact wf.fresh k o' ho'
    · simp [queue, SortedMap.values, SortedMap.entries_erase]

theorem remove_error {level : PriceLevel D} [LawfulDecimal D] (wf : level.WF) {session : String}
    {id : OrderId} {p : Panic} (h : level.remove session id = .error p) : p = .decimal := by
  unfold remove at h
  cases hidx : HashMap.get? level.index (session, id) with
  | none => simp [hidx, pure, Except.pure] at h
  | some key =>
    obtain ⟨order, horder, hid⟩ := (wf.indexed _ _).mp hidx
    simp only [hidx, horder, unwrap_some, Exec.ok_bind] at h
    rcases Exec.bind_error.mp h with h | ⟨total, -, h⟩
    · exact (LawfulDecimal.sub_rounds _ _).panic p h
    · cases h

/-- The effect of `updateFill`: the resting order is rewritten in place, or
leaves once nothing of it remains. -/
structure Filled (level : PriceLevel D) (order : Order D) (quantity : D)
    (level' : PriceLevel D) : Prop where
  wf : level'.WF
  price : level'.price = level.price
  queue : ∃ front resting back, resting.identity = order.identity ∧
    level.queue = front ++ resting :: back ∧
    level'.queue = front ++ (if order.remaining = 0 then [] else [order]) ++ back ∧
    sub level.total (if order.remaining = 0 then resting.remaining else quantity) =
      .ok level'.total

theorem updateFill_spec {level level' : PriceLevel D} {order : Order D} {quantity : D}
    (wf : level.WF) (h : level.updateFill order quantity = .ok level') :
    Filled level order quantity level' := by
  unfold updateFill at h
  by_cases hzero : order.remaining = 0
  · simp only [hzero, if_true] at h
    obtain ⟨removed, hremoved, h⟩ := Exec.bind_ok.mp h
    cases removed with
    | none => simp [unwrap] at h
    | some pair =>
      obtain ⟨o, l⟩ := pair
      obtain rfl := Except.ok.inj h
      obtain ⟨hloc, hspec⟩ := remove_spec wf hremoved
      have hs := hspec o l rfl
      obtain ⟨front, back, hq, hq'⟩ := hs.queue
      have hid := (wf.locate_some.mp hloc.symm).2
      exact ⟨hs.wf, hs.price, front, o, back, hid, hq, by simp [hq', hzero],
        by simpa [hzero] using hs.total⟩
  · simp only [hzero, if_false] at h
    obtain ⟨total, htotal, h⟩ := Exec.bind_ok.mp h
    cases hidx : HashMap.get? level.index (order.sessionId, order.id) with
    | none => simp [hidx, unwrap] at h
    | some key =>
      obtain ⟨resting, hresting, hid⟩ := (wf.indexed _ _).mp hidx
      simp only [hidx, hresting, unwrap_some, Exec.ok_bind] at h
      obtain rfl := Except.ok.inj h
      refine ⟨⟨?_, ?_⟩, rfl, _, resting, _, hid, queue_split hresting, ?_, by simpa [hzero]⟩
      · intro identity k
        rw [wf.indexed]
        simp only [SortedMap.get?_insert]
        by_cases hk : k = key
        · subst hk
          rw [if_pos rfl]
          constructor
          · rintro ⟨o', ho', hid'⟩
            obtain rfl := Option.some.inj (ho'.symm.trans hresting)
            exact ⟨order, rfl, hid.symm.trans hid'⟩
          · rintro ⟨o', ho', hid'⟩
            obtain rfl := Option.some.inj ho'
            exact ⟨resting, hresting, hid.trans hid'⟩
        · rw [if_neg hk]
      · intro k o' ho'
        simp only [SortedMap.get?_insert] at ho'
        by_cases hk : k = key
        · subst hk
          exact wf.fresh k resting hresting
        · rw [if_neg hk] at ho'
          exact wf.fresh k o' ho'
      · simp [queue, queue_insert, hzero]

theorem updateFill_error {level : PriceLevel D} [LawfulDecimal D] {order : Order D} {quantity : D}
    (wf : level.WF) (present : ∃ o ∈ level.queue, o.identity = order.identity) {p : Panic}
    (h : level.updateFill order quantity = .error p) : p = .decimal := by
  obtain ⟨o, ho, hid⟩ := present
  obtain ⟨key, hkey⟩ := mem_queue.mp ho
  have hidx := (wf.indexed (order.sessionId, order.id) key).mpr ⟨o, hkey, hid⟩
  unfold updateFill at h
  by_cases hzero : order.remaining = 0
  · simp only [hzero, if_true] at h
    rcases Exec.bind_error.mp h with h | ⟨removed, hremoved, h⟩
    · exact remove_error wf h
    · have hloc := (remove_spec wf hremoved).1
      cases removed with
      | none => simp [locate, hidx, hkey] at hloc
      | some pair => cases h
  · simp only [hzero, if_false, hidx, hkey, unwrap_some, Exec.ok_bind] at h
    rcases Exec.bind_error.mp h with h | ⟨total, -, h⟩
    · exact (LawfulDecimal.sub_rounds _ _).panic p h
    · cases h

omit [Decimal D] in
theorem WF.top_of_queue {level : PriceLevel D} {order : Order D} {rest : List (Order D)}
    (h : level.queue = order :: rest) : level.top = .ok order := by
  unfold top
  simp only [queue, SortedMap.values] at h
  cases he : level.orders.entries with
  | nil => simp [he] at h
  | cons e es =>
    simp only [he, List.map_cons, List.cons.injEq] at h
    simp [SortedMap.first?, he, h.1, pure, Except.pure]

omit [Decimal D] in
theorem isEmpty_iff {level : PriceLevel D} : level.orders.isEmpty = true ↔ level.queue = [] := by
  simp [SortedMap.isEmpty, queue, SortedMap.values]

end PriceLevel

end RustTrader
