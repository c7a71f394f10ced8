import Mathlib.Logic.Function.Basic
import RustTrader.Matching
import RustTrader.Engine

/-!
# Books and their mirror

Every resting order is stored twice, in a book and in a session. `View` keeps
what the two copies have in common: a book per instrument, a record per order
and the legs of each quote pair. `Coherent` says that the copies agree, up to
one order that an operation has taken out of the book and not put back yet.
There is one preservation lemma for each kind of change an operation makes.
-/

namespace RustTrader

open Decimal

structure View (D : Type) [Decimal D] where
  book : Int → OrderBook D
  record : String → OrderId → Option (Order D)
  leg : String → Int → Side → Option (Order D)
  arrival : Nat

/-- The identity of an order that is out of its book for the moment. -/
abbrev Gap := Option (String × OrderId)

namespace View

variable {D : Type} [Decimal D]

def queue (v : View D) (instrumentId : Int) (side : Side) : List (Order D) :=
  (v.book instrumentId).queue side

/-- The session holds a leg of the same side and price. -/
def Legged (v : View D) (o : Order D) : Prop :=
  ∃ leg, v.leg o.sessionId o.instrumentId o.side = some leg ∧ leg.side = o.side ∧
    leg.price = o.price

/-- What a session keeps of a resting order: a leg of a quote, otherwise an
equal record. -/
def Owned (v : View D) (o : Order D) : Prop :=
  if o.id = quoteOrderId then v.Legged o else v.record o.sessionId o.id = some o

def setBook (v : View D) (instrumentId : Int) (book : OrderBook D) : View D :=
  { v with book := Function.update v.book instrumentId book }

def setRecord (v : View D) (session : String) (id : OrderId) (record : Option (Order D)) :
    View D :=
  { v with record := fun s i => if s = session ∧ i = id then record else v.record s i }

end View

/-- What holds of an order resting on a side of a book, by itself. -/
structure Fit {D : Type} [Decimal D] (instrumentId : Int) (side : Side) (o : Order D) : Prop where
  side : o.side = side
  instrument : o.instrumentId = instrumentId
  positive : 0 < o.remaining
  active : o.state.isActive
  price : 0 < o.price

/-- A book of the real policy between two operations. -/
structure RealBook {D : Type} [Decimal D] (book : OrderBook D) (arrival : Nat) : Prop where
  uncrossed : book.Uncrossed
  limit : ∀ side, ∀ o ∈ book.queue side, o.orderType = .limit
  seniority : ∀ side,
    (book.queue side).Pairwise (fun a b => a.price = b.price → a.arrival < b.arrival)
  arrived : ∀ side, ∀ o ∈ book.queue side, o.arrival ≤ arrival

/-- Books and sessions agree, except that the order under `gap` rests nowhere. -/
structure Coherent {D : Type} [Decimal D] (policy : FillPolicy) (v : View D) (gap : Gap) :
    Prop where
  filed : ∀ i, OrderBook.Filed Order.price (v.book i)
  instrument : ∀ i, (v.book i).instrumentId = i
  fit : ∀ i side, ∀ o ∈ v.queue i side, Fit i side o
  owned : ∀ i side, ∀ o ∈ v.queue i side, v.Owned o
  rests : ∀ s id r, v.record s id = some r → gap ≠ some (s, id) → r.state.isActive →
    r ∈ v.queue r.instrumentId r.side
  keyed : ∀ s id r, v.record s id = some r → r.sessionId = s ∧ r.id = id ∧ id ≠ quoteOrderId
  legs : ∀ s i side leg, v.leg s i side = some leg → leg.id = quoteOrderId ∧ leg.side = side
  absent : ∀ x, gap = some x → ∀ i side, ∀ o ∈ v.queue i side, o.identity ≠ x
  real : policy = .real → ∀ i, RealBook (v.book i) v.arrival
  tiered : policy = .tiered → ∀ i side, ∀ o ∈ v.queue i side, o.id ≠ quoteOrderId

namespace View

variable {D : Type} [Decimal D] {v : View D}

theorem queue_setBook (v : View D) (instrumentId : Int) (book : OrderBook D) (i : Int)
    (side : Side) : (v.setBook instrumentId book).queue i side =
      if i = instrumentId then book.queue side else v.queue i side := by
  by_cases h : i = instrumentId
  · subst h
    simp [queue, setBook]
  · simp [queue, setBook, h]

theorem book_setBook (v : View D) (instrumentId : Int) (book : OrderBook D) (i : Int) :
    (v.setBook instrumentId book).book i = if i = instrumentId then book else v.book i := by
  by_cases h : i = instrumentId
  · subst h
    simp [setBook]
  · simp [setBook, h]

/-- What holds of every book and of the book that is stored holds of every book
afterwards. -/
theorem setBook_each {P : Int → OrderBook D → Prop} {instrumentId : Int} {book : OrderBook D}
    (each : ∀ i, P i (v.book i)) (stored : P instrumentId book) (i : Int) :
    P i ((v.setBook instrumentId book).book i) := by
  rw [book_setBook]
  split
  · rename_i h
    exact h ▸ stored
  · exact each i

theorem Owned.record {o : Order D} (h : v.Owned o) (hid : o.id ≠ quoteOrderId) :
    v.record o.sessionId o.id = some o := by
  unfold Owned at h
  rwa [if_neg hid] at h

theorem Owned.legged {o : Order D} (h : v.Owned o) (hid : o.id = quoteOrderId) : v.Legged o := by
  unfold Owned at h
  rwa [if_pos hid] at h

theorem owned_of_legged {o : Order D} (h : v.Legged o) (hid : o.id = quoteOrderId) :
    v.Owned o := by
  unfold Owned
  rwa [if_pos hid]

theorem Legged.continues {o o' : Order D} (h : v.Legged o) (c : Continues o o') : v.Legged o' := by
  unfold Legged at *
  rw [(Prod.mk.inj c.identity).1, c.instrumentId, c.side, c.price]
  exact h

theorem owned_of_record {o : Order D} (h : v.record o.sessionId o.id = some o)
    (hid : o.id ≠ quoteOrderId) : v.Owned o := by
  unfold Owned
  rwa [if_neg hid]

end View

namespace Coherent

variable {D : Type} [Decimal D] {policy : FillPolicy} {v : View D} {gap : Gap}

theorem empty (policy : FillPolicy) (arrival : Nat) :
    Coherent (D := D) policy ⟨OrderBook.new, fun _ _ => none, fun _ _ _ => none, arrival⟩ none where
  filed := fun i => OrderBook.new_filed _ i
  instrument := fun _ => rfl
  fit := by intro i side o ho; simp [View.queue] at ho
  owned := by intro i side o ho; simp [View.queue] at ho
  rests := by intro s id r h; cases h
  keyed := by intro s id r h; cases h
  legs := by intro s i side leg h; cases h
  absent := by intro x h; cases h
  real := by
    intro _ i
    refine ⟨?_, ?_, ?_, ?_⟩
    · intro bid hb; simp at hb
    · intro side o ho; simp at ho
    · intro side; simp
    · intro side o ho; simp at ho
  tiered := by intro _ i side o ho; simp [View.queue] at ho

/-- An identity that is not that of a quote rests in one place only. -/
theorem place_unique (c : Coherent policy v gap) {i i' : Int} {side side' : Side} {o o' : Order D}
    (h : o ∈ v.queue i side) (h' : o' ∈ v.queue i' side') (same : o.identity = o'.identity)
    (hid : o.id ≠ quoteOrderId) : o = o' ∧ i = i' ∧ side = side' := by
  obtain ⟨hs, hi⟩ := Prod.mk.inj same
  have ho := (c.owned i side o h).record hid
  have ho' := (c.owned i' side' o' h').record (hi ▸ hid)
  rw [← hs, ← hi, ho] at ho'
  obtain rfl := Option.some.inj ho'
  have f := c.fit i side o h
  have f' := c.fit i' side' o h'
  exact ⟨rfl, f.instrument.symm.trans f'.instrument, f.side.symm.trans f'.side⟩

/-- The order of an active record, in its book. -/
theorem mem_of_active (c : Coherent policy v none) {s : String} {id : OrderId} {r : Order D}
    (h : v.record s id = some r) (active : r.state.isActive) :
    r ∈ v.queue r.instrumentId r.side := c.rests s id r h (by simp) active

/-- In a real book an order is filed by its effective price as well. -/
theorem filed_effective (c : Coherent .real v gap) (i : Int) :
    OrderBook.Filed Order.effectivePrice (v.book i) where
  wf := by
    intro side
    refine ((c.filed i).wf side).congr side ?_
    intro o ho
    simp [Order.effectivePrice, (c.real rfl i).limit side o ho]
  distinct := (c.filed i).distinct

theorem mem_leave (c : Coherent policy v gap) {i : Int} {side : Side} {o : Order D}
    {book' : OrderBook D} (left : OrderBook.Left Order.price (v.book i) side o book') {j : Int}
    {side' : Side} {x : Order D} : x ∈ (v.setBook i book').queue j side' ↔
      x ∈ v.queue j side' ∧ (j = i → side' = side → x.identity ≠ o.identity) := by
  rw [View.queue_setBook]
  by_cases hj : j = i
  · subst hj
    rw [if_pos rfl]
    rcases OrderBook.mem_side side side' with rfl | rfl
    · rw [left.mem (c.filed j)]
      simp [View.queue]
    · rw [left.other]
      simp [View.queue, Side.opposite_ne]
  · simp [hj]

theorem leave (c : Coherent policy v none) {i : Int} {side : Side} {o : Order D}
    {book' : OrderBook D} (left : OrderBook.Left Order.price (v.book i) side o book')
    (ho : o ∈ v.queue i side) :
    Coherent policy (v.setBook i book') (if o.id = quoteOrderId then none
      else some o.identity) := by
  have mem : ∀ {j : Int} {side' : Side} {x : Order D}, x ∈ (v.setBook i book').queue j side' ↔
      x ∈ v.queue j side' ∧ (j = i → side' = side → x.identity ≠ o.identity) :=
    c.mem_leave left
  constructor
  case filed => exact View.setBook_each c.filed left.filed
  case instrument =>
    exact View.setBook_each (P := fun j book => book.instrumentId = j) c.instrument
      (left.instrument.trans (c.instrument i))
  case fit => exact fun j side' x hx => c.fit j side' x (mem.mp hx).1
  case owned => exact fun j side' x hx => c.owned j side' x (mem.mp hx).1
  case keyed => exact c.keyed
  case legs => exact c.legs
  case tiered => exact fun hp j side' x hx => c.tiered hp j side' x (mem.mp hx).1
  case rests =>
    intro s id r hr hgap active
    refine mem.mpr ⟨c.mem_of_active hr active, ?_⟩
    intro hi hside same
    obtain ⟨hs, hid, hne⟩ := c.keyed s id r hr
    have hq : o.id ≠ quoteOrderId := by
      rw [← (Prod.mk.inj same).2, hid]
      exact hne
    rw [if_neg hq, ← same, Order.identity, hs, hid] at hgap
    exact hgap rfl
  case absent =>
    intro x hx j side' y hy same
    obtain ⟨hy, hne⟩ := mem.mp hy
    by_cases hq : o.id = quoteOrderId
    · rw [if_pos hq] at hx
      cases hx
    · rw [if_neg hq] at hx
      obtain rfl := Option.some.inj hx
      obtain ⟨-, hi, hside⟩ := c.place_unique ho hy same.symm hq
      exact hne hi.symm hside.symm same
  case real =>
    intro hp
    have r := c.real hp i
    have sub : ∀ side', List.Sublist (book'.queue side') ((v.book i).queue side') := by
      intro side'
      rcases OrderBook.mem_side side side' with rfl | rfl
      · obtain ⟨pre, post, hq, hq'⟩ := left.split
        rw [hq, hq']
        exact List.Sublist.append_left (List.sublist_cons_self _ _) _
      · rw [left.other]
    refine View.setBook_each (P := fun _ book => RealBook book v.arrival) (c.real hp)
      ⟨?_, ?_, ?_, ?_⟩
    · intro bid hb ask ha
      exact r.uncrossed bid ((sub .buy).subset hb) ask ((sub .sell).subset ha)
    · exact fun side' x hx => r.limit side' x ((sub side').subset hx)
    · exact fun side' => (r.seniority side').sublist (sub side')
    · exact fun side' x hx => r.arrived side' x ((sub side').subset hx)

theorem arrive (c : Coherent policy v gap) {arrival : Nat} (h : v.arrival ≤ arrival) :
    Coherent policy { v with arrival := arrival } gap :=
  { filed := c.filed, instrument := c.instrument, fit := c.fit, owned := c.owned,
    rests := c.rests, keyed := c.keyed, legs := c.legs, absent := c.absent, tiered := c.tiered
    real := fun hp i =>
      let r := c.real hp i
      ⟨r.uncrossed, r.limit, r.seniority, fun side o ho => (r.arrived side o ho).trans h⟩ }

/-- The record of an order that rests nowhere can be rewritten. -/
theorem setRecord (c : Coherent policy v gap) {s : String} {id : OrderId}
    {record : Option (Order D)} {gap' : Gap}
    (absent : ∀ i side, ∀ o ∈ v.queue i side, o.identity ≠ (s, id))
    (keyed : ∀ r, record = some r → r.sessionId = s ∧ r.id = id ∧ id ≠ quoteOrderId)
    (closed : ∀ r, record = some r → r.state.isActive → gap' = some (s, id))
    (covers : ∀ x, gap = some x → x = (s, id))
    (opens : ∀ x, gap' = some x → x = (s, id)) :
    Coherent policy (v.setRecord s id record) gap' where
  filed := c.filed
  instrument := c.instrument
  fit := c.fit
  owned := by
    intro i side o ho
    have h := c.owned i side o ho
    have hne : ¬ (o.sessionId = s ∧ o.id = id) := fun ⟨hs, hi⟩ =>
      absent i side o ho (by rw [Order.identity, hs, hi])
    by_cases hq : o.id = quoteOrderId
    · exact View.owned_of_legged (h.legged hq) hq
    · refine View.owned_of_record ?_ hq
      simpa only [View.setRecord, hne, if_false] using h.record hq
  rests := by
    intro s' id' r hr hgap active
    by_cases h : s' = s ∧ id' = id
    · obtain ⟨rfl, rfl⟩ := h
      simp only [View.setRecord, and_self, if_true] at hr
      exact absurd (closed r hr active) hgap
    · simp only [View.setRecord, h, if_false] at hr
      refine c.rests s' id' r hr ?_ active
      intro hg
      exact h (Prod.mk.inj (covers _ hg))
  keyed := by
    intro s' id' r hr
    by_cases h : s' = s ∧ id' = id
    · obtain ⟨rfl, rfl⟩ := h
      simp only [View.setRecord, and_self, if_true] at hr
      exact keyed r hr
    · simp only [View.setRecord, h, if_false] at hr
      exact c.keyed s' id' r hr
  legs := c.legs
  absent := by
    intro x hx i side o ho
    rw [opens x hx]
    exact absent i side o ho
  real := c.real
  tiered := c.tiered

/-- A gap whose record is inactive is no gap. -/
theorem close (c : Coherent policy v gap)
    (inactive : ∀ s id r, gap = some (s, id) → v.record s id = some r → r.state.isActive = false) :
    Coherent policy v none :=
  { filed := c.filed, instrument := c.instrument, fit := c.fit, owned := c.owned
    rests := by
      intro s id r hr _ active
      refine c.rests s id r hr ?_ active
      intro hg
      rw [inactive s id r hg hr] at active
      cases active
    keyed := c.keyed, legs := c.legs
    absent := by intro x hx; cases hx
    real := c.real, tiered := c.tiered }

/-- An order without a record rests nowhere. -/
theorem absent_of_none (c : Coherent policy v gap) {s : String} {id : OrderId}
    (h : v.record s id = none) (hid : id ≠ quoteOrderId) :
    ∀ i side, ∀ o ∈ v.queue i side, o.identity ≠ (s, id) := by
  intro i side o ho same
  obtain ⟨rfl, rfl⟩ := Prod.mk.inj same
  rw [(c.owned i side o ho).record hid] at h
  cases h

/-- An order with an inactive record rests nowhere. -/
theorem absent_of_inactive (c : Coherent policy v gap) {s : String} {id : OrderId} {r : Order D}
    (h : v.record s id = some r) (inactive : r.state.isActive = false) :
    ∀ i side, ∀ o ∈ v.queue i side, o.identity ≠ (s, id) := by
  intro i side o ho same
  have hid := (c.keyed s id r h).2.2
  obtain ⟨rfl, rfl⟩ := Prod.mk.inj same
  rw [(c.owned i side o ho).record hid] at h
  obtain rfl := Option.some.inj h
  rw [(c.fit i side o ho).active] at inactive
  cases inactive

/-- The legs of a pair can be rewritten once none of it rests. -/
theorem setLegs (c : Coherent policy v none) {s : String} {i : Int}
    (legs : Side → Option (Order D))
    (sided : ∀ side leg, legs side = some leg → leg.id = quoteOrderId ∧ leg.side = side)
    (absent : ∀ side, ∀ o ∈ v.queue i side, o.identity ≠ (s, quoteOrderId)) :
    Coherent policy { v with leg := fun s' i' side =>
      if s' = s ∧ i' = i then legs side else v.leg s' i' side } none where
  filed := c.filed
  instrument := c.instrument
  fit := c.fit
  owned := by
    intro j side o ho
    have h := c.owned j side o ho
    by_cases hid : o.id = quoteOrderId
    · have hne : ¬ (o.sessionId = s ∧ o.instrumentId = i) := by
        rintro ⟨hs, hi⟩
        rw [(c.fit j side o ho).instrument] at hi
        subst hi
        exact absent side o ho (by rw [Order.identity, hs, hid])
      refine View.owned_of_legged ?_ hid
      have h := h.legged hid
      unfold View.Legged at *
      simpa only [hne, if_false] using h
    · exact View.owned_of_record (h.record hid) hid
  rests := c.rests
  keyed := c.keyed
  legs := by
    intro s' i' side leg h
    by_cases hsame : s' = s ∧ i' = i
    · simp only [hsame, and_self, if_true] at h
      exact sided side leg h
    · simp only [hsame, if_false] at h
      exact c.legs s' i' side leg h
  absent := c.absent
  real := c.real
  tiered := c.tiered

end Coherent

end RustTrader
