import Mathlib.Data.List.Sort
import RustTrader.BookOps

/-!
# The reference matcher

A plain walk over the opposite queue on behalf of one incoming order: trade
with the resting orders in turn at their prices, stop at the first that is not
crossed or when the order is exhausted, then rest, cancel or drop what is left.
-/

namespace RustTrader

open Decimal

variable {D : Type} [Decimal D]

/-- An incoming order at effective price `p` trades with a resting one at `q`. -/
def Crosses (side : Side) (p q : D) : Prop :=
  match side with
  | .buy => q ≤ p
  | .sell => p ≤ q

instance (side : Side) (p q : D) : Decidable (Crosses side p q) := by
  unfold Crosses
  cases side <;> infer_instance

/-- The trade record, with the incoming order on its own side. -/
def sideTrade (side : Side) (incoming resting : Order D) (price quantity : D) : RawTrade D :=
  match side with
  | .buy => ⟨incoming, resting, price, quantity, 0⟩
  | .sell => ⟨resting, incoming, price, quantity, 0⟩

/-- The incoming order trades no further. -/
def Halts (incoming resting : Order D) : Prop :=
  incoming.remaining = 0 ∨
    ¬ Crosses incoming.side incoming.effectivePrice resting.effectivePrice

instance (incoming resting : Order D) : Decidable (Halts incoming resting) := by
  unfold Halts
  infer_instance

/-- The reference walk: the incoming order meets the resting ones in turn and
trades the smaller remaining quantity at the resting price. -/
def walk (incoming : Order D) : List (Order D) →
    Exec (List (RawTrade D) × Order D × List (Order D))
  | [] => pure ([], incoming, [])
  | resting :: rest =>
    if Halts incoming resting then
      pure ([], incoming, resting :: rest)
    else do
      let quantity := minDecimal incoming.remaining resting.remaining
      let filled ← applyFill incoming quantity resting.price
      let hit ← applyFill resting quantity resting.price
      let (trades, left, untouched) ← walk filled rest
      pure (sideTrade incoming.side filled hit resting.price quantity :: trades, left,
        keep hit ++ untouched)

/-- The run of the reference walk, for inductions over it. -/
inductive Walked : Order D → List (Order D) → List (RawTrade D) → Order D → List (Order D) → Prop
  | stop {incoming : Order D} {queue : List (Order D)}
      (halts : ∀ resting ∈ queue.head?, Halts incoming resting) :
      Walked incoming queue [] incoming queue
  | trade {incoming resting filled hit left : Order D} {rest untouched : List (Order D)}
      {trades : List (RawTrade D)} {quantity : D} (open_ : ¬ Halts incoming resting)
      (size : quantity = minDecimal incoming.remaining resting.remaining)
      (fill : applyFill incoming quantity resting.price = .ok filled)
      (fillHit : applyFill resting quantity resting.price = .ok hit)
      (tail : Walked filled rest trades left untouched) :
      Walked incoming (resting :: rest)
        (sideTrade incoming.side filled hit resting.price quantity :: trades) left
        (keep hit ++ untouched)

theorem walked_of_walk {queue : List (Order D)} : ∀ {incoming left : Order D}
    {trades : List (RawTrade D)} {untouched : List (Order D)},
    walk incoming queue = .ok (trades, left, untouched) →
      Walked incoming queue trades left untouched := by
  induction queue with
  | nil =>
    intro incoming left trades untouched h
    cases h
    exact .stop (by intro r hr; cases hr)
  | cons resting rest ih =>
    intro incoming left trades untouched h
    by_cases hh : Halts incoming resting
    · rw [walk, if_pos hh] at h
      cases h
      exact .stop (by intro r hr; cases hr; exact hh)
    · rw [walk, if_neg hh] at h
      obtain ⟨filled, hf, h⟩ := Exec.bind_ok.mp h
      obtain ⟨hit, hr, h⟩ := Exec.bind_ok.mp h
      obtain ⟨⟨ts, l, u⟩, hw, h⟩ := Exec.bind_ok.mp h
      cases h
      exact .trade hh rfl hf hr (ih hw)

theorem walk_stop {incoming : Order D} {queue : List (Order D)}
    (h : ∀ resting ∈ queue.head?, Halts incoming resting) :
    walk incoming queue = .ok ([], incoming, queue) := by
  cases queue with
  | nil => rfl
  | cons resting rest => rw [walk, if_pos (h resting rfl)]; rfl

theorem walk_trade {incoming resting filled hit : Order D} (rest : List (Order D)) {quantity : D}
    (open_ : ¬ Halts incoming resting)
    (size : quantity = minDecimal incoming.remaining resting.remaining)
    (fill : applyFill incoming quantity resting.price = .ok filled)
    (fillHit : applyFill resting quantity resting.price = .ok hit) :
    walk incoming (resting :: rest) = walk filled rest >>= fun run =>
      pure (sideTrade incoming.side filled hit resting.price quantity :: run.1, run.2.1,
        keep hit ++ run.2.2) := by
  subst size
  simp only [walk, if_neg open_, fill, fillHit, Exec.ok_bind]

theorem minDecimal_comm (a b : D) : minDecimal a b = minDecimal b a := by
  unfold minDecimal
  rcases lt_trichotomy a b with h | rfl | h
  · rw [if_pos h, if_neg h.asymm]
  · rfl
  · rw [if_pos h, if_neg h.asymm]

/-- Of the two parties to a trade at least one is done. -/
theorem filled_or_hit [LawfulDecimal D] {a b a' b' : Order D} {quantity price price' : D}
    (size : quantity = minDecimal a.remaining b.remaining)
    (fa : applyFill a quantity price = .ok a') (fb : applyFill b quantity price' = .ok b') :
    a'.remaining = 0 ∨ b'.remaining = 0 := by
  have ha := (OrderBook.applyFill_spec fa).remaining
  have hb := (OrderBook.applyFill_spec fb).remaining
  rcases minDecimal_cases a.remaining b.remaining with h | h
  · left
    rw [size, h, sub_same] at ha
    exact (Except.ok.inj ha).symm
  · right
    rw [size, h, sub_same] at hb
    exact (Except.ok.inj hb).symm

/-- Rest an order at the back of its price level. -/
def place (order : Order D) (own : List (Order D)) : List (Order D) :=
  own.orderedInsert
    (fun a b => Levels.Prefers order.side a.effectivePrice b.effectivePrice) order

/-- What the reference matcher makes of one incoming order. -/
structure Outcome (D : Type) where
  trades : List (RawTrade D)
  final : Order D
  own : List (Order D)
  opposite : List (Order D)

/-- An exhausted order is gone, a market remainder is cancelled, a limit
remainder rests. -/
def conclude (left : Order D) (own : List (Order D)) : Order D × List (Order D) :=
  if left.remaining = 0 then (left, own)
  else match left.orderType with
    | .market => ({ left with state := .cancelled }, own)
    | .limit => (left, place left own)

theorem conclude_exhausted {left : Order D} (own : List (Order D)) (h : left.remaining = 0) :
    conclude left own = (left, own) := if_pos h

theorem conclude_market {left : Order D} (own : List (Order D)) (h : left.remaining ≠ 0)
    (market : left.orderType = .market) :
    conclude left own = ({ left with state := .cancelled }, own) := by
  rw [conclude, if_neg h, market]

theorem conclude_limit {left : Order D} (own : List (Order D)) (h : left.remaining ≠ 0)
    (limit : left.orderType = .limit) : conclude left own = (left, place left own) := by
  rw [conclude, if_neg h, limit]

def reference (incoming : Order D) (own opposite : List (Order D)) : Exec (Outcome D) := do
  let (trades, left, untouched) ← walk { incoming with state := .booked } opposite
  pure ⟨trades, (conclude left own).1, (conclude left own).2, untouched⟩

theorem place_split {order : Order D} {front back : List (Order D)}
    (hf : ∀ o ∈ front, ¬ Levels.Prefers order.side order.effectivePrice o.effectivePrice)
    (hb : ∀ o ∈ back, Levels.Prefers order.side order.effectivePrice o.effectivePrice) :
    place order (front ++ back) = front ++ [order] ++ back := by
  induction front with
  | nil =>
    cases back with
    | nil => rfl
    | cons b bs =>
      have hlt := hb b List.mem_cons_self
      simp [place, hlt]
  | cons f fs ih =>
    have hlt := hf f List.mem_cons_self
    have tail := ih (fun o ho => hf o (List.mem_cons_of_mem _ ho))
    simp only [place] at tail
    simp [place, hlt, tail]

theorem Walked.continues {incoming left : Order D} {queue untouched : List (Order D)}
    {trades : List (RawTrade D)} (w : Walked incoming queue trades left untouched) :
    Continues incoming left := by
  induction w with
  | stop => exact .refl _
  | trade _ _ fill _ _ ih => exact (OrderBook.applyFill_spec fill).toContinues.trans ih

theorem place_congr {order order' : Order D} (h : Continues order order') (own : List (Order D))
    {front back : List (Order D)} (hq : own = front ++ back)
    (hf : ∀ o ∈ front, ¬ Levels.Prefers order.side order.effectivePrice o.effectivePrice)
    (hb : ∀ o ∈ back, Levels.Prefers order.side order.effectivePrice o.effectivePrice) :
    place order' own = front ++ [order'] ++ back := by
  subst hq
  apply place_split
  · rw [h.side, h.effectivePrice]; exact hf
  · rw [h.side, h.effectivePrice]; exact hb

omit [Decimal D] in
theorem lastSnapshot_cons (identity : String × OrderId) (trade : RawTrade D)
    (trades : List (RawTrade D)) : OrderBook.lastSnapshot identity (trade :: trades) =
      (OrderBook.lastSnapshot identity trades).or (OrderBook.lastSnapshot identity [trade]) := by
  have later : ∀ (ts : List (RawTrade D)) (found : Option (Order D)),
      ts.foldl (fun found trade =>
        let found := if trade.buyer.identity = identity then some trade.buyer else found
        if trade.seller.identity = identity then some trade.seller else found) found =
      (OrderBook.lastSnapshot identity ts).or found := by
    intro ts
    induction ts with
    | nil => intro found; rfl
    | cons t ts ih =>
      intro found
      simp only [OrderBook.lastSnapshot, List.foldl_cons]
      rw [ih, ih]
      by_cases hs : t.seller.identity = identity
      · simp [hs]
      · by_cases hb : t.buyer.identity = identity <;> simp [hs, hb]
  exact later trades _

omit [Decimal D] in
theorem lastSnapshot_sideTrade {side : Side} {incoming resting : Order D} (price quantity : D)
    (apart : side = .sell ∨ resting.identity ≠ incoming.identity) :
    OrderBook.lastSnapshot incoming.identity [sideTrade side incoming resting price quantity] =
      some incoming := by
  cases side with
  | buy => simp [OrderBook.lastSnapshot, sideTrade, apart.resolve_left (by decide)]
  | sell => simp [OrderBook.lastSnapshot, sideTrade]

/-- The trades of a walk end with the incoming order as the walk leaves it. -/
theorem Walked.lastSnapshot {incoming left : Order D} {queue untouched : List (Order D)}
    {trades : List (RawTrade D)} (w : Walked incoming queue trades left untouched)
    (apart : incoming.side = .sell ∨ ∀ r ∈ queue, r.identity ≠ incoming.identity) :
    trades = [] ∧ left = incoming ∨
      OrderBook.lastSnapshot incoming.identity trades = some left := by
  induction w with
  | stop => exact Or.inl ⟨rfl, rfl⟩
  | @trade incoming resting filled hit left rest untouched trades quantity _ _ fill fillHit _ ih =>
    right
    have f := OrderBook.applyFill_spec fill
    have g := OrderBook.applyFill_spec fillHit
    have apartHead : incoming.side = .sell ∨ hit.identity ≠ filled.identity := by
      rw [g.identity, f.identity]
      exact apart.imp_right (fun h => h resting List.mem_cons_self)
    have first := lastSnapshot_sideTrade resting.price quantity apartHead
    have apartTail : filled.side = .sell ∨ ∀ r ∈ rest, r.identity ≠ filled.identity := by
      rw [f.side, f.identity]
      exact apart.imp_right (fun h r hr => h r (List.mem_cons_of_mem _ hr))
    rw [lastSnapshot_cons, ← f.identity, first]
    rcases ih apartTail with ⟨rfl, rfl⟩ | h
    · rfl
    · rw [h]
      rfl

theorem Walked.state {incoming left : Order D} {queue untouched : List (Order D)}
    {trades : List (RawTrade D)} (w : Walked incoming queue trades left untouched) :
    trades = [] ∧ left = incoming ∨
      trades ≠ [] ∧ left.state = if left.remaining = 0 then .filled else .partialFill := by
  induction w with
  | stop => exact Or.inl ⟨rfl, rfl⟩
  | trade _ _ fill _ _ ih =>
    right
    refine ⟨List.cons_ne_nil _ _, ?_⟩
    rcases ih with ⟨-, rfl⟩ | ⟨-, h⟩
    · exact (OrderBook.applyFill_spec fill).state
    · exact h

/-- A fill by the smaller of two positive quantities leaves no negative rest. -/
theorem fill_nonneg [LawfulDecimal D] {order filled : Order D} {quantity price : D}
    (h : applyFill order quantity price = .ok filled) (hle : quantity ≤ order.remaining) :
    0 ≤ filled.remaining :=
  nonneg_of_sub hle (OrderBook.applyFill_spec h).remaining

theorem Walked.nonneg [LawfulDecimal D] {incoming left : Order D} {queue untouched : List (Order D)}
    {trades : List (RawTrade D)} (w : Walked incoming queue trades left untouched)
    (h : 0 ≤ incoming.remaining) : 0 ≤ left.remaining := by
  induction w with
  | stop => exact h
  | trade _ size fill _ _ ih => exact ih (fill_nonneg fill (size ▸ minDecimal_le_left _ _))

/-- Taking a placed order out again restores the queue. -/
theorem place_inverse {order : Order D} {own pre post : List (Order D)}
    (distinct : Keyed.Distinct Order.identity (place order own))
    (h : place order own = pre ++ order :: post) : pre ++ post = own := by
  unfold place at h distinct
  rw [List.orderedInsert_eq_take_drop] at h distinct
  obtain ⟨rfl, -, rfl⟩ := distinct.split_unique h rfl
  exact List.takeWhile_append_dropWhile

theorem mem_place {order : Order D} {own : List (Order D)} {o : Order D} :
    o ∈ place order own ↔ o = order ∨ o ∈ own := List.mem_orderedInsert _

/-- A prefix of the queue is traded away; of the rest only the head may have
been hit. -/
theorem Walked.suffix [LawfulDecimal D] {incoming left : Order D} {queue untouched : List (Order D)}
    {trades : List (RawTrade D)} (w : Walked incoming queue trades left untouched) :
    ∃ done rest, queue = done ++ rest ∧ List.Forall₂ Continues rest untouched := by
  induction w with
  | stop => exact ⟨[], _, rfl, List.forall₂_same.mpr (fun o _ => .refl o)⟩
  | @trade incoming resting filled hit left rest untouched trades quantity _ size fill fillHit tail
      ih =>
    have hc := (OrderBook.applyFill_spec fillHit).toContinues
    rcases keep_cases hit with ⟨-, hk⟩ | ⟨hz, hk⟩
    · obtain ⟨done, rest', hq, hf⟩ := ih
      exact ⟨resting :: done, rest', by rw [hq]; rfl, by rw [hk]; exact hf⟩
    · have done : filled.remaining = 0 := (filled_or_hit size fill fillHit).resolve_right hz
      have same : untouched = rest := by
        cases tail with
        | stop => rfl
        | trade open_ => exact absurd (Or.inl done) open_
      rw [hk, same]
      exact ⟨[], _, rfl, .cons hc (List.forall₂_same.mpr (fun o _ => .refl o))⟩

omit [Decimal D] in
theorem continues_of_mem {rest untouched : List (Order D)}
    (h : List.Forall₂ Continues rest untouched) {o : Order D} (ho : o ∈ untouched) :
    ∃ r ∈ rest, Continues r o := by
  induction h with
  | nil => cases ho
  | cons hc _ ih =>
    rcases List.mem_cons.mp ho with rfl | ho
    · exact ⟨_, List.mem_cons_self, hc⟩
    · obtain ⟨r, hr, hc'⟩ := ih ho
      exact ⟨r, List.mem_cons_of_mem _ hr, hc'⟩

theorem Walked.mem_untouched [LawfulDecimal D] {incoming left : Order D}
    {queue untouched : List (Order D)} {trades : List (RawTrade D)}
    (w : Walked incoming queue trades left untouched) {o : Order D} (h : o ∈ untouched) :
    ∃ r ∈ queue, Continues r o := by
  obtain ⟨done, rest, hq, hf⟩ := w.suffix
  obtain ⟨r, hr, hc⟩ := continues_of_mem hf h
  exact ⟨r, by rw [hq]; simp [hr], hc⟩

/-- An incoming order with something left does not cross what it leaves. -/
theorem Walked.halts {incoming left : Order D} {queue untouched : List (Order D)}
    {trades : List (RawTrade D)} [LawfulDecimal D]
    (w : Walked incoming queue trades left untouched) (remains : left.remaining ≠ 0) :
    ∀ r ∈ untouched.head?,
      ¬ Crosses incoming.side incoming.effectivePrice r.effectivePrice := by
  induction w with
  | stop halts =>
    intro r hr
    exact (halts r hr).resolve_left remains
  | @trade incoming resting filled hit left rest untouched trades quantity _ size fill fillHit tail
      ih =>
    have f := OrderBook.applyFill_spec fill
    rcases keep_cases hit with ⟨-, hk⟩ | ⟨hz, hk⟩
    · rw [hk, List.nil_append, ← f.side, ← f.effectivePrice]
      exact ih remains
    · have done := (filled_or_hit size fill fillHit).resolve_right hz
      cases tail with
      | stop => exact absurd done remains
      | trade open_ => exact absurd (Or.inl done) open_

/-- The walk has nothing to say about who is neither incoming nor in the queue. -/
theorem Walked.snapshot_other {incoming left : Order D} {queue untouched : List (Order D)}
    {trades : List (RawTrade D)} (w : Walked incoming queue trades left untouched)
    {identity : String × OrderId} (hin : incoming.identity ≠ identity)
    (hq : ∀ r ∈ queue, r.identity ≠ identity) :
    OrderBook.lastSnapshot identity trades = none := by
  induction w with
  | stop => rfl
  | @trade incoming resting filled hit left rest untouched trades quantity _ _ fill fillHit _ ih =>
    have f := OrderBook.applyFill_spec fill
    have g := OrderBook.applyFill_spec fillHit
    have head : OrderBook.lastSnapshot identity
        [sideTrade incoming.side filled hit resting.price quantity] = none := by
      have hf : filled.identity ≠ identity := by rw [f.identity]; exact hin
      have hg : hit.identity ≠ identity := by rw [g.identity]; exact hq resting List.mem_cons_self
      cases incoming.side <;> simp [OrderBook.lastSnapshot, sideTrade, hf, hg]
    rw [lastSnapshot_cons, head, ih (by rw [f.identity]; exact hin)
      (fun r hr => hq r (List.mem_cons_of_mem _ hr))]
    rfl

/-- What became of one resting order, and what the trades last said of it. -/
inductive Fate (trades : List (RawTrade D)) (untouched : List (Order D)) (r : Order D) : Prop
  | spared (silent : OrderBook.lastSnapshot r.identity trades = none) (mem : r ∈ untouched)
  | reduced (hit : Order D) (last : OrderBook.lastSnapshot r.identity trades = some hit)
      (continues : Continues r hit) (remains : hit.remaining ≠ 0)
      (state : hit.state = .partialFill) (mem : hit ∈ untouched)
  | consumed (hit : Order D) (last : OrderBook.lastSnapshot r.identity trades = some hit)
      (continues : Continues r hit) (done : hit.remaining = 0) (state : hit.state = .filled)
      (gone : ∀ x ∈ untouched, x.identity ≠ r.identity)

theorem Fate.later {trades : List (RawTrade D)} {untouched : List (Order D)} {r : Order D}
    {trade : RawTrade D} {more : List (Order D)} (fate : Fate trades untouched r)
    (silent : OrderBook.lastSnapshot r.identity [trade] = none)
    (apart : ∀ x ∈ more, x.identity ≠ r.identity) :
    Fate (trade :: trades) (more ++ untouched) r := by
  have snapshot := lastSnapshot_cons r.identity trade trades
  rw [silent, Option.or_none] at snapshot
  cases fate with
  | spared hs hm => exact .spared (snapshot.trans hs) (List.mem_append_right _ hm)
  | reduced hit hl hc hr hst hm =>
    exact .reduced hit (snapshot.trans hl) hc hr hst (List.mem_append_right _ hm)
  | consumed hit hl hc hd hst hg =>
    refine .consumed hit (snapshot.trans hl) hc hd hst ?_
    intro x hx
    rcases List.mem_append.mp hx with hx | hx
    · exact apart x hx
    · exact hg x hx

/-- Every resting order but one under the incoming identity has its fate. -/
theorem Walked.fate [LawfulDecimal D] {incoming left : Order D} {queue untouched : List (Order D)}
    {trades : List (RawTrade D)} (w : Walked incoming queue trades left untouched)
    (distinct : Keyed.Distinct Order.identity queue) {r : Order D} (hr : r ∈ queue)
    (apart : r.identity ≠ incoming.identity) : Fate trades untouched r := by
  induction w with
  | stop => exact .spared rfl hr
  | @trade incoming resting filled hit left rest untouched trades quantity _ _ fill fillHit tail
      ih =>
    have f := OrderBook.applyFill_spec fill
    have g := OrderBook.applyFill_spec fillHit
    obtain ⟨fresh, distinct'⟩ := Keyed.distinct_cons.mp distinct
    rcases List.mem_cons.mp hr with rfl | hr
    · have silent : OrderBook.lastSnapshot r.identity trades = none :=
        tail.snapshot_other (by rw [f.identity]; exact apart.symm) fresh
      have last : OrderBook.lastSnapshot r.identity
          (sideTrade incoming.side filled hit r.price quantity :: trades) = some hit := by
        have hf : filled.identity ≠ r.identity := by rw [f.identity]; exact apart.symm
        rw [lastSnapshot_cons, silent]
        cases incoming.side <;> simp [OrderBook.lastSnapshot, sideTrade, g.identity, hf]
      by_cases hz : hit.remaining = 0
      · refine .consumed hit last g.toContinues hz (by rw [g.state, if_pos hz]) ?_
        intro x hx
        rw [show keep hit = [] by simp [keep, hz], List.nil_append] at hx
        obtain ⟨y, hy, hc⟩ := tail.mem_untouched hx
        rw [hc.identity]
        exact fresh y hy
      · exact .reduced hit last g.toContinues hz (by rw [g.state, if_neg hz])
          (List.mem_append_left _ (by simp [keep, hz]))
    · have hf : filled.identity ≠ r.identity := by rw [f.identity]; exact apart.symm
      have hg : hit.identity ≠ r.identity := by rw [g.identity]; exact (fresh r hr).symm
      refine (ih distinct' hr (by rw [f.identity]; exact apart)).later ?_ ?_
      · cases incoming.side <;> simp [OrderBook.lastSnapshot, sideTrade, hf, hg]
      · intro x hx
        rw [(mem_keep.mp hx).1]
        exact hg

/-- What the walk leaves in the queue is active with a positive quantity, if
the queue was. -/
theorem Walked.untouched_fit [LawfulDecimal D] {incoming left : Order D}
    {queue untouched : List (Order D)} {trades : List (RawTrade D)}
    (w : Walked incoming queue trades left untouched)
    (fit : ∀ r ∈ queue, 0 < r.remaining ∧ r.state.isActive) {x : Order D} (hx : x ∈ untouched) :
    0 < x.remaining ∧ x.state.isActive := by
  induction w with
  | stop => exact fit x hx
  | @trade incoming resting filled hit left rest untouched trades quantity _ size _ fillHit _ ih =>
    rcases List.mem_append.mp hx with hx | hx
    · obtain ⟨rfl, hz⟩ := mem_keep.mp hx
      have hle : quantity ≤ resting.remaining := size ▸ minDecimal_le_right _ _
      refine ⟨lt_of_le_of_ne (fill_nonneg fillHit hle) (Ne.symm hz), ?_⟩
      rw [(OrderBook.applyFill_spec fillHit).state, if_neg hz]
      rfl
    · exact ih (fun r hr => fit r (List.mem_cons_of_mem _ hr)) hx

theorem conclude_continues (left : Order D) (own : List (Order D)) :
    Continues left (conclude left own).1 := by
  by_cases hz : left.remaining = 0
  · rw [conclude_exhausted own hz]
    exact .refl left
  · cases ht : left.orderType with
    | market =>
      rw [conclude_market own hz ht]
      exact ⟨rfl⟩
    | limit =>
      rw [conclude_limit own hz ht]
      exact .refl left

theorem mem_conclude {left x : Order D} {own : List (Order D)} (h : x ∈ (conclude left own).2) :
    x ∈ own ∨ x = left ∧ (conclude left own).1 = left ∧ left.remaining ≠ 0 ∧
      left.orderType = .limit := by
  by_cases hz : left.remaining = 0
  · rw [conclude_exhausted own hz] at h
    exact Or.inl h
  · cases ht : left.orderType with
    | market =>
      rw [conclude_market own hz ht] at h
      exact Or.inl h
    | limit =>
      rw [conclude_limit own hz ht] at h ⊢
      rcases mem_place.mp h with rfl | h
      · exact Or.inr ⟨rfl, rfl, hz, rfl⟩
      · exact Or.inl h

theorem conclude_keeps {left x : Order D} {own : List (Order D)} (h : x ∈ own) :
    x ∈ (conclude left own).2 := by
  unfold conclude
  split
  · exact h
  · cases left.orderType
    · exact h
    · exact mem_place.mpr (Or.inr h)

/-- Only a resting limit order ends active. -/
theorem Walked.active_rests {incoming left : Order D} {queue untouched : List (Order D)}
    {trades : List (RawTrade D)} (w : Walked incoming queue trades left untouched)
    (own : List (Order D))
    (positive : incoming.remaining ≠ 0) (active : (conclude left own).1.state.isActive) :
    (conclude left own).1 ∈ (conclude left own).2 := by
  by_cases hz : left.remaining = 0
  · rw [conclude_exhausted own hz] at active
    rcases w.state with ⟨-, rfl⟩ | ⟨-, hs⟩
    · exact absurd hz positive
    · rw [hs, if_pos hz] at active
      cases active
  · cases ht : left.orderType with
    | market =>
      rw [conclude_market own hz ht] at active
      cases active
    | limit =>
      rw [conclude_limit own hz ht]
      exact mem_place.mpr (Or.inl rfl)

theorem prefers_trans {side : Side} {a b c : D} (h : Levels.Prefers side a b)
    (h' : ¬ Levels.Prefers side c b) : Levels.Prefers side a c := by
  cases side with
  | buy => exact lt_of_le_of_lt (not_lt.mp h') h
  | sell => exact lt_of_lt_of_le h (not_lt.mp h')

theorem not_prefers_self (side : Side) (a : D) : ¬ Levels.Prefers side a a := by
  cases side <;> exact lt_irrefl a

/-- The newest order joins the back of its level. -/
theorem place_seniority {order : Order D} {own : List (Order D)}
    (sorted : own.Pairwise
      (fun a b => ¬ Levels.Prefers order.side b.effectivePrice a.effectivePrice))
    (seniority : own.Pairwise
      (fun a b => a.effectivePrice = b.effectivePrice → a.arrival < b.arrival))
    (newest : ∀ o ∈ own, o.arrival < order.arrival) :
    (place order own).Pairwise
      (fun a b => a.effectivePrice = b.effectivePrice → a.arrival < b.arrival) := by
  unfold place
  induction own with
  | nil => simp
  | cons b l ih =>
    obtain ⟨hb, sorted'⟩ := List.pairwise_cons.mp sorted
    obtain ⟨hs, seniority'⟩ := List.pairwise_cons.mp seniority
    by_cases hp : Levels.Prefers order.side order.effectivePrice b.effectivePrice
    · rw [List.orderedInsert_cons, if_pos hp]
      refine List.pairwise_cons.mpr ⟨?_, seniority⟩
      intro x hx same
      have worse : Levels.Prefers order.side order.effectivePrice x.effectivePrice := by
        rcases List.mem_cons.mp hx with rfl | hx
        · exact hp
        · exact prefers_trans hp (hb x hx)
      rw [same] at worse
      exact absurd worse (not_prefers_self _ _)
    · rw [List.orderedInsert_cons, if_neg hp]
      refine List.pairwise_cons.mpr ⟨?_, ih sorted' seniority'
        (fun o ho => newest o (List.mem_cons_of_mem _ ho))⟩
      intro x hx same
      rcases (List.mem_orderedInsert _).mp hx with rfl | hx
      · exact newest b List.mem_cons_self
      · exact hs x hx same

omit [Decimal D] in
/-- A relation that only looks at what fills leave alone survives the walk. -/
theorem Continues.pairwise {R : Order D → Order D → Prop}
    (stable : ∀ a a' b b', Continues a a' → Continues b b' → R a b → R a' b')
    {rest untouched : List (Order D)} (h : List.Forall₂ Continues rest untouched)
    (hr : rest.Pairwise R) : untouched.Pairwise R := by
  induction h with
  | nil => exact .nil
  | cons hc tail ih =>
    obtain ⟨hhead, htail⟩ := List.pairwise_cons.mp hr
    refine List.pairwise_cons.mpr ⟨?_, ih htail⟩
    intro x hx
    obtain ⟨r, hr, hc'⟩ := continues_of_mem tail hx
    exact stable _ _ _ _ hc hc' (hhead r hr)

end RustTrader
