import RustTrader.LevelChanges
import RustTrader.Library.Fallible

/-!
# The matching loop ends

On a book whose levels stand, each round of matching fills one of the two tops and
removes it, so the orders that rest bound the rounds. Nothing the loop looks up is
missing, and the levels of the book it leaves stand again.
-/

namespace RustTrader

open Decimal

variable {D : Type} [Decimal D]

/-- The orders of a level are those its index names, are filed under their effective
price, and something remains of each. -/
structure Standing (key : D) (level : PriceLevel D) : Prop where
  indexed : ∀ identity priority, HashMap.get? level.index identity = some priority ↔
    ∃ order, level.orders.get? priority = some order ∧ order.identity = identity
  filed : ∀ o ∈ level.queue, o.effectivePrice = key
  positive : ∀ o ∈ level.queue, 0 < o.remaining

namespace PriceLevel

/-- A level with another priority counter. -/
def numbered (level : PriceLevel D) (next : Int) : PriceLevel D := { level with next := next }

/-- A fill of an order that is there succeeds, whatever the counter. -/
theorem updateFill_returns [ExactDecimal D] {level : PriceLevel D} {priority : Int}
    {order resting : Order D}
    (indexed : HashMap.get? level.index order.identity = some priority)
    (stored : level.orders.get? priority = some resting) (quantity : D) :
    ∃ level' : PriceLevel D, ∀ next, (level.numbered next).updateFill order quantity =
      .ok (level'.numbered next) := by
  have found : HashMap.get? level.index (order.sessionId, order.id) = some priority := indexed
  by_cases spent : order.remaining = 0
  · obtain ⟨total, sum, -⟩ := ExactDecimal.sub_exact level.total resting.remaining
    refine ⟨{ level with
      index := HashMap.remove level.index (order.sessionId, order.id)
      orders := level.orders.erase priority
      total := total }, fun next => ?_⟩
    unfold updateFill remove numbered
    simp only [spent, if_true, found, stored, unwrap_some, Exec.ok_bind, sum]
    rfl
  · obtain ⟨total, sum, -⟩ := ExactDecimal.sub_exact level.total quantity
    refine ⟨{ level with total := total, orders := level.orders.insert priority order },
      fun next => ?_⟩
    unfold updateFill numbered
    simp only [spent, if_false, found, stored, unwrap_some, Exec.ok_bind, sum]
    rfl

theorem exists_above (keys : List Int) : ∃ next, ∀ key ∈ keys, key < next := by
  induction keys with
  | nil => exact ⟨0, by simp⟩
  | cons key keys ih =>
    obtain ⟨next, above⟩ := ih
    refine ⟨max (key + 1) next, ?_⟩
    intro k mem
    rcases List.mem_cons.mp mem with rfl | mem
    · omega
    · have := above k mem
      omega

end PriceLevel

theorem Standing.numbered {key : D} {level : PriceLevel D} (h : Standing key level) :
    ∃ next, (level.numbered next).WF := by
  obtain ⟨next, above⟩ := PriceLevel.exists_above level.orders.keys
  refine ⟨next, h.indexed, ?_⟩
  intro priority order stored
  exact above priority (List.mem_map_of_mem (f := Prod.fst) (SortedMap.get?_eq_some.mp stored))

theorem applyFill_returns [ExactDecimal D] (order : Order D) (quantity price : D) :
    ∃ filled, applyFill order quantity price = .ok filled := by
  obtain ⟨cum, sumCum, -⟩ := ExactDecimal.add_exact order.cumQuantity quantity
  obtain ⟨left, difference, -⟩ := ExactDecimal.sub_exact order.remaining quantity
  have average : ∃ average, averagePrice order quantity price cum = .ok average := by
    unfold averagePrice
    split
    · exact ⟨0, rfl⟩
    · obtain ⟨before, timesBefore, -⟩ := ExactDecimal.mul_exact order.avgPrice order.cumQuantity
      obtain ⟨now, timesNow, -⟩ := ExactDecimal.mul_exact price quantity
      obtain ⟨sum, plus, -⟩ := ExactDecimal.add_exact before now
      obtain ⟨average, divided, -⟩ := ExactDecimal.div_exact sum cum
      simp only [timesBefore, timesNow, plus, divided, Exec.ok_bind]
      exact ⟨average, rfl⟩
  obtain ⟨average, averaged⟩ := average
  unfold applyFill
  simp only [sumCum, averaged, difference, Exec.ok_bind]
  exact ⟨_, rfl⟩

/-- What a fill of a standing order leaves on its level. -/
structure Settled (key : D) (level : PriceLevel D) (filled : Order D) (level' : PriceLevel D) :
    Prop where
  standing : Standing key level'
  spent : filled.remaining = 0 → filled.identity ∉ level'.waiting ∧
    level'.queue.length + 1 = level.queue.length
  left : filled.remaining ≠ 0 → level'.queue.length = level.queue.length

theorem Standing.fill [ExactDecimal D] {key : D} {level : PriceLevel D} (h : Standing key level)
    {resting filled : Order D} {quantity price : D} (rests : resting ∈ level.queue)
    (fill : OrderBook.FillOf resting quantity price filled) (part : quantity ≤ resting.remaining) :
    ∃ level', level.updateFill filled quantity = .ok level' ∧
      Settled key level filled level' := by
  obtain ⟨next, wf⟩ := h.numbered
  obtain ⟨priority, stored⟩ := PriceLevel.mem_queue.mp rests
  have indexed := (h.indexed filled.identity priority).mpr ⟨resting, stored, fill.identity.symm⟩
  obtain ⟨level', returns⟩ := PriceLevel.updateFill_returns indexed stored quantity
  have spec := PriceLevel.updateFill_spec wf (returns next)
  obtain ⟨front, hit, back, same, before, after, -⟩ := spec.queue
  have distinct : (level.queue.map Order.identity).Nodup := wf.queue_nodup
  obtain rfl : hit = resting := List.inj_on_of_nodup_map distinct
    (show hit ∈ (level.numbered next).queue by rw [before]; simp) rests
    (same.trans fill.identity)
  have old : level.queue = front ++ hit :: back := before
  have new : level'.queue = front ++ keep filled ++ back := after
  have kept : ∀ o ∈ level'.queue, o ∈ level.queue ∨ o = filled ∧ filled.remaining ≠ 0 := by
    intro o mem
    rw [new, List.append_assoc, List.mem_append, List.mem_append, mem_keep] at mem
    rw [old]
    rcases mem with mem | mem | mem
    · exact .inl (List.mem_append_left _ mem)
    · exact .inr mem
    · exact .inl (List.mem_append_right _ (List.mem_cons_of_mem _ mem))
  refine ⟨level'.numbered level.next, returns level.next, ⟨spec.wf.indexed, ?_, ?_⟩, ?_, ?_⟩
  · intro o mem
    rcases kept o mem with mem | ⟨rfl, -⟩
    · exact h.filed o mem
    · exact fill.effectivePrice.trans (h.filed hit rests)
  · intro o mem
    rcases kept o mem with mem | ⟨rfl, some_⟩
    · exact h.positive o mem
    · exact lt_of_le_of_ne (nonneg_of_sub part fill.remaining) (Ne.symm some_)
  · intro spent
    have gone : level'.queue = front ++ back := by
      rw [new, keep, if_pos spent, List.append_nil]
    constructor
    · intro waits
      have unique := distinct
      rw [old, List.map_append, List.map_cons] at unique
      refine (List.nodup_middle.mp unique).notMem ?_
      rw [← List.map_append, ← fill.identity, ← gone]
      exact waits
    · change level'.queue.length + 1 = level.queue.length
      rw [gone, old]
      simp only [List.length_append, List.length_cons]
      omega
  · intro left
    change level'.queue.length = level.queue.length
    rw [new, old, keep, if_neg left]
    simp only [List.length_append, List.length_cons, List.length_nil]
    omega

namespace OrderBook

/-- Each level of a book stands, and none is empty. -/
def Standing (book : OrderBook D) : Prop := book.Each (fun _ => RustTrader.Standing)

/-- How many orders rest on a book. -/
def resting (book : OrderBook D) : Nat := restingCount book.bids + restingCount book.asks

theorem restingCount_storeLevel {levels : Levels D} {key : D} {level level' : PriceLevel D}
    (found : levels.get? key = some level) :
    restingCount (storeLevel levels key level') + level.queue.length =
      restingCount levels + level'.queue.length := by
  rw [Levels.restingCount_eq .buy, Levels.restingCount_eq .buy, Levels.queue_storeLevel,
    Levels.queue_of_get? found]
  simp only [List.length_append]
  omega

/-- The first order of the best level is filled there. -/
theorem settle_returns [ExactDecimal D] {side : Side} {levels : Levels D}
    (h : Levels.Each RustTrader.Standing levels) {key : D} {level : PriceLevel D}
    (best : Levels.best? side levels = some (key, level)) {top filled : Order D}
    {quantity price : D}
    (first : level.top = .ok top) (fill : FillOf top quantity price filled)
    (part : quantity ≤ top.remaining) :
    ∃ levels', settle levels filled quantity = .ok levels' ∧
      Levels.Each RustTrader.Standing levels' ∧
      (filled.remaining = 0 → filled.identity ∉ Levels.waiting levels' filled.effectivePrice ∧
        restingCount levels' + 1 = restingCount levels) ∧
      (filled.remaining ≠ 0 → restingCount levels' = restingCount levels) := by
  obtain ⟨found, -⟩ := Levels.best?_spec best
  obtain ⟨rest, queue⟩ := PriceLevel.queue_of_top first
  have rests : top ∈ level.queue := by
    rw [queue]
    exact List.mem_cons_self
  have standing := (h key level found).2
  have filed : filled.effectivePrice = key := fill.effectivePrice.trans (standing.filed top rests)
  obtain ⟨level', done, settled⟩ := standing.fill rests fill part
  have count : restingCount (storeLevel levels key level') + level.queue.length =
      restingCount levels + level'.queue.length := restingCount_storeLevel found
  refine ⟨storeLevel levels key level', ?_, h.storeLevel settled.standing, ?_, ?_⟩
  · unfold settle
    dsimp only
    rw [filed, found, unwrap_some, Exec.ok_bind, done, Exec.ok_bind]
    rfl
  · intro spent
    obtain ⟨gone, fewer⟩ := settled.spent spent
    rw [filed, Levels.waiting_storeLevel, if_pos rfl]
    exact ⟨gone, by omega⟩
  · intro left
    have same := settled.left left
    omega

/-- A top order that a trade filled completely and that no longer rests. -/
def Removed (book : OrderBook D) (side : Side) (order : Order D) : Prop :=
  order.remaining = 0 ∧ order.state = .filled ∧
    order.identity ∉ book.waiting side order.effectivePrice

/-- A round that fills one of the two tops, or both, and removes what it filled. -/
structure Exhausts (book : OrderBook D) (trade : RawTrade D) (book' : OrderBook D) : Prop where
  round : book.Round trade book'
  spent : book'.Removed .buy trade.buyer ∨ book'.Removed .sell trade.seller
  fewer : book'.resting < book.resting
  pair : 2 ≤ book.resting

theorem inhabited_of_best? {side : Side} {levels : Levels D}
    (h : Levels.Each RustTrader.Standing levels) {key : D} {level : PriceLevel D}
    (best : Levels.best? side levels = some (key, level)) :
    1 ≤ restingCount levels ∧ ∃ top, level.top = .ok top ∧ top ∈ level.queue := by
  obtain ⟨found, -⟩ := Levels.best?_spec best
  obtain ⟨inhabited, -⟩ := h key level found
  obtain ⟨top, rest, queue⟩ := List.exists_cons_of_ne_nil inhabited
  constructor
  · rw [Levels.restingCount_eq side, Levels.queue_of_get? found, queue]
    simp only [List.length_append, List.length_cons]
    omega
  · exact ⟨top, PriceLevel.WF.top_of_queue queue, by rw [queue]; exact List.mem_cons_self⟩

/-- The trade of the two tops goes through and uses one of them up. -/
theorem tradeTops_returns [ExactDecimal D] {book : OrderBook D} (h : book.Standing)
    {bidKey askKey : D} {bidLevel askLevel : PriceLevel D} {bid ask : Order D}
    (bestB : Levels.best? .buy (book.levels .buy) = some (bidKey, bidLevel))
    (bestA : Levels.best? .sell (book.levels .sell) = some (askKey, askLevel))
    (topB : bidLevel.top = .ok bid) (topA : askLevel.top = .ok ask) :
    ∃ trade book', book.tradeTops bid ask = .ok (trade, book') ∧ book'.Standing ∧
      (book'.Removed .buy trade.buyer ∨ book'.Removed .sell trade.seller) ∧
      book'.resting < book.resting := by
  obtain ⟨buyer, bought⟩ := applyFill_returns bid (minDecimal bid.remaining ask.remaining)
    (if bid.arrival < ask.arrival then bid.price else ask.price)
  obtain ⟨seller, sold⟩ := applyFill_returns ask (minDecimal bid.remaining ask.remaining)
    (if bid.arrival < ask.arrival then bid.price else ask.price)
  have fillB := applyFill_spec bought
  have fillA := applyFill_spec sold
  obtain ⟨bids, settledB, standsB, spentB, leftB⟩ :=
    settle_returns (h .buy) bestB topB fillB (minDecimal_le_left _ _)
  obtain ⟨asks, settledA, standsA, spentA, leftA⟩ :=
    settle_returns (h .sell) bestA topA fillA (minDecimal_le_right _ _)
  have spent : buyer.remaining = 0 ∨ seller.remaining = 0 := by
    rcases minDecimal_cases bid.remaining ask.remaining with low | low
    · exact .inl ((zero_of_sub (minDecimal_le_left _ _) fillB.remaining).mpr low.symm)
    · exact .inr ((zero_of_sub (minDecimal_le_right _ _) fillA.remaining).mpr low.symm)
  refine ⟨⟨buyer, seller, if bid.arrival < ask.arrival then bid.price else ask.price,
    minDecimal bid.remaining ask.remaining, 0⟩, { book with bids := bids, asks := asks },
    ?_, ?_, ?_, ?_⟩
  · unfold tradeTops
    dsimp only
    rw [bought, Exec.ok_bind, sold, Exec.ok_bind, show settle book.bids _ _ = _ from settledB,
      Exec.ok_bind, show settle book.asks _ _ = _ from settledA, Exec.ok_bind]
    rfl
  · intro side
    cases side
    · exact standsB
    · exact standsA
  · rcases spent with spent | spent
    · exact .inl ⟨spent, by rw [fillB.state, if_pos spent], (spentB spent).1⟩
    · exact .inr ⟨spent, by rw [fillA.state, if_pos spent], (spentA spent).1⟩
  · change restingCount bids + restingCount asks <
      restingCount (book.levels .buy) + restingCount (book.levels .sell)
    rcases spent with spent | spent
    · have fewer := (spentB spent).2
      by_cases also : seller.remaining = 0
      · have := (spentA also).2
        omega
      · have := leftA also
        omega
    · have fewer := (spentA spent).2
      by_cases also : buyer.remaining = 0
      · have := (spentB also).2
        omega
      · have := leftB also
        omega

/-- A round on a standing book returns: it has nothing to do, or uses up a top. -/
theorem matchStep_returns [ExactDecimal D] {book : OrderBook D} (h : book.Standing) :
    book.matchStep = .ok none ∨ ∃ trade book', book.matchStep = .ok (some (trade, book')) ∧
      book'.Standing ∧ book.Exhausts trade book' := by
  cases last : book.bids.last? with
  | none =>
    left
    unfold matchStep
    rw [last]
    rfl
  | some b =>
  cases first : book.asks.first? with
  | none =>
    left
    unfold matchStep
    rw [last, first]
    rfl
  | some a =>
  have bestB : Levels.best? .buy (book.levels .buy) = some (b.1, b.2) := last
  have bestA : Levels.best? .sell (book.levels .sell) = some (a.1, a.2) := first
  obtain ⟨someBids, bid, topB, restsB⟩ := inhabited_of_best? (h .buy) bestB
  obtain ⟨someAsks, ask, topA, restsA⟩ := inhabited_of_best? (h .sell) bestA
  have body : book.matchStep = if bid.effectivePrice < ask.effectivePrice then .ok none
      else some <$> book.tradeTops bid ask := by
    unfold matchStep
    rw [last, first]
    dsimp only
    rw [topB, Exec.ok_bind, topA, Exec.ok_bind]
    rfl
  by_cases apart : bid.effectivePrice < ask.effectivePrice
  · left
    rw [body, if_pos apart]
  · right
    obtain ⟨trade, book', traded, stands, spent, fewer⟩ :=
      tradeTops_returns h bestB bestA topB topA
    have step : book.matchStep = .ok (some (trade, book')) := by
      rw [body, if_neg apart, traded]
      rfl
    exact ⟨trade, book', step, stands, matchStep_round step, spent, fewer,
      Nat.add_le_add someBids someAsks⟩

/-- The rounds of the loop, to the round that finds nothing to do. -/
inductive Rounds : OrderBook D → List (RawTrade D) → OrderBook D → Prop where
  | stop {book : OrderBook D} (idle : book.matchStep = .ok none) : Rounds book [] book
  | trade {book mid last : OrderBook D} {trade : RawTrade D} {trades : List (RawTrade D)}
      (step : book.matchStep = .ok (some (trade, mid))) (spends : book.Exhausts trade mid)
      (rest : Rounds mid trades last) : Rounds book (trade :: trades) last

theorem matchLoop_returns [ExactDecimal D] (fuel : Nat) : ∀ {book : OrderBook D}, book.Standing →
    book.resting ≤ fuel → ∃ trades last, matchLoop (fuel + 1) book = .ok (trades, last) ∧
      Rounds book trades last ∧ (trades = [] ∨ trades.length + 1 ≤ book.resting) ∧
      last.Standing := by
  induction fuel with
  | zero =>
    intro book h enough
    rcases matchStep_returns h with idle | ⟨trade, mid, step, stands, spends⟩
    · refine ⟨[], book, ?_, .stop idle, .inl rfl, h⟩
      rw [matchLoop, idle]
      rfl
    · have := spends.pair
      omega
  | succ fuel ih =>
    intro book h enough
    rcases matchStep_returns h with idle | ⟨trade, mid, step, stands, spends⟩
    · refine ⟨[], book, ?_, .stop idle, .inl rfl, h⟩
      rw [matchLoop, idle]
      rfl
    · have fewer := spends.fewer
      have pair := spends.pair
      obtain ⟨trades, last, loop, rounds, bound, stood⟩ := ih stands (by omega)
      refine ⟨trade :: trades, last, ?_, .trade step spends rounds, .inr ?_, stood⟩
      · rw [matchLoop, step, Exec.ok_bind]
        dsimp only
        rw [loop]
        rfl
      · rw [List.length_cons]
        rcases bound with none_ | bound
        · rw [none_, List.length_nil]
          omega
        · omega

/-- On a standing book the loop returns after fewer trades than orders rest, each of
which uses up a top, and the book it leaves stands. -/
theorem matching_terminates [ExactDecimal D] {book : OrderBook D} (h : book.Standing) :
    ∃ trades last, book.matchTrades = .ok (trades, last) ∧ Rounds book trades last ∧
      (trades = [] ∨ trades.length ≤ book.resting - 1) ∧ last.Standing := by
  obtain ⟨trades, last, loop, rounds, bound, stands⟩ := matchLoop_returns book.resting h le_rfl
  refine ⟨trades, last, loop, rounds, bound.imp_right ?_, stands⟩
  omega

/-- Filed books stand when something remains of each order. -/
theorem Filed.standing {book : OrderBook D} (filed : Filed Order.effectivePrice book)
    (positive : ∀ side, ∀ o ∈ book.queue side, 0 < o.remaining) : book.Standing := by
  intro side key level found
  have wf := filed.wf side
  refine ⟨wf.nonempty key level found, (wf.level key level found).indexed,
    wf.filed key level found, ?_⟩
  intro o mem
  exact positive side o (Levels.mem_queue.mpr ⟨key, level, found, mem⟩)

theorem Joined.positive {keyOf : Order D → D} {book book' : OrderBook D} {order : Order D}
    (joined : Joined keyOf book order book') (remains : 0 < order.remaining)
    (positive : ∀ side, ∀ o ∈ book.queue side, 0 < o.remaining) :
    ∀ side, ∀ o ∈ book'.queue side, 0 < o.remaining := by
  intro side o mem
  rcases mem_side order.side side with rfl | rfl
  · rcases joined.mem.mp mem with mem | rfl
    · exact positive _ o mem
    · exact remains
  · rw [joined.other] at mem
    exact positive _ o mem

/-- A bid of three at ten and an offer of four at nine. -/
def crossed : Exec (OrderBook ℚ) := do
  let book ← (new 1).insert (Order.limit "a" 1 1 .buy 10 3 1)
  book.insert (Order.limit "b" 2 1 .sell 9 4 2)

theorem matching_terminates_sample : ∃ book trades last, crossed = .ok book ∧
    book.matchTrades = .ok (trades, last) ∧ trades.length ≤ 1 ∧ last.Standing := by
  have ran : crossed.toOption.map resting = some 2 := by decide +kernel
  obtain ⟨book, inserted, count⟩ := Option.map_eq_some_iff.mp ran
  have both := toOption_eq_some.mp inserted
  obtain ⟨first, one, two⟩ := Exec.bind_ok.mp both
  have empty : ∀ side, (new 1 : OrderBook ℚ).queue side = [] := queue_new 1
  have bid := insert_spec (new_filed _ 1) (by simp [empty]) one
  have none_ : first.queue .sell = [] := bid.other.trans (empty _)
  have offer := insert_spec bid.filed (fun o mem => by
    change o ∈ first.queue .sell at mem
    rw [none_] at mem
    cases mem) two
  have stands : book.Standing := offer.filed.standing
    (offer.positive (by decide +kernel) (bid.positive (by decide +kernel) (by simp [empty])))
  obtain ⟨trades, last, matched, -, bound, after⟩ := matching_terminates stands
  refine ⟨book, trades, last, both, matched, ?_, after⟩
  rcases bound with none_ | bound
  · simp [none_]
  · rwa [count] at bound

end OrderBook

end RustTrader
