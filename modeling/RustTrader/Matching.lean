import RustTrader.Walk

/-!
# Continuous matching

`match_trades` never names the incoming order: it crosses the two tops of the
book until they no longer overlap. On a book that was uncrossed before the
order arrived, the loop of the source is the walk of the reference matcher.
-/

namespace RustTrader

open Decimal

variable {D : Type} [Decimal D]

namespace OrderBook

/-- The result of a trade between the two tops. -/
structure Traded (book : OrderBook D) (bid ask : Order D) (bids asks : List (Order D))
    (trade : RawTrade D) (book' : OrderBook D) : Prop where
  filed : Filed Order.effectivePrice book'
  instrument : book'.instrumentId = book.instrumentId
  price : trade.price = if bid.arrival < ask.arrival then bid.price else ask.price
  quantity : trade.quantity = minDecimal bid.remaining ask.remaining
  tradeId : trade.tradeId = 0
  buyer : applyFill bid trade.quantity trade.price = .ok trade.buyer
  seller : applyFill ask trade.quantity trade.price = .ok trade.seller
  bids : book'.queue .buy = keep trade.buyer ++ bids
  asks : book'.queue .sell = keep trade.seller ++ asks

theorem distinct_keep {order top : Order D} {rest : List (Order D)}
    (h : Keyed.Distinct Order.identity (top :: rest)) (hid : order.identity = top.identity) :
    Keyed.Distinct Order.identity (keep order ++ rest) := by
  have kept : keep order = [] ∨ ∃ b, keep order = [b] ∧ b.identity = top.identity := by
    rcases keep_cases order with ⟨-, hk⟩ | ⟨-, hk⟩
    · exact Or.inl hk
    · exact Or.inr ⟨order, hk, hid⟩
  have h' : Keyed.Distinct Order.identity ([] ++ top :: rest) := h
  exact h'.replace kept

theorem tradeTops_spec {book book' : OrderBook D} (filed : Filed Order.effectivePrice book)
    {bid ask : Order D} {bids asks : List (Order D)} (hb : book.queue .buy = bid :: bids)
    (ha : book.queue .sell = ask :: asks) {trade : RawTrade D}
    (h : book.tradeTops bid ask = .ok (trade, book')) :
    Traded book bid ask bids asks trade book' := by
  unfold tradeTops at h
  obtain ⟨buyer, hbuyer, h⟩ := Exec.bind_ok.mp h
  obtain ⟨seller, hseller, h⟩ := Exec.bind_ok.mp h
  obtain ⟨newBids, hbids, h⟩ := Exec.bind_ok.mp h
  obtain ⟨newAsks, hasks, h⟩ := Exec.bind_ok.mp h
  obtain ⟨rfl, rfl⟩ := Prod.mk.inj (Except.ok.inj h)
  have db := filed.distinct .buy
  have da := filed.distinct .sell
  have fb := applyFill_spec hbuyer
  have fa := applyFill_spec hseller
  obtain ⟨wfb, qb⟩ := settle_spec .buy rfl (filed.wf .buy) db hb fb.identity hbids
  obtain ⟨wfa, qa⟩ := settle_spec .sell rfl (filed.wf .sell) da ha fa.identity hasks
  rw [hb] at db
  rw [ha] at da
  refine ⟨⟨?_, ?_⟩, rfl, rfl, rfl, rfl, hbuyer, hseller, qb, qa⟩
  · intro side
    cases side
    · exact wfb
    · exact wfa
  · intro side
    cases side
    · change Keyed.Distinct Order.identity (Levels.queue .buy newBids)
      rw [qb]
      exact distinct_keep db fb.identity
    · change Keyed.Distinct Order.identity (Levels.queue .sell newAsks)
      rw [qa]
      exact distinct_keep da fa.identity

theorem tradeTops_error [LawfulDecimal D] {book : OrderBook D}
    (filed : Filed Order.effectivePrice book) {bid ask : Order D} {bids asks : List (Order D)}
    (hb : book.queue .buy = bid :: bids) (ha : book.queue .sell = ask :: asks) {p : Panic}
    (h : book.tradeTops bid ask = .error p) : p = .decimal := by
  unfold tradeTops at h
  rcases Exec.bind_error.mp h with h | ⟨buyer, hbuyer, h⟩
  · exact applyFill_error h
  rcases Exec.bind_error.mp h with h | ⟨seller, hseller, h⟩
  · exact applyFill_error h
  have fb := applyFill_spec hbuyer
  have fa := applyFill_spec hseller
  rcases Exec.bind_error.mp h with h | ⟨newBids, -, h⟩
  · exact settle_error .buy (filed.wf .buy) hb fb.identity fb.effectivePrice h
  rcases Exec.bind_error.mp h with h | ⟨newAsks, -, h⟩
  · exact settle_error .sell (filed.wf .sell) ha fa.identity fa.effectivePrice h
  · cases h

/-- The loop body on the two heads of the queues. -/
theorem matchStep_heads {book : OrderBook D} (filed : Filed Order.effectivePrice book)
    {bid ask : Order D} {bids asks : List (Order D)} (hb : book.queue .buy = bid :: bids)
    (ha : book.queue .sell = ask :: asks) :
    book.matchStep = if bid.effectivePrice < ask.effectivePrice then .ok none
      else some <$> book.tradeTops bid ask := by
  obtain ⟨-, hq⟩ | ⟨kb, lb, b, bs, hlast, htopb, hqb⟩ := (filed.wf .buy).best_cases .buy
  · exact absurd (hb.symm.trans hq) (List.cons_ne_nil _ _)
  obtain ⟨-, hq⟩ | ⟨ka, la, a, as, hfirst, htopa, hqa⟩ := (filed.wf .sell).best_cases .sell
  · exact absurd (ha.symm.trans hq) (List.cons_ne_nil _ _)
  obtain ⟨rfl, rfl⟩ := List.cons.inj (hb.symm.trans hqb)
  obtain ⟨rfl, rfl⟩ := List.cons.inj (ha.symm.trans hqa)
  simp only [Levels.best?, levels] at hlast hfirst
  simp only [matchStep, hlast, hfirst, htopb, htopa, Exec.ok_bind]
  rfl

theorem matchStep_empty {book : OrderBook D} (filed : Filed Order.effectivePrice book)
    (h : book.queue .buy = [] ∨ book.queue .sell = []) : book.matchStep = .ok none := by
  obtain ⟨hnone, -⟩ | ⟨kb, lb, b, bs, hlast, -, hqb⟩ := (filed.wf .buy).best_cases .buy
  · simp only [Levels.best?, levels] at hnone
    simp only [matchStep, hnone]
    rfl
  obtain ⟨hnone, -⟩ | ⟨ka, la, a, as, hfirst, -, hqa⟩ := (filed.wf .sell).best_cases .sell
  · simp only [Levels.best?, levels] at hnone hlast
    simp only [matchStep, hnone, hlast]
    rfl
  · rcases h with h | h
    · exact absurd (h.symm.trans hqb) (List.cons_ne_nil _ _).symm
    · exact absurd (h.symm.trans hqa) (List.cons_ne_nil _ _).symm

/-- No bid reaches an ask. -/
def Uncrossed (book : OrderBook D) : Prop :=
  ∀ bid ∈ book.queue .buy, ∀ ask ∈ book.queue .sell, bid.effectivePrice < ask.effectivePrice

theorem matchStep_uncrossed {book : OrderBook D} (filed : Filed Order.effectivePrice book)
    (uncrossed : Uncrossed book) : book.matchStep = .ok none := by
  cases hb : book.queue .buy with
  | nil => exact matchStep_empty filed (Or.inl hb)
  | cons bid bids =>
    cases ha : book.queue .sell with
    | nil => exact matchStep_empty filed (Or.inr ha)
    | cons ask asks =>
      rw [matchStep_heads filed hb ha, if_pos (uncrossed bid (by simp [hb]) ask (by simp [ha]))]

theorem matchLoop_uncrossed {book : OrderBook D} (filed : Filed Order.effectivePrice book)
    (uncrossed : Uncrossed book) {fuel : Nat} (hfuel : 0 < fuel) :
    matchLoop fuel book = .ok ([], book) := by
  obtain ⟨n, rfl⟩ := Nat.exists_eq_succ_of_ne_zero hfuel.ne'
  simp only [matchLoop, matchStep_uncrossed filed uncrossed]
  rfl

theorem uncrossed_iff (side : Side) (book : OrderBook D) : Uncrossed book ↔
    ∀ x ∈ book.queue side, ∀ r ∈ book.queue side.opposite,
      ¬ Crosses side x.effectivePrice r.effectivePrice := by
  cases side with
  | buy =>
    simp only [Uncrossed, Crosses, Side.opposite, not_le]
  | sell =>
    simp only [Uncrossed, Crosses, Side.opposite, not_le]
    exact ⟨fun h x hx r hr => h r hr x hx, fun h b hb a ha => h a ha b hb⟩

/-- One round when an incoming order heads its side: it trades with the head of
the other side at that order's price, or the round is idle. -/
theorem matchStep_incoming {book : OrderBook D} (filed : Filed Order.effectivePrice book)
    {side : Side} {incoming resting : Order D} {own rest : List (Order D)}
    (hside : incoming.side = side) (hown : book.queue side = incoming :: own)
    (hopp : book.queue side.opposite = resting :: rest) (later : resting.arrival < incoming.arrival)
    (crosses : Crosses side incoming.effectivePrice resting.effectivePrice)
    {result : Option (RawTrade D × OrderBook D)} (h : book.matchStep = .ok result) :
    ∃ filled hit book' quantity, quantity = minDecimal incoming.remaining resting.remaining ∧
      applyFill incoming quantity resting.price = .ok filled ∧
      applyFill resting quantity resting.price = .ok hit ∧
      result = some (sideTrade side filled hit resting.price quantity, book') ∧
      Filed Order.effectivePrice book' ∧ book'.instrumentId = book.instrumentId ∧
      book'.queue side = keep filled ++ own ∧ book'.queue side.opposite = keep hit ++ rest := by
  have traded : ∀ {bid ask : Order D} {bids asks : List (Order D)},
      book.queue .buy = bid :: bids → book.queue .sell = ask :: asks →
      ask.effectivePrice ≤ bid.effectivePrice →
      ∃ trade book', result = some (trade, book') ∧
        Traded book bid ask bids asks trade book' := by
    intro bid ask bids asks hb ha hle
    rw [matchStep_heads filed hb ha, if_neg (not_lt.mpr hle)] at h
    cases ht : book.tradeTops bid ask with
    | error p => rw [ht] at h; cases h
    | ok pair =>
      rw [ht] at h
      exact ⟨pair.1, pair.2, (Except.ok.inj h).symm, tradeTops_spec filed hb ha ht⟩
  cases side with
  | buy =>
    obtain ⟨trade, book', hr, t⟩ := traded hown hopp crosses
    have hprice : trade.price = resting.price := by rw [t.price, if_neg later.asymm]
    refine ⟨trade.buyer, trade.seller, book', trade.quantity, t.quantity, ?_, ?_, ?_, t.filed,
      t.instrument, t.bids, t.asks⟩
    · rw [← hprice]; exact t.buyer
    · rw [← hprice]; exact t.seller
    · rw [hr, ← hprice, sideTrade, ← t.tradeId]
  | sell =>
    obtain ⟨trade, book', hr, t⟩ := traded hopp hown crosses
    have hprice : trade.price = resting.price := by rw [t.price, if_pos later]
    refine ⟨trade.seller, trade.buyer, book', trade.quantity, ?_, ?_, ?_, ?_, t.filed,
      t.instrument, t.asks, t.bids⟩
    · rw [t.quantity, minDecimal_comm]
    · rw [← hprice]; exact t.seller
    · rw [← hprice]; exact t.buyer
    · rw [hr, ← hprice, sideTrade, ← t.tradeId]

theorem matchStep_error [LawfulDecimal D] {book : OrderBook D}
    (filed : Filed Order.effectivePrice book) {p : Panic} (h : book.matchStep = .error p) :
    p = .decimal := by
  cases hb : book.queue .buy with
  | nil => rw [matchStep_empty filed (Or.inl hb)] at h; cases h
  | cons bid bids =>
    cases ha : book.queue .sell with
    | nil => rw [matchStep_empty filed (Or.inr ha)] at h; cases h
    | cons ask asks =>
      rw [matchStep_heads filed hb ha] at h
      split at h
      · cases h
      · cases ht : book.tradeTops bid ask with
        | ok pair => rw [ht] at h; cases h
        | error q =>
          rw [ht] at h
          cases h
          exact tradeTops_error filed hb ha ht

/-- What trades with any resting order trades with the best one. -/
theorem Filed.crosses_head {book : OrderBook D} (filed : Filed Order.effectivePrice book)
    {side : Side} {best r : Order D} {rest : List (Order D)}
    (hq : book.queue side.opposite = best :: rest) (hr : r ∈ best :: rest) {p : D}
    (h : Crosses side p r.effectivePrice) : Crosses side p best.effectivePrice := by
  have sorted := (filed.wf side.opposite).queue_sorted side.opposite
  rw [← queue, hq] at sorted
  rcases List.mem_cons.mp hr with rfl | hr
  · exact h
  · have hle := (List.pairwise_cons.mp sorted).1 r hr
    cases side with
    | buy => exact le_trans (not_lt.mp hle) h
    | sell => exact le_trans h (not_lt.mp hle)

/-- What the loop needs to know about the side an incoming order meets. -/
structure Met (incoming : Order D) (queue : List (Order D)) : Prop where
  earlier : ∀ r ∈ queue, r.arrival < incoming.arrival
  positive : ∀ r ∈ queue, 0 < r.remaining

/-- The outcome of the loop for an incoming order that had `ahead` and `behind`
around it on its own side. -/
structure Looped (side : Side) (incoming : Order D) (ahead behind queue : List (Order D))
    (trades : List (RawTrade D)) (book : OrderBook D) : Prop where
  filed : Filed Order.effectivePrice book
  walked : ∃ left untouched, walk incoming queue = .ok (trades, left, untouched) ∧
    book.queue side = ahead ++ keep left ++ behind ∧ book.queue side.opposite = untouched

/-- An incoming order at the head of its side, with `queue` to trade against; nothing
behind it crosses. -/
structure Faces (book : OrderBook D) (side : Side) (incoming : Order D)
    (own queue : List (Order D)) : Prop where
  filed : Filed Order.effectivePrice book
  sided : incoming.side = side
  open_ : incoming.remaining ≠ 0
  heads : book.queue side = incoming :: own
  opposite : book.queue side.opposite = queue
  met : Met incoming queue
  apart : ∀ x ∈ own, ∀ r ∈ queue, ¬ Crosses side x.effectivePrice r.effectivePrice

theorem Faces.uncrossed {book : OrderBook D} {side : Side} {incoming : Order D}
    {own queue : List (Order D)} (f : Faces book side incoming own queue)
    (stuck : ∀ r ∈ queue.head?, ¬ Crosses side incoming.effectivePrice r.effectivePrice) :
    Uncrossed book := by
  rw [uncrossed_iff side, f.heads, f.opposite]
  intro x hx r hr hcross
  rcases List.mem_cons.mp hx with rfl | hx
  · cases queue with
    | nil => cases hr
    | cons best rest => exact stuck best rfl (f.filed.crosses_head f.opposite hr hcross)
  · exact f.apart x hx r hr hcross

/-- A round with the head of the other side ends the incoming order, and with it the loop,
or uses up the head. -/
theorem Faces.round [LawfulDecimal D] {book : OrderBook D} {side : Side}
    {incoming resting : Order D} {own rest : List (Order D)}
    (f : Faces book side incoming own (resting :: rest))
    (crosses : Crosses side incoming.effectivePrice resting.effectivePrice)
    {result : Option (RawTrade D × OrderBook D)} (h : book.matchStep = .ok result) :
    ∃ filled hit mid quantity, quantity = minDecimal incoming.remaining resting.remaining ∧
      applyFill incoming quantity resting.price = .ok filled ∧
      applyFill resting quantity resting.price = .ok hit ∧
      result = some (sideTrade side filled hit resting.price quantity, mid) ∧
      mid.instrumentId = book.instrumentId ∧
      (filled.remaining = 0 ∧ Filed Order.effectivePrice mid ∧ Uncrossed mid ∧
          mid.queue side = own ∧ mid.queue side.opposite = keep hit ++ rest ∨
        filled.remaining ≠ 0 ∧ keep hit = [] ∧ Faces mid side filled own rest) := by
  obtain ⟨filled, hit, mid, quantity, size, fill, fillHit, rfl, filed, instrument, own',
    opposite⟩ := matchStep_incoming f.filed f.sided f.heads f.opposite
      (f.met.earlier resting List.mem_cons_self) crosses h
  refine ⟨filled, hit, mid, quantity, size, fill, fillHit, rfl, instrument, ?_⟩
  have spec := applyFill_spec fill
  have apart : ∀ x ∈ own, ∀ r ∈ keep hit ++ rest,
      ¬ Crosses side x.effectivePrice r.effectivePrice := by
    intro x hx r hr
    rcases List.mem_append.mp hr with hr | hr
    · rw [(mem_keep.mp hr).1, (applyFill_spec fillHit).effectivePrice]
      exact f.apart x hx resting List.mem_cons_self
    · exact f.apart x hx r (List.mem_cons_of_mem _ hr)
  by_cases done : filled.remaining = 0
  · rw [keep, if_pos done, List.nil_append] at own'
    refine .inl ⟨done, filed, ?_, own', opposite⟩
    rw [uncrossed_iff side, own', opposite]
    exact apart
  · have gone : keep hit = [] := if_pos ((filled_or_hit size fill fillHit).resolve_left done)
    rw [keep, if_neg done] at own'
    rw [gone, List.nil_append] at opposite apart
    refine .inr ⟨done, gone, filed, spec.side.trans f.sided, done, own', opposite, ?_, apart⟩
    refine ⟨fun r hr => ?_, fun r hr => f.met.positive r (List.mem_cons_of_mem _ hr)⟩
    rw [spec.arrival]
    exact f.met.earlier r (List.mem_cons_of_mem _ hr)

theorem matchLoop_walk [LawfulDecimal D] {side : Side} {own : List (Order D)} :
    ∀ (queue : List (Order D)) (incoming : Order D) (book : OrderBook D) (fuel : Nat),
    Faces book side incoming own queue → queue.length < fuel →
    ∀ {trades : List (RawTrade D)} {book' : OrderBook D},
    matchLoop fuel book = .ok (trades, book') →
    Looped side incoming [] own queue trades book' ∧ book'.instrumentId = book.instrumentId := by
  intro queue
  induction queue with
  | nil =>
    intro incoming book fuel f hfuel trades book' h
    rw [matchLoop_uncrossed f.filed (f.uncrossed (by simp)) hfuel] at h
    obtain ⟨rfl, rfl⟩ := Prod.mk.inj (Except.ok.inj h)
    refine ⟨⟨f.filed, incoming, [], rfl, ?_, f.opposite⟩, rfl⟩
    simp [f.heads, keep, f.open_]
  | cons resting rest ih =>
    intro incoming book fuel f hfuel trades book' h
    by_cases hc : Crosses side incoming.effectivePrice resting.effectivePrice
    · obtain ⟨fuel, rfl⟩ : ∃ n, fuel = n + 1 := ⟨fuel - 1, by simp at hfuel; omega⟩
      rw [List.length_cons] at hfuel
      have open_ : ¬ Halts incoming resting := by
        rintro (hz | hn)
        · exact f.open_ hz
        · rw [f.sided] at hn; exact hn hc
      unfold matchLoop at h
      obtain ⟨result, hstep, h⟩ := Exec.bind_ok.mp h
      obtain ⟨filled, hit, mid, quantity, size, fill, fillHit, rfl, hinst, goes⟩ := f.round hc hstep
      obtain ⟨⟨ts, last⟩, hloop, h⟩ := Exec.bind_ok.mp h
      obtain ⟨rfl, rfl⟩ := Prod.mk.inj (Except.ok.inj h)
      have tail := walk_trade rest open_ size fill fillHit
      rw [f.sided] at tail
      rcases goes with ⟨done, filed, idle, own', opposite⟩ | ⟨-, gone, f'⟩
      · rw [matchLoop_uncrossed filed idle (by omega)] at hloop
        obtain ⟨rfl, rfl⟩ := Prod.mk.inj (Except.ok.inj hloop)
        refine ⟨⟨filed, filled, keep hit ++ rest, ?_, by simpa [keep, done] using own', opposite⟩,
          hinst⟩
        rw [tail, walk_stop (fun r _ => Or.inl done)]
        rfl
      · obtain ⟨⟨filed, left, untouched, hw, ho, hq⟩, hi⟩ :=
          ih filled mid fuel f' (by omega) hloop
        refine ⟨⟨filed, left, untouched, ?_, ho, hq⟩, hi.trans hinst⟩
        rw [tail, gone, hw]
        rfl
    · have stuck : ∀ r ∈ (resting :: rest).head?,
          ¬ Crosses side incoming.effectivePrice r.effectivePrice := by
        intro r hr
        cases hr
        exact hc
      rw [matchLoop_uncrossed f.filed (f.uncrossed stuck) (Nat.zero_lt_of_lt hfuel)] at h
      obtain ⟨rfl, rfl⟩ := Prod.mk.inj (Except.ok.inj h)
      refine ⟨⟨f.filed, incoming, resting :: rest, walk_stop ?_, ?_, f.opposite⟩, rfl⟩
      · intro r hr
        right
        rw [f.sided]
        exact stuck r hr
      · simp [f.heads, keep, f.open_]

theorem matchLoop_error [LawfulDecimal D] {side : Side} {own : List (Order D)} :
    ∀ (queue : List (Order D)) (incoming : Order D) (book : OrderBook D) (fuel : Nat),
    Faces book side incoming own queue → queue.length < fuel →
    ∀ {p : Panic}, matchLoop fuel book = .error p → p = .decimal := by
  intro queue
  induction queue with
  | nil =>
    intro incoming book fuel f hfuel p h
    rw [matchLoop_uncrossed f.filed (f.uncrossed (by simp)) hfuel] at h
    cases h
  | cons resting rest ih =>
    intro incoming book fuel f hfuel p h
    obtain ⟨fuel, rfl⟩ : ∃ n, fuel = n + 1 := ⟨fuel - 1, by simp at hfuel; omega⟩
    rw [List.length_cons] at hfuel
    by_cases hc : Crosses side incoming.effectivePrice resting.effectivePrice
    · unfold matchLoop at h
      rcases Exec.bind_error.mp h with h | ⟨result, hstep, h⟩
      · exact matchStep_error f.filed h
      obtain ⟨filled, hit, mid, quantity, -, -, -, rfl, -, goes⟩ := f.round hc hstep
      rcases Exec.bind_error.mp h with h | ⟨run, -, h⟩
      · rcases goes with ⟨-, filed, idle, -, -⟩ | ⟨-, -, f'⟩
        · rw [matchLoop_uncrossed filed idle (by omega)] at h
          cases h
        · exact ih filled mid fuel f' (by omega) h
      · cases h
    · have stuck : ∀ r ∈ (resting :: rest).head?,
          ¬ Crosses side incoming.effectivePrice r.effectivePrice := by
        intro r hr
        cases hr
        exact hc
      rw [matchLoop_uncrossed f.filed (f.uncrossed stuck) (Nat.succ_pos fuel)] at h
      cases h

/-- The state of a book when an order may be added to it. -/
structure Admits (book : OrderBook D) (order : Order D) : Prop where
  filed : Filed Order.effectivePrice book
  uncrossed : Uncrossed book
  positive : 0 < order.remaining
  fresh : ∀ o ∈ book.queue order.side, o.identity ≠ order.identity
  apart : order.side = .sell ∨ ∀ r ∈ book.queue order.side.opposite, r.identity ≠ order.identity
  met : Met order (book.queue order.side.opposite)

/-- The effect of a successful `add`. -/
structure Added (book : OrderBook D) (order : Order D) (trades : List (RawTrade D))
    (final : Option (Order D)) (book' : OrderBook D) : Prop where
  filed : Filed Order.effectivePrice book'
  instrument : book'.instrumentId = book.instrumentId
  refines : reference order (book.queue order.side) (book.queue order.side.opposite) =
    .ok ⟨trades, final.getD order, book'.queue order.side, book'.queue order.side.opposite⟩
  final : final.isSome

theorem Added.walked {book book' : OrderBook D} {order : Order D} {trades : List (RawTrade D)}
    {final : Option (Order D)} (added : Added book order trades final book') :
    ∃ left f, final = some f ∧
      Walked { order with state := .booked } (book.queue order.side.opposite) trades left
        (book'.queue order.side.opposite) ∧
      conclude left (book.queue order.side) = (f, book'.queue order.side) := by
  have h := added.refines
  unfold reference at h
  obtain ⟨⟨ts, left, untouched⟩, hw, h⟩ := Exec.bind_ok.mp h
  obtain ⟨f, rfl⟩ := Option.isSome_iff_exists.mp added.final
  simp only [Option.getD_some] at h
  have h := Except.ok.inj h
  simp only [Outcome.mk.injEq] at h
  obtain ⟨rfl, hf, hown, rfl⟩ := h
  exact ⟨left, f, rfl, walked_of_walk hw, Prod.ext hf hown⟩

/-- An earlier order ahead of an order crosses nothing, so neither does that order. -/
theorem Admits.blocked {book : OrderBook D} {order f : Order D} (admits : Admits book order)
    (member : f ∈ book.queue order.side)
    (ahead : ¬ Levels.Prefers order.side order.effectivePrice f.effectivePrice) :
    ∀ r ∈ book.queue order.side.opposite,
      ¬ Crosses order.side order.effectivePrice r.effectivePrice := by
  intro r hr hcross
  apply (uncrossed_iff order.side book).mp admits.uncrossed f member r hr
  cases hside : order.side with
  | buy =>
    simp only [hside, Levels.Prefers, not_lt] at ahead
    simp only [hside, Crosses] at hcross
    exact hcross.trans ahead
  | sell =>
    simp only [hside, Levels.Prefers, not_lt] at ahead
    simp only [hside, Crosses] at hcross
    exact ahead.trans hcross

/-- The budget of the loop covers the other side. -/
theorem length_lt_budget (book : OrderBook D) (side : Side) :
    (book.queue side).length < restingCount book.bids + restingCount book.asks + 1 := by
  have hb := Levels.restingCount_eq .buy book.bids
  have ha := Levels.restingCount_eq .sell book.asks
  cases side <;> simp only [queue, levels] <;> omega

/-- Matching after the incoming order took its place on its own side. -/
theorem matchTrades_walk [LawfulDecimal D] {book mid : OrderBook D} {order : Order D}
    (admits : Admits book order) (joined : Joined Order.effectivePrice book order mid) :
    (∀ p, mid.matchTrades = .error p → p = .decimal) ∧
    ∀ trades book', mid.matchTrades = .ok (trades, book') →
      ∃ left untouched, walk order (book.queue order.side.opposite) = .ok
        (trades, left, untouched) ∧
        Filed Order.effectivePrice book' ∧ book'.instrumentId = book.instrumentId ∧
        book'.queue order.side = (if left.remaining = 0 then book.queue order.side
          else place left (book.queue order.side)) ∧
        book'.queue order.side.opposite = untouched := by
  obtain ⟨front, back, hq, hq', hf, hb⟩ := joined.split
  have apart := (uncrossed_iff order.side book).mp admits.uncrossed
  have hopp := joined.other
  have budget := length_lt_budget mid order.side.opposite
  rw [hopp] at budget
  have placed : ∀ left, Continues order left → front ++ keep left ++ back =
      if left.remaining = 0 then book.queue order.side else place left (book.queue order.side) := by
    intro left c
    by_cases hz : left.remaining = 0
    · simp [keep, hz, hq]
    · rw [if_neg hz, place_congr c _ hq hf hb]
      simp [keep, hz]
  cases front with
  | nil =>
    have faces : Faces mid order.side order back (book.queue order.side.opposite) :=
      ⟨joined.filed, rfl, admits.positive.ne', by simpa using hq', hopp, admits.met,
        fun x hx r hr => apart x (by rw [hq]; simpa using hx) r hr⟩
    constructor
    · exact fun p h => matchLoop_error _ order mid _ faces budget h
    · intro trades book' h
      obtain ⟨⟨filed', left, untouched, hw, ho, hu⟩, hi⟩ :=
        matchLoop_walk _ order mid _ faces budget h
      refine ⟨left, untouched, hw, filed', hi.trans joined.instrument, ?_, hu⟩
      rw [ho]
      exact placed left (walked_of_walk hw).continues
  | cons f fs =>
    have stuck := admits.blocked (by rw [hq]; simp) (hf f List.mem_cons_self)
    have idle : Uncrossed mid := by
      rw [uncrossed_iff order.side, hopp]
      intro x hx r hr
      rcases joined.mem.mp hx with hx | rfl
      · exact apart x hx r hr
      · exact stuck r hr
    have loop : mid.matchTrades = .ok ([], mid) :=
      matchLoop_uncrossed joined.filed idle (Nat.succ_pos _)
    rw [loop]
    constructor
    · intro p h
      cases h
    · intro trades book' h
      obtain ⟨rfl, rfl⟩ := Prod.mk.inj (Except.ok.inj h)
      refine ⟨order, _, walk_stop ?_, joined.filed, joined.instrument, ?_, hopp⟩
      · intro r hr
        exact Or.inr (stuck r (List.mem_of_mem_head? hr))
      · rw [← placed order (.refl order), hq']
        simp [keep, admits.positive.ne']

theorem Admits.booked {book : OrderBook D} {order : Order D} (admits : Admits book order) :
    Admits book { order with state := .booked } :=
  ⟨admits.filed, admits.uncrossed, admits.positive, admits.fresh, admits.apart,
    ⟨admits.met.earlier, admits.met.positive⟩⟩

/-- Removing the order that was placed gives its side back. -/
theorem remove_placed {after : OrderBook D} {left : Order D} {queue : List (Order D)}
    (filed : Filed Order.effectivePrice after) (own : after.queue left.side = place left queue)
    {removed : Option (Order D × OrderBook D)}
    (h : after.remove left.sessionId left.id left.side left.effectivePrice = .ok removed) :
    ∃ last, removed = some (cancelledIfActive left, last) ∧
      Filed Order.effectivePrice last ∧ last.instrumentId = after.instrumentId ∧
      last.queue left.side.opposite = after.queue left.side.opposite ∧
      last.queue left.side = queue := by
  obtain ⟨last, rfl, gone⟩ :=
    remove_of_mem filed (own ▸ mem_place.mpr (Or.inl rfl)) h
  obtain ⟨pre, post, hsplit, hlast⟩ := gone.split
  have distinct := filed.distinct left.side
  rw [own] at hsplit distinct
  exact ⟨last, rfl, gone.filed, gone.instrument, gone.other,
    hlast.trans (place_inverse distinct hsplit)⟩

/-- How the incoming order ends, from what the walk left of it. -/
theorem finish_spec [LawfulDecimal D] {book after last : OrderBook D} {order left : Order D}
    {trades : List (RawTrade D)} {untouched : List (Order D)} (admits : Admits book order)
    (booked : order.state = .booked)
    (walked : Walked order (book.queue order.side.opposite) trades left untouched)
    (filed : Filed Order.effectivePrice after)
    (own : after.queue order.side = if left.remaining = 0 then book.queue order.side
      else place left (book.queue order.side)) {final : Option (Order D)}
    (h : after.finish order trades = .ok (final, last)) :
    Filed Order.effectivePrice last ∧ last.instrumentId = after.instrumentId ∧
      last.queue order.side.opposite = after.queue order.side.opposite ∧
      ∃ o, final = some o ∧ (o, last.queue order.side) = conclude left (book.queue order.side) := by
  have continues := walked.continues
  have located : left.remaining ≠ 0 → left ∈ after.queue order.side := by
    intro hz
    rw [own, if_neg hz]
    exact mem_place.mpr (Or.inl rfl)
  unfold finish at h
  cases hloc : after.locate order.sessionId order.id order.side order.effectivePrice with
  | none =>
    have gone : left.remaining = 0 := by
      by_contra hz
      rw [filed.locate_some.mpr ⟨located hz, continues.identity, continues.effectivePrice⟩] at hloc
      cases hloc
    have snapshot : lastSnapshot order.identity trades = some left := by
      rcases walked.lastSnapshot admits.apart with ⟨-, rfl⟩ | hs
      · exact absurd gone admits.positive.ne'
      · exact hs
    simp only [hloc] at h
    obtain ⟨rfl, rfl⟩ := Prod.mk.inj (Except.ok.inj h)
    refine ⟨filed, rfl, rfl, left, snapshot, ?_⟩
    rw [own, conclude_exhausted _ gone, if_pos gone]
  | some resting =>
    obtain ⟨hm, hid, -⟩ := filed.locate_some.mp hloc
    have remains : left.remaining ≠ 0 := by
      intro hz
      rw [own, if_pos hz] at hm
      exact admits.fresh resting hm hid
    obtain rfl : resting = left := (filed.distinct order.side).eq_of_key hm (located remains)
      (hid.trans continues.identity.symm)
    have open_ : resting.state ≠ .cancelled := by
      rcases walked.state with ⟨-, rfl⟩ | ⟨-, hs⟩
      · rw [booked]
        decide
      · rw [hs, if_neg remains]
        decide
    have pos : 0 < resting.remaining :=
      lt_of_le_of_ne (walked.nonneg admits.positive.le) (Ne.symm remains)
    rw [if_neg remains] at own
    simp only [hloc, pos, open_, and_true, or_false] at h
    cases hmarket : order.orderType with
    | market =>
      rw [if_pos hmarket] at h
      obtain ⟨removed, hremove, h⟩ := Exec.bind_ok.mp h
      obtain ⟨hsession, hid'⟩ := Prod.mk.inj hid
      rw [← continues.effectivePrice, ← hsession, ← hid', ← continues.side] at hremove
      rw [← continues.side] at own ⊢
      obtain ⟨last', rfl, filed', instrument, other, back⟩ := remove_placed filed own hremove
      obtain ⟨rfl, rfl⟩ := Prod.mk.inj (Except.ok.inj h)
      refine ⟨filed', instrument, other, _, rfl, ?_⟩
      have cancelled : ({ cancelledIfActive resting with state := .cancelled } : Order D) =
          { resting with state := .cancelled } := by
        unfold cancelledIfActive
        split <;> rfl
      rw [conclude_market _ remains (continues.orderType.trans hmarket), back]
      exact congrArg (·, book.queue resting.side) cancelled
    | limit =>
      rw [if_neg (by rw [hmarket]; decide)] at h
      obtain ⟨rfl, rfl⟩ := Prod.mk.inj (Except.ok.inj h)
      refine ⟨filed, rfl, rfl, resting, rfl, ?_⟩
      rw [own, conclude_limit _ remains (continues.orderType.trans hmarket)]

theorem finish_error [LawfulDecimal D] {after : OrderBook D} {order : Order D}
    {trades : List (RawTrade D)} (filed : Filed Order.effectivePrice after) {p : Panic}
    (h : after.finish order trades = .error p) : p = .decimal := by
  unfold finish at h
  cases hloc : after.locate order.sessionId order.id order.side order.effectivePrice with
  | none => simp [hloc, pure, Except.pure] at h
  | some resting =>
    obtain ⟨hm, hid, hkey⟩ := filed.locate_some.mp hloc
    simp only [hloc] at h
    split at h
    · rcases Exec.bind_error.mp h with h | ⟨removed, hremove, h⟩
      · exact remove_error filed h
      obtain ⟨hsession, hid'⟩ := Prod.mk.inj hid
      rw [← hkey, ← hsession, ← hid'] at hremove
      obtain ⟨last, rfl, -⟩ := remove_of_mem filed hm hremove
      cases h
    · cases h

theorem add_spec [LawfulDecimal D] {book book' : OrderBook D} {order : Order D}
    (admits : Admits book order) {trades : List (RawTrade D)} {final : Option (Order D)}
    (h : book.add order = .ok (trades, final, book')) : Added book order trades final book' := by
  unfold add at h
  obtain ⟨mid, hmid, h⟩ := Exec.bind_ok.mp h
  obtain ⟨⟨ts, after⟩, hloop, h⟩ := Exec.bind_ok.mp h
  obtain ⟨⟨f, last⟩, hfinish, h⟩ := Exec.bind_ok.mp h
  cases h
  have joined := insert_spec admits.filed admits.booked.fresh hmid
  obtain ⟨left, untouched, hw, filed, hi, hown, hopp⟩ :=
    (matchTrades_walk admits.booked joined).2 trades after hloop
  obtain ⟨filed', hi', hopp', o, rfl, hc⟩ :=
    finish_spec admits.booked rfl (walked_of_walk hw) filed hown hfinish
  refine ⟨filed', hi'.trans hi, ?_, rfl⟩
  have hc' : conclude left (book.queue order.side) = (o, book'.queue order.side) := hc.symm
  have hopp'' : book'.queue order.side.opposite = untouched := hopp'.trans hopp
  rw [reference, hw, Exec.ok_bind, hopp'']
  simp only [hc']
  rfl

theorem add_error [LawfulDecimal D] {book : OrderBook D} {order : Order D}
    (admits : Admits book order) {p : Panic} (h : book.add order = .error p) :
    p = .decimal ∨ p = .priorityExhausted := by
  unfold add at h
  rcases Exec.bind_error.mp h with h | ⟨mid, hmid, h⟩
  · exact insert_error admits.filed admits.booked.fresh h
  left
  have joined := insert_spec admits.filed admits.booked.fresh hmid
  obtain ⟨loopError, loopOk⟩ := matchTrades_walk admits.booked joined
  rcases Exec.bind_error.mp h with h | ⟨⟨ts, after⟩, hloop, h⟩
  · exact loopError p h
  obtain ⟨left, untouched, -, filed, -, -, -⟩ := loopOk ts after hloop
  rcases Exec.bind_error.mp h with h | ⟨⟨f, last⟩, -, h⟩
  · exact finish_error filed h
  · cases h

end OrderBook

end RustTrader
