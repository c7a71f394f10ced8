import RustTrader.LastReport

/-!
# Trades

The trades a command makes, from the books it adds orders to. Every one of them
is at the limit of the order that was there first, and within the limit of the
other one; between commands no bid reaches an ask.
-/

namespace RustTrader

open Decimal

variable {D : Type} [Decimal D]

/-- Every trade of a walk is between the incoming order and a resting one it
crosses, at the price of the latter. -/
theorem Walked.trade_met [LawfulDecimal D] {incoming left : Order D}
    {queue untouched : List (Order D)} {trades : List (RawTrade D)}
    (w : Walked incoming queue trades left untouched) (nonneg : 0 ≤ incoming.remaining) :
    ∀ t ∈ trades, ∃ resting ∈ queue, ∃ filled hit quantity,
      t = sideTrade incoming.side filled hit resting.price quantity ∧
      Continues incoming filled ∧ Continues resting hit ∧
      (0 < resting.remaining → 0 < quantity) ∧
      Crosses incoming.side incoming.effectivePrice resting.effectivePrice := by
  induction w with
  | stop =>
    intro t ht
    cases ht
  | @trade incoming resting filled hit left rest untouched trades quantity open_ size fill fillHit _
      ih =>
    obtain ⟨remains, crosses⟩ := not_or.mp open_
    have f := OrderBook.applyFill_spec fill
    have g := OrderBook.applyFill_spec fillHit
    intro t ht
    rcases List.mem_cons.mp ht with rfl | ht
    · refine ⟨resting, List.mem_cons_self, filled, hit, quantity, rfl, f.toContinues,
        g.toContinues, ?_, not_not.mp crosses⟩
      intro positive
      rw [size]
      exact minDecimal_pos (lt_of_le_of_ne nonneg (Ne.symm remains)) positive
    · have nonneg' : 0 ≤ filled.remaining := fill_nonneg fill (size ▸ minDecimal_le_left _ _)
      obtain ⟨r, hr, filled', hit', quantity', same, cont, rest⟩ := ih nonneg' t ht
      rw [f.side, f.effectivePrice] at rest
      rw [f.side] at same
      exact ⟨r, List.mem_cons_of_mem _ hr, filled', hit', quantity', same,
        f.toContinues.trans cont, rest⟩

/-- What a trade has to respect. -/
structure Fair (t : RawTrade D) : Prop where
  positive : 0 < t.price
  sized : 0 < t.quantity
  buyer : t.buyer.orderType = .limit → t.price ≤ t.buyer.price
  seller : t.seller.orderType = .limit → t.seller.price ≤ t.price
  senior : t.buyer.arrival < t.seller.arrival ∧ t.buyer.orderType = .limit ∧
      t.price = t.buyer.price ∨
    t.seller.arrival < t.buyer.arrival ∧ t.seller.orderType = .limit ∧ t.price = t.seller.price

/-- Each trade has a buyer and a seller in one instrument. -/
structure Paired (i : Int) (t : RawTrade D) : Prop where
  buyer : t.buyer.side = .buy
  seller : t.seller.side = .sell
  bought : t.buyer.instrumentId = i
  sold : t.seller.instrumentId = i

namespace Coherent.Added

variable {v : View D} {gap : Gap} {order left final : Order D} {trades : List (RawTrade D)}
  {book' : OrderBook D}

theorem fair [LawfulDecimal D] (a : Added v gap order trades left final book') :
    ∀ t ∈ trades, Fair t := by
  have real := a.coherent.real rfl order.instrumentId
  intro t ht
  obtain ⟨resting, hr, filled, hit, quantity, rfl, cont, cont', sized, crosses⟩ :=
    a.walked.trade_met a.arrives.positive.le t ht
  have fit := a.coherent.fit _ _ resting hr
  have limit := real.limit _ resting hr
  have older : resting.arrival < order.arrival :=
    lt_of_le_of_lt (real.arrived _ resting hr) a.arrives.newest
  have price : resting.effectivePrice = resting.price := by rw [Order.effectivePrice, limit]
  have arrival : filled.arrival = order.arrival := cont.arrival
  have arrival' : hit.arrival = resting.arrival := cont'.arrival
  have type_eq : filled.orderType = order.orderType := cont.orderType
  have own : filled.orderType = .limit → order.effectivePrice = filled.price := by
    intro h
    rw [type_eq] at h
    rw [Order.effectivePrice, h]
    exact cont.price.symm
  have type_eq' : hit.orderType = .limit := cont'.orderType.trans limit
  have price' : hit.price = resting.price := cont'.price
  change Crosses order.side order.effectivePrice resting.effectivePrice at crosses
  rw [price] at crosses
  change Fair (sideTrade order.side filled hit resting.price quantity)
  cases hside : order.side with
  | buy =>
    rw [hside] at crosses
    refine ⟨fit.price, sized fit.positive, ?_, ?_, Or.inr ⟨?_, type_eq', price'.symm⟩⟩
    · intro h
      exact own h ▸ crosses
    · intro _
      exact price'.le
    · change hit.arrival < filled.arrival
      omega
  | sell =>
    rw [hside] at crosses
    refine ⟨fit.price, sized fit.positive, ?_, ?_, Or.inl ⟨?_, type_eq', price'.symm⟩⟩
    · intro _
      exact price'.ge
    · intro h
      exact own h ▸ crosses
    · change hit.arrival < filled.arrival
      omega

theorem paired [LawfulDecimal D] (a : Added v gap order trades left final book') :
    ∀ t ∈ trades, Paired order.instrumentId t := by
  intro t ht
  obtain ⟨resting, hr, filled, hit, quantity, rfl, cont, cont', -, -⟩ :=
    a.walked.trade_met a.arrives.positive.le t ht
  have fit := a.coherent.fit _ _ resting hr
  have side : filled.side = order.side := cont.side
  have side' : hit.side = order.side.opposite := cont'.side.trans fit.side
  have instrument : filled.instrumentId = order.instrumentId := cont.instrumentId
  have instrument' : hit.instrumentId = order.instrumentId :=
    cont'.instrumentId.trans fit.instrument
  change Paired order.instrumentId (sideTrade order.side filled hit resting.price quantity)
  cases hside : order.side with
  | buy =>
    rw [hside] at side side'
    exact ⟨side, side', instrument, instrument'⟩
  | sell =>
    rw [hside] at side side'
    exact ⟨side', side, instrument', instrument⟩

end Coherent.Added

namespace Engine

/-- What the orders a command adds to a book trade there. -/
def runTrades (e : Engine D) : Command D → Exec (List (RawTrade D))
  | .createOrder _ s new =>
    match e.fillPolicy, e.checkCreate s new with
    | .real, .ok _ => do
      let order := (e.numberOrder s new).1
      let (trades, _, _) ← (e.book order.instrumentId).add order
      pure trades
    | _, _ => pure []
  | .modifyOrderWithType _ s origId newId orderType price quantity =>
    match e.fillPolicy, e.checkModify s origId newId orderType price quantity with
    | .real, .ok entry => do
      let (removed, e1) ← e.removeFromBook s origId entry.side entry.price entry.instrumentId
      match removed with
      | .error _ => pure []
      | .ok _ => do
        let remaining ← sub quantity entry.cumQuantity
        let order := replacement .real entry newId orderType price quantity remaining
          (e.nextArrival + 1)
        if remaining = 0 then pure []
        else do
          let (trades, _, _) ← (e1.book order.instrumentId).add order
          pure trades
    | _, _ => pure []
  | .quote s i bidPrice bidQuantity askPrice askQuantity =>
    match e.checkQuote s i bidPrice bidQuantity askPrice askQuantity with
    | .error _ => pure []
    | .ok session => do
      let e1 ← e.withdrawPair s i session
      let (bidTrades, _, e2) ← e1.quoteLeg s i .buy bidPrice bidQuantity
        ("quote.bid." ++ toString i)
      let (askTrades, _, _) ← e2.quoteLeg s i .sell askPrice askQuantity
        ("quote.ask." ++ toString i)
      pure (bidTrades ++ askTrades)
  | _ => pure []

def tradesOf (e : Engine D) (command : Command D) : List (RawTrade D) :=
  match e.runTrades command with
  | .ok trades => trades
  | .error _ => []

theorem tradesOf_ok {e : Engine D} {command : Command D} {t : RawTrade D}
    (h : t ∈ e.tradesOf command) : ∃ trades, e.runTrades command = .ok trades ∧ t ∈ trades := by
  unfold tradesOf at h
  split at h
  next trades ran => exact ⟨trades, ran, h⟩
  next => cases h

theorem QuoteRun.tradesOf {e : Engine D} {s : String} {i : Int}
    {bidPrice bidQuantity askPrice askQuantity : D} {trades : List (RawTrade D)}
    (run : QuoteRun e s i bidPrice bidQuantity askPrice askQuantity trades) :
    e.tradesOf (.quote s i bidPrice bidQuantity askPrice askQuantity) = trades := by
  obtain ⟨session, e1, bidTrades, bid, e2, askTrades, ask, e3, hc, hdrop, hbid, hask, rfl⟩ := run
  unfold Engine.tradesOf runTrades
  dsimp only
  rw [hc]
  dsimp only
  rw [hdrop, Exec.ok_bind, hbid, Exec.ok_bind]
  dsimp only
  rw [hask]
  rfl

/-- A leg that trades has been added to its book. -/
theorem quoteLeg_trades {e e' : Engine D} {s : String} {i : Int} {side : Side} {price quantity : D}
    {exchangeId : String} {trades : List (RawTrade D)} {leg : Option (Order D)}
    (h : e.quoteLeg s i side price quantity exchangeId = .ok (trades, leg, e')) :
    price = 0 ∧ trades = [] ∨ price ≠ 0 ∧ ∃ final book',
      (e.book i).add (e.legOrder s i side price quantity exchangeId) =
        .ok (trades, final, book') := by
  unfold quoteLeg at h
  by_cases hz : price = 0
  · rw [if_pos hz] at h
    cases h
    exact Or.inl ⟨hz, rfl⟩
  · rw [if_neg hz] at h
    obtain ⟨⟨ts, result, ea⟩, hadd, h⟩ := Exec.bind_ok.mp h
    cases h
    obtain ⟨book', added, -⟩ := addToBook_ok hadd
    exact Or.inr ⟨hz, result, book', added⟩

/-- Every trade comes from adding one of the engine's orders to its book. -/
theorem incoming_of_trade {e : Engine D} {command : Command D} {t : RawTrade D}
    (h : t ∈ e.tradesOf command) : ∃ book order trades final book', Incoming e book order ∧
      book.add order = .ok (trades, final, book') ∧ t ∈ trades := by
  obtain ⟨trades, ran, ht⟩ := tradesOf_ok h
  cases command with
  | createOrder today s new =>
    simp only [runTrades] at ran
    split at ran
    next accepted =>
      obtain ⟨⟨ts, final, book'⟩, added, same⟩ := Exec.bind_ok.mp ran
      cases same
      have hi : (e.numberOrder s new).1.instrumentId = new.instrumentId :=
        congrArg Order.instrumentId (incoming_eq e s new)
      rw [hi] at added
      exact ⟨_, _, ts, final, book', .create s new accepted, added, ht⟩
    next =>
      cases ran
      cases ht
  | modifyOrderWithType today s origId newId orderType price quantity =>
    simp only [runTrades] at ran
    split at ran
    next entry _ checked =>
      obtain ⟨⟨removed, e1⟩, taken, ran⟩ := Exec.bind_ok.mp ran
      cases removed with
      | error err =>
        cases ran
        cases ht
      | ok removed =>
        obtain ⟨remaining, remains, ran⟩ := Exec.bind_ok.mp ran
        split at ran
        next =>
          cases ran
          cases ht
        next open_ =>
          obtain ⟨⟨ts, final, book'⟩, added, same⟩ := Exec.bind_ok.mp ran
          cases same
          exact ⟨_, _, ts, final, book', .replace s origId newId orderType price quantity entry
            removed e1 remaining checked taken remains open_, added, ht⟩
    next =>
      cases ran
      cases ht
  | quote s i bidPrice bidQuantity askPrice askQuantity =>
    simp only [runTrades] at ran
    split at ran
    next =>
      cases ran
      cases ht
    next session accepted =>
      obtain ⟨e1, withdrawn, ran⟩ := Exec.bind_ok.mp ran
      obtain ⟨⟨bidTrades, bid, e2⟩, hbid, ran⟩ := Exec.bind_ok.mp ran
      obtain ⟨⟨askTrades, ask, e3⟩, hask, ran⟩ := Exec.bind_ok.mp ran
      cases ran
      rcases List.mem_append.mp ht with ht | ht
      · rcases quoteLeg_trades hbid with ⟨-, rfl⟩ | ⟨priced, final, book', added⟩
        · cases ht
        · exact ⟨_, _, bidTrades, final, book', .bid s i bidPrice bidQuantity askPrice askQuantity
            session e1 accepted withdrawn priced, added, ht⟩
      · rcases quoteLeg_trades hask with ⟨-, rfl⟩ | ⟨priced, final, book', added⟩
        · cases ht
        · exact ⟨_, _, askTrades, final, book', .ask s i bidPrice bidQuantity askPrice askQuantity
            session e1 e2 bidTrades bid accepted withdrawn hbid priced, added, ht⟩
  | _ =>
    cases ran
    cases ht

/-- No market order rests and no bid reaches an ask. -/
structure Orderly (e : Engine D) : Prop where
  limit : ∀ i side, ∀ o ∈ (e.book i).queue side, o.orderType = .limit
  uncrossed : ∀ i, ∀ bid ∈ (e.book i).queue .buy, ∀ ask ∈ (e.book i).queue .sell,
    bid.price < ask.price

/-- The real policy keeps every book orderly and trades fairly. -/
theorem real_trades_fair [LawfulDecimal D] {e : Engine D} (h : Reachable .real e) :
    e.Orderly ∧ ∀ command, ∀ t ∈ e.tradesOf command, Fair t := by
  obtain ⟨c, policy⟩ := reachable_coherent h
  have limit : ∀ i side, ∀ o ∈ (e.book i).queue side, o.orderType = .limit :=
    fun i side => (c.real rfl i).limit side
  refine ⟨⟨limit, ?_⟩, ?_⟩
  · intro i bid hb ask ha
    have apart := (c.real rfl i).uncrossed bid hb ask ha
    rwa [Order.effectivePrice, limit i .buy bid hb, Order.effectivePrice,
      limit i .sell ask ha] at apart
  · intro command t ht
    obtain ⟨book, order, trades, final, book', incoming, ran, mem⟩ := incoming_of_trade ht
    obtain ⟨v, gap, cv, arrives, rfl⟩ := incoming.arrives c policy
    obtain ⟨left, _, -, added⟩ := Coherent.added_of_add cv arrives ran
    exact added.fair t mem

theorem real_trades_fair_sample : (played .real sampleRun).Orderly ∧
    (∀ command, ∀ t ∈ (played .real sampleRun).tradesOf command, Fair t) ∧
    ((played .real sampleRun).tradesOf (.createOrder 1 "b" sampleMarketOrder)).length = 1 :=
  have fair := real_trades_fair (played_reachable .real sampleRun)
  ⟨fair.1, fair.2, by decide +kernel⟩

end Engine

end RustTrader
