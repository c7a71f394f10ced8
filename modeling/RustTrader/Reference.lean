import RustTrader.Requests

/-!
# Matching is plain price-time matching

The plain matcher sorts the resting orders of each side, best price first and
then by arrival, and walks over the opposite side. Every order the engine adds
to a book of the real policy is matched exactly like that.
-/

namespace RustTrader

open Decimal

variable {D : Type} [Decimal D]

/-- `a` is served before `b`: at a better price, or at the same price earlier. -/
def Senior (side : Side) (a b : Order D) : Prop :=
  Levels.Prefers side a.price b.price ∨ a.price = b.price ∧ a.arrival ≤ b.arrival

instance (side : Side) (a b : Order D) : Decidable (Senior side a b) := by
  unfold Senior
  infer_instance

/-- Resting orders in the order in which they are served. -/
def rankOrders (side : Side) (resting : List (Order D)) : List (Order D) :=
  resting.mergeSort (fun a b => Senior side a b)

/-- The plain matcher: it knows the resting orders of both sides, in no
particular order. -/
def plainMatch (incoming : Order D) (own opposite : List (Order D)) : Exec (Outcome D) :=
  reference incoming (rankOrders incoming.side own) (rankOrders incoming.side.opposite opposite)

theorem Senior.trans {side : Side} {a b c : Order D} (h : Senior side a b)
    (h' : Senior side b c) : Senior side a c := by
  rcases h with h | ⟨hp, ha⟩
  · left
    rcases h' with h' | ⟨hp', -⟩
    · cases side with
      | buy => exact lt_trans h' h
      | sell => exact lt_trans h h'
    · rw [← hp']
      exact h
  · rcases h' with h' | ⟨hp', ha'⟩
    · left
      rw [hp]
      exact h'
    · exact Or.inr ⟨hp.trans hp', ha.trans ha'⟩

theorem Senior.total (side : Side) (a b : Order D) : Senior side a b ∨ Senior side b a := by
  rcases lt_trichotomy a.price b.price with h | h | h
  · cases side with
    | buy => exact Or.inr (Or.inl h)
    | sell => exact Or.inl (Or.inl h)
  · rcases Nat.le_total a.arrival b.arrival with ha | ha
    · exact Or.inl (Or.inr ⟨h, ha⟩)
    · exact Or.inr (Or.inr ⟨h.symm, ha⟩)
  · cases side with
    | buy => exact Or.inl (Or.inl h)
    | sell => exact Or.inr (Or.inl h)

theorem Senior.antisymm {side : Side} {a b : Order D} (h : Senior side a b)
    (h' : Senior side b a) : a.price = b.price ∧ a.arrival = b.arrival := by
  rcases h with h | ⟨hp, ha⟩
  · rcases h' with h' | ⟨hp', -⟩
    · cases side with
      | buy => exact absurd h' (lt_asymm h)
      | sell => exact absurd h' (lt_asymm h)
    · rw [hp'] at h
      cases side <;> exact absurd h (lt_irrefl _)
  · rcases h' with h' | ⟨-, ha'⟩
    · rw [hp] at h'
      cases side <;> exact absurd h' (lt_irrefl _)
    · exact ⟨hp, le_antisymm ha ha'⟩

/-- A book's queue is the ranking of its resting orders. -/
theorem rankOrders_queue {book : OrderBook D} {arrival : Nat}
    (filed : OrderBook.Filed Order.price book) (real : RealBook book arrival) (side : Side)
    {resting : List (Order D)} (same : resting.Perm (book.queue side)) :
    rankOrders side resting = book.queue side := by
  have sorted := (filed.wf side).queue_sorted side
  have seniority := real.seniority side
  have ranked : (book.queue side).Pairwise (fun a b => decide (Senior side a b) = true) := by
    refine (sorted.and seniority).imp ?_
    rintro a b ⟨hp, ha⟩
    rw [decide_eq_true_eq]
    rcases Senior.total side a b with h | h
    · exact h
    · rcases h with h | ⟨hprice, -⟩
      · exact absurd h hp
      · exact Or.inr ⟨hprice.symm, (ha hprice.symm).le⟩
  have apart : (book.queue side).Pairwise
      (fun a b => a.price = b.price → a.arrival ≠ b.arrival) :=
    seniority.imp (fun h hp => (h hp).ne)
  have perm := (List.mergeSort_perm resting (fun a b => decide (Senior side a b))).trans same
  refine List.Perm.eq_of_pairwise ?_ (List.pairwise_mergeSort ?_ ?_ resting) ranked perm
  · intro a b ha hb hab hba
    obtain ⟨hp, harr⟩ := Senior.antisymm (of_decide_eq_true hab) (of_decide_eq_true hba)
    by_contra hne
    have : Std.Symm (fun a b : Order D => a.price = b.price → a.arrival ≠ b.arrival) :=
      ⟨fun _ _ h hp => (h hp.symm).symm⟩
    exact apart.forall (perm.mem_iff.mp ha) hb hne hp harr
  · intro a b c hab hbc
    exact decide_eq_true ((of_decide_eq_true hab).trans (of_decide_eq_true hbc))
  · intro a b
    rw [Bool.or_eq_true, decide_eq_true_eq, decide_eq_true_eq]
    exact Senior.total side a b

namespace Engine

/-- The orders that the engine adds to a book, with the book they find: a new
order, a replacement whose original has been removed, the bid of a quote after
the old pair is withdrawn, and its ask after the bid has been matched. -/
inductive Incoming (e : Engine D) : OrderBook D → Order D → Prop
  | create (s : String) (new : NewOrder D) (accepted : e.checkCreate s new = .ok ()) :
      Incoming e (e.book new.instrumentId) (e.numberOrder s new).1
  | replace (s : String) (origId newId : OrderId) (orderType : OrderType) (price quantity : D)
      (entry removed : Order D) (e1 : Engine D) (remaining : D)
      (accepted : e.checkModify s origId newId orderType price quantity = .ok entry)
      (taken : e.removeFromBook s origId entry.side entry.price entry.instrumentId =
        .ok (.ok removed, e1))
      (remains : sub quantity entry.cumQuantity = .ok remaining) (open_ : remaining ≠ 0) :
      Incoming e (e1.book entry.instrumentId)
        (replacement .real entry newId orderType price quantity remaining (e.nextArrival + 1))
  | bid (s : String) (i : Int) (bidPrice bidQuantity askPrice askQuantity : D)
      (session : Session D) (e1 : Engine D)
      (accepted : e.checkQuote s i bidPrice bidQuantity askPrice askQuantity = .ok session)
      (withdrawn : e.withdrawPair s i session = .ok e1) (priced : bidPrice ≠ 0) :
      Incoming e (e1.book i)
        (e1.legOrder s i .buy bidPrice bidQuantity ("quote.bid." ++ toString i))
  | ask (s : String) (i : Int) (bidPrice bidQuantity askPrice askQuantity : D)
      (session : Session D) (e1 e2 : Engine D) (trades : List (RawTrade D))
      (bid : Option (Order D))
      (accepted : e.checkQuote s i bidPrice bidQuantity askPrice askQuantity = .ok session)
      (withdrawn : e.withdrawPair s i session = .ok e1)
      (matched : e1.quoteLeg s i .buy bidPrice bidQuantity ("quote.bid." ++ toString i) =
        .ok (trades, bid, e2)) (priced : askPrice ≠ 0) :
      Incoming e (e2.book i)
        (e2.legOrder s i .sell askPrice askQuantity ("quote.ask." ++ toString i))

/-- What `add` relies on holds of every order that is added. -/
theorem Incoming.arrives [LawfulDecimal D] {e : Engine D} (c : Coherent .real e.view none)
    (policy : e.fillPolicy = .real) {book : OrderBook D} {order : Order D}
    (incoming : Incoming e book order) :
    ∃ v gap, Coherent .real v gap ∧ View.Arrives v gap order ∧
      v.book order.instrumentId = book := by
  cases incoming with
  | create s new accepted =>
    obtain ⟨valid, -, session, hs, hfresh⟩ := checkCreate_ok accepted
    have fresh : e.order s new.id = none := by simp [order, hs, hfresh]
    obtain ⟨gapped, arrives⟩ := incoming_arrives c policy valid fresh
    refine ⟨_, _, gapped, arrives, ?_⟩
    · have hi : (e.incoming s new).instrumentId = new.instrumentId := by rw [incoming_eq]
      change e.book (e.incoming s new).instrumentId = _
      rw [hi]
  | replace s origId newId orderType price quantity entry removed e1 remaining accepted taken
      remains open_ =>
    obtain ⟨recorded, active, valid, covered, unused, session, hs⟩ := checkModify_ok accepted
    obtain ⟨book1, -, rfl, mem, left⟩ := removeFromBook_active c recorded active taken
    obtain ⟨hsession, -, -⟩ := c.keyed s origId entry recorded
    have nonneg := nonneg_of_sub covered remains
    have session : (replacement .real entry newId orderType price quantity remaining
      (e.nextArrival + 1)).sessionId = s := hsession
    refine ⟨_, _, rekeyed_coherent c recorded mem left session valid.regular unused,
      arrives_rekeyed (lt_of_le_of_ne nonneg (Ne.symm open_)) ?_ (Nat.lt_succ_self _)
        valid.regular hsession, ?_⟩
    · intro ht
      exact (bookedPrice_real orderType price).symm ▸ valid.limit ht
    · rw [book_setBook]
      rfl
  | bid s i bidPrice bidQuantity askPrice askQuantity session e1 accepted withdrawn priced =>
    have valid := checkQuote_ok accepted
    rw [withdrawPair_eq valid.registered] at withdrawn
    have kept : (e.seated s (bareSession session i)).book = e.book := rfl
    obtain ⟨only, -, goneBuy, goneSell, ready⟩ := legs_ready c kept withdrawn
      (newLegs (some (e1.legOrder s i .buy bidPrice bidQuantity
        ("quote.bid." ++ toString i))) none) (by
        intro side leg h
        cases side
        · obtain rfl := Option.some.inj h
          exact ⟨rfl, rfl⟩
        · cases h)
    have harr : e.nextArrival = e1.nextArrival := by rw [only.rest]; rfl
    refine ⟨_, _, ready, leg_arrives rfl harr (lt_of_le_of_ne valid.bid (Ne.symm priced))
      (valid.bidSized priced) (by simp [newLegs, QuotePair.leg]) goneBuy (Or.inr goneSell), rfl⟩
  | ask s i bidPrice bidQuantity askPrice askQuantity session e1 e2 trades bid accepted withdrawn
      matched priced =>
    have valid := checkQuote_ok accepted
    rw [withdrawPair_eq valid.registered] at withdrawn
    have kept : (e.seated s (bareSession session i)).book = e.book := rfl
    obtain ⟨v, half⟩ := bidLeg_spec (y := "quote.ask." ++ toString i) c valid kept rfl withdrawn
      matched
    refine ⟨v, none, half.coherent, leg_arrives half.book half.arrival
      (lt_of_le_of_ne valid.ask (Ne.symm priced)) (valid.askSized priced) ?_ half.fresh
      (Or.inl rfl), ?_⟩
    · rw [half.legs]
      simp [QuotePair.leg, priced]
    · rw [half.book]
      rfl

/-- `add` on a book of the real policy is the plain matcher: the same trades,
the same final state of the incoming order, and the same resting orders. -/
theorem add_matches_plain [LawfulDecimal D] {e : Engine D} (h : Reachable .real e)
    {book : OrderBook D} {order : Order D} (incoming : Incoming e book order) :
    (∀ p, book.add order = .error p → p = .decimal ∨ p = .priorityExhausted) ∧
    ∀ trades final book', book.add order = .ok (trades, final, book') →
      ∀ own opposite, own.Perm (book.queue order.side) →
        opposite.Perm (book.queue order.side.opposite) →
        ∃ outcome, plainMatch order own opposite = .ok outcome ∧ trades = outcome.trades ∧
          final = some outcome.final ∧ book'.queue order.side = outcome.own ∧
          book'.queue order.side.opposite = outcome.opposite := by
  obtain ⟨c, policy⟩ := reachable_coherent h
  obtain ⟨v, gap, cv, arrives, rfl⟩ := incoming.arrives c policy
  have admits := cv.admits arrives
  refine ⟨fun p hp => OrderBook.add_error admits hp, ?_⟩
  intro trades final book' hadd own opposite hown hopp
  have added := OrderBook.add_spec admits hadd
  obtain ⟨f, rfl⟩ := Option.isSome_iff_exists.mp added.final
  have real := cv.real rfl order.instrumentId
  have filed := cv.filed order.instrumentId
  refine ⟨⟨trades, f, book'.queue order.side, book'.queue order.side.opposite⟩, ?_, rfl, rfl, rfl,
    rfl⟩
  rw [plainMatch, rankOrders_queue filed real _ hown, rankOrders_queue filed real _ hopp]
  exact added.refines

/-- A market order that meets the replaced offer of the sample run. -/
def sampleMarketOrder : NewOrder ℚ := ⟨9, 1, .buy, .market, 9, 5⟩

theorem add_matches_plain_sample : ∃ order trades final book' outcome,
    order = ((played .real sampleRun).numberOrder "b" sampleMarketOrder).1 ∧
    ((played .real sampleRun).book 1).add order = .ok (trades, final, book') ∧ trades ≠ [] ∧
      plainMatch order (((played .real sampleRun).book 1).queue order.side)
        (((played .real sampleRun).book 1).queue order.side.opposite) = .ok outcome ∧
      trades = outcome.trades ∧ final = some outcome.final ∧
      book'.queue order.side = outcome.own ∧
      book'.queue order.side.opposite = outcome.opposite := by
  have accepted : (played .real sampleRun).checkCreate "b" sampleMarketOrder = .ok () := by
    decide +kernel
  have traded : (match ((played .real sampleRun).book 1).add
      ((played .real sampleRun).numberOrder "b" sampleMarketOrder).1 with
    | .ok (trades, _, _) => !trades.isEmpty
    | .error _ => false) = true := by decide +kernel
  split at traded
  next trades final book' matched =>
    have plain := (add_matches_plain (played_reachable .real sampleRun)
      (.create "b" sampleMarketOrder accepted)).2 trades final book' matched _ _ (.refl _)
        (.refl _)
    obtain ⟨outcome, same, rest⟩ := plain
    refine ⟨_, trades, final, book', outcome, rfl, matched, ?_, same, rest⟩
    rintro rfl
    cases traded
  next => cases traded

end Engine

end RustTrader
