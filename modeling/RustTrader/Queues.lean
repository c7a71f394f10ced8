import RustTrader.Trades
import RustTrader.Departures

/-!
# Queues after an operation

Two ways a queue changes. Orders leave it, and those that stay keep their places;
or it is traded against, and every order becomes what the trades last say of it.
-/

namespace RustTrader

open Decimal

variable {D : Type} [Decimal D]

namespace OrderBook

theorem Left.filter {keyOf : Order D → D} {book book' : OrderBook D} {side : Side} {order : Order D}
    (filed : Filed keyOf book) (left : Left keyOf book side order book') :
    book'.queue side = (book.queue side).filter (fun o => o.identity ≠ order.identity) := by
  obtain ⟨pre, post, before, after⟩ := left.split
  have distinct := filed.distinct side
  rw [before] at distinct
  obtain ⟨apart, -⟩ := Keyed.distinct_middle.mp distinct
  have stay : (pre ++ post).filter (fun o => o.identity ≠ order.identity) = pre ++ post :=
    List.filter_eq_self.mpr (fun o ho => decide_eq_true (apart o ho))
  rw [List.filter_append] at stay
  rw [before, after, List.filter_append, List.filter_cons_of_neg (by simp)]
  exact stay.symm

end OrderBook

namespace Engine

/-- Some orders have left their queues, all of them `gone`; the others stand as
they stood. -/
def Sheds (gone : Int → Side → Order D → Prop) (e e' : Engine D) : Prop :=
  ∀ i side, ∃ p : Order D → Bool, (∀ o, ¬ gone i side o → p o = true) ∧
    (e'.book i).queue side = ((e.book i).queue side).filter p

namespace Sheds

variable {gone gone' : Int → Side → Order D → Prop} {e e' e'' : Engine D}

theorem of_book (same : e'.book = e.book) : Sheds gone e e' := by
  intro i side
  refine ⟨fun _ => true, fun _ _ => rfl, ?_⟩
  rw [same, List.filter_true]

theorem trans (h : Sheds gone e e') (h' : Sheds gone e' e'') : Sheds gone e e'' := by
  intro i side
  obtain ⟨p, stay, first⟩ := h i side
  obtain ⟨q, stay', second⟩ := h' i side
  refine ⟨fun o => p o && q o, ?_, ?_⟩
  · intro o ho
    exact Bool.and_eq_true_iff.mpr ⟨stay o ho, stay' o ho⟩
  · rw [second, first, List.filter_filter]
    congr 1
    funext o
    exact Bool.and_comm _ _

theorem mono (h : Sheds gone e e') (imp : ∀ i side o, gone i side o → gone' i side o) :
    Sheds gone' e e' := by
  intro i side
  obtain ⟨p, stay, same⟩ := h i side
  exact ⟨p, fun o ho => stay o (fun g => ho (imp i side o g)), same⟩

/-- If nothing that may go is left, all of it has gone. -/
theorem filter (h : Sheds gone e e') {i : Int} {side : Side} {q : Order D → Bool}
    (asked : ∀ o, q o = true ↔ ¬ gone i side o)
    (left : ∀ o ∈ (e'.book i).queue side, ¬ gone i side o) :
    (e'.book i).queue side = ((e.book i).queue side).filter q := by
  obtain ⟨p, stay, same⟩ := h i side
  rw [same]
  refine List.filter_congr ?_
  intro o ho
  cases hp : p o with
  | true =>
    have mem : o ∈ (e'.book i).queue side := by
      rw [same]
      exact List.mem_filter.mpr ⟨ho, hp⟩
    exact ((asked o).mpr (left o mem)).symm
  | false =>
    cases hq : q o with
    | true =>
      rw [stay o ((asked o).mp hq)] at hp
      cases hp
    | false => rfl

theorem of_quiet (quiet : Quiet e e') : Sheds gone e e' := of_book quiet.book

end Sheds

/-- One order has left one side of one book. -/
theorem sheds_left {e e' : Engine D} {i : Int} {side : Side} {o : Order D} {book' : OrderBook D}
    (filed : OrderBook.Filed Order.price (e.book i))
    (left : OrderBook.Left Order.price (e.book i) side o book')
    (after : e'.book = Function.update e.book i book') :
    Sheds (fun j side' x => j = i ∧ side' = side ∧ x.identity = o.identity) e e' := by
  intro j side'
  rw [after]
  by_cases hj : j = i
  · subst hj
    rw [Function.update_self]
    rcases OrderBook.mem_side side side' with rfl | rfl
    · refine ⟨fun x => x.identity ≠ o.identity, ?_, left.filter filed⟩
      intro x hx
      rw [decide_eq_true_eq]
      exact fun same => hx ⟨rfl, rfl, same⟩
    · refine ⟨fun _ => true, fun _ _ => rfl, ?_⟩
      rw [left.other, List.filter_true]
  · refine ⟨fun _ => true, fun _ _ => rfl, ?_⟩
    rw [Function.update_of_ne hj, List.filter_true]

theorem removeFromBook_sheds {e e' : Engine D} {i : Int}
    (filed : OrderBook.Filed Order.price (e.book i)) {s : String} {id : OrderId} {side : Side}
    {price : D} {result : Except EngineError (Order D)}
    (h : e.removeFromBook s id side price i = .ok (result, e')) :
    Sheds (fun j side' o => j = i ∧ side' = side ∧ o.identity = (s, id)) e e' := by
  rcases removeFromBook_cases filed h with ⟨-, rfl, -⟩ | ⟨o, book', -, rfl, -, hid, -, left⟩
  · exact .of_book rfl
  · rw [← hid]
    exact sheds_left filed left (book_setBook ..)

end Engine

/-- The party to a trade on one side. -/
def RawTrade.party (side : Side) (t : RawTrade D) : Order D :=
  match side with
  | .buy => t.buyer
  | .sell => t.seller

omit [Decimal D] in
theorem party_own (side : Side) (incoming resting : Order D) (price quantity : D) :
    (sideTrade side incoming resting price quantity).party side = incoming := by
  cases side <;> rfl

omit [Decimal D] in
theorem party_opposite (side : Side) (incoming resting : Order D) (price quantity : D) :
    (sideTrade side incoming resting price quantity).party side.opposite = resting := by
  cases side <;> rfl

/-- What some trades last say of the orders under an identity on one side. -/
def lastParty (side : Side) (identity : String × OrderId) (trades : List (RawTrade D)) :
    Option (Order D) :=
  ((trades.map (RawTrade.party side)).filter (fun o => o.identity = identity)).getLast?

/-- An order after some trades. -/
def settled (side : Side) (trades : List (RawTrade D)) (o : Order D) : Order D :=
  (lastParty side o.identity trades).getD o

/-- A queue after some trades: what is exhausted is gone. -/
def tradedQueue (side : Side) (trades : List (RawTrade D)) (queue : List (Order D)) : List
    (Order D) :=
  (queue.map (settled side trades)).filter (fun o => o.remaining ≠ 0)

omit [Decimal D] in
@[simp] theorem lastParty_nil (side : Side) (identity : String × OrderId) :
    lastParty side identity ([] : List (RawTrade D)) = none := rfl

omit [Decimal D] in
theorem lastParty_append (side : Side) (identity : String × OrderId) (ts us : List (RawTrade D)) :
    lastParty side identity (ts ++ us) =
      (lastParty side identity us).or (lastParty side identity ts) := by
  rw [lastParty, List.map_append, List.filter_append, List.getLast?_append]
  rfl

omit [Decimal D] in
theorem lastParty_none {side : Side} {identity : String × OrderId} {trades : List (RawTrade D)}
    (other : ∀ t ∈ trades, (t.party side).identity ≠ identity) :
    lastParty side identity trades = none := by
  rw [lastParty, List.getLast?_eq_none_iff, List.filter_eq_nil_iff]
  intro o ho
  obtain ⟨t, ht, rfl⟩ := List.mem_map.mp ho
  rw [decide_eq_true_eq]
  exact other t ht

omit [Decimal D] in
theorem lastParty_cons (side : Side) (identity : String × OrderId) (t : RawTrade D)
    (ts : List (RawTrade D)) : lastParty side identity (t :: ts) =
      (lastParty side identity ts).or
        (if (t.party side).identity = identity then some (t.party side) else none) := by
  have h := lastParty_append side identity [t] ts
  rw [List.singleton_append] at h
  rw [h]
  congr 1
  unfold lastParty
  by_cases same : (t.party side).identity = identity <;> simp [same]

omit [Decimal D] in
theorem lastParty_identity {side : Side} {identity : String × OrderId}
    {trades : List (RawTrade D)} {o : Order D} (h : lastParty side identity trades = some o) :
    o.identity = identity := by
  have mem := List.mem_of_getLast? h
  exact of_decide_eq_true (List.mem_filter.mp mem).2

omit [Decimal D] in
theorem settled_identity (side : Side) (trades : List (RawTrade D)) (o : Order D) :
    (settled side trades o).identity = o.identity := by
  unfold settled
  cases h : lastParty side o.identity trades with
  | none => rfl
  | some x => exact lastParty_identity h

omit [Decimal D] in
theorem settled_append (side : Side) (ts us : List (RawTrade D)) (o : Order D) :
    settled side (ts ++ us) o = settled side us (settled side ts o) := by
  have key := settled_identity side ts o
  unfold settled at key ⊢
  rw [lastParty_append, key]
  cases lastParty side o.identity us <;> rfl

omit [Decimal D] in
theorem settled_other {side : Side} {trades : List (RawTrade D)} {o : Order D}
    (other : ∀ t ∈ trades, (t.party side).identity ≠ o.identity) :
    settled side trades o = o := by
  rw [settled, lastParty_none other]
  rfl

omit [Decimal D] in
theorem settled_continues {side : Side} {trades : List (RawTrade D)} {x o : Order D}
    (start : Continues x o)
    (h : ∀ t ∈ trades, (t.party side).identity = o.identity → Continues x (t.party side)) :
    Continues x (settled side trades o) := by
  unfold settled
  cases found : lastParty side o.identity trades with
  | none => exact start
  | some last =>
    obtain ⟨mem, same⟩ := List.mem_filter.mp (List.mem_of_getLast? found)
    obtain ⟨t, ht, rfl⟩ := List.mem_map.mp mem
    exact h t ht (of_decide_eq_true same)

/-- An exhausted order does not trade again. -/
theorem traded_append {side : Side} {ts us : List (RawTrade D)} {queue : List (Order D)}
    (spent : ∀ o ∈ queue, (settled side ts o).remaining = 0 →
      (settled side us (settled side ts o)).remaining = 0) :
    tradedQueue side (ts ++ us) queue = tradedQueue side us (tradedQueue side ts queue) := by
  unfold tradedQueue
  induction queue with
  | nil => rfl
  | cons o queue ih =>
    have rest := ih (fun x hx => spent x (List.mem_cons_of_mem _ hx))
    rw [List.map_cons, List.map_cons, List.filter_cons, settled_append]
    by_cases gone : (settled side ts o).remaining = 0
    · have gone' := spent o List.mem_cons_self gone
      rw [List.filter_cons_of_neg (by simp [gone]), if_neg (by simp [gone']), rest]
    · rw [List.filter_cons_of_pos (by simp [gone]), List.map_cons, List.filter_cons, rest]

theorem traded_other {side : Side} {trades : List (RawTrade D)} {queue : List (Order D)}
    (other : ∀ o ∈ queue, ∀ t ∈ trades, (t.party side).identity ≠ o.identity)
    (open_ : ∀ o ∈ queue, o.remaining ≠ 0) : tradedQueue side trades queue = queue := by
  have same : queue.map (settled side trades) = queue.map id :=
    List.map_congr_left (fun o ho => settled_other (other o ho))
  rw [tradedQueue, same, List.map_id]
  exact List.filter_eq_self.mpr (fun o ho => decide_eq_true (open_ o ho))

/-- Trades that come first and meet nobody of the queue. -/
theorem traded_later {side : Side} {ts us : List (RawTrade D)} {queue : List (Order D)}
    (other : ∀ o ∈ queue, ∀ t ∈ ts, (t.party side).identity ≠ o.identity) :
    tradedQueue side (ts ++ us) queue = tradedQueue side us queue := by
  have same : queue.map (settled side (ts ++ us)) = queue.map (settled side us) := by
    refine List.map_congr_left ?_
    intro o ho
    rw [settled_append, settled_other (other o ho)]
  rw [tradedQueue, same, tradedQueue]

/-- Trades that come last and meet nobody of the queue. -/
theorem traded_earlier {side : Side} {ts us : List (RawTrade D)} {queue : List (Order D)}
    (other : ∀ o ∈ queue, ∀ t ∈ us, (t.party side).identity ≠ o.identity) :
    tradedQueue side (ts ++ us) queue = tradedQueue side ts queue := by
  have same : queue.map (settled side (ts ++ us)) = queue.map (settled side ts) := by
    refine List.map_congr_left ?_
    intro o ho
    rw [settled_append]
    refine settled_other ?_
    rw [settled_identity]
    exact other o ho
  rw [tradedQueue, same, tradedQueue]

theorem filter_traded (side : Side) (trades : List (RawTrade D)) (queue : List (Order D))
    (q : String × OrderId → Bool) :
    (tradedQueue side trades queue).filter (fun o => q o.identity) =
      tradedQueue side trades (queue.filter (fun o => q o.identity)) := by
  unfold tradedQueue
  rw [List.filter_map, List.filter_map, List.filter_map, List.filter_filter, List.filter_filter]
  congr 1
  refine List.filter_congr ?_
  intro o _
  simp only [Function.comp_apply, settled_identity]
  exact Bool.and_comm _ _

/-- The parties to the trades of a walk: the incoming order on its side, resting
orders on the other. -/
theorem Walked.party {incoming left : Order D} {queue untouched : List (Order D)}
    {trades : List (RawTrade D)} (w : Walked incoming queue trades left untouched) :
    ∀ t ∈ trades, Continues incoming (t.party incoming.side) ∧
      ∃ r ∈ queue, Continues r (t.party incoming.side.opposite) := by
  induction w with
  | stop => simp
  | @trade incoming resting filled hit left rest untouched trades quantity _ _ fill fillHit _ ih =>
    have f := OrderBook.applyFill_spec fill
    have g := OrderBook.applyFill_spec fillHit
    intro t ht
    rcases List.mem_cons.mp ht with rfl | ht
    · rw [party_own, party_opposite]
      exact ⟨f.toContinues, resting, List.mem_cons_self, g.toContinues⟩
    · obtain ⟨own, r, hr, other⟩ := ih t ht
      rw [f.side] at own other
      exact ⟨f.toContinues.trans own, r, List.mem_cons_of_mem _ hr, other⟩

/-- A walk leaves the queue it met, traded. -/
theorem Walked.untouched_eq {incoming left : Order D} {queue untouched : List (Order D)}
    {trades : List (RawTrade D)} (w : Walked incoming queue trades left untouched)
    (distinct : Keyed.Distinct Order.identity queue) (open_ : ∀ o ∈ queue, o.remaining ≠ 0) :
    untouched = tradedQueue incoming.side.opposite trades queue := by
  induction w with
  | @stop incoming queue halts => exact (traded_other (by simp) open_).symm
  | @trade incoming resting filled hit left rest untouched trades quantity _ _ fill fillHit tail
      ih =>
    have f := OrderBook.applyFill_spec fill
    have g := OrderBook.applyFill_spec fillHit
    obtain ⟨fresh, distinct'⟩ := Keyed.distinct_cons.mp distinct
    have later := tail.party
    rw [f.side] at later ih
    have first : settled incoming.side.opposite
        (sideTrade incoming.side filled hit resting.price quantity :: trades) resting = hit := by
      have none_ : lastParty incoming.side.opposite resting.identity trades = none := by
        refine lastParty_none ?_
        intro t ht
        obtain ⟨-, r, hr, same⟩ := later t ht
        rw [same.identity]
        exact fresh r hr
      rw [settled, lastParty_cons, none_, party_opposite, if_pos g.identity]
      rfl
    have rest_eq : rest.map (settled incoming.side.opposite
        (sideTrade incoming.side filled hit resting.price quantity :: trades)) =
          rest.map (settled incoming.side.opposite trades) := by
      refine List.map_congr_left ?_
      intro o ho
      have apart : hit.identity ≠ o.identity := by
        rw [g.identity]
        exact (fresh o ho).symm
      rw [settled, lastParty_cons, party_opposite, if_neg apart, Option.or_none]
      rfl
    rw [ih distinct' (fun o ho => open_ o (List.mem_cons_of_mem _ ho)), tradedQueue, tradedQueue,
      List.map_cons, first, rest_eq]
    rcases keep_cases hit with ⟨gone, kept⟩ | ⟨more, kept⟩
    · rw [kept, List.filter_cons_of_neg (by simp [gone])]
      rfl
    · rw [kept, List.filter_cons_of_pos (by simp [more])]
      rfl

/-- What is left of the incoming order is what the trades last say of it. -/
theorem Walked.settled_incoming {incoming left : Order D} {queue untouched : List (Order D)}
    {trades : List (RawTrade D)} (w : Walked incoming queue trades left untouched) :
    settled incoming.side trades incoming = left := by
  induction w with
  | stop => rfl
  | @trade incoming resting filled hit left rest untouched trades quantity _ _ fill fillHit tail
      ih =>
    have f := OrderBook.applyFill_spec fill
    rw [f.side, settled, f.identity] at ih
    rw [settled, lastParty_cons, party_own, if_pos f.identity]
    cases h : lastParty incoming.side incoming.identity trades with
    | none =>
      rw [h] at ih
      exact ih
    | some x =>
      rw [h] at ih
      exact ih

theorem filter_place_other {order : Order D} {own : List (Order D)} {q : Order D → Bool}
    (out : q order = false) : (place order own).filter q = own.filter q := by
  unfold place
  rw [List.orderedInsert_eq_take_drop, List.filter_append, List.filter_cons_of_neg (by simp [out]),
    ← List.filter_append, List.takeWhile_append_dropWhile]

/-- The only order for a filter is the one that is placed. -/
theorem filter_place_self {order : Order D} {own : List (Order D)} {q : Order D → Bool}
    (self : q order = true) (others : ∀ o ∈ own, q o = false) :
    (place order own).filter q = [order] := by
  have none_ : ∀ l : List (Order D), (∀ o ∈ l, o ∈ own) → l.filter q = [] := by
    intro l sub
    rw [List.filter_eq_nil_iff]
    intro o ho
    rw [others o (sub o ho)]
    simp
  unfold place
  rw [List.orderedInsert_eq_take_drop, List.filter_append, List.filter_cons_of_pos self,
    none_ _ (fun o ho => (List.takeWhile_sublist _).mem ho),
    none_ _ (fun o ho => (List.dropWhile_sublist _).mem ho)]
  rfl

namespace Coherent.Added

variable {v : View D} {gap : Gap} {order left final : Order D} {trades : List (RawTrade D)}
  {book' : OrderBook D}

/-- The queue an order is matched against. -/
theorem queue_opposite (a : Added v gap order trades left final book') :
    book'.queue order.side.opposite =
      tradedQueue order.side.opposite trades (v.queue order.instrumentId order.side.opposite) := by
  refine a.walked.untouched_eq ((a.coherent.filed order.instrumentId).distinct _) ?_
  intro o ho
  exact (a.coherent.fit _ _ o ho).positive.ne'

/-- The queue of a limit order. -/
theorem queue_own (a : Added v gap order trades left final book')
    (limit : order.orderType = .limit) : book'.queue order.side =
      if left.remaining = 0 then v.queue order.instrumentId order.side
      else place left (v.queue order.instrumentId order.side) := by
  have ends := a.ends
  by_cases done : left.remaining = 0
  · rw [conclude_exhausted _ done] at ends
    rw [if_pos done]
    exact (Prod.mk.inj ends).2.symm
  · rw [conclude_limit _ done (a.continues.orderType.trans limit)] at ends
    rw [if_neg done]
    exact (Prod.mk.inj ends).2.symm

/-- The trades are the incoming order's with orders of the opposite queue. -/
theorem parties (a : Added v gap order trades left final book') :
    ∀ t ∈ trades, Continues order (t.party order.side) ∧
      ∃ r ∈ v.queue order.instrumentId order.side.opposite,
        Continues r (t.party order.side.opposite) := by
  intro t ht
  obtain ⟨own, other⟩ := a.walked.party t ht
  exact ⟨Continues.trans ⟨rfl⟩ own, other⟩

end Coherent.Added

end RustTrader
