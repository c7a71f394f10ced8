import RustTrader.Lineage
import RustTrader.Queues

/-!
# Quote pairs

A quote takes the old pair of its session and instrument out of the book and puts
its own legs there. Everything else in the book changes only by the trades of the
call, and nothing elsewhere changes but records of orders that traded.
-/

namespace RustTrader

open Decimal

variable {D : Type} [Decimal D]

namespace Engine

theorem dropLegs_sheds {policy : FillPolicy} {s : String} {i : Int} (sides : List Side) :
    ∀ {e e' : Engine D} {v : View D}, Coherent policy v none → v.book = e.book →
      (sides.flatMap (fun side => (v.leg s i side).toList)).foldlM
        (fun e leg => e.dropResting s i leg) e = .ok e' →
      Sheds (fun j _ o => j = i ∧ o.identity = (s, quoteOrderId)) e e' := by
  induction sides with
  | nil =>
    intro e e' v c hbook h
    cases h
    exact .of_book rfl
  | cons side sides ih =>
    intro e e' v c hbook h
    rw [List.flatMap_cons, List.foldlM_append] at h
    obtain ⟨ea, hfirst, h⟩ := Exec.bind_ok.mp h
    cases hleg : v.leg s i side with
    | none =>
      rw [hleg] at hfirst
      cases hfirst
      exact ih c hbook h
    | some l =>
      rw [hleg] at hfirst
      simp only [Option.toList_some, List.foldlM_cons, List.foldlM_nil] at hfirst
      obtain ⟨eb, hdrop, hpure⟩ := Exec.bind_ok.mp hfirst
      cases hpure
      obtain ⟨-, ca, -, -⟩ := dropResting_spec c hbook hleg hdrop
      obtain ⟨⟨result, ec⟩, hremove, hpure⟩ := Exec.bind_ok.mp hdrop
      cases hpure
      have filed := c.filed i
      rw [hbook] at filed
      refine Sheds.trans ((removeFromBook_sheds filed hremove).mono ?_) (ih ca rfl h)
      rintro j side' o ⟨rfl, -, key⟩
      exact ⟨rfl, key.trans (by rw [(c.legs _ _ _ l hleg).1])⟩

/-- Where a leg is entered it meets the book as one order. -/
theorem quoteLeg_enters [LawfulDecimal D] {e e' : Engine D} {v : View D}
    (c : Coherent .real v none) (hbook : v.book = e.book) (harr : v.arrival = e.nextArrival)
    {s : String} {i : Int} {side : Side} {price quantity : D} {exchangeId : String}
    (nonneg : 0 ≤ price) (sized : price ≠ 0 → 0 < quantity)
    (hleg : price ≠ 0 → v.leg s i side = some (e.legOrder s i side price quantity exchangeId))
    (fresh : Withdrawn e s i side) (apart : side = .sell ∨ Withdrawn e s i side.opposite)
    {trades : List (RawTrade D)} {leg : Option (Order D)}
    (h : e.quoteLeg s i side price quantity exchangeId = .ok (trades, leg, e')) :
    price = 0 ∧ trades = [] ∧ leg = none ∧ e' = e ∨
    price ≠ 0 ∧ leg = some (e.legOrder s i side price quantity exchangeId) ∧
      ∃ left final book', Coherent.Added v none (e.legOrder s i side price quantity exchangeId)
        trades left final book' ∧ e'.book = Function.update e.book i book' ∧
        e'.nextArrival = e.nextArrival + 1 := by
  unfold quoteLeg at h
  by_cases hz : price = 0
  · rw [if_pos hz] at h
    cases h
    exact .inl ⟨hz, rfl, rfl, rfl⟩
  · rw [if_neg hz] at h
    obtain ⟨⟨ts, result, ea⟩, hadd, h⟩ := Exec.bind_ok.mp h
    cases h
    obtain ⟨book', hbook', rfl⟩ := addToBook_ok hadd
    have arrives := leg_arrives hbook harr (lt_of_le_of_ne nonneg (Ne.symm hz)) (sized hz)
      (hleg hz) fresh apart
    have hadd' : (v.book (e.legOrder s i side price quantity exchangeId).instrumentId).add
        (e.legOrder s i side price quantity exchangeId) = .ok (trades, result, book') := by
      rw [hbook]
      exact hbook'
    obtain ⟨left, final, -, added⟩ := Coherent.added_of_add c arrives hadd'
    refine .inr ⟨hz, rfl, left, final, book', added, ?_, rfl⟩
    exact book_setBook ..

theorem quoteLeg_leg {e e' : Engine D} {s : String} {i : Int} {side : Side} {price quantity : D}
    {exchangeId : String} {trades : List (RawTrade D)} {leg : Option (Order D)}
    (h : e.quoteLeg s i side price quantity exchangeId = .ok (trades, leg, e')) :
    leg = (if price = 0 then none else some (e.legOrder s i side price quantity exchangeId)) ∧
      e'.nextArrival = if price = 0 then e.nextArrival else e.nextArrival + 1 := by
  unfold quoteLeg at h
  by_cases hz : price = 0
  · rw [if_pos hz] at h
    cases h
    rw [if_pos hz, if_pos hz]
    exact ⟨rfl, rfl⟩
  · rw [if_neg hz] at h
    obtain ⟨⟨ts, result, ea⟩, hadd, h⟩ := Exec.bind_ok.mp h
    cases h
    obtain ⟨book', -, rfl⟩ := addToBook_ok hadd
    rw [if_neg hz, if_neg hz]
    exact ⟨rfl, rfl⟩

/-- The leg of a quote on one side, as it rests first. -/
def restingLeg (leg : Option (Order D)) : List (Order D) :=
  leg.toList.map fun o => { o with state := .booked }

/-- What one leg makes of the two queues of its book. -/
structure LegEntered (e e' : Engine D) (s : String) (i : Int) (side : Side)
    (leg : Option (Order D)) (trades : List (RawTrade D)) : Prop where
  mine : ((e'.book i).queue side).filter (fun o => o.identity = (s, quoteOrderId)) =
    tradedQueue side trades (restingLeg leg)
  others : ((e'.book i).queue side).filter (fun o => o.identity ≠ (s, quoteOrderId)) =
    (e.book i).queue side
  opposite : (e'.book i).queue side.opposite = tradedQueue side.opposite trades
    ((e.book i).queue side.opposite)
  own : ∀ t ∈ trades, ∃ x ∈ leg, Continues x (t.party side)
  met : ∀ t ∈ trades, ∃ r ∈ (e.book i).queue side.opposite,
    Continues r (t.party side.opposite)
  elsewhere : ∀ j, j ≠ i → e'.book j = e.book j

theorem legEntered [LawfulDecimal D] {e e' : Engine D} {v : View D}
    (c : Coherent .real v none) (hbook : v.book = e.book) (harr : v.arrival = e.nextArrival)
    {s : String} {i : Int} {side : Side} {price quantity : D} {exchangeId : String}
    (nonneg : 0 ≤ price) (sized : price ≠ 0 → 0 < quantity)
    (hleg : price ≠ 0 → v.leg s i side = some (e.legOrder s i side price quantity exchangeId))
    (fresh : Withdrawn e s i side) (apart : side = .sell ∨ Withdrawn e s i side.opposite)
    {trades : List (RawTrade D)} {leg : Option (Order D)}
    (h : e.quoteLeg s i side price quantity exchangeId = .ok (trades, leg, e')) :
    LegEntered e e' s i side leg trades := by
  have queues : ∀ side', v.queue i side' = (e.book i).queue side' := by
    intro side'
    rw [View.queue, hbook]
  have open_ : ∀ side', ∀ o ∈ (e.book i).queue side', o.remaining ≠ 0 := by
    intro side' o ho
    rw [← queues] at ho
    exact (c.fit i side' o ho).positive.ne'
  have none_ : ((e.book i).queue side).filter (fun o => o.identity = (s, quoteOrderId)) = [] :=
    List.filter_eq_nil_iff.mpr (fun o ho => by
      rw [decide_eq_true_eq]
      exact fresh o ho)
  have all : ((e.book i).queue side).filter (fun o => o.identity ≠ (s, quoteOrderId)) =
      (e.book i).queue side := List.filter_eq_self.mpr (fun o ho => decide_eq_true (fresh o ho))
  rcases quoteLeg_enters c hbook harr nonneg sized hleg fresh apart h with
    ⟨-, rfl, rfl, rfl⟩ | ⟨hz, rfl, left, final, book', added, after, -⟩
  · have same : tradedQueue side.opposite ([] : List (RawTrade D))
        ((e'.book i).queue side.opposite) = (e'.book i).queue side.opposite :=
      traded_other (by simp) (open_ _)
    exact ⟨none_, all, same.symm, by simp, by simp, fun _ _ => rfl⟩
  · have here : e'.book i = book' := by rw [after, Function.update_self]
    have own := added.queue_own rfl
    have last := added.walked.settled_incoming
    have key : left.identity = (s, quoteOrderId) := added.continues.identity
    have entered : tradedQueue side trades
        (restingLeg (some (e.legOrder s i side price quantity exchangeId))) =
          if left.remaining = 0 then [] else [left] := by
      rw [tradedQueue, restingLeg, Option.toList_some, List.map_singleton, List.map_singleton]
      rw [show settled side trades { e.legOrder s i side price quantity exchangeId with
        state := .booked } = left from last]
      by_cases done : left.remaining = 0 <;> simp [done]
    change book'.queue side = if left.remaining = 0 then v.queue i side
      else place left (v.queue i side) at own
    rw [queues] at own
    refine ⟨?_, ?_, ?_, fun t ht => ⟨_, rfl, (added.parties t ht).1⟩, ?_, ?_⟩
    · rw [here, own, entered]
      by_cases done : left.remaining = 0
      · rw [if_pos done, if_pos done, none_]
      · rw [if_neg done, if_neg done]
        refine filter_place_self (decide_eq_true key) ?_
        intro o ho
        exact decide_eq_false (fresh o ho)
    · rw [here, own]
      by_cases done : left.remaining = 0
      · rw [if_pos done, all]
      · rw [if_neg done, filter_place_other (by simp [key]), all]
    · rw [here, ← queues]
      exact added.queue_opposite
    · intro t ht
      obtain ⟨-, r, hr, same⟩ := added.parties t ht
      exact ⟨r, queues _ ▸ hr, same⟩
    · intro j hj
      rw [after, Function.update_of_ne hj]

theorem dropLegs_elsewhere {s : String} {i : Int} (legs : List (Order D)) :
    ∀ {e e' : Engine D}, legs.foldlM (fun e leg => e.dropResting s i leg) e = .ok e' →
      ∀ j, j ≠ i → e'.book j = e.book j := by
  induction legs with
  | nil =>
    intro e e' h j _
    cases h
    rfl
  | cons leg legs ih =>
    intro e e' h j hj
    rw [List.foldlM_cons] at h
    obtain ⟨ea, hdrop, h⟩ := Exec.bind_ok.mp h
    obtain ⟨⟨result, eb⟩, hremove, hpure⟩ := Exec.bind_ok.mp hdrop
    cases hpure
    rw [ih h j hj]
    unfold removeFromBook at hremove
    split at hremove
    · cases hremove
      rfl
    · obtain ⟨found, -, hremove⟩ := Exec.bind_ok.mp hremove
      cases found with
      | none =>
        cases hremove
        rfl
      | some pair =>
        cases hremove
        rw [book_setBook, Function.update_of_ne hj]

/-- The old pair is gone, and no other order with it. -/
theorem withdrawn_filter {e e0 e1 : Engine D} (c : Coherent .real e.view none) {s : String}
    {i : Int} (hbook : e0.book = e.book)
    (hdrop : (((e.leg s i .buy).toList ++ (e.leg s i .sell).toList).foldlM
      (fun e leg => e.dropResting s i leg) e0) = .ok e1)
    (gone : ∀ side, Withdrawn e1 s i side) (side : Side) : (e1.book i).queue side =
      ((e.book i).queue side).filter (fun o => o.identity ≠ (s, quoteOrderId)) := by
  have hdrop' : (([Side.buy, .sell].flatMap (fun side => (e.view.leg s i side).toList)).foldlM
      (fun e leg => e.dropResting s i leg) e0) = .ok e1 := by
    simp only [List.flatMap_cons, List.flatMap_nil, List.append_nil]
    exact hdrop
  have sheds := dropLegs_sheds _ c hbook.symm hdrop'
  rw [← hbook]
  refine sheds.filter ?_ ?_
  · intro o
    simp
  · intro o ho hgone
    exact gone side o ho hgone.2

/-- What a quote makes of its book: the legs of the call and everything but the old
pair, each changed only by the trades. -/
structure Requoted (e e' : Engine D) (s : String) (i : Int) (legs : Side → Option (Order D))
    (trades : List (RawTrade D)) : Prop where
  mine : ∀ side, ((e'.book i).queue side).filter (fun o => o.identity = (s, quoteOrderId)) =
    tradedQueue side trades (restingLeg (legs side))
  others : ∀ side, ((e'.book i).queue side).filter (fun o => o.identity ≠ (s, quoteOrderId)) =
    tradedQueue side trades
      (((e.book i).queue side).filter (fun o => o.identity ≠ (s, quoteOrderId)))
  current : ∀ side, ∀ o ∈ (e'.book i).queue side, o.identity = (s, quoteOrderId) →
    ∃ x ∈ legs side, Continues x o
  met : ∀ t ∈ trades, ∀ side, (t.party side).identity = (s, quoteOrderId) ∨
    ∃ r ∈ (e.book i).queue side, (t.party side).identity = r.identity
  elsewhere : ∀ j, j ≠ i → e'.book j = e.book j

/-- Whom a leg does not find it does not trade with. -/
theorem LegEntered.unmet {e e' : Engine D} {s : String} {i : Int} {side : Side}
    {leg : Option (Order D)} {trades : List (RawTrade D)}
    (entered : LegEntered e e' s i side leg trades) {identity : String × OrderId}
    (gone : ∀ r ∈ (e.book i).queue side.opposite, r.identity ≠ identity) :
    ∀ t ∈ trades, (t.party side.opposite).identity ≠ identity := by
  intro t ht same
  obtain ⟨r, hr, met⟩ := entered.met t ht
  exact gone r hr (met.identity.symm.trans same)

theorem LegEntered.owner {e e' : Engine D} {s : String} {i : Int} {side : Side}
    {leg : Option (Order D)} {trades : List (RawTrade D)}
    (entered : LegEntered e e' s i side leg trades)
    (key : ∀ x ∈ leg, x.identity = (s, quoteOrderId)) :
    ∀ t ∈ trades, (t.party side).identity = (s, quoteOrderId) := by
  intro t ht
  obtain ⟨x, hx, own⟩ := entered.own t ht
  exact own.identity.trans (key x hx)

/-- What rests of a session's legs continues the leg that was entered. -/
theorem LegEntered.current {e e' : Engine D} {s : String} {i : Int} {side : Side}
    {leg : Option (Order D)} {trades : List (RawTrade D)}
    (entered : LegEntered e e' s i side leg trades) {o : Order D}
    (ho : o ∈ (e'.book i).queue side) (hid : o.identity = (s, quoteOrderId)) :
    ∃ x ∈ leg, Continues x o := by
  have mem : o ∈ ((e'.book i).queue side).filter (fun o => o.identity = (s, quoteOrderId)) :=
    List.mem_filter.mpr ⟨ho, decide_eq_true hid⟩
  rw [entered.mine] at mem
  obtain ⟨mem, -⟩ := List.mem_filter.mp mem
  obtain ⟨y, hy, rfl⟩ := List.mem_map.mp mem
  obtain ⟨x, hx, rfl⟩ := List.mem_map.mp hy
  rw [Option.mem_toList] at hx
  refine ⟨x, hx, settled_continues ⟨rfl⟩ ?_⟩
  intro t ht _
  obtain ⟨x', hx', own⟩ := entered.own t ht
  obtain rfl := Option.some.inj (hx'.symm.trans hx)
  exact own

theorem filter_mine (s : String) (side : Side) (trades : List (RawTrade D))
    (queue : List (Order D)) :
    (tradedQueue side trades queue).filter (fun o => o.identity = (s, quoteOrderId)) =
      tradedQueue side trades (queue.filter (fun o => o.identity = (s, quoteOrderId))) :=
  filter_traded side trades queue (fun identity => identity = (s, quoteOrderId))

theorem filter_others (s : String) (side : Side) (trades : List (RawTrade D))
    (queue : List (Order D)) :
    (tradedQueue side trades queue).filter (fun o => o.identity ≠ (s, quoteOrderId)) =
      tradedQueue side trades (queue.filter (fun o => o.identity ≠ (s, quoteOrderId))) :=
  filter_traded side trades queue (fun identity => identity ≠ (s, quoteOrderId))

omit [Decimal D] in
theorem mem_restingLeg {leg : Option (Order D)} {o : Order D} (h : o ∈ restingLeg leg) :
    ∃ x, leg = some x ∧ o = { x with state := .booked } := by
  obtain ⟨x, hx, rfl⟩ := List.mem_map.mp h
  exact ⟨x, Option.mem_toList.mp hx, rfl⟩

/-- Of a bid that was exhausted nothing is left for the ask. -/
theorem LegEntered.spent {e e' e'' : Engine D} {s : String} {i : Int} {side : Side}
    {leg leg' : Option (Order D)} {trades trades' : List (RawTrade D)}
    (first : LegEntered e e' s i side leg trades)
    (second : LegEntered e' e'' s i side.opposite leg' trades')
    (key : ∀ x ∈ leg, x.identity = (s, quoteOrderId)) : ∀ o ∈ restingLeg leg,
      (settled side trades o).remaining = 0 →
        (settled side trades' (settled side trades o)).remaining = 0 := by
  intro o ho zero
  obtain ⟨x, rfl, rfl⟩ := mem_restingLeg ho
  have gone : ((e'.book i).queue side).filter (fun o => o.identity = (s, quoteOrderId)) = [] := by
    rw [first.mine, restingLeg, tradedQueue]
    simp [zero]
  have unmet := second.unmet (fun r hr same => by
    rw [Side.opposite_opposite] at hr
    exact (List.filter_eq_nil_iff.mp gone) r hr (decide_eq_true same))
  rw [settled_other, zero]
  intro t ht
  rw [settled_identity, ← Side.opposite_opposite side]
  exact (key x rfl) ▸ unmet t ht

/-- The bid and then the ask, in a book without the old pair. -/
theorem requoted {e e1 e2 e3 : Engine D} {s : String} {i : Int} {bid ask : Option (Order D)}
    {bidTrades askTrades : List (RawTrade D)} (gone : ∀ side, Withdrawn e1 s i side)
    (before : ∀ side, (e1.book i).queue side =
      ((e.book i).queue side).filter (fun o => o.identity ≠ (s, quoteOrderId)))
    (elsewhere : ∀ j, j ≠ i → e1.book j = e.book j)
    (first : LegEntered e1 e2 s i .buy bid bidTrades)
    (second : LegEntered e2 e3 s i .sell ask askTrades)
    (bidKey : ∀ x ∈ bid, x.identity = (s, quoteOrderId))
    (askKey : ∀ x ∈ ask, x.identity = (s, quoteOrderId)) :
    Requoted e e3 s i (newLegs bid ask) (bidTrades ++ askTrades) := by
  have bidOwner := first.owner bidKey
  have askOwner := second.owner askKey
  have apart : ∀ side, ∀ o ∈ (e1.book i).queue side, ∀ identity, identity = (s, quoteOrderId) →
      identity ≠ o.identity := by
    rintro side o ho identity rfl same
    exact gone side o ho same.symm
  have stood : ∀ side, ∀ r ∈ (e1.book i).queue side, r ∈ (e.book i).queue side := by
    intro side r hr
    rw [before] at hr
    exact (List.mem_filter.mp hr).1
  refine ⟨?_, ?_, ?_, ?_, fun j hj => ((second.elsewhere j hj).trans
    (first.elsewhere j hj)).trans (elsewhere j hj)⟩
  · intro side
    cases side with
    | buy =>
      change _ = tradedQueue .buy (bidTrades ++ askTrades) (restingLeg bid)
      rw [traded_append (first.spent second bidKey), ← first.mine, ← filter_mine]
      exact congrArg _ second.opposite
    | sell =>
      change _ = tradedQueue .sell (bidTrades ++ askTrades) (restingLeg ask)
      rw [traded_later, second.mine]
      intro o ho t ht
      obtain ⟨x, rfl, rfl⟩ := mem_restingLeg ho
      exact (askKey x rfl) ▸ first.unmet (gone .sell) t ht
  · intro side
    rw [← before]
    cases side with
    | buy =>
      rw [traded_later (fun o ho t ht => apart .buy o ho _ (bidOwner t ht)), ← first.others,
        ← filter_others]
      exact congrArg _ second.opposite
    | sell =>
      rw [traded_earlier (fun o ho t ht => apart .sell o ho _ (askOwner t ht)), second.others]
      exact first.opposite
  · intro side o ho hid
    cases side with
    | sell => exact second.current ho hid
    | buy =>
      have after : (e3.book i).queue .buy = tradedQueue .buy askTrades ((e2.book i).queue .buy) :=
        second.opposite
      rw [after] at ho
      obtain ⟨mem, -⟩ := List.mem_filter.mp ho
      obtain ⟨y, hy, rfl⟩ := List.mem_map.mp mem
      rw [settled_identity] at hid
      obtain ⟨x, hx, start⟩ := first.current hy hid
      refine ⟨x, hx, settled_continues start ?_⟩
      intro t ht same
      obtain ⟨r, hr, cont⟩ := second.met t ht
      obtain ⟨x', hx', cont'⟩ :=
        first.current hr (cont.identity.symm.trans (same.trans hid))
      obtain rfl := Option.some.inj (hx'.symm.trans hx)
      exact cont'.trans cont
  · intro t ht side
    rcases List.mem_append.mp ht with ht | ht
    · cases side with
      | buy => exact .inl (bidOwner t ht)
      | sell =>
        obtain ⟨r, hr, cont⟩ := first.met t ht
        exact .inr ⟨r, stood .sell r hr, cont.identity⟩
    · cases side with
      | sell => exact .inl (askOwner t ht)
      | buy =>
        obtain ⟨r, hr, cont⟩ := second.met t ht
        by_cases hid : r.identity = (s, quoteOrderId)
        · exact .inl (cont.identity.trans hid)
        · have mem : r ∈ ((e2.book i).queue .buy).filter
              (fun o => o.identity ≠ (s, quoteOrderId)) :=
            List.mem_filter.mpr ⟨hr, decide_eq_true hid⟩
          rw [first.others] at mem
          exact .inr ⟨r, stood .buy r mem, cont.identity⟩

/-- The legs of a quote, by side, as they are entered. -/
def quotedLegs (e : Engine D) (s : String) (i : Int)
    (bidPrice bidQuantity askPrice askQuantity : D) : Side → Option (Order D)
  | .buy =>
    if bidPrice = 0 then none
    else some (e.legOrder s i .buy bidPrice bidQuantity ("quote.bid." ++ toString i))
  | .sell =>
    let arrival := if bidPrice = 0 then e.nextArrival else e.nextArrival + 1
    if askPrice = 0 then none
    else some ({ e with nextArrival := arrival }.legOrder s i .sell askPrice askQuantity
      ("quote.ask." ++ toString i))

/-- What an accepted quote leaves behind. -/
structure QuoteLeaves (e e' : Engine D) (s : String) (i : Int) (legs : Side → Option (Order D))
    (trades : List (RawTrade D)) (fills : List (Report D)) : Prop where
  books : Requoted e e' s i legs trades
  pairs : ∀ s' j, e'.pair s' j =
    if s' = s ∧ j = i then some ⟨legs .buy, legs .sell⟩ else e.pair s' j
  records : e'.order = View.afterTrades trades e.order
  sent : e'.sent = e.sent ++ fills
  filled : FillNews e (parties trades) fills

/-- The legs enter one after the other. -/
theorem legs_entered [LawfulDecimal D] {e e0 e1 e2 e3 : Engine D} {s : String} {i : Int}
    {bidPrice bidQuantity askPrice askQuantity : D} {session : Session D}
    (c : Coherent .real e.view none)
    (valid : ValidQuote e s i bidPrice bidQuantity askPrice askQuantity session)
    (hbook : e0.book = e.book) (harr : e0.nextArrival = e.nextArrival)
    (hdrop : (((e.leg s i .buy).toList ++ (e.leg s i .sell).toList).foldlM
      (fun e leg => e.dropResting s i leg) e0) = .ok e1)
    {bidTrades askTrades : List (RawTrade D)} {bid ask : Option (Order D)}
    (hbid : e1.quoteLeg s i .buy bidPrice bidQuantity ("quote.bid." ++ toString i) =
      .ok (bidTrades, bid, e2))
    (hask : e2.quoteLeg s i .sell askPrice askQuantity ("quote.ask." ++ toString i) =
      .ok (askTrades, ask, e3)) :
    newLegs bid ask = quotedLegs e s i bidPrice bidQuantity askPrice askQuantity ∧
      Requoted e e3 s i (newLegs bid ask) (bidTrades ++ askTrades) := by
  obtain ⟨v2, half⟩ := bidLeg_spec (y := "quote.ask." ++ toString i) c valid hbook harr hdrop hbid
  obtain ⟨bidLeg, bidArrival⟩ := quoteLeg_leg hbid
  obtain ⟨askLeg, askArrival⟩ := quoteLeg_leg hask
  have sided := @newLegs_sided D _ e1 e2 s i bidPrice bidQuantity askPrice askQuantity
    ("quote.bid." ++ toString i) ("quote.ask." ++ toString i)
  obtain ⟨only, -, goneBuy, goneSell, ready⟩ := legs_ready c hbook hdrop _ sided
  have arrival : e1.nextArrival = e.nextArrival := by
    rw [only.rest]
    exact harr
  have gone : ∀ side, Withdrawn e1 s i side := by
    intro side
    cases side
    · exact goneBuy
    · exact goneSell
  have keyed : ∀ side, ∀ x ∈ newLegs bid ask side, x.identity = (s, quoteOrderId) := by
    intro side x hx
    cases side
    all_goals
      simp only [newLegs, QuotePair.leg, bidLeg, askLeg] at hx
      split at hx
      · cases hx
      · obtain rfl := Option.some.inj hx
        rfl
  have first : LegEntered e1 e2 s i .buy bid bidTrades :=
    legEntered ready rfl arrival.symm valid.bid valid.bidSized
      (fun hz => by simp [newLegs, QuotePair.leg, hz]) goneBuy (Or.inr goneSell) hbid
  have second : LegEntered e2 e3 s i .sell ask askTrades :=
    legEntered half.coherent half.book half.arrival valid.ask valid.askSized
      (fun hz => by rw [half.legs]; simp [QuotePair.leg, hz]) half.fresh (Or.inl rfl) hask
  constructor
  · funext side
    cases side with
    | buy =>
      change bid = _
      rw [bidLeg, quotedLegs, legOrder, legOrder, arrival]
    | sell =>
      change ask = _
      rw [askLeg, quotedLegs, legOrder, legOrder, bidArrival, arrival]
  · exact requoted gone (withdrawn_filter c hbook hdrop gone)
      (fun j hj => (dropLegs_elsewhere _ hdrop j hj).trans (congrFun hbook j)) first second
      (keyed .buy) (keyed .sell)

omit [Decimal D] in
theorem lastSnapshot_unmet {identity : String × OrderId} {trades : List (RawTrade D)}
    (unmet : ∀ t ∈ trades, ∀ side, (t.party side).identity ≠ identity) :
    OrderBook.lastSnapshot identity trades = none := by
  rw [lastSnapshot_eq, List.getLast?_eq_none_iff]
  induction trades with
  | nil => rfl
  | cons t ts ih =>
    have buyer : t.buyer.identity ≠ identity := unmet t List.mem_cons_self .buy
    have seller : t.seller.identity ≠ identity := unmet t List.mem_cons_self .sell
    rw [snapshots_cons, ih (fun t ht => unmet t (List.mem_cons_of_mem _ ht))]
    simp [buyer, seller]

/-- The trades of a quote are with what rested in its instrument. -/
theorem Requoted.unmet {e e' : Engine D} {s : String} {i : Int} {legs : Side → Option (Order D)}
    {trades : List (RawTrade D)} (books : Requoted e e' s i legs trades)
    (c : Coherent .real e.view none) {s' : String} {id : OrderId} {r : Order D}
    (recorded : e.order s' id = some r) (other : r.instrumentId ≠ i) :
    ∀ t ∈ trades, ∀ side, (t.party side).identity ≠ (s', id) := by
  obtain ⟨hs, hid, regular⟩ := c.keyed s' id r recorded
  intro t ht side same
  rcases books.met t ht side with quoted | ⟨o, ho, met⟩
  · exact regular (Prod.mk.inj (same.symm.trans quoted)).2
  · have key : o.identity = (s', id) := met.symm.trans same
    obtain ⟨rfl, rfl⟩ := Prod.mk.inj key
    have own := (c.owned i side o ho).record regular
    obtain rfl := Option.some.inj (own.symm.trans recorded)
    exact other (c.fit i side o ho).instrument

theorem quote_leaves [LawfulDecimal D] {e e' : Engine D} (c : Coherent .real e.view none)
    {s : String} {i : Int} {bidPrice bidQuantity askPrice askQuantity : D}
    (h : e.quote s i bidPrice bidQuantity askPrice askQuantity = .ok (.ok (), e')) :
    ∃ trades fills, QuoteLeaves e e' s i (quotedLegs e s i bidPrice bidQuantity askPrice
      askQuantity)
      trades fills ∧ e.tradesOf (.quote s i bidPrice bidQuantity askPrice askQuantity) =
        trades := by
  rcases quote_cases c h with refused | ⟨-, v, trades, fills, done, run⟩
  · obtain ⟨err, same, -⟩ := refused
    cases same
  · have made := run.tradesOf
    obtain ⟨session, a1, ts, b, a2, us, a, a3, hc, hdrop, hbid, hask, rfl⟩ := run
    have valid := checkQuote_ok hc
    have hs := valid.registered
    obtain ⟨-, bidTrades, askTrades, bid, ask, e1, e2, e3, e4, q⟩ := quote_steps c hc h
    -- Both descriptions run the same steps.
    obtain rfl := Except.ok.inj (hdrop.symm.trans q.withdrawn)
    obtain ⟨rfl, rfl, rfl⟩ := Prod.mk.inj (Except.ok.inj (hbid.symm.trans q.entersBid)) |>.imp_right
      Prod.mk.inj
    obtain ⟨rfl, rfl, rfl⟩ := Prod.mk.inj (Except.ok.inj (hask.symm.trans q.entersAsk)) |>.imp_right
      Prod.mk.inj
    have unmoved : (e.seated s (bareSession session i)).book = e.book := rfl
    obtain ⟨legs, books⟩ := legs_entered c valid unmoved rfl
      (q.drops hs) q.entersBid q.entersAsk
    obtain ⟨⟨news, told, -⟩, -⟩ := sendTradeReports_told (ts ++ us) (q.keyless hs c)
    rw [← q.ends] at told
    have book : e'.book = a3.book := told.book.trans q.quiet.book
    refine ⟨ts ++ us, fills, ⟨?_, ?_, ?_, done.effect.sent, done.filled⟩, made⟩
    · rw [← legs]
      exact ⟨by rw [book]; exact books.mine, by rw [book]; exact books.others,
        by rw [book]; exact books.current, books.met, by rw [book]; exact books.elsewhere⟩
    · intro s' j
      have published : e4.pair = (a3.seated s (quotedSession session i b a)).pair := by
        funext s' j
        unfold Engine.pair
        rw [q.quiet.sessions]
      rw [told.pair, published, q.pair hs, ← legs]
      rfl
    · rw [← done.record, ← done.effect.view]
      rfl

/-- The terms of a leg: those of the call, and a later arrival than anything before. -/
theorem quotedLegs_terms {e : Engine D} {s : String} {i : Int}
    {bidPrice bidQuantity askPrice askQuantity : D} {side : Side} {x : Order D}
    (h : quotedLegs e s i bidPrice bidQuantity askPrice askQuantity side = some x) :
    (side = .buy → x.price = bidPrice ∧ x.quantity = bidQuantity) ∧
      (side = .sell → x.price = askPrice ∧ x.quantity = askQuantity) ∧
      e.nextArrival < x.arrival := by
  cases side with
  | buy =>
    simp only [quotedLegs] at h
    split at h
    · cases h
    · obtain rfl := Option.some.inj h
      exact ⟨fun _ => ⟨rfl, rfl⟩, nofun, Nat.lt_succ_self _⟩
  | sell =>
    simp only [quotedLegs] at h
    split at h
    · cases h
    · obtain rfl := Option.some.inj h
      refine ⟨nofun, fun _ => ⟨rfl, rfl⟩, ?_⟩
      change e.nextArrival < (if bidPrice = 0 then e.nextArrival else e.nextArrival + 1) + 1
      split <;> omega

theorem restingLeg_length (side : Side) (trades : List (RawTrade D)) (leg : Option (Order D)) :
    (tradedQueue side trades (restingLeg leg)).length ≤ 1 := by
  refine (List.length_filter_le _ _).trans ?_
  rw [List.length_map, restingLeg, List.length_map]
  cases leg <;> simp

/-- An accepted quote leaves its own legs, and of everything else what the trades
of the call make of it. -/
theorem quote_replaces_pair [LawfulDecimal D] {e e' : Engine D} (reachable : Reachable .real e)
    {s : String} {i : Int} {bidPrice bidQuantity askPrice askQuantity : D}
    (h : e.quote s i bidPrice bidQuantity askPrice askQuantity = .ok (.ok (), e')) :
    ∃ trades fills,
      QuoteLeaves e e' s i (quotedLegs e s i bidPrice bidQuantity askPrice askQuantity) trades
        fills ∧
      (∀ side, (((e'.book i).queue side).filter
        (fun o => o.identity = (s, quoteOrderId))).length ≤ 1) ∧
      (∀ side, ∀ o ∈ (e'.book i).queue side, o.identity = (s, quoteOrderId) →
        o.price = (if side = .buy then bidPrice else askPrice) ∧
          ∀ j side', ∀ old ∈ (e.book j).queue side', old.arrival < o.arrival) ∧
      (∀ s' id r, e.order s' id = some r → r.instrumentId ≠ i → e'.order s' id = some r) := by
  obtain ⟨c, -⟩ := reachable_coherent reachable
  obtain ⟨trades, fills, leaves, -⟩ := quote_leaves c h
  refine ⟨trades, fills, leaves, ?_, ?_, ?_⟩
  · intro side
    rw [leaves.books.mine]
    exact restingLeg_length ..
  · intro side o ho hid
    obtain ⟨x, hx, cont⟩ := leaves.books.current side o ho hid
    obtain ⟨buy, sell, arrival⟩ := quotedLegs_terms hx
    refine ⟨?_, ?_⟩
    · rw [cont.price]
      cases side with
      | buy => exact (buy rfl).1
      | sell => exact (sell rfl).1
    · intro j side' old hold
      have arrived := (c.real rfl j).arrived side' old hold
      rw [cont.arrival]
      exact lt_of_le_of_lt arrived arrival
  · intro s' id r recorded other
    have unmet := leaves.books.unmet c recorded other
    rw [leaves.records, View.afterTrades, recorded, lastSnapshot_unmet unmet]
    rfl

/-- A quote over a pair whose ask was partly taken, with a bid that meets an offer. -/
def requotes : List (Command ℚ) := [
  .createInstrument "AAA", .registerSession "a", .registerSession "b",
  .quote "a" 1 9 4 11 4,
  .createOrder 1 "b" ⟨1, 1, .buy, .limit, 11, 3⟩,
  .createOrder 1 "b" ⟨2, 1, .sell, .limit, 12, 1⟩]

theorem quote_replaces_pair_sample : ∃ e', (played .real requotes).quote "a" 1 12 2 13 5 =
      .ok (.ok (), e') ∧ ∃ trades fills,
    QuoteLeaves (played .real requotes) e' "a" 1
      (quotedLegs (played .real requotes) "a" 1 12 2 13 5)
      trades fills := by
  have ran : (accepted ((played .real requotes).quote "a" 1 12 2 13 5)).isSome = true := by
    decide +kernel
  obtain ⟨⟨⟨⟩, e'⟩, hran⟩ := Option.isSome_iff_exists.mp ran
  have returns := accepted_eq hran
  obtain ⟨trades, fills, leaves, -⟩ :=
    quote_replaces_pair (played_reachable .real requotes) returns
  exact ⟨e', returns, trades, fills, leaves⟩

end Engine

end RustTrader
