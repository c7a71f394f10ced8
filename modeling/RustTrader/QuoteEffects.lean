import RustTrader.Replacement

/-!
# Quotes

A quote withdraws the old pair of its session and instrument and matches two
new legs, the bid before the ask. Neither step reads the sessions, so the pair
can be thought of as replaced before the new legs reach the book.
-/

namespace RustTrader

open Decimal

namespace Engine

variable {D : Type} [Decimal D]

/-- Only books have changed. -/
structure BooksOnly (e e' : Engine D) : Prop where
  rest : e' = { e with books := e'.books }

theorem BooksOnly.refl (e : Engine D) : BooksOnly e e := ⟨rfl⟩

theorem BooksOnly.trans {e e' e'' : Engine D} (h : BooksOnly e e') (h' : BooksOnly e' e'') :
    BooksOnly e e'' := ⟨by rw [h'.rest, h.rest]⟩

/-- No quote leg of the session rests on this side. -/
def Withdrawn (e : Engine D) (s : String) (i : Int) (side : Side) : Prop :=
  ∀ o ∈ (e.book i).queue side, o.identity ≠ (s, quoteOrderId)

/-- A side without a leg in the session's pair has none in the book. -/
theorem withdrawn_of_none {policy : FillPolicy} {e : Engine D} {v : View D}
    (c : Coherent policy v none) (hbook : v.book = e.book) {s : String} {i : Int} {side : Side}
    (h : v.leg s i side = none) : Withdrawn e s i side := by
  intro o ho same
  rw [← hbook] at ho
  obtain ⟨hs, hid⟩ := Prod.mk.inj same
  obtain ⟨leg, hleg, -, -⟩ := (c.owned i side o ho).legged hid
  have fit := c.fit i side o ho
  rw [hs, fit.instrument, fit.side, h] at hleg
  cases hleg

/-- No order has come to any book. -/
def Thinned (e e' : Engine D) : Prop :=
  ∀ i side, ∀ o ∈ (e'.book i).queue side, o ∈ (e.book i).queue side

theorem Thinned.trans {e e' e'' : Engine D} (h : Thinned e e') (h' : Thinned e' e'') :
    Thinned e e'' := fun i side o ho => h i side o (h' i side o ho)

theorem Withdrawn.thinned {e e' : Engine D} {s : String} {i : Int} {side : Side}
    (h : Withdrawn e s i side) (thin : Thinned e e') : Withdrawn e' s i side :=
  fun o ho => h o (thin i side o ho)

theorem dropResting_spec {policy : FillPolicy} {e e' : Engine D} {v : View D}
    (c : Coherent policy v none) (hbook : v.book = e.book) {s : String} {i : Int} {side : Side}
    {l : Order D} (hleg : v.leg s i side = some l) (h : e.dropResting s i l = .ok e') :
    BooksOnly e e' ∧ Coherent policy { v with book := e'.book } none ∧ Withdrawn e' s i side ∧
      Thinned e e' := by
  obtain ⟨hid, hside⟩ := c.legs s i side l hleg
  unfold dropResting at h
  obtain ⟨⟨result, ea⟩, hremove, h⟩ := Exec.bind_ok.mp h
  cases h
  have filed := c.filed i
  rw [hbook] at filed
  rw [hid, hside] at hremove
  rcases removeFromBook_cases filed hremove with
    ⟨-, rfl, absent⟩ | ⟨o, book', -, rfl, ho, hoid, hprice, left⟩
  · refine ⟨.refl _, ?_, ?_, fun _ _ _ ho => ho⟩
    · rw [← hbook]
      exact c
    · intro o ho same
      rw [← hbook] at ho
      obtain ⟨hs, hi⟩ := Prod.mk.inj same
      obtain ⟨leg, hl, -, hp⟩ := (c.owned i side o ho).legged hi
      have fit := c.fit i side o ho
      rw [hs, fit.instrument, fit.side, hleg] at hl
      obtain rfl := Option.some.inj hl
      rw [hbook] at ho
      exact absent o ho hp.symm same
  · have gone : o.id = quoteOrderId := (Prod.mk.inj hoid).2
    rw [← hbook] at left ho
    have after := c.leave left ho
    rw [if_pos gone] at after
    have books : (e.setBook i book').book = (v.setBook i book').book := by
      rw [book_setBook, ← hbook]
      rfl
    have mem : ∀ j side', ∀ x ∈ ((e.setBook i book').book j).queue side',
        x ∈ (e.book j).queue side' ∧ (j = i → side' = side → x.identity ≠ o.identity) := by
      intro j side' x hx
      rw [books] at hx
      rw [← hbook]
      exact (c.mem_leave left).mp hx
    refine ⟨⟨rfl⟩, ?_, ?_, ?_⟩
    · rw [books]
      exact after
    · intro x hx
      rw [← hoid]
      exact (mem i side x hx).2 rfl rfl
    · intro j side' x hx
      exact (mem j side' x hx).1

/-- Withdrawing the legs of some sides. -/
theorem dropLegs_spec {policy : FillPolicy} {s : String} {i : Int} (sides : List Side) :
    ∀ {e e' : Engine D} {v : View D}, Coherent policy v none → v.book = e.book →
      (sides.flatMap (fun side => (v.leg s i side).toList)).foldlM
        (fun e leg => e.dropResting s i leg) e = .ok e' →
      BooksOnly e e' ∧ Coherent policy { v with book := e'.book } none ∧
        (∀ side ∈ sides, Withdrawn e' s i side) ∧ Thinned e e' := by
  induction sides with
  | nil =>
    intro e e' v c hbook h
    cases h
    refine ⟨.refl _, ?_, by simp, fun _ _ _ ho => ho⟩
    rw [← hbook]
    exact c
  | cons side sides ih =>
    intro e e' v c hbook h
    rw [List.flatMap_cons, List.foldlM_append] at h
    obtain ⟨ea, hfirst, h⟩ := Exec.bind_ok.mp h
    have first : BooksOnly e ea ∧ Coherent policy { v with book := ea.book } none ∧
        Withdrawn ea s i side ∧ Thinned e ea := by
      cases hleg : v.leg s i side with
      | none =>
        rw [hleg] at hfirst
        cases hfirst
        refine ⟨.refl _, ?_, withdrawn_of_none c hbook hleg, fun _ _ _ ho => ho⟩
        rw [← hbook]
        exact c
      | some l =>
        rw [hleg] at hfirst
        simp only [Option.toList_some, List.foldlM_cons, List.foldlM_nil] at hfirst
        obtain ⟨eb, hdrop, hpure⟩ := Exec.bind_ok.mp hfirst
        cases hpure
        exact dropResting_spec c hbook hleg hdrop
    obtain ⟨only, ca, gone, kept⟩ := first
    obtain ⟨only', c', gone', kept'⟩ := ih ca rfl h
    refine ⟨only.trans only', c', ?_, fun j side' o ho => kept j side' o (kept' j side' o ho)⟩
    intro side' hmem
    rcases List.mem_cons.mp hmem with rfl | hmem
    · exact gone.thinned kept'
    · exact gone' side' hmem

/-- The order behind a leg of a new quote. -/
def legOrder (e : Engine D) (s : String) (i : Int) (side : Side) (price quantity : D)
    (exchangeId : String) : Order D :=
  { Order.limit s quoteOrderId i side price quantity (e.nextArrival + 1) with
    exchangeId := exchangeId }

/-- A leg arrives at a book from which the old pair has been withdrawn. -/
theorem leg_arrives {e : Engine D} {v : View D} (hbook : v.book = e.book)
    (harr : v.arrival = e.nextArrival) {s : String} {i : Int} {side : Side} {price quantity : D}
    {exchangeId : String} (positive : 0 < price) (sized : 0 < quantity)
    (hleg : v.leg s i side = some (e.legOrder s i side price quantity exchangeId))
    (fresh : Withdrawn e s i side) (apart : side = .sell ∨ Withdrawn e s i side.opposite) :
    View.Arrives v none (e.legOrder s i side price quantity exchangeId) := by
  refine ⟨sized, fun _ => positive, ?_, .leg rfl rfl rfl ⟨_, hleg, rfl, rfl⟩ ?_ ?_⟩
  · rw [harr]
    exact Nat.lt_succ_self _
  · rw [View.queue, hbook]
    exact fresh
  · rw [View.queue, hbook]
    exact apart

/-- The order of a fresh leg. -/
structure LegTerms (s : String) (i : Int) (exchangeId : String) (order : Order D) : Prop where
  owner : order.sessionId = s
  place : order.instrumentId = i
  named : order.exchangeId = exchangeId
  quoted : order.id = quoteOrderId
  limit : order.orderType = .limit
  fresh : order.cumQuantity = 0
  whole : order.remaining = order.quantity
  average : order.avgPrice = 0
  state : order.state = .new

theorem LegTerms.active {s : String} {i : Int} {exchangeId : String} {order : Order D}
    (h : LegTerms s i exchangeId order) : order.state.isActive := by
  rw [h.state]
  rfl

/-- One leg meets the book, or there is none. -/
inductive LegMatched (s : String) (i : Int) (exchangeId : String) (v : View D) :
    View D → List (RawTrade D) → Prop
  | idle : LegMatched s i exchangeId v v []
  | matched {order left final : Order D} {trades : List (RawTrade D)} {book' : OrderBook D}
      (terms : LegTerms s i exchangeId order)
      (added : Coherent.Added v none order trades left final book') :
      LegMatched s i exchangeId v (v.added order trades final book') trades

/-- What one leg of a quote does. -/
structure Legged (e e' : Engine D) (v v' : View D) (s : String) (i : Int) (side : Side)
    (exchangeId : String) (trades : List (RawTrade D)) : Prop where
  coherent : Coherent .real v' none
  book : v'.book = e'.book
  record : v'.record = View.afterTrades trades v.record
  follows : ∀ s id, id ≠ quoteOrderId →
    Follows (v.record s id) (snapshots (s, id) trades) (v'.record s id)
  leg : v'.leg = v.leg
  matched : LegMatched s i exchangeId v v' trades
  arrival : v'.arrival = e'.nextArrival
  rest : e' = { e with
    books := e'.books
    nextExchangeId := e'.nextExchangeId
    nextArrival := e'.nextArrival }
  opposite : ∀ x ∈ v'.queue i side.opposite, ∃ r ∈ v.queue i side.opposite,
    r.identity = x.identity

omit [Decimal D] in
theorem synced_quote {record : String → OrderId → Option (Order D)}
    (keyless : ∀ s, record s quoteOrderId = none) {final : Order D}
    (h : final.id = quoteOrderId) : View.synced final record = record := by
  funext s id
  unfold View.synced
  split
  · rename_i hs
    obtain ⟨rfl, rfl⟩ := Prod.mk.inj hs
    rw [h, keyless]
    rfl
  · rfl

omit [Decimal D] in
theorem afterTrades_nil (record : String → OrderId → Option (Order D)) :
    View.afterTrades [] record = record := by
  funext s id
  simp [View.afterTrades, OrderBook.lastSnapshot]

theorem quoteLeg_spec [LawfulDecimal D] {e e' : Engine D} {v : View D}
    (c : Coherent .real v none) (hbook : v.book = e.book) (harr : v.arrival = e.nextArrival)
    {s : String} {i : Int} {side : Side} {price quantity : D} {exchangeId : String}
    (nonneg : 0 ≤ price) (sized : price ≠ 0 → 0 < quantity)
    (hleg : price ≠ 0 → v.leg s i side = some (e.legOrder s i side price quantity exchangeId))
    (fresh : Withdrawn e s i side) (apart : side = .sell ∨ Withdrawn e s i side.opposite)
    {trades : List (RawTrade D)} {leg : Option (Order D)}
    (h : e.quoteLeg s i side price quantity exchangeId = .ok (trades, leg, e')) :
    leg = (if price = 0 then none else some (e.legOrder s i side price quantity exchangeId)) ∧
      ∃ v', Legged e e' v v' s i side exchangeId trades := by
  unfold quoteLeg at h
  by_cases hz : price = 0
  · rw [if_pos hz] at h
    cases h
    refine ⟨by rw [if_pos hz], v, ⟨c, hbook, (afterTrades_nil _).symm, fun _ _ _ => .refl _, rfl,
      .idle, harr, rfl, fun x hx => ⟨x, hx, rfl⟩⟩⟩
  · rw [if_neg hz] at h
    obtain ⟨⟨ts, result, ea⟩, hadd, h⟩ := Exec.bind_ok.mp h
    cases h
    obtain ⟨book', hbook', rfl⟩ := addToBook_ok hadd
    have arrives := leg_arrives hbook harr (lt_of_le_of_ne nonneg (Ne.symm hz)) (sized hz)
      (hleg hz) fresh apart
    have hadd' : (v.book (e.legOrder s i side price quantity exchangeId).instrumentId).add
        (e.legOrder s i side price quantity exchangeId) = .ok (trades, result, book') := by
      rw [hbook]
      exact hbook'
    obtain ⟨left, final, -, added⟩ := Coherent.added_of_add c arrives hadd'
    refine ⟨by rw [if_neg hz]; rfl, _, added.coherent_after, ?_, ?_, ?_, rfl,
      .matched ⟨rfl, rfl, rfl, rfl, rfl, rfl, rfl, rfl, rfl⟩ added, rfl, rfl, ?_⟩
    · change Function.update v.book i book' = _
      rw [book_setBook, hbook]
      rfl
    · change View.synced final (View.afterTrades trades v.record) = _
      refine synced_quote ?_ (Prod.mk.inj added.final_identity).2
      intro s'
      unfold View.afterTrades
      cases hr : v.record s' quoteOrderId with
      | none => rfl
      | some r => exact absurd rfl (c.keyed _ _ r hr).2.2
    · intro s' id hid
      exact added.follows hid (fun same => hid (Prod.mk.inj same).2)
    · intro x hx
      have hq := Coherent.Added.queue_added v (e.legOrder s i side price quantity exchangeId)
        trades final book' i side.opposite
      rw [hq] at hx
      have hi : i = (e.legOrder s i side price quantity exchangeId).instrumentId := rfl
      rw [if_pos hi] at hx
      obtain ⟨r, hr, hc⟩ := added.mem_opposite hx
      exact ⟨r, hr, hc.identity.symm⟩

omit [Decimal D] in
theorem afterTrades_append (ts us : List (RawTrade D)) :
    ∀ record : String → OrderId → Option (Order D),
      View.afterTrades us (View.afterTrades ts record) = View.afterTrades (ts ++ us) record := by
  induction ts with
  | nil =>
    intro record
    rw [afterTrades_nil, List.nil_append]
  | cons t ts ih =>
    intro record
    rw [← afterTrades_cons, ih, List.cons_append, ← afterTrades_cons]

/-- What every accepted quote has been checked for. -/
structure ValidQuote (e : Engine D) (s : String) (i : Int)
    (bidPrice bidQuantity askPrice askQuantity : D) (session : Session D) : Prop where
  real : e.fillPolicy ≠ .tiered
  listed : ∃ instrument, e.instruments.getById i = some instrument
  bid : 0 ≤ bidPrice
  ask : 0 ≤ askPrice
  bidSized : bidPrice ≠ 0 → 0 < bidQuantity
  askSized : askPrice ≠ 0 → 0 < askQuantity
  registered : e.sessions.get? s = some session

theorem checkQuote_ok {e : Engine D} {s : String} {i : Int}
    {bidPrice bidQuantity askPrice askQuantity : D} {session : Session D}
    (h : e.checkQuote s i bidPrice bidQuantity askPrice askQuantity = .ok session) :
    ValidQuote e s i bidPrice bidQuantity askPrice askQuantity session := by
  unfold checkQuote at h
  split at h
  · cases h
  rename_i hpolicy
  split at h
  · cases h
  rename_i hlisted
  split at h
  · cases h
  rename_i hbid
  split at h
  · cases h
  rename_i hask
  split at h
  · cases h
  rename_i hprices
  rw [not_or, not_lt, not_lt] at hprices
  cases hs : e.sessions.get? s with
  | none => rw [hs] at h; cases h
  | some found =>
    rw [hs] at h
    obtain rfl := Except.ok.inj h
    refine ⟨hpolicy, ?_, hprices.1, hprices.2, ?_, ?_, hs⟩
    · cases hi : e.instruments.getById i with
      | none => rw [hi] at hlisted; exact absurd rfl hlisted
      | some instrument => exact ⟨instrument, rfl⟩
    · exact fun hz => not_le.mp (fun hle => hbid ⟨hz, hle⟩)
    · exact fun hz => not_le.mp (fun hle => hask ⟨hz, hle⟩)

theorem checkQuote_error {e : Engine D} {s : String} {i : Int}
    {bidPrice bidQuantity askPrice askQuantity : D} {err : EngineError}
    (h : e.checkQuote s i bidPrice bidQuantity askPrice askQuantity = .error err) :
    err.External := by
  unfold checkQuote at h
  intro context same
  subst same
  split at h
  · cases h
  split at h
  · cases h
  split at h
  · cases h
  split at h
  · cases h
  split at h
  · cases h
  split at h
  · cases h
  · cases h

/-- The engine with one session rewritten. -/
def seated (e : Engine D) (s : String) (session : Session D) : Engine D :=
  { e with sessions := e.sessions.insert s session }

theorem seated_registered {e : Engine D} {s : String} {old : Session D}
    (hs : e.sessions.get? s = some old) (session : Session D) (s' : String) :
    (e.seated s session).Registered s' ↔ e.Registered s' := by
  unfold Registered seated
  by_cases h : s' = s
  · subst h
    simp [hs]
  · simp [SortedMap.get?_insert_ne, h]

theorem order_seated {e : Engine D} {s : String} {old session : Session D}
    (hs : e.sessions.get? s = some old) (same : session.orders = old.orders) :
    (e.seated s session).order = e.order := by
  funext s' id
  by_cases h : s' = s
  · subst h
    simp [Engine.order, seated, hs, same]
  · simp [Engine.order, seated, SortedMap.get?_insert_ne, h]

/-- The old pair is withdrawn and new legs can take its place. -/
theorem legs_ready {e e0 e1 : Engine D} (c : Coherent .real e.view none) {s : String} {i : Int}
    (hbook : e0.book = e.book)
    (hdrop : (((e.leg s i .buy).toList ++ (e.leg s i .sell).toList).foldlM
      (fun e leg => e.dropResting s i leg) e0) = .ok e1) (legs : Side → Option (Order D))
    (sided : ∀ side leg, legs side = some leg → leg.id = quoteOrderId ∧ leg.side = side) :
    BooksOnly e0 e1 ∧ Thinned e0 e1 ∧ Withdrawn e1 s i .buy ∧ Withdrawn e1 s i .sell ∧
      Coherent .real { e.view with
        book := e1.book
        leg := fun s' j side => if s' = s ∧ j = i then legs side else e.leg s' j side } none := by
  have hdrop' : (([Side.buy, .sell].flatMap (fun side => (e.view.leg s i side).toList)).foldlM
      (fun e leg => e.dropResting s i leg) e0) = .ok e1 := by
    simp only [List.flatMap_cons, List.flatMap_nil, List.append_nil]
    exact hdrop
  obtain ⟨only, c1, gone, thin⟩ := dropLegs_spec _ c hbook.symm hdrop'
  have buy := gone .buy (by simp)
  have sell := gone .sell (by simp)
  exact ⟨only, thin, buy, sell, c1.setLegs legs sided
    (fun side => by cases side; exacts [buy, sell])⟩

/-- The records and the books before the legs of a quote: nothing but the old
pair is gone. -/
structure Vacated (e : Engine D) (v : View D) : Prop where
  coherent : Coherent .real v none
  record : v.record = e.order
  thinned : ∀ i side, ∀ o ∈ v.queue i side, o ∈ e.view.queue i side
  arrival : v.arrival = e.nextArrival

/-- The effect of an accepted quote. -/
structure Quoted (e e' : Engine D) (s : String) (i : Int) (v : View D) (trades : List (RawTrade D))
    (fills : List (Report D)) : Prop where
  coherent : Coherent .real v none
  record : v.record = View.afterTrades trades e.order
  follows : ∀ s id, id ≠ quoteOrderId →
    Follows (e.order s id) (snapshots (s, id) trades) (v.record s id)
  stages : ∃ v1 v2 bidTrades askTrades, Vacated e v1 ∧
    LegMatched s i ("quote.bid." ++ toString i) v1 v2 bidTrades ∧
    LegMatched s i ("quote.ask." ++ toString i) v2 v askTrades ∧ trades = bidTrades ++ askTrades
  filled : FillNews e (parties trades) fills
  effect : Effect e e' v fills

/-- The engine in the middle of a quote: the old pair is withdrawn and the bid has
been matched. -/
structure HalfQuoted (e e0 e2 : Engine D) (v : View D) (s : String) (i : Int)
    (exchangeId : String) (bidTrades : List (RawTrade D)) (bid ask : Option (Order D))
    (records : String → OrderId → Option (Order D))
    (pairs : String → Int → Side → Option (Order D)) :
    Prop where
  coherent : Coherent .real v none
  book : v.book = e2.book
  arrival : v.arrival = e2.nextArrival
  record : v.record = View.afterTrades bidTrades records
  follows : ∀ s id, id ≠ quoteOrderId →
    Follows (records s id) (snapshots (s, id) bidTrades) (v.record s id)
  legs : v.leg = fun s' j side => if s' = s ∧ j = i then (QuotePair.mk bid ask).leg side
    else pairs s' j side
  stage : ∃ v1, Vacated e v1 ∧ LegMatched s i exchangeId v1 v bidTrades
  fresh : Withdrawn e2 s i .sell
  rest : e2 = { e0 with
    books := e2.books
    nextExchangeId := e2.nextExchangeId
    nextArrival := e2.nextArrival }

/-- A session without its pair for an instrument. -/
def bareSession (session : Session D) (i : Int) : Session D :=
  { session with quotes := HashMap.remove session.quotes i }

theorem withdrawPair_eq {e : Engine D} {s : String} {session : Session D}
    (hs : e.sessions.get? s = some session) (i : Int) : e.withdrawPair s i session =
      ((e.leg s i .buy).toList ++ (e.leg s i .sell).toList).foldlM
        (fun e leg => e.dropResting s i leg) (e.seated s (bareSession session i)) := by
  have legs : ∀ side, e.leg s i side =
      (((HashMap.get? session.quotes i).getD ⟨none, none⟩).leg side) := by
    intro side
    cases hp : HashMap.get? session.quotes i with
    | none => cases side <;> simp [leg, pair, hs, hp, QuotePair.leg]
    | some p => simp [leg, pair, hs, hp]
  rw [legs, legs]
  rfl

/-- The legs of a new quote, by side. -/
def newLegs (bid ask : Option (Order D)) (side : Side) : Option (Order D) :=
  (QuotePair.mk bid ask).leg side

theorem newLegs_sided {e e' : Engine D} {s : String} {i : Int}
    {bidPrice bidQuantity askPrice askQuantity : D} {x y : String} (side : Side) (leg : Order D)
    (h : newLegs (if bidPrice = 0 then none else some (e.legOrder s i .buy bidPrice bidQuantity x))
      (if askPrice = 0 then none else some (e'.legOrder s i .sell askPrice askQuantity y)) side =
        some leg) : leg.id = quoteOrderId ∧ leg.side = side := by
  cases side
  all_goals
    simp only [newLegs, QuotePair.leg] at h
    split at h
    · cases h
    · obtain rfl := Option.some.inj h
      exact ⟨rfl, rfl⟩

theorem bidLeg_spec [LawfulDecimal D] {e e0 e1 e2 : Engine D} {s : String} {i : Int}
    {bidPrice bidQuantity askPrice askQuantity : D} {session : Session D}
    (c : Coherent .real e.view none)
    (valid : ValidQuote e s i bidPrice bidQuantity askPrice askQuantity session)
    (hbook : e0.book = e.book) (harr : e0.nextArrival = e.nextArrival)
    (hdrop : (((e.leg s i .buy).toList ++ (e.leg s i .sell).toList).foldlM
      (fun e leg => e.dropResting s i leg) e0) = .ok e1)
    {bidTrades : List (RawTrade D)} {bid : Option (Order D)} {x y : String}
    (hbid : e1.quoteLeg s i .buy bidPrice bidQuantity x = .ok (bidTrades, bid, e2)) :
    ∃ v, HalfQuoted e e0 e2 v s i x bidTrades bid
      (if askPrice = 0 then none else some (e2.legOrder s i .sell askPrice askQuantity y))
      e.order e.leg := by
  let ask := if askPrice = 0 then none else some (e2.legOrder s i .sell askPrice askQuantity y)
  let bid' := if bidPrice = 0 then none else some (e1.legOrder s i .buy bidPrice bidQuantity x)
  obtain ⟨only, thin, goneBuy, goneSell, ready⟩ :=
    legs_ready c hbook hdrop (newLegs bid' ask) newLegs_sided
  have harr1 : e.nextArrival = e1.nextArrival := by rw [only.rest]; exact harr.symm
  obtain ⟨rfl, v, done⟩ := quoteLeg_spec ready rfl harr1 valid.bid valid.bidSized
    (fun hz => by simp [newLegs, QuotePair.leg, bid', hz]) goneBuy (Or.inr goneSell) hbid
  have vacated : ∀ j side, ∀ o ∈ (e1.book j).queue side, o ∈ (e.book j).queue side := by
    rw [← hbook]
    exact thin
  refine ⟨v, done.coherent, done.book, done.arrival, done.record, done.follows, ?_,
    ⟨_, ⟨ready, rfl, vacated, rfl⟩, done.matched⟩, ?_, ?_⟩
  · rw [done.leg]
    rfl
  · intro o ho
    rw [← done.book] at ho
    obtain ⟨r, hr, same⟩ := done.opposite o ho
    rw [← same]
    exact goneSell r hr
  · rw [done.rest, only.rest]

/-- The pair of legs a quote leaves. -/
theorem matchLegs [LawfulDecimal D] {e e0 e1 e2 e3 : Engine D} {s : String} {i : Int}
    {bidPrice bidQuantity askPrice askQuantity : D} {session : Session D}
    (c : Coherent .real e.view none)
    (valid : ValidQuote e s i bidPrice bidQuantity askPrice askQuantity session)
    (hbook : e0.book = e.book) (harr : e0.nextArrival = e.nextArrival)
    (hdrop : (((e.leg s i .buy).toList ++ (e.leg s i .sell).toList).foldlM
      (fun e leg => e.dropResting s i leg) e0) = .ok e1)
    {bidTrades askTrades : List (RawTrade D)} {bid ask : Option (Order D)} {x y : String}
    (hbid : e1.quoteLeg s i .buy bidPrice bidQuantity x = .ok (bidTrades, bid, e2))
    (hask : e2.quoteLeg s i .sell askPrice askQuantity y = .ok (askTrades, ask, e3)) :
    ∃ v, Coherent .real v none ∧ v.book = e3.book ∧ v.arrival = e3.nextArrival ∧
      v.record = View.afterTrades (bidTrades ++ askTrades) e.order ∧
      (∀ s id, id ≠ quoteOrderId →
        Follows (e.order s id) (snapshots (s, id) (bidTrades ++ askTrades)) (v.record s id)) ∧
      (v.leg = fun s' j side => if s' = s ∧ j = i then (QuotePair.mk bid ask).leg side
        else e.leg s' j side) ∧
      (∃ v1 v2, Vacated e v1 ∧ LegMatched s i x v1 v2 bidTrades ∧
        LegMatched s i y v2 v askTrades) ∧
      e3 = { e0 with
        books := e3.books
        nextExchangeId := e3.nextExchangeId
        nextArrival := e3.nextArrival } := by
  obtain ⟨v2, half⟩ := bidLeg_spec (y := y) c valid hbook harr hdrop hbid
  obtain ⟨rfl, v3, done⟩ := quoteLeg_spec half.coherent half.book half.arrival valid.ask
    valid.askSized (fun hz => by rw [half.legs]; simp [QuotePair.leg, hz]) half.fresh
    (Or.inl rfl) hask
  obtain ⟨v1, vacated, first⟩ := half.stage
  refine ⟨v3, done.coherent, done.book, done.arrival, ?_, ?_, done.leg.trans half.legs,
    ⟨v1, v2, vacated, first, done.matched⟩, ?_⟩
  · rw [done.record, half.record, afterTrades_append]
  · intro s' id hid
    rw [snapshots_append]
    refine (half.follows s' id hid).trans (done.follows s' id hid) ?_
    rw [done.record, View.afterTrades, Option.map_eq_none_iff]
  · rw [done.rest, half.rest]

/-- The trades of a quote: those of its two legs. -/
def QuoteRun (e : Engine D) (s : String) (i : Int) (bidPrice bidQuantity askPrice askQuantity : D)
    (trades : List (RawTrade D)) : Prop :=
  ∃ session e1 bidTrades bid e2 askTrades ask e3,
    e.checkQuote s i bidPrice bidQuantity askPrice askQuantity = .ok session ∧
    e.withdrawPair s i session = .ok e1 ∧
    e1.quoteLeg s i .buy bidPrice bidQuantity ("quote.bid." ++ toString i) =
      .ok (bidTrades, bid, e2) ∧
    e2.quoteLeg s i .sell askPrice askQuantity ("quote.ask." ++ toString i) =
      .ok (askTrades, ask, e3) ∧
    trades = bidTrades ++ askTrades

/-- A session with a new pair for an instrument. -/
def quotedSession (session : Session D) (i : Int) (bid ask : Option (Order D)) : Session D :=
  { bareSession session i with
    quotes := HashMap.set (bareSession session i).quotes i ⟨bid, ask⟩ }

/-- The steps of an accepted quote. -/
structure QuoteSteps (e e' : Engine D) (s : String) (i : Int)
    (bidPrice bidQuantity askPrice askQuantity : D) (session : Session D)
    (bidTrades askTrades : List (RawTrade D)) (bid ask : Option (Order D))
    (e1 e2 e3 e4 : Engine D) : Prop where
  withdrawn : e.withdrawPair s i session = .ok e1
  entersBid : e1.quoteLeg s i .buy bidPrice bidQuantity ("quote.bid." ++ toString i) =
    .ok (bidTrades, bid, e2)
  entersAsk : e2.quoteLeg s i .sell askPrice askQuantity ("quote.ask." ++ toString i) =
    .ok (askTrades, ask, e3)
  sessions : e3.sessions = e.sessions.insert s (bareSession session i)
  quiet : Quiet (e3.seated s (quotedSession session i bid ask)) e4
  ends : e' = e4.sendTradeReports (bidTrades ++ askTrades)

theorem quote_steps [LawfulDecimal D] {e e' : Engine D} (c : Coherent .real e.view none)
    {s : String} {i : Int} {bidPrice bidQuantity askPrice askQuantity : D} {session : Session D}
    {reply : Except EngineError Unit}
    (hc : e.checkQuote s i bidPrice bidQuantity askPrice askQuantity = .ok session)
    (h : e.quote s i bidPrice bidQuantity askPrice askQuantity = .ok (reply, e')) :
    reply = .ok () ∧ ∃ bidTrades askTrades bid ask e1 e2 e3 e4,
      QuoteSteps e e' s i bidPrice bidQuantity askPrice askQuantity session bidTrades askTrades bid
        ask e1 e2 e3 e4 := by
  unfold quote at h
  rw [hc] at h
  have valid := checkQuote_ok hc
  obtain ⟨e1, hdrop, h⟩ := Exec.bind_ok.mp h
  obtain ⟨⟨bidTrades, bid, e2⟩, hbid, h⟩ := Exec.bind_ok.mp h
  obtain ⟨⟨askTrades, ask, e3⟩, hask, h⟩ := Exec.bind_ok.mp h
  have hdrop' := (withdrawPair_eq valid.registered i).symm.trans hdrop
  have unmoved : (e.seated s (bareSession session i)).book = e.book := rfl
  obtain ⟨-, -, -, -, -, -, -, -, rest⟩ := matchLegs c valid unmoved rfl hdrop' hbid hask
  have hs3 : e3.sessions = e.sessions.insert s (bareSession session i) := by rw [rest]; rfl
  have found : e3.sessions.get? s = some (bareSession session i) := by rw [hs3]; simp
  simp only [found, unwrap_some, Exec.ok_bind] at h
  obtain ⟨e4, hrecord, h⟩ := Exec.bind_ok.mp h
  obtain ⟨e5, hpublish, h⟩ := Exec.bind_ok.mp h
  cases h
  exact ⟨rfl, bidTrades, askTrades, bid, ask, e1, e2, e3, e5, hdrop, hbid, hask, hs3,
    publish_quiet hrecord hpublish, rfl⟩

namespace QuoteSteps

variable {e e' : Engine D} {s : String} {i : Int} {bidPrice bidQuantity askPrice askQuantity : D}
  {session : Session D} {bidTrades askTrades : List (RawTrade D)} {bid ask : Option (Order D)}
  {e1 e2 e3 e4 : Engine D}

theorem found (q : QuoteSteps e e' s i bidPrice bidQuantity askPrice askQuantity session bidTrades
    askTrades bid ask e1 e2 e3 e4) : e3.sessions.get? s = some (bareSession session i) := by
  rw [q.sessions]
  simp

theorem drops (q : QuoteSteps e e' s i bidPrice bidQuantity askPrice askQuantity session bidTrades
    askTrades bid ask e1 e2 e3 e4) (hs : e.sessions.get? s = some session) :
    ((e.leg s i .buy).toList ++ (e.leg s i .sell).toList).foldlM
      (fun e leg => e.dropResting s i leg) (e.seated s (bareSession session i)) = .ok e1 :=
  (withdrawPair_eq hs i).symm.trans q.withdrawn

/-- The records until the trades are reported. -/
theorem order (q : QuoteSteps e e' s i bidPrice bidQuantity askPrice askQuantity session bidTrades
    askTrades bid ask e1 e2 e3 e4) (hs : e.sessions.get? s = some session) :
    (e3.seated s (quotedSession session i bid ask)).order = e.order := by
  have bare : (e.seated s (bareSession session i)).order = e.order := order_seated hs rfl
  have third : e3.order = e.order := by
    rw [← bare]
    funext s' id
    unfold Engine.order
    rw [q.sessions]
    rfl
  have same : (quotedSession session i bid ask).orders = (bareSession session i).orders := rfl
  exact (order_seated q.found same).trans third

/-- The pairs once the new one is stored. -/
theorem pair (q : QuoteSteps e e' s i bidPrice bidQuantity askPrice askQuantity session bidTrades
    askTrades bid ask e1 e2 e3 e4) (hs : e.sessions.get? s = some session) (s' : String) (j : Int) :
    (e3.seated s (quotedSession session i bid ask)).pair s' j =
      if s' = s ∧ j = i then some ⟨bid, ask⟩ else e.pair s' j := by
  unfold Engine.pair seated
  by_cases hs' : s' = s
  · subst hs'
    by_cases hj : j = i
    · subst hj
      simp [quotedSession]
    · simp [quotedSession, bareSession, hs, hj, HashMap.get?_set_ne, HashMap.get?_remove_ne]
  · simp [q.sessions, SortedMap.get?_insert_ne, hs']

/-- The legs once the new pair is stored. -/
theorem leg (q : QuoteSteps e e' s i bidPrice bidQuantity askPrice askQuantity session bidTrades
    askTrades bid ask e1 e2 e3 e4) (hs : e.sessions.get? s = some session) :
    (e3.seated s (quotedSession session i bid ask)).leg = fun s' j side =>
      if s' = s ∧ j = i then (QuotePair.mk bid ask).leg side else e.leg s' j side := by
  funext s' j side
  unfold Engine.leg
  rw [q.pair hs]
  split <;> rfl

/-- Trades do not touch the records of quotes, which there are none. -/
theorem keyless (q : QuoteSteps e e' s i bidPrice bidQuantity askPrice askQuantity session bidTrades
    askTrades bid ask e1 e2 e3 e4) (hs : e.sessions.get? s = some session)
    (c : Coherent .real e.view none) : e4.Keyless := by
  intro s'
  rw [q.quiet.order, q.order hs]
  cases hr : e.order s' quoteOrderId with
  | none => rfl
  | some r => exact absurd rfl (c.keyed s' quoteOrderId r hr).2.2

end QuoteSteps

theorem quote_cases [LawfulDecimal D] {e e' : Engine D} (c : Coherent .real e.view none)
    {s : String} {i : Int} {bidPrice bidQuantity askPrice askQuantity : D}
    {reply : Except EngineError Unit}
    (h : e.quote s i bidPrice bidQuantity askPrice askQuantity = .ok (reply, e')) :
    Refused e e' reply ∨
    reply = .ok () ∧ ∃ v trades fills, Quoted e e' s i v trades fills ∧
      QuoteRun e s i bidPrice bidQuantity askPrice askQuantity trades := by
  cases hc : e.checkQuote s i bidPrice bidQuantity askPrice askQuantity with
  | error err =>
    unfold quote at h
    rw [hc] at h
    cases h
    exact Or.inl (.intro (checkQuote_error hc))
  | ok session =>
    right
    have valid := checkQuote_ok hc
    have hs := valid.registered
    obtain ⟨rfl, bidTrades, askTrades, bid, ask, e1, e2, e3, e5, q⟩ := quote_steps c hc h
    have unmoved : (e.seated s (bareSession session i)).book = e.book := rfl
    obtain ⟨v, cv, vbook, varr, vrecord, vfollows, vleg, ⟨v1, v2, vacated, first, second⟩, rest⟩ :=
      matchLegs c valid unmoved rfl (q.drops hs) q.entersBid q.entersAsk
    have horder := q.order hs
    have hleg : (e3.seated s (quotedSession session i bid ask)).leg = v.leg :=
      (q.leg hs).trans vleg.symm
    have seats : Effect e (e3.seated s (quotedSession session i bid ask))
        { e.view with book := e3.book, leg := v.leg, arrival := e3.nextArrival } [] := by
      refine ⟨?_, ?_, ?_, ?_, ?_⟩
      · unfold view
        rw [horder, hleg]
        rfl
      · rw [rest]; simp [seated]
      · intro s'
        rw [seated_registered q.found, ← seated_registered hs (bareSession session i)]
        unfold Registered
        rw [q.sessions]
        rfl
      · rw [rest]; rfl
      · rw [rest]; rfl
    have published := seats.trans q.quiet.effect
    obtain ⟨⟨fills, told, news⟩, record⟩ :=
      sendTradeReports_told (bidTrades ++ askTrades) (q.keyless hs c)
    refine ⟨rfl, v, bidTrades ++ askTrades, fills, ⟨cv, vrecord, vfollows,
      ⟨v1, v2, bidTrades, askTrades, vacated, first, second, rfl⟩, news.effect published, ?_⟩,
      session, e1, bidTrades, bid, e2, askTrades, ask, e3, hc, q.withdrawn, q.entersBid,
        q.entersAsk, rfl⟩
    have whole := published.trans told.effect
    rw [q.ends]
    refine ⟨?_, whole.sent, whole.registered, whole.fillPolicy, whole.instruments⟩
    rw [whole.view, record, q.quiet.order, horder, ← vrecord, q.quiet.view, seats.view, ← vbook,
      ← varr]

end Engine

end RustTrader
