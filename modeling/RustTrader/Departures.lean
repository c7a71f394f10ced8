import RustTrader.QuoteEffects

/-!
# Expiry and disconnection

Orders that leave without a request of their owner's: dated orders of an
earlier day, and everything of a session that disconnects. A session is removed
before its orders are, so its maps live on in the view until the loops are done.
-/

namespace RustTrader

open Decimal

namespace Engine

variable {D : Type} [Decimal D]

/-- The record of an expired order. -/
def lapsed (order : Order D) : Order D := { order with state := .expired, remaining := 0 }

/-- The effect of one expiry. -/
structure Expired (e e' : Engine D) (s : String) (id : OrderId) (entry : Order D)
    (book' : OrderBook D) (execId : String) : Prop where
  recorded : e.order s id = some entry
  active : entry.state.isActive
  mem : entry ∈ e.view.queue entry.instrumentId entry.side
  left : OrderBook.Left Order.price (e.book entry.instrumentId) entry.side entry book'
  effect : Effect e e'
    ((e.view.setBook entry.instrumentId book').setRecord s id (some (lapsed entry)))
    [.status (lapsed entry) (e.symbolFor entry.instrumentId) id execId .expired none]

/-- The record of an order that has just left its book, rewritten. -/
theorem record_left {e : Engine D} {s : String} {id : OrderId} {old new : Order D}
    (recorded : e.order s id = some old) (key : new.identity = (s, id)) :
    View.synced new e.order = (e.view.setRecord s id (some new)).record := by
  funext s' id'
  unfold View.synced View.setRecord
  by_cases h : s' = s ∧ id' = id
  · obtain ⟨rfl, rfl⟩ := h
    rw [if_pos key.symm, recorded]
    simp
  · have h' : (s', id') ≠ new.identity := by
      rw [key]
      intro same
      exact h (Prod.mk.inj same)
    rw [if_neg h']
    simp only [h, if_false]
    rfl

theorem keyless_of_coherent {policy : FillPolicy} {gap : Gap} {e : Engine D}
    (c : Coherent policy e.view gap) : e.Keyless :=
  Shows.keyless ⟨rfl, rfl, rfl⟩ c

theorem expireOrder_cases {policy : FillPolicy} {e e' : Engine D}
    (c : Coherent policy e.view none) {key : String × OrderId}
    (h : e.expireOrder key = .ok e') :
    (Effect e e' e.view [] ∧ ∀ r, e.order key.1 key.2 = some r → r.state.isActive = false) ∨
      ∃ entry book' execId, Expired e e' key.1 key.2 entry book' execId := by
  obtain ⟨s, id⟩ := key
  let e0 : Engine D := { e with orderDates := HashMap.remove e.orderDates (s, id) }
  have undated : Effect e e0 e.view [] := ⟨rfl, by simp [e0], fun _ => Iff.rfl, rfl, rfl⟩
  unfold expireOrder at h
  have same : e0.order s id = e.order s id := rfl
  cases hr : e.order s id with
  | none =>
    rw [hr] at same
    simp only [e0] at same
    simp only [same] at h
    cases h
    exact Or.inl ⟨undated, fun r recorded => by cases recorded⟩
  | some entry =>
    rw [hr] at same
    simp only [e0] at same
    simp only [same] at h
    by_cases active : entry.state.isActive = true
    · right
      simp only [active, Bool.not_true, Bool.false_eq_true, if_false] at h
      obtain ⟨hs, hid, hne⟩ := c.keyed s id entry hr
      have key : (lapsed entry).identity = (s, id) := by
        rw [← hs, ← hid]
        rfl
      obtain ⟨⟨result, ea⟩, hremove, h⟩ := Exec.bind_ok.mp h
      have c0 : Coherent policy e0.view none := c
      obtain ⟨book', -, rfl, mem, left⟩ := removeFromBook_active c0 hr active hremove
      obtain ⟨eb, hrecord, h⟩ := Exec.bind_ok.mp h
      cases h
      have removed := undated.trans (setBook_effect e0 entry.instrumentId book')
      have keyless : (e0.setBook entry.instrumentId book').Keyless :=
        (keyless_of_coherent c : e.Keyless)
      have synced := removed.trans
        (syncRecord_rewrites (e0.setBook entry.instrumentId book') (lapsed entry)).effect
      have orders : ((e0.setBook entry.instrumentId book').syncRecord (lapsed entry)).order =
          (e.view.setRecord s id (some (lapsed entry))).record :=
        (order_syncRecord keyless _).trans (record_left hr key)
      rw [orders, removed.view] at synced
      have quiet : Quiet ((e0.setBook entry.instrumentId book').syncRecord (lapsed entry)) eb :=
        recordMarketData_quiet hrecord
      have settled := synced.trans quiet.effect
      have registered : eb.Registered (lapsed entry).sessionId := by
        rw [settled.registered]
        change e.Registered entry.sessionId
        rw [hs]
        exact registered_of_order hr
      obtain ⟨execId, told⟩ := status_effect registered id .expired none
      have done := settled.trans told
      rw [settled.view, symbolFor_congr settled.instruments, synced.view] at done
      exact ⟨entry, book', execId, hr, active, mem, left, done⟩
    · simp only [Bool.not_eq_true] at active
      simp only [active, Bool.not_false, if_true] at h
      cases h
      refine Or.inl ⟨undated, ?_⟩
      intro r recorded
      obtain rfl := Option.some.inj recorded
      exact active

theorem Expired.coherent {policy : FillPolicy} {e e' : Engine D}
    (c : Coherent policy e.view none) {s : String} {id : OrderId} {entry : Order D}
    {book' : OrderBook D} {execId : String} (done : Expired e e' s id entry book' execId) :
    Coherent policy e'.view none := by
  obtain ⟨hs, hid, -⟩ := c.keyed s id entry done.recorded
  rw [done.effect.view]
  refine retired_coherent c done.recorded done.mem done.left ?_
  intro r hr
  obtain rfl := Option.some.inj hr
  refine ⟨?_, rfl⟩
  rw [← hs, ← hid]
  rfl

/-- What every expiry does, the whole loop does. -/
theorem expire_run {policy : FillPolicy} {R : Engine D → Engine D → Prop} (refl : ∀ e, R e e)
    (trans : ∀ e e' e'', R e e' → R e' e'' → R e e'')
    (idle : ∀ e e', Effect e e' e.view [] → R e e')
    (step : ∀ e e' s id entry book' execId, Coherent policy e.view none →
      Expired e e' s id entry book' execId → R e e')
    (keys : List (String × OrderId)) : ∀ {e e' : Engine D}, Coherent policy e.view none →
      e.expireDayOrdersAt keys = .ok e' → R e e' ∧ Coherent policy e'.view none := by
  have loop : ∀ (keys : List (String × OrderId)) {e e' : Engine D},
      Coherent policy e.view none → keys.foldlM expireOrder e = .ok e' →
      R e e' ∧ Coherent policy e'.view none := by
    intro keys
    induction keys with
    | nil =>
      intro e e' c h
      cases h
      exact ⟨refl e, c⟩
    | cons key keys ih =>
      intro e e' c h
      rw [List.foldlM_cons] at h
      obtain ⟨mid, hmid, h⟩ := Exec.bind_ok.mp h
      rcases expireOrder_cases c hmid with ⟨same, -⟩ | ⟨entry, book', execId, done⟩
      · obtain ⟨r, c'⟩ := ih (same.view ▸ c) h
        exact ⟨trans _ _ _ (idle _ _ same) r, c'⟩
      · obtain ⟨r, c'⟩ := ih (done.coherent c) h
        exact ⟨trans _ _ _ (step _ _ _ _ _ _ _ c done) r, c'⟩
  intro e e' c h
  unfold expireDayOrdersAt at h
  obtain ⟨mid, hmid, h⟩ := Exec.bind_ok.mp h
  obtain ⟨r, c'⟩ := loop keys c hmid
  have quiet := publishMarketData_quiet h
  exact ⟨trans _ _ _ r (idle _ _ quiet.effect), quiet.view ▸ c'⟩

/-- Only books and market data have changed. -/
structure BookSide (e e' : Engine D) : Prop where
  rest : e' = { e with
    books := e'.books
    sequence := e'.sequence
    marketData := e'.marketData
    pendingMarketData := e'.pendingMarketData
    statsCache := e'.statsCache }

theorem BookSide.refl (e : Engine D) : BookSide e e := ⟨rfl⟩

theorem BookSide.trans {e e' e'' : Engine D} (h : BookSide e e') (h' : BookSide e' e'') :
    BookSide e e'' := ⟨by rw [h'.rest, h.rest]⟩

theorem Quiet.bookSide {e e' : Engine D} (h : Quiet e e') : BookSide e e' := ⟨h.rest⟩

theorem BooksOnly.bookSide {e e' : Engine D} (h : BooksOnly e e') : BookSide e e' :=
  ⟨by rw [h.rest]⟩

theorem Quiet.thinned {e e' : Engine D} (h : Quiet e e') : Thinned e e' := by
  intro i side o ho
  rwa [h.book] at ho

/-- The view with some records of a session erased. -/
def forget (v : View D) (s : String) (ids : List OrderId) : View D :=
  { v with record := fun s' id => if s' = s ∧ id ∈ ids then none else v.record s' id }

theorem forget_cons (v : View D) (book book' : Int → OrderBook D) (s : String) (id : OrderId)
    (ids : List OrderId) : forget { v with book := book' } s (id :: ids) =
      forget { ({ v with book := book }.setRecord s id none) with book := book' } s ids := by
  have record : (forget { v with book := book' } s (id :: ids)).record =
      (forget { ({ v with book := book }.setRecord s id none) with book := book' } s
        ids).record := by
    funext s' id'
    unfold forget View.setRecord
    by_cases hs : s' = s
    · by_cases hid : id' = id
      · simp only [hs, hid, List.mem_cons_self, and_self, if_true, ite_self]
      · simp only [hs, hid, List.mem_cons, true_and, false_or, and_false, if_false]
    · simp only [hs, false_and, if_false]
  exact congrArg (fun record => View.mk book' record v.leg v.arrival) record

/-- Taking one record of a leaving session out of its book. -/
theorem dropRecord {policy : FillPolicy} {e e' : Engine D} {v : View D}
    (c : Coherent policy v none) (hbook : v.book = e.book) {s : String} {id : OrderId}
    {r : Order D} (recorded : v.record s id = some r)
    {result : Except EngineError (Order D)}
    (h : e.removeFromBook s id r.side r.price r.instrumentId = .ok (result, e')) :
    BooksOnly e e' ∧ Coherent policy ({ v with book := e'.book }.setRecord s id none) none ∧
      Thinned e e' := by
  obtain ⟨hs, hid, hne⟩ := c.keyed s id r recorded
  have filed := c.filed r.instrumentId
  rw [hbook] at filed
  rcases removeFromBook_cases filed h with
    ⟨-, rfl, absent⟩ | ⟨o, book', -, rfl, ho, hoid, -, left⟩
  · refine ⟨.refl _, ?_, fun _ _ _ ho => ho⟩
    rw [← hbook] at absent ⊢
    have inactive : r.state.isActive = false := by
      rw [Bool.eq_false_iff]
      intro active
      refine absent r (c.mem_of_active recorded active) rfl ?_
      rw [Order.identity, hs, hid]
    refine c.setRecord (c.absent_of_inactive recorded inactive) ?_ ?_ ?_ ?_
    · intro r hr; cases hr
    · intro r hr; cases hr
    · intro x hx; cases hx
    · intro x hx; cases hx
  · rw [← hbook] at ho left
    have owned := c.owned _ _ o ho
    obtain ⟨hos, hoi⟩ := Prod.mk.inj hoid
    have same := owned.record (hoi ▸ hne)
    rw [hos, hoi, recorded] at same
    obtain rfl := Option.some.inj same
    refine ⟨⟨rfl⟩, ?_, ?_⟩
    · rw [book_setBook, ← hbook]
      exact retired_coherent c recorded ho left (by intro r hr; cases hr)
    · intro j side x hx
      rw [book_setBook, ← hbook] at hx
      rw [← hbook]
      exact ((c.mem_leave left).mp hx).1

theorem disconnectOrders_spec {policy : FillPolicy} {s : String}
    (orders : List (OrderId × Order D)) : ∀ {e e' : Engine D} {v : View D},
      Coherent policy v none → v.book = e.book →
      (∀ entry ∈ orders, v.record s entry.1 = some entry.2) →
      (orders.map Prod.fst).Nodup → e.disconnectOrders s orders = .ok e' →
      BookSide e e' ∧ Thinned e e' ∧
        Coherent policy (forget { v with book := e'.book } s (orders.map Prod.fst)) none := by
  induction orders with
  | nil =>
    intro e e' v c hbook _ _ h
    cases h
    refine ⟨.refl e, fun _ _ _ ho => ho, ?_⟩
    rw [← hbook]
    simpa [forget] using c
  | cons entry orders ih =>
    intro e e' v c hbook recorded nodup h
    obtain ⟨id, r⟩ := entry
    rw [List.map_cons, List.nodup_cons] at nodup
    unfold disconnectOrders at h
    rw [List.foldlM_cons] at h
    obtain ⟨mid, hmid, h⟩ := Exec.bind_ok.mp h
    obtain ⟨⟨result, ea⟩, hremove, hrecord⟩ := Exec.bind_ok.mp hmid
    obtain ⟨only, dropped, thin⟩ := dropRecord c hbook (recorded _ List.mem_cons_self) hremove
    have quiet := recordMarketData_quiet hrecord
    have hbook' : ({ v with book := ea.book }.setRecord s id none).book = mid.book :=
      quiet.book.symm
    have recorded' : ∀ entry ∈ orders,
        ({ v with book := ea.book }.setRecord s id none).record s entry.1 = some entry.2 := by
      intro entry hmem
      have hne : entry.1 ≠ id := fun h => nodup.1 (List.mem_map.mpr ⟨entry, hmem, h⟩)
      simp only [View.setRecord, hne, and_false, if_false]
      exact recorded entry (List.mem_cons_of_mem _ hmem)
    obtain ⟨side, thin', c'⟩ := ih dropped hbook' recorded' nodup.2 h
    refine ⟨(only.bookSide.trans quiet.bookSide).trans side,
      thin.trans (quiet.thinned.trans thin'), ?_⟩
    rw [List.map_cons, forget_cons v ea.book]
    exact c'

/-- The view with some quote pairs of a session erased. -/
def forgetPairs (v : View D) (s : String) (instruments : List Int) : View D :=
  { v with leg := fun s' i side => if s' = s ∧ i ∈ instruments then none else v.leg s' i side }

theorem forgetPairs_cons (v : View D) (book book' : Int → OrderBook D) (s : String) (i : Int)
    (instruments : List Int) : forgetPairs { v with book := book' } s (i :: instruments) =
      forgetPairs { (forgetPairs { v with book := book } s [i]) with book := book' } s
        instruments := by
  have legs : (forgetPairs { v with book := book' } s (i :: instruments)).leg =
      (forgetPairs { (forgetPairs { v with book := book } s [i]) with book := book' } s
        instruments).leg := by
    funext s' j side
    unfold forgetPairs
    by_cases hs : s' = s
    · by_cases hj : j = i
      · simp only [hs, hj, List.mem_cons_self, and_self, if_true, ite_self]
      · simp only [hs, hj, List.mem_cons, List.not_mem_nil, true_and, false_or, or_false, if_false]
    · simp only [hs, false_and, if_false]
  exact congrArg (fun leg => View.mk book' v.record leg v.arrival) legs

theorem disconnectQuotes_spec {policy : FillPolicy} {s : String}
    (quotes : List (Int × QuotePair D)) : ∀ {e e' : Engine D} {v : View D},
      Coherent policy v none → v.book = e.book →
      (∀ entry ∈ quotes, ∀ side, v.leg s entry.1 side = entry.2.leg side) →
      (quotes.map Prod.fst).Nodup → e.disconnectQuotes s quotes = .ok e' →
      BookSide e e' ∧ Thinned e e' ∧
        Coherent policy (forgetPairs { v with book := e'.book } s (quotes.map Prod.fst)) none := by
  induction quotes with
  | nil =>
    intro e e' v c hbook _ _ h
    cases h
    refine ⟨.refl e, fun _ _ _ ho => ho, ?_⟩
    rw [← hbook]
    simpa [forgetPairs] using c
  | cons entry quotes ih =>
    intro e e' v c hbook paired nodup h
    obtain ⟨i, pair⟩ := entry
    rw [List.map_cons, List.nodup_cons] at nodup
    unfold disconnectQuotes at h
    rw [List.foldlM_cons] at h
    obtain ⟨mid, hmid, h⟩ := Exec.bind_ok.mp h
    obtain ⟨ea, hdrop, hrecord⟩ := Exec.bind_ok.mp hmid
    have legs : [Side.buy, .sell].flatMap (fun side => (v.leg s i side).toList) =
        pair.bid.toList ++ pair.ask.toList := by
      have h := paired _ List.mem_cons_self
      simp only [List.flatMap_cons, List.flatMap_nil, List.append_nil, h]
      rfl
    rw [← legs] at hdrop
    obtain ⟨only, dropped, gone, thin⟩ := dropLegs_spec _ c hbook hdrop
    have erased := dropped.setLegs (fun _ => none) (by intro side leg h; cases h)
      (fun side => gone side (by cases side <;> simp))
    have erased' : Coherent policy (forgetPairs { v with book := ea.book } s [i]) none := by
      simpa only [forgetPairs, List.mem_singleton] using erased
    have quiet := recordMarketData_quiet hrecord
    have paired' : ∀ entry ∈ quotes, ∀ side,
        (forgetPairs { v with book := ea.book } s [i]).leg s entry.1 side = entry.2.leg side := by
      intro entry hmem side
      have hne : entry.1 ≠ i := fun h => nodup.1 (List.mem_map.mpr ⟨entry, hmem, h⟩)
      simp only [forgetPairs, List.mem_singleton, hne, and_false, if_false]
      exact paired entry (List.mem_cons_of_mem _ hmem) side
    obtain ⟨side, thin', c'⟩ := ih erased' quiet.book.symm paired' nodup.2 h
    refine ⟨(only.bookSide.trans quiet.bookSide).trans side,
      thin.trans (quiet.thinned.trans thin'), ?_⟩
    rw [List.map_cons, forgetPairs_cons v ea.book]
    exact c'

/-- The engine once a session is forgotten, with its orders still in the books. -/
def without (e : Engine D) (s : String) : Engine D :=
  { e with
    sessions := e.sessions.erase s
    orderDates := HashMap.retain e.orderDates (fun key => !decide (key.1 = s)) }

/-- A session that disconnects takes its orders along; nobody is told. -/
structure Departed (e e' : Engine D) (s : String) : Prop where
  record : ∀ s' id, e'.order s' id = if s' = s then none else e.order s' id
  registered : ∀ s', e'.Registered s' ↔ e.Registered s' ∧ s' ≠ s
  sent : e'.sent = e.sent
  fillPolicy : e'.fillPolicy = e.fillPolicy
  thinned : Thinned e e'

theorem get?_orders {e : Engine D} {s : String} {session : Session D}
    (found : e.sessions.get? s = some session) (id : OrderId) :
    HashMap.get? session.orders id = e.order s id := by simp [order, found]

theorem leg_of_session {e : Engine D} {s : String} {session : Session D}
    (found : e.sessions.get? s = some session) (i : Int) (side : Side) :
    e.leg s i side = (HashMap.get? session.quotes i).bind (fun p => p.leg side) := by
  simp [leg, pair, found]

section Erased

variable {e e' : Engine D} {s : String} (erased : e'.sessions = e.sessions.erase s)
include erased

theorem order_erased (s' : String) (id : OrderId) :
    e'.order s' id = if s' = s then none else e.order s' id := by
  unfold order
  rw [erased, SortedMap.get?_erase]
  split
  · rfl
  · rfl

theorem pair_erased (s' : String) (i : Int) :
    e'.pair s' i = if s' = s then none else e.pair s' i := by
  unfold pair
  rw [erased, SortedMap.get?_erase]
  split
  · rfl
  · rfl

theorem leg_erased (s' : String) (i : Int) (side : Side) :
    e'.leg s' i side = if s' = s then none else e.leg s' i side := by
  unfold leg
  rw [pair_erased erased]
  split
  · rfl
  · rfl

theorem registered_erased (s' : String) : e'.Registered s' ↔ e.Registered s' ∧ s' ≠ s := by
  unfold Registered
  rw [erased, SortedMap.get?_erase]
  split
  · rename_i h
    simp [h]
  · rename_i h
    simp [h]

/-- Erasing a session forgets the orders and the pairs it holds. -/
theorem view_erased {orders : List (OrderId × Order D)} {quotes : List (Int × QuotePair D)}
    {session : Session D} (found : e.sessions.get? s = some session)
    (visits : Visits session orders quotes) (arrival : e'.nextArrival = e.nextArrival)
    (books : Int → OrderBook D) :
    e'.view = forgetPairs { forget { e.view with book := books } s (orders.map Prod.fst) with
      book := e'.book } s (quotes.map Prod.fst) := by
  have covered : ∀ id, id ∉ orders.map Prod.fst → e.order s id = none := by
    intro id hid
    rw [← get?_orders found, Option.eq_none_iff_forall_ne_some]
    intro r hr
    exact hid (List.mem_map.mpr
      ⟨(id, r), visits.orders.mem_iff.mpr (HashMap.mem_pairs.mpr hr), rfl⟩)
  have unpaired : ∀ i, i ∉ quotes.map Prod.fst → ∀ side, e.leg s i side = none := by
    intro i hi side
    have absent : HashMap.get? session.quotes i = none := by
      rw [Option.eq_none_iff_forall_ne_some]
      intro p hp
      exact hi (List.mem_map.mpr
        ⟨(i, p), visits.quotes.mem_iff.mpr (HashMap.mem_pairs.mpr hp), rfl⟩)
    rw [leg_of_session found, absent]
    rfl
  have horder : e'.order = fun s' id =>
      if s' = s ∧ id ∈ orders.map Prod.fst then none else e.order s' id := by
    funext s' id
    rw [order_erased erased]
    by_cases hs' : s' = s
    · by_cases hid : id ∈ orders.map Prod.fst
      · simp only [hs', hid, and_self, if_true]
      · simp only [hs', hid, and_false, if_true, if_false, covered id hid]
    · simp only [hs', false_and, if_false]
  have hleg : e'.leg = fun s' i side =>
      if s' = s ∧ i ∈ quotes.map Prod.fst then none else e.leg s' i side := by
    funext s' i side
    rw [leg_erased erased]
    by_cases hs' : s' = s
    · by_cases hi : i ∈ quotes.map Prod.fst
      · simp only [hs', hi, and_self, if_true]
      · simp only [hs', hi, and_false, if_true, if_false, unpaired i hi side]
    · simp only [hs', false_and, if_false]
  unfold view
  rw [horder, hleg, arrival]
  rfl

end Erased

theorem sessionDisconnect_spec {policy : FillPolicy} {e e' : Engine D}
    (c : Coherent policy e.view none) {s : String} {orders : List (OrderId × Order D)}
    {quotes : List (Int × QuotePair D)}
    (visits : ∀ session, e.sessions.get? s = some session → Visits session orders quotes)
    (h : e.sessionDisconnect s orders quotes = .ok e') :
    Departed e e' s ∧ Coherent policy e'.view none := by
  unfold sessionDisconnect at h
  cases hs : e.sessions.get? s with
  | none =>
    rw [hs] at h
    cases h
    have gone : e.sessions = e.sessions.erase s := by
      apply SortedMap.ext_get?
      intro k
      rw [SortedMap.get?_erase]
      split
      · rename_i hk
        rw [hk, hs]
      · rfl
    exact ⟨⟨order_erased gone, registered_erased gone, rfl, rfl, fun _ _ _ ho => ho⟩, c⟩
  | some session =>
    rw [hs] at h
    obtain ⟨e1, horders, h⟩ := Exec.bind_ok.mp h
    obtain ⟨e2, hquotes, hpublish⟩ := Exec.bind_ok.mp h
    obtain ⟨permOrders, permQuotes⟩ := visits session hs
    have recorded : ∀ entry ∈ orders, e.view.record s entry.1 = some entry.2 := fun entry hmem =>
      (get?_orders hs _).symm.trans (HashMap.mem_pairs.mp (permOrders.mem_iff.mp hmem))
    have paired : ∀ entry ∈ quotes, ∀ side, e.view.leg s entry.1 side = entry.2.leg side := by
      intro entry hmem side
      have found := HashMap.mem_pairs.mp (permQuotes.mem_iff.mp hmem)
      exact (leg_of_session hs _ _).trans (by rw [found]; rfl)
    obtain ⟨side1, thin1, c1⟩ := disconnectOrders_spec (e := e.without s) orders c rfl recorded
      ((permOrders.map Prod.fst).nodup_iff.mpr (HashMap.pairs_keys_nodup _)) horders
    obtain ⟨side2, thin2, c2⟩ := disconnectQuotes_spec quotes c1 rfl paired
      ((permQuotes.map Prod.fst).nodup_iff.mpr (HashMap.pairs_keys_nodup _)) hquotes
    have quiet := publishMarketData_quiet hpublish
    have rest := ((side1.trans side2).trans quiet.bookSide).rest
    have sessions : e'.sessions = e.sessions.erase s := by rw [rest]; rfl
    refine ⟨⟨order_erased sessions, registered_erased sessions, by rw [rest]; rfl,
      by rw [rest]; rfl, thin1.trans (thin2.trans quiet.thinned)⟩, ?_⟩
    rw [view_erased sessions hs ⟨permOrders, permQuotes⟩ (by rw [rest]; rfl) e1.book, quiet.book]
    exact c2

end Engine

end RustTrader
