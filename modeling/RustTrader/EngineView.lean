import RustTrader.MirrorTiered
import RustTrader.Library.Fallible

/-!
# What the engine's helpers touch

The view of an engine, and one lemma per helper about it. Recording and
publishing market data never changes the view; reports change records and the
list of reports only.
-/

namespace RustTrader

open Decimal

def QuotePair.leg {D : Type} (pair : QuotePair D) : Side → Option (Order D)
  | .buy => pair.bid
  | .sell => pair.ask

/-- What trades have left in the statistics. -/
def Statistics.traded {D : Type} (stats : Statistics D) : D × D × D × Bool :=
  (stats.volume, stats.high, stats.low, stats.hasHighLow)

namespace Engine

variable {D : Type} [Decimal D]

def pair (e : Engine D) (session : String) (instrumentId : Int) : Option (QuotePair D) :=
  (e.sessions.get? session).bind (fun s => HashMap.get? s.quotes instrumentId)

def leg (e : Engine D) (session : String) (instrumentId : Int) (side : Side) :
    Option (Order D) := (e.pair session instrumentId).bind (fun p => p.leg side)

def view (e : Engine D) : View D where
  book := e.book
  record := e.order
  leg := e.leg
  arrival := e.nextArrival

def Registered (e : Engine D) (session : String) : Prop := ∃ s, e.sessions.get? session = some s

theorem registered_iff {e : Engine D} {session : String} :
    e.sessions.contains session = true ↔ e.Registered session := by
  rw [SortedMap.contains, Option.isSome_iff_exists, Registered]

theorem registered_of_order {e : Engine D} {session : String} {id : OrderId} {r : Order D}
    (h : e.order session id = some r) : e.Registered session := by
  simp only [order, Option.bind_eq_bind, Option.bind_eq_some_iff] at h
  obtain ⟨s, hs, -⟩ := h
  exact ⟨s, hs⟩

theorem registered_of_leg {e : Engine D} {session : String} {i : Int} {side : Side} {r : Order D}
    (h : e.leg session i side = some r) : e.Registered session := by
  simp only [leg, pair, Option.bind_eq_some_iff] at h
  obtain ⟨p, ⟨s, hs, -⟩, -⟩ := h
  exact ⟨s, hs⟩

theorem book_setBook (e : Engine D) (i : Int) (book : OrderBook D) :
    (e.setBook i book).book = Function.update e.book i book := by
  funext j
  by_cases h : j = i
  · subst h
    simp [Engine.book, setBook]
  · simp [Engine.book, setBook, HashMap.get?_set_ne, h]

theorem view_setBook (e : Engine D) (i : Int) (book : OrderBook D) :
    (e.setBook i book).view = e.view.setBook i book := by
  unfold view View.setBook
  rw [book_setBook]
  rfl

/-- Nothing but market data has changed. -/
structure Quiet (e e' : Engine D) : Prop where
  book : e'.book = e.book
  rest : e' = { e with
    books := e'.books
    sequence := e'.sequence
    marketData := e'.marketData
    pendingMarketData := e'.pendingMarketData
    statsCache := e'.statsCache }

namespace Quiet

theorem refl (e : Engine D) : Quiet e e := ⟨rfl, rfl⟩

theorem trans {e e' e'' : Engine D} (h : Quiet e e') (h' : Quiet e' e'') : Quiet e e'' :=
  ⟨h'.book.trans h.book, by rw [h'.rest, h.rest]⟩

theorem sessions {e e' : Engine D} (h : Quiet e e') : e'.sessions = e.sessions := by rw [h.rest]

theorem instruments {e e' : Engine D} (h : Quiet e e') : e'.instruments = e.instruments := by
  rw [h.rest]

theorem nextArrival {e e' : Engine D} (h : Quiet e e') : e'.nextArrival = e.nextArrival := by
  rw [h.rest]

theorem fillPolicy {e e' : Engine D} (h : Quiet e e') : e'.fillPolicy = e.fillPolicy := by
  rw [h.rest]

theorem sent {e e' : Engine D} (h : Quiet e e') : e'.sent = e.sent := by rw [h.rest]

theorem order {e e' : Engine D} (h : Quiet e e') : e'.order = e.order := by
  funext s id
  unfold Engine.order
  rw [h.sessions]

theorem leg {e e' : Engine D} (h : Quiet e e') : e'.leg = e.leg := by
  funext s i side
  unfold Engine.leg Engine.pair
  rw [h.sessions]

theorem view {e e' : Engine D} (h : Quiet e e') : e'.view = e.view := by
  unfold Engine.view
  rw [h.book, h.order, h.leg, h.nextArrival]

theorem registered {e e' : Engine D} (h : Quiet e e') (s : String) :
    e'.Registered s ↔ e.Registered s := by unfold Registered; rw [h.sessions]

end Quiet

theorem recordMarketData_quiet {e e' : Engine D} {i : Int} {trades : List (RawTrade D)}
    (h : e.recordMarketData i trades = .ok e') : Quiet e e' := by
  unfold recordMarketData at h
  obtain ⟨stats, -, h⟩ := Exec.bind_ok.mp h
  obtain rfl := Except.ok.inj h
  exact ⟨rfl, rfl⟩

theorem publishInstrument_quiet {e e' : Engine D} {i : Int} {sequence : Nat}
    (h : e.publishInstrument i sequence = .ok e') : Quiet e e' := by
  unfold publishInstrument at h
  obtain ⟨stats, -, h⟩ := Exec.bind_ok.mp h
  obtain ⟨marketData, -, h⟩ := Exec.bind_ok.mp h
  obtain rfl := Except.ok.inj h
  refine ⟨?_, rfl⟩
  change (e.setBook i (e.book i)).book = e.book
  rw [book_setBook, Function.update_eq_self]

theorem publishMarketData_quiet {e e' : Engine D} (h : e.publishMarketData = .ok e') :
    Quiet e e' := by
  unfold publishMarketData at h
  have start : Quiet e { e with pendingMarketData := ∅ } := ⟨rfl, rfl⟩
  refine start.trans (foldlM_relates .refl (fun _ _ _ => .trans) ?_ _ h)
  exact fun _ _ _ published => publishInstrument_quiet published

theorem publish_quiet {e mid e' : Engine D} {i : Int} {trades : List (RawTrade D)}
    (h : e.recordMarketData i trades = .ok mid) (h' : mid.publishMarketData = .ok e') :
    Quiet e e' := (recordMarketData_quiet h).trans (publishMarketData_quiet h')

def traded (e : Engine D) (i : Int) : D × D × D × Bool :=
  ((HashMap.get? e.statsCache i).map Statistics.traded).getD (0, 0, 0, false)

theorem traded_set {e e' : Engine D} {i : Int} {stats : Statistics D}
    (h : e'.statsCache = HashMap.set e.statsCache i stats) (same : stats.traded = e.traded i) :
    e'.traded = e.traded := by
  funext j
  by_cases hj : j = i
  · subst hj
    rw [← same, traded, h]
    simp
  · rw [traded, h, HashMap.get?_set_ne _ _ hj, traded]

theorem recordMarketData_traded {e e' : Engine D} {i : Int}
    (h : e.recordMarketData i [] = .ok e') : e'.traded = e.traded := by
  unfold recordMarketData at h
  obtain ⟨stats, hstats, h⟩ := Exec.bind_ok.mp h
  cases hstats
  cases h
  refine traded_set rfl ?_
  unfold traded
  cases HashMap.get? e.statsCache i <;> rfl

theorem publishInstrument_traded {e e' : Engine D} {i : Int} {sequence : Nat}
    (h : e.publishInstrument i sequence = .ok e') : e'.traded = e.traded := by
  unfold publishInstrument at h
  obtain ⟨stats, hstats, h⟩ := Exec.bind_ok.mp h
  obtain ⟨marketData, -, h⟩ := Exec.bind_ok.mp h
  cases h
  refine traded_set rfl ?_
  have found : (HashMap.get? e.statsCache i) = some stats := by
    change unwrap (HashMap.get? e.statsCache i) = .ok stats at hstats
    cases hg : HashMap.get? e.statsCache i with
    | none => rw [hg] at hstats; cases hstats
    | some stats' =>
      rw [hg, unwrap_some] at hstats
      rw [Except.ok.inj hstats]
  rw [traded, found]
  rfl

theorem publishMarketData_traded {e e' : Engine D} (h : e.publishMarketData = .ok e') :
    e'.traded = e.traded := by
  unfold publishMarketData at h
  have loop : ∀ (pending : List ((_ : Int) × Nat)) {e e' : Engine D},
      pending.foldlM (fun e entry => e.publishInstrument entry.1 entry.2) e = .ok e' →
      e'.traded = e.traded := by
    intro pending
    induction pending with
    | nil =>
      intro e e' h
      cases h
      rfl
    | cons entry pending ih =>
      intro e e' h
      rw [List.foldlM_cons] at h
      obtain ⟨mid, hmid, h⟩ := Exec.bind_ok.mp h
      exact (ih h).trans (publishInstrument_traded hmid)
  exact loop _ (e := { e with pendingMarketData := ∅ }) h

theorem order_setOrders (e : Engine D) (session : String) (s : Session D)
    (orders : HashMap OrderId (Order D)) (session' : String) (id : OrderId) :
    (e.setOrders session s orders).order session' id =
      if session' = session then HashMap.get? orders id else e.order session' id := by
  by_cases h : session' = session
  · simp [order, setOrders, h]
  · simp [order, setOrders, h, SortedMap.get?_insert_ne]

theorem pair_setOrders {e : Engine D} {session : String} {s : Session D}
    (hs : e.sessions.get? session = some s) (orders : HashMap OrderId (Order D)) :
    (e.setOrders session s orders).pair = e.pair := by
  funext session' i
  by_cases h : session' = session
  · subst h
    simp [pair, setOrders, hs]
  · simp [pair, setOrders, h, SortedMap.get?_insert_ne]

theorem leg_of_pair {e e' : Engine D} (h : e'.pair = e.pair) : e'.leg = e.leg := by
  unfold leg
  rw [h]

theorem contains_setOrders {e : Engine D} {session : String} {s : Session D}
    (hs : e.sessions.get? session = some s) (orders : HashMap OrderId (Order D))
    (session' : String) :
    (e.setOrders session s orders).sessions.contains session' = e.sessions.contains session' := by
  by_cases h : session' = session
  · subst h
    simp [SortedMap.contains, setOrders, hs]
  · simp [SortedMap.contains, setOrders, h, SortedMap.get?_insert_ne]

/-- Only the sessions have changed, and of them only order records. -/
structure Rewrites (e e' : Engine D) : Prop where
  rest : e' = { e with sessions := e'.sessions }
  pair : e'.pair = e.pair
  contains : ∀ s, e'.sessions.contains s = e.sessions.contains s

theorem Rewrites.leg {e e' : Engine D} (h : Rewrites e e') : e'.leg = e.leg := leg_of_pair h.pair

theorem Rewrites.refl (e : Engine D) : Rewrites e e := ⟨rfl, rfl, fun _ => rfl⟩

theorem setOrders_rewrites {e : Engine D} {session : String} {s : Session D}
    (hs : e.sessions.get? session = some s) (orders : HashMap OrderId (Order D)) :
    Rewrites e (e.setOrders session s orders) :=
  ⟨rfl, pair_setOrders hs orders, contains_setOrders hs orders⟩

theorem updateRecord_rewrites (e : Engine D) (session : String) (id : OrderId)
    (f : Order D → Order D) : Rewrites e (e.updateRecord session id f) := by
  unfold updateRecord
  cases hs : e.sessions.get? session with
  | none => exact .refl e
  | some s =>
    cases hr : HashMap.get? s.orders id with
    | none => simp only [hr]; exact .refl e
    | some r => simp only [hr]; exact setOrders_rewrites hs _

theorem order_updateRecord (e : Engine D) (session : String) (id : OrderId)
    (f : Order D → Order D) (session' : String) (id' : OrderId) :
    (e.updateRecord session id f).order session' id' =
      if (session', id') = (session, id) then (e.order session id).map f
      else e.order session' id' := by
  unfold updateRecord
  cases hs : e.sessions.get? session with
  | none =>
    by_cases h : (session', id') = (session, id)
    · obtain ⟨rfl, rfl⟩ := Prod.mk.inj h
      simp [order, hs]
    · rw [if_neg h]
  | some s =>
    cases hr : HashMap.get? s.orders id with
    | none =>
      by_cases h : (session', id') = (session, id)
      · obtain ⟨rfl, rfl⟩ := Prod.mk.inj h
        simp [order, hs, hr]
      · rw [if_neg h]
        simp only [hr]
    | some r =>
      simp only [hr]
      rw [order_setOrders]
      by_cases h : session' = session
      · subst h
        rw [if_pos rfl, HashMap.get?_set]
        by_cases hid : id' = id
        · subst hid
          simp [order, hs, hr]
        · simp [order, hs, hid]
      · simp [h]

/-- No session records an order under the identifier of quotes. -/
def Keyless (e : Engine D) : Prop := ∀ s, e.order s quoteOrderId = none

theorem order_syncRecord {e : Engine D} (keyless : e.Keyless) (final : Order D) :
    (e.syncRecord final).order = View.synced final e.order := by
  funext s id
  unfold syncRecord View.synced
  by_cases hid : final.id = quoteOrderId
  · rw [if_pos hid]
    split
    · rename_i h
      obtain ⟨rfl, rfl⟩ := Prod.mk.inj h
      rw [hid, keyless]
      rfl
    · rfl
  · rw [if_neg hid, order_updateRecord]
    by_cases h : (s, id) = final.identity
    · have h' : (s, id) = (final.sessionId, final.id) := h
      rw [if_pos h', if_pos h]
      obtain ⟨rfl, rfl⟩ := Prod.mk.inj h
      rfl
    · have h' : (s, id) ≠ (final.sessionId, final.id) := h
      rw [if_neg h', if_neg h]

theorem syncRecord_rewrites (e : Engine D) (final : Order D) :
    Rewrites e (e.syncRecord final) := by
  unfold syncRecord
  split
  · exact .refl e
  · exact updateRecord_rewrites ..

/-- Reports went out; besides them only counters of reports and order records
have changed. -/
structure Told (e e' : Engine D) (news : List (Report D)) : Prop where
  rest : e' = { e with
    sessions := e'.sessions
    nextExecId := e'.nextExecId
    nextTradeId := e'.nextTradeId
    sent := e.sent ++ news }
  pair : e'.pair = e.pair
  contains : ∀ s, e'.sessions.contains s = e.sessions.contains s

theorem Rewrites.told {e e' : Engine D} (h : Rewrites e e') : Told e e' [] where
  rest := by rw [h.rest]; simp
  pair := h.pair
  contains := h.contains

namespace Told

variable {e e' e'' : Engine D} {news news' : List (Report D)}

theorem leg (h : Told e e' news) : e'.leg = e.leg := leg_of_pair h.pair

theorem refl (e : Engine D) : Told e e [] := (Rewrites.refl e).told

theorem trans (h : Told e e' news) (h' : Told e' e'' news') : Told e e'' (news ++ news') where
  rest := by rw [h'.rest, h.rest]; simp
  pair := h'.pair.trans h.pair
  contains := fun s => (h'.contains s).trans (h.contains s)

theorem book (h : Told e e' news) : e'.book = e.book := by rw [h.rest]; rfl

theorem nextArrival (h : Told e e' news) : e'.nextArrival = e.nextArrival := by rw [h.rest]

theorem sent (h : Told e e' news) : e'.sent = e.sent ++ news := by rw [h.rest]

theorem fillPolicy (h : Told e e' news) : e'.fillPolicy = e.fillPolicy := by rw [h.rest]

theorem instruments (h : Told e e' news) : e'.instruments = e.instruments := by rw [h.rest]

theorem symbolFor (h : Told e e' news) : e'.symbolFor = e.symbolFor := by
  funext i
  unfold Engine.symbolFor
  rw [h.instruments]

theorem registered (h : Told e e' news) (s : String) : e'.Registered s ↔ e.Registered s := by
  rw [← registered_iff, ← registered_iff, h.contains]

theorem view (h : Told e e' news) : e'.view = { e.view with record := e'.order } := by
  unfold Engine.view
  rw [h.book, h.leg, h.nextArrival]

end Told

/-- What is sent about an order only reaches a registered session. -/
def heard (e : Engine D) (o : Order D) (report : Report D) : List (Report D) :=
  if e.sessions.contains o.sessionId then [report] else []

theorem heard_congr {e e' : Engine D} {news : List (Report D)} (told : Told e e' news)
    (o : Order D) (report : Report D) : e'.heard o report = e.heard o report := by
  unfold heard
  rw [told.contains]

theorem send_told (e : Engine D) (report : Report D) :
    Told e (e.send report) (e.heard report.order report) := by
  unfold send heard
  by_cases h : e.sessions.contains report.order.sessionId = true
  · rw [if_pos h, if_pos h]
    exact ⟨rfl, rfl, fun _ => rfl⟩
  · rw [if_neg h, if_neg h]
    exact .refl e

theorem Told.traded {e e' : Engine D} {news : List (Report D)} (h : Told e e' news) :
    e'.traded = e.traded := by
  unfold Engine.traded
  rw [h.rest]

theorem order_send (e : Engine D) (report : Report D) : (e.send report).order = e.order := by
  unfold send
  split <;> rfl

theorem takeExecId_told (e : Engine D) : Told e e.takeExecId.2 [] :=
  ⟨by simp [takeExecId], rfl, fun _ => rfl⟩

theorem sendStatusFor_told (e : Engine D) (o : Order D) (clOrdId : OrderId) (execType : ExecType)
    (orig : Option OrderId) : ∃ execId,
      Told e (e.sendStatusFor o clOrdId execType orig) (e.heard o
        (.status o (e.symbolFor o.instrumentId) clOrdId execId execType orig)) :=
  ⟨e.takeExecId.1, (takeExecId_told e).trans (send_told e.takeExecId.2
    (.status o (e.symbolFor o.instrumentId) clOrdId e.takeExecId.1 execType orig))⟩

theorem order_sendStatusFor (e : Engine D) (o : Order D) (clOrdId : OrderId) (execType : ExecType)
    (orig : Option OrderId) : (e.sendStatusFor o clOrdId execType orig).order = e.order :=
  order_send e.takeExecId.2 _

/-- The records after one fill report. -/
def copied (o : Order D) (record : String → OrderId → Option (Order D)) :
    String → OrderId → Option (Order D) := fun s id =>
  if o.identity = (s, id) then (record s id).map (copyFill o) else record s id

theorem sendFill_told {e : Engine D} (keyless : e.Keyless) (o : Order D) (price quantity : D) :
    (∃ execId, Told e (e.sendFill o price quantity) (e.heard o
      (.fill o (e.symbolFor o.instrumentId) price quantity execId none))) ∧
    (e.sendFill o price quantity).order = copied o e.order := by
  have sent : ∀ mid : Engine D, Rewrites e mid → mid.order = copied o e.order →
      (∃ execId, Told e (mid.takeExecId.2.send (.fill o (mid.symbolFor o.instrumentId) price
        quantity mid.takeExecId.1 none)) (e.heard o
        (.fill o (e.symbolFor o.instrumentId) price quantity execId none))) ∧
      (mid.takeExecId.2.send (.fill o (mid.symbolFor o.instrumentId) price quantity
        mid.takeExecId.1 none)).order = copied o e.order := by
    intro mid rewrites record
    rw [rewrites.told.symbolFor]
    refine ⟨⟨mid.takeExecId.1, ?_⟩, (order_send _ _).trans record⟩
    have ready := rewrites.told.trans (takeExecId_told mid)
    rw [← heard_congr ready]
    exact ready.trans (send_told mid.takeExecId.2 _)
  unfold sendFill
  by_cases hid : o.id = quoteOrderId
  · simp only [hid, if_true]
    refine sent e (.refl e) ?_
    funext s id
    unfold copied
    split
    · rename_i h
      obtain ⟨rfl, rfl⟩ := Prod.mk.inj h
      rw [hid, keyless]
      rfl
    · rfl
  · simp only [hid, if_false]
    refine sent _ (updateRecord_rewrites ..) ?_
    funext s id
    rw [order_updateRecord]
    unfold copied
    by_cases h : o.identity = (s, id)
    · have h' : (s, id) = (o.sessionId, o.id) := h.symm
      rw [if_pos h', if_pos h]
      obtain ⟨rfl, rfl⟩ := Prod.mk.inj h
      rfl
    · have h' : (s, id) ≠ (o.sessionId, o.id) := fun e => h e.symm
      rw [if_neg h', if_neg h]

theorem Keyless.congr {e e' : Engine D} (keyless : e.Keyless) {o : Order D}
    (h : e'.order = copied o e.order) : e'.Keyless := by
  intro s
  rw [h, copied, keyless]
  split <;> rfl

/-- The parties of a batch of trades in the order of their fill reports. -/
def parties (trades : List (RawTrade D)) : List (Order D × D × D) :=
  trades.flatMap (fun t => [(t.buyer, t.price, t.quantity), (t.seller, t.price, t.quantity)])

/-- `news` are the fill reports of the registered ones among `parties`. -/
def FillNews (e : Engine D) (parties : List (Order D × D × D)) (news : List (Report D)) : Prop :=
  List.Forall₂ (fun p report => ∃ execId,
      report = .fill p.1 (e.symbolFor p.1.instrumentId) p.2.1 p.2.2 execId none)
    (parties.filter (fun p => e.sessions.contains p.1.sessionId)) news

theorem FillNews.append {e : Engine D} {p q : List (Order D × D × D)} {m n : List (Report D)}
    (h : FillNews e p m) (h' : FillNews e q n) : FillNews e (p ++ q) (m ++ n) := by
  unfold FillNews
  rw [List.filter_append]
  exact List.rel_append h h'

theorem FillNews.congr {e e' : Engine D} {news : List (Report D)} (told : Told e e' news)
    {p : List (Order D × D × D)} {n : List (Report D)} (h : FillNews e' p n) : FillNews e p n := by
  unfold FillNews at *
  rw [told.symbolFor] at h
  simpa only [told.contains] using h

theorem fillNews_heard (e : Engine D) (o : Order D) (price quantity : D) (execId : String) :
    FillNews e [(o, price, quantity)]
      (e.heard o (.fill o (e.symbolFor o.instrumentId) price quantity execId none)) := by
  unfold FillNews heard
  by_cases h : e.sessions.contains o.sessionId = true
  · simp [h]
  · simp [h]

omit [Decimal D] in
/-- The records after the fills of one more trade. -/
theorem afterTrades_cons (t : RawTrade D) (ts : List (RawTrade D))
    (record : String → OrderId → Option (Order D)) :
    View.afterTrades ts (copied t.seller (copied t.buyer record)) =
      View.afterTrades (t :: ts) record := by
  funext s id
  unfold View.afterTrades
  rw [lastSnapshot_cons]
  have single : copied t.seller (copied t.buyer record) s id = (record s id).map (fun r =>
      ((OrderBook.lastSnapshot (s, id) [t]).map (copyFill · r)).getD r) := by
    unfold copied OrderBook.lastSnapshot
    cases hr : record s id with
    | none => simp
    | some r =>
      by_cases hs : t.seller.identity = (s, id) <;> by_cases hb : t.buyer.identity = (s, id) <;>
        simp [hs, hb, copyFill]
  rw [single]
  cases hr : record s id with
  | none => rfl
  | some r =>
    cases OrderBook.lastSnapshot (s, id) ts with
    | none => simp
    | some o =>
      cases OrderBook.lastSnapshot (s, id) [t] with
      | none => simp
      | some o' => simp [copyFill]

theorem sendFills_told (trades : List (RawTrade D)) : ∀ {e : Engine D}, e.Keyless →
    (∃ news, Told e (e.sendFills trades) news ∧ FillNews e (parties trades) news) ∧
    (e.sendFills trades).order = View.afterTrades trades e.order := by
  induction trades with
  | nil =>
    intro e _
    refine ⟨⟨[], .refl e, .nil⟩, ?_⟩
    funext s id
    simp [sendFills, View.afterTrades, OrderBook.lastSnapshot]
  | cons t ts ih =>
    intro e keyless
    obtain ⟨⟨x, tell⟩, record⟩ := sendFill_told keyless t.buyer t.price t.quantity
    have keyless' := keyless.congr record
    obtain ⟨⟨y, tell'⟩, record'⟩ := sendFill_told keyless' t.seller t.price t.quantity
    obtain ⟨⟨news, tell'', hnews⟩, record''⟩ := ih (keyless'.congr record')
    refine ⟨⟨_, (tell.trans tell').trans tell'', ?_⟩, ?_⟩
    · refine FillNews.append (p := [_, _]) (FillNews.append (p := [_]) (q := [_]) ?_ ?_) ?_
      · exact fillNews_heard e t.buyer t.price t.quantity x
      · exact (fillNews_heard _ t.seller t.price t.quantity y).congr tell
      · exact hnews.congr (tell.trans tell')
    · rw [← afterTrades_cons, ← record, ← record', ← record'']
      rfl

omit [Decimal D] in
theorem lastSnapshot_numbered (identity : String × OrderId) (n : Int) (trades : List (RawTrade D)) :
    OrderBook.lastSnapshot identity (trades.map (fun t => { t with tradeId := n })) =
      OrderBook.lastSnapshot identity trades := by
  unfold OrderBook.lastSnapshot
  rw [List.foldl_map]

omit [Decimal D] in
theorem parties_numbered (n : Int) (trades : List (RawTrade D)) :
    parties (trades.map (fun t => { t with tradeId := n })) = parties trades := by
  unfold parties
  rw [List.flatMap_map]

theorem sendTradeReports_told (trades : List (RawTrade D)) {e : Engine D} (keyless : e.Keyless) :
    (∃ news, Told e (e.sendTradeReports trades) news ∧ FillNews e (parties trades) news) ∧
    (e.sendTradeReports trades).order = View.afterTrades trades e.order := by
  unfold sendTradeReports
  cases trades with
  | nil =>
    refine ⟨⟨[], .refl e, .nil⟩, ?_⟩
    funext s id
    simp [View.afterTrades, OrderBook.lastSnapshot]
  | cons t ts =>
    let numbered := (t :: ts).map (fun trade => { trade with tradeId := e.nextTradeId + 1 })
    have start : Told e { e with nextTradeId := e.nextTradeId + 1 } [] :=
      ⟨by simp, rfl, fun _ => rfl⟩
    obtain ⟨⟨news, told, fills⟩, record⟩ := sendFills_told numbered
      (e := { e with nextTradeId := e.nextTradeId + 1 }) keyless
    refine ⟨⟨news, start.trans told, ?_⟩, ?_⟩
    · rw [parties_numbered] at fills
      exact fills.congr start
    · refine record.trans ?_
      funext s id
      unfold View.afterTrades
      rw [lastSnapshot_numbered]
      rfl

/-- The view once an order's trades are booked, published and reported. -/
theorem view_reported {e mid : Engine D} (keyless : e.Keyless) {i : Int} {book' : OrderBook D}
    (quiet : Quiet (e.setBook i book') mid) (trades : List (RawTrade D)) (final : Order D) :
    ((mid.sendTradeReports trades).syncRecord final).view =
      { book := Function.update e.book i book'
        record := View.synced final (View.afterTrades trades e.order)
        leg := e.leg
        arrival := e.nextArrival } := by
  have orders : mid.order = e.order := quiet.order
  have keyless' : mid.Keyless := by intro s; rw [orders]; exact keyless s
  obtain ⟨⟨news, told, -⟩, record⟩ := sendTradeReports_told trades keyless'
  have keyless'' : (mid.sendTradeReports trades).Keyless := by
    intro s
    rw [record, View.afterTrades, keyless' s]
    rfl
  have told' := (syncRecord_rewrites (mid.sendTradeReports trades) final).told
  rw [told'.view, told.view, quiet.view, order_syncRecord keyless'', record, orders, view_setBook]
  rfl

end Engine

end RustTrader
