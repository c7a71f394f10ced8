import RustTrader.EngineView

/-!
# What reports say about an order

The reports about one order form a sequence of snapshots. `Follows` relates a
record, the snapshots sent since, and the record they lead to: at most the last
snapshot is terminal, it shows what the record now holds, and nothing is said
about an order that had already ended.
-/

namespace RustTrader

open Decimal

variable {D : Type} [Decimal D]

/-- The quantity a report shows as still open. -/
def Order.leaves (o : Order D) : D := if o.state.isActive then o.remaining else 0

/-- Two snapshots that show the same executed and open quantity, and agree on
whether the order has ended. -/
structure Alike (o o' : Order D) : Prop where
  cum : o.cumQuantity = o'.cumQuantity
  leaves : o.leaves = o'.leaves
  active : o.state.isActive = o'.state.isActive

theorem Alike.refl (o : Order D) : Alike o o := ⟨rfl, rfl, rfl⟩

theorem Alike.trans {a b c : Order D} (h : Alike a b) (h' : Alike b c) : Alike a c :=
  ⟨h.cum.trans h'.cum, h.leaves.trans h'.leaves, h.active.trans h'.active⟩

theorem alike_of_active {o o' : Order D} (cum : o.cumQuantity = o'.cumQuantity)
    (remaining : o.remaining = o'.remaining) (active : o.state.isActive)
    (active' : o'.state.isActive) : Alike o o' := by
  refine ⟨cum, ?_, active.trans active'.symm⟩
  rw [Order.leaves, Order.leaves, if_pos active, if_pos active', remaining]

omit [Decimal D] in
/-- The snapshots of an order in a list of reports. -/
def about (identity : String × OrderId) (reports : List (Report D)) : List (Order D) :=
  (reports.map Report.order).filter (fun o => o.identity = identity)

/-- A record, the snapshots about it, and the record afterwards. -/
inductive Follows : Option (Order D) → List (Order D) → Option (Order D) → Prop
  | gone (before : Option (Order D)) : Follows before [] none
  | kept {r r' : Order D} (alike : Alike r r') : Follows (some r) [] (some r')
  | told {before : Option (Order D)} {early : List (Order D)} {last after : Order D}
      (open_ : ∀ r, before = some r → r.state.isActive)
      (running : ∀ o ∈ early, o.state.isActive) (alike : Alike last after) :
      Follows before (early ++ [last]) (some after)

namespace Follows

variable {a b c : Option (Order D)} {m n : List (Order D)}

/-- A single report. -/
theorem once {last after : Order D} (open_ : ∀ r, a = some r → r.state.isActive)
    (alike : Alike last after) : Follows a [last] (some after) := by
  rw [← List.nil_append [last]]
  exact .told open_ (fun o ho => absurd ho List.not_mem_nil) alike

theorem refl (a : Option (Order D)) : Follows a [] a := by
  cases a with
  | none => exact .gone none
  | some r => exact .kept (.refl r)

theorem trans_some {r r' : Order D} (h : Follows a m (some r)) (h' : Follows (some r) n (some r')) :
    Follows a (m ++ n) (some r') := by
  cases h with
  | kept alike =>
    cases h' with
    | kept alike' => exact .kept (alike.trans alike')
    | told open_ running alike' =>
      refine .told ?_ running alike'
      intro x hx
      obtain rfl := Option.some.inj hx
      rw [alike.active]
      exact open_ r rfl
  | @told _ early last _ open_ running alike =>
    cases h' with
    | kept alike' =>
      rw [List.append_nil]
      exact .told open_ running (alike.trans alike')
    | @told _ early' last' _ open' running' alike' =>
      rw [← List.append_assoc]
      refine .told open_ ?_ alike'
      intro o ho
      rcases List.mem_append.mp ho with ho | ho
      · rcases List.mem_append.mp ho with ho | ho
        · exact running o ho
        · obtain rfl := List.mem_singleton.mp ho
          rw [alike.active]
          exact open' r rfl
      · exact running' o ho

/-- Composition, for orders that are neither recorded nor forgotten on the way. -/
theorem trans (h : Follows a m b) (h' : Follows b n c) (same : b = none ↔ c = none) :
    Follows a (m ++ n) c := by
  cases c with
  | some r' =>
    cases b with
    | some r => exact h.trans_some h'
    | none => exact absurd (same.mp rfl) (by simp)
  | none =>
    obtain rfl := same.mpr rfl
    cases h
    cases h'
    exact .gone a

theorem nil_of_none (h : Follows a m none) : m = [] := by
  cases h
  rfl

/-- The last snapshot is the record's, if there is any snapshot. -/
theorem last_alike {r : Order D} (h : Follows a m (some r)) :
    (m = [] ∧ ∃ r', a = some r' ∧ Alike r' r) ∨ ∃ o, m.getLast? = some o ∧ Alike o r := by
  cases h with
  | kept alike => exact Or.inl ⟨rfl, _, rfl, alike⟩
  | told _ _ alike => exact Or.inr ⟨_, by simp, alike⟩

/-- An order that ends is reported as ended exactly once. -/
theorem ends_once {r : Order D} (h : Follows a m (some r)) (ended : r.state.isActive = false)
    (open_ : ∀ r', a = some r' → r'.state.isActive) :
    (m.filter (fun o => !o.state.isActive)).length = 1 := by
  cases h with
  | kept alike =>
    have active := open_ _ rfl
    rw [alike.active, ended] at active
    cases active
  | @told _ early last _ _ running alike =>
    have early_nil : early.filter (fun o => !o.state.isActive) = [] := by
      rw [List.filter_eq_nil_iff]
      intro o ho
      simp [running o ho]
    rw [List.filter_append, early_nil]
    simp [alike.active, ended]

/-- Nothing is said about an order that has ended. -/
theorem silent_after {r : Order D} (h : Follows (some r) m c) (ended : r.state.isActive = false) :
    m = [] := by
  cases h with
  | gone => rfl
  | kept => rfl
  | told open_ =>
    have active := open_ r rfl
    rw [ended] at active
    cases active

end Follows

/-- The snapshots of an order in a batch of trades. -/
def snapshots (identity : String × OrderId) (trades : List (RawTrade D)) : List (Order D) :=
  ((Engine.parties trades).map (fun p => p.1)).filter (fun o => o.identity = identity)

omit [Decimal D] in
@[simp] theorem snapshots_nil (identity : String × OrderId) :
    snapshots identity ([] : List (RawTrade D)) = [] := rfl

omit [Decimal D] in
theorem snapshots_cons (identity : String × OrderId) (t : RawTrade D) (ts : List (RawTrade D)) :
    snapshots identity (t :: ts) =
      [t.buyer, t.seller].filter (fun o => o.identity = identity) ++ snapshots identity ts := by
  unfold snapshots Engine.parties
  rw [List.flatMap_cons, List.map_append, List.filter_append]
  rfl

omit [Decimal D] in
theorem snapshots_append (identity : String × OrderId) (ts us : List (RawTrade D)) :
    snapshots identity (ts ++ us) = snapshots identity ts ++ snapshots identity us := by
  simp [snapshots, Engine.parties]

omit [Decimal D] in
theorem lastSnapshot_eq (identity : String × OrderId) (trades : List (RawTrade D)) :
    OrderBook.lastSnapshot identity trades = (snapshots identity trades).getLast? := by
  induction trades with
  | nil => rfl
  | cons t ts ih =>
    rw [lastSnapshot_cons, snapshots_cons, List.getLast?_append, ih]
    congr 1
    by_cases hs : t.seller.identity = identity <;> by_cases hb : t.buyer.identity = identity <;>
      simp [OrderBook.lastSnapshot, hs, hb]

omit [Decimal D] in
theorem snapshots_silent {identity : String × OrderId} {trades : List (RawTrade D)}
    (h : OrderBook.lastSnapshot identity trades = none) : snapshots identity trades = [] := by
  rw [lastSnapshot_eq] at h
  exact List.getLast?_eq_none_iff.mp h

omit [Decimal D] in
/-- One trade shows the incoming order and the resting one. -/
theorem snapshots_sideTrade {identity : String × OrderId} {side : Side}
    {incoming resting : Order D} {price quantity : D} {trades : List (RawTrade D)} :
    (snapshots identity (sideTrade side incoming resting price quantity :: trades)).Perm
      ([incoming, resting].filter (fun o => o.identity = identity) ++
        snapshots identity trades) := by
  rw [snapshots_cons]
  refine List.Perm.append_right _ (List.Perm.filter _ ?_)
  cases side with
  | buy => exact .refl _
  | sell => exact .swap _ _ _

/-- A resting order is in at most one trade of a walk. -/
theorem Walked.snapshots_resting {incoming left : Order D} {queue untouched : List (Order D)}
    {trades : List (RawTrade D)} (w : Walked incoming queue trades left untouched)
    (distinct : Keyed.Distinct Order.identity queue) {identity : String × OrderId}
    (apart : incoming.identity ≠ identity) : (snapshots identity trades).length ≤ 1 := by
  induction w with
  | stop => simp
  | @trade incoming resting filled hit left rest untouched trades quantity _ _ fill fillHit tail
      ih =>
    have f := OrderBook.applyFill_spec fill
    have g := OrderBook.applyFill_spec fillHit
    obtain ⟨fresh, distinct'⟩ := Keyed.distinct_cons.mp distinct
    have apart' : filled.identity ≠ identity := by rw [f.identity]; exact apart
    rw [snapshots_sideTrade.length_eq]
    by_cases here : resting.identity = identity
    · have silent := tail.snapshot_other apart' (fun r hr => here ▸ fresh r hr)
      rw [snapshots_silent silent]
      simp [apart', g.identity.trans here]
    · have hit' : hit.identity ≠ identity := by rw [g.identity]; exact here
      simpa [List.filter_cons, apart', hit'] using ih distinct' apart'

/-- The incoming order is active in all trades of a walk but perhaps the last,
which leaves it as the walk does. -/
theorem Walked.snapshots_incoming {incoming left : Order D} {queue untouched : List (Order D)}
    {trades : List (RawTrade D)} (w : Walked incoming queue trades left untouched)
    (apart : ∀ r ∈ queue, r.identity ≠ incoming.identity) :
    trades = [] ∧ left = incoming ∨ ∃ early,
      snapshots incoming.identity trades = early ++ [left] ∧ ∀ o ∈ early, o.state.isActive := by
  induction w with
  | stop => exact Or.inl ⟨rfl, rfl⟩
  | @trade incoming resting filled hit left rest untouched trades quantity _ _ fill fillHit tail
      ih =>
    right
    have f := OrderBook.applyFill_spec fill
    have g := OrderBook.applyFill_spec fillHit
    have hit' : hit.identity ≠ incoming.identity := by
      rw [g.identity]
      exact apart resting List.mem_cons_self
    have head : snapshots incoming.identity
        (sideTrade incoming.side filled hit resting.price quantity :: trades) =
        filled :: snapshots incoming.identity trades := by
      rw [snapshots_cons]
      cases incoming.side <;> simp [sideTrade, f.identity, hit']
    rw [head]
    have apart' : ∀ r ∈ rest, r.identity ≠ filled.identity := by
      intro r hr
      rw [f.identity]
      exact apart r (List.mem_cons_of_mem _ hr)
    rcases ih apart' with ⟨rfl, rfl⟩ | ⟨early, hsnap, running⟩
    · exact ⟨[], rfl, by simp⟩
    · rw [f.identity] at hsnap
      refine ⟨filled :: early, by rw [hsnap]; rfl, ?_⟩
      intro o ho
      rcases List.mem_cons.mp ho with rfl | ho
      · have more : o.remaining ≠ 0 := by
          intro hz
          cases tail with
          | stop => simp at hsnap
          | trade open_ => exact open_ (Or.inl hz)
        rw [f.state, if_neg more]
        rfl
      · exact running o ho

omit [Decimal D] in
theorem afterTrades_none {record : String → OrderId → Option (Order D)} {s : String}
    {id : OrderId} (trades : List (RawTrade D)) (h : record s id = none) :
    View.afterTrades trades record s id = none := by rw [View.afterTrades, h]; rfl

/-- A match reports about every other order what its record becomes. -/
theorem Coherent.Added.follows [LawfulDecimal D] {v : View D} {gap : Gap}
    {order left final : Order D}
    {trades : List (RawTrade D)} {book' : OrderBook D}
    (a : Coherent.Added v gap order trades left final book') {s : String} {id : OrderId}
    (hid : id ≠ quoteOrderId) (other : (s, id) ≠ order.identity) :
    Follows (v.record s id) (snapshots (s, id) trades)
      ((v.added order trades final book').record s id) := by
  have distinct := (a.coherent.filed order.instrumentId).distinct order.side.opposite
  have apart : ({ order with state := .booked } : Order D).identity ≠ (s, id) := Ne.symm other
  have single := a.walked.snapshots_resting distinct apart
  by_cases resting : ∃ r ∈ v.queue order.instrumentId order.side.opposite, r.identity = (s, id)
  · obtain ⟨r, hr, same⟩ := resting
    obtain ⟨rfl, rfl⟩ := Prod.mk.inj same
    have owned := (a.coherent.owned _ _ r hr).record hid
    have active := (a.coherent.fit _ _ r hr).active
    rw [owned, a.record_other other, View.afterTrades, owned, lastSnapshot_eq]
    cases hs : snapshots (r.sessionId, r.id) trades with
    | nil => exact .kept (.refl r)
    | cons hit rest =>
      rw [hs] at single
      obtain rfl : rest = [] := by
        cases rest with
        | nil => rfl
        | cons _ _ => simp at single
      refine .once ?_ ⟨rfl, ?_, rfl⟩
      · intro x hx
        obtain rfl := Option.some.inj hx
        exact active
      · rfl
  · have silent : ∀ r ∈ v.queue order.instrumentId order.side.opposite, r.identity ≠ (s, id) :=
      fun r hr same => resting ⟨r, hr, same⟩
    rw [a.record_silent other silent,
      snapshots_silent (a.walked.snapshot_other (Ne.symm other) silent)]
    exact .refl _

namespace Engine

theorem FillNews.orders {e : Engine D} {p : List (Order D × D × D)} {news : List (Report D)}
    (h : FillNews e p news) : news.map Report.order =
      (p.filter (fun q => e.sessions.contains q.1.sessionId)).map (fun q => q.1) := by
  unfold FillNews at h
  generalize p.filter (fun q => e.sessions.contains q.1.sessionId) = l at h ⊢
  induction h with
  | nil => rfl
  | cons head _ ih =>
    obtain ⟨execId, rfl⟩ := head
    rw [List.map_cons, List.map_cons, ih]
    rfl

/-- What holds of both sides of every trade holds of every reported order. -/
theorem FillNews.all {P : Order D → Prop} {e : Engine D} {trades : List (RawTrade D)}
    {fills : List (Report D)} (news : FillNews e (parties trades) fills)
    (h : ∀ t ∈ trades, P t.buyer ∧ P t.seller) : ∀ report ∈ fills, P report.order := by
  intro report hreport
  have shown : report.order ∈ fills.map Report.order := List.mem_map_of_mem hreport
  rw [news.orders] at shown
  obtain ⟨p, hp, same⟩ := List.mem_map.mp shown
  obtain ⟨t, ht, hp⟩ := List.mem_flatMap.mp (List.mem_of_mem_filter hp)
  obtain ⟨buyer, seller⟩ := h t ht
  rw [← same]
  rcases List.mem_cons.mp hp with rfl | hp
  · exact buyer
  · obtain rfl := List.mem_singleton.mp hp
    exact seller

/-- Reports to registered sessions say about an order what the trades do. -/
theorem about_fills {e : Engine D} {trades : List (RawTrade D)} {fills : List (Report D)}
    (news : FillNews e (parties trades) fills) {s : String} (id : OrderId)
    (registered : e.sessions.contains s = true) :
    about (s, id) fills = snapshots (s, id) trades := by
  unfold about snapshots
  rw [news.orders, List.filter_map, List.filter_map, List.filter_filter]
  congr 1
  refine List.filter_congr ?_
  intro q _
  by_cases here : q.1.identity = (s, id)
  · have hs : q.1.sessionId = s := (Prod.mk.inj here).1
    simp [here, hs, registered]
  · simp [here]

/-- Nothing is reported about orders of a session that is not registered. -/
theorem about_unregistered {e : Engine D} {p : List (Order D × D × D)} {fills : List (Report D)}
    (news : FillNews e p fills) {s : String} (id : OrderId)
    (unregistered : ¬ e.sessions.contains s = true) : about (s, id) fills = [] := by
  unfold about
  rw [news.orders, List.filter_eq_nil_iff]
  intro o ho same
  obtain ⟨q, hq, rfl⟩ := List.mem_map.mp ho
  have known := (List.mem_filter.mp hq).2
  have hs : q.1.sessionId = s := (Prod.mk.inj (of_decide_eq_true same)).1
  rw [hs] at known
  exact unregistered known

end Engine

end RustTrader
