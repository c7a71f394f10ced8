import RustTrader.Days
import RustTrader.MarketRuns
import RustTrader.Queues

/-!
# Expiry of day orders

The loop over the overdue keys, in any order of the date map: what it makes of
every record and every queue, whom it tells, and that nothing is left for a
second loop on the same day.
-/

namespace RustTrader

open Decimal

variable {D : Type} [Decimal D]

namespace Engine

/-- A record whose order, if it was active, has expired. -/
def lapse (r : Order D) : Order D := if r.state.isActive then lapsed r else r

theorem lapse_ended (r : Order D) : (lapse r).state.isActive = false := by
  unfold lapse
  by_cases active : r.state.isActive = true
  · rw [if_pos active]
    rfl
  · rw [if_neg active]
    exact Bool.eq_false_iff.mpr active

theorem pair_removeFromBook {e e' : Engine D} {s : String} {id : OrderId} {side : Side}
    {price : D} {i : Int} {result : Except EngineError (Order D)}
    (h : e.removeFromBook s id side price i = .ok (result, e')) : e'.pair = e.pair := by
  unfold removeFromBook at h
  split at h
  · cases h
    rfl
  · obtain ⟨removed, -, h⟩ := Exec.bind_ok.mp h
    cases removed <;> cases h <;> rfl

theorem pair_sendStatusFor (e : Engine D) (order : Order D) (clOrdId : OrderId)
    (execType : ExecType) (orig : Option OrderId) :
    (e.sendStatusFor order clOrdId execType orig).pair = e.pair := by
  unfold sendStatusFor send
  simp only
  split <;> rfl

theorem Quiet.pair {e e' : Engine D} (h : Quiet e e') : e'.pair = e.pair := by
  unfold Engine.pair
  rw [h.sessions]

theorem pair_expireOrder {e e' : Engine D} {key : String × OrderId}
    (h : e.expireOrder key = .ok e') : e'.pair = e.pair := by
  unfold expireOrder at h
  simp only at h
  split at h
  · cases h
    rfl
  · split at h
    · cases h
      rfl
    · obtain ⟨⟨removed, ea⟩, hremove, h⟩ := Exec.bind_ok.mp h
      obtain ⟨eb, hrecord, h⟩ := Exec.bind_ok.mp h
      cases h
      refine (pair_sendStatusFor _ _ _ _ _).trans ((recordMarketData_quiet hrecord).pair.trans
        ((syncRecord_rewrites ea _).pair.trans ?_))
      exact (pair_removeFromBook hremove).trans rfl

/-- The report of an expiry. -/
def Laments (e : Engine D) (key : String × OrderId) (report : Report D) : Prop :=
  ∃ r execId, e.order key.1 key.2 = some r ∧ r.state.isActive ∧
    report = .status (lapsed r) (e.symbolFor r.instrumentId) key.2 execId .expired none

/-- An order that is active under a key. -/
def activeAt (e : Engine D) (key : String × OrderId) : Bool :=
  (e.order key.1 key.2).any (fun r => r.state.isActive)

theorem activeAt_iff {e : Engine D} {key : String × OrderId} :
    e.activeAt key = true ↔ ∃ r, e.order key.1 key.2 = some r ∧ r.state.isActive := by
  unfold activeAt
  cases e.order key.1 key.2 <;> simp

/-- What looking at some keys does. -/
structure Lapses (e e' : Engine D) (keys : List (String × OrderId)) : Prop where
  record : ∀ s id, e'.order s id =
    if (s, id) ∈ keys then (e.order s id).map lapse else e.order s id
  sheds : Sheds (fun _ _ o => o.id ≠ quoteOrderId ∧ o.identity ∈ keys) e e'
  pair : e'.pair = e.pair
  registered : ∀ s, e'.Registered s ↔ e.Registered s
  instruments : e'.instruments = e.instruments
  told : ∃ news, e'.sent = e.sent ++ news ∧
    List.Forall₂ (Laments e) (keys.filter e.activeAt) news

theorem expireOrder_lapses {policy : FillPolicy} {e e' : Engine D}
    (c : Coherent policy e.view none) {key : String × OrderId} (h : e.expireOrder key = .ok e') :
    Lapses e e' [key] ∧ Coherent policy e'.view none := by
  obtain ⟨s, id⟩ := key
  have pairs := pair_expireOrder h
  rcases expireOrder_cases c h with ⟨same, idle⟩ | ⟨entry, book', execId, done⟩
  · have orders : e'.order = e.order := congrArg View.record same.view
    have books : e'.book = e.book := congrArg View.book same.view
    have silent : e.activeAt (s, id) = false := by
      rw [Bool.eq_false_iff, ne_eq, activeAt_iff]
      rintro ⟨r, recorded, active⟩
      rw [idle r recorded] at active
      cases active
    refine ⟨⟨?_, .of_book books, pairs, same.registered, same.instruments, [], by rw [same.sent],
      ?_⟩, same.view ▸ c⟩
    · intro s' id'
      rw [orders]
      split
      · rename_i mem
        obtain ⟨rfl, rfl⟩ := Prod.mk.inj (List.mem_singleton.mp mem)
        cases recorded : e.order s' id' with
        | none => rfl
        | some r =>
          rw [Option.map_some, lapse, if_neg (by rw [idle r recorded]; exact Bool.false_ne_true)]
      · rfl
    · rw [List.filter_cons_of_neg (by simp [silent]), List.filter_nil]
      exact .nil
  · obtain ⟨hs, hid, regular⟩ := c.keyed s id entry done.recorded
    have orders : e'.order = _ := congrArg View.record done.effect.view
    have books : e'.book = _ := congrArg View.book done.effect.view
    have key : entry.identity = (s, id) := Prod.ext hs hid
    have shown : e.activeAt (s, id) = true := activeAt_iff.mpr ⟨entry, done.recorded, done.active⟩
    refine ⟨⟨?_, ?_, pairs, done.effect.registered, done.effect.instruments, _, done.effect.sent,
      ?_⟩, done.coherent c⟩
    · intro s' id'
      rw [orders]
      by_cases same : s' = s ∧ id' = id
      · obtain ⟨rfl, rfl⟩ := same
        rw [if_pos List.mem_cons_self, done.recorded, Option.map_some, lapse, if_pos done.active]
        simp [View.setRecord]
      · have other : (s', id') ∉ [(s, id)] := by
          rw [List.mem_singleton]
          exact fun h => same (Prod.mk.inj h)
        simp only [View.setRecord, same, if_false, if_neg other]
        rfl
    · refine (sheds_left (c.filed _) done.left (books.trans rfl)).mono ?_
      rintro _ _ o ⟨-, -, same⟩
      rw [key] at same
      refine ⟨?_, List.mem_singleton.mpr same⟩
      rw [(Prod.mk.inj same).2]
      exact regular
    · rw [List.filter_cons_of_pos shown, List.filter_nil]
      exact .cons ⟨entry, execId, done.recorded, done.active, rfl⟩ .nil

theorem activeAt_congr {e e' : Engine D} {key : String × OrderId}
    (same : e'.order key.1 key.2 = e.order key.1 key.2) : e'.activeAt key = e.activeAt key := by
  unfold activeAt
  rw [same]

theorem Laments.congr {e e' : Engine D} {key : String × OrderId} {report : Report D}
    (h : Laments e' key report) (same : e'.order key.1 key.2 = e.order key.1 key.2)
    (instruments : e'.instruments = e.instruments) : Laments e key report := by
  obtain ⟨r, execId, recorded, active, rfl⟩ := h
  refine ⟨r, execId, same ▸ recorded, active, ?_⟩
  rw [symbolFor_congr instruments]

/-- Looking at a key and then at others, which it is not one of. -/
theorem Lapses.cons {e mid e' : Engine D} {key : String × OrderId} {keys : List (String × OrderId)}
    (fresh : key ∉ keys) (h : Lapses e mid [key]) (h' : Lapses mid e' keys) :
    Lapses e e' (key :: keys) := by
  obtain ⟨m, sent, told⟩ := h.told
  obtain ⟨n, sent', told'⟩ := h'.told
  have later : ∀ k ∈ keys, mid.order k.1 k.2 = e.order k.1 k.2 := by
    intro k hk
    rw [h.record, if_neg]
    rw [List.mem_singleton]
    rintro rfl
    exact fresh hk
  constructor
  · intro s id
    rw [h'.record, h.record]
    by_cases here : (s, id) = key
    · rw [if_pos (List.mem_singleton.mpr here), if_pos (List.mem_cons.mpr (.inl here)),
        if_neg (here ▸ fresh)]
    · have out : (s, id) ∉ [key] := fun mem => here (List.mem_singleton.mp mem)
      rw [if_neg out]
      by_cases mem : (s, id) ∈ keys
      · rw [if_pos mem, if_pos (List.mem_cons_of_mem _ mem)]
      · rw [if_neg mem, if_neg (by simp [here, mem])]
  · refine (h.sheds.mono ?_).trans (h'.sheds.mono ?_)
    · rintro _ _ o ⟨regular, mem⟩
      exact ⟨regular, List.mem_cons.mpr (.inl (List.mem_singleton.mp mem))⟩
    · rintro _ _ o ⟨regular, mem⟩
      exact ⟨regular, List.mem_cons_of_mem _ mem⟩
  · exact h'.pair.trans h.pair
  · exact fun s => (h'.registered s).trans (h.registered s)
  · exact h'.instruments.trans h.instruments
  · refine ⟨m ++ n, by rw [sent', sent, List.append_assoc], ?_⟩
    have split : (key :: keys).filter e.activeAt =
        [key].filter e.activeAt ++ keys.filter mid.activeAt := by
      rw [← List.singleton_append, List.filter_append]
      congr 1
      exact (List.filter_congr (fun k hk => activeAt_congr (later k hk))).symm
    rw [split]
    refine List.rel_append told ?_
    have same : ∀ k ∈ keys.filter mid.activeAt, mid.order k.1 k.2 = e.order k.1 k.2 :=
      fun k hk => later k (List.mem_of_mem_filter hk)
    refine ((List.forall₂_and_left _ _).mpr ⟨same, told'⟩).imp ?_
    rintro k report ⟨same, laments⟩
    exact laments.congr same h.instruments

theorem expireLoop_lapses {policy : FillPolicy} (keys : List (String × OrderId)) :
    ∀ {e e' : Engine D}, Coherent policy e.view none → keys.Nodup →
      keys.foldlM expireOrder e = .ok e' → Lapses e e' keys ∧ Coherent policy e'.view none := by
  induction keys with
  | nil =>
    intro e e' c _ h
    cases h
    refine ⟨⟨fun _ _ => rfl, .of_book rfl, rfl, fun _ => Iff.rfl, rfl, [], ?_, .nil⟩, c⟩
    rw [List.append_nil]
  | cons key keys ih =>
    intro e e' c nodup h
    obtain ⟨fresh, nodup⟩ := List.nodup_cons.mp nodup
    rw [List.foldlM_cons] at h
    obtain ⟨mid, hmid, h⟩ := Exec.bind_ok.mp h
    obtain ⟨first, cmid⟩ := expireOrder_lapses c hmid
    obtain ⟨rest, c'⟩ := ih cmid nodup h
    exact ⟨first.cons fresh rest, c'⟩

/-- A dated order of a day before today. -/
def overdue (e : Engine D) (today : Int) (key : String × OrderId) : Bool :=
  (HashMap.get? e.orderDates key).any (fun day => day < today)

theorem overdue_iff {e : Engine D} {today : Int} {key : String × OrderId} :
    e.overdue today key = true ↔ ∃ day, HashMap.get? e.orderDates key = some day ∧ day < today := by
  unfold overdue
  cases HashMap.get? e.orderDates key <;> simp

theorem mem_expired {e : Engine D} {today : Int} {key : String × OrderId} :
    key ∈ e.expired today ↔ e.overdue today key = true := by
  rw [overdue_iff, expired, List.mem_map]
  constructor
  · rintro ⟨entry, mem, rfl⟩
    obtain ⟨mem, early⟩ := List.mem_filter.mp mem
    exact ⟨entry.2, AList.mem_lookup_iff.mpr mem, of_decide_eq_true early⟩
  · rintro ⟨day, entry, early⟩
    exact ⟨⟨key, day⟩, List.mem_filter.mpr
      ⟨AList.mem_lookup_iff.mp entry, decide_eq_true early⟩, rfl⟩

theorem expired_nodup (e : Engine D) (today : Int) : (e.expired today).Nodup :=
  List.NodupKeys.sublist List.filter_sublist e.orderDates.nodupKeys

/-- What the end of a day does: the overdue orders that were active expire, each
with one report, and everything else stands. -/
structure DayEnds (e e' : Engine D) (today : Int) : Prop where
  record : ∀ s id, e'.order s id =
    if e.overdue today (s, id) then (e.order s id).map lapse else e.order s id
  books : ∀ i side, (e'.book i).queue side = ((e.book i).queue side).filter
    (fun o => ¬ (o.id ≠ quoteOrderId ∧ e.overdue today o.identity))
  pair : e'.pair = e.pair
  registered : ∀ s, e'.Registered s ↔ e.Registered s
  dates : ∀ key, HashMap.get? e'.orderDates key =
    if e.overdue today key then none else HashMap.get? e.orderDates key
  told : ∃ keys news, keys.Nodup ∧
    (∀ key, key ∈ keys ↔ e.overdue today key = true ∧ e.activeAt key = true) ∧
    e'.sent = e.sent ++ news ∧ List.Forall₂ (Laments e) keys news

theorem publishMarketData_pending {e e' : Engine D} (h : e.publishMarketData = .ok e') :
    e'.pendingMarketData = ∅ := by
  unfold publishMarketData at h
  refine (foldlM_relates (R := fun e e' : Engine D => e'.pendingMarketData = e.pendingMarketData)
    (fun _ => rfl) (fun _ _ _ first second => second.trans first) ?_ _ h).trans rfl
  intro e entry e' h
  unfold publishInstrument at h
  obtain ⟨stats, -, h⟩ := Exec.bind_ok.mp h
  obtain ⟨marketData, -, h⟩ := Exec.bind_ok.mp h
  cases h
  rfl

theorem day_ends {policy : FillPolicy} {e e' : Engine D} (c : Coherent policy e.view none)
    {today : Int} {keys : List (String × OrderId)} (visits : keys.Perm (e.expired today))
    (h : e.expireDayOrdersAt keys = .ok e') : DayEnds e e' today := by
  have listed : ∀ key, key ∈ keys ↔ e.overdue today key = true :=
    fun key => visits.mem_iff.trans mem_expired
  have dates := (clock_expire h).2
  unfold expireDayOrdersAt at h
  obtain ⟨mid, hmid, hpublish⟩ := Exec.bind_ok.mp h
  obtain ⟨lapses, cmid⟩ := expireLoop_lapses keys c
    (visits.nodup_iff.mpr (expired_nodup e today)) hmid
  have quiet := publishMarketData_quiet hpublish
  obtain ⟨news, sent, told⟩ := lapses.told
  have c' : Coherent policy e'.view none := quiet.view ▸ cmid
  constructor
  · intro s id
    rw [quiet.order, lapses.record]
    simp only [listed]
  · intro i side
    refine (lapses.sheds.trans (.of_quiet quiet)).filter ?_ ?_
    · intro o
      rw [decide_eq_true_eq, listed]
    · rintro o ho ⟨regular, mem⟩
      have here : (o.sessionId, o.id) ∈ keys := mem
      have recorded : e'.order o.sessionId o.id = some o := (c'.owned i side o ho).record regular
      rw [quiet.order, lapses.record, if_pos here] at recorded
      obtain ⟨r, -, rfl⟩ := Option.map_eq_some_iff.mp recorded
      have active : (lapse r).state.isActive := (c'.fit i side _ ho).active
      rw [lapse_ended] at active
      cases active
  · exact quiet.pair.trans lapses.pair
  · exact fun s => (quiet.registered s).trans (lapses.registered s)
  · intro key
    rw [dates]
    simp only [listed]
  · refine ⟨keys.filter e.activeAt, news, ?_, ?_, by rw [quiet.sent, sent], told⟩
    · exact (visits.nodup_iff.mpr (expired_nodup e today)).filter _
    · intro key
      rw [List.mem_filter, listed]

/-- Nothing is overdue any more once a day has ended. -/
theorem DayEnds.settled {e e' : Engine D} {today : Int} (ends : DayEnds e e' today)
    (key : String × OrderId) : e'.overdue today key = false := by
  rw [Bool.eq_false_iff, ne_eq, overdue_iff]
  rintro ⟨day, entry, early⟩
  rw [ends.dates] at entry
  split at entry
  · cases entry
  · rename_i still
    exact still (overdue_iff.mpr ⟨day, entry, early⟩)

theorem DayEnds.idle {e e' : Engine D} {today : Int}
    {keys keys' : List (String × OrderId)} (ends : DayEnds e e' today)
    (h : e.expireDayOrdersAt keys = .ok e') (visits : keys'.Perm (e'.expired today)) :
    e'.expireDayOrdersAt keys' = .ok e' := by
  have none_ : keys' = [] := by
    refine List.eq_nil_iff_forall_not_mem.mpr ?_
    intro key mem
    rw [visits.mem_iff, mem_expired, ends.settled] at mem
    cases mem
  obtain ⟨mid, -, hpublish⟩ := Exec.bind_ok.mp h
  rw [none_]
  exact publish_idle (publishMarketData_pending hpublish)

section Lawful

variable [LawfulDecimal D] {policy : FillPolicy} {days : String → OrderId → Option Int}

theorem Dated.step {e e' : Engine D} {command : Command D} (c : Coherent policy e.view none)
    (hp : e.fillPolicy = policy) (h : Dated e days) (step : Step e command e') :
    Dated e' (e.dayAfter command days) := by
  cases step with
  | createInstrument symbol =>
    obtain ⟨hv, sessions, -, -⟩ := view_createInstrument e symbol
    have orders : (e.createInstrument symbol).2.order = e.order := congrArg View.record hv
    refine h.undated ?_ ?_ (fun s id => by rw [orders]; exact .refl _)
    · unfold createInstrument
      split <;> rfl
    · rintro s ⟨session, hs⟩
      exact ⟨session, by rw [sessions, hs]⟩
  | registerSession s fresh =>
    refine h.undated rfl ?_ (fun s' id => by rw [order_registerSession fresh]; exact .refl _)
    rintro s' ⟨session, hs⟩
    by_cases same : s' = s
    · subst same
      exact absurd ⟨session, hs⟩ fresh
    · refine ⟨session, ?_⟩
      rw [registerSession, SortedMap.get?_insert_ne _ _ same, hs]
  | sessionDisconnect _ s orders quotes visits returns =>
    obtain ⟨departed, -⟩ := sessionDisconnect_spec c visits returns
    rcases clock_disconnect returns with ⟨rfl, -⟩ | left
    · exact h
    obtain ⟨dates, -⟩ := Prod.mk.inj left
    constructor
    · intro s' id r recorded active
      rw [departed.record] at recorded
      split at recorded
      · cases recorded
      · rename_i other
        rw [dates, HashMap.get?_retain, if_pos (by simpa using other)]
        exact h.entries s' id r recorded active
    · intro s' id day entry
      rw [dates, HashMap.get?_retain] at entry
      split at entry
      · rename_i other
        exact (departed.registered s').mpr ⟨h.owners s' id day entry, by simpa using other⟩
      · cases entry
  | createOrder _ today s new reply returns => exact h.created c hp returns
  | modifyOrderWithType _ today s origId newId orderType price quantity reply returns =>
    exact h.replaced c hp returns
  | cancelOrderWithId _ s origId clOrdId reply returns =>
    rcases cancel_cases c returns with ⟨_, -, -, rfl⟩ | ⟨-, entry, book', execId, done⟩
    · exact h
    · exact h.undated (congrArg Prod.fst (clock_cancel returns))
        (fun s => (done.effect.registered s).mpr) done.older
  | quote _ s i bidPrice bidQuantity askPrice askQuantity reply returns =>
    cases policy with
    | real =>
      rcases quote_cases c returns with ⟨_, -, -, rfl⟩ | ⟨-, v, trades, fills, done, -⟩
      · exact h
      · exact h.undated (quote_ticks returns).1 (fun s => (done.effect.registered s).mpr) done.older
    | tiered =>
      obtain ⟨-, rfl⟩ := quote_tiered hp returns
      exact h
  | expireDayOrdersAt _ today keys visits returns =>
    have ends := day_ends c visits returns
    refine h.expired c returns ?_
    intro key mem r' recorded
    rw [visits.mem_iff, mem_expired] at mem
    rw [ends.record, if_pos mem] at recorded
    obtain ⟨r, -, rfl⟩ := Option.map_eq_some_iff.mp recorded
    exact lapse_ended r

theorem DatedRun.dated {e : Engine D} (run : DatedRun policy e days) : Dated e days := by
  induction run with
  | start =>
    constructor
    · intro s id r recorded
      cases recorded
    · intro s id day entry
      cases entry
  | step run step ih =>
    obtain ⟨c, hp⟩ := reachable_coherent run.reachable
    exact ih.step c hp step

/-- Active orders are dated; the end of a day expires those of earlier days and
nothing else, once. -/
theorem day_orders_expire {e : Engine D} (run : DatedRun policy e days) :
    (∀ s id r, e.order s id = some r → r.state.isActive →
      ∃ day, days s id = some day ∧ HashMap.get? e.orderDates (s, id) = some day) ∧
    ∀ today keys, keys.Perm (e.expired today) →
      (∀ e', e.expireDayOrdersAt keys = .ok e' → DayEnds e e' today ∧
        ∀ keys', keys'.Perm (e'.expired today) → e'.expireDayOrdersAt keys' = .ok e') ∧
      (ExactDecimal D → ∀ p, e.expireDayOrdersAt keys = .error p → Tolerable p) := by
  obtain ⟨c, -⟩ := reachable_coherent run.reachable
  refine ⟨run.dated.entries, ?_⟩
  intro today keys visits
  constructor
  · intro e' returns
    have ends := day_ends c visits returns
    exact ⟨ends, fun keys' again => ends.idle returns again⟩
  · intro _ p
    exact ((published_market_data run.reachable).2 _ _
      (.expireDayOrdersAt e today keys visits)).fails p

end Lawful

/-- An order of day 1 that has traded, one of day 2 and a quote. -/
def datedOrders : List (Command ℚ) := [
  .createInstrument "AAA", .registerSession "a", .registerSession "b",
  .createOrder 1 "a" ⟨1, 1, .sell, .limit, 10, 5⟩,
  .createOrder 1 "b" ⟨1, 1, .buy, .limit, 10, 3⟩,
  .createOrder 2 "a" ⟨2, 1, .sell, .limit, 10, 1⟩,
  .quote "b" 1 8 1 11 1]

theorem day_orders_expire_sample : (played .real datedOrders).expired 2 = [("b", 1), ("a", 1)] ∧
    ∃ days e', DatedRun .real (played .real datedOrders) days ∧
      (played .real datedOrders).expireDayOrdersAt [("b", 1), ("a", 1)] = .ok e' ∧
      DayEnds (played .real datedOrders) e' 2 := by
  have overdue : (played .real datedOrders).expired 2 = [("b", 1), ("a", 1)] := by decide +kernel
  refine ⟨overdue, ?_⟩
  obtain ⟨days, run⟩ := Reachable.dated (played_reachable .real datedOrders)
  have ran : ((played .real datedOrders).expireDayOrdersAt [("b", 1), ("a", 1)]).toBool = true := by
    decide +kernel
  cases returns : (played .real datedOrders).expireDayOrdersAt [("b", 1), ("a", 1)] with
  | error p =>
    rw [returns] at ran
    cases ran
  | ok e' =>
    have visits : [("b", 1), ("a", 1)].Perm ((played .real datedOrders).expired 2) := by
      rw [overdue]
    exact ⟨days, e', run, rfl, (((day_orders_expire run).2 2 _ visits).1 e' returns).1⟩

end Engine

end RustTrader
