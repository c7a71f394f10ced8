import RustTrader.Assertions
import RustTrader.Executions
import RustTrader.Expiry

/-!
# Disconnection

A session that disconnects takes its own orders out of the books and nothing
else. The removal finds every order, wherever its owner's copy says it rests,
and nothing foreign; the totals of the levels lose what was removed from them.
-/

namespace RustTrader

open Decimal

variable {D : Type} [Decimal D]

/-- Some orders of a session have left the levels of a side, and their open
quantities the totals. -/
def Levels.Trims (s : String) (levels levels' : Levels D) : Prop :=
  ∀ price level', levels'.get? price = some level' → ∃ level removed,
    levels.get? price = some level ∧ (∀ o ∈ removed, o.sessionId = s) ∧
      level'.queue.Sublist level.queue ∧ (removed ++ level'.queue).Perm level.queue ∧
      removed.foldlM (fun total o => sub total o.remaining) level.total = .ok level'.total

namespace Levels.Trims

variable {s : String} {levels levels' levels'' : Levels D}

theorem refl (s : String) (levels : Levels D) : Trims s levels levels := by
  intro price level h
  exact ⟨level, [], h, nofun, .refl _, .refl _, rfl⟩

theorem trans (h : Trims s levels levels') (h' : Trims s levels' levels'') :
    Trims s levels levels'' := by
  intro price level'' found
  obtain ⟨level', last, found', mine', kept', perm', total'⟩ := h' price level'' found
  obtain ⟨level, first, found, mine, kept, perm, total⟩ := h price level' found'
  refine ⟨level, first ++ last, found, ?_, kept'.trans kept, ?_, ?_⟩
  · intro o ho
    exact (List.mem_append.mp ho).elim (mine o) (mine' o)
  · rw [List.append_assoc]
    exact (perm'.append_left first).trans perm
  · rw [List.foldlM_append, total]
    exact total'

/-- One order has left one level. -/
theorem of_removed {keyOf : Order D → D} (wf : WF keyOf levels) {price : D}
    {level level' : PriceLevel D} (found : levels.get? price = some level) {id : OrderId}
    {o : Order D} (h : level.remove s id = .ok (some (o, level'))) :
    Trims s levels (OrderBook.storeLevel levels price level') := by
  have wf' := wf.level price level found
  have removed := (PriceLevel.remove_spec wf' h).2 o level' rfl
  have located := (PriceLevel.remove_spec wf' h).1.symm
  obtain ⟨-, hid⟩ := wf'.locate_some.mp located
  obtain ⟨front, back, before, after⟩ := removed.queue
  intro p l found'
  have one : ∀ l, l = level' → ∃ level removed, levels.get? price = some level ∧
      (∀ o ∈ removed, o.sessionId = s) ∧ l.queue.Sublist level.queue ∧
      (removed ++ l.queue).Perm level.queue ∧
      removed.foldlM (fun total o => sub total o.remaining) level.total = .ok l.total := by
    rintro l rfl
    refine ⟨level, [o], found, ?_, ?_, ?_, ?_⟩
    · intro x hx
      rw [List.mem_singleton.mp hx]
      exact (Prod.mk.inj hid).1
    · rw [before, after]
      exact (List.Sublist.refl front).append (List.sublist_cons_self o back)
    · rw [before, after]
      rw [List.singleton_append]
      exact List.perm_middle.symm
    · rw [List.foldlM_cons, removed.total]
      rfl
  unfold OrderBook.storeLevel at found'
  split at found'
  · rw [SortedMap.get?_erase] at found'
    split at found'
    · cases found'
    · exact refl s levels p l found'
  · rw [SortedMap.get?_insert] at found'
    split at found'
    · rename_i same
      rw [same]
      exact one l (Option.some.inj found').symm
    · exact refl s levels p l found'

end Levels.Trims

theorem OrderBook.remove_trims {keyOf : Order D → D} {book book' : OrderBook D}
    (filed : Filed keyOf book) {s : String} {id : OrderId} {side : Side} {price : D}
    {removed : Order D} (h : book.remove s id side price = .ok (some (removed, book')))
    (side' : Side) : Levels.Trims s (book.levels side') (book'.levels side') := by
  unfold remove at h
  cases found : (book.levels side).get? price with
  | none =>
    rw [found] at h
    cases h
  | some level =>
    rw [found] at h
    obtain ⟨result, hremoved, h⟩ := Exec.bind_ok.mp h
    cases result with
    | none => cases h
    | some pair =>
      obtain ⟨o, level'⟩ := pair
      cases h
      by_cases same : side' = side
      · subst same
        rw [levels_setLevels]
        exact .of_removed (filed.wf side') found hremoved
      · rw [levels_setLevels_ne _ _ same]
        exact .refl s _

namespace Engine

/-- Orders of a session have left the books. -/
structure Clears (s : String) (e e' : Engine D) : Prop where
  filed : ∀ i, OrderBook.Filed Order.price (e'.book i)
  sheds : Sheds (fun _ _ o => o.sessionId = s) e e'
  trims : ∀ i side, Levels.Trims s ((e.book i).levels side) ((e'.book i).levels side)

/-- What a part of a disconnection does. -/
structure Withdraws (s : String) (e e' : Engine D) : Prop where
  rest : BookSide e e'
  traded : e'.traded = e.traded
  clears : (∀ i, OrderBook.Filed Order.price (e.book i)) → Clears s e e'

namespace Withdraws

variable {s : String} {e e' e'' : Engine D}

theorem of_book (rest : BookSide e e') (traded : e'.traded = e.traded) (same : e'.book = e.book) :
    Withdraws s e e' := by
  refine ⟨rest, traded, fun filed => ⟨?_, .of_book same, ?_⟩⟩
  · rw [same]
    exact filed
  · intro i side
    rw [same]
    exact .refl s _

theorem refl (s : String) (e : Engine D) : Withdraws s e e := of_book (.refl e) rfl rfl

theorem trans (h : Withdraws s e e') (h' : Withdraws s e' e'') : Withdraws s e e'' := by
  refine ⟨h.rest.trans h'.rest, h'.traded.trans h.traded, fun filed => ?_⟩
  have first := h.clears filed
  have second := h'.clears first.filed
  exact ⟨second.filed, first.sheds.trans second.sheds,
    fun i side => (first.trims i side).trans (second.trims i side)⟩

theorem recorded {i : Int} (h : e.recordMarketData i [] = .ok e') : Withdraws s e e' :=
  of_book (recordMarketData_quiet h).bookSide (recordMarketData_traded h)
    (recordMarketData_quiet h).book

theorem published (h : e.publishMarketData = .ok e') : Withdraws s e e' :=
  of_book (publishMarketData_quiet h).bookSide (publishMarketData_traded h)
    (publishMarketData_quiet h).book

theorem removed {id : OrderId} {side : Side} {price : D} {i : Int}
    {result : Except EngineError (Order D)}
    (h : e.removeFromBook s id side price i = .ok (result, e')) : Withdraws s e e' := by
  have run := h
  unfold removeFromBook at h
  cases hb : HashMap.get? e.books i with
  | none =>
    rw [hb] at h
    cases h
    exact refl s e
  | some b =>
    rw [hb] at h
    obtain ⟨removed, hremove, h⟩ := Exec.bind_ok.mp h
    cases removed with
    | none =>
      cases h
      exact refl s e
    | some pair =>
      obtain ⟨o, b'⟩ := pair
      cases h
      have here : e.book i = b := by rw [book, hb]; rfl
      refine ⟨⟨rfl⟩, rfl, fun filed => ⟨?_, ?_, ?_⟩⟩
      · rcases removeFromBook_cases (filed i) run with ⟨same, -⟩ | ⟨x, b1, -, same, -, -, -, left⟩
        · cases same
        intro j
        rw [same, book_setBook]
        by_cases hj : j = i
        · subst hj
          rw [Function.update_self]
          exact left.filed
        · rw [Function.update_of_ne hj]
          exact filed j
      · refine (removeFromBook_sheds (filed i) run).mono ?_
        rintro _ _ x ⟨-, -, same⟩
        exact (Prod.mk.inj same).1
      · intro j side'
        rw [book_setBook]
        by_cases hj : j = i
        · subst hj
          rw [Function.update_self, here]
          exact OrderBook.remove_trims (here ▸ filed j) hremove side'
        · rw [Function.update_of_ne hj]
          exact .refl s _

theorem disconnected {orders : List (OrderId × Order D)} {quotes : List (Int × QuotePair D)}
    (h : e.sessionDisconnect s orders quotes = .ok e') :
    (e' = e ∧ e.sessions.get? s = none) ∨ (e.Registered s ∧ Withdraws s (e.without s) e') := by
  unfold sessionDisconnect at h
  cases hs : e.sessions.get? s with
  | none =>
    rw [hs] at h
    cases h
    exact .inl ⟨rfl, rfl⟩
  | some session =>
    rw [hs] at h
    refine .inr ⟨⟨session, hs⟩, ?_⟩
    obtain ⟨e1, horders, h⟩ := Exec.bind_ok.mp h
    obtain ⟨e2, hquotes, hpublish⟩ := Exec.bind_ok.mp h
    have first : Withdraws s (e.without s) e1 := by
      refine foldlM_relates (refl s) (fun _ _ _ => trans) ?_ orders horders
      intro e entry e' h
      obtain ⟨⟨result, mid⟩, hremove, hrecord⟩ := Exec.bind_ok.mp h
      exact (removed hremove).trans (recorded hrecord)
    have second : Withdraws s e1 e2 := by
      refine foldlM_relates (refl s) (fun _ _ _ => trans) ?_ quotes hquotes
      intro e entry e' h
      obtain ⟨mid, hdrop, hrecord⟩ := Exec.bind_ok.mp h
      refine trans ?_ (recorded hrecord)
      refine foldlM_relates (refl s) (fun _ _ _ => trans) ?_ _ hdrop
      intro e leg e' h
      obtain ⟨⟨result, mid⟩, hremove, h⟩ := Exec.bind_ok.mp h
      cases h
      exact removed hremove
    exact (first.trans second).trans (published hpublish)

end Withdraws

/-- The levels of a side without the orders of a session. -/
structure LevelsLeft (s : String) (levels levels' : Levels D) : Prop where
  gone : ∀ price, levels'.get? price = none ↔
    ∀ level, levels.get? price = some level → ∀ o ∈ level.queue, o.sessionId = s
  left : ∀ price level', levels'.get? price = some level' →
    ∃ (level : PriceLevel D) (removed : List (Order D)), levels.get? price = some level ∧
      level'.queue = level.queue.filter (fun o => o.sessionId ≠ s) ∧
      removed.Perm (level.queue.filter (fun o => o.sessionId = s)) ∧
      removed.foldlM (fun total o => sub total o.remaining) level.total = .ok level'.total

/-- What a disconnection leaves: nothing of the session, and all the rest. -/
structure SessionLeaves (e e' : Engine D) (s : String) : Prop where
  books : ∀ i side, (e'.book i).queue side =
    ((e.book i).queue side).filter (fun o => o.sessionId ≠ s)
  levels : ∀ i side, LevelsLeft s ((e.book i).levels side) ((e'.book i).levels side)
  record : ∀ s' id, e'.order s' id = if s' = s then none else e.order s' id
  pair : ∀ s' i, e'.pair s' i = if s' = s then none else e.pair s' i
  dates : ∀ s' id, HashMap.get? e'.orderDates (s', id) =
    if s' = s then none else HashMap.get? e.orderDates (s', id)
  registered : ∀ s', e'.Registered s' ↔ e.Registered s' ∧ s' ≠ s
  sent : e'.sent = e.sent
  traded : e'.traded = e.traded

/-- The levels, once the queue of their side is known. -/
theorem levels_left {s : String} {book book' : OrderBook D}
    (filed : OrderBook.Filed Order.price book) (filed' : OrderBook.Filed Order.price book')
    {side : Side} (same : book'.queue side = (book.queue side).filter (fun o => o.sessionId ≠ s))
    (trims : Levels.Trims s (book.levels side) (book'.levels side)) :
    LevelsLeft s (book.levels side) (book'.levels side) := by
  have foreign : ∀ {price : D} {level' : PriceLevel D},
      (book'.levels side).get? price = some level' → ∀ o ∈ level'.queue, o.sessionId ≠ s := by
    intro price level' found o ho
    have mem : o ∈ book'.queue side := Levels.mem_queue.mpr ⟨price, level', found, ho⟩
    rw [same] at mem
    exact of_decide_eq_true (List.mem_filter.mp mem).2
  constructor
  · intro price
    constructor
    · intro absent level found o ho
      by_contra other
      have mem : o ∈ book.queue side := Levels.mem_queue.mpr ⟨price, level, found, ho⟩
      have mem' : o ∈ book'.queue side := by
        rw [same]
        exact List.mem_filter.mpr ⟨mem, decide_eq_true other⟩
      obtain ⟨price', level', found', ho'⟩ := Levels.mem_queue.mp mem'
      have here := (filed.wf side).filed price level found o ho
      have there := (filed'.wf side).filed price' level' found' o ho'
      rw [← there, here, absent] at found'
      cases found'
    · intro all
      cases found' : (book'.levels side).get? price with
      | none => rfl
      | some level' =>
        obtain ⟨level, removed, found, -, kept, -⟩ := trims price level' found'
        obtain ⟨o, rest, hq⟩ := List.exists_cons_of_ne_nil
          ((filed'.wf side).nonempty price level' found')
        have mem : o ∈ level'.queue := by simp [hq]
        exact absurd (all level found o (kept.subset mem)) (foreign found' o mem)
  · intro price level' found'
    obtain ⟨level, removed, found, mine, kept, perm, total⟩ := trims price level' found'
    have others := foreign found'
    have none_ : removed.filter (fun o => o.sessionId ≠ s) = [] :=
      List.filter_eq_nil_iff.mpr (fun o ho => by simp [mine o ho])
    have all_ : removed.filter (fun o => o.sessionId = s) = removed :=
      List.filter_eq_self.mpr (fun o ho => by simp [mine o ho])
    have stays : level'.queue.filter (fun o => o.sessionId ≠ s) = level'.queue :=
      List.filter_eq_self.mpr (fun o ho => by simp [others o ho])
    have leaves : level'.queue.filter (fun o => o.sessionId = s) = [] :=
      List.filter_eq_nil_iff.mpr (fun o ho => by simp [others o ho])
    refine ⟨level, removed, found, ?_, ?_, total⟩
    · have kept' := kept.filter (fun o => decide (o.sessionId ≠ s))
      have perm' := perm.filter (fun o => decide (o.sessionId ≠ s))
      rw [List.filter_append, none_, List.nil_append] at perm'
      rw [← kept'.eq_of_length perm'.length_eq, stays]
    · have perm' := perm.filter (fun o => decide (o.sessionId = s))
      rw [List.filter_append, all_, leaves, List.append_nil] at perm'
      exact perm'

section Lawful

variable [LawfulDecimal D] {policy : FillPolicy}

omit [LawfulDecimal D] in
/-- Without a record and without a pair a session has nothing in the books. -/
theorem rests_nowhere {e : Engine D} (c : Coherent policy e.view none) {s : String}
    (records : ∀ id, e.order s id = none) (pairs : ∀ i, e.pair s i = none) {i : Int} {side : Side}
    {o : Order D} (ho : o ∈ (e.book i).queue side) : o.sessionId ≠ s := by
  rintro rfl
  have owned := c.owned i side o ho
  by_cases quoted : o.id = quoteOrderId
  · obtain ⟨l, hleg, -⟩ := owned.legged quoted
    have none_ : e.leg o.sessionId o.instrumentId o.side = none := by
      unfold Engine.leg
      rw [pairs]
      rfl
    cases none_.symm.trans hleg
  · cases (records o.id).symm.trans (owned.record quoted)

theorem session_leaves {e e' : Engine D} (h : Reachable policy e) {s : String}
    {orders : List (OrderId × Order D)} {quotes : List (Int × QuotePair D)}
    (visits : ∀ session, e.sessions.get? s = some session → Visits session orders quotes)
    (returns : e.sessionDisconnect s orders quotes = .ok e') : SessionLeaves e e' s := by
  obtain ⟨c, -⟩ := reachable_coherent h
  obtain ⟨days, run⟩ := Reachable.dated h
  obtain ⟨departed, c'⟩ := sessionDisconnect_spec c visits returns
  rcases Withdraws.disconnected returns with ⟨rfl, absent⟩ | ⟨registered, withdraws⟩
  · have unregistered : ¬ e'.Registered s := by
      rintro ⟨session, hs⟩
      cases absent.symm.trans hs
    have pairs : ∀ i, e'.pair s i = none := fun i => by rw [pair, absent]; rfl
    have records : ∀ id, e'.order s id = none := by
      intro id
      rw [departed.record, if_pos rfl]
    have same : ∀ i side, (e'.book i).queue side =
        ((e'.book i).queue side).filter (fun o => o.sessionId ≠ s) := fun i side =>
      (List.filter_eq_self.mpr
        (fun o ho => decide_eq_true (rests_nowhere c records pairs ho))).symm
    refine ⟨same, fun i side => levels_left (c.filed i) (c.filed i) (same i side) (.refl s _),
      departed.record, ?_, ?_, departed.registered, rfl, rfl⟩
    · intro s' i
      by_cases h : s' = s
      · rw [if_pos h, h, pairs]
      · rw [if_neg h]
    · intro s' id
      by_cases h : s' = s
      · rw [if_pos h, h, Option.eq_none_iff_forall_ne_some]
        exact fun day entry => unregistered (run.dated.owners s id day entry)
      · rw [if_neg h]
  · have rest := withdraws.rest.rest
    have sessions : e'.sessions = e.sessions.erase s := by rw [rest]; rfl
    have dates : e'.orderDates = HashMap.retain e.orderDates (fun key => !decide (key.1 = s)) := by
      rw [rest]
      rfl
    have pairs : ∀ s' i, e'.pair s' i = if s' = s then none else e.pair s' i :=
      pair_erased sessions
    have clears := withdraws.clears (fun i => c.filed i)
    have records : ∀ id, e'.order s id = none := fun id => by rw [departed.record, if_pos rfl]
    have same : ∀ i side, (e'.book i).queue side =
        ((e.book i).queue side).filter (fun o => o.sessionId ≠ s) := by
      intro i side
      refine clears.sheds.filter (fun o => by rw [decide_eq_true_eq]) ?_
      intro o ho
      exact rests_nowhere c' records (fun i => by rw [pairs, if_pos rfl]) ho
    refine ⟨same, fun i side => levels_left (c.filed i) (clears.filed i) (same i side)
      (clears.trims i side), departed.record, pairs, ?_, departed.registered, departed.sent,
      withdraws.traded⟩
    intro s' id
    rw [dates, HashMap.get?_retain]
    by_cases h : s' = s
    · simp [h]
    · simp [h]

/-- Once a session has disconnected it may come back, and nothing that is then
submitted runs into a duplicate. -/
theorem session_returns {e' : Engine D} (h : Reachable policy e') {s : String}
    (fresh : ¬ e'.Registered s) {f : Engine D}
    (run : RunWith (fun _ _ => True) (e'.registerSession s) f) :
    (∀ command x, Outcome f command x → x ≠ .error .duplicateOrder) ∧
      ∀ today new err f', f.createOrder today s new = .ok (.error err, f') → err.External := by
  have reachable : Reachable policy f :=
    (h.tail ⟨_, trivial, .registerSession e' s fresh⟩).trans run
  refine ⟨fun command x outcome => (never_duplicate reachable outcome).avoids, ?_⟩
  intro today new err f' refused
  exact (create_refused reachable refused).1

/-- A disconnection takes exactly the orders of its session. -/
theorem disconnect_removes_own {e : Engine D} (h : Reachable policy e) {s : String}
    {orders : List (OrderId × Order D)} {quotes : List (Int × QuotePair D)}
    (visits : ∀ session, e.sessions.get? s = some session → Visits session orders quotes) :
    (∀ e', e.sessionDisconnect s orders quotes = .ok e' →
      SessionLeaves e e' s ∧
      (∀ i side, ∀ o ∈ (e'.book i).queue side, o.sessionId ≠ s) ∧
      (ExactDecimal D → ∀ i snap snap', e.marketData.snapshot i = some snap →
        e'.marketData.snapshot i = some snap' → snap'.stats.traded = snap.stats.traded) ∧
      Step e' (.registerSession s) (e'.registerSession s) ∧
      ∀ f, RunWith (fun _ _ => True) (e'.registerSession s) f →
        (∀ command x, Outcome f command x → x ≠ .error .duplicateOrder) ∧
        ∀ today new err f', f.createOrder today s new = .ok (.error err, f') → err.External) ∧
    (ExactDecimal D → ∀ p, e.sessionDisconnect s orders quotes = .error p → Tolerable p) := by
  constructor
  · intro e' returns
    have leaves := session_leaves h visits returns
    have step : Step e (.sessionDisconnect s) e' :=
      .sessionDisconnect _ _ s orders quotes visits returns
    have reached : Reachable policy e' := h.tail ⟨_, trivial, step⟩
    have fresh : ¬ e'.Registered s := fun registered => ((leaves.registered s).mp registered).2 rfl
    refine ⟨leaves, ?_, ?_, .registerSession e' s fresh,
      fun f run => session_returns reached fresh run⟩
    · intro i side o ho
      rw [leaves.books] at ho
      exact of_decide_eq_true (List.mem_filter.mp ho).2
    · intro _ i snap snap' hsnap hsnap'
      obtain ⟨tape, taped⟩ := reachable_taped h
      obtain ⟨tape', taped'⟩ := reachable_taped reached
      rw [taped.figures.shown i snap hsnap, taped'.figures.shown i snap' hsnap', leaves.traded]
  · intro _ p
    exact ((published_market_data h).2 _ _ (.sessionDisconnect e s orders quotes visits)).fails p

end Lawful

/-- Two sessions share a level; one of them also quotes and has a filled order. -/
def sharedLevel : List (Command ℚ) := [
  .createInstrument "AAA", .registerSession "a", .registerSession "b",
  .createOrder 1 "b" ⟨1, 1, .sell, .limit, 10, 5⟩,
  .createOrder 1 "a" ⟨1, 1, .sell, .limit, 10, 3⟩,
  .createOrder 1 "b" ⟨2, 1, .sell, .limit, 10, 2⟩,
  .createOrder 1 "b" ⟨3, 1, .buy, .market, 0, 1⟩,
  .quote "b" 1 8 1 10 4]

theorem disconnect_removes_own_sample : ∃ session e',
    (played .real sharedLevel).sessions.get? "b" = some session ∧
    (HashMap.pairs session.orders).length = 3 ∧ (HashMap.pairs session.quotes).length = 1 ∧
    (played .real sharedLevel).sessionDisconnect "b" (HashMap.pairs session.orders)
      (HashMap.pairs session.quotes) = .ok e' ∧
    SessionLeaves (played .real sharedLevel) e' "b" ∧
    ∀ side, ∀ o ∈ (e'.book 1).queue side, o.sessionId ≠ "b" := by
  have known : ((played .real sharedLevel).sessions.get? "b").isSome = true := by decide +kernel
  have sizes : (((played .real sharedLevel).sessions.get? "b").map fun session =>
      ((HashMap.pairs session.orders).length, (HashMap.pairs session.quotes).length)) =
      some (3, 1) := by decide +kernel
  have ran : (((played .real sharedLevel).sessions.get? "b").map fun session =>
      ((played .real sharedLevel).sessionDisconnect "b" (HashMap.pairs session.orders)
        (HashMap.pairs session.quotes)).toBool) = some true := by decide +kernel
  obtain ⟨session, found⟩ := Option.isSome_iff_exists.mp known
  rw [found, Option.map_some, Option.some.injEq] at ran sizes
  obtain ⟨orders, quotes⟩ := Prod.mk.inj sizes
  have visits : ∀ other, (played .real sharedLevel).sessions.get? "b" = some other →
      Visits other (HashMap.pairs session.orders) (HashMap.pairs session.quotes) := by
    intro other same
    obtain rfl := Option.some.inj (found.symm.trans same)
    exact ⟨.refl _, .refl _⟩
  cases returns : (played .real sharedLevel).sessionDisconnect "b" (HashMap.pairs session.orders)
      (HashMap.pairs session.quotes) with
  | error p =>
    rw [returns] at ran
    cases ran
  | ok e' =>
    obtain ⟨leaves, gone, -⟩ :=
      (disconnect_removes_own (played_reachable .real sharedLevel) visits).1 e' returns
    exact ⟨session, e', found, orders, quotes, returns, leaves, gone 1⟩

end Engine

end RustTrader
