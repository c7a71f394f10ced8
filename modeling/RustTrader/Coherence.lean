import RustTrader.TieredEffects

/-!
# Books and sessions agree

Every command keeps the mirror coherent, so every reachable engine is. Read
back on the engine's own maps this says where each order rests, and that a
lookup of an active order in its book cannot fail.
-/

namespace RustTrader

open Decimal

namespace Engine

variable {D : Type} [Decimal D]

/-- An order stands in a book, in the level under a price key, at a priority. -/
def RestsAt (e : Engine D) (i : Int) (side : Side) (key : D) (priority : Int) (o : Order D) :
    Prop :=
  ∃ book level, HashMap.get? e.books i = some book ∧ (book.levels side).get? key = some level ∧
    level.orders.get? priority = some o

theorem mem_of_restsAt {e : Engine D} {i : Int} {side : Side} {key : D} {priority : Int}
    {o : Order D} (h : e.RestsAt i side key priority o) : o ∈ e.view.queue i side := by
  obtain ⟨book, level, hb, hl, ho⟩ := h
  have hbook : e.book i = book := by rw [Engine.book, hb]; rfl
  change o ∈ (e.book i).queue side
  rw [hbook]
  exact Levels.mem_queue.mpr ⟨key, level, hl, PriceLevel.mem_queue.mpr ⟨priority, ho⟩⟩

theorem restsAt_of_mem {e : Engine D} {i : Int} {side : Side} {o : Order D}
    (filed : OrderBook.Filed Order.price (e.book i)) (h : o ∈ e.view.queue i side) :
    ∃ priority, e.RestsAt i side o.price priority o := by
  have h : o ∈ (e.book i).queue side := h
  cases hb : HashMap.get? e.books i with
  | none =>
    have empty : e.book i = OrderBook.new i := by rw [book, hb]; rfl
    rw [empty] at h
    simp at h
  | some book =>
    have hbook : e.book i = book := by rw [Engine.book, hb]; rfl
    rw [hbook] at h filed
    obtain ⟨level, hl, ho⟩ := (filed.wf side).get_of_mem h
    obtain ⟨priority, hp⟩ := PriceLevel.mem_queue.mp ho
    exact ⟨priority, book, level, hb, hl, hp⟩

/-- Where an order stands is determined by the order. -/
theorem restsAt_unique {e : Engine D} {i : Int} {side : Side} {key key' : D}
    {priority priority' : Int} {o : Order D}
    (filed : OrderBook.Filed Order.price (e.book i)) (h : e.RestsAt i side key priority o)
    (h' : e.RestsAt i side key' priority' o) :
    key = o.price ∧ key' = key ∧ priority' = priority := by
  obtain ⟨book, level, hb, hl, ho⟩ := h
  obtain ⟨book', level', hb', hl', ho'⟩ := h'
  obtain rfl := Option.some.inj (hb.symm.trans hb')
  have hbook : e.book i = book := by rw [Engine.book, hb]; rfl
  rw [hbook] at filed
  have wf := filed.wf side
  have hkey := wf.filed key level hl o (PriceLevel.mem_queue.mpr ⟨priority, ho⟩)
  have hkey' := wf.filed key' level' hl' o (PriceLevel.mem_queue.mpr ⟨priority', ho'⟩)
  subst hkey hkey'
  obtain rfl := Option.some.inj (hl.symm.trans hl')
  exact ⟨rfl, rfl, (wf.level _ level hl).key_unique ho' ho rfl⟩

theorem view_createInstrument (e : Engine D) (symbol : String) :
    (e.createInstrument symbol).2.view = e.view ∧
      (e.createInstrument symbol).2.sessions = e.sessions ∧
      (e.createInstrument symbol).2.sent = e.sent ∧
      (e.createInstrument symbol).2.fillPolicy = e.fillPolicy := by
  unfold createInstrument
  cases e.instruments.getBySymbol symbol <;> exact ⟨rfl, rfl, rfl, rfl⟩

theorem order_unregistered {e : Engine D} {s : String} (h : ¬ e.Registered s) (id : OrderId) :
    e.order s id = none := by
  cases hr : e.order s id with
  | none => rfl
  | some r => exact absurd (registered_of_order hr) h

theorem order_registerSession {e : Engine D} {s : String} (fresh : ¬ e.Registered s) :
    (e.registerSession s).order = e.order := by
  funext s' id
  by_cases h : s' = s
  · subst h
    rw [order_unregistered fresh]
    simp [order, registerSession]
  · simp [order, registerSession, SortedMap.get?_insert_ne, h]

theorem view_registerSession {e : Engine D} {s : String} (fresh : ¬ e.Registered s) :
    (e.registerSession s).view = e.view := by
  have legs : (e.registerSession s).leg = e.leg := by
    funext s' i side
    by_cases h : s' = s
    · subst h
      cases hl : e.leg s' i side with
      | some l => exact absurd (registered_of_leg hl) fresh
      | none => simp [leg, pair, registerSession]
    · simp [leg, pair, registerSession, SortedMap.get?_insert_ne, h]
  unfold view
  rw [order_registerSession fresh, legs]
  rfl

theorem quote_tiered {e e' : Engine D} (policy : e.fillPolicy = .tiered) {s : String} {i : Int}
    {bidPrice bidQuantity askPrice askQuantity : D} {reply : Except EngineError Unit}
    (h : e.quote s i bidPrice bidQuantity askPrice askQuantity = .ok (reply, e')) :
    reply = .error .quoteNotSupportedInTiered ∧ e' = e := by
  unfold quote checkQuote at h
  rw [if_pos policy] at h
  cases h
  exact ⟨rfl, rfl⟩

/-- One command keeps the mirror coherent. -/
theorem step_coherent [LawfulDecimal D] {policy : FillPolicy} {e e' : Engine D}
    {command : Command D} (c : Coherent policy e.view none) (hp : e.fillPolicy = policy)
    (h : Step e command e') : Coherent policy e'.view none ∧ e'.fillPolicy = policy := by
  cases h with
  | createInstrument symbol =>
    obtain ⟨hv, -, -, hf⟩ := view_createInstrument e symbol
    rw [hv, hf]
    exact ⟨c, hp⟩
  | registerSession s fresh =>
    rw [view_registerSession fresh]
    exact ⟨c, hp⟩
  | sessionDisconnect _ s orders quotes visits returns =>
    obtain ⟨departed, c'⟩ := sessionDisconnect_spec c visits returns
    exact ⟨c', departed.fillPolicy.trans hp⟩
  | createOrder _ today s new reply returns =>
    cases policy with
    | real =>
      rcases createReal_cases c hp returns with ⟨err, -, -, rfl⟩ | ⟨-, _, _, _, _, _, _, done⟩
      · exact ⟨c, hp⟩
      · rw [done.effect.view, done.effect.fillPolicy]
        exact ⟨done.added.coherent_after, hp⟩
    | tiered =>
      rcases createTiered_cases c hp returns with
        ⟨err, -, -, rfl⟩ | ⟨-, _, _, _, _, _, _, _, done⟩
      · exact ⟨c, hp⟩
      · exact ⟨done.worked.coherent, done.worked.effect.fillPolicy.trans hp⟩
  | modifyOrderWithType _ today s origId newId orderType price quantity reply returns =>
    cases policy with
    | real =>
      rcases modifyReal_cases c hp returns with
        ⟨⟨err, -, -, rfl⟩, -⟩ | ⟨-, _, _, _, _, _, k, done⟩
      · exact ⟨c, hp⟩
      · refine ⟨done.coherent c k, ?_⟩
        cases done with
        | exhausted _ _ effect => exact effect.fillPolicy.trans hp
        | matched _ _ _ _ _ _ _ _ _ effect => exact effect.fillPolicy.trans hp
    | tiered =>
      rcases modifyTiered_cases c hp returns with
        ⟨err, -, -, rfl⟩ | ⟨-, _, _, _, _, _, _, k, -, done⟩
      · exact ⟨c, hp⟩
      · refine ⟨done.coherent c k, ?_⟩
        cases done with
        | exhausted _ _ effect _ => exact effect.fillPolicy.trans hp
        | worked _ _ _ _ _ _ _ worked => exact worked.effect.fillPolicy.trans hp
  | cancelOrderWithId _ s origId clOrdId reply returns =>
    rcases cancel_cases c returns with ⟨err, -, -, rfl⟩ | ⟨-, entry, book', execId, done⟩
    · exact ⟨c, hp⟩
    · exact ⟨done.coherent c, done.effect.fillPolicy.trans hp⟩
  | quote _ s i bidPrice bidQuantity askPrice askQuantity reply returns =>
    cases policy with
    | real =>
      rcases quote_cases c returns with ⟨err, -, -, rfl⟩ | ⟨-, v, trades, fills, done, -⟩
      · exact ⟨c, hp⟩
      · rw [done.effect.view, done.effect.fillPolicy]
        exact ⟨done.coherent, hp⟩
    | tiered =>
      obtain ⟨-, rfl⟩ := quote_tiered hp returns
      exact ⟨c, hp⟩
  | expireDayOrdersAt _ today keys visits returns =>
    obtain ⟨same, c'⟩ := expire_run (R := fun e e' => e'.fillPolicy = e.fillPolicy)
      (fun _ => rfl) (fun _ _ _ h h' => h'.trans h) (fun _ _ effect => effect.fillPolicy)
      (fun _ _ _ _ _ _ _ _ done => done.effect.fillPolicy) keys c returns
    exact ⟨c', same.trans hp⟩

theorem view_withFillPolicy (policy : FillPolicy) :
    (withFillPolicy policy : Engine D).view =
      ⟨OrderBook.new, fun _ _ => none, fun _ _ _ => none, 0⟩ := by
  rfl

/-- Every reachable engine mirrors its books in its sessions. -/
theorem reachable_coherent [LawfulDecimal D] {policy : FillPolicy} {e : Engine D}
    (h : Reachable policy e) : Coherent policy e.view none ∧ e.fillPolicy = policy := by
  refine h.invariant (P := fun e => Coherent policy e.view none ∧ e.fillPolicy = policy) ?_ ?_
  · rw [view_withFillPolicy]
    exact ⟨Coherent.empty policy 0, rfl⟩
  · intro e command e' inv step
    exact step_coherent inv.1 inv.2 step

/-- Books and sessions hold the same orders, and active orders are found. -/
structure Mirrored (e : Engine D) : Prop where
  booked : ∀ i side key priority o, e.RestsAt i side key priority o → o.id ≠ quoteOrderId →
    e.Registered o.sessionId ∧ e.order o.sessionId o.id = some o
  recorded : ∀ s id r, e.order s id = some r → r.state.isActive →
    ∃ priority, e.RestsAt r.instrumentId r.side r.price priority r ∧
      ∀ i side key priority' o, e.RestsAt i side key priority' o → o.identity = (s, id) →
        i = r.instrumentId ∧ side = r.side ∧ key = r.price ∧ priority' = priority ∧ o = r
  quoted : ∀ i side key priority o, e.RestsAt i side key priority o → o.id = quoteOrderId →
    e.Registered o.sessionId ∧ ∃ pair leg, e.pair o.sessionId i = some pair ∧
      pair.leg side = some leg ∧ leg.side = o.side ∧ leg.price = o.price
  replaceable : ∀ s origId newId orderType price quantity entry,
    e.checkModify s origId newId orderType price quantity = .ok entry →
    ∀ result e', e.removeFromBook s origId entry.side entry.price entry.instrumentId =
      .ok (result, e') → ∃ removed, result = .ok removed
  cancellable : ∀ s origId clOrdId entry, e.checkCancel s origId clOrdId = .ok entry →
    ∀ result e', e.removeFromBook s origId entry.side entry.price entry.instrumentId =
      .ok (result, e') → ∃ removed, result = .ok removed

theorem books_mirror_sessions [LawfulDecimal D] {policy : FillPolicy} {e : Engine D}
    (h : Reachable policy e) : e.Mirrored := by
  have c := (reachable_coherent h).1
  constructor
  case booked =>
    intro i side key priority o rests hid
    have hr : e.order o.sessionId o.id = some o :=
      (c.owned i side o (mem_of_restsAt rests)).record hid
    exact ⟨registered_of_order hr, hr⟩
  case recorded =>
    intro s id r hr active
    have hm := c.mem_of_active hr active
    obtain ⟨hs, hid, hne⟩ := c.keyed s id r hr
    obtain ⟨priority, rests⟩ := restsAt_of_mem (c.filed r.instrumentId) hm
    refine ⟨priority, rests, ?_⟩
    intro i side key priority' o rests' same
    have key_eq : r.identity = o.identity := by
      rw [same, Order.identity, hs, hid]
    obtain ⟨rfl, rfl, rfl⟩ := c.place_unique hm (mem_of_restsAt rests') key_eq (hid ▸ hne)
    obtain ⟨-, hk, hp⟩ := restsAt_unique (c.filed r.instrumentId) rests rests'
    exact ⟨rfl, rfl, hk, hp, rfl⟩
  case quoted =>
    intro i side key priority o rests hid
    have hm := mem_of_restsAt rests
    have fit := c.fit i side o hm
    obtain ⟨leg, hleg, hside, hprice⟩ := (c.owned i side o hm).legged hid
    rw [fit.instrument, fit.side] at hleg
    have hleg : e.leg o.sessionId i side = some leg := hleg
    have found := hleg
    rw [Engine.leg, Option.bind_eq_some_iff] at found
    obtain ⟨pair, hpair, hl⟩ := found
    exact ⟨registered_of_leg hleg, pair, leg, hpair, hl, hside, hprice⟩
  case replaceable =>
    intro s origId newId orderType price quantity entry hcheck result e' hremove
    obtain ⟨hr, active, -⟩ := checkModify_ok hcheck
    obtain ⟨book', hresult, -⟩ := removeFromBook_active c hr active hremove
    exact ⟨_, hresult⟩
  case cancellable =>
    intro s origId clOrdId entry hcheck result e' hremove
    obtain ⟨hr, active, -⟩ := checkCancel_ok hcheck
    obtain ⟨book', hresult, -⟩ := removeFromBook_active c hr active hremove
    exact ⟨_, hresult⟩

/-- Two sessions, a partial fill, a quote over it, and a replacement. -/
def sampleRun : List (Command ℚ) := [
  .createInstrument "AAA", .registerSession "a", .registerSession "b",
  .createOrder 1 "a" ⟨1, 1, .sell, .limit, 10, 5⟩,
  .createOrder 1 "b" ⟨7, 1, .buy, .limit, 10, 3⟩,
  .quote "b" 1 9 4 11 4,
  .modifyOrderWithType 1 "a" 1 2 .limit 9 6]

theorem books_mirror_sessions_sample : (played .real sampleRun).Mirrored ∧
    ((played .real sampleRun).order "a" 2).isSome = true :=
  ⟨books_mirror_sessions (played_reachable .real sampleRun), by decide +kernel⟩

end Engine

end RustTrader
