import RustTrader.TieredEffects

/-!
# Orders a book cannot tell apart

Twins agree in everything a book looks at, and may differ in what was asked for and
executed of them before. Whatever the book does with one of them it does with the other:
the same trades with the same orders, the same place in the queue, the same fills of a
plan.
-/

namespace RustTrader

variable {D : Type} [Decimal D]

/-- Orders with the same identity, place and open quantity. -/
structure Order.Twin (o o' : Order D) : Prop where
  identity : o.identity = o'.identity
  instrumentId : o.instrumentId = o'.instrumentId
  side : o.side = o'.side
  orderType : o.orderType = o'.orderType
  price : o.orderType = .limit → o.price = o'.price
  remaining : o.remaining = o'.remaining
  active : o.state.isActive = o'.state.isActive

/-- What an order shows in its queue. -/
def Order.shelf (o : Order D) : (String × OrderId) × D × D := (o.identity, o.price, o.remaining)

/-- The same order, unless it is the one of an identity. -/
structure Order.Alike (key : String × OrderId) (o o' : Order D) : Prop where
  twin : o.Twin o'
  same : o.identity ≠ key → o = o'

/-- The same trade, but for the order of an identity. -/
structure RawTrade.Alike (key : String × OrderId) (t t' : RawTrade D) : Prop where
  price : t.price = t'.price
  quantity : t.quantity = t'.quantity
  buyer : t.buyer.Alike key t'.buyer
  seller : t.seller.Alike key t'.seller

namespace Order

variable {o o' a a' : Order D} {key : String × OrderId}

omit [Decimal D] in
theorem Twin.refl (o : Order D) : o.Twin o := ⟨rfl, rfl, rfl, rfl, fun _ => rfl, rfl, rfl⟩

theorem Twin.effectivePrice (h : o.Twin o') : o.effectivePrice = o'.effectivePrice := by
  unfold Order.effectivePrice
  rw [← h.orderType, ← h.side]
  cases kind : o.orderType with
  | market => rfl
  | limit => exact h.price kind

omit [Decimal D] in
theorem Twin.shelf (h : o.Twin o') (price : o.price = o'.price) : o.shelf = o'.shelf := by
  unfold Order.shelf
  rw [h.identity, price, h.remaining]

omit [Decimal D] in
theorem Alike.refl (key : String × OrderId) (o : Order D) : o.Alike key o :=
  ⟨.refl o, fun _ => rfl⟩

omit [Decimal D] in
theorem Twin.alike (h : o.Twin o') : o.Alike o.identity o' := ⟨h, fun other => absurd rfl other⟩

theorem Twin.halts (h : a.Twin a') (resting : Order D) : Halts a resting ↔ Halts a' resting := by
  unfold Halts
  rw [h.remaining, h.side, h.effectivePrice]

omit [Decimal D] in
theorem Twin.booked (h : o.Twin o') :
    Twin { o with state := .booked } { o' with state := .booked } :=
  ⟨h.identity, h.instrumentId, h.side, h.orderType, h.price, h.remaining, rfl⟩

theorem Twin.restState (h : o.Twin o') :
    (OrderBook.restState o).Twin (OrderBook.restState o') := by
  refine ⟨h.identity, h.instrumentId, h.side, h.orderType, h.price, h.remaining, ?_⟩
  unfold OrderBook.restState
  dsimp only
  split <;> split <;> rfl

/-- A fill of twins leaves twins. -/
theorem Twin.fill {quantity price : D} {f f' : Order D} (h : o.Twin o')
    (fill : applyFill o quantity price = .ok f) (fill' : applyFill o' quantity price = .ok f') :
    f.Twin f' := by
  have one := OrderBook.applyFill_spec fill
  have other := OrderBook.applyFill_spec fill'
  have left : f.remaining = f'.remaining := by
    have remains := one.remaining
    rw [h.remaining] at remains
    exact Except.ok.inj (remains.symm.trans other.remaining)
  refine ⟨?_, ?_, ?_, ?_, ?_, left, ?_⟩
  · rw [one.toContinues.identity, other.toContinues.identity, h.identity]
  · rw [one.toContinues.instrumentId, other.toContinues.instrumentId, h.instrumentId]
  · rw [one.toContinues.side, other.toContinues.side, h.side]
  · rw [one.toContinues.orderType, other.toContinues.orderType, h.orderType]
  · intro limit
    rw [one.toContinues.orderType] at limit
    rw [one.toContinues.price, other.toContinues.price, h.price limit]
  · rw [one.state, other.state, left]

end Order

section Walks

variable {incoming incoming' left left' : Order D}
  {queue queue' untouched untouched' : List (Order D)} {trades trades' : List (RawTrade D)}

/-- Twins that walk over one queue trade alike and leave the same of it. -/
theorem Walked.twin (w : Walked incoming queue trades left untouched)
    (w' : Walked incoming' queue' trades' left' untouched') (same : queue = queue')
    (twin : incoming.Twin incoming') : left.Twin left' ∧ untouched = untouched' ∧
      List.Forall₂ (RawTrade.Alike incoming.identity) trades trades' := by
  subst same
  induction w generalizing incoming' trades' left' untouched' with
  | stop halts =>
    cases w' with
    | stop halts' => exact ⟨twin, rfl, .nil⟩
    | trade open_ => exact absurd ((twin.halts _).mp (halts _ rfl)) open_
  | @trade incoming resting filled hit left rest untouched trades quantity open_ size fill fillHit
      tail ih =>
    cases w' with
    | stop halts' => exact absurd ((twin.halts _).mpr (halts' _ rfl)) open_
    | @trade _ _ filled' hit' _ _ untouched' trades' quantity' open_' size' fill' fillHit' tail' =>
      obtain rfl : quantity = quantity' := by rw [size, size', twin.remaining]
      obtain rfl : hit = hit' := Except.ok.inj (fillHit.symm.trans fillHit')
      have filled_twin := twin.fill fill fill'
      obtain ⟨left_twin, rfl, alike⟩ := ih filled_twin tail'
      have key : filled.identity = incoming.identity :=
        (OrderBook.applyFill_spec fill).toContinues.identity
      rw [key] at alike
      refine ⟨left_twin, rfl, .cons ?_ alike⟩
      have party := key ▸ filled_twin.alike
      rw [← twin.side]
      cases incoming.side with
      | buy => exact ⟨rfl, rfl, party, .refl _ _⟩
      | sell => exact ⟨rfl, rfl, .refl _ _, party⟩

/-- Twins are placed at the same spot. -/
theorem place_twin (twin : left.Twin left') (limit : left.orderType = .limit)
    (own : List (Order D)) :
    (place left own).map Order.shelf = (place left' own).map Order.shelf := by
  have shelf := twin.shelf (twin.price limit)
  unfold place
  rw [← twin.side]
  induction own with
  | nil =>
    simp only [List.orderedInsert_nil, List.map_cons, List.map_nil]
    rw [shelf]
  | cons first own ih =>
    simp only [List.orderedInsert_cons, ← twin.effectivePrice]
    split
    · simp only [List.map_cons]
      rw [shelf]
    · simp only [List.map_cons]
      rw [ih]

/-- Twins end alike. -/
theorem conclude_twin (twin : left.Twin left') (own : List (Order D)) :
    (conclude left own).1.Twin (conclude left' own).1 ∧
      (conclude left own).2.map Order.shelf = (conclude left' own).2.map Order.shelf := by
  by_cases spent : left.remaining = 0
  · rw [conclude_exhausted own spent, conclude_exhausted own (twin.remaining ▸ spent)]
    exact ⟨twin, rfl⟩
  · have open_ : left'.remaining ≠ 0 := twin.remaining ▸ spent
    cases kind : left.orderType with
    | market =>
      rw [conclude_market own spent kind, conclude_market own open_ (twin.orderType ▸ kind)]
      exact ⟨⟨twin.identity, twin.instrumentId, twin.side, twin.orderType, twin.price,
        twin.remaining, rfl⟩, rfl⟩
    | limit =>
      rw [conclude_limit own spent kind, conclude_limit own open_ (twin.orderType ▸ kind)]
      exact ⟨twin, place_twin twin kind own⟩

end Walks

section Trades

omit [Decimal D]

variable {key other : String × OrderId} {trades trades' : List (RawTrade D)}

theorem Order.Alike.identity {o o' : Order D} (h : o.Alike key o') : o.identity = o'.identity :=
  h.twin.identity

/-- Another order ends the same in trades that are alike. -/
theorem lastSnapshot_alike (alike : List.Forall₂ (RawTrade.Alike key) trades trades')
    (apart : other ≠ key) :
    OrderBook.lastSnapshot other trades = OrderBook.lastSnapshot other trades' := by
  induction alike with
  | nil => rfl
  | @cons t t' trades trades' first rest ih =>
    have head : OrderBook.lastSnapshot other [t] = OrderBook.lastSnapshot other [t'] := by
      unfold OrderBook.lastSnapshot
      simp only [List.foldl_cons, List.foldl_nil]
      rw [← first.buyer.identity, ← first.seller.identity]
      split
      · rename_i here
        rw [first.seller.same (here ▸ apart)]
      · split
        · rename_i here
          rw [first.buyer.same (here ▸ apart)]
        · rfl
    rw [lastSnapshot_cons, lastSnapshot_cons other t', ih, head]

/-- Trades that are alike leave the same of every other record. -/
theorem afterTrades_alike [Decimal D] (alike : List.Forall₂ (RawTrade.Alike key) trades trades')
    {record record' : String → OrderId → Option (Order D)} {s : String} {id : OrderId}
    (apart : (s, id) ≠ key) (same : record s id = record' s id) :
    View.afterTrades trades record s id = View.afterTrades trades' record' s id := by
  unfold View.afterTrades
  rw [same, lastSnapshot_alike alike apart]

end Trades

/-- Twins that are added to the same queues leave the same, but for themselves. -/
theorem Coherent.Added.twin {v v' : View D} {gap gap' : Gap} {order order' left left' final final' :
    Order D} {trades trades' : List (RawTrade D)} {book' book'' : OrderBook D}
    (a : Coherent.Added v gap order trades left final book')
    (a' : Coherent.Added v' gap' order' trades' left' final' book'') (twin : order.Twin order')
    (queues : ∀ side, v.queue order.instrumentId side = v'.queue order.instrumentId side) :
    final.Twin final' ∧ List.Forall₂ (RawTrade.Alike order.identity) trades trades' ∧
      ∀ side, (book'.queue side).map Order.shelf = (book''.queue side).map Order.shelf := by
  have same : ∀ side, v.queue order.instrumentId side = v'.queue order'.instrumentId side := by
    intro side
    rw [← twin.instrumentId]
    exact queues side
  have opposite := same order.side.opposite
  have own := same order.side
  rw [twin.side] at opposite own
  obtain ⟨left_twin, untouched, alike⟩ :=
    a.walked.twin a'.walked (twin.side ▸ opposite) twin.booked
  have ends := a.ends
  have ends' := a'.ends
  have ended := conclude_twin left_twin (v.queue order.instrumentId order.side)
  rw [ends] at ended
  rw [← own, ← twin.side] at ends'
  rw [ends'] at ended
  refine ⟨ended.1, alike, fun side => ?_⟩
  rcases OrderBook.mem_side order.side side with rfl | rfl
  · exact ended.2
  · rw [untouched, twin.side]

/-- What a fill report says of a trade, whatever was executed before. -/
def Report.deal : Report D → Option ((String × OrderId) × D × D × D)
  | .fill order _ lastPrice lastQuantity _ _ =>
    some (order.identity, order.remaining, lastPrice, lastQuantity)
  | .status .. => none

/-- A report without its number. -/
def Report.unnumbered : Report D → Report D
  | .status order symbol clOrdId _ execType origClOrdId =>
    .status order symbol clOrdId "" execType origClOrdId
  | .fill order symbol lastPrice lastQuantity _ origClOrdId =>
    .fill order symbol lastPrice lastQuantity "" origClOrdId

/-- Reports of the same deal, and but for the order of an identity the same reports. -/
structure Report.Alike (key : String × OrderId) (r r' : Report D) : Prop where
  identity : r.order.identity = r'.order.identity
  deal : r.deal = r'.deal
  same : r.order.identity ≠ key → r.unnumbered = r'.unnumbered

section Reports

omit [Decimal D]

variable {key : String × OrderId} {news news' : List (Report D)}

theorem fill_alike {o o' : Order D} (alike : o.Alike key o') (symbol : String)
    (price quantity : D) (execId execId' : String) (orig : Option OrderId) :
    Report.Alike key (.fill o symbol price quantity execId orig)
      (.fill o' symbol price quantity execId' orig) := by
  refine ⟨alike.identity, ?_, ?_⟩
  · change some (o.identity, o.remaining, price, quantity) = some (o'.identity, o'.remaining, _, _)
    rw [alike.identity, alike.twin.remaining]
  · intro apart
    rw [alike.same apart]
    rfl

theorem deals_alike (alike : List.Forall₂ (Report.Alike key) news news') :
    news.filterMap Report.deal = news'.filterMap Report.deal := by
  induction alike with
  | nil => rfl
  | cons first rest ih =>
    rw [List.filterMap_cons, List.filterMap_cons, first.deal, ih]

/-- The reports about other orders. -/
theorem others_alike (alike : List.Forall₂ (Report.Alike key) news news')
    {p : String × OrderId → Bool} (apart : p key = false) :
    (news.filter fun r => p r.order.identity).map Report.unnumbered =
      (news'.filter fun r => p r.order.identity).map Report.unnumbered := by
  induction alike with
  | nil => rfl
  | @cons r r' news news' first rest ih =>
    rw [List.filter_cons, List.filter_cons, ← first.identity]
    split
    · rename_i taken
      have other : r.order.identity ≠ key := by
        intro here
        rw [here, apart] at taken
        cases taken
      rw [List.map_cons, List.map_cons, first.same other, ih]
    · exact ih

/-- What is told of two lists is related as the lists are. -/
theorem told_related {A A' B B' : Type} {S : A → A' → Prop} {R : A → B → Prop}
    {R' : A' → B' → Prop} {Q : B → B' → Prop}
    (step : ∀ {a a' b b'}, S a a' → R a b → R' a' b' → Q b b') {as : List A} {as' : List A'}
    {bs : List B} {bs' : List B'} (related : List.Forall₂ S as as') (told : List.Forall₂ R as bs)
    (told' : List.Forall₂ R' as' bs') : List.Forall₂ Q bs bs' := by
  induction related generalizing bs bs' with
  | nil =>
    cases told
    cases told'
    exact .nil
  | cons first rest ih =>
    cases told with
    | cons said told =>
      cases told' with
      | cons said' told' => exact .cons (step first said said') (ih told told')

end Reports

omit [Decimal D] in
/-- The parties of trades that are alike. -/
theorem parties_alike {key : String × OrderId} {trades trades' : List (RawTrade D)}
    (alike : List.Forall₂ (RawTrade.Alike key) trades trades') (known : String → Bool) :
    List.Forall₂ (fun p p' : Order D × D × D => p.1.Alike key p'.1 ∧ p.2 = p'.2)
      ((Engine.parties trades).filter fun p => known p.1.sessionId)
      ((Engine.parties trades').filter fun p => known p.1.sessionId) := by
  induction alike with
  | nil => exact .nil
  | @cons t t' trades trades' first rest ih =>
    have owner : ∀ {o o' : Order D}, o.Alike key o' → o.sessionId = o'.sessionId :=
      fun alike => congrArg Prod.fst alike.identity
    have deal : (t.price, t.quantity) = (t'.price, t'.quantity) := by
      rw [first.price, first.quantity]
    unfold Engine.parties at ih ⊢
    rw [List.flatMap_cons, List.flatMap_cons, List.filter_append, List.filter_append]
    refine List.rel_append ?_ ih
    rw [List.filter_cons, List.filter_cons, List.filter_cons, List.filter_cons,
      owner first.buyer, owner first.seller]
    split <;> split
    · exact .cons ⟨first.buyer, deal⟩ (.cons ⟨first.seller, deal⟩ .nil)
    · exact .cons ⟨first.buyer, deal⟩ .nil
    · exact .cons ⟨first.seller, deal⟩ .nil
    · exact .nil

/-- The reports on trades that are alike. -/
theorem fills_alike {key : String × OrderId} {e : Engine D} {trades trades' : List (RawTrade D)}
    {news news' : List (Report D)} (alike : List.Forall₂ (RawTrade.Alike key) trades trades')
    (told : Engine.FillNews e (Engine.parties trades) news)
    (told' : Engine.FillNews e (Engine.parties trades') news') :
    List.Forall₂ (Report.Alike key) news news' := by
  refine told_related ?_ (parties_alike alike e.sessions.contains) told told'
  rintro ⟨o, price, quantity⟩ ⟨o', price', quantity'⟩ _ _ ⟨party, same⟩ ⟨execId, rfl⟩ ⟨execId', rfl⟩
  cases same
  rw [← party.twin.instrumentId]
  exact fill_alike party _ _ _ _ _ _

/-- A plan fills twins alike. -/
theorem Fills.twin {price : D} {o o' last last' : Order D} {plan : List D}
    {snapshots snapshots' : List (Order D)} (f : Fills price o plan snapshots last)
    (f' : Fills price o' plan snapshots' last') (twin : o.Twin o') :
    last.Twin last' ∧ List.Forall₂ (Order.Alike o.identity) snapshots snapshots' := by
  induction f generalizing o' snapshots' with
  | done =>
    cases f'
    exact ⟨twin, .nil⟩
  | @fill o filled last chunk plan snapshots positive covered apply tail ih =>
    cases f' with
    | fill _ _ apply' tail' =>
      have filled_twin := twin.fill apply apply'
      have key : filled.identity = o.identity := (OrderBook.applyFill_spec apply).identity
      obtain ⟨last_twin, alike⟩ := ih tail' filled_twin
      rw [key] at alike
      exact ⟨last_twin, .cons (key ▸ filled_twin.alike) alike⟩

theorem keep_twin {o o' : Order D} (twin : o.Twin o') (price : o.price = o'.price) :
    (keep o).map Order.shelf = (keep o').map Order.shelf := by
  unfold keep
  rw [← twin.remaining]
  split
  · rfl
  · rw [List.map_singleton, List.map_singleton, twin.shelf price]

/-- The spot of an order depends on its side and its price. -/
theorem Engine.Behind.unique {o o' : Order D} {front front' back back' : List (Order D)}
    (h : Engine.Behind o front back) (h' : Engine.Behind o' front' back') (side : o.side = o'.side)
    (price : o.price = o'.price) (same : front ++ back = front' ++ back') :
    front = front' ∧ back = back' := by
  have ahead : ∀ {o : Order D} {front back : List (Order D)}, Engine.Behind o front back →
      front = (front ++ back).filter fun x => ¬ Levels.Prefers o.side o.price x.price := by
    intro o front back h
    have stay : front.filter (fun x => ¬ Levels.Prefers o.side o.price x.price) = front :=
      List.filter_eq_self.mpr fun x mem => decide_eq_true (h.front x mem)
    have go : back.filter (fun x => ¬ Levels.Prefers o.side o.price x.price) = [] :=
      List.filter_eq_nil_iff.mpr fun x mem => by simpa using h.back x mem
    rw [List.filter_append, stay, go, List.append_nil]
  have one := ahead h
  rw [same, side, price, ← ahead h'] at one
  subst one
  exact ⟨rfl, List.append_cancel_left same⟩

omit [Decimal D] in
theorem zip_alike {key : String × OrderId} {snapshots snapshots' : List (Order D)}
    (alike : List.Forall₂ (Order.Alike key) snapshots snapshots') (plan : List D) :
    List.Forall₂ (fun p p' : D × Order D => p.1 = p'.1 ∧ p.2.Alike key p'.2)
      (plan.zip snapshots) (plan.zip snapshots') := by
  induction alike generalizing plan with
  | nil =>
    rw [List.zip_nil_right]
    exact .nil
  | cons first rest ih =>
    cases plan with
    | nil => exact .nil
    | cons chunk plan => exact .cons ⟨rfl, first⟩ (ih plan)

omit [Decimal D] in
/-- The reports on a plan that was filled alike. -/
theorem plan_alike {key : String × OrderId} {symbolOf : Int → String} {price : D} {plan : List D}
    {snapshots snapshots' : List (Order D)} {news news' : List (Report D)}
    (alike : List.Forall₂ (Order.Alike key) snapshots snapshots')
    (told : List.Forall₂ (fun (p : D × Order D) report => ∃ execId, report =
      .fill p.2 (symbolOf p.2.instrumentId) price p.1 execId none) (plan.zip snapshots) news)
    (told' : List.Forall₂ (fun (p : D × Order D) report => ∃ execId, report =
      .fill p.2 (symbolOf p.2.instrumentId) price p.1 execId none) (plan.zip snapshots') news') :
    List.Forall₂ (Report.Alike key) news news' := by
  refine told_related ?_ (zip_alike alike plan) told told'
  rintro ⟨chunk, o⟩ ⟨chunk', o'⟩ _ _ ⟨same, party⟩ ⟨execId, rfl⟩ ⟨execId', rfl⟩
  dsimp only at same
  rw [same, ← party.twin.instrumentId]
  exact fill_alike party _ _ _ _ _ _

end RustTrader
