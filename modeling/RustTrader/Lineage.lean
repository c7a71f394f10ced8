import RustTrader.Clock
import RustTrader.Trades

/-!
# Where orders come from

Orders enter the books and the records in three ways, as a new request, as a
replacement, and as a leg of a quote; afterwards they are only filled, restated
or expired. What holds of an order when it enters, and survives these changes,
holds of every order the engine knows and of every order it reports.
-/

namespace RustTrader

open Decimal

variable {D : Type} [Decimal D]

/-- What survives the life of an order. -/
structure Lasting (P : Order D → Prop) : Prop where
  fill : ∀ {o o' : Order D} {quantity price : D}, P o → o.state ≠ .expired →
    OrderBook.FillOf o quantity price o' → 0 < quantity → quantity ≤ o.remaining → 0 < price → P o'
  cancel : ∀ {o : Order D}, P o → o.state ≠ .expired → P { o with state := .cancelled }
  lapse : ∀ {o : Order D}, P o → P (Engine.lapsed o)

/-- What is to hold of an order that enters a book: of the order itself and of
what the matcher or the tiered insertion makes of it at first. -/
structure Enters (policy : FillPolicy) (P : Order D → Prop) (o : Order D) : Prop where
  self : o.state ≠ .new → P o
  added : policy = .real → P { o with state := .booked }
  rested : policy = .tiered → P (OrderBook.restState o)

/-- Neither the owner nor the arrival of an order ever changes. -/
theorem lasting_labels (Q : String → Nat → Prop) :
    Lasting (fun o : Order D => Q o.sessionId o.arrival) := by
  refine ⟨?_, ?_, ?_⟩
  · intro o o' quantity price h _ f _ _ _
    rw [show o'.sessionId = o.sessionId from congrArg Prod.fst f.identity, f.arrival]
    exact h
  · intro o h _
    exact h
  · intro o h
    exact h

/-- The orders of a view: recorded or resting. -/
def View.Known (v : View D) (o : Order D) : Prop :=
  v.record o.sessionId o.id = some o ∨ ∃ i side, o ∈ v.queue i side

/-- The same, but for the record under one identity. -/
def View.KnownBut (v : View D) (identity : String × OrderId) (o : Order D) : Prop :=
  (v.record o.sessionId o.id = some o ∧ o.identity ≠ identity) ∨ ∃ i side, o ∈ v.queue i side

theorem View.KnownBut.known {v : View D} {identity : String × OrderId} {o : Order D}
    (h : v.KnownBut identity o) : v.Known o := h.imp And.left id

omit [Decimal D] in
theorem alive_of_isActive {o : Order D} (h : o.state.isActive) : o.state ≠ .expired := by
  intro same
  rw [same] at h
  cases h

theorem alive_of_fill {o o' : Order D} {quantity price : D}
    (f : OrderBook.FillOf o quantity price o') : o'.state ≠ .expired := by
  rw [f.state]
  split <;> decide

section Matching

variable [LawfulDecimal D] {P : Order D → Prop}

/-- What a walk leaves of a lasting property. -/
structure Walked.Carries (P : Order D → Prop) (trades : List (RawTrade D)) (left : Order D)
    (untouched : List (Order D)) : Prop where
  parties : ∀ t ∈ trades, P t.buyer ∧ P t.seller
  left : P left ∧ left.state ≠ .expired
  untouched : ∀ o ∈ untouched, P o

theorem Walked.carries (lasting : Lasting P) {incoming left : Order D}
    {queue untouched : List (Order D)} {trades : List (RawTrade D)}
    (w : Walked incoming queue trades left untouched) (h : P incoming)
    (alive : incoming.state ≠ .expired) (nonneg : 0 ≤ incoming.remaining)
    (resting : ∀ r ∈ queue, P r ∧ r.state.isActive ∧ 0 < r.remaining ∧ 0 < r.price) :
    Walked.Carries P trades left untouched := by
  induction w with
  | stop => exact ⟨by simp, ⟨h, alive⟩, fun o ho => (resting o ho).1⟩
  | @trade incoming r filled hit left rest untouched trades quantity open_ size fill fillHit _ ih =>
    obtain ⟨remains, -⟩ := not_or.mp open_
    obtain ⟨hr, active, positive, priced⟩ := resting r List.mem_cons_self
    have sized : 0 < quantity := by
      rw [size]
      exact minDecimal_pos (lt_of_le_of_ne nonneg (Ne.symm remains)) positive
    have f := OrderBook.applyFill_spec fill
    have mine := lasting.fill h alive f sized (size ▸ minDecimal_le_left _ _) priced
    have other := lasting.fill hr (alive_of_isActive active)
      (OrderBook.applyFill_spec fillHit) sized
      (size ▸ minDecimal_le_right _ _) priced
    have nonneg' : 0 ≤ filled.remaining := fill_nonneg fill (size ▸ minDecimal_le_left _ _)
    obtain ⟨parties, last, others⟩ :=
      ih mine (alive_of_fill f) nonneg' (fun o ho => resting o (List.mem_cons_of_mem _ ho))
    refine ⟨?_, last, ?_⟩
    · intro t ht
      rcases List.mem_cons.mp ht with rfl | ht
      · cases incoming.side with
        | buy => exact ⟨mine, other⟩
        | sell => exact ⟨other, mine⟩
      · exact parties t ht
    · intro o ho
      rcases List.mem_append.mp ho with ho | ho
      · rw [(mem_keep.mp ho).1]
        exact other
      · exact others o ho

omit [Decimal D] [LawfulDecimal D] in
theorem Walked.Carries.snapshot {trades : List (RawTrade D)} {left : Order D}
    {untouched : List (Order D)} (walked : Walked.Carries P trades left untouched)
    {identity : String × OrderId} {hit : Order D}
    (told : OrderBook.lastSnapshot identity trades = some hit) : P hit := by
  rw [lastSnapshot_eq] at told
  have mem := (List.mem_filter.mp (List.mem_of_getLast? told)).1
  obtain ⟨p, hp, rfl⟩ := List.mem_map.mp mem
  obtain ⟨t, ht, hp⟩ := List.mem_flatMap.mp hp
  obtain ⟨buyer, seller⟩ := walked.parties t ht
  rcases List.mem_cons.mp hp with rfl | hp
  · exact buyer
  · obtain rfl := List.mem_singleton.mp hp
    exact seller

section Added

variable {v : View D} {gap : Gap} {order left final : Order D} {trades : List (RawTrade D)}
  {book' : OrderBook D} (a : Coherent.Added v gap order trades left final book')
include a

theorem Coherent.Added.walked_carries (lasting : Lasting P)
    (known : ∀ o, v.KnownBut order.identity o → P o) (h : P { order with state := .booked }) :
    Walked.Carries P trades left (book'.queue order.side.opposite) := by
  refine a.walked.carries lasting h (by intro same; cases same) a.arrives.positive.le ?_
  intro r hr
  have fit := a.coherent.fit _ _ r hr
  exact ⟨known r (Or.inr ⟨_, _, hr⟩), fit.active, fit.positive, fit.price⟩

omit [LawfulDecimal D] in
theorem Coherent.Added.final_carried (lasting : Lasting P) {untouched : List (Order D)}
    (walked : Walked.Carries P trades left untouched) : P final := by
  have same : final = (conclude left (v.queue order.instrumentId order.side)).1 := by rw [a.ends]
  rw [same]
  by_cases hz : left.remaining = 0
  · rw [conclude_exhausted _ hz]
    exact walked.left.1
  · cases ht : left.orderType with
    | market =>
      rw [conclude_market _ hz ht]
      exact lasting.cancel walked.left.1 walked.left.2
    | limit =>
      rw [conclude_limit _ hz ht]
      exact walked.left.1

/-- The record of another order is what it was, or the snapshot of its last fill. -/
theorem Coherent.Added.record_cases {o : Order D} (other : (o.sessionId, o.id) ≠ order.identity)
    (recorded : (v.added order trades final book').record o.sessionId o.id = some o) :
    v.KnownBut order.identity o ∨
      ∃ identity, OrderBook.lastSnapshot identity trades = some o := by
  cases hr : v.record o.sessionId o.id with
  | none =>
    rw [a.record_other other, afterTrades_none trades hr] at recorded
    cases recorded
  | some r =>
    by_cases met : ∃ x ∈ v.queue order.instrumentId order.side.opposite,
        x.identity = (o.sessionId, o.id)
    · obtain ⟨x, hx, same⟩ := met
      obtain ⟨hxs, hxid⟩ := Prod.mk.inj same
      have regular : x.id ≠ quoteOrderId := by
        rw [hxid]
        exact (a.coherent.keyed _ _ r hr).2.2
      have own := (a.coherent.owned _ _ x hx).record regular
      rw [hxs, hxid, hr] at own
      obtain rfl := Option.some.inj own
      have after := a.record_other other
      rw [recorded, View.afterTrades, hr, ← same] at after
      have told : ∀ hit, OrderBook.lastSnapshot r.identity trades = some hit →
          Continues r hit → ∃ identity, OrderBook.lastSnapshot identity trades = some o := by
        intro hit last c
        rw [last] at after
        have reached : o = hit := (Option.some.inj after).trans (View.copyFill_of_continues c)
        exact ⟨_, reached ▸ last⟩
      cases a.fate hx regular with
      | spared silent _ =>
        rw [silent] at after
        have reached : o = r := Option.some.inj after
        exact .inl (reached ▸ .inr ⟨_, _, hx⟩)
      | reduced hit last c => exact .inr (told hit last c)
      | consumed hit last c => exact .inr (told hit last c)
    · have silent : ∀ x ∈ v.queue order.instrumentId order.side.opposite,
          x.identity ≠ (o.sessionId, o.id) := fun x hx same => met ⟨x, hx, same⟩
      rw [a.record_silent other silent] at recorded
      exact .inl (.inl ⟨recorded, other⟩)

/-- Adding an order to its book. -/
theorem Coherent.Added.carries (lasting : Lasting P)
    (known : ∀ o, v.KnownBut order.identity o → P o) (h : P { order with state := .booked }) :
    (∀ o, (v.added order trades final book').Known o → P o) ∧
      (∀ t ∈ trades, P t.buyer ∧ P t.seller) ∧ P final := by
  have walked := a.walked_carries lasting known h
  have last : P final := a.final_carried lasting walked
  refine ⟨?_, walked.parties, last⟩
  rintro o (recorded | ⟨i, side, ho⟩)
  · by_cases self : (o.sessionId, o.id) = order.identity
    · obtain ⟨hs, hid⟩ := Prod.mk.inj self
      have regular := (a.coherent_after.keyed _ _ o recorded).2.2
      rw [hs, hid] at recorded
      rw [hid] at regular
      rw [a.record_self regular] at recorded
      obtain rfl := Option.some.inj recorded
      exact last
    · rcases a.record_cases self recorded with before | ⟨identity, told⟩
      · exact known o before
      · exact walked.snapshot told
  · rcases a.origin ho with ⟨ho, -⟩ | ⟨-, -, rfl, -⟩ | ⟨-, -, ho⟩
    · exact known o (Or.inr ⟨i, side, ho⟩)
    · exact last
    · exact walked.untouched o ho

end Added

omit [LawfulDecimal D] in
/-- Filling an order by its plan. -/
theorem Fills.carries {price : D} {order last : Order D} {plan : List D}
    {snaps : List (Order D)} (lasting : Lasting P) (f : Fills price order plan snaps last)
    (priced : 0 < price) (h : P order) (alive : order.state ≠ .expired) :
    P last ∧ ∀ o ∈ snaps, P o := by
  induction f with
  | done => exact ⟨h, by simp⟩
  | fill positive covered apply _ ih =>
    have f := OrderBook.applyFill_spec apply
    have filled := lasting.fill h alive f positive covered priced
    obtain ⟨final, others⟩ := ih filled (alive_of_fill f)
    refine ⟨final, ?_⟩
    intro o ho
    rcases List.mem_cons.mp ho with rfl | ho
    · exact filled
    · exact others o ho

end Matching

namespace Engine

/-- The orders a command brings in. -/
inductive Fresh (e : Engine D) (command : Command D) : Order D → Prop
  | request {today : Int} {s : String} {new : NewOrder D}
      (asked : command = .createOrder today s new)
      (listed : ∃ instrument, e.instruments.getById new.instrumentId = some instrument)
      (valid : ValidInput new.id new.orderType new.price new.quantity) :
      Fresh e command (e.incoming s new)
  | replacement {today : Int} {s : String} {origId newId : OrderId} {orderType : OrderType}
      {price quantity remaining : D} {entry : Order D}
      (asked : command = .modifyOrderWithType today s origId newId orderType price quantity)
      (recorded : e.order s origId = some entry) (active : entry.state.isActive)
      (valid : ValidInput newId orderType price quantity) (covered : entry.cumQuantity ≤ quantity)
      (remains : sub quantity entry.cumQuantity = .ok remaining) :
      Fresh e command (replacement e.fillPolicy entry newId orderType price quantity remaining
        (e.nextArrival + 1))
  | leg {s : String} {i : Int} {bidPrice bidQuantity askPrice askQuantity : D} {exchangeId : String}
      {order : Order D} (asked : command = .quote s i bidPrice bidQuantity askPrice askQuantity)
      (listed : ∃ instrument, e.instruments.getById i = some instrument)
      (named : exchangeId = "quote.bid." ++ toString i ∨ exchangeId = "quote.ask." ++ toString i)
      (terms : LegTerms s i exchangeId order) (positive : 0 < order.remaining)
      (price : 0 < order.price) : Fresh e command order

/-- All orders an engine knows, and all it has reported meanwhile, have a property. -/
structure Carries (P : Order D → Prop) (e e' : Engine D) (news : List (Report D)) : Prop where
  sent : e'.sent = e.sent ++ news
  known : ∀ o, e'.view.Known o → P o
  told : ∀ report ∈ news, P report.order

variable {P : Order D → Prop}

theorem Carries.trans {e e' e'' : Engine D} {m n : List (Report D)} (h : Carries P e e' m)
    (h' : Carries P e' e'' n) : Carries P e e'' (m ++ n) := by
  refine ⟨?_, h'.known, ?_⟩
  · rw [h'.sent, h.sent, List.append_assoc]
  · intro report hreport
    rcases List.mem_append.mp hreport with before | after
    · exact h.told report before
    · exact h'.told report after

theorem Carries.unchanged {e e' : Engine D} (known : ∀ o, e.view.Known o → P o)
    (view : e'.view = e.view) (sent : e'.sent = e.sent) : Carries P e e' [] :=
  ⟨by rw [sent, List.append_nil], view ▸ known, by simp⟩

theorem Departed.carries {e e' : Engine D} {s : String} (done : Departed e e' s)
    (known : ∀ o, e.view.Known o → P o) : Carries P e e' [] := by
  refine ⟨done.sent.trans (List.append_nil _).symm, ?_, by simp⟩
  rintro o (recorded | ⟨i, side, ho⟩)
  · refine known o (Or.inl ?_)
    change e'.order _ _ = _ at recorded
    rw [done.record] at recorded
    split at recorded
    · cases recorded
    · exact recorded
  · exact known o (Or.inr ⟨i, side, done.thinned i side o ho⟩)

/-- A record that is rewritten while its order leaves its book. -/
theorem known_left {policy : FillPolicy} {v : View D} (c : Coherent policy v none) {s : String}
    {id : OrderId} {entry last : Order D} {book' : OrderBook D}
    (left : OrderBook.Left Order.price (v.book entry.instrumentId) entry.side entry book')
    (known : ∀ o, v.Known o → P o) (h : P last) :
    ∀ o, ((v.setBook entry.instrumentId book').setRecord s id (some last)).Known o → P o := by
  rintro o (recorded | ⟨i, side, ho⟩)
  · by_cases here : o.sessionId = s ∧ o.id = id
    · simp only [View.setRecord, here, and_self, if_true] at recorded
      exact Option.some.inj recorded ▸ h
    · simp only [View.setRecord, here, if_false] at recorded
      exact known o (Or.inl recorded)
  · exact known o (Or.inr ⟨i, side, ((c.mem_leave left).mp ho).1⟩)

theorem Cancelled.carries {policy : FillPolicy} {e e' : Engine D} (lasting : Lasting P)
    (c : Coherent policy e.view none) {s : String} {origId clOrdId : OrderId} {entry : Order D}
    {book' : OrderBook D} {execId : String}
    (done : Cancelled e e' s origId clOrdId entry book' execId)
    (known : ∀ o, e.view.Known o → P o) : ∃ news, Carries P e e' news := by
  have last : P { entry with state := .cancelled } :=
    lasting.cancel (known entry (Or.inr ⟨_, _, done.mem⟩)) (alive_of_isActive done.active)
  refine ⟨_, done.effect.sent, ?_, ?_⟩
  · rw [done.effect.view]
    exact known_left c done.left known last
  · intro report hreport
    obtain rfl := List.mem_singleton.mp hreport
    exact last

theorem Expired.carries {policy : FillPolicy} {e e' : Engine D} (lasting : Lasting P)
    (c : Coherent policy e.view none) {s : String} {id : OrderId} {entry : Order D}
    {book' : OrderBook D} {execId : String} (done : Expired e e' s id entry book' execId)
    (known : ∀ o, e.view.Known o → P o) : ∃ news, Carries P e e' news := by
  have last : P (lapsed entry) := lasting.lapse (known entry (Or.inr ⟨_, _, done.mem⟩))
  refine ⟨_, done.effect.sent, ?_, ?_⟩
  · rw [done.effect.view]
    exact known_left c done.left known last
  · intro report hreport
    obtain rfl := List.mem_singleton.mp hreport
    exact last

theorem expire_carries {policy : FillPolicy} {e e' : Engine D} (lasting : Lasting P)
    (c : Coherent policy e.view none) (known : ∀ o, e.view.Known o → P o)
    {keys : List (String × OrderId)} (h : e.expireDayOrdersAt keys = .ok e') :
    ∃ news, Carries P e e' news := by
  let R : Engine D → Engine D → Prop :=
    fun e e' => (∀ o, e.view.Known o → P o) → ∃ news, Carries P e e' news
  suffices run : R e e' ∧ Coherent policy e'.view none from run.1 known
  refine expire_run (fun e known => ⟨[], .unchanged known rfl rfl⟩) ?_ ?_ ?_ keys c h
  · intro e e' e'' first second known
    obtain ⟨m, carried⟩ := first known
    obtain ⟨n, carried'⟩ := second carried.known
    exact ⟨m ++ n, carried.trans carried'⟩
  · intro e e' effect known
    exact ⟨[], .unchanged known effect.view (effect.sent.trans (List.append_nil _))⟩
  · intro e e' s id entry book' execId c done known
    exact done.carries lasting c known

section Lawful

variable [LawfulDecimal D]

omit [LawfulDecimal D] in
theorem known_opened {v : View D} {order : Order D} (known : ∀ o, v.Known o → P o) :
    ∀ o, (opened v order).KnownBut order.identity o → P o := by
  rintro o (⟨recorded, other⟩ | ⟨i, side, ho⟩)
  · have here : ¬ (o.sessionId = order.sessionId ∧ o.id = order.id) :=
      fun same => other (Prod.ext same.1 same.2)
    simp only [opened, View.setRecord, here, if_false] at recorded
    exact known o (Or.inl recorded)
  · exact known o (Or.inr ⟨i, side, ho⟩)

theorem CreatedReal.carries {e e' : Engine D} {s : String} {new : NewOrder D}
    {trades : List (RawTrade D)} {left final : Order D} {book' : OrderBook D}
    {fills : List (Report D)} {execId : String} (lasting : Lasting P)
    (done : CreatedReal e e' s new trades left final book' fills execId)
    (known : ∀ o, e.view.Known o → P o) (h : Enters .real P (e.incoming s new)) :
    ∃ news, Carries P e e' news := by
  obtain ⟨after, parties, last⟩ :=
    done.added.carries lasting (known_opened known) (h.added rfl)
  refine ⟨_, done.effect.sent, ?_, ?_⟩
  · rw [done.effect.view]
    exact after
  · intro report hreport
    rcases List.mem_append.mp hreport with hfill | hclose
    · exact done.filled.all parties report hfill
    · unfold closing at hclose
      split at hclose
      · obtain rfl := List.mem_singleton.mp hclose
        exact last
      · cases hclose

omit [LawfulDecimal D] in
theorem known_rekeyed {policy : FillPolicy} {e e1 : Engine D} {s : String}
    {origId newId : OrderId} {orderType : OrderType} {price quantity : D} {entry order : Order D}
    {remaining : D} {book1 : OrderBook D} {plan : Option (List D)}
    (c : Coherent policy e.view none)
    (k : Rekeyed policy e e1 s origId newId orderType price quantity entry order remaining book1
      plan) (known : ∀ o, e.view.Known o → P o) :
    ∀ o, (rekeyed e.view entry.instrumentId book1 s origId order).KnownBut order.identity o →
      P o := by
  rintro o (⟨recorded, other⟩ | ⟨i, side, ho⟩)
  · have here : ¬ (o.sessionId = s ∧ o.id = order.id) := by
      rintro ⟨hs, hid⟩
      exact other (Prod.ext (hs.trans (k.session c).symm) hid)
    by_cases gone : o.sessionId = s ∧ o.id = origId
    · simp only [rekeyed, View.setRecord, here, if_false] at recorded
      rw [if_pos gone] at recorded
      cases recorded
    · simp only [rekeyed, View.setRecord, here, gone, if_false] at recorded
      exact known o (Or.inl recorded)
  · exact known o (Or.inr ⟨i, side, ((c.mem_leave k.left).mp ho).1⟩)

omit [LawfulDecimal D] in
/-- The replacement itself is the record under its identity. -/
theorem known_replaced {policy : FillPolicy} {e e1 : Engine D} {s : String}
    {origId newId : OrderId} {orderType : OrderType} {price quantity : D} {entry order : Order D}
    {remaining : D} {book1 : OrderBook D} {plan : Option (List D)}
    (c : Coherent policy e.view none)
    (k : Rekeyed policy e e1 s origId newId orderType price quantity entry order remaining book1
      plan) (known : ∀ o, e.view.Known o → P o) (h : P order) :
    ∀ o, (rekeyed e.view entry.instrumentId book1 s origId order).Known o → P o := by
  rintro o (recorded | resting)
  · by_cases same : o.identity = order.identity
    · obtain ⟨hs, hid⟩ := Prod.mk.inj same
      simp only [rekeyed, View.setRecord, hs, k.session c, hid, and_self, if_true] at recorded
      exact Option.some.inj recorded ▸ h
    · exact known_rekeyed c k known o (Or.inl ⟨recorded, same⟩)
  · exact known_rekeyed c k known o (Or.inr resting)

omit [LawfulDecimal D] in
theorem Rekeyed.not_new {policy : FillPolicy} {e e1 : Engine D} {s : String}
    {origId newId : OrderId} {orderType : OrderType} {price quantity : D} {entry order : Order D}
    {remaining : D} {book1 : OrderBook D} {plan : Option (List D)}
    (k : Rekeyed policy e e1 s origId newId orderType price quantity entry order remaining book1
      plan) : order.state ≠ .new := by
  rw [k.state]
  split
  · decide
  · split <;> decide

theorem ReplacedReal.carries {e e' e1 : Engine D} {s : String} {origId newId : OrderId}
    {orderType : OrderType} {price quantity : D} {entry order : Order D} {remaining : D}
    {book1 : OrderBook D} {plan : Option (List D)} (lasting : Lasting P)
    (c : Coherent .real e.view none)
    (k : Rekeyed .real e e1 s origId newId orderType price quantity entry order remaining book1
      plan) (done : ReplacedReal e e' s origId entry order book1)
    (known : ∀ o, e.view.Known o → P o) (h : Enters .real P order) :
    ∃ news, Carries P e e' news := by
  have self := h.self k.not_new
  cases done with
  | exhausted _ execId effect =>
    refine ⟨_, effect.sent, ?_, ?_⟩
    · rw [effect.view]
      exact known_replaced c k known self
    · intro report hreport
      obtain rfl := List.mem_singleton.mp hreport
      exact self
  | matched open_ trades left final book' fills execId added filled effect =>
    obtain ⟨after, parties, -⟩ := added.carries lasting (known_rekeyed c k known) (h.added rfl)
    refine ⟨_, effect.sent, ?_, ?_⟩
    · rw [effect.view]
      exact after
    · intro report hreport
      rcases List.mem_cons.mp hreport with rfl | hfill
      · exact self
      · exact filled.all parties report hfill

/-- A leg that is matched. -/
theorem LegMatched.carries {s : String} {i : Int} {exchangeId : String} {v v' : View D}
    {trades : List (RawTrade D)} (lasting : Lasting P) (m : LegMatched s i exchangeId v v' trades)
    (known : ∀ o, v.Known o → P o) (h : ∀ order : Order D, LegTerms s i exchangeId order →
      0 < order.remaining → 0 < order.price → v.arrival < order.arrival →
        order.arrival ≤ v'.arrival → Enters .real P order) :
    (∀ o, v'.Known o → P o) ∧ (∀ t ∈ trades, P t.buyer ∧ P t.seller) := by
  cases m with
  | idle => exact ⟨known, by simp⟩
  | matched terms added =>
    have arrives := added.arrives
    obtain ⟨after, parties, -⟩ := added.carries lasting (fun o ho => known o ho.known)
      ((h _ terms arrives.positive (arrives.price terms.limit) arrives.newest le_rfl).added rfl)
    exact ⟨after, parties⟩

omit [LawfulDecimal D] in
theorem LegMatched.arrival {s : String} {i : Int} {exchangeId : String} {v v' : View D}
    {trades : List (RawTrade D)} (m : LegMatched s i exchangeId v v' trades) :
    v.arrival ≤ v'.arrival := by
  cases m with
  | idle => exact le_rfl
  | matched terms added => exact added.arrives.newest.le

/-- Both legs of a quote, one after the other. -/
theorem Quoted.parties {e e' : Engine D} {s : String} {i : Int} {v : View D}
    {trades : List (RawTrade D)} {fills : List (Report D)} (lasting : Lasting P)
    (done : Quoted e e' s i v trades fills) (known : ∀ o, e.view.Known o → P o)
    (h : ∀ (exchangeId : String) (order : Order D),
      exchangeId = "quote.bid." ++ toString i ∨ exchangeId = "quote.ask." ++ toString i →
      LegTerms s i exchangeId order → 0 < order.remaining → 0 < order.price →
        Numbers e e' order → Enters .real P order) :
    (∀ o, v.Known o → P o) ∧ ∀ t ∈ trades, P t.buyer ∧ P t.seller := by
  obtain ⟨v1, v2, bidTrades, askTrades, vacated, first, second, rfl⟩ := done.stages
  have start : ∀ o, v1.Known o → P o := by
    rintro o (recorded | ⟨j, side, ho⟩)
    · rw [vacated.record] at recorded
      exact known o (Or.inl recorded)
    · exact known o (Or.inr ⟨j, side, vacated.thinned j side o ho⟩)
  have last : v.arrival = e'.nextArrival := (congrArg View.arrival done.effect.view).symm
  obtain ⟨middle, bids⟩ := first.carries lasting start
    (fun order terms positive price above below => h _ order (Or.inl rfl) terms positive price
      ⟨vacated.arrival ▸ above, below.trans (second.arrival.trans last.le)⟩)
  obtain ⟨after, asks⟩ := second.carries lasting middle
    (fun order terms positive price above below => h _ order (Or.inr rfl) terms positive price
      ⟨lt_of_le_of_lt (vacated.arrival ▸ first.arrival) above, below.trans last.le⟩)
  refine ⟨after, ?_⟩
  intro t ht
  rcases List.mem_append.mp ht with ht | ht
  · exact bids t ht
  · exact asks t ht

theorem Quoted.carries {e e' : Engine D} {s : String} {i : Int} {v : View D}
    {trades : List (RawTrade D)} {fills : List (Report D)} (lasting : Lasting P)
    (done : Quoted e e' s i v trades fills) (known : ∀ o, e.view.Known o → P o)
    (h : ∀ (exchangeId : String) (order : Order D),
      exchangeId = "quote.bid." ++ toString i ∨ exchangeId = "quote.ask." ++ toString i →
      LegTerms s i exchangeId order → 0 < order.remaining → 0 < order.price →
        Numbers e e' order → Enters .real P order) :
    Carries P e e' fills := by
  obtain ⟨after, parties⟩ := done.parties lasting known h
  refine ⟨done.effect.sent, ?_, done.filled.all parties⟩
  rw [done.effect.view]
  exact after

omit [LawfulDecimal D] in
theorem Worked.carries {e e' : Engine D} {v : View D} {order last : Order D} {plan : List D}
    {snaps front back : List (Order D)} {ack : Report D} {fills : List (Report D)}
    (lasting : Lasting P) (w : Worked e e' v order plan last snaps front back ack fills)
    (priced : 0 < order.price) (known : ∀ o, v.KnownBut order.identity o → P o)
    (rested : P (OrderBook.restState order)) (told : P ack.order) :
    Carries P e e' (ack :: fills) := by
  obtain ⟨final, others⟩ := w.chain.carries lasting priced rested
    (alive_of_isActive (restState_active order))
  refine ⟨w.effect.sent, ?_, ?_⟩
  · rintro o (recorded | ⟨i, side, ho⟩)
    · change e'.order _ _ = _ at recorded
      rw [w.record, View.synced] at recorded
      have own : last.identity = order.identity := w.chain.continues.identity
      split at recorded
      · cases hr : v.record o.sessionId o.id with
        | none =>
          rw [hr] at recorded
          cases recorded
        | some r =>
          rw [hr] at recorded
          exact Option.some.inj recorded ▸ final
      · rename_i other
        exact known o (Or.inl ⟨recorded, own ▸ other⟩)
    · by_cases here : i = order.instrumentId ∧ side = order.side
      · obtain ⟨rfl, rfl⟩ := here
        rw [w.after] at ho
        have spared : o ∈ front ++ back → P o := fun mem =>
          known o (Or.inr ⟨_, _, w.before ▸ mem⟩)
        simp only [List.append_assoc, List.mem_append] at ho spared
        rcases ho with ho | ho | ho
        · exact spared (Or.inl ho)
        · rw [(mem_keep.mp ho).1]
          exact final
        · exact spared (Or.inr ho)
      · rw [w.elsewhere i side here] at ho
        exact known o (Or.inr ⟨i, side, ho⟩)
  · intro report hreport
    rcases List.mem_cons.mp hreport with rfl | hfill
    · exact told
    · refine others _ ?_
      rw [← w.chain.zip, ← fill_orders w.told]
      exact List.mem_map_of_mem hfill

theorem CreatedTiered.carries {e e' : Engine D} {s : String} {new : NewOrder D} {plan : List D}
    {last : Order D} {snaps front back : List (Order D)} {execId : String}
    {fills : List (Report D)} (lasting : Lasting P) (policy : e.fillPolicy = .tiered)
    (done : CreatedTiered e e' s new plan last snaps front back execId fills)
    (known : ∀ o, e.view.Known o → P o) (h : Enters .tiered P (e.incoming s new)) :
    ∃ news, Carries P e e' news := by
  have priced : 0 < (e.incoming s new).price := by
    rw [incoming_eq]
    simp only [policy]
    cases ht : new.orderType with
    | market => exact bookedPrice_pos (by intro h; cases h)
    | limit => exact bookedPrice_pos (fun _ => done.valid.limit ht)
  have rested := h.rested rfl
  exact ⟨_, done.worked.carries lasting priced (known_opened known) rested rested⟩

theorem ReplacedTiered.carries {e e' e1 : Engine D} {s : String} {origId newId : OrderId}
    {orderType : OrderType} {price quantity : D} {entry order : Order D} {remaining : D}
    {book1 : OrderBook D} {plan : Option (List D)} {chunks : List D} (lasting : Lasting P)
    (c : Coherent .tiered e.view none)
    (k : Rekeyed .tiered e e1 s origId newId orderType price quantity entry order remaining book1
      plan) (done : ReplacedTiered e e' s origId entry order book1 chunks)
    (known : ∀ o, e.view.Known o → P o) (h : Enters .tiered P order) :
    ∃ news, Carries P e e' news := by
  have self := h.self k.not_new
  cases done with
  | exhausted _ execId effect =>
    refine ⟨_, effect.sent, ?_, ?_⟩
    · rw [effect.view]
      exact known_replaced c k known self
    · intro report hreport
      obtain rfl := List.mem_singleton.mp hreport
      exact self
  | worked _ last snaps front back execId fills worked =>
    have priced : 0 < order.price := by
      obtain ⟨-, -, -, -, -, -, -, -, -, hprice⟩ := k.fields
      rw [hprice]
      exact bookedPrice_pos k.valid.limit
    exact ⟨_, worked.carries lasting priced (known_rekeyed c k known) (h.rested rfl) self⟩

/-- A lasting property of all known orders and of those a command brings in holds
of all orders known and reported afterwards. -/
theorem step_carries {policy : FillPolicy} {e e' : Engine D} {command : Command D}
    (lasting : Lasting P) (c : Coherent policy e.view none) (hp : e.fillPolicy = policy)
    (known : ∀ o, e.view.Known o → P o)
    (fresh : ∀ o, Fresh e command o → Numbers e e' o → Enters policy P o)
    (step : Step e command e') : ∃ news, Carries P e e' news := by
  have unchanged : ∃ news, Carries P e e news := ⟨[], .unchanged known rfl rfl⟩
  cases step with
  | createInstrument symbol =>
    obtain ⟨hv, -, hsent, -⟩ := view_createInstrument e symbol
    exact ⟨[], .unchanged known hv hsent⟩
  | registerSession s free => exact ⟨[], .unchanged known (view_registerSession free) rfl⟩
  | sessionDisconnect _ s orders quotes visits returns =>
    exact ⟨[], (sessionDisconnect_spec c visits returns).1.carries known⟩
  | createOrder _ today s new reply returns =>
    have numbered : reply = .ok new.id → Numbers e e' (e.incoming s new) := by
      rintro rfl
      exact .next (congrArg Prod.snd (clock_create returns)) (by rw [incoming_eq])
    cases policy with
    | real =>
      rcases createReal_cases c hp returns with ⟨_, -, -, rfl⟩ | ⟨accepted, _, _, _, _, _, _, done⟩
      · exact unchanged
      · exact done.carries lasting known
          (fresh _ (.request rfl done.listed done.valid) (numbered accepted))
    | tiered =>
      rcases createTiered_cases c hp returns with
        ⟨_, -, -, rfl⟩ | ⟨accepted, _, _, _, _, _, _, _, done⟩
      · exact unchanged
      · exact done.carries lasting hp known
          (fresh _ (.request rfl done.listed done.valid) (numbered accepted))
  | modifyOrderWithType _ today s origId newId orderType price quantity reply returns =>
    have brought : ∀ {e1 : Engine D} {entry order : Order D} {remaining : D} {book1 : OrderBook D}
        {plan : Option (List D)}, Rekeyed policy e e1 s origId newId orderType price quantity entry
          order remaining book1 plan → reply = .ok () → Enters policy P order := by
      rintro e1 entry order remaining book1 plan k rfl
      subst hp
      rw [k.made]
      exact fresh _ (.replacement rfl k.recorded k.active k.valid k.covered k.remains)
        (.next (congrArg Prod.snd (clock_modify c returns)) rfl)
    cases policy with
    | real =>
      rcases modifyReal_cases c hp returns with
        ⟨⟨_, -, -, rfl⟩, -⟩ | ⟨accepted, _, _, _, _, _, k, done⟩
      · exact unchanged
      · exact done.carries lasting c k known (brought k accepted)
    | tiered =>
      rcases modifyTiered_cases c hp returns with
        ⟨_, -, -, rfl⟩ | ⟨accepted, _, _, _, _, _, _, k, -, done⟩
      · exact unchanged
      · exact done.carries lasting c k known (brought k accepted)
  | cancelOrderWithId _ s origId clOrdId reply returns =>
    rcases cancel_cases c returns with ⟨_, -, -, rfl⟩ | ⟨-, entry, book', execId, done⟩
    · exact unchanged
    · exact done.carries lasting c known
  | quote _ s i bidPrice bidQuantity askPrice askQuantity reply returns =>
    cases policy with
    | real =>
      rcases quote_cases c returns with ⟨_, -, -, rfl⟩ | ⟨-, v, trades, fills, done, run⟩
      · exact unchanged
      · obtain ⟨session, _, _, _, _, _, _, _, checked, -⟩ := run
        have listed := (checkQuote_ok checked).listed
        exact ⟨_, done.carries lasting known (fun exchangeId order named terms positive price
          numbered => fresh order (.leg rfl listed named terms positive price) numbered)⟩
    | tiered =>
      obtain ⟨-, rfl⟩ := quote_tiered hp returns
      exact unchanged
  | expireDayOrdersAt _ today keys visits returns => exact expire_carries lasting c known returns

end Lawful

end Engine

end RustTrader
