import Mathlib.Algebra.BigOperators.Group.List.Basic
import Mathlib.Algebra.Group.Prod
import RustTrader.Trades

/-!
# Order accounting

With exact arithmetic every order satisfies its balance, quantity = executed +
remaining, until it expires, and what it has executed is the sum of the fills
that were reported about it and about the orders it replaced.
-/

namespace RustTrader

open Decimal

/-- Executed quantity and executed value. -/
abbrev Tally := ℚ × ℚ

variable {D : Type} [Decimal D]

def Order.tally (o : Order D) : Tally :=
  (val o.cumQuantity, val o.avgPrice * val o.cumQuantity)

def Report.tally : Report D → Tally
  | .status .. => 0
  | .fill _ _ lastPrice lastQuantity _ _ => (val lastQuantity, val lastPrice * val lastQuantity)

/-- What reports tell about an order's executions. -/
def tallyOf (identity : String × OrderId) (reports : List (Report D)) : Tally :=
  ((reports.filter (fun report => report.order.identity = identity)).map Report.tally).sum

/-- The same for the parties of trades. -/
def partyTally (identity : String × OrderId) (parties : List (Order D × D × D)) : Tally :=
  ((parties.filter (fun p => p.1.identity = identity)).map
    (fun p => (val p.2.2, val p.2.1 * val p.2.2))).sum

theorem tallyOf_append (identity : String × OrderId) (m n : List (Report D)) :
    tallyOf identity (m ++ n) = tallyOf identity m + tallyOf identity n := by
  simp [tallyOf]

theorem tallyOf_status (identity : String × OrderId) (o : Order D) (symbol execId : String)
    (clOrdId : OrderId) (execType : ExecType) (orig : Option OrderId) (n : List (Report D)) :
    tallyOf identity (.status o symbol clOrdId execId execType orig :: n) = tallyOf identity n := by
  unfold tallyOf
  rw [List.filter_cons]
  split
  · rw [List.map_cons, List.sum_cons]
    exact zero_add _
  · rfl

@[simp] theorem tallyOf_nil (identity : String × OrderId) :
    tallyOf identity ([] : List (Report D)) = 0 := rfl

/-- The books of one order. -/
structure Balanced (o : Order D) : Prop where
  executed : 0 ≤ o.cumQuantity
  open_ : 0 ≤ o.remaining
  covered : o.cumQuantity ≤ o.quantity
  total : o.state ≠ .expired → val o.quantity = val o.cumQuantity + val o.remaining

/-- `o'` is `o` after executions that amount to `t`. -/
structure Executes (o o' : Order D) (t : Tally) : Prop where
  quantity : o'.quantity = o.quantity
  remaining : val o'.remaining = val o.remaining - t.1
  tally : o'.tally = o.tally + t
  sign : 0 ≤ t.1

section Exact

variable [ExactDecimal D]

omit [ExactDecimal D] in
theorem Executes.refl (o : Order D) : Executes o o 0 :=
  ⟨rfl, by simp, by simp, le_rfl⟩

omit [ExactDecimal D] in
theorem Executes.trans {a b c : Order D} {t u : Tally} (h : Executes a b t) (h' : Executes b c u) :
    Executes a c (t + u) := by
  refine ⟨h'.quantity.trans h.quantity, ?_, ?_, add_nonneg h.sign h'.sign⟩
  · rw [h'.remaining, h.remaining, Prod.fst_add]
    linarith
  · rw [h'.tally, h.tally, add_assoc]

/-- One fill. -/
theorem executes_fill {o o' : Order D} {quantity price : D}
    (f : OrderBook.FillOf o quantity price o') (executed : 0 ≤ o.cumQuantity)
    (positive : 0 < quantity) : Executes o o' (val quantity, val price * val quantity) := by
  have hcum := val_add f.cum
  have hq : 0 < val quantity := val_pos.mpr positive
  have hc : 0 ≤ val o.cumQuantity := val_nonneg.mpr executed
  have some_ : o'.cumQuantity ≠ 0 := by
    intro hz
    rw [hz, LawfulDecimal.val_zero] at hcum
    linarith
  refine ⟨f.quantity, val_sub f.remaining, ?_, hq.le⟩
  have average := f.average
  unfold averagePrice at average
  rw [if_neg some_] at average
  obtain ⟨before, hbefore, average⟩ := Exec.bind_ok.mp average
  obtain ⟨now, hnow, average⟩ := Exec.bind_ok.mp average
  obtain ⟨sum, hsum, average⟩ := Exec.bind_ok.mp average
  have hne : val o'.cumQuantity ≠ 0 := by rw [hcum]; linarith
  apply Prod.ext
  · exact hcum
  · change val o'.avgPrice * val o'.cumQuantity = _
    rw [val_div average, div_mul_cancel₀ _ hne, val_add hsum, val_mul hbefore, val_mul hnow]
    rfl

theorem Balanced.executes {o o' : Order D} {t : Tally} (b : Balanced o) (alive : o.state ≠ .expired)
    (h : Executes o o' t) (open_ : 0 ≤ o'.remaining) : Balanced o' := by
  have total := b.total alive
  have hcum : val o'.cumQuantity = val o.cumQuantity + t.1 := congrArg Prod.fst h.tally
  have hrem := val_nonneg.mpr open_
  have hexec := val_nonneg.mpr b.executed
  have sign := h.sign
  have rest := h.remaining
  have balance : val o'.quantity = val o'.cumQuantity + val o'.remaining := by
    rw [h.quantity, hcum, rest, total]
    linarith
  refine ⟨val_nonneg.mp (by rw [hcum]; linarith), open_, val_le.mp (by linarith), fun _ => balance⟩

omit [ExactDecimal D] in
/-- Its state and its other fields do not matter to the books of an order. -/
theorem Balanced.restated {o o' : Order D} (b : Balanced o) (alive : o.state ≠ .expired)
    (quantity : o'.quantity = o.quantity) (cum : o'.cumQuantity = o.cumQuantity)
    (remaining : o'.remaining = o.remaining) : Balanced o' := by
  refine ⟨cum ▸ b.executed, remaining ▸ b.open_, ?_, ?_⟩
  · rw [cum, quantity]
    exact b.covered
  · intro _
    rw [quantity, cum, remaining]
    exact b.total alive

omit [ExactDecimal D] [Decimal D] in
theorem alive_of_active {o : Order D} (h : o.state.isActive) : o.state ≠ .expired := by
  intro same
  rw [same] at h
  cases h

/-- A fill keeps the books, and does not expire the order. -/
theorem balanced_fill {o o' : Order D} {quantity price : D} (b : Balanced o)
    (alive : o.state ≠ .expired) (f : OrderBook.FillOf o quantity price o')
    (positive : 0 < quantity) (covered : quantity ≤ o.remaining) :
    Balanced o' ∧ o'.state ≠ .expired := by
  refine ⟨b.executes alive (executes_fill f b.executed positive)
    (nonneg_of_sub covered f.remaining), ?_⟩
  rw [f.state]
  split <;> decide

/-- The books of everybody in a walk. -/
structure Walked.Kept (trades : List (RawTrade D)) (left : Order D) (untouched : List (Order D)) :
    Prop where
  parties : ∀ t ∈ trades, Balanced t.buyer ∧ Balanced t.seller
  left : Balanced left ∧ left.state ≠ .expired
  untouched : ∀ o ∈ untouched, Balanced o

theorem Walked.kept {incoming left : Order D} {queue untouched : List (Order D)}
    {trades : List (RawTrade D)} (w : Walked incoming queue trades left untouched)
    (b : Balanced incoming) (alive : incoming.state ≠ .expired)
    (resting : ∀ r ∈ queue, Balanced r ∧ r.state.isActive ∧ 0 < r.remaining) :
    Walked.Kept trades left untouched := by
  induction w with
  | stop => exact ⟨by simp, ⟨b, alive⟩, fun o ho => (resting o ho).1⟩
  | @trade incoming r filled hit left rest untouched trades quantity open_ size fill fillHit _ ih =>
    obtain ⟨remains, -⟩ := not_or.mp open_
    obtain ⟨br, active, positive⟩ := resting r List.mem_cons_self
    have sized : 0 < quantity := by
      rw [size]
      exact minDecimal_pos (lt_of_le_of_ne b.open_ (Ne.symm remains)) positive
    obtain ⟨bf, af⟩ := balanced_fill b alive (OrderBook.applyFill_spec fill) sized
      (size ▸ minDecimal_le_left _ _)
    obtain ⟨bh, -⟩ := balanced_fill br (alive_of_active active)
      (OrderBook.applyFill_spec fillHit) sized (size ▸ minDecimal_le_right _ _)
    obtain ⟨parties, last, others⟩ := ih bf af (fun o ho => resting o (List.mem_cons_of_mem _ ho))
    refine ⟨?_, last, ?_⟩
    · intro t ht
      rcases List.mem_cons.mp ht with rfl | ht
      · cases incoming.side with
        | buy => exact ⟨bf, bh⟩
        | sell => exact ⟨bh, bf⟩
      · exact parties t ht
    · intro o ho
      rcases List.mem_append.mp ho with ho | ho
      · rw [(mem_keep.mp ho).1]
        exact bh
      · exact others o ho

omit [ExactDecimal D] in
theorem partyTally_silent {identity : String × OrderId} {trades : List (RawTrade D)}
    (h : OrderBook.lastSnapshot identity trades = none) :
    partyTally identity (Engine.parties trades) = 0 := by
  have none_ := snapshots_silent h
  unfold snapshots at none_
  rw [List.filter_map, List.map_eq_nil_iff] at none_
  unfold partyTally
  have same : (Engine.parties trades).filter (fun p => p.1.identity = identity) = [] := none_
  rw [same]
  rfl

omit [ExactDecimal D] in
theorem partyTally_cons (identity : String × OrderId) (side : Side) (incoming resting : Order D)
    (price quantity : D) (trades : List (RawTrade D)) :
    partyTally identity (Engine.parties
      (sideTrade side incoming resting price quantity :: trades)) =
      (if incoming.identity = identity then (val quantity, val price * val quantity) else 0) +
      (if resting.identity = identity then (val quantity, val price * val quantity) else 0) +
      partyTally identity (Engine.parties trades) := by
  have split : ∀ a b : Order D, partyTally identity
      ((a, price, quantity) :: (b, price, quantity) :: Engine.parties trades) =
      (if a.identity = identity then (val quantity, val price * val quantity) else 0) +
      ((if b.identity = identity then (val quantity, val price * val quantity) else 0) +
      partyTally identity (Engine.parties trades)) := by
    intro a b
    unfold partyTally
    by_cases ha : a.identity = identity <;> by_cases hb : b.identity = identity <;>
      simp [ha, hb]
  cases side with
  | buy => exact (split incoming resting).trans (add_assoc _ _ _).symm
  | sell =>
    refine (split resting incoming).trans ?_
    rw [← add_assoc]
    congr 1
    exact add_comm _ _

/-- The incoming order executes what the trades say about it. -/
theorem Walked.executes_incoming {incoming left : Order D} {queue untouched : List (Order D)}
    {trades : List (RawTrade D)} (w : Walked incoming queue trades left untouched)
    (b : Balanced incoming) (alive : incoming.state ≠ .expired)
    (positive : ∀ r ∈ queue, 0 < r.remaining)
    (apart : ∀ r ∈ queue, r.identity ≠ incoming.identity) :
    Executes incoming left (partyTally incoming.identity (Engine.parties trades)) := by
  induction w with
  | stop => exact .refl _
  | @trade incoming r filled hit left rest untouched trades quantity open_ size fill fillHit _ ih =>
    obtain ⟨remains, -⟩ := not_or.mp open_
    have f := OrderBook.applyFill_spec fill
    have g := OrderBook.applyFill_spec fillHit
    have sized : 0 < quantity := by
      rw [size]
      exact minDecimal_pos (lt_of_le_of_ne b.open_ (Ne.symm remains))
        (positive r List.mem_cons_self)
    obtain ⟨bf, af⟩ := balanced_fill b alive f sized (size ▸ minDecimal_le_left _ _)
    have apartHit : hit.identity ≠ incoming.identity := by
      rw [g.identity]
      exact apart r List.mem_cons_self
    have tail := ih bf af (fun o ho => positive o (List.mem_cons_of_mem _ ho)) (by
      intro o ho
      rw [f.identity]
      exact apart o (List.mem_cons_of_mem _ ho))
    rw [partyTally_cons, if_pos f.identity, if_neg apartHit, add_zero]
    rw [f.identity] at tail
    exact (executes_fill f b.executed sized).trans tail

/-- A resting order executes what the trades say about it. -/
theorem Walked.executes_resting {incoming left : Order D} {queue untouched : List (Order D)}
    {trades : List (RawTrade D)} (w : Walked incoming queue trades left untouched)
    (nonneg : 0 ≤ incoming.remaining)
    (resting : ∀ r ∈ queue, Balanced r ∧ 0 < r.remaining)
    (distinct : Keyed.Distinct Order.identity queue) {r : Order D} (hr : r ∈ queue)
    (apart : incoming.identity ≠ r.identity) :
    Executes r ((OrderBook.lastSnapshot r.identity trades).getD r)
      (partyTally r.identity (Engine.parties trades)) := by
  induction w with
  | stop => exact .refl _
  | @trade incoming head filled hit left rest untouched trades quantity open_ size fill fillHit tail
      ih =>
    obtain ⟨remains, -⟩ := not_or.mp open_
    have f := OrderBook.applyFill_spec fill
    have g := OrderBook.applyFill_spec fillHit
    obtain ⟨fresh, distinct'⟩ := Keyed.distinct_cons.mp distinct
    have apart' : filled.identity ≠ r.identity := by rw [f.identity]; exact apart
    rw [lastSnapshot_cons, partyTally_cons, if_neg apart', zero_add]
    rcases List.mem_cons.mp hr with rfl | hr
    · obtain ⟨br, positive⟩ := resting r List.mem_cons_self
      have sized : 0 < quantity := by
        rw [size]
        exact minDecimal_pos (lt_of_le_of_ne nonneg (Ne.symm remains)) positive
      have silent := tail.snapshot_other apart' (fun o ho => fresh o ho)
      have last : OrderBook.lastSnapshot r.identity
          [sideTrade incoming.side filled hit r.price quantity] = some hit := by
        cases incoming.side <;>
          simp [OrderBook.lastSnapshot, sideTrade, g.identity, apart']
      rw [silent, partyTally_silent silent, if_pos g.identity, add_zero, last]
      exact executes_fill g br.executed sized
    · have other : hit.identity ≠ r.identity := by
        rw [g.identity]
        exact (fresh r hr).symm
      have quiet : OrderBook.lastSnapshot r.identity
          [sideTrade incoming.side filled hit head.price quantity] = none := by
        cases incoming.side <;>
          simp [OrderBook.lastSnapshot, sideTrade, other, apart']
      rw [quiet, Option.or_none, if_neg other, zero_add]
      exact ih (fill_nonneg fill (size ▸ minDecimal_le_left _ _))
        (fun o ho => resting o (List.mem_cons_of_mem _ ho)) distinct' hr apart'

/-- Everything a view shows has its books in order. -/
structure View.Accounted (v : View D) : Prop where
  resting : ∀ i side, ∀ o ∈ v.queue i side, Balanced o
  recorded : ∀ s id r, v.record s id = some r → Balanced r

omit [ExactDecimal D] in
theorem View.Accounted.setRecord {v : View D} (h : v.Accounted) {s : String} {id : OrderId}
    {record : Option (Order D)} (balanced : ∀ r, record = some r → Balanced r) :
    (v.setRecord s id record).Accounted := by
  refine ⟨h.resting, ?_⟩
  intro s' id' r hr
  simp only [View.setRecord] at hr
  split at hr
  · exact balanced r hr
  · exact h.recorded s' id' r hr

namespace Coherent.Added

variable {v : View D} {gap : Gap} {order left final : Order D} {trades : List (RawTrade D)}
  {book' : OrderBook D}

omit [ExactDecimal D] in
theorem booked (b : Balanced order) (alive : order.state ≠ .expired) :
    Balanced ({ order with state := .booked } : Order D) := b.restated alive rfl rfl rfl

theorem kept (a : Added v gap order trades left final book') (accounted : v.Accounted)
    (b : Balanced order) (alive : order.state ≠ .expired) :
    Walked.Kept trades left (book'.queue order.side.opposite) := by
  refine a.walked.kept (booked b alive) (fun same => by cases same) ?_
  intro r hr
  have fit := a.coherent.fit _ _ r hr
  exact ⟨accounted.resting _ _ r hr, fit.active, fit.positive⟩

theorem balanced_final (a : Added v gap order trades left final book') (accounted : v.Accounted)
    (b : Balanced order) (alive : order.state ≠ .expired) : Balanced final := by
  obtain ⟨bl, al⟩ := (a.kept accounted b alive).left
  rcases a.final_cases with ⟨rfl, -⟩ | ⟨-, -, rfl⟩
  · exact bl
  · exact bl.restated al rfl rfl rfl

/-- The order that is added executes what the trades say. -/
theorem executes_self (a : Added v gap order trades left final book')
    (b : Balanced order) (alive : order.state ≠ .expired) (regular : order.id ≠ quoteOrderId) :
    Executes order final (partyTally order.identity (Engine.parties trades)) := by
  have open_ : gap = some order.identity := by
    cases a.arrives.opening with
    | request _ hg _ => exact hg
    | leg quote => exact absurd quote regular
  have w := a.walked.executes_incoming (booked b alive) (fun same => by cases same)
    (fun r hr => (a.coherent.fit _ _ r hr).positive)
    (fun r hr => a.coherent.absent _ open_ _ _ r hr)
  have same : final.quantity = left.quantity ∧ final.remaining = left.remaining ∧
      final.tally = left.tally := by
    rcases a.final_cases with ⟨rfl, -⟩ | ⟨-, -, rfl⟩ <;> exact ⟨rfl, rfl, rfl⟩
  obtain ⟨hq, hr, ht⟩ := same
  refine ⟨hq.trans w.quantity, ?_, ht.trans w.tally, w.sign⟩
  rw [hr]
  exact w.remaining

/-- Every other record executes what the trades say. -/
theorem executes_other (a : Added v gap order trades left final book') (accounted : v.Accounted)
    (b : Balanced order) (alive : order.state ≠ .expired) {s : String} {id : OrderId}
    (regular : id ≠ quoteOrderId) (other : (s, id) ≠ order.identity) {r : Order D}
    (recorded : v.record s id = some r) :
    ∃ r', (v.added order trades final book').record s id = some r' ∧ Balanced r' ∧
      Executes r r' (partyTally (s, id) (Engine.parties trades)) := by
  by_cases resting : ∃ x ∈ v.queue order.instrumentId order.side.opposite, x.identity = (s, id)
  · obtain ⟨x, hx, same⟩ := resting
    obtain ⟨rfl, rfl⟩ := Prod.mk.inj same
    have owned := (a.coherent.owned _ _ x hx).record regular
    obtain rfl := Option.some.inj (recorded.symm.trans owned)
    have kept := a.kept accounted b alive
    have executes := a.walked.executes_resting (booked b alive).open_
      (fun o ho => ⟨accounted.resting _ _ o ho, (a.coherent.fit _ _ o ho).positive⟩)
      ((a.coherent.filed order.instrumentId).distinct _) hx (Ne.symm other)
    have after := a.record_other other
    rw [View.afterTrades, recorded] at after
    have key : OrderBook.lastSnapshot (r.sessionId, r.id) trades =
        OrderBook.lastSnapshot r.identity trades := rfl
    rw [key] at after
    cases a.fate hx regular with
    | spared silent mem =>
      rw [silent] at after executes
      exact ⟨r, after, kept.untouched r mem, executes⟩
    | reduced hit last hc _ _ mem =>
      rw [last] at after executes
      rw [Option.map_some, Option.map_some, Option.getD_some, View.copyFill_of_continues hc]
        at after
      exact ⟨hit, after, kept.untouched hit mem, executes⟩
    | consumed hit last hc done _ _ =>
      rw [last] at after executes
      rw [Option.map_some, Option.map_some, Option.getD_some, View.copyFill_of_continues hc]
        at after
      refine ⟨hit, after, ?_, executes⟩
      have active := (a.coherent.fit _ _ r hx).active
      exact (accounted.resting _ _ r hx).executes (alive_of_active active) executes done.ge
  · have silent : ∀ x ∈ v.queue order.instrumentId order.side.opposite, x.identity ≠ (s, id) :=
      fun x hx same => resting ⟨x, hx, same⟩
    rw [a.record_silent other silent,
      partyTally_silent (a.walked.snapshot_other (Ne.symm other) silent)]
    exact ⟨r, recorded, accounted.recorded s id r recorded, .refl r⟩

/-- Adding a balanced order keeps all books. -/
theorem accounted (a : Added v gap order trades left final book') (h : v.Accounted)
    (b : Balanced order) (alive : order.state ≠ .expired) :
    (v.added order trades final book').Accounted := by
  constructor
  · intro i side o ho
    rcases a.origin ho with ⟨ho, -⟩ | ⟨-, -, rfl, -⟩ | ⟨-, -, ho⟩
    · exact h.resting i side o ho
    · exact a.balanced_final h b alive
    · exact (a.kept h b alive).untouched o ho
  · intro s id r hr
    by_cases self : (s, id) = order.identity
    · obtain ⟨rfl, rfl⟩ := Prod.mk.inj self
      have regular := (a.coherent_after.keyed _ _ r hr).2.2
      rw [a.record_self regular] at hr
      obtain rfl := Option.some.inj hr
      exact a.balanced_final h b alive
    · cases hr0 : v.record s id with
      | none =>
        rw [a.record_other self, afterTrades_none trades hr0] at hr
        cases hr
      | some r0 =>
        have regular := (a.coherent.keyed _ _ r0 hr0).2.2
        obtain ⟨r', hr', balanced, -⟩ := a.executes_other h b alive regular self hr0
        obtain rfl := Option.some.inj (hr.symm.trans hr')
        exact balanced

end Coherent.Added

/-- An order nothing of which has been executed. -/
theorem balanced_fresh {o : Order D} (fresh : o.cumQuantity = 0) (whole : o.remaining = o.quantity)
    (positive : 0 < o.remaining) : Balanced o := by
  refine ⟨fresh.ge, positive.le, ?_, ?_⟩
  · rw [fresh, ← whole]
    exact positive.le
  · intro _
    rw [fresh, whole, LawfulDecimal.val_zero, zero_add]

/-- A leg keeps all books, and other orders execute what the trades say. -/
theorem legMatched_accounts {v v' : View D} {s : String} {i : Int} {exchangeId : String}
    {trades : List (RawTrade D)} (h : v.Accounted)
    (m : Engine.LegMatched s i exchangeId v v' trades) :
    v'.Accounted ∧ (∀ t ∈ trades, Balanced t.buyer ∧ Balanced t.seller) ∧
      ∀ s id, id ≠ quoteOrderId → ∀ r', v'.record s id = some r' → ∃ r, v.record s id = some r ∧
        Executes r r' (partyTally (s, id) (Engine.parties trades)) := by
  cases m with
  | idle => exact ⟨h, by simp, fun s id _ r hr => ⟨r, hr, .refl r⟩⟩
  | @matched order left final trades book' terms a =>
    have b := balanced_fresh terms.fresh terms.whole a.arrives.positive
    have alive := alive_of_active terms.active
    refine ⟨a.accounted h b alive, (a.kept h b alive).parties, ?_⟩
    intro s id regular r' hr'
    have other : (s, id) ≠ order.identity := fun same =>
      regular ((Prod.mk.inj same).2.trans terms.quoted)
    cases hr : v.record s id with
    | none =>
      rw [a.record_other other, afterTrades_none trades hr] at hr'
      cases hr'
    | some r =>
      obtain ⟨r'', hr'', -, executes⟩ := a.executes_other h b alive regular other hr
      obtain rfl := Option.some.inj (hr'.symm.trans hr'')
      exact ⟨r, rfl, executes⟩

/-- What an order executes by its plan is what is reported of it. -/
theorem fills_executes {symbolOf : Int → String} {price : D} {o last : Order D} {plan : List D}
    {snaps : List (Order D)} (f : Fills price o plan snaps last) (b : Balanced o)
    (alive : o.state ≠ .expired) : ∀ {fills : List (Report D)},
    List.Forall₂ (fun (p : D × Order D) report => ∃ execId, report =
      .fill p.2 (symbolOf p.2.instrumentId) price p.1 execId none) (plan.zip snaps) fills →
    Balanced last ∧ last.state ≠ .expired ∧ (∀ report ∈ fills, Balanced report.order) ∧
      Executes o last (tallyOf o.identity fills) := by
  induction f with
  | done =>
    intro fills told
    cases told
    exact ⟨b, alive, by simp, .refl _⟩
  | @fill o filled last chunk plan snaps positive covered apply _ ih =>
    intro fills told
    have f := OrderBook.applyFill_spec apply
    obtain ⟨bf, af⟩ := balanced_fill b alive f positive covered
    rw [List.zip_cons_cons] at told
    cases told with
    | @cons _ report _ rest first tail =>
      obtain ⟨execId, rfl⟩ := first
      obtain ⟨bl, al, others, executes⟩ := ih bf af tail
      refine ⟨bl, al, ?_, ?_⟩
      · intro report hreport
        rcases List.mem_cons.mp hreport with rfl | hreport
        · exact bf
        · exact others report hreport
      · have here : tallyOf o.identity (.fill filled
          (symbolOf filled.instrumentId) price chunk execId
            none :: rest) = (val chunk, val price * val chunk) + tallyOf o.identity rest := by
          simp [tallyOf, Report.order, Report.tally, f.identity]
        rw [here]
        rw [f.identity] at executes
        exact (executes_fill f b.executed positive).trans executes

end Exact

end RustTrader
