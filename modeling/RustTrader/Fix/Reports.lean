import RustTrader.Loading
import RustTrader.Fix.Announcements
import RustTrader.Fix.Requests

/-!
# Reports of the exchange

An execution report is decoded to what was reported. What the profile asks of it
holds of every report an engine sends: its quantities are not negative, a fill
has a positive price and quantity, and its texts can be written. What is left is
the quantity a decoder would add up if none were given.
-/

namespace RustTrader

open Decimal

namespace Fix

variable {D : Type} [Decimal D]

/-- The state a report shows: a new order is booked, and so is a replacement
without executions. -/
def shownState (report : Report D) : OrderState :=
  if eventOf report = .replaced ∧ report.order.cumQuantity = 0 then .booked
  else if report.order.state = .new then .booked
  else report.order.state

def isFill : Report D → Bool
  | .status .. => false
  | .fill .. => true

/-- What the owner is to learn from a report. -/
def reported (report : Report D) : ExecReportData D where
  exchangeId := report.order.exchangeId
  clOrdId := if clOrdIdOf report = 0 then "" else toString (clOrdIdOf report)
  origClOrdId := (origClOrdIdOf report).map toString
  symbol := symbolOf report
  state := shownState report
  isFill := isFill report
  side := report.order.side
  price := if report.order.orderType = .limit then report.order.price else 0
  quantity := report.order.quantity
  remaining := report.order.leaves
  lastPrice := (lastOf report).1
  lastQuantity := (lastOf report).2

/-- What the profile asks of a report. -/
structure Reportable (report : Report D) : Prop where
  exchangeId : Value report.order.exchangeId
  execId : Value (execIdOf report)
  symbol : Value (symbolOf report)
  executed : 0 ≤ report.order.cumQuantity
  open_ : 0 ≤ report.order.leaves
  average : 0 ≤ report.order.avgPrice
  event : isFill report = false → eventOf report ≠ .partialFill ∧ eventOf report ≠ .fill
  filled : isFill report = true → 0 < (lastOf report).1 ∧ 0 < (lastOf report).2
  original : eventOf report = .replaced → (origClOrdIdOf report).isSome

theorem buildExecutionReport_eq (now : String) (report : Report D) :
    buildExecutionReport now report =
      [(37, report.order.exchangeId), (17, execIdOf report), (20, "0"),
        (150, execTypeToFix (eventOf report)), (39, statusText (eventOf report) report.order),
        (55, symbolOf report), (54, sideToFix report.order.side),
        (38, fixDecimal report.order.quantity), (40, ordTypeToFix report.order.orderType),
        (151, fixDecimal report.order.leaves), (14, fixDecimal report.order.cumQuantity),
        (6, fixDecimal report.order.avgPrice), (60, now)] ++
      ((if clOrdIdOf report ≠ 0 then [(11, toString (clOrdIdOf report))] else []) ++
      (((origClOrdIdOf report).toList.map fun original => (41, toString original)) ++
      ((if report.order.orderType = .limit then [(44, fixDecimal report.order.price)] else []) ++
      [(31, fixDecimal (lastOf report).1), (32, fixDecimal (lastOf report).2)]))) := by
  simp only [buildExecutionReport, List.append_assoc]
  rfl

/-- The optional fields of a report: identifiers and a price. -/
def reportTags (report : Report D) : List Nat :=
  [37, 17, 20, 150, 39, 55, 54, 38, 40, 151, 14, 6, 60] ++
    ((if clOrdIdOf report ≠ 0 then [11] else []) ++
    ((if (origClOrdIdOf report).isSome then [41] else []) ++
    ((if report.order.orderType = .limit then [44] else []) ++ [31, 32])))

theorem report_tags (now : String) (report : Report D) :
    (buildExecutionReport now report).map Prod.fst = reportTags report := by
  rw [buildExecutionReport_eq, reportTags]
  simp only [List.map_append, List.map_map]
  congr 2
  · split <;> rfl
  · congr 1
    · cases origClOrdIdOf report <;> rfl
    · congr 1
      split <;> rfl

omit [Decimal D] in
theorem report_shape (report : Report D) :
    Shape "8" [37, 17, 20, 150, 39, 55, 54, 151, 14, 6] (reportTags report) := by
  have shape : ∀ clOrdId orig limit : Bool,
      Shape "8" [37, 17, 20, 150, 39, 55, 54, 151, 14, 6]
        ([37, 17, 20, 150, 39, 55, 54, 38, 40, 151, 14, 6, 60] ++
          ((if clOrdId then [11] else []) ++ ((if orig then [41] else []) ++
          ((if limit then [44] else []) ++ [31, 32])))) := by
    intro clOrdId orig limit
    cases clOrdId <;> cases orig <;> cases limit <;>
      exact ⟨rfl, by decide, rfl, by decide, by decide⟩
  have here := shape (decide (clOrdIdOf report ≠ 0)) (origClOrdIdOf report).isSome
    (decide (report.order.orderType = .limit))
  simp only [decide_eq_true_eq] at here
  exact here

theorem report_values [DecimalText D] [LawfulText D] {report : Report D} (ok : Reportable report)
    {now : String} (time : Value now) :
    ∀ field ∈ buildExecutionReport now report, Value field.2 := by
  have event : Value (execTypeToFix (eventOf report)) := by cases eventOf report <;> decide
  have status : Value (statusText (eventOf report) report.order) := by
    unfold statusText
    split
    · decide
    · cases report.order.state <;> decide
  have sided : Value (sideToFix report.order.side) := by cases report.order.side <;> decide
  have typed : Value (ordTypeToFix report.order.orderType) := by
    cases report.order.orderType <;> decide
  have zero : Value "0" := by decide
  rw [buildExecutionReport_eq]
  simp only [List.forall_mem_append, List.forall_mem_cons]
  refine ⟨⟨ok.exchangeId, ok.execId, zero, event, status, ok.symbol, sided, value_fixDecimal _,
    typed,
    value_fixDecimal _, value_fixDecimal _, value_fixDecimal _, time, by simp⟩, ?_, ?_, ?_,
    value_fixDecimal _, value_fixDecimal _, by simp⟩
  · split
    · intro field hfield
      rw [List.mem_singleton.mp hfield]
      exact value_toString _
    · simp
  · intro field hfield
    obtain ⟨original, -, rfl⟩ := List.mem_map.mp hfield
    exact value_toString original
  · split
    · intro field hfield
      rw [List.mem_singleton.mp hfield]
      exact value_fixDecimal _
    · simp

section

variable {now : String} {report : Report D} {m : FixMessage}

/-- A message with the fields of a report. -/
abbrev HoldsReport (m : FixMessage) (now : String) (report : Report D) : Prop :=
  Request.Holds m (buildExecutionReport now report)

theorem get_front (h : HoldsReport m now report) {tag : Nat} {value : String}
    (extra : tag ∉ headerTagsBuilt) (found : ([(37, report.order.exchangeId), (17, execIdOf report),
      (20, "0"), (150, execTypeToFix (eventOf report)),
      (39, statusText (eventOf report) report.order), (55, symbolOf report),
      (54, sideToFix report.order.side), (38, fixDecimal report.order.quantity),
      (40, ordTypeToFix report.order.orderType), (151, fixDecimal report.order.leaves),
      (14, fixDecimal report.order.cumQuantity), (6, fixDecimal report.order.avgPrice),
      (60, now)] : Fields).find? (fun field => field.1 == tag) = some (tag, value)) :
    m.get tag = some value := by
  rw [h tag extra, buildExecutionReport_eq, List.find?_append, found]
  rfl

theorem get_clOrdId (h : HoldsReport m now report) : m.get 11 =
    if clOrdIdOf report = 0 then none else some (toString (clOrdIdOf report)) := by
  rw [h 11 (by decide), buildExecutionReport_eq]
  by_cases zero : clOrdIdOf report = 0
  · simp only [zero, ne_eq, not_true_eq_false, if_true, if_false]
    cases origClOrdIdOf report <;> cases report.order.orderType <;> rfl
  · simp only [zero, ne_eq, not_false_eq_true, if_true, if_false]
    rfl

theorem get_origClOrdId (h : HoldsReport m now report) :
    m.get 41 = (origClOrdIdOf report).map toString := by
  rw [h 41 (by decide), buildExecutionReport_eq]
  by_cases zero : clOrdIdOf report = 0
  · simp only [zero, ne_eq, not_true_eq_false, if_false]
    cases origClOrdIdOf report <;> cases report.order.orderType <;> rfl
  · simp only [zero, ne_eq, not_false_eq_true, if_true]
    cases origClOrdIdOf report <;> cases report.order.orderType <;> rfl

theorem get_rear (h : HoldsReport m now report) :
    m.get 44 = (if report.order.orderType = .limit then some (fixDecimal report.order.price)
      else none) ∧
    m.get 31 = some (fixDecimal (lastOf report).1) ∧
    m.get 32 = some (fixDecimal (lastOf report).2) := by
  rw [h 44 (by decide), h 31 (by decide), h 32 (by decide), buildExecutionReport_eq]
  by_cases zero : clOrdIdOf report = 0
  · simp only [zero, ne_eq, not_true_eq_false, if_false]
    cases origClOrdIdOf report <;> cases report.order.orderType <;> exact ⟨rfl, rfl, rfl⟩
  · simp only [zero, ne_eq, not_false_eq_true, if_true]
    cases origClOrdIdOf report <;> cases report.order.orderType <;> exact ⟨rfl, rfl, rfl⟩

theorem ordStatus_decoded (report : Report D) :
    ordStatusFromFix (statusText (eventOf report) report.order) = .ok (shownState report) := by
  have replaced : execTypeToFix (eventOf report) = "5" ↔ eventOf report = .replaced := by
    cases eventOf report <;> decide
  unfold statusText shownState
  simp only [replaced]
  split
  · rfl
  · cases report.order.state <;> rfl

variable [DecimalText D] [LawfulText D]

/-- The price or quantity of a fill, or what a status shows there. -/
theorem lastField_decoded {tag : Nat} {d : D} {fill : Bool} (h : m.get tag = some (fixDecimal d))
    (positive : fill = true → 0 < d) : lastField m fill tag = .ok d := by
  unfold lastField
  cases fill with
  | true =>
    rw [if_pos rfl, positive_cases h, if_neg (not_le.mpr (positive rfl))]
  | false =>
    rw [if_neg (by decide)]
    exact optionalDec_some h

omit [DecimalText D] [LawfulText D] in
theorem isFill_event {report : Report D} (ok : Reportable report) :
    ["1", "2"].contains (execTypeToFix (eventOf report)) = isFill report := by
  cases fill : isFill report with
  | true =>
    cases report with
    | status => cases fill
    | fill order symbol price quantity execId orig =>
      unfold eventOf
      dsimp only
      split <;> rfl
  | false =>
    obtain ⟨whole, part⟩ := ok.event fill
    cases event : eventOf report <;> first
      | exact absurd event whole
      | exact absurd event part
      | rfl

theorem reportFields_decoded (ok : Reportable report) (h : HoldsReport m now report) :
    reportFields m = .ok ({ reported report with quantity := 0 },
      some report.order.quantity, report.order.cumQuantity) := by
  obtain ⟨g44, g31, g32⟩ := get_rear h
  have g20 : m.get 20 = some "0" := get_front h (by decide) rfl
  have g150 : m.get 150 = some (execTypeToFix (eventOf report)) := get_front h (by decide) rfl
  have g14 : m.get 14 = some (fixDecimal report.order.cumQuantity) :=
    get_front h (by decide) rfl
  have g151 : m.get 151 = some (fixDecimal report.order.leaves) := get_front h (by decide) rfl
  have g6 : m.get 6 = some (fixDecimal report.order.avgPrice) := get_front h (by decide) rfl
  have g37 : m.get 37 = some report.order.exchangeId := get_front h (by decide) rfl
  have g55 : m.get 55 = some (symbolOf report) := get_front h (by decide) rfl
  have g39 : m.get 39 = some (statusText (eventOf report) report.order) :=
    get_front h (by decide) rfl
  have g54 : m.get 54 = some (sideToFix report.order.side) := get_front h (by decide) rfl
  have g38 : m.get 38 = some (fixDecimal report.order.quantity) := get_front h (by decide) rfl
  have g11 := get_clOrdId h
  have g41 := get_origClOrdId h
  have known : ["0", "1", "2", "4", "5", "8", "C"].contains (execTypeToFix (eventOf report)) =
      true := by cases eventOf report <;> decide
  have replaced : ¬ (execTypeToFix (eventOf report) = "5" ∧ (m.get 11).isSome ∧
      ((origClOrdIdOf report).map toString).isNone) := by
    rintro ⟨event, -, missing⟩
    have kind : eventOf report = .replaced := by
      revert event
      cases eventOf report <;> decide
    obtain ⟨original, some_⟩ := Option.isSome_iff_exists.mp (ok.original kind)
    rw [some_] at missing
    cases missing
  have signs : ¬ (report.order.cumQuantity < 0 ∨ report.order.leaves < 0 ∨
      report.order.avgPrice < 0) := by
    rintro (low | low | low)
    · exact absurd ok.executed (not_le.mpr low)
    · exact absurd ok.open_ (not_le.mpr low)
    · exact absurd ok.average (not_le.mpr low)
  have price : m.optionalDec 44 (0 : D) =
      .ok (if report.order.orderType = .limit then report.order.price else 0) := by
    by_cases limit : report.order.orderType = .limit
    · rw [if_pos limit] at g44 ⊢
      exact optionalDec_some g44
    · rw [if_neg limit] at g44 ⊢
      exact optionalDec_none g44
  have lastPrice := lastField_decoded g31 (fun fill => (ok.filled fill).1)
  have lastQuantity := lastField_decoded g32
    (fun fill => (ok.filled fill).2)
  have clOrdId : (m.get 11).getD "" = (reported report).clOrdId := by
    rw [g11, reported]
    split <;> rfl
  unfold reportFields
  simp only [need_some g20, need_some g150, dec_some g14, dec_some g151, dec_some g6,
    need_some g37, need_some g55, need_some g39, side_some g54, ordStatus_decoded, price,
    isFill_event ok, known, replaced, signs, lastPrice, lastQuantity, g38, parseDecimal_fixDecimal,
    bind, Except.bind, Bool.not_true, Bool.false_eq_true, ne_eq, not_true_eq_false, if_false,
    clOrdId, g41]
  rfl

/-- A report is decoded to what was reported if its quantity could be added up,
and the decoder panics otherwise. -/
theorem decodeExecutionReport_decoded (ok : Reportable report) (h : HoldsReport m now report) :
    decodeExecutionReport m = add report.order.cumQuantity report.order.leaves >>=
      fun _ => .ok (.ok (.executionReport (reported report))) := by
  unfold decodeExecutionReport
  rw [reportFields_decoded ok h]
  rfl

end

omit [Decimal D] in
theorem reportTags_body (report : Report D) : ∀ tag ∈ reportTags report, BodyTag tag := by
  have body : ∀ clOrdId orig limit : Bool, ∀ tag ∈
      [37, 17, 20, 150, 39, 55, 54, 38, 40, 151, 14, 6, 60] ++
        ((if clOrdId then [11] else []) ++ ((if orig then [41] else []) ++
        ((if limit then [44] else []) ++ [31, 32]))), BodyTag tag := by
    intro clOrdId orig limit
    cases clOrdId <;> cases orig <;> cases limit <;> simp [BodyTag]
  have here := body (decide (clOrdIdOf report ≠ 0)) (origClOrdIdOf report).isSome
    (decide (report.order.orderType = .limit))
  simp only [decide_eq_true_eq] at here
  exact here

section

variable [DecimalText D] [LawfulText D] {report : Report D} {sender target now time : String}
  {seq : Nat}

/-- What the exchange writes for a report. -/
def reportOutgoing (report : Report D) (ok : Reportable report) (seq : Nat)
    (sender target now time : String) (htime : Value time) (hsender : Value sender)
    (htarget : Value target) (hnow : Value now) (hseq : seq < 2 ^ 64) : Outgoing where
  msgType := "8"
  seq := seq
  sender := sender
  target := target
  now := now
  fields := buildExecutionReport time report
  msgType_value := by decide
  seq_lt := hseq
  sender_value := hsender
  target_value := htarget
  now_value := hnow
  body_fields := by
    intro field hfield
    refine ⟨reportTags_body report _ ?_, report_values ok htime field hfield⟩
    rw [← report_tags time report]
    exact List.mem_map_of_mem hfield

/-- The frame of a report is parsed, and decoded if its quantity could be added up. -/
theorem report_received [Chrono] (ok : Reportable report) (transact : SendingTime time)
    (hsender : Value sender) (htarget : Value target) (hnow : Value now) (hseq : seq < 2 ^ 64) :
    ∃ m, parseWire (frame "FIX.4.2" "8" seq sender target now (buildExecutionReport time report)) =
        .ok m ∧
      decode m = add report.order.cumQuantity report.order.leaves >>=
        fun _ => .ok (.ok (.executionReport (reported report))) := by
  let out := reportOutgoing report ok seq sender target now time transact.value hsender htarget
    hnow hseq
  have holds : HoldsReport out.message time report := fun tag htag => get_built htag
  have dated : out.message.get 60 = some time := get_front holds (by decide) rfl
  have fitting : Fitting out.message "8" [37, 17, 20, 150, 39, 55, 54, 151, 14, 6] := by
    refine fitting_built (report_tags time report) (report_shape report) out.msgType_value
      hsender htarget hnow (report_values ok transact.value) ?_ ?_
    · intro t ht
      obtain rfl := Option.some.inj (dated.symm.trans ht)
      exact transact
    · exact fun order => absurd order (by decide : ¬ ("8" = "D" ∨ "8" = "G"))
  refine ⟨out.message, out.message_parsed, ?_⟩
  unfold decode
  rw [fitting.named]
  simp only [fitting.validated, if_true]
  exact decodeExecutionReport_decoded ok holds

end

end Fix

namespace Engine

variable {D : Type} [Decimal D]

/-- An order whose report can be written. -/
structure Presentable (instruments : InstrumentMap) (o : Order D) : Prop where
  exchangeId : Fix.Value o.exchangeId
  executed : 0 ≤ o.cumQuantity
  open_ : 0 ≤ o.remaining
  average : 0 ≤ o.avgPrice
  listed : ∃ instrument, instruments.getById o.instrumentId = some instrument

section Lawful

variable [LawfulDecimal D] {instruments : InstrumentMap}

theorem nonneg_of_rounds {outcome : Exec D} {exact_ : ℚ} {c : D} (rounds : Rounds outcome exact_)
    (returned : outcome = .ok c) (nonneg : 0 ≤ exact_) : 0 ≤ c := by
  apply rounds.lower c 0 returned
  rw [LawfulDecimal.val_zero]
  exact nonneg

theorem averagePrice_nonneg {o : Order D} {quantity price newCum average : D}
    (executed : 0 ≤ o.cumQuantity) (before : 0 ≤ o.avgPrice) (sized : 0 ≤ quantity)
    (priced : 0 ≤ price) (total : 0 ≤ newCum)
    (h : averagePrice o quantity price newCum = .ok average) : 0 ≤ average := by
  unfold averagePrice at h
  split at h
  · cases h
    exact le_rfl
  · rename_i some_
    obtain ⟨old, hold, h⟩ := Exec.bind_ok.mp h
    obtain ⟨new, hnew, h⟩ := Exec.bind_ok.mp h
    obtain ⟨sum, hsum, hdiv⟩ := Exec.bind_ok.mp h
    have paid : 0 ≤ old := nonneg_of_rounds (LawfulDecimal.mul_rounds _ _) hold
      (mul_nonneg (val_nonneg.mpr before) (val_nonneg.mpr executed))
    have pays : 0 ≤ new := nonneg_of_rounds (LawfulDecimal.mul_rounds _ _) hnew
      (mul_nonneg (val_nonneg.mpr priced) (val_nonneg.mpr sized))
    have all : 0 ≤ sum := nonneg_of_rounds (LawfulDecimal.add_rounds _ _) hsum
      (add_nonneg (val_nonneg.mpr paid) (val_nonneg.mpr pays))
    exact nonneg_of_rounds (LawfulDecimal.div_rounds _ _ some_) hdiv
      (div_nonneg (val_nonneg.mpr all) (val_nonneg.mpr total))

theorem lasting_presentable : Lasting (Presentable (D := D) instruments) := by
  refine ⟨?_, ?_, ?_⟩
  · intro o o' quantity price h _ f sized covered priced
    have executed : 0 ≤ o'.cumQuantity := nonneg_of_rounds (LawfulDecimal.add_rounds _ _) f.cum
      (add_nonneg (val_nonneg.mpr h.executed) (val_nonneg.mpr sized.le))
    refine ⟨?_, executed, nonneg_of_sub covered f.remaining,
      averagePrice_nonneg h.executed h.average sized.le priced.le executed f.average, ?_⟩
    · rw [f.rest]
      exact h.exchangeId
    · rw [f.instrumentId]
      exact h.listed
  · intro o h _
    exact ⟨h.exchangeId, h.executed, h.open_, h.average, h.listed⟩
  · intro o h
    exact ⟨h.exchangeId, h.executed, le_rfl, h.average, h.listed⟩

omit [LawfulDecimal D] in
theorem Presentable.restated {o : Order D} (h : Presentable instruments o) (state : OrderState) :
    Presentable instruments { o with state := state } :=
  ⟨h.exchangeId, h.executed, h.open_, h.average, h.listed⟩

theorem fresh_presentable {policy : FillPolicy} {e : Engine D} {command : Command D}
    (c : Coherent policy e.view none) (same : e.instruments = instruments)
    (known : ∀ o, e.view.Known o → Presentable instruments o) {o : Order D}
    (fresh : Fresh e command o) : Enters policy (Presentable instruments) o := by
  suffices h : Presentable instruments o from
    ⟨fun _ => h, fun _ => h.restated _, fun _ => h.restated _⟩
  cases fresh with
  | @request today s new asked listed valid =>
    rw [incoming_eq]
    exact ⟨Fix.value_toString _, le_rfl, valid.positive.le, le_rfl, same ▸ listed⟩
  | @replacement today s origId newId orderType price quantity remaining entry asked recorded
      active valid covered remains =>
    obtain ⟨hs, hid, -⟩ := c.keyed s origId entry recorded
    have original := known entry (Or.inl (by rw [hs, hid]; exact recorded))
    exact ⟨original.exchangeId, original.executed, nonneg_of_sub covered remains,
      original.average, original.listed⟩
  | @leg s i bidPrice bidQuantity askPrice askQuantity exchangeId order asked listed named terms
      positive price =>
    refine ⟨?_, terms.fresh.ge, positive.le, terms.average.ge, ?_⟩
    · rw [terms.named]
      rcases named with rfl | rfl
      · exact Fix.value_append (by decide) (Fix.value_toString i).printable
      · exact Fix.value_append (by decide) (Fix.value_toString i).printable
    · rw [terms.place, ← same]
      exact listed

omit [LawfulDecimal D] in
/-- A report of a presentable order that says what its command says. -/
theorem reportable {e : Engine D} {command : Command D} {report : Report D}
    (wordy : e.instruments.Wordy) (announced : Announced e command report)
    (numbered : NumberedId report) (shown : Presentable e.instruments report.order) :
    Fix.Reportable report := by
  obtain ⟨n, execId⟩ := numbered
  obtain ⟨instrument, found⟩ := shown.listed
  have symbol : Fix.Value (e.symbolFor report.order.instrumentId) := by
    obtain ⟨some_, graphic_⟩ := wordy _ instrument found
    rw [symbolFor, found]
    refine ⟨some_, ?_⟩
    intro ch hch
    have both := graphic_ ch hch
    unfold graphic at both
    rw [Bool.and_eq_true, decide_eq_true_eq, decide_eq_true_eq] at both
    exact ⟨by omega, by omega⟩
  have leaves : 0 ≤ report.order.leaves := by
    unfold Order.leaves
    split
    · exact shown.open_
    · exact le_rfl
  have execValue : Fix.Value (Fix.execIdOf report) := by
    rw [execId]
    exact Fix.value_append (by decide) (Fix.value_toString n).printable
  cases announced with
  | fill filled =>
    cases filled with
    | intro priced sized =>
      refine ⟨shown.exchangeId, execValue, symbol, shown.executed, leaves, shown.average,
        fun h => (by cases h), fun _ => ⟨priced, sized⟩, ?_⟩
      intro h
      unfold Fix.eventOf at h
      dsimp only at h
      split at h <;> cases h
  | own kind =>
    refine ⟨shown.exchangeId, execValue, symbol, shown.executed, leaves, shown.average,
      fun _ => ?_, fun h => (by cases h), ?_⟩
    · rcases kind with rfl | rfl | rfl | ⟨rfl, -⟩ <;>
        exact ⟨fun h => (by cases h), fun h => (by cases h)⟩
    · intro h
      rcases kind with rfl | rfl | rfl | ⟨rfl, -⟩ <;> cases h
  | cancelled asked identity =>
    exact ⟨shown.exchangeId, execValue, symbol, shown.executed, leaves, shown.average,
      fun _ => ⟨fun h => (by cases h), fun h => (by cases h)⟩, fun h => (by cases h),
      fun _ => rfl⟩
  | replaced asked identity =>
    exact ⟨shown.exchangeId, execValue, symbol, shown.executed, leaves, shown.average,
      fun _ => ⟨fun h => (by cases h), fun h => (by cases h)⟩, fun h => (by cases h),
      fun _ => rfl⟩

/-- Everything an engine has reported can be written. -/
structure Presents (instruments : InstrumentMap) (e : Engine D) : Prop where
  same : e.instruments = instruments
  numbered : e.Numbered
  known : ∀ o, e.view.Known o → Presentable instruments o
  sent : ∀ report ∈ e.sent, Fix.Reportable report

theorem Presents.step {policy : FillPolicy} {e e' : Engine D} {command : Command D}
    (h : Presents instruments e) (wordy : instruments.Wordy) (c : Coherent policy e.view none)
    (hp : e.fillPolicy = policy) (trades : Trades command) (step : Step e command e') :
    Presents instruments e' := by
  have numbered := h.numbered.step step
  obtain ⟨news, carried⟩ := step_carries lasting_presentable c hp h.known
    (fun o fresh _ => fresh_presentable c h.same h.known fresh) step
  obtain ⟨news', sent, said⟩ := step_announces c hp step
  obtain rfl : news = news' := List.append_cancel_left (carried.sent.symm.trans sent)
  refine ⟨(step_instruments c hp trades step).trans h.same, numbered, carried.known, ?_⟩
  intro report hreport
  have named := numbered.named report hreport
  rw [sent] at hreport
  rcases List.mem_append.mp hreport with before | now
  · exact h.sent report before
  · have shown := carried.told report now
    rw [← h.same] at shown wordy
    exact reportable wordy (said report now) named shown

theorem Loaded.presents {policy : FillPolicy} {text : String} {e : Engine D}
    (loaded : Loaded policy text e) :
    ∃ instruments, Presents instruments e := by
  obtain ⟨start, load, run⟩ := loaded
  obtain ⟨file, made⟩ := loadInstruments_ok load
  have wordy := InstrumentMap.loadFromReader_wordy file
  refine ⟨start.instruments, ?_⟩
  have view : start.view = (withFillPolicy policy : Engine D).view := by
    rw [made]
    rfl
  have coherent : Coherent policy start.view none ∧ start.fillPolicy = policy := by
    rw [view, made]
    exact reachable_coherent .refl
  suffices all : (Coherent policy e.view none ∧ e.fillPolicy = policy) ∧
      Presents start.instruments e from all.2
  induction run with
  | refl =>
    refine ⟨coherent, rfl, ⟨?_⟩, ?_, ?_⟩
    · rw [made]
      simp [withFillPolicy]
    · rw [view]
      intro o known
      rcases known with recorded | ⟨i, side, ho⟩
      · cases recorded
      · cases side <;> cases ho
    · rw [made]
      simp [withFillPolicy]
  | tail _ step ih =>
    obtain ⟨⟨c, hp⟩, presents⟩ := ih
    obtain ⟨command, trades, step⟩ := step
    exact ⟨step_coherent c hp step, presents.step wordy c hp trades step⟩

end Lawful

/-- Every report an engine has sent is decoded to what was reported, if and only
if its executed and open quantity can be added up. -/
theorem reports_decoded [LawfulDecimal D] [DecimalText D] [LawfulText D] [Fix.Chrono]
    {policy : FillPolicy} {text : String} {e : Engine D} (loaded : Loaded policy text e)
    (report : Report D) (sent : report ∈ e.sent) (time : String) (transact : Fix.SendingTime time)
    (sender target now : String) (seq : Nat) (hsender : Fix.Value sender)
    (htarget : Fix.Value target) (hnow : Fix.Value now) (hseq : seq < 2 ^ 64) :
    ∃ m, Fix.parseWire (Fix.frame "FIX.4.2" "8" seq sender target now
        (Fix.buildExecutionReport time report)) = .ok m ∧
      (Fix.decode m = .ok (.ok (.executionReport (Fix.reported report))) ↔
        ∃ sum, add report.order.cumQuantity report.order.leaves = .ok sum) := by
  obtain ⟨instruments, presents⟩ := loaded.presents
  obtain ⟨m, parsed, decoded⟩ := Fix.report_received (presents.sent report sent) transact hsender
    htarget hnow hseq
  refine ⟨m, parsed, ?_⟩
  rw [decoded]
  cases total : add report.order.cumQuantity report.order.leaves with
  | ok sum => exact iff_of_true rfl ⟨sum, rfl⟩
  | error panic =>
    refine iff_of_false ?_ ?_
    · intro h
      cases h
    · rintro ⟨sum, h⟩
      cases h

/-- All there is is offered, and bought in parts too small to be subtracted. -/
def wholeOffer : List (Command Dec96) := [
  .registerSession "a", .registerSession "b",
  .createOrder 1 "a" ⟨1, 1, .sell, .limit, Dec96.literal 1 0,
    Dec96.literal 79228162514264337593543950335 0⟩,
  .createOrder 1 "b" ⟨1, 1, .buy, .limit, Dec96.literal 1 0, Dec96.literal 4 1⟩,
  .createOrder 1 "b" ⟨2, 1, .buy, .limit, Dec96.literal 1 0, Dec96.literal 4 1⟩]

theorem wholeOffer_loaded {e : Engine Dec96}
    (h : replayed .real "1 AAA\n" wholeOffer = some e) : Loaded .real "1 AAA\n" e :=
  replayed_loaded (by decide) h

theorem reports_decoded_sample : ∃ e : Engine Dec96, Loaded .real "1 AAA\n" e ∧ ∃ report ∈ e.sent,
    Fix.isFill report = true ∧ ∃ m, Fix.parseWire (Fix.frame "FIX.4.2" "8" 2 "GOX" "CLIENT"
        "20260912-19:24:59.056" (Fix.buildExecutionReport "20260912-19:24:59.056" report)) =
      .ok m ∧ Fix.decode m = .ok (.ok (.executionReport (Fix.reported report))) := by
  have seen : (replayed .real "1 AAA\n" wholeOffer).map (fun e => e.sent[2]?.map fun report =>
      (Fix.isFill report, (add report.order.cumQuantity report.order.leaves).toOption.isSome)) =
        some (some (true, true)) := by decide +kernel
  obtain ⟨e, played, seen⟩ := Option.map_eq_some_iff.mp seen
  obtain ⟨report, found, seen⟩ := Option.map_eq_some_iff.mp seen
  obtain ⟨fill, total⟩ := Prod.mk.inj seen
  have loaded := wholeOffer_loaded played
  have sent := List.mem_of_getElem? found
  obtain ⟨m, parsed, decoded⟩ := reports_decoded loaded report sent "20260912-19:24:59.056"
    Fix.sendingTime_sample "GOX" "CLIENT" "20260912-19:24:59.056" 2 (by decide) (by decide)
    (by decide) (by decide)
  refine ⟨e, loaded, report, sent, fill, m, parsed, decoded.mpr ?_⟩
  cases sum : add report.order.cumQuantity report.order.leaves with
  | ok c => exact ⟨c, rfl⟩
  | error panic =>
    rw [sum] at total
    cases total

/-- The last report to the seller cannot be decoded. -/
theorem largeReport_undecoded : ∃ e : Engine Dec96, Loaded .real "1 AAA\n" e ∧ ∃ report ∈ e.sent,
    ∃ m, Fix.parseWire (Fix.frame "FIX.4.2" "8" 2 "GOX" "CLIENT"
        "20260912-19:24:59.056" (Fix.buildExecutionReport "20260912-19:24:59.056" report)) =
      .ok m ∧ (Fix.decode m : Exec (Except String (Fix.Inbound Dec96))) = .error .decimal := by
  have seen : (replayed .real "1 AAA\n" wholeOffer).map (fun e => e.sent[4]?.map fun report =>
      (add report.order.cumQuantity report.order.leaves).toOption.isSome) =
        some (some false) := by decide +kernel
  obtain ⟨e, played, seen⟩ := Option.map_eq_some_iff.mp seen
  obtain ⟨report, found, total⟩ := Option.map_eq_some_iff.mp seen
  have loaded := wholeOffer_loaded played
  have sent := List.mem_of_getElem? found
  obtain ⟨instruments, presents⟩ := loaded.presents
  obtain ⟨m, parsed, decoded⟩ := Fix.report_received (presents.sent report sent)
    Fix.sendingTime_sample (by decide : Fix.Value "GOX") (by decide : Fix.Value "CLIENT")
    (by decide : Fix.Value "20260912-19:24:59.056") (by decide : 2 < 2 ^ 64)
  refine ⟨e, loaded, report, sent, m, parsed, ?_⟩
  rw [decoded]
  cases sum : add report.order.cumQuantity report.order.leaves with
  | ok c =>
    rw [sum] at total
    cases total
  | error panic =>
    rw [(LawfulDecimal.add_rounds _ _).panic panic sum]
    rfl

end Engine

end RustTrader
