import RustTrader.Loading
import RustTrader.Quotes
import RustTrader.Fix.Business
import RustTrader.Fix.QuoteLayout

/-!
# The sides of a mass quote

A side that is left out, or has a zero price or size, is to be withdrawn, and a
side with both is to be entered. The engine goes by the prices alone and refuses
a price without a size before it touches the old pair.
-/

namespace RustTrader

open Decimal

variable {D : Type} [Decimal D]

namespace Engine

/-- The session quotes that side of the instrument. -/
def Resting (e : Engine D) (s : String) (i : Int) (side : Side) : Prop :=
  ∃ o ∈ (e.book i).queue side, o.identity = (s, quoteOrderId)

/-- The session has a new leg on that side, which rests or traded. -/
structure Entered (e e' : Engine D) (s : String) (i : Int) (side : Side) (price quantity : D)
    (trades : List (RawTrade D)) (x : Order D) : Prop where
  leg : e'.leg s i side = some x
  price : x.price = price
  quantity : x.quantity = quantity
  new : e.nextArrival < x.arrival
  met : (∃ o ∈ (e'.book i).queue side, o.identity = (s, quoteOrderId) ∧ o.arrival = x.arrival) ∨
    ∃ t ∈ trades, (t.party side).identity = (s, quoteOrderId)

/-- The values of the two sides. -/
def bySide (bid ask : D) : Side → D
  | .buy => bid
  | .sell => ask

theorem quotedLegs_none {e : Engine D} {s : String} {i : Int}
    {bidPrice bidQuantity askPrice askQuantity : D} {side : Side}
    (zero : bySide bidPrice askPrice side = 0) :
    quotedLegs e s i bidPrice bidQuantity askPrice askQuantity side = none := by
  cases side with
  | buy => exact if_pos zero
  | sell => exact if_pos zero

theorem quotedLegs_some {e : Engine D} {s : String} {i : Int}
    {bidPrice bidQuantity askPrice askQuantity : D} {side : Side}
    (priced : bySide bidPrice askPrice side ≠ 0) :
    ∃ x, quotedLegs e s i bidPrice bidQuantity askPrice askQuantity side = some x ∧
      x.identity = (s, quoteOrderId) ∧ x.price = bySide bidPrice askPrice side ∧
      x.quantity = bySide bidQuantity askQuantity side ∧ x.remaining = x.quantity ∧
      e.nextArrival < x.arrival := by
  have some_ : ∃ x, quotedLegs e s i bidPrice bidQuantity askPrice askQuantity side = some x ∧
      x.identity = (s, quoteOrderId) ∧ x.remaining = x.quantity := by
    cases side with
    | buy => exact ⟨_, if_neg priced, rfl, rfl⟩
    | sell => exact ⟨_, if_neg priced, rfl, rfl⟩
  obtain ⟨x, hx, key, open_⟩ := some_
  obtain ⟨buy, sell, arrival⟩ := quotedLegs_terms hx
  refine ⟨x, hx, key, ?_, ?_, open_, arrival⟩
  · cases side with
    | buy => exact (buy rfl).1
    | sell => exact (sell rfl).1
  · cases side with
    | buy => exact (buy rfl).2
    | sell => exact (sell rfl).2

/-- The side of an accepted quote at price zero is withdrawn. -/
theorem QuoteLeaves.withdrawn {e e' : Engine D} {s : String} {i : Int}
    {legs : Side → Option (Order D)} {trades : List (RawTrade D)} {fills : List (Report D)}
    (leaves : QuoteLeaves e e' s i legs trades fills) {side : Side} (none_ : legs side = none) :
    ¬ e'.Resting s i side := by
  rintro ⟨o, mem, key⟩
  obtain ⟨x, hx, -⟩ := leaves.books.current side o mem key
  rw [none_] at hx
  cases hx

/-- A priced side of an accepted quote is entered. -/
theorem QuoteLeaves.entered {e e' : Engine D} {s : String} {i : Int}
    {legs : Side → Option (Order D)} {trades : List (RawTrade D)} {fills : List (Report D)}
    (leaves : QuoteLeaves e e' s i legs trades fills) {side : Side} {x : Order D}
    (some_ : legs side = some x) (key : x.identity = (s, quoteOrderId)) (open_ : x.remaining ≠ 0)
    (new : e.nextArrival < x.arrival) : Entered e e' s i side x.price x.quantity trades x := by
  refine ⟨?_, rfl, rfl, new, ?_⟩
  · have pair := leaves.pairs s i
    rw [if_pos ⟨rfl, rfl⟩] at pair
    unfold leg
    rw [pair]
    cases side with
    | buy => exact some_
    | sell => exact some_
  · by_cases met : ∃ t ∈ trades, (t.party side).identity = (s, quoteOrderId)
    · exact .inr met
    · left
      let resting : Order D := { x with state := .booked }
      have unmet : settled side trades resting = resting :=
        settled_other fun t ht same => met ⟨t, ht, same.trans key⟩
      have mine := leaves.books.mine side
      have stays : resting ∈ tradedQueue side trades (restingLeg (legs side)) := by
        rw [some_]
        refine List.mem_filter.mpr ⟨?_, decide_eq_true open_⟩
        exact List.mem_map.mpr ⟨resting, List.mem_cons_self, unmet⟩
      rw [← mine] at stays
      exact ⟨resting, (List.mem_filter.mp stays).1, key, rfl⟩

/-- Whether a quote is admitted by the prices and sizes of its sides. -/
theorem quote_admitted [LawfulDecimal D] {e e' : Engine D} (reachable : Reachable .real e)
    {s : String} (registered : e.Registered s) {i : Int}
    (listed : ∃ instrument, e.instruments.getById i = some instrument)
    {bidPrice bidQuantity askPrice askQuantity : D} (bid : 0 ≤ bidPrice) (ask : 0 ≤ askPrice)
    {reply : Except EngineError Unit}
    (h : e.quote s i bidPrice bidQuantity askPrice askQuantity = .ok (reply, e')) :
    (∀ side, 0 < bySide bidPrice askPrice side → 0 < bySide bidQuantity askQuantity side) ∧
      reply = .ok () ∨
    (¬ ∀ side, 0 < bySide bidPrice askPrice side → 0 < bySide bidQuantity askQuantity side) ∧
      e' = e ∧ e.tradesOf (.quote s i bidPrice bidQuantity askPrice askQuantity) = [] := by
  obtain ⟨c, policy⟩ := reachable_coherent reachable
  obtain ⟨instrument, listed⟩ := listed
  obtain ⟨session, hs⟩ := registered
  have signed : ¬ (bidPrice < 0 ∨ askPrice < 0) := not_or.mpr ⟨not_lt.mpr bid, not_lt.mpr ask⟩
  by_cases sized : ∀ side, 0 < bySide bidPrice askPrice side →
      0 < bySide bidQuantity askQuantity side
  · left
    refine ⟨sized, ?_⟩
    have bidSized : ¬ (bidPrice ≠ 0 ∧ bidQuantity ≤ 0) := by
      rintro ⟨priced, unsized⟩
      exact absurd (sized .buy (lt_of_le_of_ne bid (Ne.symm priced))) (not_lt.mpr unsized)
    have askSized : ¬ (askPrice ≠ 0 ∧ askQuantity ≤ 0) := by
      rintro ⟨priced, unsized⟩
      exact absurd (sized .sell (lt_of_le_of_ne ask (Ne.symm priced))) (not_lt.mpr unsized)
    have checked : e.checkQuote s i bidPrice bidQuantity askPrice askQuantity = .ok session := by
      unfold checkQuote
      rw [if_neg (by rw [policy]; decide), if_neg (by rw [listed]; simp), if_neg bidSized,
        if_neg askSized, if_neg signed, hs]
    cases reply with
    | ok done => rfl
    | error err => exact (quote_accepts checked h).elim
  · right
    have refused : e.checkQuote s i bidPrice bidQuantity askPrice askQuantity =
        .error .invalidQuantity := by
      unfold checkQuote
      rw [if_neg (by rw [policy]; decide), if_neg (by rw [listed]; simp)]
      by_cases bidUnsized : bidPrice ≠ 0 ∧ bidQuantity ≤ 0
      · rw [if_pos bidUnsized]
      · rw [if_neg bidUnsized]
        by_cases askUnsized : askPrice ≠ 0 ∧ askQuantity ≤ 0
        · rw [if_pos askUnsized]
        · refine absurd ?_ sized
          intro side priced
          by_contra unsized
          cases side with
          | buy => exact bidUnsized ⟨priced.ne', not_lt.mp unsized⟩
          | sell => exact askUnsized ⟨priced.ne', not_lt.mp unsized⟩
    refine ⟨sized, ?_, tradesOf_quote_idle refused⟩
    unfold quote at h
    rw [refused] at h
    cases h
    rfl

/-- What a session asks of one side, and whether it got it. -/
structure SideMet (e e' : Engine D) (s : String) (i : Int) (side : Side) (price quantity : D)
    (trades : List (RawTrade D)) : Prop where
  withdrawn : price = 0 ∨ quantity = 0 → ¬ e'.Resting s i side
  entered : 0 < price → 0 < quantity → ∃ x, Entered e e' s i side price quantity trades x

/-- Both sides get what was asked exactly when no price came without its size, or
nothing was to be entered and nothing was left to withdraw. -/
theorem quote_sides [LawfulDecimal D] {e e' : Engine D} (reachable : Reachable .real e)
    {s : String} (registered : e.Registered s) {i : Int}
    (listed : ∃ instrument, e.instruments.getById i = some instrument)
    {bidPrice bidQuantity askPrice askQuantity : D}
    (nonneg : ∀ side, 0 ≤ bySide bidPrice askPrice side ∧ 0 ≤ bySide bidQuantity askQuantity side)
    {reply : Except EngineError Unit}
    (h : e.quote s i bidPrice bidQuantity askPrice askQuantity = .ok (reply, e')) :
    (∀ side, SideMet e e' s i side (bySide bidPrice askPrice side)
        (bySide bidQuantity askQuantity side)
        (e.tradesOf (.quote s i bidPrice bidQuantity askPrice askQuantity))) ↔
      (∀ side, 0 < bySide bidPrice askPrice side → 0 < bySide bidQuantity askQuantity side) ∨
      (∀ side, bySide bidPrice askPrice side = 0 ∨ bySide bidQuantity askQuantity side = 0) ∧
        ∀ side, ¬ e.Resting s i side := by
  obtain ⟨c, policy⟩ := reachable_coherent reachable
  have bid : 0 ≤ bidPrice := (nonneg .buy).1
  have ask : 0 ≤ askPrice := (nonneg .sell).1
  rcases quote_admitted reachable registered listed bid ask h with
    ⟨sized, rfl⟩ | ⟨unsized, rfl, idle⟩
  · refine iff_of_true ?_ (.inl sized)
    obtain ⟨trades, fills, leaves, made⟩ := quote_leaves c h
    rw [made]
    intro side
    constructor
    · intro zero
      refine leaves.withdrawn (quotedLegs_none ?_)
      by_contra priced
      have size := sized side (lt_of_le_of_ne (nonneg side).1 (Ne.symm priced))
      exact zero.elim priced (fun none_ => absurd none_ size.ne')
    · intro priced size
      obtain ⟨x, hx, key, price, quantity, open_, new⟩ := quotedLegs_some (e := e) (s := s) (i := i)
        priced.ne'
      refine ⟨x, price ▸ quantity ▸ leaves.entered hx key ?_ new⟩
      rw [open_, quantity]
      exact size.ne'
  · rw [idle]
    constructor
    · intro met
      have zero : ∀ side, bySide bidPrice askPrice side = 0 ∨
          bySide bidQuantity askQuantity side = 0 := by
        intro side
        by_contra both
        obtain ⟨priced, size⟩ := not_or.mp both
        obtain ⟨x, -, -, -, new, met'⟩ := (met side).entered
          (lt_of_le_of_ne (nonneg side).1 (Ne.symm priced))
          (lt_of_le_of_ne (nonneg side).2 (Ne.symm size))
        rcases met' with ⟨o, mem, -, same⟩ | ⟨t, none_, -⟩
        · have old := (c.real rfl i).arrived side o mem
          change o.arrival ≤ e'.nextArrival at old
          omega
        · cases none_
      exact .inr ⟨zero, fun side => (met side).withdrawn (zero side)⟩
    · rintro (sized | ⟨zero, rests⟩)
      · exact absurd sized unsized
      · intro side
        refine ⟨fun _ => rests side, fun priced size => ?_⟩
        exact ((zero side).elim priced.ne' size.ne').elim

end Engine

namespace Fix

open Engine

variable [DecimalText D] {m : FixMessage}

def priceTag : Side → Nat
  | .buy => 132
  | .sell => 133

def sizeTag : Side → Nat
  | .buy => 134
  | .sell => 135

/-- The field is left out or holds a zero. -/
def ZeroOrAbsent (D : Type) [Decimal D] [DecimalText D] (m : FixMessage) (tag : Nat) : Prop :=
  m.get tag = none ∨ ∃ value, m.get tag = some value ∧ parseDecimal value = .ok (0 : D)

/-- The field holds a positive number. -/
def Positive (m : FixMessage) (tag : Nat) (d : D) : Prop :=
  0 < d ∧ ∃ value, m.get tag = some value ∧ parseDecimal value = .ok d

theorem zeroOrAbsent_iff {tag : Nat} {d : D} (h : QuoteValue m tag d) :
    ZeroOrAbsent D m tag ↔ d = 0 := by
  obtain ⟨-, ⟨absent, rfl⟩ | ⟨value, given, parsed⟩⟩ := h
  · exact iff_of_true (.inl absent) rfl
  · constructor
    · rintro (absent | ⟨value', given', parsed'⟩)
      · cases given.symm.trans absent
      · cases given.symm.trans given'
        exact Except.ok.inj (parsed.symm.trans parsed')
    · rintro rfl
      exact .inr ⟨value, given, parsed⟩

theorem positive_iff {tag : Nat} {d d' : D} (h : QuoteValue m tag d) :
    Positive m tag d' ↔ d' = d ∧ 0 < d := by
  obtain ⟨-, ⟨absent, rfl⟩ | ⟨value, given, parsed⟩⟩ := h
  · constructor
    · rintro ⟨-, value', given', -⟩
      cases absent.symm.trans given'
    · rintro ⟨-, none_⟩
      exact absurd none_ (lt_irrefl _)
  · constructor
    · rintro ⟨positive, value', given', parsed'⟩
      cases given.symm.trans given'
      obtain rfl := Except.ok.inj (parsed.symm.trans parsed')
      exact ⟨rfl, positive⟩
    · rintro ⟨rfl, positive⟩
      exact ⟨positive, value, given, parsed⟩

/-- What a mass quote says of one side has come about. -/
structure SideHonoured (m : FixMessage) (e e' : Engine D) (s : String) (i : Int) (side : Side)
    (trades : List (RawTrade D)) : Prop where
  withdrawn : ZeroOrAbsent D m (priceTag side) ∨ ZeroOrAbsent D m (sizeTag side) →
    ¬ e'.Resting s i side
  entered : ∀ price quantity, Positive m (priceTag side) price →
    Positive m (sizeTag side) quantity → ∃ x, Entered e e' s i side price quantity trades x

theorem sideHonoured_iff {e e' : Engine D} {s : String} {i : Int} {side : Side}
    {trades : List (RawTrade D)} {price quantity : D} (priced : QuoteValue m (priceTag side) price)
    (sized : QuoteValue m (sizeTag side) quantity) :
    SideHonoured m e e' s i side trades ↔ SideMet e e' s i side price quantity trades := by
  constructor
  · rintro ⟨withdrawn, entered⟩
    rw [zeroOrAbsent_iff priced, zeroOrAbsent_iff sized] at withdrawn
    exact ⟨withdrawn, fun positive positive' => entered price quantity
      ((positive_iff priced).mpr ⟨rfl, positive⟩) ((positive_iff sized).mpr ⟨rfl, positive'⟩)⟩
  · rintro ⟨withdrawn, entered⟩
    refine ⟨?_, ?_⟩
    · rw [zeroOrAbsent_iff priced, zeroOrAbsent_iff sized]
      exact withdrawn
    · intro price' quantity' given given'
      obtain ⟨rfl, positive⟩ := (positive_iff priced).mp given
      obtain ⟨rfl, positive'⟩ := (positive_iff sized).mp given'
      exact entered positive positive'

/-- The decoded values are those of the fields. -/
theorem massQuote_values [Chrono] (named : m.msgType = some "i") {quoteId symbol : String}
    {level : Nat} {bidPx bidQty offerPx offerQty : D}
    (decoded : decode m =
      .ok (.ok (.massQuote quoteId level symbol bidPx bidQty offerPx offerQty))) :
    ∀ side, QuoteValue m (priceTag side) (bySide bidPx offerPx side) ∧
      QuoteValue m (sizeTag side) (bySide bidQty offerQty side) := by
  obtain ⟨kind, named', -, read⟩ := decode_iff.mp decoded
  cases named.symm.trans named'
  rw [if_neg (by decide)] at read
  obtain ⟨-, -, -, level', quoteId', symbol', bidPx', bidQty', offerPx', offerQty', -, -, -, bid,
    bid', offer, offer', same⟩ := decodeMassQuote_iff.mp (Except.ok.inj read)
  obtain ⟨rfl, rfl, rfl, rfl, rfl, rfl, rfl⟩ := Inbound.massQuote.inj same
  intro side
  cases side with
  | buy => exact ⟨bid, bid'⟩
  | sell => exact ⟨offer, offer'⟩

/-- A mass quote is honoured on both sides exactly when no side gives a price
without a size, or none gives both and the session quotes nothing there. -/
theorem mass_quote_sides [Chrono] [LawfulDecimal D] (named : m.msgType = some "i")
    {quoteId symbol : String} {level : Nat} {bidPx bidQty offerPx offerQty : D}
    (decoded : decode m =
      .ok (.ok (.massQuote quoteId level symbol bidPx bidQty offerPx offerQty)))
    {e : Engine D} (reachable : Reachable .real e) {s : String} (registered : e.Registered s)
    {instrument : Instrument} (known : e.instruments.getBySymbol symbol = some instrument)
    {today : Int} {now : String} {rejectId : Nat} {failed : Bool} {ids : WireIdMap}
    {done : Handled D}
    (handled : handleBusiness today now rejectId failed e s ids
      (.massQuote quoteId level symbol bidPx bidQty offerPx offerQty) = .ok done) :
    (∀ side, SideHonoured m e done.engine s instrument.id side
        (e.tradesOf (.quote s instrument.id bidPx bidQty offerPx offerQty))) ↔
      (∀ side, 0 < bySide bidPx offerPx side → 0 < bySide bidQty offerQty side) ∨
      (∀ side, bySide bidPx offerPx side = 0 ∨ bySide bidQty offerQty side = 0) ∧
        ∀ side, ¬ e.Resting s instrument.id side := by
  have values := massQuote_values named decoded
  obtain ⟨⟨result, e'⟩, quoted, same⟩ := Exec.bind_ok.mp handled
  obtain rfl := Except.ok.inj same
  unfold massQuote at quoted
  rw [known] at quoted
  obtain ⟨⟨reply, e''⟩, returns, same'⟩ := Exec.bind_ok.mp quoted
  cases same'
  have listed := symbol_listed reachable symbol instrument known
  have nonneg : ∀ side, 0 ≤ bySide bidPx offerPx side ∧ 0 ≤ bySide bidQty offerQty side :=
    fun side => ⟨(values side).1.1, (values side).2.1⟩
  rw [← quote_sides reachable registered listed nonneg returns]
  exact forall_congr' fun side => sideHonoured_iff (values side).1 (values side).2

/-- A session quotes 4 at 9 against 4 at 11. -/
def quotedPair : List (Command Dec96) := [
  .createInstrument "AAA", .registerSession "a",
  .quote "a" 1 (Dec96.literal 9 0) (Dec96.literal 4 0) (Dec96.literal 11 0) (Dec96.literal 4 0)]

/-- The bid is to be withdrawn by a zero size, and 5 to be offered at 12. -/
def zeroSize : FixMessage where
  beginString := "FIX.4.2"
  fields := [(35, "i"), (34, "2"), (49, "CLIENT"), (56, "GOX"), (52, "20260912-19:24:59.056"),
    (117, "Q1"), (296, "1"), (302, "1"), (311, "AAA"), (304, "1"), (295, "1"), (299, "1"),
    (55, "AAA"), (132, "9"), (133, "12"), (134, "0"), (135, "5")]
  raw := ""

def zeroSizeDecoded : Inbound Dec96 :=
  .massQuote "Q1" 0 "AAA" (Dec96.literal 9 0) 0 (Dec96.literal 12 0) (Dec96.literal 5 0)

theorem zeroSize_handled : ∃ done, handleBusiness 1 "now" 1 false (played .real quotedPair) "a"
      WireIdMap.new zeroSizeDecoded = .ok done ∧ done.engine.Resting "a" 1 .buy ∧
      (done.engine.leg "a" 1 .sell).map Order.price = some (Dec96.literal 11 0) := by
  have ran : (handleBusiness 1 "now" 1 false (played .real quotedPair) "a" WireIdMap.new
      zeroSizeDecoded).toOption.map (fun done => (((done.engine.book 1).queue .buy).any
        (fun o => decide (o.identity = ("a", quoteOrderId))),
        (done.engine.leg "a" 1 .sell).map Order.price)) =
      some (true, some (Dec96.literal 11 0)) := by decide +kernel
  obtain ⟨done, returns, seen⟩ := Option.map_eq_some_iff.mp ran
  obtain ⟨rests, priced⟩ := Prod.mk.inj seen
  obtain ⟨o, mem, key⟩ := List.any_eq_true.mp rests
  refine ⟨done, ?_, ⟨o, mem, of_decide_eq_true key⟩, priced⟩
  cases handled : handleBusiness 1 "now" 1 false (played .real quotedPair) "a" WireIdMap.new
      zeroSizeDecoded with
  | error panic =>
    rw [handled] at returns
    cases returns
  | ok done' =>
    rw [handled] at returns
    rw [Option.some.inj returns]

theorem zeroSize_decoded : decode zeroSize = .ok (.ok zeroSizeDecoded) := by decide

theorem quotedPair_known : (played .real quotedPair).Registered "a" ∧
    (played .real quotedPair).instruments.getBySymbol "AAA" = some ⟨1, "AAA"⟩ := by
  rw [← registered_iff]
  decide +kernel

theorem mass_quote_sides_sample : ∃ done, handleBusiness 1 "now" 1 false
      (played .real quotedPair) "a" WireIdMap.new zeroSizeDecoded = .ok done ∧
    ((∀ side, SideHonoured zeroSize (played .real quotedPair) done.engine "a" 1 side
      ((played .real quotedPair).tradesOf (.quote "a" 1 (Dec96.literal 9 0) 0
        (Dec96.literal 12 0) (Dec96.literal 5 0)))) ↔
    (∀ side, 0 < bySide (Dec96.literal 9 0) (Dec96.literal 12 0) side →
      0 < bySide 0 (Dec96.literal 5 0) side) ∨
    (∀ side, bySide (Dec96.literal 9 0) (Dec96.literal 12 0) side = 0 ∨
      bySide 0 (Dec96.literal 5 0) side = 0) ∧
    ∀ side, ¬ (played .real quotedPair).Resting "a" 1 side) := by
  obtain ⟨done, handled, -⟩ := zeroSize_handled
  obtain ⟨registered, known⟩ := quotedPair_known
  exact ⟨done, handled, mass_quote_sides rfl zeroSize_decoded
    (played_reachable .real quotedPair) registered known handled⟩

/-- The bid goes on resting, and nothing is offered at 12. -/
theorem zeroSize_ignored : Reachable .real (played .real quotedPair) ∧
    (played .real quotedPair).Registered "a" ∧ decode zeroSize = .ok (.ok zeroSizeDecoded) ∧
    ∃ done, handleBusiness 1 "now" 1 false (played .real quotedPair) "a" WireIdMap.new
        zeroSizeDecoded = .ok done ∧
      ∀ side trades, ¬ SideHonoured zeroSize (played .real quotedPair) done.engine "a" 1 side
        trades := by
  obtain ⟨done, handled, rests, priced⟩ := zeroSize_handled
  refine ⟨played_reachable .real quotedPair, quotedPair_known.1, zeroSize_decoded, done, handled,
    ?_⟩
  have values := massQuote_values rfl zeroSize_decoded
  intro side trades honoured
  cases side with
  | buy =>
    exact honoured.withdrawn (.inr ((zeroOrAbsent_iff (values .buy).2).mpr rfl)) rests
  | sell =>
    obtain ⟨x, entered⟩ := honoured.entered _ _
      ((positive_iff (values .sell).1).mpr ⟨rfl, by decide⟩)
      ((positive_iff (values .sell).2).mpr ⟨rfl, by decide⟩)
    rw [entered.leg, Option.map_some, entered.price] at priced
    exact absurd (Option.some.inj priced) (by decide)

end Fix

end RustTrader
