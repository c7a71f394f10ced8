import Mathlib.Data.List.Sort
import RustTrader.Lineage

/-!
# Instrument files

`InstrumentMap::load_from_reader`: one identifier and one symbol on each line,
with comments. A file is loaded as a whole or refused. An engine that has loaded
its instruments trades without creating others.
-/

namespace RustTrader

/-- Unicode white space. -/
def whiteSpace (c : Char) : Bool :=
  (9 ≤ c.toNat && c.toNat ≤ 13) || c.toNat == 0x20 || c.toNat == 0x85 || c.toNat == 0xA0 ||
    c.toNat == 0x1680 || (0x2000 ≤ c.toNat && c.toNat ≤ 0x200A) || c.toNat == 0x2028 ||
    c.toNat == 0x2029 || c.toNat == 0x202F || c.toNat == 0x205F || c.toNat == 0x3000

def trim (line : List Char) : List Char :=
  ((line.dropWhile whiteSpace).reverse.dropWhile whiteSpace).reverse

def splitWhitespace (line : List Char) : List (List Char) :=
  (line.splitOnP whiteSpace).filter (fun part => !part.isEmpty)

def graphic (c : Char) : Bool := 0x21 ≤ c.toNat && c.toNat ≤ 0x7E

namespace InstrumentMap

def i64Max : Int := 2 ^ 63 - 1

/-- One line of the file, numbered from zero. -/
def loadLine (loaded : InstrumentMap) (index : Nat) (line : List Char) :
    Except String InstrumentMap :=
  let s := trim line
  if s.isEmpty || ['/', '/'].isPrefixOf s || ['#'].isPrefixOf s then .ok loaded
  else
    let invalid (message : String) : Except String InstrumentMap :=
      .error ("instruments line " ++ (index + 1).repr ++ ": " ++ message)
    match splitWhitespace s with
    | [number, symbol] =>
      match Numeral.parseSigned 64 (String.ofList number) with
      | none => invalid "ID must be a positive integer"
      | some id =>
        if id ≤ 0 ∨ id = i64Max then invalid "ID must be between 1 and 9223372036854775806"
        else if !symbol.all (fun c => graphic c && c != '=') then
          invalid "SYMBOL must be printable ASCII without '=' or whitespace"
        else if (loaded.getById id).isSome then invalid "duplicate INSTRUMENT_ID"
        else if (loaded.getBySymbol (String.ofList symbol)).isSome then invalid "duplicate SYMBOL"
        else .ok ({ loaded with nextId := max loaded.nextId id }.put ⟨id, String.ofList symbol⟩)
    | _ => invalid "expected exactly INSTRUMENT_ID SYMBOL"

def loadLines (loaded : InstrumentMap) : Nat → List (List Char) → Except String InstrumentMap
  | _, [] => .ok loaded
  | index, line :: lines => do
    let loaded ← loaded.loadLine index line
    loadLines loaded (index + 1) lines

def loadFromReader (text : String) : Except String InstrumentMap := do
  let loaded ← loadLines .new 0 (text.toList.splitOn '\n')
  if loaded.byId.entries.isEmpty then
    throw "instruments file must contain at least one instrument"
  else pure loaded

def allSymbols (map : InstrumentMap) : List String :=
  (map.bySymbol.entries.map Sigma.fst).insertionSort (· ≤ ·)

/-- Symbols are words of graphic characters. -/
def Wordy (map : InstrumentMap) : Prop :=
  ∀ id instrument, map.getById id = some instrument →
    instrument.symbol ≠ "" ∧ ∀ c ∈ instrument.symbol.toList, graphic c

theorem loadLine_wordy {loaded loaded' : InstrumentMap} (h : loaded.Wordy) {index : Nat}
    {line : List Char} (load : loaded.loadLine index line = .ok loaded') : loaded'.Wordy := by
  unfold loadLine at load
  dsimp only at load
  split at load
  · cases load
    exact h
  · split at load
    · rename_i number symbol words
      have some_ : symbol ≠ [] := by
        have mem : symbol ∈ splitWhitespace (trim line) := by rw [words]; simp
        simpa using (List.mem_filter.mp mem).2
      split at load
      · cases load
      · split at load
        · cases load
        · split at load
          · cases load
          · rename_i plain
            split at load
            · cases load
            · split at load
              · cases load
              · cases load
                intro id instrument found
                unfold getById put at found
                rw [HashMap.get?_set] at found
                split at found
                · cases found
                  constructor
                  · intro empty
                    apply some_
                    have chars := congrArg String.toList empty
                    rwa [String.toList_ofList] at chars
                  · intro c hc
                    rw [String.toList_ofList] at hc
                    simp only [Bool.not_eq_true', Bool.not_eq_false, List.all_eq_true,
                      Bool.and_eq_true] at plain
                    exact (plain c hc).1
                · exact h id instrument found
    · cases load

theorem loadLines_wordy (lines : List (List Char)) :
    ∀ {loaded loaded' : InstrumentMap} {index : Nat}, loaded.Wordy →
      loaded.loadLines index lines = .ok loaded' → loaded'.Wordy := by
  induction lines with
  | nil =>
    intro loaded loaded' index h load
    cases load
    exact h
  | cons line lines ih =>
    intro loaded loaded' index h load
    unfold loadLines at load
    cases here : loaded.loadLine index line with
    | error message =>
      rw [here] at load
      cases load
    | ok next =>
      rw [here] at load
      exact ih (loadLine_wordy h here) load

theorem loadFromReader_wordy {text : String} {loaded : InstrumentMap}
    (load : loadFromReader text = .ok loaded) : loaded.Wordy := by
  unfold loadFromReader at load
  cases lines : loadLines .new 0 (text.toList.splitOn '\n') with
  | error message =>
    rw [lines] at load
    cases load
  | ok map =>
    rw [lines] at load
    have wordy : map.Wordy := by
      refine loadLines_wordy _ ?_ lines
      intro id instrument found
      cases found
    change (if _ then _ else _) = _ at load
    split at load
    · cases load
    · cases load
      exact wordy

end InstrumentMap

namespace Engine

variable {D : Type} [Decimal D]

/-- Load a file and prepare the snapshots of its instruments. -/
def loadInstruments (e : Engine D) (text : String) : Except String (Engine D) := do
  let instruments ← InstrumentMap.loadFromReader text
  pure { e with
    instruments := instruments
    marketData := (instruments.allSymbols.filterMap instruments.getBySymbol).foldl
      MarketDataPublisher.register e.marketData }

/-- The engine trades: no instrument is created. -/
def Trades : Command D → Prop
  | .createInstrument _ => False
  | _ => True

instance : DecidablePred (Trades (D := D)) := fun command => by
  cases command <;> unfold Trades <;> infer_instance

/-- What an engine that loaded its instruments from a file reaches by trading. -/
def Loaded (policy : FillPolicy) (text : String) (e : Engine D) : Prop :=
  ∃ start, (withFillPolicy policy).loadInstruments text = .ok start ∧
    RunWith (fun _ command => Trades command) start e

theorem loadInstruments_ok {e e' : Engine D} {text : String}
    (h : e.loadInstruments text = .ok e') :
    InstrumentMap.loadFromReader text = .ok e'.instruments ∧
      e' = { e with instruments := e'.instruments, marketData := e'.marketData } := by
  unfold loadInstruments at h
  cases load : InstrumentMap.loadFromReader text with
  | error message =>
    rw [load] at h
    cases h
  | ok instruments =>
    rw [load] at h
    cases h
    exact ⟨rfl, rfl⟩

/-- The engine after some commands, from a file of instruments. -/
def replayed (policy : FillPolicy) (text : String) (commands : List (Command D)) :
    Option (Engine D) :=
  ((withFillPolicy policy).loadInstruments text).toOption.bind
    fun start => (start.play commands).toOption

theorem replayed_loaded {policy : FillPolicy} {text : String} {commands : List (Command D)}
    {e : Engine D} (meets : ∀ command ∈ commands, Trades command)
    (h : replayed policy text commands = some e) : Loaded policy text e := by
  unfold replayed at h
  cases load : (withFillPolicy policy : Engine D).loadInstruments text with
  | error message =>
    rw [load] at h
    cases h
  | ok start =>
    rw [load] at h
    cases play : start.play commands with
    | error panic =>
      simp only [Except.toOption, Option.bind_some, play] at h
      cases h
    | ok e' =>
      simp only [Except.toOption, Option.bind_some, play] at h
      cases h
      exact ⟨start, load, play_run commands (fun command hc _ => meets command hc) play⟩

theorem instruments_removeFromBook {e e' : Engine D} {s : String} {id : OrderId} {side : Side}
    {price : D} {i : Int} {result : Except EngineError (Order D)}
    (h : e.removeFromBook s id side price i = .ok (result, e')) :
    e'.instruments = e.instruments := by
  unfold removeFromBook at h
  split at h
  · cases h
    rfl
  · obtain ⟨removed, -, h⟩ := Exec.bind_ok.mp h
    cases removed <;> cases h <;> rfl

theorem instruments_sessionDisconnect {e e' : Engine D} {s : String}
    {orders : List (OrderId × Order D)} {quotes : List (Int × QuotePair D)}
    (h : e.sessionDisconnect s orders quotes = .ok e') : e'.instruments = e.instruments := by
  unfold sessionDisconnect at h
  split at h
  · cases h
    rfl
  · obtain ⟨ea, horders, h⟩ := Exec.bind_ok.mp h
    obtain ⟨eb, hquotes, hpublish⟩ := Exec.bind_ok.mp h
    have refl : ∀ e : Engine D, e.instruments = e.instruments := fun _ => rfl
    have trans : ∀ e mid e' : Engine D, mid.instruments = e.instruments →
        e'.instruments = mid.instruments → e'.instruments = e.instruments :=
      fun _ _ _ first later => later.trans first
    have cancelled : ea.instruments = e.instruments := by
      unfold disconnectOrders at horders
      refine (foldlM_relates refl trans ?_ _ horders).trans rfl
      intro e entry e' h
      obtain ⟨⟨removed, mid⟩, hremove, hrecord⟩ := Exec.bind_ok.mp h
      exact (recordMarketData_quiet hrecord).instruments.trans (instruments_removeFromBook hremove)
    have withdrawn : eb.instruments = ea.instruments := by
      unfold disconnectQuotes at hquotes
      refine foldlM_relates refl trans ?_ _ hquotes
      intro e entry e' h
      obtain ⟨mid, hdrop, hrecord⟩ := Exec.bind_ok.mp h
      refine (recordMarketData_quiet hrecord).instruments.trans
        (foldlM_relates refl trans ?_ _ hdrop)
      intro e leg e' h
      obtain ⟨⟨removed, mid⟩, hremove, h⟩ := Exec.bind_ok.mp h
      cases h
      exact instruments_removeFromBook hremove
    exact (publishMarketData_quiet hpublish).instruments.trans (withdrawn.trans cancelled)

theorem instruments_expire {policy : FillPolicy} {e e' : Engine D}
    (c : Coherent policy e.view none) {keys : List (String × OrderId)}
    (h : e.expireDayOrdersAt keys = .ok e') : e'.instruments = e.instruments :=
  (expire_run (R := fun e e' => e'.instruments = e.instruments) (fun _ => rfl)
    (fun _ _ _ first second => second.trans first) (fun _ _ effect => effect.instruments)
    (fun _ _ _ _ _ _ _ _ done => done.effect.instruments) keys c h).1

theorem step_instruments [LawfulDecimal D] {policy : FillPolicy} {e e' : Engine D}
    {command : Command D} (c : Coherent policy e.view none) (hp : e.fillPolicy = policy)
    (trades : Trades command) (step : Step e command e') : e'.instruments = e.instruments := by
  cases step with
  | createInstrument symbol => exact trades.elim
  | registerSession s free => rfl
  | sessionDisconnect _ s orders quotes visits returns =>
    exact instruments_sessionDisconnect returns
  | createOrder _ today s new reply returns =>
    cases policy with
    | real =>
      rcases createReal_cases c hp returns with
        ⟨_, -, -, rfl⟩ | ⟨-, trades, left, final, book', fills, execId, done⟩
      · rfl
      · exact done.effect.instruments
    | tiered =>
      rcases createTiered_cases c hp returns with
        ⟨_, -, -, rfl⟩ | ⟨-, plan, last, snaps, front, back, execId, fills, done⟩
      · rfl
      · exact done.worked.effect.instruments
  | modifyOrderWithType _ today s origId newId orderType price quantity reply returns =>
    cases policy with
    | real =>
      rcases modifyReal_cases c hp returns with
        ⟨⟨_, -, -, rfl⟩, -⟩ | ⟨-, e1, entry, order, remaining, book1, k, done⟩
      · rfl
      cases done with
      | exhausted _ execId effect => exact effect.instruments
      | matched _ trades left final book' fills execId added filled effect =>
        exact effect.instruments
    | tiered =>
      rcases modifyTiered_cases c hp returns with
        ⟨_, -, -, rfl⟩ | ⟨-, e1, entry, order, remaining, book1, plan, k, -, done⟩
      · rfl
      cases done with
      | exhausted _ execId effect => exact effect.instruments
      | worked _ last snaps front back execId fills worked => exact worked.effect.instruments
  | cancelOrderWithId _ s origId clOrdId reply returns =>
    rcases cancel_cases c returns with ⟨_, -, -, rfl⟩ | ⟨-, entry, book', execId, done⟩
    · rfl
    · exact done.effect.instruments
  | quote _ s i bidPrice bidQuantity askPrice askQuantity reply returns =>
    cases policy with
    | real =>
      rcases quote_cases c returns with ⟨_, -, -, rfl⟩ | ⟨-, v, trades, fills, done, -⟩
      · rfl
      · exact done.effect.instruments
    | tiered =>
      obtain ⟨-, rfl⟩ := quote_tiered hp returns
      rfl
  | expireDayOrdersAt _ today keys visits returns => exact instruments_expire c returns

/-- The instrument of a symbol is known by its identifier. -/
theorem symbol_listed [LawfulDecimal D] {policy : FillPolicy} {e : Engine D}
    (reachable : Reachable policy e) : ∀ symbol instrument,
      e.instruments.getBySymbol symbol = some instrument →
      ∃ listed, e.instruments.getById instrument.id = some listed := by
  induction reachable with
  | refl =>
    intro symbol instrument found
    cases found
  | @tail e e' run step ih =>
    obtain ⟨command, -, step⟩ := step
    obtain ⟨c, hp⟩ := reachable_coherent run
    by_cases trades : Trades command
    · rw [step_instruments c hp trades step]
      exact ih
    · cases step with
      | createInstrument symbol =>
        unfold createInstrument
        split
        · exact ih
        · intro symbol' instrument found
          unfold InstrumentMap.getBySymbol InstrumentMap.put at found
          unfold InstrumentMap.getById InstrumentMap.put
          rw [HashMap.get?_set] at found
          rw [HashMap.get?_set]
          by_cases same : instrument.id = e.instruments.nextId + 1
          · rw [if_pos same]
            exact ⟨_, rfl⟩
          · rw [if_neg same]
            split at found
            · obtain rfl := Option.some.inj found
              exact absurd rfl same
            · exact ih symbol' instrument found
      | _ => exact absurd trivial trades

end Engine

end RustTrader
