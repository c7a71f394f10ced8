import RustTrader.Loading
import RustTrader.MarketRuns

/-!
# The read-only service

The requests of `rest.rs` and the readers of `market_data.rs`. Workers read market data
without the lock of the engine: they load the catalog, and later the slot they found
there, while an operation may be storing one instrument after another.
-/

namespace RustTrader

namespace MarketDataReader

variable {D : Type} [Decimal D]

def snapshot (reader : MarketDataPublisher D) (symbol : String) :
    Option (InstrumentSnapshot D) := do
  let slot ← reader.catalog.get? symbol
  reader.snapshot slot

def allSymbols (reader : MarketDataPublisher D) : List String := reader.catalog.keys

end MarketDataReader

def Engine.sessionIds {D : Type} [Decimal D] (e : Engine D) : List String := e.sessions.keys

namespace Rest

open Engine

variable {D : Type} [Decimal D]

inductive Snapshot (D : Type) where
  | strings (values : List String)
  | book (symbol : String) (market : InstrumentSnapshot D)
  | stats (symbol : String) (market : InstrumentSnapshot D)
  | missing (message : String)

def stripPrefix (start path : String) : Option String :=
  if start.toList.isPrefixOf path.toList then
    some (String.ofList (path.toList.drop start.toList.length))
  else none

/-- The market data a path asks for: a book or statistics, and the symbol. -/
def askedFor (path : String) : Option (Bool × String) := do
  let (book, symbol) ← [("/api/book/", true), ("/api/stats/", false)].findSome?
    fun (start, book) => (stripPrefix start path).map fun symbol => (book, symbol)
  if symbol = "" then none else some (book, symbol)

def unknownSymbol (symbol : String) : Snapshot D :=
  .missing ("the symbol " ++ symbol ++ " is unknown\n")

def notFound : Snapshot D := .missing "404 page not found"

def marketSnapshot (reader : MarketDataPublisher D) (path : String) : Snapshot D :=
  if (stripPrefix "/api/instruments/" path).isSome ∨ path = "/api/instruments" then
    .strings (MarketDataReader.allSymbols reader)
  else
    match askedFor path with
    | none => notFound
    | some (book, symbol) =>
      match MarketDataReader.snapshot reader symbol with
      | none => unknownSymbol symbol
      | some market => if book then .book symbol market else .stats symbol market

def requestSnapshot (reader : MarketDataPublisher D) (engine : Engine D) (path : String) :
    Snapshot D :=
  if path = "/api/sessions" then .strings engine.sessionIds else marketSnapshot reader path

/-- The answer of an engine nobody else uses. -/
def respond (engine : Engine D) (path : String) : Snapshot D :=
  requestSnapshot engine.marketData engine path

def Snapshot.status : Snapshot D → Nat
  | .missing _ => 404
  | _ => 200

/-- The symbol and the version of the market data in an answer. -/
def Snapshot.shown : Snapshot D → Option (String × Nat)
  | .book symbol market => some (symbol, market.version)
  | .stats symbol market => some (symbol, market.version)
  | _ => none

inductive Route where
  | sessions
  | instruments
  | market (book : Bool) (symbol : String)
  | nowhere

def route (path : String) : Route :=
  if path = "/api/sessions" then .sessions
  else if (stripPrefix "/api/instruments/" path).isSome ∨ path = "/api/instruments" then
    .instruments
  else match askedFor path with
    | none => .nowhere
    | some (book, symbol) => .market book symbol

/-- A slot that a worker has found and not yet loaded. -/
structure Held where
  path : String
  book : Bool
  symbol : String
  slot : Int

def Held.shows (held : Held) (market : InstrumentSnapshot D) : Snapshot D :=
  if held.book then .book held.symbol market else .stats held.symbol market

/-- What the load of the catalog makes of a request. -/
def lookUp (reader : MarketDataPublisher D) (path : String) : Snapshot D ⊕ Held :=
  match route path with
  | .market book symbol =>
    match reader.catalog.get? symbol with
    | none => .inl (unknownSymbol symbol)
    | some slot => .inr ⟨path, book, symbol, slot⟩
  | .instruments => .inl (.strings (MarketDataReader.allSymbols reader))
  | _ => .inl notFound

section

omit [Decimal D]

variable {reader : MarketDataPublisher D} {path : String}

theorem lookUp_market {book : Bool} {symbol : String} {slot : Int}
    (asked : route path = .market book symbol) (listed : reader.catalog.get? symbol = some slot) :
    lookUp reader path = .inr ⟨path, book, symbol, slot⟩ := by
  unfold lookUp
  rw [asked]
  dsimp only
  rw [listed]

/-- A slot that is found is the one of the symbol asked for. -/
theorem lookUp_held {held : Held} (found : lookUp reader path = .inr held) :
    held.path = path ∧ route path = .market held.book held.symbol ∧
      reader.catalog.get? held.symbol = some held.slot := by
  unfold lookUp at found
  cases asked : route path with
  | market book symbol =>
    rw [asked] at found
    dsimp only at found
    cases listed : reader.catalog.get? symbol with
    | none =>
      rw [listed] at found
      cases found
    | some slot =>
      rw [listed] at found
      cases found
      exact ⟨rfl, rfl, listed⟩
  | _ =>
    rw [asked] at found
    cases found

/-- An answer without a second load shows no market data. -/
theorem lookUp_reply {reply : Snapshot D} (found : lookUp reader path = .inl reply) :
    reply.shown = none ∧ ∀ book symbol, route path = .market book symbol →
      reader.catalog.get? symbol = none := by
  constructor
  · unfold lookUp at found
    split at found
    · split at found <;> cases found
      rfl
    all_goals
      cases found
      rfl
  · intro book symbol asked
    cases listed : reader.catalog.get? symbol with
    | none => rfl
    | some slot => cases (lookUp_market asked listed).symm.trans found

end

theorem respond_route (e : Engine D) (path : String) : respond e path =
    match route path with
    | .sessions => .strings e.sessionIds
    | .instruments => .strings (MarketDataReader.allSymbols e.marketData)
    | .nowhere => notFound
    | .market book symbol =>
      match MarketDataReader.snapshot e.marketData symbol with
      | none => unknownSymbol symbol
      | some market => if book then .book symbol market else .stats symbol market := by
  unfold respond requestSnapshot marketSnapshot route
  by_cases sessions : path = "/api/sessions"
  · rw [if_pos sessions, if_pos sessions]
  rw [if_neg sessions, if_neg sessions]
  by_cases listing : (stripPrefix "/api/instruments/" path).isSome ∨ path = "/api/instruments"
  · rw [if_pos listing, if_pos listing]
  rw [if_neg listing, if_neg listing]
  cases askedFor path <;> rfl

/-- A request that ends with the catalog is answered as by the engine. -/
theorem respond_lookUp {e : Engine D} {path : String} {reply : Snapshot D}
    (market : route path ≠ .sessions) (found : lookUp e.marketData path = .inl reply) :
    respond e path = reply := by
  rw [respond_route]
  unfold lookUp at found
  cases asked : route path with
  | sessions => exact absurd asked market
  | instruments =>
    rw [asked] at found
    exact Sum.inl.inj found
  | nowhere =>
    rw [asked] at found
    exact Sum.inl.inj found
  | market book symbol =>
    rw [asked] at found
    dsimp only at found ⊢
    unfold MarketDataReader.snapshot
    cases listed : e.marketData.catalog.get? symbol with
    | none =>
      rw [listed] at found
      exact Sum.inl.inj found
    | some slot =>
      rw [listed] at found
      cases found

/-- A slot that was looked up is the one the engine answers from. -/
theorem respond_held {e : Engine D} {held : Held} {snap : InstrumentSnapshot D}
    (asked : route held.path = .market held.book held.symbol)
    (listed : e.marketData.catalog.get? held.symbol = some held.slot)
    (shown : e.marketData.snapshot held.slot = some snap) :
    respond e held.path = held.shows snap := by
  rw [respond_route, asked]
  dsimp only
  have read : MarketDataReader.snapshot e.marketData held.symbol = some snap := by
    unfold MarketDataReader.snapshot
    rw [listed]
    exact shown
  rw [read]
  rfl

/-- An operation that is done but for publishing what it recorded. -/
structure Working (e : Engine D) (records : List (Int × List (RawTrade D))) (mid e' : Engine D) :
    Prop where
  recorded : Recorded e records mid
  listed : ∀ i ∈ touched records, e.Listed i
  finished : ∃ mid', mid.publishMarketData = .ok mid' ∧ Aside mid' e'

/-- An answer, with the engine before and after the operation under way when it was made. -/
structure Answer (D : Type) [Decimal D] where
  path : String
  reply : Snapshot D
  before : Engine D
  after : Engine D

/-- The engine with its readers. While an operation is under way it holds the lock, and
`busy` lists what it has still to store; `now` is what readers can load. -/
structure Desk (D : Type) [Decimal D] where
  before : Engine D
  now : Engine D
  after : Engine D
  busy : Option (List ((_ : Int) × Nat))
  holding : Nat → Option Held
  answers : List (Answer D)

namespace Desk

def idle (e : Engine D) : Desk D := ⟨e, e, e, none, fun _ => none, []⟩

/-- No operation is under way. -/
def rest (s : Desk D) (e : Engine D) : Desk D :=
  { s with before := e, now := e, after := e, busy := none }

def answer (s : Desk D) (path : String) (reply : Snapshot D) : Desk D :=
  { s with answers := s.answers ++ [⟨path, reply, s.before, s.after⟩] }

def hold (s : Desk D) (worker : Nat) (held : Option Held) : Desk D :=
  { s with holding := Function.update s.holding worker held }

end Desk

/-- One step of the engine's thread or of a worker. -/
inductive Move (s : Desk D) : Desk D → Prop where
  | create (symbol : String) (free : s.busy = none) :
      Move s (s.rest (s.after.createInstrument symbol).2)
  | operate {command : Command D} {records : List (Int × List (RawTrade D))} {mid e' : Engine D}
      {left : List ((_ : Int) × Nat)} (free : s.busy = none) (trades : Trades command)
      (step : Step s.after command e') (working : Working s.after records mid e')
      (order : left.Perm mid.pendingMarketData.entries) :
      Move s { s with
        before := s.after
        now := { mid with pendingMarketData := ∅ }
        after := e'
        busy := some left }
  | store {entry : (_ : Int) × Nat} {left : List ((_ : Int) × Nat)} {now' : Engine D}
      (busy : s.busy = some (entry :: left))
      (stored : s.now.publishInstrument entry.1 entry.2 = .ok now') :
      Move s { s with now := now', busy := some left }
  | finish (busy : s.busy = some []) : Move s (s.rest s.after)
  | sessions {path : String} (free : s.busy = none) (asked : route path = .sessions) :
      Move s (s.answer path (.strings s.now.sessionIds))
  | answer {path : String} {reply : Snapshot D} (market : route path ≠ .sessions)
      (found : lookUp s.now.marketData path = .inl reply) : Move s (s.answer path reply)
  | find {worker : Nat} {path : String} {held : Held} (idle : s.holding worker = none)
      (found : lookUp s.now.marketData path = .inr held) : Move s (s.hold worker (some held))
  | fetch {worker : Nat} {held : Held} {snap : InstrumentSnapshot D}
      (holds : s.holding worker = some held)
      (shown : s.now.marketData.snapshot held.slot = some snap) :
      Move s ((s.hold worker none).answer held.path (held.shows snap))

end Rest

end RustTrader
