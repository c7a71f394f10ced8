import RustTrader.OrderBook
import Mathlib.Data.String.Basic

/-!
# Instruments, statistics and published market data

The instrument registry of `core/instrument.rs`, the statistics record, and
the per-instrument snapshot slots of `market_data.rs`. A catalog entry names
the slot of an instrument; the publication time of a snapshot is left out.
-/

namespace RustTrader

structure Instrument where
  id : Int
  symbol : String
  deriving DecidableEq

structure InstrumentMap where
  bySymbol : HashMap String Instrument
  byId : HashMap Int Instrument
  nextId : Int
  deriving DecidableEq

namespace InstrumentMap

def new : InstrumentMap := ⟨∅, ∅, 0⟩

def getBySymbol (map : InstrumentMap) (symbol : String) : Option Instrument :=
  HashMap.get? map.bySymbol symbol

def getById (map : InstrumentMap) (id : Int) : Option Instrument := HashMap.get? map.byId id

def put (map : InstrumentMap) (instrument : Instrument) : InstrumentMap :=
  { map with
    bySymbol := HashMap.set map.bySymbol instrument.symbol instrument
    byId := HashMap.set map.byId instrument.id instrument }

end InstrumentMap

structure Statistics (D : Type) where
  symbol : String
  bidQty : D
  bidPrice : D
  askQty : D
  askPrice : D
  volume : D
  high : D
  low : D
  hasHighLow : Bool
  deriving DecidableEq

namespace Statistics

variable {D : Type} [Decimal D]

/-- No activity yet. -/
def initial (symbol : String) : Statistics D where
  symbol := symbol
  bidQty := 0
  bidPrice := 0
  askQty := 0
  askPrice := 0
  volume := 0
  high := 0
  low := 0
  hasHighLow := false

/-- Account for one trade. -/
def trade (stats : Statistics D) (price quantity : D) : Exec (Statistics D) := do
  let volume ← Decimal.add stats.volume quantity
  if !stats.hasHighLow then
    pure { stats with volume := volume, high := price, low := price, hasHighLow := true }
  else
    pure { stats with
      volume := volume
      high := if stats.high < price then price else stats.high
      low := if price < stats.low then price else stats.low }

/-- Take over the top of a published book. -/
def quoted (stats : Statistics D) (book : Book D) : Statistics D :=
  let bid := (book.bids.head?.map (fun l => (l.price, l.quantity))).getD (0, 0)
  let ask := (book.asks.head?.map (fun l => (l.price, l.quantity))).getD (0, 0)
  { stats with bidPrice := bid.1, bidQty := bid.2, askPrice := ask.1, askQty := ask.2 }

end Statistics

/-- One published version; version zero is a known instrument without activity. -/
structure InstrumentSnapshot (D : Type) where
  book : Book D
  stats : Statistics D
  version : Nat
  deriving DecidableEq

structure MarketDataPublisher (D : Type) where
  catalog : SortedMap String Int
  byId : HashMap Int (InstrumentSnapshot D)
  deriving DecidableEq

namespace MarketDataPublisher

variable {D : Type} [Decimal D]

def new : MarketDataPublisher D := ⟨∅, ∅⟩

/-- An existing slot survives a second registration. -/
def register (publisher : MarketDataPublisher D) (instrument : Instrument) :
    MarketDataPublisher D where
  catalog := publisher.catalog.insert instrument.symbol instrument.id
  byId :=
    if HashMap.contains publisher.byId instrument.id then publisher.byId
    else HashMap.set publisher.byId instrument.id
      ⟨⟨instrument.id, 0, [], []⟩, Statistics.initial instrument.symbol, 0⟩

def snapshot (publisher : MarketDataPublisher D) (instrumentId : Int) :
    Option (InstrumentSnapshot D) := HashMap.get? publisher.byId instrumentId

def publish (publisher : MarketDataPublisher D) (book : Book D) (stats : Statistics D) :
    Exec (MarketDataPublisher D) :=
  match HashMap.get? publisher.byId book.instrumentId with
  | none => throw .unregistered
  | some _ => pure { publisher with
      byId := HashMap.set publisher.byId book.instrumentId ⟨book, stats, book.sequence⟩ }

end MarketDataPublisher

end RustTrader
