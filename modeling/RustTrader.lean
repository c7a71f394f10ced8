import RustTrader.Executions
import RustTrader.Disconnects
import RustTrader.MarketOrders
import RustTrader.Quotes
import RustTrader.States
import RustTrader.InstrumentFiles
import RustTrader.TierTable
import RustTrader.Representation
import RustTrader.Termination
import RustTrader.Fix.Accounting
import RustTrader.Fix.Reports
import RustTrader.Fix.Business
import RustTrader.Fix.Checked
import RustTrader.Fix.Connections
import RustTrader.Fix.QuoteSides
import RustTrader.Fix.Startup
import RustTrader.Fix.Delivery
import RustTrader.Fix.Dialogue
import RustTrader.Fix.Quiescence
import RustTrader.Fix.SessionLog
import RustTrader.Reentry
import RustTrader.Reading
