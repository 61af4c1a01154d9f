import Neonfi.Lib.Numeric
import Neonfi.Lib.Run
import Neonfi.Lib.Table
import Neonfi.Ledger.Model
import Neonfi.Ledger.Recalc
import Neonfi.Ledger.Transactions
import Neonfi.Ledger.Assets
import Neonfi.Ledger.BulkCells
import Neonfi.Ledger.Bulk
import Neonfi.Ledger.AssetsBulk
import Neonfi.Ledger.Requests
import Neonfi.Ledger.Coherence
import Neonfi.Ledger.CoherentRuns
import Neonfi.Ledger.Prepared
import Neonfi.Ledger.Portfolios
import Neonfi.Ledger.Rollup
import Neonfi.Ledger.Rows
import Neonfi.Ledger.Transfers
import Neonfi.Ledger.History
import Neonfi.Ledger.Settle
import Neonfi.Ledger.BulkParity
import Neonfi.Ledger.Oversell
import Neonfi.Billing.Handlers
import Neonfi.Billing.Refunds
import Neonfi.Billing.Frame
import Neonfi.Billing.Retries
import Neonfi.Billing.Deliveries
import Neonfi.Billing.Mirror
import Neonfi.Billing.Schedule
import Neonfi.Lib.Reorder
import Neonfi.Billing.Books
import Neonfi.Billing.DeliveryOrder
import Neonfi.Wallet.Summary
import Neonfi.Wallet.Tokens
import Neonfi.Wallet.Feed
import Neonfi.Wallet.Sync
import Neonfi.Wallet.CostBasis
import Neonfi.Ledger.Derive
import Neonfi.Ledger.Undo
import Neonfi.Ledger.CreateDelete
import Neonfi.Ledger.Lots
import Neonfi.Ledger.LotRuns
import Neonfi.Lib.Admission
import Neonfi.Webhooks.Moralis
import Neonfi.Wallet.FeedOutcome
import Neonfi.Webhooks.Bookings
import Neonfi.Webhooks.Recorded
import Neonfi.Webhooks.Replay
import Neonfi.Webhooks.FanOut
import Neonfi.Webhooks.NftMoves
import Neonfi.Webhooks.Poison
import Neonfi.Lib.Median
import Neonfi.Prices.Resolver
import Neonfi.Prices.Consensus
import Neonfi.Auth.BruteForce
import Neonfi.Snapshots.Model
import Neonfi.Snapshots.Final
import Neonfi.Wallet.HistoryWalk
import Neonfi.Lib.LastWrite
import Neonfi.Nfts.Import
import Neonfi.Nfts.Order
import Neonfi.Ledger.Moves
import Neonfi.Ledger.Removal
import Neonfi.Lib.Repeat
import Neonfi.Wallet.Resolution
import Neonfi.Wallet.Reimport
import Neonfi.Lib.Upsert
import Neonfi.Nfts.Rewrite
import Neonfi.Wallet.CostMap
import Neonfi.Nfts.Reimport
import Neonfi.Nfts.Resync
import Neonfi.Lib.Rotation
import Neonfi.Sessions.Model
import Neonfi.Sessions.Steps
import Neonfi.Sessions.SingleUse
import Neonfi.Sessions.Reuse
import Neonfi.Sessions.Reset
import Neonfi.Portfolios.Model
import Neonfi.Portfolios.Limits
import Neonfi.Billing.Onboarding
import Neonfi.Ledger.Valuation
import Neonfi.Lib.Tally
import Neonfi.Overview.Model
import Neonfi.Overview.Headline
import Neonfi.Overview.Allocation
import Neonfi.Overview.TransactionCount
import Neonfi.Ws.PlanGate
import Neonfi.Nfts.Overrides
import Neonfi.Prices.Stream
import Neonfi.Http.RateLimit
import Neonfi.Billing.Periods
import Neonfi.Ledger.CashIdentity
import Neonfi.Lib.Walk
import Neonfi.Ledger.KnownUnits
import Neonfi.Lib.Fallback
import Neonfi.Wallet.Providers
import Neonfi.Webhooks.Attribution
import Neonfi.Nfts.Spam
import Neonfi.Nfts.LiveSpam
import Neonfi.Ledger.OpeningParity
import Neonfi.Lib.Classes
import Neonfi.Ledger.BulkAccounts
import Neonfi.Lib.Series
import Neonfi.Overview.Periods
import Neonfi.Overview.ValueHistory
import Neonfi.Lib.DecimalText
import Neonfi.Webhooks.Units
import Neonfi.Lib.Binary64
import Neonfi.Wallet.DecimalEncoding
import Neonfi.Lib.Pages
import Neonfi.Ledger.Listing
import Neonfi.Wallet.AlchemyWalk
import Neonfi.Wallet.AlchemyPaging
import Neonfi.Wallet.CostTiers
import Neonfi.Lib.FirstLeast
import Neonfi.Tokens.CoinMarketCap
import Neonfi.Tokens.Tickers
import Neonfi.Lib.Casing
import Neonfi.Prices.Binance
import Neonfi.Prices.Coinbase
import Neonfi.Lib.Carry
import Neonfi.Snapshots.BackfillSeries
import Neonfi.Lib.Separated
import Neonfi.Portfolios.Slugs
import Neonfi.Ledger.Scope
import Neonfi.Ledger.Lifecycle
import Neonfi.Ledger.Tenancy
import Neonfi.Lib.Chunks
import Neonfi.Prices.Coverage
import Neonfi.Prices.Kucoin
import Neonfi.Prices.Pairs
import Neonfi.Lib.Broadcast
import Neonfi.Ws.Firehose
import Neonfi.Lib.Custody
import Neonfi.Ws.Admission
