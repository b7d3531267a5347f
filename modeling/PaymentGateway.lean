import PaymentGateway.Lib.Table
import PaymentGateway.Lib.Execution
import PaymentGateway.Shared.Asset
import PaymentGateway.Shared.Money
import PaymentGateway.Payments.StateMachine
import PaymentGateway.Payments.Matcher
import PaymentGateway.Payments.Evaluation
import PaymentGateway.Payments.Confirmations
import PaymentGateway.Lib.Fallible
import PaymentGateway.Database.Client
import PaymentGateway.Ledger.Posting
import PaymentGateway.Blockchain.Adapter
import PaymentGateway.Monitor.Service
import PaymentGateway.Worker.ExpirySweep
import PaymentGateway.Api.Invoices
import PaymentGateway.System.Operation
import PaymentGateway.Monitor.Inversion
import PaymentGateway.System.Effects
import PaymentGateway.Lib.Separated
import PaymentGateway.System.Credits
import PaymentGateway.System.Invoices
import PaymentGateway.System.Settlement
import PaymentGateway.System.Replay
import PaymentGateway.Monitor.Recording
import PaymentGateway.System.AssetIntegrity
import PaymentGateway.System.Interleaving
import PaymentGateway.System.Trace
import PaymentGateway.Monitor.Failures
import PaymentGateway.System.Outbox
import PaymentGateway.Ledger.Balances
import PaymentGateway.Ledger.Identity
import PaymentGateway.Ledger.Storage
import PaymentGateway.Ledger.Reconciliation
import PaymentGateway.Lib.Serial
import PaymentGateway.Ledger.Concurrency
import PaymentGateway.Monitor.Merchants
import PaymentGateway.System.Policies
import PaymentGateway.System.Progress
import PaymentGateway.System.Deadline
import PaymentGateway.Blockchain.TransferLog
import PaymentGateway.Blockchain.EvmAdapter
import PaymentGateway.Blockchain.BitcoinAdapter
import PaymentGateway.Lib.Binary64
import PaymentGateway.Blockchain.Satoshis
import PaymentGateway.Lib.Await
import PaymentGateway.Monitor.Scanner
import PaymentGateway.Monitor.Requests
import PaymentGateway.System.Coverage
import PaymentGateway.System.Admission
import PaymentGateway.Monitor.Rescan
import PaymentGateway.System.Paths
import PaymentGateway.System.Versions
import PaymentGateway.System.Pool
import PaymentGateway.System.LateTransfers
import PaymentGateway.Lib.Concurrent
import PaymentGateway.Signing.Service
import PaymentGateway.Signing.Once
import PaymentGateway.Signing.Outline
import PaymentGateway.Signing.Authorised
import PaymentGateway.Signing.Window
import PaymentGateway.Api.Idempotency
import PaymentGateway.Webhooks.Dispatcher
import PaymentGateway.Webhooks.Attempts
import PaymentGateway.Webhooks.Outline
import PaymentGateway.Webhooks.Chain
import PaymentGateway.Webhooks.Terminal
import PaymentGateway.Webhooks.Retries
import PaymentGateway.Webhooks.FanOut
import PaymentGateway.Api.Common
import PaymentGateway.Api.Members
import PaymentGateway.Api.Auth
import PaymentGateway.Api.Decisions
import PaymentGateway.Api.Lockout
import PaymentGateway.Api.Sessions
import PaymentGateway.Blockchain.Spelling
import PaymentGateway.Shared.Network
import PaymentGateway.Api.Addresses
import PaymentGateway.Ledger.Credit
import PaymentGateway.Monitor.Clock
import PaymentGateway.System.Reobservation
import PaymentGateway.Monitor.Orphaning
import PaymentGateway.System.Backing
import PaymentGateway.Lib.Rounding
import PaymentGateway.Shared.Division
import PaymentGateway.Shared.ExchangeRate
import PaymentGateway.Payments.Tolerance
import PaymentGateway.Shared.Units
import PaymentGateway.Blockchain.SegwitStandard
import PaymentGateway.Blockchain.Canonical
import PaymentGateway.Lib.IpText
import PaymentGateway.Webhooks.SsrfGuard
import PaymentGateway.ExchangeRate.Service
import PaymentGateway.Webhooks.Batch
import PaymentGateway.Webhooks.Disabling
import PaymentGateway.System.OrphanedCredits
import PaymentGateway.System.Freshness
import PaymentGateway.System.Movements
import PaymentGateway.System.Rejections
import PaymentGateway.System.Stranding
import PaymentGateway.System.ReorgDepth
import PaymentGateway.System.Survey
import PaymentGateway.System.Reorgs
import PaymentGateway.Blockchain.HostileLogs
import PaymentGateway.Ledger.AccountCodes
import PaymentGateway.Api.Pagination
import PaymentGateway.Lib.FixedWindow
import PaymentGateway.Security.RateLimiter
import PaymentGateway.Lib.Lockstep
import PaymentGateway.Security.Redaction
import PaymentGateway.Lib.Utf8
import PaymentGateway.Security.WebhookSignature
import PaymentGateway.Lib.Base64
import PaymentGateway.Security.Encryption
import PaymentGateway.Lib.Calendar
import PaymentGateway.Lib.Json
import PaymentGateway.Signing.Digest
import PaymentGateway.Webhooks.History
import PaymentGateway.Ledger.Payable
import PaymentGateway.Api.Balance
import PaymentGateway.System.MerchantBalances
import PaymentGateway.System.Crediting
import PaymentGateway.System.Courses
import PaymentGateway.System.Repeat
import PaymentGateway.Api.KeyAccess
import PaymentGateway.Webhooks.Isolation
