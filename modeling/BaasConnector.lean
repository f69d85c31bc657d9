import BaasConnector.Accounts.Requirements
import BaasConnector.Accounts.Retries
import BaasConnector.AdapterKit.HalfOpen
import BaasConnector.AdapterKit.Redaction
import BaasConnector.AdapterKit.RetrySafety
import BaasConnector.AdapterKit.TokenLifetimes
import BaasConnector.Admin.RefreshTokens
import BaasConnector.Audit.Detection
import BaasConnector.Auth.Allowlist
import BaasConnector.Balance.Invalidations
import BaasConnector.Connector.Reordering
import BaasConnector.Crypto.Base32
import BaasConnector.Crypto.DataKeys
import BaasConnector.Crypto.WebhookSignature
import BaasConnector.Idempotency.Fingerprint
import BaasConnector.Idempotency.Isolation
import BaasConnector.Idempotency.Leases
import BaasConnector.Ledger.EntryOrder
import BaasConnector.Ledger.Resolutions
import BaasConnector.Ledger.ResolvedOnce
import BaasConnector.MockBank.LedgerReset
import BaasConnector.MockBank.RequestRuns
import BaasConnector.Pix.Charges
import BaasConnector.Pix.Clocks
import BaasConnector.Pix.HoldRuns
import BaasConnector.Pix.LiveSends
import BaasConnector.Pix.Orders
import BaasConnector.Pix.Recovery
import BaasConnector.Pix.RefundRuns
import BaasConnector.Pix.RepositoryAgreement
import BaasConnector.Pix.StatementPages
import BaasConnector.Pix.StatementScan
import BaasConnector.Reconciliation.BalanceResidue
import BaasConnector.Reconciliation.BusinessDays
import BaasConnector.Reconciliation.Easter
import BaasConnector.Reconciliation.ImportIntents
import BaasConnector.Reconciliation.InputOrder
import BaasConnector.Reconciliation.OpenBreaks
import BaasConnector.Reconciliation.Readjustment
import BaasConnector.Reconciliation.StatusDrift
import BaasConnector.Sdk.Accepted
import BaasConnector.Taxonomy.Allocation
import BaasConnector.Taxonomy.BrCode
import BaasConnector.Taxonomy.EndToEndIds
import BaasConnector.Taxonomy.MoneyText
import BaasConnector.Taxonomy.Rounding
import BaasConnector.Webhooks.Conservation
import BaasConnector.Webhooks.KeyedMutex
import BaasConnector.Webhooks.LockOwnership
import BaasConnector.Webhooks.Sweeper
import BaasConnector.Worker.AuthoritativeMarks
import BaasConnector.Worker.DeliveryOrder
import BaasConnector.Worker.EndpointSecrets
import BaasConnector.Worker.FanOut
import BaasConnector.Worker.Finality
import BaasConnector.Worker.LadderPacing
import BaasConnector.Worker.PollRuns
import BaasConnector.Worker.SkippedWindows
