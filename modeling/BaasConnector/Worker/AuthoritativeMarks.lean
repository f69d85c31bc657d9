import BaasConnector.Pix.HoldResolution
import BaasConnector.Reconciliation.BreakKeys
import BaasConnector.Worker.AutoResolution

namespace BaasConnector.Worker.AuthoritativeMarks

open BaasConnector.Lib.Effects BaasConnector.Lib.Keyed BaasConnector.Taxonomy.Status
open BaasConnector.Connector.Records BaasConnector.Connector.Calls BaasConnector.Connector.Database
open BaasConnector.Connector.Replies BaasConnector.Worker.AutoResolution
open BaasConnector.Reconciliation.Items BaasConnector.Reconciliation.Passes
open BaasConnector.Reconciliation.Motor BaasConnector.Reconciliation.Normalizers
open BaasConnector.Reconciliation.Effects BaasConnector.Reconciliation.Partition
open BaasConnector.Reconciliation.Provenance BaasConnector.Reconciliation.Identity
open BaasConnector.Reconciliation.SharedIds BaasConnector.Reconciliation.BreakKeys
open BaasConnector.Webhooks.Apply

/-- The id that a normaliser mints for an item. -/
def itemId (ulid : String) : String := "rci_" ++ ulid

variable {w : World} {quebra : BreakIntent} {toStatus : TransactionStatus}

section Sample

open BaasConnector.Pix.HoldResolution BaasConnector.Ledger.MemoryStore

end Sample

end BaasConnector.Worker.AuthoritativeMarks
