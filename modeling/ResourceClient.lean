import ResourceClient.Session.Run
import ResourceClient.Proofs.Cache.HubSync
import ResourceClient.Proofs.Client.Quiet
import ResourceClient.Proofs.Cache.Events
import ResourceClient.Proofs.Cache.Occupancy
import ResourceClient.Proofs.Client.History
import ResourceClient.Proofs.Client.Freshness
import ResourceClient.Proofs.Client.Polls
import ResourceClient.Proofs.Client.SingleFlight
import ResourceClient.Proofs.Client.Runs
import ResourceClient.Proofs.Service.Writes
import ResourceClient.Proofs.Client.RelyGuarantee
import ResourceClient.Proofs.Client.Ledger
import ResourceClient.Proofs.Client.Attribution
import ResourceClient.Proofs.Service.Isolation
import ResourceClient.Proofs.Posting.Order
import ResourceClient.Proofs.Wire.Faults
import ResourceClient.Proofs.Service.Recording
import ResourceClient.Proofs.Service.Batches
import ResourceClient.Proofs.Service.Transactions
import ResourceClient.Proofs.Service.DeepPosts
import ResourceClient.Proofs.Service.Precedence
import ResourceClient.Proofs.Service.Attempts
import ResourceClient.Proofs.Service.Rebasing
import ResourceClient.Proofs.Push.Outbox
import ResourceClient.Proofs.Client.Reentry
import ResourceClient.Proofs.Cache.Consistency
import ResourceClient.Proofs.Client.Producers
import ResourceClient.Proofs.Address.Queries
import ResourceClient.Proofs.Address.Urls
import ResourceClient.Proofs.Service.BatchedWrites
import ResourceClient.Proofs.Service.Reads
import ResourceClient.Proofs.Service.Refinement
import ResourceClient.Proofs.Address.Bases
import ResourceClient.Proofs.Service.Destinations
import ResourceClient.Proofs.Service.Warming
import ResourceClient.Proofs.Client.Renewal
import ResourceClient.Proofs.Service.Recency
import ResourceClient.Proofs.Posting.Schedules
import ResourceClient.Proofs.Service.Rejections
import ResourceClient.Proofs.Service.Notices
import ResourceClient.Proofs.Service.NameAudits
import ResourceClient.Proofs.Service.AuditedCalls
import ResourceClient.Proofs.Address.Ascents
import ResourceClient.Proofs.Service.Ancestors
import ResourceClient.Proofs.Wire.Relistings
import ResourceClient.Proofs.Client.Elements
import ResourceClient.Proofs.Cache.Registrations
import ResourceClient.Proofs.Cache.Forgetting
import ResourceClient.Proofs.Client.Interactions
import ResourceClient.Proofs.Address.Coverage
import ResourceClient.Proofs.Service.Confinement
import ResourceClient.Proofs.Service.Spellings
import ResourceClient.Proofs.Json.Records
import ResourceClient.Proofs.Push.Frames
import ResourceClient.Proofs.Cache.Listening
import ResourceClient.Proofs.Client.FrameDelivery
import ResourceClient.Proofs.Wire.Exports
import ResourceClient.Proofs.Wire.Grammar
import ResourceClient.Proofs.Wire.Acceptance
import ResourceClient.Proofs.Wire.Reexports
import ResourceClient.Proofs.Address.Parents
import ResourceClient.Proofs.Push.Deliveries
import ResourceClient.Proofs.Client.Subkeys
import ResourceClient.Proofs.Service.Heads
import ResourceClient.Proofs.Path.Canonical
