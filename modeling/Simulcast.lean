import Simulcast.AudioCopy
import Simulcast.Document.LayerRequest
import Simulcast.Document.Status
import Simulcast.Http.Endpoint
import Simulcast.Relay.Broadcasting
import Simulcast.Relay.Forwarding
import Simulcast.Relay.Viewing
import Simulcast.Proofs.Registry.Exclusivity
import Simulcast.Proofs.Registry.Lifecycle
import Simulcast.Proofs.Relay.Operation
import Simulcast.Proofs.Relay.Settled
import Simulcast.Proofs.Viewer.Timeline
import Simulcast.Proofs.Relay.Orderly
import Simulcast.Proofs.Relay.Interleaving
import Simulcast.Proofs.Relay.NoticeOrder
import Simulcast.Proofs.Relay.Refusal
import Simulcast.Proofs.Http.Requests
import Simulcast.Proofs.Relay.Custody
import Simulcast.Proofs.Relay.Dispersal
import Simulcast.Proofs.Relay.Seclusion
import Simulcast.Proofs.Relay.Cadence
import Simulcast.Proofs.Relay.Schedules
import Simulcast.Proofs.Relay.Shares
import Simulcast.Proofs.Relay.Accounts
import Simulcast.Proofs.Relay.Resemblance
import Simulcast.Proofs.Relay.Abreast
import Simulcast.Proofs.Relay.Isolation
import Simulcast.Proofs.StreamKey.Acceptance
import Simulcast.Proofs.Http.Cues
import Simulcast.Proofs.Http.Admission
import Simulcast.Proofs.Http.Announcements
import Simulcast.Proofs.Http.Remembrance
import Simulcast.Proofs.Http.SessionLinks
import Simulcast.Proofs.Relay.Contest
import Simulcast.Proofs.Keyframe.Conservation
import Simulcast.Proofs.Relay.Inventory
import Simulcast.Proofs.Relay.Departure
import Simulcast.Proofs.AudioCopy.Prefix
import Simulcast.Proofs.Stream.Announcement
import Simulcast.Proofs.Relay.Demand
import Simulcast.Proofs.Relay.LayerChoice
import Simulcast.Proofs.Http.LayerChoice
import Simulcast.Proofs.Http.LayerTags
import Simulcast.Proofs.Document.Status
import Simulcast.Proofs.StreamKey.History
import Simulcast.Proofs.Stream.Details
import Simulcast.Proofs.Http.Authorization
import Simulcast.Proofs.Stream.Recordings
