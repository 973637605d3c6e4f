import RoomRelay.Presence.Remote
import RoomRelay.Proofs.Gateway.Marker
import RoomRelay.Proofs.Gateway.Residue
import RoomRelay.Proofs.Hub.Delivery
import RoomRelay.Startup
import RoomRelay.Store.Row
import RoomRelay.Timeline
import RoomRelay.Proofs.Hub.Lifecycle
import RoomRelay.Proofs.Gateway.Opening
import RoomRelay.Proofs.Hub.Membership
import RoomRelay.Proofs.Gateway.Finality
import RoomRelay.Proofs.Gateway.Handlers
import RoomRelay.Proofs.Connection.Concourse
import RoomRelay.Proofs.Connection.Teardown
import RoomRelay.Proofs.Connection.Conduct
import RoomRelay.Proofs.Connection.Schedule
import RoomRelay.Proofs.Protocol.Commands
import RoomRelay.Proofs.Gateway.Spellings
import RoomRelay.Proofs.Gateway.Ledger
import RoomRelay.Proofs.Gateway.Indifference
import RoomRelay.Proofs.Gateway.Rejection
import RoomRelay.Proofs.Presence.Mirroring
import RoomRelay.Proofs.Protocol.Forms
import RoomRelay.Proofs.Service.History
import RoomRelay.Proofs.Gateway.Strangers
import RoomRelay.Proofs.Token.RoundTrip
import RoomRelay.Proofs.Token.Genuine
import RoomRelay.Proofs.Service.Founding
import RoomRelay.Proofs.Service.Activity
import RoomRelay.Proofs.Hub.Broadcast
import RoomRelay.Proofs.Hub.Commuting
import RoomRelay.Proofs.Service.Posting
import RoomRelay.Proofs.Service.FailedSends
import RoomRelay.Proofs.Service.Members
import RoomRelay.Proofs.Connection.Listening
import RoomRelay.Proofs.Config.Acceptance
import RoomRelay.Proofs.Connection.Writing
import RoomRelay.Proofs.Http.Origins
import RoomRelay.Proofs.Protocol.Events
import RoomRelay.Proofs.Protocol.RoomKeys
import RoomRelay.Proofs.Session.Queueing
