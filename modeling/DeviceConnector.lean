import DeviceConnector.CommandLine.Command
import DeviceConnector.Frame.Codec
import DeviceConnector.Host.Wait
import DeviceConnector.Identifier.HardwareAddress
import DeviceConnector.Identifier.Json
import DeviceConnector.Identifier.TimeBased
import DeviceConnector.Main
import DeviceConnector.Proofs.Host.Effect
import DeviceConnector.Proofs.Host.Handling
import DeviceConnector.Proofs.Host.SessionLink
import DeviceConnector.Proofs.Host.VdcConnection
import DeviceConnector.Proofs.Host.Isolation
import DeviceConnector.Proofs.Json.Scalar
import DeviceConnector.Proofs.Message.RoundTrip
import DeviceConnector.Proofs.Host.Roster
import DeviceConnector.Proofs.Host.Announcement
import DeviceConnector.Proofs.Host.AnnouncedOnce
import DeviceConnector.Proofs.Request
import DeviceConnector.Proofs.Host.Registration
import DeviceConnector.Proofs.Host.Addressing
import DeviceConnector.Proofs.Frame.Limit
import DeviceConnector.Proofs.Host.Outbox
import DeviceConnector.Proofs.Host.Confinement
import DeviceConnector.Proofs.Json.Provenance
import DeviceConnector.Proofs.Message.Size
import DeviceConnector.Proofs.Host.Limit
import DeviceConnector.Proofs.Host.Delivery
import DeviceConnector.Proofs.Host.Overtaking
import DeviceConnector.Proofs.Host.Correlation
import DeviceConnector.Proofs.Request.Failure
import DeviceConnector.Proofs.Identifier.TimeBased
import DeviceConnector.Proofs.Json.Record
import DeviceConnector.Proofs.Message.Variant
import DeviceConnector.Proofs.Host.Echo
import DeviceConnector.Proofs.Identifier.TimeFields
import DeviceConnector.Proofs.Identifier.Canonical
import DeviceConnector.Proofs.Host.Reply
import DeviceConnector.Proofs.Host.Hello
import DeviceConnector.Proofs.Session.Run
import DeviceConnector.Proofs.Host.Bye
import DeviceConnector.Proofs.Host.Vanishing
import DeviceConnector.Proofs.Identifier.Order
import DeviceConnector.Proofs.CommandLine.Duration
import DeviceConnector.Proofs.Message.Number
import DeviceConnector.Proofs.Message.Positional
import DeviceConnector.Proofs.Identifier.HardwareAddress
import DeviceConnector.Proofs.Identifier.Directory
