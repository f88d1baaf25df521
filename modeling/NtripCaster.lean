import NtripCaster.Api.Concurrent
import NtripCaster.Api.Restart
import NtripCaster.Api.Sessions
import NtripCaster.Caster.Accept
import NtripCaster.Caster.Disabling
import NtripCaster.Caster.Disconnecting
import NtripCaster.Rover.Cleanup
import NtripCaster.Rover.Delivery
import NtripCaster.Rover.Stranded
import NtripCaster.Rtcm.Decode1005
import NtripCaster.Source.Stream
import NtripCaster.Simbase.Frame
import NtripCaster.Rtcm.Recovery
import NtripCaster.Simbase.Request
import NtripCaster.Library.Separated
import NtripCaster.Sourcetable.Records
import NtripCaster.Api.Ghosts
import NtripCaster.Account.Bindings
import NtripCaster.Database.Open
import NtripCaster.Source.System
import NtripCaster.Source.Slot
import NtripCaster.Source.Succession
import NtripCaster.Source.Publisher
import NtripCaster.Caster.Shutdown
import NtripCaster.Library.Bits
import NtripCaster.Rtcm.BitReader
import NtripCaster.Rtcm.Payload
import NtripCaster.Rtcm.Layout1005
import NtripCaster.Rtcm.Reference
import NtripCaster.Mountpoint.Antenna
import NtripCaster.Mountpoint.Limit
import NtripCaster.Account.Listing
import NtripCaster.Caster.AllOrNothing
import NtripCaster.Mountpoint.Sweep
import NtripCaster.Caster.UserSessions
import NtripCaster.Caster.HeaderCase
import NtripCaster.Source.Traffic
import NtripCaster.Library.Crc
import NtripCaster.Simbase.Checksum
import NtripCaster.Simrover.Receive
import NtripCaster.Rover.Accounting
import NtripCaster.Api.Online
import NtripCaster.Account.Grants
import NtripCaster.Caster.Start
import NtripCaster.Testenv.QuickStart
import NtripCaster.Source.Positions
import NtripCaster.Api.Listings
import NtripCaster.Api.Kicking
