import Yojimbo.Config
import Yojimbo.Allocator
import Yojimbo.Message
import Yojimbo.MessageLifecycle
import Yojimbo.MessageType
import Yojimbo.MessageMemory
import Yojimbo.Stream
import Yojimbo.ConnectionPacket
import Yojimbo.PacketRead
import Yojimbo.RoundTrip
import Yojimbo.UniqueEncoding
import Yojimbo.Connection
import Yojimbo.PacketAssembly
import Yojimbo.Budget
import Yojimbo.Leak
