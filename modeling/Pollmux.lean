import Pollmux.Kit.Machine
import Pollmux.Kit.Slice
import Pollmux.Kit.Cover
import Pollmux.Kit.BigEndian
import Pollmux.Kit.GoInt
import Pollmux.Kit.History
import Pollmux.Kit.Selection
import Pollmux.Pipe
import Pollmux.Pipe.Fifo
import Pollmux.Reliable
import Pollmux.Reliable.Stream
import Pollmux.Reliable.Endpoint
import Pollmux.Reliable.PrefixSafety
import Pollmux.Reliable.Link
import Pollmux.Reliable.Resume
import Pollmux.Reliable.Word
import Pollmux.Frame
import Pollmux.Frame.Codec
import Pollmux.Frame.Readers
import Pollmux.Frame.Truncation
import Pollmux.Config
import Pollmux.Server.Attachments
import Pollmux.Server.Handover
import Pollmux.Server.LettingGo
import Pollmux.Server.Store
import Pollmux.Server.WebSocket
import Pollmux.Server.Disconnect
import Pollmux.Server.Grace
import Pollmux.Server.Sweep
import Pollmux.Server.Polling
import Pollmux.Server.EagerAck
import Pollmux.Server.Intake
import Pollmux.Server.BatchUpload
import Pollmux.Server.Accepted
import Pollmux.Server.LateResume
import Pollmux.Reliable.BatchPoll
import Pollmux.Server.StalePoll
import Pollmux.Client.Accept
import Pollmux.Client.Backoff
import Pollmux.Client.Flush
import Pollmux.Client.Connect
import Pollmux.Client.Negotiation
import Pollmux.Client.Upload
import Pollmux.Client.Coalescing
import Pollmux.Client.Supervise
import Pollmux.Client.Guard
import Pollmux.Client.Requests
import Pollmux.Frame.Messages
import Pollmux.Reliable.BatchSend
import Pollmux.Frame.Wire
import Pollmux.Kit.Conduit
import Pollmux.Plain.Download
import Pollmux.Plain.Upload
import Pollmux.Resumable.Socket
import Pollmux.Resumable.Survival
