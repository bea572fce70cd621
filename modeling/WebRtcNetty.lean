import WebRtcNetty.Lib.Run
import WebRtcNetty.Lib.Java.Exec
import WebRtcNetty.Lib.Java.Collections
import WebRtcNetty.Lib.Java.Platform
import WebRtcNetty.Lib.Proto2.Compat
import WebRtcNetty.Cmd.Messages
import WebRtcNetty.Cmd.ClientSchemas
import WebRtcNetty.State.StateGroup
import WebRtcNetty.Lib.Java.Binary32
import WebRtcNetty.State.Worker
import WebRtcNetty.State.WorkerThreads
import WebRtcNetty.Chat.World
import WebRtcNetty.Chat.RoomData
import WebRtcNetty.Chat.CmdUtil
import WebRtcNetty.Chat.Results
import WebRtcNetty.Chat.RoomStates
import WebRtcNetty.Chat.RoomStateGroup
import WebRtcNetty.Chat.RoomSpec
import WebRtcNetty.Chat.RoomRefinement
import WebRtcNetty.Chat.RoomQueue
import WebRtcNetty.Chat.RoomAuthority
import WebRtcNetty.Chat.RoomFrames
import WebRtcNetty.Chat.RoomPhases
import WebRtcNetty.Chat.Broadcast
import WebRtcNetty.Chat.Reconnect
import WebRtcNetty.Chat.Logout
import WebRtcNetty.Chat.Closing
import WebRtcNetty.Server.Server
import WebRtcNetty.Server.WebChatDispatcher
import WebRtcNetty.Server.Frames
import WebRtcNetty.Server.Runs
import WebRtcNetty.Server.Sessions
import WebRtcNetty.Server.SessionBinding
import WebRtcNetty.Server.ProtoWebSocketHandler
import WebRtcNetty.Lib.Java.Serialization
import WebRtcNetty.Server.Rejections
import WebRtcNetty.Server.LoginGate
import WebRtcNetty.Server.Output
import WebRtcNetty.Lib.EventLoops
import WebRtcNetty.Server.DispatchOrder
import WebRtcNetty.Lib.Java.SweptMap
import WebRtcNetty.Server.RoomRegistry
import WebRtcNetty.Server.Findable
import WebRtcNetty.Server.CharacterRegistry
import WebRtcNetty.Server.UniqueOnline
import WebRtcNetty.Server.Numbering
import WebRtcNetty.Server.Membership
import WebRtcNetty.Server.Routing
import WebRtcNetty.Server.KickOff
import WebRtcNetty.Lib.Js.Number
import WebRtcNetty.Html.HashCode
import WebRtcNetty.Lib.Base64
import WebRtcNetty.Html.SendFile
import WebRtcNetty.Html.VideoCall
import WebRtcNetty.State.NextState
import WebRtcNetty.State.FaultIsolation
import WebRtcNetty.Chat.PhaseOrder
import WebRtcNetty.Chat.Capacity
import WebRtcNetty.Chat.Snapshots
import WebRtcNetty.Chat.BroadcastExact
import WebRtcNetty.Server.Acceptance
import WebRtcNetty.Chat.Waiting
import WebRtcNetty.Server.RoomRuns
import WebRtcNetty.Server.Ledger
import WebRtcNetty.Server.Deployment
import WebRtcNetty.Html.CallNetwork
import WebRtcNetty.Html.CallConsent
import WebRtcNetty.Lib.Js.Utf16
import WebRtcNetty.Html.Protobuf.Utf8
import WebRtcNetty.Html.Protobuf.Writer
import WebRtcNetty.Html.Protobuf.Encoder
import WebRtcNetty.Html.Proto
import WebRtcNetty.Html.BinaryPack.RoundTrip
import WebRtcNetty.Html.DataConnection.Progress
import WebRtcNetty.Html.DataConnection.Order
