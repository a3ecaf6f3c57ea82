import Catlink.Lib.BigEndian
import Catlink.Lib.Incremental
import Catlink.Lib.Runs
import Catlink.Lib.Trace
import Catlink.Lib.Cover
import Catlink.Lib.Cuts
import Catlink.Lib.Growing
import Catlink.Lib.Dict
import Catlink.Lib.MainLoop
import Catlink.Lib.Paint
import Catlink.Lib.Pieces
import Catlink.Lib.Progress
import Catlink.Lib.Rows
import Catlink.Lib.Stretches
import Catlink.Lib.Accesses
import Catlink.Python
import Catlink.Struct
import Catlink.Rencodeplus.Encode
import Catlink.Rencodeplus.Decode
import Catlink.Rencodeplus.Encoding
import Catlink.Rencodeplus.RoundTrip
import Catlink.Rencodeplus.Leaves
import Catlink.Rencodeplus.Bounds
import Catlink.Rencodeplus.Truncated
import Catlink.Net.Header
import Catlink.Net.Crypto
import Catlink.Net.SocketProtocol
import Catlink.Net.Segmentation
import Catlink.Net.MalformedPackets
import Catlink.Net.Framing
import Catlink.Net.Encode
import Catlink.Net.Delivery
import Catlink.Net.Mmap
import Catlink.Net.MmapRing
import Catlink.Net.FileTransfer
import Catlink.Net.ChunkedTransfer
import Catlink.Net.FileDescriptors
import Catlink.Net.FileRefusals
import Catlink.Net.TransferRequests
import Catlink.Net.TransferConsent
import Catlink.Util.Rectangle
import Catlink.Util.Region
import Catlink.Util.WindowGeometry
import Catlink.Util.WindowDrift
import Catlink.Net.WebSocket
import Catlink.Net.WebSocketMask
import Catlink.Net.MaskAccesses
import Catlink.Net.WebSocketFrames
import Catlink.Net.WebSocketPing
import Catlink.Net.WebSocketReassembly
import Catlink.Codecs.ImageWrapper
import Catlink.Codecs.Argb
import Catlink.Codecs.ArgbPixels
import Catlink.Codecs.ArgbGrey
import Catlink.Codecs.ArgbSwap
import Catlink.Window.Motion
import Catlink.Window.ScrollValues
import Catlink.Window.ScrollSame
import Catlink.Window.EncodeQueue
import Catlink.Window.GrabOrder
import Catlink.Window.SendRegions
import Catlink.Window.EdgeRegions
import Catlink.Window.RefreshRegions
import Catlink.Window.RefreshDebt
import Catlink.Window.RefreshTimers
import Catlink.Window.ScrolledRegions
import Catlink.Window.ScrollDebt
import Catlink.Auth.SysAuthBase
import Catlink.Rfb.Protocol
import Catlink.Rfb.Reads
import Catlink.Rfb.LoopProgress
import Catlink.Rfb.Messages
import Catlink.Rfb.Segmentation
import Catlink.Rfb.Authentication
import Catlink.Rfb.PasswordChecks
import Catlink.Rfb.DesDigest
import Catlink.Server.Auth
import Catlink.Server.AuthSoundness
import Catlink.Server.Sharing
import Catlink.Server.QueueScheduler
import Catlink.Server.SchedulerRuns
import Catlink.Server.ProjectionFence
import Catlink.Client.Gravity
import Catlink.Client.Audio
import Catlink.Client.AudioRecovery
import Catlink.Client.SpeakerQueue
import Catlink.Clipboard.Timeout
import Catlink.Clipboard.BridgeIpc
import Catlink.Clipboard.UriText
import Catlink.Clipboard.Bridge
import Catlink.Clipboard.BridgeGenerations
import Catlink.Clipboard.FileBatches
import Catlink.Clipboard.Munge
import Catlink.X11.XSettings
import Catlink.X11.PropConv
import Catlink.X11.Selection
import Catlink.X11.SelectionReads
import Catlink.X11.SelectionTokens
import Catlink.X11.SelectionOffers
import Catlink.X11.SelectionTransfers
import Catlink.Codecs.BitmapRectangles
import Catlink.Window.DelayedTimers
import Catlink.Window.DelayedDamage
import Catlink.Window.VideoRegions
import Catlink.Window.ScrollThreads
import Catlink.Window.ScrollPictures
import Catlink.Server.Keystrokes
import Catlink.Util.ChildExits
import Catlink.Client.Handshake
