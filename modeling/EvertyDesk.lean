import EvertyDesk.Client.AudioPlayer
import EvertyDesk.Client.AudioReassembler
import EvertyDesk.Client.CodecConfig
import EvertyDesk.Client.CodecSwitch
import EvertyDesk.Client.DecodeLoop
import EvertyDesk.Client.DeliveryOrder
import EvertyDesk.Client.FrameAssembly
import EvertyDesk.Client.FrameQueue
import EvertyDesk.Client.FrameQueueSafety
import EvertyDesk.Client.KeyFrameRecovery
import EvertyDesk.Client.LossRecovery
import EvertyDesk.Client.LossStatistics
import EvertyDesk.Client.NalRepackaging
import EvertyDesk.Client.NalUnits
import EvertyDesk.Client.PendingFec
import EvertyDesk.Client.QueueConservation
import EvertyDesk.Client.QueueContinuity
import EvertyDesk.Client.Reassembler
import EvertyDesk.Client.ReassemblerBounds
import EvertyDesk.Client.ReassemblerContinuity
import EvertyDesk.Client.ReassemblerExactness
import EvertyDesk.Client.ReassemblerInOrder
import EvertyDesk.Client.ReassemblerReorder
import EvertyDesk.Client.ReassemblerSteps
import EvertyDesk.Client.ReceiveThread
import EvertyDesk.Client.VideoPath
import EvertyDesk.Desktop.BoundedLines
import EvertyDesk.Desktop.Clipboard
import EvertyDesk.Desktop.ClipboardSync
import EvertyDesk.Desktop.FrameMailbox
import EvertyDesk.Desktop.FrameRenderer
import EvertyDesk.Desktop.InputRelease
import EvertyDesk.Desktop.MouseMapping
import EvertyDesk.Desktop.RemoteInput
import EvertyDesk.Desktop.SessionEvents
import EvertyDesk.Desktop.ShortcutKeys
import EvertyDesk.Desktop.Supersession
import EvertyDesk.Evrt.ControlMessages
import EvertyDesk.Evrt.Fec
import EvertyDesk.Evrt.FecRecovery
import EvertyDesk.Evrt.JsonFields
import EvertyDesk.Evrt.Packet
import EvertyDesk.Evrt.Packetize
import EvertyDesk.Evrt.Roi
import EvertyDesk.Evrt.SessionConfig
import EvertyDesk.Evrt2.Apf
import EvertyDesk.Evrt2.AttentionFeed
import EvertyDesk.Evrt2.AttentionMapBuilder
import EvertyDesk.Evrt2.CodecRace
import EvertyDesk.Evrt2.Completion
import EvertyDesk.Evrt2.Datagrams
import EvertyDesk.Evrt2.EncryptedSession
import EvertyDesk.Evrt2.Exactness
import EvertyDesk.Evrt2.Fec
import EvertyDesk.Evrt2.FecRecovery
import EvertyDesk.Evrt2.Ingest
import EvertyDesk.Evrt2.KeyParsing
import EvertyDesk.Evrt2.Modes
import EvertyDesk.Evrt2.Nonces
import EvertyDesk.Evrt2.Packet
import EvertyDesk.Evrt2.Recovery
import EvertyDesk.Evrt2.RttEstimator
import EvertyDesk.Evrt2.SealedDatagrams
import EvertyDesk.Evrt2.Sender
import EvertyDesk.Evrt2.Session
import EvertyDesk.Evrt2.TrustWindow
import EvertyDesk.Evrtck.Analysis
import EvertyDesk.Evrtck.Atomicity
import EvertyDesk.Evrtck.Contents
import EvertyDesk.Evrtck.Decoder
import EvertyDesk.Evrtck.Encoder
import EvertyDesk.Evrtck.Format
import EvertyDesk.Evrtck.Lockstep
import EvertyDesk.Evrtck.Overlay
import EvertyDesk.Evrtck.Packets
import EvertyDesk.Evrtck.PaintOrder
import EvertyDesk.Evrtck.Painting
import EvertyDesk.Evrtck.Sync
import EvertyDesk.Evrtck.TileCoding
import EvertyDesk.Evrtck.TileOffsets
import EvertyDesk.Evrtck.Tiles
import EvertyDesk.Evrtck.Totality
import EvertyDesk.Evrtck.Zrle
import EvertyDesk.Evrtck.ZrleRoundTrip
import EvertyDesk.Host.AdaptiveRelief
import EvertyDesk.Host.Announcement
import EvertyDesk.Host.Approvals
import EvertyDesk.Host.Bitrate
import EvertyDesk.Host.CaptureHints
import EvertyDesk.Host.CaptureSlot
import EvertyDesk.Host.ChangeDetector
import EvertyDesk.Host.ChangeRegions
import EvertyDesk.Host.ColorConversion
import EvertyDesk.Host.CommandListener
import EvertyDesk.Host.DisplayServices
import EvertyDesk.Host.Downscale
import EvertyDesk.Host.EncodeLoop
import EvertyDesk.Host.FrameNumbers
import EvertyDesk.Host.HostSession
import EvertyDesk.Host.KickRequest
import EvertyDesk.Host.LoginLoop
import EvertyDesk.Host.MultiEncoder
import EvertyDesk.Host.NumericToken
import EvertyDesk.Host.Pipeline
import EvertyDesk.Host.RecoveryKeys
import EvertyDesk.Host.RelayChain
import EvertyDesk.Host.RelayCodec
import EvertyDesk.Host.RelayThreads
import EvertyDesk.Host.SendChain
import EvertyDesk.Host.SendLoop
import EvertyDesk.Host.SessionPermissions
import EvertyDesk.Host.SmartConnect
import EvertyDesk.Host.SoftwareProfile
import EvertyDesk.Host.StaticSkip
import EvertyDesk.Host.UdpPacer
import EvertyDesk.Host.VboxSession
import EvertyDesk.Host.VmBridge
import EvertyDesk.Host.VmInput
import EvertyDesk.Host.VmKeyboard
import EvertyDesk.Host.VmPointer
import EvertyDesk.Hotfix.Consent
import EvertyDesk.Hotfix.HotfixState
import EvertyDesk.Hotfix.Rollback
import EvertyDesk.Hotfix.SignedPlans
import EvertyDesk.HyperV.InputThread
import EvertyDesk.HyperV.RelativeMouse
import EvertyDesk.HyperV.ThumbnailSize
import EvertyDesk.Launcher.BookInvariants
import EvertyDesk.Launcher.CloudMerge
import EvertyDesk.Launcher.ContactBook
import EvertyDesk.Launcher.ContactTags
import EvertyDesk.Launcher.CredentialStore
import EvertyDesk.Launcher.LauncherStore
import EvertyDesk.Launcher.MergeTwice
import EvertyDesk.Launcher.MojibakeRepair
import EvertyDesk.Launcher.StoreFiles
import EvertyDesk.Launcher.UpdateDownload
import EvertyDesk.Launcher.UpdateVersions
import EvertyDesk.Lib.Binary32
import EvertyDesk.Lib.Bitmap
import EvertyDesk.Lib.Bytes
import EvertyDesk.Lib.Cells
import EvertyDesk.Lib.Chain
import EvertyDesk.Lib.Checked
import EvertyDesk.Lib.ChunkQueue
import EvertyDesk.Lib.Chunks
import EvertyDesk.Lib.Collect
import EvertyDesk.Lib.Digests
import EvertyDesk.Lib.FileProgram
import EvertyDesk.Lib.FusedScan
import EvertyDesk.Lib.Hex
import EvertyDesk.Lib.Interleavings
import EvertyDesk.Lib.KeyedBooks
import EvertyDesk.Lib.KeyedLists
import EvertyDesk.Lib.Machine
import EvertyDesk.Lib.Maps
import EvertyDesk.Lib.Masks
import EvertyDesk.Lib.Observations
import EvertyDesk.Lib.PaddedOrder
import EvertyDesk.Lib.Parity
import EvertyDesk.Lib.QuotedText
import EvertyDesk.Lib.Raster
import EvertyDesk.Lib.Recount
import EvertyDesk.Lib.Rounding
import EvertyDesk.Lib.Secretbox
import EvertyDesk.Lib.Signals
import EvertyDesk.Lib.Splitting
import EvertyDesk.Lib.StartCodes
import EvertyDesk.Lib.Streaks
import EvertyDesk.Lib.Strips
import EvertyDesk.Lib.Switches
import EvertyDesk.Lib.TextSlices
import EvertyDesk.Lib.Throttle
import EvertyDesk.Lib.Trimming
import EvertyDesk.Lib.TruncatedSteps
import EvertyDesk.Lib.Utf8
import EvertyDesk.Lib.Walks
import EvertyDesk.Lib.Whitespace
import EvertyDesk.Lib.Writes
import EvertyDesk.Transport.AdaptiveStream
import EvertyDesk.Transport.BatchDecoding
import EvertyDesk.Transport.CodecSniffing
import EvertyDesk.Transport.CommandDrain
import EvertyDesk.Transport.Framing
import EvertyDesk.Transport.MixedBacklog
import EvertyDesk.Transport.RateRecovery
import EvertyDesk.Transport.SessionLoop
import EvertyDesk.Transport.SessionSettings
import EvertyDesk.Transport.StreamCipher
import EvertyDesk.Transport.StreamQuality
import EvertyDesk.Transport.StunResponse
import EvertyDesk.Ui.AddressBook
import EvertyDesk.Ui.PeerPages
