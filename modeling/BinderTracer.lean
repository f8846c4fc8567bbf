import BinderTracer.Lib.Runs
import BinderTracer.Lib.Table
import BinderTracer.Lib.LinkedList
import BinderTracer.Lib.LruMap
import BinderTracer.Lib.ByteOrder
import BinderTracer.Lib.ByteStream
import BinderTracer.Lib.SignedWords
import BinderTracer.Lib.Like
import BinderTracer.Lib.Paging
import BinderTracer.Lib.Coroutine
import BinderTracer.Lib.RelyGuarantee
import BinderTracer.Lib.Decimal
import BinderTracer.Lib.TextFields
import BinderTracer.Lib.SortedLookup
import BinderTracer.Lib.Ring
import BinderTracer.Kernel.Records
import BinderTracer.Kernel.MainProbe
import BinderTracer.Kernel.Parcel
import BinderTracer.Kernel.SidebandProbes
import BinderTracer.Kernel.Correlation
import BinderTracer.Daemon.Payload
import BinderTracer.Daemon.Collector
import BinderTracer.Daemon.StateMachine
import BinderTracer.Daemon.HandleEvent
import BinderTracer.Daemon.Conservation
import BinderTracer.Daemon.Accounting
import BinderTracer.Daemon.ChunkAgreement
import BinderTracer.Daemon.Shipment
import BinderTracer.Daemon.Buffers
import BinderTracer.Daemon.Reassembly
import BinderTracer.Daemon.TransactionIdentity
import BinderTracer.Daemon.Pairing
import BinderTracer.Daemon.Schedule
import BinderTracer.Daemon.SyncPairing
import BinderTracer.Daemon.OnewaySidebands
import BinderTracer.Daemon.Protocol
import BinderTracer.Daemon.EventEncoding
import BinderTracer.Daemon.Frames
import BinderTracer.Daemon.Commands
import BinderTracer.Daemon.Reconnect
import BinderTracer.Daemon.Singleton
import BinderTracer.Daemon.ElfSymbols
import BinderTracer.Daemon.Symbolizer
import BinderTracer.Daemon.StackQuality
import BinderTracer.Daemon.AddressSearch
import BinderTracer.Daemon.UserFrames
import BinderTracer.App.ByteBuffer
import BinderTracer.App.BinderEvent
import BinderTracer.App.CodecAgreement
import BinderTracer.App.FrameAgreement
import BinderTracer.App.TransactionPairer
import BinderTracer.App.ReplyPairing
import BinderTracer.App.PersistentSignatureCache
import BinderTracer.App.VersionCoherence
import BinderTracer.App.MethodResolver
import BinderTracer.App.ResolutionHistory
import BinderTracer.App.AppClassLoaderRegistry
import BinderTracer.App.LoaderVersions
import BinderTracer.App.Decoders
import BinderTracer.App.ParcelString
import BinderTracer.App.TokenFormats
import BinderTracer.App.ParcelArguments
import BinderTracer.App.ArgumentStart
import BinderTracer.App.ReplyParser
import BinderTracer.App.ReplyDecoding
import BinderTracer.App.EventFilter
import BinderTracer.App.ColdEventStore
import BinderTracer.App.SearchAgreement
import BinderTracer.App.EventWriter
import BinderTracer.App.Export
import BinderTracer.App.MonitoringSession
import BinderTracer.App.PauseAgreement
import BinderTracer.App.SocketServer
import BinderTracer.App.AuthenticatedEvents
import BinderTracer.App.AckAgreement
import BinderTracer.Daemon.PayloadSize
import BinderTracer.Daemon.CompanionLists
import BinderTracer.Daemon.DuplicateCookies
import BinderTracer.App.LoaderBackoff
import BinderTracer.App.SignatureCache
import BinderTracer.App.EventRepository
import BinderTracer.App.WindowLookups
import BinderTracer.App.LiveList
import BinderTracer.App.ConnectionReaders
import BinderTracer.App.SearchPages
import BinderTracer.App.EventArchive
import BinderTracer.App.SignatureFile
import BinderTracer.App.SignatureFlush
import BinderTracer.App.EventBuffer
import BinderTracer.App.InterfaceIndex
import BinderTracer.App.IndexScans
import BinderTracer.Lib.Layout
import BinderTracer.Kernel.RingLayout
import BinderTracer.Daemon.RingReader
import BinderTracer.Daemon.Provenance
import BinderTracer.Daemon.LossyRing
import BinderTracer.Daemon.ProcFiles
import BinderTracer.Daemon.FrameReadings
import BinderTracer.Lib.SplitCounter
import BinderTracer.Daemon.OverflowReport
import BinderTracer.App.EventFlow
import BinderTracer.App.EventIntake
import BinderTracer.App.BinderLogs
import BinderTracer.App.HandleResolver
import BinderTracer.System.EventDelivery
import BinderTracer.System.EndToEnd
import BinderTracer.System.TargetFilter
