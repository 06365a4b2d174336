import GridFlux.FileTree
import GridFlux.Filesystem
import GridFlux.Intervals
import GridFlux.Common
import GridFlux.ControlPaths
import GridFlux.RangeList
import GridFlux.Checksum
import GridFlux.ManifestText
import GridFlux.Manifest
import GridFlux.TransferManifest
import GridFlux.DownloadManifest
import GridFlux.World
import GridFlux.ManifestStore
import GridFlux.Session
import GridFlux.SessionInvariant
import GridFlux.DownloadSession
import GridFlux.TransferSession
import GridFlux.SessionRuns
import GridFlux.TreeManifest
import GridFlux.ManifestCorruption
import GridFlux.BigEndian
import GridFlux.Frame
import GridFlux.BufferedFileWriter
import GridFlux.Planner
import GridFlux.SessionDisk
import GridFlux.Commit
import GridFlux.CommitCalls
import GridFlux.FileTransferServer
import GridFlux.FrameCodec
import GridFlux.ManifestLaws
import GridFlux.SendPlan
import GridFlux.FileDownloadClient
import GridFlux.DownloadRuns
import GridFlux.OutputKept
import GridFlux.CommitAtomicity
import GridFlux.ReceiverRuns
import GridFlux.TlsReceiver
import GridFlux.ResumeRuns
import GridFlux.RecordedChunks
import GridFlux.ManifestRecords
import GridFlux.DownloadIntegrity
import GridFlux.UploadRuns
import GridFlux.ControlCommand
import GridFlux.ControlSession
import GridFlux.ControlRuns
import GridFlux.ChunkPlan
import GridFlux.VerifiedChunks
import GridFlux.CrashLoss
import GridFlux.ControlLine
import GridFlux.TreeArtifacts
import GridFlux.PassiveAgreement
import GridFlux.TreeJobs
import GridFlux.TreeScheduler
import GridFlux.ControlClient
import GridFlux.RemoteTree
import GridFlux.TreeEnumeration
import GridFlux.RecordOutcome
import GridFlux.TreePaths
import GridFlux.ControlPipelining
import GridFlux.FileIo
import GridFlux.Pieces
import GridFlux.IoUring
import GridFlux.IoUringRuns
import GridFlux.FrameReading
import GridFlux.FrameSegmentation
import GridFlux.UploadRecords
import GridFlux.UploadIntegrity
import GridFlux.UploadClient
import GridFlux.UploadTempSize
import GridFlux.HonestUpload
import GridFlux.UploadAttempts
import GridFlux.RangeListRuns
import GridFlux.TransferProgress
import GridFlux.MdtmTime
import GridFlux.Redaction
import GridFlux.VirtualPaths
import GridFlux.EventLog
import GridFlux.ChangedError
import GridFlux.KeyedList
import GridFlux.UploadPreflight
import GridFlux.DownloadSender
import GridFlux.HonestDownload
import GridFlux.DownloadAttempts
import GridFlux.StorReceiver
import GridFlux.ConcurrentStor
import GridFlux.TreePhases
import GridFlux.TreeRuns
import GridFlux.DownloadPreflight
import GridFlux.TreeUploads
import GridFlux.TreeDownloads
import GridFlux.LocalEffects
import GridFlux.ReceiverLocality
import GridFlux.SharedStore
import GridFlux.IndependentUploads
import GridFlux.SelfDelimiting
import GridFlux.TreeHash
import GridFlux.Progress
import GridFlux.QuietWorld
import GridFlux.ChunksLeft
import GridFlux.StreamProgress
