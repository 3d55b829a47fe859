import CodexInfo.Proofs.Contract.PrefixRanges
import CodexInfo.Proofs.Display.ResetGroups
import CodexInfo.Proofs.Locator.Restart
import CodexInfo.Proofs.Reader.ActiveThreads
import CodexInfo.Proofs.Reader.HistoryWatermark
import CodexInfo.Proofs.Reader.LocalUsage
import CodexInfo.Proofs.Reader.PeriodLabels
import CodexInfo.Proofs.Reader.StoredObservation
import CodexInfo.Proofs.Reader.TaskActivity
import CodexInfo.Proofs.Reader.TaskCoverage
import CodexInfo.Proofs.Recorder.CurrentHistory
import CodexInfo.Proofs.Recorder.FixedRateSchedule
import CodexInfo.Proofs.Recorder.MinuteHistory
import CodexInfo.Proofs.Recorder.QuotaJournal
import CodexInfo.Proofs.Recorder.ReplayRemoval
import CodexInfo.Proofs.Rest.CursorStability
import CodexInfo.Proofs.Rest.DirectoryPages
import CodexInfo.Proofs.Rest.VerifiedHistory
import CodexInfo.Proofs.SessionInput.Cuts
import CodexInfo.Proofs.SessionInput.Duplicates
import CodexInfo.Proofs.Threads.NativeThreads
import CodexInfo.Proofs.Threads.PageCycle
import CodexInfo.Proofs.Threads.Rollout
import CodexInfo.Proofs.Threads.SchemaValidation
import CodexInfo.Proofs.Threads.Selection
import CodexInfo.Proofs.Writer.BackupRotation
import CodexInfo.Proofs.Writer.CumulativeRecovery
import CodexInfo.Proofs.Writer.ObservationOrder
import CodexInfo.Proofs.Writer.QuotaReceipts
import CodexInfo.Proofs.Writer.Reassignment
import CodexInfo.Proofs.Writer.RecordedUsage
import CodexInfo.Proofs.Writer.RecorderGaps
import CodexInfo.Proofs.Writer.SourceRetirement
import CodexInfo.Proofs.Writer.TokenAnchors
