import YulongHids.Golang.Strings
import YulongHids.Golang.Net
import YulongHids.Golang.Proofs.StringsProofs
import YulongHids.Golang.Proofs.NetProofs
import YulongHids.Mongo.Collection
import YulongHids.Agent.ProcessMonitor
import YulongHids.Agent.Proofs.ProcessMonitorProofs
import YulongHids.Server.Models
import YulongHids.Server.Statistics
import YulongHids.Server.Check
import YulongHids.Server.FirstSeen
import YulongHids.Server.Proofs.CheckProofs
import YulongHids.Server.Proofs.StatisticsProofs
import YulongHids.Server.Proofs.FirstSeenProofs
import YulongHids.Server.Task
import YulongHids.Server.Proofs.TaskProofs
import YulongHids.Web.Net
import YulongHids.Web.Task
import YulongHids.Web.Proofs.NetProofs
import YulongHids.Web.Proofs.TaskProofs
import YulongHids.Golang.Md5
import YulongHids.Web.Download
import YulongHids.Daemon.Install
import YulongHids.Daemon.Update
import YulongHids.Daemon.Proofs.InstallProofs
import YulongHids.Daemon.Proofs.UpdateProofs
import YulongHids.Golang.BigInt
import YulongHids.Server.Rsa
import YulongHids.Daemon.Rsa
import YulongHids.Golang.Proofs.BigIntProofs
import YulongHids.Rsa.Exponent
import YulongHids.Rsa.Garner
import YulongHids.Rsa.Padding
import YulongHids.Server.Proofs.RsaProofs
import YulongHids.Server.Proofs.DecryptProofs
import YulongHids.Daemon.Proofs.RsaProofs
import YulongHids.Transition.Run
import YulongHids.Server.StatisticsRun
import YulongHids.Server.Proofs.StatisticsRunProofs
import YulongHids.SyscallHook.Execve
import YulongHids.Agent.ExecEvents
import YulongHids.Agent.Proofs.ExecEventsProofs
import YulongHids.Server.Save
import YulongHids.Agent.GetInfo
import YulongHids.Agent.Proofs.GetInfoProofs
import YulongHids.Agent.LoginLogLinux
import YulongHids.Agent.Proofs.LoginLogLinuxProofs
import YulongHids.Agent.LoginLogWindows
import YulongHids.Agent.Proofs.LoginLogWindowsProofs
import YulongHids.Web.TwoFactor
import YulongHids.Web.Proofs.TwoFactorProofs
import YulongHids.Mongo.UniqueIndex
import YulongHids.Server.Notice
import YulongHids.Web.Notice
import YulongHids.Web.Proofs.NoticeProofs
import YulongHids.Server.Warning
import YulongHids.Server.Proofs.WarningProofs
import YulongHids.Server.SharedRecords
import YulongHids.Server.Proofs.SharedRecordsProofs
import YulongHids.Mongo.ObjectId
import YulongHids.Mongo.Fields
import YulongHids.Web.Config
import YulongHids.Web.Install
import YulongHids.Web.WatchMode
import YulongHids.Web.Proofs.InstallProofs
import YulongHids.Web.Proofs.WatchModeProofs
import YulongHids.Server.Intelligence
import YulongHids.Server.Proofs.IntelligenceProofs
import YulongHids.Golang.Regexp
import YulongHids.Web.AddToConfig
import YulongHids.Server.Whitelisting
import YulongHids.Server.Proofs.WhitelistingProofs
import YulongHids.Agent.Filters
import YulongHids.Server.ListMeaning
import YulongHids.Server.Proofs.ListMeaningProofs
import YulongHids.Mongo.IterAll
import YulongHids.Server.Reload
import YulongHids.Server.Proofs.ReloadProofs
import YulongHids.Transition.Mailbox
import YulongHids.Driver.Pro
import YulongHids.Driver.Proofs.ProProofs
import YulongHids.Agent.ServerList
import YulongHids.Agent.Proofs.ServerListProofs
import YulongHids.Daemon.Supervision
import YulongHids.Daemon.Proofs.SupervisionProofs
import YulongHids.Daemon.Task
import YulongHids.Daemon.Proofs.TaskProofs
import YulongHids.Daemon.Proofs.KillProofs
import YulongHids.Golang.ParseInt
import YulongHids.Golang.Proofs.ParseIntProofs
import YulongHids.Web.Analyze
import YulongHids.Web.Proofs.AnalyzeProofs
import YulongHids.Text.Trim
import YulongHids.Web.QueryString
import YulongHids.Web.Proofs.QueryStringProofs
import YulongHids.Mongo.Aggregate
import YulongHids.Web.Search
import YulongHids.Web.Proofs.SearchProofs
import YulongHids.Web.Ignore
import YulongHids.Web.Proofs.IgnoreProofs
import YulongHids.Web.Publish
import YulongHids.Web.Proofs.PublishProofs
import YulongHids.Web.Archive
import YulongHids.Web.Proofs.ArchiveProofs
import YulongHids.Server.Batching
import YulongHids.Server.Proofs.BatchingProofs
import YulongHids.Server.ScanSafety
import YulongHids.Server.Proofs.ScanSafetyProofs
import YulongHids.Golang.Channel
import YulongHids.Server.Dispatch
import YulongHids.Server.Proofs.DispatchProofs
import YulongHids.Server.Health
import YulongHids.Server.Proofs.HealthProofs
import YulongHids.Web.Proofs.RangeProofs
import YulongHids.Agent.Lan
import YulongHids.Agent.Proofs.LanProofs
import YulongHids.Agent.Proofs.MapComparisonProofs
import YulongHids.Text.Words
import YulongHids.Text.Shell
import YulongHids.Agent.Crontab
import YulongHids.Agent.Proofs.CrontabProofs
import YulongHids.Agent.Users
import YulongHids.Agent.Proofs.UsersProofs
import YulongHids.Agent.Listening
import YulongHids.Agent.Proofs.ListeningProofs
import YulongHids.Agent.ProcessMonitorWindows
import YulongHids.Agent.Proofs.ProcessMonitorWindowsProofs
import YulongHids.Gopcap.Decode
import YulongHids.Gopcap.Proofs.DecodeProofs
import YulongHids.Agent.NetSniff
import YulongHids.Agent.Proofs.NetSniffProofs
import YulongHids.Agent.FileMonitor
import YulongHids.Agent.Proofs.FileMonitorProofs
import YulongHids.Golang.Filepath
import YulongHids.Golang.Proofs.FilepathProofs
import YulongHids.Agent.Watches
import YulongHids.Agent.Proofs.WatchesProofs
import YulongHids.Golang.Date
import YulongHids.Golang.Proofs.DateProofs
import YulongHids.Server.EsIndex
import YulongHids.Server.Proofs.EsIndexProofs
import YulongHids.Transition.Blocks
import YulongHids.SyscallHook.UserArrays
import YulongHids.SyscallHook.Hook
import YulongHids.SyscallHook.CopySafety
import YulongHids.SyscallHook.Proofs.HookProofs
import YulongHids.SyscallHook.Proofs.CopySafetyProofs
import YulongHids.SyscallHook.Proofs.TerminatorProofs
import YulongHids.Agent.ListeningWindows
import YulongHids.Agent.Proofs.ListeningWindowsProofs
import YulongHids.Golang.Sha1
import YulongHids.Web.OneTimePassword
import YulongHids.Web.Proofs.OneTimePasswordProofs
import YulongHids.Agent.EventLog
import YulongHids.Agent.Proofs.EventLogProofs
import YulongHids.Golang.Utf8
import YulongHids.Golang.Proofs.Utf8Proofs
import YulongHids.Golang.Base64
import YulongHids.Golang.Proofs.Base64Proofs
import YulongHids.Golang.Json
import YulongHids.Golang.Proofs.JsonProofs
import YulongHids.Daemon.TaskPipe
import YulongHids.Server.TaskPipe
import YulongHids.Server.Proofs.TaskPipeProofs
import YulongHids.Transition.History
import YulongHids.Transition.Since
import YulongHids.Server.Registry
import YulongHids.Server.Proofs.RegistryProofs
import YulongHids.Web.Session
import YulongHids.Web.Proofs.SessionProofs
import YulongHids.SyscallHook.Loading
import YulongHids.SyscallHook.Proofs.LoadingProofs
import YulongHids.SyscallHook.Stub
import YulongHids.SyscallHook.Proofs.StubProofs
import YulongHids.Agent.Pipeline
import YulongHids.Agent.Proofs.PipelineProofs
import YulongHids.Agent.Refresh
import YulongHids.Agent.Proofs.RefreshProofs
import YulongHids.Sampling.Rejection
import YulongHids.Web.Token
import YulongHids.Web.Proofs.TokenProofs
import YulongHids.Web.Wizard
import YulongHids.Web.Proofs.WizardProofs
import YulongHids.Golang.Calendar
import YulongHids.Golang.Proofs.CalendarProofs
import YulongHids.Mongo.Group
import YulongHids.Web.Charts
import YulongHids.Web.Proofs.ChartsProofs
