import FloatCtf.Awd.AttackLedger
import FloatCtf.Awd.BanEnforcement
import FloatCtf.Awd.BatchDeadlines
import FloatCtf.Awd.BatchTable
import FloatCtf.Awd.ConfigService
import FloatCtf.Awd.EventNetworkService
import FloatCtf.Awd.Firewall
import FloatCtf.Awd.FirewallIsolation
import FloatCtf.Awd.FirewallReconcile
import FloatCtf.Awd.FlagBinding
import FloatCtf.Awd.HardeningClock
import FloatCtf.Awd.JudgeCoverage
import FloatCtf.Awd.JudgeLease
import FloatCtf.Awd.JudgeLedger
import FloatCtf.Awd.JudgeRecord
import FloatCtf.Awd.JudgeWorker
import FloatCtf.Awd.LockedAddressing
import FloatCtf.Awd.NetworkLedger
import FloatCtf.Awd.NoStall
import FloatCtf.Awd.PhaseMemory
import FloatCtf.Awd.PrecheckService
import FloatCtf.Awd.ResetAccounting
import FloatCtf.Awd.ResetTermination
import FloatCtf.Awd.RoundClock
import FloatCtf.Awd.RoundSequence
import FloatCtf.Awd.ScoreService
import FloatCtf.Awd.StartGate
import FloatCtf.Awd.TaskCompletion
import FloatCtf.Awd.TeamAddressing
import FloatCtf.Awdp.BreakLedger
import FloatCtf.Awdp.ConfigFreeze
import FloatCtf.Awdp.Evaluation
import FloatCtf.Awdp.EvaluationLease
import FloatCtf.Awdp.EventNetworkRepo
import FloatCtf.Awdp.EventRuntime
import FloatCtf.Awdp.FixLedger
import FloatCtf.Awdp.JobAccounting
import FloatCtf.Awdp.JudgeAgreement
import FloatCtf.Awdp.PatchArchive
import FloatCtf.Awdp.PullLoop
import FloatCtf.Awdp.RoundCompletion
import FloatCtf.Awdp.RunRepo
import FloatCtf.Awdp.RunSteps
import FloatCtf.Awdp.ScriptRunner
import FloatCtf.Awdp.SingleRun
import FloatCtf.Awdp.SourceArtifact
import FloatCtf.Awdp.SourceRoundTrip
import FloatCtf.Awdp.VerdictSoundness
import FloatCtf.Content.BuildError
import FloatCtf.Content.CanonicalSpec
import FloatCtf.Content.Gamebox
import FloatCtf.Content.Identity
import FloatCtf.Content.PackageDigest
import FloatCtf.Content.PackageZip
import FloatCtf.Events.RosterInvariant
import FloatCtf.Infrastructure.RateLimit
import FloatCtf.Infrastructure.Settings
import FloatCtf.Jeopardy.BoardAgreement
import FloatCtf.Jeopardy.FlagSecrecy
import FloatCtf.Jeopardy.InstanceLifecycle
import FloatCtf.Jeopardy.InstanceQuota
import FloatCtf.Jeopardy.ScoreLedger
import FloatCtf.Jeopardy.Scoreboard
import FloatCtf.Jeopardy.SolveAttribution
import FloatCtf.Net.Form
import FloatCtf.Net.Record
import FloatCtf.Oidc.AccountChoice
import FloatCtf.Oidc.AccountSteps
import FloatCtf.Oidc.AuthorizeEndpoint
import FloatCtf.Oidc.BackchannelSender
import FloatCtf.Oidc.BrowserContainer
import FloatCtf.Oidc.ClientAuth
import FloatCtf.Oidc.ClientStatus
import FloatCtf.Oidc.CodeExchange
import FloatCtf.Oidc.ConsentGrants
import FloatCtf.Oidc.ConsentRevocation
import FloatCtf.Oidc.LogoutOutbox
import FloatCtf.Process.FileTree
import FloatCtf.Process.Locked
import FloatCtf.Process.Pipes
import FloatCtf.Process.SlidingWindow
import FloatCtf.Process.SortedSets
import FloatCtf.Rbac.Escalation
import FloatCtf.Rbac.LastAdmin
import FloatCtf.Rbac.SelfLockout
import FloatCtf.Realtime.Publisher
import FloatCtf.Realtime.Sequences
