import AiMeshChat.Mailbox.Delivery
import AiMeshChat.Mailbox.Lease
import AiMeshChat.Mailbox.Replay
import AiMeshChat.Stream.Resume
import AiMeshChat.Gateway.FailedSafe
import AiMeshChat.Gateway.Truthful
import AiMeshChat.Ledger.Crash
import AiMeshChat.Wire.Reply
import AiMeshChat.Session.Resumed
import AiMeshChat.Transport.Resend
import AiMeshChat.Stream.Cursor
import AiMeshChat.Mailbox.Recovery
import AiMeshChat.Helper.Answers
import AiMeshChat.Helper.Command
import AiMeshChat.Helper.RoundTrip
import AiMeshChat.Transport.Relay
import AiMeshChat.Swarm.Manager
import AiMeshChat.Swarm.Target
import AiMeshChat.Swarm.Budget
import AiMeshChat.Swarm.Stuck
import AiMeshChat.Kernel.Roster
import AiMeshChat.Kernel.SharedRoot
import AiMeshChat.Kernel.Restart
import AiMeshChat.Gateway.Hub
import AiMeshChat.Kernel.Poll
import AiMeshChat.Swarm.Argv
import AiMeshChat.Swarm.Sinks
import AiMeshChat.Swarm.Independent
import AiMeshChat.Stream.Transfer
import AiMeshChat.JsonIndent
import AiMeshChat.Park.Eviction
import AiMeshChat.Park.Resurrect
import AiMeshChat.Park.Limits
import AiMeshChat.Gateway.EventIdentity
import AiMeshChat.Gateway.Presence
import AiMeshChat.Gateway.Generations
import AiMeshChat.Gateway.Channels
import AiMeshChat.Gateway.Claims
import AiMeshChat.Gateway.MergeRestart
import AiMeshChat.Gateway.EventPages
import AiMeshChat.Transport.Readline
import AiMeshChat.Jobs.Finished
import AiMeshChat.Runtime.Restarts
import AiMeshChat.Swarm.Committed
import AiMeshChat.Mailbox.Merging
import AiMeshChat.Mailbox.Interrupted
import AiMeshChat.Lib.Base64
import AiMeshChat.Stream.FeedResume
import AiMeshChat.Mailbox.ReadBack
import AiMeshChat.Oracle.Meta
import AiMeshChat.Oracle.Gc
import AiMeshChat.Mailbox.OtherClaims
import AiMeshChat.Mailbox.ReadLoop
import AiMeshChat.Oracle.Attribution
import AiMeshChat.Oracle.Freshness
import AiMeshChat.Mailbox.Rejected
import AiMeshChat.Mailbox.OnePlace
import AiMeshChat.Gateway.Artifacts
import AiMeshChat.Gateway.Server
import AiMeshChat.Helper.Framing
import AiMeshChat.Kernel.BatchRemote
import AiMeshChat.Kernel.Ingest
import AiMeshChat.Kernel.Notices
import AiMeshChat.Lib.Joined
import AiMeshChat.Mailbox.ClockSkew
import AiMeshChat.Session.Keys
import AiMeshChat.Oracle.Truncate
import AiMeshChat.Oracle.RunningStrip
import AiMeshChat.Oracle.ReviewDirs
import AiMeshChat.Oracle.MergeYaml
import AiMeshChat.Oracle.ModelChain
import AiMeshChat.Oracle.StripDryRun
import AiMeshChat.Oracle.StripAgain
import AiMeshChat.Transport.Pull
import AiMeshChat.Gateway.Confined
import AiMeshChat.Runner.Streamed
import AiMeshChat.Transport.SshConfig
import AiMeshChat.Identifiers
import AiMeshChat.Mailbox.Attachments
import AiMeshChat.Mailbox.Stats
import AiMeshChat.Gateway.Recorded
import AiMeshChat.Mailbox.Handover
