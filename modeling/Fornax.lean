import Fornax.Audit.Checkpoint
import Fornax.Cli.ClaudeHooks
import Fornax.Cli.GuardedWrite
import Fornax.Cli.HostTrust
import Fornax.Codex.RolloutTail
import Fornax.Codex.ToolOutput
import Fornax.Contract.Assessment
import Fornax.Contract.Resolution
import Fornax.Corpus.GoldLabel
import Fornax.Daemon.Transit
import Fornax.Egress.Instants
import Fornax.Evidence.Gaps
import Fornax.Evidence.Replay
import Fornax.Manifest.Interval
import Fornax.Policy.Publish
import Fornax.Receipt.MultiAgent
import Fornax.Registry.Lifecycle
import Fornax.Store.Erasure
import Fornax.Store.PolicyConfirm
import Fornax.Store.PolicyReload
import Fornax.Store.PolicyServing
import Fornax.Upload.Lifecycle
import Fornax.Upload.Lock
import Fornax.Verify.Attestation
import Fornax.Contract.Satisfaction
import Fornax.Verify.Assignments
import Fornax.Verify.NewestRow
import Fornax.Verify.Wrapping
import Fornax.Verify.Commits
import Fornax.Policy.Meet
import Fornax.Verify.ExactBinding
import Fornax.Receipt.Groups
import Fornax.Policy.Accumulate
import Fornax.Policy.Envelope
import Fornax.Policy.Freshness
import Fornax.Codex.Identity
import Fornax.Claude.GitOutcome
import Fornax.Verify.Mentions
