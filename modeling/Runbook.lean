import Runbook.Action.Samples
import Runbook.Engine.Report
import Runbook.Failure.Parts
import Runbook.Main
import Runbook.Retry.Trial
import Runbook.Text.Lines
import Runbook.Proofs.Course.Closure
import Runbook.Proofs.Course.Termination
import Runbook.Proofs.Outcome
import Runbook.Proofs.Course.Restart
import Runbook.Proofs.Course.Sequel
import Runbook.Proofs.Course.Lifecycle
import Runbook.Proofs.Course.Once
import Runbook.Proofs.Course.Blame
import Runbook.Proofs.Course.Routing
import Runbook.Proofs.Course.Beginning
import Runbook.Proofs.Course.Queue
import Runbook.Proofs.Course.Intact
import Runbook.Proofs.Course.Tenancy
import Runbook.Proofs.Service.Rejection
import Runbook.Proofs.Course.Accord
import Runbook.Proofs.Course.Arrival
import Runbook.Proofs.Course.Isolation
import Runbook.Proofs.Endpoints
import Runbook.Proofs.Variables
import Runbook.Proofs.Course.Delay
import Runbook.Proofs.Course.Context
import Runbook.Proofs.Course.Transparency
import Runbook.Proofs.Reload
import Runbook.Proofs.Substitution
import Runbook.Proofs.Comparison
import Runbook.Proofs.Retry
import Runbook.Proofs.Registry
import Runbook.Proofs.Reference
import Runbook.Proofs.Backoff
import Runbook.Proofs.Course.Progress
import Runbook.Proofs.Course.Rounds
import Runbook.Proofs.Course.Adversity
import Runbook.Proofs.Course.Passage
import Runbook.Proofs.Course.Footing
import Runbook.Proofs.Command.Delays
