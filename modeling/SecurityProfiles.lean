import SecurityProfiles.Writers.Foreign
import SecurityProfiles.Merging.MergeRuns
import SecurityProfiles.Merging.SeccompPermits
import SecurityProfiles.Finalizer.Runs
import SecurityProfiles.AppArmor.UnionText
import SecurityProfiles.Binding.Enforced
import SecurityProfiles.Tracking.Entitled
import SecurityProfiles.Locking.Locked
import SecurityProfiles.Writers.Containers
import SecurityProfiles.Bpf.ExitWaiters
import SecurityProfiles.Bpf.Counting
import SecurityProfiles.Handover.Collect
import SecurityProfiles.Handover.Policy
import SecurityProfiles.Bpf.Sessions
import SecurityProfiles.Bpf.Tables
import SecurityProfiles.NodeStatus.Installed
import SecurityProfiles.Tracking.Webhook
import SecurityProfiles.Files.Reconcile
import SecurityProfiles.Enricher.Emitted
import SecurityProfiles.Enricher.Backlog
import SecurityProfiles.AppArmor.Confined
import SecurityProfiles.Selinux.Installed
import SecurityProfiles.Host.Leftover
import SecurityProfiles.Bpf.Attributed
import SecurityProfiles.Artifact.Selected
import SecurityProfiles.Annotator.Events
import SecurityProfiles.Spod.Converged
import SecurityProfiles.Selinux.Canonical
import SecurityProfiles.AppArmor.Traversal
import SecurityProfiles.Profiles.Conversion
import SecurityProfiles.Recorder.Lists
import SecurityProfiles.Profiles.Path
import SecurityProfiles.Allowing.Derived
import SecurityProfiles.Allowing.Changed
import SecurityProfiles.Enricher.AuditFields
import SecurityProfiles.Enricher.Filters
