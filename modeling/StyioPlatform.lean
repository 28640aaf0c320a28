import StyioPlatform.Lib.FileTree
import StyioPlatform.Lib.KeyedList
import StyioPlatform.Lib.Numeral
import StyioPlatform.Lib.Prog
import StyioPlatform.Lib.SnapshotStore
import StyioPlatform.Registry.Commit
import StyioPlatform.Registry.ControlPlane
import StyioPlatform.Registry.Documents
import StyioPlatform.Registry.Effects
import StyioPlatform.Registry.Identifiers
import StyioPlatform.Registry.Index
import StyioPlatform.Registry.Immutability
import StyioPlatform.Registry.IndexStore
import StyioPlatform.Registry.Install
import StyioPlatform.Registry.InstallFailures
import StyioPlatform.Registry.Log
import StyioPlatform.Registry.Publication
import StyioPlatform.Registry.Publications
import StyioPlatform.Registry.PublishFailures
import StyioPlatform.Registry.PublishWorkflow
import StyioPlatform.Registry.Requests
import StyioPlatform.Registry.Resolution
import StyioPlatform.Registry.Retry
import StyioPlatform.Registry.Snapshots
import StyioPlatform.Registry.Stages
import StyioPlatform.Registry.State
import StyioPlatform.Registry.System
import StyioPlatform.Registry.TrustMetadata
import StyioPlatform.Registry.Versions
import StyioPlatform.Lib.OrderedMap
import StyioPlatform.Workspace.Records
import StyioPlatform.Workspace.MemoryStore
import StyioPlatform.Workspace.ControlPlane
import StyioPlatform.Workspace.MemorySteps
import StyioPlatform.Workspace.JobLifecycle
import StyioPlatform.Lib.Transactions
import StyioPlatform.Workspace.PostgresTables
import StyioPlatform.Workspace.PostgresStore
import StyioPlatform.Workspace.Calls
import StyioPlatform.Workspace.JobRows
import StyioPlatform.Workspace.Concurrency
import StyioPlatform.Workspace.ConcurrentJobs
import StyioPlatform.Workspace.EventHistory
import StyioPlatform.Workspace.PostgresControlPlane
import StyioPlatform.Workspace.SequentialCalls
import StyioPlatform.Workspace.Artifacts
import StyioPlatform.Workspace.PostgresSteps
import StyioPlatform.Workspace.Containers
import StyioPlatform.Workspace.Worker
import StyioPlatform.Workspace.WorkerReports
import StyioPlatform.Lib.Runs
import StyioPlatform.Registry.Authority
import StyioPlatform.Registry.Grants
import StyioPlatform.Registry.Owners
import StyioPlatform.Registry.Tokens
import StyioPlatform.Lib.Paths
import StyioPlatform.Security.Identity
import StyioPlatform.Security.CertificateAuthority
import StyioPlatform.Protocols.Execution
import StyioPlatform.Protocols.JobRequest
import StyioPlatform.Registry.Denials
import StyioPlatform.Registry.Revocation
import StyioPlatform.Registry.PackageReads
import StyioPlatform.Registry.ReadAgreement
import StyioPlatform.Lib.TextSearch
import StyioPlatform.Storage.ObjectStore
import StyioPlatform.Registry.ObjectStoreSync
import StyioPlatform.Lib.Fallible
import StyioPlatform.Manifest.Document
import StyioPlatform.Resolve.Resolver
import StyioPlatform.Resolve.Search
import StyioPlatform.Resolve.Correctness
import StyioPlatform.Resolve.Closure
import StyioPlatform.Resolve.Containment
import StyioPlatform.Manifest.LockfileRoundTrip
import StyioPlatform.Manifest.ManifestRoundTrip
import StyioPlatform.Registry.Verification
import StyioPlatform.Registry.MirrorCopies
import StyioPlatform.Protocols.PackageOrder
import StyioPlatform.Protocols.SourceDigest
import StyioPlatform.Protocols.PlanAliases
import StyioPlatform.Resolve.Expansions
import StyioPlatform.Resolve.SpellingInvariance
import StyioPlatform.Registry.Confinement
import StyioPlatform.Service.RequestReading
import StyioPlatform.Service.RateLimiter
import StyioPlatform.Storage.RecoveryRoundTrip
import StyioPlatform.Storage.ArtifactKeys
import StyioPlatform.Core.Sha256
import StyioPlatform.Core.DigestAgreement
import StyioPlatform.Toolchain.StateRoundTrip
import StyioPlatform.Registry.VersionOrder
import StyioPlatform.Registry.FurtherPublish
import StyioPlatform.Registry.TokenExpiry
import StyioPlatform.Registry.IndexLines
import StyioPlatform.Workspace.ClaimOrder
import StyioPlatform.Registry.LogRoot
import StyioPlatform.Storage.ObjectKeys
import StyioPlatform.RegistryClient.Checkouts
import StyioPlatform.Registry.SharedBucket
import StyioPlatform.Service.RouterRuns
