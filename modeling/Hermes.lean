import Hermes.Library.Process
import Hermes.Library.Completion
import Hermes.Library.History
import Hermes.Text
import Hermes.Common
import Hermes.Credentials
import Hermes.CredentialsLifecycle
import Hermes.Machine
import Hermes.Offline
import Hermes.Host
import Hermes.HostSteps
import Hermes.HostMoves
import Hermes.HostSafety
import Hermes.HostRollback
import Hermes.HostRecovery
import Hermes.HostRuntime
import Hermes.CredentialsRoles
import Hermes.CredentialsRevocation
import Hermes.OfflineReplay
import Hermes.SimpleHost
import Hermes.SimpleSteps
import Hermes.SimpleRecovery
import Hermes.SimpleGuard
import Hermes.SimpleAttempt
import Hermes.SimpleRetry
import Hermes.DataBackup
import Hermes.DataBackupAborts
import Hermes.Promotion
import Hermes.PromotionBinding
import Hermes.Lifecycle
import Hermes.LifecycleSafety
import Hermes.Certify
import Hermes.CredentialsAccounts
import Hermes.CertifyCleanup
import Hermes.Schedule
import Hermes.Fixture
import Hermes.FixtureSafety
import Hermes.FixtureRelease
import Hermes.ManifestRestore
import Hermes.ManifestPaths
import Hermes.ConsoleSubmissions
import Hermes.Injection
import Hermes.InjectionSafety
import Hermes.LabGuest
import Hermes.LabGuestRestore
import Hermes.SshSetup
import Hermes.SshRollback
import Hermes.LabInstance
import Hermes.LabInstanceSteps
import Hermes.LabInstanceCleaning
import Hermes.Library.Computation
import Hermes.ProfileDeploy
import Hermes.ProfileDeployRetry
import Hermes.PurePath
import Hermes.Transaction
import Hermes.Library.Outcome
import Hermes.Library.Decimal
import Hermes.TransactionInventory
import Hermes.TransactionCanonical
import Hermes.Retention
import Hermes.ManagementCidr
import Hermes.Library.Awk
import Hermes.Library.StableSort
import Hermes.DirtyInputs
import Hermes.AuthorizedKeys
import Hermes.UnlockEvidence
import Hermes.Library.Replacement
import Hermes.Redaction
import Hermes.TransactionErrors
import Hermes.ArchiveNames
import Hermes.ReleaseManifest
import Hermes.CandidateTransfer
import Hermes.CandidateReceived
import Hermes.CandidateSent
import Hermes.ReleaseUnpack
import Hermes.ReleaseUnpacked
import Hermes.Dispatcher
import Hermes.PromotionWindow
import Hermes.LabArchive
import Hermes.Maintenance
import Hermes.Library.Entries
import Hermes.Library.Documents
import Hermes.Yaml
import Hermes.HardenConfig
import Hermes.HardenConfigEnv
import Hermes.HardenConfigViews
import Hermes.HardenConfigClosure
import Hermes.SimpleData
import Hermes.SimpleDataSteps
import Hermes.SimpleDataRestore
import Hermes.SimpleDataBackup
import Hermes.SimpleDataReject
import Hermes.ReleaseUnpacked
import Hermes.DispatcherSafety
import Hermes.ReleaseBuild
import Hermes.ReleaseBuilt
import Hermes.Library.Script
import Hermes.Signer
import Hermes.SignerSafety
import Hermes.Provenance
import Hermes.JsonText
import Hermes.JsonScalars
import Hermes.JsonRoundTrip
import Hermes.JsonDecoded
import Hermes.JsonCanonical
