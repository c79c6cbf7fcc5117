import OciAcmePublisher.Effects.Program
import OciAcmePublisher.Effects.Triple
import OciAcmePublisher.Config
import OciAcmePublisher.Certificates
import OciAcmePublisher.CertificateValidator
import OciAcmePublisher.ChainBuilder
import OciAcmePublisher.Tables
import OciAcmePublisher.Database
import OciAcmePublisher.Ports
import OciAcmePublisher.StateStore
import OciAcmePublisher.OciRetry
import OciAcmePublisher.Reconciler
import OciAcmePublisher.OciService
import OciAcmePublisher.Lemmas.Reconciler
import OciAcmePublisher.Lemmas.StateStore
import OciAcmePublisher.Theorems.Reentry
import OciAcmePublisher.Simulation
import OciAcmePublisher.Theorems.Convergence
import OciAcmePublisher.AuditService
import OciAcmePublisher.Effects.Monitor
import OciAcmePublisher.RollbackService
import OciAcmePublisher.Theorems.Promotion
import OciAcmePublisher.NotificationService
import OciAcmePublisher.AcmeService
import OciAcmePublisher.Effects.Refinement
import OciAcmePublisher.PublicationService
import OciAcmePublisher.Theorems.Isolation
import OciAcmePublisher.Migrations
import OciAcmePublisher.Theorems.Migration
import OciAcmePublisher.CertificateStore
import OciAcmePublisher.Lemmas.CertificateStore
import OciAcmePublisher.Theorems.StoreCommit
import OciAcmePublisher.Effects.Guarantee
import OciAcmePublisher.Lemmas.Lifecycle
import OciAcmePublisher.Theorems.RowLifecycle
import OciAcmePublisher.Lemmas.OwnRow
import OciAcmePublisher.Theorems.StaleAudits
import OciAcmePublisher.Theorems.PendingPublication
import OciAcmePublisher.Lemmas.AuditService
import OciAcmePublisher.Theorems.AuditEvidence
import OciAcmePublisher.Theorems.Upload
import OciAcmePublisher.Theorems.RollbackRecord
import OciAcmePublisher.Theorems.Conclusion
import OciAcmePublisher.Contention
import OciAcmePublisher.Theorems.Contention
import OciAcmePublisher.Lemmas.Publication
import OciAcmePublisher.Theorems.Current
import OciAcmePublisher.Theorems.Converged
import OciAcmePublisher.Effects.Chronicle
import OciAcmePublisher.CompatibilityProbe
import OciAcmePublisher.Theorems.Probe
import OciAcmePublisher.Effects.Eval
import OciAcmePublisher.Effects.Ending
import OciAcmePublisher.Theorems.RenewalProgress
import OciAcmePublisher.Theorems.RecoveredOcid
import OciAcmePublisher.Theorems.ChainSelection
import OciAcmePublisher.Theorems.SubjectNames
import OciAcmePublisher.Orders.Outranked
import OciAcmePublisher.Theorems.RetentionPlan
import OciAcmePublisher.Theorems.RenewalRecord
import OciAcmePublisher.ConfigValidation
import OciAcmePublisher.Http01Paths
import OciAcmePublisher.Http01Responder
import OciAcmePublisher.Theorems.HostRouting
import OciAcmePublisher.ConfigLoader
import OciAcmePublisher.Operator
import OciAcmePublisher.Theorems.AddedCertificate
import OciAcmePublisher.Theorems.ServedChallenge
import OciAcmePublisher.Effects.Twins
import OciAcmePublisher.Theorems.KeyConfinement
import OciAcmePublisher.Theorems.OneGeneration
import OciAcmePublisher.Metrics
import OciAcmePublisher.Theorems.FailureMetrics
import OciAcmePublisher.Theorems.ChainPath
import OciAcmePublisher.Theorems.PromotionRetries
import OciAcmePublisher.Theorems.AuditRounds
import OciAcmePublisher.Theorems.NormalDomain
import OciAcmePublisher.Http01Descriptors
import OciAcmePublisher.Theorems.ChallengeDescriptors
import OciAcmePublisher.Theorems.FailClosed
import OciAcmePublisher.Http01Preflight
import OciAcmePublisher.OciCertificates
import OciAcmePublisher.Theorems.PreflightRoute
import OciAcmePublisher.Theorems.VersionListing
import OciAcmePublisher.Theorems.IssuedMaterial
import OciAcmePublisher.Theorems.LastWrites
import OciAcmePublisher.Cli
import OciAcmePublisher.ConfigDocument
import OciAcmePublisher.EvidenceFiles
import OciAcmePublisher.Paths.Lexical
import OciAcmePublisher.Theorems.AlertCooldown
import OciAcmePublisher.Theorems.EvidenceOrder
import OciAcmePublisher.Theorems.ExitCodes
import OciAcmePublisher.Theorems.LoaderErrors
import OciAcmePublisher.Theorems.Partition
import OciAcmePublisher.Theorems.WebrootPlacement
import OciAcmePublisher.ChallengeFiles
import OciAcmePublisher.Theorems.BackToBack
import OciAcmePublisher.Theorems.ChallengeCleanup
import OciAcmePublisher.Scanning.Matchers
import OciAcmePublisher.Redaction
import OciAcmePublisher.Theorems.RedactedSecrets
import OciAcmePublisher.RetryLoops
import OciAcmePublisher.Theorems.ReadRetries
import OciAcmePublisher.Scanning.Readers
import OciAcmePublisher.MetricGrammar
import OciAcmePublisher.Theorems.MetricLabels
import OciAcmePublisher.DurableFiles
import OciAcmePublisher.Theorems.DurableWrites
import OciAcmePublisher.CreationLedger
import OciAcmePublisher.Lemmas.Creations
import OciAcmePublisher.Theorems.OneCreation
import OciAcmePublisher.Effects.Concurrency
import OciAcmePublisher.Effects.Sums
import OciAcmePublisher.Effects.Keeping
import OciAcmePublisher.Locking
import OciAcmePublisher.CommandPorts
import OciAcmePublisher.PreflightService
import OciAcmePublisher.CommandLine
import OciAcmePublisher.CommandSimulation
import OciAcmePublisher.Lemmas.LockFile
import OciAcmePublisher.Lemmas.Serialized
import OciAcmePublisher.Theorems.Serialized
import OciAcmePublisher.Lemmas.CommandLine
import OciAcmePublisher.Theorems.CommandLines
import OciAcmePublisher.Theorems.CommandRows
import OciAcmePublisher.Lemmas.Disciplines
import OciAcmePublisher.Lemmas.WriteAhead
import OciAcmePublisher.Theorems.WriteAhead
import OciAcmePublisher.Lemmas.Licences
import OciAcmePublisher.Theorems.Licences
import OciAcmePublisher.OciClients
import OciAcmePublisher.SdkService
import OciAcmePublisher.SdkSimulation
import OciAcmePublisher.Lemmas.Adapters
import OciAcmePublisher.Theorems.Adapters
import OciAcmePublisher.Scanning.Json
import OciAcmePublisher.Scanning.JsonRoundTrip
import OciAcmePublisher.Scanning.JsonTorn
import OciAcmePublisher.EvidenceRecords
import OciAcmePublisher.Theorems.EvidenceRecords
import OciAcmePublisher.LogLines
import OciAcmePublisher.Theorems.LogLines
import OciAcmePublisher.Scrapes
import OciAcmePublisher.Theorems.Textfile
