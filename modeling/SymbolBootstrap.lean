import SymbolBootstrap.Library.FirstFit
import SymbolBootstrap.LinkChain
import SymbolBootstrap.VotingPlan
import SymbolBootstrap.Library.PrefixRuns
import SymbolBootstrap.VotingDisjoint
import SymbolBootstrap.Library.StableSort
import SymbolBootstrap.LinkParts
import SymbolBootstrap.LinkExecution
import SymbolBootstrap.LinkConvergence
import SymbolBootstrap.VotingService
import SymbolBootstrap.VotingRuns
import SymbolBootstrap.RecoveryExclusion
import SymbolBootstrap.CryptoUtils
import SymbolBootstrap.ConfigurationUtils
import SymbolBootstrap.Library.Throwing
import SymbolBootstrap.NemesisBalances
import SymbolBootstrap.NemesisSplit
import SymbolBootstrap.KnownAccounts
import SymbolBootstrap.NemesisSound
import SymbolBootstrap.AddressesService
import SymbolBootstrap.AddressesDocuments
import SymbolBootstrap.AccountResolution
import SymbolBootstrap.NodeResolution
import SymbolBootstrap.AddressesUpgrade
import SymbolBootstrap.AddressesRetained
import SymbolBootstrap.ConfigLoader
import SymbolBootstrap.PresetSecrets
import SymbolBootstrap.PresetTemplates
import SymbolBootstrap.PresetIndependence
import SymbolBootstrap.EncryptionRoundTrip
import SymbolBootstrap.RepeatExpansion
import SymbolBootstrap.ComposeService
import SymbolBootstrap.ComposeServices
import SymbolBootstrap.ComposeExclusions
import SymbolBootstrap.StartScriptCleanup
import SymbolBootstrap.AnnounceService
import SymbolBootstrap.LinkUndo
import SymbolBootstrap.ModifyMultisigService
import SymbolBootstrap.ModificationChecks
import SymbolBootstrap.ModificationAccount
import SymbolBootstrap.VotingFileNames
import SymbolBootstrap.VotingContinuation
import SymbolBootstrap.VotingFolders
import SymbolBootstrap.VotingUpdates
import SymbolBootstrap.VotingFileCodec
import SymbolBootstrap.Library.LittleEndian
import SymbolBootstrap.VotingFileSizes
import SymbolBootstrap.VotingFileLayout
import SymbolBootstrap.VotingReplacement
import SymbolBootstrap.UnlinkOwnKeys
import SymbolBootstrap.HarvesterCap
import SymbolBootstrap.AsyncUtils
import SymbolBootstrap.YamlUtils
import SymbolBootstrap.Library.DocumentPaths
import SymbolBootstrap.PrivateKeyRemoval
import SymbolBootstrap.TemplateFree
import SymbolBootstrap.MigrationService
import SymbolBootstrap.PruneEmpty
import SymbolBootstrap.Library.Texts
import SymbolBootstrap.ReportService
import SymbolBootstrap.Library.Searching
import SymbolBootstrap.CertificateService
import SymbolBootstrap.Library.Paths
import SymbolBootstrap.FileSystemService
import SymbolBootstrap.Library.Distinct
import SymbolBootstrap.PeerLists
import SymbolBootstrap.Library.Writing
import SymbolBootstrap.NemesisTransactions
import SymbolBootstrap.CosignerEntry
import SymbolBootstrap.Library.MergedFields
import SymbolBootstrap.AnnouncedNodes
import SymbolBootstrap.HandlebarsUtils
import SymbolBootstrap.Library.ClassRuns
import SymbolBootstrap.SecureString
import SymbolBootstrap.Library.RegularExpressions
import SymbolBootstrap.Library.Traces
import SymbolBootstrap.BootstrapAccountResolver
import SymbolBootstrap.AnnounceRuns
import SymbolBootstrap.AnnounceSigners
import SymbolBootstrap.Library.Changes
import SymbolBootstrap.CertificateScript
import SymbolBootstrap.KnownCertificates
import SymbolBootstrap.CertificateRuns
import SymbolBootstrap.StoredUpgrade
import SymbolBootstrap.ConfigRuns
import SymbolBootstrap.Library.Folders
import SymbolBootstrap.NemesisSeeds
import SymbolBootstrap.VotingProviders
import SymbolBootstrap.PresetUpgrade
import SymbolBootstrap.GatewayFiles
import SymbolBootstrap.DataReset
