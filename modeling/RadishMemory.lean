import RadishMemory.Framework.Checked
import RadishMemory.Framework.Table
import RadishMemory.Framework.Chain
import RadishMemory.Framework.Program
import RadishMemory.Framework.Method
import RadishMemory.Framework.Trace
import RadishMemory.Framework.Interleaving
import RadishMemory.Framework.Processes
import RadishMemory.Framework.Sha256
import RadishMemory.Framework.Decimal
import RadishMemory.Framework.Json
import RadishMemory.Framework.FileTree
import RadishMemory.Framework.FileSystem
import RadishMemory.Construction.Core.Model
import RadishMemory.Construction.Core.Source
import RadishMemory.Construction.Core.Memory
import RadishMemory.Construction.Core.Deletion
import RadishMemory.Construction.Core.Invariants
import RadishMemory.Construction.Core.Context
import RadishMemory.Construction.Core.CanonicalJson
import RadishMemory.Construction.Sqlite.Schema
import RadishMemory.Construction.Sqlite.RecallRows
import RadishMemory.Construction.Sqlite.SourceStore
import RadishMemory.Construction.Sqlite.SourceCapture
import RadishMemory.Construction.Sqlite.MemoryStore
import RadishMemory.Construction.Sqlite.DerivedIndex
import RadishMemory.Construction.Sqlite.SearchQuery
import RadishMemory.Construction.Sqlite.SearchSamples
import RadishMemory.Construction.Sqlite.SourceCatalog
import RadishMemory.Construction.Sqlite.DeletionPlan
import RadishMemory.Construction.Sqlite.DeletionActions
import RadishMemory.Construction.Sqlite.DeletionStore
import RadishMemory.Construction.Sqlite.Concurrency
import RadishMemory.Construction.Application.LocalLibrary
import RadishMemory.Construction.SourceVault.KeyProvider
import RadishMemory.Construction.SourceVault.KeyInitialization
import RadishMemory.Construction.FileEntry.Selection
import RadishMemory.Construction.FileEntry.Export
import RadishMemory.Construction.Desktop.Backend
import RadishMemory.Construction.Desktop.Controller
import RadishMemory.Construction.Desktop.Worker
import RadishMemory.Construction.Desktop.Retention
import RadishMemory.Construction.Library
import RadishMemory.Construction.Samples
import RadishMemory.Construction.Desktop.DesktopSamples
import RadishMemory.Properties.Statements
import RadishMemory.Properties.SourceWrites
import RadishMemory.Properties.MemoryWrites
import RadishMemory.Properties.Reads
import RadishMemory.Properties.Verification
import RadishMemory.Properties.DeletionWrites
import RadishMemory.Properties.ActionEffects
import RadishMemory.Properties.Execution
import RadishMemory.Properties.Changes
import RadishMemory.Properties.Constraints
import RadishMemory.Properties.LibraryInvariant
import RadishMemory.Properties.Plans
import RadishMemory.Properties.Effects
import RadishMemory.Properties.Completion
import RadishMemory.Properties.EvidenceChain
import RadishMemory.Properties.Scope
import RadishMemory.Properties.Residue
import RadishMemory.Properties.Convergence
import RadishMemory.Properties.Executability
import RadishMemory.Properties.ReadBack
import RadishMemory.Properties.Readable
import RadishMemory.Properties.DeclaredFacts
import RadishMemory.Properties.Envelope
import RadishMemory.Properties.ObjectSealing
import RadishMemory.Properties.RequestRetention
import RadishMemory.Properties.Search
import RadishMemory.Properties.SearchInterference
import RadishMemory.Properties.Recall
import RadishMemory.Properties.Resumption
import RadishMemory.Properties.Governance
import RadishMemory.Properties.Ledger
import RadishMemory.Properties.MemoryProtocol
import RadishMemory.Properties.KeyReadback
import RadishMemory.Properties.KeyBootstrap
import RadishMemory.Properties.CanonicalNumbers
import RadishMemory.Properties.JsonParser
import RadishMemory.Properties.CanonicalJson
import RadishMemory.Properties.Lineages
import RadishMemory.Properties.FileLineages
import RadishMemory.Properties.Catalog
import RadishMemory.Properties.LinearChains
import RadishMemory.Properties.FragmentPartition
import RadishMemory.Properties.PlanDigest
import RadishMemory.Properties.SelectedPaths
import RadishMemory.Properties.ManagedExport
import RadishMemory.Properties.PathConfinement
import RadishMemory.Properties.DigestText
import RadishMemory.Properties.SearchExpression
import RadishMemory.Properties.NumberArithmetic
import RadishMemory.Properties.RecordClosure
import RadishMemory.Properties.ProposalKeys
import RadishMemory.Properties.HostProfile
import RadishMemory.Properties.DerivedTables
import RadishMemory.Properties.Growth
import RadishMemory.Properties.OriginBindings
import RadishMemory.Properties.VerifiedWrites
import RadishMemory.Properties.StoredKeys
import RadishMemory.Properties.Rebuild
import RadishMemory.Properties.EventEnds
import RadishMemory.Construction.SourceVault.BodyMigration
import RadishMemory.Framework.Publication
import RadishMemory.Properties.ObjectEntries
import RadishMemory.Properties.ObjectMoves
import RadishMemory.Properties.ObjectPublication
import RadishMemory.Properties.VaultFiles
import RadishMemory.Properties.VaultReads
import RadishMemory.Properties.VaultObjects
import RadishMemory.Properties.VaultOperations
import RadishMemory.Properties.VaultMigration
import RadishMemory.Properties.VaultRuns
