import WideColumn.Main
import WideColumn.Shell.Completion
import WideColumn.Proofs.Action
import WideColumn.Proofs.Run
import WideColumn.Proofs.Atomicity
import WideColumn.Proofs.Effect
import WideColumn.Proofs.Frame
import WideColumn.Proofs.Characters
import WideColumn.Proofs.RegionName
import WideColumn.Proofs.Placement
import WideColumn.Proofs.Service
import WideColumn.Proofs.CatalogRows
import WideColumn.Proofs.ClusterCensus
import WideColumn.Proofs.Catalog
import WideColumn.Proofs.StoredRows
import WideColumn.Proofs.Tidiness
import WideColumn.Proofs.Scanning
import WideColumn.Proofs.Interleaving
import WideColumn.Proofs.VersionLimit
import WideColumn.Proofs.Compaction
import WideColumn.Proofs.Ticks
import WideColumn.Proofs.ShownVersions
import WideColumn.Proofs.Decimals
import WideColumn.Proofs.Increment
import WideColumn.Proofs.CellHistory
import WideColumn.Proofs.CounterRuns
import WideColumn.Proofs.PutRuns
import WideColumn.Proofs.PutOrders
import WideColumn.Proofs.Connection
import WideColumn.Proofs.KeptTables
import WideColumn.Proofs.Soundness
import WideColumn.Proofs.TableCalls
import WideColumn.Proofs.Reading
import WideColumn.Proofs.CommandRuns
import WideColumn.Proofs.Administration
import WideColumn.Proofs.Truncation
import WideColumn.Proofs.MasterChecks
import WideColumn.Proofs.FailedCommands
import WideColumn.Proofs.TableStates
import WideColumn.Proofs.TableLifecycle
import WideColumn.Proofs.Spelling
import WideColumn.Proofs.TypedLines
import WideColumn.Proofs.LineGrammar
import WideColumn.Proofs.Surroundings
import WideColumn.Proofs.FilterText
import WideColumn.Proofs.Bisection
import WideColumn.Proofs.GivenSettings
import WideColumn.Proofs.FamilyArguments
import WideColumn.Proofs.Settings
import WideColumn.Proofs.Alterations
import WideColumn.Proofs.ShellSchemas
import WideColumn.Proofs.SchemaText
import WideColumn.Proofs.SchemaRebuilding
import WideColumn.Proofs.PastedBytes
import WideColumn.Proofs.BatchRuns
import WideColumn.Proofs.Transcripts
import WideColumn.Proofs.JsonGrammar
import WideColumn.Proofs.Documents
import WideColumn.Proofs.Refusals
import WideColumn.Proofs.DataAccess
import WideColumn.Proofs.Deletions
import WideColumn.Proofs.Filtering
import WideColumn.Proofs.Upkeep
import WideColumn.Proofs.StoredBytes
import WideColumn.Proofs.ScanLimits
import WideColumn.Proofs.RowCounts
import WideColumn.Proofs.Specifiers
import WideColumn.Proofs.ReadOptions
import WideColumn.Proofs.AbsentOptions
import WideColumn.Proofs.WrittenCells
import WideColumn.Proofs.LineWidths
import WideColumn.Proofs.Cursor
import WideColumn.Proofs.Positions
import WideColumn.Proofs.CursorMoves
