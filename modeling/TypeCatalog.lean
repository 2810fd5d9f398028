import TypeCatalog.Document.Value
import TypeCatalog.Main
import TypeCatalog.Proofs.Catalog.Collected
import TypeCatalog.Proofs.Catalog.Declarations
import TypeCatalog.Proofs.Catalog.DefinitionLines
import TypeCatalog.Proofs.Catalog.Names
import TypeCatalog.Proofs.Command.Agreement
import TypeCatalog.Proofs.Command.Effects
import TypeCatalog.Proofs.Command.Listing
import TypeCatalog.Proofs.Command.Locations
import TypeCatalog.Proofs.Document.Boundary
import TypeCatalog.Proofs.Document.Contract
import TypeCatalog.Proofs.Document.Decoding
import TypeCatalog.Proofs.Document.Interface
import TypeCatalog.Proofs.Document.Labels
import TypeCatalog.Proofs.Document.RoundTrip
import TypeCatalog.Proofs.Files.Failure
import TypeCatalog.Proofs.Files.Path
import TypeCatalog.Proofs.Files.ReadBack
import TypeCatalog.Proofs.Node.Unions
import TypeCatalog.Proofs.Store.Failure
import TypeCatalog.Proofs.Store.Overlap
import TypeCatalog.Proofs.Store.Races
import TypeCatalog.Proofs.Store.References
import TypeCatalog.Proofs.Store.Retention
import TypeCatalog.Proofs.Store.Runs
import TypeCatalog.Proofs.Store.Sync
