import TypedSheets.Code.Declaration
import TypedSheets.Code.Items
import TypedSheets.Game.Catalog
import TypedSheets.Json.Writer
import TypedSheets.Proofs.Artifact.Loadable
import TypedSheets.Proofs.Asset.Directory
import TypedSheets.Proofs.Asset.Written
import TypedSheets.Proofs.Bake.Counts
import TypedSheets.Proofs.Bake.Interleaved
import TypedSheets.Proofs.Bake.Orphans
import TypedSheets.Proofs.Bake.OwnKey
import TypedSheets.Proofs.Bake.Reordered
import TypedSheets.Proofs.Bake.Verdict
import TypedSheets.Proofs.Cell.Integer
import TypedSheets.Proofs.Cell.Sequence
import TypedSheets.Proofs.Code.Expression
import TypedSheets.Proofs.Container.Places
import TypedSheets.Proofs.Link.Outcome
import TypedSheets.Proofs.Naming.Respelled
import TypedSheets.Proofs.Property.Columns
import TypedSheets.Proofs.Property.Elements
import TypedSheets.Proofs.Property.Range
import TypedSheets.Proofs.Schema.Accessors
import TypedSheets.Proofs.Schema.Faults
import TypedSheets.Proofs.Schema.Methods
import TypedSheets.Proofs.Schema.Shape
import TypedSheets.Proofs.SheetName
import TypedSheets.Proofs.Table.Linked
import TypedSheets.Proofs.Table.Reached
import TypedSheets.Proofs.Table.Replacing
import TypedSheets.Proofs.Table.Spelling
import TypedSheets.Property.Setter
import TypedSheets.Settings.Bake
import TypedSheets.View.Container
import TypedSheets.View.Property
import TypedSheets.View.Schema
