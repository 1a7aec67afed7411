import RowPipeline.Main
import RowPipeline.Stock.Function
import RowPipeline.Proofs.Expression.Grouping
import RowPipeline.Proofs.Text.Characters
import RowPipeline.Proofs.Expression.ClosedText
import RowPipeline.Proofs.Expression.Evaluation
import RowPipeline.Proofs.Fields
import RowPipeline.Proofs.Record.References
import RowPipeline.Proofs.Record.OnePass
import RowPipeline.Proofs.Record.Cycles
import RowPipeline.Proofs.Record.Configs
import RowPipeline.Proofs.Expression.NumberTexts
import RowPipeline.Proofs.Mapping.Operands
import RowPipeline.Proofs.Plugin.Updates
import RowPipeline.Proofs.Plugin.Calls
import RowPipeline.Proofs.Plugin.WithoutArithmetic
import RowPipeline.Proofs.Plugin.Executions
import RowPipeline.Proofs.Plugin.ResultRows
import RowPipeline.Proofs.Mapping.Copies
import RowPipeline.Proofs.Plugin.HandingBack
import RowPipeline.Proofs.Plugin.Batches
import RowPipeline.Proofs.Expression.Magnitude
import RowPipeline.Proofs.Expression.Catalogue
import RowPipeline.Proofs.Expression.Locality
import RowPipeline.Proofs.Expression.SoundValues
import RowPipeline.Proofs.Expression.WholeNumbers
import RowPipeline.Proofs.Command.Evaluations
import RowPipeline.Proofs.Expression.FirstName
import RowPipeline.Proofs.Mapping.Evaluations
import RowPipeline.Proofs.Record.Outputs
import RowPipeline.Proofs.Plugin.ValidatedConfigs
import RowPipeline.Proofs.Command.Checks
import RowPipeline.Proofs.Validation.UnionPaths
import RowPipeline.Proofs.Manifest.Reading
import RowPipeline.Proofs.Expression.Spacing
import RowPipeline.Proofs.Expression.Rendering
import RowPipeline.Proofs.Record.ConfigFields
import RowPipeline.Proofs.Expression.Calls
import RowPipeline.Proofs.Mapping.Consumption
import RowPipeline.Proofs.Record.NormalForm
import RowPipeline.Proofs.Record.PlainNames
import RowPipeline.Proofs.Validation.UnionGroups
import RowPipeline.Proofs.Metadata
import RowPipeline.Proofs.Validation.Paths
import RowPipeline.Proofs.Expression.Coercion
