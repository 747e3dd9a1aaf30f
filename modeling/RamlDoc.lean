import RamlDoc.Command.Arguments
import RamlDoc.Command.LogFilter
import RamlDoc.Command.LogRecord
import RamlDoc.Command.Report
import RamlDoc.Command.Run
import RamlDoc.DataType.Basic
import RamlDoc.DataType.Declared
import RamlDoc.DataType.Expression
import RamlDoc.Decimal.Binary64
import RamlDoc.Decimal.Layout
import RamlDoc.Decimal.Shortest
import RamlDoc.Defaults.Declaration
import RamlDoc.Defaults.Document
import RamlDoc.Defaults.Operation
import RamlDoc.Error
import RamlDoc.Event
import RamlDoc.Files.FileSystem
import RamlDoc.Files.Path
import RamlDoc.Fixup.Document
import RamlDoc.Fixup.Line
import RamlDoc.Fixup.Restore
import RamlDoc.Fixup.TextPass
import RamlDoc.Header
import RamlDoc.Include.Context
import RamlDoc.Include.Directive
import RamlDoc.Include.Resolve
import RamlDoc.Include.Source
import RamlDoc.Json.Encoding
import RamlDoc.Json.Model
import RamlDoc.Json.Value
import RamlDoc.Main
import RamlDoc.Model.Annotation
import RamlDoc.Model.Block
import RamlDoc.Model.Contents
import RamlDoc.Model.Declaration
import RamlDoc.Model.Document
import RamlDoc.Model.Library
import RamlDoc.Model.Lookup
import RamlDoc.Model.Operation
import RamlDoc.Model.Resource
import RamlDoc.Model.Template
import RamlDoc.Options
import RamlDoc.Proofs.Agreement
import RamlDoc.Proofs.Alignment
import RamlDoc.Proofs.BlocksAligned
import RamlDoc.Proofs.CarriedReadings
import RamlDoc.Proofs.Commas
import RamlDoc.Proofs.Cursors
import RamlDoc.Proofs.DecimalLines
import RamlDoc.Proofs.DecimalTokens
import RamlDoc.Proofs.DeclarationSites
import RamlDoc.Proofs.DeclarationsAgree
import RamlDoc.Proofs.DeclarationsReordered
import RamlDoc.Proofs.DefaultsComplete
import RamlDoc.Proofs.DefaultsConserve
import RamlDoc.Proofs.DefaultsSettle
import RamlDoc.Proofs.DocumentNodes
import RamlDoc.Proofs.DocumentSites
import RamlDoc.Proofs.DocumentsAgree
import RamlDoc.Proofs.DocumentsReordered
import RamlDoc.Proofs.Entering
import RamlDoc.Proofs.EntryLoops
import RamlDoc.Proofs.EntryPoints
import RamlDoc.Proofs.ErrorChains
import RamlDoc.Proofs.ExpressibleTypes
import RamlDoc.Proofs.FieldsRead
import RamlDoc.Proofs.FirstDirective
import RamlDoc.Proofs.FittingRestrictions
import RamlDoc.Proofs.FixedReading
import RamlDoc.Proofs.HeaderLines
import RamlDoc.Proofs.ImportGraph
import RamlDoc.Proofs.IncludeFree
import RamlDoc.Proofs.IncludeSlots
import RamlDoc.Proofs.InternalErrors
import RamlDoc.Proofs.InvisibleEntries
import RamlDoc.Proofs.KeyedBlocks
import RamlDoc.Proofs.KeyedDocuments
import RamlDoc.Proofs.KeyedNodes
import RamlDoc.Proofs.LibraryImports
import RamlDoc.Proofs.LinesAligned
import RamlDoc.Proofs.MarksAligned
import RamlDoc.Proofs.Misfits
import RamlDoc.Proofs.NestedIncludes
import RamlDoc.Proofs.NodeSites
import RamlDoc.Proofs.NodeStyles
import RamlDoc.Proofs.NulledPositions
import RamlDoc.Proofs.OperationsReordered
import RamlDoc.Proofs.OutlineKeys
import RamlDoc.Proofs.Outlines
import RamlDoc.Proofs.OpenValues
import RamlDoc.Proofs.PassedLines
import RamlDoc.Proofs.QuotedAligned
import RamlDoc.Proofs.RecordedKeys
import RamlDoc.Proofs.RelativePaths
import RamlDoc.Proofs.Reorderings
import RamlDoc.Proofs.ResourceOrder
import RamlDoc.Proofs.ResourceShapes
import RamlDoc.Proofs.ResponseCodes
import RamlDoc.Proofs.Restoring
import RamlDoc.Proofs.RunsAligned
import RamlDoc.Proofs.ScalarsAdvance
import RamlDoc.Proofs.ScalarsAligned
import RamlDoc.Proofs.ScannersAligned
import RamlDoc.Proofs.ScansAligned
import RamlDoc.Proofs.SealedScans
import RamlDoc.Proofs.Sessions
import RamlDoc.Proofs.SettledTexts
import RamlDoc.Proofs.SharedFacets
import RamlDoc.Proofs.StrippedExpressions
import RamlDoc.Proofs.TakenTrees
import RamlDoc.Proofs.TemplateParameters
import RamlDoc.Proofs.TransparentIncludes
import RamlDoc.Proofs.TreeStyles
import RamlDoc.Proofs.TypeExpressions
import RamlDoc.Proofs.WrittenTemplates
import RamlDoc.Read.Declaration
import RamlDoc.Read.Document
import RamlDoc.Read.Field
import RamlDoc.Read.Library
import RamlDoc.Read.Operation
import RamlDoc.Read.Resource
import RamlDoc.Read.Slot
import RamlDoc.Read.Template
import RamlDoc.Read.Usage
import RamlDoc.Reading
import RamlDoc.Text.Blank
import RamlDoc.Text.Lines
import RamlDoc.Text.Lowercase
import RamlDoc.Text.Printable
import RamlDoc.Text.Quoted
import RamlDoc.Yaml.Node
import RamlDoc.Yaml.Number
import RamlDoc.Yaml.Page
import RamlDoc.Yaml.ReadError
import RamlDoc.Yaml.Reader
import RamlDoc.Yaml.Scalar
import RamlDoc.Yaml.Token
import RamlDoc.Yaml.Token.Scalar
import RamlDoc.Yaml.Token.Scanner
import RamlDoc.Yaml.Tree
import RamlDoc.Yaml.Writer
