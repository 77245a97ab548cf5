import ClientGen.BasePath
import ClientGen.Catalog
import ClientGen.CommandLine.Arguments
import ClientGen.CommandLine.Execution
import ClientGen.Config.File
import ClientGen.Config.Keys
import ClientGen.Config.Settings
import ClientGen.Dependencies
import ClientGen.Document.Address
import ClientGen.Document.Loading
import ClientGen.Document.Pointer
import ClientGen.Document.Reference
import ClientGen.Endpoint.Basic
import ClientGen.Endpoint.Group
import ClientGen.Endpoint.Method
import ClientGen.Endpoint.PathTemplate
import ClientGen.Endpoint.Request
import ClientGen.Failure
import ClientGen.File.Tree
import ClientGen.File.Writer
import ClientGen.Host.CharTable
import ClientGen.Host.Character
import ClientGen.Host.Composition
import ClientGen.Host.CompositionTable
import ClientGen.Host.Label
import ClientGen.Host.Name
import ClientGen.Host.Punycode
import ClientGen.Limit
import ClientGen.Main
import ClientGen.Model.Generation
import ClientGen.Model.Lookup
import ClientGen.Model.Merge
import ClientGen.Model.Module
import ClientGen.Model.Reading
import ClientGen.Naming.Names
import ClientGen.Naming.Plural
import ClientGen.Naming.Words
import ClientGen.Node.Basic
import ClientGen.Node.Json
import ClientGen.Node.Printer
import ClientGen.Number.Arithmetic
import ClientGen.Number.Binary64
import ClientGen.Number.Hexadecimal
import ClientGen.Number.Reading
import ClientGen.Number.Shortest
import ClientGen.Output.Client
import ClientGen.Output.Endpoints
import ClientGen.Output.File
import ClientGen.Output.Files
import ClientGen.Output.Hook
import ClientGen.Path
import ClientGen.Proofs.Catalog.Grouping
import ClientGen.Proofs.Catalog.Members
import ClientGen.Proofs.Catalog.RawOperations
import ClientGen.Proofs.Document.Memory
import ClientGen.Proofs.Document.TextKeys
import ClientGen.Proofs.Endpoint.Backslashes
import ClientGen.Proofs.Endpoint.FinalNames
import ClientGen.Proofs.Endpoint.Identifiers
import ClientGen.Proofs.Endpoint.Insertions
import ClientGen.Proofs.Endpoint.Names
import ClientGen.Proofs.Endpoint.PathTemplate
import ClientGen.Proofs.Endpoint.Placeholders
import ClientGen.Proofs.Endpoint.Requests
import ClientGen.Proofs.Endpoint.TemplateLiteral
import ClientGen.Proofs.Expansion.Agreement
import ClientGen.Proofs.Expansion.Course
import ClientGen.Proofs.Expansion.Discipline
import ClientGen.Proofs.Expansion.Follow
import ClientGen.Proofs.Expansion.Formed
import ClientGen.Proofs.Expansion.Leaves
import ClientGen.Proofs.Expansion.Levels
import ClientGen.Proofs.Expansion.Lists
import ClientGen.Proofs.Expansion.MergedInterface
import ClientGen.Proofs.Expansion.Nesting
import ClientGen.Proofs.Expansion.Nullable
import ClientGen.Proofs.Expansion.Pass
import ClientGen.Proofs.Expansion.Paths
import ClientGen.Proofs.Expansion.Reading
import ClientGen.Proofs.Expansion.Record
import ClientGen.Proofs.Expansion.Run
import ClientGen.Proofs.Expansion.Settling
import ClientGen.Proofs.Expansion.Sharing
import ClientGen.Proofs.Expansion.Steps
import ClientGen.Proofs.Expansion.Termination
import ClientGen.Proofs.Expansion.Walks
import ClientGen.Proofs.Expansion.Watch
import ClientGen.Proofs.File.Receiving
import ClientGen.Proofs.File.Tree
import ClientGen.Proofs.File.Writing
import ClientGen.Proofs.Model.Blocks
import ClientGen.Proofs.Model.Clashes
import ClientGen.Proofs.Model.Conservation
import ClientGen.Proofs.Model.Entry
import ClientGen.Proofs.Model.History
import ClientGen.Proofs.Model.ImportBlock
import ClientGen.Proofs.Model.ImportLine
import ClientGen.Proofs.Model.Imports
import ClientGen.Proofs.Model.MergedTexts
import ClientGen.Proofs.Model.Merging
import ClientGen.Proofs.Model.Outcome
import ClientGen.Proofs.Model.Ownership
import ClientGen.Proofs.Model.Paragraphs
import ClientGen.Proofs.Model.ParameterOrder
import ClientGen.Proofs.Model.ReadBack
import ClientGen.Proofs.Model.Rendering
import ClientGen.Proofs.Model.Sheet
import ClientGen.Proofs.Model.Tables
import ClientGen.Proofs.Model.UsedNames
import ClientGen.Proofs.Naming.Alphabet
import ClientGen.Proofs.Naming.Boundaries
import ClientGen.Proofs.Naming.Patterns
import ClientGen.Proofs.Naming.Recasing
import ClientGen.Proofs.Naming.Words
import ClientGen.Proofs.Node.Updates
import ClientGen.Proofs.Number.Characters
import ClientGen.Proofs.Output.Comments
import ClientGen.Proofs.Output.Files
import ClientGen.Proofs.Output.HookNames
import ClientGen.Proofs.Output.Resolution
import ClientGen.Proofs.Output.Specifiers
import ClientGen.Proofs.Output.TypeImports
import ClientGen.Proofs.Run.Again
import ClientGen.Proofs.Run.HookImports
import ClientGen.Proofs.Run.Names
import ClientGen.Proofs.Run.Reported
import ClientGen.Proofs.Schema.Height
import ClientGen.Proofs.Schema.Outermost
import ClientGen.Proofs.Schema.Printing
import ClientGen.Proofs.Schema.PropertyKeys
import ClientGen.Proofs.Schema.Reach
import ClientGen.Proofs.Schema.UnionText
import ClientGen.Proofs.Text.Ascii
import ClientGen.Proofs.Text.Lines
import ClientGen.Run
import ClientGen.Schema.Declaration
import ClientGen.Schema.Expansion
import ClientGen.Schema.Kind
import ClientGen.Schema.TypeExpr
import ClientGen.Text.Blank
import ClientGen.Text.Case
import ClientGen.Text.CaseTable
import ClientGen.Text.CasedTable
import ClientGen.Text.Letter
import ClientGen.Text.LetterTable
import ClientGen.Text.Lines
import ClientGen.Text.Match
import ClientGen.Text.Replace
import ClientGen.Text.Shown
import ClientGen.Yaml.Cursor
import ClientGen.Yaml.Document
import ClientGen.Yaml.Fault
import ClientGen.Yaml.Scalar.Block
import ClientGen.Yaml.Scalar.Date
import ClientGen.Yaml.Scalar.Meaning
import ClientGen.Yaml.Scalar.Number
import ClientGen.Yaml.Scalar.Plain
import ClientGen.Yaml.Scalar.Quoted
import ClientGen.Yaml.Tag
import ClientGen.Yaml.Token
import ClientGen.Yaml.Tree
import ClientGen.Proofs.Number.Decimal
import ClientGen.Proofs.Catalog.StrippedPaths
import ClientGen.Proofs.Document.Trails
import ClientGen.Proofs.Document.Ways
import ClientGen.Proofs.Model.Following
import ClientGen.Proofs.Config.NullOverrides
