import NamedQuery.Adapter.Basic
import NamedQuery.Adapter.Prepared
import NamedQuery.CommandLine.Arguments
import NamedQuery.CommandLine.Commands
import NamedQuery.CommandLine.Report
import NamedQuery.CommandLine.Table
import NamedQuery.Engine.Basic
import NamedQuery.Engine.Settings
import NamedQuery.Engine.SettingsFile
import NamedQuery.Entity
import NamedQuery.Fault
import NamedQuery.Fields
import NamedQuery.Files.Tree
import NamedQuery.Identifier.Intent
import NamedQuery.Identifier.Words
import NamedQuery.Inflection.English
import NamedQuery.Inflection.Naming
import NamedQuery.Inflection.Number
import NamedQuery.Inflection.Rule
import NamedQuery.Json.Basic
import NamedQuery.Json.Document
import NamedQuery.Json.Printer
import NamedQuery.Json.Token
import NamedQuery.Main
import NamedQuery.Numeric.Binary64
import NamedQuery.Numeric.Literal
import NamedQuery.Numeric.Shortest
import NamedQuery.Plan.Basic
import NamedQuery.Plan.Compile
import NamedQuery.Plan.Options
import NamedQuery.Run
import NamedQuery.Store.Basic
import NamedQuery.Store.Matching
import NamedQuery.Store.Problem
import NamedQuery.Store.Reader
import NamedQuery.Store.Selection
import NamedQuery.Store.Session
import NamedQuery.Store.Window
import NamedQuery.Store.Writer
import NamedQuery.Text.Case
import NamedQuery.Text.CaseData
import NamedQuery.Text.Classes
import NamedQuery.Toml.Document
import NamedQuery.Toml.Moment
import NamedQuery.Toml.Scalar
import NamedQuery.Toml.Statement
import NamedQuery.Toml.Token
import NamedQuery.Proofs.Engine.Runs
import NamedQuery.Proofs.Fields
import NamedQuery.Proofs.Identifier.Grammar
import NamedQuery.Proofs.Plan.Options
import NamedQuery.Proofs.Store.Conditions
import NamedQuery.Proofs.Store.RowOrder
import NamedQuery.Proofs.Store.Window
import NamedQuery.Proofs.Text.Trim
import NamedQuery.Proofs.Engine.Lookup
import NamedQuery.Proofs.Store.Distinct
import NamedQuery.Proofs.Store.Walk
import NamedQuery.Proofs.Store.Join
import NamedQuery.Proofs.Engine.Join
import NamedQuery.Proofs.Engine.History
import NamedQuery.Proofs.Engine.Caches
import NamedQuery.Proofs.Engine.Registry
import NamedQuery.Proofs.Yields
import NamedQuery.Proofs.Store.Shape
import NamedQuery.Proofs.Plan.Actions
import NamedQuery.Proofs.Engine.Faults
import NamedQuery.Proofs.Engine.PrimaryKey
import NamedQuery.Proofs.Plan.Blanks
import NamedQuery.Proofs.Inflection.LetterCase
import NamedQuery.Proofs.Inflection.Spelling
import NamedQuery.Proofs.Inflection.Endings
import NamedQuery.Proofs.Inflection.Regular
import NamedQuery.Proofs.Plan.Entity
import NamedQuery.Proofs.Inflection.Names
import NamedQuery.Proofs.Store.Tables
import NamedQuery.Proofs.Plan.Regular
import NamedQuery.Proofs.Inflection.Edits
import NamedQuery.Proofs.Inflection.RoundTrip
import NamedQuery.Proofs.Plan.Plural
import NamedQuery.Proofs.Store.Steps
import NamedQuery.Proofs.Store.Failures
import NamedQuery.Proofs.Inflection.PluralRoundTrip
import NamedQuery.Proofs.Plan.TypeName
import NamedQuery.Proofs.Store.Origin
import NamedQuery.Proofs.Json.Number
import NamedQuery.Proofs.Json.Reading
import NamedQuery.Proofs.Json.RoundTrip
import NamedQuery.Proofs.Store.Text
import NamedQuery.Proofs.Store.Sorting
import NamedQuery.Proofs.Store.Embedding
import NamedQuery.Proofs.Store.EmbeddingOrder
import NamedQuery.Proofs.Numeric.Integers
import NamedQuery.Proofs.Store.IntegerIds
import NamedQuery.Proofs.Store.ForeignKey
import NamedQuery.Proofs.Store.Pages
import NamedQuery.Proofs.Inflection.Boundaries
import NamedQuery.Proofs.Inflection.PluralOfPlural
import NamedQuery.Proofs.Text.ByteOrder
import NamedQuery.Proofs.Engine.Tables
import NamedQuery.Proofs.Engine.Course
import NamedQuery.Proofs.Plan.OwnParameters
import NamedQuery.Proofs.Inflection.Occurrences
import NamedQuery.Proofs.Inflection.LastWord
import NamedQuery.Proofs.CommandLine.Table
