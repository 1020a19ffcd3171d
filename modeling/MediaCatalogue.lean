import MediaCatalogue.Calendar.Date
import MediaCatalogue.Calendar.Instant
import MediaCatalogue.Calendar.Rfc3339
import MediaCatalogue.CommandLine.Arguments
import MediaCatalogue.CommandLine.Command
import MediaCatalogue.CommandLine.FileTree
import MediaCatalogue.CommandLine.Interaction
import MediaCatalogue.CommandLine.Report
import MediaCatalogue.CommandLine.Run
import MediaCatalogue.Content.Basic
import MediaCatalogue.Content.Json
import MediaCatalogue.Content.Version
import MediaCatalogue.Content.Vocabulary
import MediaCatalogue.Document.Basic
import MediaCatalogue.Document.Error
import MediaCatalogue.Document.ExtendedJson
import MediaCatalogue.Document.Path
import MediaCatalogue.Document.TaggedJson
import MediaCatalogue.Document.Value
import MediaCatalogue.Fields
import MediaCatalogue.Identifier.Basic
import MediaCatalogue.Identifier.Sha1
import MediaCatalogue.Json.Basic
import MediaCatalogue.Json.Reader
import MediaCatalogue.Json.Structure
import MediaCatalogue.Json.Writer
import MediaCatalogue.Main
import MediaCatalogue.Number.Double
import MediaCatalogue.Number.Shortest
import MediaCatalogue.Pattern.Basic
import MediaCatalogue.Pattern.CharSet
import MediaCatalogue.Pattern.Class
import MediaCatalogue.Pattern.Escape
import MediaCatalogue.Pattern.Options
import MediaCatalogue.Pattern.Reader
import MediaCatalogue.Pattern.Search
import MediaCatalogue.Pattern.Shape
import MediaCatalogue.Pattern.Size
import MediaCatalogue.Pattern.Tree
import MediaCatalogue.Query.Attribute
import MediaCatalogue.Query.Basic
import MediaCatalogue.Query.Compile
import MediaCatalogue.Query.Concern
import MediaCatalogue.Query.Constraint
import MediaCatalogue.Query.Error
import MediaCatalogue.Query.Parameters
import MediaCatalogue.Query.Path
import MediaCatalogue.Query.Satisfaction
import MediaCatalogue.Query.Trim
import MediaCatalogue.Record.Content
import MediaCatalogue.Record.Fields
import MediaCatalogue.Record.Version
import MediaCatalogue.Repository.Basic
import MediaCatalogue.Repository.Discovery
import MediaCatalogue.Repository.Service
import MediaCatalogue.Repository.SlowQueries
import MediaCatalogue.Settings.Basic
import MediaCatalogue.Settings.File
import MediaCatalogue.Store.Basic
import MediaCatalogue.Store.Collection
import MediaCatalogue.Store.Filter
import MediaCatalogue.Store.Matching
import MediaCatalogue.Store.Selection
import MediaCatalogue.Text.Blank
import MediaCatalogue.Text.CasedTable
import MediaCatalogue.Text.Casing
import MediaCatalogue.Text.CodePoints
import MediaCatalogue.Text.FoldTable
import MediaCatalogue.Text.Folding
import MediaCatalogue.Text.LowerTable
import MediaCatalogue.Text.Numeral
import MediaCatalogue.Text.Ranges
import MediaCatalogue.Text.Split
import MediaCatalogue.Text.TextSet
import MediaCatalogue.Text.UpperTable
import MediaCatalogue.Text.Utf8
import MediaCatalogue.Text.Word
import MediaCatalogue.Text.WordTable
import MediaCatalogue.Toml.Basic
import MediaCatalogue.Toml.Reader
import MediaCatalogue.Toml.Tables
import MediaCatalogue.Toml.Writer
import MediaCatalogue.Proofs.Query.Trimming
import MediaCatalogue.Proofs.Document.Fields
import MediaCatalogue.Proofs.Pattern.Literal
import MediaCatalogue.Proofs.Query.Beginning
import MediaCatalogue.Proofs.Query.Compilation
import MediaCatalogue.Proofs.Query.Meaning
import MediaCatalogue.Proofs.Record.RoundTrip
import MediaCatalogue.Proofs.Repository.Answers
import MediaCatalogue.Proofs.Repository.Lookup
import MediaCatalogue.Proofs.Repository.Paging
import MediaCatalogue.Proofs.Store.Refusal
import MediaCatalogue.Proofs.Repository.Consistency
import MediaCatalogue.Proofs.Query.Pruning
import MediaCatalogue.Proofs.Repository.Fetching
import MediaCatalogue.Proofs.Repository.Publishers
import MediaCatalogue.Proofs.Repository.Softness
import MediaCatalogue.Proofs.Document.ExtendedJson
import MediaCatalogue.Proofs.Record.Dump
import MediaCatalogue.Proofs.Repository.Repeating
import MediaCatalogue.Proofs.Json.Reading
import MediaCatalogue.Proofs.Document.Assignment
import MediaCatalogue.Proofs.Document.Equality
import MediaCatalogue.Proofs.Store.Candidates
import MediaCatalogue.Proofs.Store.Operators
import MediaCatalogue.Proofs.Store.Updating
import MediaCatalogue.Proofs.Store.Upserting
import MediaCatalogue.Proofs.Document.InPlace
import MediaCatalogue.Proofs.Query.Rejection
import MediaCatalogue.Proofs.Text.Folding
import MediaCatalogue.Proofs.Query.PrefixSearch
import MediaCatalogue.Proofs.Calendar.Date
import MediaCatalogue.Proofs.Calendar.Rfc3339
import MediaCatalogue.Proofs.Text.Split
import MediaCatalogue.Proofs.Text.Numeral
import MediaCatalogue.Proofs.Query.Parameters
import MediaCatalogue.Proofs.Document.Resolution
import MediaCatalogue.Proofs.Store.Elements
import MediaCatalogue.Proofs.Repository.Reading
import MediaCatalogue.Proofs.Repository.RequestOrder
import MediaCatalogue.Proofs.Query.Support
import MediaCatalogue.Proofs.Query.Reading
import MediaCatalogue.Proofs.Document.Following
import MediaCatalogue.Proofs.Calendar.Lenient
import MediaCatalogue.Proofs.Content.Text
