import WebBaseline.Catalog.Accessor
import WebBaseline.Catalog.Address
import WebBaseline.Catalog.Cache
import WebBaseline.Catalog.Duration
import WebBaseline.Catalog.Response
import WebBaseline.Catalog.Snapshot
import WebBaseline.Catalog.Url
import WebBaseline.Command.Arguments
import WebBaseline.Command.Run
import WebBaseline.Command.World
import WebBaseline.Decimal.Binary64
import WebBaseline.Decimal.Bound
import WebBaseline.Decimal.Literal
import WebBaseline.Decimal.Shortest
import WebBaseline.Decoding.Fault
import WebBaseline.Decoding.Record
import WebBaseline.Digest.Blake3
import WebBaseline.Digest.Sha256
import WebBaseline.Encoding.Record
import WebBaseline.Feature.Domain
import WebBaseline.Feature.Record
import WebBaseline.Feature.Status
import WebBaseline.Feature.Text
import WebBaseline.Files.Error
import WebBaseline.Files.Path
import WebBaseline.Files.Tree
import WebBaseline.Grammar.Automaton
import WebBaseline.Grammar.CharClass
import WebBaseline.Grammar.Normal
import WebBaseline.Grammar.Overlap
import WebBaseline.Grammar.Rule
import WebBaseline.Grammar.Table
import WebBaseline.Grammar.Table.Basic
import WebBaseline.Grammar.Table.Edge
import WebBaseline.Grammar.Table.Item
import WebBaseline.Grammar.Table.Joining
import WebBaseline.Grammar.Table.Recovery
import WebBaseline.Grammar.Table.State
import WebBaseline.Json.Decoding
import WebBaseline.Json.Printer
import WebBaseline.Json.Reader
import WebBaseline.Json.Value
import WebBaseline.Main
import WebBaseline.Markup.Grammar
import WebBaseline.Markup.Reader
import WebBaseline.Markup.Tag
import WebBaseline.Parsing.Engine
import WebBaseline.Parsing.Language
import WebBaseline.Parsing.Lookahead
import WebBaseline.Parsing.Recovery
import WebBaseline.Parsing.Reduction
import WebBaseline.Parsing.Run
import WebBaseline.Parsing.Stack
import WebBaseline.Parsing.Subtree
import WebBaseline.Proofs.Catalog.FetchOutcome
import WebBaseline.Proofs.Catalog.Interleaving
import WebBaseline.Proofs.Catalog.Isolation
import WebBaseline.Proofs.Catalog.ReadYourWrites
import WebBaseline.Proofs.Catalog.ResponseElements
import WebBaseline.Proofs.Catalog.Retries
import WebBaseline.Proofs.Catalog.Session
import WebBaseline.Proofs.Catalog.SharedEntry
import WebBaseline.Proofs.Catalog.StoreFaults
import WebBaseline.Proofs.Command.CacheFile
import WebBaseline.Proofs.Command.CacheLife
import WebBaseline.Proofs.Command.CachedCatalog
import WebBaseline.Proofs.Command.OfflineScan
import WebBaseline.Proofs.Decoding.Restoring
import WebBaseline.Proofs.Feature.Reading
import WebBaseline.Proofs.Files.Extending
import WebBaseline.Proofs.Files.Listing
import WebBaseline.Proofs.Files.Replacing
import WebBaseline.Proofs.Json.Members
import WebBaseline.Proofs.Json.Ordered
import WebBaseline.Proofs.Json.Restoring
import WebBaseline.Proofs.Json.RoundTrip
import WebBaseline.Proofs.Json.Scalars
import WebBaseline.Proofs.Json.Spacing
import WebBaseline.Proofs.Report.Reimport
import WebBaseline.Proofs.Scan.Appending
import WebBaseline.Proofs.Scan.Discovery
import WebBaseline.Proofs.Scan.Extension
import WebBaseline.Proofs.Scan.FileOrder
import WebBaseline.Proofs.Scan.FirstMatch
import WebBaseline.Proofs.Scan.FirstOccurrence
import WebBaseline.Proofs.Scan.IssueReading
import WebBaseline.Proofs.Scan.Names
import WebBaseline.Proofs.Scan.Percentage
import WebBaseline.Proofs.Scan.PrefixRun
import WebBaseline.Proofs.Scan.RecordUses
import WebBaseline.Proofs.Scan.Relevance
import WebBaseline.Proofs.Scan.Resolution
import WebBaseline.Proofs.Scan.ResultInvariant
import WebBaseline.Proofs.Scan.Soundness
import WebBaseline.Proofs.Scan.StyleQueries
import WebBaseline.Proofs.Scan.Uses
import WebBaseline.Proofs.Settings.Export
import WebBaseline.Proofs.Settings.Sections
import WebBaseline.Proofs.Store.Agreement
import WebBaseline.Proofs.Store.Frame
import WebBaseline.Proofs.Store.ReadBack
import WebBaseline.Proofs.SyntaxTree.Preorder
import WebBaseline.Proofs.Text.ByteOrder
import WebBaseline.Proofs.Text.Fragment
import WebBaseline.Proofs.Text.Slice
import WebBaseline.Proofs.Text.StableSort
import WebBaseline.Proofs.Yaml.Restoring
import WebBaseline.Report.Basic
import WebBaseline.Report.Diagnostic
import WebBaseline.Report.Markdown
import WebBaseline.Report.Terminal
import WebBaseline.Report.Timestamp
import WebBaseline.Scan.Index
import WebBaseline.Scan.Issue
import WebBaseline.Scan.Language
import WebBaseline.Scan.Location
import WebBaseline.Scan.Markup
import WebBaseline.Scan.NameTable
import WebBaseline.Scan.Parsers
import WebBaseline.Scan.Result
import WebBaseline.Scan.Run
import WebBaseline.Scan.Script
import WebBaseline.Scan.Style
import WebBaseline.Scan.Workspace
import WebBaseline.Script.Context
import WebBaseline.Script.Lexeme
import WebBaseline.Script.Name
import WebBaseline.Script.Reader
import WebBaseline.Script.Word
import WebBaseline.Settings.Basic
import WebBaseline.Settings.Decoding
import WebBaseline.Settings.Encoding
import WebBaseline.Settings.Loading
import WebBaseline.Store.Archive
import WebBaseline.Store.Backend
import WebBaseline.Store.Entry
import WebBaseline.Store.Memory
import WebBaseline.Store.Table
import WebBaseline.Stylesheet.Grammar
import WebBaseline.Stylesheet.Operator
import WebBaseline.SyntaxTree
import WebBaseline.Text.Blank
import WebBaseline.Text.Fragment
import WebBaseline.Text.Hex
import WebBaseline.Text.Invisible
import WebBaseline.Text.Padding
import WebBaseline.Text.Quoted
import WebBaseline.Text.Source
import WebBaseline.Yaml.Decoding
import WebBaseline.Yaml.Document
import WebBaseline.Yaml.Fault
import WebBaseline.Yaml.Node
import WebBaseline.Yaml.Plain
import WebBaseline.Yaml.Printer
import WebBaseline.Yaml.Scalar
import WebBaseline.Yaml.Scanner
import WebBaseline.Yaml.Token
import WebBaseline.Proofs.Scan.ScriptNames
import WebBaseline.Proofs.Scan.Openings
import WebBaseline.Proofs.SyntaxTree.Nesting
import WebBaseline.Proofs.Scan.DocumentOrder
import WebBaseline.Proofs.Scan.Score
import WebBaseline.Proofs.Scan.WordCounts
import WebBaseline.Proofs.Feature.Leniency
import WebBaseline.Proofs.Text.Blocks
import WebBaseline.Proofs.Text.Lines
import WebBaseline.Proofs.Text.Bars
import WebBaseline.Proofs.Report.Sections
import WebBaseline.Proofs.Report.TableRows
import WebBaseline.Proofs.Report.Grouping
import WebBaseline.Proofs.Catalog.Rows
import WebBaseline.Proofs.Catalog.Endings
import WebBaseline.Proofs.Catalog.Healing
import WebBaseline.Proofs.Catalog.StaleLabel
import WebBaseline.Proofs.Decoding.Giving
import WebBaseline.Proofs.Settings.Partial
import WebBaseline.Proofs.Settings.Environment
import WebBaseline.Proofs.Settings.Layers
import WebBaseline.Proofs.Settings.Acceptance
import WebBaseline.Proofs.Catalog.Spans
import WebBaseline.Proofs.Catalog.Backoff
import WebBaseline.Proofs.Report.EditorRange
import WebBaseline.Proofs.Scan.Languages
import WebBaseline.Proofs.Scan.Dispatch
import WebBaseline.Proofs.Scan.Progress
import WebBaseline.Proofs.Report.SummaryBox
import WebBaseline.Proofs.SyntaxTree.Traversal
