import Depot.Artifact
import Depot.Binary64.Basic
import Depot.Binary64.Fixed
import Depot.Binary64.Reader
import Depot.Binary64.Shortest
import Depot.Condition.Basic
import Depot.Condition.Reader
import Depot.Coordinate.Basic
import Depot.Coordinate.Fields
import Depot.Coordinate.Grammar
import Depot.Coordinate.Markup
import Depot.Coordinate.Order
import Depot.Coordinate.Reduced
import Depot.Decimal.Basic
import Depot.Decimal.Printer
import Depot.Decimal.Reader
import Depot.Depmap.Basic
import Depot.Depmap.Document
import Depot.Dictionary
import Depot.Failure
import Depot.FileTree.Basic
import Depot.FileTree.Canonical
import Depot.FileTree.Edit
import Depot.Fragment.Basic
import Depot.Fragment.Merge
import Depot.Fragment.Reader
import Depot.Gzip.Archive
import Depot.Gzip.Checksum
import Depot.Gzip.Huffman
import Depot.Gzip.Inflate
import Depot.Json.Basic
import Depot.Json.Reader
import Depot.Json.Writer
import Depot.Logging.Configuration
import Depot.Logging.Fault
import Depot.Logging.Instant
import Depot.Logging.Line
import Depot.Logging.Message
import Depot.Logging.Spelling
import Depot.Metadata.Basic
import Depot.Metadata.Load
import Depot.Metadata.Reader
import Depot.OnceCache.Basic
import Depot.OnceCache.Memo
import Depot.OnceCache.Scenario
import Depot.OrderedSet
import Depot.Path
import Depot.Repository.Basic
import Depot.Repository.Configure
import Depot.Repository.Definition
import Depot.Repository.Layout
import Depot.Repository.Resolve
import Depot.Resolver.BuildDocument
import Depot.Resolver.Chain
import Depot.Service.Loader
import Depot.Service.Memory
import Depot.Service.Tools
import Depot.Service.Tree
import Depot.Settings.Basic
import Depot.Settings.Environment
import Depot.Settings.Reader
import Depot.Text.Blank
import Depot.Text.Capital
import Depot.Text.Digit
import Depot.Text.Printable
import Depot.Text.Quoted
import Depot.Text.Split
import Depot.Text.Utf8
import Depot.Validation
import Depot.VersionFloor
import Depot.Xml.Character
import Depot.Xml.Charset.Basic
import Depot.Xml.Charset.Table
import Depot.Xml.Content
import Depot.Xml.Declaration
import Depot.Xml.Doctype
import Depot.Xml.Document
import Depot.Xml.Name
import Depot.Xml.Refusal
import Depot.Xml.Token
import Depot.Xml.Tree
import Depot.Xml.Writer
import Depot.Proofs.OnceCache.Step
import Depot.Proofs.Decimal.Order
import Depot.Proofs.Decimal.ReadBack
import Depot.Proofs.Depmap.Reachable
import Depot.Proofs.Depmap.ReadBack
import Depot.Proofs.FileTree.NullCharacter
import Depot.Proofs.Fragment.Merging
import Depot.Proofs.OnceCache.Scenario
import Depot.Proofs.OnceCache.Agreement
import Depot.Proofs.Repository.Simulation
import Depot.Proofs.Service.History
import Depot.Proofs.Repository.Probes
import Depot.Proofs.Repository.Shape
import Depot.Proofs.Repository.Unfolding
import Depot.Proofs.Coordinate.Order
import Depot.Proofs.Depmap.Entries
import Depot.Proofs.Depmap.Table
import Depot.Proofs.Decimal.Value
import Depot.Proofs.Depmap.Listing
import Depot.Proofs.Depmap.Insertion
import Depot.Proofs.Repository.Arrival
import Depot.Proofs.Outcome
import Depot.Proofs.Repository.Supply
import Depot.Proofs.Repository.Anchoring
import Depot.Proofs.Path.Written
import Depot.Proofs.FileTree.LongNames
import Depot.Proofs.Metadata.Loading
import Depot.Proofs.Service.Replay
import Depot.Proofs.Resolver.DefaultChain
import Depot.Proofs.Resolver.InstalledPath
import Depot.Proofs.Path.Cleaning
import Depot.Proofs.Repository.BelowRoot
import Depot.Proofs.Logging.StandardOutput
import Depot.Proofs.Condition.Grammar
import Depot.Proofs.Xml.Output
import Depot.Proofs.Xml.Refused
import Depot.Proofs.Resolver.BuildRecords
import Depot.Proofs.Coordinate.Fields
import Depot.Proofs.Decimal.Grammar
import Depot.Proofs.Fragment.Grammar
import Depot.Proofs.Metadata.Index
import Depot.Proofs.Metadata.Compatibility
import Depot.Proofs.Coordinate.Written
import Depot.Proofs.Depmap.Optimizing
import Depot.Proofs.OnceCache.Failure
import Depot.Proofs.OnceCache.Projection
import Depot.Proofs.Coordinate.Grammar
import Depot.Proofs.Repository.Lineage
import Depot.Proofs.Repository.Namespace
import Depot.Proofs.Resolver.RecordedPath
import Depot.Proofs.Resolver.Rewriting
import Depot.Proofs.Condition.Algebra
import Depot.Proofs.Condition.Readings
import Depot.Proofs.Depmap.Heap
import Depot.Proofs.Depmap.Separation
import Depot.Proofs.Depmap.Following
import Depot.Proofs.Depmap.Merging
import Depot.Proofs.Depmap.Publishing
import Depot.Proofs.Depmap.Floors
import Depot.Proofs.Fragment.Concatenation
import Depot.Proofs.Logging.LastCall
import Depot.Proofs.Logging.JsonLine
import Depot.Proofs.Repository.Definitions
import Depot.Proofs.Decimal.Spelling
import Depot.Proofs.Coordinate.NormalForm
