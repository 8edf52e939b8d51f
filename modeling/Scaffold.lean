import Scaffold.Artifact
import Scaffold.Build
import Scaffold.Command
import Scaffold.Command.Arguments
import Scaffold.Corpus
import Scaffold.Diagnostics.Event
import Scaffold.Diagnostics.Level
import Scaffold.Diagnostics.Sink
import Scaffold.Document
import Scaffold.Entity
import Scaffold.Entity.Artifact
import Scaffold.Entity.Plan
import Scaffold.Failure
import Scaffold.Files.Path
import Scaffold.Files.System
import Scaffold.Generation
import Scaffold.Handler
import Scaffold.Handler.Artifact
import Scaffold.Handler.Check
import Scaffold.Host
import Scaffold.Json.Reader
import Scaffold.Layout.Attribute
import Scaffold.Layout.Basic
import Scaffold.Layout.Doc
import Scaffold.Layout.Expr
import Scaffold.Layout.File
import Scaffold.Layout.Item
import Scaffold.Layout.Path
import Scaffold.Layout.Pattern
import Scaffold.Layout.Tokens
import Scaffold.Layout.Type
import Scaffold.Main
import Scaffold.Manifest
import Scaffold.Mapping
import Scaffold.Mapping.Artifact
import Scaffold.Mapping.Plan
import Scaffold.Naming
import Scaffold.Pairing
import Scaffold.Problem
import Scaffold.Project
import Scaffold.Proofs.Generation
import Scaffold.Proofs.Handler.Declaration
import Scaffold.Proofs.Mapping.Code
import Scaffold.Proofs.Mapping.Plan
import Scaffold.Proofs.Mapping.Registration
import Scaffold.Proofs.Naming
import Scaffold.Proofs.Resolve
import Scaffold.Proofs.Skipping
import Scaffold.Proofs.Source.Agreement
import Scaffold.Proofs.Source.Canonical
import Scaffold.Proofs.Source.Facts
import Scaffold.Proofs.Source.Filled
import Scaffold.Proofs.Source.Import
import Scaffold.Proofs.Source.Lookup
import Scaffold.Proofs.Source.Members
import Scaffold.Proofs.Source.Names
import Scaffold.Proofs.Source.Table
import Scaffold.Proofs.Source.TypePath
import Scaffold.Proofs.Source.TypeText
import Scaffold.Proofs.Spelling
import Scaffold.Proofs.Stopping
import Scaffold.Proofs.Syntax.Formed
import Scaffold.Proofs.Syntax.Formed.Expr
import Scaffold.Proofs.Syntax.Formed.Item
import Scaffold.Proofs.Syntax.Formed.Path
import Scaffold.Proofs.Syntax.Formed.Pattern
import Scaffold.Proofs.Syntax.Formed.Statement
import Scaffold.Proofs.Syntax.Formed.Type
import Scaffold.Proofs.Syntax.Lexing
import Scaffold.Proofs.Syntax.Names
import Scaffold.Proofs.Syntax.PlainPath
import Scaffold.Proofs.Text.CharClass
import Scaffold.Proofs.Text.Segments
import Scaffold.Proofs.UnitRuns
import Scaffold.Registry
import Scaffold.Resolve
import Scaffold.Sample.Controllers
import Scaffold.Sample.Handlers
import Scaffold.Sample.Mappings
import Scaffold.Sample.Repositories
import Scaffold.Scan
import Scaffold.Schema
import Scaffold.Services
import Scaffold.Settings
import Scaffold.Settings.Document
import Scaffold.Source.Canonical
import Scaffold.Source.Directory
import Scaffold.Source.Facts
import Scaffold.Source.ModulePath
import Scaffold.Source.Symbols
import Scaffold.Source.Tree
import Scaffold.Source.TypeText
import Scaffold.Source.UseTree
import Scaffold.Store
import Scaffold.Store.Call
import Scaffold.Store.Controller
import Scaffold.Syntax.Grammar.Basic
import Scaffold.Syntax.Grammar.Entry
import Scaffold.Syntax.Grammar.Expr
import Scaffold.Syntax.Grammar.Item
import Scaffold.Syntax.Grammar.Path
import Scaffold.Syntax.Grammar.Pattern
import Scaffold.Syntax.Grammar.Statement
import Scaffold.Syntax.Grammar.Type
import Scaffold.Syntax.Grouping
import Scaffold.Syntax.Ident
import Scaffold.Syntax.Keyword
import Scaffold.Syntax.Lexer
import Scaffold.Syntax.Node
import Scaffold.Syntax.Precedence
import Scaffold.Syntax.Printer
import Scaffold.Syntax.Token
import Scaffold.Template
import Scaffold.Text.CharClass
import Scaffold.Text.CharTable
import Scaffold.Text.Lowercase
import Scaffold.Text.Numeral
import Scaffold.Text.Quoted
import Scaffold.Text.Segments
import Scaffold.Text.Unquoted
import Scaffold.Toml.Reader
import Scaffold.Toml.Scalar
import Scaffold.Toml.Table
import Scaffold.Watched
import Scaffold.Workspace
import Scaffold.Writing
import Scaffold.Proofs.Source.Generation
import Scaffold.Proofs.Failure
import Scaffold.Proofs.Mapping.Placing
import Scaffold.Proofs.ArtifactId
import Scaffold.Proofs.Rendering
import Scaffold.Proofs.Store
import Scaffold.Proofs.Source.Standing
import Scaffold.Proofs.Source.Reading
import Scaffold.Proofs.Source.Handlers
import Scaffold.Proofs.Source.Occurrence
import Scaffold.Proofs.Source.Declarations
import Scaffold.Proofs.Source.Calls
import Scaffold.Proofs.Source.FileOrder
import Scaffold.Proofs.Source.Reexport
import Scaffold.Proofs.Source.Absolute
import Scaffold.Proofs.Source.CanonicalForm
import Scaffold.Proofs.Files.Path
import Scaffold.Proofs.Files.System
import Scaffold.Proofs.Files.Named
import Scaffold.Proofs.Source.Directory
import Scaffold.Proofs.Earlier
import Scaffold.Proofs.Effect
import Scaffold.Proofs.Writing
import Scaffold.Proofs.Written
import Scaffold.Proofs.Command.Arguments
import Scaffold.Proofs.Project
import Scaffold.Proofs.Command.Effect
import Scaffold.Proofs.Command.Agreement
import Scaffold.Proofs.Files.Detour
import Scaffold.Proofs.Pairing
import Scaffold.Proofs.Source.Attaching
import Scaffold.Proofs.Source.Receiver
import Scaffold.Proofs.Naming.SnakeCase
import Scaffold.Proofs.Mapping.Methods
import Scaffold.Proofs.Naming.Words
import Scaffold.Proofs.Entity.Faults
import Scaffold.Proofs.Mapping.Namespace
import Scaffold.Proofs.Files.Tree
import Scaffold.Proofs.Source.Walk
import Scaffold.Source.Context
import Scaffold.Proofs.Source.ModulePath
import Scaffold.Proofs.Source.Context
import Scaffold.Proofs.Settings.Document
import Scaffold.Proofs.Build
import Scaffold.Proofs.Registry
import Scaffold.Proofs.Source.UseTree
import Scaffold.Proofs.Diagnostics.Channel
import Scaffold.Proofs.Watched
import Scaffold.Proofs.Syntax.Reads
import Scaffold.Proofs.Syntax.PlainType
import Scaffold.Proofs.Syntax.Reads.Path
import Scaffold.Proofs.Syntax.Reads.Bound
import Scaffold.Proofs.Syntax.Reads.Type
import Scaffold.Proofs.Syntax.ReadBack
import Scaffold.Proofs.Source.RoundTrip
