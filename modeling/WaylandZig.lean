import WaylandZig.Ascii
import WaylandZig.Builder
import WaylandZig.Bytes
import WaylandZig.Cli.Arguments
import WaylandZig.Cli.Flag
import WaylandZig.Cli.Run
import WaylandZig.Command.Cat
import WaylandZig.Command.Condition
import WaylandZig.Command.Files
import WaylandZig.Command.Grep
import WaylandZig.Command.Host
import WaylandZig.Command.Lines
import WaylandZig.Command.Mode
import WaylandZig.Command.Print
import WaylandZig.Command.Program
import WaylandZig.Command.Quoting
import WaylandZig.Command.Sed.Run
import WaylandZig.Command.Sed.Script
import WaylandZig.Command.Tools
import WaylandZig.Command.Tr
import WaylandZig.Config.Basic
import WaylandZig.Config.File
import WaylandZig.Config.Options
import WaylandZig.Diagnostic
import WaylandZig.Discovery
import WaylandZig.FileTree.Access
import WaylandZig.FileTree.Basic
import WaylandZig.Formatter
import WaylandZig.Generation
import WaylandZig.Loading
import WaylandZig.Log
import WaylandZig.Main
import WaylandZig.Path
import WaylandZig.Schema.Attributes
import WaylandZig.Schema.DocumentSet
import WaylandZig.Schema.EntryValue
import WaylandZig.Schema.Model
import WaylandZig.Schema.NameSpace
import WaylandZig.Schema.Reader
import WaylandZig.Shell.Arithmetic
import WaylandZig.Shell.Builtin.Basic
import WaylandZig.Shell.Builtin.Control
import WaylandZig.Shell.Builtin.Names
import WaylandZig.Shell.Builtin.Processes
import WaylandZig.Shell.Builtin.Table
import WaylandZig.Shell.Builtin.Variables
import WaylandZig.Shell.Expansion
import WaylandZig.Shell.Fields
import WaylandZig.Shell.Grammar
import WaylandZig.Shell.Invocation
import WaylandZig.Shell.Listing
import WaylandZig.Shell.OptionScan
import WaylandZig.Shell.Pattern
import WaylandZig.Shell.Process
import WaylandZig.Shell.Reader
import WaylandZig.Shell.Redirection
import WaylandZig.Shell.Run
import WaylandZig.Shell.Script
import WaylandZig.Shell.Signal
import WaylandZig.Shell.State
import WaylandZig.Sink.Basic
import WaylandZig.Sink.Directory
import WaylandZig.Sink.Memory
import WaylandZig.Sink.UnitPath
import WaylandZig.Text.Binary64
import WaylandZig.Text.ByteClass
import WaylandZig.Text.CaseFold
import WaylandZig.Text.EditDistance
import WaylandZig.Text.Lowercase
import WaylandZig.Text.Numeral
import WaylandZig.Text.Printable
import WaylandZig.Text.Quoted
import WaylandZig.Text.Regex
import WaylandZig.Text.Regex.Reader
import WaylandZig.Text.Space
import WaylandZig.Text.Utf8
import WaylandZig.Toml.DateTime
import WaylandZig.Toml.Document
import WaylandZig.Toml.Grammar
import WaylandZig.Toml.Literal
import WaylandZig.Toml.Numbers
import WaylandZig.Toml.Source
import WaylandZig.Toml.Strings
import WaylandZig.Version
import WaylandZig.Xml.CharacterData
import WaylandZig.Xml.Cursor
import WaylandZig.Xml.Fault
import WaylandZig.Xml.Name
import WaylandZig.Xml.Stream
import WaylandZig.Xml.Token
import WaylandZig.Zig.Bitfield
import WaylandZig.Zig.Declaration
import WaylandZig.Zig.DocumentUnit
import WaylandZig.Zig.Generator
import WaylandZig.Zig.Identifier
import WaylandZig.Zig.Reference
import WaylandZig.Zig.Settings
import WaylandZig.Zig.SharedUnits
import WaylandZig.Zig.TypeMap
import WaylandZig.Zig.Writer
import WaylandZig.Proofs.Fallible
import WaylandZig.Proofs.Zig.Generator
import WaylandZig.Proofs.Zig.DocumentUnit
import WaylandZig.Proofs.Schema.Collisions
import WaylandZig.Proofs.Schema.ElementTree
import WaylandZig.Proofs.Schema.Reader
import WaylandZig.Proofs.Schema.Streaming
import WaylandZig.Proofs.Xml.WellNested
import WaylandZig.Proofs.Zig.WireOrder
import WaylandZig.Proofs.Sink.UnitPath
import WaylandZig.Proofs.Text.Lines
import WaylandZig.Proofs.Text.Numeral
import WaylandZig.Proofs.Zig.Bitfield
import WaylandZig.Proofs.Zig.Identifier
import WaylandZig.Proofs.Zig.LoadOrder
import WaylandZig.Proofs.Zig.MemorySink
import WaylandZig.Proofs.Zig.Reference
import WaylandZig.Proofs.Zig.SharedUnits
import WaylandZig.Proofs.Zig.Imports
import WaylandZig.Proofs.Zig.UnitImports
import WaylandZig.Proofs.Zig.Emission
import WaylandZig.Proofs.Zig.References
import WaylandZig.Proofs.Zig.Templates
import WaylandZig.Proofs.Zig.UnitLines
import WaylandZig.Proofs.Zig.IndexTables
import WaylandZig.Proofs.Schema.NameSpace
import WaylandZig.Proofs.Zig.Qualification
import WaylandZig.Proofs.Zig.DeclaredNames
import WaylandZig.Proofs.Zig.IndexNames
import WaylandZig.Proofs.Zig.Capture
import WaylandZig.Proofs.Zig.MemberNames
import WaylandZig.Proofs.Zig.SkippedInterfaces
import WaylandZig.Proofs.FileTree
import WaylandZig.Proofs.Sink.Directory
import WaylandZig.Proofs.Zig.DirectoryUnits
import WaylandZig.Proofs.Generation.DryRun
import WaylandZig.Proofs.Text.Order
import WaylandZig.Proofs.FileTree.Growth
import WaylandZig.Proofs.Discovery
import WaylandZig.Proofs.Generation.Regeneration
import WaylandZig.Proofs.Config.ValidSettings
import WaylandZig.Proofs.Zig.PackedLayout
import WaylandZig.Proofs.Sink.Containment
import WaylandZig.Proofs.Generation.Cancellation
import WaylandZig.Proofs.Search
import WaylandZig.Proofs.Zig.Lookup
import WaylandZig.Proofs.Zig.FieldNames
import WaylandZig.Proofs.Zig.Acceptance
import WaylandZig.Proofs.FileTree.Spot
import WaylandZig.Proofs.Discovery.Coverage
import WaylandZig.Proofs.Sink.Atomicity
import WaylandZig.Proofs.Zig.QualifiedNames
import WaylandZig.Proofs.Loading
import WaylandZig.Proofs.Toml.Table
import WaylandZig.Proofs.Toml.Assembly
import WaylandZig.Proofs.Config.FileKeys
import WaylandZig.Proofs.Sink.Resolution
import WaylandZig.Proofs.Text.Utf8
import WaylandZig.Proofs.Text.Space
import WaylandZig.Proofs.Schema.EntryValue
import WaylandZig.Proofs.Zig.EnumLiterals
import WaylandZig.Proofs.Zig.Scaffolding
