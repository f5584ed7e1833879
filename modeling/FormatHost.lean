import FormatHost.Bits
import FormatHost.Cli.ByteRange
import FormatHost.Cli.Commands
import FormatHost.Cli.Context
import FormatHost.Cli.Failure
import FormatHost.Cli.Invocation
import FormatHost.Cli.Program
import FormatHost.Cli.Usage
import FormatHost.Config.Discovery
import FormatHost.Config.File
import FormatHost.Config.Merge
import FormatHost.Config.Project
import FormatHost.Decimal.Nearest
import FormatHost.Decimal.Shortest
import FormatHost.Disk
import FormatHost.Document
import FormatHost.Edit
import FormatHost.EditorConfig
import FormatHost.Event
import FormatHost.Failure
import FormatHost.FormatFailure
import FormatHost.Formatter
import FormatHost.Glob.Match
import FormatHost.Glob.Pattern
import FormatHost.GlobalInstall
import FormatHost.Ignore.Cache
import FormatHost.Ignore.Rules
import FormatHost.Install
import FormatHost.Json.Decode
import FormatHost.Json.Numeral
import FormatHost.Json.Print
import FormatHost.Json.Source
import FormatHost.Json.Value
import FormatHost.Json5
import FormatHost.Main
import FormatHost.Message
import FormatHost.OptionFlags
import FormatHost.PackageManager
import FormatHost.Parser
import FormatHost.Path
import FormatHost.Process
import FormatHost.ProcessFormatter
import FormatHost.Proofs.Cli.Changes
import FormatHost.Proofs.Cli.Guesses
import FormatHost.Proofs.Cli.Ranges
import FormatHost.Proofs.Cli.Reports
import FormatHost.Proofs.Config.Coverage
import FormatHost.Proofs.Config.Layers
import FormatHost.Proofs.Config.Nearest
import FormatHost.Proofs.Config.Overrides
import FormatHost.Proofs.Config.Precedence
import FormatHost.Proofs.Config.Reading
import FormatHost.Proofs.Disk.Change
import FormatHost.Proofs.Disk.Normal
import FormatHost.Proofs.Disk.Reads
import FormatHost.Proofs.Disk.Writing
import FormatHost.Proofs.Document.Order
import FormatHost.Proofs.Document.Places
import FormatHost.Proofs.Document.Positions
import FormatHost.Proofs.Edit.LineBreaks
import FormatHost.Proofs.Edit.Minimality
import FormatHost.Proofs.Edit.Reconstruction
import FormatHost.Proofs.EditorConfig.LastValues
import FormatHost.Proofs.EditorConfig.Roots
import FormatHost.Proofs.Glob.Branches
import FormatHost.Proofs.Glob.Names
import FormatHost.Proofs.Glob.Taking
import FormatHost.Proofs.Glob.Wildcards
import FormatHost.Proofs.Ignore.Answers
import FormatHost.Proofs.Ignore.Files
import FormatHost.Proofs.Ignore.History
import FormatHost.Proofs.Ignore.Interleaving
import FormatHost.Proofs.Ignore.Lines
import FormatHost.Proofs.Ignore.Lookup
import FormatHost.Proofs.Ignore.Spelling
import FormatHost.Proofs.Json.Fields
import FormatHost.Proofs.Json.RoundTrip
import FormatHost.Proofs.Message
import FormatHost.Proofs.OptionFlags
import FormatHost.Proofs.OptionFlags.Decoding
import FormatHost.Proofs.Path.Ancestors
import FormatHost.Proofs.Path.Nesting
import FormatHost.Proofs.Registration
import FormatHost.Proofs.Registration.Agreement
import FormatHost.Proofs.Resolver.Cache
import FormatHost.Proofs.Resolver.Finding
import FormatHost.Proofs.Resolver.Interleaving
import FormatHost.Proofs.Resolver.Loading
import FormatHost.Proofs.Resolver.Nearest
import FormatHost.Proofs.Run
import FormatHost.Proofs.Search
import FormatHost.Proofs.Selector
import FormatHost.Proofs.Selector.Scores
import FormatHost.Proofs.Service.Calls
import FormatHost.Proofs.Service.Course
import FormatHost.Proofs.Service.Ensuring
import FormatHost.Proofs.Service.Gates
import FormatHost.Proofs.Service.Invalidation
import FormatHost.Proofs.Service.Listening
import FormatHost.Proofs.Service.Manifests
import FormatHost.Proofs.Service.Operations
import FormatHost.Proofs.Service.Options
import FormatHost.Proofs.Service.Origins
import FormatHost.Proofs.Service.Providing
import FormatHost.Proofs.Service.Readiness
import FormatHost.Proofs.Service.Registered
import FormatHost.Proofs.Service.Registering
import FormatHost.Proofs.Service.Renewal
import FormatHost.Proofs.Service.Repetition
import FormatHost.Proofs.Service.Sessions
import FormatHost.Proofs.Service.Watching
import FormatHost.Proofs.Settings
import FormatHost.Proofs.Table
import FormatHost.Proofs.Text
import FormatHost.Proofs.Uri.FilePath
import FormatHost.Proofs.Watch
import FormatHost.Proofs.Watch.Delivery
import FormatHost.Proofs.Workspace
import FormatHost.Registration
import FormatHost.Resolver
import FormatHost.Selector
import FormatHost.Service.Format
import FormatHost.Service.Provide
import FormatHost.Service.State
import FormatHost.Service.Watching
import FormatHost.Settings
import FormatHost.Settings.Decode
import FormatHost.Shell.Arithmetic
import FormatHost.Shell.Builtin
import FormatHost.Shell.LineEdit
import FormatHost.Shell.Pattern
import FormatHost.Shell.Regular
import FormatHost.Shell.Run
import FormatHost.Shell.Script
import FormatHost.Shell.Special
import FormatHost.Shell.State
import FormatHost.Shell.Tool
import FormatHost.Shell.Word
import FormatHost.Status
import FormatHost.Support
import FormatHost.Table
import FormatHost.Template
import FormatHost.Text
import FormatHost.Text.Category
import FormatHost.Text.Punycode
import FormatHost.Text.Utf8
import FormatHost.Toml.Document
import FormatHost.Toml.Scalar
import FormatHost.Uri
import FormatHost.Uri.Encoding
import FormatHost.Uri.Host
import FormatHost.Version
import FormatHost.Watch
import FormatHost.Wire
import FormatHost.Workspace
import FormatHost.Yaml.Cursor
import FormatHost.Yaml.Decode
import FormatHost.Yaml.Node
import FormatHost.Yaml.Scalar
import FormatHost.Yaml.Token
import FormatHost.Yaml.Value
