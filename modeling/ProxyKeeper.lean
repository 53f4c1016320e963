import ProxyKeeper.Cli.Execution
import ProxyKeeper.Cli.Grammar
import ProxyKeeper.Cli.Invocation
import ProxyKeeper.Cli.Report
import ProxyKeeper.Cli.Style
import ProxyKeeper.Controller.Basic
import ProxyKeeper.Controller.Script
import ProxyKeeper.Controller.Task
import ProxyKeeper.Controller.Timeline
import ProxyKeeper.Controller.Turns
import ProxyKeeper.Decode
import ProxyKeeper.Error
import ProxyKeeper.Files.Call
import ProxyKeeper.Files.Edit
import ProxyKeeper.Files.Fault
import ProxyKeeper.Files.Path
import ProxyKeeper.Files.Tree
import ProxyKeeper.Host.Basic
import ProxyKeeper.Host.Command
import ProxyKeeper.Host.Machine
import ProxyKeeper.Host.Token
import ProxyKeeper.Host.Utility
import ProxyKeeper.Json.Basic
import ProxyKeeper.Json.Printer
import ProxyKeeper.Json.Reader
import ProxyKeeper.Libraries
import ProxyKeeper.Main
import ProxyKeeper.Manager
import ProxyKeeper.Metrics
import ProxyKeeper.Nginx.Call
import ProxyKeeper.Nginx.Document
import ProxyKeeper.Nginx.Lexer
import ProxyKeeper.Nginx.Output
import ProxyKeeper.Nginx.Reader
import ProxyKeeper.Nginx.SemanticVersion
import ProxyKeeper.Nginx.Version
import ProxyKeeper.Nginx.Word
import ProxyKeeper.Phase
import ProxyKeeper.Program
import ProxyKeeper.Readers
import ProxyKeeper.Rule.Basic
import ProxyKeeper.Rule.Codec
import ProxyKeeper.Rule.HeaderMap
import ProxyKeeper.Rule.Loading
import ProxyKeeper.Rule.Rendering
import ProxyKeeper.Rule.Timestamp
import ProxyKeeper.Rule.Validity
import ProxyKeeper.Settings.Basic
import ProxyKeeper.Settings.Check
import ProxyKeeper.Settings.Codec
import ProxyKeeper.Settings.Environment
import ProxyKeeper.Settings.Loading
import ProxyKeeper.Store.Basic
import ProxyKeeper.Store.Names
import ProxyKeeper.Store.Template
import ProxyKeeper.Text.Blank
import ProxyKeeper.Text.Decimal
import ProxyKeeper.Text.Replace
import ProxyKeeper.Text.Utf8
import ProxyKeeper.Text.Uuid
import ProxyKeeper.Toml.Basic
import ProxyKeeper.Toml.Printer
import ProxyKeeper.Toml.Reader
import ProxyKeeper.Toml.Scalar
import ProxyKeeper.Toml.Table
import ProxyKeeper.Toml.Text
import ProxyKeeper.World
import ProxyKeeper.Proofs.Nginx.Quoting
import ProxyKeeper.Proofs.Nginx.ReadBack
import ProxyKeeper.Proofs.Rule.FreeText
import ProxyKeeper.Proofs.Rule.ReadBack
import ProxyKeeper.Proofs.Program.Terms
import ProxyKeeper.Proofs.Store.Requests
import ProxyKeeper.Proofs.Controller.Stage
import ProxyKeeper.Proofs.Controller.Moves
import ProxyKeeper.Proofs.Controller.TestedReload
import ProxyKeeper.Proofs.Files.Entries
import ProxyKeeper.Proofs.Files.Paths
import ProxyKeeper.Proofs.Files.Walks
import ProxyKeeper.Proofs.Files.Calls
import ProxyKeeper.Proofs.Store.FileNames
import ProxyKeeper.Proofs.Store.Site
import ProxyKeeper.Proofs.Store.Shelf
import ProxyKeeper.Proofs.Store.Effects
import ProxyKeeper.Proofs.Controller.RollBack
import ProxyKeeper.Proofs.Controller.Desired
import ProxyKeeper.Proofs.Controller.AllOrNothing
import ProxyKeeper.Proofs.Controller.Removal
import ProxyKeeper.Proofs.Controller.Restored
import ProxyKeeper.Proofs.Controller.Unchanged
import ProxyKeeper.Proofs.Controller.InForce
import ProxyKeeper.Proofs.Controller.RuleMap
import ProxyKeeper.Proofs.Files.Contents
import ProxyKeeper.Proofs.Files.Targets
import ProxyKeeper.Proofs.Store.Founding
import ProxyKeeper.Proofs.Controller.Phases
import ProxyKeeper.Proofs.Controller.Requests
import ProxyKeeper.Proofs.Controller.MainConfig
import ProxyKeeper.Proofs.Program.Outcomes
import ProxyKeeper.Proofs.Controller.Serial
import ProxyKeeper.Proofs.Nginx.Directives
import ProxyKeeper.Proofs.Rule.References
import ProxyKeeper.Proofs.Nginx.Printed
import ProxyKeeper.Proofs.Nginx.Parts
import ProxyKeeper.Proofs.Rule.Content
import ProxyKeeper.Proofs.Rule.Words
import ProxyKeeper.Proofs.Rule.Lines
import ProxyKeeper.Proofs.Rule.SameText
import ProxyKeeper.Proofs.Nginx.Contexts
import ProxyKeeper.Proofs.Rule.Valid
import ProxyKeeper.Proofs.Rule.Contexts
import ProxyKeeper.Proofs.Controller.Failures
import ProxyKeeper.Proofs.Rule.Compiled
import ProxyKeeper.Proofs.Store.Vacant
import ProxyKeeper.Proofs.Controller.Refused
import ProxyKeeper.Proofs.Controller.Requested
import ProxyKeeper.Proofs.Controller.Holder
import ProxyKeeper.Proofs.Controller.Dropped
import ProxyKeeper.Proofs.Controller.Facts
import ProxyKeeper.Proofs.Controller.Course
import ProxyKeeper.Proofs.Metrics.Values
import ProxyKeeper.Proofs.Controller.Counts
import ProxyKeeper.Proofs.Rule.Legible
import ProxyKeeper.Proofs.Nginx.Bare
import ProxyKeeper.Proofs.Nginx.Zones
import ProxyKeeper.Proofs.Store.Template
import ProxyKeeper.Proofs.Store.MainDocument
import ProxyKeeper.Proofs.Store.Includes
import ProxyKeeper.Proofs.Rule.Zones
import ProxyKeeper.Proofs.Program.Endings
import ProxyKeeper.Proofs.Rule.Loaded
import ProxyKeeper.Proofs.Store.Written
import ProxyKeeper.Proofs.Controller.Applied
import ProxyKeeper.Proofs.Files.Growth
import ProxyKeeper.Proofs.Store.History
import ProxyKeeper.Proofs.Store.Readings
import ProxyKeeper.Proofs.Store.Held
import ProxyKeeper.Proofs.Store.Changes
import ProxyKeeper.Proofs.Store.Crash
import ProxyKeeper.Proofs.Store.Operations
import ProxyKeeper.Proofs.Store.AsMap
import ProxyKeeper.Proofs.Program.Invariants
import ProxyKeeper.Proofs.Store.Calls
import ProxyKeeper.Proofs.Files.Differences
import ProxyKeeper.Proofs.Store.Confined
import ProxyKeeper.Proofs.Controller.Confined
import ProxyKeeper.Proofs.Controller.InStep
import ProxyKeeper.Proofs.Controller.Due
import ProxyKeeper.Proofs.Controller.Report
import ProxyKeeper.Proofs.Decode
import ProxyKeeper.Proofs.Rule.Records
import ProxyKeeper.Proofs.Rule.Forms
import ProxyKeeper.Proofs.Rule.Specified
import ProxyKeeper.Proofs.Rule.Faults
import ProxyKeeper.Proofs.Settings.Precedence
import ProxyKeeper.Proofs.Program.Enumeration
import ProxyKeeper.Proofs.Controller.Enumeration
import ProxyKeeper.Proofs.Rule.Directory
import ProxyKeeper.Proofs.Controller.Directory
import ProxyKeeper.Proofs.Cli.Preview
import ProxyKeeper.Proofs.Text.Numerals
import ProxyKeeper.Proofs.Text.Words
import ProxyKeeper.Proofs.Nginx.Version
import ProxyKeeper.Proofs.Nginx.SemanticVersion
import ProxyKeeper.Proofs.Store.Substitution
import ProxyKeeper.Proofs.Nginx.Layout
import ProxyKeeper.Proofs.AllBut
import ProxyKeeper.Proofs.Rule.Harmless
import ProxyKeeper.Proofs.Rule.Drawn
import ProxyKeeper.Proofs.Rule.Unbroken
import ProxyKeeper.Proofs.Nginx.Numbers
import ProxyKeeper.Proofs.Rule.Numbers
import ProxyKeeper.Proofs.Files.Making
import ProxyKeeper.Proofs.Store.Firm
import ProxyKeeper.Proofs.Store.Frail
import ProxyKeeper.Proofs.Controller.Attempts
import ProxyKeeper.Proofs.Host.Frame
import ProxyKeeper.Proofs.Host.Words
import ProxyKeeper.Proofs.Host.Reading
import ProxyKeeper.Proofs.Host.Utilities
