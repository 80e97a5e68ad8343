import Stencil.Text.Basic
import Stencil.Text.Blank
import Stencil.Text.Hidden
import Stencil.Text.Letter
import Stencil.Text.Width
import Stencil.Text.CaseTable
import Stencil.Text.Casing
import Stencil.Text.Quoted
import Stencil.Text.Utf8
import Stencil.Text.Base64
import Stencil.Number.Binary64
import Stencil.Number.Decimal
import Stencil.Number.Spelled
import Stencil.Value.Calendar
import Stencil.Value.Scalar
import Stencil.Value.Basic
import Stencil.Json.Reader
import Stencil.Json.Writer
import Stencil.Naming
import Stencil.Template.Token
import Stencil.Template.Token.Scan
import Stencil.Template.Syntax
import Stencil.Template.Syntax.Parse
import Stencil.Template.Syntax.Check
import Stencil.Template.Object
import Stencil.Template.Operator
import Stencil.Template.Method
import Stencil.Template.Signature
import Stencil.Template.Condition
import Stencil.Template.Filter
import Stencil.Template.Render
import Stencil.Directive
import Stencil.Schema.Issue
import Stencil.Schema.Numeral
import Stencil.Schema.Checked
import Stencil.Manifest.VariableSchema
import Stencil.Manifest.Entry
import Stencil.Manifest.Basic
import Stencil.FilePath
import Stencil.Outcome
import Stencil.Request
import Stencil.Settings
import Stencil.Catalogue.Boilerplate
import Stencil.Yaml.Fault
import Stencil.Yaml.Cursor
import Stencil.Yaml.Token
import Stencil.Yaml.Token.Scalar
import Stencil.Yaml.Token.Property
import Stencil.Yaml.Token.Scan
import Stencil.Yaml.Timestamp
import Stencil.Yaml.Tag
import Stencil.Yaml.Node
import Stencil.Yaml.Reader
import Stencil.CommandLine.Assignment
import Stencil.Console.Lines
import Stencil.Console.Markup
import Stencil.Console.Table
import Stencil.Failure
import Stencil.FileTree.Basic
import Stencil.FileTree.Cause
import Stencil.FileTree.Walk
import Stencil.Generator.Program
import Stencil.Journal
import Stencil.Placement.Basic
import Stencil.Placement.Filling
import Stencil.Session.Basic
import Stencil.Session.Copy
import Stencil.Session.Files
import Stencil.Session.Rendering
import Stencil.Session.Storage
import Stencil.Library.Basic
import Stencil.Library.Manifests
import Stencil.Library.Templates
import Stencil.Generator.Lookup
import Stencil.Generator.Run
import Stencil.Scaffold.Basic
import Stencil.Scaffold.Entry
import Stencil.Keyed
import Stencil.Project
import Stencil.Session.DataFiles
import Stencil.Workspace
import Stencil.Catalogue.Creation
import Stencil.Catalogue.Features
import Stencil.Catalogue.Listing
import Stencil.Session.Tables
import Stencil.CommandLine.Grammar
import Stencil.CommandLine.Reading
import Stencil.CommandLine.Invocation
import Stencil.CommandLine.Run
import Stencil.Main
import Stencil.Proofs.Results
import Stencil.Proofs.FileTree.WellFormed
import Stencil.Proofs.Session.Ends
import Stencil.Proofs.FilePath
import Stencil.Proofs.FileTree.Growth
import Stencil.Proofs.FileTree.Walk
import Stencil.Proofs.Console.Markup
import Stencil.Proofs.Session.Frame
import Stencil.Proofs.FileTree.Locate
import Stencil.Proofs.FileTree.Region
import Stencil.Proofs.Session.Files
import Stencil.Proofs.Session.Changes
import Stencil.Proofs.FileTree.Source
import Stencil.Proofs.Session.Copy
import Stencil.Proofs.Placement.Filling
import Stencil.Proofs.FileTree.Listing
import Stencil.Proofs.Placement.Recording
import Stencil.Proofs.Placement.Placing
import Stencil.Proofs.FileTree.Follow
import Stencil.Proofs.Scaffold.Preparation
import Stencil.Proofs.Scaffold.Visits
import Stencil.Proofs.Scaffold.Created
import Stencil.Proofs.Scaffold.Rendered
import Stencil.Proofs.Scaffold.Repeated
import Stencil.Proofs.FileTree.Inside
import Stencil.Proofs.Placement.Gains
import Stencil.Proofs.Scaffold.Contained
import Stencil.Proofs.Scaffold.Failing
import Stencil.Proofs.Scaffold.Arrived
import Stencil.Proofs.Session.Fresh
import Stencil.Proofs.Catalogue.Ordering
import Stencil.Proofs.Project
import Stencil.Proofs.Schema.Checked
import Stencil.Proofs.Catalogue.Making
import Stencil.Proofs.Scaffold.Sourced
import Stencil.Proofs.Catalogue.Applied
import Stencil.Proofs.Catalogue.Finding
import Stencil.Proofs.Scaffold.Preserved
import Stencil.Proofs.Session.Work
import Stencil.Proofs.Library.Work
import Stencil.Proofs.Library.History
import Stencil.Proofs.Catalogue.Memory
import Stencil.Proofs.Scaffold.Shown
import Stencil.Proofs.CommandLine.Escaping
import Stencil.Proofs.CommandLine.Ending
import Stencil.Proofs.FileTree.Unlinked
import Stencil.Proofs.Session.Ensuring
import Stencil.Proofs.Session.Carrying
import Stencil.Proofs.Session.Alike
import Stencil.Proofs.Placement.Alike
import Stencil.Proofs.Placement.Approach
import Stencil.Proofs.Scaffold.Independent
import Stencil.Proofs.Scaffold.Merging
import Stencil.Proofs.Scaffold.Commuting
import Stencil.Proofs.Placement.Unrendered
import Stencil.Proofs.Placement.Ways
import Stencil.Proofs.Placement.Local
import Stencil.Proofs.Template.Unmarked
import Stencil.Proofs.Manifest.Resolution
import Stencil.Proofs.Schema.Truth
import Stencil.Proofs.Manifest.Declared
import Stencil.Proofs.FileTree.RealPlace
import Stencil.Proofs.Library.Checking
import Stencil.Proofs.Library.Searching
import Stencil.Proofs.Directive.Conditions
import Stencil.Proofs.Directive.Written
import Stencil.Proofs.Text.Digits
import Stencil.Proofs.Number.Rounding
import Stencil.Proofs.Number.Decimal
import Stencil.Proofs.Json.Tokens
import Stencil.Proofs.Json.Documents
import Stencil.Proofs.Json.Data
import Stencil.Proofs.Session.DataFiles
import Stencil.Proofs.Session.Stored
import Stencil.Proofs.FileTree.Absolute
import Stencil.Proofs.Project.Recorded
import Stencil.Proofs.Project.Named
import Stencil.Proofs.Workspace
import Stencil.Proofs.Catalogue.Unrecorded
import Stencil.Proofs.Scaffold.Warned
import Stencil.Proofs.Text.CaseTable
import Stencil.Proofs.Text.Casing
import Stencil.Proofs.Naming.Settling
import Stencil.Proofs.Naming.Words
import Stencil.Proofs.Naming.Plurals
import Stencil.Proofs.Manifest.Sections
import Stencil.Proofs.Text.Splitting
import Stencil.Proofs.Yaml.Cursors
import Stencil.Proofs.Yaml.Scanning
import Stencil.Proofs.Yaml.Spelling
import Stencil.Proofs.Yaml.Untagged
import Stencil.Proofs.CommandLine.Assigning
