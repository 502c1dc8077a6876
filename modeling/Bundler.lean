import Bundler.Calendar.Date
import Bundler.CommandLine.Arguments
import Bundler.CommandLine.Run
import Bundler.CommandLine.Shell
import Bundler.CommandLine.Usage
import Bundler.Compile.Entries
import Bundler.Compile.Requests
import Bundler.Compile.Within
import Bundler.Compile.Work
import Bundler.Config.Basic
import Bundler.Config.Load
import Bundler.Dual
import Bundler.Element
import Bundler.Element.Emit
import Bundler.Entry
import Bundler.Entry.Placement
import Bundler.Failure
import Bundler.FileTree.Basic
import Bundler.FileTree.Workspace
import Bundler.InOrder
import Bundler.Load.Basic
import Bundler.Load.Scripted
import Bundler.Load.Source
import Bundler.Log.Basic
import Bundler.Log.Journal
import Bundler.Log.Layout
import Bundler.Log.Level
import Bundler.Log.Record
import Bundler.Log.Setup
import Bundler.Log.Sink
import Bundler.Main
import Bundler.ModuleName
import Bundler.Note
import Bundler.Number.Arithmetic
import Bundler.Number.Binary64
import Bundler.Number.Places
import Bundler.Number.Read
import Bundler.Number.Round
import Bundler.Number.Shortest
import Bundler.Options
import Bundler.Path.Basic
import Bundler.Path.Relative
import Bundler.Path.Resolve
import Bundler.Project
import Bundler.Proofs.AbandonedLoads
import Bundler.Proofs.AbsoluteNames
import Bundler.Proofs.Adds
import Bundler.Proofs.AllOrNothing
import Bundler.Proofs.AnchoredRequests
import Bundler.Proofs.CanonicalNames
import Bundler.Proofs.Changes
import Bundler.Proofs.ClearWays
import Bundler.Proofs.Closure
import Bundler.Proofs.CommandFailures
import Bundler.Proofs.ConfigOverlays
import Bundler.Proofs.ConfigViews
import Bundler.Proofs.Counterparts
import Bundler.Proofs.Dependencies
import Bundler.Proofs.DependencyLists
import Bundler.Proofs.DirectoryTexts
import Bundler.Proofs.EntryCounterparts
import Bundler.Proofs.EntryFiles
import Bundler.Proofs.EntryLoading
import Bundler.Proofs.EntryOrder
import Bundler.Proofs.Evaluations
import Bundler.Proofs.FailedLoads
import Bundler.Proofs.FanOut
import Bundler.Proofs.FilesOfNames
import Bundler.Proofs.FinishedSessions
import Bundler.Proofs.Growth
import Bundler.Proofs.InOrder
import Bundler.Proofs.Independence
import Bundler.Proofs.Inquiries
import Bundler.Proofs.JsonStrings
import Bundler.Proofs.KeptFiles
import Bundler.Proofs.Listings
import Bundler.Proofs.LoadsSideBySide
import Bundler.Proofs.Locations
import Bundler.Proofs.Mappings
import Bundler.Proofs.Merging
import Bundler.Proofs.Namings
import Bundler.Proofs.Nesting
import Bundler.Proofs.Obstacles
import Bundler.Proofs.OrdinaryNames
import Bundler.Proofs.OutcomeFiles
import Bundler.Proofs.OutputPlaces
import Bundler.Proofs.Overlays
import Bundler.Proofs.Overwriting
import Bundler.Proofs.OwnFiles
import Bundler.Proofs.Paths
import Bundler.Proofs.Placeholders
import Bundler.Proofs.Places
import Bundler.Proofs.Precedence
import Bundler.Proofs.ReadingOrder
import Bundler.Proofs.Registrations
import Bundler.Proofs.RelativeBases
import Bundler.Proofs.RelativePaths
import Bundler.Proofs.RelativeResolution
import Bundler.Proofs.Reports
import Bundler.Proofs.ResolvedNames
import Bundler.Proofs.ScopedWork
import Bundler.Proofs.SharedFiles
import Bundler.Proofs.SharedMappings
import Bundler.Proofs.Shell
import Bundler.Proofs.SideBySide
import Bundler.Proofs.SourceLoading
import Bundler.Proofs.StableNames
import Bundler.Proofs.Statements
import Bundler.Proofs.Steps
import Bundler.Proofs.Texts
import Bundler.Proofs.Transcripts
import Bundler.Proofs.Visits
import Bundler.Proofs.Walks
import Bundler.Proofs.Work
import Bundler.Proofs.Writing
import Bundler.Session
import Bundler.Specifier
import Bundler.Steps
import Bundler.Text.Base64
import Bundler.Text.Blank
import Bundler.Text.CharRange
import Bundler.Text.ControlSequence
import Bundler.Text.Digit
import Bundler.Text.Hex
import Bundler.Text.JsonString
import Bundler.Text.Lower
import Bundler.Text.Newline
import Bundler.Text.Printable
import Bundler.Text.Quoted
import Bundler.Text.Split
import Bundler.Text.Utf8
import Bundler.Text.Word
import Bundler.Value.Access
import Bundler.Value.Basic
import Bundler.Value.Equality
import Bundler.Value.Graph
import Bundler.Value.Mapping
import Bundler.Value.Overlay
import Bundler.Value.Percent
import Bundler.Value.Placeholder
import Bundler.Value.Text
import Bundler.Yaml.Content
import Bundler.Yaml.Cursor
import Bundler.Yaml.Event
import Bundler.Yaml.Fault
import Bundler.Yaml.Node
import Bundler.Yaml.Scalar
import Bundler.Yaml.Tag
import Bundler.Yaml.Timestamp
import Bundler.Yaml.Token
import Bundler.Yaml.Token.Name
import Bundler.Yaml.Token.Scalar
import Bundler.Yaml.Token.Stream
