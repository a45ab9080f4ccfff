import SourceBundle.Archive.Gzip
import SourceBundle.Archive.Inflate
import SourceBundle.Archive.Tar
import SourceBundle.Bundle.Build
import SourceBundle.Bundle.Context
import SourceBundle.Cache.Basic
import SourceBundle.Cache.Fetch
import SourceBundle.Compile.Diagnostic
import SourceBundle.Compile.Request
import SourceBundle.Decimal.Numeral
import SourceBundle.Decimal.Shortest
import SourceBundle.Fault.Basic
import SourceBundle.Fault.Parse
import SourceBundle.Import.Mask
import SourceBundle.Import.Package
import SourceBundle.Import.Remapping
import SourceBundle.Import.Statement
import SourceBundle.Index.Basic
import SourceBundle.Index.Data
import SourceBundle.Index.Persist
import SourceBundle.Journal
import SourceBundle.Json.Basic
import SourceBundle.Json.Reader
import SourceBundle.Json.Writer
import SourceBundle.Lock.Basic
import SourceBundle.Lock.Tree
import SourceBundle.Lock.Yarn
import SourceBundle.Logging
import SourceBundle.Manifest
import SourceBundle.PackageKey
import SourceBundle.Proofs.Bundle.Closure
import SourceBundle.Proofs.Bundle.Complete
import SourceBundle.Proofs.Bundle.Course
import SourceBundle.Proofs.Bundle.Growth
import SourceBundle.Proofs.Bundle.Navigation
import SourceBundle.Proofs.Cache.SingleFlight
import SourceBundle.Proofs.Bundle.Records
import SourceBundle.Proofs.Bundle.SameRun
import SourceBundle.Proofs.Compile.Ledger
import SourceBundle.Proofs.Compile.Newest
import SourceBundle.Proofs.Compile.Outcomes
import SourceBundle.Proofs.Compile.Reported
import SourceBundle.Proofs.Compile.Requests
import SourceBundle.Proofs.Compile.Stale
import SourceBundle.Proofs.Compile.Undisturbed
import SourceBundle.Proofs.Compile.Whole
import SourceBundle.Proofs.Index.Commit
import SourceBundle.Proofs.Index.Reordered
import SourceBundle.Proofs.Index.Still
import SourceBundle.Proofs.Resolve.Kept
import SourceBundle.Proofs.Routine.Alone
import SourceBundle.Proofs.Routine.Crowd
import SourceBundle.Proofs.Routine.Guard
import SourceBundle.Proofs.Routine.Law
import SourceBundle.Proofs.Routine.Layers
import SourceBundle.Proofs.Routine.Plain
import SourceBundle.Proofs.Routine.Solo
import SourceBundle.Proofs.Routine.Steady
import SourceBundle.Proofs.Routine.Turns
import SourceBundle.Proofs.Routine.Walk
import SourceBundle.Proofs.Service.Current
import SourceBundle.Proofs.Service.Kept
import SourceBundle.Proofs.Service.Plain
import SourceBundle.Proofs.Service.Play
import SourceBundle.Proofs.Table
import SourceBundle.Registry.Client
import SourceBundle.Registry.Network
import SourceBundle.Registry.Script
import SourceBundle.Registry.Unpack
import SourceBundle.Resolve.Basic
import SourceBundle.Resolve.Chain
import SourceBundle.Resolve.Sources
import SourceBundle.Routine.Basic
import SourceBundle.Routine.Schedule
import SourceBundle.Scenario.Basic
import SourceBundle.Scenario.Collaborators
import SourceBundle.Scenario.Perform
import SourceBundle.Scenario.Run
import SourceBundle.Service.Basic
import SourceBundle.Settings.Apply
import SourceBundle.Settings.Basic
import SourceBundle.Settings.Document
import SourceBundle.Settings.Scalar
import SourceBundle.Settings.Value
import SourceBundle.Sort
import SourceBundle.Table
import SourceBundle.Text.Blank
import SourceBundle.Text.CharRange
import SourceBundle.Text.Cut
import SourceBundle.Text.Digit
import SourceBundle.Text.Lowercase
import SourceBundle.Text.Path
import SourceBundle.Text.Printable
import SourceBundle.Text.Quoted
import SourceBundle.Text.Utf8
import SourceBundle.Text.Wide
import SourceBundle.Text.Word
import SourceBundle.Url.Basic
import SourceBundle.Url.Host
import SourceBundle.Url.Percent
import SourceBundle.Url.Redact
import SourceBundle.Version.Basic
import SourceBundle.Version.Declared
import SourceBundle.Version.Listed
import SourceBundle.Version.Range
import SourceBundle.Version.Select
import SourceBundle.Warning
import SourceBundle.Workspace.Access
import SourceBundle.Workspace.Disk
import SourceBundle.Workspace.Memory
import SourceBundle.Workspace.Store
import SourceBundle.Proofs.Bundle.Again
import SourceBundle.Proofs.Bundle.AnyOrder
import SourceBundle.Proofs.Bundle.Canonical
import SourceBundle.Proofs.Bundle.Finish
import SourceBundle.Proofs.Bundle.Sound
import SourceBundle.Proofs.Bundle.Finite
import SourceBundle.Proofs.Workspace.Confined
import SourceBundle.Proofs.Resolve.Pins
import SourceBundle.Proofs.Resolve.Priority
import SourceBundle.Proofs.Import.Complete
import SourceBundle.Proofs.Version.Order
import SourceBundle.Proofs.Version.Selected
import SourceBundle.Proofs.Version.Published
import SourceBundle.Proofs.Version.Tolerant
import SourceBundle.Proofs.Resolve.Exact
import SourceBundle.Proofs.Bundle.Added
import SourceBundle.Proofs.Bundle.Spelling
import SourceBundle.Proofs.Lock.Blocks
import SourceBundle.Proofs.Resolve.Honoured
import SourceBundle.Proofs.Import.Literal
import SourceBundle.Proofs.Bundle.Reimport
import SourceBundle.Proofs.Bundle.Inside
import SourceBundle.Proofs.Bundle.Duplicates
import SourceBundle.Proofs.Index.Replacement
import SourceBundle.Proofs.Index.Loading
import SourceBundle.Proofs.Import.Scanner
import SourceBundle.Proofs.Import.Placed
import SourceBundle.Proofs.Import.Masking
import SourceBundle.Proofs.Registry.Retries
import SourceBundle.Proofs.Registry.Connections
import SourceBundle.Proofs.Resolve.Loaded
import SourceBundle.Proofs.Registry.Contract
import SourceBundle.Proofs.Registry.Unpacking
import SourceBundle.Proofs.Url.UserInfo
import SourceBundle.Proofs.Workspace.Atomic
import SourceBundle.Proofs.Url.Masked
import SourceBundle.Proofs.Workspace.Calls
import SourceBundle.Proofs.Lock.Layouts
import SourceBundle.Proofs.Settings.Entries
