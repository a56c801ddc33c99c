import PackPlan.Archive.CodePage
import PackPlan.Archive.Containers
import PackPlan.Archive.Entry
import PackPlan.Archive.Zip
import PackPlan.AssetId
import PackPlan.AssetPath
import PackPlan.Catalog.Basic
import PackPlan.Catalog.CatalogSet
import PackPlan.Catalog.Loader
import PackPlan.Catalog.Rows
import PackPlan.Command.Arguments
import PackPlan.Command.Bundles
import PackPlan.Command.HintFiles
import PackPlan.Command.LogFiles
import PackPlan.Command.Merging
import PackPlan.Command.PerPlatform
import PackPlan.Command.Plans
import PackPlan.Command.Request
import PackPlan.Command.Seeds
import PackPlan.Command.Session
import PackPlan.Fault
import PackPlan.Files.FilePath
import PackPlan.Files.FileTree
import PackPlan.Files.Search
import PackPlan.Grouping
import PackPlan.Guid
import PackPlan.Hints.Reader
import PackPlan.Hints.Writer
import PackPlan.Job
import PackPlan.Json.Printer
import PackPlan.Json.Reader
import PackPlan.Json.Value
import PackPlan.Log
import PackPlan.Main
import PackPlan.Notice
import PackPlan.Numeral.Binary64
import PackPlan.Numeral.Printer
import PackPlan.Numeral.Reader
import PackPlan.PathTable
import PackPlan.Pattern
import PackPlan.Plan
import PackPlan.Platform
import PackPlan.Proofs.Archive.Again
import PackPlan.Proofs.Archive.Bytes
import PackPlan.Proofs.Archive.Containers
import PackPlan.Proofs.Archive.Discovery
import PackPlan.Proofs.Archive.Effects
import PackPlan.Proofs.Archive.Indexing
import PackPlan.Proofs.Archive.Keeping
import PackPlan.Proofs.Archive.Layout
import PackPlan.Proofs.Archive.Listing
import PackPlan.Proofs.Archive.Opening
import PackPlan.Proofs.Archive.Ranges
import PackPlan.Proofs.Archive.Reports
import PackPlan.Proofs.AssetPath
import PackPlan.Proofs.AssetPath.Spelling
import PackPlan.Proofs.Attempt
import PackPlan.Proofs.Catalog.Absent
import PackPlan.Proofs.Catalog.Additions
import PackPlan.Proofs.Catalog.LineNumbers
import PackPlan.Proofs.Catalog.Loading
import PackPlan.Proofs.Catalog.PlainRows
import PackPlan.Proofs.Catalog.ReadBack
import PackPlan.Proofs.Catalog.RowLines
import PackPlan.Proofs.Catalog.Rows
import PackPlan.Proofs.Command.Editing
import PackPlan.Proofs.Command.FailedPlatforms
import PackPlan.Proofs.Command.HintFiles
import PackPlan.Proofs.Command.LogFiles
import PackPlan.Proofs.Command.Overwriting
import PackPlan.Proofs.Command.PerPlatform
import PackPlan.Proofs.Command.PlatformFiles
import PackPlan.Proofs.Command.ProfilingLog
import PackPlan.Proofs.Command.Refusals
import PackPlan.Proofs.Command.SamplingLog
import PackPlan.Proofs.Command.SeedAgain
import PackPlan.Proofs.Command.SeedEntries
import PackPlan.Proofs.Command.SeedList
import PackPlan.Proofs.Effects
import PackPlan.Proofs.Files.Changes
import PackPlan.Proofs.Files.Losses
import PackPlan.Proofs.Files.Moves
import PackPlan.Proofs.Files.Places
import PackPlan.Proofs.Files.Rewriting
import PackPlan.Proofs.Files.Search
import PackPlan.Proofs.Grouping
import PackPlan.Proofs.Hints.Entries
import PackPlan.Proofs.Hints.FirstSeen
import PackPlan.Proofs.Hints.Named
import PackPlan.Proofs.Hints.Order
import PackPlan.Proofs.Hints.Outcome
import PackPlan.Proofs.Hints.Reading
import PackPlan.Proofs.Hints.Rereading
import PackPlan.Proofs.Hints.RoundTrip
import PackPlan.Proofs.Identity.Spelling
import PackPlan.Proofs.Job
import PackPlan.Proofs.Log.Blocks
import PackPlan.Proofs.Log.Headers
import PackPlan.Proofs.Log.Profile
import PackPlan.Proofs.Log.Promotion
import PackPlan.Proofs.Log.ReadBack
import PackPlan.Proofs.PathTable
import PackPlan.Proofs.Pattern
import PackPlan.Proofs.Plan.Assignment
import PackPlan.Proofs.Plan.LeastPacks
import PackPlan.Proofs.Plan.PackStore
import PackPlan.Proofs.Seed
import PackPlan.Proofs.SortedOut
import PackPlan.Proofs.Steps
import PackPlan.Proofs.Store.Arrival
import PackPlan.Proofs.Store.Assigned
import PackPlan.Proofs.Store.Changes
import PackPlan.Proofs.Store.Combine
import PackPlan.Proofs.Store.Merge
import PackPlan.Proofs.Store.PathIndex
import PackPlan.Proofs.Store.Recombine
import PackPlan.Proofs.Store.Reordering
import PackPlan.Proofs.Store.Repack
import PackPlan.Proofs.Text.Casing
import PackPlan.Proofs.Text.Lines
import PackPlan.Proofs.Text.Utf8
import PackPlan.Proofs.Walk.Cascade
import PackPlan.Proofs.Walk.Discovery
import PackPlan.Proofs.Walk.Found
import PackPlan.Proofs.Walk.Paths
import PackPlan.Proofs.Walk.Preorder
import PackPlan.Proofs.Walk.Reach
import PackPlan.Proofs.Walk.Spread
import PackPlan.Proofs.Walk.Stack
import PackPlan.Record
import PackPlan.Seed
import PackPlan.Store
import PackPlan.Table
import PackPlan.Text.Blank
import PackPlan.Text.Casing
import PackPlan.Text.CharSet
import PackPlan.Text.Digit
import PackPlan.Text.Lines
import PackPlan.Text.Printable
import PackPlan.Text.Quoted
import PackPlan.Text.Split
import PackPlan.Text.Utf8
import PackPlan.Walk.Closure
import PackPlan.Walk.Descent
import PackPlan.Walk.Scope
