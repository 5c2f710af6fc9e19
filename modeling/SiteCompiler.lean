import SiteCompiler.FileTree.Listing
import SiteCompiler.Main
import SiteCompiler.Proofs.Component.Source
import SiteCompiler.Proofs.Component.Locality
import SiteCompiler.Proofs.Component.Splice
import SiteCompiler.Proofs.Sequence
import SiteCompiler.Proofs.Template.Expansion
import SiteCompiler.Proofs.Template.Depth
import SiteCompiler.Proofs.FileTree.Walk
import SiteCompiler.Proofs.Template.Cycle
import SiteCompiler.Proofs.Template.Chain
import SiteCompiler.Proofs.Template.Convention
import SiteCompiler.Proofs.Build.SiteChunks
import SiteCompiler.Proofs.Template.Completeness
import SiteCompiler.Proofs.Build.Run
import SiteCompiler.Proofs.Page.Placeholder
import SiteCompiler.Proofs.Stylesheet.Generate
import SiteCompiler.Proofs.Build.StylesheetLink
import SiteCompiler.Proofs.Build.Mirror
import SiteCompiler.Proofs.Build.Buildable
import SiteCompiler.Proofs.Build.History
import SiteCompiler.Proofs.Build.Unreferenced
import SiteCompiler.Proofs.Candidate.Registry
import SiteCompiler.Proofs.Candidate.Load
import SiteCompiler.Proofs.Text.Slice
import SiteCompiler.Proofs.Component.Rescan
import SiteCompiler.Proofs.Component.Span
import SiteCompiler.Proofs.Template.Slicing
import SiteCompiler.Proofs.Component.Listing
import SiteCompiler.Proofs.Component.Matching
import SiteCompiler.Proofs.Component.Closed
import SiteCompiler.Proofs.Component.Nesting
import SiteCompiler.Proofs.Component.RawText
import SiteCompiler.Proofs.Template.Children
import SiteCompiler.Proofs.Page.Substitution
import SiteCompiler.Proofs.Component.TagEnd
import SiteCompiler.Proofs.Component.Written
import SiteCompiler.Proofs.Stylesheet.Split
import SiteCompiler.Proofs.Candidate.History
import SiteCompiler.Proofs.Page.Search
import SiteCompiler.Proofs.Page.Discovery
import SiteCompiler.Proofs.Candidate.Usage
import SiteCompiler.Proofs.Page.InjectedTags
import SiteCompiler.Proofs.Stylesheet.Layers
import SiteCompiler.Proofs.Build.Report
import SiteCompiler.Proofs.Json.RoundTrip
import SiteCompiler.Proofs.Build.Manifest
import SiteCompiler.Proofs.Lookup
import SiteCompiler.Proofs.Settings.Group
import SiteCompiler.Proofs.Settings.Load
