import ThreatModel.Main
import ThreatModel.Proofs.Pattern.Search
import ThreatModel.Proofs.Report.File
import ThreatModel.Proofs.FunctionName.Spelling
import ThreatModel.Proofs.Place
import ThreatModel.Proofs.Annotations.Rules
import ThreatModel.Proofs.Annotations.Step
import ThreatModel.Proofs.Annotations.Blocks
import ThreatModel.Proofs.Annotations.Filing
import ThreatModel.Proofs.Component
import ThreatModel.Proofs.ComponentGraph.Bundles
import ThreatModel.Proofs.ComponentGraph.Edges
import ThreatModel.Proofs.ComponentGraph.Severities
import ThreatModel.Proofs.Component.Findings
import ThreatModel.Proofs.Component.Asking
import ThreatModel.Proofs.Facts.Edits
import ThreatModel.Proofs.CallGraph.Grouping
import ThreatModel.Proofs.CallGraph.Sources
import ThreatModel.Proofs.Annotations.Splitting
import ThreatModel.Proofs.Annotations.Spans
import ThreatModel.Proofs.Annotations.Rebinding
import ThreatModel.Proofs.Annotations.SourceOrder
import ThreatModel.Proofs.Annotations.Directions
import ThreatModel.Proofs.ComponentGraph.Nodes
import ThreatModel.Proofs.ComponentGraph.Lookups
import ThreatModel.Proofs.FunctionName.Collisions
import ThreatModel.Proofs.Annotations.DeclaredCalls
import ThreatModel.Proofs.Annotations.Coverage
import ThreatModel.Proofs.ComponentGraph.MoreCalls
import ThreatModel.Proofs.ComponentGraph.WorstColor
import ThreatModel.Proofs.ComponentGraph.MoreExposures
import ThreatModel.Proofs.Diagram.Labels
import ThreatModel.Proofs.Diagram.EdgeLabels
import ThreatModel.Proofs.ComponentGraph.Resolvable
import ThreatModel.Proofs.ComponentGraph.Reordering
import ThreatModel.Proofs.Annotations.Accumulation
import ThreatModel.Proofs.Report.Listing
import ThreatModel.Proofs.Annotations.Precedence
import ThreatModel.Proofs.Annotations.Attachment
import ThreatModel.Proofs.CommandLine.Refusal
import ThreatModel.Proofs.CommandLine.Joining
import ThreatModel.Proofs.Annotations.LineEnds
import ThreatModel.Proofs.Annotations.Bindings
import ThreatModel.Proofs.Annotations.Corruption
import ThreatModel.Proofs.Annotations.Orphans
import ThreatModel.Proofs.Annotations.Covered
import ThreatModel.Proofs.FunctionName.Fallback
