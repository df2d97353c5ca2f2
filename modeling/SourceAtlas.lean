import SourceAtlas.Signature
import SourceAtlas.Edit
import SourceAtlas.Import
import SourceAtlas.Scope.Operation
import SourceAtlas.Main
import SourceAtlas.Proofs.Path.Order
import SourceAtlas.Proofs.FileTree.Walk
import SourceAtlas.Proofs.Build.Outcome
import SourceAtlas.Proofs.Build.Recount
import SourceAtlas.Proofs.Build.Reuse
import SourceAtlas.Proofs.List.Best
import SourceAtlas.Proofs.List.Sort
import SourceAtlas.Proofs.Text.Split
import SourceAtlas.Proofs.Summary.Canonical
import SourceAtlas.Proofs.DefinitionId.Encoding
import SourceAtlas.Proofs.CallGraph.Count
import SourceAtlas.Proofs.CallGraph.Definitions
import SourceAtlas.Proofs.CallGraph.Dead
import SourceAtlas.Proofs.CallGraph.Reach
import SourceAtlas.Proofs.Scope.Placement
import SourceAtlas.Proofs.Scope.Resolution
import SourceAtlas.Proofs.Scope.Links
import SourceAtlas.Proofs.Scope.Sweep
import SourceAtlas.Proofs.Build.Account
import SourceAtlas.Proofs.Json.RoundTrip
import SourceAtlas.Proofs.Snapshot.RoundTrip
import SourceAtlas.Proofs.Edit.Points
import SourceAtlas.Proofs.Edit.Smallest
import SourceAtlas.Proofs.Index.Assembly
import SourceAtlas.Proofs.FileTree.Selection
import SourceAtlas.Proofs.DefinitionId.Parts
import SourceAtlas.Proofs.Scope.Targets
import SourceAtlas.Proofs.Build.Rebuild
import SourceAtlas.Proofs.Scope.Imports
import SourceAtlas.Proofs.Scope.Nearest
import SourceAtlas.Proofs.Scope.Opening
import SourceAtlas.Proofs.CallGraph.Adjacency
import SourceAtlas.Proofs.CallGraph.Extension
import SourceAtlas.Proofs.Text.Words
import SourceAtlas.Proofs.Signature.Layout
import SourceAtlas.Proofs.Scope.Uses
import SourceAtlas.Proofs.Syntax.Numbering
import SourceAtlas.Proofs.Outline.Merging
