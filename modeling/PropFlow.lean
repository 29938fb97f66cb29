import PropFlow.Main
import PropFlow.Proofs.Trace
import PropFlow.Proofs.FileTree.Leads
import PropFlow.Proofs.FileTree.Leaves
import PropFlow.Proofs.FileTree.RealPath
import PropFlow.Proofs.Except
import PropFlow.Proofs.ModuleLink
import PropFlow.Proofs.Analysis.Explores
import PropFlow.Proofs.FileTree.Names
import PropFlow.Proofs.FileTree.Outline
import PropFlow.Proofs.Discovery
import PropFlow.Proofs.Analysis.History
import PropFlow.Proofs.Analysis.Reach
import PropFlow.Proofs.Component.Items
import PropFlow.Proofs.Component.Registry
import PropFlow.Proofs.Flow.Endpoints
import PropFlow.Proofs.Analysis.Flows
import PropFlow.Proofs.Component.Candidates
import PropFlow.Proofs.Flow.Enclosing
import PropFlow.Proofs.Component.Classified
import PropFlow.Proofs.Conflict
import PropFlow.Proofs.Analysis.Order
import PropFlow.Proofs.Analysis.Barrel
import PropFlow.Proofs.Path.Location
import PropFlow.Proofs.Graph
import PropFlow.Proofs.Component.Comments
import PropFlow.Proofs.Analysis.Comments
import PropFlow.Proofs.Analysis.Drawing
import PropFlow.Proofs.Component.Notes
import PropFlow.Proofs.Analysis.Accounting
import PropFlow.Proofs.Analysis.Isolation
import PropFlow.Proofs.Analysis.Failure
import PropFlow.Proofs.Analysis.Links
import PropFlow.Proofs.Component.Boxes
import PropFlow.Proofs.Enumerates
import PropFlow.Proofs.Distinct
import PropFlow.Proofs.Discovery.Listing
import PropFlow.Proofs.Syntax.Ways
import PropFlow.Proofs.Verdict
import PropFlow.Proofs.FileTree.Writing
import PropFlow.Proofs.Text.Utf8
import PropFlow.Proofs.Value
import PropFlow.Proofs.Settings.Document
import PropFlow.Proofs.Toml
import PropFlow.Proofs.Settings.Run
import PropFlow.Proofs.Source
import PropFlow.Proofs.Graph.Focus
import PropFlow.Proofs.Component.Harvest
import PropFlow.Proofs.Path.Normal
import PropFlow.Proofs.ModuleLink.Resolution
import PropFlow.Proofs.Conflict.Pairs
import PropFlow.Proofs.Conflict.Names
import PropFlow.Proofs.Flow.Finalize
import PropFlow.Proofs.Graph.Quoting
import PropFlow.Proofs.Graph.Label
import PropFlow.Proofs.Syntax.Preorder
import PropFlow.Proofs.Text.Integer
import PropFlow.Proofs.Settings.Coerce
import PropFlow.Proofs.Syntax.Slots
import PropFlow.Proofs.Graph.Locations
