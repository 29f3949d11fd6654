import ChainDiagram.Main
import ChainDiagram.Proofs.Grammar
import ChainDiagram.Proofs.LongestChain
import ChainDiagram.Proofs.Drawing
import ChainDiagram.Proofs.Draft
import ChainDiagram.Proofs.Refusal
import ChainDiagram.Proofs.Depiction
import ChainDiagram.Proofs.SearchCost
import ChainDiagram.Proofs.WellFormed
import ChainDiagram.Proofs.Comment
import ChainDiagram.Proofs.Placement
import ChainDiagram.Proofs.Consistency
import ChainDiagram.Proofs.Reordering
import ChainDiagram.Proofs.Shift
import ChainDiagram.Proofs.LinkByLink
import ChainDiagram.Proofs.Identity
import ChainDiagram.Proofs.Repair
import ChainDiagram.Proofs.Prediction
import ChainDiagram.Proofs.Foreign
import ChainDiagram.Proofs.Listing
import ChainDiagram.Proofs.Json.Token
import ChainDiagram.Proofs.Json.Value
import ChainDiagram.Proofs.Encoding
import ChainDiagram.Proofs.Quoting
import ChainDiagram.Proofs.LiteralName
import ChainDiagram.Proofs.Completion
import ChainDiagram.Proofs.Commands
import ChainDiagram.Proofs.Locality
import ChainDiagram.Proofs.Json.Number
