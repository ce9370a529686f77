import Runbook.Main
import Runbook.Order.Edit
import Runbook.Decision.PathExpression
import Runbook.Proofs.Execution.Failure
import Runbook.Proofs.Decision.Selection
import Runbook.Proofs.Plan.Modes
import Runbook.Proofs.Order.Undo
import Runbook.Proofs.Order.Series
import Runbook.Proofs.Order.Record
import Runbook.Proofs.Order.Attachment
import Runbook.Proofs.Decision.Arena
import Runbook.Proofs.Decision.Pinning
import Runbook.Proofs.Decision.Relabeling
import Runbook.Proofs.Plan.Explanation
import Runbook.Proofs.Decision.PathConditions
import Runbook.Proofs.Plan.Edits
import Runbook.Proofs.Order.Reads
import Runbook.Proofs.Decision.Ceiling
import Runbook.Proofs.Plan.Operations
import Runbook.Proofs.Order.Repeats
import Runbook.Proofs.Plan.Refusals
import Runbook.Proofs.Order.Loops
import Runbook.Proofs.Order.Recursion
import Runbook.Proofs.Order.Journal
import Runbook.Proofs.Order.Lines
import Runbook.Proofs.Order.Visits
import Runbook.Proofs.Plan.Readback
import Runbook.Proofs.Plan.Assignments
import Runbook.Proofs.Execution.Chains
import Runbook.Proofs.Decision.Memo
import Runbook.Proofs.Decision.Preparation
import Runbook.Proofs.Plan.PatchOrder
import Runbook.Proofs.Decision.Normalization
import Runbook.Proofs.Decision.Parameters
import Runbook.Proofs.Pattern.Anchors
import Runbook.Proofs.Json.Absorption
import Runbook.Proofs.Json.Grouping
import Runbook.Proofs.Order.KeyText
import Runbook.Proofs.Json.Values
import Runbook.Proofs.Decision.Scoring
import Runbook.Proofs.Decision.HashTables
