import BlockPlan.Block.Report
import BlockPlan.Design.Report
import BlockPlan.Fault.Message
import BlockPlan.Draws.Source
import BlockPlan.Annealer.Report
import BlockPlan.Ensemble
import BlockPlan.Drawing.Figure
import BlockPlan.Proofs.Cells.Picture
import BlockPlan.Proofs.Packing.Area
import BlockPlan.Proofs.Packing.Shelves
import BlockPlan.Proofs.Annealer.Snaps
import BlockPlan.Proofs.Annealer.Maximal
import BlockPlan.Proofs.Annealer.Snapshots
import BlockPlan.Proofs.Annealer.Calibrated
import BlockPlan.Proofs.Annealer.Scaled
import BlockPlan.Proofs.Annealer.Disabled
import BlockPlan.Proofs.Cost.Notch
import BlockPlan.Proofs.Cells.Scan
import BlockPlan.Proofs.Packing.Recall
import BlockPlan.Proofs.Packing.Monotone
import BlockPlan.Proofs.Annealer.Defined
import BlockPlan.Proofs.Annealer.Shrink
import BlockPlan.Proofs.Moves.Table
import BlockPlan.Proofs.Cooling.Descent
import BlockPlan.Proofs.Cost.Legal
import BlockPlan.Proofs.Packing.Moved
import BlockPlan.Proofs.Packing.Refused
import BlockPlan.Proofs.Annealer.Samples
import BlockPlan.Proofs.Annealer.Reach
import BlockPlan.Proofs.Block.Dwindling
import BlockPlan.Proofs.Cells.Spans
import BlockPlan.Proofs.Packing.Entries
import BlockPlan.Proofs.Packing.InStep
