import LayerStack.Json.Printer
import LayerStack.Model.Edit
import LayerStack.Proofs.RoundTrip
import LayerStack.Proofs.Equality
import LayerStack.Proofs.Grouping
import LayerStack.Proofs.ForwardPass
import LayerStack.Proofs.Ranks
import LayerStack.Proofs.Parameters
import LayerStack.Proofs.LayerNames
import LayerStack.Proofs.Overflow
import LayerStack.Proofs.Totality
import LayerStack.Proofs.Refusals
import LayerStack.Proofs.Messages
import LayerStack.Proofs.Calculation
import LayerStack.Proofs.Atomicity
import LayerStack.Proofs.Downloads
import LayerStack.Proofs.Settings.Answers
import LayerStack.Proofs.Settings.History
import LayerStack.Proofs.Settings.Options
import LayerStack.Proofs.Frames
import LayerStack.Proofs.Grammar
import LayerStack.Proofs.MemberUses
import LayerStack.Proofs.Layout
import LayerStack.Proofs.Moves
import LayerStack.Proofs.Commuting
import LayerStack.Proofs.RefusedEntries
import LayerStack.Proofs.ShapeReads
import LayerStack.Proofs.Totals
import LayerStack.Proofs.Continuations
import LayerStack.Proofs.HelperCalls
import LayerStack.Proofs.SizeAccuracy
import LayerStack.Proofs.Shares
