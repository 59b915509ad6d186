import MethodFrame.Main
import MethodFrame.Proofs.Run
import MethodFrame.Proofs.Journal.Reading
import MethodFrame.Proofs.Expr.Acceptance
import MethodFrame.Proofs.OperandStack.Evaluation
import MethodFrame.Proofs.OperandStack.Forest
import MethodFrame.Proofs.OperandStack.Matching
import MethodFrame.Proofs.OperandStack.Descriptor
import MethodFrame.Proofs.SlotTable.HighWater
import MethodFrame.Proofs.SlotTable.Naming
import MethodFrame.Proofs.SlotTable.Observation
import MethodFrame.Proofs.SlotTable.Replay
import MethodFrame.Proofs.Frame.Refusal
import MethodFrame.Proofs.Application.Grammar
import MethodFrame.Proofs.Application.Agreement
import MethodFrame.Proofs.OperandStack.Narrowing
import MethodFrame.Proofs.Arguments.Scanning
import MethodFrame.Proofs.Options.Grammar
import MethodFrame.Proofs.Options.Arrangement
import MethodFrame.Proofs.CommandLine.Output
import MethodFrame.Proofs.CommandLine.Logging
import MethodFrame.Proofs.OperandStack.Locality
import MethodFrame.Proofs.SlotTable.Scope
import MethodFrame.Proofs.CommandLine.Colour
import MethodFrame.Proofs.Fault.Raised
import MethodFrame.Proofs.OperandStack.Replacement
import MethodFrame.Proofs.Application.Rejection
import MethodFrame.Proofs.Attribute.Conversion
import MethodFrame.Proofs.Fault.Wording
import MethodFrame.Proofs.Value.Display
