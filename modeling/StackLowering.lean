import StackLowering.Code.Listing
import StackLowering.Expr.Build
import StackLowering.Expr.Equality
import StackLowering.Proofs.Choice
import StackLowering.Proofs.Runs
import StackLowering.Session.Compile
import StackLowering.Proofs.Balance
import StackLowering.Proofs.Literals
import StackLowering.Proofs.Reached
import StackLowering.Proofs.Layout
import StackLowering.Proofs.Depth
import StackLowering.Proofs.Evaluation
import StackLowering.Proofs.Simulation
import StackLowering.Proofs.Correctness
import StackLowering.Proofs.Descriptor
import StackLowering.Proofs.Typing
import StackLowering.Proofs.Verification
import StackLowering.Proofs.Acceptance
import StackLowering.Proofs.Lifecycle
import StackLowering.Proofs.Visits
import StackLowering.Proofs.ControlFlow
import StackLowering.Proofs.Relocation
import StackLowering.Proofs.Lockstep
import StackLowering.Proofs.Encoding
import StackLowering.Proofs.Noninterference
import StackLowering.Proofs.Safety
import StackLowering.Proofs.Histories
import StackLowering.Proofs.Refusal
import StackLowering.Proofs.Unfinished
import StackLowering.Proofs.Decoding
import StackLowering.Proofs.SignedZeros
import StackLowering.Proofs.Positions
import StackLowering.Proofs.Arrays
import StackLowering.Proofs.Narrowest
import StackLowering.Proofs.Encodable
import StackLowering.Proofs.Diagnosis
import StackLowering.Proofs.Rounding
import StackLowering.Proofs.Quotation
import StackLowering.Proofs.Numerals
import StackLowering.Proofs.ConstantTexts
