import CilCodec.Instruction.Equality
import CilCodec.Patch
import CilCodec.Proofs.Decoder.Growth
import CilCodec.Proofs.Decoder.Lockstep
import CilCodec.Proofs.Decoder.Stepwise
import CilCodec.Proofs.Decoder.Suffix
import CilCodec.Proofs.Decoder.Tiling
import CilCodec.Proofs.Encoder.RoundTrip
import CilCodec.Proofs.Resolver.Calls
import CilCodec.Proofs.Resolver.History
import CilCodec.Proofs.Sharing.Transparency
import CilCodec.Proofs.Encoder.Acceptance
import CilCodec.Proofs.Encoder.Atomicity
import CilCodec.Proofs.Decoder.Limit
import CilCodec.Proofs.Encoder.Patching
import CilCodec.Proofs.Text.Numeral
import CilCodec.Proofs.Text.Separated
import CilCodec.Proofs.Decoder.Targets
import CilCodec.Proofs.Decoder.Listing
import CilCodec.Proofs.Instruction.Targets
import CilCodec.Proofs.Instruction.Equality
import CilCodec.Proofs.Decoder.Equality
import CilCodec.Proofs.Instruction.Parsing
import CilCodec.Proofs.Decoder.Transcript
import CilCodec.Proofs.Bytes.MachineWord
import CilCodec.Proofs.Operand.Table
