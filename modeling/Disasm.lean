import Disasm.File.Tree
import Disasm.Main
import Disasm.Proofs.Acceptance
import Disasm.Proofs.CommandLine.Numerals
import Disasm.Proofs.CommandLine.Rearrangement
import Disasm.Proofs.CommandLine.Selections
import Disasm.Proofs.EffectiveAddress
import Disasm.Proofs.Encoding
import Disasm.Proofs.Fields
import Disasm.Proofs.File.History
import Disasm.Proofs.Folding
import Disasm.Proofs.Forms
import Disasm.Proofs.Image.Headers
import Disasm.Proofs.Image.Listing
import Disasm.Proofs.Image.Opening
import Disasm.Proofs.Image.Outcome
import Disasm.Proofs.Locality
import Disasm.Proofs.Partition
import Disasm.Proofs.Pool.Drain
import Disasm.Proofs.Pool.Progress
import Disasm.Proofs.Pool.Turns
import Disasm.Proofs.Prefixes.Prepend
import Disasm.Proofs.Prefixes.Selection
import Disasm.Proofs.Prefixes.State
import Disasm.Proofs.Reads
import Disasm.Proofs.Registers
import Disasm.Proofs.Restart
import Disasm.Proofs.Resynchronisation
import Disasm.Proofs.Schedule
import Disasm.Proofs.SelfDelimiting
import Disasm.Proofs.Text.ATT
import Disasm.Proofs.Text.ATT.Memory
import Disasm.Proofs.Text.Constants
import Disasm.Proofs.Text.Digits
import Disasm.Proofs.Text.Intel
import Disasm.Proofs.Text.Rows
import Disasm.Proofs.Text.Segments
