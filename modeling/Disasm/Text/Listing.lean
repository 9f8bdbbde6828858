import Disasm.Text.ATT
import Disasm.Text.Intel

/-!
# Listing rows

A row is the address of a record, its bytes in a column, and its text in one of two dialects. Bytes
that form no instruction have the text `(bad)`.
-/

namespace Disasm

/-- The two ways of writing instructions. -/
inductive Dialect
  | intel | att
deriving DecidableEq, Inhabited

namespace Instruction

/-- The text of a record. -/
def text (i : Instruction) (d : Dialect) : String :=
  if i.isValid then
    match d with
    | .intel => Intel.text i
    | .att => ATT.text i
  else "(bad)"

/-- The bytes of a record in hexadecimal. -/
def hex (i : Instruction) : String := Hex.bytes i.bytes

/-- A row of a listing: the address in eight digits or more, a colon, the bytes filled up to
`width` characters, and the text. A width of zero, or less, leaves the bytes out. -/
def listingLine (i : Instruction) (d : Dialect) (width : Int) : String :=
  let column :=
    if 0 < width then String.ofList (i.hex.toList.rightpad width.toNat ' ') ++ "  " else ""
  Hex.padded 8 i.address.toNat ++ ":  " ++ column ++ i.text d

/-- The width of the column of bytes if nothing else is asked for: eight bytes with spaces. -/
def defaultWidth : Int := 24

end Instruction

end Disasm
