import Disasm.Reader

/-!
# Fields of headers

Headers are runs of bytes in which every field has a fixed place. A field that does not lie wholly
within the bytes has no value.
-/

namespace Disasm.Image

/-- The number that `width` bytes at `offset` stand for, lowest byte first. -/
def number? (bs : List UInt8) (offset width : Nat) : Option Nat :=
  if offset + width ≤ bs.length then some (ofLittleEndian ((bs.drop offset).take width)) else none

def u8? (bs : List UInt8) (offset : Nat) : Option UInt8 := (number? bs offset 1).map UInt8.ofNat

def u16? (bs : List UInt8) (offset : Nat) : Option UInt16 := (number? bs offset 2).map UInt16.ofNat

def u32? (bs : List UInt8) (offset : Nat) : Option UInt32 := (number? bs offset 4).map UInt32.ofNat

/-- Text of one character per byte. -/
def byteText (bs : List UInt8) : String := String.ofList (bs.map fun b => Char.ofNat b.toNat)

/-- The names of the bits that are set in `flags`, in the order of the table. -/
def flagNames (table : List (Nat × String)) (flags : Nat) : List String :=
  (table.filter fun entry => flags &&& entry.1 ≠ 0).map (·.2)

end Disasm.Image
