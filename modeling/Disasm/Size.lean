/-!
# Sizes of data and of addresses

* `DataSize` — how much an operand holds or an operation works on.
* `AddressSize` — how wide the addresses formed by an instruction are.

A size gives a modulus, so that cutting a value down to a size (`DataSize.truncate`) and
reading its low bits as a signed number (`DataSize.signExtend`) are both remainders.
-/

namespace Disasm

/-- The size of a value. `fword` is a 48-bit far pointer or descriptor-table image, `tbyte` an
80-bit coprocessor value and `dqword` an XMM register's contents; `none` stands where a size
means nothing. -/
inductive DataSize
  | byte | word | dword | fword | qword | tbyte | dqword | none
deriving DecidableEq, Inhabited

namespace DataSize

/-- Every size, smallest first and `none` last. -/
def all : List DataSize := [byte, word, dword, fword, qword, tbyte, dqword, none]

def bytes : DataSize → Nat
  | byte => 1
  | word => 2
  | dword => 4
  | fword => 6
  | qword => 8
  | tbyte => 10
  | dqword => 16
  | none => 0

def bits (s : DataSize) : Nat := 8 * s.bytes

/-- One more than the largest value of this size. Sizes above 64 bits, and `none`, keep the
whole of a 64-bit word. -/
def modulus (s : DataSize) : Nat :=
  if s.bytes = 0 ∨ 8 ≤ s.bytes then UInt64.size else 1 <<< s.bits

/-- All bits of this size set. -/
def mask (s : DataSize) : UInt64 := UInt64.ofNat (s.modulus - 1)

/-- The low bits of `v` that fit this size. -/
def truncate (s : DataSize) (v : UInt64) : UInt64 := UInt64.ofNat (v.toNat % s.modulus)

/-- The low bits of `v` read as a signed number. Only bytes, words and doublewords are cut;
any other size takes all 64 bits. -/
def signExtend (s : DataSize) (v : UInt64) : Int :=
  match s with
  | byte | word | dword => Int.bmod v.toNat (1 <<< s.bits)
  | _ => Int.bmod v.toNat UInt64.size

end DataSize

/-- The width of the addresses an instruction forms. -/
inductive AddressSize
  | a16 | a32 | a64
deriving DecidableEq, Inhabited

namespace AddressSize

def bits : AddressSize → Nat
  | a16 => 16
  | a32 => 32
  | a64 => 64

/-- The size of a register or an offset that holds an address of this width. -/
def dataSize : AddressSize → DataSize
  | a16 => .word
  | a32 => .dword
  | a64 => .qword

end AddressSize

/-! ## Laws -/

theorem DataSize.truncate_toNat (s : DataSize) (v : UInt64) :
    (s.truncate v).toNat = v.toNat % s.modulus := by
  have hv : v.toNat < 2 ^ 64 := v.toNat_lt
  have hlt : v.toNat % s.modulus < 2 ^ 64 := Nat.lt_of_le_of_lt (Nat.mod_le _ _) hv
  exact UInt64.toNat_ofNat_of_lt hlt

end Disasm
