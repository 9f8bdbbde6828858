/-!
# Hexadecimal numbers

Three spellings of the same digits: plain lower case, lower case after `0x`, and the assembler's
constant, in capitals before an `h` and with a zero in front where it would start with a letter.
-/

namespace Disasm.Hex

/-- The hexadecimal digits of a number, highest first; zero has one digit. -/
def digits (n : Nat) : List Nat :=
  if n < 16 then [n] else digits (n / 16) ++ [n % 16]

def lowerDigit (d : Nat) : Char := "0123456789abcdef".toList.getD d '0'

def upperDigit (d : Nat) : Char := "0123456789ABCDEF".toList.getD d '0'

/-- The digits in lower case and nothing else. -/
def plain (n : Nat) : String := String.ofList ((digits n).map lowerDigit)

/-- The digits in lower case, filled up with zeros to `width`. -/
def padded (width n : Nat) : String :=
  String.ofList (List.leftpad width '0' ((digits n).map lowerDigit))

/-- Lower case after `0x`. -/
def lower (n : Nat) : String := "0x" ++ plain n

/-- A number below 10 as its digit; any other in capitals with an `h` at its end, and with a zero
before a leading letter. -/
def constant (n : Nat) : String :=
  if n < 10 then toString n
  else
    let ds := digits n
    let zero := if ds.headD 0 < 10 then [] else ['0']
    String.ofList (zero ++ ds.map upperDigit ++ ['h'])

/-- A sign where the number is negative, then its magnitude after `0x`. -/
def signed (v : Int) : String := if v < 0 then "-" ++ lower v.natAbs else lower v.natAbs

/-- Bytes as pairs of digits with single spaces between them. -/
def bytes (bs : List UInt8) : String := " ".intercalate (bs.map fun b => padded 2 b.toNat)

theorem digits_ne_nil (n : Nat) : digits n ≠ [] := by
  unfold digits
  split <;> simp

theorem lt_of_mem_digits {n d : Nat} (h : d ∈ digits n) : d < 16 := by
  induction n using digits.induct with
  | case1 n hlt =>
    unfold digits at h
    simp only [hlt, if_true, List.mem_singleton] at h
    omega
  | case2 n hge ih =>
    unfold digits at h
    simp only [hge, if_false, List.mem_append, List.mem_singleton] at h
    rcases h with h | h
    · exact ih h
    · omega

end Disasm.Hex
