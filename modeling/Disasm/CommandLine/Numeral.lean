/-!
# Reading numbers

A numeral is one or more digits of its base and nothing else; leading zeros do not matter. A
hexadecimal numeral may stand after `0x` or `0X`.
-/

namespace Disasm.CommandLine

/-- The value of a digit. Letters count from ten on, in capitals or not. -/
def digit? (base : Nat) (c : Char) : Option Nat :=
  let value? :=
    if '0' ≤ c ∧ c ≤ '9' then some (c.toNat - '0'.toNat)
    else if 'a' ≤ c ∧ c ≤ 'z' then some (c.toNat - 'a'.toNat + 10)
    else if 'A' ≤ c ∧ c ≤ 'Z' then some (c.toNat - 'A'.toNat + 10)
    else none
  value?.filter (· < base)

/-- The number with these digits, highest first. -/
def ofDigits (base : Nat) (digits : List Nat) : Nat := digits.foldl (fun n d => base * n + d) 0

/-- The number that some characters are a numeral of. -/
def numeral? (base : Nat) (cs : List Char) : Option Nat :=
  if cs = [] then none else (cs.mapM (digit? base)).map (ofDigits base)

/-- What follows the mark of a hexadecimal numeral. Without anything after it, it is no mark. -/
def dropMark : List Char → List Char
  | '0' :: 'x' :: c :: cs => c :: cs
  | '0' :: 'X' :: c :: cs => c :: cs
  | cs => cs

/-- The number below `2 ^ 64` that a text is a decimal numeral of. -/
def decimal? (s : String) : Option Nat := (numeral? 10 s.toList).filter (· < UInt64.size)

/-- The number below `2 ^ 64` that a text is a hexadecimal numeral of, with or without a mark. -/
def hexadecimal? (s : String) : Option Nat :=
  (numeral? 16 (dropMark s.toList)).filter (· < UInt64.size)

end Disasm.CommandLine
