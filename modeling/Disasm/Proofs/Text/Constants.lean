import Disasm.Proofs.Text.Colons
import Disasm.Proofs.Text.Digits

/-!
# Constants in Intel syntax are read back

An assembler takes a word that starts with a decimal digit for a constant. The letter at its end
gives the base, and without one the base is ten (`readConstant?`).

**Theorem (`constants_read_back`).** A number is written as its decimal digit or as hexadecimal
digits before an `h`, with a zero in front only where they would start with a letter, and the
assembler reads that number. So no two numbers are written alike, and a displacement can be told
from its sign and its magnitude, also where registers stand before it.

Sign and magnitude of a displacement are found at the first sign before a decimal digit
(`fromOffset`): registers are joined by signs too, but the names of registers start with letters.
-/

namespace Disasm

namespace Hex

open CommandLine

variable {n : Nat}

/-! ## The assembler's constants -/

/-- The base that the letter at the end of a constant stands for. -/
def suffixBase? (c : Char) : Option Nat :=
  if c ∈ ['h', 'H'] then some 16
  else if c ∈ ['d', 'D', 't', 'T'] then some 10
  else if c ∈ ['o', 'O', 'q', 'Q'] then some 8
  else if c ∈ ['b', 'B', 'y', 'Y'] then some 2
  else none

/-- The number that an assembler reads. -/
def readConstant? (cs : List Char) : Option Nat :=
  if cs.head?.any Char.isDigit then
    match cs.getLast?.bind suffixBase? with
    | some base => numeral? base cs.dropLast
    | none => numeral? 10 cs
  else none

/-- A hexadecimal digit that is no small letter. -/
def isCapitalDigit (c : Char) : Bool := c.isDigit || ('A' ≤ c && c ≤ 'F')

theorem digit?_upperDigit : ∀ d < 16, digit? 16 (upperDigit d) = some d := by decide

theorem isCapitalDigit_upperDigit : ∀ d < 16, isCapitalDigit (upperDigit d) := by decide

theorem isDigit_upperDigit_iff : ∀ d < 16, ((upperDigit d).isDigit ↔ d < 10) := by decide

theorem upperDigit_eq_zero_iff : ∀ d < 16, (upperDigit d = '0' ↔ d = 0) := by decide

/-- The highest digit of a number is not zero. -/
theorem exists_digits_eq_cons (h : n ≠ 0) : ∃ d ds, digits n = d :: ds ∧ d ≠ 0 := by
  induction n using digits.induct with
  | case1 n hlt => exact ⟨n, [], digits_of_lt hlt, h⟩
  | case2 n hge ih =>
    obtain ⟨d, ds, hds, hd⟩ := ih (by omega)
    exact ⟨d, ds ++ [n % 16], by rw [digits_of_le (Nat.not_lt.1 hge), hds, List.cons_append], hd⟩

/-! ## How they are written -/

/-- A number below ten is its digit. -/
theorem toList_constant_of_lt : ∀ n < 10, (constant n).toList = [upperDigit n] := by
  decide +kernel

/-- Any other has an `h` at its end, and a zero before a letter. -/
theorem toList_constant_of_le (h : 10 ≤ n) : ∃ d ds, digits n = d :: ds ∧ d ≠ 0 ∧
    (constant n).toList =
      (List.replicate (if d < 10 then 0 else 1) 0 ++ digits n).map upperDigit ++ ['h'] := by
  obtain ⟨d, ds, hds, hd⟩ := exists_digits_eq_cons (n := n) (by omega)
  refine ⟨d, ds, hds, hd, ?_⟩
  rw [constant, if_neg (by omega), String.toList_ofList, List.map_append, hds]
  by_cases hlt : d < 10
  · simp [hlt]
  · have hzero : upperDigit 0 = '0' := by decide
    simp [hlt, hzero]

theorem head?_constant (n : Nat) : ∃ c, (constant n).toList.head? = some c ∧ c.isDigit := by
  by_cases h : n < 10
  · exact ⟨upperDigit n, by rw [toList_constant_of_lt n h]; rfl,
      (isDigit_upperDigit_iff n (by omega)).2 h⟩
  · obtain ⟨d, ds, hds, -, htext⟩ := toList_constant_of_le (Nat.not_lt.1 h)
    have hd : d < 16 := lt_of_mem_digits (n := n) (by rw [hds]; exact List.mem_cons_self)
    rw [htext, hds]
    by_cases hlt : d < 10
    · exact ⟨upperDigit d, by simp [hlt], (isDigit_upperDigit_iff d hd).2 hlt⟩
    · exact ⟨upperDigit 0, by simp [hlt], by decide⟩

theorem readConstant?_digit : ∀ d < 10, readConstant? [upperDigit d] = some d := by decide

/-- A constant is what the assembler takes it for. -/
theorem readConstant?_constant (n : Nat) : readConstant? (constant n).toList = some n := by
  by_cases h : n < 10
  · rw [toList_constant_of_lt n h, readConstant?_digit n h]
  · obtain ⟨c, hc, hdigit⟩ := head?_constant n
    obtain ⟨d, ds, -, -, htext⟩ := toList_constant_of_le (Nat.not_lt.1 h)
    have hread : readConstant? (constant n).toList = numeral? 16 (constant n).toList.dropLast := by
      rw [readConstant?, hc, Option.any_some, if_pos hdigit, htext, List.getLast?_concat]
      rfl
    rw [hread, htext, List.dropLast_concat,
      numeral?_map_digits (List.append_ne_nil_of_right_ne_nil _ (digits_ne_nil n)) fun d hd =>
        digit?_upperDigit d (lt_of_mem_filled hd),
      ofDigits_replicate_append, ofDigits_digits]

theorem constant_injective : Function.Injective constant := fun m n h => by
  have hread := readConstant?_constant m
  rw [h, readConstant?_constant] at hread
  exact (Option.some.inj hread).symm

end Hex

namespace Intel

open Text

/-! ## Displacements -/

/-- The number that a sign and a constant stand for; 0 where there is neither. -/
def readOffset? : List Char → Option Int
  | [] => some 0
  | '+' :: cs => (Hex.readConstant? cs).map fun n : Nat => (n : Int)
  | '-' :: cs => (Hex.readConstant? cs).map fun n : Nat => -(n : Int)
  | _ => none

def isSign (c : Char) : Bool := c = '+' || c = '-'

/-- A text from its first sign on that stands before a decimal digit. -/
def fromOffset : List Char → List Char
  | [] => []
  | c :: cs => if isSign c && cs.head?.any Char.isDigit then c :: cs else fromOffset cs

/-- What stands in the brackets. -/
def inBrackets (cs : List Char) : List Char :=
  ((cs.dropWhile (· != '[')).drop 1).takeWhile (· != ']')

/-- The displacement that a memory operand shows. -/
def shownDisplacement? (text : String) : Option Int :=
  readOffset? (fromOffset (inBrackets text.toList))

theorem displacement_of_pos {d : Int} (h : 0 < d) :
    (displacement d).toList = '+' :: (Hex.constant d.natAbs).toList := by
  simp [displacement, h, String.toList_append]

theorem displacement_of_neg {d : Int} (h : d < 0) :
    (displacement d).toList = '-' :: (Hex.constant d.natAbs).toList := by
  have hpos : ¬ 0 < d := by omega
  simp [displacement, h, hpos, String.toList_append]

theorem readOffset?_displacement (d : Int) : readOffset? (displacement d).toList = some d := by
  rcases lt_trichotomy d 0 with h | rfl | h
  · rw [displacement_of_neg h, readOffset?, Hex.readConstant?_constant, Option.map_some]
    congr 1
    omega
  · rfl
  · rw [displacement_of_pos h, readOffset?, Hex.readConstant?_constant, Option.map_some]
    congr 1
    omega

/-- Where no registers stand before it, a displacement starts at its own sign. -/
theorem fromOffset_displacement (d : Int) :
    fromOffset (displacement d).toList = (displacement d).toList := by
  obtain ⟨c, hc, hdigit⟩ := Hex.head?_constant d.natAbs
  have hstart : ∀ sign, isSign sign → fromOffset (sign :: (Hex.constant d.natAbs).toList) =
      sign :: (Hex.constant d.natAbs).toList := by
    intro sign hsign
    simp [fromOffset, hsign, hc, hdigit]
  rcases lt_trichotomy d 0 with h | rfl | h
  · rw [displacement_of_neg h]
    exact hstart '-' rfl
  · rfl
  · rw [displacement_of_pos h]
    exact hstart '+' rfl

/-! ## Registers before them -/

/-- A text that may stand before a displacement: nothing in it is taken for one, and no bracket ends
it. -/
structure Precedes (a : List Char) : Prop where
  bracket : ']' ∉ a
  passed : ∀ b, fromOffset (a ++ b) = fromOffset b

variable {a b : List Char}

theorem precedes_nil : Precedes [] := ⟨List.not_mem_nil, fun _ => rfl⟩

theorem Precedes.append (ha : Precedes a) (hb : Precedes b) : Precedes (a ++ b) where
  bracket h := (List.mem_append.1 h).elim ha.bracket hb.bracket
  passed c := by rw [List.append_assoc, ha.passed, hb.passed]

theorem precedes_of_not_mem (hbracket : ']' ∉ a) (hplus : '+' ∉ a) (hminus : '-' ∉ a) :
    Precedes a := by
  refine ⟨hbracket, fun b => ?_⟩
  induction a with
  | nil => rfl
  | cons c a ih =>
    simp only [List.mem_cons, not_or] at hbracket hplus hminus
    have hc : isSign c = false := by simp [isSign, Ne.symm hplus.1, Ne.symm hminus.1]
    rw [List.cons_append, fromOffset, hc, Bool.false_and, if_neg Bool.false_ne_true]
    exact ih hbracket.2 hplus.2 hminus.2

theorem precedes_name (r : Register) : Precedes r.name.toList := by
  apply precedes_of_not_mem
  all_goals exact r.not_mem_name (by decide)

theorem head?_name : ∀ r ∈ Register.all, r.name.toList.head?.map Char.isDigit = some false := by
  decide +kernel

/-- A sign before a register is not that of a displacement. -/
theorem precedes_plus_name (r : Register) : Precedes ('+' :: r.name.toList) where
  bracket h := (List.mem_cons.1 h).elim (by decide) (precedes_name r).bracket
  passed b := by
    obtain ⟨c, hc, hletter⟩ := Option.map_eq_some_iff.1 (head?_name r (Register.mem_all r))
    have hhead : (r.name.toList ++ b).head?.any Char.isDigit = false := by
      rw [List.head?_append, hc, Option.some_or, Option.any_some, hletter]
    rw [List.cons_append, fromOffset, hhead, Bool.and_false, if_neg Bool.false_ne_true,
      (precedes_name r).passed]

theorem precedes_scale (scale : Nat) : Precedes ('*' :: (toString scale).toList) := by
  have hnone : ∀ c, c ≠ '*' → c.isDigit = false → c ∉ '*' :: (toString scale).toList := by
    intro c hstar hdigit h
    rcases List.mem_cons.1 h with rfl | h
    · exact hstar rfl
    · rw [Hex.isDigit_toString h] at hdigit
      cases hdigit
  apply precedes_of_not_mem
  all_goals exact hnone _ (by decide) rfl

theorem precedes_registers (m : Memory) : Precedes (registers m).toList := by
  have hbase : Precedes (register m.base).toList := by
    cases m.base with
    | none => exact precedes_nil
    | some base => exact precedes_name base
  cases hindex : m.index with
  | none =>
    rw [registers, hindex]
    exact hbase
  | some index =>
    have hscale : Precedes (if 1 < m.scale then "*" ++ toString m.scale else "").toList := by
      split_ifs
      · rw [String.toList_append]
        exact precedes_scale m.scale
      · exact precedes_nil
    simp only [registers, hindex, String.toList_append]
    refine Precedes.append ?_ hscale
    cases hm : m.base with
    | none => exact precedes_name index
    | some base =>
      rw [hm] at hbase
      simpa [String.toList_append] using hbase.append (precedes_plus_name index)

/-! ## Memory operands -/

theorem not_mem_displacement (d : Int) : ']' ∉ (displacement d).toList := by
  have hconstant : ']' ∉ (Hex.constant d.natAbs).toList := fun h => by
    cases Hex.isNumeral_constant h
  rcases lt_trichotomy d 0 with h | rfl | h
  · rw [displacement_of_neg h]
    simpa using hconstant
  · exact List.not_mem_nil
  · rw [displacement_of_pos h]
    simpa using hconstant

theorem inBrackets_memory {i : Instruction} {m : Memory} (h : i.memoryTarget m = none) :
    inBrackets (memory i m).toList =
      (registers m).toList ++ (displacement m.displacement).toList := by
  have hplace : (place i m).toList =
      '[' :: ((registers m).toList ++ (displacement m.displacement).toList ++ [']']) := by
    simp [place, h, String.toList_append]
  have hinside : ']' ∉ (registers m).toList ++ (displacement m.displacement).toList :=
    fun hmem => (List.mem_append.1 hmem).elim (precedes_registers m).bracket
      (not_mem_displacement m.displacement)
  have hsize : '[' ∉ (sizeText m.size).toList := by
    cases m.size <;> decide
  have hcut : ∀ front, '[' ∉ front → inBrackets (front ++ (place i m).toList) =
      (registers m).toList ++ (displacement m.displacement).toList := by
    intro front hfront
    rw [inBrackets, hplace, dropWhile_cut hfront, List.drop_succ_cons, List.drop_zero,
      takeWhile_cut hinside]
  cases hs : m.segment with
  | none =>
    rw [memory_of_segment_none hs, String.toList_append]
    exact hcut _ hsize
  | some s =>
    rw [memory_of_segment_some hs, String.toList_append]
    apply hcut
    simp only [String.toList_append, List.mem_append, not_or]
    exact ⟨⟨hsize, s.not_mem_name (by decide)⟩, by decide⟩

/-- **Constants are read back as they were written.** A number below ten is its digit, any other is
in capitals with an `h` at its end, and a zero stands before it exactly where it would start with a
letter. The assembler reads the number it was written for, so that different numbers are written
differently; and the displacement of a memory operand is read from sign and magnitude, by itself and
behind registers. -/
theorem constants_read_back :
    (∀ n < 10, ∃ c : Char, c.isDigit ∧ (c = '0' ↔ n = 0) ∧ (Hex.constant n).toList = [c]) ∧
    (∀ n ≥ 10, ∃ (first : Char) (rest : List Char), first ≠ '0' ∧
      (∀ c ∈ first :: rest, Hex.isCapitalDigit c) ∧
      (Hex.constant n).toList = (if first.isDigit then [] else ['0']) ++ first :: rest ++ ['h']) ∧
    (∀ n, ∃ c, (Hex.constant n).toList.head? = some c ∧ c.isDigit) ∧
    (∀ n, Hex.readConstant? (Hex.constant n).toList = some n) ∧
    Function.Injective Hex.constant ∧
    (∀ d, readOffset? (displacement d).toList = some d) ∧
    ∀ (i : Instruction) (m : Memory), i.memoryTarget m = none →
      shownDisplacement? (memory i m) = some m.displacement := by
  refine ⟨fun n h => ?_, fun n h => ?_, Hex.head?_constant, Hex.readConstant?_constant,
    Hex.constant_injective, readOffset?_displacement, fun i m h => ?_⟩
  · exact ⟨Hex.upperDigit n, (Hex.isDigit_upperDigit_iff n (by omega)).2 h,
      Hex.upperDigit_eq_zero_iff n (by omega), Hex.toList_constant_of_lt n h⟩
  · obtain ⟨d, ds, hds, hd, htext⟩ := Hex.toList_constant_of_le h
    have hlt : ∀ e ∈ d :: ds, e < 16 := fun e he => Hex.lt_of_mem_digits (n := n) (hds ▸ he)
    have hd16 : d < 16 := hlt d List.mem_cons_self
    refine ⟨Hex.upperDigit d, ds.map Hex.upperDigit, ?_, ?_, ?_⟩
    · rwa [ne_eq, Hex.upperDigit_eq_zero_iff d hd16]
    · rw [← List.map_cons]
      intro c hc
      obtain ⟨e, he, rfl⟩ := List.mem_map.1 hc
      exact Hex.isCapitalDigit_upperDigit e (hlt e he)
    · rw [htext, hds]
      by_cases hten : d < 10
      · simp [hten, (Hex.isDigit_upperDigit_iff d hd16).2 hten]
      · have hzero : Hex.upperDigit 0 = '0' := by decide
        simp [hten, mt (Hex.isDigit_upperDigit_iff d hd16).1 hten, hzero]
  · rw [shownDisplacement?, inBrackets_memory h, (precedes_registers m).passed,
      fromOffset_displacement, readOffset?_displacement]

/-- The lowest displacement behind two registers, and a constant that starts with a letter. -/
theorem constants_read_back_lowest :
    let m : Memory := { base := some (.qword 0), index := some (.qword 9), scale := 4,
                        displacement := -2 ^ 63, segment := some (.segment .fs), size := .dword }
    (default : Instruction).memoryTarget m = none ∧
    memory default m = "dword ptr fs:[rax+r9*4-8000000000000000h]" ∧
    shownDisplacement? "dword ptr fs:[rax+r9*4-8000000000000000h]" = some (-2 ^ 63) ∧
    0xa0 ≥ 10 ∧ Hex.constant 0xa0 = "0A0h" ∧
    (∃ (first : Char) (rest : List Char), first ≠ '0' ∧
      (∀ c ∈ first :: rest, Hex.isCapitalDigit c) ∧
      "0A0h".toList = (if first.isDigit then [] else ['0']) ++ first :: rest ++ ['h']) ∧
    7 < 10 ∧ ∃ c : Char, c.isDigit ∧ (c = '0' ↔ 7 = 0) ∧ (Hex.constant 7).toList = [c] := by
  intro m
  obtain ⟨hdigit, hhexadecimal, -, -, -, -, hmemory⟩ := constants_read_back
  have htarget : (default : Instruction).memoryTarget m = none := by decide +kernel
  have htext : memory default m = "dword ptr fs:[rax+r9*4-8000000000000000h]" := by decide +kernel
  have hconstant : Hex.constant 0xa0 = "0A0h" := by decide +kernel
  refine ⟨htarget, htext, htext ▸ hmemory default m htarget, by decide, hconstant, ?_, by decide,
    hdigit 7 (by decide)⟩
  rw [← hconstant]
  exact hhexadecimal 0xa0 (by decide)

end Intel

end Disasm
