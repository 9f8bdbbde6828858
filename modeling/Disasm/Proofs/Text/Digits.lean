import Disasm.CommandLine.Numeral
import Disasm.Text.Hex
import Mathlib

/-!
# Hexadecimal digits are read back

**Theorem (`numeral?_map_digits`).** Digits that are written so that each of them can be read are a
numeral of the number they stand for. Zeros before them do not matter (`ofDigits_replicate_append`).

So a number can be told from its plain form (`plain_injective`), from the form after `0x`
(`lower_injective`), and an integer from its sign and magnitude (`signed_injective`); and the digits
of a byte are one pair (`padded_byte`).
-/

namespace Disasm.Hex

open CommandLine

variable {n : Nat} {ds : List Nat}

/-! ## Digits and numbers -/

theorem digits_of_lt (h : n < 16) : digits n = [n] := by
  rw [digits, if_pos h]

theorem digits_of_le (h : 16 ≤ n) : digits n = digits (n / 16) ++ [n % 16] := by
  rw [digits, if_neg (Nat.not_lt.2 h)]

theorem ofDigits_append_singleton (base : Nat) (ds : List Nat) (d : Nat) :
    ofDigits base (ds ++ [d]) = base * ofDigits base ds + d := by
  rw [ofDigits, List.foldl_append]
  rfl

theorem ofDigits_digits (n : Nat) : ofDigits 16 (digits n) = n := by
  induction n using digits.induct with
  | case1 n hlt =>
    rw [digits_of_lt hlt]
    exact Nat.zero_add n
  | case2 n hge ih =>
    rw [digits_of_le (Nat.not_lt.1 hge), ofDigits_append_singleton, ih]
    exact Nat.div_add_mod n 16

theorem ofDigits_replicate_append (base k : Nat) (ds : List Nat) :
    ofDigits base (List.replicate k 0 ++ ds) = ofDigits base ds := by
  induction k with
  | zero => rfl
  | succ k ih =>
    rw [List.replicate_succ, List.cons_append, ← ih]
    rfl

/-! ## Reading -/

theorem digit?_lowerDigit : ∀ d < 16, digit? 16 (lowerDigit d) = some d := by decide

/-- Digits, each written so that it can be read, are a numeral of their number. -/
theorem numeral?_map_digits {base : Nat} {write : Nat → Char} (hne : ds ≠ [])
    (hwrite : ∀ d ∈ ds, digit? base (write d) = some d) :
    numeral? base (ds.map write) = some (ofDigits base ds) := by
  have hread : (ds.map write).mapM (digit? base) = some ds := by
    clear hne
    induction ds with
    | nil => rfl
    | cons d ds ih =>
      rw [List.map_cons, List.mapM_cons, hwrite d List.mem_cons_self,
        ih fun d hd => hwrite d (List.mem_cons_of_mem _ hd)]
      rfl
  rw [numeral?, if_neg (by simpa using hne), hread, Option.map_some]

theorem numeral?_plain (n : Nat) : numeral? 16 (plain n).toList = some n := by
  rw [plain, String.toList_ofList, numeral?_map_digits (digits_ne_nil n)
    fun d hd => digit?_lowerDigit d (lt_of_mem_digits hd), ofDigits_digits]

theorem plain_injective : Function.Injective plain := fun m n h => by
  have hnumeral := numeral?_plain m
  rw [h, numeral?_plain] at hnumeral
  exact (Option.some.inj hnumeral).symm

theorem lower_injective : Function.Injective lower := fun _ _ h =>
  plain_injective ((String.append_right_inj _).1 h)

theorem lower_ne_minus (n : Nat) (s : String) : lower n ≠ "-" ++ s := fun h => by
  have hhead := congrArg (fun s => s.toList.head?) h
  simp [lower, String.toList_append] at hhead

/-- Sign and magnitude tell any two integers apart. -/
theorem signed_injective : Function.Injective signed := fun v w h => by
  unfold signed at h
  split_ifs at h with hv hw hw
  · have := lower_injective ((String.append_right_inj _).1 h)
    omega
  · exact absurd h.symm (lower_ne_minus _ _)
  · exact absurd h (lower_ne_minus _ _)
  · have := lower_injective h
    omega

theorem signed_ne_empty (v : Int) : signed v ≠ "" := fun h => by
  have hlength := congrArg String.length h
  unfold signed lower at hlength
  split_ifs at hlength <;> simp [String.length_append] at hlength

/-! ## Fixed widths -/

theorem toList_padded (width n : Nat) : (padded width n).toList =
    (List.replicate (width - (digits n).length) 0 ++ digits n).map lowerDigit := by
  rw [padded, String.toList_ofList, List.leftpad, List.length_map, List.map_append,
    List.map_replicate]
  rfl

theorem le_length_padded (width n : Nat) : width ≤ (padded width n).toList.length := by
  rw [toList_padded, List.length_map, List.length_append, List.length_replicate]
  omega

/-- The zeros before a number are digits too. -/
theorem lt_of_mem_filled {k d : Nat} (h : d ∈ List.replicate k 0 ++ digits n) : d < 16 := by
  rcases List.mem_append.1 h with h | h
  · rw [List.eq_of_mem_replicate h]
    decide
  · exact lt_of_mem_digits h

theorem exists_digit_of_mem_padded {width : Nat} {c : Char} (h : c ∈ (padded width n).toList) :
    ∃ d < 16, c = lowerDigit d := by
  rw [toList_padded] at h
  obtain ⟨d, hd, rfl⟩ := List.mem_map.1 h
  exact ⟨d, lt_of_mem_filled hd, rfl⟩

theorem not_mem_padded {c : Char} (h : ∀ d < 16, c ≠ lowerDigit d) (width n : Nat) :
    c ∉ (padded width n).toList := by
  intro hc
  obtain ⟨d, hd, heq⟩ := exists_digit_of_mem_padded hc
  exact h d hd heq

theorem numeral?_padded (width n : Nat) : numeral? 16 (padded width n).toList = some n := by
  rw [toList_padded, numeral?_map_digits (List.append_ne_nil_of_right_ne_nil _ (digits_ne_nil n))
    fun d hd => digit?_lowerDigit d (lt_of_mem_filled hd), ofDigits_replicate_append,
    ofDigits_digits]

/-- No digit is taken for the mark of a numeral. -/
theorem dropMark_of_not_mem {cs : List Char} (hx : 'x' ∉ cs) (hX : 'X' ∉ cs) :
    dropMark cs = cs := by
  unfold dropMark
  split
  · exact absurd (List.mem_cons_of_mem _ List.mem_cons_self) hx
  · exact absurd (List.mem_cons_of_mem _ List.mem_cons_self) hX
  · rfl

theorem hexadecimal?_padded (width : Nat) (h : n < UInt64.size) :
    hexadecimal? (padded width n) = some n := by
  rw [hexadecimal?, dropMark_of_not_mem (not_mem_padded (by decide) width n)
    (not_mem_padded (by decide) width n), numeral?_padded, Option.filter_some,
    if_pos (decide_eq_true h)]

/-- The two digits of a byte. -/
theorem padded_byte (b : UInt8) : (padded 2 b.toNat).toList =
    [lowerDigit (b.toNat / 16), lowerDigit (b.toNat % 16)] := by
  have hlt : b.toNat < 256 := b.toNat_lt
  rw [toList_padded]
  by_cases h : b.toNat < 16
  · rw [digits_of_lt h, Nat.div_eq_of_lt h, Nat.mod_eq_of_lt h]
    rfl
  · rw [digits_of_le (Nat.not_lt.1 h), digits_of_lt (Nat.div_lt_of_lt_mul hlt)]
    rfl

end Disasm.Hex
