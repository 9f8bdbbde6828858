import Disasm.Proofs.Text.ATT
import Disasm.Proofs.Text.Intel

/-!
# Colons in both syntaxes

A colon follows the name of a segment and nothing else, except in a far pointer of Intel syntax.

* `ColonsIn` — each colon of a text has one of some pairs of texts around it; so it is of texts put
  together from such texts.
* `ColonFree` — no colon stands in a text: names, registers, numbers, and what follows a segment
  (`Intel.colonFree_place`, `ATT.colonFree_place`).
-/

namespace Disasm

/-! ## Colons -/

namespace Text

/-- Each colon of a text has one of these pairs of texts around it. -/
def ColonsIn (around : List (List Char × List Char)) (cs : List Char) : Prop :=
  ∀ a b, cs = a ++ ':' :: b → ∃ x ∈ around, x.1 <:+ a ∧ x.2 <+: b

variable {around : List (List Char × List Char)} {u v : List Char}

theorem colonsIn_of_not_mem (h : ':' ∉ u) : ColonsIn around u := fun a _ heq =>
  absurd (heq ▸ List.mem_append_right a List.mem_cons_self) h

theorem ColonsIn.append (hu : ColonsIn around u) (hv : ColonsIn around v) :
    ColonsIn around (u ++ v) := by
  intro a b h
  rcases List.append_eq_append_iff.1 h with ⟨x, rfl, hx⟩ | ⟨x, rfl, hx⟩
  · obtain ⟨y, hy, hsuffix, hstart⟩ := hv x b hx
    exact ⟨y, hy, hsuffix.trans (List.suffix_append u x), hstart⟩
  · cases x with
    | nil =>
      obtain ⟨y, hy, hsuffix, hstart⟩ := hv [] b hx.symm
      exact ⟨y, hy, hsuffix.trans List.nil_suffix, hstart⟩
    | cons c x =>
      obtain ⟨rfl, rfl⟩ := List.cons.inj hx
      obtain ⟨y, hy, hsuffix, hstart⟩ := hu a x rfl
      exact ⟨y, hy, hsuffix, hstart.trans (List.prefix_append x v)⟩

theorem colonsIn_colon {x : List Char × List Char} (hx : x ∈ around) (hu : ':' ∉ u) (hv : ':' ∉ v)
    (hsuffix : x.1 <:+ u) (hstart : x.2 <+: v) : ColonsIn around (u ++ ':' :: v) := by
  intro a b h
  obtain ⟨rfl, -, rfl⟩ := (List.append_cons_inj_of_notMem hu hv).1 h
  exact ⟨x, hx, hsuffix, hstart⟩

theorem ColonsIn.intercalate {sep : List Char} (hsep : ':' ∉ sep) {ts : List (List Char)}
    (hts : ∀ t ∈ ts, ColonsIn around t) : ColonsIn around (sep.intercalate ts) := by
  induction ts with
  | nil => exact colonsIn_of_not_mem List.not_mem_nil
  | cons t ts ih =>
    have ht := hts t List.mem_cons_self
    cases ts with
    | nil => rwa [List.intercalate_singleton]
    | cons t' ts =>
      rw [List.intercalate_cons_cons]
      exact (ht.append (colonsIn_of_not_mem hsep)).append
        (ih fun t ht => hts t (List.mem_cons_of_mem _ ht))

end Text

/-! ## Texts without a colon -/

namespace Text

/-- No colon stands in a text. -/
def ColonFree (s : String) : Prop := ':' ∉ s.toList

theorem ColonFree.append {s t : String} (hs : ColonFree s) (ht : ColonFree t) :
    ColonFree (s ++ t) := by
  rw [ColonFree, String.toList_append, List.mem_append, not_or]
  exact ⟨hs, ht⟩

theorem colonFree_empty : ColonFree "" := List.not_mem_nil

theorem colonFree_of_isWord {s : String} (h : isWord s) : ColonFree s := colon_not_mem_of_isWord h

theorem colonFree_of_isNumeral {s : String} (h : ∀ c ∈ s.toList, Hex.isNumeral c) : ColonFree s :=
  Hex.colon_not_mem_of_isNumeral h

theorem colonFree_name (r : Register) : ColonFree r.name :=
  r.not_mem_name (by decide)

theorem colonFree_constant (n : Nat) : ColonFree (Hex.constant n) :=
  colonFree_of_isNumeral fun _ => Hex.isNumeral_constant

theorem colonFree_toString (n : Nat) : ColonFree (toString n) :=
  colonFree_of_isNumeral fun _ => Hex.isNumeral_toString

theorem colonFree_lower (n : Nat) : ColonFree (Hex.lower n) :=
  colonFree_of_isNumeral fun _ => Hex.isNumeral_lower

theorem colonFree_signed (v : Int) : ColonFree (Hex.signed v) :=
  colonFree_of_isNumeral fun _ => Hex.isNumeral_signed

end Text

namespace Intel

open Text

theorem colonFree_register (r : Option Register) : ColonFree (register r) := by
  cases r with
  | none => exact colonFree_empty
  | some r => exact colonFree_name r

theorem colonFree_sizeText (s : DataSize) : ColonFree (sizeText s) := by
  unfold ColonFree
  cases s <;> decide

theorem colonFree_displacement (d : Int) : ColonFree (displacement d) := by
  have hsigns : ColonFree "+" ∧ ColonFree "-" := by simp [ColonFree]
  unfold displacement
  split_ifs
  · exact hsigns.1.append (colonFree_constant _)
  · exact hsigns.2.append (colonFree_constant _)
  · exact colonFree_empty

theorem colonFree_registers (m : Memory) : ColonFree (registers m) := by
  have hsigns : ColonFree "+" ∧ ColonFree "*" := by simp [ColonFree]
  unfold registers
  dsimp only
  split
  · exact colonFree_register _
  · refine ColonFree.append (ColonFree.append ?_ (colonFree_name _)) ?_
    · split_ifs
      · exact (colonFree_register _).append hsigns.1
      · exact colonFree_empty
    · split_ifs
      · exact hsigns.2.append (colonFree_toString _)
      · exact colonFree_empty

/-- What follows the segment. -/
def place (i : Instruction) (m : Memory) : String :=
  "[" ++
  (match i.memoryTarget m with
    | some target => Hex.constant target.toNat
    | none => registers m ++ displacement m.displacement) ++
  "]"

theorem colonFree_place (i : Instruction) (m : Memory) : ColonFree (place i m) := by
  have hbrackets : ColonFree "[" ∧ ColonFree "]" := by simp [ColonFree]
  refine (hbrackets.1.append ?_).append hbrackets.2
  split
  · exact colonFree_constant _
  · exact (colonFree_registers m).append (colonFree_displacement _)

theorem memory_of_segment_none {i : Instruction} {m : Memory} (h : m.segment = none) :
    memory i m = sizeText m.size ++ place i m := by
  unfold memory place
  rw [h]
  cases i.memoryTarget m <;> simp only [String.append_assoc, String.empty_append]

theorem memory_of_segment_some {i : Instruction} {m : Memory} {r : Register}
    (h : m.segment = some r) :
    memory i m = sizeText m.size ++ r.name ++ ":" ++ place i m := by
  unfold memory place
  rw [h]
  cases i.memoryTarget m <;> simp only [String.append_assoc]

end Intel

namespace ATT

open Text

theorem colonFree_register (r : Option Register) : ColonFree (register r) :=
  colon_not_mem_register r

theorem colonFree_inside (m : Memory) : ColonFree (inside m) := by
  have hcomma : ColonFree "," := by simp [ColonFree]
  unfold inside
  refine ColonFree.append ?_ ?_
  · split
    · exact colonFree_register _
    · exact colonFree_empty
  · split
    · exact ((hcomma.append (colonFree_register _)).append hcomma).append (colonFree_toString _)
    · exact colonFree_empty

theorem colonFree_place (m : Memory) : ColonFree (place m) := by
  have hparentheses : ColonFree "(" ∧ ColonFree ")" := by simp [ColonFree]
  unfold place
  split_ifs
  · exact colonFree_lower _
  · exact (colonFree_signed _).append
      (hparentheses.1.append ((colonFree_inside m).append hparentheses.2))
  · exact colonFree_empty.append
      (hparentheses.1.append ((colonFree_inside m).append hparentheses.2))

theorem colonFree_comment (i : Instruction) (os : List Operand) : ColonFree (comment i os) := by
  have hsign : ColonFree "  # " := by simp [ColonFree]
  unfold comment
  dsimp only
  split
  · exact hsign.append (colonFree_lower _)
  · exact colonFree_empty

end ATT

end Disasm
