import Disasm.Proofs.Text.Access
import Disasm.Proofs.Text.Words

/-!
# What a suffix tells

AT&T operands carry no size. Where no register implies the size of an access, the mnemonic has a
suffix. Whether the rule suffices is a question about the forms that have memory operands, and is
answered by going through their outlines (`accesses`):

* `suffixed_not_mem_vocabulary` — a mnemonic with a suffix is no other operation's name, except
  that MOV of a constant to a quadword reads like MOVQ;
* `size_eq_of_suffix_eq` — mnemonic, suffix and the first register tell the size of the access,
  except for the operations in `ATT.unmarked`.
-/

namespace Disasm

open Text

/-! ## Suffixes -/

namespace Register

/-- The kind of a register, as a number. -/
def family : Register → Nat
  | byte _ | high _ => 0
  | word _ => 1
  | dword _ => 2
  | qword _ => 3
  | segment _ => 4
  | control _ => 5
  | debug _ => 6
  | mmx _ => 7
  | xmm _ => 8
  | x87 _ => 9
  | ip _ => 10

theorem family_outline (r : Register) : r.outline.family = r.family := by
  cases r with
  | byte n => rcases outline_byte n with ⟨-, ho⟩ | ⟨-, ho⟩ <;> rw [ho] <;> rfl
  | _ => rfl

theorem isGeneral_outline (r : Register) : r.outline.isGeneral = r.isGeneral := by
  cases r with
  | byte n => rcases outline_byte n with ⟨-, ho⟩ | ⟨-, ho⟩ <;> rw [ho] <;> rfl
  | _ => rfl

theorem outline_eq_cl_iff (r : Register) : r.outline = cl ↔ r = cl := by
  cases r with
  | byte n =>
    rcases outline_byte n with ⟨h, ho⟩ | ⟨h, ho⟩ <;> rw [ho]
    · exact iff_of_true rfl h
    · exact iff_of_false (by decide) h
  | high n => exact iff_of_false (show byte (low4 0) ≠ cl by decide) (by intro h; cases h)
  | _ => exact iff_of_false (by intro h; cases h) (by intro h; cases h)

end Register

namespace Instruction

/-- The family of the first register among the operands, if there is one. -/
def firstFamily (i : Instruction) : Option Nat :=
  (i.operands.findSome? Operand.register?).map Register.family

theorem firstFamily_outline (i : Instruction) : i.outline.firstFamily = i.firstFamily := by
  unfold firstFamily outline
  dsimp only
  induction i.operands with
  | nil => rfl
  | cons o rest ih =>
    rw [List.map_cons, List.findSome?_cons, List.findSome?_cons]
    cases o with
    | register r =>
      cases r with
      | none => exact ih
      | some r => simp [Operand.outline, Operand.register?, Register.family_outline]
    | _ => exact ih

end Instruction

namespace ATT

theorem impliesSize_outline (m : Mnemonic) (place : Nat) (o : Operand) :
    impliesSize m place o.outline = impliesSize m place o := by
  cases o with
  | register r =>
    cases r with
    | none => rfl
    | some r =>
      simp [Operand.outline, impliesSize, Register.isGeneral_outline, Register.outline_eq_cl_iff]
  | _ => rfl

/-- Whether a register tells the size of the operation. -/
def isImplied (i : Instruction) : Bool :=
  i.operands.zipIdx.any fun (o, place) => impliesSize i.mnemonic place o

theorem isImplied_outline (i : Instruction) : isImplied i.outline = isImplied i := by
  unfold isImplied Instruction.outline
  rw [List.zipIdx_map, List.any_map]
  simp only [Function.comp_def, Prod.map, impliesSize_outline, id]

/-- The suffix for an access of this size. -/
def suffixFor (m : Mnemonic) (size : DataSize) : String :=
  if m.isX87 then x87Suffix m size else if m.isVector then "" else integerSuffix size

/-- The suffix of an operation that is no branch and works on no string. -/
def sizeSuffix (i : Instruction) : String :=
  if isImplied i then "" else (i.accessSize.map (suffixFor i.mnemonic)).getD ""

theorem suffix_eq_sizeSuffix {i : Instruction} (h : i.mnemonic.isBranch = false)
    (hs : i.isString = false) : suffix i = sizeSuffix i := by
  unfold suffix sizeSuffix isImplied Instruction.accessSize
  simp only [h, hs, Bool.or_self, Bool.false_eq_true, if_false]
  cases (i.operands.filterMap Operand.memory?).getLast? <;> rfl

theorem sizeSuffix_outline (i : Instruction) : sizeSuffix i.outline = sizeSuffix i := by
  rw [sizeSuffix, isImplied_outline, i.accessSize_outline]
  rfl

/-! ## What a line shows of an access -/

/-- Operations of which a line does not show the size of the access, or not by a suffix. -/
def unmarked : List Mnemonic :=
  [.CALL, .JMP, .CALLF, .JMPF, .CRC32, .CVTSI2SS, .CVTSI2SD, .MOVZX, .MOVSX, .MOVSXD]

/-- The outlines of which a line shows the size without a suffix. -/
def impliedAccesses : List Instruction :=
  accesses.filter fun o =>
    !unmarked.contains o.mnemonic && (o.mnemonic.isVector || (sizeSuffix o).isEmpty)

/-- The mnemonic and the family of the first register as a number, and the size of the access. -/
def impliedEntry (o : Instruction) : Nat × Nat :=
  (16 * o.mnemonic.number + o.firstFamily.getD 15, (o.accessSize.map DataSize.ctorIdx).getD 0)

/-- A table as a number that has four bits for each key, in which the value follows 1. -/
def table (entries : List (Nat × Nat)) : Nat :=
  entries.foldr
    (fun (k, v) t => if (t >>> (4 * k)) % 16 = 0 then t ||| (v + 1) <<< (4 * k) else t) 0

theorem table_impliedAccesses : ∀ o ∈ impliedAccesses,
    (table (impliedAccesses.map impliedEntry) >>> (4 * (impliedEntry o).1)) % 16 =
      (impliedEntry o).2 + 1 := by
  decide +kernel

theorem table_determines {o o' : Instruction} (ho : o ∈ impliedAccesses)
    (ho' : o' ∈ impliedAccesses) (h : (impliedEntry o).1 = (impliedEntry o').1) :
    (impliedEntry o).2 = (impliedEntry o').2 := by
  have hv := table_impliedAccesses o ho
  have hv' := table_impliedAccesses o' ho'
  rw [h, hv'] at hv
  exact (Nat.succ.inj hv).symm

/-- A mnemonic with a suffix is no word of the vocabulary, except that MOV of a constant to a
quadword reads like MOVQ. -/
theorem suffixed_accesses : ∀ o ∈ accesses, o.mnemonic.isVector || (sizeSuffix o).isEmpty ||
    !(bits (vocabulary.map code)).testBit (code (o.mnemonic.name ++ sizeSuffix o)) ||
    o.mnemonic = .MOV && sizeSuffix o = "q" && o.operands.getLast? = some (.immediate {}) := by
  decide +kernel

theorem integerSuffix_inj {s t : DataSize} (hne : integerSuffix s ≠ "")
    (h : integerSuffix s = integerSuffix t) : s = t := by
  cases s <;> cases t <;> first | rfl | exact absurd rfl hne | exact absurd h (by decide)

theorem x87Suffix_inj {m : Mnemonic} {s t : DataSize} (hne : x87Suffix m s ≠ "")
    (h : x87Suffix m s = x87Suffix m t) : s = t := by
  unfold x87Suffix at hne h
  split_ifs at hne h
  · cases s <;> cases t <;> first | rfl | exact absurd rfl hne | exact absurd h (by decide)
  · cases s <;> cases t <;> first | rfl | exact absurd rfl hne | exact absurd h (by decide)
  · exact absurd rfl hne

theorem suffixFor_inj {m : Mnemonic} {s t : DataSize} (hne : suffixFor m s ≠ "")
    (h : suffixFor m s = suffixFor m t) : s = t := by
  unfold suffixFor at hne h
  split_ifs at hne h
  · exact x87Suffix_inj hne h
  · exact absurd rfl hne
  · exact integerSuffix_inj hne h

theorem sizeSuffix_of_isVector {i : Instruction} (h : i.mnemonic.isVector) : sizeSuffix i = "" := by
  have hx87 : i.mnemonic.isX87 = false := by
    simp only [Mnemonic.isVector, Mnemonic.isX87, decide_eq_true_eq, decide_eq_false_iff_not] at h ⊢
    omega
  unfold sizeSuffix
  split_ifs
  · rfl
  · cases i.accessSize with
    | none => rfl
    | some s => simp [suffixFor, hx87, h]

end ATT

/-! ## Records -/

namespace Instruction.Composed

variable {i j : Instruction} {f g : Form} {wide wide' : Bool}

theorem suffix_eq (h : i.Composed f wide) (hm : i.operands.any Operand.isMemory)
    (hmarked : i.mnemonic ∉ ATT.unmarked) : ATT.suffix i = ATT.sizeSuffix i := by
  refine ATT.suffix_eq_sizeSuffix (Bool.eq_false_of_not_eq_true fun hb => hmarked ?_)
    (h.isString_eq_false hm)
  rcases h.isBranch_of_memory hm hb with hname | hname <;> rw [hname] <;> decide

/-- A record with a suffix is an operation on memory, and the suffix is that of its size. -/
theorem outline_mem_accesses_of_suffix (h : i.Composed f wide) (hne : ATT.suffix i ≠ "") :
    i.outline ∈ accesses ∧ ATT.suffix i = ATT.sizeSuffix i := by
  have hplain : i.mnemonic.isBranch = false ∧ i.isString = false := by
    rw [← Bool.or_eq_false_iff]
    by_contra htrue
    exact hne (by rw [ATT.suffix, if_pos (Bool.eq_true_of_not_eq_false htrue)])
  have heq := ATT.suffix_eq_sizeSuffix hplain.1 hplain.2
  refine ⟨h.outline_mem_accesses (Bool.eq_true_of_not_eq_false fun hm => hne ?_), heq⟩
  have hnone : i.accessSize = none := by
    rw [accessSize, List.filterMap_eq_nil_iff.2 fun o ho => ?_]
    · rfl
    · have := List.any_eq_false.1 hm o ho
      rwa [Operand.isMemory, Option.not_isSome_iff_eq_none] at this
  rw [heq, ATT.sizeSuffix, hnone]
  split_ifs <;> rfl

/-- A mnemonic with its suffix is no other operation's name, except that MOV of a constant to a
quadword reads like MOVQ. -/
theorem suffixed_not_mem_vocabulary (h : i.Composed f wide) (hne : ATT.suffix i ≠ "") :
    i.mnemonic.name ++ ATT.suffix i ∉ vocabulary ∨
      i.mnemonic = .MOV ∧ ATT.suffix i = "q" ∧ ∃ v, i.operands.getLast? = some (.immediate v) := by
  obtain ⟨hmem, heq⟩ := h.outline_mem_accesses_of_suffix hne
  have hcheck := ATT.suffixed_accesses _ hmem
  rw [ATT.sizeSuffix_outline, ← heq] at hcheck
  simp only [Bool.or_eq_true, Bool.and_eq_true, decide_eq_true_eq, Bool.not_eq_true'] at hcheck
  rcases hcheck with ((hvector | hempty) | hbit) | ⟨⟨hmov, hq⟩, hlast⟩
  · exact absurd (heq.trans (ATT.sizeSuffix_of_isVector hvector)) hne
  · exact absurd (by simpa using hempty) hne
  · refine Or.inl fun hword => ?_
    have hset := (testBit_bits (vocabulary.map code) _).2 (List.mem_map_of_mem hword)
    cases hset.symm.trans hbit
  · refine Or.inr ⟨hmov, hq, ?_⟩
    rw [outline, List.getLast?_map] at hlast
    obtain ⟨o, ho, himmediate⟩ := Option.map_eq_some_iff.1 hlast
    cases o with
    | immediate v => exact ⟨v, ho⟩
    | _ => cases himmediate

/-- **The size of an access is shown.** Where two records have the same mnemonic and suffix and
registers of one family come first, what they access has one size. -/
theorem size_eq_of_suffix_eq (hi : i.Composed f wide) (hj : j.Composed g wide') {m m' : Memory}
    (hm : .memory m ∈ i.operands) (hm' : .memory m' ∈ j.operands) (hname : i.mnemonic = j.mnemonic)
    (hmarked : i.mnemonic ∉ ATT.unmarked) (hsuffix : ATT.suffix i = ATT.suffix j)
    (hfirst : i.firstFamily = j.firstFamily) : m.size = m'.size := by
  have hsize := hi.accessSize_eq hm
  have hsize' := hj.accessSize_eq hm'
  rw [hi.suffix_eq (any_isMemory hm) hmarked,
    hj.suffix_eq (any_isMemory hm') (hname ▸ hmarked)] at hsuffix
  by_cases hempty : ATT.sizeSuffix i = ""
  · -- Nothing is printed: the table of such accesses decides.
    have hentry : ∀ {k : Instruction} {e : Form} {w : Bool}, k.Composed e w →
        k.operands.any Operand.isMemory → k.mnemonic ∉ ATT.unmarked → ATT.sizeSuffix k = "" →
          k.outline ∈ ATT.impliedAccesses := fun hk hmem hmark hnone =>
      List.mem_filter.2 ⟨hk.outline_mem_accesses hmem, by
        rw [ATT.sizeSuffix_outline, hnone]
        simpa [outline] using hmark⟩
    have htable := ATT.table_determines (hentry hi (any_isMemory hm) hmarked hempty)
      (hentry hj (any_isMemory hm') (hname ▸ hmarked) (hsuffix ▸ hempty)) (by
        simp only [ATT.impliedEntry, firstFamily_outline, hfirst]
        simp only [outline, hname])
    simp only [ATT.impliedEntry, accessSize_outline, hsize, hsize', Option.map_some,
      Option.getD_some] at htable
    revert htable
    cases m.size <;> cases m'.size <;> decide
  · have hprinted : ∀ {k : Instruction} {s : DataSize}, k.accessSize = some s →
        ATT.sizeSuffix k ≠ "" → ATT.sizeSuffix k = ATT.suffixFor k.mnemonic s := fun hs hne => by
      unfold ATT.sizeSuffix at hne ⊢
      split_ifs at hne ⊢
      · exact absurd rfl hne
      · rw [hs]
        rfl
    have hempty' : ATT.sizeSuffix j ≠ "" := hsuffix ▸ hempty
    rw [hprinted hsize hempty, hprinted hsize' hempty', hname] at hsuffix
    rw [hprinted hsize hempty, hname] at hempty
    exact ATT.suffixFor_inj hempty hsuffix

end Instruction.Composed

end Disasm
