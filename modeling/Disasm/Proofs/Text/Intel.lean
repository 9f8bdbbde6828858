import Disasm.Proofs.Text.Words

/-!
# What a line of Intel syntax names

**Theorem (`mnemonic_eq_of_intel_text_eq`).** Two instructions with the same line have the same
mnemonic, with one exception outside 64-bit mode: a near call (or jump) through a doubleword in
memory reads like a far one through a pointer of two words.

A line gives a name and operands. The name is the mnemonic's own, except that

* string operations with operands go by families (`movs`); the size of the element is told by the
  operands (`StringForm.lead`);
* far calls and jumps go by the names of the near ones. Their operands are told apart by the words
  before the brackets: both have a size to print, and sizes differ except for the exception.
-/

namespace Disasm

namespace Intel

open Text

variable {i j : Instruction}

/-! ## Names -/

theorem family_mem_families : ∀ x ∈ StringForm.all, x.2.family ∈ families := by decide

theorem mem_all_of_stringForm? {f : StringForm} (h : i.stringForm? = some f) :
    (i.mnemonic, f) ∈ StringForm.all := by
  unfold Instruction.stringForm? at h
  split_ifs at h
  exact mem_of_lookup_eq_some h

theorem name_of_stringForm? {f : StringForm} (h : i.stringForm? = some f) : name i = f.family := by
  rw [name, h]

/-- The mnemonic under whose name an instruction without such a form is printed. -/
def printed (m : Mnemonic) : Mnemonic :=
  if m = .CALLF then .CALL else if m = .JMPF then .JMP else m

theorem name_of_stringForm?_eq_none (h : i.stringForm? = none) :
    name i = (printed i.mnemonic).name := by
  unfold name printed
  rw [h]
  dsimp only
  split_ifs <;> rfl

theorem families_isName : ∀ s ∈ families, IsName s := fun s h =>
  ⟨isWord_of_mem_vocabulary _ (mem_vocabulary_of_mem_families h), by revert s; decide⟩

theorem isName_name (i : Instruction) : IsName (name i) := by
  cases h : i.stringForm? with
  | some f =>
    rw [name_of_stringForm? h]
    exact families_isName _ (family_mem_families _ (mem_all_of_stringForm? h))
  | none =>
    rw [name_of_stringForm?_eq_none h]
    exact isName_of_mem_names (mem_names _)

theorem separated_operands (i : Instruction) : Separated (operands i).toList := by
  unfold operands
  dsimp only
  split_ifs
  · exact separated_nil
  · rw [String.toList_append]
    exact separated_space _

/-! ## Sizes before brackets -/

/-- No size's words are the beginning of another's. -/
theorem sizeText_prefixFree : ∀ s ∈ DataSize.all, ∀ t ∈ DataSize.all, s ≠ .none → t ≠ .none →
    (sizeText s).toList <+: (sizeText t).toList → s = t := by
  decide +kernel

theorem mem_all_size (s : DataSize) : s ∈ DataSize.all := by cases s <;> decide

theorem sizeText_append_inj {s t : DataSize} (hs : s ≠ .none) (ht : t ≠ .none) {u v : String}
    (h : sizeText s ++ u = sizeText t ++ v) : s = t := by
  rcases isPrefix_or_isPrefix h with hp | hp
  · exact sizeText_prefixFree s (mem_all_size s) t (mem_all_size t) hs ht hp
  · exact (sizeText_prefixFree t (mem_all_size t) s (mem_all_size s) ht hs hp).symm

theorem exists_memory_eq (i : Instruction) (m : Memory) : ∃ u, memory i m = sizeText m.size ++ u :=
  ⟨_, by simp only [memory, String.append_assoc]; rfl⟩

theorem operands_of_ne_nil (h : i.shownOperands ≠ []) :
    operands i = " " ++ ", ".intercalate (i.shownOperands.map (operand i)) := by
  unfold operands
  dsimp only
  rw [if_neg (by simpa using h)]

/-- A line's operands start as the first of them does. -/
theorem operands_of_cons {o : Operand} {os : List Operand} {t u : String}
    (h : i.shownOperands = o :: os) (ho : operand i o = t ++ u) :
    ∃ v, operands i = " " ++ (t ++ v) := by
  refine ⟨", ".intercalate (u :: os.map (operand i)), ?_⟩
  rw [operands_of_ne_nil (by rw [h]; exact List.cons_ne_nil o os), h, List.map_cons, ho,
    String.intercalate_cons_append]

/-! ## String operations with operands -/

/-- How the operands of a string operation start. -/
def lead (f : StringForm) : String :=
  match f.shape with
  | .move | .compare => sizeText f.size
  | .load => register (Register.gpr (low4 0) f.size false)
  | .output => "dx, " ++ sizeText f.size

/-- Within a family, operands start differently for each size of element. -/
theorem lead_prefixFree : ∀ x ∈ StringForm.all, ∀ y ∈ StringForm.all, x.2.family = y.2.family →
    (lead x.2).toList <+: (lead y.2).toList → x.1 = y.1 := by
  decide +kernel

theorem operands_of_stringForm? {f : StringForm} (h : i.stringForm? = some f) :
    ∃ u, operands i = " " ++ (lead f ++ u) := by
  have hshown := Instruction.shownOperands_of_some h
  obtain ⟨family, shape, size⟩ := f
  obtain ⟨u, hu⟩ := exists_memory_eq i (StringForm.source ⟨family, shape, size⟩ i)
  cases shape with
  | move =>
    obtain ⟨v, hv⟩ := exists_memory_eq i (StringForm.destination ⟨family, .move, size⟩ i)
    exact operands_of_cons hshown hv
  | compare => exact operands_of_cons hshown hu
  | load => exact operands_of_cons (u := "") hshown String.append_empty.symm
  | output =>
    refine ⟨u, ?_⟩
    rw [operands_of_ne_nil (by rw [hshown]; exact List.cons_ne_nil _ _), hshown]
    simp only [StringForm.operands, List.map_cons, List.map_nil, String.intercalate_cons_cons,
      String.intercalate_singleton, lead, operand, hu, String.append_assoc]
    rfl

theorem mnemonic_eq_of_stringForms {f g : StringForm} (hf : i.stringForm? = some f)
    (hg : j.stringForm? = some g) (hname : name i = name j) (hops : operands i = operands j) :
    i.mnemonic = j.mnemonic := by
  rw [name_of_stringForm? hf, name_of_stringForm? hg] at hname
  obtain ⟨u, hu⟩ := operands_of_stringForm? hf
  obtain ⟨v, hv⟩ := operands_of_stringForm? hg
  rw [hu, hv] at hops
  have hi := mem_all_of_stringForm? hf
  have hj := mem_all_of_stringForm? hg
  rcases isPrefix_or_isPrefix ((String.append_right_inj _).1 hops) with hp | hp
  · exact lead_prefixFree _ hi _ hj hname hp
  · exact (lead_prefixFree _ hj _ hi hname.symm hp).symm

/-! ## Calls and jumps -/

/-- A near call or jump through a doubleword in memory, and the far one through a pointer of two
words. Both pointers have 32 bits, and no other word of the line tells them apart. -/
structure ReadsAlike (near far : Instruction) : Prop where
  mnemonics : near.mnemonic = .CALL ∧ far.mnemonic = .CALLF ∨
    near.mnemonic = .JMP ∧ far.mnemonic = .JMPF
  near_memory : near.operationSize = .dword ∧ ∃ m, near.operands = [.memory m]
  far_memory : far.operationSize = .word ∧ ∃ m, far.operands = [.memory m]

theorem operands_of_singleton {o : Operand} (h : i.shownOperands = [o]) :
    operands i = " " ++ operand i o := by
  rw [operands_of_ne_nil (by rw [h]; exact List.cons_ne_nil _ _), h, List.map_singleton,
    String.intercalate_singleton]

theorem space_not_mem_register (r : Option Register) : ' ' ∉ (register r).toList := by
  cases r with
  | none => exact List.not_mem_nil
  | some r => exact r.not_mem_name (by decide)

theorem space_not_mem_constant (n : Nat) : ' ' ∉ (Hex.constant n).toList := fun h => by
  cases Hex.isNumeral_constant h

theorem space_mem_sizeText_append {s : DataSize} (hs : s ≠ .none) (u : String) :
    ' ' ∈ (sizeText s ++ u).toList := by
  rw [String.toList_append]
  refine List.mem_append_left _ ?_
  cases s <;> first | exact absurd rfl hs | decide

theorem space_mem_far (p : FarPointer) : ' ' ∈ (operand i (.far p)).toList := by
  simp [operand]

/-- The sizes of the pointers that near and far calls go through agree only where the operation
sizes do not. -/
theorem eq_of_pointer_size_eq {s t : DataSize} (hs : s ∈ [.word, .dword, .qword])
    (h : s = OperandType.size .p t false) : s = .dword ∧ t = .word := by
  unfold OperandType.size at h
  dsimp only at h
  split_ifs at h with hword hqword
  · exact ⟨h, hword⟩
  · subst h
    exact absurd hs (by decide)
  · subst h
    exact absurd hs (by decide)

theorem not_prefix_far : ∀ s ∈ [DataSize.word, .dword, .qword],
    ¬ (sizeText s).toList <+: "far ptr ".toList ∧ ¬ "far ptr ".toList <+: (sizeText s).toList := by
  decide +kernel

theorem readsAlike_of_operands_eq {f g : Form} {wide wide' : Bool} (hi : i.Composed f wide)
    (hj : j.Composed g wide')
    (hm : i.mnemonic = .CALL ∧ j.mnemonic = .CALLF ∨ i.mnemonic = .JMP ∧ j.mnemonic = .JMPF)
    (hsi : i.stringForm? = none) (hsj : j.stringForm? = none) (hops : operands i = operands j) :
    i.mode ≠ .m64 ∧ ReadsAlike i j := by
  obtain ⟨hlong, hnear⟩ := hi.near_operands (hm.imp And.left And.left)
  have hfar := hj.far_operands (hm.imp And.right And.right)
  have hone : ∀ {o o' : Operand}, i.operands = [o] → j.operands = [o'] →
      operand i o = operand j o' := fun ho ho' => by
    rw [operands_of_singleton ((Instruction.shownOperands_of_none hsi).trans ho),
      operands_of_singleton ((Instruction.shownOperands_of_none hsj).trans ho')] at hops
    exact (String.append_right_inj _).1 hops
  have hpointer : OperandType.size .p j.operationSize false ≠ .none := by
    unfold OperandType.size
    dsimp only
    split_ifs <;> decide
  -- The far operand has a space in it, so the near one is no number and no register.
  have hspace : ∃ o, j.operands = [o] ∧ ' ' ∈ (operand j o).toList := by
    rcases hfar with ⟨-, p, hp⟩ | ⟨m, hm, hsize⟩
    · exact ⟨_, hp, space_mem_far p⟩
    · obtain ⟨u, hu⟩ := exists_memory_eq j m
      refine ⟨_, hm, ?_⟩
      rw [operand, hu, hsize]
      exact space_mem_sizeText_append hpointer u
  obtain ⟨o, ho, hspace⟩ := hspace
  rcases hnear with ⟨r, hr⟩ | ⟨r, hr⟩ | ⟨m, hmem, hsize⟩
  · rw [← hone hr ho] at hspace
    exact absurd hspace (space_not_mem_constant _)
  · rw [← hone hr ho] at hspace
    exact absurd hspace (space_not_mem_register r)
  · obtain ⟨u, hu⟩ := exists_memory_eq i m
    rcases hfar with ⟨-, p, hp⟩ | ⟨m', hmem', hsize'⟩
    · have heq := hone hmem hp
      rw [operand, hu, hsize, operand, String.append_assoc, String.append_assoc] at heq
      have hnot := not_prefix_far _ hi.operationSize_mem
      exact absurd (isPrefix_or_isPrefix heq) (not_or_intro hnot.1 hnot.2)
    · obtain ⟨v, hv⟩ := exists_memory_eq j m'
      have heq := hone hmem hmem'
      rw [operand, hu, hsize, operand, hv, hsize'] at heq
      have hne : i.operationSize ≠ .none := fun h => by
        have := hi.operationSize_mem
        rw [h] at this
        exact absurd this (by decide)
      obtain ⟨hdword, hword⟩ :=
        eq_of_pointer_size_eq hi.operationSize_mem (sizeText_append_inj hne hpointer heq)
      refine ⟨fun hmode => ?_, hm, ⟨hdword, m, hmem⟩, hword, m', hmem'⟩
      rw [hlong hmode] at hdword
      cases hdword

/-! ## Lines -/

theorem printed_eq_or (m : Mnemonic) :
    printed m = m ∨ m = .CALLF ∧ printed m = .CALL ∨ m = .JMPF ∧ printed m = .JMP := by
  unfold printed
  split_ifs with hcall hjmp
  · exact Or.inr (Or.inl ⟨hcall, rfl⟩)
  · exact Or.inr (Or.inr ⟨hjmp, rfl⟩)
  · exact Or.inl rfl

/-- What the same name in print leaves open. -/
theorem eq_or_near_far_of_printed_eq {m m' : Mnemonic} (h : printed m = printed m') :
    m = m' ∨ (m = .CALL ∧ m' = .CALLF ∨ m = .JMP ∧ m' = .JMPF) ∨
      (m' = .CALL ∧ m = .CALLF ∨ m' = .JMP ∧ m = .JMPF) := by
  rcases printed_eq_or m with hm | ⟨rfl, hm⟩ | ⟨rfl, hm⟩ <;>
    rcases printed_eq_or m' with hm' | ⟨rfl, hm'⟩ | ⟨rfl, hm'⟩ <;> simp_all

/-- Only string operations with operands have the name of a family. -/
theorem name_ne_of_stringForm? {f : StringForm} (hi : i.stringForm? = some f)
    (hj : j.stringForm? = none) : name i ≠ name j := fun h => by
  rw [name_of_stringForm? hi, name_of_stringForm?_eq_none hj] at h
  exact not_mem_families_of_mem_names (mem_names (printed j.mnemonic))
    (h ▸ family_mem_families _ (mem_all_of_stringForm? hi))

theorem mnemonic_eq_or_readsAlike {f g : Form} {wide wide' : Bool} (hi : i.Composed f wide)
    (hj : j.Composed g wide') (h : text i = text j) :
    i.mnemonic = j.mnemonic ∨ i.mode ≠ .m64 ∧ ReadsAlike i j ∨ j.mode ≠ .m64 ∧ ReadsAlike j i := by
  obtain ⟨hname, hops⟩ := Instruction.line_inj hi.override_eq hj.override_eq (isName_name i)
    (isName_name j) (separated_operands i) (separated_operands j) h
  cases hsi : i.stringForm? with
  | some f =>
    cases hsj : j.stringForm? with
    | some g => exact Or.inl (mnemonic_eq_of_stringForms hsi hsj hname hops)
    | none => exact absurd hname (name_ne_of_stringForm? hsi hsj)
  | none =>
    cases hsj : j.stringForm? with
    | some g => exact absurd hname.symm (name_ne_of_stringForm? hsj hsi)
    | none =>
      rw [name_of_stringForm?_eq_none hsi, name_of_stringForm?_eq_none hsj] at hname
      rcases eq_or_near_far_of_printed_eq (Mnemonic.name_injective hname) with heq | hm | hm
      · exact Or.inl heq
      · exact Or.inr (Or.inl (readsAlike_of_operands_eq hi hj hm hsi hsj hops))
      · exact Or.inr (Or.inr (readsAlike_of_operands_eq hj hi hm hsj hsi hops.symm))

end Intel

/-- **Intel lines name their operation.** Two instructions of one mode with the same line have the
same mnemonic, or they are, outside 64-bit mode, a near call or jump through a doubleword and the
far one through a pointer of two words. -/
theorem mnemonic_eq_of_intel_text_eq {mode : Mode} {address address' : UInt64}
    {bytes bytes' : List UInt8} (h : (decode mode address bytes).isValid)
    (h' : (decode mode address' bytes').isValid)
    (htext : (decode mode address bytes).text .intel = (decode mode address' bytes').text .intel) :
    (decode mode address bytes).mnemonic = (decode mode address' bytes').mnemonic ∨
      mode ≠ .m64 ∧
        (Intel.ReadsAlike (decode mode address bytes) (decode mode address' bytes') ∨
          Intel.ReadsAlike (decode mode address' bytes') (decode mode address bytes)) := by
  obtain ⟨f, wide, hi⟩ := exists_composed h
  obtain ⟨g, wide', hj⟩ := exists_composed h'
  have hline : Intel.text (decode mode address bytes) =
      Intel.text (decode mode address' bytes') := by
    simpa only [Instruction.text, h, h', if_true] using htext
  rcases Intel.mnemonic_eq_or_readsAlike hi hj hline with heq | ⟨hmode, halike⟩ | ⟨hmode, halike⟩
  · exact Or.inl heq
  · rw [mode_decode] at hmode
    exact Or.inr ⟨hmode, Or.inl halike⟩
  · rw [mode_decode] at hmode
    exact Or.inr ⟨hmode, Or.inr halike⟩

/-- Both directions of a move between registers are one line. -/
theorem mnemonic_eq_of_intel_text_eq_mov :
    (decode .m64 0x1000 [0x89, 0xc8]).isValid ∧ (decode .m64 0x1000 [0x8b, 0xc1]).isValid ∧
      (decode .m64 0x1000 [0x89, 0xc8]).text .intel =
        (decode .m64 0x1000 [0x8b, 0xc1]).text .intel ∧
      (decode .m64 0x1000 [0x89, 0xc8]).mnemonic = (decode .m64 0x1000 [0x8b, 0xc1]).mnemonic := by
  have h : (decode .m64 0x1000 [0x89, 0xc8]).isValid := by decide +kernel
  have h' : (decode .m64 0x1000 [0x8b, 0xc1]).isValid := by decide +kernel
  have htext : (decode .m64 0x1000 [0x89, 0xc8]).text .intel =
      (decode .m64 0x1000 [0x8b, 0xc1]).text .intel := by decide +kernel
  refine ⟨h, h', htext, ?_⟩
  rcases mnemonic_eq_of_intel_text_eq h h' htext with heq | ⟨hmode, -⟩
  · exact heq
  · exact absurd rfl hmode

/-- A near call through a doubleword and a far one through two words are both printed as
`call dword ptr [eax]`. -/
theorem intel_text_near_far_call :
    (decode .m32 0x1000 [0xff, 0x10]).isValid ∧ (decode .m32 0x1000 [0x66, 0xff, 0x18]).isValid ∧
      (decode .m32 0x1000 [0xff, 0x10]).text .intel =
        (decode .m32 0x1000 [0x66, 0xff, 0x18]).text .intel ∧
      (decode .m32 0x1000 [0xff, 0x10]).mnemonic ≠
        (decode .m32 0x1000 [0x66, 0xff, 0x18]).mnemonic := by
  decide +kernel

end Disasm
