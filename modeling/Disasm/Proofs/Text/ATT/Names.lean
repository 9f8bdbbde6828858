import Disasm.Proofs.Text.Suffix

/-!
# Names in AT&T syntax

A name is one that the syntax has of its own, or the mnemonic with its suffix (`name_mem_or`).

**Theorem (`mnemonic_eq_of_name_eq_or`).** Instructions with the same name have the same mnemonic,
except that MOV of a constant to a quadword goes by the name of MOVQ.
-/

namespace Disasm

/-! ## Extensions -/

/-- Extensions have a register for their destination. The size of the source is in the form. -/
theorem OpcodeMap.extension_form : ∀ f ∈ recordForms,
    (f.mnemonic = .MOVZX ∨ f.mnemonic = .MOVSX →
      f.operands = [.Gv, .Eb] ∨ f.operands = [.Gv, .Ew]) ∧
    (f.mnemonic = .MOVSXD → f.operands = [.Gv, .Ed]) := by
  decide +kernel

theorem Register.width_outline (r : Register) : r.outline.width = r.width := by
  cases r with
  | byte n => rcases outline_byte n with ⟨-, ho⟩ | ⟨-, ho⟩ <;> rw [ho] <;> rfl
  | _ => rfl

namespace ATT

open Text

theorem integerSize_outline (o : Operand) : integerSize o.outline = integerSize o := by
  cases o with
  | register r =>
    cases r with
    | none => rfl
    | some r =>
      simp [Operand.outline, integerSize, Register.isGeneral_outline, Register.width_outline]
  | _ => rfl

/-- An extension: a register of one size, and a source of another. -/
structure Extends (i : Instruction) (source destination : DataSize) : Prop where
  operands_eq : ∃ r s, i.operands = [.register r, s] ∧ integerSize s = source ∧
    integerSize (.register r) = destination

variable {i j : Instruction} {f g : Form} {wide wide' : Bool} {s d : DataSize}

theorem Extends.size_eq (h : Extends i s d) {m : Memory} (hm : .memory m ∈ i.operands) :
    m.size = s := by
  obtain ⟨r, o, hops, rfl, -⟩ := h.operands_eq
  rw [hops] at hm
  rcases List.mem_cons.1 hm with hm | hm
  · cases hm
  · cases List.mem_singleton.1 hm
    rfl

theorem exists_extends_of_operands (h : i.Composed f wide) (hm : i.mnemonic ∉ Mnemonic.derived)
    {spec : OperandSpec} (hf : f.operands = [.Gv, spec]) {sources : List DataSize}
    (hs : ∀ size, ∀ o ∈ spec.outlines size, integerSize o ∈ sources) :
    ∃ s ∈ sources, ∃ d ∈ [DataSize.word, .dword, .qword], Extends i s d := by
  have hall := h.forall₂_outlines hm
  rw [hf] at hall
  obtain ⟨_, os, hd, hos, heq⟩ := List.forall₂_cons_left_iff.1 hall
  obtain ⟨o, os', ho, hnil, rfl⟩ := List.forall₂_cons_left_iff.1 hos
  cases hnil
  obtain ⟨r, hr, houtline⟩ := List.mem_map.1 hd
  obtain ⟨r', rfl, -⟩ := Operand.eq_register_of_outline houtline.symm
  have hsizes : ∀ size ∈ [DataSize.word, .dword, .qword],
      ∀ o ∈ OperandSpec.Gv.outlines size, integerSize o ∈ [DataSize.word, .dword, .qword] := by
    decide
  refine ⟨_, integerSize_outline o ▸ hs _ _ ho, integerSize (.register r'), ?_,
    r', o, heq, rfl, rfl⟩
  rw [← integerSize_outline]
  exact hsizes _ h.operationSize_mem _ hd

theorem exists_extends (h : i.Composed f wide) (hm : i.mnemonic = .MOVZX ∨ i.mnemonic = .MOVSX) :
    ∃ s ∈ [DataSize.byte, .word], ∃ d ∈ [DataSize.word, .dword, .qword], Extends i s d := by
  have hne : i.mnemonic ∉ Mnemonic.derived := by rcases hm with hm | hm <;> rw [hm] <;> decide
  rcases (OpcodeMap.extension_form f h.mem_recordForms).1 (by rwa [h.form_mnemonic_eq hne])
    with hf | hf
  · exact exists_extends_of_operands h hne hf fun size => by cases size <;> decide
  · exact exists_extends_of_operands h hne hf fun size => by cases size <;> decide

theorem exists_extends_dword (h : i.Composed f wide) (hm : i.mnemonic = .MOVSXD) :
    ∃ d, Extends i .dword d := by
  have hne : i.mnemonic ∉ Mnemonic.derived := by rw [hm]; decide
  have hf := (OpcodeMap.extension_form f h.mem_recordForms).2 ((h.form_mnemonic_eq hne).trans hm)
  have hsources : ∀ size, ∀ o ∈ OperandSpec.Ed.outlines size, integerSize o ∈ [DataSize.dword] :=
    fun size => by cases size <;> decide
  obtain ⟨s, hs, d, -, hext⟩ := exists_extends_of_operands h hne hf hsources
  exact ⟨d, List.mem_singleton.1 hs ▸ hext⟩

/-! ## Names -/

/-- How the names for an extension start. -/
def stem (m : Mnemonic) : String := if m = .MOVZX then "movz" else "movs"

theorem extensionName_mem : ∀ m ∈ [Mnemonic.MOVZX, .MOVSX], ∀ s ∈ [DataSize.byte, .word],
    ∀ d ∈ [DataSize.word, .dword, .qword],
      (m, stem m ++ integerSuffix s ++ integerSuffix d) ∈ renamed := by
  decide +kernel

/-- The letters of a name for an extension tell both sizes. -/
theorem extensionName_inj : ∀ s ∈ [DataSize.byte, .word], ∀ s' ∈ [DataSize.byte, .word],
    ∀ d ∈ [DataSize.word, .dword, .qword], ∀ d' ∈ [DataSize.word, .dword, .qword],
      integerSuffix s ++ integerSuffix d = integerSuffix s' ++ integerSuffix d' → s = s' := by
  decide +kernel

theorem name_of_extends (h : Extends i s d) (hm : i.mnemonic = .MOVZX ∨ i.mnemonic = .MOVSX) :
    name i = stem i.mnemonic ++ integerSuffix s ++ integerSuffix d := by
  obtain ⟨r, o, hops, rfl, rfl⟩ := h.operands_eq
  rcases hm with hm | hm <;>
  · have hown : ownNames.lookup i.mnemonic = none := by rw [hm]; decide
    rw [name, hown, hops, hm]
    rfl

theorem stringName_mem : ∀ m ∈ .MOVSD :: .CMPSD :: Mnemonic.strings,
    (m, stringName m.name) ∈ renamed ∨ stringName m.name = m.name := by
  decide +kernel

theorem mem_strings_of_isString (h : i.isString) :
    i.mnemonic ∈ .MOVSD :: .CMPSD :: Mnemonic.strings := by
  simp only [Instruction.isString, Bool.or_eq_true, Bool.and_eq_true, decide_eq_true_eq] at h
  rcases h with h | ⟨h | h, -⟩
  · exact List.mem_cons_of_mem _ (List.mem_cons_of_mem _ (List.contains_iff_mem.1 h))
  · rw [h]
    exact List.mem_cons_self
  · rw [h]
    exact List.mem_cons_of_mem _ List.mem_cons_self

theorem name_of_isString (h : i.isString) : name i = stringName i.mnemonic.name := by
  have hplain : ∀ m ∈ .MOVSD :: .CMPSD :: Mnemonic.strings,
      ownNames.lookup m = none ∧ m ≠ .MOVSXD ∧ m ≠ .MOVZX ∧ m ≠ .MOVSX := by decide
  obtain ⟨hown, hmovsxd, hmovzx, hmovsx⟩ := hplain _ (mem_strings_of_isString h)
  rw [name, hown]
  dsimp only
  rw [if_neg hmovsxd, if_neg hmovzx, if_neg hmovsx, if_pos h]

/-- Where the syntax has no name of its own, the mnemonic is printed with its suffix. -/
theorem name_eq_suffixed (hown : ownNames.lookup i.mnemonic = none)
    (hm : i.mnemonic ≠ .MOVSXD ∧ i.mnemonic ≠ .MOVZX ∧ i.mnemonic ≠ .MOVSX)
    (hs : i.isString = false) : name i = i.mnemonic.name ++ suffix i := by
  rw [name, hown]
  dsimp only
  rw [if_neg hm.1, if_neg hm.2.1, if_neg hm.2.2, if_neg (by rw [hs]; decide)]

theorem name_mem_of_own {own : String} (h : ownNames.lookup i.mnemonic = some own) :
    (i.mnemonic, name i) ∈ renamed := by
  rw [name, h]
  exact List.mem_append_left _ (mem_of_lookup_eq_some h)

theorem name_mem_of_movsxd (h : i.mnemonic = .MOVSXD) :
    (i.mnemonic, name i) ∈ renamed ++ named := by
  have hown : ownNames.lookup i.mnemonic = none := by rw [h]; decide
  rw [name, hown, h]
  dsimp only
  rw [if_pos rfl]
  split_ifs
  · exact List.mem_append_left _ (by decide)
  · exact mem_names .MOVSXD

theorem name_mem_of_extension (h : i.Composed f wide)
    (hm : i.mnemonic = .MOVZX ∨ i.mnemonic = .MOVSX) : (i.mnemonic, name i) ∈ renamed := by
  obtain ⟨s, hs, d, hd, hext⟩ := exists_extends h hm
  rw [name_of_extends hext hm]
  exact extensionName_mem _ (by simpa using hm) _ hs _ hd

theorem name_mem_of_isString (h : i.isString) : (i.mnemonic, name i) ∈ renamed ++ named := by
  rw [name_of_isString h]
  rcases stringName_mem _ (mem_strings_of_isString h) with hmem | heq
  · exact List.mem_append_left _ hmem
  · rw [heq]
    exact mem_names _

/-- A name is one of the tables', or a mnemonic with a suffix. -/
theorem name_mem_or (h : i.Composed f wide) : (i.mnemonic, name i) ∈ renamed ++ named ∨
    suffix i ≠ "" ∧ name i = i.mnemonic.name ++ suffix i := by
  cases hown : ownNames.lookup i.mnemonic with
  | some own => exact Or.inl (List.mem_append_left _ (name_mem_of_own hown))
  | none =>
    by_cases hmovsxd : i.mnemonic = .MOVSXD
    · exact Or.inl (name_mem_of_movsxd hmovsxd)
    by_cases hext : i.mnemonic = .MOVZX ∨ i.mnemonic = .MOVSX
    · exact Or.inl (List.mem_append_left _ (name_mem_of_extension h hext))
    cases hs : i.isString with
    | true => exact Or.inl (name_mem_of_isString hs)
    | false =>
      have hname := name_eq_suffixed hown ⟨hmovsxd, not_or.1 hext⟩ hs
      by_cases hempty : suffix i = ""
      · rw [hname, hempty, String.append_empty]
        exact Or.inl (mem_names _)
      · exact Or.inr ⟨hempty, hname⟩

/-! ## One name, one operation -/

/-- The suffixes of one letter. -/
def letters : List String := ["b", "w", "l", "q", "s", "t"]

theorem integerSuffix_mem (s : DataSize) : integerSuffix s = "" ∨ integerSuffix s ∈ letters := by
  cases s <;> decide

theorem x87Suffix_mem (m : Mnemonic) (s : DataSize) : x87Suffix m s = "" ∨ x87Suffix m s ∈ letters ∨
    x87Suffix m s = "ll" ∧ m ∈ integerOperations := by
  unfold x87Suffix
  split_ifs with hreal hinteger
  · cases s <;> simp [letters]
  · have hm := List.contains_iff_mem.1 hinteger
    cases s <;> simp [letters, hm]
  · exact Or.inl rfl

/-- Only integer operations of the coprocessor have a suffix of two letters. -/
theorem suffix_mem (i : Instruction) : suffix i = "" ∨ suffix i ∈ letters ∨
    suffix i = "ll" ∧ i.mnemonic ∈ integerOperations := by
  unfold suffix
  dsimp only
  generalize (i.operands.filterMap Operand.memory?).getLast? = last
  cases last with
  | none =>
    dsimp only
    split_ifs <;> exact Or.inl rfl
  | some m =>
    dsimp only
    split_ifs
    · exact Or.inl rfl
    · exact Or.inl rfl
    · exact x87Suffix_mem _ _
    · exact Or.inl rfl
    · exact (integerSuffix_mem _).imp_right Or.inl

theorem isWord_of_mem_letters : ∀ s ∈ "ll" :: letters, isWord s := by
  decide +kernel

/-- A suffix of two letters is not read as one letter after another name. -/
theorem integerOperations_name : ∀ m ∈ integerOperations,
    (bits (vocabulary.map code)).testBit (code (m.name ++ "l")) = false := by
  decide +kernel

theorem append_letter_inj {a b s t : String} (hs : s ∈ letters) (ht : t ∈ letters)
    (h : a ++ s = b ++ t) : a = b := by
  have hlen : ∀ s ∈ letters, s.toList.length = 1 := by decide
  have hlists := congrArg String.toList h
  rw [String.toList_append, String.toList_append] at hlists
  exact String.toList_inj.1
    (List.append_inj' hlists ((hlen s hs).trans (hlen t ht).symm)).1

theorem name_append_ll_ne {m m' : Mnemonic} {t : String} (hm : m ∈ integerOperations)
    (ht : t ∈ letters) : m.name ++ "ll" ≠ m'.name ++ t := fun h => by
  have hll : ("ll" : String) = "l" ++ "l" := by decide
  rw [hll, ← String.append_assoc] at h
  have hname : m.name ++ "l" = m'.name := append_letter_inj (by decide) ht h
  have hword := mem_vocabulary_of_mem_names (mem_names m')
  rw [← hname] at hword
  cases (integerOperations_name m hm).symm.trans
    ((testBit_bits (vocabulary.map code) _).2 (List.mem_map_of_mem hword))

/-- Where both names have a suffix, the mnemonics before it are the same. -/
theorem mnemonic_eq_of_suffixed (hi : suffix i ≠ "") (hj : suffix j ≠ "")
    (h : i.mnemonic.name ++ suffix i = j.mnemonic.name ++ suffix j) :
    i.mnemonic = j.mnemonic := by
  rcases (suffix_mem i).resolve_left hi with hs | ⟨hs, hm⟩ <;>
    rcases (suffix_mem j).resolve_left hj with ht | ⟨ht, hm'⟩
  · exact Mnemonic.name_injective (append_letter_inj hs ht h)
  · rw [ht] at h
    exact absurd h.symm (name_append_ll_ne hm' hs)
  · rw [hs] at h
    exact absurd h (name_append_ll_ne hm ht)
  · rw [hs, ht] at h
    exact Mnemonic.name_injective ((String.append_left_inj _).1 h)

/-- MOVQ, and MOV of a constant to a quadword, which goes by the same name. -/
structure MovesQuadword (moved constant : Instruction) : Prop where
  mnemonic_eq : moved.mnemonic = .MOVQ
  constant_mnemonic_eq : constant.mnemonic = .MOV
  getLast_eq : ∃ v, constant.operands.getLast? = some (.immediate v)

theorem movesQuadword_of_name_eq (hi : (i.mnemonic, name i) ∈ renamed ++ named)
    (hj : j.Composed g wide') (hsuffix : suffix j ≠ "")
    (h : name i = j.mnemonic.name ++ suffix j) : MovesQuadword i j := by
  rcases hj.suffixed_not_mem_vocabulary hsuffix with hnot | ⟨hmov, hq, hlast⟩
  · exact absurd (h ▸ mem_vocabulary_of_mem_names hi) hnot
  · rw [hq, hmov] at h
    exact ⟨mnemonic_eq_of_name_eq hi (mem_names .MOVQ) h, hmov, hlast⟩

theorem mnemonic_eq_of_name_eq_or (hi : i.Composed f wide) (hj : j.Composed g wide')
    (h : name i = name j) :
    i.mnemonic = j.mnemonic ∨ MovesQuadword i j ∨ MovesQuadword j i := by
  rcases name_mem_or hi with hmem | ⟨hsuffix, hname⟩ <;>
    rcases name_mem_or hj with hmem' | ⟨hsuffix', hname'⟩
  · exact Or.inl (mnemonic_eq_of_name_eq hmem hmem' h)
  · exact Or.inr (Or.inl (movesQuadword_of_name_eq hmem hj hsuffix' (h.trans hname')))
  · exact Or.inr (Or.inr (movesQuadword_of_name_eq hmem' hi hsuffix (h.symm.trans hname)))
  · exact Or.inl (mnemonic_eq_of_suffixed hsuffix hsuffix' (hname.symm.trans (h.trans hname')))

theorem isName_name (h : i.Composed f wide) : IsName (name i) := by
  rcases name_mem_or h with hmem | ⟨hsuffix, hname⟩
  · exact isName_of_mem_names hmem
  · have hword := isWord_of_mem_vocabulary _ (mem_vocabulary_of_mem_names (mem_names i.mnemonic))
    have hsuffixWord : isWord (suffix i) := isWord_of_mem_letters _ <| by
      rcases (suffix_mem i).resolve_left hsuffix with hs | ⟨hs, -⟩
      · exact List.mem_cons_of_mem _ hs
      · rw [hs]
        exact List.mem_cons_self
    rw [hname]
    refine ⟨isWord_append hword hsuffixWord, fun hlead => ?_⟩
    rcases h.suffixed_not_mem_vocabulary hsuffix with hnot | ⟨hmov, hq, -⟩
    · exact hnot (mem_vocabulary_of_mem_leadingWords hlead)
    · rw [hmov, hq] at hlead
      exact absurd hlead (by decide)

/-- A string operation without operands is not named like a vector operation. -/
theorem isString_eq_of_name_eq (hm : i.mnemonic = j.mnemonic) (h : name i = name j) :
    i.isString = j.isString := by
  have hstring : ∀ {i j : Instruction}, i.mnemonic = j.mnemonic → name i = name j →
      i.isString → j.isString := fun {i j} hm h hi => by
    by_contra hj
    rw [Bool.not_eq_true] at hj
    have hcases : j.mnemonic = .MOVSD ∨ j.mnemonic = .CMPSD := by
      simp only [Instruction.isString, Bool.or_eq_true, Bool.and_eq_true, decide_eq_true_eq] at hi
      rw [hm] at hi
      rcases hi with hi | ⟨hi, -⟩
      · simp [Instruction.isString, hi] at hj
      · exact hi
    have hown : ownNames.lookup j.mnemonic = none ∧ j.mnemonic ≠ .MOVSXD ∧ j.mnemonic ≠ .MOVZX ∧
        j.mnemonic ≠ .MOVSX := by rcases hcases with hm | hm <;> rw [hm] <;> decide
    rw [name_of_isString hi, name_eq_suffixed hown.1 hown.2 hj, hm] at h
    have hlists := congrArg String.toList h
    rw [String.toList_append] at hlists
    have hstart : j.mnemonic.name.toList <+: (stringName j.mnemonic.name).toList :=
      ⟨_, hlists.symm⟩
    revert hstart
    rcases hcases with hm | hm <;> rw [hm] <;> decide
  exact Bool.eq_iff_iff.2 ⟨hstring hm h, hstring hm.symm h.symm⟩

end ATT

end Disasm
