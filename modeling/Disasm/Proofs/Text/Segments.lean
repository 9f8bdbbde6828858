import Disasm.Proofs.Text.Colons

/-!
# Segments in 64-bit mode

In 64-bit mode only FS and GS move an access. Other overrides have no effect on memory, and are
printed as a word before the name.

**Theorem (`segments_shown`).** Except for string operations under such an override, the memory that
a line shows is in FS, in GS, or in no segment that is named; the destination of a string operation
alone is in ES. In both syntaxes every colon of the line has the name of such a segment before it,
and an override of ES, CS, SS or DS is the first word.

String operations that read through SI are the exception: under an override they show their source
in the overridden segment, whatever the mode (`Instruction.exists_not_shownIn`).
-/

namespace Disasm

open Text

/-! ## Segments that are shown -/

/-- Memory at a register. -/
def Dialect.memoryAt (d : Dialect) (r : Option Register) : String :=
  match d with
  | .intel => "[" ++ Intel.register r ++ "]"
  | .att => "(" ++ ATT.register r ++ ")"

namespace Instruction

/-- A string operation that is printed with its destination in memory. -/
def ShowsDestination (i : Instruction) (f : StringForm) : Prop :=
  i.stringForm? = some f ∧ (f.shape = .move ∨ f.shape = .compare)

instance (i : Instruction) (f : StringForm) : Decidable (i.ShowsDestination f) :=
  inferInstanceAs (Decidable (_ ∧ _))

/-- Memory in no segment that is named, in FS or in GS, or the destination of a string operation,
which is in ES. -/
def ShownIn (i : Instruction) (m : Memory) : Prop :=
  m.segment = none ∨ m.segment = some (.segment .fs) ∨ m.segment = some (.segment .gs) ∨
    ∃ f, i.ShowsDestination f ∧ m = f.destination i

/-- The names of the segments before colons, each with what has to follow the colon. -/
def shownSegments (i : Instruction) (d : Dialect) : List (List Char × List Char) :=
  [("fs".toList, []), ("gs".toList, [])] ++
    (i.stringForm?.toList.filter (i.ShowsDestination ·)).map fun f =>
      ("es".toList, (d.memoryAt (f.destination i).base).toList)

end Instruction

theorem Text.colonsIn_segment {around : List (List Char × List Char)} {u v : String} {r : Register}
    {w : List Char} (hx : (r.name.toList, w) ∈ around) (hu : ColonFree u) (hv : ColonFree v)
    (hw : w <+: v.toList) : ColonsIn around (u ++ r.name ++ ":" ++ v).toList := by
  have hlist : (u ++ r.name ++ ":" ++ v).toList = (u ++ r.name).toList ++ ':' :: v.toList := by
    simp [String.toList_append]
  rw [hlist]
  refine colonsIn_colon hx (hu.append (colonFree_name r)) hv ?_ hw
  rw [String.toList_append]
  exact List.suffix_append _ _

theorem StringForm.base_destination (f : StringForm) (i : Instruction) :
    ∃ r, (f.destination i).base = some r := by
  unfold destination
  cases i.addressSize <;> exact ⟨_, rfl⟩

theorem Intel.place_destination (f : StringForm) (i : Instruction) :
    Intel.place i (f.destination i) = Dialect.intel.memoryAt (f.destination i).base := by
  obtain ⟨r, hr⟩ := f.base_destination i
  have htarget : i.memoryTarget (f.destination i) = none := by
    rw [Instruction.memoryTarget, if_neg (by simp [StringForm.destination]), if_neg (by simp [hr])]
  have hregisters : registers (f.destination i) = register (f.destination i).base := rfl
  simp only [place, htarget, hregisters, Dialect.memoryAt]
  have hzero : displacement (f.destination i).displacement = "" := rfl
  rw [hzero, String.append_empty]

theorem ATT.place_destination (f : StringForm) (i : Instruction) :
    ATT.place (f.destination i) = Dialect.att.memoryAt (f.destination i).base := by
  obtain ⟨r, hr⟩ := f.base_destination i
  have hplain : ¬ ((f.destination i).displacement ≠ 0 ∨ (f.destination i).base = none ∨
      (f.destination i).ripRelative) := by simp [hr]; exact ⟨rfl, rfl⟩
  have hinside : inside (f.destination i) = register (f.destination i).base := by
    rw [inside, hr]
    exact String.append_empty
  rw [place, if_neg (by simp [hr]), if_neg hplain, hinside, String.empty_append,
    ← String.append_assoc]
  rfl

namespace Instruction.ShownIn

variable {i : Instruction} {m : Memory}

/-- The segment of such memory is in the list, with what follows its colon. -/
theorem mem_shownSegments (h : i.ShownIn m) {r : Register} (hr : m.segment = some r) (d : Dialect) :
    (r.name.toList, []) ∈ i.shownSegments d ∨ ∃ f : StringForm, m = f.destination i ∧
      (r.name.toList, (d.memoryAt (f.destination i).base).toList) ∈ i.shownSegments d := by
  rcases h with h | h | h | ⟨f, hf, rfl⟩
  · rw [hr] at h
    cases h
  · rw [hr] at h
    cases h
    exact Or.inl List.mem_cons_self
  · rw [hr] at h
    cases h
    exact Or.inl (List.mem_cons_of_mem _ List.mem_cons_self)
  · cases hr
    refine Or.inr ⟨f, rfl, List.mem_append_right _ (List.mem_map.2 ⟨f, ?_, rfl⟩)⟩
    simp [hf.1, hf]

theorem colonsIn_intel (h : i.ShownIn m) :
    ColonsIn (i.shownSegments .intel) (Intel.memory i m).toList := by
  cases hr : m.segment with
  | none =>
    rw [Intel.memory_of_segment_none hr]
    exact colonsIn_of_not_mem ((Intel.colonFree_sizeText _).append (Intel.colonFree_place i m))
  | some r =>
    rw [Intel.memory_of_segment_some hr]
    rcases h.mem_shownSegments hr .intel with hmem | ⟨f, rfl, hmem⟩
    · exact colonsIn_segment hmem (Intel.colonFree_sizeText _) (Intel.colonFree_place i m)
        List.nil_prefix
    · refine colonsIn_segment hmem (Intel.colonFree_sizeText _) (Intel.colonFree_place i _) ?_
      rw [Intel.place_destination]

theorem colonsIn_att (h : i.ShownIn m) : ColonsIn (i.shownSegments .att) (ATT.memory m).toList := by
  have hpercent : ColonFree "%" := by simp [ColonFree]
  cases hr : m.segment with
  | none =>
    rw [ATT.memory_of_segment_none hr]
    exact colonsIn_of_not_mem (ATT.colonFree_place m)
  | some r =>
    rw [ATT.memory_of_segment_some hr]
    rcases h.mem_shownSegments hr .att with hmem | ⟨f, rfl, hmem⟩
    · exact colonsIn_segment hmem hpercent (ATT.colonFree_place m) List.nil_prefix
    · refine colonsIn_segment hmem hpercent (ATT.colonFree_place _) ?_
      rw [ATT.place_destination]

end Instruction.ShownIn

/-! ## Lines -/

namespace Instruction

/-- A string operation that is printed with its source in a segment other than FS and GS. -/
def MisplacesSegment (i : Instruction) : Prop :=
  i.stringForm?.isSome ∧ i.prefixes.segment ≠ some (.segment .fs) ∧
    i.prefixes.segment ≠ some (.segment .gs)

instance (i : Instruction) : Decidable i.MisplacesSegment := inferInstanceAs (Decidable (_ ∧ _ ∧ _))

/-- The name of the operation in a syntax. -/
def nameIn (i : Instruction) (d : Dialect) : String :=
  match d with
  | .intel => Intel.name i
  | .att => ATT.name i

variable {i : Instruction} {f : Form} {wide : Bool}

theorem colonFree_prefixText (h : ∀ r, i.prefixes.segment = some r → ∃ s, r = .segment s) :
    ColonFree i.prefixText := by
  rw [ColonFree, toList_prefixText, List.flatMap_map, List.mem_flatMap]
  rintro ⟨w, hw, hcolon⟩
  have hword := isWord_of_mem_vocabulary w
    (mem_vocabulary_of_mem_leadingWords (prefixWords_mem_leadingWords h w hw))
  rcases List.mem_append.1 hcolon with hcolon | hcolon
  · exact colonFree_of_isWord hword hcolon
  · exact absurd (List.mem_singleton.1 hcolon) (by decide)

namespace Composed

/-- In 64-bit mode an operand is in FS, in GS, or in no segment that is named. -/
theorem segment_eq_or (h : i.Composed f wide) (hmode : i.mode = .m64) {m : Memory}
    (hm : .memory m ∈ i.operands) : m.segment = none ∨
      m.segment = i.prefixes.segment ∧
        (m.segment = some (.segment .fs) ∨ m.segment = some (.segment .gs)) := by
  rw [h.segment_eq m hm]
  unfold OperandContext.segmentOverride
  split_ifs with hcond
  · exact Or.inl rfl
  · refine Or.inr ⟨rfl, ?_⟩
    by_contra hneither
    rw [not_or] at hneither
    exact hcond ⟨hmode, hneither⟩

theorem shownIn (h : i.Composed f wide) (hmode : i.mode = .m64) (hs : ¬ i.MisplacesSegment)
    {m : Memory} (hm : .memory m ∈ i.shownOperands) : i.ShownIn m := by
  cases hform : i.stringForm? with
  | none =>
    rw [shownOperands_of_none hform] at hm
    rcases h.segment_eq_or hmode hm with hnone | ⟨-, hfs | hgs⟩
    · exact Or.inl hnone
    · exact Or.inr (Or.inl hfs)
    · exact Or.inr (Or.inr (Or.inl hgs))
  | some g =>
    -- The override of a string operation that is shown is FS or GS.
    have hsource : i.ShownIn (g.source i) := by
      have hoverride : i.prefixes.segment = some (.segment .fs) ∨
          i.prefixes.segment = some (.segment .gs) := by
        by_contra hneither
        rw [not_or] at hneither
        exact hs ⟨by rw [hform]; rfl, hneither⟩
      exact Or.inr (hoverride.imp id Or.inl)
    have hdestination : g.shape = .move ∨ g.shape = .compare → i.ShownIn (g.destination i) :=
      fun hshape => Or.inr (Or.inr (Or.inr ⟨g, ⟨hform, hshape⟩, rfl⟩))
    rw [shownOperands_of_some hform, StringForm.operands] at hm
    cases hshape : g.shape <;> rw [hshape] at hm <;> simp at hm
    · rcases hm with rfl | rfl
      · exact hdestination (Or.inl hshape)
      · exact hsource
    · rcases hm with rfl | rfl
      · exact hsource
      · exact hdestination (Or.inr hshape)
    · exact hm ▸ hsource
    · exact hm ▸ hsource

/-- Far pointers do not exist in 64-bit mode. -/
theorem ne_far (h : i.Composed f wide) (hmode : i.mode = .m64) :
    ∀ o ∈ i.shownOperands, ∀ p, o ≠ .far p := by
  rintro o ho p rfl
  cases hform : i.stringForm? with
  | none =>
    rw [shownOperands_of_none hform] at ho
    rcases h.far_operands (h.mnemonic_of_far ho) with ⟨hne, -⟩ | ⟨m, hm, -⟩
    · exact hne hmode
    · rw [hm] at ho
      cases List.mem_singleton.1 ho
  | some g =>
    rw [shownOperands_of_some hform, StringForm.operands] at ho
    cases hshape : g.shape <;> rw [hshape] at ho <;> simp at ho

/-- An override without effect is the first word. -/
theorem prefixText_eq (h : i.Composed f wide) (hmode : i.mode = .m64) (hs : ¬ i.MisplacesSegment)
    {s : Segment} (hseg : i.prefixes.segment = some (.segment s)) (hfs : s ≠ .fs) (hgs : s ≠ .gs) :
    ∃ u, i.prefixText = s.name ++ " " ++ u := by
  have hnone : i.stringForm? = none := by
    by_contra hsome
    exact hs ⟨Option.isSome_iff_ne_none.2 hsome, by simp [hseg, hfs], by simp [hseg, hgs]⟩
  have hshows : i.showsSegment = false := by
    rw [showsSegment, List.any_eq_false, shownOperands_of_none hnone]
    intro o ho
    cases o with
    | memory m =>
      rcases h.segment_eq_or hmode ho with hm | ⟨heq, hm | hm⟩
      · simp [Operand.memory?, hm]
      · rw [heq, hseg] at hm
        cases hm
        exact absurd rfl hfs
      · rw [heq, hseg] at hm
        cases hm
        exact absurd rfl hgs
    | _ => simp [Operand.memory?]
  have hwords : i.prefixWords =
      s.name :: ((if i.prefixes.lock then ["lock"] else []) ++ i.repetitionWord.toList) := by
    rw [prefixWords, hshows, if_neg (by decide), hseg]
    rfl
  rw [prefixText, hwords, List.map_cons, String.join_cons]
  exact ⟨_, rfl⟩

theorem colonsIn_operand_intel (h : i.Composed f wide) (hmode : i.mode = .m64)
    (hs : ¬ i.MisplacesSegment) {o : Operand} (ho : o ∈ i.shownOperands) :
    ColonsIn (i.shownSegments .intel) (Intel.operand i o).toList := by
  cases o with
  | register r => exact colonsIn_of_not_mem (Intel.colonFree_register r)
  | memory m => exact (h.shownIn hmode hs ho).colonsIn_intel
  | immediate v => exact colonsIn_of_not_mem (colonFree_constant _)
  | relative r => exact colonsIn_of_not_mem (colonFree_constant _)
  | far p => exact absurd rfl (h.ne_far hmode _ ho p)

theorem colonsIn_operand_att (h : i.Composed f wide) (hmode : i.mode = .m64)
    (hs : ¬ i.MisplacesSegment) {o : Operand} (ho : o ∈ i.shownOperands) :
    ColonsIn (i.shownSegments .att) (ATT.operandInPlace i o).toList := by
  have hsigns : ColonFree "$" ∧ ColonFree "*" ∧ ColonFree "(%dx)" := by simp [ColonFree]
  have hoperand : ColonsIn (i.shownSegments .att) (ATT.operand i o).toList := by
    cases o with
    | register r => exact colonsIn_of_not_mem (ATT.colonFree_register r)
    | memory m => exact (h.shownIn hmode hs ho).colonsIn_att
    | immediate v => exact colonsIn_of_not_mem (hsigns.1.append (colonFree_lower _))
    | relative r => exact colonsIn_of_not_mem (colonFree_lower _)
    | far p => exact absurd rfl (h.ne_far hmode _ ho p)
  unfold ATT.operandInPlace
  dsimp only
  rw [String.toList_append]
  refine ColonsIn.append (colonsIn_of_not_mem ?_) ?_
  · split_ifs
    · split
      · exact hsigns.2.1
      · exact hsigns.2.1
      · exact colonFree_empty
    · exact colonFree_empty
  · split_ifs
    · exact colonsIn_of_not_mem hsigns.2.2
    · exact hoperand

theorem colonsIn_intel_text (h : i.Composed f wide) (hmode : i.mode = .m64)
    (hs : ¬ i.MisplacesSegment) : ColonsIn (i.shownSegments .intel) (Intel.text i).toList := by
  rw [Intel.text, String.toList_append]
  refine ColonsIn.append (colonsIn_of_not_mem ((colonFree_prefixText h.override_eq).append
    (colonFree_of_isWord (Intel.isName_name i).isWord))) ?_
  by_cases hempty : i.shownOperands = []
  · simp [Intel.operands, hempty, colonsIn_of_not_mem]
  · rw [Intel.operands_of_ne_nil hempty, String.toList_append, String.toList_intercalate]
    refine ColonsIn.append (colonsIn_of_not_mem (by decide))
      (ColonsIn.intercalate (by decide) ?_)
    simp only [List.map_map, List.forall_mem_map]
    exact fun o ho => h.colonsIn_operand_intel hmode hs ho

theorem colonsIn_att_text (h : i.Composed f wide) (hmode : i.mode = .m64)
    (hs : ¬ i.MisplacesSegment) : ColonsIn (i.shownSegments .att) (ATT.text i).toList := by
  rw [ATT.text_eq, String.toList_append]
  refine ColonsIn.append (colonsIn_of_not_mem ((colonFree_prefixText h.override_eq).append
    (colonFree_of_isWord (ATT.isName_name h).isWord))) ?_
  by_cases hempty : i.shownOperands = []
  · rw [ATT.rest_of_nil hempty]
    exact colonsIn_of_not_mem List.not_mem_nil
  · rw [ATT.rest_of_ne_nil hempty, String.toList_append, String.toList_append,
      String.toList_intercalate]
    refine ColonsIn.append (colonsIn_of_not_mem (by decide))
      (ColonsIn.append (ColonsIn.intercalate (by decide) ?_)
        (colonsIn_of_not_mem (ATT.colonFree_comment _ _)))
    simp only [List.map_map, List.forall_mem_map]
    exact fun o ho => h.colonsIn_operand_att hmode hs (ATT.mem_order.1 ho)

/-- The word before the name in both syntaxes. -/
theorem text_eq_override (h : i.Composed f wide) (hvalid : i.isValid) (hmode : i.mode = .m64)
    (hs : ¬ i.MisplacesSegment) {s : Segment} (hseg : i.prefixes.segment = some (.segment s))
    (hfs : s ≠ .fs) (hgs : s ≠ .gs) (d : Dialect) :
    ∃ u v, i.text d = s.name ++ " " ++ u ++ i.nameIn d ++ v := by
  obtain ⟨u, hu⟩ := h.prefixText_eq hmode hs hseg hfs hgs
  unfold text
  rw [if_pos hvalid]
  cases d with
  | intel => exact ⟨u, Intel.operands i, by rw [← hu]; rfl⟩
  | att => exact ⟨u, ATT.rest i, by rw [← hu]; exact ATT.text_eq i⟩

end Composed

/-- The exceptions are none too many: each shows memory in a segment that has no effect on it. -/
theorem exists_not_shownIn (h : i.MisplacesSegment) :
    ∃ m, .memory m ∈ i.shownOperands ∧ ¬ i.ShownIn m := by
  obtain ⟨hsome, hfs, hgs⟩ := h
  obtain ⟨g, hform⟩ := Option.isSome_iff_exists.1 hsome
  refine ⟨g.source i, ?_, ?_⟩
  · rw [shownOperands_of_some hform, StringForm.operands]
    cases g.shape <;> simp
  · have hoverride : i.prefixes.segment ≠ none := by
      unfold stringForm? at hform
      split_ifs at hform with hcond
      exact hcond.1
    rintro (hnone | heq | heq | ⟨g', -, heq⟩)
    · exact hoverride hnone
    · exact hfs heq
    · exact hgs heq
    · have hbase := congrArg Memory.base heq
      simp only [StringForm.source, StringForm.destination] at hbase
      revert hbase
      cases i.addressSize <;> decide

end Instruction

/-- **Only FS and GS move an access in 64-bit mode.** The memory that a line shows is in one of the
two or in no segment that is named, apart from the destination of a string operation; the colons of
the line have these names before them; and another override is the first word. -/
theorem segments_shown {address : UInt64} {bytes : List UInt8}
    (h : (decode .m64 address bytes).isValid)
    (hs : ¬ (decode .m64 address bytes).MisplacesSegment) :
    (∀ m, .memory m ∈ (decode .m64 address bytes).shownOperands →
      (decode .m64 address bytes).ShownIn m) ∧
    (∀ d, ColonsIn ((decode .m64 address bytes).shownSegments d)
      ((decode .m64 address bytes).text d).toList) ∧
    ∀ s, (decode .m64 address bytes).prefixes.segment = some (.segment s) → s ≠ .fs → s ≠ .gs →
      ∀ d, ∃ u v, (decode .m64 address bytes).text d =
        s.name ++ " " ++ u ++ (decode .m64 address bytes).nameIn d ++ v := by
  obtain ⟨f, wide, hcomposed⟩ := exists_composed h
  have hmode := mode_decode .m64 address bytes
  refine ⟨fun m => hcomposed.shownIn hmode hs, fun d => ?_,
    fun s hseg hfs hgs => hcomposed.text_eq_override h hmode hs hseg hfs hgs⟩
  unfold Instruction.text
  rw [if_pos h]
  cases d with
  | intel => exact hcomposed.colonsIn_intel_text hmode hs
  | att => exact hcomposed.colonsIn_att_text hmode hs

/-- `cs mov eax, dword ptr [rax]`: the override is a word before the name. -/
theorem segments_shown_cs :
    (decode .m64 0x1000 [0x2e, 0x8b, 0x00]).isValid ∧
      ¬ (decode .m64 0x1000 [0x2e, 0x8b, 0x00]).MisplacesSegment ∧
      ∃ u v, (decode .m64 0x1000 [0x2e, 0x8b, 0x00]).text .intel = "cs " ++ u ++ "mov" ++ v := by
  have h : (decode .m64 0x1000 [0x2e, 0x8b, 0x00]).isValid := by decide +kernel
  have hs : ¬ (decode .m64 0x1000 [0x2e, 0x8b, 0x00]).MisplacesSegment := by decide +kernel
  have hseg : (decode .m64 0x1000 [0x2e, 0x8b, 0x00]).prefixes.segment =
      some (.segment .cs) := by decide +kernel
  have hname : (decode .m64 0x1000 [0x2e, 0x8b, 0x00]).nameIn .intel = "mov" := by decide +kernel
  obtain ⟨u, v, htext⟩ := (segments_shown h hs).2.2 .cs hseg (by decide) (by decide) .intel
  rw [hname] at htext
  exact ⟨h, hs, u, v, htext⟩

/-- Under an override of CS, a string operation is shown with its source in CS. -/
theorem segment_shown_movs :
    (decode .m64 0x1000 [0x2e, 0xa4]).isValid ∧
      (decode .m64 0x1000 [0x2e, 0xa4]).text .intel =
        "movs byte ptr es:[rdi], byte ptr cs:[rsi]" ∧
      (decode .m64 0x1000 [0x2e, 0xa4]).text .att = "movsb %cs:(%rsi),%es:(%rdi)" ∧
      ∃ m, .memory m ∈ (decode .m64 0x1000 [0x2e, 0xa4]).shownOperands ∧
        ¬ (decode .m64 0x1000 [0x2e, 0xa4]).ShownIn m := by
  refine ⟨by decide +kernel, by decide +kernel, by decide +kernel,
    { base := some (.qword 6), segment := some (.segment .cs), size := .byte },
    by decide +kernel, ?_⟩
  rintro (h | h | h | ⟨f, -, h⟩)
  · cases h
  · cases h
  · cases h
  · cases congrArg Memory.segment h

end Disasm
