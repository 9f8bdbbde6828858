import Disasm.Proofs.Outline
import Disasm.Text.ATT

/-!
# Operations on memory

The records with an operand in memory are few in kind: `accesses` lists their outlines.

* `Composed.outline_mem_accesses` — the outline of every such record is in the list.
* `Composed.accessSize_eq` — a record has one operand in memory at most.
* `Composed.isBranch_of_memory` — of the branches only near calls and jumps go through memory.

Of the other operands the form is found back (`Composed.exists_spec`): targets stand in branches,
far pointers in far calls and jumps.
-/

namespace Disasm

/-! ## Forms with memory operands -/

/-- Whether an operand can be memory. -/
def OperandSpec.mayBeMemory (s : OperandSpec) : Bool :=
  match s.method with
  | .E | .M | .Q | .W | .O => true
  | _ => false

def Form.accesses (f : Form) : Bool := f.operands.any (·.mayBeMemory)

namespace OpcodeMap

/-- The forms that have an operand in memory. -/
def accessForms : List Form := recordForms.filter Form.accesses

/-- Operations on memory have one operand there. Their names do not depend on the size. Of the
branches only near calls and jumps are among them; none reaches a port, and none but far calls and
jumps has a name of its own in AT&T syntax. -/
theorem access_form : ∀ f ∈ accessForms,
    (f.operands.filter (·.mayBeMemory)).length = 1 ∧
    (f.mnemonic ≠ .JCXZ ∧ Mnemonic.sizedNames.lookup f.mnemonic = none) ∧
    (f.mnemonic.isBranch → f.mnemonic = .CALL ∨ f.mnemonic = .JMP) ∧
    f.mnemonic ≠ .IN ∧ f.mnemonic ≠ .OUT ∧
    (ATT.ownNames.lookup f.mnemonic = none ∨ f.mnemonic = .CALLF ∨ f.mnemonic = .JMPF) := by
  decide +kernel

end OpcodeMap

/-! ## Outlines with memory -/

/-- A record without what bytes choose: its name and the kinds of its operands. -/
def Instruction.outline (i : Instruction) : Instruction where
  mnemonic := i.mnemonic
  operationSize := i.operationSize
  operands := i.operands.map Operand.outline

/-- Whether an operand is in memory. -/
def Operand.isMemory (o : Operand) : Bool := o.memory?.isSome

/-- The register that an operand is. -/
def Operand.register? : Operand → Option Register
  | register r => r
  | _ => none

/-- The outlines of a form's records that have an operand in memory. -/
def Form.accessOutlines (f : Form) : List Instruction :=
  f.sizes.flatMap fun (operation, wide) =>
    let m := f.mnemonic.widened wide
    ((f.operands.map (·.outlines operation)).sections.filter (·.any Operand.isMemory)).map fun os =>
      { mnemonic := m, operationSize := operation, operands := widenOperands m os }

/-- The outlines of all records that have an operand in memory. -/
def accesses : List Instruction := OpcodeMap.accessForms.flatMap Form.accessOutlines

theorem Operand.isMemory_outline (o : Operand) : o.outline.isMemory = o.isMemory := by
  cases o <;> rfl

theorem OperandSpec.mayBeMemory_of_mem_outlines {s : OperandSpec} {operation : DataSize}
    {o : Operand} (h : o ∈ s.outlines operation) (ho : o.isMemory) : s.mayBeMemory := by
  have hgenerals : ∀ size : DataSize, ∀ x ∈ size.generals.map Operand.register,
      x.isMemory = false := fun size => List.forall_mem_map.2 fun _ _ => rfl
  obtain ⟨method, type, number⟩ := s
  cases method with
  | E | M | Q | W | O => rfl
  | opcode | G | R =>
    rw [hgenerals _ o h] at ho
    cases ho
  | none => cases h
  | _ =>
    rw [List.mem_singleton.1 h] at ho
    cases ho

theorem OperandSpec.any_mayBeMemory_of_forall₂ {specs : List OperandSpec} {operation : DataSize}
    {os : List Operand} (h : List.Forall₂ (fun s o => o.outline ∈ s.outlines operation) specs os)
    (hm : os.any Operand.isMemory) : specs.any (·.mayBeMemory) := by
  induction h with
  | nil => cases hm
  | cons hs _ ih =>
    rw [List.any_cons, Bool.or_eq_true] at hm ⊢
    exact hm.imp (fun hm => mayBeMemory_of_mem_outlines hs (by rwa [Operand.isMemory_outline])) ih

theorem widenOperands_map_outline (m : Mnemonic) (os : List Operand) :
    (widenOperands m os).map Operand.outline = widenOperands m (os.map Operand.outline) := by
  cases os with
  | nil => rfl
  | cons o rest =>
    cases o with
    | memory p =>
      simp only [widenOperands, List.map_cons, Operand.outline]
      split_ifs <;> rfl
    | _ => rfl

theorem any_isMemory_widenOperands (m : Mnemonic) (os : List Operand) :
    (widenOperands m os).any Operand.isMemory = os.any Operand.isMemory := by
  cases os with
  | nil => rfl
  | cons o rest =>
    cases o with
    | memory p =>
      simp only [widenOperands]
      split_ifs <;> rfl
    | _ => rfl

theorem Form.mem_accessOutlines {f : Form} {operation : DataSize} {wide : Bool}
    (hsize : (operation, wide) ∈ f.sizes) {os : List Operand}
    (hos : List.Forall₂ (fun s o => o.outline ∈ s.outlines operation) f.operands os)
    (hm : os.any Operand.isMemory) :
    { mnemonic := f.mnemonic.widened wide, operationSize := operation,
      operands := widenOperands (f.mnemonic.widened wide) (os.map Operand.outline) } ∈
        f.accessOutlines := by
  refine List.mem_flatMap.2 ⟨_, hsize, List.mem_map.2 ⟨os.map Operand.outline, ?_, rfl⟩⟩
  refine List.mem_filter.2 ⟨List.mem_sections.2 ?_, ?_⟩
  · rw [List.forall₂_map_left_iff, List.forall₂_map_right_iff]
    exact hos.flip
  · simpa only [List.any_map, Function.comp_def, Operand.isMemory_outline] using hm

namespace Instruction.Composed

variable {i : Instruction} {f : Form} {wide : Bool}

theorem mem_accessForms (h : i.Composed f wide) (hm : i.operands.any Operand.isMemory) :
    f ∈ OpcodeMap.accessForms := by
  obtain ⟨os, hos, hall⟩ := h.operands_eq
  rw [hos, any_isMemory_widenOperands] at hm
  exact List.mem_filter.2
    ⟨h.mem_recordForms, OperandSpec.any_mayBeMemory_of_forall₂ hall hm⟩

/-- The name of an operation on memory does not depend on its size. -/
theorem mnemonic_eq_widened (h : i.Composed f wide) (hm : i.operands.any Operand.isMemory) :
    i.mnemonic = f.mnemonic.widened wide := by
  obtain ⟨-, ⟨hjcxz, hsized⟩, -⟩ := OpcodeMap.access_form f (h.mem_accessForms hm)
  rw [h.mnemonic_eq]
  unfold Mnemonic.sized
  rw [if_neg hjcxz, hsized]

theorem outline_mem_accesses (h : i.Composed f wide) (hm : i.operands.any Operand.isMemory) :
    i.outline ∈ accesses := by
  obtain ⟨os, hos, hall⟩ := h.operands_eq
  refine List.mem_flatMap.2 ⟨f, h.mem_accessForms hm, ?_⟩
  have hmem := Form.mem_accessOutlines h.size_mem hall
    (by rwa [hos, any_isMemory_widenOperands] at hm)
  rw [← h.mnemonic_eq_widened hm, ← widenOperands_map_outline, ← hos] at hmem
  exact hmem

end Instruction.Composed

/-! ## The size of an access -/

namespace Instruction

/-- The size of the last operand in memory. -/
def accessSize (i : Instruction) : Option DataSize :=
  (i.operands.filterMap Operand.memory?).getLast?.map (·.size)

theorem accessSize_outline (i : Instruction) : i.outline.accessSize = i.accessSize := by
  have hmap : (i.operands.map Operand.outline).filterMap Operand.memory? =
      (i.operands.filterMap Operand.memory?).map fun m => { size := m.size } := by
    induction i.operands with
    | nil => rfl
    | cons o rest ih => cases o <;> simp [Operand.outline, Operand.memory?, List.filterMap_cons, ih]
  unfold accessSize outline
  dsimp only
  rw [hmap, List.getLast?_map, Option.map_map]
  rfl

namespace Composed

variable {i : Instruction} {f : Form} {wide : Bool}

theorem length_memory_le {specs : List OperandSpec} {operation : DataSize} {os : List Operand}
    (h : List.Forall₂ (fun s o => o.outline ∈ s.outlines operation) specs os) :
    (os.filterMap Operand.memory?).length ≤ (specs.filter (·.mayBeMemory)).length := by
  induction h with
  | nil => exact le_rfl
  | @cons s o _ _ hs _ ih =>
    cases ho : o.memory? with
    | none =>
      rw [List.filterMap_cons_none ho]
      exact ih.trans (List.Sublist.filter _ (List.sublist_cons_self _ _)).length_le
    | some m =>
      have hmem : s.mayBeMemory := OperandSpec.mayBeMemory_of_mem_outlines hs
        (by rw [Operand.isMemory_outline, Operand.isMemory, ho]; rfl)
      rw [List.filterMap_cons_some ho, List.filter_cons_of_pos hmem]
      exact Nat.succ_le_succ ih

theorem length_memory_widenOperands (m : Mnemonic) (os : List Operand) :
    ((widenOperands m os).filterMap Operand.memory?).length =
      (os.filterMap Operand.memory?).length := by
  unfold widenOperands
  split
  · split_ifs <;> rfl
  · rfl

theorem any_isMemory {m : Memory} (hm : .memory m ∈ i.operands) :
    i.operands.any Operand.isMemory :=
  List.any_eq_true.2 ⟨_, hm, rfl⟩

/-- A record has one operand in memory at most. -/
theorem accessSize_eq (h : i.Composed f wide) {m : Memory} (hm : .memory m ∈ i.operands) :
    i.accessSize = some m.size := by
  obtain ⟨hone, -⟩ := OpcodeMap.access_form f (h.mem_accessForms (any_isMemory hm))
  obtain ⟨os, hos, hall⟩ := h.operands_eq
  have hlen : (i.operands.filterMap Operand.memory?).length ≤ 1 := by
    rw [hos, length_memory_widenOperands, ← hone]
    exact length_memory_le hall
  have hmem : m ∈ i.operands.filterMap Operand.memory? := List.mem_filterMap.2 ⟨_, hm, rfl⟩
  obtain ⟨m', hlist⟩ := List.length_eq_one_iff.1
    (Nat.le_antisymm hlen (List.length_pos_of_mem hmem))
  rw [hlist] at hmem
  rw [accessSize, hlist, List.mem_singleton.1 hmem]
  rfl

/-- Operations on memory are no string operations. -/
theorem isString_eq_false (h : i.Composed f wide) (hm : i.operands.any Operand.isMemory) :
    i.isString = false := by
  by_contra hs
  rw [h.operands_eq_nil (Bool.eq_true_of_not_eq_false hs)] at hm
  cases hm

theorem form_mnemonic_of_memory (h : i.Composed f wide) (hm : i.operands.any Operand.isMemory)
    (hw : i.mnemonic ∉ Mnemonic.wideNames.map Prod.snd) : f.mnemonic = i.mnemonic := by
  rw [h.mnemonic_eq_widened hm] at hw ⊢
  exact ((f.mnemonic.widened_eq_or wide).resolve_right fun hwide =>
    hw (List.mem_map_of_mem hwide)).symm

/-- A branch through memory is a near call or jump. -/
theorem isBranch_of_memory (h : i.Composed f wide) (hm : i.operands.any Operand.isMemory)
    (hb : i.mnemonic.isBranch) : i.mnemonic = .CALL ∨ i.mnemonic = .JMP := by
  have hnames : ∀ x ∈ Mnemonic.wideNames.map Prod.snd, x.isBranch = false := by decide
  obtain ⟨-, -, hbranch, -⟩ := OpcodeMap.access_form f (h.mem_accessForms hm)
  have hname := h.form_mnemonic_of_memory hm fun hmem => by
    rw [hnames _ hmem] at hb
    cases hb
  rw [hname] at hbranch
  exact hbranch hb

end Composed

end Instruction

/-! ## Operands that are not in memory -/

namespace OpcodeMap

/-- Only branches have a target for an operand, and only far calls and jumps a far pointer. -/
theorem target_form : ∀ f ∈ recordForms, ∀ s ∈ f.operands, (s.method = .J → f.mnemonic.isBranch) ∧
    (s.method = .A → f.mnemonic = .CALLF ∨ f.mnemonic = .JMPF) := by
  decide +kernel

/-- No constant takes part in moves to and from vector registers. -/
theorem movq_form : ∀ f ∈ recordForms, f.mnemonic = .MOVQ ∨ f.mnemonic = .MOVD →
    ∀ s ∈ f.operands, s.method ≠ .I ∧ s.method ≠ .one := by
  decide +kernel

end OpcodeMap

namespace OperandSpec

variable {s : OperandSpec} {operation : DataSize}

theorem method_of_immediate_mem (h : .immediate {} ∈ s.outlines operation) :
    s.method = .I ∨ s.method = .one := by
  obtain ⟨method, type, number⟩ := s
  cases method <;> simp_all [outlines, memoryOutline]

theorem method_of_relative_mem (h : .relative {} ∈ s.outlines operation) : s.method = .J := by
  obtain ⟨method, type, number⟩ := s
  cases method <;> simp_all [outlines, memoryOutline]

theorem method_of_far_mem (h : .far {} ∈ s.outlines operation) : s.method = .A := by
  obtain ⟨method, type, number⟩ := s
  cases method <;> simp_all [outlines, memoryOutline]

theorem size_of_memory_mem {size : DataSize} (h : .memory { size } ∈ s.outlines operation) :
    size = s.type.size operation false := by
  obtain ⟨method, type, number⟩ := s
  cases method <;> simp_all [outlines, memoryOutline]

theorem exists_of_forall₂ {specs : List OperandSpec}
    {os : List Operand} (h : List.Forall₂ (fun s o => o.outline ∈ s.outlines operation) specs os)
    {o : Operand} (ho : o ∈ os) : ∃ s ∈ specs, o.outline ∈ s.outlines operation := by
  induction h with
  | nil => cases ho
  | cons hs _ ih =>
    rcases List.mem_cons.1 ho with rfl | ho
    · exact ⟨_, List.mem_cons_self, hs⟩
    · obtain ⟨s, hmem, hs⟩ := ih ho
      exact ⟨s, List.mem_cons_of_mem _ hmem, hs⟩

end OperandSpec

theorem mem_of_mem_widenOperands {m : Mnemonic} {os : List Operand} {o : Operand}
    (h : o ∈ widenOperands m os) (ho : o.isMemory = false) : o ∈ os := by
  unfold widenOperands at h
  split at h
  · split_ifs at h
    · rcases List.mem_cons.1 h with rfl | h
      · cases ho
      · exact List.mem_cons_of_mem _ h
    · exact h
  · exact h

theorem Mnemonic.isBranch_sized_widened {m : Mnemonic} (h : m.isBranch) (size : DataSize)
    (a : AddressSize) (w : Bool) : ((m.sized size a).widened w).isBranch := by
  have hnames : ∀ m ∈ branches, sizedNames.lookup m = none ∧ wideNames.lookup m = none := by decide
  have hm : m ∈ branches := List.contains_iff_mem.1 h
  have hwide : ∀ m ∈ branches, m.widened w = m := fun m hm => by
    rw [widened, (hnames m hm).2]
    split_ifs <;> rfl
  unfold sized
  by_cases hjcxz : m = .JCXZ
  · rw [if_pos hjcxz]
    cases a <;> dsimp only <;> rw [hwide _ (by decide)] <;> rfl
  · rw [if_neg hjcxz, (hnames m hm).1]
    dsimp only
    rwa [hwide m hm]

namespace Instruction.Composed

variable {i : Instruction} {f : Form} {wide : Bool} {o : Operand}

theorem exists_spec (h : i.Composed f wide) (ho : o ∈ i.operands) (hm : o.isMemory = false) :
    ∃ s ∈ f.operands, o.outline ∈ s.outlines i.operationSize := by
  obtain ⟨os, hos, hall⟩ := h.operands_eq
  rw [hos] at ho
  exact OperandSpec.exists_of_forall₂ hall (mem_of_mem_widenOperands ho hm)

theorem isBranch_of_relative (h : i.Composed f wide) {r : Relative}
    (ho : .relative r ∈ i.operands) : i.mnemonic.isBranch := by
  obtain ⟨s, hs, hmem⟩ := h.exists_spec ho rfl
  rw [h.mnemonic_eq]
  exact Mnemonic.isBranch_sized_widened ((OpcodeMap.target_form f h.mem_recordForms s hs).1
    (OperandSpec.method_of_relative_mem hmem)) _ _ _

theorem mnemonic_of_far (h : i.Composed f wide) {p : FarPointer} (ho : .far p ∈ i.operands) :
    i.mnemonic = .CALLF ∨ i.mnemonic = .JMPF := by
  obtain ⟨s, hs, hmem⟩ := h.exists_spec ho rfl
  have hname := (OpcodeMap.target_form f h.mem_recordForms s hs).2
    (OperandSpec.method_of_far_mem hmem)
  rw [h.mnemonic_eq]
  rcases hname with hname | hname <;> rw [hname]
  · exact Or.inl (by cases wide <;> rfl)
  · exact Or.inr (by cases wide <;> rfl)

theorem not_immediate_of_movq (h : i.Composed f wide) (hm : i.mnemonic = .MOVQ) {v : Immediate} :
    .immediate v ∉ i.operands := fun ho => by
  obtain ⟨s, hs, hmem⟩ := h.exists_spec ho rfl
  have hname : f.mnemonic = .MOVQ ∨ f.mnemonic = .MOVD := by
    have hnames : ∀ x ∈ Mnemonic.wideNames, x.2 = .MOVQ → x.1 = .MOVD := by decide
    rw [h.mnemonic_eq] at hm
    generalize hsized : f.mnemonic.sized i.operationSize i.addressSize = m at hm
    have hor : m = .MOVQ ∨ m = .MOVD := (m.widened_eq_or wide).imp (fun heq => heq.symm.trans hm)
      fun hwide => hnames _ hwide hm
    have hnot : m ∉ Mnemonic.resized := by rcases hor with rfl | rfl <;> decide
    rcases f.mnemonic.sized_eq_or i.operationSize i.addressSize with hs | hs
    · rw [hsized] at hs
      rwa [← hs]
    · exact absurd (hsized ▸ hs) hnot
  have hmethod := OpcodeMap.movq_form f h.mem_recordForms hname s hs
  rcases OperandSpec.method_of_immediate_mem hmem with hi | hone
  · exact hmethod.1 hi
  · exact hmethod.2 hone

end Instruction.Composed

end Disasm
