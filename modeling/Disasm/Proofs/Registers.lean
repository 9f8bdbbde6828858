import Disasm.Proofs.Fields

/-!
# What a mode can encode

Some registers exist in 64-bit mode only, and under REX some byte encodings name other registers.
The types of records know nothing of this: a `Register` can be any of them, and an operand can be
no register at all. That decoding never gives such a record depends on every form's operand types
at every operation size, and on where the fourth bits of register numbers come from.

* `Register.isLong`, `Register.isHigh` — the registers that legacy modes lack, and those that REX
  takes away.
* `Operand.Encodable`, `Instruction.Encodable` — an operand, and a record, that its mode can have.
* `OperandSpec.namesRegister` — the part that is checked over all forms.
* `OperandContext.Sound` — what operands can rely on, whatever the prefixes were.

**Theorem (`decodeAt_encodable`).** Every valid record is one that its mode can encode.
-/

namespace Disasm

open Fetch

/-! ## Registers and operands of a mode -/

namespace Register

/-- Whether the register can be named in 64-bit mode only: SPL to DIL, all registers of 64 bits, the
upper half of each family of sixteen, and the instruction pointer. -/
def isLong : Register → Bool
  | byte n => 4 ≤ n.val
  | word n | dword n | control n | debug n | xmm n => 8 ≤ n.val
  | qword _ | ip _ => true
  | high _ | segment _ | mmx _ | x87 _ => false

/-- Whether the register is one of AH, CH, DH and BH, which cannot be named under REX. -/
def isHigh : Register → Bool
  | high _ => true
  | _ => false

/-- Whether the register is SP, ESP or RSP. -/
def isStackPointer : Register → Bool
  | word n | dword n | qword n => n.val = 4
  | _ => false

end Register

/-- A place in memory that a mode can encode. -/
structure Memory.Encodable (m : Memory) (mode : Mode) : Prop where
  scale_mem : m.scale ∈ [1, 2, 4, 8]
  index_ne_stackPointer : ∀ r, m.index = some r → r.isStackPointer = false
  ripRelative_eq : mode ≠ .m64 → m.ripRelative = false
  isLong_eq : mode ≠ .m64 → ∀ r, m.base = some r ∨ m.index = some r → r.isLong = false

/-- An operand that a mode can encode, with REX or without. In place of a register there is none
that does not exist. -/
inductive Operand.Encodable (mode : Mode) (rex : Bool) : Operand → Prop
  | register {r : Register} (isLong_eq : mode ≠ .m64 → r.isLong = false)
      (isHigh_eq : rex → r.isHigh = false) : Encodable mode rex (.register (some r))
  | memory {m : Memory} (h : m.Encodable mode) : Encodable mode rex (.memory m)
  | immediate (i : Immediate) : Encodable mode rex (.immediate i)
  | relative (r : Relative) : Encodable mode rex (.relative r)
  | far (p : FarPointer) : Encodable mode rex (.far p)

/-- A record that its mode can encode. -/
structure Instruction.Encodable (i : Instruction) : Prop where
  operationSize_mem : i.operationSize ∈ [.word, .dword, .qword]
  operands : ∀ o ∈ i.operands, o.Encodable i.mode i.prefixes.rex.present
  rex_eq : i.mode ≠ .m64 → i.prefixes.rex = {}
  operationSize_ne_qword : i.mode ≠ .m64 → i.operationSize ≠ .qword
  addressSize_ne_a64 : i.mode ≠ .m64 → i.addressSize ≠ .a64
  addressSize_ne_a16 : i.mode = .m64 → i.addressSize ≠ .a16

/-! ## Forms

What has to hold of the operand types in the maps, so that a register is never missing. -/

/-- Whether a register of this type is a general-purpose one, and has 64 bits only where the
operation has. -/
def OperandType.sizesGeneral (type : OperandType) (operation : DataSize) : Bool :=
  let size := type.size operation true
  [DataSize.byte, .word, .dword, .qword].contains size && (size ≠ .qword || operation = .qword)

/-- Whether the register that a specification names exists at an operation size. A register that the
form names itself is one that all modes have. -/
def OperandSpec.namesRegister (s : OperandSpec) (operation : DataSize) : Bool :=
  match s.method with
  | .fixed => s.type.sizesGeneral operation && s.number < 4
  | .opcode | .E | .G | .R => s.type.sizesGeneral operation
  | .fixedSegment => s.number < 6
  | .fixedXMM => s.number < 8
  | _ => true

theorem OpcodeMap.namesRegister_of_mem_recordForms : ∀ f ∈ recordForms, ∀ s ∈ f.operands,
    ∀ operation ∈ [DataSize.word, .dword, .qword], s.namesRegister operation = true := by
  decide +kernel

/-! ## Registers -/

theorem OperandType.size_of_sizesGeneral {type : OperandType} {operation : DataSize}
    (h : type.sizesGeneral operation) :
    type.size operation true ∈ [DataSize.byte, .word, .dword, .qword] ∧
      (type.size operation true = .qword → operation = .qword) := by
  simp only [sizesGeneral, Bool.and_eq_true, List.contains_iff_mem, Bool.or_eq_true,
    decide_eq_true_eq] at h
  exact ⟨h.1, fun hq => h.2.resolve_left fun hne => hne hq⟩

namespace Register

variable {n : Fin 16} {size : DataSize} {rex : Bool} {r : Register}

theorem exists_gpr (n : Fin 16) (rex : Bool) (h : size ∈ [DataSize.byte, .word, .dword, .qword]) :
    ∃ r, gpr n size rex = some r := by
  simp only [List.mem_cons, List.not_mem_nil, or_false] at h
  rcases h with rfl | rfl | rfl | rfl
  · unfold gpr
    dsimp only
    split_ifs
    · exact ⟨_, rfl⟩
    · exact ⟨_, rfl⟩
  · exact ⟨_, rfl⟩
  · exact ⟨_, rfl⟩
  · exact ⟨_, rfl⟩

/-- Below 4 the byte encodings do not depend on REX. -/
theorem gpr_of_lt_four (h : n.val < 4) (size : DataSize) (rex rex' : Bool) :
    gpr n size rex = gpr n size rex' := by
  have hlow : ∀ b : Bool, ¬ (4 ≤ n.val ∧ n.val < 8 ∧ b = false) := fun _ hc => by omega
  cases size with
  | byte => simp only [gpr, dif_neg (hlow _)]
  | _ => rfl

theorem isHigh_gpr (h : gpr n size rex = some r) (hrex : rex) : r.isHigh = false := by
  subst hrex
  cases size with
  | byte =>
    simp only [gpr, Bool.true_eq_false, and_false, dite_false, Option.some.injEq] at h
    subst h
    rfl
  | word | dword | qword =>
    cases h
    rfl
  | _ => cases h

theorem isLong_gpr (h : gpr n size rex = some r) (hsize : size ≠ .qword) (hn : n.val < 8)
    (hrex : rex = false) : r.isLong = false := by
  have hlt : decide (8 ≤ n.val) = false := decide_eq_false (by omega)
  subst hrex
  cases size with
  | byte =>
    by_cases h4 : 4 ≤ n.val
    · simp only [gpr, h4, hn, and_self, dite_true, Option.some.injEq] at h
      subst h
      rfl
    · simp only [gpr, h4, false_and, dite_false, Option.some.injEq] at h
      subst h
      exact decide_eq_false h4
  | word | dword =>
    cases h
    exact hlt
  | qword => exact absurd rfl hsize
  | _ => cases h

end Register

/-! ## What operands rely on -/

/-- What holds of a form's context whatever the prefixes are. -/
structure OperandContext.Sound (c : OperandContext) : Prop where
  operationSize_mem : c.operationSize ∈ [.word, .dword, .qword]
  operationSize_ne_qword : c.mode ≠ .m64 → c.operationSize ≠ .qword
  addressSize_ne_a64 : c.mode ≠ .m64 → c.addressSize ≠ .a64
  rex_eq : c.mode ≠ .m64 → c.prefixes.rex = {}

theorem Form.operationSize_mem (f : Form) (p : Prefixes) (override : Bool) (mode : Mode) :
    f.operationSize p override mode ∈ [DataSize.word, .dword, .qword] := by
  unfold operationSize
  cases mode with
  | m16 | m32 => cases override <;> simp
  | m64 =>
    dsimp only
    split_ifs <;> simp

theorem Mode.addressSize_ne_a64 {mode : Mode} (h : mode ≠ .m64) (override : Bool) :
    mode.addressSize override ≠ .a64 := by
  cases mode with
  | m16 | m32 => cases override <;> decide
  | m64 => exact absurd rfl h

theorem Mode.addressSize_ne_a16 {mode : Mode} (h : mode = .m64) (override : Bool) :
    mode.addressSize override ≠ .a16 := by
  subst h
  cases override <;> decide

theorem OperandContext.sound_ofForm {mode : Mode} {p : Prefixes} (hp : p.Sound mode) (o : Opcode)
    (f : Form) : (OperandContext.ofForm mode p o f).Sound where
  operationSize_mem := f.operationSize_mem p _ mode
  operationSize_ne_qword := f.operationSize_ne_qword p _
  addressSize_ne_a64 h := mode.addressSize_ne_a64 h _
  rex_eq := hp.rex_eq

/-! ## Operands -/

section Operands

variable {c : OperandContext} {a : Addressing} {s : OperandSpec} {o : Operand}

namespace OperandContext.Sound

/-- Outside 64-bit mode no bit of REX extends a register number. -/
theorem extend_lt (hc : c.Sound) (bit : Rex → Bool) (hbit : bit {} = false) (n : Fin 8)
    (h : c.mode ≠ .m64) : (extend (bit c.prefixes.rex) n).val < 8 := by
  rw [hc.rex_eq h, hbit]
  exact n.isLt

/-- A general-purpose register of a type that gives registers a size. -/
theorem encodable_general (hc : c.Sound) {type : OperandType}
    (ht : type.sizesGeneral c.operationSize) {n : Fin 16} (hn : c.mode ≠ .m64 → n.val < 8) :
    Operand.Encodable c.mode c.prefixes.rex.present (.register (c.general type n)) := by
  obtain ⟨hsize, hq⟩ := OperandType.size_of_sizesGeneral ht
  obtain ⟨r, hr⟩ := Register.exists_gpr n c.prefixes.rex.present hsize
  rw [general, hr]
  refine .register (fun hmode => ?_) (Register.isHigh_gpr hr)
  refine Register.isLong_gpr hr (fun h => hc.operationSize_ne_qword hmode (hq h)) (hn hmode) ?_
  rw [hc.rex_eq hmode]

end OperandContext.Sound

/-! ### Places in memory -/

theorem isStackPointer_addressRegister {n : Fin 16} {r : Register} (hn : n.val ≠ 4)
    (h : c.addressRegister n = some r) : r.isStackPointer = false := by
  unfold OperandContext.addressRegister at h
  split_ifs at h
  · cases h
    exact decide_eq_false hn
  · cases h
    exact decide_eq_false hn

theorem OperandContext.Sound.isLong_addressRegister (hc : c.Sound) (bit : Rex → Bool)
    (hbit : bit {} = false) {n : Fin 8} {r : Register} (hmode : c.mode ≠ .m64)
    (h : c.addressRegister (extend (bit c.prefixes.rex) n) = some r) : r.isLong = false := by
  have hn := hc.extend_lt bit hbit n hmode
  rw [addressRegister, if_neg (hc.addressSize_ne_a64 hmode)] at h
  cases h
  exact decide_eq_false (Nat.not_le.2 hn)

/-- An offset without registers. -/
theorem Memory.encodable_offset {m : Memory} (hbase : m.base = none) (hindex : m.index = none)
    (hscale : m.scale = 1) (hrip : m.ripRelative = false) (mode : Mode) : m.Encodable mode where
  scale_mem := by simp [hscale]
  index_ne_stackPointer := by simp [hindex]
  ripRelative_eq _ := hrip
  isLong_eq := by simp [hbase, hindex]

theorem AddressForm.encodable_toMemory {f : AddressForm} {mode : Mode}
    (hscale : f.scale ∈ [1, 2, 4, 8])
    (hindex : ∀ r, f.index = some r → r.isStackPointer = false)
    (hrip : mode ≠ .m64 → f.ripRelative = false)
    (hlong : mode ≠ .m64 → ∀ r, f.base = some r ∨ f.index = some r → r.isLong = false)
    (displacement : Int) : (f.toMemory c displacement).Encodable mode :=
  ⟨hscale, hindex, hrip, hlong⟩

open AddressForm (encodable_toMemory)

theorem encodable_ofModRM16 (m : ModRM) (displacement : Int) (mode : Mode) :
    ((AddressForm.ofModRM16 m).toMemory c displacement).Encodable mode := by
  have hregisters : ∀ rm : Fin 8,
      (∀ r ∈ (AddressForm.registers16 rm).1.toList, r.isLong = false) ∧
      ∀ r ∈ (AddressForm.registers16 rm).2.toList, r.isLong = false ∧ r.isStackPointer = false := by
    decide
  obtain ⟨hbase, hindex⟩ := hregisters m.rm
  unfold AddressForm.ofModRM16
  by_cases hbare : m.mod.val = 0 ∧ m.rm.val = 6
  · rw [if_pos hbare]
    exact Memory.encodable_offset rfl rfl rfl rfl mode
  · rw [if_neg hbare]
    refine encodable_toMemory List.mem_cons_self
      (fun r h => (hindex r (Option.mem_toList.2 h)).2) (fun _ => rfl) ?_ _
    rintro - r (h | h)
    · exact hbase r (Option.mem_toList.2 h)
    · exact (hindex r (Option.mem_toList.2 h)).1

namespace OperandContext.Sound

theorem encodable_ofSIB (hc : c.Sound) (m : ModRM) (s : SIB) (displacement : Int) :
    ((AddressForm.ofSIB c m s).toMemory c displacement).Encodable c.mode := by
  have hscale : ∀ n : Fin 4, 1 <<< n.val ∈ [1, 2, 4, 8] := by decide
  unfold AddressForm.ofSIB
  refine encodable_toMemory ?_ ?_ (fun _ => rfl) ?_ _ <;> dsimp only
  · split_ifs
    · exact List.mem_cons_self
    · exact hscale s.scale
  · -- What means no index is the number with its fourth bit, so that R12 can be one but RSP cannot.
    intro r h
    split_ifs at h with h4
    exact isStackPointer_addressRegister h4 h
  · rintro hmode r (h | h)
    · split_ifs at h
      exact hc.isLong_addressRegister Rex.b rfl hmode h
    · split_ifs at h
      exact hc.isLong_addressRegister Rex.x rfl hmode h

theorem encodable_ofModRM32 (hc : c.Sound) (m : ModRM) (displacement : Int) :
    ((AddressForm.ofModRM32 c m).toMemory c displacement).Encodable c.mode := by
  unfold AddressForm.ofModRM32
  have hnone : ∀ r : Register, none = some r → r.isStackPointer = false := by simp
  split_ifs with hbare hmode
  · exact encodable_toMemory List.mem_cons_self hnone (absurd hmode) (absurd hmode) _
  · exact Memory.encodable_offset rfl rfl rfl rfl c.mode
  · refine encodable_toMemory List.mem_cons_self hnone (fun _ => rfl) ?_ _
    rintro hmode r (h | h)
    · exact hc.isLong_addressRegister Rex.b rfl hmode h
    · cases h

theorem encodable_ofModRM (hc : c.Sound) (m : ModRM) (s : Option SIB) (displacement : Int) :
    ((AddressForm.ofModRM c m s).toMemory c displacement).Encodable c.mode := by
  unfold AddressForm.ofModRM
  split_ifs
  · exact encodable_ofModRM16 m displacement c.mode
  · cases s with
    | some s => exact hc.encodable_ofSIB m s displacement
    | none => exact hc.encodable_ofModRM32 m displacement

theorem ensures_fetchMemory (hc : c.Sound) (m : ModRM) :
    (fetchMemory c m).Ensures (·.Encodable c.mode) := by
  refine ensures_bind_of_forall fun s => ?_
  refine ensures_map fun displacement => ?_
  exact hc.encodable_ofModRM m s displacement

end OperandContext.Sound

theorem Memory.Encodable.withSize {m : Memory} {mode : Mode} (h : m.Encodable mode)
    (size : DataSize) : ({ m with size } : Memory).Encodable mode :=
  ⟨h.scale_mem, h.index_ne_stackPointer, h.ripRelative_eq, h.isLong_eq⟩

/-! ### Methods -/

/-- A register whose number is extended by REX in a family that has no other sizes. -/
theorem encodable_extended {mode : Mode} {rex : Bool} {n : Fin 16} {r : Fin 16 → Register}
    (hlong : ∀ n, (r n).isLong = decide (8 ≤ n.val)) (hhigh : ∀ n, (r n).isHigh = false)
    (hn : mode ≠ .m64 → n.val < 8) : Operand.Encodable mode rex (.register (some (r n))) := by
  refine .register (fun hmode => ?_) fun _ => hhigh n
  rw [hlong]
  exact decide_eq_false (Nat.not_le.2 (hn hmode))

theorem encodable_segmentOfNumber {mode : Mode} {rex : Bool} {n : Nat} {r : Register}
    (h : Register.segmentOfNumber n = some r) :
    Operand.Encodable mode rex (.register (some r)) := by
  obtain ⟨g, -, rfl⟩ := Option.map_eq_some_iff.1 h
  exact .register (fun _ => rfl) fun _ => rfl

theorem encodable_fixed (hc : c.Sound) {type : OperandType} {number : Nat}
    (ht : type.sizesGeneral c.operationSize) (hn : number < 4) :
    Operand.Encodable c.mode c.prefixes.rex.present
      (.register (Register.gpr (low4 number) (type.size c.operationSize true) false)) := by
  have hlow : (low4 number).val < 4 := by
    show number % 16 < 4
    omega
  rw [Register.gpr_of_lt_four hlow _ _ c.prefixes.rex.present]
  exact hc.encodable_general ht fun _ => by omega

/-- The operands named by the form, by the opcode and by ModRM, case by case of their methods. -/
theorem encodable_of_named (hc : c.Sound) (hs : s.namesRegister c.operationSize)
    (ha : ∀ m, a.modrm = some m → m.isRegister = false → a.memory.Encodable c.mode)
    (h : c.named a s = some o) : o.Encodable c.mode c.prefixes.rex.present := by
  obtain ⟨method, type, number⟩ := s
  unfold OperandContext.named at h
  have hb := hc.extend_lt Rex.b rfl
  have hr := hc.extend_lt Rex.r rfl
  have hmemory : ∀ m, a.modrm = some m → m.isRegister = false →
      Operand.Encodable c.mode c.prefixes.rex.present
        (.memory { a.memory with size := type.size c.operationSize false }) :=
    fun m hm hmod => .memory ((ha m hm hmod).withSize _)
  cases method with
  | none | I | J | O | A => cases h
  | fixed =>
    cases h
    obtain ⟨ht, hn⟩ := Bool.and_eq_true_iff.1 hs
    exact encodable_fixed hc ht (of_decide_eq_true hn)
  | fixedSegment =>
    cases h
    have hn : number < 6 := of_decide_eq_true hs
    obtain ⟨r, hsegment⟩ := Option.isSome_iff_exists.1
      ((Register.isSome_segmentOfNumber ⟨number, by omega⟩).2 hn)
    show Operand.Encodable _ _ (.register (Register.segmentOfNumber number))
    rw [hsegment]
    exact encodable_segmentOfNumber hsegment
  | fixedX87 =>
    cases h
    exact .register (fun _ => rfl) fun _ => rfl
  | fixedXMM =>
    cases h
    have hn : number < 8 := of_decide_eq_true hs
    refine encodable_extended (fun _ => rfl) (fun _ => rfl) fun _ => ?_
    show number % 16 < 8
    omega
  | one =>
    cases h
    exact .immediate _
  | opcode =>
    cases h
    exact hc.encodable_general hs (hb _)
  | E =>
    exact Addressing.of_registerOrMemory h
      (fun m _ _ => hc.encodable_general hs (hb m.rm)) hmemory
  | G => exact Addressing.of_registerOperand h fun m => hc.encodable_general hs (hr m.reg)
  | R => exact Addressing.of_onlyRegister h fun m _ _ => hc.encodable_general hs (hb m.rm)
  | M => exact Addressing.of_memoryOperand h hmemory
  | S =>
    obtain ⟨m, -, hm⟩ := Option.bind_eq_some_iff.1 h
    obtain ⟨r, hsegment, rfl⟩ := Option.map_eq_some_iff.1 hm
    exact encodable_segmentOfNumber hsegment
  | C | D | V =>
    exact Addressing.of_registerOperand h fun m =>
      encodable_extended (fun _ => rfl) (fun _ => rfl) (hr m.reg)
  | P => exact Addressing.of_registerOperand h fun m => .register (fun _ => rfl) fun _ => rfl
  | N | X87 =>
    exact Addressing.of_onlyRegister h fun m _ _ => .register (fun _ => rfl) fun _ => rfl
  | U =>
    exact Addressing.of_onlyRegister h fun m _ _ =>
      encodable_extended (fun _ => rfl) (fun _ => rfl) (hb m.rm)
  | Q =>
    exact Addressing.of_registerOrMemory h
      (fun m _ _ => .register (fun _ => rfl) fun _ => rfl) hmemory
  | W =>
    exact Addressing.of_registerOrMemory h
      (fun m _ _ => encodable_extended (fun _ => rfl) (fun _ => rfl) (hb m.rm)) hmemory

/-! ### Operands with bytes of their own -/

/-- Constants, displacements and far pointers exist in all modes. -/
theorem encodable_of_describes {mode : Mode} {rex : Bool} (h : s.Describes c o)
    (hs : s.method = .I ∨ s.method = .J ∨ s.method = .A) : o.Encodable mode rex := by
  have hmem := h.outline_mem
  cases o with
  | immediate i => exact .immediate i
  | relative r => exact .relative r
  | far p => exact .far p
  | register _ | memory _ =>
    rcases hs with hs | hs | hs <;> simp [OperandSpec.outlines, Operand.outline, hs] at hmem

theorem encodable_fetchOperand (hc : c.Sound) (hs : s.namesRegister c.operationSize)
    (ha : ∀ m, a.modrm = some m → m.isRegister = false → a.memory.Encodable c.mode) :
    (fetchOperand c a s).Ensures (Operand.Encodable c.mode c.prefixes.rex.present) := by
  obtain ⟨method, type, number⟩ := s
  cases method with
  | I =>
    intro r o h
    exact encodable_of_describes (ensures_fetchImmediate type number r o h) (Or.inl rfl)
  | J =>
    intro r o h
    exact encodable_of_describes (ensures_fetchRelative type number r o h) (Or.inr (Or.inl rfl))
  | A =>
    intro r o h
    exact encodable_of_describes (ensures_fetchFar type number r o h) (Or.inr (Or.inr rfl))
  | O => exact ensures_map fun _ => .memory (Memory.encodable_offset rfl rfl rfl rfl _)
  | _ => exact fun _ _ h => encodable_of_named hc hs ha h

theorem encodable_fetchOperands (hc : c.Sound)
    (ha : ∀ m, a.modrm = some m → m.isRegister = false → a.memory.Encodable c.mode)
    (specs : List OperandSpec) (hs : ∀ s ∈ specs, s.namesRegister c.operationSize) :
    (fetchOperands c a specs).Ensures fun os =>
      ∀ o ∈ os, o.Encodable c.mode c.prefixes.rex.present := by
  induction specs with
  | nil => exact ensures_pure fun _ h => nomatch h
  | cons s rest ih =>
    obtain ⟨hs, hrest⟩ := List.forall_mem_cons.1 hs
    exact ensures_bind _ (encodable_fetchOperand hc hs ha) fun o ho =>
      ensures_bind _ (ih hrest) fun os hos => ensures_pure (List.forall_mem_cons.2 ⟨ho, hos⟩)

end Operands

/-! ## Records -/

theorem Prefixes.rex_remaining (p : Prefixes) (f : Form) (s : Selector) (m : Mnemonic) :
    (p.remaining f s m).rex = p.rex := by
  unfold remaining
  split_ifs <;> rfl

/-- What is read behind an opcode makes a record that its mode can encode. -/
theorem encodable_of_fetchOperation {mode : Mode} {p : Prefixes} (hp : p.Sound mode)
    (opcode : Opcode) (address : UInt64) (bytes : List UInt8) :
    (fetchOperation mode p opcode).Ensures fun d => Instruction.Encodable
      { address, mode, bytes, mnemonic := d.mnemonic, prefixes := d.prefixes,
        operationSize := d.operationSize, addressSize := d.addressSize,
        operands := d.operands } := by
  refine ensures_bind_of_forall fun modrm => ?_
  refine ensures_bind (· ∈ OpcodeMap.forms) (fun _ f hf => OpcodeMap.mem_forms_of_lookup hf) ?_
  intro found hfound
  have hform := opcode.rename_mem_recordForms p hfound
  generalize opcode.rename p found = f at hform
  have hc := OperandContext.sound_ofForm hp opcode f
  refine ensures_bind _ (f.ensures_memory hc.ensures_fetchMemory modrm) fun a ha => ?_
  refine ensures_bind _ (encodable_fetchOperands hc ha f.operands fun s hs =>
    OpcodeMap.namesRegister_of_mem_recordForms f hform s hs _ hc.operationSize_mem) fun os hos => ?_
  refine ensures_pure ?_
  exact {
    operationSize_mem := hc.operationSize_mem
    operands := by
      dsimp only
      rw [Prefixes.rex_remaining]
      refine forall_mem_widenOperands (fun m size h => ?_) hos
      cases h with
      | memory h => exact .memory (h.withSize size)
    rex_eq := fun h => (p.rex_remaining f _ _).trans (hp.rex_eq h)
    operationSize_ne_qword := hc.operationSize_ne_qword
    addressSize_ne_a64 := hc.addressSize_ne_a64
    addressSize_ne_a16 := fun h => mode.addressSize_ne_a16 h _ }

/-- **A valid record names only what its mode can encode.** Its operation has 16, 32 or 64 bits,
each register exists, scales are 1, 2, 4 or 8, and no stack pointer is an index. Outside 64-bit mode
there is no REX, nothing has 64 bits and no register is one that only 64-bit mode has. In 64-bit
mode addresses have more than 16 bits, and under REX no operand is AH, CH, DH or BH. -/
theorem decodeAt_encodable {buffer : List UInt8} {cursor : Nat} (h : cursor < buffer.length)
    (address : UInt64) (mode : Mode) :
    ∃ r, decodeAt buffer cursor address mode = .ok r ∧ r.mode = mode ∧
      (r.isValid → r.Encodable) := by
  refine ⟨_, decodeAt_of_lt h address mode, mode_decode _ _ _, fun hvalid => ?_⟩
  obtain ⟨d, f, place, t, hread, -, hrecord⟩ := exists_describes hvalid
  rw [hrecord]
  exact ensures_bind_of_forall (fun opcode =>
    encodable_of_fetchOperation (Prefixes.sound_ofRun mode _) opcode address _) _ d hread

/-- A store of AH in 32-bit mode. Under REX its encoding names SPL. -/
theorem decodeAt_encodable_ah :
    0 < ([0x88, 0x24, 0x8d, 0x10, 0x00, 0x00, 0x00] : List UInt8).length ∧
      ∃ r, decodeAt [0x88, 0x24, 0x8d, 0x10, 0x00, 0x00, 0x00] 0 0x1000 .m32 = .ok r ∧
        r.isValid ∧ r.Encodable ∧ .register (some (.high 0)) ∈ r.operands := by
  have hlt : 0 < ([0x88, 0x24, 0x8d, 0x10, 0x00, 0x00, 0x00] : List UInt8).length := by decide
  obtain ⟨r, hr, -, hencodable⟩ := decodeAt_encodable hlt 0x1000 .m32
  have hdecode := Except.ok.inj (hr.symm.trans (decodeAt_of_lt hlt 0x1000 .m32))
  have hvalid : r.isValid := by
    rw [hdecode]
    decide +kernel
  refine ⟨hlt, r, hr, hvalid, hencodable hvalid, ?_⟩
  rw [hdecode]
  decide +kernel

end Disasm
