import Disasm.Proofs.Acceptance

/-!
# What a form says about its records

Bytes choose among the registers of a family, and give displacements and constants. What is left
of an instruction without these is its outline, and of outlines there are finitely many.

* `Operand.outline` — the kind of an operand: a register's family, the size of memory.
* `OperandSpec.outlines`, `Form.sizes` — the outlines of an operand and the operation sizes that a
  form allows for.
* `Instruction.Composed` — a record is an instance of a form.

**Theorem (`exists_composed`).** Every valid record is an instance of a form. So what holds of the
outlines of all forms holds of all records, and is checked over a list.
-/

namespace Disasm

open Fetch

/-! ## Outlines -/

/-- The first register of a family. CL stands for itself, because it may hold the count of a
shift. -/
def Register.outline : Register → Register
  | byte n => if byte n = cl then cl else byte (low4 0)
  | high _ => byte (low4 0)
  | word _ => word (low4 0)
  | dword _ => dword (low4 0)
  | qword _ => qword (low4 0)
  | segment _ => segment .es
  | control _ => control (low4 0)
  | debug _ => debug (low4 0)
  | mmx _ => mmx (low3 0)
  | xmm _ => xmm (low4 0)
  | x87 _ => x87 (low3 0)
  | ip w => ip w

/-- The kind of an operand. -/
def Operand.outline : Operand → Operand
  | register r => register (r.map Register.outline)
  | memory m => memory { size := m.size }
  | immediate _ => immediate {}
  | relative _ => relative {}
  | far _ => far {}

/-- The outlines of the general-purpose registers of a size. -/
def DataSize.generals : DataSize → List (Option Register)
  | .byte => [some (.byte (low4 0)), some .cl]
  | .word => [some (.word (low4 0))]
  | .dword => [some (.dword (low4 0))]
  | .qword => [some (.qword (low4 0))]
  | _ => [Option.none]

theorem Register.outline_byte (n : Fin 16) :
    byte n = cl ∧ (byte n).outline = cl ∨ byte n ≠ cl ∧ (byte n).outline = byte (low4 0) := by
  by_cases h : byte n = cl
  · exact Or.inl ⟨h, if_pos h⟩
  · exact Or.inr ⟨h, if_neg h⟩

theorem Register.outline_gpr_mem (n : Fin 16) (size : DataSize) (rex : Bool) :
    (gpr n size rex).map outline ∈ size.generals := by
  cases size with
  | byte =>
    unfold gpr
    dsimp only
    split_ifs with h
    · exact List.mem_cons_self
    · rw [Option.map_some]
      rcases outline_byte n with ⟨-, ho⟩ | ⟨-, ho⟩ <;> rw [ho] <;> decide
  | _ => exact List.mem_singleton_self _

namespace OperandSpec

/-- Memory of the size that a specification asks for. -/
def memoryOutline (s : OperandSpec) (operation : DataSize) : Operand :=
  .memory { size := s.type.size operation false }

/-- The outlines of the operands that a specification can describe, at an operation size. -/
def outlines (s : OperandSpec) (operation : DataSize) : List Operand :=
  let generals := (s.type.size operation true).generals.map Operand.register
  match s.method with
  | .none => []
  | .fixed =>
    [.register ((Register.gpr (low4 s.number) (s.type.size operation true) false).map
      Register.outline)]
  | .opcode | .G | .R => generals
  | .E => s.memoryOutline operation :: generals
  | .M | .O => [s.memoryOutline operation]
  | .fixedSegment => [.register ((Register.segmentOfNumber s.number).map Register.outline)]
  | .S => [.register (some (.segment .es))]
  | .C => [.register (some (.control (low4 0)))]
  | .D => [.register (some (.debug (low4 0)))]
  | .P | .N => [.register (some (.mmx (low3 0)))]
  | .Q => [s.memoryOutline operation, .register (some (.mmx (low3 0)))]
  | .fixedXMM | .V | .U => [.register (some (.xmm (low4 0)))]
  | .W => [s.memoryOutline operation, .register (some (.xmm (low4 0)))]
  | .fixedX87 | .X87 => [.register (some (.x87 (low3 0)))]
  | .one | .I => [.immediate {}]
  | .J => [.relative {}]
  | .A => [.far {}]

end OperandSpec

namespace Operand

variable {o : Operand}

theorem eq_register_of_outline {r : Option Register} (h : o.outline = .register r) :
    ∃ r', o = .register r' ∧ r'.map Register.outline = r := by
  cases o with
  | register r' =>
    cases h
    exact ⟨r', rfl, rfl⟩
  | _ => cases h

theorem eq_memory_of_outline {s : DataSize} (h : o.outline = .memory { size := s }) :
    ∃ m, o = .memory m ∧ m.size = s := by
  cases o with
  | memory m =>
    cases h
    exact ⟨m, rfl, rfl⟩
  | _ => cases h

theorem eq_relative_of_outline (h : o.outline = .relative {}) : ∃ r, o = .relative r := by
  cases o with
  | relative r => exact ⟨r, rfl⟩
  | _ => cases h

theorem eq_far_of_outline (h : o.outline = .far {}) : ∃ p, o = .far p := by
  cases o with
  | far p => exact ⟨p, rfl⟩
  | _ => cases h

end Operand

/-! ## What ModRM names

An operand that ModRM names is a register, or the place in memory where ModRM names one. So what
holds of both holds of the operand. -/

namespace Addressing

variable {a : Addressing} {c : OperandContext} {type : OperandType} {o : Operand}
  {f : ModRM → Option Register} {P : Operand → Prop}

theorem of_registerOperand (h : a.registerOperand f = some o) (hf : ∀ m, P (.register (f m))) :
    P o := by
  obtain ⟨m, -, rfl⟩ := Option.map_eq_some_iff.1 h
  exact hf m

theorem of_onlyRegister (h : a.onlyRegister f = some o)
    (hf : ∀ m, a.modrm = some m → m.isRegister → P (.register (f m))) : P o := by
  obtain ⟨m, hm, rfl⟩ := Option.map_eq_some_iff.1 h
  obtain ⟨hm, hr⟩ := Option.filter_eq_some_iff.1 hm
  exact hf m hm hr

theorem of_memoryOperand (h : a.memoryOperand c type = some o)
    (hmem : ∀ m, a.modrm = some m → m.isRegister = false →
      P (.memory { a.memory with size := type.size c.operationSize false })) : P o := by
  unfold memoryOperand at h
  split at h
  · next m hm =>
    split at h
    · cases h
    · next hr =>
      cases h
      exact hmem m hm (Bool.eq_false_of_not_eq_true hr)
  · cases h

theorem of_registerOrMemory (h : a.registerOrMemory c type f = some o)
    (hf : ∀ m, a.modrm = some m → m.isRegister → P (.register (f m)))
    (hmem : ∀ m, a.modrm = some m → m.isRegister = false →
      P (.memory { a.memory with size := type.size c.operationSize false })) : P o := by
  unfold registerOrMemory at h
  cases hr : a.onlyRegister f with
  | none =>
    rw [hr, Option.none_or] at h
    exact of_memoryOperand h hmem
  | some o' =>
    rw [hr, Option.some_or] at h
    cases h
    exact of_onlyRegister hr hf

end Addressing

/-! ## Operands -/

/-- What a specification says about an operand: its outline, and the segment if it is memory. -/
structure OperandSpec.Describes (s : OperandSpec) (c : OperandContext) (o : Operand) : Prop where
  outline_mem : o.outline ∈ s.outlines c.operationSize
  segment_eq : ∀ m, o = .memory m → m.segment = c.segmentOverride

/-- The place in memory that ModRM describes is in the segment that the prefixes ask for. -/
def Addressing.Located (a : Addressing) (c : OperandContext) : Prop :=
  ∀ m, a.modrm = some m → m.isRegister = false → a.memory.segment = c.segmentOverride

section Operands

variable {c : OperandContext} {a : Addressing} {s : OperandSpec} {o : Operand}

theorem OperandSpec.describes_register {r : Option Register}
    (h : .register (r.map Register.outline) ∈ s.outlines c.operationSize) :
    s.Describes c (.register r) :=
  ⟨h, fun _ hm => nomatch hm⟩

theorem describes_of_registerOperand {f : ModRM → Option Register}
    (h : a.registerOperand f = some o)
    (hf : ∀ m, .register ((f m).map Register.outline) ∈ s.outlines c.operationSize) :
    s.Describes c o :=
  Addressing.of_registerOperand h fun m => OperandSpec.describes_register (hf m)

theorem describes_of_onlyRegister {f : ModRM → Option Register} (h : a.onlyRegister f = some o)
    (hf : ∀ m, .register ((f m).map Register.outline) ∈ s.outlines c.operationSize) :
    s.Describes c o :=
  Addressing.of_onlyRegister h fun m _ _ => OperandSpec.describes_register (hf m)

theorem describes_memory (ha : a.Located c)
    (hs : s.memoryOutline c.operationSize ∈ s.outlines c.operationSize) {m : ModRM}
    (hm : a.modrm = some m) (hr : m.isRegister = false) :
    s.Describes c (.memory { a.memory with size := s.type.size c.operationSize false }) := by
  refine ⟨hs, fun m' hm' => ?_⟩
  cases hm'
  exact ha m hm hr

theorem describes_of_memoryOperand (ha : a.Located c) (h : a.memoryOperand c s.type = some o)
    (hs : s.memoryOutline c.operationSize ∈ s.outlines c.operationSize) : s.Describes c o :=
  Addressing.of_memoryOperand h fun _ => describes_memory ha hs

theorem describes_of_registerOrMemory {f : ModRM → Option Register} (ha : a.Located c)
    (h : a.registerOrMemory c s.type f = some o)
    (hs : s.memoryOutline c.operationSize ∈ s.outlines c.operationSize)
    (hf : ∀ m, .register ((f m).map Register.outline) ∈ s.outlines c.operationSize) :
    s.Describes c o :=
  Addressing.of_registerOrMemory h (fun m _ _ => OperandSpec.describes_register (hf m))
    fun _ => describes_memory ha hs

/-- The operands named by the form, by the opcode and by ModRM, case by case of their methods. -/
theorem describes_of_named (ha : a.Located c) (h : c.named a s = some o) : s.Describes c o := by
  obtain ⟨method, type, number⟩ := s
  unfold OperandContext.named at h
  have hgeneral : ∀ n, .register ((c.general type n).map Register.outline) ∈
      (type.size c.operationSize true).generals.map Operand.register := fun n =>
    List.mem_map_of_mem (Register.outline_gpr_mem _ _ _)
  cases method with
  | none | I | J | O | A => cases h
  | fixed | fixedSegment | fixedX87 | fixedXMM =>
    cases h
    exact OperandSpec.describes_register (List.mem_singleton_self _)
  | one =>
    cases h
    exact ⟨List.mem_singleton_self _, fun _ hm => nomatch hm⟩
  | opcode =>
    cases h
    exact OperandSpec.describes_register (hgeneral _)
  | E => exact describes_of_registerOrMemory ha h List.mem_cons_self fun m =>
      List.mem_cons_of_mem _ (hgeneral _)
  | G => exact describes_of_registerOperand h fun m => hgeneral _
  | R => exact describes_of_onlyRegister h fun m => hgeneral _
  | M => exact describes_of_memoryOperand ha h (List.mem_singleton_self _)
  | S =>
    obtain ⟨m, -, hm⟩ := Option.bind_eq_some_iff.1 h
    obtain ⟨r, hr, rfl⟩ := Option.map_eq_some_iff.1 hm
    obtain ⟨g, -, rfl⟩ := Option.map_eq_some_iff.1 hr
    exact OperandSpec.describes_register (List.mem_singleton_self _)
  | C | D | P | V => exact describes_of_registerOperand h fun m => List.mem_singleton_self _
  | N | U | X87 => exact describes_of_onlyRegister h fun m => List.mem_singleton_self _
  | Q | W => exact describes_of_registerOrMemory ha h List.mem_cons_self fun m =>
      List.mem_cons_of_mem _ (List.mem_singleton_self _)

theorem Fetch.ensures_map {α β : Type} {m : Fetch α} {f : α → β} {P : β → Prop}
    (h : ∀ v, P (f v)) : (m >>= fun v => pure (f v)).Ensures P :=
  ensures_bind_of_forall fun v => ensures_pure (h v)

theorem OperandSpec.describes_immediate {type : OperandType} {number : Nat} (v : Immediate) :
    Describes ⟨.I, type, number⟩ c (.immediate v) :=
  ⟨List.mem_singleton_self _, fun _ hm => nomatch hm⟩

theorem ensures_fetchImmediate (type : OperandType) (number : Nat) :
    (fetchImmediate c type).Ensures (OperandSpec.Describes ⟨.I, type, number⟩ c) := by
  unfold fetchImmediate
  cases type with
  | b | bs | w => exact ensures_map fun _ => OperandSpec.describes_immediate _
  | z =>
    dsimp only
    split_ifs
    · exact ensures_map fun _ => OperandSpec.describes_immediate _
    · exact ensures_map fun _ => OperandSpec.describes_immediate _
  | v =>
    dsimp only
    split
    · exact ensures_map fun _ => OperandSpec.describes_immediate _
    · exact ensures_map fun _ => OperandSpec.describes_immediate _
    · exact ensures_map fun _ => OperandSpec.describes_immediate _
  | _ => exact fun _ _ h => nomatch h

theorem ensures_fetchRelative (type : OperandType) (number : Nat) :
    (fetchRelative c type).Ensures (OperandSpec.Describes ⟨.J, type, number⟩ c) := by
  have hdescribes : ∀ v, OperandSpec.Describes ⟨.J, type, number⟩ c (.relative v) := fun _ =>
    ⟨List.mem_singleton_self _, fun _ hm => nomatch hm⟩
  unfold fetchRelative
  split_ifs
  · exact ensures_map fun _ => hdescribes _
  · exact ensures_map fun _ => hdescribes _
  · exact ensures_map fun _ => hdescribes _

theorem ensures_fetchOffset (type : OperandType) (number : Nat) :
    (fetchOffset c type).Ensures (OperandSpec.Describes ⟨.O, type, number⟩ c) :=
  ensures_map fun _ => ⟨List.mem_singleton_self _, fun _ hm => by cases hm; rfl⟩

theorem ensures_fetchFar (type : OperandType) (number : Nat) :
    (fetchFar c).Ensures (OperandSpec.Describes ⟨.A, type, number⟩ c) := by
  have hdescribes : ∀ v, OperandSpec.Describes ⟨.A, type, number⟩ c (.far v) := fun _ =>
    ⟨List.mem_singleton_self _, fun _ hm => nomatch hm⟩
  unfold fetchFar
  split_ifs
  · exact ensures_bind_of_forall fun _ =>
      ensures_map fun _ => hdescribes _
  · exact ensures_bind_of_forall fun _ =>
      ensures_map fun _ => hdescribes _

theorem ensures_fetchOperand (ha : a.Located c) (s : OperandSpec) :
    (fetchOperand c a s).Ensures (s.Describes c) := by
  obtain ⟨method, type, number⟩ := s
  cases method with
  | I => exact ensures_fetchImmediate type number
  | J => exact ensures_fetchRelative type number
  | O => exact ensures_fetchOffset type number
  | A => exact ensures_fetchFar type number
  | _ => exact fun _ _ h => describes_of_named ha h

theorem ensures_fetchOperands (ha : a.Located c) (specs : List OperandSpec) :
    (fetchOperands c a specs).Ensures (List.Forall₂ (·.Describes c) specs) := by
  induction specs with
  | nil => exact ensures_pure .nil
  | cons s rest ih =>
    exact ensures_bind _ (ensures_fetchOperand ha s) fun _ ho =>
      ensures_bind _ ih fun _ hos => ensures_pure (.cons ho hos)

end Operands

theorem ensures_fetchMemory (c : OperandContext) (m : ModRM) :
    (fetchMemory c m).Ensures fun memory => memory.segment = c.segmentOverride :=
  ensures_bind_of_forall fun _ => ensures_map fun _ => rfl

/-- What holds of every place in memory that can be read holds of that which ModRM describes. -/
theorem Form.ensures_memory {P : Memory → Prop} {c : OperandContext}
    (h : ∀ m, (fetchMemory c m).Ensures P) (f : Form) (m : Option ModRM) :
    (f.fetchAddressing c m).Ensures fun a =>
      ∀ m', a.modrm = some m' → m'.isRegister = false → P a.memory := by
  cases m with
  | none => exact ensures_pure fun _ hm => nomatch hm
  | some m =>
    show (Disasm.fetchAddressing c (f.understood m)).Ensures _
    unfold Disasm.fetchAddressing
    by_cases hr : (f.understood m).isRegister
    · rw [if_pos hr]
      refine ensures_pure ?_
      rintro _ ⟨⟩ hr'
      rw [hr] at hr'
      cases hr'
    · rw [if_neg hr]
      refine ensures_bind P (h _) fun memory hP => ensures_pure ?_
      intro _ _ _
      exact hP

theorem Form.located_fetchAddressing (f : Form) (c : OperandContext) (m : Option ModRM) :
    (f.fetchAddressing c m).Ensures fun a => a.Located c :=
  f.ensures_memory (ensures_fetchMemory c) m

/-! ## Forms -/

/-- The forms that records are instances of: those of the maps, and the two names of the exchange
that does nothing. -/
def OpcodeMap.recordForms : List Form := { mnemonic := .NOP } :: { mnemonic := .PAUSE } :: forms

theorem Opcode.rename_mem_recordForms (o : Opcode) (p : Prefixes) {f : Form}
    (h : f ∈ OpcodeMap.forms) : o.rename p f ∈ OpcodeMap.recordForms := by
  unfold rename
  split_ifs
  · exact List.mem_cons_of_mem _ List.mem_cons_self
  · exact List.mem_cons_self
  · exact List.mem_cons_of_mem _ (List.mem_cons_of_mem _ h)

theorem Opcode.definedIn_rename (o : Opcode) (p : Prefixes) {f : Form} {mode : Mode}
    (h : f.definedIn mode) : (o.rename p f).definedIn mode := by
  unfold rename
  split_ifs
  · cases mode <;> rfl
  · cases mode <;> rfl
  · exact h

/-- The operation sizes of a form, each with whether REX.W asks for it. -/
def Form.sizes (f : Form) : List (DataSize × Bool) :=
  [(.word, false), (.dword, false)] ++
    if f.flags.invalid64 then []
    else (.qword, true) :: if f.flags.force64 || f.flags.default64 then [(.qword, false)] else []

/-- What runs of prefixes have in common: REX exists in 64-bit mode only, and overrides are
segment registers. -/
structure Prefixes.Sound (p : Prefixes) (mode : Mode) : Prop where
  rex_eq : mode ≠ .m64 → p.rex = {}
  segment_eq : ∀ r, p.segment = some r → ∃ s, r = .segment s

theorem Prefixes.Sound.step {p : Prefixes} {mode : Mode} (h : p.Sound mode) (b : UInt8) :
    (p.step mode b).Sound mode := by
  unfold Prefixes.step
  split_ifs with hrex
  · refine ⟨fun hmode => ?_, h.segment_eq⟩
    simp [isRex, hmode] at hrex
  · refine ⟨fun _ => rfl, fun r hr => ?_⟩
    cases hs : segmentOverride? b with
    | none =>
      rw [hs] at hr
      exact h.segment_eq r hr
    | some s =>
      rw [hs] at hr
      cases hr
      exact ⟨s, rfl⟩

theorem Prefixes.sound_ofRun (mode : Mode) (run : List UInt8) : (ofRun mode run).Sound mode := by
  have hfoldl : ∀ p : Prefixes, p.Sound mode → (run.foldl (step mode) p).Sound mode := by
    induction run with
    | nil => exact fun _ hp => hp
    | cons b rest ih => exact fun p hp => ih _ (hp.step b)
  exact hfoldl {} ⟨fun _ => rfl, fun _ h => nomatch h⟩

theorem Form.operationSize_mem_sizes (f : Form) {p : Prefixes} {mode : Mode}
    (hdef : f.definedIn mode) (hp : p.Sound mode) (override : Bool) :
    (f.operationSize p override mode, p.rex.w) ∈ f.sizes := by
  unfold operationSize sizes
  cases mode with
  | m16 | m32 =>
    have hw : p.rex.w = false := by rw [hp.rex_eq (by decide)]
    cases override <;> simp [hw]
  | m64 =>
    have hvalid : f.flags.invalid64 = false := by simpa [definedIn] using hdef
    simp only [hvalid]
    cases hw : p.rex.w <;> cases hforce : f.flags.force64 <;> cases override <;>
      cases hdefault : f.flags.default64 <;> simp

theorem Form.operationSize_of_force64 (f : Form) (p : Prefixes) (override : Bool) {mode : Mode}
    (hforce : f.flags.force64) (hmode : mode = .m64) :
    f.operationSize p override mode = .qword := by
  rw [hmode, operationSize, hforce, Bool.true_or, if_pos rfl]

theorem Form.operationSize_ne_qword (f : Form) (p : Prefixes) (override : Bool) {mode : Mode}
    (hmode : mode ≠ .m64) : f.operationSize p override mode ≠ .qword := by
  unfold operationSize
  cases mode with
  | m16 | m32 => cases override <;> simp
  | m64 => exact absurd rfl hmode

/-! ## Names -/

namespace Mnemonic

/-- The names for some operation sizes and address sizes. -/
def resized : List Mnemonic := [JECXZ, JRCXZ] ++ sizedNames.flatMap fun x => [x.2.1, x.2.2]

/-- The names that an operation has only at some sizes. -/
def derived : List Mnemonic := resized ++ wideNames.map Prod.snd

theorem sized_eq_or (m : Mnemonic) (size : DataSize) (a : AddressSize) :
    m.sized size a = m ∨ m.sized size a ∈ resized := by
  have hnames : ∀ x ∈ resizings, x.2 ∈ resized := by decide
  exact (m.sized_eq_or_mem_resizings size a).imp_right (hnames _)

/-- A name that an operation has at every size is that of its form. -/
theorem eq_of_not_mem_derived {m n : Mnemonic} {size : DataSize} {a : AddressSize} {w : Bool}
    (h : n = (m.sized size a).widened w) (hn : n ∉ derived) : m = n := by
  subst h
  rcases widened_eq_or (m.sized size a) w with hw | hw
  · rw [hw] at hn ⊢
    rcases sized_eq_or m size a with hs | hs
    · exact hs.symm
    · exact absurd (List.mem_append_left _ hs) hn
  · exact absurd (List.mem_append_right _ (List.mem_map_of_mem hw)) hn

end Mnemonic

/-! ## Records -/

namespace Instruction

/-- A record is an instance of a form: its name and its operands are what the form says, at one of
the form's operation sizes. -/
structure Composed (i : Instruction) (f : Form) (wide : Bool) : Prop where
  mem_recordForms : f ∈ OpcodeMap.recordForms
  definedIn : f.definedIn i.mode
  size_mem : (i.operationSize, wide) ∈ f.sizes
  size_of_force64 : f.flags.force64 → i.mode = .m64 → i.operationSize = .qword
  size_ne_qword : i.mode ≠ .m64 → i.operationSize ≠ .qword
  mnemonic_eq : i.mnemonic = (f.mnemonic.sized i.operationSize i.addressSize).widened wide
  operands_eq : ∃ os, i.operands = widenOperands i.mnemonic os ∧
    List.Forall₂ (fun s o => o.outline ∈ s.outlines i.operationSize) f.operands os
  segment_eq : ∀ m, .memory m ∈ i.operands → m.segment =
    OperandContext.segmentOverride { mode := i.mode, prefixes := i.prefixes }
  override_eq : ∀ r, i.prefixes.segment = some r → ∃ s, r = .segment s

/-- The form has the record's name if that is not one for some sizes only. -/
theorem Composed.form_mnemonic_eq {i : Instruction} {f : Form} {wide : Bool}
    (h : i.Composed f wide) (hm : i.mnemonic ∉ Mnemonic.derived) : f.mnemonic = i.mnemonic :=
  Mnemonic.eq_of_not_mem_derived h.mnemonic_eq hm

/-- Then the operands are as the form says: only CMPXCHG16B changes the size of its operand. -/
theorem Composed.forall₂_outlines {i : Instruction} {f : Form} {wide : Bool}
    (h : i.Composed f wide) (hm : i.mnemonic ∉ Mnemonic.derived) :
    List.Forall₂ (fun s o => o.outline ∈ s.outlines i.operationSize) f.operands i.operands := by
  obtain ⟨os, hos, hall⟩ := h.operands_eq
  have hne : i.mnemonic ≠ .CMPXCHG16B := fun heq => hm (by rw [heq]; decide)
  have heq : widenOperands i.mnemonic os = os := by
    unfold widenOperands
    split
    · rw [if_neg hne]
    · rfl
  rw [hos, heq]
  exact hall

theorem foldl_push {i : Instruction} {os : List Operand}
    (h : i.operands.length + os.length ≤ maxOperands) :
    os.foldl push i = { i with operands := i.operands ++ os } := by
  induction os generalizing i with
  | nil => simp
  | cons o rest ih =>
    rw [List.length_cons] at h
    have hpush : (i.operands ++ [o]).take maxOperands = i.operands ++ [o] :=
      List.take_of_length_le (by rw [List.length_append, List.length_singleton]; omega)
    rw [List.foldl_cons, push, hpush, ih (by simp; omega)]
    simp

end Instruction

theorem OpcodeMap.length_operands_le :
    ∀ f ∈ recordForms, f.operands.length ≤ Instruction.maxOperands := by
  decide +kernel

theorem length_widenOperands (m : Mnemonic) (os : List Operand) :
    (widenOperands m os).length = os.length := by
  unfold widenOperands
  split
  · split_ifs <;> rfl
  · rfl

/-- What holds of operands, and of memory whatever its size, holds of operands that are widened. -/
theorem forall_mem_widenOperands {P : Operand → Prop} {mn : Mnemonic} {os : List Operand}
    (hmem : ∀ m size, P (.memory m) → P (.memory { m with size })) (h : ∀ o ∈ os, P o) :
    ∀ o ∈ widenOperands mn os, P o := by
  unfold widenOperands
  split
  · split_ifs
    · obtain ⟨hfirst, hrest⟩ := List.forall_mem_cons.1 h
      exact List.forall_mem_cons.2 ⟨hmem _ _ hfirst, hrest⟩
    · exact h
  · exact h

theorem segment_eq_of_mem_widenOperands {mn : Mnemonic} {os : List Operand} {r : Option Register}
    (h : ∀ m, .memory m ∈ os → m.segment = r) {m : Memory}
    (hm : .memory m ∈ widenOperands mn os) : m.segment = r := by
  refine forall_mem_widenOperands (P := fun o => ∀ m, o = .memory m → m.segment = r)
    ?_ ?_ _ hm m rfl
  · rintro m size hm _ ⟨⟩
    exact hm m rfl
  · rintro _ ho m rfl
    exact h m ho

theorem OperandSpec.segment_eq_of_forall₂ {c : OperandContext} {specs : List OperandSpec}
    {os : List Operand} (h : List.Forall₂ (·.Describes c) specs os) (m : Memory)
    (hm : .memory m ∈ os) : m.segment = c.segmentOverride := by
  induction h with
  | nil => cases hm
  | cons hs _ ih =>
    rcases List.mem_cons.1 hm with heq | hm
    · exact hs.segment_eq m heq.symm
    · exact ih hm

theorem OperandContext.segmentOverride_congr {c c' : OperandContext} (hm : c.mode = c'.mode)
    (hs : c.prefixes.segment = c'.prefixes.segment) : c.segmentOverride = c'.segmentOverride := by
  unfold segmentOverride
  rw [hm, hs]

theorem Prefixes.segment_remaining (p : Prefixes) (f : Form) (s : Selector) (m : Mnemonic) :
    (p.remaining f s m).segment = p.segment := by
  unfold remaining
  split_ifs <;> rfl

/-- What is read makes a record that is an instance of a form. -/
theorem composed_of_fetchOperation {mode : Mode} {p : Prefixes}
    (hp : p.Sound mode) (opcode : Opcode) (address : UInt64) (bytes : List UInt8) :
    (fetchOperation mode p opcode).Ensures fun d =>
      ∃ f, (Instruction.ofDecoded address mode bytes (some d)).Composed f p.rex.w := by
  refine ensures_bind_of_forall fun modrm => ?_
  refine ensures_bind (fun f => f ∈ OpcodeMap.forms ∧ f.definedIn mode)
    (fun _ f hf => ⟨OpcodeMap.mem_forms_of_lookup hf, (Option.filter_eq_some_iff.1 hf).2⟩) ?_
  rintro found ⟨hmem, hdef⟩
  have hform := opcode.rename_mem_recordForms p hmem
  have hdef := opcode.definedIn_rename p hdef
  generalize opcode.rename p found = f at hform hdef
  refine ensures_bind _ (f.located_fetchAddressing _ modrm) fun a ha => ?_
  refine ensures_bind _ (ensures_fetchOperands ha f.operands) fun os hos => ensures_pure ?_
  generalize hc : OperandContext.ofForm mode p opcode f = c at hos
  generalize hm : (f.mnemonic.sized c.operationSize c.addressSize).widened p.rex.w = m
  have hlen : (widenOperands m os).length ≤ Instruction.maxOperands := by
    rw [length_widenOperands, ← hos.length_eq]
    exact OpcodeMap.length_operands_le f hform
  refine ⟨f, ?_⟩
  rw [Instruction.ofDecoded, Instruction.foldl_push (by simpa [Instruction.ofBytes] using hlen)]
  subst hc
  exact {
    mem_recordForms := hform
    definedIn := hdef
    size_mem := f.operationSize_mem_sizes hdef hp _
    size_of_force64 := f.operationSize_of_force64 p _
    size_ne_qword := f.operationSize_ne_qword p _
    mnemonic_eq := hm.symm
    operands_eq := ⟨os, rfl, hos.imp fun _ _ h => h.outline_mem⟩
    segment_eq := fun m hm =>
      (segment_eq_of_mem_widenOperands (OperandSpec.segment_eq_of_forall₂ hos) hm).trans
        (OperandContext.segmentOverride_congr rfl (p.segment_remaining f _ _).symm)
    override_eq := fun r hr => hp.segment_eq r ((p.segment_remaining f _ _).symm.trans hr) }

/-- **Every valid record is an instance of a form.** -/
theorem exists_composed {mode : Mode} {address : UInt64} {bytes : List UInt8}
    (h : (decode mode address bytes).isValid) :
    ∃ f wide, (decode mode address bytes).Composed f wide := by
  unfold decode at h ⊢
  dsimp only at h ⊢
  generalize Prefixes.run mode (window bytes) = run at h ⊢
  have hp := Prefixes.sound_ofRun mode run
  generalize Prefixes.ofRun mode run = p at h hp ⊢
  cases hd : fetchDecoded mode p ⟨window bytes, run.length⟩ with
  | mk d r =>
    rw [hd] at h
    cases d with
    | none => exact absurd rfl (Instruction.ofDecoded_ne_none h)
    | some d =>
      obtain ⟨f, hf⟩ := ensures_bind_of_forall
        (fun opcode => composed_of_fetchOperation hp opcode address
          ((window bytes).take (max 1 r.position))) _ d (congrArg Prod.fst hd)
      exact ⟨f, _, hf⟩

theorem Instruction.mode_foldl_push (os : List Operand) (i : Instruction) :
    (os.foldl push i).mode = i.mode := by
  induction os generalizing i with
  | nil => rfl
  | cons o rest ih => exact ih (i.push o)

/-- A record has the mode that it was decoded in. -/
theorem mode_decode (mode : Mode) (address : UInt64) (bytes : List UInt8) :
    (decode mode address bytes).mode = mode := by
  have hofDecoded : ∀ bytes d, (Instruction.ofDecoded address mode bytes d).mode = mode :=
    fun bytes d => by
      cases d with
      | none => rfl
      | some d => exact Instruction.mode_foldl_push d.operands _
  exact hofDecoded _ _

/-! ## String operations -/

/-- String operations have no operands of their own. -/
theorem OpcodeMap.string_form : ∀ f ∈ recordForms, f.mnemonic.isString → f.operands = [] := by
  decide +kernel

namespace Mnemonic

/-- The forms of string operations are string operations, whatever the size. -/
theorem isString_of_sized {m : Mnemonic} {size : DataSize} {a : AddressSize}
    (h : (m.sized size a).isString) : m.isString := by
  have hnames : ∀ x ∈ resizings, x.2.isString → x.1.isString := by decide
  rcases m.sized_eq_or_mem_resizings size a with hs | hs
  · rwa [hs] at h
  · exact hnames _ hs h

theorem isString_of_widened {m : Mnemonic} {w : Bool} (h : (m.widened w).isString) :
    m.isString := by
  have hnames : ∀ x ∈ wideNames, x.2.isString → x.1.isString := by decide
  rcases m.widened_eq_or w with hw | hw
  · rwa [hw] at h
  · exact hnames _ hw h

end Mnemonic

theorem Instruction.Composed.operands_eq_nil {i : Instruction} {f : Form} {wide : Bool}
    (h : i.Composed f wide) (hs : i.isString) : i.operands = [] := by
  rw [isString, Bool.or_eq_true] at hs
  rcases hs with hs | hs
  · rw [h.mnemonic_eq] at hs
    have hf := OpcodeMap.string_form f h.mem_recordForms
      (Mnemonic.isString_of_sized (Mnemonic.isString_of_widened hs))
    obtain ⟨os, hos, hall⟩ := h.operands_eq
    rw [hf] at hall
    cases hall
    exact hos
  · rw [Bool.and_eq_true] at hs
    exact List.isEmpty_iff.1 hs.2

/-! ## Calls and jumps -/

namespace OpcodeMap

/-- Near calls and jumps lead to a displacement, or to what an operand of the operation size holds.
In 64-bit mode they have 64 bits. -/
theorem near_form : ∀ f ∈ recordForms, f.mnemonic = .CALL ∨ f.mnemonic = .JMP →
    f.flags.force64 ∧ (f.operands = [.Jz] ∨ f.operands = [.Jb] ∨ f.operands = [.Ev]) := by
  decide +kernel

/-- Far calls and jumps lead to a pointer, which in 64-bit mode has to be in memory. -/
theorem far_form : ∀ f ∈ recordForms, f.mnemonic = .CALLF ∨ f.mnemonic = .JMPF →
    f.flags.invalid64 ∧ f.operands = [.Ap] ∨ f.operands = [.Mp] := by
  decide +kernel

end OpcodeMap

namespace Instruction.Composed

variable {i : Instruction} {f : Form} {wide : Bool}

theorem operationSize_mem (h : i.Composed f wide) : i.operationSize ∈ [.word, .dword, .qword] := by
  have hsizes : ∀ x ∈ f.sizes, x.1 ∈ [DataSize.word, .dword, .qword] := by
    unfold Form.sizes
    cases f.flags.invalid64 <;> cases f.flags.force64 || f.flags.default64 <;> decide
  exact hsizes _ h.size_mem

theorem eq_singleton (h : i.Composed f wide) (hm : i.mnemonic ∉ Mnemonic.derived) {s : OperandSpec}
    (hf : f.operands = [s]) : ∃ o, i.operands = [o] ∧ o.outline ∈ s.outlines i.operationSize := by
  have hall := h.forall₂_outlines hm
  rw [hf] at hall
  obtain ⟨o, os, ho, hos, heq⟩ := List.forall₂_cons_left_iff.1 hall
  cases hos
  exact ⟨o, heq, ho⟩

theorem near_operands (h : i.Composed f wide) (hm : i.mnemonic = .CALL ∨ i.mnemonic = .JMP) :
    (i.mode = .m64 → i.operationSize = .qword) ∧
      ((∃ r, i.operands = [.relative r]) ∨ (∃ r, i.operands = [.register r]) ∨
        ∃ m, i.operands = [.memory m] ∧ m.size = i.operationSize) := by
  have hne : i.mnemonic ∉ Mnemonic.derived := by rcases hm with hm | hm <;> rw [hm] <;> decide
  obtain ⟨hforce, hops⟩ := OpcodeMap.near_form f h.mem_recordForms (by rwa [h.form_mnemonic_eq hne])
  refine ⟨h.size_of_force64 hforce, ?_⟩
  rcases hops with hops | hops | hops
  · obtain ⟨o, ho, hmem⟩ := h.eq_singleton hne hops
    obtain ⟨r, rfl⟩ := Operand.eq_relative_of_outline (List.mem_singleton.1 hmem)
    exact Or.inl ⟨r, ho⟩
  · obtain ⟨o, ho, hmem⟩ := h.eq_singleton hne hops
    obtain ⟨r, rfl⟩ := Operand.eq_relative_of_outline (List.mem_singleton.1 hmem)
    exact Or.inl ⟨r, ho⟩
  · obtain ⟨o, ho, hmem⟩ := h.eq_singleton hne hops
    rcases List.mem_cons.1 hmem with heq | hmem
    · obtain ⟨m, rfl, hsize⟩ := Operand.eq_memory_of_outline heq
      exact Or.inr (Or.inr ⟨m, ho, hsize⟩)
    · obtain ⟨r, -, hr⟩ := List.mem_map.1 hmem
      obtain ⟨r', rfl, -⟩ := Operand.eq_register_of_outline hr.symm
      exact Or.inr (Or.inl ⟨r', ho⟩)

theorem far_operands (h : i.Composed f wide) (hm : i.mnemonic = .CALLF ∨ i.mnemonic = .JMPF) :
    (i.mode ≠ .m64 ∧ ∃ p, i.operands = [.far p]) ∨
      ∃ m, i.operands = [.memory m] ∧ m.size = OperandType.size .p i.operationSize false := by
  have hne : i.mnemonic ∉ Mnemonic.derived := by rcases hm with hm | hm <;> rw [hm] <;> decide
  rcases OpcodeMap.far_form f h.mem_recordForms (by rwa [h.form_mnemonic_eq hne]) with
    ⟨hinvalid, hops⟩ | hops
  · obtain ⟨o, ho, hmem⟩ := h.eq_singleton hne hops
    obtain ⟨p, rfl⟩ := Operand.eq_far_of_outline (List.mem_singleton.1 hmem)
    refine Or.inl ⟨fun hmode => ?_, p, ho⟩
    have hdef := h.definedIn
    simp [Form.definedIn, hmode, hinvalid] at hdef
  · obtain ⟨o, ho, hmem⟩ := h.eq_singleton hne hops
    obtain ⟨m, rfl, hsize⟩ := Operand.eq_memory_of_outline (List.mem_singleton.1 hmem)
    exact Or.inr ⟨m, ho, hsize⟩

end Instruction.Composed

end Disasm
