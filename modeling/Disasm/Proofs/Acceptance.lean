import Disasm.Disassembly
import Disasm.Proofs.Forms
import Disasm.Proofs.SelfDelimiting
import Disasm.Proofs.Spans

/-!
# The decoder accepts the grammar

**Theorem (`decodeAt_isValid_iff`).** A record is valid if and only if the opcode has a form, the
form admits the ModRM byte, and the encoding lies within the bytes that are left and within
fifteen; and a valid record is as long as the encoding.

The parts of an instruction span the lengths that `Encoding` gives them, and the whole spans their
sum (`spans_fetchDecoded`). The parts have to fit together: what the opcode says about ModRM before
it is read is what the form found with it needs (`Forms`), so that no read starts at the wrong
place.
-/

namespace Disasm

open Fetch

variable {w bytes : List UInt8} {p : Nat}

/-! ## Operands -/

namespace OperandSpec

theorem admits_asRegister {s : OperandSpec} (h : s.method.restrictsMod = false) (m : ModRM) :
    s.Admits m.asRegister ↔ s.Admits m := by
  unfold Admits
  cases hs : s.method <;> first | exact Iff.rfl | (rw [hs] at h; cases h)

end OperandSpec

theorem ModRM.isRegister_eq (m : ModRM) : m.isRegister = decide (m.mod.val = 3) :=
  decide_eq_decide.2 Fin.ext_iff

theorem Register.isSome_segmentOfNumber (n : Fin 8) :
    (Register.segmentOfNumber n).isSome ↔ n.val < 6 := by
  revert n
  decide

namespace OperandContext

/-- The operands that need no bytes of their own exist where ModRM names what they need. -/
theorem isSome_named (c : OperandContext) {a : Addressing} {s : OperandSpec} {m : ModRM}
    (ha : a.modrm = some m) (hs : s.method.usesModRM) (hr : s.method = .R → m.mod.val = 3) :
    (c.named a s).isSome ↔ s.Admits m := by
  unfold named OperandSpec.Admits
  cases hm : s.method with
  | E | Q | W =>
    by_cases hmod : m.mod.val = 3 <;>
      simp [Addressing.registerOrMemory, Addressing.onlyRegister, Addressing.memoryOperand, ha,
        ModRM.isRegister_eq, hmod]
  | G | C | D | P | V => simp [Addressing.registerOperand, ha]
  | M =>
    by_cases hmod : m.mod.val = 3 <;> simp [Addressing.memoryOperand, ha, ModRM.isRegister_eq, hmod]
  | R => simp [Addressing.onlyRegister, ha, ModRM.isRegister_eq, hr hm]
  | N | U | X87 =>
    by_cases hmod : m.mod.val = 3 <;> simp [Addressing.onlyRegister, ha, ModRM.isRegister_eq, hmod]
  | S => simpa [ha] using Register.isSome_segmentOfNumber m.reg
  | _ =>
    rw [hm] at hs
    cases hs

end OperandContext

theorem spans_fetchOperand (c : OperandContext) {a : Addressing} {s : OperandSpec} {m : ModRM}
    (hs : s.wellFormed)
    (ha : s.method.usesModRM → a.modrm = some m ∧ (s.method = .R → m.mod.val = 3)) :
    (fetchOperand c a s).Spans w p (s.Admits m) (s.fieldLength c.operationSize c.addressSize) := by
  obtain ⟨method, type, number⟩ := s
  cases method with
  | none => cases hs
  | I =>
    simp only [OperandSpec.wellFormed, ne_eq, not_true_eq_false, decide_false, Bool.false_or,
      Bool.and_eq_true] at hs
    exact spans_fetchImmediate c hs.2 number
  | J => exact spans_fetchRelative c type number
  | O => exact spans_fetchOffset c type
  | A => exact spans_fetchFar c
  | fixed | fixedSegment | fixedX87 | fixedXMM | one | opcode =>
    exact (spans_ofOption _).congr (iff_of_true rfl trivial) rfl
  | _ => exact (spans_ofOption _).congr (c.isSome_named (ha rfl).1 rfl (ha rfl).2) rfl

theorem spans_fetchOperands (c : OperandContext) {a : Addressing} {m : ModRM}
    {specs : List OperandSpec} (h : ∀ s ∈ specs, s.wellFormed ∧
      (s.method.usesModRM → a.modrm = some m ∧ (s.method = .R → m.mod.val = 3))) :
    (fetchOperands c a specs).Spans w p (∀ s ∈ specs, s.Admits m)
      (specs.map (·.fieldLength c.operationSize c.addressSize)).sum := by
  induction specs generalizing p with
  | nil => exact (spans_pure []).congr (by simp) rfl
  | cons s rest ih =>
    obtain ⟨hs, ha⟩ := h s List.mem_cons_self
    refine ((spans_fetchOperand c hs ha).bind fun _ _ =>
      (ih fun s hs => h s (List.mem_cons_of_mem _ hs)).map _).congr ?_ ?_
    · rw [List.forall_mem_cons]
    · rw [List.map_cons, List.sum_cons]

/-! ## Addresses -/

theorem reads_fetchSIB (c : OperandContext) (m : ModRM) (hw : w <+: bytes) :
    (fetchSIB c m).Reads w p (if c.hasSIB m then 1 else 0)
      (if c.hasSIB m then some (.ofByte (Encoding.byteAt bytes p)) else none) := by
  unfold fetchSIB
  split_ifs
  · exact (reads_byte hw).map _
  · exact reads_pure none

theorem spans_fetchDisplacement (width : Nat) : (fetchDisplacement width).Spans w p True width := by
  unfold fetchDisplacement
  split_ifs with h
  · exact h ▸ spans_pure 0
  · exact spans_signed width

theorem displacementWidth_ofModRM (c : OperandContext) {m : ModRM} (hm : m.mod.val ≠ 3)
    (sib : SIB) :
    (if c.hasSIB m then 1 else 0) +
        (AddressForm.ofModRM c m (if c.hasSIB m then some sib else none)).displacementWidth =
      c.addressSize.memoryLength m sib := by
  have hmod : ∀ k : Fin 4, k.val ≠ 3 → k.val = 0 ∨ k.val = 1 ∨ k.val = 2 := by decide
  unfold AddressForm.ofModRM OperandContext.hasSIB AddressSize.memoryLength
  rw [ModRM.isRegister_eq]
  cases c.addressSize with
  | a16 =>
    rcases hmod m.mod hm with h | h | h
    · by_cases hrm : m.rm.val = 6 <;> simp [AddressForm.ofModRM16, h, hrm]
    · simp [AddressForm.ofModRM16, h]
    · simp [AddressForm.ofModRM16, h]
  | a32 | a64 =>
    by_cases hrm : m.rm.val = 4
    · rcases hmod m.mod hm with h | h | h
      · by_cases hb : sib.base.val = 5 <;>
          simp [AddressForm.ofSIB, AddressForm.width32, h, hrm, hb]
      · simp [AddressForm.ofSIB, AddressForm.width32, h, hrm]
      · simp [AddressForm.ofSIB, AddressForm.width32, h, hrm]
    · rcases hmod m.mod hm with h | h | h
      · by_cases hb : m.rm.val = 5 <;>
          simp [AddressForm.ofModRM32, AddressForm.width32, h, hrm, hb, apply_ite]
      · simp [AddressForm.ofModRM32, AddressForm.width32, h, hrm]
      · simp [AddressForm.ofModRM32, AddressForm.width32, h, hrm]

theorem spans_fetchMemory (c : OperandContext) {m : ModRM} (hm : m.mod.val ≠ 3) (hw : w <+: bytes) :
    (fetchMemory c m).Spans w p True
      (c.addressSize.memoryLength m (.ofByte (Encoding.byteAt bytes p))) :=
  ((reads_fetchSIB c m hw).spans_bind ((spans_fetchDisplacement _).map _)).congr Iff.rfl
    (displacementWidth_ofModRM c hm _)

theorem spans_fetchAddressing (c : OperandContext) (m : ModRM) (hw : w <+: bytes) :
    (fetchAddressing c m).Spans w p True
      (if m.mod.val ≠ 3 then
        c.addressSize.memoryLength m (.ofByte (Encoding.byteAt bytes p)) else 0) := by
  unfold fetchAddressing
  by_cases hm : m.mod.val = 3
  · have hr : m.isRegister := m.isRegister_eq.trans (decide_eq_true hm)
    rw [if_pos hr, if_neg (not_not_intro hm)]
    exact spans_pure _
  · have hr : ¬ m.isRegister := fun h => hm (of_decide_eq_true (m.isRegister_eq.symm.trans h))
    rw [if_neg hr, if_pos hm]
    exact (spans_fetchMemory c hm hw).map _

theorem ensures_fetchAddressing (c : OperandContext) (m : ModRM) :
    (fetchAddressing c m).Ensures fun a => a.modrm = some m := by
  unfold fetchAddressing
  split_ifs
  · exact ensures_pure rfl
  · exact ensures_bind_of_forall fun _ => ensures_pure rfl

namespace Form

/-- What ModRM says to the operands of a form: its own fields, or those with ModRM.rm as a
register. -/
def understood (f : Form) (m : ModRM) : ModRM := if f.registerOnly then m.asRegister else m

theorem spans_fetchAddressing (f : Form) (c : OperandContext) (m : ModRM) (hw : w <+: bytes) :
    (f.fetchAddressing c (some m)).Spans w p True
      (if m.mod.val ≠ 3 ∧ f.registerOnly = false then
        c.addressSize.memoryLength m (.ofByte (Encoding.byteAt bytes p)) else 0) := by
  refine (Disasm.spans_fetchAddressing c (f.understood m) hw).congr Iff.rfl ?_
  unfold understood
  cases f.registerOnly <;> simp [ModRM.asRegister]

theorem ensures_fetchAddressing (f : Form) (c : OperandContext) (m : ModRM) :
    (f.fetchAddressing c (some m)).Ensures fun a => a.modrm = some (f.understood m) :=
  Disasm.ensures_fetchAddressing c (f.understood m)

theorem understood_mod {f : Form} {s : OperandSpec} (hs : s ∈ f.operands) (hr : s.method = .R)
    (m : ModRM) : (f.understood m).mod.val = 3 := by
  have : f.registerOnly := List.any_eq_true.2 ⟨s, hs, decide_eq_true hr⟩
  rw [understood, if_pos this]
  rfl

/-- The operands admit a ModRM byte as it is or as it is understood. -/
theorem admits_understood {f : Form} (hf : f.wellFormed) (m : ModRM) {s : OperandSpec}
    (hs : s ∈ f.operands) : s.Admits (f.understood m) ↔ s.Admits m := by
  unfold understood
  split_ifs with hr
  · exact OperandSpec.admits_asRegister (restrictsMod_of_registerOnly hf hr hs) m
  · exact Iff.rfl

theorem spans_fetchOperands {f : Form} (hf : f.wellFormed) (c : OperandContext) {a : Addressing}
    {m : ModRM} (ha : f.usesModRM → a.modrm = some (f.understood m)) :
    (fetchOperands c a f.operands).Spans w p (f.Admits m)
      (f.operands.map (·.fieldLength c.operationSize c.addressSize)).sum := by
  refine (Disasm.spans_fetchOperands c fun s hs => ⟨wellFormed_of_mem hf hs, fun hu =>
    ⟨ha (List.any_eq_true.2 ⟨s, hs, hu⟩), fun hr => understood_mod hs hr m⟩⟩).congr ?_ rfl
  exact forall₂_congr fun s hs => admits_understood hf m hs

end Form

/-! ## The opcode -/

theorem OpcodeMap.isX87_iff (b : UInt8) : isX87 b ↔ 0xd8 ≤ b ∧ b ≤ 0xdf := by
  rw [isX87, decide_eq_true_eq, UInt8.le_iff_toNat_le, UInt8.le_iff_toNat_le]
  show b.toNat / 8 = 27 ↔ 216 ≤ b.toNat ∧ b.toNat ≤ 223
  omega

namespace Opcode

theorem reads_fetchEscaped (hw : w <+: bytes) :
    fetchEscaped.Reads w p
      (1 + if Encoding.byteAt bytes p = 0x38 ∨ Encoding.byteAt bytes p = 0x3a then 1 else 0)
      (if Encoding.byteAt bytes p = 0x38 then ⟨.threeByte38, Encoding.byteAt bytes (p + 1)⟩
        else if Encoding.byteAt bytes p = 0x3a then ⟨.threeByte3A, Encoding.byteAt bytes (p + 1)⟩
        else ⟨.twoByte, Encoding.byteAt bytes p⟩) := by
  refine (reads_byte hw).bind ?_
  by_cases h38 : Encoding.byteAt bytes p = 0x38
  · rw [if_pos h38, if_pos (Or.inl h38), if_pos h38]
    exact (reads_byte hw).map _
  · rw [if_neg h38, if_neg h38]
    by_cases h3a : Encoding.byteAt bytes p = 0x3a
    · rw [if_pos h3a, if_pos (Or.inr h3a), if_pos h3a]
      exact (reads_byte hw).map _
    · rw [if_neg h3a, if_neg (not_or_intro h38 h3a), if_neg h3a]
      exact reads_pure _

theorem reads_fetch (mode : Mode) (hw : w <+: bytes) :
    fetch.Reads w (Encoding.prefixLength mode bytes) (Encoding.opcodeLength mode bytes)
      (Encoding.opcode mode bytes) := by
  have hlen : Encoding.opcodeLength mode bytes =
      1 + if Encoding.firstByte mode bytes = 0x0f then
        1 + if Encoding.secondByte mode bytes = 0x38 ∨ Encoding.secondByte mode bytes = 0x3a then 1
          else 0
      else 0 := by
    unfold Encoding.opcodeLength
    split_ifs <;> first | rfl | contradiction
  rw [hlen, Encoding.opcode]
  refine (reads_byte hw).bind ?_
  by_cases h : Encoding.firstByte mode bytes = 0x0f
  · have hb : Encoding.byteAt bytes (Encoding.prefixLength mode bytes) = 0x0f := h
    rw [if_pos hb, if_pos h, if_neg (not_not_intro h)]
    exact reads_fetchEscaped hw
  · have hb : Encoding.byteAt bytes (Encoding.prefixLength mode bytes) ≠ 0x0f := h
    rw [if_neg hb, if_neg h, if_pos h]
    simp only [← OpcodeMap.isX87_iff]
    exact reads_pure _

theorem reads_fetchModRM (o : Opcode) (s : Selector) (hw : w <+: bytes) :
    (o.fetchModRM s).Reads w p (if o.hasModRM s then 1 else 0)
      (if o.hasModRM s then some (.ofByte (Encoding.byteAt bytes p)) else none) := by
  unfold fetchModRM
  split_ifs
  · exact (reads_byte hw).map _
  · exact reads_pure none

/-- A form under another name is the same form or has no operands, like the exchange that it
stands for. -/
theorem rename_eq_or (o : Opcode) (p : Prefixes) (f : Form) :
    o.rename p f = f ∨ o = ⟨.oneByte, 0x90⟩ ∧ (o.rename p f).operands = [] := by
  unfold rename
  by_cases h : o.escape = .oneByte ∧ o.byte = 0x90 ∧ p.rex.b = false
  · rw [if_pos h]
    exact Or.inr ⟨by rw [← h.1, ← h.2.1], rfl⟩
  · exact Or.inl (if_neg h)

theorem wellFormed_rename {f : Form} (h : f.wellFormed) (o : Opcode) (p : Prefixes) :
    (o.rename p f).wellFormed := by
  unfold rename
  split_ifs
  · rfl
  · rfl
  · exact h

end Opcode

/-! ## The instruction -/

theorem Form.spans_fetchParts {g : Form} (hg : g.wellFormed) (c : OperandContext)
    (m : Option ModRM) (hu : g.usesModRM → m.isSome) (hw : w <+: bytes)
    (k : List Operand → Decoded) :
    (do
      let a ← g.fetchAddressing c m
      let operands ← fetchOperands c a g.operands
      return k operands : Fetch Decoded).Spans w p (g.Admits (m.getD default))
      ((if m.isSome ∧ (m.getD default).mod.val ≠ 3 ∧ g.registerOnly = false then
          c.addressSize.memoryLength (m.getD default) (.ofByte (Encoding.byteAt bytes p)) else 0) +
        (g.operands.map (·.fieldLength c.operationSize c.addressSize)).sum) := by
  cases m with
  | none =>
    refine ((spans_pure ({} : Addressing)).bind fun a _ =>
      (spans_fetchOperands hg c fun h => nomatch hu h).map k).congr (and_iff_right trivial) ?_
    rw [if_neg fun h => nomatch h.1]
  | some m =>
    refine ((g.spans_fetchAddressing c m hw).bind fun a ha =>
      (spans_fetchOperands hg c fun _ => g.ensures_fetchAddressing c m _ a ha).map k).congr
        (and_iff_right trivial) ?_
    simp

namespace Encoding

variable (mode : Mode)

theorem wellFormed_of_form? {f : Form} (hf : form? mode bytes = some f) : f.wellFormed :=
  OpcodeMap.wellFormed_of_lookup hf

theorem hasModRM_of_form? {f : Form} (hf : form? mode bytes = some f) (hu : f.usesModRM) :
    hasModRM mode bytes :=
  OpcodeMap.hasModRM_of_lookup hf hu

/-- The exchange that has another name if it does nothing: it names its registers itself. -/
theorem form?_xchg {f : Form} (hf : form? mode bytes = some f)
    (ho : opcode mode bytes = ⟨.oneByte, 0x90⟩) :
    hasModRM mode bytes = false ∧ f.operands = [.Zv, .rAX] := by
  unfold form? at hf
  unfold hasModRM
  rw [ho] at hf ⊢
  have hleaf := OpcodeMap.resolve_of_lookup hf
  cases hleaf
  exact ⟨rfl, rfl⟩

theorem isSome_modrm? : (modrm? mode bytes).isSome = hasModRM mode bytes := by
  unfold modrm?
  cases hasModRM mode bytes <;> rfl

theorem reads_fetchModRM (hw : w <+: bytes) :
    ((opcode mode bytes).fetchModRM (selector mode bytes)).Reads w
      (prefixLength mode bytes + opcodeLength mode bytes) (modrmLength mode bytes)
      (modrm? mode bytes) := by
  rw [modrm?, ← modrm_ofByte]
  exact (opcode mode bytes).reads_fetchModRM (selector mode bytes) hw

/-- What a form's new name leaves as it was: whether it needs ModRM and admits it, and the lengths
of its parts. -/
theorem rename_parts {f : Form} (hf : form? mode bytes = some f) (p : Prefixes) :
    let g := (opcode mode bytes).rename p f
    (g.usesModRM → hasModRM mode bytes) ∧
      (g.Admits (modrm mode bytes) ↔ f.Admits (modrm mode bytes)) ∧
      addressingLength mode bytes g = addressingLength mode bytes f ∧
      fieldsLength mode bytes g = fieldsLength mode bytes f := by
  intro g
  rcases (opcode mode bytes).rename_eq_or p f with hg | ⟨ho, hg⟩
  · have hgf : g = f := hg
    rw [hgf]
    exact ⟨hasModRM_of_form? mode hf, Iff.rfl, rfl, rfl⟩
  · have hg : g.operands = [] := hg
    obtain ⟨hm, hops⟩ := form?_xchg mode hf ho
    refine ⟨fun hu => ?_, ?_, ?_, ?_⟩
    · rw [Form.usesModRM, hg] at hu
      exact nomatch hu
    · simp [Form.Admits, hg, hops, OperandSpec.Admits, OperandSpec.Zv, OperandSpec.rAX]
    · simp [addressingLength, hm]
    · simp [fieldsLength, hg, hops, OperandSpec.fieldLength, OperandSpec.Zv, OperandSpec.rAX]

theorem spans_fetchOperation {f : Form} (hf : form? mode bytes = some f) (hw : w <+: bytes) :
    (fetchOperation mode (prefixes mode bytes) (opcode mode bytes)).Spans w
      (prefixLength mode bytes + opcodeLength mode bytes) (f.Admits (modrm mode bytes))
      (modrmLength mode bytes + (addressingLength mode bytes f + fieldsLength mode bytes f)) := by
  obtain ⟨hu, hadmits, haddr, hfields⟩ := rename_parts mode hf (prefixes mode bytes)
  have hg := Opcode.wellFormed_rename (wellFormed_of_form? mode hf) (opcode mode bytes)
    (prefixes mode bytes)
  refine (reads_fetchModRM mode hw).spans_bind ?_
  show (ofOption (form? mode bytes) >>= _).Spans w _ _ _
  rw [hf]
  refine (Form.spans_fetchParts hg _ _ (fun h => (isSome_modrm? mode).trans (hu h)) hw _).congr
    hadmits ?_
  rw [← haddr, ← hfields, isSome_modrm?, addressingLength, fieldsLength, operationSize_ofForm,
    addressSize_ofForm]
  by_cases h : hasModRM mode bytes
  · have hone : modrmLength mode bytes = 1 := if_pos h
    rw [hone, sib, ← sib_ofByte]
    rfl
  · rw [if_neg fun hc => h hc.1, if_neg fun hc => h hc.1]

/-- Reading after the prefixes, where the opcode has a form. -/
theorem spans_fetchDecoded {f : Form} (hf : form? mode bytes = some f) (hw : w <+: bytes) :
    (fetchDecoded mode (prefixes mode bytes)).Spans w (prefixLength mode bytes)
      (f.Admits (modrm mode bytes))
      (opcodeLength mode bytes + (modrmLength mode bytes +
        (addressingLength mode bytes f + fieldsLength mode bytes f))) :=
  (Opcode.reads_fetch mode hw).spans_bind (spans_fetchOperation mode hf hw)

/-- Reading after the prefixes, where the opcode has no form. -/
theorem spans_fetchDecoded_of_none (hf : form? mode bytes = none) (hw : w <+: bytes) :
    (fetchDecoded mode (prefixes mode bytes)).Spans w (prefixLength mode bytes) False
      (opcodeLength mode bytes + (modrmLength mode bytes + 0)) := by
  refine (Opcode.reads_fetch mode hw).spans_bind ((reads_fetchModRM mode hw).spans_bind ?_)
  show (ofOption (form? mode bytes) >>= _).Spans w _ _ _
  rw [hf]
  exact spans_fail

end Encoding

/-- Whatever is read has a mnemonic. -/
theorem mnemonic_ne_invalid_of_fetchDecoded (mode : Mode) (p : Prefixes) :
    (fetchDecoded mode p).Ensures fun d => d.mnemonic ≠ .INVALID := by
  refine ensures_bind_of_forall fun o => ?_
  refine ensures_bind_of_forall fun m => ?_
  refine ensures_bind (·.wellFormed) ?_ ?_
  · intro _ f hf
    exact OpcodeMap.wellFormed_of_lookup hf
  intro f hf
  refine ensures_bind_of_forall fun a => ?_
  refine ensures_bind_of_forall fun os => ?_
  refine ensures_pure ?_
  have hm := Form.mnemonic_ne_invalid (Opcode.wellFormed_rename hf o p)
  exact Mnemonic.widened_ne_invalid (Mnemonic.sized_ne_invalid hm _ _) _

/-! ## The record -/

namespace Instruction

theorem mnemonic_foldl_push (operands : List Operand) (i : Instruction) :
    (operands.foldl push i).mnemonic = i.mnemonic := by
  induction operands generalizing i with
  | nil => rfl
  | cons o rest ih => exact ih (i.push o)

theorem isValid_ofDecoded {address : UInt64} {mode : Mode} {bytes : List UInt8} {d : Decoded}
    (h : d.mnemonic ≠ .INVALID) : (ofDecoded address mode bytes (some d)).isValid := by
  rw [isValid, ofDecoded, mnemonic_foldl_push]
  exact decide_eq_true h

end Instruction

open Encoding

theorem window_isPrefix (bytes : List UInt8) : window bytes <+: bytes := List.take_prefix _ _

theorem run_window (mode : Mode) (bytes : List UInt8) :
    Prefixes.run mode (window bytes) = Prefixes.run mode bytes := by
  unfold Prefixes.run window
  rw [List.take_take]
  rfl

theorem decode_eq (mode : Mode) (address : UInt64) (bytes : List UInt8) :
    decode mode address bytes =
      let (d, r) := fetchDecoded mode (prefixes mode bytes) ⟨window bytes, prefixLength mode bytes⟩
      Instruction.ofDecoded address mode ((window bytes).take (max 1 r.position)) d := by
  unfold decode
  dsimp only
  rw [run_window]
  rfl

theorem prefixLength_le (mode : Mode) (bytes : List UInt8) :
    prefixLength mode bytes ≤ (window bytes).length := by
  have hrun : prefixLength mode bytes = (Prefixes.run mode (window bytes)).length := by
    rw [run_window]
    rfl
  rw [hrun]
  exact Prefixes.length_run_le mode (window bytes)

theorem length_pos (mode : Mode) (bytes : List UInt8) (f : Form) :
    1 ≤ Encoding.length mode bytes f := by
  have hop : 1 ≤ opcodeLength mode bytes := by
    unfold opcodeLength
    split_ifs <;> decide
  unfold Encoding.length
  omega

theorem isValid_decode_of_none {mode : Mode} {address : UInt64}
    (h : (fetchDecoded mode (prefixes mode bytes)
      ⟨window bytes, prefixLength mode bytes⟩).1 = none) :
    (decode mode address bytes).isValid = false := by
  rw [decode_eq]
  cases hv : fetchDecoded mode (prefixes mode bytes)
    ⟨window bytes, prefixLength mode bytes⟩ with
  | mk d r =>
    rw [hv] at h
    cases h
    rfl

/-- A record is an instruction of a form, and as long as its encoding, or it is not valid. -/
theorem decode_outcome {f : Form} (mode : Mode) (address : UInt64)
    (hf : form? mode bytes = some f) :
    (f.Admits (modrm mode bytes) ∧ Encoding.length mode bytes f ≤ (window bytes).length ∧
        (decode mode address bytes).isValid ∧
        (decode mode address bytes).length = Encoding.length mode bytes f) ∨
      (¬ (f.Admits (modrm mode bytes) ∧ Encoding.length mode bytes f ≤ (window bytes).length) ∧
        (decode mode address bytes).isValid = false) := by
  have hlen : prefixLength mode bytes + (opcodeLength mode bytes + (modrmLength mode bytes +
      (addressingLength mode bytes f + fieldsLength mode bytes f))) =
        Encoding.length mode bytes f := by
    unfold Encoding.length
    omega
  have hspans := spans_fetchDecoded mode hf (window_isPrefix bytes) (prefixLength_le mode bytes)
  rw [hlen] at hspans
  rcases hspans with ⟨hadmits, hle, d, hd⟩ | ⟨hno, hnone⟩
  · have hdec : decode mode address bytes = Instruction.ofDecoded address mode
        ((window bytes).take (Encoding.length mode bytes f)) (some d) := by
      rw [decode_eq, hd]
      dsimp only
      rw [Nat.max_eq_right (length_pos mode bytes f)]
    refine Or.inl ⟨hadmits, hle, ?_, ?_⟩
    · rw [hdec]
      exact Instruction.isValid_ofDecoded
        (mnemonic_ne_invalid_of_fetchDecoded mode _ _ d (congrArg Prod.fst hd))
    · have hmax : Encoding.length mode bytes f ≤ Instruction.maxLength :=
        hle.trans (length_window_le bytes)
      rw [hdec, Instruction.length, Instruction.bytes_ofDecoded, List.take_take,
        Nat.min_eq_right hmax, List.length_take_of_le hle]
  · exact Or.inr ⟨hno, isValid_decode_of_none hnone⟩

/-- A valid record is an instruction of the form, and as long as its encoding. -/
theorem admits_of_isValid {f : Form} {mode : Mode} {address : UInt64}
    (hf : form? mode bytes = some f) (h : (decode mode address bytes).isValid) :
    f.Admits (modrm mode bytes) ∧ Encoding.length mode bytes f ≤ (window bytes).length ∧
      (decode mode address bytes).length = Encoding.length mode bytes f := by
  rcases decode_outcome mode address hf with ⟨hadmits, hle, -, hlength⟩ | ⟨-, hinvalid⟩
  · exact ⟨hadmits, hle, hlength⟩
  · rw [hinvalid] at h
    cases h

end Disasm
