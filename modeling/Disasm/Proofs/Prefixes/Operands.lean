import Disasm.Proofs.Fields

/-!
# What operands see of the prefixes

Of the prefixes an operand depends on REX, on the segment override that is in force, and on the
sizes that the prefixes lead to. LOCK and repetition are not among them, nor is an override that
the mode has no use for.

* `OperandContext.Alike` — two contexts with the same of all these. Every operand is read alike in
  both (`Form.fetchFields_congr`).
* `Form.decoded` — what an instruction says, by its form and its operands.
* `exists_operands` — a valid record says what its form says of the operands that are read behind
  its opcode and ModRM.
-/

namespace Disasm

open Fetch

/-! ## Contexts -/

/-- Two contexts in which an operand means the same. -/
structure OperandContext.Alike (c c' : OperandContext) : Prop where
  mode_eq : c'.mode = c.mode
  rex_eq : c'.prefixes.rex = c.prefixes.rex
  segmentOverride_eq : c'.segmentOverride = c.segmentOverride
  operationSize_eq : c'.operationSize = c.operationSize
  addressSize_eq : c'.addressSize = c.addressSize
  opcode_eq : c'.opcode = c.opcode

section Alike

variable {c c' : OperandContext} (h : c.Alike c')

include h

theorem AddressForm.ofModRM_congr (m : ModRM) (s : Option SIB) :
    ofModRM c' m s = ofModRM c m s := by
  simp only [ofModRM, ofSIB, ofModRM32, OperandContext.addressRegister, h.mode_eq, h.rex_eq,
    h.addressSize_eq]

theorem AddressForm.toMemory_congr (f : AddressForm) (d : Int) :
    f.toMemory c' d = f.toMemory c d := by
  simp only [toMemory, h.segmentOverride_eq, h.addressSize_eq]

theorem fetchMemory_congr (m : ModRM) : fetchMemory c' m = fetchMemory c m := by
  have hsib : fetchSIB c' m = fetchSIB c m := by
    unfold fetchSIB OperandContext.hasSIB
    rw [h.addressSize_eq]
  simp only [fetchMemory, hsib, AddressForm.ofModRM_congr h, AddressForm.toMemory_congr h]

theorem Form.fetchAddressing_congr (f : Form) (m : Option ModRM) :
    f.fetchAddressing c' m = f.fetchAddressing c m := by
  cases m with
  | none => rfl
  | some m => simp only [fetchAddressing, Disasm.fetchAddressing, fetchMemory_congr h]

theorem OperandContext.named_congr (a : Addressing) (s : OperandSpec) :
    c'.named a s = c.named a s := by
  simp only [named, general, Addressing.registerOrMemory, Addressing.memoryOperand, h.rex_eq,
    h.operationSize_eq, h.opcode_eq]

theorem fetchOperand_congr (a : Addressing) (s : OperandSpec) :
    fetchOperand c' a s = fetchOperand c a s := by
  unfold fetchOperand
  cases s.method with
  | I => cases s.type <;> simp only [fetchImmediate, h.operationSize_eq]
  | J => simp only [fetchRelative, h.operationSize_eq]
  | O => simp only [fetchOffset, h.segmentOverride_eq, h.addressSize_eq, h.operationSize_eq]
  | A => simp only [fetchFar, h.operationSize_eq]
  | _ => simp only [OperandContext.named_congr h]

theorem fetchOperands_congr (a : Addressing) (specs : List OperandSpec) :
    fetchOperands c' a specs = fetchOperands c a specs := by
  induction specs with
  | nil => rfl
  | cons s rest ih => simp only [fetchOperands, fetchOperand_congr h, ih]

end Alike

/-! ## Forms -/

namespace Form

/-- Reads what ModRM describes and then the operands. -/
def fetchFields (f : Form) (c : OperandContext) (m : Option ModRM) : Fetch (List Operand) :=
  f.fetchAddressing c m >>= fun a => fetchOperands c a f.operands

theorem fetchFields_congr {c c' : OperandContext} (h : c.Alike c') (f : Form) (m : Option ModRM) :
    f.fetchFields c' m = f.fetchFields c m := by
  simp only [fetchFields, f.fetchAddressing_congr h, fetchOperands_congr h]

theorem built_fetchFields (f : Form) (c : OperandContext) (m : Option ModRM) :
    (f.fetchFields c m).Built :=
  (f.built_fetchAddressing c m).bind fun a => built_fetchOperands c a f.operands

/-- What an instruction of a form says, once its operands are known. -/
def decoded (f : Form) (mode : Mode) (p : Prefixes) (o : Opcode) (operands : List Operand) :
    Decoded :=
  let c := OperandContext.ofForm mode p o f
  let mnemonic := (f.mnemonic.sized c.operationSize c.addressSize).widened p.rex.w
  { mnemonic
    prefixes := p.remaining f (o.selector p) mnemonic
    operationSize := c.operationSize
    addressSize := c.addressSize
    operands := widenOperands mnemonic operands }

end Form

/-- The record of bytes that say this. -/
def Decoded.record (d : Decoded) (address : UInt64) (mode : Mode) (bytes : List UInt8) :
    Instruction where
  address
  mode
  bytes
  mnemonic := d.mnemonic
  prefixes := d.prefixes
  operationSize := d.operationSize
  addressSize := d.addressSize
  operands := d.operands

/-! ## Records -/

namespace Fetch

variable {α β γ : Type} {w : List UInt8} {p n : Nat}

/-- Where a sequence succeeds, its second part does so behind what the first consumed. -/
theorem Reads.of_bind {m : Fetch α} {f : α → Fetch β} {a : α} {b : β} (hm : m.Reads w p n a)
    (hp : p ≤ w.length) (h : ((m >>= f) ⟨w, p⟩).1 = some b) :
    p + n ≤ w.length ∧ (f a ⟨w, p + n⟩).1 = some b := by
  rcases hm hp with ⟨hn, ha⟩ | ⟨-, hnone⟩
  · rw [bind_apply, ha] at h
    exact ⟨hn, h⟩
  · rw [bind_eq_none hnone] at h
    cases h

theorem exists_of_bind_bind {m : Fetch α} {f : α → Fetch β} {g : β → γ} {r : Reader} {d : γ}
    (h : ((m >>= fun a => f a >>= fun b => pure (g b)) r).1 = some d) :
    ∃ b, ((m >>= f) r).1 = some b ∧ g b = d := by
  simp only [bind_apply] at h ⊢
  cases hm : m r with
  | mk v s =>
    rw [hm] at h
    cases v with
    | none => cases h
    | some a =>
      dsimp only at h ⊢
      cases hf : f a s with
      | mk v' s' =>
        rw [hf] at h
        cases v' with
        | none => cases h
        | some b => exact ⟨b, rfl, Option.some.inj h⟩

end Fetch

namespace Encoding

variable {mode : Mode} {address : UInt64} {bytes : List UInt8} {f : Form}

/-- Where the fields behind an opcode and its ModRM start. -/
def fieldsStart (mode : Mode) (bytes : List UInt8) : Nat :=
  prefixLength mode bytes + opcodeLength mode bytes + modrmLength mode bytes

theorem recordForm?_eq (hf : form? mode bytes = some f) :
    recordForm? mode bytes = some ((opcode mode bytes).rename (prefixes mode bytes) f) := by
  rw [recordForm?, hf, Option.map_some]

/-- A valid record says what its form says of the operands behind the opcode and ModRM. -/
theorem exists_operands (hf : recordForm? mode bytes = some f)
    (h : (decode mode address bytes).isValid) :
    ∃ operands,
      (f.fetchFields (.ofForm mode (prefixes mode bytes) (opcode mode bytes) f) (modrm? mode bytes)
        ⟨window bytes, fieldsStart mode bytes⟩).1 = some operands ∧
      decode mode address bytes =
        (f.decoded mode (prefixes mode bytes) (opcode mode bytes) operands).record address mode
          (decode mode address bytes).bytes := by
  obtain ⟨d, _, _, _, hd, -, hrecord⟩ := exists_describes h
  have hw := window_isPrefix bytes
  obtain ⟨hopcode, hd⟩ := (Opcode.reads_fetch mode hw).of_bind (prefixLength_le mode bytes) hd
  obtain ⟨-, hd⟩ := (reads_fetchModRM mode hw).of_bind hopcode hd
  obtain ⟨found, hfound, rfl⟩ := Option.map_eq_some_iff.1 hf
  change ((ofOption (form? mode bytes) >>= _) _).1 = some d at hd
  rw [hfound] at hd
  obtain ⟨operands, hoperands, rfl⟩ := exists_of_bind_bind hd
  refine ⟨operands, hoperands, ?_⟩
  conv_lhs => rw [hrecord]
  rw [hrecord]
  rfl

end Encoding

end Disasm
