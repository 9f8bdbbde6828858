import Disasm.Decode
import Mathlib

/-!
# Reading depends on the bytes consumed

* `Fetch.Local` — a computation that moves forward within its window and has no other outcome in
  another window with the same bytes up to where it came. After a success the new window may go on
  in any way. After a failure it has to end there, because more bytes may be all that was missing.
* `Fetch.Shifts` — a computation that does the same one byte further on, if one more byte stands
  before all others.
* `Fetch.Advances` — a computation that consumes something wherever a byte is left, and does not
  succeed where none is.
* `Fetch.Built` — a computation that is put together from fields. What holds of fields and of
  sequences holds of it.

Reading an instruction is built from fields (`built_fetchDecoded`), and so it is local because each
of its fields is.
-/

namespace Disasm

/-- A reader with one more byte before those consumed. -/
def Reader.behind (x : UInt8) (r : Reader) : Reader := ⟨x :: r.window, r.position + 1⟩

namespace Fetch

variable {α β : Type}

/-- What a computation does follows from the bytes it consumes. -/
def Local (m : Fetch α) : Prop :=
  ∀ (w : List UInt8) (p : Nat), p ≤ w.length →
    ∃ (v : Option α) (q : Nat), m ⟨w, p⟩ = (v, ⟨w, q⟩) ∧ p ≤ q ∧ q ≤ w.length ∧
      ∀ rest, (v = none → rest = []) → m ⟨w.take q ++ rest, p⟩ = (v, ⟨w.take q ++ rest, q⟩)

/-- What a computation does does not depend on the bytes before its place. -/
def Shifts (m : Fetch α) : Prop := ∀ x r, m (r.behind x) = ((m r).1, (m r).2.behind x)

/-- Wherever a byte is left, some are consumed; where none is, there is no success. -/
def Advances (m : Fetch α) : Prop :=
  ∀ (w : List UInt8) (p : Nat), p ≤ w.length → p < w.length ∨ (m ⟨w, p⟩).1 ≠ none →
    p < (m ⟨w, p⟩).2.position

/-! ## Fields -/

/-- The next `n` bytes, as `f` understands them. -/
def field (n : Nat) (f : List UInt8 → α) : Fetch α :=
  ofRead fun r => (r.take? n).map fun (bs, s) => (f bs, s)

theorem unsigned_eq_field (width : Nat) :
    unsigned width = field width fun bs => ofLittleEndian bs := rfl

theorem signed_eq_field (width : Nat) :
    signed width = field width fun bs => Int.bmod (ofLittleEndian bs) (1 <<< (8 * width)) := rfl

theorem field_of_le {n : Nat} {f : List UInt8 → α} {w : List UInt8} {p : Nat}
    (h : p + n ≤ w.length) : field n f ⟨w, p⟩ = (some (f ((w.drop p).take n)), ⟨w, p + n⟩) := by
  simp [field, ofRead, Reader.take?, Reader.rest, Reader.advance, h]

theorem field_of_not_le {n : Nat} {f : List UInt8 → α} {w : List UInt8} {p : Nat}
    (h : ¬ p + n ≤ w.length) : field n f ⟨w, p⟩ = (none, ⟨w, p⟩) := by
  simp [field, ofRead, Reader.take?, h]

theorem local_field (n : Nat) (f : List UInt8 → α) : (field n f).Local := by
  intro w p hp
  by_cases h : p + n ≤ w.length
  · refine ⟨_, p + n, field_of_le h, Nat.le_add_right p n, h, fun rest _ => ?_⟩
    have hlen : (w.take (p + n)).length = p + n := List.length_take_of_le h
    have hle : p + n ≤ (w.take (p + n) ++ rest).length := by
      rw [List.length_append, hlen]
      exact Nat.le_add_right _ _
    have hfield : ((w.take (p + n) ++ rest).drop p).take n = (w.drop p).take n := by
      rw [List.drop_append_of_le_length (by omega),
        List.take_append_of_le_length (by rw [List.length_drop]; omega), List.drop_take,
        Nat.add_sub_cancel_left, List.take_take, Nat.min_self]
    rw [field_of_le hle, hfield]
  · refine ⟨none, p, field_of_not_le h, Nat.le_refl p, hp, fun rest hrest => ?_⟩
    have hlen : (w.take p).length = p := List.length_take_of_le hp
    rw [hrest rfl, List.append_nil]
    exact field_of_not_le (by omega)

theorem shifts_field (n : Nat) (f : List UInt8 → α) : (field n f).Shifts := by
  rintro x ⟨w, p⟩
  show field n f ⟨x :: w, p + 1⟩ = _
  have hlen : p + 1 + n ≤ (x :: w).length ↔ p + n ≤ w.length := by
    rw [List.length_cons]
    omega
  by_cases h : p + n ≤ w.length
  · rw [field_of_le h, field_of_le (hlen.2 h), List.drop_succ_cons, Reader.behind,
      Nat.add_right_comm]
  · rw [field_of_not_le h, field_of_not_le (mt hlen.1 h)]
    rfl

/-- An outcome that needs no bytes. -/
theorem local_ofOption (v : Option α) : (ofOption v).Local := fun _ p hp =>
  ⟨v, p, rfl, Nat.le_refl p, hp, fun _ _ => rfl⟩

theorem shifts_ofOption (v : Option α) : (ofOption v).Shifts := fun _ _ => rfl

/-! ## Sequences -/

theorem Local.bind {m : Fetch α} {f : α → Fetch β} (hm : m.Local) (hf : ∀ a, (f a).Local) :
    (m >>= f).Local := by
  intro w p hp
  obtain ⟨v, q, hv, hpq, hq, hrest⟩ := hm w p hp
  cases v with
  | none =>
    refine ⟨none, q, ?_, hpq, hq, fun rest h => ?_⟩
    · rw [bind_apply, hv]
    · rw [bind_apply, hrest rest fun _ => h rfl]
  | some a =>
    obtain ⟨v', q', hv', hqq', hq', hrest'⟩ := hf a w q hq
    refine ⟨v', q', ?_, hpq.trans hqq', hq', fun rest h => ?_⟩
    · rw [bind_apply, hv]
      exact hv'
    · -- What the first part consumed is followed by what the second did.
      have hsplit : w.take q' ++ rest = w.take q ++ ((w.take q').drop q ++ rest) := by
        rw [← List.append_assoc, ← Nat.min_eq_left hqq', ← List.take_take, Nat.min_eq_left hqq',
          List.take_append_drop]
      have hfirst := hrest ((w.take q').drop q ++ rest) fun hc => nomatch hc
      rw [← hsplit] at hfirst
      rw [bind_apply, hfirst]
      exact hrest' rest h

theorem Shifts.bind {m : Fetch α} {f : α → Fetch β} (hm : m.Shifts) (hf : ∀ a, (f a).Shifts) :
    (m >>= f).Shifts := by
  intro x r
  rw [bind_apply, bind_apply, hm x r]
  cases h : m r with
  | mk v s =>
    cases v with
    | none => rfl
    | some a => exact hf a x s

/-- Computations put together from fields and from values that need no bytes. -/
inductive Built : {α : Type} → Fetch α → Prop
  | field {α : Type} (n : Nat) (f : List UInt8 → α) : Built (field n f)
  | ofOption {α : Type} (v : Option α) : Built (ofOption v)
  | bind {α β : Type} {m : Fetch α} {f : α → Fetch β} :
      Built m → (∀ a, Built (f a)) → Built (m >>= f)

theorem Built.local {m : Fetch α} (h : m.Built) : m.Local := by
  induction h with
  | field n f => exact local_field n f
  | ofOption v => exact local_ofOption v
  | bind _ _ hm hf => exact hm.bind hf

theorem Built.shifts {m : Fetch α} (h : m.Built) : m.Shifts := by
  induction h with
  | field n f => exact shifts_field n f
  | ofOption v => exact shifts_ofOption v
  | bind _ _ hm hf => exact hm.bind hf

/-- What a computation gives behind one more byte it gives also without that byte, and with more
bytes at the end. -/
theorem Built.eq_of_isPrefix {m : Fetch α} (hm : m.Built) {x : UInt8} {w w' : List UInt8} {p : Nat}
    {a : α} (hw : w <+: w') (hp : p ≤ w.length) (h : (m ⟨x :: w, p + 1⟩).1 = some a) :
    (m ⟨w', p⟩).1 = some a := by
  obtain ⟨rest, rfl⟩ := hw
  obtain ⟨v, q, hv, -, hq, hrest⟩ := hm.local w p hp
  have hshift := hm.shifts x ⟨w, p⟩
  rw [hv] at hshift
  obtain rfl : v = some a := (congrArg Prod.fst hshift).symm.trans h
  have hfurther := hrest (w.drop q ++ rest) fun hc => nomatch hc
  rw [← List.append_assoc, List.take_append_drop] at hfurther
  rw [hfurther]

theorem built_pure (a : α) : (pure a : Fetch α).Built := .ofOption (some a)

theorem built_fail : (fail : Fetch α).Built := .ofOption none

theorem built_unsigned (width : Nat) : (unsigned width).Built := .field width _

theorem built_signed (width : Nat) : (signed width).Built := by
  rw [signed_eq_field]
  exact .field width _

theorem built_byte : byte.Built := (built_unsigned 1).bind fun _ => built_pure _

/-! ## Bytes -/

theorem byte_of_lt {w : List UInt8} {p : Nat} (h : p < w.length) :
    byte ⟨w, p⟩ = (some w[p], ⟨w, p + 1⟩) := by
  have hfield : (w.drop p).take 1 = [w[p]] := by
    rw [List.drop_eq_getElem_cons h, List.take_succ_cons, List.take_zero]
  have hlt : w[p].toNat < 256 := w[p].toNat_lt
  rw [byte, bind_apply, unsigned_eq_field, field_of_le (Nat.succ_le_of_lt h), hfield]
  simp [ofLittleEndian]

theorem byte_of_not_lt {w : List UInt8} {p : Nat} (h : ¬ p < w.length) :
    byte ⟨w, p⟩ = (none, ⟨w, p⟩) := by
  rw [byte, bind_apply, unsigned_eq_field, field_of_not_le (by omega)]

theorem advances_byte : byte.Advances := by
  intro w p _ h
  by_cases hp : p < w.length
  · rw [byte_of_lt hp]
    exact Nat.lt_succ_self p
  · rw [byte_of_not_lt hp] at h
    rcases h with h | h
    · exact absurd h hp
    · exact absurd rfl h

theorem Advances.bind {m : Fetch α} {f : α → Fetch β} (ha : m.Advances) (hm : m.Local)
    (hf : ∀ a, (f a).Local) : (m >>= f).Advances := by
  intro w p hp h
  have hfirst := ha w p hp
  obtain ⟨v, q, hv, -, hq, -⟩ := hm w p hp
  rw [hv] at hfirst
  rw [bind_apply, hv] at h ⊢
  cases v with
  | none =>
    rcases h with h | h
    · exact hfirst (Or.inl h)
    · exact absurd rfl h
  | some a =>
    obtain ⟨v', q', hv', hqq', -, -⟩ := hf a w q hq
    have hpq : p < q := hfirst (Or.inr fun hc => nomatch hc)
    show p < (f a ⟨w, q⟩).2.position
    rw [hv']
    exact Nat.lt_of_lt_of_le hpq hqq'

end Fetch

/-! ## Operands -/

open Fetch

theorem built_fetchImmediate (c : OperandContext) (type : OperandType) :
    (fetchImmediate c type).Built := by
  unfold fetchImmediate
  cases type with
  | b | w => exact (built_unsigned _).bind fun _ => built_pure _
  | bs => exact (built_signed _).bind fun _ => built_pure _
  | z =>
    dsimp only
    split
    · exact (built_signed _).bind fun _ => built_pure _
    · exact (built_signed _).bind fun _ => built_pure _
  | v =>
    dsimp only
    split
    · exact (built_unsigned _).bind fun _ => built_pure _
    · exact (built_signed _).bind fun _ => built_pure _
    · exact (built_unsigned _).bind fun _ => built_pure _
  | _ => exact built_fail

theorem built_fetchRelative (c : OperandContext) (type : OperandType) :
    (fetchRelative c type).Built := by
  unfold fetchRelative
  split_ifs
  · exact (built_signed 1).bind fun _ => built_pure _
  · exact (built_signed 2).bind fun _ => built_pure _
  · exact (built_signed 4).bind fun _ => built_pure _

theorem built_fetchAbsolute (a : AddressSize) : (fetchAbsolute a).Built := by
  cases a with
  | a16 => exact (built_unsigned 2).bind fun _ => built_pure _
  | a32 => exact (built_unsigned 4).bind fun _ => built_pure _
  | a64 => exact built_signed 8

theorem built_fetchOffset (c : OperandContext) (type : OperandType) : (fetchOffset c type).Built :=
  (built_fetchAbsolute c.addressSize).bind fun _ => built_pure _

theorem built_fetchFar (c : OperandContext) : (fetchFar c).Built := by
  unfold fetchFar
  split_ifs
  · exact (built_unsigned 2).bind fun _ => (built_unsigned 2).bind fun _ => built_pure _
  · exact (built_unsigned 4).bind fun _ => (built_unsigned 2).bind fun _ => built_pure _

theorem built_fetchOperand (c : OperandContext) (a : Addressing) (s : OperandSpec) :
    (fetchOperand c a s).Built := by
  unfold fetchOperand
  cases s.method with
  | I => exact built_fetchImmediate c s.type
  | J => exact built_fetchRelative c s.type
  | O => exact built_fetchOffset c s.type
  | A => exact built_fetchFar c
  | _ => exact .ofOption _

theorem built_fetchOperands (c : OperandContext) (a : Addressing) (specs : List OperandSpec) :
    (fetchOperands c a specs).Built := by
  induction specs with
  | nil => exact built_pure []
  | cons s rest ih =>
    exact (built_fetchOperand c a s).bind fun _ => ih.bind fun _ => built_pure _

/-! ## Instructions -/

theorem built_fetchSIB (c : OperandContext) (m : ModRM) : (fetchSIB c m).Built := by
  unfold fetchSIB
  split_ifs
  · exact built_byte.bind fun _ => built_pure _
  · exact built_pure none

theorem built_fetchDisplacement (width : Nat) : (fetchDisplacement width).Built := by
  unfold fetchDisplacement
  split_ifs
  · exact built_pure 0
  · exact built_signed width

theorem built_fetchMemory (c : OperandContext) (m : ModRM) : (fetchMemory c m).Built :=
  (built_fetchSIB c m).bind fun _ => (built_fetchDisplacement _).bind fun _ => built_pure _

theorem built_fetchAddressing (c : OperandContext) (m : ModRM) : (fetchAddressing c m).Built := by
  unfold fetchAddressing
  split_ifs
  · exact built_pure _
  · exact (built_fetchMemory c m).bind fun _ => built_pure _

theorem Form.built_fetchAddressing (f : Form) (c : OperandContext) (m : Option ModRM) :
    (f.fetchAddressing c m).Built := by
  cases m with
  | none => exact built_pure ({} : Addressing)
  | some m => exact Disasm.built_fetchAddressing c _

namespace Opcode

theorem built_fetchEscaped : fetchEscaped.Built := by
  refine built_byte.bind fun second => ?_
  split_ifs
  · exact built_byte.bind fun _ => built_pure _
  · exact built_byte.bind fun _ => built_pure _
  · exact built_pure _

/-- What follows the first byte of an opcode. -/
theorem built_fetch_rest (first : UInt8) :
    (if first = 0x0f then fetchEscaped
      else pure ⟨if OpcodeMap.isX87 first then .x87 else .oneByte, first⟩ :
        Fetch Opcode).Built := by
  by_cases h : first = 0x0f
  · rw [if_pos h]
    exact built_fetchEscaped
  · rw [if_neg h]
    exact built_pure _

theorem built_fetch : fetch.Built := built_byte.bind built_fetch_rest

theorem advances_fetch : fetch.Advances :=
  advances_byte.bind built_byte.local fun first => (built_fetch_rest first).local

theorem built_fetchModRM (o : Opcode) (s : Selector) : (o.fetchModRM s).Built := by
  unfold fetchModRM
  split_ifs
  · exact built_byte.bind fun _ => built_pure _
  · exact built_pure none

end Opcode

theorem built_fetchOperation (mode : Mode) (p : Prefixes) (o : Opcode) :
    (fetchOperation mode p o).Built :=
  (o.built_fetchModRM _).bind fun _ => (Built.ofOption _).bind fun f =>
    ((o.rename p f).built_fetchAddressing _ _).bind fun a =>
      (built_fetchOperands _ a _).bind fun _ => built_pure _

theorem built_fetchDecoded (mode : Mode) (p : Prefixes) : (fetchDecoded mode p).Built :=
  Opcode.built_fetch.bind (built_fetchOperation mode p)

theorem local_fetchDecoded (mode : Mode) (p : Prefixes) : (fetchDecoded mode p).Local :=
  (built_fetchDecoded mode p).local

/-- An instruction has one byte at least after its prefixes. -/
theorem advances_fetchDecoded (mode : Mode) (p : Prefixes) : (fetchDecoded mode p).Advances :=
  Opcode.advances_fetch.bind Opcode.built_fetch.local fun o =>
    (built_fetchOperation mode p o).local

end Disasm
