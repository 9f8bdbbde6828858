import Disasm.Proofs.LittleEndian
import Disasm.Proofs.Outline

/-!
# The fields at the end of an encoding

Behind its prefixes, its opcode, ModRM and SIB an instruction has fields that hold numbers: the
displacement of the place in memory that ModRM names, and then the constants, displacements,
offsets and pointers of its operands, in their order.

* `ValueField` — a width in bytes, and whether the highest bit is a sign. `encode` writes a number
  into a field; a number `Fits` if reading the field gives it back.
* `OperandSpec.fields` — the fields that an operand has for itself.
* `OperandSpec.Holds` — an operand is what a specification says, and its values fit their fields.
* `Encoding.header` — the bytes before the fields.

**Theorem (`decodeAt_bytes_eq_fields`).** A valid record's bytes are the header and then the fields
of the record's own values, each of which fits its field.

`Fetch.Consumes` relates what a computation gives to the bytes that it takes. Sequences follow from
their parts, so that the record's bytes fall apart as reading them did, without a byte between two
parts or in both.
-/

namespace Disasm

open Fetch

/-! ## What reading consumes -/

namespace Fetch

variable {α β : Type} {w : List UInt8} {p : Nat}

/-- If a computation succeeds at this place, it takes bytes that `P` relates to its value. -/
def Consumes (m : Fetch α) (w : List UInt8) (p : Nat) (P : List UInt8 → α → Prop) : Prop :=
  ∀ a r, m ⟨w, p⟩ = (some a, r) → ∃ t, t <+: w.drop p ∧ r = ⟨w, p + t.length⟩ ∧ P t a

theorem Consumes.mono {m : Fetch α} {P Q : List UInt8 → α → Prop} (h : m.Consumes w p P)
    (hPQ : ∀ t a, P t a → Q t a) : m.Consumes w p Q := by
  intro a r hr
  obtain ⟨t, ht, hpos, hP⟩ := h a r hr
  exact ⟨t, ht, hpos, hPQ t a hP⟩

/-- The second part takes what stands behind that which the first took. -/
theorem Consumes.bind {m : Fetch α} {f : α → Fetch β} {P : List UInt8 → α → Prop}
    {R : List UInt8 → β → Prop} (hm : m.Consumes w p P)
    (hf : ∀ t a, P t a → (f a).Consumes w (p + t.length) fun t' b => R (t ++ t') b) :
    (m >>= f).Consumes w p R := by
  intro b r h
  rw [bind_apply] at h
  cases hv : m ⟨w, p⟩ with
  | mk v s =>
    rw [hv] at h
    cases v with
    | none => cases h
    | some a =>
      obtain ⟨t, ⟨rest, hrest⟩, rfl, hP⟩ := hm a s hv
      obtain ⟨t', ht', rfl, hR⟩ := hf t a hP b r h
      refine ⟨t ++ t', ?_, ?_, hR⟩
      · rw [← List.drop_drop, ← hrest, List.drop_left] at ht'
        rw [← hrest]
        exact (List.prefix_append_right_inj t).2 ht'
      · rw [List.length_append, Nat.add_assoc]

theorem consumes_ofOption (v : Option α) :
    (ofOption v).Consumes w p fun t a => t = [] ∧ v = some a := by
  intro a r h
  cases h
  exact ⟨[], List.nil_prefix, rfl, rfl, rfl⟩

theorem consumes_pure {P : List UInt8 → α → Prop} {a : α} (h : P [] a) :
    (pure a : Fetch α).Consumes w p P := by
  intro b r hr
  cases hr
  exact ⟨[], List.nil_prefix, rfl, h⟩

theorem consumes_fail {P : List UInt8 → α → Prop} : (fail : Fetch α).Consumes w p P := by
  intro a r h
  cases h

theorem Consumes.map {m : Fetch α} {P : List UInt8 → α → Prop} {R : List UInt8 → β → Prop}
    {f : α → β} (hm : m.Consumes w p P) (hf : ∀ t a, P t a → R t (f a)) :
    (m >>= fun a => pure (f a)).Consumes w p R :=
  hm.bind fun t a h => consumes_pure (by rw [List.append_nil]; exact hf t a h)

theorem consumes_field (n : Nat) (f : List UInt8 → α) :
    (field n f).Consumes w p fun t a => t.length = n ∧ a = f t := by
  intro a r h
  by_cases hn : p + n ≤ w.length
  · have hlen : ((w.drop p).take n).length = n :=
      List.length_take_of_le (by rw [List.length_drop]; omega)
    rw [field_of_le hn] at h
    cases h
    exact ⟨(w.drop p).take n, List.take_prefix _ _, by rw [hlen], hlen, rfl⟩
  · rw [field_of_not_le hn] at h
    cases h

/-- The next byte is that of any bytes which the window is the beginning of. -/
theorem consumes_byte {bytes : List UInt8} (hw : w <+: bytes) :
    byte.Consumes w p fun t b => t = [b] ∧ b = Encoding.byteAt bytes p := by
  intro b r h
  by_cases hp : p < w.length
  · rw [byte_of_lt hp] at h
    cases h
    refine ⟨[w[p]], ?_, rfl, rfl, ?_⟩
    · rw [List.drop_eq_getElem_cons hp]
      exact List.prefix_append [w[p]] _
    · rw [hw.getElem hp, Encoding.byteAt, List.getD_eq_getElem?_getD,
        List.getElem?_eq_getElem (hp.trans_le hw.length_le), Option.getD_some]
  · rw [byte_of_not_lt hp] at h
    cases h

end Fetch

/-! ## Fields -/

/-- A field of an encoding: how many bytes it has, and whether its highest bit is a sign. -/
structure ValueField where
  width : Nat
  signed : Bool
deriving DecidableEq

namespace ValueField

/-- The number that the bytes of a field stand for, lowest byte first: extended with the highest
bit, or with zeros. -/
def value (f : ValueField) (bytes : List UInt8) : Int :=
  if f.signed then (BitVec.ofNat (8 * f.width) (byteValue bytes)).toInt
  else byteValue bytes

/-- The bytes of a number in a field, lowest first. -/
def encode (f : ValueField) (v : Int) : List UInt8 :=
  toLittleEndian f.width (v % 2 ^ (8 * f.width)).toNat

/-- A number is the extension of its bytes in the field. -/
def Fits (f : ValueField) (v : Int) : Prop := f.value (f.encode v) = v

variable {f : ValueField} {bytes : List UInt8}

/-- A number without a sign is read as it stands. -/
theorem value_unsigned (n : Nat) (bytes : List UInt8) :
    value ⟨n, false⟩ bytes = ofLittleEndian bytes := by
  rw [ofLittleEndian_eq_byteValue]
  rfl

/-- A number with a sign is read in two's complement. -/
theorem value_signed (n : Nat) (bytes : List UInt8) :
    value ⟨n, true⟩ bytes = Int.bmod (ofLittleEndian bytes) (1 <<< (8 * n)) := by
  rw [ofLittleEndian_eq_byteValue, Nat.one_shiftLeft]
  exact BitVec.toInt_ofNat' _

theorem encode_value (h : bytes.length = f.width) : f.encode (f.value bytes) = bytes := by
  have hlt : (byteValue bytes : Int) < 2 ^ (8 * f.width) := by
    have hvalue := byteValue_lt bytes
    rw [h] at hvalue
    rw [pow_mul]
    exact_mod_cast hvalue
  have hmod : (f.value bytes % 2 ^ (8 * f.width)).toNat = byteValue bytes := by
    unfold value
    split_ifs
    · have hpow : ((2 ^ (8 * f.width) : Nat) : Int) = 2 ^ (8 * f.width) := by push_cast; rfl
      rw [BitVec.toInt_ofNat', ← hpow, Int.bmod_emod, hpow,
        Int.emod_eq_of_lt (Int.natCast_nonneg _) hlt, Int.toNat_natCast]
    · rw [Int.emod_eq_of_lt (Int.natCast_nonneg _) hlt, Int.toNat_natCast]
  rw [encode, hmod, ← h, toLittleEndian_byteValue]

theorem fits_value (h : bytes.length = f.width) : f.Fits (f.value bytes) := by
  rw [Fits, encode_value h]

/-- A field without bytes stands for 0. -/
theorem Fits.eq_zero {v : Int} (h : f.Fits v) (hw : f.width = 0) : v = 0 := by
  obtain ⟨width, signed⟩ := f
  subst hw
  cases signed <;> exact h.symm

end ValueField

namespace Fetch

variable {w : List UInt8} {p : Nat}

theorem consumes_unsigned (n : Nat) : (unsigned n).Consumes w p fun t v =>
    t = ValueField.encode ⟨n, false⟩ v ∧ ValueField.Fits ⟨n, false⟩ v := by
  refine (consumes_field n _).mono ?_
  rintro t v ⟨hlen, rfl⟩
  rw [← ValueField.value_unsigned n]
  exact ⟨(ValueField.encode_value hlen).symm, ValueField.fits_value hlen⟩

theorem consumes_signed (n : Nat) : (signed n).Consumes w p fun t v =>
    t = ValueField.encode ⟨n, true⟩ v ∧ ValueField.Fits ⟨n, true⟩ v := by
  rw [signed_eq_field]
  refine (consumes_field n _).mono ?_
  rintro t v ⟨hlen, rfl⟩
  rw [← ValueField.value_signed]
  exact ⟨(ValueField.encode_value hlen).symm, ValueField.fits_value hlen⟩

end Fetch

/-! ## The fields of operands -/

/-- Whether the operand is the place in memory that ModRM names, if it names one. -/
def AddressingMethod.takesMemory : AddressingMethod → Bool
  | E | M | Q | W => true
  | _ => false

/-- The numbers that an operand holds. -/
def Operand.values : Operand → List Int
  | register _ => []
  | memory m => [m.displacement]
  | immediate i => [i.value]
  | relative r => [r.displacement]
  | far p => [p.offset, p.selector]

namespace OperandSpec

/-- The fields that an operand has for itself. Constants of one byte, of a word and of the
operation size count from 0, like offsets and far pointers; all others have a sign. A field of eight
bytes is as wide as any number, so that its highest bit is taken for a sign as well. -/
def fields (s : OperandSpec) (operation : DataSize) (address : AddressSize) : List ValueField :=
  match s.method, s.type with
  | .I, .b => [⟨1, false⟩]
  | .I, .bs => [⟨1, true⟩]
  | .I, .w => [⟨2, false⟩]
  | .I, .z => if operation = .word then [⟨2, true⟩] else [⟨4, true⟩]
  | .I, .v =>
    if operation = .word then [⟨2, false⟩]
    else if operation = .qword then [⟨8, true⟩]
    else [⟨4, false⟩]
  | .J, .b => [⟨1, true⟩]
  | .J, _ => if operation = .word then [⟨2, true⟩] else [⟨4, true⟩]
  | .O, _ =>
    match address with
    | .a16 => [⟨2, false⟩]
    | .a32 => [⟨4, false⟩]
    | .a64 => [⟨8, true⟩]
  | .A, _ => if operation = .word then [⟨2, false⟩, ⟨2, false⟩] else [⟨4, false⟩, ⟨2, false⟩]
  | _, _ => []

/-- The bytes of an operand's own fields. -/
def encode (s : OperandSpec) (operation : DataSize) (address : AddressSize) (o : Operand) :
    List UInt8 :=
  (List.zipWith ValueField.encode (s.fields operation address) o.values).flatten

/-- An operand is what a specification says, where ModRM names a place in memory with the
displacement `place`, or none: it is that place, or the constant 1, or a register, or its values fit
the fields that it has for itself. -/
inductive Holds (s : OperandSpec) (operation : DataSize) (address : AddressSize)
    (place : Option Int) : Operand → Prop
  | register {r : Option Register} (hs : s.method ≠ .one) (hf : s.fields operation address = [])
      (hp : s.method.takesMemory → place = none) : Holds s operation address place (.register r)
  | memory {m : Memory} (hs : s.method.takesMemory) (hp : place = some m.displacement) :
      Holds s operation address place (.memory m)
  | one {i : Immediate} (hs : s.method = .one) (hv : i.value = 1) :
      Holds s operation address place (.immediate i)
  | immediate {i : Immediate} {f : ValueField} (hs : s.method = .I)
      (hf : s.fields operation address = [f]) (hv : f.Fits i.value) :
      Holds s operation address place (.immediate i)
  | relative {r : Relative} {f : ValueField} (hs : s.method = .J)
      (hf : s.fields operation address = [f]) (hv : f.Fits r.displacement) :
      Holds s operation address place (.relative r)
  | offset {m : Memory} {f : ValueField} (hs : s.method = .O)
      (hf : s.fields operation address = [f]) (hv : f.Fits m.displacement) :
      Holds s operation address place (.memory m)
  | far {p : FarPointer} {f g : ValueField} (hs : s.method = .A)
      (hf : s.fields operation address = [f, g]) (ho : f.Fits p.offset)
      (hv : g.Fits p.selector) : Holds s operation address place (.far p)

/-- An operand is what a specification says, and these are the bytes of its own fields. -/
def Encodes (s : OperandSpec) (operation : DataSize) (address : AddressSize) (place : Option Int)
    (bytes : List UInt8) (o : Operand) : Prop :=
  bytes = s.encode operation address o ∧ s.Holds operation address place o

section

variable {s : OperandSpec} {operation : DataSize} {address : AddressSize} {place : Option Int}
  {bytes : List UInt8} {f : ValueField}

theorem encode_of_fields_eq {o : Operand} {v : Int} (hf : s.fields operation address = [f])
    (ho : o.values = [v]) : s.encode operation address o = f.encode v := by
  simp [encode, hf, ho]

theorem encodes_immediate {i : Immediate} (hs : s.method = .I)
    (hf : s.fields operation address = [f]) (h : bytes = f.encode i.value ∧ f.Fits i.value) :
    s.Encodes operation address place bytes (.immediate i) :=
  ⟨h.1.trans (encode_of_fields_eq hf rfl).symm, .immediate hs hf h.2⟩

theorem encodes_relative {r : Relative} (hs : s.method = .J)
    (hf : s.fields operation address = [f])
    (h : bytes = f.encode r.displacement ∧ f.Fits r.displacement) :
    s.Encodes operation address place bytes (.relative r) :=
  ⟨h.1.trans (encode_of_fields_eq hf rfl).symm, .relative hs hf h.2⟩

theorem encodes_far {p : FarPointer} {g : ValueField} {bytes' : List UInt8} (hs : s.method = .A)
    (hf : s.fields operation address = [f, g]) (ho : bytes = f.encode p.offset ∧ f.Fits p.offset)
    (hv : bytes' = g.encode p.selector ∧ g.Fits p.selector) :
    s.Encodes operation address place (bytes ++ bytes') (.far p) := by
  refine ⟨?_, .far hs hf ho.2 hv.2⟩
  rw [ho.1, hv.1]
  simp [encode, hf, Operand.values]

end

end OperandSpec

section Operands

variable {w : List UInt8} {p : Nat} {c : OperandContext} {place : Option Int}

open OperandSpec

theorem consumes_fetchImmediate (type : OperandType) (number : Nat) :
    (fetchImmediate c type).Consumes w p
      (Encodes ⟨.I, type, number⟩ c.operationSize c.addressSize place) := by
  unfold fetchImmediate
  cases type with
  | b => exact (consumes_unsigned 1).map fun t v h => encodes_immediate rfl rfl h
  | bs => exact (consumes_signed 1).map fun t v h => encodes_immediate rfl rfl h
  | w => exact (consumes_unsigned 2).map fun t v h => encodes_immediate rfl rfl h
  | z =>
    dsimp only
    split_ifs with hz
    · exact (consumes_signed 2).map fun t v h => encodes_immediate rfl (if_pos hz) h
    · exact (consumes_signed 4).map fun t v h => encodes_immediate rfl (if_neg hz) h
  | v =>
    dsimp only
    split
    · next hv =>
      have hf : fields ⟨.I, .v, number⟩ c.operationSize c.addressSize = [⟨2, false⟩] := by
        simp [fields, hv]
      exact (consumes_unsigned 2).map fun t v h => encodes_immediate rfl hf h
    · next hv =>
      have hf : fields ⟨.I, .v, number⟩ c.operationSize c.addressSize = [⟨8, true⟩] := by
        simp [fields, hv]
      exact (consumes_signed 8).map fun t v h => encodes_immediate rfl hf h
    · next hword hqword =>
      have hf : fields ⟨.I, .v, number⟩ c.operationSize c.addressSize = [⟨4, false⟩] :=
        (if_neg hword).trans (if_neg hqword)
      exact (consumes_unsigned 4).map fun t v h => encodes_immediate rfl hf h
  | _ => exact consumes_fail

theorem consumes_fetchRelative (type : OperandType) (number : Nat) :
    (fetchRelative c type).Consumes w p
      (Encodes ⟨.J, type, number⟩ c.operationSize c.addressSize place) := by
  unfold fetchRelative
  by_cases hb : type = .b
  · subst hb
    exact (consumes_signed 1).map fun t v h => encodes_relative rfl rfl h
  · have hfields : fields ⟨.J, type, number⟩ c.operationSize c.addressSize =
        if c.operationSize = .word then [⟨2, true⟩] else [⟨4, true⟩] := by
      cases type <;> first | rfl | exact absurd rfl hb
    rw [if_neg hb]
    split_ifs with hz
    · exact (consumes_signed 2).map fun t v h =>
        encodes_relative rfl (hfields.trans (if_pos hz)) h
    · exact (consumes_signed 4).map fun t v h =>
        encodes_relative rfl (hfields.trans (if_neg hz)) h

theorem consumes_fetchAbsolute (a : AddressSize) (type : OperandType) (number : Nat)
    (operation : DataSize) : (fetchAbsolute a).Consumes w p fun t v =>
      ∃ f, fields ⟨.O, type, number⟩ operation a = [f] ∧ t = f.encode v ∧ f.Fits v := by
  cases a with
  | a16 => exact (consumes_unsigned 2).map fun t v h => ⟨_, rfl, h⟩
  | a32 => exact (consumes_unsigned 4).map fun t v h => ⟨_, rfl, h⟩
  | a64 => exact (consumes_signed 8).mono fun t v h => ⟨_, rfl, h⟩

theorem consumes_fetchOffset (type : OperandType) (number : Nat) :
    (fetchOffset c type).Consumes w p
      (Encodes ⟨.O, type, number⟩ c.operationSize c.addressSize place) := by
  refine (consumes_fetchAbsolute c.addressSize type number c.operationSize).map ?_
  rintro t v ⟨f, hf, ht, hv⟩
  exact ⟨ht.trans (encode_of_fields_eq hf rfl).symm, .offset rfl hf hv⟩

theorem consumes_fetchFar (type : OperandType) (number : Nat) :
    (fetchFar c).Consumes w p
      (Encodes ⟨.A, type, number⟩ c.operationSize c.addressSize place) := by
  unfold fetchFar
  split_ifs with hz
  · exact (consumes_unsigned 2).bind fun t v h => (consumes_unsigned 2).map fun t' v' h' =>
      encodes_far rfl (if_pos hz) h h'
  · exact (consumes_unsigned 4).bind fun t v h => (consumes_unsigned 2).map fun t' v' h' =>
      encodes_far rfl (if_neg hz) h h'

/-- `place` is the displacement of the place in memory that ModRM names, if it names one. -/
def Addressing.Places (a : Addressing) (place : Option Int) : Prop :=
  ∀ m, a.modrm = some m → place = if m.isRegister then none else some a.memory.displacement

variable {a : Addressing} {s : OperandSpec} {o : Operand}

theorem holds_of_registerOperand {f : ModRM → Option Register} (h : a.registerOperand f = some o)
    (hs : s.method ≠ .one) (hf : s.fields c.operationSize c.addressSize = [])
    (hm : s.method.takesMemory = false) : s.Holds c.operationSize c.addressSize place o := by
  refine Addressing.of_registerOperand h fun _ => .register hs hf fun ht => ?_
  rw [hm] at ht
  cases ht

theorem holds_of_onlyRegister {f : ModRM → Option Register} (ha : a.Places place)
    (h : a.onlyRegister f = some o) (hs : s.method ≠ .one)
    (hf : s.fields c.operationSize c.addressSize = []) :
    s.Holds c.operationSize c.addressSize place o :=
  Addressing.of_onlyRegister h fun m hm hr =>
    .register hs hf fun _ => (ha m hm).trans (if_pos hr)

theorem holds_memory (ha : a.Places place) (hs : s.method.takesMemory) {m : ModRM}
    (hm : a.modrm = some m) (hr : m.isRegister = false) (size : DataSize) :
    s.Holds c.operationSize c.addressSize place (.memory { a.memory with size }) := by
  refine .memory hs ((ha m hm).trans (if_neg ?_))
  rw [hr]
  exact Bool.false_ne_true

theorem holds_of_memoryOperand (ha : a.Places place) (h : a.memoryOperand c s.type = some o)
    (hs : s.method.takesMemory) : s.Holds c.operationSize c.addressSize place o :=
  Addressing.of_memoryOperand h fun _ hm hr => holds_memory ha hs hm hr _

theorem holds_of_registerOrMemory {f : ModRM → Option Register} (ha : a.Places place)
    (h : a.registerOrMemory c s.type f = some o) (hs : s.method ≠ .one)
    (hf : s.fields c.operationSize c.addressSize = []) (hm : s.method.takesMemory) :
    s.Holds c.operationSize c.addressSize place o :=
  Addressing.of_registerOrMemory h
    (fun m hm hr => .register hs hf fun _ => (ha m hm).trans (if_pos hr))
    fun _ hm' hr => holds_memory ha hm hm' hr _

/-- The operands named by the form, by the opcode and by ModRM have no fields for themselves. -/
theorem encodes_of_named (ha : a.Places place) (h : c.named a s = some o) :
    s.Encodes c.operationSize c.addressSize place [] o := by
  obtain ⟨method, type, number⟩ := s
  unfold OperandContext.named at h
  cases method with
  | none | I | J | O | A => cases h
  | fixed | fixedSegment | fixedX87 | fixedXMM | opcode =>
    cases h
    exact ⟨rfl, .register nofun rfl nofun⟩
  | one =>
    cases h
    exact ⟨rfl, .one rfl rfl⟩
  | E | Q | W => exact ⟨rfl, holds_of_registerOrMemory ha h nofun rfl rfl⟩
  | M => exact ⟨rfl, holds_of_memoryOperand ha h rfl⟩
  | G | C | D | P | V => exact ⟨rfl, holds_of_registerOperand h nofun rfl rfl⟩
  | R | N | U | X87 => exact ⟨rfl, holds_of_onlyRegister ha h nofun rfl⟩
  | S =>
    obtain ⟨m, -, hm⟩ := Option.bind_eq_some_iff.1 h
    obtain ⟨r, -, rfl⟩ := Option.map_eq_some_iff.1 hm
    exact ⟨rfl, .register nofun rfl nofun⟩

theorem consumes_fetchOperand (ha : a.Places place) (s : OperandSpec) :
    (fetchOperand c a s).Consumes w p
      (s.Encodes c.operationSize c.addressSize place) := by
  obtain ⟨method, type, number⟩ := s
  have hnamed : (ofOption (c.named a ⟨method, type, number⟩)).Consumes w p
      (Encodes ⟨method, type, number⟩ c.operationSize c.addressSize place) := by
    refine (consumes_ofOption _).mono ?_
    rintro t o ⟨rfl, ho⟩
    exact encodes_of_named ha ho
  cases method with
  | I => exact consumes_fetchImmediate type number
  | J => exact consumes_fetchRelative type number
  | O => exact consumes_fetchOffset type number
  | A => exact consumes_fetchFar type number
  | _ => exact hnamed

theorem consumes_fetchOperands (ha : a.Places place) (specs : List OperandSpec) :
    (fetchOperands c a specs).Consumes w p fun t os =>
      t = (List.zipWith (fun s o => s.encode c.operationSize c.addressSize o) specs os).flatten ∧
        List.Forall₂ (fun s o => s.Holds c.operationSize c.addressSize place o) specs os := by
  induction specs generalizing p with
  | nil => exact consumes_pure ⟨rfl, .nil⟩
  | cons s rest ih =>
    refine (consumes_fetchOperand ha s).bind fun t o ho => ih.map fun t' os hos => ?_
    refine ⟨?_, .cons ho.2 hos.2⟩
    rw [List.zipWith_cons_cons, List.flatten_cons, ← ho.1, ← hos.1]

end Operands

/-! ## The parts of an encoding -/

/-- The bytes of an opcode, with its escape bytes. -/
def Opcode.bytes (o : Opcode) : List UInt8 :=
  match o.escape with
  | .oneByte | .x87 => [o.byte]
  | .twoByte => [0x0f, o.byte]
  | .threeByte38 => [0x0f, 0x38, o.byte]
  | .threeByte3A => [0x0f, 0x3a, o.byte]

/-- How many bytes the displacement has behind a ModRM byte that names memory. -/
def AddressSize.displacementWidth (size : AddressSize) (m : ModRM) (sib : SIB) : Nat :=
  match size with
  | .a16 =>
    if m.mod.val = 0 then (if m.rm.val = 6 then 2 else 0)
    else if m.mod.val = 1 then 1
    else 2
  | .a32 | .a64 =>
    if m.mod.val = 0 then (if m.rm.val = 5 ∨ m.rm.val = 4 ∧ sib.base.val = 5 then 4 else 0)
    else if m.mod.val = 1 then 1
    else 4

namespace Encoding

variable (mode : Mode) (bytes : List UInt8)

/-- Whether ModRM names a place in memory for a form. -/
def NamesMemory (f : Form) : Prop :=
  hasModRM mode bytes ∧ (modrm mode bytes).mod.val ≠ 3 ∧ f.registerOnly = false

instance (f : Form) : Decidable (NamesMemory mode bytes f) :=
  inferInstanceAs (Decidable (_ ∧ _ ∧ _))

def modrmBytes : List UInt8 :=
  if hasModRM mode bytes then [byteAt bytes (prefixLength mode bytes + opcodeLength mode bytes)]
  else []

/-- The SIB byte, if a place in memory is named through one. -/
def sibBytes (f : Form) : List UInt8 :=
  if NamesMemory mode bytes f ∧ addressSize mode bytes ≠ .a16 ∧ (modrm mode bytes).rm.val = 4 then
    [byteAt bytes (prefixLength mode bytes + opcodeLength mode bytes + 1)]
  else []

/-- All that stands before the fields. -/
def header (f : Form) : List UInt8 :=
  Prefixes.run mode bytes ++ (opcode mode bytes).bytes ++ modrmBytes mode bytes ++
    sibBytes mode bytes f

/-- The field of the displacement. It has no bytes where none is needed. -/
def displacementField (f : Form) : ValueField where
  width :=
    if NamesMemory mode bytes f then
      (addressSize mode bytes).displacementWidth (modrm mode bytes) (sib mode bytes)
    else 0
  signed := true

/-- The form of the opcode, under the name that the prefixes give it. -/
def recordForm? : Option Form :=
  (form? mode bytes).map ((opcode mode bytes).rename (prefixes mode bytes))

end Encoding

theorem AddressSize.memoryLength_eq (c : OperandContext) {m : ModRM} (hm : m.mod.val ≠ 3)
    (sib : SIB) :
    c.addressSize.memoryLength m sib =
      (if c.hasSIB m then 1 else 0) + c.addressSize.displacementWidth m sib := by
  unfold memoryLength displacementWidth OperandContext.hasSIB
  rw [ModRM.isRegister_eq]
  cases c.addressSize <;> simp [hm]

section Addresses

variable {w bytes : List UInt8} {p : Nat}

theorem consumes_fetchSIB (c : OperandContext) (m : ModRM) (hw : w <+: bytes) :
    (fetchSIB c m).Consumes w p fun t s =>
      t = (if c.hasSIB m then [Encoding.byteAt bytes p] else []) ∧
        s = if c.hasSIB m then some (.ofByte (Encoding.byteAt bytes p)) else none := by
  unfold fetchSIB
  split_ifs
  · refine (consumes_byte hw).map ?_
    rintro t b ⟨rfl, rfl⟩
    exact ⟨rfl, rfl⟩
  · exact consumes_pure ⟨rfl, rfl⟩

theorem consumes_fetchDisplacement (width : Nat) :
    (fetchDisplacement width).Consumes w p fun t v =>
      t = ValueField.encode ⟨width, true⟩ v ∧ ValueField.Fits ⟨width, true⟩ v := by
  unfold fetchDisplacement
  split_ifs with h
  · subst h
    exact consumes_pure ⟨rfl, rfl⟩
  · exact consumes_signed width

theorem consumes_fetchMemory (c : OperandContext) {m : ModRM} (hm : m.mod.val ≠ 3)
    (hw : w <+: bytes) :
    (fetchMemory c m).Consumes w p fun t memory =>
      let f : ValueField :=
        ⟨c.addressSize.displacementWidth m (.ofByte (Encoding.byteAt bytes p)), true⟩
      t = (if c.hasSIB m then [Encoding.byteAt bytes p] else []) ++ f.encode memory.displacement ∧
        f.Fits memory.displacement := by
  refine (consumes_fetchSIB c m hw).bind ?_
  rintro t s ⟨rfl, rfl⟩
  have hwidth := displacementWidth_ofModRM c hm (.ofByte (Encoding.byteAt bytes p))
  rw [AddressSize.memoryLength_eq c hm] at hwidth
  dsimp only
  rw [Nat.add_left_cancel hwidth]
  refine (consumes_fetchDisplacement _).map ?_
  rintro t v ⟨rfl, hv⟩
  exact ⟨rfl, hv⟩

end Addresses

theorem Opcode.length_bytes (mode : Mode) (bytes : List UInt8) :
    (Encoding.opcode mode bytes).bytes.length = Encoding.opcodeLength mode bytes := by
  unfold Encoding.opcode Encoding.opcodeLength
  by_cases hfirst : Encoding.firstByte mode bytes ≠ 0x0f
  · rw [if_pos hfirst, if_pos hfirst]
    split_ifs <;> rfl
  · rw [if_neg hfirst, if_neg hfirst]
    by_cases h38 : Encoding.secondByte mode bytes = 0x38
    · simp [h38, Opcode.bytes]
    · by_cases h3a : Encoding.secondByte mode bytes = 0x3a <;> simp [h38, h3a, Opcode.bytes]

namespace Encoding

variable {mode : Mode} {w bytes : List UInt8} {p : Nat}

theorem consumes_fetchEscaped (hw : w <+: bytes) :
    Opcode.fetchEscaped.Consumes w p fun t o => 0x0f :: t = o.bytes ∧
      o = if byteAt bytes p = 0x38 then ⟨.threeByte38, byteAt bytes (p + 1)⟩
        else if byteAt bytes p = 0x3a then ⟨.threeByte3A, byteAt bytes (p + 1)⟩
        else ⟨.twoByte, byteAt bytes p⟩ := by
  refine (consumes_byte hw).bind ?_
  rintro t b ⟨rfl, rfl⟩
  by_cases h38 : byteAt bytes p = 0x38
  · rw [if_pos h38, if_pos h38, h38]
    refine (consumes_byte hw).map ?_
    rintro t b ⟨rfl, rfl⟩
    exact ⟨rfl, rfl⟩
  · rw [if_neg h38, if_neg h38]
    by_cases h3a : byteAt bytes p = 0x3a
    · rw [if_pos h3a, if_pos h3a, h3a]
      refine (consumes_byte hw).map ?_
      rintro t b ⟨rfl, rfl⟩
      exact ⟨rfl, rfl⟩
    · rw [if_neg h3a, if_neg h3a]
      exact consumes_pure ⟨rfl, rfl⟩

theorem consumes_fetch (hw : w <+: bytes) :
    Opcode.fetch.Consumes w (prefixLength mode bytes) fun t o =>
      t = o.bytes ∧ o = opcode mode bytes := by
  refine (consumes_byte hw).bind ?_
  rintro t b ⟨rfl, rfl⟩
  unfold opcode
  by_cases h : firstByte mode bytes = 0x0f
  · have hb : byteAt bytes (prefixLength mode bytes) = 0x0f := h
    rw [if_pos hb, if_neg (not_not_intro h), hb]
    exact consumes_fetchEscaped hw
  · have hb : byteAt bytes (prefixLength mode bytes) ≠ 0x0f := h
    rw [if_neg hb, if_pos h]
    simp only [← OpcodeMap.isX87_iff]
    refine consumes_pure ⟨?_, rfl⟩
    split_ifs <;> rfl

theorem consumes_fetchModRM (hw : w <+: bytes) :
    ((opcode mode bytes).fetchModRM (selector mode bytes)).Consumes w
      (prefixLength mode bytes + opcodeLength mode bytes) fun t m =>
        t = modrmBytes mode bytes ∧ m = modrm? mode bytes := by
  unfold Opcode.fetchModRM modrmBytes modrm? hasModRM
  split_ifs
  · refine (consumes_byte hw).map ?_
    rintro t b ⟨rfl, rfl⟩
    exact ⟨rfl, congrArg some (modrm_ofByte _)⟩
  · exact consumes_pure ⟨rfl, rfl⟩

theorem modrm?_of_hasModRM (h : hasModRM mode bytes) :
    modrm? mode bytes = some (modrm mode bytes) := by
  rw [modrm, modrm?, if_pos h, Option.getD_some]

/-- What ModRM describes for a form, and the bytes behind ModRM that describe it. -/
def Described (mode : Mode) (bytes : List UInt8) (f : Form) (t : List UInt8) (a : Addressing) :
    Prop :=
  ∃ place : Option Int, a.Places place ∧ (place.isSome ↔ NamesMemory mode bytes f) ∧
    t = sibBytes mode bytes f ++ (displacementField mode bytes f).encode (place.getD 0) ∧
    (displacementField mode bytes f).Fits (place.getD 0)

theorem described_of_not_namesMemory {f : Form} (h : ¬ NamesMemory mode bytes f) {a : Addressing}
    (ha : ∀ m, a.modrm = some m → m.isRegister) : Described mode bytes f [] a := by
  refine ⟨none, fun m hm => (if_pos (ha m hm)).symm, iff_of_false Bool.false_ne_true h, ?_, ?_⟩
  · rw [sibBytes, if_neg fun hc => h hc.1, displacementField, if_neg h]
    rfl
  · rw [displacementField, if_neg h]
    rfl

theorem isRegister_understood {f : Form} (hm : hasModRM mode bytes)
    (h : ¬ NamesMemory mode bytes f) : (f.understood (modrm mode bytes)).isRegister := by
  unfold Form.understood
  split_ifs with hr
  · rfl
  · rw [ModRM.isRegister_eq, decide_eq_true_eq]
    by_contra hmod
    exact h ⟨hm, hmod, Bool.eq_false_of_not_eq_true hr⟩

theorem consumes_fetchAddressing_of_namesMemory {f : Form} (h : NamesMemory mode bytes f)
    {c : OperandContext} (hc : c.addressSize = addressSize mode bytes) (hw : w <+: bytes) :
    (f.fetchAddressing c (modrm? mode bytes)).Consumes w
      (prefixLength mode bytes + opcodeLength mode bytes + 1) (Described mode bytes f) := by
  have ⟨hm, hmod, hr⟩ := h
  have hnot : ¬ (modrm mode bytes).isRegister := by
    rw [ModRM.isRegister_eq, decide_eq_true_eq]
    exact hmod
  have hsib : sibBytes mode bytes f = if c.hasSIB (modrm mode bytes) then
      [byteAt bytes (prefixLength mode bytes + opcodeLength mode bytes + 1)] else [] := by
    simp [sibBytes, OperandContext.hasSIB, h, hc, hnot]
  have hfield : displacementField mode bytes f =
      ⟨c.addressSize.displacementWidth (modrm mode bytes) (.ofByte
        (byteAt bytes (prefixLength mode bytes + opcodeLength mode bytes + 1))), true⟩ := by
    rw [displacementField, if_pos h, hc, sib, sib_ofByte]
  rw [modrm?_of_hasModRM hm]
  unfold Form.fetchAddressing fetchAddressing
  rw [hr]
  dsimp only
  rw [if_neg Bool.false_ne_true, if_neg hnot]
  refine (consumes_fetchMemory c hmod hw).map ?_
  rintro t memory ⟨ht, hfits⟩
  refine ⟨some memory.displacement, ?_, iff_of_true rfl h, ?_, ?_⟩
  · rintro m ⟨⟩
    rw [if_neg hnot]
  · rw [hsib, hfield]
    exact ht
  · rw [hfield]
    exact hfits

/-- What ModRM describes is read from the SIB byte and the field of the displacement. -/
theorem consumes_fetchAddressing (f : Form) {c : OperandContext}
    (hc : c.addressSize = addressSize mode bytes) (hw : w <+: bytes) :
    (f.fetchAddressing c (modrm? mode bytes)).Consumes w
      (prefixLength mode bytes + opcodeLength mode bytes + (modrmBytes mode bytes).length)
      (Described mode bytes f) := by
  by_cases h : NamesMemory mode bytes f
  · rw [modrmBytes, if_pos h.1]
    exact consumes_fetchAddressing_of_namesMemory h hc hw
  · by_cases hm : hasModRM mode bytes
    · have hr := isRegister_understood hm h
      rw [modrm?_of_hasModRM hm]
      show (Disasm.fetchAddressing c (f.understood (modrm mode bytes))).Consumes _ _ _
      unfold Disasm.fetchAddressing
      rw [if_pos hr]
      refine consumes_pure (described_of_not_namesMemory h ?_)
      rintro m ⟨⟩
      exact hr
    · rw [modrm?, if_neg hm]
      refine consumes_pure (described_of_not_namesMemory h ?_)
      rintro m ⟨⟩

end Encoding

/-! ## Records -/

namespace OperandSpec

variable {s : OperandSpec} {operation : DataSize} {address : AddressSize} {place : Option Int}

/-- Only the displacement of a place in memory matters. -/
theorem Holds.congr_memory {m m' : Memory} (h : s.Holds operation address place (.memory m))
    (hd : m'.displacement = m.displacement) : s.Holds operation address place (.memory m') := by
  cases h with
  | memory hs hp => exact .memory hs (hd ▸ hp)
  | offset hs hf hv => exact .offset hs hf (hd ▸ hv)

theorem encode_widenOperands (mn : Mnemonic) (specs : List OperandSpec) (os : List Operand) :
    List.zipWith (fun s o => s.encode operation address o) specs (widenOperands mn os) =
      List.zipWith (fun s o => s.encode operation address o) specs os := by
  unfold widenOperands
  split
  · split_ifs
    · cases specs <;> rfl
    · rfl
  · rfl

theorem holds_widenOperands (mn : Mnemonic) {specs : List OperandSpec} {os : List Operand}
    (h : List.Forall₂ (fun s o => s.Holds operation address place o) specs os) :
    List.Forall₂ (fun s o => s.Holds operation address place o) specs (widenOperands mn os) := by
  unfold widenOperands
  split
  · split_ifs
    · cases h with
      | cons hs hrest => exact .cons (hs.congr_memory rfl) hrest
    · exact h
  · exact h

end OperandSpec

namespace Encoding

variable {mode : Mode} {w bytes : List UInt8}

/-- What is read behind an opcode, and the bytes that say it. -/
structure Describes (mode : Mode) (bytes : List UInt8) (f : Form) (place : Option Int)
    (t : List UInt8) (d : Decoded) : Prop where
  recordForm?_eq : recordForm? mode bytes = some f
  operationSize_eq : d.operationSize = operationSize mode bytes f
  addressSize_eq : d.addressSize = addressSize mode bytes
  isSome_iff : place.isSome ↔ NamesMemory mode bytes f
  fits : (displacementField mode bytes f).Fits (place.getD 0)
  holds : List.Forall₂ (fun s o => s.Holds d.operationSize d.addressSize place o) f.operands
    d.operands
  bytes_eq : t = modrmBytes mode bytes ++ (sibBytes mode bytes f ++
    (displacementField mode bytes f).encode (place.getD 0) ++
    (List.zipWith (fun s o => s.encode d.operationSize d.addressSize o) f.operands
      d.operands).flatten)

theorem consumes_fetchOperation (hw : w <+: bytes) :
    (fetchOperation mode (prefixes mode bytes) (opcode mode bytes)).Consumes w
      (prefixLength mode bytes + opcodeLength mode bytes) fun t d =>
        ∃ f place, Describes mode bytes f place t d := by
  refine (consumes_fetchModRM hw).bind ?_
  rintro t m ⟨rfl, rfl⟩
  show (ofOption (form? mode bytes) >>= _).Consumes w _ _
  refine (consumes_ofOption (form? mode bytes)).bind ?_
  rintro t found ⟨rfl, hform⟩
  have hrecord : recordForm? mode bytes =
      some ((opcode mode bytes).rename (prefixes mode bytes) found) := by
    rw [recordForm?, hform, Option.map_some]
  dsimp only
  generalize (opcode mode bytes).rename (prefixes mode bytes) found = f at hrecord
  refine (consumes_fetchAddressing f (c := .ofForm mode (prefixes mode bytes)
    (opcode mode bytes) f) (addressSize_ofForm mode bytes f) hw).bind ?_
  rintro t a ⟨place, ha, hplace, rfl, hfits⟩
  refine (consumes_fetchOperands ha f.operands).map ?_
  rintro t os ⟨rfl, hos⟩
  refine ⟨f, place, ?_⟩
  exact {
    recordForm?_eq := hrecord
    operationSize_eq := operationSize_ofForm mode bytes f
    addressSize_eq := addressSize_ofForm mode bytes f
    isSome_iff := hplace
    fits := hfits
    holds := OperandSpec.holds_widenOperands _ hos
    bytes_eq := by
      rw [List.nil_append, OperandSpec.encode_widenOperands] }

theorem consumes_fetchDecoded (hw : w <+: bytes) :
    (fetchDecoded mode (prefixes mode bytes)).Consumes w (prefixLength mode bytes) fun t d =>
      ∃ f place t', Describes mode bytes f place t' d ∧
        t = (opcode mode bytes).bytes ++ t' := by
  refine (consumes_fetch hw).bind ?_
  rintro t o ⟨rfl, rfl⟩
  rw [Opcode.length_bytes]
  refine (consumes_fetchOperation hw).mono ?_
  rintro t d ⟨f, place, hd⟩
  exact ⟨f, place, t, hd, rfl⟩

theorem mem_recordForms_of_recordForm? {f : Form} (h : recordForm? mode bytes = some f) :
    f ∈ OpcodeMap.recordForms := by
  obtain ⟨found, hfound, rfl⟩ := Option.map_eq_some_iff.1 h
  exact Opcode.rename_mem_recordForms _ _ (OpcodeMap.mem_forms_of_lookup hfound)

theorem take_prefixLength (mode : Mode) (bytes : List UInt8) :
    (window bytes).take (prefixLength mode bytes) = Prefixes.run mode bytes := by
  have hrun : Prefixes.run mode (window bytes) <+: window bytes :=
    (List.takeWhile_prefix _).trans (List.take_prefix _ _)
  rw [run_window] at hrun
  exact (List.prefix_iff_eq_take.1 hrun).symm

end Encoding

theorem Instruction.ofDecoded_eq {address : UInt64} {mode : Mode} {bytes : List UInt8} {d : Decoded}
    (h : d.operands.length ≤ maxOperands) :
    ofDecoded address mode bytes (some d) =
      { address, mode, bytes := bytes.take maxLength, mnemonic := d.mnemonic,
        prefixes := d.prefixes, operationSize := d.operationSize, addressSize := d.addressSize,
        operands := d.operands } := by
  rw [ofDecoded, foldl_push (by simpa [ofBytes] using h)]
  rfl

/-- What a valid record holds was read behind its prefixes, and its bytes are those that say it. -/
theorem exists_describes {mode : Mode} {address : UInt64} {bytes : List UInt8}
    (h : (decode mode address bytes).isValid) :
    ∃ d f place t,
      (fetchDecoded mode (Encoding.prefixes mode bytes)
        ⟨window bytes, Encoding.prefixLength mode bytes⟩).1 = some d ∧
      Encoding.Describes mode bytes f place t d ∧
      decode mode address bytes =
        { address, mode,
          bytes := Prefixes.run mode bytes ++ ((Encoding.opcode mode bytes).bytes ++ t),
          mnemonic := d.mnemonic, prefixes := d.prefixes, operationSize := d.operationSize,
          addressSize := d.addressSize, operands := d.operands } := by
  rw [decode_eq] at h ⊢
  cases hd : fetchDecoded mode (Encoding.prefixes mode bytes)
    ⟨window bytes, Encoding.prefixLength mode bytes⟩ with
  | mk v r =>
    rw [hd] at h
    cases v with
    | none => exact absurd rfl (Instruction.ofDecoded_ne_none h)
    | some d =>
      obtain ⟨_, hprefix, rfl, f, place, t, hdescribes, rfl⟩ :=
        Encoding.consumes_fetchDecoded (window_isPrefix bytes) d r hd
      refine ⟨d, f, place, t, rfl, hdescribes, ?_⟩
      have hlen : d.operands.length ≤ Instruction.maxOperands := by
        rw [← hdescribes.holds.length_eq]
        exact OpcodeMap.length_operands_le f
          (Encoding.mem_recordForms_of_recordForm? hdescribes.recordForm?_eq)
      have hpos : 1 ≤ ((Encoding.opcode mode bytes).bytes ++ t).length := by
        rw [List.length_append, Opcode.length_bytes]
        unfold Encoding.opcodeLength
        split_ifs <;> omega
      have hbytes : ((window bytes).take (max 1 (Encoding.prefixLength mode bytes +
          ((Encoding.opcode mode bytes).bytes ++ t).length))).take Instruction.maxLength =
            Prefixes.run mode bytes ++ ((Encoding.opcode mode bytes).bytes ++ t) := by
        rw [List.take_of_length_le ((List.length_take_le' _ _).trans (length_window_le bytes)),
          Nat.max_eq_right (by omega), List.take_add, Encoding.take_prefixLength,
          ← List.prefix_iff_eq_take.1 hprefix]
      dsimp only
      rw [Instruction.ofDecoded_eq hlen, hbytes]

/-! ## Places in memory -/

namespace AddressingMethod

/-- Whether the operand has to be a register that ModRM.rm names. -/
def refusesMemory : AddressingMethod → Bool
  | N | U | X87 => true
  | _ => false

end AddressingMethod

/-- Whether a place in memory that ModRM names is an operand of the form, or else it is refused, or
not looked for. -/
def Form.settlesMemory (f : Form) : Bool :=
  f.operands.any (·.method.takesMemory) || f.registerOnly ||
    f.operands.any (·.method.refusesMemory)

namespace Entry

/-- The forms that a ModRM byte can lead to which names a place in memory. -/
def memoryForms (s : Selector) : Entry → List Form
  | undefined => []
  | form f => [f]
  | bySelector a b c d =>
    match s with
    | .none => a.memoryForms s
    | .operandSize => b.memoryForms s
    | .rep => c.memoryForms s
    | .repne => d.memoryForms s
  | byMode legacy long => legacy.memoryForms s ++ long.memoryForms s
  | byMod memory _ => memory.memoryForms s
  | byReg r0 r1 r2 r3 r4 r5 r6 r7 =>
    r0.memoryForms s ++ r1.memoryForms s ++ r2.memoryForms s ++ r3.memoryForms s ++
      r4.memoryForms s ++ r5.memoryForms s ++ r6.memoryForms s ++ r7.memoryForms s
  | byRM r0 r1 r2 r3 r4 r5 r6 r7 =>
    r0.memoryForms s ++ r1.memoryForms s ++ r2.memoryForms s ++ r3.memoryForms s ++
      r4.memoryForms s ++ r5.memoryForms s ++ r6.memoryForms s ++ r7.memoryForms s

theorem mem_memoryForms_of_resolve {s : Selector} {mode : Mode} {m : ModRM} {e : Entry} {f : Form}
    (h : e.resolve s mode m = some f) (hm : m.isRegister = false) : f ∈ e.memoryForms s := by
  induction e with
  | undefined => cases h
  | form g =>
    cases h
    simp [memoryForms]
  | bySelector a b c d iha ihb ihc ihd =>
    cases s with
    | none => exact iha h
    | operandSize => exact ihb h
    | rep => exact ihc h
    | repne => exact ihd h
  | byMode legacy long ihl ihr =>
    simp only [resolve] at h
    split at h <;> simp [memoryForms, ihl, ihr, h]
  | byMod memory register ihm ihr =>
    rw [resolve, hm, if_neg Bool.false_ne_true] at h
    exact ihm h
  | byReg r0 r1 r2 r3 r4 r5 r6 r7 h0 h1 h2 h3 h4 h5 h6 h7 =>
    simp only [resolve, pick] at h
    split at h <;> simp [memoryForms, h0, h1, h2, h3, h4, h5, h6, h7, h]
  | byRM r0 r1 r2 r3 r4 r5 r6 r7 h0 h1 h2 h3 h4 h5 h6 h7 =>
    simp only [resolve, pick] at h
    split at h <;> simp [memoryForms, h0, h1, h2, h3, h4, h5, h6, h7, h]

end Entry

namespace OpcodeMap

theorem settlesMemory_of_mem_entries : ∀ e ∈ entries,
    ∀ s ∈ [Selector.none, .operandSize, .rep, .repne], e.hasModRM s →
      ∀ f ∈ e.memoryForms s, f.settlesMemory = true := by
  decide +kernel

theorem hasModRM_of_mem_x87Map : ∀ e ∈ x87Map,
    ∀ s ∈ [Selector.none, .operandSize, .rep, .repne], e.hasModRM s = true := by
  decide +kernel

theorem mem_selectors (s : Selector) : s ∈ [Selector.none, .operandSize, .rep, .repne] := by
  cases s <;> decide

section

variable {s : Selector} {mode : Mode} {m : ModRM} {f : Form}

/-- If ModRM follows an opcode with a form, then the opcode's place asks for it. -/
theorem entry_hasModRM_of_resolve {escape : Escape} {opcode : UInt8}
    (h : (entry escape opcode).resolve s mode m = some f) (hm : hasModRM escape opcode s) :
    (entry escape opcode).hasModRM s := by
  by_cases hx : escape = .x87
  · subst hx
    exact hasModRM_of_mem_x87Map _ (entry_mem_of_resolve h) s (mem_selectors s)
  · simpa [hasModRM, hx] using hm

theorem settlesMemory_of_lookup {escape : Escape} {opcode : UInt8}
    (h : lookup escape opcode m s mode = some f) (hm : hasModRM escape opcode s)
    (hmem : m.isRegister = false) : f.settlesMemory := by
  have hleaf := resolve_of_lookup h
  have hentry := mem_entries_of_mem_entriesOf (entry_mem_of_resolve hleaf)
  exact settlesMemory_of_mem_entries _ hentry s (mem_selectors s)
    (entry_hasModRM_of_resolve hleaf hm) f (Entry.mem_memoryForms_of_resolve hleaf hmem)

end

end OpcodeMap

namespace Encoding

/-- A place in memory that ModRM names is an operand of a valid record. -/
theorem takesMemory_of_namesMemory {mode : Mode} {address : UInt64} {bytes : List UInt8} {f : Form}
    (h : (decode mode address bytes).isValid) (hf : recordForm? mode bytes = some f)
    (hmem : NamesMemory mode bytes f) : f.operands.any (·.method.takesMemory) := by
  obtain ⟨hm, hmod, hr⟩ := hmem
  obtain ⟨found, hfound, rfl⟩ := Option.map_eq_some_iff.1 hf
  rcases (opcode mode bytes).rename_eq_or (prefixes mode bytes) found with heq | ⟨ho, -⟩
  · rw [heq] at hr ⊢
    have hnot : (modrm mode bytes).isRegister = false := by
      rw [ModRM.isRegister_eq, decide_eq_false_iff_not]
      exact hmod
    have hsettles := OpcodeMap.settlesMemory_of_lookup hfound hm hnot
    obtain ⟨hadmits, -⟩ := admits_of_isValid hfound h
    rw [Form.settlesMemory, hr, Bool.or_false, Bool.or_eq_true] at hsettles
    rcases hsettles with htakes | hrefuses
    · exact htakes
    · obtain ⟨s, hs, hrefuses⟩ := List.any_eq_true.1 hrefuses
      have hadmit := hadmits s hs
      unfold OperandSpec.Admits at hadmit
      cases hmethod : s.method with
      | N | U | X87 =>
        rw [hmethod] at hadmit
        exact absurd hadmit hmod
      | _ =>
        rw [hmethod] at hrefuses
        cases hrefuses
  · rw [(form?_xchg mode hfound ho).1] at hm
    cases hm

end Encoding

open Encoding

/-- **The fields of a record are the tail of its bytes.** The bytes of a valid record are the
prefixes, the opcode with its escape bytes, ModRM and SIB, and then the fields that the record's
values have at the widths of its form: the displacement of the place in memory that ModRM names,
and each operand's own fields in the order of the operands. Each value is the extension of its
field. Where there is no field of a displacement, the displacement is 0. A place in memory that
ModRM names is an operand of the record. -/
theorem decodeAt_bytes_eq_fields {buffer : List UInt8} {cursor : Nat}
    (h : cursor < buffer.length) (address : UInt64) (mode : Mode) :
    ∃ r, decodeAt buffer cursor address mode = .ok r ∧
      (r.isValid → ∃ (f : Form) (place : Option Int),
        let bytes := buffer.drop cursor
        let displacement := displacementField mode bytes f
        recordForm? mode bytes = some f ∧
        r.operationSize = operationSize mode bytes f ∧ r.addressSize = addressSize mode bytes ∧
        r.bytes = header mode bytes f ++ displacement.encode (place.getD 0) ++
          (List.zipWith (fun s o => s.encode r.operationSize r.addressSize o) f.operands
            r.operands).flatten ∧
        displacement.Fits (place.getD 0) ∧ (displacement.width = 0 → place.getD 0 = 0) ∧
        List.Forall₂ (fun s o => s.Holds r.operationSize r.addressSize place o) f.operands
          r.operands ∧
        (place.isSome ↔ NamesMemory mode bytes f) ∧
        (place.isSome → f.operands.any (·.method.takesMemory))) := by
  refine ⟨_, decodeAt_of_lt h address mode, fun hvalid => ?_⟩
  obtain ⟨d, f, place, t, -, hd, hrecord⟩ := exists_describes hvalid
  have htakes : place.isSome → f.operands.any (·.method.takesMemory) := fun hplace =>
    takesMemory_of_namesMemory hvalid hd.recordForm?_eq (hd.isSome_iff.1 hplace)
  refine ⟨f, place, ?_⟩
  dsimp only
  rw [hrecord]
  refine ⟨hd.recordForm?_eq, hd.operationSize_eq, hd.addressSize_eq, ?_, hd.fits,
    fun hw => hd.fits.eq_zero hw, hd.holds, hd.isSome_iff, htakes⟩
  rw [hd.bytes_eq, header]
  simp only [List.append_assoc]

/-- A move behind another instruction, with REX, a SIB byte, a displacement of one byte and a
constant of four bytes, both negative. -/
theorem decodeAt_bytes_eq_fields_mov :
    1 < ([0xcc, 0x48, 0xc7, 0x44, 0x24, 0xf8, 0xfe, 0xff, 0xff, 0xff] : List UInt8).length ∧
      ∃ (r : Instruction) (place : Option Int),
        decodeAt [0xcc, 0x48, 0xc7, 0x44, 0x24, 0xf8, 0xfe, 0xff, 0xff, 0xff] 1 0x1000 .m64 =
          .ok r ∧ r.isValid ∧ place.isSome ∧
        r.bytes = [0x48, 0xc7, 0x44, 0x24] ++ ValueField.encode ⟨1, true⟩ (place.getD 0) ++
          (List.zipWith (fun s o => OperandSpec.encode s .qword .a64 o) [.Ev, .Iz]
            r.operands).flatten ∧
        ValueField.Fits ⟨1, true⟩ (place.getD 0) ∧
        List.Forall₂ (fun s o => OperandSpec.Holds s .qword .a64 place o) [.Ev, .Iz]
          r.operands := by
  have hlt : 1 < ([0xcc, 0x48, 0xc7, 0x44, 0x24, 0xf8, 0xfe, 0xff, 0xff, 0xff] :
      List UInt8).length := by decide
  obtain ⟨r, hr, hfields⟩ := decodeAt_bytes_eq_fields hlt 0x1000 .m64
  have hvalid : r.isValid := by
    cases hr.symm.trans (decodeAt_of_lt hlt 0x1000 .m64)
    decide +kernel
  obtain ⟨f, place, hf, hsize, haddress, hbytes, hfits, -, hholds, hplace, -⟩ := hfields hvalid
  have hform : recordForm? .m64 ([0xcc, 0x48, 0xc7, 0x44, 0x24, 0xf8, 0xfe, 0xff, 0xff, 0xff].drop
      1) = some ⟨.MOV, [.Ev, .Iz], {}⟩ := by decide +kernel
  cases hf.symm.trans hform
  have hq : r.operationSize = .qword := hsize.trans (by decide +kernel)
  have ha : r.addressSize = .a64 := haddress.trans (by decide +kernel)
  have hheader : header .m64 ([0xcc, 0x48, 0xc7, 0x44, 0x24, 0xf8, 0xfe, 0xff, 0xff, 0xff].drop 1)
      ⟨.MOV, [.Ev, .Iz], {}⟩ = [0x48, 0xc7, 0x44, 0x24] := by decide +kernel
  have hfield : displacementField .m64 ([0xcc, 0x48, 0xc7, 0x44, 0x24, 0xf8, 0xfe, 0xff, 0xff,
      0xff].drop 1) ⟨.MOV, [.Ev, .Iz], {}⟩ = ⟨1, true⟩ := by decide +kernel
  rw [hq, ha] at hbytes hholds
  rw [hheader, hfield] at hbytes
  rw [hfield] at hfits
  exact ⟨hlt, r, place, hr, hvalid, hplace.2 (by decide +kernel), hbytes, hfits, hholds⟩

end Disasm
