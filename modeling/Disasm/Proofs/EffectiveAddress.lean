import Disasm.Proofs.LittleEndian
import Disasm.Proofs.Locality

/-!
# Effective addresses

The processor adds up an address from registers and a displacement. Which registers these are and
how wide the displacement is stands in the tables for ModRM and SIB, which this module writes down
as sums over the bytes' fields (`EffectiveAddress.registers`, `displacementLength`).

**Theorem (`describe_locates`).** A ModRM byte that names memory is understood if and only if the
SIB byte and the displacement that the tables ask for are all there. Then exactly these are
consumed, and whatever is in the registers, the place in memory has the address of the tables,
modulo the address size.

The tables count in the fields of two bytes, the decoder in forms of address: that a form stands
for the same sum and asks for the same displacement is shown case by case along the decoder's tables
(`follows_ofModRM`). What is read is then known from the widths (`fetchMemory_of_le`).
-/

namespace Disasm

/-! ## The tables -/

namespace EffectiveAddress

def mod (modrm : UInt8) : Nat := modrm.toNat / 64

def rm (modrm : UInt8) : Nat := modrm.toNat % 8

def scale (sib : UInt8) : Nat := sib.toNat / 64

def index (sib : UInt8) : Nat := sib.toNat / 8 % 8

def base (sib : UInt8) : Nat := sib.toNat % 8

/-- A SIB byte follows ModRM.rm 4, but not in 16-bit addressing. -/
def HasSIB (size : AddressSize) (modrm : UInt8) : Prop := size ≠ .a16 ∧ rm modrm = 4

instance (size : AddressSize) (modrm : UInt8) : Decidable (HasSIB size modrm) :=
  inferInstanceAs (Decidable (_ ∧ _))

def sibLength (size : AddressSize) (modrm : UInt8) : Nat := if HasSIB size modrm then 1 else 0

/-- The bytes of the displacement. With ModRM.mod 0 there is one only where it stands alone. -/
def displacementLength (size : AddressSize) (modrm sib : UInt8) : Nat :=
  if mod modrm = 0 then
    if size = .a16 then if rm modrm = 6 then 2 else 0
    else if rm modrm = 5 ∨ rm modrm = 4 ∧ base sib = 5 then 4 else 0
  else if mod modrm = 1 then 1
  else if size = .a16 then 2
  else 4

/-- The bytes after ModRM that the tables ask for, where these bytes follow it. -/
def length (size : AddressSize) (modrm : UInt8) (rest : List UInt8) : Nat :=
  sibLength size modrm + displacementLength size modrm (rest.headD 0)

/-- A number in two's complement, lowest byte first. -/
def signed (bytes : List UInt8) : Int :=
  if 2 * byteValue bytes < 256 ^ bytes.length then byteValue bytes
  else byteValue bytes - 256 ^ bytes.length

/-- The displacement in the bytes that follow ModRM; 0 where there is none. -/
def displacement (size : AddressSize) (modrm : UInt8) (rest : List UInt8) : Int :=
  signed ((rest.drop (sibLength size modrm)).take (displacementLength size modrm (rest.headD 0)))

/-- 16-bit addressing: the registers for each ModRM.rm. -/
def registers16 : List (List Register) :=
  [[.bx, .si], [.bx, .di], [.bp, .si], [.bp, .di], [.si], [.di], [.bp], [.bx]]

variable (c : OperandContext) (modrm sib : UInt8) (value : Register → Int) (next : Int)

/-- The register of a field and a fourth bit from REX, as wide as an address. -/
def register (high : Bool) (field : Nat) : Register :=
  if c.addressSize = .a64 then .qword (low4 ((if high then 8 else 0) + field))
  else .dword (low4 ((if high then 8 else 0) + field))

/-- The sum of the registers. Where a displacement stands alone in 64-bit mode, it is counted from
the next instruction. -/
def registers : Int :=
  if c.addressSize = .a16 then
    if mod modrm = 0 ∧ rm modrm = 6 then 0
    else ((registers16.getD (rm modrm) []).map value).sum
  else if rm modrm = 4 then
    (if base sib = 5 ∧ mod modrm = 0 then 0
      else value (register c c.prefixes.rex.b (base sib))) +
    (if index sib = 4 ∧ c.prefixes.rex.x = false then 0
      else value (register c c.prefixes.rex.x (index sib)) * 2 ^ scale sib)
  else if rm modrm = 5 ∧ mod modrm = 0 then if c.mode = .m64 then next else 0
  else value (register c c.prefixes.rex.b (rm modrm))

/-- The effective address of ModRM, SIB and a displacement. -/
def address (displacement : Int) : Int :=
  (registers c modrm sib value next + displacement) % 2 ^ c.addressSize.bits

end EffectiveAddress

open EffectiveAddress

/-! ## Places in memory -/

/-- The sum that a place in memory stands for. -/
def Memory.sum (m : Memory) (value : Register → Int) (next : Int) : Int :=
  (if m.ripRelative then next else m.base.elim 0 value) + m.index.elim 0 value * m.scale +
    m.displacement

/-- The place in memory is the one that the tables name for ModRM and SIB with a displacement. -/
structure Memory.Locates (m : Memory) (c : OperandContext) (modrm sib : UInt8)
    (displacement : Int) : Prop where
  address : ∀ value next, m.sum value next % 2 ^ c.addressSize.bits =
    EffectiveAddress.address c modrm sib value next displacement
  addressSize : m.addressSize = c.addressSize
  index : HasSIB c.addressSize modrm →
    (m.index = none ↔ EffectiveAddress.index sib = 4 ∧ c.prefixes.rex.x = false)
  base : HasSIB c.addressSize modrm →
    (m.base = none ↔ EffectiveAddress.base sib = 5 ∧ mod modrm = 0)
  ripRelative : m.ripRelative ↔ c.mode = .m64 ∧ mod modrm = 0 ∧ rm modrm = 5
  ip : m.ripRelative → m.base = some (.ip c.addressSize) ∧ m.index = none
  target : ∀ (i : Instruction) (t : UInt64), i.memoryTarget m = some t → ∀ value,
    (t.toNat : Int) =
      EffectiveAddress.address c modrm sib value i.nextAddress.toNat displacement

/-! ## Reading -/

theorem signed_eq_bmod {bytes : List UInt8} (h : bytes ≠ []) :
    signed bytes = Int.bmod (ofLittleEndian bytes) (1 <<< (8 * bytes.length)) := by
  have hpow : 1 <<< (8 * bytes.length) = 256 ^ bytes.length := by
    rw [Nat.one_shiftLeft, Nat.pow_mul]
  have hlt := byteValue_lt bytes
  have heven : 2 ∣ 256 ^ bytes.length :=
    Dvd.dvd.pow (by norm_num) (List.length_pos_iff.2 h).ne'
  rw [hpow, ofLittleEndian_eq_byteValue]
  rw [signed, Int.bmod, Int.emod_eq_of_lt (Int.natCast_nonneg _) (Int.ofNat_lt.2 hlt)]
  have hhalf : ((byteValue bytes : Nat) : Int) < ((256 ^ bytes.length : Nat) + 1) / 2 ↔
      2 * byteValue bytes < 256 ^ bytes.length := by omega
  rw [if_congr hhalf rfl rfl, Nat.cast_pow, Nat.cast_ofNat]

theorem Reader.le_length_rest {r : Reader} {n : Nat} (hn : n ≠ 0) :
    n ≤ r.rest.length ↔ r.position + n ≤ r.window.length := by
  rw [Reader.rest, List.length_drop]
  omega

theorem fetchDisplacement_apply (n : Nat) (r : Reader) :
    fetchDisplacement n r =
      if n ≤ r.rest.length then (some (signed (r.rest.take n)), r.advance n) else (none, r) := by
  unfold fetchDisplacement
  by_cases hn : n = 0
  · subst hn
    rfl
  · rw [if_neg hn, Fetch.signed_eq_field]
    by_cases hle : n ≤ r.rest.length
    · have hlength : (r.rest.take n).length = n := List.length_take_of_le hle
      have hne : r.rest.take n ≠ [] := List.ne_nil_of_length_pos (by omega)
      rw [if_pos hle, Fetch.field_of_le ((Reader.le_length_rest hn).1 hle), signed_eq_bmod hne,
        hlength]
      rfl
    · rw [if_neg hle, Fetch.field_of_not_le (mt (Reader.le_length_rest hn).2 hle)]

theorem fetchByte_apply (r : Reader) :
    Fetch.byte r =
      if 1 ≤ r.rest.length then (some (r.rest.headD 0), r.advance 1) else (none, r) := by
  by_cases hle : 1 ≤ r.rest.length
  · have hlt : r.position < r.window.length := (Reader.le_length_rest one_ne_zero).1 hle
    have hhead : r.rest.headD 0 = r.window[r.position] := by
      rw [Reader.rest, List.drop_eq_getElem_cons hlt, List.headD_cons]
    rw [if_pos hle, hhead]
    exact Fetch.byte_of_lt hlt
  · rw [if_neg hle]
    exact Fetch.byte_of_not_lt (mt (Reader.le_length_rest one_ne_zero).2 hle)

/-- The fields of the bytes are those that the tables go by. -/
theorem mod_ofByte (modrm : UInt8) : (ModRM.ofByte modrm).mod.val = mod modrm := by
  have hlt : modrm.toNat < 256 := modrm.toNat_lt
  show modrm.toNat / 64 % 4 = modrm.toNat / 64
  omega

theorem rm_ofByte (modrm : UInt8) : (ModRM.ofByte modrm).rm.val = rm modrm := rfl

theorem scale_ofByte (sib : UInt8) : (SIB.ofByte sib).scale.val = scale sib := by
  have hlt : sib.toNat < 256 := sib.toNat_lt
  show sib.toNat / 64 % 4 = sib.toNat / 64
  omega

theorem index_ofByte (sib : UInt8) : (SIB.ofByte sib).index.val = index sib := rfl

theorem base_ofByte (sib : UInt8) : (SIB.ofByte sib).base.val = base sib := rfl

theorem isRegister_ofByte (modrm : UInt8) : (ModRM.ofByte modrm).isRegister ↔ mod modrm = 3 := by
  rw [ModRM.isRegister, decide_eq_true_eq, ← mod_ofByte, Fin.ext_iff]
  rfl

variable {c : OperandContext} {modrm : UInt8}

theorem hasSIB_ofByte (hmod : mod modrm ≠ 3) :
    c.hasSIB (.ofByte modrm) = decide (HasSIB c.addressSize modrm) := by
  have hr : (ModRM.ofByte modrm).isRegister = false :=
    Bool.eq_false_iff.2 (mt (isRegister_ofByte modrm).1 hmod)
  rw [OperandContext.hasSIB, hr, rm_ofByte, Bool.eq_iff_iff, decide_eq_true_iff,
    decide_eq_true_iff]
  simp [HasSIB]

/-- The SIB byte, if there is one. -/
def sib? (size : AddressSize) (modrm sib : UInt8) : Option SIB :=
  if HasSIB size modrm then some (.ofByte sib) else none

theorem fetchSIB_apply (hmod : mod modrm ≠ 3) (r : Reader) :
    fetchSIB c (.ofByte modrm) r =
      if sibLength c.addressSize modrm ≤ r.rest.length then
        (some (sib? c.addressSize modrm (r.rest.headD 0)),
          r.advance (sibLength c.addressSize modrm))
      else (none, r) := by
  unfold fetchSIB sibLength sib?
  rw [hasSIB_ofByte hmod]
  by_cases h : HasSIB c.addressSize modrm
  · rw [if_pos (decide_eq_true h), if_pos h, if_pos h, Fetch.bind_apply, fetchByte_apply]
    split_ifs <;> rfl
  · rw [if_neg (by simpa using h), if_neg h, if_neg h]
    rfl

/-! ## The sum -/

/-- A form of address is the one that the tables name for ModRM and SIB. -/
structure AddressForm.Follows (f : AddressForm) (c : OperandContext) (modrm sib : UInt8) :
    Prop where
  width : f.displacementWidth = displacementLength c.addressSize modrm sib
  sum : ∀ value next, (if f.ripRelative then next else f.base.elim 0 value) +
    f.index.elim 0 value * f.scale = registers c modrm sib value next
  index : HasSIB c.addressSize modrm →
    (f.index = none ↔ EffectiveAddress.index sib = 4 ∧ c.prefixes.rex.x = false)
  base : HasSIB c.addressSize modrm →
    (f.base = none ↔ EffectiveAddress.base sib = 5 ∧ mod modrm = 0)
  ripRelative : f.ripRelative ↔
    c.addressSize ≠ .a16 ∧ c.mode = .m64 ∧ mod modrm = 0 ∧ rm modrm = 5
  ip : f.ripRelative → f.base = some (.ip c.addressSize) ∧ f.index = none

/-- Without a SIB byte nothing is to be said of its fields. -/
theorem AddressForm.Follows.of_not_hasSIB {f : AddressForm} {sib : UInt8}
    (hno : ¬ HasSIB c.addressSize modrm)
    (hwidth : f.displacementWidth = displacementLength c.addressSize modrm sib)
    (hsum : ∀ value next, (if f.ripRelative then next else f.base.elim 0 value) +
      f.index.elim 0 value * f.scale = registers c modrm sib value next)
    (hrip : f.ripRelative ↔ c.addressSize ≠ .a16 ∧ c.mode = .m64 ∧ mod modrm = 0 ∧ rm modrm = 5)
    (hip : f.ripRelative → f.base = some (.ip c.addressSize) ∧ f.index = none) :
    f.Follows c modrm sib :=
  ⟨hwidth, hsum, fun h => absurd h hno, fun h => absurd h hno, hrip, hip⟩

theorem sum_registers16 (n : Fin 8) (value : Register → Int) :
    (AddressForm.registers16 n).1.elim 0 value + (AddressForm.registers16 n).2.elim 0 value =
      ((registers16.getD n []).map value).sum := by
  fin_cases n <;> simp [AddressForm.registers16, Entry.pick, registers16]

theorem addressRegister_extend (c : OperandContext) (high : Bool) (n : Fin 8) :
    c.addressRegister (extend high n) = some (register c high n) := by
  have hextend : extend high n = low4 ((if high then 8 else 0) + n) := by
    cases high <;> fin_cases n <;> rfl
  rw [OperandContext.addressRegister, register, hextend]
  split_ifs <;> rfl

theorem width32_ofByte (hmod : mod modrm ≠ 3) (sib : UInt8) (hsize : c.addressSize ≠ .a16)
    (h : ¬ (mod modrm = 0 ∧ (rm modrm = 5 ∨ rm modrm = 4 ∧ base sib = 5))) :
    AddressForm.width32 (.ofByte modrm) = displacementLength c.addressSize modrm sib := by
  have hlt : mod modrm < 4 := Nat.div_lt_of_lt_mul modrm.toNat_lt
  rw [AddressForm.width32, mod_ofByte, displacementLength, if_neg hsize, if_neg hsize]
  split_ifs <;> first | rfl | omega

theorem follows_ofModRM16 (hmod : mod modrm ≠ 3) (sib : UInt8) (hsize : c.addressSize = .a16) :
    (AddressForm.ofModRM16 (.ofByte modrm)).Follows c modrm sib := by
  have hno : ¬ HasSIB c.addressSize modrm := fun h => h.1 hsize
  have hlt : mod modrm < 4 := Nat.div_lt_of_lt_mul modrm.toNat_lt
  unfold AddressForm.ofModRM16
  rw [mod_ofByte, rm_ofByte]
  by_cases hbare : mod modrm = 0 ∧ rm modrm = 6
  · rw [if_pos hbare]
    refine .of_not_hasSIB hno ?_ (fun value next => ?_) ?_ ?_
    · simp [displacementLength, hbare, hsize]
    · simp [registers, hbare, hsize]
    · simp [hsize]
    · simp
  · rw [if_neg hbare]
    refine .of_not_hasSIB hno ?_ (fun value next => ?_) ?_ ?_
    · rw [displacementLength, if_pos hsize, if_pos hsize]
      dsimp only
      split_ifs <;> first | rfl | omega
    · rw [registers, if_pos hsize, if_neg hbare, ← rm_ofByte, ← sum_registers16]
      simp
    · simp [hsize]
    · simp

theorem extend_val_eq_four (high : Bool) (n : Fin 8) :
    (extend high n).val = 4 ↔ n.val = 4 ∧ high = false := by
  cases high
  · simp [extend]
  · have := n.isLt
    simp only [extend, if_true, Bool.true_eq_false, and_false, iff_false]
    omega

theorem follows_ofSIB (hmod : mod modrm ≠ 3) (sib : UInt8) (h : HasSIB c.addressSize modrm) :
    (AddressForm.ofSIB c (.ofByte modrm) (.ofByte sib)).Follows c modrm sib := by
  obtain ⟨hsize, hrm⟩ := h
  unfold AddressForm.ofSIB
  dsimp only
  simp only [extend_val_eq_four, mod_ofByte, base_ofByte, index_ofByte, scale_ofByte,
    addressRegister_extend]
  refine ⟨?_, fun value next => ?_, fun _ => ?_, fun _ => ?_, ?_, ?_⟩
  · by_cases hbare : base sib = 5 ∧ mod modrm = 0
    · simp [displacementLength, hbare, hsize, hrm]
    · exact (if_neg hbare).trans (width32_ofByte hmod sib hsize (by omega))
  · rw [registers, if_neg hsize, if_pos hrm, if_neg Bool.false_ne_true]
    congr 1
    · split_ifs <;> rfl
    · split_ifs <;> simp [Nat.one_shiftLeft]
  · simp
  · simp
  · simp [hrm]
  · simp

theorem follows_ofModRM32 (hmod : mod modrm ≠ 3) (sib : UInt8) (hsize : c.addressSize ≠ .a16)
    (hrm : rm modrm ≠ 4) :
    (AddressForm.ofModRM32 c (.ofByte modrm)).Follows c modrm sib := by
  have hno : ¬ HasSIB c.addressSize modrm := fun h => hrm h.2
  unfold AddressForm.ofModRM32
  rw [mod_ofByte, addressRegister_extend, rm_ofByte]
  by_cases hbare : rm modrm = 5 ∧ mod modrm = 0
  · rw [if_pos hbare]
    by_cases hmode : c.mode = .m64
    · rw [if_pos hmode]
      refine .of_not_hasSIB hno ?_ (fun value next => ?_) ?_ ?_
      · simp [displacementLength, hbare, hsize]
      · simp [registers, hbare, hsize, hmode]
      · simp [hsize, hbare, hmode]
      · simp
    · rw [if_neg hmode]
      refine .of_not_hasSIB hno ?_ (fun value next => ?_) ?_ ?_
      · simp [displacementLength, hbare, hsize]
      · simp [registers, hbare, hsize, hmode]
      · simp [hmode]
      · simp
  · rw [if_neg hbare]
    refine .of_not_hasSIB hno ?_ (fun value next => ?_) ?_ ?_
    · exact width32_ofByte hmod sib hsize (by omega)
    · simp [registers, hbare, hsize, hrm]
    · simpa [hsize] using fun _ hzero hfive => hbare ⟨hfive, hzero⟩
    · simp

theorem follows_ofModRM (hmod : mod modrm ≠ 3) (sib : UInt8) :
    (AddressForm.ofModRM c (.ofByte modrm) (sib? c.addressSize modrm sib)).Follows c modrm sib := by
  unfold AddressForm.ofModRM sib?
  by_cases hsize : c.addressSize = .a16
  · rw [if_pos hsize]
    exact follows_ofModRM16 hmod sib hsize
  · rw [if_neg hsize]
    by_cases h : HasSIB c.addressSize modrm
    · rw [if_pos h]
      exact follows_ofSIB hmod sib h
    · rw [if_neg h]
      exact follows_ofModRM32 hmod sib hsize fun hrm => h ⟨hsize, hrm⟩

theorem toNat_ofInt (n : Int) : ((UInt64.ofInt n).toNat : Int) = n % 2 ^ 64 := by
  have hnonneg : 0 ≤ n % 2 ^ 64 := Int.emod_nonneg n (by decide)
  have hlt : n % 2 ^ 64 < 2 ^ 64 := Int.emod_lt_of_pos n (by decide)
  rw [UInt64.ofInt, UInt64.toNat_ofNat_of_lt' ((Int.toNat_lt hnonneg).2 hlt),
    Int.toNat_of_nonneg hnonneg]

/-- Cutting a 64-bit number down to an address is a remainder. -/
theorem AddressSize.toNat_truncate (size : AddressSize) {v : UInt64} {n : Int}
    (hv : (v.toNat : Int) = n % 2 ^ 64) :
    ((size.dataSize.truncate v).toNat : Int) = n % 2 ^ size.bits := by
  rw [DataSize.truncate_toNat, Int.natCast_mod, hv]
  cases size
  · exact Int.emod_emod_of_dvd n (by decide)
  · exact Int.emod_emod_of_dvd n (by decide)
  · exact Int.emod_emod_of_dvd n (by decide)

/-- A target is the sum that the place in memory stands for, cut down to the address size. -/
theorem Instruction.memoryTarget_toNat {i : Instruction} {m : Memory} {t : UInt64}
    (hindex : m.ripRelative → m.index = none) (h : i.memoryTarget m = some t)
    (value : Register → Int) :
    (t.toNat : Int) = m.sum value i.nextAddress.toNat % 2 ^ m.addressSize.bits := by
  unfold Instruction.memoryTarget at h
  split_ifs at h with hrip hbare
  · cases h
    rw [Memory.sum, if_pos hrip, hindex hrip]
    refine AddressSize.toNat_truncate _ ?_
    rw [UInt64.toNat_add, Int.natCast_mod, Nat.cast_add, toNat_ofInt]
    simp
  · cases h
    rw [Memory.sum, if_neg hrip, hbare.1, hbare.2]
    refine AddressSize.toNat_truncate _ ?_
    rw [toNat_ofInt]
    simp

theorem locates_toMemory {f : AddressForm} {sib : UInt8} (hf : f.Follows c modrm sib)
    {override : Bool} (hsize : c.addressSize = c.mode.addressSize override) (displacement : Int) :
    (f.toMemory c displacement).Locates c modrm sib displacement := by
  have haddress (value : Register → Int) (next : Int) :
      (f.toMemory c displacement).sum value next % 2 ^ c.addressSize.bits =
        EffectiveAddress.address c modrm sib value next displacement := by
    rw [EffectiveAddress.address, ← hf.sum]
    rfl
  have hlong (h : c.mode = .m64) : c.addressSize ≠ .a16 := by
    rw [hsize, h]
    cases override <;> decide
  refine ⟨haddress, rfl, hf.index, hf.base, ?_, hf.ip, fun i t ht value => ?_⟩
  · exact hf.ripRelative.trans ⟨fun h => h.2, fun h => ⟨hlong h.1, h⟩⟩
  · rw [Instruction.memoryTarget_toNat (fun h => (hf.ip h).2) ht value, ← haddress]
    rfl

/-! ## Places in memory that are read -/

theorem rest_advance (r : Reader) (n : Nat) : (r.advance n).rest = r.rest.drop n := by
  rw [Reader.rest, Reader.rest, List.drop_drop]
  rfl

theorem advance_advance (r : Reader) (m n : Nat) :
    (r.advance m).advance n = r.advance (m + n) := by
  simp only [Reader.advance, Nat.add_assoc]

theorem fetchMemory_of_le (hmod : mod modrm ≠ 3) {r : Reader}
    (h : length c.addressSize modrm r.rest ≤ r.rest.length) :
    fetchMemory c (.ofByte modrm) r =
      (some ((AddressForm.ofModRM c (.ofByte modrm)
          (sib? c.addressSize modrm (r.rest.headD 0))).toMemory c
          (displacement c.addressSize modrm r.rest)),
        r.advance (length c.addressSize modrm r.rest)) := by
  unfold length at h
  unfold fetchMemory
  rw [Fetch.bind_apply, fetchSIB_apply hmod, if_pos (by omega)]
  dsimp only
  rw [Fetch.bind_apply, fetchDisplacement_apply, (follows_ofModRM hmod _).width, rest_advance,
    List.length_drop, if_pos (by omega), length, displacement, ← advance_advance]
  rfl

theorem fetchMemory_of_not_le (hmod : mod modrm ≠ 3) {r : Reader}
    (h : ¬ length c.addressSize modrm r.rest ≤ r.rest.length) :
    (fetchMemory c (.ofByte modrm) r).1 = none := by
  unfold length at h
  unfold fetchMemory
  rw [Fetch.bind_apply, fetchSIB_apply hmod]
  by_cases hsib : sibLength c.addressSize modrm ≤ r.rest.length
  · rw [if_pos hsib]
    dsimp only
    rw [Fetch.bind_apply, fetchDisplacement_apply, (follows_ofModRM hmod _).width, rest_advance,
      List.length_drop, if_neg (by omega)]
  · rw [if_neg hsib]

/-- A ModRM byte that names memory is understood if and only if the bytes that the tables ask for
follow it. These are consumed, and the place in memory is the one of the tables. -/
theorem describe_locates {override : Bool} (hsize : c.addressSize = c.mode.addressSize override)
    (hmod : mod modrm ≠ 3) (a : Addressing) (r : Reader) :
    (length c.addressSize modrm r.rest ≤ r.rest.length → ∃ memory : Memory,
      a.describe c (.ofByte modrm) r = (⟨some (.ofByte modrm), memory⟩, true,
        r.advance (length c.addressSize modrm r.rest)) ∧
      fetchAddressing c (.ofByte modrm) r = (some ⟨some (.ofByte modrm), memory⟩,
        r.advance (length c.addressSize modrm r.rest)) ∧
      memory.Locates c modrm (r.rest.headD 0) (displacement c.addressSize modrm r.rest)) ∧
    (¬ length c.addressSize modrm r.rest ≤ r.rest.length →
      (a.describe c (.ofByte modrm) r).2.1 = false ∧
      (fetchAddressing c (.ofByte modrm) r).1 = none) := by
  have hregister : ¬ (ModRM.ofByte modrm).isRegister := mt (isRegister_ofByte modrm).1 hmod
  rw [Addressing.describe, fetchAddressing, if_neg hregister, if_neg hregister, Fetch.bind_apply]
  refine ⟨fun h => ?_, fun h => ?_⟩
  · rw [fetchMemory_of_le hmod h]
    exact ⟨_, rfl, rfl, locates_toMemory (follows_ofModRM hmod _) hsize _⟩
  · have hnone := fetchMemory_of_not_le hmod h
    rcases hread : fetchMemory c (.ofByte modrm) r with ⟨memory, r'⟩
    rw [hread] at hnone
    cases hnone
    exact ⟨rfl, rfl⟩

/-- With REX.X, SIB index 4 is R12; base 5 under ModRM.mod 0 is none, and a displacement of 32 bits
follows. -/
theorem describe_locates_r12 :
    ∃ memory : Memory, Addressing.describe {} { prefixes := { rex := { x := true } } }
        (.ofByte 0x04) ⟨[0x65, 0xFC, 0xFF, 0xFF, 0xFF], 0⟩ =
          (⟨some (.ofByte 0x04), memory⟩, true, ⟨[0x65, 0xFC, 0xFF, 0xFF, 0xFF], 5⟩) ∧
      ∀ value next, memory.sum value next % 2 ^ 64 = (value (.qword 12) * 2 - 4) % 2 ^ 64 := by
  have hsize : ({ prefixes := { rex := { x := true } } } : OperandContext).addressSize =
      Mode.m64.addressSize false := rfl
  have hmod : mod 0x04 ≠ 3 := by decide
  obtain ⟨memory, hdescribe, -, hlocates⟩ :=
    (describe_locates hsize hmod {} ⟨[0x65, 0xFC, 0xFF, 0xFF, 0xFF], 0⟩).1 (by decide)
  refine ⟨memory, hdescribe, fun value next => (hlocates.address value next).trans ?_⟩
  show (0 + value (.qword 12) * 2 ^ 1 + -4) % 2 ^ 64 = _
  rw [zero_add, pow_one, Int.sub_eq_add_neg]

end Disasm
