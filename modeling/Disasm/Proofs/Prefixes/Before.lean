import Disasm.Proofs.Partition
import Disasm.Proofs.Prefixes.Operands
import Disasm.Proofs.Prefixes.State

/-!
# An encoding behind one more prefix

A prefix that is put before an instruction moves all its bytes by one.

* `asked_cons` — what the prefix adds to what the run behind it asks for.
* `Before` — the prefix is a legacy prefix that no size depends on, and there is room for it. The
  encoding then has the same parts one byte further on, if the opcode has the same ModRM
  (`Before.length_eq`), and so the same operands are read (`Before.fetchFields_eq`).
* `Instruction.prefixed` — the record that comes of it. It is the record behind the prefix where
  the form and the segment in force stay the same (`Before.decode_eq`).
-/

namespace Disasm

open Prefixes Encoding

/-! ## What is asked for -/

namespace Prefixes

variable {α : Type} {table : List (UInt8 × α)} {mode : Mode} {b : UInt8} {P bytes : List UInt8}

/-- Whether one of the prefixes that some bytes start with stands in a table. -/
def Carries (table : List (UInt8 × α)) (mode : Mode) (bytes : List UInt8) : Prop :=
  ∃ x ∈ run mode bytes, x ∈ table.map Prod.fst

instance (table : List (UInt8 × α)) (mode : Mode) (bytes : List UInt8) :
    Decidable (Carries table mode bytes) :=
  inferInstanceAs (Decidable (∃ x ∈ run mode bytes, _))

/-- The legacy prefixes that no size depends on. -/
def sizelessBytes : List UInt8 :=
  [0xf0] ++ repetitions.map Prod.fst ++ overrides.map Prod.fst

theorem of_mem_sizelessBytes :
    ∀ b ∈ sizelessBytes, b ∈ legacyBytes ∧ b ≠ 0x66 ∧ b ≠ 0x67 := by
  decide +kernel

theorem of_mem_overrides : ∀ x ∈ overrides, x.1 ∈ sizelessBytes ∧
    overrides.lookup x.1 = some x.2 ∧ repetitions.lookup x.1 = none ∧ x.1 ≠ 0xf0 := by
  decide +kernel

theorem of_mem_repetitions : ∀ x ∈ repetitions, x.1 ∈ sizelessBytes ∧
    repetitions.lookup x.1 = some x.2 ∧ overrides.lookup x.1 = none ∧ x.1 ≠ 0xf0 ∧
      (x.2 = .rep ∨ x.2 = .repne) := by
  decide

theorem last?_eq_none_iff : last? table P = none ↔ ∀ x ∈ P, x ∉ table.map Prod.fst := by
  rw [last?, List.getLast?_eq_none_iff, List.filterMap_eq_nil_iff]
  refine forall₂_congr fun x _ => ⟨fun h hmem => ?_, lookup_eq_none⟩
  obtain ⟨⟨k, v⟩, hkv, rfl⟩ := List.mem_map.1 hmem
  rw [List.lookup_eq_none_iff] at h
  simpa using h ⟨k, v⟩ hkv

theorem carries_iff : Carries table mode bytes ↔ last? table (run mode bytes) ≠ none := by
  rw [Ne, last?_eq_none_iff]
  simp only [Carries, not_forall, not_not, exists_prop]

theorem last?_cons (table : List (UInt8 × α)) (b : UInt8) (P : List UInt8) :
    last? table (b :: P) = (last? table P).or (table.lookup b) := by
  rw [← List.singleton_append, last?_append, last?_singleton]

/-- A legacy prefix before a run asks for a flag, or for what nothing behind it asks for. -/
theorem asked_cons (hb : b ∈ legacyBytes) : asked (b :: P) =
    { lock := b = 0xf0 ∨ (asked P).lock
      repetition := ((last? repetitions P).or (repetitions.lookup b)).getD .none
      segment := (asked P).segment.or ((overrides.lookup b).map .segment)
      operandSize := b = 0x66 ∨ (asked P).operandSize
      addressSize := b = 0x67 ∨ (asked P).addressSize
      rex := (asked P).rex } := by
  have hrex : (asked (b :: P)).rex = (asked P).rex := by
    have hbyte := not_isRexByte_of_mem_legacyBytes b hb
    cases P with
    | nil => simp [asked, hbyte]
    | cons x P => simp [asked, List.getLast?_cons_cons]
  unfold asked at hrex ⊢
  simp only at hrex
  simp only [hrex, last?_cons, List.mem_cons, eq_comm (a := b), decide_eq_true_eq, Option.map_or]

end Prefixes

/-- The record with one more byte before its bytes, and with these prefixes. -/
def Instruction.prefixed (r : Instruction) (b : UInt8) (prefixes : Prefixes) : Instruction :=
  { r with bytes := b :: r.bytes, prefixes }

theorem Instruction.length_prefixed (r : Instruction) (b : UInt8) (p : Prefixes) :
    (r.prefixed b p).length = r.length + 1 := rfl

/-! ## One more byte -/

namespace Encoding

variable {mode : Mode} {address : UInt64} {b : UInt8} {s bytes : List UInt8} {f g : Form}

theorem prefixes_eq (mode : Mode) (bytes : List UInt8) :
    prefixes mode bytes = asked (run mode bytes) := by
  rw [prefixes, scan_eq, List.drop_zero]

/-- A legacy prefix that no size depends on, before bytes that leave room for one more. -/
structure Before (mode : Mode) (b : UInt8) (s : List UInt8) : Prop where
  mem : b ∈ sizelessBytes
  room : (run mode s).length < 14

theorem Before.run_eq (h : Before mode b s) : run mode (b :: s) = b :: run mode s := by
  have hrun := longestRun_run mode s
  have hall : AllPrefixes mode (b :: run mode s) :=
    List.forall_mem_cons.2 ⟨Or.inl (of_mem_sizelessBytes b h.mem).1, hrun.allPrefixes⟩
  obtain ⟨rest, hrest⟩ := hrun.isPrefix
  have hbehind : run mode (run mode s ++ rest) = run mode s := by rw [hrest]
  have hcons := run_append_of_le hbehind hall (Nat.le_succ _) h.room
  rwa [List.cons_append, hrest] at hcons

theorem Before.prefixes_eq (h : Before mode b s) : prefixes mode (b :: s) =
    { prefixes mode s with
      lock := b = 0xf0 ∨ (prefixes mode s).lock
      repetition := ((last? repetitions (run mode s)).or (repetitions.lookup b)).getD .none
      segment := (prefixes mode s).segment.or ((overrides.lookup b).map .segment) } := by
  obtain ⟨hlegacy, h66, h67⟩ := of_mem_sizelessBytes b h.mem
  rw [Encoding.prefixes_eq, Encoding.prefixes_eq, h.run_eq, asked_cons hlegacy]
  simp only [h66, h67, false_or, Bool.decide_eq_true]

/-- Behind the prefixes nothing has changed its place but by the one byte. -/
theorem Before.prefixLength_eq (h : Before mode b s) :
    prefixLength mode (b :: s) = prefixLength mode s + 1 := by
  simp only [prefixLength, scan_eq, List.drop_zero, h.run_eq, List.length_cons]

theorem byteAt_cons (b : UInt8) (s : List UInt8) (k : Nat) : byteAt (b :: s) (k + 1) = byteAt s k :=
  List.getD_cons_succ

theorem Before.firstByte_eq (h : Before mode b s) : firstByte mode (b :: s) = firstByte mode s := by
  rw [firstByte, h.prefixLength_eq, byteAt_cons, firstByte]

theorem Before.secondByte_eq (h : Before mode b s) :
    secondByte mode (b :: s) = secondByte mode s := by
  rw [secondByte, h.prefixLength_eq, byteAt_cons, secondByte]

theorem Before.opcodeLength_eq (h : Before mode b s) :
    opcodeLength mode (b :: s) = opcodeLength mode s := by
  simp only [opcodeLength, h.firstByte_eq, h.secondByte_eq]

theorem Before.opcode_eq (h : Before mode b s) : opcode mode (b :: s) = opcode mode s := by
  have hthird : thirdByte mode (b :: s) = thirdByte mode s := by
    rw [thirdByte, h.prefixLength_eq, Nat.add_right_comm, byteAt_cons, thirdByte]
  simp only [opcode, h.firstByte_eq, h.secondByte_eq, hthird]

theorem Before.modrm?_eq (h : Before mode b s)
    (hm : hasModRM mode (b :: s) = hasModRM mode s) : modrm? mode (b :: s) = modrm? mode s := by
  rw [modrm?, modrm?, hm, h.prefixLength_eq, h.opcodeLength_eq, Nat.add_right_comm, byteAt_cons]

theorem Before.fieldsStart_eq (h : Before mode b s)
    (hm : hasModRM mode (b :: s) = hasModRM mode s) :
    fieldsStart mode (b :: s) = fieldsStart mode s + 1 := by
  rw [fieldsStart, fieldsStart, modrmLength, modrmLength, hm, h.prefixLength_eq, h.opcodeLength_eq]
  omega

theorem Before.addressSize_eq (h : Before mode b s) :
    addressSize mode (b :: s) = addressSize mode s := by
  simp only [addressSize, h.prefixes_eq]

/-- An encoding has one byte more, if the form behind the prefix has the same parts. -/
theorem Before.length_eq (h : Before mode b s) (hm : hasModRM mode (b :: s) = hasModRM mode s)
    (hr : g.registerOnly = f.registerOnly)
    (hfields : fieldsLength mode (b :: s) g = fieldsLength mode s f) :
    Encoding.length mode (b :: s) g = Encoding.length mode s f + 1 := by
  have hsib : sib mode (b :: s) = sib mode s := by
    rw [sib, sib, h.prefixLength_eq, h.opcodeLength_eq, Nat.add_right_comm, Nat.add_right_comm,
      byteAt_cons, Nat.add_right_comm]
  have haddressing : addressingLength mode (b :: s) g = addressingLength mode s f := by
    rw [addressingLength, addressingLength, modrm, modrm, hm, h.modrm?_eq hm, hr, hsib,
      h.addressSize_eq]
  have hstart := h.fieldsStart_eq hm
  unfold fieldsStart at hstart
  rw [Encoding.length, Encoding.length, hstart, haddressing, hfields]
  omega

/-! ## Records -/

theorem isValid_decode_of_form?_eq_none (h : form? mode bytes = none) :
    (decode mode address bytes).isValid = false := by
  rcases spans_fetchDecoded_of_none mode h (window_isPrefix bytes) (prefixLength_le mode bytes) with
    hok | hno
  · exact absurd hok.1 id
  · exact isValid_decode_of_none hno.2

theorem exists_form (h : (decode mode address bytes).isValid) : ∃ f, form? mode bytes = some f := by
  cases hf : form? mode bytes with
  | none =>
    rw [isValid_decode_of_form?_eq_none hf] at h
    cases h
  | some f => exact ⟨f, rfl⟩

theorem fieldsStart_le (h : (decode mode address bytes).isValid) :
    fieldsStart mode bytes ≤ (decode mode address bytes).length := by
  obtain ⟨f, hf⟩ := exists_form h
  obtain ⟨-, -, hlength⟩ := admits_of_isValid hf h
  rw [hlength, Encoding.length, fieldsStart]
  omega

/-- An instruction that is not the longest has room for one more prefix. -/
theorem run_lt_of_isValid (h : (decode mode address s).isValid)
    (hlen : (decode mode address s).length ≤ 14) : (run mode s).length < 14 := by
  have hstart := fieldsStart_le h
  have hprefix : prefixLength mode s = (run mode s).length := by
    simp only [prefixLength, scan_eq, List.drop_zero]
  have hopcode : 1 ≤ opcodeLength mode s := by
    unfold opcodeLength
    split_ifs <;> decide
  unfold fieldsStart at hstart
  omega

/-- Behind the prefix there is an instruction if the form admits ModRM, and then it has the bytes
of the one without the prefix. -/
theorem Before.decode_outcome (h : Before mode b s) (hvalid : (decode mode address s).isValid)
    (hlen : (decode mode address s).length ≤ 14) (hf : form? mode s = some f)
    (hg : form? mode (b :: s) = some g) (hm : hasModRM mode (b :: s) = hasModRM mode s)
    (hr : g.registerOnly = f.registerOnly)
    (hfields : fieldsLength mode (b :: s) g = fieldsLength mode s f) :
    ((decode mode address (b :: s)).isValid ↔ g.Admits (modrm mode s)) ∧
      ((decode mode address (b :: s)).isValid →
        (decode mode address (b :: s)).bytes = b :: (decode mode address s).bytes) ∧
      f.Admits (modrm mode s) := by
  have hmodrm : modrm mode (b :: s) = modrm mode s := by rw [modrm, modrm, h.modrm?_eq hm]
  have hlength := h.length_eq hm hr hfields
  obtain ⟨hadmits, hle, heq⟩ := admits_of_isValid hf hvalid
  rw [heq] at hlen
  have hwindow : Encoding.length mode (b :: s) g ≤ (window (b :: s)).length := by
    rw [window, List.length_take, Instruction.maxLength] at hle ⊢
    rw [hlength, List.length_cons]
    omega
  refine ⟨⟨fun hvalid' => hmodrm ▸ (admits_of_isValid hg hvalid').1, fun hadmits' => ?_⟩,
    fun hvalid' => ?_, hadmits⟩
  · rcases Disasm.decode_outcome mode address hg with ⟨-, -, hvalid', -⟩ | ⟨hno, -⟩
    · exact hvalid'
    · exact absurd ⟨hmodrm.symm ▸ hadmits', hwindow⟩ hno
  · obtain ⟨-, -, heq'⟩ := admits_of_isValid hg hvalid'
    rw [bytes_decode, heq', hlength, List.take_succ_cons, bytes_decode, heq]

/-- A record's prefixes are those of its bytes, unless one of them was spent. -/
theorem prefixes_decode (hg : recordForm? mode bytes = some g)
    (hvalid : (decode mode address bytes).isValid) : (decode mode address bytes).prefixes =
      (prefixes mode bytes).remaining g (selector mode bytes)
        (decode mode address bytes).mnemonic := by
  obtain ⟨operands, -, hrecord⟩ := exists_operands hg hvalid
  rw [hrecord]
  rfl

/-! ## The same form -/

/-- Where 66 did not select a form, it changes the operation size whatever else selects. -/
theorem Before.operationSize_eq (h : Before mode b s)
    (hs : selector mode (b :: s) = selector mode s ∨ g.flags.prefixSelected = false) :
    operationSize mode (b :: s) g = operationSize mode s g := by
  have hoverride : OverridesSize mode (b :: s) g ↔ OverridesSize mode s g := by
    rcases hs with hs | hs
    · simp only [OverridesSize, h.prefixes_eq, hs]
    · simp only [OverridesSize, h.prefixes_eq, hs, Bool.false_eq_true, false_and]
  simp only [operationSize, hoverride, h.prefixes_eq]

theorem Before.fieldsLength_eq (h : Before mode b s)
    (hs : selector mode (b :: s) = selector mode s ∨ g.flags.prefixSelected = false) :
    fieldsLength mode (b :: s) g = fieldsLength mode s g := by
  rw [fieldsLength, fieldsLength, h.operationSize_eq hs, h.addressSize_eq]

/-- Behind the prefix the same form is an instruction again, with the same bytes. -/
theorem Before.isValid_decode (h : Before mode b s) (hvalid : (decode mode address s).isValid)
    (hlen : (decode mode address s).length ≤ 14) (hf : form? mode s = some f)
    (hf' : form? mode (b :: s) = some f) (hm : hasModRM mode (b :: s) = hasModRM mode s)
    (hs : selector mode (b :: s) = selector mode s ∨ f.flags.prefixSelected = false) :
    (decode mode address (b :: s)).isValid ∧
      (decode mode address (b :: s)).bytes = b :: (decode mode address s).bytes := by
  obtain ⟨hiff, hbytes, hadmits⟩ := h.decode_outcome hvalid hlen hf hf' hm rfl
    (h.fieldsLength_eq hs)
  exact ⟨hiff.2 hadmits, hbytes (hiff.2 hadmits)⟩

theorem prefixSelected_rename (o : Opcode) (p : Prefixes) (hf : f.flags.prefixSelected = false) :
    (o.rename p f).flags.prefixSelected = false := by
  unfold Opcode.rename
  split_ifs
  · rfl
  · rfl
  · exact hf

theorem Before.rex_eq (h : Before mode b s) :
    (prefixes mode (b :: s)).rex = (prefixes mode s).rex := by
  simp only [h.prefixes_eq]

/-- Whether the segment override in force is the same in two prefix states. -/
def SameSegment (mode : Mode) (p p' : Prefixes) : Prop :=
  ({ mode, prefixes := p' } : OperandContext).segmentOverride =
    ({ mode, prefixes := p } : OperandContext).segmentOverride

theorem Before.alike (h : Before mode b s)
    (hs : selector mode (b :: s) = selector mode s ∨ g.flags.prefixSelected = false)
    (hsegment : SameSegment mode (prefixes mode s) (prefixes mode (b :: s))) :
    (OperandContext.ofForm mode (prefixes mode s) (opcode mode s) g).Alike
      (.ofForm mode (prefixes mode (b :: s)) (opcode mode (b :: s)) g) where
  mode_eq := rfl
  rex_eq := h.rex_eq
  segmentOverride_eq := hsegment
  operationSize_eq := by rw [operationSize_ofForm, operationSize_ofForm, h.operationSize_eq hs]
  addressSize_eq := by rw [addressSize_ofForm, addressSize_ofForm, h.addressSize_eq]
  opcode_eq := congrArg Opcode.byte h.opcode_eq

/-- The operands that are read behind the prefix are read also without it: the window ends one byte
later then, and no operand is longer for that. -/
theorem Before.fetchFields_eq (h : Before mode b s) (hvalid : (decode mode address s).isValid)
    (hlen : (decode mode address s).length ≤ 14) (hm : hasModRM mode (b :: s) = hasModRM mode s)
    {c c' : OperandContext} (halike : c.Alike c') {operands : List Operand}
    (hoperands : (g.fetchFields c' (modrm? mode (b :: s))
      ⟨window (b :: s), fieldsStart mode (b :: s)⟩).1 = some operands) :
    (g.fetchFields c (modrm? mode s) ⟨window s, fieldsStart mode s⟩).1 = some operands := by
  have hwindow : s.take 14 <+: window s := List.take_prefix_take_left (by decide)
  have hstart : fieldsStart mode s ≤ (s.take 14).length := by
    have hle := fieldsStart_le hvalid
    have hlength := length_decode_le mode address s
    rw [List.length_take]
    omega
  rw [Form.fetchFields_congr halike, h.modrm?_eq hm, h.fieldsStart_eq hm] at hoperands
  exact (g.built_fetchFields _ _).eq_of_isPrefix hwindow hstart hoperands

/-- Behind a prefix that leaves the form and the segment as they are, the record is what it is
without the prefix, but for the prefix. -/
theorem Before.decode_eq (h : Before mode b s) (hvalid : (decode mode address s).isValid)
    (hlen : (decode mode address s).length ≤ 14) (hf : form? mode s = some f)
    (hf' : form? mode (b :: s) = some f) (hm : hasModRM mode (b :: s) = hasModRM mode s)
    (hrename : (opcode mode s).rename (prefixes mode (b :: s)) f =
      (opcode mode s).rename (prefixes mode s) f)
    (hs : selector mode (b :: s) = selector mode s ∨ f.flags.prefixSelected = false)
    (hsegment : SameSegment mode (prefixes mode s) (prefixes mode (b :: s))) :
    decode mode address (b :: s) = (decode mode address s).prefixed b
      ((prefixes mode (b :: s)).remaining ((opcode mode s).rename (prefixes mode s) f)
        (selector mode (b :: s)) (decode mode address s).mnemonic) := by
  obtain ⟨hvalid', hbytes'⟩ := h.isValid_decode hvalid hlen hf hf' hm hs
  have hg := recordForm?_eq hf
  have hg' : recordForm? mode (b :: s) = some ((opcode mode s).rename (prefixes mode s) f) := by
    rw [recordForm?_eq hf', h.opcode_eq, hrename]
  have hs' := hs.imp_right fun hf => prefixSelected_rename (opcode mode s) (prefixes mode s) hf
  generalize (opcode mode s).rename (prefixes mode s) f = g at hg hg' hs' ⊢
  obtain ⟨operands, hoperands, hrecord⟩ := exists_operands hg hvalid
  obtain ⟨operands', hoperands', hrecord'⟩ := exists_operands hg' hvalid'
  have halike := h.alike hs' hsegment
  have hsame := h.fetchFields_eq hvalid hlen hm halike hoperands'
  obtain rfl : operands' = operands := Option.some.inj (hsame.symm.trans hoperands)
  rw [hbytes'] at hrecord'
  generalize (decode mode address s).bytes = bs at hrecord hrecord'
  rw [hrecord', hrecord]
  simp only [Instruction.prefixed, Decoded.record, Form.decoded, halike.operationSize_eq,
    halike.addressSize_eq, h.rex_eq, selector]

end Encoding

end Disasm
