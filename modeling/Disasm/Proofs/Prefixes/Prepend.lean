import Disasm.Proofs.Prefixes.Before
import Disasm.Proofs.Prefixes.Selection

/-!
# What a prefix governs

A prefix that is put before an instruction changes what it governs, no more.

* LOCK is recorded.
* In 64-bit mode the overrides with ES, CS, SS and DS are recorded, if the instruction has no
  override of its own, and no address is affected.
* F2 and F3 give way to an F2 or F3 that stands behind them. Otherwise they are recorded, or are
  `Spent` on the choice of another form, or that form does not exist.

**Theorem (`decodeAt_cons`).** A valid record that leaves room for one more byte is the record
behind each of these prefixes, up to what the prefix records.

That F2 and F3 preserve ModRM, and the form where they do not choose one, is checked over the maps
in `Prefixes.Selection`; here it meets the records.
-/

namespace Disasm

open Prefixes Encoding

namespace Prefixes

theorem selector_of_none {p : Prefixes} (h : p.repetition = .none) :
    p.selector = .none ∨ p.selector = .operandSize := by
  unfold selector
  rw [h]
  dsimp only
  split_ifs <;> simp

theorem selector_of_repetition (p : Prefixes) {repetition : Repetition}
    (h : repetition = .rep ∨ repetition = .repne) :
    ({ p with repetition }).selector = ({ repetition } : Prefixes).selector ∧
      (({ p with repetition }).selector = .rep ∨ ({ p with repetition }).selector = .repne) := by
  rcases h with rfl | rfl
  · exact ⟨rfl, Or.inl rfl⟩
  · exact ⟨rfl, Or.inr rfl⟩

end Prefixes

theorem Opcode.selector_of_selects {o : Opcode} (h : OpcodeMap.Selects o.escape) (p : Prefixes) :
    o.selector p = p.selector := by
  unfold selector
  cases hescape : o.escape with
  | oneByte => exact absurd hescape h.1
  | x87 => exact absurd hescape h.2
  | _ => rfl

theorem Opcode.selector_of_not_selects {o : Opcode} (h : ¬ OpcodeMap.Selects o.escape)
    (p : Prefixes) : o.selector p = .none := by
  unfold OpcodeMap.Selects at h
  unfold selector
  cases hescape : o.escape <;> simp_all

namespace Encoding

variable {mode : Mode} {address : UInt64} {b : UInt8} {s bytes : List UInt8} {f g : Form}

/-! ## Prefixes that select nothing -/

/-- The form is the same, if the prefix selects nothing else. -/
theorem Before.form?_eq (h : Before mode b s) (hs : selector mode (b :: s) = selector mode s)
    (hf : form? mode s = some f) :
    hasModRM mode (b :: s) = hasModRM mode s ∧ form? mode (b :: s) = some f := by
  have hm : hasModRM mode (b :: s) = hasModRM mode s := by
    rw [hasModRM, hasModRM, h.opcode_eq, hs]
  refine ⟨hm, ?_⟩
  rw [form?, h.opcode_eq, hs, modrm, h.modrm?_eq hm]
  exact hf

/-- A prefix that asks for no other repetition and for no segment that counts is recorded, and
nothing else changes. -/
theorem Before.decode_eq_of_repetition_eq (h : Before mode b s)
    (hvalid : (decode mode address s).isValid) (hlen : (decode mode address s).length ≤ 14)
    (hrepetition : (prefixes mode (b :: s)).repetition = (prefixes mode s).repetition)
    (hsegment : SameSegment mode (prefixes mode s) (prefixes mode (b :: s))) :
    decode mode address (b :: s) = (decode mode address s).prefixed b
      { (decode mode address s).prefixes with
        lock := b = 0xf0 ∨ (decode mode address s).prefixes.lock
        segment := (decode mode address s).prefixes.segment.or
          ((overrides.lookup b).map .segment) } := by
  obtain ⟨f, hf⟩ := exists_form hvalid
  have hp : prefixes mode (b :: s) =
      { prefixes mode s with
        lock := b = 0xf0 ∨ (prefixes mode s).lock
        segment := (prefixes mode s).segment.or ((overrides.lookup b).map .segment) } := by
    rw [h.prefixes_eq] at hrepetition ⊢
    simp only at hrepetition
    simp only [hrepetition]
  have hs : selector mode (b :: s) = selector mode s := by
    rw [selector, selector, h.opcode_eq, hp]
    rfl
  obtain ⟨hm, hf'⟩ := h.form?_eq hs hf
  have hrename : (opcode mode s).rename (prefixes mode (b :: s)) f =
      (opcode mode s).rename (prefixes mode s) f := by
    rw [Opcode.rename, hrepetition, h.rex_eq, Opcode.rename]
  rw [h.decode_eq hvalid hlen hf hf' hm hrename (Or.inl hs) hsegment, hs,
    prefixes_decode (recordForm?_eq hf) hvalid, hp]
  unfold Prefixes.remaining
  split_ifs <;> rfl

/-! ## Prefixes that may select -/

/-- The record behind an F2 or F3 that selected its form, or made PAUSE of NOP. It is an
instruction and shows no repetition. -/
structure Spent (mode : Mode) (b : UInt8) (s : List UInt8) (repetition : Repetition)
    (r r' : Instruction) : Prop where
  isValid : r'.isValid
  bytes_eq : r'.bytes = b :: r.bytes
  prefixes_eq : r'.prefixes = { r.prefixes with repetition := .none }
  reason : r'.mnemonic = .PAUSE ∨ ∃ f, form? mode (b :: s) = some f ∧ f.flags.prefixSelected ∧
    selector mode (b :: s) = ({ repetition } : Prefixes).selector

theorem mnemonic_pause (hg : recordForm? mode bytes = some { mnemonic := .PAUSE })
    (hvalid : (decode mode address bytes).isValid) :
    (decode mode address bytes).mnemonic = .PAUSE := by
  obtain ⟨operands, -, hrecord⟩ := exists_operands hg hvalid
  rw [hrecord]
  show ((Mnemonic.PAUSE.sized _ _).widened _) = _
  have hsized : ∀ size address, Mnemonic.PAUSE.sized size address = .PAUSE := fun _ _ => rfl
  rw [hsized]
  cases (prefixes mode bytes).rex.w <;> rfl

/-- An F2 or F3 before bytes that carry neither. -/
structure Repeats (mode : Mode) (b : UInt8) (s : List UInt8) (repetition : Repetition) : Prop
    extends Before mode b s where
  mem_repetitions : (b, repetition) ∈ repetitions
  alone : ¬ Carries repetitions mode s

namespace Repeats

variable {repetition : Repetition} (h : Repeats mode b s repetition)

include h

theorem last?_eq : last? repetitions (run mode s) = none := by
  simpa [carries_iff] using h.alone

theorem repetition_eq : (prefixes mode s).repetition = .none := by
  rw [Encoding.prefixes_eq, asked, h.last?_eq, Option.getD_none]

theorem prefixes_eq : prefixes mode (b :: s) = { prefixes mode s with repetition } := by
  obtain ⟨-, hlookup, hnone, hlock, -⟩ := of_mem_repetitions _ h.mem_repetitions
  rw [h.toBefore.prefixes_eq, h.last?_eq, hlookup, hnone]
  simp [hlock]

theorem remaining_eq (f : Form) (o : Selector) (m : Mnemonic) :
    (prefixes mode s).remaining f o m = prefixes mode s := by
  unfold Prefixes.remaining
  split_ifs
  · rw [← h.repetition_eq]
  · rfl

theorem prefixes_decode_eq (hvalid : (decode mode address s).isValid) :
    (decode mode address s).prefixes = prefixes mode s := by
  obtain ⟨f, hf⟩ := exists_form hvalid
  rw [prefixes_decode (recordForm?_eq hf) hvalid, h.remaining_eq]

theorem sameSegment : SameSegment mode (prefixes mode s) (prefixes mode (b :: s)) := by
  rw [h.prefixes_eq]
  rfl

/-- What is spent leaves the other prefixes. -/
theorem prefixes_eq_of_spent (hvalid : (decode mode address s).isValid)
    (hvalid' : (decode mode address (b :: s)).isValid) {g : Form}
    (hg : recordForm? mode (b :: s) = some g)
    (hspent : (decode mode address (b :: s)).mnemonic = .PAUSE ∨ g.flags.prefixSelected ∧
      (selector mode (b :: s) = .rep ∨ selector mode (b :: s) = .repne)) :
    (decode mode address (b :: s)).prefixes =
      { (decode mode address s).prefixes with repetition := .none } := by
  rw [prefixes_decode hg hvalid', Prefixes.remaining, if_pos hspent, h.prefixes_eq,
    h.prefixes_decode_eq hvalid]

/-- A repetition that does not select the form is recorded, unless the record is PAUSE. -/
theorem recorded_or_spent (hvalid : (decode mode address s).isValid)
    (hvalid' : (decode mode address (b :: s)).isValid)
    (hbytes : (decode mode address (b :: s)).bytes = b :: (decode mode address s).bytes) {g : Form}
    (hg : recordForm? mode (b :: s) = some g)
    (hnot : ¬ (g.flags.prefixSelected ∧
      (selector mode (b :: s) = .rep ∨ selector mode (b :: s) = .repne)))
    (hrecord : (decode mode address (b :: s)).mnemonic ≠ .PAUSE →
      decode mode address (b :: s) = (decode mode address s).prefixed b
        ((prefixes mode (b :: s)).remaining g (selector mode (b :: s))
          (decode mode address s).mnemonic)) :
    decode mode address (b :: s) = (decode mode address s).prefixed b
        { (decode mode address s).prefixes with repetition } ∨
      Spent mode b s repetition (decode mode address s) (decode mode address (b :: s)) := by
  by_cases hpause : (decode mode address (b :: s)).mnemonic = .PAUSE
  · exact Or.inr {
      isValid := hvalid'
      bytes_eq := hbytes
      prefixes_eq := h.prefixes_eq_of_spent hvalid hvalid' hg (Or.inl hpause)
      reason := Or.inl hpause }
  · have heq := hrecord hpause
    have hkept : ¬ ((decode mode address s).mnemonic = .PAUSE ∨ g.flags.prefixSelected ∧
        (selector mode (b :: s) = .rep ∨ selector mode (b :: s) = .repne)) := by
      rw [heq] at hpause
      exact not_or_intro hpause hnot
    refine Or.inl ?_
    rw [heq, Prefixes.remaining, if_neg hkept, h.prefixes_decode_eq hvalid, h.prefixes_eq]

/-! ### Opcodes without selecting prefixes -/

/-- A repetition gives a form another name only if the name is PAUSE. -/
theorem rename_eq_or (o : Opcode) (f : Form) :
    o.rename (prefixes mode (b :: s)) f = o.rename (prefixes mode s) f ∨
      o.rename (prefixes mode (b :: s)) f = { mnemonic := .PAUSE } := by
  unfold Opcode.rename
  rw [h.rex_eq, h.repetition_eq]
  split_ifs <;> simp_all

theorem outcome_of_not_selects (hvalid : (decode mode address s).isValid)
    (hlen : (decode mode address s).length ≤ 14)
    (ho : ¬ OpcodeMap.Selects (opcode mode s).escape) :
    decode mode address (b :: s) = (decode mode address s).prefixed b
        { (decode mode address s).prefixes with repetition } ∨
      Spent mode b s repetition (decode mode address s) (decode mode address (b :: s)) := by
  obtain ⟨f, hf⟩ := exists_form hvalid
  have hnone : selector mode s = .none := Opcode.selector_of_not_selects ho _
  have hnone' : selector mode (b :: s) = .none := by
    rw [selector, h.opcode_eq, Opcode.selector_of_not_selects ho]
  have hs : selector mode (b :: s) = selector mode s := hnone'.trans hnone.symm
  obtain ⟨hm, hf'⟩ := h.form?_eq hs hf
  obtain ⟨hvalid', hbytes⟩ := h.isValid_decode hvalid hlen hf hf' hm (Or.inl hs)
  have hg : recordForm? mode (b :: s) =
      some ((opcode mode s).rename (prefixes mode (b :: s)) f) := by
    rw [recordForm?_eq hf', h.opcode_eq]
  refine h.recorded_or_spent hvalid hvalid' hbytes hg ?_ fun hpause => ?_
  · rw [hnone']
    simp
  · rcases h.rename_eq_or (opcode mode s) f with hrename | hrename
    · rw [hrename]
      exact h.decode_eq hvalid hlen hf hf' hm hrename (Or.inl hs) h.sameSegment
    · rw [hrename] at hg
      exact absurd (mnemonic_pause hg hvalid') hpause

/-! ### Opcodes with selecting prefixes -/

theorem selector_eq_of_selects (ho : OpcodeMap.Selects (opcode mode s).escape) :
    selector mode (b :: s) = ({ repetition } : Prefixes).selector ∧
      Entry.Repeated (selector mode s) (selector mode (b :: s)) := by
  have hrepetition : repetition = .rep ∨ repetition = .repne :=
    (of_mem_repetitions _ h.mem_repetitions).2.2.2.2
  have hs : selector mode s = (prefixes mode s).selector := Opcode.selector_of_selects ho _
  have hs' : selector mode (b :: s) = ({ prefixes mode s with repetition }).selector := by
    rw [selector, h.opcode_eq, Opcode.selector_of_selects ho, h.prefixes_eq]
  obtain ⟨heq, hrepeated⟩ := Prefixes.selector_of_repetition (prefixes mode s) hrepetition
  rw [hs, hs']
  exact ⟨heq, Prefixes.selector_of_none h.repetition_eq, hrepeated⟩

theorem outcome_of_selects (hvalid : (decode mode address s).isValid)
    (hlen : (decode mode address s).length ≤ 14)
    (ho : OpcodeMap.Selects (opcode mode s).escape) :
    decode mode address (b :: s) = (decode mode address s).prefixed b
        { (decode mode address s).prefixes with repetition } ∨
      Spent mode b s repetition (decode mode address s) (decode mode address (b :: s)) ∨
      (decode mode address (b :: s)).isValid = false := by
  obtain ⟨f, hf⟩ := exists_form hvalid
  obtain ⟨hselector, hrepeated⟩ := h.selector_eq_of_selects ho
  have hrename : ∀ p f, (opcode mode s).rename p f = f := fun p f => if_neg fun hc => ho.1 hc.1
  cases hg : form? mode (b :: s) with
  | none => exact Or.inr (Or.inr (isValid_decode_of_form?_eq_none hg))
  | some g =>
    have hlookup : OpcodeMap.lookup (opcode mode s).escape (opcode mode s).byte
        (modrm mode (b :: s)) (selector mode (b :: s)) mode = some g := by
      rw [← h.opcode_eq]
      exact hg
    have hm : hasModRM mode (b :: s) = hasModRM mode s := by
      rw [hasModRM, h.opcode_eq]
      exact OpcodeMap.hasModRM_eq_of_lookup ho hrepeated hf hlookup
    have hfits : f.Fits g := by
      rw [modrm, h.modrm?_eq hm] at hlookup
      exact OpcodeMap.fits_of_lookup ho hrepeated hf hlookup
    have hg' : recordForm? mode (b :: s) = some g := by
      rw [recordForm?_eq hg, h.opcode_eq, hrename]
    unfold Form.Fits at hfits
    split_ifs at hfits with hselected
    · have hfields : fieldsLength mode (b :: s) g = fieldsLength mode s f := by
        rw [fieldsLength, fieldsLength, h.addressSize_eq]
        exact Form.sum_fieldLength_of_resembles hfits _ _ _
      obtain ⟨-, hbytes, -⟩ := h.decode_outcome hvalid hlen hf hg hm
        (Form.registerOnly_of_resembles hfits) hfields
      cases hvalid' : (decode mode address (b :: s)).isValid with
      | false => exact Or.inr (Or.inr rfl)
      | true =>
        exact Or.inr (Or.inl {
          isValid := hvalid'
          bytes_eq := hbytes hvalid'
          prefixes_eq := h.prefixes_eq_of_spent hvalid hvalid' hg' (Or.inr ⟨hselected, hrepeated.2⟩)
          reason := Or.inr ⟨g, hg, hselected, hselector⟩ })
    · subst hfits
      have hunselected : g.flags.prefixSelected = false := by simpa using hselected
      have hrecord := h.decode_eq hvalid hlen hf hg hm ((hrename _ _).trans (hrename _ _).symm)
        (Or.inr hunselected) h.sameSegment
      rw [hrename] at hrecord
      have hvalid' : (decode mode address (b :: s)).isValid := by
        rw [hrecord]
        exact hvalid
      rw [← or_assoc]
      refine Or.inl (h.recorded_or_spent hvalid hvalid' ?_ hg' (fun hc => hselected hc.1)
        fun _ => hrecord)
      rw [hrecord]
      rfl

end Repeats

theorem Before.repetition_eq_of_lookup (h : Before mode b s) (hb : repetitions.lookup b = none) :
    (prefixes mode (b :: s)).repetition = (prefixes mode s).repetition := by
  rw [h.prefixes_eq, hb, Option.or_none, Encoding.prefixes_eq, asked]

theorem Before.repetition_eq_of_carries (h : Before mode b s) (hs : Carries repetitions mode s) :
    (prefixes mode (b :: s)).repetition = (prefixes mode s).repetition := by
  rw [carries_iff, ← Option.isSome_iff_ne_none] at hs
  rw [h.prefixes_eq, Option.or_of_isSome hs, Encoding.prefixes_eq, asked]

theorem Before.sameSegment_of_lookup (h : Before mode b s) (hb : overrides.lookup b = none) :
    SameSegment mode (prefixes mode s) (prefixes mode (b :: s)) := by
  refine OperandContext.segmentOverride_congr rfl ?_
  simp only [h.prefixes_eq, hb, Option.map_none, Option.or_none]

/-! ## Each prefix -/

theorem isSome_segment_decode_iff (hvalid : (decode mode address s).isValid) :
    (decode mode address s).prefixes.segment.isSome ↔ Carries overrides mode s := by
  obtain ⟨f, hf⟩ := exists_form hvalid
  rw [prefixes_decode (recordForm?_eq hf) hvalid, Prefixes.segment_remaining,
    Encoding.prefixes_eq, asked, Option.isSome_map, carries_iff, Option.isSome_iff_ne_none]

section Records

variable (hvalid : (decode mode address s).isValid) (hlen : (decode mode address s).length ≤ 14)

include hvalid hlen

theorem before_of_isValid (hb : b ∈ sizelessBytes) : Before mode b s :=
  ⟨hb, run_lt_of_isValid hvalid hlen⟩

theorem decode_lock : decode mode address (0xf0 :: s) = (decode mode address s).prefixed 0xf0
    { (decode mode address s).prefixes with lock := true } := by
  have h : Before mode 0xf0 s := before_of_isValid hvalid hlen (by decide)
  have hoverrides : overrides.lookup 0xf0 = none := by decide
  rw [h.decode_eq_of_repetition_eq hvalid hlen (h.repetition_eq_of_lookup (by decide))
    (h.sameSegment_of_lookup hoverrides), hoverrides]
  simp

/-- An override is recorded, if there is no other. -/
theorem decode_override {segment : Segment} (hb : (b, segment) ∈ overrides)
    (hsegment : SameSegment mode (prefixes mode s) (prefixes mode (b :: s))) :
    decode mode address (b :: s) = (decode mode address s).prefixed b
      { (decode mode address s).prefixes with
        segment := if Carries overrides mode s then (decode mode address s).prefixes.segment
          else some (.segment segment) } := by
  obtain ⟨hmem, hlookup, hrepetitions, hlock⟩ := of_mem_overrides _ hb
  have h : Before mode b s := before_of_isValid hvalid hlen hmem
  rw [h.decode_eq_of_repetition_eq hvalid hlen (h.repetition_eq_of_lookup hrepetitions) hsegment,
    hlookup]
  split_ifs with hcarries
  · rw [← isSome_segment_decode_iff hvalid] at hcarries
    simp [hlock, Option.or_of_isSome hcarries]
  · rw [← isSome_segment_decode_iff hvalid, Option.not_isSome_iff_eq_none] at hcarries
    simp [hlock, hcarries]

theorem decode_repetition_of_carries {repetition : Repetition} (hb : (b, repetition) ∈ repetitions)
    (hs : Carries repetitions mode s) : decode mode address (b :: s) =
      (decode mode address s).prefixed b (decode mode address s).prefixes := by
  obtain ⟨hmem, -, hoverrides, hlock, -⟩ := of_mem_repetitions _ hb
  have h : Before mode b s := before_of_isValid hvalid hlen hmem
  rw [h.decode_eq_of_repetition_eq hvalid hlen (h.repetition_eq_of_carries hs)
    (h.sameSegment_of_lookup hoverrides), hoverrides]
  simp [hlock]

theorem decode_repetition {repetition : Repetition} (hb : (b, repetition) ∈ repetitions)
    (hs : ¬ Carries repetitions mode s) :
    decode mode address (b :: s) = (decode mode address s).prefixed b
        { (decode mode address s).prefixes with repetition } ∨
      Spent mode b s repetition (decode mode address s) (decode mode address (b :: s)) ∨
      (decode mode address (b :: s)).isValid = false := by
  have hmem := (of_mem_repetitions _ hb).1
  have h : Repeats mode b s repetition := ⟨before_of_isValid hvalid hlen hmem, hb, hs⟩
  by_cases ho : OpcodeMap.Selects (opcode mode s).escape
  · exact h.outcome_of_selects hvalid hlen ho
  · rw [← or_assoc]
    exact Or.inl (h.outcome_of_not_selects hvalid hlen ho)

end Records

/-- In 64-bit mode an override with another segment than FS and GS has no effect. -/
theorem Before.sameSegment_of_flat (h : Before .m64 b s) {segment : Segment}
    (hb : (b, segment) ∈ overrides) (hfs : segment ≠ .fs) (hgs : segment ≠ .gs) :
    SameSegment .m64 (prefixes .m64 s) (prefixes .m64 (b :: s)) := by
  have hlookup := (of_mem_overrides _ hb).2.1
  rw [h.prefixes_eq, hlookup]
  unfold SameSegment OperandContext.segmentOverride
  cases (prefixes .m64 s).segment with
  | none => simp [hfs, hgs]
  | some x => simp

end Encoding

/-- **A prefix changes what it governs.** Put before a valid record that leaves room for it, LOCK is
recorded and nothing else changes. So it is in 64-bit mode with the overrides that have no effect
there, unless there is another override. F2 and F3 change nothing if there is another of them;
otherwise they are recorded, or spent on the choice of the form or of PAUSE, or the record is not
valid. A valid record has one byte more. -/
theorem decodeAt_cons {s : List UInt8} {address : UInt64} {mode : Mode} {r : Instruction}
    (hr : decodeAt s 0 address mode = .ok r) (hvalid : r.isValid) (hlen : r.length ≤ 14) :
    decodeAt (0xf0 :: s) 0 address mode =
        .ok (r.prefixed 0xf0 { r.prefixes with lock := true }) ∧
      (mode = .m64 → ∀ b segment,
        (b, segment) ∈ [(0x26, Segment.es), (0x2e, .cs), (0x36, .ss), (0x3e, .ds)] →
        decodeAt (b :: s) 0 address mode = .ok (r.prefixed b { r.prefixes with
          segment := if Carries overrides mode s then r.prefixes.segment
            else some (.segment segment) })) ∧
      ∀ b repetition, (b, repetition) ∈ repetitions →
        ∃ r', decodeAt (b :: s) 0 address mode = .ok r' ∧
          (Carries repetitions mode s → r' = r.prefixed b r.prefixes) ∧
          (¬ Carries repetitions mode s → r' = r.prefixed b { r.prefixes with repetition } ∨
            Spent mode b s repetition r r' ∨ r'.isValid = false) ∧
          (r'.isValid → r'.length = r.length + 1) := by
  obtain ⟨-, rfl⟩ := eq_decode_of_decodeAt hr
  rw [List.drop_zero] at hvalid hlen ⊢
  have hdecode : ∀ b, decodeAt (b :: s) 0 address mode = .ok (decode mode address (b :: s)) :=
    fun b => decodeAt_of_lt (Nat.succ_pos _) address mode
  refine ⟨?_, ?_, ?_⟩
  · rw [hdecode, decode_lock hvalid hlen]
  · rintro rfl b segment hb
    have hflat : ∀ x ∈ [(0x26, Segment.es), (0x2e, .cs), (0x36, .ss), (0x3e, .ds)],
        x ∈ overrides ∧ x.2 ≠ .fs ∧ x.2 ≠ .gs := by decide
    obtain ⟨hmem, hfs, hgs⟩ := hflat _ hb
    have h : Before .m64 b s := before_of_isValid hvalid hlen (of_mem_overrides _ hmem).1
    rw [hdecode, decode_override hvalid hlen hmem (h.sameSegment_of_flat hmem hfs hgs)]
  · intro b repetition hb
    refine ⟨_, hdecode b, fun hs => decode_repetition_of_carries hvalid hlen hb hs,
      fun hs => decode_repetition hvalid hlen hb hs, fun hvalid' => ?_⟩
    by_cases hs : Carries repetitions mode s
    · rw [decode_repetition_of_carries hvalid hlen hb hs, Instruction.length_prefixed]
    · rcases decode_repetition hvalid hlen hb hs with hrecorded | hspent | hinvalid
      · rw [hrecorded, Instruction.length_prefixed]
      · rw [Instruction.length, hspent.bytes_eq, List.length_cons, Instruction.length]
      · rw [hinvalid] at hvalid'
        cases hvalid'

/-- An addition of two vectors, behind which FS is in force and 66 selects: LOCK, an override
without effect, and F2, which selects another form. -/
theorem decodeAt_cons_addps :
    let s : List UInt8 := [0x66, 0x64, 0x0f, 0x58, 0x04, 0x25, 0, 1, 0, 0]
    ∃ r, decodeAt s 0 0x1000 .m64 = .ok r ∧ r.isValid ∧ r.length ≤ 14 ∧ r.mnemonic = .ADDPD ∧
      decodeAt (0xf0 :: s) 0 0x1000 .m64 =
        .ok (r.prefixed 0xf0 { r.prefixes with lock := true }) ∧
      decodeAt (0x2e :: s) 0 0x1000 .m64 = .ok (r.prefixed 0x2e r.prefixes) ∧
      ∃ r', decodeAt (0xf2 :: s) 0 0x1000 .m64 = .ok r' ∧ r'.mnemonic = .ADDSD ∧
        r'.length = r.length + 1 := by
  intro s
  have hr : decodeAt s 0 0x1000 .m64 = .ok (decode .m64 0x1000 s) := by decide +kernel
  have hvalid : (decode .m64 0x1000 s).isValid := by decide +kernel
  have hlen : (decode .m64 0x1000 s).length ≤ 14 := by decide +kernel
  obtain ⟨hlock, hsegment, hrepetition⟩ := decodeAt_cons hr hvalid hlen
  obtain ⟨r', hr', -, -, hlength⟩ := hrepetition 0xf2 .repne (by decide)
  have haddsd : decodeAt (0xf2 :: s) 0 0x1000 .m64 = .ok (decode .m64 0x1000 (0xf2 :: s)) := by
    decide +kernel
  obtain rfl := Except.ok.inj (hr'.symm.trans haddsd)
  refine ⟨_, hr, hvalid, hlen, by decide +kernel, hlock, ?_, _, hr', by decide +kernel,
    hlength (by decide +kernel)⟩
  have hcarries : Carries overrides .m64 s := by decide +kernel
  have hcs := hsegment rfl 0x2e .cs (by decide)
  rwa [if_pos hcarries] at hcs

end Disasm

