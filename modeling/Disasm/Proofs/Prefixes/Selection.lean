import Disasm.Proofs.Fields

/-!
# What a selecting prefix chooses

F2 and F3 may choose another form of an opcode than 66 or no prefix does. The maps are written so
that no choice shifts the bytes behind the opcode:

* a form that a prefix chooses is marked as such, and one without the mark is there under F2 and F3
  what it is without them;
* where F2 or F3 choose another form, the opcode has ModRM if it has it without them, and the form
  takes ModRM.rm for memory where the other does and has as many constants, each of one byte.

Both are checked over the leaves of the trees, and `fits_of_lookup` and `hasModRM_eq_of_lookup` say
what follows for an opcode. Opcodes without escape know no selecting prefix.
-/

namespace Disasm

/-! ## Forms that take the same bytes -/

/-- Whether an operand has as many bytes of its own at all sizes: none, or a constant's one. -/
def OperandSpec.steady (s : OperandSpec) : Bool :=
  match s.method with
  | .I => s.type = .b
  | .J | .O | .A => false
  | _ => true

theorem OperandSpec.fieldLength_of_steady {s : OperandSpec} (h : s.steady)
    (operation : DataSize) (address : AddressSize) :
    s.fieldLength operation address = if s.method = .I then 1 else 0 := by
  obtain ⟨method, type, number⟩ := s
  cases method with
  | I =>
    obtain rfl : type = .b := of_decide_eq_true h
    rfl
  | J | O | A => cases h
  | _ => cases type <;> rfl

namespace Form

/-- Whether two forms take the same bytes behind ModRM, whatever the sizes. -/
def resembles (f g : Form) : Bool :=
  f.registerOnly = g.registerOnly && f.operands.all OperandSpec.steady &&
    g.operands.all OperandSpec.steady &&
    f.operands.countP (·.method = .I) = g.operands.countP (·.method = .I)

variable {f g : Form}

theorem sum_fieldLength_of_steady {specs : List OperandSpec} (h : specs.all OperandSpec.steady)
    (operation : DataSize) (address : AddressSize) :
    (specs.map (·.fieldLength operation address)).sum = specs.countP (·.method = .I) := by
  induction specs with
  | nil => rfl
  | cons s rest ih =>
    rw [List.all_cons, Bool.and_eq_true] at h
    rw [List.map_cons, List.sum_cons, ih h.2, OperandSpec.fieldLength_of_steady h.1,
      List.countP_cons, Nat.add_comm]
    simp only [decide_eq_true_eq]

theorem registerOnly_of_resembles (h : f.resembles g) : g.registerOnly = f.registerOnly := by
  simp only [resembles, Bool.and_eq_true, decide_eq_true_eq] at h
  exact h.1.1.1.symm

theorem sum_fieldLength_of_resembles (h : f.resembles g) (operation operation' : DataSize)
    (address : AddressSize) :
    (g.operands.map (·.fieldLength operation' address)).sum =
      (f.operands.map (·.fieldLength operation address)).sum := by
  simp only [resembles, Bool.and_eq_true, decide_eq_true_eq] at h
  rw [sum_fieldLength_of_steady h.1.2, sum_fieldLength_of_steady h.1.1.2, h.2]

end Form

/-! ## Trees -/

/-- Of the second form, which F2 or F3 choose, and the first, which is there without them: the
second is marked and takes the same bytes, or it is the first. -/
def Form.Fits (f g : Form) : Prop :=
  if g.flags.prefixSelected then f.resembles g = true else g = f

instance (f g : Form) : Decidable (f.Fits g) := by
  unfold Form.Fits
  infer_instance

namespace Entry

/-- Whether two leaves have forms that are related, if both have one. -/
def both (related : Form → Form → Bool) : Entry → Entry → Bool
  | undefined, form _ | form _, undefined | undefined, undefined => true
  | form f, form g => related f g
  | _, _ => false

/-- Whether the leaves without F2 and F3 are related to those with them. -/
def acrossRepetition (related : Form → Form → Bool) (a b c d : Entry) : Bool :=
  both related a c && both related a d && both related b c && both related b d

/-- Whether F2 and F3 lead to forms that fit those without them. -/
def steady : Entry → Bool
  | undefined => true
  | form f => !f.flags.prefixSelected
  | bySelector a b c d => acrossRepetition (fun f g => f.Fits g) a b c d
  | byMode _ _ => false
  | byMod memory register => memory.steady && register.steady
  | byReg r0 r1 r2 r3 r4 r5 r6 r7 =>
    r0.steady && r1.steady && r2.steady && r3.steady && r4.steady && r5.steady && r6.steady &&
      r7.steady
  | byRM r0 r1 r2 r3 r4 r5 r6 r7 =>
    r0.steady && r1.steady && r2.steady && r3.steady && r4.steady && r5.steady && r6.steady &&
      r7.steady

/-- Whether the opcode has ModRM under F2 and F3 if it has it without them. -/
def keepsModRM : Entry → Bool
  | bySelector a b c d => acrossRepetition (fun f g => f.usesModRM = g.usesModRM) a b c d
  | byMode _ _ => false
  | _ => true

variable {s s' : Selector} {mode : Mode} {m m' : ModRM} {e a b c d : Entry} {f g : Form}
  {related : Form → Form → Bool}

theorem related_of_both (h : both related a b) (ha : a.resolve s mode m = some f)
    (hb : b.resolve s' mode m' = some g) : a = form f ∧ b = form g ∧ related f g := by
  cases a with
  | undefined => cases ha
  | form f' =>
    cases b with
    | undefined => cases hb
    | form g' =>
      cases ha
      cases hb
      exact ⟨rfl, rfl, h⟩
    | _ => cases h
  | _ => cases b <;> cases h

/-- A selector without F2 and F3, and one that stands for one of them. -/
def Repeated (s s' : Selector) : Prop :=
  (s = .none ∨ s = .operandSize) ∧ (s' = .rep ∨ s' = .repne)

theorem related_of_acrossRepetition (hs : Repeated s s')
    (h : acrossRepetition related a b c d)
    (hf : (bySelector a b c d).resolve s mode m = some f)
    (hg : (bySelector a b c d).resolve s' mode m' = some g) :
    (bySelector a b c d).hasModRM s = f.usesModRM ∧
      (bySelector a b c d).hasModRM s' = g.usesModRM ∧ related f g := by
  simp only [acrossRepetition, Bool.and_eq_true] at h
  obtain ⟨⟨⟨hac, had⟩, hbc⟩, hbd⟩ := h
  obtain ⟨rfl | rfl, rfl | rfl⟩ := hs
  · obtain ⟨rfl, rfl, hrelated⟩ := related_of_both hac hf hg
    exact ⟨rfl, rfl, hrelated⟩
  · obtain ⟨rfl, rfl, hrelated⟩ := related_of_both had hf hg
    exact ⟨rfl, rfl, hrelated⟩
  · obtain ⟨rfl, rfl, hrelated⟩ := related_of_both hbc hf hg
    exact ⟨rfl, rfl, hrelated⟩
  · obtain ⟨rfl, rfl, hrelated⟩ := related_of_both hbd hf hg
    exact ⟨rfl, rfl, hrelated⟩

theorem resolve_pick (n : Fin 8) (r0 r1 r2 r3 r4 r5 r6 r7 : Entry) :
    (pick n r0 r1 r2 r3 r4 r5 r6 r7).resolve s mode m =
      pick n (r0.resolve s mode m) (r1.resolve s mode m) (r2.resolve s mode m)
        (r3.resolve s mode m) (r4.resolve s mode m) (r5.resolve s mode m) (r6.resolve s mode m)
        (r7.resolve s mode m) := by
  fin_cases n <;> rfl

theorem pick_of_forall {P : Entry → Prop} {r0 r1 r2 r3 r4 r5 r6 r7 : Entry} (n : Fin 8)
    (h0 : P r0) (h1 : P r1) (h2 : P r2) (h3 : P r3) (h4 : P r4) (h5 : P r5) (h6 : P r6)
    (h7 : P r7) : P (pick n r0 r1 r2 r3 r4 r5 r6 r7) := by
  fin_cases n <;> assumption

/-- Under F2 or F3 the same ModRM leads to a form that fits the one without them. -/
theorem fits_of_steady (hs : Repeated s s') (h : e.steady) (hf : e.resolve s mode m = some f)
    (hg : e.resolve s' mode m = some g) : f.Fits g := by
  induction e with
  | undefined => cases hf
  | form f' =>
    cases hf
    cases hg
    rw [steady, Bool.not_eq_true'] at h
    simp [Form.Fits, h]
  | bySelector a b c d _ _ _ _ =>
    exact of_decide_eq_true (related_of_acrossRepetition hs h hf hg).2.2
  | byMode _ _ _ _ => cases h
  | byMod memory register ihm ihr =>
    rw [steady, Bool.and_eq_true] at h
    simp only [resolve] at hf hg
    split at hf
    · next hr =>
      rw [if_pos hr] at hg
      exact ihr h.2 hf hg
    · next hr =>
      rw [if_neg hr] at hg
      exact ihm h.1 hf hg
  | byReg r0 r1 r2 r3 r4 r5 r6 r7 h0 h1 h2 h3 h4 h5 h6 h7 =>
    simp only [steady, Bool.and_eq_true] at h
    obtain ⟨⟨⟨⟨⟨⟨⟨s0, s1⟩, s2⟩, s3⟩, s4⟩, s5⟩, s6⟩, s7⟩ := h
    rw [resolve, ← resolve_pick] at hf hg
    exact pick_of_forall (P := fun r => r.resolve s mode m = some f → r.resolve s' mode m = some g →
      f.Fits g) m.reg (h0 s0) (h1 s1) (h2 s2) (h3 s3) (h4 s4) (h5 s5) (h6 s6) (h7 s7) hf hg
  | byRM r0 r1 r2 r3 r4 r5 r6 r7 h0 h1 h2 h3 h4 h5 h6 h7 =>
    simp only [steady, Bool.and_eq_true] at h
    obtain ⟨⟨⟨⟨⟨⟨⟨s0, s1⟩, s2⟩, s3⟩, s4⟩, s5⟩, s6⟩, s7⟩ := h
    rw [resolve, ← resolve_pick] at hf hg
    exact pick_of_forall (P := fun r => r.resolve s mode m = some f → r.resolve s' mode m = some g →
      f.Fits g) m.rm (h0 s0) (h1 s1) (h2 s2) (h3 s3) (h4 s4) (h5 s5) (h6 s6) (h7 s7) hf hg

theorem hasModRM_of_keepsModRM (hs : Repeated s s') (h : e.keepsModRM)
    (hf : e.resolve s mode m = some f) (hg : e.resolve s' mode m' = some g) :
    e.hasModRM s' = e.hasModRM s := by
  cases e with
  | bySelector a b c d =>
    obtain ⟨hs, hs', hrelated⟩ := related_of_acrossRepetition hs h hf hg
    rw [hs, hs', of_decide_eq_true hrelated]
  | byMode _ _ => cases h
  | _ => rfl

end Entry

namespace OpcodeMap

/-- Every place of the maps in which prefixes select. -/
def selectedEntries : List Entry := twoByteMap ++ map38.map Prod.snd ++ map3A.map Prod.snd

theorem steady_of_mem_selectedEntries :
    ∀ e ∈ selectedEntries, e.steady = true ∧ e.keepsModRM = true := by
  decide +kernel

variable {escape : Escape} {opcode : UInt8} {s s' : Selector} {mode : Mode} {m m' : ModRM}
  {f g : Form}

/-- Opcodes without escape have no selecting prefix. -/
def Selects (escape : Escape) : Prop := escape ≠ .oneByte ∧ escape ≠ .x87

theorem entry_mem_selectedEntries (he : Selects escape)
    (h : (entry escape opcode).resolve s mode m = some f) :
    entry escape opcode ∈ selectedEntries := by
  have hentry := entry_mem_of_resolve h
  simp only [selectedEntries, List.mem_append]
  cases escape with
  | oneByte => exact absurd rfl he.1
  | x87 => exact absurd rfl he.2
  | twoByte => exact Or.inl (Or.inl hentry)
  | threeByte38 => exact Or.inl (Or.inr hentry)
  | threeByte3A => exact Or.inr hentry

theorem fits_of_lookup (he : Selects escape) (hs : Entry.Repeated s s')
    (hf : lookup escape opcode m s mode = some f) (hg : lookup escape opcode m s' mode = some g) :
    f.Fits g :=
  Entry.fits_of_steady hs
    (steady_of_mem_selectedEntries _ (entry_mem_selectedEntries he (resolve_of_lookup hf))).1
    (resolve_of_lookup hf) (resolve_of_lookup hg)

theorem hasModRM_eq_of_lookup (he : Selects escape) (hs : Entry.Repeated s s')
    (hf : lookup escape opcode m s mode = some f)
    (hg : lookup escape opcode m' s' mode = some g) :
    hasModRM escape opcode s' = hasModRM escape opcode s := by
  have hx87 : decide (escape = .x87) = false := decide_eq_false he.2
  rw [hasModRM, hasModRM, hx87, Bool.false_or, Bool.false_or]
  exact Entry.hasModRM_of_keepsModRM hs
    (steady_of_mem_selectedEntries _ (entry_mem_selectedEntries he (resolve_of_lookup hf))).2
    (resolve_of_lookup hf) (resolve_of_lookup hg)

end OpcodeMap

end Disasm
