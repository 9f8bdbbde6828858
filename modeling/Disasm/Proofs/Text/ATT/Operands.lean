import Disasm.Proofs.Text.Access
import Disasm.Proofs.Text.Words

/-!
# Operands in AT&T syntax

Operands other than far pointers read as one (`piece_operandInPlace`), so that commas between them
separate them. Their kinds are told apart by how they start (`openings`), by the colon after a
segment, and by the star before what a branch goes through.

* `isMemory_eq_of_inPlace_eq` — the same text, the same kind.
* `register?_eq_of_inPlace_eq` — the same text, the same register.
-/

namespace Disasm.ATT

open Text

variable {i j : Instruction} {f g : Form} {wide wide' : Bool}

/-! ## Operands read as one -/

theorem piece_register (r : Option Register) (depth : Nat) :
    scan depth (register r).toList = some depth := by
  have hpercent : Plain ("%").toList := by simp [Plain]
  rw [register, String.toList_append, scan_append_of_eq (hpercent.scan_eq depth)]
  cases r with
  | none => rfl
  | some r => exact r.scan_name depth

theorem plain_lower (n : Nat) : Plain (Hex.lower n).toList :=
  Hex.plain_of_isNumeral fun _ => Hex.isNumeral_lower

theorem plain_signed (v : Int) : Plain (Hex.signed v).toList :=
  Hex.plain_of_isNumeral fun _ => Hex.isNumeral_signed

/-- What stands between the parentheses. -/
def inside (m : Memory) : String :=
  (match m.base with
    | some b => register (some b)
    | none => "") ++
  (match m.index with
    | some x => "," ++ register (some x) ++ "," ++ toString m.scale
    | none => "")

/-- What follows the segment. -/
def place (m : Memory) : String :=
  if m.base = none ∧ m.index = none then
    Hex.lower (m.addressSize.dataSize.truncate (UInt64.ofInt m.displacement)).toNat
  else
    (if m.displacement ≠ 0 ∨ m.base = none ∨ m.ripRelative then Hex.signed m.displacement
      else "") ++ ("(" ++ (inside m ++ ")"))

theorem memory_of_segment_none {m : Memory} (h : m.segment = none) : memory m = place m := by
  unfold memory place inside
  rw [h]
  cases m.base <;> cases m.index <;> simp [String.append_assoc]

theorem memory_of_segment_some {m : Memory} {r : Register} (h : m.segment = some r) :
    memory m = register (some r) ++ ":" ++ place m := by
  unfold memory place inside
  rw [h]
  cases m.base <;> cases m.index <;> simp [String.append_assoc]

theorem scan_inside (m : Memory) : scan 1 (inside m).toList = some 1 := by
  have hbase : scan 1 (match m.base with
      | some b => register (some b)
      | none => "").toList = some 1 := by
    cases m.base with
    | none => rfl
    | some b => exact piece_register _ 1
  rw [inside, String.toList_append, scan_append_of_eq hbase]
  cases m.index with
  | none => rfl
  | some x =>
    have hcomma : scan 1 (",").toList = some 1 := by decide
    simp only [String.toList_append]
    rw [List.append_assoc, List.append_assoc, scan_append_of_eq hcomma,
      scan_append_of_eq (piece_register _ 1), scan_append_of_eq hcomma]
    exact (Hex.plain_of_isNumeral fun _ => Hex.isNumeral_toString).scan_eq 1

theorem piece_place (m : Memory) : Piece (place m).toList := by
  unfold place
  split_ifs with habsolute hdisplacement
  · exact (plain_lower _).piece
  · have hopen : scan 0 ("(").toList = some 1 := by decide
    rw [Piece, String.toList_append, scan_append_of_eq ((plain_signed _).piece),
      String.toList_append, scan_append_of_eq hopen, String.toList_append,
      scan_append_of_eq (scan_inside m)]
    decide
  · have hopen : scan 0 ("(").toList = some 1 := by decide
    rw [Piece, String.empty_append, String.toList_append, scan_append_of_eq hopen,
      String.toList_append, scan_append_of_eq (scan_inside m)]
    decide

theorem piece_memory (m : Memory) : Piece (memory m).toList := by
  cases h : m.segment with
  | none =>
    rw [memory_of_segment_none h]
    exact piece_place m
  | some r =>
    have hcolon : Piece (":").toList := by decide
    have hregister : Piece (register (some r)).toList := piece_register _ 0
    rw [memory_of_segment_some h, String.toList_append, String.toList_append]
    exact (hregister.append hcolon).append (piece_place m)

theorem piece_operandInPlace {o : Operand} (h : ∀ p, o ≠ .far p) :
    Piece (operandInPlace i o).toList := by
  have hoperand : Piece (operand i o).toList := by
    cases o with
    | register r => exact piece_register r 0
    | memory m => exact piece_memory m
    | immediate v =>
      have hdollar : Piece ("$").toList := by decide
      rw [operand, String.toList_append]
      exact hdollar.append (plain_lower _).piece
    | relative r => exact (plain_lower _).piece
    | far p => exact absurd rfl (h p)
  have hport : Piece ("(%dx)").toList := by decide
  unfold operandInPlace
  dsimp only
  rw [String.toList_append]
  refine Piece.append ?_ ?_
  · split_ifs
    · split <;> decide
    · rfl
  · split_ifs
    · exact hport
    · exact hoperand

/-! ## Kinds of operands -/

/-- The characters that an operand can start with. -/
def openings : Operand → List Char
  | .register _ => ['%']
  | .memory _ => ['%', '0', '-', '(']
  | .immediate _ | .far _ => ['$']
  | .relative _ => ['0']

theorem head?_append_of_ne {a b : String} {c : Char} (h : a.toList.head? = some c) :
    (a ++ b).toList.head? = some c := by
  rw [String.toList_append, List.head?_append, h]
  rfl

theorem head?_lower (n : Nat) : (Hex.lower n).toList.head? = some '0' :=
  head?_append_of_ne rfl

theorem head?_signed (v : Int) : (Hex.signed v).toList.head? = some '-' ∨
    (Hex.signed v).toList.head? = some '0' := by
  unfold Hex.signed
  split_ifs
  · exact Or.inl (head?_append_of_ne rfl)
  · exact Or.inr (head?_lower _)

theorem head?_register (r : Option Register) : (register r).toList.head? = some '%' :=
  head?_append_of_ne rfl

theorem head?_place (m : Memory) : ∃ c ∈ ['0', '-', '('], (place m).toList.head? = some c := by
  unfold place
  split_ifs
  · exact ⟨'0', by decide, head?_lower _⟩
  · rcases head?_signed m.displacement with h | h
    · exact ⟨'-', by decide, head?_append_of_ne h⟩
    · exact ⟨'0', by decide, head?_append_of_ne h⟩
  · refine ⟨'(', by decide, ?_⟩
    rw [String.empty_append]
    exact head?_append_of_ne rfl

theorem head?_operand (i : Instruction) (o : Operand) :
    ∃ c ∈ openings o, (operand i o).toList.head? = some c := by
  cases o with
  | register r => exact ⟨'%', List.mem_singleton_self _, head?_register r⟩
  | memory m =>
    cases h : m.segment with
    | none =>
      obtain ⟨c, hc, hhead⟩ := head?_place m
      refine ⟨c, List.mem_cons_of_mem _ hc, ?_⟩
      rwa [operand, memory_of_segment_none h]
    | some r =>
      refine ⟨'%', List.mem_cons_self, ?_⟩
      rw [operand, memory_of_segment_some h]
      exact head?_append_of_ne (head?_append_of_ne (head?_register _))
  | immediate v => exact ⟨'$', List.mem_singleton_self _, head?_append_of_ne rfl⟩
  | relative r => exact ⟨'0', List.mem_singleton_self _, head?_lower _⟩
  | far p =>
    refine ⟨'$', List.mem_singleton_self _, ?_⟩
    rw [operand]
    exact head?_append_of_ne (head?_append_of_ne (head?_append_of_ne rfl))

theorem not_disjoint_openings {o o' : Operand} (h : operand i o = operand j o') :
    ∃ c, c ∈ openings o ∧ c ∈ openings o' := by
  obtain ⟨c, hc, hhead⟩ := head?_operand i o
  obtain ⟨c', hc', hhead'⟩ := head?_operand j o'
  rw [h, hhead'] at hhead
  cases hhead
  exact ⟨c, hc, hc'⟩

theorem colon_not_mem_register (r : Option Register) : ':' ∉ (register r).toList := by
  rw [register, String.toList_append, List.mem_append, not_or]
  refine ⟨by simp, ?_⟩
  cases r with
  | none => exact List.not_mem_nil
  | some r => exact r.not_mem_name (by decide)

/-- A segment before a place is no register: a colon follows it. -/
theorem memory_ne_register (m : Memory) (r : Option Register) : memory m ≠ register r := fun h => by
  cases hsegment : m.segment with
  | none =>
    obtain ⟨c, hc, hhead⟩ := head?_place m
    rw [← memory_of_segment_none hsegment, h, head?_register] at hhead
    cases hhead
    exact absurd hc (by decide)
  | some s =>
    rw [memory_of_segment_some hsegment] at h
    refine colon_not_mem_register r ?_
    rw [← h]
    simp

theorem register_injective {r r' : Option Register} (h : register r = register r') : r = r' := by
  have hne : ∀ r : Register, r.name ≠ "" := fun r => by
    have hnames : ∀ r ∈ Register.all, r.name ≠ "" := by decide +kernel
    exact hnames r r.mem_all
  have hname := (String.append_right_inj _).1 h
  cases r with
  | none =>
    cases r' with
    | none => rfl
    | some r' => exact absurd hname.symm (hne r')
  | some r =>
    cases r' with
    | none => exact absurd hname (hne r)
    | some r' => rw [Register.name_injective hname]

/-- Whether an operand has a star before it. -/
def starred (m : Mnemonic) (o : Operand) : Bool :=
  Mnemonic.indirectBranches.contains m && (o.isMemory || o matches .register _)

theorem operandInPlace_eq {o : Operand} (h : i.mnemonic ≠ .IN ∧ i.mnemonic ≠ .OUT) :
    operandInPlace i o = (if starred i.mnemonic o then "*" else "") ++ operand i o := by
  unfold operandInPlace starred
  cases Mnemonic.indirectBranches.contains i.mnemonic <;> cases o <;>
    simp [h, Operand.isMemory, Operand.memory?]

theorem star_not_mem_openings (o : Operand) : '*' ∉ openings o := by
  cases o <;> simp [openings]

theorem head?_operandInPlace (h : i.mnemonic ≠ .IN ∧ i.mnemonic ≠ .OUT) (o : Operand) :
    ∃ c ∈ if starred i.mnemonic o then ['*'] else openings o,
      (operandInPlace i o).toList.head? = some c := by
  rw [operandInPlace_eq h]
  split_ifs
  · exact ⟨'*', List.mem_singleton_self _, head?_append_of_ne rfl⟩
  · rw [String.empty_append]
    exact head?_operand i o

section Pairs

variable {o o' : Operand}

theorem operand_eq_of_inPlace_eq (hm : i.mnemonic = j.mnemonic)
    (hport : i.mnemonic ≠ .IN ∧ i.mnemonic ≠ .OUT)
    (h : operandInPlace i o = operandInPlace j o') :
    starred i.mnemonic o = starred i.mnemonic o' ∧ operand i o = operand j o' := by
  obtain ⟨c, hc, hhead⟩ := head?_operandInPlace hport o
  obtain ⟨c', hc', hhead'⟩ := head?_operandInPlace (hm ▸ hport) o'
  rw [h, hhead'] at hhead
  cases hhead
  rw [operandInPlace_eq hport, operandInPlace_eq (hm ▸ hport)] at h
  rw [← hm] at h hc'
  cases ho : starred i.mnemonic o <;> cases ho' : starred i.mnemonic o' <;>
    simp only [ho, ho', if_true, Bool.false_eq_true, if_false, List.mem_singleton,
      String.append_right_inj] at h hc hc'
  · exact ⟨rfl, h⟩
  · exact absurd (hc' ▸ hc) (star_not_mem_openings o)
  · exact absurd (hc ▸ hc') (star_not_mem_openings o')
  · exact ⟨rfl, h⟩

/-- Operations on memory reach no port. -/
theorem not_port_of_memory (h : i.Composed f wide) (hm : i.operands.any Operand.isMemory) :
    i.mnemonic ≠ .IN ∧ i.mnemonic ≠ .OUT := by
  have hnames : ∀ x ∈ Mnemonic.wideNames, x.2 ≠ .IN ∧ x.2 ≠ .OUT := by decide
  obtain ⟨-, -, -, hin, hout, -⟩ := OpcodeMap.access_form f (h.mem_accessForms hm)
  rw [h.mnemonic_eq_widened hm]
  rcases f.mnemonic.widened_eq_or wide with heq | hwide
  · rw [heq]
    exact ⟨hin, hout⟩
  · exact hnames _ hwide

/-- The text of memory is not that of another operand of the same operation. -/
theorem isMemory_of_inPlace_eq (hi : i.Composed f wide) (hj : j.Composed g wide')
    (hm : i.mnemonic = j.mnemonic) (ho : o ∈ i.operands) (ho' : o' ∈ j.operands)
    (h : operandInPlace i o = operandInPlace j o') (hmem : o.isMemory) : o'.isMemory := by
  have hany : i.operands.any Operand.isMemory := List.any_eq_true.2 ⟨o, ho, hmem⟩
  obtain ⟨hstar, htext⟩ := operand_eq_of_inPlace_eq hm (not_port_of_memory hi hany) h
  cases o with
  | memory m =>
    cases o' with
    | memory m' => rfl
    | register r => exact absurd htext (memory_ne_register m r)
    | relative r =>
      -- Both kinds occur with near calls and jumps only, which mark memory with a star.
      have hbranch := hi.isBranch_of_memory hany (hm ▸ hj.isBranch_of_relative ho')
      rcases hbranch with hname | hname <;> rw [hname] at hstar <;> cases hstar
    | immediate v | far p =>
      obtain ⟨c, hc, hc'⟩ := not_disjoint_openings htext
      rw [List.mem_singleton.1 hc'] at hc
      simp [openings] at hc
  | _ => cases hmem

theorem isMemory_eq_of_inPlace_eq (hi : i.Composed f wide) (hj : j.Composed g wide')
    (hm : i.mnemonic = j.mnemonic) (ho : o ∈ i.operands) (ho' : o' ∈ j.operands)
    (h : operandInPlace i o = operandInPlace j o') : o.isMemory = o'.isMemory :=
  Bool.eq_iff_iff.2 ⟨isMemory_of_inPlace_eq hi hj hm ho ho' h,
    isMemory_of_inPlace_eq hj hi hm.symm ho' ho h.symm⟩

theorem register?_eq_of_inPlace_eq (hm : i.mnemonic = j.mnemonic)
    (hport : i.mnemonic ≠ .IN ∧ i.mnemonic ≠ .OUT) (h : operandInPlace i o = operandInPlace j o')
    (hmem : o.isMemory = o'.isMemory) : o.register? = o'.register? := by
  obtain ⟨-, htext⟩ := operand_eq_of_inPlace_eq hm hport h
  have hregister : ∀ {k l : Instruction} {r : Option Register} {o : Operand},
      operand k (.register r) = operand l o → o.isMemory = false → o.register? = r :=
    fun {k l r o} h hmem => by
      cases o with
      | register r' => exact (register_injective h).symm
      | memory m => cases hmem
      | _ =>
        obtain ⟨c, hc, hc'⟩ := not_disjoint_openings h
        rw [List.mem_singleton.1 hc] at hc'
        simp [openings] at hc'
  cases o with
  | register r => exact (hregister htext hmem.symm).symm
  | _ =>
    cases o' with
    | register r' => exact hregister htext.symm hmem
    | _ => rfl

end Pairs

end Disasm.ATT
