import Disasm.Proofs.Text.ATT.Names
import Disasm.Proofs.Text.ATT.Operands

/-!
# What a line of AT&T syntax accesses

**Theorem (`access_eq_of_att_text_eq`).** Two instructions with the same line have the same mnemonic
and operands in memory at the same places. What they access has the same size, except for the
operations that `ATT.hidesSize` names, of which a line does not show it.

A line gives a name and operands. The same name is the same mnemonic (`mnemonic_eq_of_name_eq_or`),
and the same texts are operands of the same kinds. So registers stand at the same places, and the
suffix settles the size (`size_eq_of_suffix_eq`). The exceptions are none too many
(`exists_text_eq_of_hidesSize`).
-/

namespace Disasm

/-- Conversions of integers read a doubleword, or a quadword if that is the operation size. -/
theorem OpcodeMap.conversion_form : ∀ f ∈ recordForms,
    f.mnemonic = .CVTSI2SS ∨ f.mnemonic = .CVTSI2SD → f.operands = [.Vx, .Ey] := by
  decide +kernel

namespace ATT

open Text

variable {i j : Instruction} {f g : Form} {wide wide' : Bool}

/-! ## Lines -/

/-- What follows the name. -/
def rest (i : Instruction) : String :=
  let os := order i i.shownOperands
  (if os.isEmpty then "" else " " ++ ",".intercalate (os.map (operandInPlace i))) ++ comment i os

theorem text_eq (i : Instruction) : text i = i.prefixText ++ name i ++ rest i :=
  String.append_assoc

theorem rest_of_nil (h : i.shownOperands = []) : rest i = "" := by
  have horder : order i [] = [] := by
    unfold order
    split_ifs <;> rfl
  rw [rest, h, horder]
  rfl

theorem order_ne_nil {os : List Operand} (h : os ≠ []) : order i os ≠ [] := by
  unfold order
  split_ifs
  · exact h
  · exact fun hnil => h (List.reverse_eq_nil_iff.1 hnil)

theorem rest_of_ne_nil (h : i.shownOperands ≠ []) :
    rest i = " " ++ (",".intercalate ((order i i.shownOperands).map (operandInPlace i)) ++
      comment i (order i i.shownOperands)) := by
  unfold rest
  dsimp only
  rw [if_neg (by simpa using order_ne_nil h), String.append_assoc]

theorem separated_rest (i : Instruction) : Separated (rest i).toList := by
  by_cases h : i.shownOperands = []
  · rw [rest_of_nil h]
    exact separated_nil
  · rw [rest_of_ne_nil h, String.toList_append]
    exact separated_space _

theorem endsList_comment (i : Instruction) (os : List Operand) :
    EndsList (comment i os).toList := by
  unfold comment
  dsimp only
  split
  · rw [String.toList_append]
    exact fun c hc => by cases hc; rfl
  · exact fun c hc => nomatch hc

theorem mem_order {os : List Operand} {o : Operand} : o ∈ order i os ↔ o ∈ os := by
  unfold order
  split_ifs
  · rfl
  · exact List.mem_reverse

theorem map_order_inj {α : Type} {F G : Operand → α} {os os' : List Operand}
    (horder : i.mnemonic = .ENTER ↔ j.mnemonic = .ENTER)
    (h : (order i os).map F = (order j os').map G) : os.map F = os'.map G := by
  unfold order at h
  by_cases hi : i.mnemonic = .ENTER
  · rwa [if_pos hi, if_pos (horder.1 hi)] at h
  · rw [if_neg hi, if_neg (mt horder.2 hi), List.map_reverse, List.map_reverse] at h
    exact List.reverse_injective h

/-- Lines with the same rest have the same texts of operands. -/
theorem map_operandInPlace_eq (horder : i.mnemonic = .ENTER ↔ j.mnemonic = .ENTER)
    (hi : ∀ o ∈ i.shownOperands, ∀ p, o ≠ .far p) (hj : ∀ o ∈ j.shownOperands, ∀ p, o ≠ .far p)
    (h : rest i = rest j) :
    i.shownOperands.map (operandInPlace i) = j.shownOperands.map (operandInPlace j) := by
  have hnil : ∀ {k l : Instruction}, rest k = rest l → k.shownOperands = [] →
      l.shownOperands = [] := fun {k l} h hk => by
    by_contra hl
    rw [rest_of_nil hk, rest_of_ne_nil hl] at h
    simpa using congrArg String.toList h
  by_cases hempty : i.shownOperands = []
  · rw [hempty, hnil h hempty]
    rfl
  · have hempty' : j.shownOperands ≠ [] := fun hj => hempty (hnil h.symm hj)
    rw [rest_of_ne_nil hempty, rest_of_ne_nil hempty'] at h
    have hlists := congrArg String.toList ((String.append_right_inj _).1 h)
    simp only [String.toList_append, String.toList_intercalate] at hlists
    have hpieces : ∀ {k : Instruction}, (∀ o ∈ k.shownOperands, ∀ p, o ≠ .far p) →
        ∀ t ∈ ((order k k.shownOperands).map (operandInPlace k)).map String.toList, Piece t :=
      fun hk => by
        simp only [List.map_map, List.forall_mem_map]
        exact fun o ho => piece_operandInPlace (hk o (mem_order.1 ho))
    have htexts := (intercalate_inj (hpieces hi) (hpieces hj) (by simpa using order_ne_nil hempty)
      (by simpa using order_ne_nil hempty') (endsList_comment _ _) (endsList_comment _ _) hlists).1
    exact map_order_inj horder
      (List.map_injective_iff.2 (fun _ _ => String.toList_inj.1) htexts)

/-! ## What is accessed -/

/-- Operations of which a line does not show the size of what they access: their names have no
suffix, and their registers, if any, do not tell. Conversions access doublewords outside 64-bit
mode, and near calls and jumps quadwords in it, so that they hide nothing there. -/
def hidesSize (mode : Mode) (m : Mnemonic) : Bool :=
  [Mnemonic.CALLF, .JMPF, .CRC32].contains m ||
    (if mode = .m64 then [Mnemonic.CVTSI2SS, .CVTSI2SD] else [.CALL, .JMP]).contains m

/-- The sizes of what the operands in memory access, place by place. -/
def accessSizes (i : Instruction) : List (Option DataSize) :=
  i.operands.map fun o => o.memory?.map (·.size)

/-- Where two lists are mapped to one, so they are by functions that agree on equals. -/
theorem map_eq_map_of_map_eq {α β γ : Type} {as bs : List α} {F F' : α → β} {G G' : α → γ}
    (h : as.map F = bs.map F') (hG : ∀ a ∈ as, ∀ b ∈ bs, F a = F' b → G a = G' b) :
    as.map G = bs.map G' := by
  induction as generalizing bs with
  | nil =>
    rw [List.map_eq_nil_iff.1 h.symm]
    rfl
  | cons a as ih =>
    cases bs with
    | nil => cases h
    | cons b bs =>
      obtain ⟨hhead, htail⟩ := List.cons.inj h
      rw [List.map_cons, List.map_cons, hG a List.mem_cons_self b List.mem_cons_self hhead]
      rw [ih htail fun a ha b hb => hG a (List.mem_cons_of_mem _ ha) b (List.mem_cons_of_mem _ hb)]

theorem shownOperands_of_isString_false (h : i.isString = false) : i.shownOperands = i.operands :=
  Instruction.shownOperands_of_none (if_neg fun hs => by rw [h] at hs; cases hs.2)

theorem rest_of_singleton {o : Operand} (h : i.shownOperands = [o]) :
    rest i = " " ++ (operandInPlace i o ++ comment i (order i i.shownOperands)) := by
  have horder : order i [o] = [o] := by
    unfold order
    split_ifs <;> rfl
  rw [rest_of_ne_nil (by rw [h]; exact List.cons_ne_nil _ _), h, horder, List.map_singleton,
    String.intercalate_singleton]

/-- A far pointer is not printed like memory, which has a star before it. -/
theorem rest_ne_of_far (hfar : i.mnemonic = .CALLF ∨ i.mnemonic = .JMPF)
    (hfar' : j.mnemonic = .CALLF ∨ j.mnemonic = .JMPF) {p : FarPointer} {m : Memory}
    (hi : i.shownOperands = [.far p]) (hj : j.shownOperands = [.memory m]) : rest i ≠ rest j := by
  have hport : ∀ {k : Instruction}, k.mnemonic = .CALLF ∨ k.mnemonic = .JMPF →
      k.mnemonic ≠ .IN ∧ k.mnemonic ≠ .OUT := fun hk => by
    rcases hk with hk | hk <;> rw [hk] <;> decide
  have hplain : starred i.mnemonic (.far p) = false := by
    rcases hfar with hk | hk <;> rw [hk] <;> rfl
  have hstar : starred j.mnemonic (.memory m) := by
    rcases hfar' with hk | hk <;> rw [hk] <;> rfl
  obtain ⟨c, hc, hhead⟩ := head?_operandInPlace (hport hfar) (.far p)
  obtain ⟨c', hc', hhead'⟩ := head?_operandInPlace (hport hfar') (.memory m)
  rw [hplain, if_neg (by decide), openings, List.mem_singleton] at hc
  rw [hstar, if_pos rfl, List.mem_singleton] at hc'
  subst hc hc'
  intro h
  rw [rest_of_singleton hi, rest_of_singleton hj, String.append_right_inj] at h
  have hheads := congrArg (·.toList.head?) h
  rw [head?_append_of_ne hhead, head?_append_of_ne hhead'] at hheads
  cases hheads

/-- Far calls and jumps have one operand: a pointer, or memory. -/
theorem map_isMemory_of_far (hi : i.Composed f wide) (hj : j.Composed g wide')
    (hm : i.mnemonic = j.mnemonic) (hfar : i.mnemonic = .CALLF ∨ i.mnemonic = .JMPF)
    (h : rest i = rest j) : i.operands.map Operand.isMemory = j.operands.map Operand.isMemory := by
  have hshown : ∀ {k : Instruction}, k.mnemonic = .CALLF ∨ k.mnemonic = .JMPF →
      k.shownOperands = k.operands := fun hk => shownOperands_of_isString_false (by
    rcases hk with hk | hk <;> simp [Instruction.isString, hk] <;> decide)
  have hfar' : j.mnemonic = .CALLF ∨ j.mnemonic = .JMPF := hm ▸ hfar
  rcases hi.far_operands hfar with ⟨-, p, hp⟩ | ⟨m, hmem, -⟩ <;>
    rcases hj.far_operands hfar' with ⟨-, p', hp'⟩ | ⟨m', hmem', -⟩
  · rw [hp, hp']
    rfl
  · exact absurd h (rest_ne_of_far hfar hfar' ((hshown hfar).trans hp) ((hshown hfar').trans hmem'))
  · exact absurd h.symm
      (rest_ne_of_far hfar' hfar ((hshown hfar').trans hp') ((hshown hfar).trans hmem))
  · rw [hmem, hmem']
    rfl

theorem ne_far_of_mem_shownOperands (h : i.Composed f wide) (hs : i.isString = false)
    (hfar : ¬ (i.mnemonic = .CALLF ∨ i.mnemonic = .JMPF)) :
    ∀ o ∈ i.shownOperands, ∀ p, o ≠ .far p := fun o ho p heq => by
  rw [shownOperands_of_isString_false hs] at ho
  exact hfar (h.mnemonic_of_far (heq ▸ ho))

theorem name_of_access (h : i.Composed f wide) (hm : i.operands.any Operand.isMemory)
    (hmarked : i.mnemonic ∉ unmarked) : name i = i.mnemonic.name ++ suffix i := by
  have hnames : ∀ x ∈ Mnemonic.wideNames, ownNames.lookup x.2 = none := by decide
  have hspecial : ∀ m ∈ [Mnemonic.CALLF, .JMPF, .MOVSXD, .MOVZX, .MOVSX], m ∈ unmarked := by decide
  have hne : ∀ m ∈ [Mnemonic.CALLF, .JMPF, .MOVSXD, .MOVZX, .MOVSX], i.mnemonic ≠ m :=
    fun m hm heq => hmarked (heq ▸ hspecial m hm)
  obtain ⟨-, -, -, -, -, hown⟩ := OpcodeMap.access_form f (h.mem_accessForms hm)
  refine name_eq_suffixed ?_ ⟨hne _ (by simp), hne _ (by simp), hne _ (by simp)⟩
    (h.isString_eq_false hm)
  have heq := h.mnemonic_eq_widened hm
  rcases f.mnemonic.widened_eq_or wide with hsame | hwide
  · rw [hsame] at heq
    rw [← heq] at hown
    exact hown.resolve_right fun hfar => hfar.elim (hne _ (by simp)) (hne _ (by simp))
  · rw [heq]
    exact hnames _ hwide

theorem size_eq_qword_of_near (h : i.Composed f wide) (hmode : i.mode = .m64)
    (hnear : i.mnemonic = .CALL ∨ i.mnemonic = .JMP) {m : Memory} (hm : .memory m ∈ i.operands) :
    m.size = .qword := by
  obtain ⟨hqword, ⟨r, hr⟩ | ⟨r, hr⟩ | ⟨p, hp, hsize⟩⟩ := h.near_operands hnear
  · rw [hr] at hm
    cases List.mem_singleton.1 hm
  · rw [hr] at hm
    cases List.mem_singleton.1 hm
  · rw [hp] at hm
    cases List.mem_singleton.1 hm
    rw [hsize, hqword hmode]

theorem size_eq_dword_of_conversion (h : i.Composed f wide) (hmode : i.mode ≠ .m64)
    (hconversion : i.mnemonic = .CVTSI2SS ∨ i.mnemonic = .CVTSI2SD) {m : Memory}
    (hm : .memory m ∈ i.operands) : m.size = .dword := by
  have hne : i.mnemonic ∉ Mnemonic.derived := by
    rcases hconversion with hm | hm <;> rw [hm] <;> decide
  obtain ⟨s, hs, hmem⟩ := OperandSpec.exists_of_forall₂ (h.forall₂_outlines hne) hm
  rw [OpcodeMap.conversion_form f h.mem_recordForms (by rwa [h.form_mnemonic_eq hne])] at hs
  have hsize := OperandSpec.size_of_memory_mem hmem
  fin_cases hs
  · exact absurd (List.mem_singleton.1 hmem) (by simp [Operand.outline])
  · exact hsize.trans (if_neg (h.size_ne_qword hmode))

/-- Where the same texts stand in the same places, so do the same registers. -/
theorem firstFamily_eq (hi : i.Composed f wide) (hj : j.Composed g wide')
    (hm : i.mnemonic = j.mnemonic) (hany : i.operands.any Operand.isMemory)
    (htexts : i.operands.map (operandInPlace i) = j.operands.map (operandInPlace j)) :
    i.firstFamily = j.firstFamily := by
  have hregisters : i.operands.map Operand.register? = j.operands.map Operand.register? :=
    map_eq_map_of_map_eq htexts fun o ho o' ho' h =>
      register?_eq_of_inPlace_eq hm (not_port_of_memory hi hany) h
        (isMemory_eq_of_inPlace_eq hi hj hm ho ho' h)
  have hid : ∀ k : Instruction, k.operands.findSome? Operand.register? =
      (k.operands.map Operand.register?).findSome? id := fun k => by
    rw [List.findSome?_map]
    rfl
  rw [Instruction.firstFamily, Instruction.firstFamily, hid, hid, hregisters]

/-- Where a line does not hide it, operands in memory with the same text have the same size. -/
theorem size_eq_of_inPlace_eq (hi : i.Composed f wide) (hj : j.Composed g wide')
    (hmode : i.mode = j.mode) (hm : i.mnemonic = j.mnemonic) (hname : name i = name j)
    (htexts : i.operands.map (operandInPlace i) = j.operands.map (operandInPlace j))
    (hshow : hidesSize i.mode i.mnemonic = false) {m m' : Memory}
    (hmem : .memory m ∈ i.operands) (hmem' : .memory m' ∈ j.operands) : m.size = m'.size := by
  have hany := Instruction.Composed.any_isMemory hmem
  have hany' := Instruction.Composed.any_isMemory hmem'
  by_cases hext : i.mnemonic = .MOVZX ∨ i.mnemonic = .MOVSX
  · obtain ⟨s, hs, d, hd, hi⟩ := exists_extends hi hext
    obtain ⟨s', hs', d', hd', hj⟩ := exists_extends hj (hm ▸ hext)
    rw [name_of_extends hi hext, name_of_extends hj (hm ▸ hext), hm, String.append_assoc,
      String.append_assoc, String.append_right_inj] at hname
    rw [hi.size_eq hmem, hj.size_eq hmem']
    exact extensionName_inj s hs s' hs' d hd d' hd' hname
  by_cases hmovsxd : i.mnemonic = .MOVSXD
  · obtain ⟨d, hi⟩ := exists_extends_dword hi hmovsxd
    obtain ⟨d', hj⟩ := exists_extends_dword hj (hm ▸ hmovsxd)
    rw [hi.size_eq hmem, hj.size_eq hmem']
  by_cases hnear : i.mnemonic = .CALL ∨ i.mnemonic = .JMP
  · have hlong : i.mode = .m64 := by
      by_contra hmode
      rcases hnear with hnear | hnear <;> simp [hidesSize, hmode, hnear] at hshow
    rw [size_eq_qword_of_near hi hlong hnear hmem,
      size_eq_qword_of_near hj (hmode ▸ hlong) (hm ▸ hnear) hmem']
  by_cases hconversion : i.mnemonic = .CVTSI2SS ∨ i.mnemonic = .CVTSI2SD
  · have hshort : i.mode ≠ .m64 := fun hmode => by
      rcases hconversion with hname | hname <;> simp [hidesSize, hmode, hname] at hshow
    rw [size_eq_dword_of_conversion hi hshort hconversion hmem,
      size_eq_dword_of_conversion hj (hmode ▸ hshort) (hm ▸ hconversion) hmem']
  · have hmarked : i.mnemonic ∉ unmarked := by
      rw [hidesSize, Bool.or_eq_false_iff] at hshow
      have := hshow.1
      simp_all [unmarked]
    rw [name_of_access hi hany hmarked, name_of_access hj hany' (hm ▸ hmarked), hm,
      String.append_right_inj] at hname
    exact hi.size_eq_of_suffix_eq hj hmem hmem' hm hmarked hname
      (firstFamily_eq hi hj hm hany htexts)

/-- MOVQ and MOV of a constant are told apart by the constant. -/
theorem not_movesQuadword (hi : i.Composed f wide) (hj : j.Composed g wide')
    (hrest : rest i = rest j) : ¬ MovesQuadword i j := fun h => by
  have hplain : i.isString = false ∧ j.isString = false := by
    simp [Instruction.isString, h.mnemonic_eq, h.constant_mnemonic_eq]
    decide
  have htexts := map_operandInPlace_eq (by rw [h.mnemonic_eq, h.constant_mnemonic_eq]; decide)
    (ne_far_of_mem_shownOperands hi hplain.1 (by rw [h.mnemonic_eq]; decide))
    (ne_far_of_mem_shownOperands hj hplain.2 (by rw [h.constant_mnemonic_eq]; decide)) hrest
  rw [shownOperands_of_isString_false hplain.1, shownOperands_of_isString_false hplain.2] at htexts
  obtain ⟨v, hv⟩ := h.getLast_eq
  have hlast := congrArg List.getLast? htexts
  rw [List.getLast?_map, List.getLast?_map, hv] at hlast
  obtain ⟨o, ho, htext⟩ := Option.map_eq_some_iff.1 hlast
  have hmem := List.mem_of_getLast? ho
  have hmoves : starred i.mnemonic o = false ∧ starred j.mnemonic (.immediate v) = false := by
    rw [h.mnemonic_eq, h.constant_mnemonic_eq]
    exact ⟨rfl, rfl⟩
  rw [operandInPlace_eq (by rw [h.mnemonic_eq]; decide),
    operandInPlace_eq (by rw [h.constant_mnemonic_eq]; decide), hmoves.1, hmoves.2] at htext
  obtain ⟨c, hc, hc'⟩ := not_disjoint_openings ((String.append_right_inj _).1 htext)
  rw [List.mem_singleton.1 hc'] at hc
  cases o with
  | immediate w => exact hi.not_immediate_of_movq h.mnemonic_eq hmem
  | far p =>
    have hname := hi.mnemonic_of_far hmem
    rw [h.mnemonic_eq] at hname
    exact absurd hname (by decide)
  | _ => simp [openings] at hc

/-- What a line tells. -/
theorem access_eq_of_text_eq (hi : i.Composed f wide) (hj : j.Composed g wide')
    (hmode : i.mode = j.mode) (h : text i = text j) : i.mnemonic = j.mnemonic ∧
      i.operands.map Operand.isMemory = j.operands.map Operand.isMemory ∧
        (hidesSize i.mode i.mnemonic = false → accessSizes i = accessSizes j) := by
  rw [text_eq, text_eq] at h
  obtain ⟨hname, hrest⟩ := Instruction.line_inj hi.override_eq hj.override_eq (isName_name hi)
    (isName_name hj) (separated_rest i) (separated_rest j) h
  have hm : i.mnemonic = j.mnemonic := by
    rcases mnemonic_eq_of_name_eq_or hi hj hname with hm | hmoves | hmoves
    · exact hm
    · exact absurd hmoves (not_movesQuadword hi hj hrest)
    · exact absurd hmoves (not_movesQuadword hj hi hrest.symm)
  refine ⟨hm, ?_⟩
  by_cases hfar : i.mnemonic = .CALLF ∨ i.mnemonic = .JMPF
  · refine ⟨map_isMemory_of_far hi hj hm hfar hrest, fun hshow => ?_⟩
    rcases hfar with hfar | hfar <;> simp [hidesSize, hfar] at hshow
  have hstring := isString_eq_of_name_eq hm hname
  cases hs : i.isString with
  | true =>
    rw [accessSizes, accessSizes, hi.operands_eq_nil hs, hj.operands_eq_nil (hstring ▸ hs)]
    exact ⟨rfl, fun _ => rfl⟩
  | false =>
    have htexts := map_operandInPlace_eq (by rw [hm]) (ne_far_of_mem_shownOperands hi hs hfar)
      (ne_far_of_mem_shownOperands hj (hstring ▸ hs) (hm ▸ hfar)) hrest
    rw [shownOperands_of_isString_false hs, shownOperands_of_isString_false (hstring ▸ hs)]
      at htexts
    refine ⟨map_eq_map_of_map_eq htexts fun o ho o' ho' h =>
      isMemory_eq_of_inPlace_eq hi hj hm ho ho' h, fun hshow => ?_⟩
    refine map_eq_map_of_map_eq htexts fun o ho o' ho' h => ?_
    have hkind := isMemory_eq_of_inPlace_eq hi hj hm ho ho' h
    cases o with
    | memory m =>
      cases o' with
      | memory m' =>
        exact congrArg some (size_eq_of_inPlace_eq hi hj hmode hm hname htexts hshow ho ho')
      | _ => cases hkind
    | _ =>
      cases o' with
      | memory m' => cases hkind
      | _ => rfl

end ATT

/-- **AT&T lines show what is accessed.** Two instructions of one mode with the same line have the
same mnemonic and operands in memory at the same places. Unless it is an operation that hides it,
what they access has the same size. -/
theorem access_eq_of_att_text_eq {mode : Mode} {address address' : UInt64}
    {bytes bytes' : List UInt8} (h : (decode mode address bytes).isValid)
    (h' : (decode mode address' bytes').isValid)
    (htext : (decode mode address bytes).text .att = (decode mode address' bytes').text .att) :
    (decode mode address bytes).mnemonic = (decode mode address' bytes').mnemonic ∧
      (decode mode address bytes).operands.map Operand.isMemory =
        (decode mode address' bytes').operands.map Operand.isMemory ∧
      (ATT.hidesSize mode (decode mode address bytes).mnemonic = false →
        ATT.accessSizes (decode mode address bytes) =
          ATT.accessSizes (decode mode address' bytes')) := by
  obtain ⟨f, wide, hi⟩ := exists_composed h
  obtain ⟨g, wide', hj⟩ := exists_composed h'
  have hline : ATT.text (decode mode address bytes) = ATT.text (decode mode address' bytes') := by
    simpa only [Instruction.text, h, h', if_true] using htext
  have hmode : (decode mode address bytes).mode = (decode mode address' bytes').mode :=
    (mode_decode mode address bytes).trans (mode_decode mode address' bytes').symm
  have haccess := ATT.access_eq_of_text_eq hi hj hmode hline
  rwa [mode_decode] at haccess

/-- With and without an index that stands for none, `movzwl (%rax),%ecx` loads a word. -/
theorem access_eq_of_att_text_eq_movzx :
    (decode .m64 0x1000 [0x0f, 0xb7, 0x08]).isValid ∧
      (decode .m64 0x1000 [0x0f, 0xb7, 0x0c, 0x20]).isValid ∧
      (decode .m64 0x1000 [0x0f, 0xb7, 0x08]).text .att =
        (decode .m64 0x1000 [0x0f, 0xb7, 0x0c, 0x20]).text .att ∧
      ATT.accessSizes (decode .m64 0x1000 [0x0f, 0xb7, 0x08]) =
        ATT.accessSizes (decode .m64 0x1000 [0x0f, 0xb7, 0x0c, 0x20]) := by
  have h : (decode .m64 0x1000 [0x0f, 0xb7, 0x08]).isValid := by decide +kernel
  have h' : (decode .m64 0x1000 [0x0f, 0xb7, 0x0c, 0x20]).isValid := by decide +kernel
  have htext : (decode .m64 0x1000 [0x0f, 0xb7, 0x08]).text .att =
      (decode .m64 0x1000 [0x0f, 0xb7, 0x0c, 0x20]).text .att := by decide +kernel
  exact ⟨h, h', htext, (access_eq_of_att_text_eq h h' htext).2.2 (by decide +kernel)⟩

/-- Calls through a doubleword and through a word are both printed as `call *(%eax)`. -/
theorem att_text_hides_size_of_call :
    (decode .m32 0x1000 [0xff, 0x10]).isValid ∧ (decode .m32 0x1000 [0x66, 0xff, 0x10]).isValid ∧
      (decode .m32 0x1000 [0xff, 0x10]).text .att =
        (decode .m32 0x1000 [0x66, 0xff, 0x10]).text .att ∧
      ATT.accessSizes (decode .m32 0x1000 [0xff, 0x10]) ≠
        ATT.accessSizes (decode .m32 0x1000 [0x66, 0xff, 0x10]) := by
  decide +kernel

/-- Two encodings for each operation that hides a size, which access memory in different sizes. -/
def ATT.twins : List (Mnemonic × List UInt8 × List UInt8) :=
  [(.CALLF, [0xff, 0x18], [0x66, 0xff, 0x18]), (.JMPF, [0xff, 0x28], [0x66, 0xff, 0x28]),
   (.CRC32, [0xf2, 0x0f, 0x38, 0xf0, 0x00], [0xf2, 0x0f, 0x38, 0xf1, 0x00]),
   (.CVTSI2SS, [0xf3, 0x0f, 0x2a, 0x00], [0xf3, 0x48, 0x0f, 0x2a, 0x00]),
   (.CVTSI2SD, [0xf2, 0x0f, 0x2a, 0x00], [0xf2, 0x48, 0x0f, 0x2a, 0x00]),
   (.CALL, [0xff, 0x10], [0x66, 0xff, 0x10]), (.JMP, [0xff, 0x20], [0x66, 0xff, 0x20])]

theorem twins_alike : ∀ mode ∈ [Mode.m16, .m32, .m64], ∀ x ∈ ATT.twins, ATT.hidesSize mode x.1 →
    (decode mode 0 x.2.1).mnemonic = x.1 ∧ (decode mode 0 x.2.2).mnemonic = x.1 ∧
      (decode mode 0 x.2.1).text .att = (decode mode 0 x.2.2).text .att ∧
      ATT.accessSizes (decode mode 0 x.2.1) ≠ ATT.accessSizes (decode mode 0 x.2.2) := by
  decide +kernel

/-- Every operation of which this is said hides the size of what it accesses. -/
theorem exists_text_eq_of_hidesSize {mode : Mode} {m : Mnemonic} (h : ATT.hidesSize mode m) :
    ∃ bytes bytes', (decode mode 0 bytes).mnemonic = m ∧ (decode mode 0 bytes').mnemonic = m ∧
      (decode mode 0 bytes).text .att = (decode mode 0 bytes').text .att ∧
      ATT.accessSizes (decode mode 0 bytes) ≠ ATT.accessSizes (decode mode 0 bytes') := by
  have hmem : m ∈ ATT.twins.map Prod.fst := by
    cases mode <;> simp [ATT.hidesSize, ATT.twins] at h ⊢ <;> tauto
  obtain ⟨x, hx, rfl⟩ := List.mem_map.1 hmem
  exact ⟨x.2.1, x.2.2, twins_alike mode (by cases mode <;> decide) x hx h⟩

end Disasm
