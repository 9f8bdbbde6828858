import Disasm.Proofs.EffectiveAddress
import Disasm.Proofs.Text.Colons
import Disasm.Proofs.Text.Digits

/-!
# Memory in AT&T syntax is read back

**Theorem (`parts_eq_of_memory_eq`).** Two places in memory with addresses of one width that are
written alike are in the same segment and formed of the same base, index, scale and displacement.
Where there is no register the address itself is written, and displacements count only as far as
addresses are wide.

The text is cut at the colon, which stands behind a segment only, at the parenthesis and at the
commas. What is left out can be told from what is there: without an index there is no scale, and a
displacement is left out only where it is zero (`displacement_inj`).
-/

namespace Disasm

namespace ATT

open Text

variable {m m' : Memory}

/-! ## The parts of the text -/

/-- The base, where there is one. -/
def baseText (m : Memory) : String :=
  match m.base with
  | some b => register (some b)
  | none => ""

/-- The index and its scale, where there is one. -/
def indexText (m : Memory) : String :=
  match m.index with
  | some x => "," ++ register (some x) ++ "," ++ toString m.scale
  | none => ""

/-- The displacement before the parentheses. -/
def displacementText (m : Memory) : String :=
  if m.displacement ≠ 0 ∨ m.base = none ∨ m.ripRelative then Hex.signed m.displacement else ""

theorem inside_eq (m : Memory) : inside m = baseText m ++ indexText m := rfl

theorem place_of_bare (h : m.base = none ∧ m.index = none) :
    place m = Hex.lower (m.addressSize.dataSize.truncate (UInt64.ofInt m.displacement)).toNat :=
  if_pos h

theorem place_of_not_bare (h : ¬ (m.base = none ∧ m.index = none)) :
    place m = displacementText m ++ ("(" ++ (inside m ++ ")")) :=
  if_neg h

/-! ## Registers -/

theorem base_inj (h : baseText m = baseText m') : m.base = m'.base := by
  have hne : ∀ r : Register, register (some r) ≠ "" := fun r heq => by
    have hhead := head?_register (some r)
    rw [heq] at hhead
    cases hhead
  unfold baseText at h
  cases hb : m.base with
  | none =>
    cases hb' : m'.base with
    | none => rfl
    | some b' =>
      rw [hb, hb'] at h
      exact absurd h.symm (hne b')
  | some b =>
    cases hb' : m'.base with
    | none =>
      rw [hb, hb'] at h
      exact absurd h (hne b)
    | some b' =>
      rw [hb, hb'] at h
      exact register_injective h

theorem toList_indexText {x : Register} (h : m.index = some x) : (indexText m).toList =
    ',' :: ((register (some x)).toList ++ ',' :: (toString m.scale).toList) := by
  simp [indexText, h, String.toList_append]

theorem index_inj (hm : m.index = none → m.scale = 1) (hm' : m'.index = none → m'.scale = 1)
    (h : (indexText m).toList = (indexText m').toList) :
    m.index = m'.index ∧ m.scale = m'.scale := by
  cases hx : m.index with
  | none =>
    cases hx' : m'.index with
    | none => exact ⟨rfl, (hm hx).trans (hm' hx').symm⟩
    | some x' =>
      rw [toList_indexText hx', indexText, hx] at h
      cases h
  | some x =>
    cases hx' : m'.index with
    | none =>
      rw [toList_indexText hx, indexText, hx'] at h
      cases h
    | some x' =>
      rw [toList_indexText hx, toList_indexText hx'] at h
      obtain ⟨hregister, hscale⟩ := Piece.append_inj (piece_register _ 0) (piece_register _ 0)
        (separated_comma _) (separated_comma _) (List.cons.inj h).2
      refine ⟨register_injective (String.toList_inj.1 hregister), ?_⟩
      exact Nat.repr_inj.1 (String.toList_inj.1 (List.cons.inj hscale).2)

/-- What stands between the parentheses tells base, index and scale. -/
theorem inside_inj (hm : m.index = none → m.scale = 1) (hm' : m'.index = none → m'.scale = 1)
    (h : inside m = inside m') : m.base = m'.base ∧ m.index = m'.index ∧ m.scale = m'.scale := by
  have hpiece : ∀ m : Memory, Piece (baseText m).toList := fun m => by
    unfold baseText
    cases m.base with
    | none => exact Plain.piece fun _ hc => absurd hc List.not_mem_nil
    | some b => exact piece_register _ 0
  have hseparated : ∀ m : Memory, Separated (indexText m).toList := fun m => by
    cases hx : m.index with
    | none =>
      rw [indexText, hx]
      exact separated_nil
    | some x =>
      rw [toList_indexText hx]
      exact separated_comma _
  have hlists := congrArg String.toList h
  rw [inside_eq, inside_eq, String.toList_append, String.toList_append] at hlists
  obtain ⟨hbase, hindex⟩ :=
    (hpiece m).append_inj (hpiece m') (hseparated m) (hseparated m') hlists
  exact ⟨base_inj (String.toList_inj.1 hbase), index_inj hm hm' hindex⟩

/-! ## Displacements -/

theorem displacement_inj (h : displacementText m = displacementText m') :
    m.displacement = m'.displacement := by
  unfold displacementText at h
  split_ifs at h with hd hd' hd'
  · exact Hex.signed_injective h
  · exact absurd h (Hex.signed_ne_empty _)
  · exact absurd h.symm (Hex.signed_ne_empty _)
  · rw [not_not.1 (not_or.1 hd).1, not_not.1 (not_or.1 hd').1]

/-- An address by itself tells the displacement as far as it is wide. -/
theorem displacement_modEq (hsize : m.addressSize = m'.addressSize)
    (h : (m.addressSize.dataSize.truncate (UInt64.ofInt m.displacement)).toNat =
      (m'.addressSize.dataSize.truncate (UInt64.ofInt m'.displacement)).toNat) :
    m.displacement ≡ m'.displacement [ZMOD 2 ^ m.addressSize.bits] := by
  rw [Int.ModEq, ← AddressSize.toNat_truncate _ (toNat_ofInt _), h, hsize,
    AddressSize.toNat_truncate _ (toNat_ofInt _)]

theorem parenthesis_not_mem_numeral {cs : List Char} (h : ∀ c ∈ cs, Hex.isNumeral c) :
    '(' ∉ cs := fun hc => Hex.plain_of_isNumeral h '(' hc List.mem_cons_self

theorem parenthesis_not_mem_displacementText (m : Memory) : '(' ∉ (displacementText m).toList := by
  unfold displacementText
  split_ifs
  · exact parenthesis_not_mem_numeral fun _ => Hex.isNumeral_signed
  · exact List.not_mem_nil

theorem bare_iff_parenthesis_not_mem (m : Memory) :
    m.base = none ∧ m.index = none ↔ '(' ∉ (place m).toList := by
  refine ⟨fun h => ?_, fun h => by_contra fun hbare => h ?_⟩
  · rw [place_of_bare h]
    exact parenthesis_not_mem_numeral fun _ => Hex.isNumeral_lower
  · rw [place_of_not_bare hbare]
    simp [String.toList_append]

/-! ## The whole text -/

/-- The colon tells whether there is a segment, and which. -/
theorem segment_inj (h : memory m = memory m') : m.segment = m'.segment ∧ place m = place m' := by
  have hcolon : ∀ (r : Register) (p : String), (register (some r) ++ ":" ++ p).toList =
      (register (some r)).toList ++ ':' :: p.toList := fun r p => by simp [String.toList_append]
  cases hs : m.segment with
  | none =>
    cases hs' : m'.segment with
    | none =>
      rw [memory_of_segment_none hs, memory_of_segment_none hs'] at h
      exact ⟨rfl, h⟩
    | some r' =>
      rw [memory_of_segment_none hs, memory_of_segment_some hs'] at h
      refine absurd (colonFree_place m) (not_not_intro ?_)
      rw [h, hcolon]
      simp
  | some r =>
    cases hs' : m'.segment with
    | none =>
      rw [memory_of_segment_some hs, memory_of_segment_none hs'] at h
      refine absurd (colonFree_place m') (not_not_intro ?_)
      rw [← h, hcolon]
      simp
    | some r' =>
      rw [memory_of_segment_some hs, memory_of_segment_some hs', ← String.toList_inj, hcolon,
        hcolon] at h
      obtain ⟨hregister, hplace⟩ :=
        cut_inj (colon_not_mem_register _) (colon_not_mem_register _) h
      exact ⟨register_injective (String.toList_inj.1 hregister), String.toList_inj.1 hplace⟩

/-- **Memory can be told from its text.** Whatever registers it is formed of, places in memory that
are written alike have the same parts. A displacement alone counts only as far as addresses are
wide. -/
theorem parts_eq_of_memory_eq (hm : m.index = none → m.scale = 1)
    (hm' : m'.index = none → m'.scale = 1) (hsize : m.addressSize = m'.addressSize)
    (h : memory m = memory m') :
    m.segment = m'.segment ∧ m.base = m'.base ∧ m.index = m'.index ∧ m.scale = m'.scale ∧
      if m.base = none ∧ m.index = none then
        m.displacement ≡ m'.displacement [ZMOD 2 ^ m.addressSize.bits]
      else m.displacement = m'.displacement := by
  obtain ⟨hsegment, hplace⟩ := segment_inj h
  refine ⟨hsegment, ?_⟩
  have hbare : m.base = none ∧ m.index = none ↔ m'.base = none ∧ m'.index = none := by
    rw [bare_iff_parenthesis_not_mem, hplace, ← bare_iff_parenthesis_not_mem]
  by_cases hnone : m.base = none ∧ m.index = none
  · have hnone' := hbare.1 hnone
    rw [place_of_bare hnone, place_of_bare hnone'] at hplace
    rw [if_pos hnone]
    exact ⟨hnone.1.trans hnone'.1.symm, hnone.2.trans hnone'.2.symm,
      (hm hnone.2).trans (hm' hnone'.2).symm, displacement_modEq hsize (Hex.lower_injective hplace)⟩
  · have hlist : ∀ d i : String, (d ++ ("(" ++ (i ++ ")"))).toList =
        d.toList ++ '(' :: (i.toList ++ [')']) := fun d i => by simp [String.toList_append]
    rw [place_of_not_bare hnone, place_of_not_bare (mt hbare.2 hnone), ← String.toList_inj, hlist,
      hlist] at hplace
    obtain ⟨hdisplacement, hinside⟩ := cut_inj (parenthesis_not_mem_displacementText m)
      (parenthesis_not_mem_displacementText m') hplace
    obtain ⟨hbase, hindex, hscale⟩ :=
      inside_inj hm hm' (String.toList_inj.1 (List.append_cancel_right hinside))
    rw [if_neg hnone]
    exact ⟨hbase, hindex, hscale, displacement_inj (String.toList_inj.1 hdisplacement)⟩

/-- A displacement without registers shows its lowest 16 bits only, as a 16-bit address does. With a
segment, a base and an index all parts are told from the text, but how much is accessed is not. -/
theorem parts_eq_of_memory_eq_places :
    (memory { displacement := -1, addressSize := .a16 } =
        memory { displacement := 0xffff, addressSize := .a16 } ∧
      (-1 : Int) ≡ 0xffff [ZMOD 2 ^ 16]) ∧
    let m : Memory :=
      { base := some (.qword 3), index := some (.qword 9), scale := 4, displacement := -8,
        segment := some (.segment .fs), size := .dword }
    let m' : Memory := { m with size := .qword }
    memory m = "%fs:-0x8(%rbx,%r9,4)" ∧ memory m = memory m' ∧ m.segment = m'.segment ∧
      m.base = m'.base ∧ m.index = m'.index ∧ m.scale = m'.scale ∧
      m.displacement = m'.displacement := by
  refine ⟨?_, ?_⟩
  · have h : memory { displacement := -1, addressSize := .a16 } =
        memory { displacement := 0xffff, addressSize := .a16 } := by decide +kernel
    exact ⟨h, (parts_eq_of_memory_eq (fun _ => rfl) (fun _ => rfl) rfl h).2.2.2.2⟩
  · intro m m'
    have htext : memory m = "%fs:-0x8(%rbx,%r9,4)" := by decide +kernel
    have h : memory m = memory m' := by decide +kernel
    have hindex : ∀ {P : Prop}, m.index = none → P := fun hnone => nomatch hnone
    exact ⟨htext, h, parts_eq_of_memory_eq hindex hindex rfl h⟩

end ATT

end Disasm
