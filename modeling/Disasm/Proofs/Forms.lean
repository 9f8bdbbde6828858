import Disasm.Decode
import Mathlib

/-!
# What holds of every form

The opcode maps are data, so what all their forms have in common is checked once, over the leaves
of their trees (`wellFormed_of_lookup`); the place of an opcode that has a form is one of the places
checked (`entry_mem_of_resolve`). Every form satisfies the following:

* a form has a mnemonic, which no operation size or REX.W takes away;
* the operand types of its immediates are those that can be read;
* operands that need a register in ModRM.rm, or memory, do not stand beside one that takes ModRM.rm
  as a register whatever ModRM.mod is.

A form with an operand in ModRM belongs to an opcode that has a ModRM byte (`hasModRM_of_lookup`);
this follows from the trees' shape and needs no check of their contents.
-/

namespace Disasm

/-! ## Well-formed forms -/

namespace AddressingMethod

/-- Whether the operand allows for one kind of ModRM.mod only. -/
def restrictsMod : AddressingMethod → Bool
  | M | N | U | X87 => true
  | _ => false

end AddressingMethod

/-- What every operand of a form satisfies: it is encoded somewhere, and if it is an immediate its
type says how to read it. -/
def OperandSpec.wellFormed (s : OperandSpec) : Bool :=
  s.method ≠ .none && (s.method ≠ .I || [.b, .bs, .w, .z, .v].contains s.type)

/-- What every form satisfies. -/
def Form.wellFormed (f : Form) : Bool :=
  f.mnemonic ≠ .INVALID && f.operands.all OperandSpec.wellFormed &&
    (!f.registerOnly || f.operands.all fun s => !s.method.restrictsMod)

namespace Form

variable {f : Form}

theorem mnemonic_ne_invalid (h : f.wellFormed) : f.mnemonic ≠ .INVALID := by
  simp only [wellFormed, Bool.and_eq_true, decide_eq_true_eq] at h
  exact h.1.1

theorem wellFormed_of_mem (h : f.wellFormed) {s : OperandSpec} (hs : s ∈ f.operands) :
    s.wellFormed := by
  simp only [wellFormed, Bool.and_eq_true, List.all_eq_true] at h
  exact h.1.2 s hs

/-- Beside an operand that takes ModRM.rm as a register, none allows for one ModRM.mod only. -/
theorem restrictsMod_of_registerOnly (h : f.wellFormed) (hr : f.registerOnly) {s : OperandSpec}
    (hs : s ∈ f.operands) : s.method.restrictsMod = false := by
  simp only [wellFormed, Bool.and_eq_true, Bool.or_eq_true, List.all_eq_true, hr,
    Bool.not_true, Bool.false_eq_true, false_or, Bool.not_eq_true'] at h
  exact h.2 s hs

end Form

/-! ## The places of all maps -/

/-- What a list has for a key stands in it beside that key. -/
theorem mem_of_lookup_eq_some {κ α : Type} [BEq κ] [LawfulBEq κ] {l : List (κ × α)} {k : κ} {a : α}
    (h : l.lookup k = some a) : (k, a) ∈ l := by
  obtain ⟨before, after, rfl, -⟩ := List.lookup_eq_some_iff.1 h
  exact List.mem_append_right _ (List.mem_cons_self ..)

namespace OpcodeMap

/-- Every place of every map. -/
def entries : List Entry := oneByteMap ++ twoByteMap ++ map38.map Prod.snd ++ map3A.map Prod.snd

/-- The places of the map that an escape leads to. -/
def entriesOf : Escape → List Entry
  | .oneByte => oneByteMap
  | .twoByte => twoByteMap
  | .threeByte38 => map38.map Prod.snd
  | .threeByte3A => map3A.map Prod.snd
  | .x87 => x87Map

theorem getD_mem_or_undefined (map : List Entry) (n : Nat) :
    map.getD n .undefined ∈ map ∨ map.getD n .undefined = .undefined := by
  rw [List.getD_eq_getElem?_getD]
  cases he : map[n]? with
  | none => exact Or.inr rfl
  | some e => exact Or.inl (List.mem_of_getElem? he)

theorem lookup_mem_or_undefined (map : List (UInt8 × Entry)) (opcode : UInt8) :
    (map.lookup opcode).getD .undefined ∈ map.map Prod.snd ∨
      (map.lookup opcode).getD .undefined = .undefined := by
  cases he : map.lookup opcode with
  | none => exact Or.inr rfl
  | some e => exact Or.inl (List.mem_map_of_mem (mem_of_lookup_eq_some he))

theorem entry_mem_or_undefined (escape : Escape) (opcode : UInt8) :
    entry escape opcode ∈ entriesOf escape ∨ entry escape opcode = .undefined := by
  cases escape with
  | oneByte => exact getD_mem_or_undefined oneByteMap _
  | twoByte => exact getD_mem_or_undefined twoByteMap _
  | threeByte38 => exact lookup_mem_or_undefined map38 _
  | threeByte3A => exact lookup_mem_or_undefined map3A _
  | x87 =>
    unfold entry
    dsimp only
    split_ifs
    · exact getD_mem_or_undefined x87Map _
    · exact Or.inr rfl

/-- The place of an opcode with a form is in its map. -/
theorem entry_mem_of_resolve {escape : Escape} {opcode : UInt8} {s : Selector} {mode : Mode}
    {m : ModRM} {f : Form} (h : (entry escape opcode).resolve s mode m = some f) :
    entry escape opcode ∈ entriesOf escape := by
  refine (entry_mem_or_undefined escape opcode).resolve_right fun hu => ?_
  rw [hu] at h
  cases h

/-- The coprocessor's map is a part of the one-byte map. -/
theorem mem_oneByteMap_of_mem_x87Map {e : Entry} (h : e ∈ x87Map) : e ∈ oneByteMap := by
  unfold oneByteMap
  exact List.mem_append_left _ (List.mem_append_left _ (List.mem_append_left _
    (List.mem_append_left _ (List.mem_append_right _ h))))

theorem mem_entries_of_mem_entriesOf {escape : Escape} {e : Entry} (h : e ∈ entriesOf escape) :
    e ∈ entries := by
  simp only [entries, List.mem_append]
  cases escape with
  | oneByte => exact Or.inl (Or.inl (Or.inl h))
  | twoByte => exact Or.inl (Or.inl (Or.inr h))
  | threeByte38 => exact Or.inl (Or.inr h)
  | threeByte3A => exact Or.inr h
  | x87 => exact Or.inl (Or.inl (Or.inl (mem_oneByteMap_of_mem_x87Map h)))

/-! ### Their leaves -/

/-- Every form of every map. -/
def forms : List Form :=
  (oneByteMap ++ twoByteMap ++ map38.map Prod.snd ++ map3A.map Prod.snd).flatMap Entry.forms

theorem wellFormed_of_mem_forms : ∀ f ∈ forms, f.wellFormed = true := by
  decide +kernel

/-- What a look-up finds is a leaf of the opcode's tree. -/
theorem resolve_of_lookup {escape : Escape} {opcode : UInt8} {m : ModRM} {s : Selector}
    {mode : Mode} {f : Form} (h : lookup escape opcode m s mode = some f) :
    (entry escape opcode).resolve s mode m = some f :=
  (Option.filter_eq_some_iff.1 h).1

theorem mem_forms_of_lookup {escape : Escape} {opcode : UInt8} {m : ModRM} {s : Selector}
    {mode : Mode} {f : Form} (h : lookup escape opcode m s mode = some f) : f ∈ forms :=
  List.mem_flatMap.2 ⟨_, mem_entries_of_mem_entriesOf (entry_mem_of_resolve (resolve_of_lookup h)),
    Entry.mem_forms_of_resolve (resolve_of_lookup h)⟩

theorem wellFormed_of_lookup {escape : Escape} {opcode : UInt8} {m : ModRM} {s : Selector}
    {mode : Mode} {f : Form} (h : lookup escape opcode m s mode = some f) :
    f.wellFormed = true :=
  wellFormed_of_mem_forms f (mem_forms_of_lookup h)

end OpcodeMap

/-! ## ModRM bytes -/

/-- An opcode that leads to a form with an operand in ModRM is followed by ModRM. -/
theorem Entry.hasModRM_of_resolve {s : Selector} {mode : Mode} {m : ModRM} {e : Entry} {f : Form}
    (h : e.resolve s mode m = some f) (hf : f.usesModRM) : e.hasModRM s := by
  induction e with
  | undefined => cases h
  | form g =>
    cases h
    exact hf
  | bySelector a b c d iha ihb ihc ihd =>
    cases s with
    | none => exact iha h
    | operandSize => exact ihb h
    | rep => exact ihc h
    | repne => exact ihd h
  | byMode legacy long ihl ihr =>
    rw [hasModRM, Bool.or_eq_true]
    rw [resolve] at h
    split at h
    · exact Or.inr (ihr h)
    · exact Or.inl (ihl h)
  | byMod _ _ _ _ => rfl
  | byReg _ _ _ _ _ _ _ _ => rfl
  | byRM _ _ _ _ _ _ _ _ => rfl

theorem OpcodeMap.hasModRM_of_lookup {escape : Escape} {opcode : UInt8} {m : ModRM} {s : Selector}
    {mode : Mode} {f : Form} (h : lookup escape opcode m s mode = some f) (hf : f.usesModRM) :
    OpcodeMap.hasModRM escape opcode s := by
  rw [hasModRM, Bool.or_eq_true]
  exact Or.inr (Entry.hasModRM_of_resolve (resolve_of_lookup h) hf)

/-! ## Names -/

namespace Mnemonic

/-- The operations with another name at some operation size or address size, each with that
name. -/
def resizings : List (Mnemonic × Mnemonic) :=
  [(JCXZ, JECXZ), (JCXZ, JRCXZ)] ++ sizedNames.flatMap fun x => [(x.1, x.2.1), (x.1, x.2.2)]

theorem sized_eq_or_mem_resizings (m : Mnemonic) (size : DataSize) (a : AddressSize) :
    m.sized size a = m ∨ (m, m.sized size a) ∈ resizings := by
  unfold sized
  split
  · next hm =>
    subst hm
    cases a <;> decide
  · split
    · exact Or.inl rfl
    · next d q hlookup =>
      have hnames : ∀ x ∈ [(m, d), (m, q)], x ∈ resizings := fun x hx =>
        List.mem_append_right _ (List.mem_flatMap.2 ⟨_, mem_of_lookup_eq_some hlookup, hx⟩)
      split_ifs
      · exact Or.inl rfl
      · exact Or.inr (hnames _ (by simp))
      · exact Or.inr (hnames _ (by simp))

theorem widened_eq_or (m : Mnemonic) (w : Bool) :
    m.widened w = m ∨ (m, m.widened w) ∈ wideNames := by
  unfold widened
  split_ifs
  · cases hlookup : wideNames.lookup m with
    | none => exact Or.inl rfl
    | some n => exact Or.inr (mem_of_lookup_eq_some hlookup)
  · exact Or.inl rfl

theorem sized_ne_invalid {m : Mnemonic} (h : m ≠ INVALID) (size : DataSize) (a : AddressSize) :
    m.sized size a ≠ INVALID := by
  have hnames : ∀ x ∈ resizings, x.2 ≠ INVALID := by decide
  rcases m.sized_eq_or_mem_resizings size a with hs | hs
  · rwa [hs]
  · exact hnames _ hs

theorem widened_ne_invalid {m : Mnemonic} (h : m ≠ INVALID) (w : Bool) :
    m.widened w ≠ INVALID := by
  have hnames : ∀ x ∈ wideNames, x.2 ≠ INVALID := by decide
  rcases m.widened_eq_or w with hw | hw
  · rwa [hw]
  · exact hnames _ hw

end Mnemonic

end Disasm
