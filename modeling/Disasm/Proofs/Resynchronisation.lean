import Disasm.Proofs.Acceptance
import Disasm.Proofs.Partition

/-!
# Going on after an undefined opcode

**Theorem (`decodeAt_undefined`).** Where an opcode has no form whatever its ModRM byte, the record
is invalid and covers prefixes, escape bytes and opcode, and decoding goes on right behind them.
Some of these opcodes have a ModRM byte all the same (`Opcode.readsInVain`), which the record covers
too if it is there.

Whether a ModRM byte follows is decided without regard to the mode, and for a group without regard
to its members. So one is read in vain for instructions that only 64-bit mode lacks, and for groups
of which a selecting prefix leaves nothing. The list of them is complete: all other opcodes with a
ModRM byte have a form for some value of it, which is checked over the maps
(`hasModRM_of_undefined`).
-/

namespace Disasm

/-! ## The opcodes -/

/-- The opcodes that have a ModRM byte, but no form for any value of it. -/
def Opcode.readsInVain (o : Opcode) (s : Selector) (mode : Mode) : Bool :=
  match o.escape, s with
  | .oneByte, _ => mode = .m64 && [0x62, 0x82, 0xc4, 0xc5].contains o.byte
  | .twoByte, .operandSize => o.byte = 0xae
  | .twoByte, .rep => [0x71, 0x72, 0x73].contains o.byte || (o.byte = 0xae && mode ≠ .m64)
  | .twoByte, .repne => [0x16, 0x71, 0x72, 0x73, 0xae].contains o.byte
  | _, _ => false

namespace OpcodeMap

/-- The places of a map that counts its opcodes from `first`. -/
def numbered (escape : Escape) (first : Nat) (map : List Entry) : List (Opcode × Entry) :=
  (map.zipIdx first).map fun p => (⟨escape, UInt8.ofNat p.2⟩, p.1)

/-- The places of all maps. -/
def places : List (Opcode × Entry) :=
  numbered .oneByte 0 oneByteMap ++ numbered .twoByte 0 twoByteMap ++
    map38.map (fun p => (⟨.threeByte38, p.1⟩, p.2)) ++
    map3A.map (fun p => (⟨.threeByte3A, p.1⟩, p.2)) ++ numbered .x87 0xd8 x87Map

theorem mem_numbered {escape : Escape} {first : Nat} {map : List Entry} {b : UInt8}
    (hfirst : first ≤ b.toNat) (hlt : b.toNat < first + map.length) :
    (⟨escape, b⟩, map.getD (b.toNat - first) .undefined) ∈ numbered escape first map := by
  have hget : b.toNat - first < map.length := by omega
  refine List.mem_map.2 ⟨(map[b.toNat - first], b.toNat), ?_, ?_⟩
  · rw [List.mk_mem_zipIdx_iff_le_and_getElem?_sub, List.getElem?_eq_getElem hget]
    exact ⟨hfirst, rfl⟩
  · rw [List.getD_eq_getElem _ _ hget, UInt8.ofNat_toNat]

theorem mem_or_undefined_of_lookup (escape : Escape) (map : List (UInt8 × Entry)) (b : UInt8) :
    (⟨escape, b⟩, (map.lookup b).getD .undefined) ∈
        map.map (fun p => ((⟨escape, p.1⟩ : Opcode), p.2)) ∨
      (map.lookup b).getD .undefined = .undefined := by
  cases he : map.lookup b with
  | none => exact Or.inr rfl
  | some e =>
    exact Or.inl (List.mem_map.2 ⟨(b, e), mem_of_lookup_eq_some he, rfl⟩)

/-- An opcode is in one of the maps, or its place in the three-byte maps is empty. -/
theorem mem_places (o : Opcode) (hx : o.escape = .x87 → isX87 o.byte) :
    (o, entry o.escape o.byte) ∈ places ∨
      entry o.escape o.byte = .undefined ∧ (o.escape = .threeByte38 ∨ o.escape = .threeByte3A) := by
  obtain ⟨escape, b⟩ := o
  have hb : b.toNat < 256 := b.toNat_lt
  have hone := length_oneByteMap
  have htwo := length_twoByteMap
  have hx87 : x87Map.length = 8 := by decide +kernel
  unfold places
  simp only [List.mem_append]
  cases escape with
  | oneByte =>
    exact Or.inl (Or.inl (Or.inl (Or.inl (Or.inl (mem_numbered (Nat.zero_le _) (by omega))))))
  | twoByte =>
    exact Or.inl (Or.inl (Or.inl (Or.inl (Or.inr (mem_numbered (Nat.zero_le _) (by omega))))))
  | threeByte38 =>
    rcases mem_or_undefined_of_lookup .threeByte38 map38 b with hmem | hempty
    · exact Or.inl (Or.inl (Or.inl (Or.inr hmem)))
    · exact Or.inr ⟨hempty, Or.inl rfl⟩
  | threeByte3A =>
    rcases mem_or_undefined_of_lookup .threeByte3A map3A b with hmem | hempty
    · exact Or.inl (Or.inl (Or.inr hmem))
    · exact Or.inr ⟨hempty, Or.inr rfl⟩
  | x87 =>
    have hd8 : b.toNat / 8 = 27 := of_decide_eq_true (hx rfl)
    have hsub : b.toNat % 8 = b.toNat - 0xd8 := by omega
    rw [entry, if_pos (hx rfl), hsub]
    exact Or.inl (Or.inr (mem_numbered (by omega) (by omega)))

/-- ModRM bytes that stand for all others in the search for a form: every ModRM.reg, for memory and
for a register. -/
def samples : List ModRM :=
  ([0x00, 0x08, 0x10, 0x18, 0x20, 0x28, 0x30, 0x38, 0xc0, 0xc8, 0xd0, 0xd8, 0xe0, 0xe8, 0xf0,
    0xf8] : List UInt8).map ModRM.ofByte

theorem sampled_places : ∀ p ∈ places, ∀ s ∈ [Selector.none, .operandSize, .rep, .repne],
    ∀ mode ∈ [Mode.m16, .m32, .m64],
      (p.1.escape = .x87 || p.2.hasModRM s) = p.1.readsInVain s mode ∨
        samples.any fun m => ((p.2.resolve s mode m).filter (·.definedIn mode)).isSome := by
  decide +kernel

/-- An opcode without a form has a ModRM byte only if it is one of those. -/
theorem hasModRM_of_undefined {o : Opcode} (hx : o.escape = .x87 → isX87 o.byte) {s : Selector}
    {mode : Mode} (h : ∀ m, o.lookup m s mode = none) : o.hasModRM s = o.readsInVain s mode := by
  have hs : s ∈ [Selector.none, .operandSize, .rep, .repne] := by cases s <;> decide
  have hmode : mode ∈ [Mode.m16, .m32, .m64] := by cases mode <;> decide
  rcases mem_places o hx with hmem | ⟨hempty, hthree⟩
  · refine (sampled_places _ hmem s hs mode hmode).resolve_right fun hany => ?_
    obtain ⟨m, -, hm⟩ := List.any_eq_true.1 hany
    have hnone : ((entry o.escape o.byte).resolve s mode m).filter (·.definedIn mode) = none := h m
    rw [hnone] at hm
    cases hm
  · obtain ⟨escape, b⟩ := o
    rw [Opcode.hasModRM, hasModRM, hempty]
    rcases hthree with rfl | rfl <;> rfl

end OpcodeMap

/-! ## Reading -/

/-- After an undefined opcode nothing is read but a ModRM byte in vain. -/
theorem fetchOperation_undefined {mode : Mode} {p : Prefixes} {o : Opcode}
    (hx : o.escape = .x87 → OpcodeMap.isX87 o.byte)
    (h : ∀ m, o.lookup m (o.selector p) mode = none) (w : List UInt8) (k : Nat) :
    fetchOperation mode p o ⟨w, k⟩ =
      (none, ⟨w, k + if o.readsInVain (o.selector p) mode ∧ k < w.length then 1 else 0⟩) := by
  unfold fetchOperation
  dsimp only
  rw [Fetch.bind_apply, Opcode.fetchModRM, OpcodeMap.hasModRM_of_undefined hx h]
  by_cases hvain : o.readsInVain (o.selector p) mode
  · rw [if_pos hvain, Fetch.bind_apply]
    by_cases hlt : k < w.length
    · rw [Fetch.byte_of_lt hlt, if_pos ⟨hvain, hlt⟩]
      dsimp only [Fetch.pure_apply]
      rw [Fetch.bind_apply, h]
      rfl
    · rw [Fetch.byte_of_not_lt hlt, if_neg fun hboth => hlt hboth.2]
      rfl
  · rw [if_neg hvain, if_neg fun hboth => hvain hboth.1]
    dsimp only [Fetch.pure_apply]
    rw [Fetch.bind_apply, h]
    rfl

namespace Encoding

variable {mode : Mode} {bytes : List UInt8}

theorem isX87_of_opcode (h : (opcode mode bytes).escape = .x87) :
    OpcodeMap.isX87 (opcode mode bytes).byte := by
  unfold opcode at h ⊢
  split_ifs at h ⊢ with hfirst hrange
  exact (OpcodeMap.isX87_iff _).2 hrange

/-- The bytes that the record of an undefined opcode covers. -/
def undefinedLength (mode : Mode) (bytes : List UInt8) : Nat :=
  prefixLength mode bytes + opcodeLength mode bytes +
    if (opcode mode bytes).readsInVain (selector mode bytes) mode ∧
      prefixLength mode bytes + opcodeLength mode bytes < (window bytes).length then 1 else 0

theorem fetchDecoded_undefined
    (h : ∀ m, (opcode mode bytes).lookup m (selector mode bytes) mode = none)
    (hle : prefixLength mode bytes + opcodeLength mode bytes ≤ (window bytes).length) :
    fetchDecoded mode (prefixes mode bytes) ⟨window bytes, prefixLength mode bytes⟩ =
      (none, ⟨window bytes, undefinedLength mode bytes⟩) := by
  rcases Opcode.reads_fetch mode (window_isPrefix bytes) (prefixLength_le mode bytes) with
    ⟨-, hopcode⟩ | ⟨hno, -⟩
  · rw [fetchDecoded, Fetch.bind_apply, hopcode]
    exact fetchOperation_undefined isX87_of_opcode h _ _
  · exact absurd hle hno

theorem undefinedLength_le
    (hle : prefixLength mode bytes + opcodeLength mode bytes ≤ (window bytes).length) :
    undefinedLength mode bytes ≤ (window bytes).length := by
  unfold undefinedLength
  split_ifs <;> omega

/-- The record of an undefined opcode. -/
theorem decode_undefined (address : UInt64)
    (h : ∀ m, (opcode mode bytes).lookup m (selector mode bytes) mode = none)
    (hle : prefixLength mode bytes + opcodeLength mode bytes ≤ (window bytes).length) :
    decode mode address bytes =
      .invalid address mode ((window bytes).take (undefinedLength mode bytes)) := by
  have hpos : 1 ≤ undefinedLength mode bytes := by
    unfold undefinedLength opcodeLength
    split_ifs <;> omega
  rw [decode_eq, fetchDecoded_undefined h hle]
  dsimp only
  rw [Nat.max_eq_right hpos]
  rfl

end Encoding

open Encoding

/-- **Decoding goes on after an undefined opcode.** If the opcode lies within the bytes that are
left and within fifteen and has no form for any ModRM byte, then the record is invalid and covers
the prefixes, the escape bytes and the opcode, and the next record starts behind them. Only a ModRM
byte that is read in vain is covered too. -/
theorem decodeAt_undefined {buffer : List UInt8} {cursor : Nat} (hcursor : cursor < buffer.length)
    (address : UInt64) (mode : Mode)
    (h : ∀ m, (opcode mode (buffer.drop cursor)).lookup m (selector mode (buffer.drop cursor))
      mode = none)
    (hle : prefixLength mode (buffer.drop cursor) + opcodeLength mode (buffer.drop cursor) ≤
      min 15 (buffer.length - cursor)) :
    ∃ r, decodeAt buffer cursor address mode = .ok r ∧ r.isValid = false ∧
      r.bytes = (buffer.drop cursor).take (undefinedLength mode (buffer.drop cursor)) ∧
      records mode address (buffer.drop cursor) = r ::
        records mode (address + UInt64.ofNat (undefinedLength mode (buffer.drop cursor)))
          (buffer.drop (cursor + undefinedLength mode (buffer.drop cursor))) := by
  have hne : buffer.drop cursor ≠ [] := List.ne_nil_of_length_pos (by rw [List.length_drop]; omega)
  have hwindow : (window (buffer.drop cursor)).length = min 15 (buffer.length - cursor) := by
    rw [window, List.length_take, List.length_drop, Instruction.maxLength]
  rw [← hwindow] at hle
  have hmax := undefinedLength_le hle
  have hdecode := decode_undefined address h hle
  have hlength : (decode mode address (buffer.drop cursor)).length =
      undefinedLength mode (buffer.drop cursor) := by
    rw [hdecode, Instruction.length, Instruction.invalid, Instruction.ofBytes]
    rw [List.length_take, List.length_take, Nat.min_eq_left hmax]
    exact Nat.min_eq_right (hmax.trans (length_window_le _))
  refine ⟨_, decodeAt_of_lt hcursor address mode, ?_, ?_, ?_⟩
  · rw [hdecode]
    rfl
  · rw [bytes_decode, hlength]
  · rw [records_of_ne_nil hne, Instruction.nextAddress, address_decode, hlength, List.drop_drop]

/-- 0F 04, which no mode has, under an override and between two instructions. -/
theorem decodeAt_undefined_0f04 :
    ∃ r, decodeAt [0x90, 0x66, 0x0f, 0x04, 0x90] 1 0x1000 .m64 = .ok r ∧ r.isValid = false ∧
      r.bytes = [0x66, 0x0f, 0x04] ∧
      records .m64 0x1000 [0x66, 0x0f, 0x04, 0x90] = r :: records .m64 0x1003 [0x90] := by
  have hcursor : 1 < ([0x90, 0x66, 0x0f, 0x04, 0x90] : List UInt8).length := by decide
  exact decodeAt_undefined hcursor 0x1000 .m64 (fun _ => rfl) (by decide +kernel)

/-- The byte after an undefined opcode is not always left to the next record: under F3 no member of
this group is left. -/
theorem decode_undefined_f30f71 :
    (∀ m, (opcode .m64 [0xf3, 0x0f, 0x71, 0x90]).lookup m
      (selector .m64 [0xf3, 0x0f, 0x71, 0x90]) .m64 = none) ∧
    prefixLength .m64 [0xf3, 0x0f, 0x71, 0x90] + opcodeLength .m64 [0xf3, 0x0f, 0x71, 0x90] = 3 ∧
    (decode .m64 0x1000 [0xf3, 0x0f, 0x71, 0x90]).bytes = [0xf3, 0x0f, 0x71, 0x90] := by
  have hreg : ∀ mod : Fin 4, ∀ reg rm : Fin 8, (opcode .m64 [0xf3, 0x0f, 0x71, 0x90]).lookup
      ⟨mod, reg, rm⟩ (selector .m64 [0xf3, 0x0f, 0x71, 0x90]) .m64 = none := by
    decide +kernel
  exact ⟨fun m => hreg m.mod m.reg m.rm, by decide +kernel, by decide +kernel⟩

end Disasm
