import Disasm.Disassembly
import Mathlib

/-!
# A disassembly partitions its buffer

**Theorem (`toList_partition`).** A walk over a buffer that is not empty comes to its end, and the
records it meets are the buffer cut into pieces: put together they hold its bytes, each of them
holds one to fifteen, the first stands at the base address, and each of the others where the one
before it ends.

* One record takes the first bytes of what is left, at least one (`bytes_decode`).
* All records are this step repeated, so that what they hold and where they stand follows by
  induction on the bytes left.
* The walk meets those records and no others, because each step moves the place forward by the
  record's length (`Iterator.iterate_next`).
-/

namespace Disasm

/-! ## One record -/

/-- A record holds as many of the bytes it was decoded from as it is long. -/
theorem bytes_decode (mode : Mode) (address : UInt64) (bytes : List UInt8) :
    (decode mode address bytes).bytes = bytes.take (decode mode address bytes).length := by
  obtain ⟨n, -, -, hb⟩ := exists_bytes_decode mode address bytes
  rw [Instruction.length, hb, List.length_take, ← List.take_eq_take_min]

theorem length_decode_le_maxLength (mode : Mode) (address : UInt64) (bytes : List UInt8) :
    (decode mode address bytes).length ≤ Instruction.maxLength := by
  obtain ⟨n, -, hn, hb⟩ := exists_bytes_decode mode address bytes
  rw [Instruction.length, hb, List.length_take]
  omega

/-! ## All records -/

theorem records_nil (mode : Mode) (address : UInt64) : records mode address [] = [] := by
  rw [records, dif_pos rfl]

theorem records_of_ne_nil {mode : Mode} {address : UInt64} {bytes : List UInt8}
    (h : bytes ≠ []) :
    records mode address bytes = decode mode address bytes ::
      records mode (decode mode address bytes).nextAddress
        (bytes.drop (decode mode address bytes).length) := by
  rw [records, dif_neg h]

/-- The records of some bytes hold these bytes. -/
theorem flatMap_bytes_records (mode : Mode) (address : UInt64) (bytes : List UInt8) :
    (records mode address bytes).flatMap Instruction.bytes = bytes := by
  induction address, bytes using records.induct mode with
  | case1 address => rw [records_nil, List.flatMap_nil]
  | case2 address bytes h i ih =>
    rw [records_of_ne_nil h, List.flatMap_cons, ih, bytes_decode]
    exact List.take_append_drop _ bytes

theorem length_of_mem_records {mode : Mode} {address : UInt64} {bytes : List UInt8}
    {r : Instruction} (h : r ∈ records mode address bytes) :
    1 ≤ r.length ∧ r.length ≤ Instruction.maxLength := by
  induction address, bytes using records.induct mode with
  | case1 address =>
    rw [records_nil] at h
    exact absurd h List.not_mem_nil
  | case2 address bytes hne i ih =>
    rw [records_of_ne_nil hne, List.mem_cons] at h
    rcases h with rfl | h
    · exact ⟨length_decode_pos hne, length_decode_le_maxLength mode address bytes⟩
    · exact ih h

/-- The first record stands where the bytes do. -/
theorem address_head?_records {mode : Mode} {address : UInt64} {bytes : List UInt8}
    (h : bytes ≠ []) :
    (records mode address bytes).head?.map Instruction.address = some address := by
  rw [records_of_ne_nil h, List.head?_cons, Option.map_some, address_decode]

/-- Each record stands where the one before it ends. -/
theorem isChain_records (mode : Mode) (address : UInt64) (bytes : List UInt8) :
    (records mode address bytes).IsChain fun a b => b.address = a.nextAddress := by
  induction address, bytes using records.induct mode with
  | case1 address =>
    rw [records_nil]
    exact List.isChain_nil
  | case2 address bytes h i ih =>
    rw [records_of_ne_nil h]
    refine ih.cons fun r hr => ?_
    have hne : bytes.drop i.length ≠ [] := by
      intro he
      rw [he, records_nil] at hr
      exact absurd hr (Option.not_mem_none r)
    have hhead := @address_head?_records mode i.nextAddress _ hne
    rw [Option.mem_def.1 hr, Option.map_some] at hhead
    exact Option.some.inj hhead

/-! ## The walk -/

namespace Disassembly

open Iterator

theorem Iterator.toList_of_lt {d : Disassembly} {it : Iterator d}
    (h : it.offset < d.bytes.length) : it.toList = it.record :: it.next.toList := by
  rw [toList, dif_pos h]

theorem Iterator.toList_of_not_lt {d : Disassembly} {it : Iterator d}
    (h : ¬ it.offset < d.bytes.length) : it.toList = [] := by
  rw [toList, dif_neg h]

theorem Iterator.ext {d : Disassembly} {a b : Iterator d} (h : a.offset = b.offset) : a = b := by
  cases a
  cases b
  cases h
  rfl

theorem offset_last (d : Disassembly) : d.last.offset = d.bytes.length := Nat.min_self _

/-- A walk of as many steps as there are records left comes to the end, and not before; at each
step it is at the record of that number. -/
theorem Iterator.iterate_next {d : Disassembly} (it : Iterator d) :
    next^[it.toList.length] it = d.last ∧
      ∀ (k : Nat) (hk : k < it.toList.length),
        next^[k] it ≠ d.last ∧ (next^[k] it).record = it.toList[k] := by
  induction it using toList.induct with
  | case1 it h _ ih =>
    obtain ⟨hlast, hrec⟩ := ih
    rw [toList_of_lt h]
    refine ⟨hlast, fun k hk => ?_⟩
    cases k with
    | zero =>
      refine ⟨fun he => ?_, rfl⟩
      have := congrArg Iterator.offset he
      rw [offset_last] at this
      exact absurd this (Nat.ne_of_lt h)
    | succ k => exact hrec k (Nat.lt_of_succ_lt_succ hk)
  | case2 it h =>
    rw [toList_of_not_lt h]
    refine ⟨Iterator.ext ?_, fun k hk => absurd hk (Nat.not_lt_zero k)⟩
    rw [offset_last]
    exact Nat.le_antisymm it.offset_le (Nat.not_lt.1 h)

theorem toList_first (d : Disassembly) : d.first.toList = d.toList := by
  rw [toList_eq_records, toList]
  simp [first, iteratorAt]

/-- **A disassembly partitions its buffer.** The walk from the first byte ends after as many steps
as there are records and meets them in order; the records hold the bytes of the buffer, one to
fifteen each, and stand one after the other from the base address on. -/
theorem toList_partition (bytes : List UInt8) (context : Context) (h : bytes ≠ []) :
    ∃ d, ofBytes bytes context = .ok d ∧
      (next^[d.toList.length] d.first = d.last ∧
        ∀ (k : Nat) (hk : k < d.toList.length),
          next^[k] d.first ≠ d.last ∧ (next^[k] d.first).record = d.toList[k]) ∧
      d.toList.flatMap Instruction.bytes = bytes ∧
      (∀ r ∈ d.toList, 1 ≤ r.length ∧ r.length ≤ 15 ∧ r.bytes.length = r.length) ∧
      d.toList.head?.map Instruction.address = some context.base ∧
      d.toList.IsChain fun a b => b.address = a.nextAddress := by
  let d : Disassembly := ⟨bytes, context, h⟩
  have hwalk := d.first.iterate_next
  simp only [toList_first] at hwalk
  refine ⟨d, dif_neg h, hwalk, flatMap_bytes_records _ _ _, fun r hr => ?_,
    address_head?_records h, isChain_records _ _ _⟩
  obtain ⟨hpos, hle⟩ := length_of_mem_records hr
  exact ⟨hpos, hle, rfl⟩

/-- Ten bytes that end in a broken instruction, at an address from which they run past the largest
one. -/
theorem toList_partition_wrapping :
    ([0x48, 0x89, 0xe5, 0x0f, 0xff, 0x66, 0x90, 0xe8, 0x00, 0x01] : List UInt8) ≠ [] ∧
      ∃ d, ofBytes [0x48, 0x89, 0xe5, 0x0f, 0xff, 0x66, 0x90, 0xe8, 0x00, 0x01]
          ⟨.m64, 0xfffffffffffffffc⟩ = .ok d ∧
        d.toList.flatMap Instruction.bytes =
          [0x48, 0x89, 0xe5, 0x0f, 0xff, 0x66, 0x90, 0xe8, 0x00, 0x01] ∧
        d.toList.IsChain fun a b => b.address = a.nextAddress := by
  have hne : ([0x48, 0x89, 0xe5, 0x0f, 0xff, 0x66, 0x90, 0xe8, 0x00, 0x01] : List UInt8) ≠ [] := by
    decide
  obtain ⟨d, hd, -, hbytes, -, -, hchain⟩ :=
    toList_partition _ ⟨.m64, 0xfffffffffffffffc⟩ hne
  exact ⟨hne, d, hd, hbytes, hchain⟩

end Disassembly

end Disasm
