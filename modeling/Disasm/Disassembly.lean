import Disasm.Decode

/-!
# Disassembling a buffer

A buffer is cut into records from its first byte on: each record starts where the one before ends,
so every byte belongs to exactly one of them.

* `records` — all the records of some bytes at an address.
* `Disassembly` — a non-empty buffer in a context; `Disassembly.Iterator` walks it record by record
  and can start anywhere.
* `Iterator.toList_eq_records` — from anywhere on, the records met are those of the bytes left.
* `exists_bytes_decode` — a record holds the first bytes it was decoded from, at least one and at
  most 15. The walks end because of it.
-/

namespace Disasm

/-! ## What a record covers -/

theorem Instruction.bytes_foldl_push (os : List Operand) (i : Instruction) :
    (os.foldl push i).bytes = i.bytes := by
  induction os generalizing i with
  | nil => rfl
  | cons o os ih => simp [ih, push]

theorem Instruction.address_foldl_push (os : List Operand) (i : Instruction) :
    (os.foldl push i).address = i.address := by
  induction os generalizing i with
  | nil => rfl
  | cons o os ih => simp [ih, push]

theorem Instruction.bytes_ofDecoded (address : UInt64) (mode : Mode) (bytes : List UInt8)
    (d : Option Decoded) : (ofDecoded address mode bytes d).bytes = bytes.take maxLength := by
  cases d with
  | none => rfl
  | some d => exact bytes_foldl_push d.operands _

theorem Instruction.address_ofDecoded (address : UInt64) (mode : Mode) (bytes : List UInt8)
    (d : Option Decoded) : (ofDecoded address mode bytes d).address = address := by
  cases d with
  | none => rfl
  | some d => exact address_foldl_push d.operands _

/-- A record stands at the address it was decoded at. -/
theorem address_decode (mode : Mode) (address : UInt64) (bytes : List UInt8) :
    (decode mode address bytes).address = address :=
  Instruction.address_ofDecoded address mode _ _

/-- A record covers the first bytes of those it was decoded from, and one at least. -/
theorem exists_bytes_decode (mode : Mode) (address : UInt64) (bytes : List UInt8) :
    ∃ n, 1 ≤ n ∧ n ≤ Instruction.maxLength ∧ (decode mode address bytes).bytes = bytes.take n := by
  obtain ⟨k, hk⟩ : ∃ k, (decode mode address bytes).bytes =
      ((window bytes).take (max 1 k)).take Instruction.maxLength :=
    ⟨_, Instruction.bytes_ofDecoded address mode _ _⟩
  refine ⟨min (max 1 k) Instruction.maxLength, ?_, Nat.min_le_right _ _, ?_⟩
  · simp only [Instruction.maxLength]
    omega
  · rw [hk, window, List.take_take, List.take_take]
    congr 1
    omega

theorem length_decode_pos {mode : Mode} {address : UInt64} {bytes : List UInt8} (h : bytes ≠ []) :
    0 < (decode mode address bytes).length := by
  obtain ⟨n, hn, -, hb⟩ := exists_bytes_decode mode address bytes
  have := List.length_pos_iff.2 h
  simp only [Instruction.length, hb, List.length_take]
  omega

theorem length_decode_le (mode : Mode) (address : UInt64) (bytes : List UInt8) :
    (decode mode address bytes).length ≤ bytes.length := by
  obtain ⟨n, -, -, hb⟩ := exists_bytes_decode mode address bytes
  simp only [Instruction.length, hb, List.length_take]
  omega

theorem length_drop_decode_lt {mode : Mode} {address : UInt64} {bytes : List UInt8}
    (h : bytes ≠ []) :
    (bytes.drop (decode mode address bytes).length).length < bytes.length := by
  have := @length_decode_pos mode address bytes h
  have := List.length_pos_iff.2 h
  simp only [List.length_drop]
  omega

theorem drop_ne_nil {buffer : List UInt8} {cursor : Nat} (h : cursor < buffer.length) :
    buffer.drop cursor ≠ [] := by
  rw [ne_eq, List.drop_eq_nil_iff]
  exact Nat.not_le_of_lt h

/-! ## All records -/

/-- The records of `bytes`, which stand at `address`, from the first byte to the last. -/
def records (mode : Mode) (address : UInt64) (bytes : List UInt8) : List Instruction :=
  if _h : bytes = [] then []
  else
    let i := decode mode address bytes
    i :: records mode i.nextAddress (bytes.drop i.length)
termination_by bytes.length
decreasing_by exact length_drop_decode_lt ‹_›

/-! ## Walking a buffer -/

/-- A buffer to disassemble. -/
structure Disassembly where
  bytes : List UInt8
  context : Context
  nonempty : bytes ≠ []

namespace Disassembly

/-- A buffer needs at least one byte. -/
def ofBytes (bytes : List UInt8) (context : Context) : Except ConfigurationError Disassembly :=
  if h : bytes = [] then .error .emptyBuffer else .ok ⟨bytes, context, h⟩

/-- All records of the buffer. -/
def toList (d : Disassembly) : List Instruction :=
  records d.context.mode d.context.base d.bytes

/-- A place in the buffer at which decoding goes on, or its end. -/
structure Iterator (d : Disassembly) where
  offset : Nat
  offset_le : offset ≤ d.bytes.length

namespace Iterator

variable {d : Disassembly}

instance : DecidableEq (Iterator d) := fun a b =>
  if h : a.offset = b.offset then
    .isTrue (by cases a; cases b; cases h; rfl)
  else .isFalse fun e => h (congrArg offset e)

/-- The record at an iterator. At the end that is the default record, which has no bytes. -/
def record (it : Iterator d) : Instruction :=
  if it.offset < d.bytes.length then
    decode d.context.mode (d.context.base + UInt64.ofNat it.offset) (d.bytes.drop it.offset)
  else {}

theorem offset_add_length_le (it : Iterator d) :
    it.offset + it.record.length ≤ d.bytes.length := by
  have hle := it.offset_le
  unfold record
  split
  · have := length_decode_le d.context.mode (d.context.base + UInt64.ofNat it.offset)
      (d.bytes.drop it.offset)
    simp only [List.length_drop] at this
    omega
  · simp only [Instruction.length, List.length_nil]
    omega

/-- The place after the record. The end stays where it is. -/
def next (it : Iterator d) : Iterator d :=
  ⟨it.offset + it.record.length, it.offset_add_length_le⟩

/-- The two ways of moving an iterator on. -/
inductive Increment
  | pre | post
deriving DecidableEq, Inhabited

/-- What an increment stands for, and where the iterator is afterwards. Both ways lead to the next
place; the one stands for that place, the other for the place that was left. -/
def increment (it : Iterator d) : Increment → Iterator d × Iterator d
  | .pre => (it.next, it.next)
  | .post => (it, it.next)

theorem offset_lt_next {it : Iterator d} (h : it.offset < d.bytes.length) :
    it.offset < it.next.offset := by
  have := @length_decode_pos d.context.mode (d.context.base + UInt64.ofNat it.offset) _
    (drop_ne_nil h)
  simp only [next, record, h, if_true]
  omega

/-- The records met on the way from here to the end. -/
def toList (it : Iterator d) : List Instruction :=
  if h : it.offset < d.bytes.length then
    have := offset_lt_next h
    it.record :: it.next.toList
  else []
termination_by d.bytes.length - it.offset

/-- The records of the bytes from here on are those met on the way. -/
theorem toList_eq_records (it : Iterator d) :
    it.toList = records d.context.mode (d.context.base + UInt64.ofNat it.offset)
      (d.bytes.drop it.offset) := by
  induction it using toList.induct with
  | case1 it h _ ih =>
    have hne : d.bytes.drop it.offset ≠ [] := drop_ne_nil h
    rw [toList, records]
    simp only [h, hne, dif_pos, dif_neg, not_false_eq_true]
    have hr : it.record = decode d.context.mode (d.context.base + UInt64.ofNat it.offset)
        (d.bytes.drop it.offset) := by simp [record, h]
    rw [ih, ← hr]
    have haddr : it.record.nextAddress =
        d.context.base + UInt64.ofNat (it.offset + it.record.length) := by
      rw [hr, Instruction.nextAddress, address_decode, ← hr, UInt64.ofNat_add, UInt64.add_assoc]
    simp [next, haddr, List.drop_drop]
  | case2 it h =>
    have he : d.bytes.drop it.offset = [] := List.drop_eq_nil_of_le (by omega)
    rw [toList, records]
    simp [h, he]

/-- How many steps lead to the end. -/
def distance (it : Iterator d) : Nat :=
  (records d.context.mode (d.context.base + UInt64.ofNat it.offset)
    (d.bytes.drop it.offset)).length

theorem length_toList (it : Iterator d) : it.toList.length = it.distance := by
  rw [toList_eq_records, distance]

end Iterator

variable (d : Disassembly)

/-- The place at `offset`; every offset past the buffer is its end. -/
def iteratorAt (offset : Nat) : Iterator d := ⟨min offset d.bytes.length, Nat.min_le_right _ _⟩

/-- The first byte. -/
def first : Iterator d := d.iteratorAt 0

/-- The end of the buffer. -/
def last : Iterator d := d.iteratorAt d.bytes.length

end Disassembly

end Disasm
