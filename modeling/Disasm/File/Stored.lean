/-!
# What a file holds

Bytes, and zeros behind them: a file that is made longer is filled up with zeros, however many.
They are counted and not listed. `Stored.toList` is all of it, and `slice_eq` says that any part of
it can be had without writing out the rest.
-/

namespace Disasm

/-- Some bytes and a number of zeros behind them. -/
structure Stored where
  bytes : List UInt8
  zeros : Nat := 0
deriving DecidableEq, Inhabited

namespace Stored

def length (s : Stored) : Nat := s.bytes.length + s.zeros

/-- Every byte. -/
def toList (s : Stored) : List UInt8 := s.bytes ++ List.replicate s.zeros 0

/-- The `n` bytes from `offset` on, or as many as there are. -/
def slice (s : Stored) (offset n : Nat) : List UInt8 :=
  let found := (s.bytes.drop offset).take n
  let behind := s.length - max offset s.bytes.length
  found ++ List.replicate (min (n - found.length) behind) 0

/-- Cut off, or filled up with zeros, to `n` bytes. -/
def resize (s : Stored) (n : Nat) : Stored :=
  if n ≤ s.bytes.length then ⟨s.bytes.take n, 0⟩ else ⟨s.bytes, n - s.bytes.length⟩

@[simp] theorem length_toList (s : Stored) : s.toList.length = s.length := by
  simp [toList, length]

@[simp] theorem length_resize (s : Stored) (n : Nat) : (s.resize n).length = n := by
  unfold resize
  split
  · next h => simp [length, h]
  · simp only [length]
    omega

theorem slice_eq (s : Stored) (offset n : Nat) :
    s.slice offset n = (s.toList.drop offset).take n := by
  simp only [slice, toList, length, List.drop_append, List.take_append, List.length_take,
    List.length_drop, List.drop_replicate, List.take_replicate]
  congr 2
  omega

end Stored

end Disasm
