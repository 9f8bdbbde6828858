/-!
# Reading the bytes of an instruction

* `ofLittleEndian` — the number that bytes stand for, lowest byte first.
* `Reader` — a place within a window of bytes. A read either takes all the bytes it needs or
  leaves the place as it was.
* `Fetch` — computations that read in order. One that fails keeps the place it had reached, so
  that it is known which bytes were looked at before the failure.
-/

namespace Disasm

/-! ## Little-endian numbers -/

/-- The number whose bytes, lowest first, are these. -/
def ofLittleEndian : List UInt8 → Nat
  | [] => 0
  | b :: bs => b.toNat + 256 * ofLittleEndian bs

/-! ## A place in a window -/

/-- A window of bytes and how many of them have been consumed. -/
structure Reader where
  window : List UInt8
  position : Nat := 0
deriving DecidableEq, Inhabited

namespace Reader

/-- The bytes not consumed yet. -/
def rest (r : Reader) : List UInt8 := r.window.drop r.position

def advance (r : Reader) (n : Nat) : Reader := { r with position := r.position + n }

/-- The next `n` bytes, if there are as many. -/
def take? (r : Reader) (n : Nat) : Option (List UInt8 × Reader) :=
  if r.position + n ≤ r.window.length then some (r.rest.take n, r.advance n) else none

/-- The next `width` bytes as a number from 0. -/
def unsigned? (r : Reader) (width : Nat) : Option (Nat × Reader) :=
  (r.take? width).map fun (bs, r) => (ofLittleEndian bs, r)

/-- The next `width` bytes as a number in two's complement. -/
def signed? (r : Reader) (width : Nat) : Option (Int × Reader) :=
  (r.take? width).map fun (bs, r) => (Int.bmod (ofLittleEndian bs) (1 <<< (8 * width)), r)

end Reader

/-! ## Reading in order -/

/-- A computation that reads bytes. Where it fails, the reader tells how far it had come. -/
def Fetch (α : Type) : Type := Reader → Option α × Reader

namespace Fetch

instance : Monad Fetch where
  pure a := fun r => (some a, r)
  bind m f := fun r =>
    match m r with
    | (some a, r') => f a r'
    | (none, r') => (none, r')

/-- Nothing can be made of the bytes read so far. -/
def fail {α : Type} : Fetch α := fun r => (none, r)

/-- A value, or failure where there is none. -/
def ofOption {α : Type} (a : Option α) : Fetch α := fun r => (a, r)

/-- A read that leaves the reader alone where it does not succeed. -/
def ofRead {α : Type} (read : Reader → Option (α × Reader)) : Fetch α := fun r =>
  match read r with
  | some (a, r') => (some a, r')
  | none => (none, r)

/-- The next `width` bytes as a number from 0. -/
def unsigned (width : Nat) : Fetch Nat := ofRead (Reader.unsigned? · width)

/-- The next `width` bytes as a number in two's complement. -/
def signed (width : Nat) : Fetch Int := ofRead (Reader.signed? · width)

/-- The next byte. -/
def byte : Fetch UInt8 := do return UInt8.ofNat (← unsigned 1)

theorem bind_apply {α β : Type} (m : Fetch α) (f : α → Fetch β) (r : Reader) :
    (m >>= f) r = match m r with
      | (some a, r') => f a r'
      | (none, r') => (none, r') := rfl

@[simp] theorem pure_apply {α : Type} (a : α) (r : Reader) :
    (pure a : Fetch α) r = (some a, r) := rfl

@[simp] theorem fail_apply {α : Type} (r : Reader) : (fail : Fetch α) r = (none, r) := rfl

end Fetch

end Disasm
