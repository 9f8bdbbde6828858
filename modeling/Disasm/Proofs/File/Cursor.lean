import Disasm.File
import Mathlib

/-!
# A file is a cursor

As long as nobody changes a file, reading ahead does not show: an open file behaves like a place
within its bytes and an indicator.

* `Cursor` — the place and the indicator, and what reading does to them.
* `File.Shows` — an open file shows a cursor. The block at hand is what the bytes are where it
  stands, the cursor is within it, and once the end is met nothing of it is left.

Each operation of a file gives what its cursor gives and shows the cursor that comes of it:
`Shows.read`, `Shows.number`, `Shows.startsWith`, `Shows.seek`, `Shows.contents`.
-/

namespace Disasm

/-! ## Cursors -/

/-- A place within some bytes, whether a read has asked for more than there is, and the last place
that can be gone to. -/
structure Cursor where
  bytes : List UInt8
  place : Nat := 0
  atEnd : Bool := false
  lastPlace : Nat

namespace Cursor

/-- The bytes from the place on. -/
def rest (c : Cursor) : List UInt8 := c.bytes.drop c.place

/-- The cursor at another place. -/
def moved (c : Cursor) (place : Nat) : Cursor := { c with place, atEnd := false }

/-- Where a seek counts from. -/
def origin (c : Cursor) : Whence → Nat
  | .start => 0
  | .current => c.place
  | .finish => c.bytes.length

/-- The cursor behind the next `n` bytes, which are there. -/
def advance (c : Cursor) (n : Nat) : Cursor := { c with place := c.place + n }

/-- The next `n` bytes, or as many as there are. -/
def read (c : Cursor) (n : Nat) : List UInt8 × Cursor :=
  let found := c.rest.take n
  (found, { c.advance found.length with atEnd := c.atEnd || found.length < n })

/-- The next `width` bytes as a number, lowest byte first. Bytes that are not there are `0xff`. -/
def number (c : Cursor) (width : Nat) : Nat × Cursor :=
  let (found, c) := c.read width
  (ofLittleEndian (found ++ List.replicate (width - found.length) 0xff), c)

variable {c : Cursor} {n k : Nat} {front : List UInt8}

/-- A read in two parts: what is there for certain, and what is behind it. -/
theorem read_eq_append (h : front <+: c.rest) (hn : front.length ≤ n) : c.read n =
    (front ++ ((c.advance front.length).read (n - front.length)).1,
      ((c.advance front.length).read (n - front.length)).2) := by
  obtain ⟨back, hback⟩ := h
  have hrest : (c.advance front.length).rest = back := by
    rw [rest, advance, ← List.drop_drop, ← rest, ← hback, List.drop_left]
  have hfound : c.rest.take n = front ++ back.take (n - front.length) := by
    rw [← hback, List.take_append, List.take_of_length_le hn]
  have hshort : (front ++ back.take (n - front.length)).length < n ↔
      (back.take (n - front.length)).length < n - front.length := by
    rw [List.length_append]
    omega
  simp only [read, hrest, hfound, hshort]
  simp only [advance, List.length_append, Nat.add_assoc]

theorem rest_eq_nil (h : c.bytes.length ≤ c.place) : c.rest = [] := List.drop_eq_nil_of_le h

/-- A read at the end meets it. -/
theorem read_of_rest_eq_nil (h : c.rest = []) (hn : 0 < n) :
    c.read n = ([], { c with atEnd := true }) := by
  simp [read, advance, h, hn]

end Cursor

namespace File

variable {f : File} {c : Cursor} {n : Nat}

/-- The file shows this cursor. -/
structure Shows (f : File) (c : Cursor) : Prop where
  bytes_eq : f.stored.toList = c.bytes
  size_eq : f.size = c.bytes.length
  atEnd_eq : f.atEnd = c.atEnd
  lastPlace_eq : f.lastPlace = c.lastPlace
  place_eq : c.place + f.unread.length = f.next
  unread_isPrefix : f.unread <+: c.rest
  block_eq : f.block = (c.bytes.drop (f.next - f.block.length)).take f.block.length
  block_le : f.block.length ≤ f.next
  met : c.atEnd → f.unread = [] ∧ c.bytes.length ≤ c.place

theorem shows_ofBytes (name : String) (bytes : List UInt8) (lastPlace : Nat) :
    (ofBytes name bytes lastPlace).Shows ⟨bytes, 0, false, lastPlace⟩ where
  bytes_eq := List.append_nil _
  size_eq := Nat.add_zero _
  atEnd_eq := rfl
  lastPlace_eq := rfl
  place_eq := rfl
  unread_isPrefix := List.nil_prefix
  block_eq := rfl
  block_le := Nat.le_refl 0
  met h := nomatch h

theorem Shows.position_eq (h : f.Shows c) : f.position = c.place := by
  have hplace := h.place_eq
  unfold position
  omega

theorem Shows.slice_eq (h : f.Shows c) (place n : Nat) :
    f.stored.slice place n = (c.bytes.drop place).take n := by
  rw [Stored.slice_eq, h.bytes_eq]

/-! ## Reading -/

theorem drop_length_take {α : Type} (l : List α) (n : Nat) :
    l.drop (l.take n).length = l.drop n := by
  rw [List.drop_eq_drop_iff, List.length_take]
  omega

theorem take_length_take {α : Type} (l : List α) (n : Nat) :
    l.take (l.take n).length = l.take n := by
  rw [List.length_take, ← List.take_eq_take_min]

/-- What is read from the block at hand is there, and is all of it if it is not enough. -/
theorem Shows.readBlock (h : f.Shows c) (n : Nat) :
    (f.readBlock n).1 = f.unread.take n ∧
      (f.readBlock n).2.Shows (c.advance (f.readBlock n).1.length) ∧
      (f.readBlock n).2.unread = f.unread.drop n := by
  have hunread : (f.readBlock n).2.unread = f.unread.drop n := by
    rw [← drop_length_take]
    exact List.drop_drop.symm
  refine ⟨rfl, ?_, hunread⟩
  have hlength : (f.readBlock n).1.length + (f.unread.drop n).length = f.unread.length := by
    simp only [File.readBlock, List.length_take, List.length_drop]
    omega
  exact {
    bytes_eq := h.bytes_eq
    size_eq := h.size_eq
    atEnd_eq := h.atEnd_eq
    lastPlace_eq := h.lastPlace_eq
    place_eq := by
      rw [hunread, Cursor.advance, Nat.add_assoc, hlength]
      exact h.place_eq
    unread_isPrefix := by
      rw [hunread, ← drop_length_take, Cursor.rest, Cursor.advance, ← List.drop_drop]
      exact h.unread_isPrefix.drop _
    block_eq := h.block_eq
    block_le := h.block_le
    met := fun hc => by
      obtain ⟨hnil, hle⟩ := h.met hc
      rw [hunread, hnil]
      exact ⟨List.drop_nil, hle.trans (Nat.le_add_right _ _)⟩ }

/-- A new block is what stands behind the cursor, and if there is none the end is met. -/
theorem Shows.fill (h : f.Shows c) (hunread : f.unread = []) :
    f.fill.Shows { c with atEnd := c.atEnd || c.bytes.length ≤ c.place } ∧
      f.fill.unread = c.rest.take blockLength := by
  have hplace := h.place_eq
  rw [hunread, List.length_nil, Nat.add_zero] at hplace
  cases hmet : c.atEnd with
  | true =>
    have hfill : f.fill = f := if_pos (h.atEnd_eq.trans hmet)
    have hrest : c.rest = [] := Cursor.rest_eq_nil (h.met hmet).2
    have hc : { c with atEnd := true } = c := by rw [← hmet]
    rw [hfill, Bool.true_or, hc, hrest, hunread]
    exact ⟨h, rfl⟩
  | false =>
    have hslice : f.stored.slice f.next blockLength = c.rest.take blockLength := by
      rw [h.slice_eq, ← hplace, Cursor.rest]
    have hempty : c.rest.take blockLength = [] ↔ c.bytes.length ≤ c.place := by
      simp [Cursor.rest, blockLength]
    unfold File.fill
    simp only [h.atEnd_eq, hmet, hslice, Bool.false_eq_true, if_false]
    by_cases hend : c.bytes.length ≤ c.place
    · rw [if_pos (hempty.2 hend), hempty.2 hend, decide_eq_true hend]
      exact ⟨{
        bytes_eq := h.bytes_eq
        size_eq := h.size_eq
        atEnd_eq := rfl
        lastPlace_eq := h.lastPlace_eq
        place_eq := hplace
        unread_isPrefix := List.nil_prefix
        block_eq := rfl
        block_le := Nat.zero_le _
        met := fun _ => ⟨rfl, hend⟩ }, rfl⟩
    · rw [if_neg (mt hempty.1 hend), decide_eq_false hend]
      exact ⟨{
        bytes_eq := h.bytes_eq
        size_eq := h.size_eq
        atEnd_eq := rfl
        lastPlace_eq := h.lastPlace_eq
        place_eq := congrArg (· + _) hplace
        unread_isPrefix := List.take_prefix _ _
        block_eq := by
          dsimp only
          rw [Nat.add_sub_cancel, ← hplace]
          exact (take_length_take _ _).symm
        block_le := Nat.le_add_left _ _
        met := fun hc => nomatch hc }, rfl⟩

/-- A part of a block is read like anything else, once the block at hand is used up. -/
theorem Shows.readPart (h : f.Shows c) (hunread : n ≠ 0 → f.unread = [])
    (hn : n < blockLength ∨ c.atEnd) :
    (f.readPart n).1 = (c.read n).1 ∧ (f.readPart n).2.Shows (c.read n).2 := by
  by_cases h0 : n = 0
  · subst h0
    simpa [File.readPart, Cursor.read, Cursor.advance] using h
  obtain ⟨hfill, hblock⟩ := h.fill (hunread h0)
  obtain ⟨hfound, hread, hrest⟩ := hfill.readBlock n
  have htake : (f.fill.readBlock n).1 = c.rest.take n := by
    rw [hfound, hblock, List.take_take]
    rcases hn with hn | hmet
    · rw [Nat.min_eq_left hn.le]
    · rw [Cursor.rest_eq_nil (h.met hmet).2, List.take_nil, List.take_nil]
  rw [htake] at hread
  unfold File.readPart
  rw [if_neg h0]
  dsimp only
  rw [htake]
  refine ⟨rfl, ?_⟩
  have hlength : (c.rest.take n).length = min n (c.bytes.length - c.place) := by
    rw [List.length_take, Cursor.rest, List.length_drop]
  show Shows _ { c.advance (c.rest.take n).length with
    atEnd := c.atEnd || (c.rest.take n).length < n }
  by_cases hshort : (c.rest.take n).length < n
  · -- Nothing is left of the new block, and none is behind it.
    have hend : c.bytes.length ≤ c.place + (c.rest.take n).length := by omega
    have hnil : (f.fill.readBlock n).2.unread = [] := by
      rw [hrest, List.drop_eq_nil_iff, hblock]
      rw [List.length_take] at hshort ⊢
      omega
    have hmet := (hread.fill hnil).1
    rw [if_pos hshort]
    generalize (c.rest.take n).length = k at hmet hshort hend ⊢
    simpa [Cursor.advance, hshort, hend] using hmet
  · have hnot : ¬ c.bytes.length ≤ c.place := by omega
    rw [if_neg hshort]
    generalize (c.rest.take n).length = k at hread hshort ⊢
    simpa [Cursor.advance, hshort, hnot] using hread

/-- Whole blocks are read like anything else, or the end is met on the way. What is left to read
then is less than a block, or the end has been met. -/
theorem Shows.readWhole (h : f.Shows c) (hunread : n ≠ 0 → f.unread = []) :
    (f.readWhole n).1 <+: c.rest ∧ (f.readWhole n).1.length ≤ n ∧
      ∃ c', (f.readWhole n).2.Shows c' ∧
        (n - (f.readWhole n).1.length ≠ 0 → (f.readWhole n).2.unread = []) ∧
        (n - (f.readWhole n).1.length < blockLength ∨ c'.atEnd) ∧
        c'.read (n - (f.readWhole n).1.length) =
          (c.advance (f.readWhole n).1.length).read (n - (f.readWhole n).1.length) := by
  unfold File.readWhole
  split_ifs with hfew
  · refine ⟨List.nil_prefix, Nat.zero_le _, c, h, hunread, ?_, rfl⟩
    exact hfew.imp id fun hmet => h.atEnd_eq ▸ hmet
  obtain ⟨hmany, hmet⟩ := not_or.1 hfew
  rw [h.atEnd_eq, Bool.not_eq_true] at hmet
  have hplace := h.place_eq
  rw [hunread (by unfold blockLength at hmany; omega), List.length_nil, Nat.add_zero] at hplace
  have hfound : f.stored.slice f.next (n - n % blockLength) =
      c.rest.take (n - n % blockLength) := by
    rw [h.slice_eq, ← hplace, Cursor.rest]
  have hlength : (c.rest.take (n - n % blockLength)).length =
      min (n - n % blockLength) (c.bytes.length - c.place) := by
    rw [List.length_take, Cursor.rest, List.length_drop]
  dsimp only
  rw [hfound]
  have hpre := List.take_prefix (n - n % blockLength) c.rest
  generalize c.rest.take (n - n % blockLength) = found at hlength hpre ⊢
  have hend : blockLength ≤ n - found.length → c.bytes.length ≤ c.place + found.length := by
    intro hshort
    have hmod : n % blockLength < blockLength := Nat.mod_lt _ (by decide)
    omega
  refine ⟨hpre, by omega, { c.advance found.length with
    atEnd := blockLength ≤ n - found.length }, ?_, fun _ => rfl, ?_, ?_⟩
  · exact {
      bytes_eq := h.bytes_eq
      size_eq := h.size_eq
      atEnd_eq := rfl
      lastPlace_eq := h.lastPlace_eq
      place_eq := congrArg (· + found.length) hplace
      unread_isPrefix := List.nil_prefix
      block_eq := rfl
      block_le := Nat.zero_le _
      met := fun hshort => ⟨rfl, hend (of_decide_eq_true hshort)⟩ }
  · rw [decide_eq_true_eq]
    omega
  · by_cases hshort : blockLength ≤ n - found.length
    · have hpos : 0 < n - found.length := Nat.lt_of_lt_of_le (by decide) hshort
      rw [Cursor.read_of_rest_eq_nil (c := c.advance found.length)
        (Cursor.rest_eq_nil (hend hshort)) hpos,
        Cursor.read_of_rest_eq_nil (Cursor.rest_eq_nil (hend hshort)) hpos]
    · rw [decide_eq_false hshort, ← hmet]
      rfl

/-- A file reads as its cursor does. -/
theorem Shows.read (h : f.Shows c) (n : Nat) :
    (f.read n).1 = (c.read n).1 ∧ (f.read n).2.Shows (c.read n).2 := by
  obtain ⟨hfront, hshows, hrest⟩ := h.readBlock n
  have hpre : (f.readBlock n).1 <+: c.rest := by
    rw [hfront]
    exact (List.take_prefix _ _).trans h.unread_isPrefix
  have hle : (f.readBlock n).1.length ≤ n := by
    rw [hfront]
    exact List.length_take_le _ _
  have hunread : n - (f.readBlock n).1.length ≠ 0 → (f.readBlock n).2.unread = [] := by
    rw [hrest, hfront, List.length_take, List.drop_eq_nil_iff]
    omega
  obtain ⟨hpre', hle', c', hshows', hunread', hshort, hsame⟩ := hshows.readWhole hunread
  obtain ⟨hpart, hlast⟩ := hshows'.readPart hunread' hshort
  rw [Cursor.read_eq_append hpre hle, Cursor.read_eq_append hpre' hle', ← hsame]
  unfold File.read
  dsimp only
  rw [hpart, List.append_assoc]
  exact ⟨rfl, hlast⟩

/-! ## Bytes -/

theorem Shows.byte (h : f.Shows c) : f.byte.1 = (c.read 1).1.headD 0xff ∧
    f.byte.2.Shows (c.read 1).2 := by
  obtain ⟨hfound, hshows⟩ := h.read 1
  exact ⟨congrArg (·.headD 0xff) hfound, hshows⟩

/-- Bytes one by one are the bytes of one read, and `0xff` for each that is not there. -/
theorem Shows.bytesHere (h : f.Shows c) (n : Nat) :
    (File.bytesHere n f).1 =
        (c.read n).1 ++ List.replicate (n - (c.read n).1.length) 0xff ∧
      (File.bytesHere n f).2.Shows (c.read n).2 := by
  induction n generalizing f c with
  | zero =>
    have hnone : c.read 0 = ([], c) := by simp [Cursor.read, Cursor.advance]
    rw [hnone]
    exact ⟨rfl, h⟩
  | succ n ih =>
    obtain ⟨hb, hshows⟩ := h.byte
    obtain ⟨hbs, hlast⟩ := ih hshows
    have hcons : (File.bytesHere (n + 1) f).1 = f.byte.1 :: (File.bytesHere n f.byte.2).1 := rfl
    rw [hcons, hb, hbs]
    cases hrest : c.rest with
    | nil =>
      have hrest' : ({ c with atEnd := true } : Cursor).rest = [] := hrest
      have hend : ({ c with atEnd := true } : Cursor).read n = ([], { c with atEnd := true }) := by
        simp [Cursor.read, Cursor.advance, hrest']
      rw [Cursor.read_of_rest_eq_nil hrest Nat.one_pos, hend] at hlast ⊢
      rw [Cursor.read_of_rest_eq_nil hrest (Nat.succ_pos n)]
      exact ⟨rfl, hlast⟩
    | cons b rest =>
      have hpre : [b] <+: c.rest := ⟨rest, hrest.symm⟩
      have hone : c.read 1 = ([b], c.advance 1) := by simp [Cursor.read, Cursor.advance, hrest]
      rw [hone] at hlast ⊢
      rw [Cursor.read_eq_append hpre (Nat.succ_pos n)]
      refine ⟨?_, hlast⟩
      show b :: _ = b :: (((c.advance 1).read n).1 ++ _)
      rw [List.length_append, Nat.add_comm n 1, List.length_singleton, Nat.add_sub_add_left]
      rfl

theorem Shows.number (h : f.Shows c) (width : Nat) :
    (f.number width).1 = (c.number width).1 ∧ (f.number width).2.Shows (c.number width).2 := by
  obtain ⟨hbytes, hshows⟩ := h.bytesHere width
  exact ⟨congrArg ofLittleEndian hbytes, hshows⟩

theorem Shows.startsWith (h : f.Shows c) (signature : List UInt8) :
    ((f.startsWith signature).1 ↔ c.rest.take signature.length = signature) ∧
      (f.startsWith signature).2.Shows (c.read signature.length).2 := by
  obtain ⟨hfound, hshows⟩ := h.read signature.length
  refine ⟨?_, hshows⟩
  show ((f.read signature.length).1 == signature) = true ↔ _
  rw [beq_iff_eq, hfound]
  rfl

/-! ## Places -/

theorem Shows.jump (h : f.Shows c) (place : Nat) : (f.jump place).Shows (c.moved place) where
  bytes_eq := h.bytes_eq
  size_eq := h.size_eq
  atEnd_eq := rfl
  lastPlace_eq := h.lastPlace_eq
  place_eq := rfl
  unread_isPrefix := List.nil_prefix
  block_eq := rfl
  block_le := Nat.zero_le _
  met hc := nomatch hc

/-- A block with the cursor in it or behind its last byte. -/
theorem shows_of_block {start : Nat} (hbytes : f.stored.toList = c.bytes)
    (hsize : f.size = c.bytes.length) (hmet : f.atEnd = false) (hlast : f.lastPlace = c.lastPlace)
    (hblock : f.block = (c.bytes.drop start).take f.block.length)
    (hnext : f.next = start + f.block.length) (hused : f.used ≤ f.block.length) :
    f.Shows (c.moved (start + f.used)) where
  bytes_eq := hbytes
  size_eq := hsize
  atEnd_eq := hmet
  lastPlace_eq := hlast
  place_eq := by
    rw [hnext, unread, List.length_drop, Cursor.moved]
    dsimp only
    omega
  unread_isPrefix := by
    rw [unread, hblock, List.drop_take, List.drop_drop]
    exact List.take_prefix _ _
  block_eq := by
    rw [hnext, Nat.add_sub_cancel]
    exact hblock
  block_le := by omega
  met hc := nomatch hc

theorem Shows.reload (h : f.Shows c) (place : Nat) : (f.reload place).Shows (c.moved place) := by
  have hplace : place - place % blockLength + place % blockLength = place :=
    Nat.sub_add_cancel (Nat.mod_le _ _)
  unfold File.reload
  dsimp only
  generalize (if f.block = [] then place % blockLength else blockLength) = n
  by_cases hshort : place % blockLength = 0 ∨
      (f.stored.slice (place - place % blockLength) n).length < place % blockLength
  · rw [if_pos hshort]
    exact h.jump place
  · obtain ⟨-, hlong⟩ := not_or.1 hshort
    rw [if_neg hshort]
    have hblock : f.stored.slice (place - place % blockLength) n =
        (c.bytes.drop (place - place % blockLength)).take
          (f.stored.slice (place - place % blockLength) n).length := by
      rw [h.slice_eq, take_length_take]
    have hshows := shows_of_block (f := { f with
      block := f.stored.slice (place - place % blockLength) n
      used := place % blockLength
      next := place - place % blockLength + (f.stored.slice (place - place % blockLength) n).length
      anchored := true
      atEnd := false }) h.bytes_eq h.size_eq rfl h.lastPlace_eq hblock rfl (Nat.not_lt.1 hlong)
    rwa [hplace] at hshows

/-- A file goes to any place, whether it is in the block at hand or not. -/
theorem Shows.moveTo (h : f.Shows c) (place : Nat) : (f.moveTo place).Shows (c.moved place) := by
  unfold File.moveTo
  dsimp only
  split_ifs with hinside
  · obtain ⟨-, hstart, hnext⟩ := hinside
    have hle := h.block_le
    have hplace : f.next - f.block.length + (place - (f.next - f.block.length)) = place := by omega
    have hshows := shows_of_block (f := { f with
      used := place - (f.next - f.block.length)
      atEnd := false }) h.bytes_eq h.size_eq rfl h.lastPlace_eq h.block_eq
        (Nat.sub_add_cancel hle).symm (by
          dsimp only
          omega)
    rwa [hplace] at hshows
  · exact h.reload place

/-- All bytes are there, wherever the cursor is. -/
theorem Shows.contents (h : f.Shows c) :
    f.contents.1 = .ok c.bytes ∧ f.contents.2.Shows (c.moved c.bytes.length) := by
  obtain ⟨hfound, hshows⟩ := (h.moveTo 0).read f.size
  have hread : (c.moved 0).read f.size = (c.bytes, c.moved c.bytes.length) := by
    simp [Cursor.read, Cursor.rest, Cursor.advance, Cursor.moved, h.size_eq]
  rw [hread] at hfound hshows
  unfold File.contents
  dsimp only
  rw [hfound, if_pos h.size_eq.symm]
  exact ⟨rfl, hshows⟩

theorem Shows.seek_eq (h : f.Shows c) (offset : Int) (whence : Whence) : f.seek offset whence =
    if c.origin whence + offset < 0 ∨ c.lastPlace < c.origin whence + offset then .error .cantSeek
    else if whence = .current ∧ f.anchored = false then
      .ok (f.jump (c.origin whence + offset).toNat)
    else .ok (f.moveTo (c.origin whence + offset).toNat) := by
  rw [← h.lastPlace_eq]
  cases whence with
  | start => rfl
  | current =>
    rw [Cursor.origin, ← h.position_eq]
    rfl
  | finish =>
    rw [Cursor.origin, ← h.bytes_eq, Stored.length_toList]
    rfl

/-- A file goes to the places that a file can have, and to no other. -/
theorem Shows.seek (h : f.Shows c) (offset : Int) (whence : Whence) :
    (c.origin whence + offset < 0 ∨ c.lastPlace < c.origin whence + offset →
      f.seek offset whence = .error .cantSeek) ∧
    (0 ≤ c.origin whence + offset ∧ c.origin whence + offset ≤ c.lastPlace →
      ∃ g, f.seek offset whence = .ok g ∧
        g.Shows (c.moved (c.origin whence + offset).toNat)) := by
  rw [h.seek_eq]
  constructor
  · intro hout
    rw [if_pos hout]
  · rintro ⟨hpos, hlast⟩
    rw [if_neg (by omega)]
    split_ifs
    · exact ⟨_, rfl, h.jump _⟩
    · exact ⟨_, rfl, h.moveTo _⟩

end File

end Disasm
