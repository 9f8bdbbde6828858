import Disasm.Image
import Disasm.Proofs.LittleEndian

/-!
# The bytes that headers need

Reading an image's headers looks at some of the image's bytes and never at those behind the section
table.

* `Needs` — a computation succeeds on the first `n` of some bytes, whatever follows them, and fails
  on any fewer of them because they are not all there.
* `headersLength` — the end of the section table, or of the old header if that ends later.

**Theorem (`ofBytes_needs_headers`).** Bytes that start like those of an image up to the end of its
headers have the same headers, and no shorter beginning is an image.

`Needs` follows the order of the reads: in a sequence the number is the larger of the two parts'.
So every read is preceded by its own check of the range, and what fails first on too few bytes is
such a check.
-/

namespace Disasm.Image

/-! ## Computations that need some bytes -/

section Needs

variable {α β : Type} {m : List UInt8 → Except ImageError α} {c : List UInt8} {P : α → Prop}
  {n : Nat}

/-- On bytes that start with the first `n` of `c` the computation gives a value of which `P` holds,
and on fewer of them it fails because bytes are missing. -/
structure Needs (m : List UInt8 → Except ImageError α) (c : List UInt8) (P : α → Prop) (n : Nat) :
    Prop where
  le : n ≤ c.length
  gives : ∀ d, c.take n <+: d → ∃ a, m d = .ok a ∧ P a
  fails : ∀ k < n, ∃ e, m (c.take k) = .error e ∧ e.fault = .truncated

/-- A computation that looks at no bytes. -/
theorem needs_zero (h : ∀ d, ∃ a, m d = .ok a ∧ P a) : Needs m c P 0 where
  le := Nat.zero_le _
  gives d _ := h d
  fails k hk := absurd hk (Nat.not_lt_zero k)

/-- Of two parts in sequence the larger need counts. -/
theorem Needs.bind {f : α → List UInt8 → Except ImageError β} {Q : β → Prop} {a : α} {n' : Nat}
    (hm : Needs m c (· = a) n) (hf : Needs (f a) c Q n') :
    Needs (fun d => m d >>= fun a => f a d) c Q (max n n') where
  le := Nat.max_le.2 ⟨hm.le, hf.le⟩
  gives d hd := by
    have hshorter : ∀ k ≤ max n n', c.take k <+: d := fun k hk =>
      (List.take_prefix_take_left hk).trans hd
    obtain ⟨_, ha, rfl⟩ := hm.gives d (hshorter n (Nat.le_max_left n n'))
    obtain ⟨b, hb, hQ⟩ := hf.gives d (hshorter n' (Nat.le_max_right n n'))
    refine ⟨b, ?_, hQ⟩
    rw [ha]
    exact hb
  fails k hk := by
    -- Either the first part fails already, or it gives the same as on all the bytes.
    by_cases hkn : k < n
    · obtain ⟨e, he, hfault⟩ := hm.fails k hkn
      refine ⟨e, ?_, hfault⟩
      rw [he]
      rfl
    · have hkn' : k < n' := by omega
      obtain ⟨_, ha, rfl⟩ := hm.gives (c.take k) (List.take_prefix_take_left (Nat.not_lt.1 hkn))
      obtain ⟨e, he, hfault⟩ := hf.fails k hkn'
      refine ⟨e, ?_, hfault⟩
      rw [ha]
      exact he

end Needs

/-! ## Parts of the headers -/

section Part

variable {α : Type} {c : List UInt8} {offset length : Nat} {read : List UInt8 → Option α} {a : α}

theorem part_eq_ok_iff : part c offset length read = .ok a ↔
    offset + length ≤ c.length ∧ read ((c.drop offset).take length) = some a := by
  unfold part
  by_cases h : offset + length ≤ c.length
  · rw [if_pos h]
    cases read ((c.drop offset).take length) <;> simp [h]
  · simp [h]

theorem take_drop_eq {d : List UInt8} (hle : offset + length ≤ c.length)
    (hd : c.take (offset + length) <+: d) :
    (d.drop offset).take length = (c.drop offset).take length := by
  have htake : c.take (offset + length) = d.take (offset + length) := by
    simpa [Nat.min_eq_left hle] using List.prefix_iff_eq_take.1 hd
  rw [List.take_drop, List.take_drop, htake]

/-- A part needs the bytes up to its end. -/
theorem needs_part (h : part c offset length read = .ok a) :
    Needs (part · offset length read) c (· = a) (offset + length) := by
  obtain ⟨hle, hread⟩ := part_eq_ok_iff.1 h
  constructor
  · exact hle
  · intro d hd
    have hlength := hd.length_le
    rw [List.length_take_of_le hle] at hlength
    refine ⟨a, part_eq_ok_iff.2 ⟨hlength, ?_⟩, rfl⟩
    rw [take_drop_eq hle hd, hread]
  · intro k hk
    have hshort : ¬ offset + length ≤ (c.take k).length := by
      rw [List.length_take]
      omega
    exact ⟨.outOfRange length offset, if_neg hshort, rfl⟩

end Part

theorem bind_eq_ok {α β : Type} {m : Except ImageError α} {f : α → Except ImageError β} {b : β}
    (h : m >>= f = .ok b) : ∃ a, m = .ok a ∧ f a = .ok b := by
  cases m with
  | error e => cases h
  | ok a => exact ⟨a, rfl, h⟩

/-! ## All headers

The reads in three steps, so that what a step needs can be said of it: after the signature, after
the offset of the new header, and after the file header. -/

/-- What is read behind the file header of a new header at `start`. -/
def readTables (start : Nat) (h : FileHeader) (bytes : List UInt8) : Except ImageError Image := do
  let optionalStart := start + 4 + FileHeader.length
  let optionalLength := h.optionalHeaderLength.toNat
  if optionalLength < 2 then throw .shortOptionalHeader
  let optionalHeader ← optionalHeaderOf (← part bytes optionalStart optionalLength some)
  let count := h.sectionCount.toNat
  let sections ← part bytes (optionalStart + optionalLength) (Section.entryLength * count)
    (Section.table? count)
  return { bytes, fileHeader := h, optionalHeader, sections }

/-- What is read of the new header at `start`. -/
def readNewHeader (start : Nat) (bytes : List UInt8) : Except ImageError Image := do
  if (← part bytes start 4 some) ≠ headerSignature then throw (.noHeaderSignature start)
  readTables start (← part bytes (start + 4) FileHeader.length FileHeader.ofBytes?) bytes

/-- What is read behind the signature. -/
def readHeaders (bytes : List UInt8) : Except ImageError Image := do
  readNewHeader (← part bytes 0 oldHeaderLength (number? · headerPointer 4)) bytes

theorem ofBytes_eq (bytes : List UInt8) : ofBytes bytes =
    if bytes.take 2 ≠ signature then .error .noSignature else readHeaders bytes := rfl

/-- Where the old header says that the new one starts. -/
def headerStart (bytes : List UInt8) : Nat := byteValue ((bytes.drop 0x3c).take 4)

/-- The end of the section table, behind the new header's signature, the file header and the
optional header. -/
def sectionTableEnd (start : Nat) (h : FileHeader) : Nat :=
  start + 24 + h.optionalHeaderLength.toNat + 40 * h.sectionCount.toNat

/-- How many bytes the headers of an image take up. -/
def headersLength (bytes : List UInt8) (h : FileHeader) : Nat :=
  max 0x40 (sectionTableEnd (headerStart bytes) h)

/-- The images say the same in their headers. -/
def SameHeaders (i j : Image) : Prop :=
  i.fileHeader = j.fileHeader ∧ i.optionalHeader = j.optionalHeader ∧ i.sections = j.sections

variable {c : List UInt8} {image : Image} {start : Nat} {h : FileHeader}

theorem needs_readTables (hread : readTables start h c = .ok image) :
    image.bytes = c ∧ image.fileHeader = h ∧
      Needs (readTables start h) c (SameHeaders · image) (sectionTableEnd start h) := by
  unfold readTables at hread ⊢
  by_cases hlength : h.optionalHeaderLength.toNat < 2
  · simp only [hlength, if_true] at hread
    cases hread
  · simp only [hlength, if_false] at hread ⊢
    obtain ⟨bs, hbs, hread⟩ := bind_eq_ok hread
    obtain ⟨optional, hoptional, hread⟩ := bind_eq_ok hread
    obtain ⟨sections, hsections, hread⟩ := bind_eq_ok hread
    cases hread
    refine ⟨rfl, rfl, ?_⟩
    have hend : sectionTableEnd start h =
        max (start + 4 + FileHeader.length + h.optionalHeaderLength.toNat)
          (max 0 (max (start + 4 + FileHeader.length + h.optionalHeaderLength.toNat +
            Section.entryLength * h.sectionCount.toNat) 0)) := by
      simp only [sectionTableEnd, FileHeader.length, Section.entryLength]
      omega
    rw [hend]
    refine (needs_part hbs).bind ?_
    refine Needs.bind (a := optional) (needs_zero fun _ => ⟨optional, hoptional, rfl⟩) ?_
    refine (needs_part hsections).bind ?_
    exact needs_zero fun d => ⟨⟨d, h, optional, sections⟩, rfl, rfl, rfl, rfl⟩

theorem needs_readNewHeader (hread : readNewHeader start c = .ok image) :
    image.bytes = c ∧ Needs (readNewHeader start) c (SameHeaders · image)
      (sectionTableEnd start image.fileHeader) := by
  unfold readNewHeader at hread ⊢
  obtain ⟨letters, hletters, hread⟩ := bind_eq_ok hread
  by_cases hsignature : letters = headerSignature
  · subst hsignature
    simp only [ne_eq, not_true_eq_false, if_false] at hread
    obtain ⟨h, hfile, hread⟩ := bind_eq_ok hread
    obtain ⟨hbytes, rfl, hneeds⟩ := needs_readTables hread
    refine ⟨hbytes, ?_⟩
    have hend : sectionTableEnd start image.fileHeader =
        max (start + 4) (max (start + 4 + FileHeader.length)
          (sectionTableEnd start image.fileHeader)) := by
      simp only [sectionTableEnd, FileHeader.length]
      omega
    rw [hend]
    refine (needs_part hletters).bind ?_
    simp only [ne_eq, not_true_eq_false, if_false]
    exact (needs_part hfile).bind hneeds
  · simp only [ne_eq, hsignature, not_false_eq_true, if_true] at hread
    cases hread

theorem eq_headerStart (hstart : part c 0 oldHeaderLength (number? · headerPointer 4) = .ok start) :
    start = headerStart c := by
  obtain ⟨-, hnumber⟩ := part_eq_ok_iff.1 hstart
  unfold number? at hnumber
  split_ifs at hnumber
  rw [List.drop_zero, List.drop_take, List.take_take, ofLittleEndian_eq_byteValue] at hnumber
  exact (Option.some.inj hnumber).symm

theorem needs_readHeaders (hread : readHeaders c = .ok image) :
    image.bytes = c ∧
      Needs readHeaders c (SameHeaders · image) (headersLength c image.fileHeader) := by
  unfold readHeaders at hread ⊢
  obtain ⟨start, hstart, hread⟩ := bind_eq_ok hread
  obtain ⟨hbytes, hneeds⟩ := needs_readNewHeader hread
  obtain rfl := eq_headerStart hstart
  exact ⟨hbytes, (needs_part hstart).bind hneeds⟩

/-- What is read of an image stands behind the signature. -/
theorem readHeaders_of_ofBytes (h : ofBytes c = .ok image) :
    c.take 2 = signature ∧ readHeaders c = .ok image := by
  rw [ofBytes_eq] at h
  by_cases hsignature : c.take 2 = signature
  · rw [if_neg (not_not_intro hsignature)] at h
    exact ⟨hsignature, h⟩
  · rw [if_pos hsignature] at h
    cases h

/-- **The headers of an image depend on exactly the bytes up to their end.** Whatever follows those
bytes, they are an image with the same headers. Any fewer of them are none: without the letters of
an executable they are not executable, and otherwise they are truncated. -/
theorem ofBytes_needs_headers {bytes : List UInt8} {image : Image}
    (h : ofBytes bytes = .ok image) :
    let n := headersLength bytes image.fileHeader
    n ≤ bytes.length ∧
    (∀ other : List UInt8, n ≤ other.length → other.take n = bytes.take n →
      ∃ image', ofBytes other = .ok image' ∧ image'.SameHeaders image) ∧
    ∀ k < n, ∃ e, ofBytes (bytes.take k) = .error e ∧
      e.fault = if k < 2 then .notExecutable else .truncated := by
  obtain ⟨hsignature, hread⟩ := readHeaders_of_ofBytes h
  obtain ⟨-, hneeds⟩ := needs_readHeaders hread
  have htwo : 2 ≤ headersLength bytes image.fileHeader := by
    unfold headersLength
    omega
  refine ⟨hneeds.le, ?_, ?_⟩
  · intro other _ hother
    have hprefix : bytes.take (headersLength bytes image.fileHeader) <+: other := by
      rw [← hother]
      exact List.take_prefix _ _
    have hsignature' : other.take 2 = signature := by
      rw [← hsignature, ← Nat.min_eq_left htwo, ← List.take_take, hother, List.take_take]
    obtain ⟨image', hread', hsame⟩ := hneeds.gives other hprefix
    refine ⟨image', ?_, hsame⟩
    rw [ofBytes_eq, hsignature', if_neg (not_not_intro rfl), hread']
  · intro k hk
    rw [ofBytes_eq, List.take_take]
    by_cases hshort : k < 2
    · have hne : bytes.take (min 2 k) ≠ signature := by
        intro heq
        have hlength := congrArg List.length heq
        rw [List.length_take, show signature.length = 2 from rfl] at hlength
        omega
      rw [if_pos hne, if_pos hshort]
      exact ⟨.noSignature, rfl, rfl⟩
    · rw [Nat.min_eq_left (Nat.not_lt.1 hshort), hsignature, if_neg (not_not_intro rfl),
        if_neg hshort]
      exact hneeds.fails k hk

/-- An image for the i386 with the short optional header of a ROM. Its new header starts within the
old one, and its only section has four bytes of code, of which the file has three. -/
def smallImage : List UInt8 :=
  [0x4d, 0x5a, 0, 0] ++ headerSignature ++
  [0x4c, 0x01, 1, 0] ++ List.replicate 12 0 ++ [56, 0, 0, 0] ++
  [0x07, 0x01] ++ List.replicate 30 0 ++ [4] ++ List.replicate 23 0 ++
  [0x2e, 0x63] ++ List.replicate 6 0 ++ [0, 0, 0, 0, 0, 0x10, 0, 0, 4, 0, 0, 0, 124, 0, 0, 0] ++
    List.replicate 12 0 ++ [0x20, 0, 0, 0] ++
  [0x55, 0x90, 0xc3]

theorem exists_ofBytes_smallImage : ∃ image, ofBytes smallImage = .ok image ∧
    image.fileHeader.machine = .i386 ∧ image.fileHeader.sectionCount = 1 ∧
    image.fileHeader.optionalHeaderLength = 56 ∧
    image.sections.map (fun s => (s.characteristics, s.bytes smallImage)) =
      [(0x20, [0x55, 0x90, 0xc3])] := by
  have hheader : (ofBytes smallImage).map (fun image => (image.fileHeader.machine,
      image.fileHeader.sectionCount, image.fileHeader.optionalHeaderLength)) =
      .ok (.i386, 1, 56) := by decide +kernel
  have hsections : (ofBytes smallImage).map (fun image =>
      image.sections.map fun s => (s.characteristics, s.bytes smallImage)) =
      .ok [(0x20, [0x55, 0x90, 0xc3])] := by decide +kernel
  cases h : ofBytes smallImage with
  | error e =>
    rw [h] at hheader
    cases hheader
  | ok image =>
    rw [h] at hheader hsections
    simp only [Except.map, Except.ok.injEq, Prod.mk.injEq] at hheader
    obtain ⟨hmachine, hcount, hlength⟩ := hheader
    exact ⟨image, rfl, hmachine, hcount, hlength, Except.ok.inj hsections⟩

/-- The headers of the small image end with its section table, at byte 124. -/
theorem ofBytes_needs_headers_small : ∃ image, ofBytes smallImage = .ok image ∧
    (∀ other : List UInt8, 124 ≤ other.length → other.take 124 = smallImage.take 124 →
      ∃ image', ofBytes other = .ok image' ∧ image'.SameHeaders image) ∧
    ∀ k < 124, ∃ e, ofBytes (smallImage.take k) = .error e ∧
      e.fault = if k < 2 then .notExecutable else .truncated := by
  obtain ⟨image, himage, -, hcount, hlength, -⟩ := exists_ofBytes_smallImage
  have hend : headersLength smallImage image.fileHeader = 124 := by
    rw [headersLength, sectionTableEnd, hcount, hlength]
    decide +kernel
  obtain ⟨-, hsame, hshort⟩ := ofBytes_needs_headers himage
  rw [hend] at hsame hshort
  exact ⟨image, himage, hsame, hshort⟩

end Disasm.Image
