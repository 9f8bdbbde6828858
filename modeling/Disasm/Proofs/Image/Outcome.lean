import Disasm.Proofs.Image.Headers

/-!
# How the reading of an image ends

All offsets, lengths and counts of an image come from its bytes. Each is checked before anything is
read by it, and the checks alone decide how the reading ends.

* `ofIndices` — the same reading with every byte taken by its index, which comes to nothing as soon
  as a byte, a field or a difference is out of range.
* `failure?` — the first thing that is wrong with some bytes: a chain of conditions on the bytes in
  the order of the checks.

**Theorem (`ofBytes_outcome`).** Reading by index comes to the same as reading part by part, so it
never leaves its range; an error is the first thing that is wrong; and an image has the sections
and data directories that its bytes declare and have room for.

Each of the headers has all its fields if it is long enough (`FileHeader.exists_ofBytes?`,
`Section.exists_table?`, `OptionalHeader.exists_ofForm?`). Along the stages of `Headers`, from the
last to the first, a check that fails ends all three readings at once, and one that passes leaves
them at the next stage (`Settled`).
-/

namespace Disasm.Image

/-! ## Numbers in a file -/

/-- The number of so many bytes at a place. -/
def numberAt (bytes : List UInt8) (offset width : Nat) : Nat :=
  byteValue ((bytes.drop offset).take width)

theorem number?_of_le {bs : List UInt8} {offset width : Nat} (h : offset + width ≤ bs.length) :
    number? bs offset width = some (numberAt bs offset width) := by
  rw [number?, if_pos h, ofLittleEndian_eq_byteValue, numberAt]

theorem numberAt_lt (bytes : List UInt8) (offset width : Nat) :
    numberAt bytes offset width < 1 <<< (8 * width) := by
  refine (byteValue_lt _).trans_le ?_
  rw [Nat.one_shiftLeft, pow_mul]
  exact Nat.pow_le_pow_right (by decide) (List.length_take_le _ _)

theorem toNat_numberAt_two (bytes : List UInt8) (offset : Nat) :
    (UInt16.ofNat (numberAt bytes offset 2)).toNat = numberAt bytes offset 2 :=
  UInt16.toNat_ofNat_of_lt' (numberAt_lt bytes offset 2)

theorem toNat_numberAt_four (bytes : List UInt8) (offset : Nat) :
    (UInt32.ofNat (numberAt bytes offset 4)).toNat = numberAt bytes offset 4 :=
  UInt32.toNat_ofNat_of_lt' (numberAt_lt bytes offset 4)

/-- A number in a part of a file is one of the file. -/
theorem numberAt_part {bytes : List UInt8} {offset length k width : Nat}
    (h : k + width ≤ length) :
    numberAt ((bytes.drop offset).take length) k width = numberAt bytes (offset + k) width := by
  unfold numberAt
  rw [List.drop_take, List.take_take, List.drop_drop, Nat.min_eq_left (by omega)]

/-! ## Headers that are long enough -/

theorem FileHeader.exists_ofBytes? {bs : List UInt8} (h : FileHeader.length ≤ bs.length) :
    ∃ f, FileHeader.ofBytes? bs = some f ∧ f.sectionCount.toNat = numberAt bs 2 2 ∧
      f.optionalHeaderLength.toNat = numberAt bs 16 2 := by
  have h : 20 ≤ bs.length := h
  unfold FileHeader.ofBytes? u16? u32?
  simp (disch := omega) only [number?_of_le]
  exact ⟨_, rfl, toNat_numberAt_two bs 2, toNat_numberAt_two bs 16⟩

namespace Section

/-- What every section's name is: at most eight characters, none of them 0. -/
def ShortName (s : Section) : Prop := s.name.length ≤ 8 ∧ Char.ofNat 0 ∉ s.name.toList

theorem shortName_of_eq {s : Section} {bs : List UInt8}
    (h : s.name = byteText ((bs.take nameLength).takeWhile (· ≠ 0))) : s.ShortName := by
  have hlist : s.name.toList =
      ((bs.take nameLength).takeWhile (· ≠ 0)).map fun b => Char.ofNat b.toNat := by
    rw [h, byteText, String.toList_ofList]
  refine ⟨?_, ?_⟩
  · rw [← String.length_toList, hlist, List.length_map]
    exact (List.takeWhile_prefix _).length_le.trans (List.length_take_le _ _)
  · rw [hlist, List.mem_map]
    rintro ⟨b, hb, hzero⟩
    have hkept := List.mem_takeWhile_imp hb
    have hlt : b.toNat < 256 := b.toNat_lt
    have hnat := congrArg Char.toNat hzero
    rw [Char.toNat_ofNat, if_pos (Or.inl (by omega))] at hnat
    exact of_decide_eq_true hkept (UInt8.toNat_inj.1 hnat)

theorem exists_ofBytes? {bs : List UInt8} (h : entryLength ≤ bs.length) :
    ∃ s, ofBytes? bs = some s ∧ s.ShortName := by
  have h : 40 ≤ bs.length := h
  unfold ofBytes? u16? u32?
  simp (disch := omega) only [number?_of_le]
  exact ⟨_, rfl, shortName_of_eq rfl⟩

theorem exists_table? {bs : List UInt8} (n : Nat) (h : entryLength * n ≤ bs.length) :
    ∃ l, table? n bs = some l ∧ l.length = n ∧ ∀ s ∈ l, s.ShortName := by
  induction n generalizing bs with
  | zero => exact ⟨[], rfl, rfl, fun _ hs => absurd hs List.not_mem_nil⟩
  | succ n ih =>
    rw [Nat.mul_succ] at h
    have hfirst : entryLength ≤ (bs.take entryLength).length := by
      rw [List.length_take]
      omega
    have hrest : entryLength * n ≤ (bs.drop entryLength).length := by
      rw [List.length_drop]
      omega
    obtain ⟨s, hs, hname⟩ := exists_ofBytes? hfirst
    obtain ⟨l, hl, hlength, hnames⟩ := ih hrest
    unfold table?
    rw [hs, hl]
    exact ⟨s :: l, rfl, congrArg (· + 1) hlength, List.forall_mem_cons.2 ⟨hname, hnames⟩⟩

end Section

/-- In the forms for Windows the data directories stand behind the fixed part. -/
theorem Magic.fixedLength_eq {m : Magic} (h : m ≠ .rom) :
    m.fixedLength = 80 + 4 * m.wordLength := by
  cases m with
  | rom => exact absurd rfl h
  | pe32 => rfl
  | pe32Plus => rfl

namespace OptionalHeader

theorem exists_directories? {bs : List UInt8} {offset : Nat} (n : Nat)
    (h : offset + 8 * n ≤ bs.length) :
    ∃ l, directories? bs offset n = some l ∧ l.length = n := by
  induction n generalizing offset with
  | zero => exact ⟨[], rfl, rfl⟩
  | succ n ih =>
    have hrest : offset + 8 + 8 * n ≤ bs.length := by omega
    obtain ⟨l, hl, hlength⟩ := ih hrest
    unfold directories? u32?
    rw [number?_of_le (by omega), number?_of_le (by omega), hl]
    exact ⟨_, rfl, congrArg (· + 1) hlength⟩

theorem exists_windows? {bs : List UInt8} {o : OptionalHeader} (hm : o.magic ≠ .rom)
    (h : o.magic.fixedLength ≤ bs.length) :
    ∃ o', windows? o bs = some o' ∧ o'.directories.length =
      directoryCount (numberAt bs (o.magic.fixedLength - 4) 4) o.magic.fixedLength bs.length := by
  have hfixed := Magic.fixedLength_eq hm
  have hlast : o.magic.fixedLength - 4 = 76 + 4 * o.magic.wordLength := by omega
  rw [hlast]
  have hroom : 80 + 4 * o.magic.wordLength + 8 * directoryCount
      (numberAt bs (76 + 4 * o.magic.wordLength) 4) o.magic.fixedLength bs.length ≤ bs.length := by
    unfold directoryCount
    omega
  obtain ⟨l, hl, hlength⟩ := exists_directories? _ hroom
  rw [hfixed] at h
  unfold windows? u16? u32? word?
  simp (disch := omega) only [number?_of_le, Option.map_some, Option.bind_eq_bind,
    Option.bind_some, toNat_numberAt_four, hl]
  exact ⟨_, rfl, hlength⟩

/-- A header as long as the fixed part of its form has all the fields of the form. -/
theorem exists_ofForm? {bs : List UInt8} {m : Magic} (h : m.fixedLength ≤ bs.length) :
    ∃ o, ofForm? m bs = some o ∧ o.directories.length =
      if m = .rom then 0 else
        directoryCount (numberAt bs (m.fixedLength - 4) 4) m.fixedLength bs.length := by
  have hshort : 56 ≤ bs.length := by
    cases m <;> exact le_trans (by decide) h
  unfold ofForm? standard? u8? u32? word?
  cases m with
  | rom =>
    simp (disch := omega) only [number?_of_le]
    exact ⟨_, rfl, rfl⟩
  | pe32 | pe32Plus =>
    simp (disch := omega) only [number?_of_le, Magic.wordLength, Option.map_some,
      Option.bind_eq_bind, Option.bind_some, pure]
    rw [if_neg (by decide)]
    exact exists_windows? (by simp) h

end OptionalHeader

/-! ## Reading by index -/

/-- The `length` bytes from `offset` on, each taken by its index. Nothing comes of it where one of
them lies behind the last byte. -/
def indexed (bytes : List UInt8) (offset length : Nat) : Option (List UInt8) :=
  (List.range' offset length).mapM fun i => bytes[i]?

theorem indexed_of_le {bytes : List UInt8} {offset length : Nat}
    (h : offset + length ≤ bytes.length) :
    indexed bytes offset length = some ((bytes.drop offset).take length) := by
  unfold indexed
  induction length generalizing offset with
  | zero => rfl
  | succ n ih =>
    have hlt : offset < bytes.length := by omega
    rw [List.range'_succ, List.mapM_cons, ih (by omega), List.getElem?_eq_getElem hlt,
      List.drop_eq_getElem_cons hlt]
    rfl

/-- The optional header that all of these bytes are, with every number checked. -/
def formByIndex (header : List UInt8) : Option (Except ImageError OptionalHeader) := do
  let code ← u16? header 0
  match Magic.ofCode? code with
  | none => return .error (.unknownMagic code)
  | some magic =>
    if header.length < magic.fixedLength then return .error .shortOptionalHeader
    -- The room for data directories is a difference of unsigned numbers.
    guard (magic = .rom ∨ 80 + 4 * magic.wordLength ≤ header.length)
    return .ok (← OptionalHeader.ofForm? magic header)

/-- What is read behind the file header, byte by byte. -/
def tablesByIndex (start : Nat) (h : FileHeader) (bytes : List UInt8) :
    Option (Except ImageError Image) := do
  let size := h.optionalHeaderLength.toNat
  if size < 2 then return .error .shortOptionalHeader
  if bytes.length < start + 24 + size then return .error (.outOfRange size (start + 24))
  match ← formByIndex (← indexed bytes (start + 24) size) with
  | .error e => return .error e
  | .ok optionalHeader =>
    let count := h.sectionCount.toNat
    if bytes.length < start + 24 + size + 40 * count then
      return .error (.outOfRange (40 * count) (start + 24 + size))
    let sections ← Section.table? count (← indexed bytes (start + 24 + size) (40 * count))
    return .ok { bytes, fileHeader := h, optionalHeader, sections }

/-- What is read of the new header at `start`, byte by byte. -/
def newHeaderByIndex (start : Nat) (bytes : List UInt8) : Option (Except ImageError Image) := do
  if bytes.length < start + 4 then return .error (.outOfRange 4 start)
  if (← indexed bytes start 4) ≠ headerSignature then return .error (.noHeaderSignature start)
  if bytes.length < start + 24 then return .error (.outOfRange 20 (start + 4))
  tablesByIndex start (← FileHeader.ofBytes? (← indexed bytes (start + 4) 20)) bytes

/-- The image that some bytes are, read byte by byte. Nothing comes of it where a byte behind the
last one is taken, where a field does not lie wholly within its header, or where a difference is
less than 0. -/
def ofIndices (bytes : List UInt8) : Option (Except ImageError Image) := do
  if bytes.length < 2 then return .error .noSignature
  if (← indexed bytes 0 2) ≠ signature then return .error .noSignature
  if bytes.length < oldHeaderLength then return .error (.outOfRange oldHeaderLength 0)
  newHeaderByIndex (byteValue (← indexed bytes headerPointer 4)) bytes

/-! ## What is wrong with some bytes -/

section Declared

variable (bytes : List UInt8)

/-- The number of sections, as the file header declares it. -/
def declaredSections : Nat := numberAt bytes (headerStart bytes + 6) 2

/-- The length of the optional header, as the file header declares it. -/
def declaredLength : Nat := numberAt bytes (headerStart bytes + 20) 2

/-- The number that tells the form of the optional header. -/
def declaredMagic : Nat := numberAt bytes (headerStart bytes + 24) 2

/-- The least length of an optional header with this number, if there is a form with it. -/
def leastLength? (magic : Nat) : Option Nat :=
  if magic = 0x10b then some 96
  else if magic = 0x20b then some 112
  else if magic = 0x107 then some 56
  else none

def leastLength : Nat := (leastLength? (declaredMagic bytes)).getD 0

/-- The number of data directories that the optional header declares in the last field of its fixed
part; a ROM image has no such field. -/
def declaredDirectories : Nat :=
  if declaredMagic bytes = 0x107 then 0
  else numberAt bytes (headerStart bytes + 24 + leastLength bytes - 4) 4

/-- The first thing that is wrong behind the file header. -/
def tablesFailure? : Option ImageError :=
  if declaredLength bytes < 2 then some .shortOptionalHeader
  else if bytes.length < headerStart bytes + 24 + declaredLength bytes then
    some (.outOfRange (declaredLength bytes) (headerStart bytes + 24))
  else if leastLength? (declaredMagic bytes) = none then
    some (.unknownMagic (UInt16.ofNat (declaredMagic bytes)))
  else if declaredLength bytes < leastLength bytes then some .shortOptionalHeader
  else if bytes.length <
      headerStart bytes + 24 + declaredLength bytes + 40 * declaredSections bytes then
    some (.outOfRange (40 * declaredSections bytes)
      (headerStart bytes + 24 + declaredLength bytes))
  else none

/-- The first thing that is wrong with some bytes, in the order in which an image is checked. -/
def failure? : Option ImageError :=
  if bytes.take 2 ≠ signature then some .noSignature
  else if bytes.length < oldHeaderLength then some (.outOfRange oldHeaderLength 0)
  else if bytes.length < headerStart bytes + 4 then some (.outOfRange 4 (headerStart bytes))
  else if (bytes.drop (headerStart bytes)).take 4 ≠ headerSignature then
    some (.noHeaderSignature (headerStart bytes))
  else if bytes.length < headerStart bytes + 24 then
    some (.outOfRange 20 (headerStart bytes + 4))
  else tablesFailure? bytes

end Declared

/-- An image has as many sections and data directories as its bytes declare and have room for. -/
structure AsDeclared (image : Image) (bytes : List UInt8) : Prop where
  sections : image.sections.length = declaredSections bytes
  names : ∀ s ∈ image.sections, s.ShortName
  directories : image.optionalHeader.directories.length =
    min (declaredDirectories bytes) (min ((declaredLength bytes - leastLength bytes) / 8) 16)

/-! ## The outcome -/

section Outcome

variable {bytes : List UInt8} {h : FileHeader}

/-- Reading comes to the same by index and part by part, it fails as is said, and what it gives is
as declared. -/
structure Settled (byIndex : Option (Except ImageError Image)) (result : Except ImageError Image)
    (failure : Option ImageError) (bytes : List UInt8) : Prop where
  byIndex : byIndex = some result
  error : ∀ e, result = .error e ↔ failure = some e
  ok : ∀ image, result = .ok image → image.AsDeclared bytes

theorem Settled.failed (e : ImageError) : Settled (some (.error e)) (.error e) (some e) bytes where
  byIndex := rfl
  error _ := by simp
  ok _ h := by cases h

theorem Settled.read {image : Image} (h : image.AsDeclared bytes) :
    Settled (some (.ok image)) (.ok image) none bytes where
  byIndex := rfl
  error _ := by simp
  ok _ himage := Except.ok.inj himage ▸ h

theorem part_of_lt {α : Type} {offset length : Nat} {read : List UInt8 → Option α}
    (h : bytes.length < offset + length) :
    part bytes offset length read = .error (.outOfRange length offset) :=
  if_neg (Nat.not_le.2 h)

theorem leastLength?_eq {n : Nat} (h : n < 65536) :
    leastLength? n = (Magic.ofCode? (UInt16.ofNat n)).map Magic.fixedLength := by
  have hcode (m : Magic) : m.code = UInt16.ofNat n ↔ m.code.toNat = n := by
    rw [← UInt16.toNat_inj, UInt16.toNat_ofNat_of_lt' h]
  unfold leastLength? Magic.ofCode?
  split_ifs with hpe32 hplus hrom
  · subst hpe32
    rfl
  · subst hplus
    rfl
  · subst hrom
    rfl
  · have hnone : [Magic.pe32, .pe32Plus, .rom].find? (·.code == UInt16.ofNat n) = none := by
      rw [List.find?_eq_none]
      intro m _ hm
      have hn := (hcode m).1 (eq_of_beq hm)
      cases m with
      | pe32 => exact hpe32 hn.symm
      | pe32Plus => exact hplus hn.symm
      | rom => exact hrom hn.symm
    rw [hnone]
    rfl

theorem declaredMagic_lt (bytes : List UInt8) : declaredMagic bytes < 65536 := numberAt_lt bytes _ 2

/-- The form of the optional header, by the number that the bytes declare. -/
theorem declared_of_ofCode? {m : Magic}
    (h : Magic.ofCode? (UInt16.ofNat (declaredMagic bytes)) = some m) :
    leastLength? (declaredMagic bytes) = some m.fixedLength ∧
      (declaredMagic bytes = 0x107 ↔ m = .rom) := by
  have hlt := declaredMagic_lt bytes
  have hfound := List.find?_some h
  have hcode : m.code.toNat = declaredMagic bytes := by
    rw [eq_of_beq hfound, UInt16.toNat_ofNat_of_lt' hlt]
  refine ⟨?_, ?_⟩
  · rw [leastLength?_eq hlt, h]
    rfl
  · rw [← hcode]
    cases m <;> decide

/-- The form of the optional header is not known, or too long for the declared length, or its
fields and data directories lie within that length. -/
theorem form_cases {bs : List UInt8} (htwo : 2 ≤ declaredLength bytes)
    (hbs : bs = (bytes.drop (headerStart bytes + 24)).take (declaredLength bytes))
    (hlength : bs.length = declaredLength bytes) :
    (leastLength? (declaredMagic bytes) = none ∧
        formByIndex bs = some (.error (.unknownMagic (UInt16.ofNat (declaredMagic bytes)))) ∧
        optionalHeaderOf bs = .error (.unknownMagic (UInt16.ofNat (declaredMagic bytes)))) ∨
      leastLength? (declaredMagic bytes) ≠ none ∧
        (declaredLength bytes < leastLength bytes ∧
            formByIndex bs = some (.error .shortOptionalHeader) ∧
            optionalHeaderOf bs = .error .shortOptionalHeader ∨
          ¬ declaredLength bytes < leastLength bytes ∧
            ∃ o, formByIndex bs = some (.ok o) ∧ optionalHeaderOf bs = .ok o ∧
              o.directories.length = min (declaredDirectories bytes)
                (min ((declaredLength bytes - leastLength bytes) / 8) 16)) := by
  have hcode : u16? bs 0 = some (UInt16.ofNat (declaredMagic bytes)) := by
    rw [u16?, number?_of_le (by omega), hbs, numberAt_part (by omega)]
    rfl
  unfold formByIndex optionalHeaderOf OptionalHeader.ofBytes
  rw [hcode]
  dsimp only [bind, Option.bind]
  cases hm : Magic.ofCode? (UInt16.ofNat (declaredMagic bytes)) with
  | none =>
    refine Or.inl ⟨?_, rfl, rfl⟩
    rw [leastLength?_eq (declaredMagic_lt bytes), hm]
    rfl
  | some m =>
    obtain ⟨hsome, hrom⟩ := declared_of_ofCode? hm
    have hleast : leastLength bytes = m.fixedLength := by
      rw [leastLength, hsome]
      rfl
    refine Or.inr ⟨hsome ▸ Option.some_ne_none _, ?_⟩
    dsimp only
    rw [hleast, hlength]
    by_cases hshort : declaredLength bytes < m.fixedLength
    · exact Or.inl ⟨hshort, if_pos hshort, by rw [if_pos hshort]⟩
    · rw [if_neg hshort, if_neg hshort]
      have hroom : m.fixedLength ≤ bs.length := hlength ▸ Nat.not_lt.1 hshort
      have hguard : m = .rom ∨ 80 + 4 * m.wordLength ≤ declaredLength bytes := by
        by_cases h : m = .rom
        · exact Or.inl h
        · exact Or.inr (Magic.fixedLength_eq h ▸ Nat.not_lt.1 hshort)
      obtain ⟨o, ho, hcount⟩ := OptionalHeader.exists_ofForm? hroom
      rw [ho, guard, if_pos hguard]
      refine Or.inr ⟨hshort, o, rfl, rfl, hcount.trans ?_⟩
      rw [declaredDirectories, hleast, if_congr hrom rfl rfl]
      by_cases h : m = .rom
      · rw [if_pos h, if_pos h, Nat.zero_min]
      · have hfixed := Magic.fixedLength_eq h
        rw [if_neg h, if_neg h, hbs, numberAt_part (by omega), ← hbs, hlength,
          Nat.add_sub_assoc (by omega)]
        rfl

theorem settled_tables (hstart : headerStart bytes + 24 ≤ bytes.length)
    (hsize : h.optionalHeaderLength.toNat = declaredLength bytes)
    (hcount : h.sectionCount.toNat = declaredSections bytes) :
    Settled (tablesByIndex (headerStart bytes) h bytes) (readTables (headerStart bytes) h bytes)
      (tablesFailure? bytes) bytes := by
  have hplace : headerStart bytes + 4 + FileHeader.length = headerStart bytes + 24 := rfl
  have hentry : Section.entryLength = 40 := rfl
  unfold tablesByIndex readTables tablesFailure?
  rw [hsize, hcount, hplace, hentry]
  by_cases htwo : declaredLength bytes < 2
  · simp only [if_pos htwo]
    exact .failed _
  simp only [if_neg htwo]
  by_cases hheader : bytes.length < headerStart bytes + 24 + declaredLength bytes
  · simp only [if_pos hheader]
    rw [part_of_lt hheader]
    exact .failed _
  simp only [if_neg hheader]
  rw [part_eq_ok_iff.2 ⟨Nat.not_lt.1 hheader, rfl⟩, indexed_of_le (Nat.not_lt.1 hheader)]
  generalize hbs : (bytes.drop (headerStart bytes + 24)).take (declaredLength bytes) = bs
  have hlength : bs.length = declaredLength bytes := by
    rw [← hbs, List.length_take, List.length_drop]
    omega
  dsimp only [bind, Except.bind, Option.bind]
  obtain ⟨hnone, hindex, hread⟩ | ⟨hknown, hform⟩ :=
    form_cases (Nat.not_lt.1 htwo) hbs.symm hlength
  · rw [hindex, hread, if_pos hnone]
    exact .failed _
  rw [if_neg hknown]
  obtain ⟨hshort, hindex, hread⟩ | ⟨hshort, o, hindex, hread, hdirectories⟩ := hform
  · rw [hindex, hread, if_pos hshort]
    exact .failed _
  rw [hindex, hread, if_neg hshort]
  dsimp only
  by_cases htable : bytes.length <
      headerStart bytes + 24 + declaredLength bytes + 40 * declaredSections bytes
  · simp only [if_pos htable]
    rw [part_of_lt htable]
    exact .failed _
  simp only [if_neg htable]
  have hentries : Section.entryLength * declaredSections bytes ≤
      ((bytes.drop (headerStart bytes + 24 + declaredLength bytes)).take
        (40 * declaredSections bytes)).length := by
    rw [List.length_take, List.length_drop, hentry]
    omega
  obtain ⟨l, hl, hsections, hnames⟩ := Section.exists_table? _ hentries
  rw [part_eq_ok_iff.2 ⟨Nat.not_lt.1 htable, hl⟩, indexed_of_le (Nat.not_lt.1 htable)]
  dsimp only
  rw [hl]
  exact .read ⟨hsections, hnames, hdirectories⟩

theorem settled_newHeader (bytes : List UInt8) :
    Settled (newHeaderByIndex (headerStart bytes) bytes) (readNewHeader (headerStart bytes) bytes)
      (if bytes.length < headerStart bytes + 4 then some (.outOfRange 4 (headerStart bytes))
        else if (bytes.drop (headerStart bytes)).take 4 ≠ headerSignature then
          some (.noHeaderSignature (headerStart bytes))
        else if bytes.length < headerStart bytes + 24 then
          some (.outOfRange 20 (headerStart bytes + 4))
        else tablesFailure? bytes) bytes := by
  have hlength : FileHeader.length = 20 := rfl
  unfold newHeaderByIndex readNewHeader
  rw [hlength]
  by_cases hfour : bytes.length < headerStart bytes + 4
  · simp only [if_pos hfour]
    rw [part_of_lt hfour]
    exact .failed _
  simp only [if_neg hfour]
  rw [part_eq_ok_iff.2 ⟨Nat.not_lt.1 hfour, rfl⟩, indexed_of_le (Nat.not_lt.1 hfour)]
  dsimp only [bind, Except.bind, Option.bind]
  by_cases hletters : (bytes.drop (headerStart bytes)).take 4 ≠ headerSignature
  · simp only [if_pos hletters]
    exact .failed _
  simp only [if_neg hletters]
  by_cases hfile : bytes.length < headerStart bytes + 24
  · simp only [if_pos hfile]
    rw [part_of_lt (by omega)]
    exact .failed _
  simp only [if_neg hfile]
  have hle : headerStart bytes + 4 + 20 ≤ bytes.length := by omega
  have htwenty : FileHeader.length ≤ ((bytes.drop (headerStart bytes + 4)).take 20).length := by
    rw [List.length_take, List.length_drop]
    omega
  obtain ⟨h, hread, hcount, hsize⟩ := FileHeader.exists_ofBytes? htwenty
  rw [part_eq_ok_iff.2 ⟨hle, hread⟩, indexed_of_le hle]
  dsimp only
  rw [hread]
  rw [numberAt_part (by omega)] at hcount hsize
  exact settled_tables (by omega) hsize hcount

theorem ne_signature_of_lt (h : bytes.length < 2) : bytes.take 2 ≠ signature := by
  intro heq
  have hlength := congrArg List.length heq
  rw [List.length_take, Nat.min_eq_right (by omega)] at hlength
  exact absurd hlength (ne_of_lt h)

theorem settled_ofBytes (bytes : List UInt8) :
    Settled (ofIndices bytes) (ofBytes bytes) (failure? bytes) bytes := by
  rw [ofBytes_eq]
  unfold ofIndices failure?
  by_cases htwo : bytes.length < 2
  · simp only [if_pos htwo, if_pos (ne_signature_of_lt htwo)]
    exact .failed _
  rw [if_neg htwo, indexed_of_le (by omega)]
  dsimp only [bind, Option.bind]
  rw [List.drop_zero]
  by_cases hsignature : bytes.take 2 ≠ signature
  · simp only [if_pos hsignature]
    exact .failed _
  simp only [if_neg hsignature]
  by_cases hold : bytes.length < oldHeaderLength
  · simp only [if_pos hold]
    rw [readHeaders, part_of_lt (by omega)]
    exact .failed _
  simp only [if_neg hold]
  have hlength : oldHeaderLength = 0x40 := rfl
  have hpointer : headerPointer = 0x3c := rfl
  have hstart : number? ((bytes.drop 0).take oldHeaderLength) headerPointer 4 =
      some (headerStart bytes) := by
    rw [number?_of_le (by rw [List.length_take, List.length_drop]; omega),
      numberAt_part (by omega), Nat.zero_add]
    rfl
  rw [readHeaders, part_eq_ok_iff.2 ⟨by omega, hstart⟩, indexed_of_le (by omega)]
  exact settled_newHeader bytes

theorem fault_of_tablesFailure? {e : ImageError} (h : tablesFailure? bytes = some e) :
    e.fault ≠ .notExecutable := by
  unfold tablesFailure? at h
  split_ifs at h <;> cases h <;> simp [ImageError.fault]

theorem failure?_notExecutable_iff :
    (∃ e, failure? bytes = some e ∧ e.fault = .notExecutable) ↔
      bytes.length < 2 ∨ bytes.take 2 ≠ signature ∨
      oldHeaderLength ≤ bytes.length ∧ headerStart bytes + 4 ≤ bytes.length ∧
        (bytes.drop (headerStart bytes)).take 4 ≠ headerSignature := by
  unfold failure?
  by_cases hsignature : bytes.take 2 ≠ signature
  · rw [if_pos hsignature]
    exact iff_of_true ⟨_, rfl, rfl⟩ (Or.inr (Or.inl hsignature))
  rw [if_neg hsignature, or_iff_right (mt ne_signature_of_lt hsignature), or_iff_right hsignature]
  split_ifs with hold hfour hletters hfile
  · exact iff_of_false (by simp [ImageError.fault]) fun h => Nat.not_le.2 hold h.1
  · exact iff_of_false (by simp [ImageError.fault]) fun h => Nat.not_le.2 hfour h.2.1
  · exact iff_of_true ⟨_, rfl, rfl⟩ ⟨Nat.not_lt.1 hold, Nat.not_lt.1 hfour, hletters⟩
  · exact iff_of_false (by simp [ImageError.fault]) fun h => hletters h.2.2
  · refine iff_of_false ?_ fun h => hletters h.2.2
    rintro ⟨e, he, hfault⟩
    exact fault_of_tablesFailure? he hfault

/-- **How the reading of an image ends.** No byte behind the last one is taken, no field of the
optional header lies behind its declared length, and the room for data directories is not less than
0. The bytes are an image if nothing is wrong with them, and otherwise the error says what is wrong
first. They are not executable just if they do not start with the letters of an executable, or if
the new header starts within them with other letters than it should. An image has the declared
number of sections, with names of at most eight characters, and as many of the declared data
directories as there is room for. -/
theorem ofBytes_outcome (bytes : List UInt8) :
    ofIndices bytes = some (ofBytes bytes) ∧
    (∀ e, ofBytes bytes = .error e ↔ failure? bytes = some e) ∧
    ((∃ e, ofBytes bytes = .error e ∧ e.fault = .notExecutable) ↔
      bytes.length < 2 ∨ bytes.take 2 ≠ [0x4d, 0x5a] ∨
      0x40 ≤ bytes.length ∧ headerStart bytes + 4 ≤ bytes.length ∧
        (bytes.drop (headerStart bytes)).take 4 ≠ [0x50, 0x45, 0, 0]) ∧
    ∀ image, ofBytes bytes = .ok image → image.AsDeclared bytes := by
  obtain ⟨hindex, herror, hok⟩ := settled_ofBytes bytes
  refine ⟨hindex, herror, ?_, hok⟩
  simp only [herror]
  exact failure?_notExecutable_iff

end Outcome

end Disasm.Image
