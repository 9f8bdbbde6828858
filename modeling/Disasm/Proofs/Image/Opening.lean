import Disasm.Proofs.File.Cursor
import Disasm.Proofs.Image.Headers

/-!
# Images in files

An image can be had from an open file or from its bytes. A file is looked at before it is loaded:
whether it starts with the letters of an executable, and whether its new header starts within it.

**Theorem (`ofFile_agrees_ofBytes`).** A file that nobody changes is the image that its bytes are,
or fails for the same reason. It can always be read.

The checks on the file never decide otherwise than the reading of its bytes would
(`ofFile_outcome`): what they refuse has no signature, or ends before the first letter of its new
header (`ofBytes_of_short`).
-/

namespace Disasm.Image

/-! ## What can be wrong with bytes -/

section Faults

variable {α β : Type} {m : Except ImageError α} {bytes : List UInt8}

/-- A computation that fails for no other reasons than those of bytes that are not an image. -/
def Malformed (m : Except ImageError α) : Prop :=
  ∀ e, m = .error e → e.fault = .notExecutable ∨ e.fault = .truncated ∨
    e.fault = .badOptionalHeader

theorem Malformed.bind {f : α → Except ImageError β} (hm : Malformed m)
    (hf : ∀ a, Malformed (f a)) : Malformed (m >>= f) := by
  intro e he
  cases m with
  | error _ =>
    cases he
    exact hm e rfl
  | ok a => exact hf a e he

theorem malformed_pure (a : α) : Malformed (pure a : Except ImageError α) := by
  rintro _ ⟨⟩

theorem fault_of_part_eq_error {offset length : Nat} {read : List UInt8 → Option α}
    {e : ImageError} (h : part bytes offset length read = .error e) : e.fault = .truncated := by
  unfold part at h
  split at h
  · split at h <;> cases h
    rfl
  · cases h
    rfl

theorem malformed_part (bytes : List UInt8) (offset length : Nat) (read : List UInt8 → Option α) :
    Malformed (part bytes offset length read) :=
  fun _ he => Or.inr (Or.inl (fault_of_part_eq_error he))

theorem malformed_optionalHeaderOf (bytes : List UInt8) : Malformed (optionalHeaderOf bytes) := by
  intro e he
  unfold optionalHeaderOf at he
  split at he <;> cases he <;> exact Or.inr (Or.inr rfl)

theorem malformed_readTables (start : Nat) (h : FileHeader) (bytes : List UInt8) :
    Malformed (readTables start h bytes) := by
  unfold readTables
  by_cases hlength : h.optionalHeaderLength.toNat < 2
  · simp only [hlength, if_true]
    rintro _ ⟨⟩
    exact Or.inr (Or.inr rfl)
  · simp only [hlength, if_false]
    exact (malformed_part _ _ _ _).bind fun _ => (malformed_optionalHeaderOf _).bind fun _ =>
      (malformed_part _ _ _ _).bind fun _ => malformed_pure _

theorem malformed_readNewHeader (start : Nat) (bytes : List UInt8) :
    Malformed (readNewHeader start bytes) := by
  unfold readNewHeader
  refine (malformed_part _ _ _ _).bind fun letters => ?_
  by_cases hletters : letters ≠ headerSignature
  · simp only [if_pos hletters]
    rintro _ ⟨⟩
    exact Or.inl rfl
  · simp only [if_neg hletters]
    exact (malformed_part _ _ _ _).bind fun _ => malformed_readTables _ _ _

theorem malformed_ofBytes (bytes : List UInt8) : Malformed (ofBytes bytes) := by
  rw [ofBytes_eq]
  split_ifs
  · rintro _ ⟨⟩
    exact Or.inl rfl
  · exact (malformed_part _ _ _ _).bind fun _ => malformed_readNewHeader _ _

end Faults

/-! ## What the checks refuse -/

variable {bytes : List UInt8}

/-- Bytes that end before the first letter of their new header are truncated. -/
theorem ofBytes_of_short (hsignature : bytes.take 2 = signature)
    (hshort : bytes.length < oldHeaderLength ∨ bytes.length ≤ headerStart bytes) :
    ∃ e, ofBytes bytes = .error e ∧ e.fault = .truncated := by
  rw [ofBytes_eq, if_neg (not_not_intro hsignature)]
  unfold readHeaders
  cases hpart : part bytes 0 oldHeaderLength (number? · headerPointer 4) with
  | error e => exact ⟨e, rfl, fault_of_part_eq_error hpart⟩
  | ok start =>
    obtain rfl := eq_headerStart hpart
    obtain ⟨hlength, -⟩ := part_eq_ok_iff.1 hpart
    have hout : ¬ headerStart bytes + 4 ≤ bytes.length := by omega
    have hletters : part bytes (headerStart bytes) 4 some =
        .error (.outOfRange 4 (headerStart bytes)) := if_neg hout
    refine ⟨.outOfRange 4 (headerStart bytes), ?_, rfl⟩
    show readNewHeader (headerStart bytes) bytes = _
    rw [readNewHeader, hletters]
    rfl

/-- The number in the old header, as a cursor reads it. The read meets the end if the old header is
not all there. -/
theorem number_headerPointer (bytes : List UInt8) (lastPlace : Nat) :
    let found := (Cursor.moved ⟨bytes, 0, false, lastPlace⟩ headerPointer).number 4
    (found.2.atEnd ↔ bytes.length < oldHeaderLength) ∧
      (oldHeaderLength ≤ bytes.length → found.1 = headerStart bytes) := by
  have hlength : ((bytes.drop headerPointer).take 4).length = min 4 (bytes.length - 0x3c) := by
    rw [List.length_take, List.length_drop, headerPointer]
  constructor
  · show (false || decide (((bytes.drop headerPointer).take 4).length < 4)) = true ↔ _
    rw [Bool.false_or, decide_eq_true_eq, hlength, oldHeaderLength]
    omega
  · intro hle
    have hnone : 4 - ((bytes.drop headerPointer).take 4).length = 0 := by
      rw [oldHeaderLength] at hle
      omega
    show ofLittleEndian ((bytes.drop headerPointer).take 4 ++
      List.replicate (4 - ((bytes.drop headerPointer).take 4).length) 0xff) = _
    rw [hnone, List.replicate_zero, List.append_nil, ofLittleEndian_eq_byteValue]
    rfl

/-- Wherever the cursor is, the number in the old header can be read. What the file tells of it is
what the bytes tell, and the file can then be loaded. -/
theorem shows_headerPointer {f : File} {c : Cursor} (h : f.Shows c) (hbytes : c.bytes = bytes)
    (hlast : headerPointer ≤ c.lastPlace) :
    ∃ g, f.seek headerPointer .start = .ok g ∧
      ((g.number 4).2.atEnd ∨ (g.number 4).2.size ≤ (g.number 4).1 ↔
        bytes.length < oldHeaderLength ∨ bytes.length ≤ headerStart bytes) ∧
      (g.number 4).2.contents.1 = .ok bytes := by
  subst hbytes
  have hplace : (0 : Int) ≤ (0 : Nat) + headerPointer ∧
      (0 : Nat) + headerPointer ≤ (c.lastPlace : Int) := by omega
  obtain ⟨g, hg, hsought⟩ := (h.seek headerPointer .start).2 hplace
  obtain ⟨hstart, hshows⟩ := hsought.number 4
  obtain ⟨hend, hnumber⟩ := number_headerPointer c.bytes c.lastPlace
  have hatEnd : (g.number 4).2.atEnd ↔ c.bytes.length < oldHeaderLength := by
    rw [hshows.atEnd_eq]
    exact hend
  have hsize : (g.number 4).2.size = c.bytes.length := hshows.size_eq
  refine ⟨g, hg, ?_, hshows.contents.1⟩
  rw [hatEnd, hsize]
  -- The number counts only if the read did not meet the end; else it was filled up.
  refine or_congr_right' fun hlong => ?_
  rw [hstart, ← hnumber (Nat.not_lt.1 hlong)]
  rfl

/-- What the opening of a file comes to that nobody changes: it is refused for want of a signature
or because it ends before its new header, or it is read like its bytes. -/
theorem ofFile_outcome (name : String) (bytes : List UInt8) :
    (bytes.take 2 ≠ signature ∧ ∃ name', (ofFile (.ofBytes name bytes)).image =
        .error (.image (.fileWithoutSignature name'))) ∨
      bytes.take 2 = signature ∧
        (((bytes.length < oldHeaderLength ∨ bytes.length ≤ headerStart bytes) ∧
            ∃ name', (ofFile (.ofBytes name bytes)).image =
              .error (.image (.fileTooShort name'))) ∨
          (ofFile (.ofBytes name bytes)).image = (ofBytes bytes).mapError .image) := by
  obtain ⟨hsigned, hshows⟩ :=
    (File.shows_ofBytes name bytes File.lastPlace32).startsWith signature
  unfold ofFile
  dsimp only
  by_cases hsignature : bytes.take 2 = signature
  · refine Or.inr ⟨hsignature, ?_⟩
    have hbytes :
        (Cursor.read ⟨bytes, 0, false, File.lastPlace32⟩ signature.length).2.bytes = bytes := rfl
    have hlast : headerPointer ≤ File.lastPlace32 := by decide
    obtain ⟨g, hg, hshort, hcontents⟩ := shows_headerPointer hshows hbytes hlast
    rw [if_pos (hsigned.2 hsignature), hg]
    dsimp only
    by_cases htooShort : (g.number 4).2.atEnd ∨ (g.number 4).2.size ≤ (g.number 4).1
    · rw [if_pos htooShort]
      exact Or.inl ⟨hshort.1 htooShort, _, rfl⟩
    · rw [if_neg htooShort]
      refine Or.inr ?_
      generalize (g.number 4).2.contents = found at hcontents
      obtain ⟨_, h⟩ := found
      subst hcontents
      dsimp only
      cases ofBytes bytes <;> rfl
  · refine Or.inl ⟨hsignature, ?_⟩
    rw [if_neg (mt hsigned.1 hsignature)]
    exact ⟨_, rfl⟩

/-! ## Files and bytes -/

/-- **A file that nobody changes is the image that its bytes are, or none for the same reason.** It
can be opened, sought in and read whatever it holds. What is wrong with it is that it is not
executable, that it is truncated, or that its optional header is malformed. -/
theorem ofFile_agrees_ofBytes (name : String) (bytes : List UInt8) :
    ∃ f, File.ofBytes? name (some bytes) = .ok f ∧
      ((∃ image, ofBytes bytes = .ok image ∧ (ofFile f).image = .ok image) ∨
        ∃ e e', ofBytes bytes = .error e ∧ (ofFile f).image = .error (.image e') ∧
          e'.fault = e.fault ∧
          (e.fault = .notExecutable ∨ e.fault = .truncated ∨ e.fault = .badOptionalHeader)) := by
  refine ⟨.ofBytes (File.properName name) bytes, rfl, ?_⟩
  rcases ofFile_outcome (File.properName name) bytes with
    ⟨hsignature, name', hfile⟩ | ⟨hsignature, ⟨hshort, name', hfile⟩ | hfile⟩
  · have hbytes : ofBytes bytes = .error .noSignature := by rw [ofBytes_eq, if_pos hsignature]
    exact Or.inr ⟨_, _, hbytes, hfile, rfl, malformed_ofBytes bytes _ hbytes⟩
  · obtain ⟨e, hbytes, hfault⟩ := ofBytes_of_short hsignature hshort
    exact Or.inr ⟨e, _, hbytes, hfile, hfault.symm, malformed_ofBytes bytes e hbytes⟩
  · rw [hfile]
    cases hbytes : ofBytes bytes with
    | ok image => exact Or.inl ⟨image, rfl, rfl⟩
    | error e => exact Or.inr ⟨e, e, rfl, rfl, rfl, malformed_ofBytes bytes e hbytes⟩

end Disasm.Image
