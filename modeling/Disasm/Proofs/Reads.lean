import Disasm.Proofs.Fields

/-!
# Numbers read one after the other

Numbers are read from a window in any order of widths, with a sign or without. A number that is not
all there is not read at all, and the next one is read from the same place.

* `Fetch.next` — the number of a field.
* `Fetch.readAll` — the numbers of some fields one after the other, each if it is there.
* `written` — the numbers that were read, in the bytes of their fields.

**Theorem (`readAll_faithful`).** However many numbers have been read, the place is within the
window and what was read is what stands before it, byte for byte. The next number is there if and
only if its bytes are; if it is not, nothing changes, so that a shorter one may still be read.

One read either takes the whole width or nothing (`next_of_le`, `next_of_not_le`); this is the step
of an induction on the fields, with the place at which they start left open.
-/

namespace Disasm

namespace Fetch

/-- The next number, as wide as a field and with its sign. -/
def next (f : ValueField) : Fetch Int :=
  if f.signed then signed f.width else do return (← unsigned f.width : Nat)

/-- The next numbers of some fields. One that is not there does not end the reading. -/
def readAll : List ValueField → Reader → List (ValueField × Option Int) × Reader
  | [], r => ([], r)
  | f :: fs, r =>
    let (v, s) := next f r
    let (vs, t) := readAll fs s
    ((f, v) :: vs, t)

end Fetch

/-- The numbers that were read, in the bytes of their fields. -/
def written (reads : List (ValueField × Option Int)) : List UInt8 :=
  reads.flatMap fun (f, v) => v.elim [] f.encode

namespace Fetch

variable {window : List UInt8} {place : Nat} {f : ValueField}

/-! ## One number -/

theorem next_eq_field (f : ValueField) : next f = field f.width f.value := by
  obtain ⟨width, signed⟩ := f
  cases signed with
  | false =>
    funext r
    by_cases h : r.position + width ≤ r.window.length
    · simp [next, unsigned_eq_field, bind_apply, field_of_le h, ValueField.value_unsigned]
    · simp [next, unsigned_eq_field, bind_apply, field_of_not_le h]
  | true =>
    show Fetch.signed width = _
    rw [signed_eq_field]
    congr 1
    funext bytes
    rw [ValueField.value_signed]

/-- A number whose bytes are there is read from all of them. -/
theorem next_of_le (h : place + f.width ≤ window.length) : next f ⟨window, place⟩ =
    (some (f.value ((window.drop place).take f.width)), ⟨window, place + f.width⟩) := by
  rw [next_eq_field, field_of_le h]

/-- A number whose bytes are not all there takes none of them. -/
theorem next_of_not_le (h : ¬ place + f.width ≤ window.length) :
    next f ⟨window, place⟩ = (none, ⟨window, place⟩) := by
  rw [next_eq_field, field_of_not_le h]

/-- A number stands for the bytes it was read from. -/
theorem fits_next (h : place + f.width ≤ window.length) :
    f.Fits (f.value ((window.drop place).take f.width)) ∧
      f.encode (f.value ((window.drop place).take f.width)) =
        (window.drop place).take f.width := by
  have hlength : ((window.drop place).take f.width).length = f.width := by
    rw [List.length_take_of_le]
    rw [List.length_drop]
    omega
  exact ⟨ValueField.fits_value hlength, ValueField.encode_value hlength⟩

/-! ## Many numbers -/

theorem readAll_cons_of_le (h : place + f.width ≤ window.length) (fs : List ValueField) :
    readAll (f :: fs) ⟨window, place⟩ =
      ((f, some (f.value ((window.drop place).take f.width))) ::
        (readAll fs ⟨window, place + f.width⟩).1, (readAll fs ⟨window, place + f.width⟩).2) := by
  simp only [readAll, next_of_le h]

theorem readAll_cons_of_not_le (h : ¬ place + f.width ≤ window.length) (fs : List ValueField) :
    readAll (f :: fs) ⟨window, place⟩ =
      ((f, none) :: (readAll fs ⟨window, place⟩).1, (readAll fs ⟨window, place⟩).2) := by
  simp only [readAll, next_of_not_le h]

/-- What has been read is what stands between the two places. -/
theorem readAll_spans (fs : List ValueField) (h : place ≤ window.length) :
    ∃ reached, (readAll fs ⟨window, place⟩).2 = ⟨window, reached⟩ ∧ place ≤ reached ∧
      reached ≤ window.length ∧
      written (readAll fs ⟨window, place⟩).1 = (window.drop place).take (reached - place) := by
  induction fs generalizing place with
  | nil => exact ⟨place, rfl, le_rfl, h, by simp [readAll, written]⟩
  | cons f fs ih =>
    by_cases hle : place + f.width ≤ window.length
    · obtain ⟨reached, hreader, hplace, hreached, hwritten⟩ := ih hle
      rw [readAll_cons_of_le hle]
      refine ⟨reached, hreader, by omega, hreached, ?_⟩
      have hcons : ∀ v reads, written ((f, some v) :: reads) = f.encode v ++ written reads :=
        fun _ _ => rfl
      have hsum : reached - place = f.width + (reached - (place + f.width)) := by omega
      rw [hcons, (fits_next hle).2, hwritten, hsum, List.take_add, List.drop_drop]
    · rw [readAll_cons_of_not_le hle]
      exact ih h

/-- **Numbers are read faithfully and whole.** After any reads the place is within the window, and
what they gave, written down again, is what stands before it. A further read fails if and only if
the window ends within its width; it then leaves everything as it was, and else it takes its width
and gives a number that its field can hold. -/
theorem readAll_faithful {window : List UInt8} {start : Nat} (h : start ≤ window.length)
    (fs : List ValueField) :
    ∃ place, (readAll fs ⟨window, start⟩).2 = ⟨window, place⟩ ∧
      start ≤ place ∧ place ≤ window.length ∧
      written (readAll fs ⟨window, start⟩).1 = (window.drop start).take (place - start) ∧
      ∀ f : ValueField,
        ((next f ⟨window, place⟩).1 = none ↔ window.length - place < f.width) ∧
        ((next f ⟨window, place⟩).1 = none → (next f ⟨window, place⟩).2 = ⟨window, place⟩) ∧
        ∀ v, (next f ⟨window, place⟩).1 = some v →
          (next f ⟨window, place⟩).2 = ⟨window, place + f.width⟩ ∧ f.Fits v := by
  obtain ⟨place, hreader, hstart, hplace, hwritten⟩ := readAll_spans fs h
  refine ⟨place, hreader, hstart, hplace, hwritten, fun f => ?_⟩
  by_cases hle : place + f.width ≤ window.length
  · have henough : ¬ window.length - place < f.width := by omega
    rw [next_of_le hle]
    refine ⟨by simp [henough], by simp, ?_⟩
    intro v hv
    cases hv
    exact ⟨rfl, (fits_next hle).1⟩
  · have hshort : window.length - place < f.width := by omega
    rw [next_of_not_le hle]
    exact ⟨iff_of_true rfl hshort, fun _ => rfl, by simp⟩

/-- Of three bytes two are read with their sign. The third is not enough for two more and is then
read by itself, so that nothing is left. -/
theorem readAll_faithful_short :
    1 ≤ [(0x7f : UInt8), 0x80, 0xff, 0x01].length ∧
    (readAll [⟨2, true⟩, ⟨2, false⟩, ⟨1, true⟩] ⟨[0x7f, 0x80, 0xff, 0x01], 1⟩).1 =
      [(⟨2, true⟩, some (-128)), (⟨2, false⟩, none), (⟨1, true⟩, some 1)] ∧
    written [(⟨2, true⟩, some (-128)), (⟨2, false⟩, none), (⟨1, true⟩, some 1)] =
      [0x80, 0xff, 0x01] ∧
    (next ⟨1, false⟩ ⟨[0x7f, 0x80, 0xff, 0x01], 4⟩).1 = none := by
  have hstart : 1 ≤ [(0x7f : UInt8), 0x80, 0xff, 0x01].length := by decide
  have hreads : readAll [⟨2, true⟩, ⟨2, false⟩, ⟨1, true⟩] ⟨[0x7f, 0x80, 0xff, 0x01], 1⟩ =
      ([(⟨2, true⟩, some (-128)), (⟨2, false⟩, none), (⟨1, true⟩, some 1)],
        ⟨[0x7f, 0x80, 0xff, 0x01], 4⟩) := by decide +kernel
  obtain ⟨place, hreader, -, -, hwritten, hnext⟩ :=
    readAll_faithful hstart [⟨2, true⟩, ⟨2, false⟩, ⟨1, true⟩]
  rw [hreads] at hreader hwritten ⊢
  cases hreader
  exact ⟨hstart, rfl, hwritten, (hnext ⟨1, false⟩).1.2 (by decide)⟩

end Fetch

end Disasm
