import Disasm.Proofs.File.Cursor
import Disasm.Proofs.LittleEndian

/-!
# A file after any calls

An open file is read, sought in and loaded in any order. What it then gives is told from its bytes,
the place of its cursor and what has happened since the last seek.

* `File.Call`, `File.after` — calls of a file, and the file after some of them. A seek that fails
  leaves the file as it was.
* `File.Event`, `File.events` — that a place was sought, and that bytes were asked for.
* `File.MetEnd` — since the last seek a byte past the end has been asked for.

**Theorem (`after_behaves`).** Whatever has been called, the file can be loaded as it was opened; it
reads as its bytes do from its place on, with `0xff` behind them, and moves over those that are
there; it goes to the places that a file can have, and never before the start; and it tells whether
the end has been met.

The step is `Follows.apply`: a call leaves a file that shows a cursor over the same bytes, whose
indicator is what the events so far come to. The rest is an induction on the calls, from the last
one back.
-/

namespace Disasm

/-! ## Calls and events -/

namespace File

/-- A call of an open file. -/
inductive Call
  | number (width : Nat)
  | startsWith (signature : List UInt8)
  | seek (offset : Int) (whence : Whence)
  | atEnd
  | contents

/-- What happens in a call: a place is sought, or bytes from a place on are asked for. -/
inductive Event
  | sought
  | asked (place count : Nat)

/-- The file after a call. -/
def apply (f : File) : Call → File
  | .number width => (f.number width).2
  | .startsWith signature => (f.startsWith signature).2
  | .seek offset whence =>
    match f.seek offset whence with
    | .ok g => g
    | .error _ => f
  | .atEnd => f
  | .contents => f.contents.2

/-- What happens in a call. To load a file is to seek its start and to read all of it. -/
def eventsOf (f : File) : Call → List Event
  | .number width => [.asked f.position width]
  | .startsWith signature => [.asked f.position signature.length]
  | .seek offset whence =>
    match f.seek offset whence with
    | .ok _ => [.sought]
    | .error _ => []
  | .atEnd => []
  | .contents => [.sought, .asked 0 f.size]

/-- The file after some calls. -/
def after (f : File) (calls : List Call) : File := calls.foldl apply f

/-- What happens in some calls. -/
def events (f : File) : List Call → List Event
  | [] => []
  | call :: calls => f.eventsOf call ++ (f.apply call).events calls

/-- Since a place was last sought, if ever, a byte past the end was asked for. -/
def MetEnd (length : Nat) (events : List Event) : Prop :=
  ∃ before place count later, events = before ++ .asked place count :: later ∧
    (∃ k < count, length ≤ place + k) ∧ .sought ∉ later

theorem after_append_singleton (f : File) (calls : List Call) (call : Call) :
    f.after (calls ++ [call]) = (f.after calls).apply call := by
  simp [after, List.foldl_append]

theorem events_append_singleton (f : File) (calls : List Call) (call : Call) :
    f.events (calls ++ [call]) = f.events calls ++ (f.after calls).eventsOf call := by
  induction calls generalizing f with
  | nil => simp [events, after]
  | cons first calls ih =>
    rw [List.cons_append, events, ih, ← List.append_assoc]
    rfl

/-! ## The end -/

section MetEnd

variable {length place count : Nat} {es : List Event}

theorem not_metEnd_nil : ¬ MetEnd length [] := by
  rintro ⟨before, place, count, later, heq, -, -⟩
  simp at heq

/-- A seek makes good for what was asked before. -/
theorem not_metEnd_append_sought : ¬ MetEnd length (es ++ [.sought]) := by
  rintro ⟨before, place, count, later, heq, -, hlater⟩
  rcases List.eq_nil_or_concat later with rfl | ⟨later, e, rfl⟩
  · simpa using (List.append_inj' heq rfl).2
  · rw [List.concat_eq_append, ← List.cons_append, ← List.append_assoc] at heq
    have he := (List.append_inj' heq rfl).2
    cases he
    exact hlater (by simp)

theorem metEnd_append_asked : MetEnd length (es ++ [.asked place count]) ↔
    MetEnd length es ∨ ∃ k < count, length ≤ place + k := by
  constructor
  · rintro ⟨before, place', count', later, heq, hpast, hlater⟩
    rcases List.eq_nil_or_concat later with rfl | ⟨later, e, rfl⟩
    · obtain ⟨-, hlast⟩ := List.append_inj' heq rfl
      cases hlast
      exact Or.inr hpast
    · rw [List.concat_eq_append, ← List.cons_append, ← List.append_assoc] at heq
      obtain ⟨hes, -⟩ := List.append_inj' heq rfl
      exact Or.inl ⟨before, place', count', later, hes, hpast, fun h => hlater (by simp [h])⟩
  · rintro (⟨before, place', count', later, rfl, hpast, hlater⟩ | hpast)
    · refine ⟨before, place', count', later ++ [.asked place count], ?_, hpast, ?_⟩
      · rw [List.append_assoc, List.cons_append]
      · simpa using hlater
    · exact ⟨es, place, count, [], rfl, hpast, List.not_mem_nil⟩

end MetEnd

end File

/-! ## What a cursor reads -/

namespace Cursor

variable {c : Cursor} {n : Nat}

theorem length_read (c : Cursor) (n : Nat) :
    (c.read n).1.length = min n (c.bytes.length - c.place) := by
  show (c.rest.take n).length = _
  rw [List.length_take, rest, List.length_drop]

theorem place_read (c : Cursor) (n : Nat) :
    (c.read n).2.place = c.place + min n (c.bytes.length - c.place) := by
  rw [← length_read]
  rfl

/-- A read meets the end if one of its bytes is not there. -/
theorem atEnd_read (c : Cursor) (n : Nat) :
    (c.read n).2.atEnd ↔ c.atEnd ∨ ∃ k < n, c.bytes.length ≤ c.place + k := by
  have hatEnd : (c.read n).2.atEnd = (c.atEnd || decide ((c.read n).1.length < n)) := rfl
  rw [hatEnd, Bool.or_eq_true, decide_eq_true_eq, length_read]
  refine or_congr_right ⟨fun h => ⟨n - 1, by omega, by omega⟩, ?_⟩
  rintro ⟨k, hk, hpast⟩
  omega

/-- Filled up to `width` bytes, what is read is the bytes from the place on, each `0xff` behind the
end. -/
theorem filled_eq (c : Cursor) (width : Nat) :
    (c.read width).1 ++ List.replicate (width - (c.read width).1.length) 0xff =
      (List.range width).map fun k => c.bytes.getD (c.place + k) 0xff := by
  apply List.ext_getElem
  · have hle : (c.read width).1.length ≤ width := by
      rw [length_read]
      exact min_le_left _ _
    simp
    omega
  · intro k hk hk'
    rw [List.getElem_map, List.getElem_range, List.getElem_append, List.getD_eq_getElem?_getD]
    split_ifs with hfound
    · have hplace : c.place + k < c.bytes.length := by
        rw [length_read] at hfound
        omega
      rw [List.getElem?_eq_getElem hplace, Option.getD_some]
      simp [read, rest]
    · have hplace : c.bytes.length ≤ c.place + k := by
        rw [List.length_map, List.length_range] at hk'
        rw [length_read] at hfound
        omega
      rw [List.getElem?_eq_none hplace, Option.getD_none, List.getElem_replicate]

/-- A number has the bytes from the place on for its digits. -/
theorem number_eq (c : Cursor) (width : Nat) : (c.number width).1 =
    Nat.ofDigits 256 ((List.range width).map fun k => (c.bytes.getD (c.place + k) 0xff).toNat) := by
  show ofLittleEndian ((c.read width).1 ++
    List.replicate (width - (c.read width).1.length) 0xff) = _
  rw [filled_eq, ofLittleEndian_eq_byteValue, byteValue, List.map_map]
  rfl

end Cursor

namespace File

variable {f : File} {c : Cursor} {bytes : List UInt8} {lastPlace : Nat} {es : List Event}

/-! ## One call -/

/-- A file shows a cursor over these bytes, with the indicator that these events come to. -/
structure Follows (f : File) (bytes : List UInt8) (lastPlace : Nat) (es : List Event) :
    Prop where
  shows : f.Shows ⟨bytes, f.position, f.atEnd, lastPlace⟩
  met : f.atEnd ↔ MetEnd bytes.length es

theorem Shows.follows (h : f.Shows c) (hmet : c.atEnd ↔ MetEnd c.bytes.length es) :
    f.Follows c.bytes c.lastPlace es where
  shows := by
    rw [h.position_eq, h.atEnd_eq]
    exact h
  met := by rw [h.atEnd_eq, hmet]

/-- At another place nothing has been asked for yet. -/
theorem Shows.follows_sought {place : Nat} (h : f.Shows (c.moved place)) :
    f.Follows c.bytes c.lastPlace (es ++ [.sought]) :=
  h.follows (iff_of_false Bool.false_ne_true not_metEnd_append_sought)

/-- After a read the end has been met if it had been before or is met by the read. -/
theorem Follows.read {n : Nat} {g : File} (h : f.Follows bytes lastPlace es)
    (hg : g.Shows (Cursor.read ⟨bytes, f.position, f.atEnd, lastPlace⟩ n).2) :
    g.Follows bytes lastPlace (es ++ [.asked f.position n]) := by
  have hbytes : (Cursor.read ⟨bytes, f.position, f.atEnd, lastPlace⟩ n).2.bytes = bytes := rfl
  refine hg.follows ?_
  rw [hbytes, Cursor.atEnd_read, metEnd_append_asked, ← h.met]

/-- Each call goes on from the events before it. -/
theorem Follows.apply (h : f.Follows bytes lastPlace es) (call : Call) :
    (f.apply call).Follows bytes lastPlace (es ++ f.eventsOf call) := by
  cases call with
  | number width => exact h.read (h.shows.number width).2
  | startsWith signature => exact h.read (h.shows.startsWith signature).2
  | seek offset whence =>
    obtain ⟨hout, hin⟩ := h.shows.seek offset whence
    unfold File.apply eventsOf
    dsimp only
    cases hseek : f.seek offset whence with
    | error e =>
      rw [List.append_nil]
      exact h
    | ok g =>
      obtain ⟨g', hg', hshows⟩ := hin (by
        by_contra hrange
        rw [hout (by omega)] at hseek
        cases hseek)
      rw [hseek] at hg'
      cases hg'
      exact hshows.follows_sought
  | atEnd =>
    show f.Follows bytes lastPlace (es ++ [])
    rw [List.append_nil]
    exact h
  | contents =>
    have hevents : es ++ f.eventsOf .contents = es ++ [.sought] ++ [.asked 0 f.size] := by
      simp [eventsOf]
    rw [hevents]
    refine h.shows.contents.2.follows (iff_of_false Bool.false_ne_true ?_)
    rw [metEnd_append_asked, not_or]
    refine ⟨not_metEnd_append_sought, ?_⟩
    rintro ⟨k, hk, hpast⟩
    have hsize : f.size = bytes.length := h.shows.size_eq
    have hlength : bytes.length ≤ 0 + k := hpast
    omega

/-! ## What a file gives -/

theorem Shows.number_eq (h : f.Shows c) (width : Nat) :
    (f.number width).1 = Nat.ofDigits 256
        ((List.range width).map fun k => (c.bytes.getD (c.place + k) 0xff).toNat) ∧
      (f.number width).2.position = c.place + min width (c.bytes.length - c.place) := by
  obtain ⟨hnumber, hnext⟩ := h.number width
  rw [hnumber, hnext.position_eq]
  exact ⟨c.number_eq width, c.place_read width⟩

theorem Shows.startsWith_iff (h : f.Shows c) (signature : List UInt8) :
    ((f.startsWith signature).1 ↔ signature <+: c.bytes.drop c.place) ∧
      (f.startsWith signature).2.position =
        c.place + min signature.length (c.bytes.length - c.place) := by
  obtain ⟨hfound, hnext⟩ := h.startsWith signature
  rw [hfound, hnext.position_eq, List.prefix_iff_eq_take, eq_comm]
  exact ⟨Iff.rfl, c.place_read signature.length⟩

section seek

variable {offset : Int} {whence : Whence}

/-- Before the start nothing is sought. -/
theorem Shows.seek_of_neg (h : f.Shows c) (hplace : c.origin whence + offset < 0) :
    f.seek offset whence = .error .cantSeek ∧ f.apply (.seek offset whence) = f := by
  have herror := (h.seek offset whence).1 (Or.inl hplace)
  exact ⟨herror, by simp only [apply, herror]⟩

theorem Shows.seek_of_nonneg (h : f.Shows c) (hplace : 0 ≤ c.origin whence + offset)
    (hlast : c.origin whence + offset ≤ c.lastPlace) :
    ∃ g, f.seek offset whence = .ok g ∧ f.apply (.seek offset whence) = g ∧
      g.position = c.origin whence + offset ∧ g.atEnd = false := by
  obtain ⟨g, hg, hmoved⟩ := (h.seek offset whence).2 ⟨hplace, hlast⟩
  refine ⟨g, hg, by simp only [apply, hg], ?_, hmoved.atEnd_eq⟩
  rw [hmoved.position_eq]
  exact Int.toNat_of_nonneg hplace

end seek

/-! ## Any calls -/

theorem follows_ofBytes (name : String) (bytes : List UInt8) (lastPlace : Nat) :
    (ofBytes name bytes lastPlace).Follows bytes lastPlace [] :=
  (shows_ofBytes name bytes lastPlace).follows (iff_of_false Bool.false_ne_true not_metEnd_nil)

theorem follows_after (name : String) (bytes : List UInt8) (lastPlace : Nat) (calls : List Call) :
    ((ofBytes name bytes lastPlace).after calls).Follows bytes lastPlace
      ((ofBytes name bytes lastPlace).events calls) := by
  induction calls using List.reverseRecOn with
  | nil => exact follows_ofBytes name bytes lastPlace
  | append_singleton calls call ih =>
    rw [after_append_singleton, events_append_singleton]
    exact ih.apply call

/-- **A file behaves as its bytes with a place and an indicator**, whatever has been called. Loading
it always gives all of it. A number has the bytes from the place on for its digits in base 256,
lowest first, and `0xff` where there is none; the place moves over those that are there. A signature
is found where all of it stands. A seek before the start is refused and changes nothing; a place
that the file can have is gone to. The indicator is set if and only if, since the last place was
sought, a byte past the end was asked for. -/
theorem after_behaves (name : String) (bytes : List UInt8) (lastPlace : Nat) (calls : List Call) :
    let f₀ := ofBytes name bytes lastPlace
    let f := f₀.after calls
    (f.contents.1 = .ok bytes ∧ f.contents.2.position = bytes.length) ∧
    (∀ width, (f.number width).1 = Nat.ofDigits 256
        ((List.range width).map fun k => (bytes.getD (f.position + k) 0xff).toNat) ∧
      (f.number width).2.position = f.position + min width (bytes.length - f.position)) ∧
    (∀ signature, ((f.startsWith signature).1 ↔ signature <+: bytes.drop f.position) ∧
      (f.startsWith signature).2.position =
        f.position + min signature.length (bytes.length - f.position)) ∧
    (∀ offset whence,
      let place : Int := Cursor.origin ⟨bytes, f.position, f.atEnd, lastPlace⟩ whence + offset
      (place < 0 → f.seek offset whence = .error .cantSeek ∧
        f₀.after (calls ++ [.seek offset whence]) = f) ∧
      (0 ≤ place ∧ place ≤ lastPlace → ∃ g, f.seek offset whence = .ok g ∧
        f₀.after (calls ++ [.seek offset whence]) = g ∧ g.position = place ∧ g.atEnd = false)) ∧
    (f.atEnd ↔ MetEnd bytes.length (f₀.events calls)) := by
  intro f₀ f
  have hf : f.Follows bytes lastPlace (f₀.events calls) := follows_after name bytes lastPlace calls
  obtain ⟨hcontents, hloaded⟩ := hf.shows.contents
  refine ⟨⟨hcontents, hloaded.position_eq⟩, hf.shows.number_eq, hf.shows.startsWith_iff, ?_, hf.met⟩
  intro offset whence place
  have hafter : f₀.after (calls ++ [.seek offset whence]) = f.apply (.seek offset whence) :=
    after_append_singleton _ _ _
  rw [hafter]
  exact ⟨hf.shows.seek_of_neg, fun hplace => hf.shows.seek_of_nonneg hplace.1 hplace.2⟩

/-- Two bytes and then four are asked for where there are three. The end has been met, and four
bytes back there is no place. -/
theorem after_behaves_short :
    let f := (ofBytes "file" [0x4d, 0x5a, 0x90]).after [.number 2, .number 4]
    f.position = 3 ∧ f.atEnd ∧ f.seek (-4) .current = .error .cantSeek ∧
    (ofBytes "file" [0x4d, 0x5a, 0x90]).after [.number 2, .number 4, .seek (-4) .current] = f ∧
    MetEnd 3 ((ofBytes "file" [0x4d, 0x5a, 0x90]).events [.number 2, .number 4]) ∧
    f.contents.1 = .ok [0x4d, 0x5a, 0x90] := by
  intro f
  have hposition : f.position = 3 := by decide +kernel
  have hatEnd : f.atEnd := by decide +kernel
  obtain ⟨⟨hcontents, -⟩, -, -, hseek, hmet⟩ :=
    after_behaves "file" [0x4d, 0x5a, 0x90] lastPlace32 [.number 2, .number 4]
  have hplace :
      Cursor.origin ⟨[0x4d, 0x5a, 0x90], f.position, f.atEnd, lastPlace32⟩ .current + (-4 : Int)
        < 0 := by
    rw [hposition]
    decide
  obtain ⟨herror, hafter⟩ := (hseek (-4) .current).1 hplace
  exact ⟨hposition, hatEnd, herror, hafter, hmet.1 hatEnd, hcontents⟩

end File

end Disasm
