import Disasm.Log
import Mathlib

/-!
# Folding repeated lines

Equal lines that follow one another are printed as one row with their number.

**Theorem (`rows_fold`).** Whatever the sinks are, a thread prints its lines and nothing else: each
row written out as often as it counts gives the lines that have a sink and a text, in order. Two of
them are in one row if and only if they are equal and nothing came between them but lines equal to
them and discarded ones.

What matters of an accumulator is the row that it would print (`Accumulator.row?`). Whatever else
a flush or an empty line leaves in it is never seen, and an event does one of four things to that
row (`Folds`). The invariant of a run is that what has been printed, together with that row, is
what has arrived (`flatMap_expand_run`). A row that is held is printed at the first event that does
not keep it (`run_eq_nil_iff`).
-/

namespace Disasm.Log

variable {σ : Type}

/-! ## Lines and rows -/

/-- A line that is to be printed. -/
def Line.IsPrinted (l : Line σ) : Prop := l.sink ≠ none ∧ l.text ≠ ""

instance (l : Line σ) : Decidable l.IsPrinted := inferInstanceAs (Decidable (_ ∧ _))

/-- The line of an event, if it is to be printed. -/
def Event.printed? : Event σ → Option (Line σ)
  | .line l => if l.IsPrinted then some l else none
  | .flush => none

/-- The lines among some events that are to be printed. -/
def printed (es : List (Event σ)) : List (Line σ) := es.filterMap Event.printed?

/-- What ends no row of this line: the same line, and lines that are discarded. -/
def Event.Keeps (l : Line σ) (e : Event σ) : Prop :=
  e = .line l ∨ ∃ l', e = .line l' ∧ l'.sink = none

/-- What stands before the texts of a source. -/
def Source.lead : Source → String
  | file => "[File] "
  | image => "[PE] "
  | terminal => ""
  | workers => "[Workers] "
  | decoder => "[x86] "

theorem Source.lead_eq (s : Source) : s.lead =
    match s.name? with
    | some name => "[" ++ name ++ "] "
    | none => "" := by
  cases s <;> decide

namespace Row

/-- The line that a row is for. -/
def line (r : Row σ) : Line σ := ⟨r.source, some r.sink, r.text⟩

/-- The lines of a row. -/
def expand (r : Row σ) : List (Line σ) := List.replicate r.count r.line

/-- The row with its line once more. -/
def again (r : Row σ) : Row σ := { r with count := r.count + 1 }

theorem length_expand (r : Row σ) : r.expand.length = r.count := List.length_replicate

theorem expand_again (r : Row σ) : r.again.expand = r.expand ++ [r.line] := List.replicate_succ'

theorem render_eq {r : Row σ} (h : 0 < r.count) :
    r.render = r.source.lead ++ r.text ++
      (if r.count = 1 then "" else " [* " ++ toString r.count ++ "]") ++ "\n" := by
  have hiff : 1 < r.count ↔ ¬ r.count = 1 := by omega
  have hrender : r.render = r.source.lead ++ r.text ++
      (if 1 < r.count then " [* " ++ toString r.count ++ "]" else "") ++ "\n" := by
    rw [Source.lead_eq]
    rfl
  simp only [hrender, hiff, ite_not]

end Row

/-- The number of the row that the line with this number is in. -/
def rowOf : List (Row σ) → Nat → Nat
  | [], _ => 0
  | r :: rest, k => if k < r.count then 0 else rowOf rest (k - r.count) + 1

/-- The rows of a thread with these events, which is flushed at its end. -/
def rows [DecidableEq σ] (es : List (Event σ)) : List (Row σ) :=
  (({} : Accumulator σ).run (es ++ [.flush])).1

theorem printed_append (es fs : List (Event σ)) : printed (es ++ fs) = printed es ++ printed fs :=
  List.filterMap_append

theorem printed_cons (e : Event σ) (es : List (Event σ)) :
    printed (e :: es) = e.printed?.toList ++ printed es := by
  rw [printed, List.filterMap_cons]
  cases e.printed? <;> rfl

theorem Event.keeps_line_iff {l l' : Line σ} (h : l'.IsPrinted) :
    Keeps l (.line l') ↔ l = l' := by
  refine ⟨fun hkeeps => ?_, fun heq => Or.inl (heq ▸ rfl)⟩
  rcases hkeeps with heq | ⟨l'', heq, hsink⟩
  · exact (Event.line.inj heq).symm
  · cases heq
    exact absurd hsink h.1

theorem rowOf_append {rs ss : List (Row σ)} {k : Nat} (h : (rs.flatMap Row.expand).length ≤ k) :
    rowOf (rs ++ ss) k = rs.length + rowOf ss (k - (rs.flatMap Row.expand).length) := by
  induction rs generalizing k with
  | nil => simp
  | cons r rs ih =>
    rw [List.flatMap_cons, List.length_append, Row.length_expand] at h ⊢
    rw [List.cons_append, rowOf, if_neg (by omega), ih (by omega), List.length_cons,
      Nat.sub_add_eq]
    omega

/-! ## One event -/

/-- What an event does to the row that is held: which row is printed, and which one is held
afterwards. -/
inductive Folds : Option (Row σ) → Event σ → Option (Row σ) → Option (Row σ) → Prop
  | discard {held : Option (Row σ)} {l : Line σ} (h : l.sink = none) :
      Folds held (.line l) none held
  | again {r : Row σ} (h : r.text ≠ "") : Folds (some r) (.line r.line) none (some r.again)
  | begin {held : Option (Row σ)} {r : Row σ} (h : r.text ≠ "") (hcount : r.count = 1)
      (hother : ∀ r' ∈ held, r'.line ≠ r.line) : Folds held (.line r.line) held (some r)
  | empty {held : Option (Row σ)} {l : Line σ} (hsink : l.sink ≠ none) (h : l.text = "") :
      Folds held (.line l) held none
  | flush {held : Option (Row σ)} : Folds held .flush held none

namespace Folds

variable {held p after : Option (Row σ)} {e : Event σ} {r : Row σ}

/-- No line is lost, added or moved. -/
theorem expand_eq (h : Folds held e p after) :
    p.toList.flatMap Row.expand ++ after.toList.flatMap Row.expand =
      held.toList.flatMap Row.expand ++ e.printed?.toList := by
  cases h with
  | discard h => simp [Event.printed?, Line.IsPrinted, h]
  | again h => simp [Event.printed?, Line.IsPrinted, Row.line, h, Row.expand_again]
  | begin h hcount _ => simp [Event.printed?, Line.IsPrinted, Row.line, h, Row.expand, hcount]
  | empty _ h => simp [Event.printed?, Line.IsPrinted, h]
  | flush => simp [Event.printed?]

theorem count_pos (h : Folds held e p after) (hheld : ∀ r ∈ held, 0 < r.count) :
    (∀ r ∈ p, 0 < r.count) ∧ ∀ r ∈ after, 0 < r.count := by
  have hnone : ∀ r ∈ (none : Option (Row σ)), 0 < r.count := fun _ hr => nomatch hr
  cases h with
  | discard _ => exact ⟨hnone, hheld⟩
  | @again r _ => exact ⟨hnone, fun _ hr => Option.some.inj hr ▸ r.count.succ_pos⟩
  | begin _ hcount _ => exact ⟨hheld, fun _ hr => Option.some.inj hr ▸ hcount ▸ Nat.one_pos⟩
  | empty _ _ => exact ⟨hheld, hnone⟩
  | flush => exact ⟨hheld, hnone⟩

/-- A row that is held stays as long as nothing but its line arrives. -/
theorem of_keeps (h : Folds (some r) e p after) (htext : r.text ≠ "") (hkeeps : e.Keeps r.line) :
    p = none ∧ ∃ r', after = some r' ∧ r'.line = r.line ∧ r.count ≤ r'.count := by
  cases h with
  | discard _ => exact ⟨rfl, r, rfl, rfl, le_rfl⟩
  | again _ => exact ⟨rfl, r.again, rfl, rfl, Nat.le_succ _⟩
  | begin _ _ hother =>
    rcases hkeeps with heq | ⟨l, heq, hsink⟩
    · exact absurd (Event.line.inj heq).symm (hother r rfl)
    · cases heq
      cases hsink
  | empty hsink h =>
    rcases hkeeps with heq | ⟨l, heq, hdiscarded⟩
    · cases heq
      exact absurd h htext
    · cases heq
      exact absurd hdiscarded hsink
  | flush => rcases hkeeps with heq | ⟨l, heq, -⟩ <;> cases heq

/-- A line that is to be printed is held at first. -/
theorem of_isPrinted {l : Line σ} (h : Folds held (.line l) p after) (hl : l.IsPrinted) :
    ∃ r, after = some r ∧ r.line = l := by
  cases h with
  | discard h => exact absurd h hl.1
  | @again r _ => exact ⟨r.again, rfl, rfl⟩
  | @begin _ r _ _ _ => exact ⟨r, rfl, rfl⟩
  | empty _ h => exact absurd h hl.2

/-- A row that is held is printed when anything else arrives. -/
theorem of_not_keeps (h : Folds (some r) e p after) (hkeeps : ¬ e.Keeps r.line) : p = some r := by
  cases h with
  | discard h => exact absurd (Or.inr ⟨_, rfl, h⟩) hkeeps
  | again h => exact absurd (Or.inl rfl) hkeeps
  | _ => rfl

end Folds

namespace Accumulator

theorem row?_of_text_eq {a : Accumulator σ} (h : a.text = "") : a.row? = none := by
  obtain ⟨text, source, sink, count⟩ := a
  cases sink with
  | none => rfl
  | some _ => exact if_pos h

theorem row?_of_text_ne {a : Accumulator σ} {sink : σ} (hsink : a.sink = some sink)
    (h : a.text ≠ "") : a.row? = some ⟨a.source, sink, a.text, a.count⟩ := by
  simp only [row?, hsink, if_neg h]

theorem line_of_mem_row? {a : Accumulator σ} {r : Row σ} (h : r ∈ a.row?) :
    r.text ≠ "" ∧ r.line = ⟨a.source, a.sink, a.text⟩ := by
  obtain ⟨text, source, sink, count⟩ := a
  cases sink with
  | none => cases h
  | some sink =>
    by_cases htext : text = ""
    · rw [row?_of_text_eq htext] at h
      cases h
    · rw [row?_of_text_ne rfl htext] at h
      cases h
      exact ⟨htext, rfl⟩

theorem flush_fst (a : Accumulator σ) : a.flush.1 = a.row? := by
  unfold flush
  cases a.row? <;> rfl

theorem row?_flush (a : Accumulator σ) : a.flush.2.row? = none := by
  unfold flush
  split
  · exact row?_of_text_eq rfl
  · next h => exact h

theorem row?_initial : ({} : Accumulator σ).row? = none := rfl

variable [DecidableEq σ]

/-- An event does to an accumulator what it does to the row that is held. -/
theorem folds_step (a : Accumulator σ) (e : Event σ) :
    Folds a.row? e (a.step e).1 (a.step e).2.row? := by
  cases e with
  | flush =>
    rw [step, flush_fst, row?_flush]
    exact .flush
  | line l =>
    obtain ⟨source, sink, text⟩ := l
    cases sink with
    | none => exact .discard rfl
    | some sink =>
      have hsink : some sink ≠ none := Option.some_ne_none sink
      simp only [step, append]
      split_ifs with hsame
      · obtain ⟨text, source, sink', count⟩ := a
        obtain ⟨rfl, rfl, rfl⟩ := hsame
        by_cases htext : text = ""
        · -- The empty text is equal to itself, but stands for no line.
          have hheld : ∀ n, (Accumulator.mk text source (some sink) n).row? = none :=
            fun _ => row?_of_text_eq htext
          rw [hheld, hheld]
          exact .empty hsink htext
        · have hheld : ∀ n, (Accumulator.mk text source (some sink) n).row? =
              some ⟨source, sink, text, n⟩ := fun _ => row?_of_text_ne rfl htext
          rw [hheld, hheld]
          exact Folds.again htext
      · rw [flush_fst]
        by_cases htext : text = ""
        · have hafter : (Accumulator.mk text source (some sink) 1).row? = none :=
            row?_of_text_eq htext
          rw [hafter]
          exact .empty hsink htext
        · have hafter : (Accumulator.mk text source (some sink) 1).row? =
              some ⟨source, sink, text, 1⟩ := row?_of_text_ne rfl htext
          rw [hafter]
          refine Folds.begin (r := ⟨source, sink, text, 1⟩) htext rfl fun r hr heq => hsame ?_
          rw [(line_of_mem_row? hr).2] at heq
          obtain ⟨hsource, hsink, htext⟩ := Line.mk.inj heq
          exact ⟨htext.symm, hsource.symm, hsink.symm⟩

/-! ## Runs -/

variable {a : Accumulator σ}

theorem run_cons (a : Accumulator σ) (e : Event σ) (es : List (Event σ)) :
    a.run (e :: es) =
      ((a.step e).1.toList ++ ((a.step e).2.run es).1, ((a.step e).2.run es).2) := rfl

theorem run_append (a : Accumulator σ) (es fs : List (Event σ)) :
    a.run (es ++ fs) =
      ((a.run es).1 ++ ((a.run es).2.run fs).1, ((a.run es).2.run fs).2) := by
  induction es generalizing a with
  | nil => rfl
  | cons e es ih => rw [List.cons_append, run_cons, run_cons, ih, List.append_assoc]

/-- **The invariant of a run**: what has been printed and what is held are what was held before and
what has arrived. -/
theorem flatMap_expand_run (a : Accumulator σ) (es : List (Event σ)) :
    (a.run es).1.flatMap Row.expand ++ (a.run es).2.row?.toList.flatMap Row.expand =
      a.row?.toList.flatMap Row.expand ++ printed es := by
  induction es generalizing a with
  | nil => simp [run, printed]
  | cons e es ih =>
    rw [run_cons, printed_cons, List.flatMap_append, List.append_assoc, ih, ← List.append_assoc,
      (a.folds_step e).expand_eq, List.append_assoc]

theorem count_pos_of_mem_run (ha : ∀ r ∈ a.row?, 0 < r.count) {es : List (Event σ)} :
    (∀ r ∈ (a.run es).1, 0 < r.count) ∧ ∀ r ∈ (a.run es).2.row?, 0 < r.count := by
  induction es generalizing a with
  | nil => exact ⟨fun _ hr => absurd hr List.not_mem_nil, ha⟩
  | cons e es ih =>
    obtain ⟨hprinted, hafter⟩ := (a.folds_step e).count_pos ha
    obtain ⟨hrows, hlast⟩ := ih hafter
    refine ⟨fun r hr => ?_, hlast⟩
    rcases List.mem_append.1 hr with hr | hr
    · exact hprinted r (Option.mem_toList.1 hr)
    · exact hrows r hr

/-- Nothing is printed as long as everything keeps the row that is held. -/
theorem run_eq_nil_iff {r : Row σ} (ha : a.row? = some r) {es : List (Event σ)} :
    (a.run es).1 = [] ↔ ∀ e ∈ es, e.Keeps r.line := by
  induction es generalizing a r with
  | nil => simp [run]
  | cons e es ih =>
    have hfolds := a.folds_step e
    rw [ha] at hfolds
    rw [run_cons, List.forall_mem_cons]
    by_cases hkeeps : e.Keeps r.line
    · obtain ⟨hprinted, r', hafter, hline, -⟩ :=
        hfolds.of_keeps (line_of_mem_row? ha).1 hkeeps
      rw [hprinted, Option.toList_none, List.nil_append, ih hafter, hline]
      exact (and_iff_right hkeeps).symm
    · rw [hfolds.of_not_keeps hkeeps]
      simp [hkeeps]

/-- The next row that is printed is the one that is held, with what it still gains. -/
theorem exists_run_flush_eq_cons {r : Row σ} (ha : a.row? = some r) (es : List (Event σ)) :
    ∃ r' rest, (a.run (es ++ [Event.flush])).1 = r' :: rest ∧ r.count ≤ r'.count := by
  induction es generalizing a r with
  | nil =>
    refine ⟨r, [], ?_, le_rfl⟩
    rw [List.nil_append, run_cons, step, flush_fst, ha]
    rfl
  | cons e es ih =>
    have hfolds := a.folds_step e
    rw [ha] at hfolds
    rw [List.cons_append, run_cons]
    by_cases hkeeps : e.Keeps r.line
    · obtain ⟨hprinted, r', hafter, -, hcount⟩ := hfolds.of_keeps (line_of_mem_row? ha).1 hkeeps
      obtain ⟨r'', rest, heq, hcount'⟩ := ih hafter
      rw [hprinted]
      exact ⟨r'', rest, heq, hcount.trans hcount'⟩
    · rw [hfolds.of_not_keeps hkeeps]
      exact ⟨r, _, rfl, le_rfl⟩

/-- After a line that is to be printed its row is held, and it is the last line of this row. -/
theorem exists_row_of_isPrinted (before : List (Event σ)) {l : Line σ} (hl : l.IsPrinted) :
    ∃ r, (({} : Accumulator σ).run (before ++ [Event.line l])).2.row? = some r ∧ r.line = l ∧
      0 < r.count ∧
      ((({} : Accumulator σ).run (before ++ [Event.line l])).1.flatMap Row.expand).length +
        r.count = (printed before).length + 1 := by
  have hnone : ∀ r ∈ ({} : Accumulator σ).row?, 0 < r.count := fun _ hr => nomatch hr
  obtain ⟨r, hr, hline⟩ :=
    ((({} : Accumulator σ).run before).2.folds_step (Event.line l)).of_isPrinted hl
  have hheld : (({} : Accumulator σ).run (before ++ [Event.line l])).2.row? = some r := by
    rw [run_append]
    exact hr
  refine ⟨r, hheld, hline, (count_pos_of_mem_run hnone).2 r hheld, ?_⟩
  have hlength := congrArg List.length (flatMap_expand_run {} (before ++ [Event.line l]))
  simpa [hheld, row?_initial, Row.length_expand, printed_append, printed, Event.printed?, hl]
    using hlength

/-- A line is in the row after those printed when it has arrived. -/
theorem rowOf_eq (before after : List (Event σ)) {l : Line σ} (hl : l.IsPrinted) :
    rowOf (rows (before ++ Event.line l :: after)) (printed before).length =
      (({} : Accumulator σ).run (before ++ [Event.line l])).1.length := by
  obtain ⟨r, hheld, -, hcount, hlength⟩ := exists_row_of_isPrinted before hl
  obtain ⟨r', rest, hrest, hle⟩ := exists_run_flush_eq_cons hheld after
  have hrows : rows (before ++ Event.line l :: after) =
      (({} : Accumulator σ).run (before ++ [Event.line l])).1 ++ r' :: rest := by
    rw [rows, ← List.singleton_append, ← List.append_assoc, List.append_assoc _ after, run_append,
      hrest]
  rw [hrows, rowOf_append (by omega), rowOf, if_pos (by omega), Nat.add_zero]

end Accumulator

open Accumulator in
/-- **Folding loses, doubles and moves no line.** The rows, written out, are the lines that have a
sink and a text, and each shows the prefix of its source, its text and its count. Two lines are in
one row exactly if they are equal and only such lines, or discarded ones, came between them. -/
theorem rows_fold [DecidableEq σ] (es : List (Event σ)) :
    (rows es).flatMap Row.expand = printed es ∧
    (∀ r ∈ rows es, 0 < r.count ∧ r.render = r.source.lead ++ r.text ++
      (if r.count = 1 then "" else " [* " ++ toString r.count ++ "]") ++ "\n") ∧
    ∀ before l between l' after,
      es = before ++ Event.line l :: (between ++ Event.line l' :: after) →
      l.IsPrinted → l'.IsPrinted →
      (rowOf (rows es) (printed before).length =
          rowOf (rows es) (printed (before ++ Event.line l :: between)).length ↔
        l = l' ∧ ∀ e ∈ between, e.Keeps l) := by
  refine ⟨?_, fun r hr => ?_, ?_⟩
  · have hrun := flatMap_expand_run {} (es ++ [Event.flush])
    have hlast : (({} : Accumulator σ).run (es ++ [Event.flush])).2.row? = none := by
      rw [run_append]
      exact row?_flush _
    have hflush : printed [(Event.flush : Event σ)] = [] := rfl
    rw [hlast, row?_initial, printed_append, hflush] at hrun
    simpa [rows] using hrun
  · have hcount := (count_pos_of_mem_run (a := {}) fun _ hr => nomatch hr).1 r hr
    exact ⟨hcount, Row.render_eq hcount⟩
  · rintro before l between l' after rfl hl hl'
    obtain ⟨r, hheld, hline, -⟩ := exists_row_of_isPrinted before hl
    have hsplit : before ++ Event.line l :: (between ++ Event.line l' :: after) =
        (before ++ Event.line l :: between) ++ Event.line l' :: after := by simp
    have hruns :
        (({} : Accumulator σ).run (before ++ Event.line l :: between ++ [Event.line l'])).1 =
        (({} : Accumulator σ).run (before ++ [Event.line l])).1 ++
          ((({} : Accumulator σ).run (before ++ [Event.line l])).2.run
            (between ++ [Event.line l'])).1 := by
      rw [← List.singleton_append, ← List.append_assoc, List.append_assoc _ between, run_append]
    -- Nothing is printed from one line to the other if and only if all that arrives keeps the row.
    rw [rowOf_eq before _ hl, hsplit, rowOf_eq _ after hl', hruns, List.length_append,
      left_eq_add, List.length_eq_zero_iff, run_eq_nil_iff hheld, hline, List.forall_mem_append,
      List.forall_mem_singleton, Event.keeps_line_iff hl', and_comm]

/-- One line three times, with a discarded one and with a flush in between. -/
def thrice : List Event :=
  let l : Line := ⟨.image, some .standardError, "a"⟩
  [.line l, .line ⟨.file, none, "b"⟩, .line l, .flush, .line l]

/-- A discarded line between two equal ones does not part them, but a flush does. -/
theorem rows_fold_discarded : (rows thrice).map Row.count = [2, 1] ∧
    rowOf (rows thrice) 0 = rowOf (rows thrice) 1 := by
  refine ⟨by decide +kernel, ((rows_fold thrice).2.2 [] ⟨.image, some .standardError, "a"⟩
    [.line ⟨.file, none, "b"⟩] ⟨.image, some .standardError, "a"⟩
    [.flush, .line ⟨.image, some .standardError, "a"⟩] rfl (by decide) (by decide)).2
    ⟨rfl, fun e he => ?_⟩⟩
  rw [List.mem_singleton.1 he]
  exact Or.inr ⟨_, rfl, rfl⟩

end Disasm.Log
