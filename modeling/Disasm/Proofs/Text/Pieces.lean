import Disasm.Text.Listing
import Mathlib

/-!
# Texts fall apart in one way

Spaces end the words of an instruction and commas its operands, except within parentheses, which
both syntaxes use in pairs.

* `Piece` — a text that reads as one: no separator stands in it outside parentheses.
* `Separated` — what may follow a piece: nothing, or a separator.
* `Piece.append_inj` — where a piece and what follows it are the same text as another piece and
  what follows that, both are the same.

From this come the two ways in which instructions are read back: words before a name
(`words_inj`), and operands with commas between them (`intercalate_inj`). Where parentheses do not
matter, a text is cut at the first of some characters (`cut_inj`).
-/

namespace Disasm

namespace Text

/-! ## Characters -/

section Characters

variable {c : Char} {a b u v : List Char}

theorem bne_of_not_mem (ha : c ∉ a) : ∀ d ∈ a, (d != c) = true := fun _ hd =>
  bne_iff_ne.2 fun heq => ha (heq ▸ hd)

theorem takeWhile_cut (ha : c ∉ a) (u : List Char) : (a ++ c :: u).takeWhile (· != c) = a := by
  rw [List.takeWhile_append_of_pos (bne_of_not_mem ha), List.takeWhile_cons_of_neg (by simp),
    List.append_nil]

theorem dropWhile_cut (ha : c ∉ a) (u : List Char) :
    (a ++ c :: u).dropWhile (· != c) = c :: u := by
  rw [List.dropWhile_append_of_pos (bne_of_not_mem ha), List.dropWhile_cons_of_neg (by simp)]

/-- A text is cut in one way at the first of some characters. -/
theorem cut_inj (ha : c ∉ a) (hb : c ∉ b) (h : a ++ c :: u = b ++ c :: v) : a = b ∧ u = v := by
  have hbefore := congrArg (List.takeWhile (· != c)) h
  have hbehind := congrArg (List.dropWhile (· != c)) h
  rw [takeWhile_cut ha, takeWhile_cut hb] at hbefore
  rw [dropWhile_cut ha, dropWhile_cut hb] at hbehind
  exact ⟨hbefore, (List.cons.inj hbehind).2⟩

theorem dropWhile_replicate_append (ha : a.head? ≠ some c) (n : Nat) :
    (List.replicate n c ++ a).dropWhile (· == c) = a := by
  rw [List.dropWhile_append_of_pos fun d hd => beq_iff_eq.2 (List.eq_of_mem_replicate hd)]
  cases a with
  | nil => rfl
  | cons d a =>
    refine List.dropWhile_cons_of_neg fun hd => ha ?_
    rw [List.head?_cons, eq_of_beq hd]

theorem takeWhile_replicate_append (ha : a.head? ≠ some c) (n : Nat) :
    (List.replicate n c ++ a).takeWhile (· == c) = List.replicate n c := by
  have hall := List.takeWhile_append_dropWhile (p := (· == c)) (l := List.replicate n c ++ a)
  rw [dropWhile_replicate_append ha] at hall
  exact List.append_cancel_right hall

end Characters

/-! ## Pieces -/

/-- The depth of parentheses after one more character; nothing where the character is a separator
outside of them. -/
def nest (depth : Nat) (c : Char) : Option Nat :=
  if c = '(' then some (depth + 1)
  else if c = ')' then some (depth - 1)
  else if depth = 0 ∧ (c = ',' ∨ c = ' ') then none
  else some depth

/-- The depth of parentheses after some characters. -/
def scan (depth : Nat) (cs : List Char) : Option Nat := cs.foldlM nest depth

/-- A text without a separator outside parentheses. -/
def Piece (cs : List Char) : Prop := scan 0 cs = some 0

instance (cs : List Char) : Decidable (Piece cs) := inferInstanceAs (Decidable (_ = _))

/-- Nothing, or a text that starts with a separator. -/
def Separated (cs : List Char) : Prop := ∀ c ∈ cs.head?, c = ',' ∨ c = ' '

/-- A text without parentheses and separators. -/
def Plain (cs : List Char) : Prop := ∀ c ∈ cs, c ∉ ['(', ')', ',', ' ']

instance (cs : List Char) : Decidable (Plain cs) := inferInstanceAs (Decidable (∀ c ∈ cs, _))

variable {a b r r' : List Char} {depth : Nat}

theorem scan_append (depth : Nat) (a b : List Char) :
    scan depth (a ++ b) = (scan depth a).bind (scan · b) :=
  List.foldlM_append

theorem scan_append_of_eq {d : Nat} (h : scan depth a = some d) (b : List Char) :
    scan depth (a ++ b) = scan d b := by
  rw [scan_append, h, Option.bind_some]

theorem nest_of_plain {c : Char} (h : c ∉ ['(', ')', ',', ' ']) : nest depth c = some depth := by
  simp only [List.mem_cons, List.not_mem_nil, or_false, not_or] at h
  simp [nest, h]

theorem Plain.scan_eq (h : Plain a) (depth : Nat) : scan depth a = some depth := by
  induction a with
  | nil => rfl
  | cons c rest ih =>
    rw [scan, List.foldlM_cons, nest_of_plain (h c List.mem_cons_self)]
    exact ih fun c hc => h c (List.mem_cons_of_mem _ hc)

theorem Plain.piece (h : Plain a) : Piece a := h.scan_eq 0

theorem Piece.append (ha : Piece a) (hb : Piece b) : Piece (a ++ b) :=
  (scan_append_of_eq ha b).trans hb

/-- No separator follows a piece within another one. -/
theorem not_piece_append_cons (ha : Piece a) {c : Char} (hc : c = ',' ∨ c = ' ')
    (rest : List Char) : ¬ Piece (a ++ c :: rest) := by
  have hstop : nest 0 c = none := by rcases hc with rfl | rfl <;> rfl
  rw [Piece, scan_append_of_eq ha, scan, List.foldlM_cons, hstop]
  exact fun h => nomatch h

theorem Piece.append_inj (ha : Piece a) (hb : Piece b) (hr : Separated r) (hr' : Separated r')
    (h : a ++ r = b ++ r') : a = b ∧ r = r' := by
  rcases List.append_eq_append_iff.1 h with ⟨x, rfl, rfl⟩ | ⟨x, rfl, rfl⟩
  · cases x with
    | nil => simp
    | cons c rest => exact absurd hb (not_piece_append_cons ha (hr c rfl) rest)
  · cases x with
    | nil => simp
    | cons c rest => exact absurd ha (not_piece_append_cons hb (hr' c rfl) rest)

theorem separated_nil : Separated [] := fun _ h => nomatch h

theorem separated_space (rest : List Char) : Separated (' ' :: rest) := fun _ h => by
  cases h
  exact Or.inr rfl

theorem separated_comma (rest : List Char) : Separated (',' :: rest) := fun _ h => by
  cases h
  exact Or.inl rfl

/-- Of two beginnings of one text one is the beginning of the other. -/
theorem isPrefix_or_isPrefix {a b u v : String} (h : a ++ u = b ++ v) :
    a.toList <+: b.toList ∨ b.toList <+: a.toList := by
  have hlists := congrArg String.toList h
  rw [String.toList_append, String.toList_append] at hlists
  exact List.prefix_or_prefix_of_prefix (List.prefix_append a.toList u.toList)
    (hlists ▸ List.prefix_append b.toList v.toList)

/-! ## Words -/

/-- Words with a space after each, then a name that is none of the words. -/
theorem words_inj {W : List (List Char)} (hW : ∀ w ∈ W, Piece w) {ps qs : List (List Char)}
    {n n' : List Char} (hps : ∀ p ∈ ps, p ∈ W) (hqs : ∀ q ∈ qs, q ∈ W) (hn : Piece n ∧ n ∉ W)
    (hn' : Piece n' ∧ n' ∉ W) (hr : Separated r) (hr' : Separated r')
    (h : ps.flatMap (· ++ [' ']) ++ (n ++ r) = qs.flatMap (· ++ [' ']) ++ (n' ++ r')) :
    ps = qs ∧ n = n' ∧ r = r' := by
  induction ps generalizing qs with
  | nil =>
    cases qs with
    | nil => exact ⟨rfl, hn.1.append_inj hn'.1 hr hr' h⟩
    | cons q qs =>
      have hq := hqs q List.mem_cons_self
      rw [List.flatMap_nil, List.nil_append, List.flatMap_cons, List.append_assoc,
        List.append_assoc] at h
      have := (hn.1.append_inj (hW q hq) hr (separated_space _) h).1
      exact absurd (this ▸ hq) hn.2
  | cons p ps ih =>
    have hp := hps p List.mem_cons_self
    rw [List.flatMap_cons, List.append_assoc, List.append_assoc] at h
    cases qs with
    | nil =>
      have := (hn'.1.append_inj (hW p hp) hr' (separated_space _) h.symm).1
      exact absurd (this ▸ hp) hn'.2
    | cons q qs =>
      rw [List.flatMap_cons, List.append_assoc, List.append_assoc] at h
      obtain ⟨rfl, htail⟩ := (hW p hp).append_inj (hW q (hqs q List.mem_cons_self))
        (separated_space _) (separated_space _) h
      obtain ⟨rfl, hrest⟩ := ih (fun p hp => hps p (List.mem_cons_of_mem _ hp))
        (fun q hq => hqs q (List.mem_cons_of_mem _ hq)) (List.cons.inj htail).2
      exact ⟨rfl, hrest⟩

/-! ## Lists -/

/-- What ends a list of operands: nothing, or a comment. -/
def EndsList (cs : List Char) : Prop := ∀ c ∈ cs.head?, c = ' '

theorem EndsList.separated_commas (h : EndsList r) (ts : List (List Char)) :
    Separated (ts.flatMap (',' :: ·) ++ r) := by
  cases ts with
  | nil => exact fun c hc => Or.inr (h c hc)
  | cons t ts => exact separated_comma _

theorem commas_inj {ts ts' : List (List Char)} (hts : ∀ t ∈ ts, Piece t)
    (hts' : ∀ t ∈ ts', Piece t) (hr : EndsList r) (hr' : EndsList r')
    (h : ts.flatMap (',' :: ·) ++ r = ts'.flatMap (',' :: ·) ++ r') : ts = ts' ∧ r = r' := by
  have hcomma : ∀ x, ¬ EndsList (',' :: x) := fun _ h => nomatch h ',' rfl
  induction ts generalizing ts' with
  | nil =>
    cases ts' with
    | nil => exact ⟨rfl, h⟩
    | cons t' ts' =>
      subst h
      exact absurd hr (hcomma _)
  | cons t ts ih =>
    cases ts' with
    | nil =>
      subst h
      exact absurd hr' (hcomma _)
    | cons t' ts' =>
      simp only [List.flatMap_cons, List.append_assoc, List.cons_append, List.cons.injEq,
        true_and] at h
      obtain ⟨rfl, htail⟩ := (hts t List.mem_cons_self).append_inj (hts' t' List.mem_cons_self)
        (hr.separated_commas _) (hr'.separated_commas _) h
      obtain ⟨rfl, hrest⟩ := ih (fun t ht => hts t (List.mem_cons_of_mem _ ht))
        (fun t ht => hts' t (List.mem_cons_of_mem _ ht)) htail
      exact ⟨rfl, hrest⟩

theorem cons_intercalate {ts : List (List Char)} (h : ts ≠ []) :
    ',' :: [','].intercalate ts = ts.flatMap (',' :: ·) := by
  induction ts with
  | nil => exact absurd rfl h
  | cons t ts ih =>
    cases ts with
    | nil => simp
    | cons u us => simp [List.intercalate_cons_cons, ← ih (List.cons_ne_nil u us)]

/-- Pieces with commas between them, then what ends the list. -/
theorem intercalate_inj {ts ts' : List (List Char)} (hts : ∀ t ∈ ts, Piece t)
    (hts' : ∀ t ∈ ts', Piece t) (hne : ts ≠ []) (hne' : ts' ≠ []) (hr : EndsList r)
    (hr' : EndsList r') (h : [','].intercalate ts ++ r = [','].intercalate ts' ++ r') :
    ts = ts' ∧ r = r' := by
  refine commas_inj hts hts' hr hr' ?_
  rw [← cons_intercalate hne, ← cons_intercalate hne', List.cons_append, List.cons_append, h]

end Text

end Disasm
