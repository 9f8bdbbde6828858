import Disasm.CommandLine.Arguments
import Disasm.Proofs.Text.Pieces

/-!
# What a command line selects

An argument is a dash or more, a name and perhaps `=` with a value, or it names a file
(`Argument.Writes`). The same option may be given again and again, with and without a value.

**Theorem (`selections_ofList`).** An option is selected if and only if an argument gives it. Its
value is that of its last occurrence or, where that one has none, the last value given before; with
no value at all it is empty. Files are kept in order, and options in the order of their names.

`Selections.put` and `Selections.select` are described by what `lookup` finds behind them; the
theorem follows by induction on the arguments, from the last one back.
-/

namespace Disasm.CommandLine

/-! ## How arguments are written -/

namespace Argument

/-- How an argument is written. The name of an option starts with no dash and has no `=`. -/
inductive Writes : Argument → String → Prop
  | file {s : String} (h : s.toList.head? ≠ some '-') : Writes (.file s) s
  | flag {s name : String} (dashes : Nat) (hname : name.toList.head? ≠ some '-')
      (hplain : '=' ∉ name.toList)
      (h : s.toList = List.replicate (dashes + 1) '-' ++ name.toList) : Writes (.flag name) s
  | setting {s name value : String} (dashes : Nat) (hname : name.toList.head? ≠ some '-')
      (hplain : '=' ∉ name.toList)
      (h : s.toList = List.replicate (dashes + 1) '-' ++ name.toList ++ '=' :: value.toList) :
      Writes (.setting name value) s

/-- What an argument says of an option: nothing, that it is selected, or also a value for it. -/
def occurrence? (name : String) : Argument → Option (Option String)
  | file _ => none
  | flag n => if n = name then some none else none
  | setting n value => if n = name then some (some value) else none

/-- The file that an argument names. -/
def file? : Argument → Option String
  | file name => some name
  | flag _ | setting _ _ => none

theorem takeWhile_eq_replicate (c : Char) (cs : List Char) :
    cs.takeWhile (· == c) = List.replicate (cs.takeWhile (· == c)).length c :=
  List.eq_replicate_of_mem fun _ hc => by simpa using List.mem_takeWhile_imp hc

theorem head?_dropWhile_ne (c : Char) (cs : List Char) :
    (cs.dropWhile (· == c)).head? ≠ some c := by
  intro h
  have hnot := List.head?_dropWhile_not (· == c) cs
  rw [h] at hnot
  simp at hnot

theorem head?_takeWhile_ne {c : Char} {cs : List Char} (h : cs.head? ≠ some c)
    (p : Char → Bool) : (cs.takeWhile p).head? ≠ some c := by
  rw [List.head?_takeWhile]
  intro hc
  exact h (Option.eq_some_of_filter_eq_some hc)

theorem writes_ofString (s : String) : (ofString s).Writes s := by
  unfold ofString
  split
  · next cs hs =>
    set body := cs.dropWhile (· == '-') with hbody
    set dashes := (cs.takeWhile (· == '-')).length with hdashes
    have hs' : s.toList = List.replicate (dashes + 1) '-' ++ body := by
      rw [List.replicate_succ, List.cons_append, ← takeWhile_eq_replicate, hbody,
        List.takeWhile_append_dropWhile, hs]
    have hname : (body.takeWhile (· != '=')).head? ≠ some '-' :=
      head?_takeWhile_ne (head?_dropWhile_ne '-' cs) _
    have hplain : '=' ∉ body.takeWhile (· != '=') :=
      fun h => by simpa using List.mem_takeWhile_imp h
    have hparts : body.takeWhile (· != '=') ++ body.dropWhile (· != '=') = body :=
      List.takeWhile_append_dropWhile
    dsimp only
    split
    · next h =>
      rw [h, List.append_nil] at hparts
      refine .flag dashes (by rwa [String.toList_ofList]) (by rwa [String.toList_ofList]) ?_
      rw [String.toList_ofList, hparts, hs']
    · next c value h =>
      -- What stands behind the name starts with what ended it.
      have hc : c = '=' := by
        have hnot := List.head?_dropWhile_not (· != '=') body
        rw [h] at hnot
        simpa using hnot
      subst hc
      refine .setting dashes (by rwa [String.toList_ofList]) (by rwa [String.toList_ofList]) ?_
      rw [String.toList_ofList, String.toList_ofList, List.append_assoc, ← h, hparts, hs']
  · next h =>
    refine .file fun hc => ?_
    cases hs : s.toList with
    | nil =>
      rw [hs] at hc
      cases hc
    | cons c cs =>
      rw [hs] at hc
      cases hc
      exact h cs hs

/-- An argument can be read in one way only. -/
theorem writes_iff {a : Argument} {s : String} : a.Writes s ↔ ofString s = a := by
  refine ⟨fun h => ?_, fun h => h ▸ writes_ofString s⟩
  cases h with
  | file h =>
    unfold ofString
    split
    · next cs hs =>
      rw [hs] at h
      exact absurd rfl h
    · rfl
  | @flag _ name dashes hname hplain h =>
    have hbody := Text.dropWhile_replicate_append hname dashes
    rw [List.replicate_succ, List.cons_append] at h
    simp only [ofString, h, hbody, List.takeWhile_eq_self_iff.2 (Text.bne_of_not_mem hplain),
      List.dropWhile_eq_nil_iff.2 (Text.bne_of_not_mem hplain), String.ofList_toList]
  | @setting _ name value dashes hname hplain h =>
    have hhead : (name.toList ++ '=' :: value.toList).head? ≠ some '-' := by
      rw [List.head?_append]
      cases hn : name.toList.head? with
      | none => simp
      | some c =>
        rw [hn] at hname
        exact hname
    have hbody := Text.dropWhile_replicate_append hhead dashes
    rw [List.append_assoc, List.replicate_succ, List.cons_append] at h
    simp [ofString, h, hbody, Text.takeWhile_cut hplain, Text.dropWhile_cut hplain]

theorem file?_ofString (s : String) :
    (ofString s).file? = if s.toList.head? ≠ some '-' then some s else none := by
  cases hs : ofString s with
  | file name =>
    cases writes_iff.2 hs with
    | file h => rw [if_pos h]; rfl
  | flag name =>
    cases writes_iff.2 hs with
    | flag dashes _ _ h =>
      have hdash : s.toList.head? = some '-' := by rw [h]; rfl
      exact (if_neg (not_not_intro hdash)).symm
  | setting name value =>
    cases writes_iff.2 hs with
    | setting dashes _ _ h =>
      have hdash : s.toList.head? = some '-' := by rw [h]; rfl
      exact (if_neg (not_not_intro hdash)).symm

end Argument

/-! ## Selections -/

namespace Selections

/-- The options stand in the order of their names, each once. -/
def Ascending (s : Selections) : Prop := s.Pairwise fun a b => a.1 < b.1

theorem lookup_cons (n v : String) (s : Selections) (k : String) :
    List.lookup k ((n, v) :: s) = if k = n then some v else s.lookup k := by
  rw [List.lookup_cons]
  by_cases h : k = n
  · simp [h]
  · rw [if_neg h, beq_false_of_ne h]

theorem lookup_put (name value : String) (s : Selections) (k : String) :
    (s.put name value).lookup k = if k = name then some value else s.lookup k := by
  induction s with
  | nil => rw [put, lookup_cons]
  | cons e rest ih =>
    obtain ⟨n, v⟩ := e
    rw [put]
    by_cases hlt : name < n
    · rw [if_pos hlt, lookup_cons]
    · rw [if_neg hlt]
      by_cases heq : name = n
      · rw [if_pos heq, lookup_cons, lookup_cons, ← heq]
        split_ifs <;> rfl
      · rw [if_neg heq, lookup_cons, lookup_cons, ih]
        split_ifs with hn hname
        · exact absurd (hname.symm.trans hn) heq
        · rfl
        · rfl
        · rfl

theorem lookup_select (name : String) (s : Selections) (k : String) :
    (s.select name).lookup k = if k = name then some ((s.lookup k).getD "") else s.lookup k := by
  unfold select
  by_cases hk : k = name
  · subst hk
    rw [if_pos rfl]
    cases h : s.lookup k with
    | some v => exact h
    | none => exact (lookup_put k "" s k).trans (if_pos rfl)
  · rw [if_neg hk]
    cases s.lookup name with
    | some v => rfl
    | none => exact (lookup_put name "" s k).trans (if_neg hk)

theorem mem_put {name value : String} {s : Selections} {e : String × String}
    (h : e ∈ s.put name value) : e = (name, value) ∨ e ∈ s := by
  induction s with
  | nil => exact Or.inl (List.mem_singleton.1 h)
  | cons f rest ih =>
    rw [put] at h
    split_ifs at h
    · exact List.mem_cons.1 h
    · exact (List.mem_cons.1 h).imp_right (List.mem_cons_of_mem f)
    · rcases List.mem_cons.1 h with rfl | h
      · exact Or.inr List.mem_cons_self
      · exact (ih h).imp_right (List.mem_cons_of_mem f)

theorem Ascending.put {s : Selections} (h : s.Ascending) (name value : String) :
    (s.put name value).Ascending := by
  induction s with
  | nil => exact List.pairwise_singleton _ _
  | cons e rest ih =>
    obtain ⟨hfirst, hrest⟩ := List.pairwise_cons.1 h
    rw [Selections.put]
    split_ifs with hlt heq
    · refine List.pairwise_cons.2 ⟨fun f hf => ?_, h⟩
      rcases List.mem_cons.1 hf with rfl | hf
      · exact hlt
      · exact hlt.trans (hfirst f hf)
    · subst heq
      exact List.pairwise_cons.2 ⟨hfirst, hrest⟩
    · refine List.pairwise_cons.2 ⟨fun f hf => ?_, ih hrest⟩
      rcases mem_put hf with rfl | hf
      · exact lt_of_le_of_ne (not_lt.1 hlt) (Ne.symm heq)
      · exact hfirst f hf

theorem Ascending.select {s : Selections} (h : s.Ascending) (name : String) :
    (s.select name).Ascending := by
  unfold Selections.select
  split
  · exact h
  · exact h.put name ""

end Selections

/-! ## A whole command line -/

namespace Arguments

/-- What some arguments say of an option, in order: for each that gives it the value, if any. -/
def occurrences (name : String) (given : List Argument) : List (Option String) :=
  given.filterMap (·.occurrence? name)

/-- The last value among some occurrences of an option; the empty one if there is none. -/
def lastValue (occurrences : List (Option String)) : String :=
  occurrences.reduceOption.getLast?.getD ""

theorem lastValue_append_singleton (occurrences : List (Option String)) (o : Option String) :
    lastValue (occurrences ++ [o]) = o.getD (lastValue occurrences) := by
  rw [lastValue, List.reduceOption_append, List.getLast?_append]
  cases o with
  | none => rfl
  | some value => rfl

theorem occurrences_append_singleton (name : String) (given : List Argument) (a : Argument) :
    occurrences name (given ++ [a]) =
      occurrences name given ++ (a.occurrence? name).toList := by
  rw [occurrences, List.filterMap_append]
  cases h : a.occurrence? name <;> simp [occurrences, h]

/-- What is found for an option after some occurrences of it. -/
def chosen? (occurrences : List (Option String)) : Option String :=
  if occurrences = [] then none else some (lastValue occurrences)

theorem chosen?_append_singleton (occurrences : List (Option String)) (o : Option String) :
    chosen? (occurrences ++ [o]) = some (o.getD ((chosen? occurrences).getD "")) := by
  rw [chosen?, if_neg (List.append_ne_nil_of_right_ne_nil _ (List.cons_ne_nil o [])),
    lastValue_append_singleton]
  cases occurrences with
  | nil => rfl
  | cons _ _ => rfl

/-- An argument that gives option `n` changes what is found for this option only. -/
theorem chosen?_append_given (occurrences : List (Option String)) (n name : String)
    (o : Option String) :
    chosen? (occurrences ++ (if n = name then some o else none).toList) =
      if name = n then some (o.getD ((chosen? occurrences).getD "")) else chosen? occurrences := by
  by_cases h : name = n
  · rw [if_pos h, if_pos h.symm, Option.toList_some, chosen?_append_singleton]
  · rw [if_neg h, if_neg (Ne.symm h), Option.toList_none, List.append_nil]

/-- The arguments of a list taken up, one after the other. -/
def ofGiven (given : List Argument) : Arguments := given.foldl add {}

theorem ofList_eq (args : List String) : ofList args = ofGiven (args.map .ofString) := by
  rw [ofGiven, List.foldl_map]
  rfl

theorem ofGiven_append_singleton (given : List Argument) (a : Argument) :
    ofGiven (given ++ [a]) = (ofGiven given).add a := by
  rw [ofGiven, List.foldl_append]
  rfl

theorem ascending_ofGiven (given : List Argument) : (ofGiven given).selections.Ascending := by
  induction given using List.reverseRecOn with
  | nil => exact List.Pairwise.nil
  | append_singleton given a ih =>
    rw [ofGiven_append_singleton]
    cases a with
    | file name => exact ih
    | flag name => exact ih.select name
    | setting name value => exact ih.put name value

theorem ascending_ofList (args : List String) : (ofList args).selections.Ascending := by
  rw [ofList_eq]
  exact ascending_ofGiven _

theorem lookup_ofGiven (given : List Argument) (name : String) :
    (ofGiven given).selections.lookup name = chosen? (occurrences name given) := by
  induction given using List.reverseRecOn with
  | nil => rfl
  | append_singleton given a ih =>
    rw [ofGiven_append_singleton, occurrences_append_singleton]
    cases a with
    | file _ =>
      rw [Argument.occurrence?, Option.toList_none, List.append_nil]
      exact ih
    | flag n =>
      rw [Argument.occurrence?, chosen?_append_given, ← ih]
      exact Selections.lookup_select n _ name
    | setting n value =>
      rw [Argument.occurrence?, chosen?_append_given, ← ih]
      exact Selections.lookup_put n value _ name

theorem files_ofGiven (given : List Argument) :
    (ofGiven given).files = given.filterMap Argument.file? := by
  induction given using List.reverseRecOn with
  | nil => rfl
  | append_singleton given a ih =>
    rw [ofGiven_append_singleton, List.filterMap_append, ← ih]
    cases a <;> simp [add, Argument.file?]

/-- **The last occurrence of an option decides, if it has a value.** Without one it leaves the
option what it was: the last value given before, or the empty one. What no argument gives is not
selected, and what starts with no dash is a file. -/
theorem selections_ofList (args : List String) :
    (∀ s ∈ args, ∀ a : Argument, a.Writes s ↔ .ofString s = a) ∧
    (ofList args).files = args.filter (fun s => s.toList.head? ≠ some '-') ∧
    (ofList args).selections.Ascending ∧
    ∀ name,
      match (occurrences name (args.map .ofString)).getLast? with
      | none => (ofList args).selections.lookup name = none
      | some (some value) => (ofList args).selections.lookup name = some value
      | some none =>
        (ofList args).selections.lookup name =
          some (lastValue (occurrences name (args.map .ofString))) := by
  rw [ofList_eq]
  refine ⟨fun _ _ _ => Argument.writes_iff, ?_, ascending_ofGiven _, fun name => ?_⟩
  · have hfile : Argument.file? ∘ Argument.ofString =
        Option.guard fun s : String => decide (s.toList.head? ≠ some '-') := by
      funext s
      rw [Function.comp_apply, Argument.file?_ofString, Option.guard]
      simp only [decide_eq_true_eq]
    rw [files_ofGiven, List.filterMap_map, hfile, List.filterMap_eq_filter]
  · rw [lookup_ofGiven]
    cases h : (occurrences name (args.map .ofString)).getLast? with
    | none =>
      rw [List.getLast?_eq_none_iff.1 h]
      rfl
    | some last =>
      obtain ⟨before, hbefore⟩ := List.getLast?_eq_some_iff.1 h
      rw [hbefore]
      cases last with
      | some value => exact chosen?_append_singleton before (some value)
      | none =>
        rw [chosen?, if_neg (List.append_ne_nil_of_right_ne_nil _ (List.cons_ne_nil none []))]

/-- An option that has been given a value keeps it where it is given without one. -/
theorem lookup_flag_after_setting :
    (occurrences "syntax" (["--syntax=att", "--syntax"].map .ofString)).getLast? = some none ∧
      (ofList ["--syntax=att", "--syntax"]).selections.lookup "syntax" = some "att" := by
  decide +kernel

end Arguments

end Disasm.CommandLine
