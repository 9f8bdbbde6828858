import Disasm.CommandLine.Options
import Disasm.Proofs.CommandLine.Selections

/-!
# The order of arguments

Arguments may be mixed in any way, as long as the files stay in order and so do the occurrences of
each option (`Rearranged`).

**Theorem (`ofArguments_rearranged`).** Rearranged arguments come to the same: the same options, or
the same error. The error is about the first unusable selection in the order of names; only where
all can be used and no help is asked for are the files counted, and only then has raw code to come
with its mode.

Selections are determined by what is found in them (`Ascending.ext`), and that by the occurrences
of each option, so that rearranged arguments select the same. Setting one option after the other
amounts to `Options.requested`, where each field depends on the selection of its own option only;
this is the invariant of `setAll`.
-/

namespace Disasm.CommandLine

/-! ## Rearranged arguments -/

/-- The option that an argument gives. A file gives none. -/
def Argument.option? : Argument → Option String
  | file _ => none
  | flag name | setting name _ => some name

/-- Those of some arguments that give an option, or, for `none`, those that name files. -/
def givenBy (option : Option String) (args : List String) : List String :=
  args.filter fun s => (Argument.ofString s).option? = option

/-- The same arguments in another order, in which neither the files nor the occurrences of one
option have changed places among themselves. -/
structure Rearranged (args args' : List String) : Prop where
  perm : args.Perm args'
  order : ∀ option, givenBy option args = givenBy option args'

theorem rearranged_iff {args args' : List String} :
    Rearranged args args' ↔ args.Perm args' ∧ ∀ s ∈ args,
      givenBy (Argument.ofString s).option? args = givenBy (Argument.ofString s).option? args' := by
  refine ⟨fun h => ⟨h.perm, fun s _ => h.order _⟩, fun ⟨hperm, h⟩ => ⟨hperm, fun option => ?_⟩⟩
  by_cases hgiven : ∃ s ∈ args, (Argument.ofString s).option? = option
  · obtain ⟨s, hs, rfl⟩ := hgiven
    exact h s hs
  · -- An option that is not among the arguments is not among them in another order either.
    have hnone : givenBy option args = [] := List.filter_eq_nil_iff.2 fun s hs hoption =>
      hgiven ⟨s, hs, of_decide_eq_true hoption⟩
    have hnone' : (givenBy option args).Perm (givenBy option args') := hperm.filter _
    rw [hnone] at hnone' ⊢
    exact (List.nil_perm.1 hnone').symm

instance (args args' : List String) : Decidable (Rearranged args args') :=
  decidable_of_iff _ rearranged_iff.symm

/-- What is looked for in the arguments of one option is found among these. -/
theorem filterMap_givenBy {β : Type} {f : Argument → Option β} {option : Option String}
    (hf : ∀ a, a.option? ≠ option → f a = none) (args : List String) :
    ((givenBy option args).map .ofString).filterMap f = (args.map .ofString).filterMap f := by
  rw [givenBy, List.filterMap_map, List.filterMap_map, List.filterMap_filter]
  refine List.filterMap_congr fun s _ => ?_
  split_ifs with h
  · rfl
  · exact (hf _ fun heq => h (decide_eq_true heq)).symm

theorem Argument.occurrence?_of_ne {name : String} {a : Argument} (h : a.option? ≠ some name) :
    a.occurrence? name = none := by
  cases a with
  | file _ => rfl
  | flag n => exact if_neg fun heq => h (congrArg some heq)
  | setting n value => exact if_neg fun heq => h (congrArg some heq)

theorem Argument.file?_of_ne {a : Argument} (h : a.option? ≠ none) : a.file? = none := by
  cases a with
  | file _ => exact absurd rfl h
  | flag _ => rfl
  | setting _ _ => rfl

/-! ## Selections as functions -/

namespace Selections

theorem Ascending.mem_iff {s : Selections} (h : s.Ascending) {name value : String} :
    (name, value) ∈ s ↔ s.lookup name = some value := by
  induction s with
  | nil => simp
  | cons e rest ih =>
    obtain ⟨n, v⟩ := e
    obtain ⟨hfirst, hrest⟩ := List.pairwise_cons.1 h
    rw [lookup_cons, List.mem_cons, Prod.mk.injEq, ih hrest]
    by_cases hn : name = n
    · subst hn
      have hnot : List.lookup name rest ≠ some value := fun hlookup =>
        lt_irrefl name (hfirst _ ((ih hrest).2 hlookup))
      simp [hnot, eq_comm]
    · simp [hn]

/-- Two selections with the same values are the same. -/
theorem Ascending.ext {s t : Selections} (hs : s.Ascending) (ht : t.Ascending)
    (h : ∀ name, s.lookup name = t.lookup name) : s = t := by
  have hne : ∀ {a b : String × String}, a.1 < b.1 → a ≠ b := fun hlt heq => hlt.ne (heq ▸ rfl)
  have hperm : s.Perm t := by
    refine (List.perm_ext_iff_of_nodup (hs.imp hne) (ht.imp hne)).2 fun e => ?_
    rw [hs.mem_iff, ht.mem_iff, h]
  exact hperm.eq_of_pairwise (fun a b _ _ hab hba => absurd hba hab.not_gt) hs ht

theorem lookup_append_singleton (s : Selections) (name value k : String) :
    List.lookup k (s ++ [(name, value)]) =
      (s.lookup k).or (if k = name then some value else none) := by
  rw [List.lookup_append, lookup_cons, List.lookup_nil]

end Selections

/-- Rearranged arguments select the same options and name the same files. -/
theorem Rearranged.ofList_eq {args args' : List String} (h : Rearranged args args') :
    Arguments.ofList args' = Arguments.ofList args := by
  have hoccurrences : ∀ name, Arguments.occurrences name (args'.map .ofString) =
      Arguments.occurrences name (args.map .ofString) := fun name => by
    have hf := fun a => @Argument.occurrence?_of_ne name a
    rw [Arguments.occurrences, ← filterMap_givenBy hf, ← h.order, filterMap_givenBy hf,
      ← Arguments.occurrences]
  have hselections : (Arguments.ofGiven (args'.map .ofString)).selections =
      (Arguments.ofGiven (args.map .ofString)).selections :=
    (Arguments.ascending_ofGiven _).ext (Arguments.ascending_ofGiven _) fun name => by
      rw [Arguments.lookup_ofGiven, Arguments.lookup_ofGiven, hoccurrences]
  have hfiles : (Arguments.ofGiven (args'.map .ofString)).files =
      (Arguments.ofGiven (args.map .ofString)).files := by
    have hf := fun a => @Argument.file?_of_ne a
    rw [Arguments.files_ofGiven, ← filterMap_givenBy hf, ← h.order, filterMap_givenBy hf,
      ← Arguments.files_ofGiven]
  rw [Arguments.ofList_eq, Arguments.ofList_eq]
  exact congrArg₂ Arguments.mk hfiles hselections

/-! ## Values of options -/

/-- The values that an option can be used with. -/
def OptionKey.Accepts : OptionKey → String → Prop
  | base, value => (hexadecimal? value).isSome
  | bits, value => decimal? value ∈ [some 16, some 32, some 64]
  | dialect, value => value = "intel" ∨ value = "att"
  | sectionName, value => value ≠ ""
  | threads, value => ∃ n, 0 < n ∧ decimal? value = some n
  | allSections, value | headers, value | help, value | noHex, value | quiet, value | raw, value =>
    value = ""

/-- There is no such option, or not with this value. -/
def Offends (name value : String) : Prop :=
  ∀ key, OptionKey.ofName? name = some key → ¬ key.Accepts value

/-- The error about a selection that cannot be used. -/
def complaintAbout (name value : String) : OptionError :=
  match OptionKey.ofName? name with
  | none => .unknownOption name
  | some _ => .badValue name value

/-- The options that usable selections ask for. Each depends on its own selection and no other. -/
def Options.requested (s : Selections) : Options where
  dialect := if s.lookup "syntax" = some "att" then .att else .intel
  sectionName := (s.lookup "section").getD ".text"
  allSections := (s.lookup "all-sections").isSome
  raw := (s.lookup "raw").isSome
  mode := (s.lookup "bits").bind mode?
  base := UInt64.ofNat (((s.lookup "base").bind hexadecimal?).getD 0)
  threads := ((s.lookup "threads").bind decimal?).getD 1
  hex := (s.lookup "no-hex").isNone
  headers := (s.lookup "headers").isSome
  quiet := (s.lookup "quiet").isSome
  help := (s.lookup "help").isSome || (s.lookup "h").isSome

theorem mode?_eq_none_iff {value : String} :
    mode? value = none ↔ decimal? value ∉ [some 16, some 32, some 64] := by
  unfold mode?
  split <;> simp_all

namespace Options

/-- Whether a value will do does not depend on what has been set before. -/
theorem assign?_eq_none_iff (o : Options) (key : OptionKey) (value : String) :
    o.assign? key value = none ↔ ¬ key.Accepts value := by
  cases key with
  | bits => rw [assign?, Option.map_eq_none_iff, mode?_eq_none_iff, OptionKey.Accepts]
  | dialect =>
    unfold assign? OptionKey.Accepts dialect?
    split_ifs <;> simp_all
  | threads =>
    cases h : decimal? value <;> simp [assign?, OptionKey.Accepts, h, Option.filter_eq_none_iff]
  | _ => simp [assign?, OptionKey.Accepts]

/-- Setting one more option changes what is asked for in its own field only. -/
theorem assign?_requested {s : Selections} {name value : String} {key : OptionKey}
    (hname : OptionKey.ofName? name = some key) (hnew : s.lookup name = none)
    (hvalue : key.Accepts value) :
    (requested s).assign? key value = some (requested (s ++ [(name, value)])) := by
  have hlookup : ∀ k, List.lookup k (s ++ [(name, value)]) =
      if k = name then some value else s.lookup k := fun k => by
    rw [Selections.lookup_append_singleton]
    split_ifs with hk
    · rw [hk, hnew, Option.none_or]
    · exact Option.or_none
  have hmem : (name, key) ∈ OptionKey.names := by
    obtain ⟨before, after, heq, -⟩ := List.lookup_eq_some_iff.1 hname
    rw [heq]
    simp
  cases key with
  | base =>
    obtain rfl : name = "base" := by simpa [OptionKey.names] using hmem
    obtain ⟨n, hn⟩ := Option.isSome_iff_exists.1 hvalue
    simp [assign?, requested, hlookup, hn]
  | bits =>
    obtain rfl : name = "bits" := by simpa [OptionKey.names] using hmem
    obtain ⟨m, hm⟩ := Option.ne_none_iff_exists'.1 (mt mode?_eq_none_iff.1 (not_not_intro hvalue))
    simp [assign?, requested, hlookup, hm]
  | dialect =>
    obtain rfl : name = "syntax" := by simpa [OptionKey.names] using hmem
    rcases hvalue with rfl | rfl <;> simp [assign?, requested, hlookup, dialect?]
  | sectionName =>
    obtain rfl : name = "section" := by simpa [OptionKey.names] using hmem
    have hne : value ≠ "" := hvalue
    simp [assign?, requested, hlookup, hne]
  | threads =>
    obtain rfl : name = "threads" := by simpa [OptionKey.names] using hmem
    obtain ⟨n, hpos, hn⟩ := hvalue
    simp [assign?, requested, hlookup, hn, hpos]
  | help =>
    obtain rfl : value = "" := hvalue
    obtain rfl | rfl : name = "h" ∨ name = "help" := by simpa [OptionKey.names] using hmem
    · simp [assign?, requested, hlookup]
    · simp [assign?, requested, hlookup]
  | _ =>
    obtain rfl : value = "" := hvalue
    simp only [OptionKey.names, List.mem_cons, List.not_mem_nil, Prod.mk.injEq, reduceCtorEq,
      and_false, or_false, false_or, and_true] at hmem
    subst hmem
    simp [assign?, requested, hlookup]

theorem setAll_append (o : Options) (s t : Selections) :
    o.setAll (s ++ t) =
      match o.setAll s with
      | .ok o => o.setAll t
      | .error e => .error e := by
  induction s generalizing o with
  | nil => rfl
  | cons e rest ih =>
    obtain ⟨name, value⟩ := e
    rw [List.cons_append, setAll, setAll]
    cases o.set name value with
    | ok o => exact ih o
    | error e => rfl

theorem set_of_offends {o : Options} {name value : String} (h : Offends name value) :
    o.set name value = .error (complaintAbout name value) := by
  unfold set complaintAbout
  cases hname : OptionKey.ofName? name with
  | none => rfl
  | some key => simp only [(assign?_eq_none_iff o key value).2 (h key hname)]

theorem set_requested {s : Selections} {name value : String} (h : ¬ Offends name value)
    (hnew : s.lookup name = none) :
    (requested s).set name value = .ok (requested (s ++ [(name, value)])) := by
  obtain ⟨key, hname, hvalue⟩ : ∃ key, OptionKey.ofName? name = some key ∧ key.Accepts value := by
    simpa only [Offends, not_forall, not_not, exists_prop] using h
  simp only [set, hname, assign?_requested hname hnew hvalue]

/-- Usable selections, set one after the other, amount to what they ask for. -/
theorem setAll_requested {s : Selections} (hs : s.Ascending)
    (h : ∀ e ∈ s, ¬ Offends e.1 e.2) : ({} : Options).setAll s = .ok (requested s) := by
  induction s using List.reverseRecOn with
  | nil => rfl
  | append_singleton s e ih =>
    obtain ⟨name, value⟩ := e
    obtain ⟨hascending, -, hbefore⟩ := List.pairwise_append.1 hs
    have hnew : s.lookup name = none := List.lookup_eq_none_iff.2 fun e he => by
      simpa using (hbefore e he _ (List.mem_singleton_self _)).ne'
    have hset := set_requested (h (name, value) (by simp)) hnew
    rw [setAll_append, ih hascending fun e he => h e (List.mem_append_left _ he)]
    simp only [setAll, hset]

end Options

/-! ## What is complained about -/

namespace Selections

/-- Every selection can be used. -/
def Usable (s : Selections) : Prop :=
  ∀ name value, s.lookup name = some value → ¬ Offends name value

/-- Of the selections that cannot be used this one comes first in the order of names. -/
structure FirstOffence (s : Selections) (name value : String) : Prop where
  selected : s.lookup name = some value
  offends : Offends name value
  first : ∀ n v, s.lookup n = some v → Offends n v → name ≤ n

theorem usable_or_firstOffence {s : Selections} (hs : s.Ascending) :
    s.Usable ∨ ∃ name value, s.FirstOffence name value := by
  classical
  cases hfind : s.find? (fun e => decide (Offends e.1 e.2)) with
  | none =>
    refine Or.inl fun name value hlookup hoffends => ?_
    have hnone := List.find?_eq_none.1 hfind _ (hs.mem_iff.2 hlookup)
    exact hnone (decide_eq_true hoffends)
  | some e =>
    obtain ⟨name, value⟩ := e
    obtain ⟨hoffends, before, after, rfl, hbefore⟩ := List.find?_eq_some_iff_append.1 hfind
    refine Or.inr ⟨name, value, hs.mem_iff.1 (by simp), of_decide_eq_true hoffends, ?_⟩
    intro n v hlookup hn
    obtain ⟨-, hafter, -⟩ := List.pairwise_append.1 hs
    rcases List.mem_append.1 (hs.mem_iff.2 hlookup) with hmem | hmem
    · exact absurd (decide_eq_true hn) (by simpa using hbefore _ hmem)
    · rcases List.mem_cons.1 hmem with heq | hmem
      · exact le_of_eq (congrArg Prod.fst heq).symm
      · exact (List.rel_of_pairwise_cons hafter hmem).le

/-- The first selection that cannot be used ends the setting of options. -/
theorem FirstOffence.setAll_eq {s : Selections} (hs : s.Ascending) {name value : String}
    (h : s.FirstOffence name value) : ({} : Options).setAll s = Options.set {} name value := by
  obtain ⟨before, after, rfl⟩ := List.append_of_mem (hs.mem_iff.2 h.selected)
  obtain ⟨hascending, -, hbefore⟩ := List.pairwise_append.1 hs
  have husable : ∀ e ∈ before, ¬ Offends e.1 e.2 := fun e he hoffends =>
    (hbefore e he _ List.mem_cons_self).not_ge
      (h.first e.1 e.2 (hs.mem_iff.1 (List.mem_append_left _ he)) hoffends)
  rw [Options.setAll_append, Options.setAll_requested hascending husable]
  simp only [Options.setAll, Options.set_of_offends h.offends]

end Selections

/-- What is wrong with some arguments, and the error that says so. -/
inductive Complaint (a : Arguments) : OptionFault → OptionError → Prop
  | unknownOption {name value : String} (first : a.selections.FirstOffence name value)
      (hname : OptionKey.ofName? name = none) : Complaint a .unknownOption (.unknownOption name)
  | badValue {name value : String} {key : OptionKey}
      (first : a.selections.FirstOffence name value)
      (hname : OptionKey.ofName? name = some key) : Complaint a .badValue (.badValue name value)
  | fileCount (usable : a.selections.Usable) (hhelp : (Options.requested a.selections).help = false)
      (hcount : a.files.length ≠ 1) : Complaint a .missingFile (.wrongFileCount a.files.length)
  | rawWithoutBits (usable : a.selections.Usable)
      (hhelp : (Options.requested a.selections).help = false) (hcount : a.files.length = 1)
      (hraw : (Options.requested a.selections).raw)
      (hmode : (Options.requested a.selections).mode = none) : Complaint a .badValue .rawWithoutBits

/-- The options that some arguments come to, where nothing is wrong with them. -/
inductive Granted (a : Arguments) : Options → Prop
  | help (usable : a.selections.Usable) (hhelp : (Options.requested a.selections).help) :
      Granted a (Options.requested a.selections)
  | file {file : String} (usable : a.selections.Usable)
      (hhelp : (Options.requested a.selections).help = false) (hfile : a.files = [file])
      (hmode : (Options.requested a.selections).raw →
        (Options.requested a.selections).mode ≠ none) :
      Granted a { Options.requested a.selections with fileName := file }

namespace Options

variable {a : Arguments}

theorem setAll_of_usable (ha : a.selections.Ascending) (h : a.selections.Usable) :
    ({} : Options).setAll a.selections = .ok (requested a.selections) :=
  setAll_requested ha fun _ he => h _ _ (ha.mem_iff.1 he)

theorem ofArguments_of_firstOffence (ha : a.selections.Ascending) {name value : String}
    (h : a.selections.FirstOffence name value) :
    ofArguments a = .error (complaintAbout name value) := by
  simp only [ofArguments, h.setAll_eq ha, set_of_offends h.offends]

theorem ofArguments_of_complaint (ha : a.selections.Ascending) {f : OptionFault} {e : OptionError}
    (h : Complaint a f e) : ofArguments a = .error e ∧ e.fault = f := by
  cases h with
  | unknownOption first hname =>
    refine ⟨?_, rfl⟩
    rw [ofArguments_of_firstOffence ha first, complaintAbout, hname]
  | badValue first hname =>
    refine ⟨?_, rfl⟩
    rw [ofArguments_of_firstOffence ha first, complaintAbout, hname]
  | fileCount usable hhelp hcount =>
    refine ⟨?_, rfl⟩
    simp only [ofArguments, setAll_of_usable ha usable, hhelp, Bool.false_eq_true, if_false]
    split
    · next heq => exact absurd (congrArg List.length heq) hcount
    · rfl
  | rawWithoutBits usable hhelp hcount hraw hmode =>
    obtain ⟨file, hfile⟩ := List.length_eq_one_iff.1 hcount
    refine ⟨?_, rfl⟩
    simp [ofArguments, setAll_of_usable ha usable, hhelp, hfile, hraw, hmode]

theorem ofArguments_of_granted (ha : a.selections.Ascending) {o : Options} (h : Granted a o) :
    ofArguments a = .ok o := by
  cases h with
  | help usable hhelp => simp [ofArguments, setAll_of_usable ha usable, hhelp]
  | file usable hhelp hfile hmode =>
    have hraw : ¬ ((requested a.selections).raw ∧ (requested a.selections).mode = none) :=
      not_and.2 hmode
    simp only [ofArguments, setAll_of_usable ha usable, hhelp, hfile, hraw, Bool.false_eq_true,
      if_false]

/-- Either something is wrong with arguments, or they come to some options. -/
theorem complaint_or_granted (ha : a.selections.Ascending) :
    (∃ f e, Complaint a f e) ∨ ∃ o, Granted a o := by
  rcases Selections.usable_or_firstOffence ha with usable | ⟨name, value, first⟩
  · cases hhelp : (requested a.selections).help with
    | true => exact Or.inr ⟨_, .help usable hhelp⟩
    | false =>
      by_cases hcount : a.files.length = 1
      · by_cases hraw : (requested a.selections).raw ∧ (requested a.selections).mode = none
        · exact Or.inl ⟨_, _, .rawWithoutBits usable hhelp hcount hraw.1 hraw.2⟩
        · obtain ⟨file, hfile⟩ := List.length_eq_one_iff.1 hcount
          exact Or.inr ⟨_, .file usable hhelp hfile (not_and.1 hraw)⟩
      · exact Or.inl ⟨_, _, .fileCount usable hhelp hcount⟩
  · cases hname : OptionKey.ofName? name with
    | none => exact Or.inl ⟨_, _, .unknownOption first hname⟩
    | some key => exact Or.inl ⟨_, _, .badValue first hname⟩

theorem ofArguments_eq_error_iff (ha : a.selections.Ascending) {e : OptionError} :
    ofArguments a = .error e ↔ Complaint a e.fault e := by
  refine ⟨fun h => ?_, fun h => (ofArguments_of_complaint ha h).1⟩
  rcases complaint_or_granted ha with ⟨f, e', h'⟩ | ⟨o, h'⟩
  · obtain ⟨heq, rfl⟩ := ofArguments_of_complaint ha h'
    rw [h] at heq
    cases heq
    exact h'
  · rw [ofArguments_of_granted ha h'] at h
    cases h

theorem ofArguments_eq_ok_iff (ha : a.selections.Ascending) {o : Options} :
    ofArguments a = .ok o ↔ Granted a o := by
  refine ⟨fun h => ?_, ofArguments_of_granted ha⟩
  rcases complaint_or_granted ha with ⟨f, e, h'⟩ | ⟨o', h'⟩
  · rw [(ofArguments_of_complaint ha h').1] at h
    cases h
  · rw [ofArguments_of_granted ha h'] at h
    cases h
    exact h'

/-- **The order of arguments does not matter**, as long as the files stay in order and so do the
occurrences of each option: the options are the same, or the error is. It is an error about the
first selection that cannot be used, in the order of names; where all can be used and no help is
asked for, about the number of files; and only then about raw code without its mode. -/
theorem ofArguments_rearranged {args args' : List String} (h : Rearranged args args') :
    ofArguments (.ofList args') = ofArguments (.ofList args) ∧
    (∀ e, ofArguments (.ofList args) = .error e ↔ Complaint (.ofList args) e.fault e) ∧
    ∀ o, ofArguments (.ofList args) = .ok o ↔ Granted (.ofList args) o := by
  have ha := Arguments.ascending_ofList args
  exact ⟨congrArg ofArguments h.ofList_eq, fun _ => ofArguments_eq_error_iff ha,
    fun _ => ofArguments_eq_ok_iff ha⟩

/-- Of two bad values and an unknown option, given before and after a file, the value of `bits` is
complained about. -/
theorem ofArguments_rearranged_bits :
    Rearranged ["--zoom", "--bits=64", "a.exe", "--syntax=masm", "--bits=8"]
      ["--syntax=masm", "a.exe", "--bits=64", "--bits=8", "--zoom"] ∧
    ofArguments (.ofList ["--syntax=masm", "a.exe", "--bits=64", "--bits=8", "--zoom"]) =
      .error (.badValue "bits" "8") ∧
    Complaint (.ofList ["--zoom", "--bits=64", "a.exe", "--syntax=masm", "--bits=8"]) .badValue
      (.badValue "bits" "8") := by
  have h : Rearranged ["--zoom", "--bits=64", "a.exe", "--syntax=masm", "--bits=8"]
      ["--syntax=masm", "a.exe", "--bits=64", "--bits=8", "--zoom"] := by decide +kernel
  have herror : ofArguments
      (.ofList ["--syntax=masm", "a.exe", "--bits=64", "--bits=8", "--zoom"]) =
        .error (.badValue "bits" "8") := by decide +kernel
  obtain ⟨hsame, hcomplaint, -⟩ := ofArguments_rearranged h
  exact ⟨h, herror, (hcomplaint _).1 (hsame.symm.trans herror)⟩

end Options

end Disasm.CommandLine
