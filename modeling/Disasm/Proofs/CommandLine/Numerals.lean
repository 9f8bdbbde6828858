import Disasm.Proofs.CommandLine.Rearrangement
import Disasm.Proofs.Text.Constants
import Disasm.Text.ATT

/-!
# Options with numbers for values

A numeral is one digit or more of its base, and its value is that of the digits by their places; a
hexadecimal one may have `0x` or `0X` before it.

* `Numeral`, `MarkedNumeral` — which texts are numerals, and of which number.
* `NumericOption.Sets` — what a value of an option changes. There is nothing that any other text
  changes.

**Theorem (`numericOptions_accept`).** An option takes the numerals of its grammar and no other
text, among whatever other arguments it is given, and any other is complained about. An address
that is printed in AT&T syntax can be given as it stands.

The reader of numerals is compared with the grammar once, for all bases (`numeral?_eq_some_iff`).
What one value does to a command line follows from what any other would: only the selection of its
option is changed (`Sets.eq_requested`).
-/

namespace Disasm.CommandLine

open Hex

/-! ## Numerals -/

/-- A digit of a base, small or capital. -/
def DigitOf (base : Nat) (c : Char) (d : Nat) : Prop :=
  d < base ∧ (c = lowerDigit d ∨ c = upperDigit d)

/-- One digit or more, and the number that they give by their places. -/
def Numeral (base : Nat) (cs : List Char) (n : Nat) : Prop :=
  ∃ ds, ds ≠ [] ∧ List.Forall₂ (DigitOf base) cs ds ∧ n = Nat.ofDigits base ds.reverse

/-- A hexadecimal numeral by itself or behind its mark. -/
def MarkedNumeral (cs : List Char) (n : Nat) : Prop :=
  Numeral 16 cs n ∨ ∃ x ∈ ['x', 'X'], ∃ rest, cs = '0' :: x :: rest ∧ Numeral 16 rest n

section Numerals

variable {base n d : Nat} {c : Char} {cs : List Char}

theorem digit?_eq_some_iff_of_le (h : base ≤ 16) :
    digit? base c = some d ↔ digit? 16 c = some d ∧ d < base := by
  unfold digit?
  dsimp only
  rw [Option.filter_eq_some_iff, Option.filter_eq_some_iff]
  constructor
  · rintro ⟨hvalue, hd⟩
    have hlt := of_decide_eq_true hd
    exact ⟨⟨hvalue, decide_eq_true (hlt.trans_le h)⟩, hlt⟩
  · rintro ⟨⟨hvalue, -⟩, hd⟩
    exact ⟨hvalue, decide_eq_true hd⟩

theorem toNat_lt_of_digit? (h : digit? 16 c = some d) : c.toNat < 128 := by
  have hz : ∀ e : Char, c ≤ e → e.toNat < 128 → c.toNat < 128 := fun e he hlt =>
    lt_of_le_of_lt he hlt
  unfold digit? at h
  dsimp only at h
  split_ifs at h with hdigit hsmall hcapital
  · exact hz '9' hdigit.2 (by decide)
  · exact hz 'z' hsmall.2 (by decide)
  · exact hz 'Z' hcapital.2 (by decide)
  · cases h

/-- Digits are read as what they are. -/
theorem digit?_eq_some_iff (h : base ≤ 16) : digit? base c = some d ↔ DigitOf base c d := by
  have htable : ∀ n < 128, ∀ d < 16, digit? 16 (Char.ofNat n) = some d →
      Char.ofNat n = lowerDigit d ∨ Char.ofNat n = upperDigit d := by decide +kernel
  rw [digit?_eq_some_iff_of_le h, DigitOf]
  constructor
  · rintro ⟨hread, hd⟩
    have hwritten := htable c.toNat (toNat_lt_of_digit? hread) d (hd.trans_le h)
    rw [Char.ofNat_toNat] at hwritten
    exact ⟨hd, hwritten hread⟩
  · rintro ⟨hd, rfl | rfl⟩
    · exact ⟨digit?_lowerDigit d (hd.trans_le h), hd⟩
    · exact ⟨digit?_upperDigit d (hd.trans_le h), hd⟩

theorem mapM_eq_some_iff {α β : Type} {f : α → Option β} {as : List α} {bs : List β} :
    as.mapM f = some bs ↔ List.Forall₂ (fun a b => f a = some b) as bs := by
  induction as generalizing bs with
  | nil => simp [eq_comm]
  | cons a as ih =>
    rw [List.mapM_cons]
    constructor
    · intro h
      obtain ⟨b, hb, h⟩ := Option.bind_eq_some_iff.1 h
      obtain ⟨bs', hbs, h⟩ := Option.bind_eq_some_iff.1 h
      cases h
      exact .cons hb (ih.1 hbs)
    · rintro (_ | ⟨hb, hbs⟩)
      rw [hb, ih.2 hbs]
      rfl

/-- The digits of a number count by their places. -/
theorem ofDigits_eq (base : Nat) (ds : List Nat) :
    ofDigits base ds = Nat.ofDigits base ds.reverse := by
  induction ds using List.reverseRecOn with
  | nil => rfl
  | append_singleton ds d ih =>
    rw [ofDigits_append_singleton, ih, List.reverse_append, List.reverse_singleton,
      List.singleton_append, Nat.ofDigits_cons, Nat.add_comm]

/-- Numerals are read, and nothing else is. -/
theorem numeral?_eq_some_iff (h : base ≤ 16) : numeral? base cs = some n ↔ Numeral base cs n := by
  have hdigits : ∀ ds, cs.mapM (digit? base) = some ds ↔ List.Forall₂ (DigitOf base) cs ds := by
    intro ds
    simp only [mapM_eq_some_iff, digit?_eq_some_iff h]
  constructor
  · intro hread
    rw [numeral?] at hread
    split_ifs at hread with hne
    obtain ⟨ds, hds, rfl⟩ := Option.map_eq_some_iff.1 hread
    refine ⟨ds, ?_, (hdigits ds).1 hds, ofDigits_eq base ds⟩
    rintro rfl
    exact hne (List.forall₂_nil_right_iff.1 ((hdigits []).1 hds))
  · rintro ⟨ds, hne, hds, rfl⟩
    have hcs : cs ≠ [] := by
      rintro rfl
      exact hne (List.forall₂_nil_left_iff.1 hds)
    rw [numeral?, if_neg hcs, (hdigits ds).2 hds, Option.map_some, ofDigits_eq]

/-- A mark is no part of a numeral. -/
theorem not_numeral_marked {x : Char} (hx : x ∈ ['x', 'X']) (rest : List Char) :
    ¬ Numeral 16 ('0' :: x :: rest) n := by
  rintro ⟨ds, -, hds, -⟩
  obtain ⟨-, _, -, hds, -⟩ := List.forall₂_cons_left_iff.1 hds
  obtain ⟨e, _, he, -, -⟩ := List.forall₂_cons_left_iff.1 hds
  have hread := (digit?_eq_some_iff le_rfl).2 he
  fin_cases hx <;> cases hread

theorem not_numeral_nil : ¬ Numeral base [] n := by
  rintro ⟨ds, hne, hds, -⟩
  exact hne (List.forall₂_nil_left_iff.1 hds)

/-- A mark is left out where there is one. -/
theorem numeral?_dropMark_eq_some_iff :
    numeral? 16 (dropMark cs) = some n ↔ MarkedNumeral cs n := by
  have hmarked : ∀ x ∈ ['x', 'X'], ∀ rest,
      MarkedNumeral ('0' :: x :: rest) n ↔ Numeral 16 rest n := by
    intro x hx rest
    constructor
    · rintro (h | ⟨y, -, rest', heq, h⟩)
      · exact absurd h (not_numeral_marked hx rest)
      · cases heq
        exact h
    · intro h
      exact Or.inr ⟨x, hx, rest, rfl, h⟩
  rw [numeral?_eq_some_iff le_rfl]
  unfold dropMark
  split
  · rw [hmarked 'x' (by simp)]
  · rw [hmarked 'X' (by simp)]
  · next hx hX =>
    constructor
    · exact Or.inl
    · rintro (h | ⟨x, hmem, rest, rfl, h⟩)
      · exact h
      · -- With digits behind it the mark would have been left out.
        cases rest with
        | nil => exact absurd h not_numeral_nil
        | cons c cs =>
          fin_cases hmem
          · exact absurd rfl (hx c cs)
          · exact absurd rfl (hX c cs)

variable {s : String}

theorem decimal?_eq_some_iff : decimal? s = some n ↔ Numeral 10 s.toList n ∧ n < 2 ^ 64 := by
  rw [decimal?, Option.filter_eq_some_iff, numeral?_eq_some_iff (by decide), decide_eq_true_eq]
  rfl

theorem hexadecimal?_eq_some_iff :
    hexadecimal? s = some n ↔ MarkedNumeral s.toList n ∧ n < 2 ^ 64 := by
  rw [hexadecimal?, Option.filter_eq_some_iff, numeral?_dropMark_eq_some_iff, decide_eq_true_eq]
  rfl

/-- What is printed after a mark is read with it. -/
theorem hexadecimal?_lower (h : n < 2 ^ 64) : hexadecimal? (lower n) = some n := by
  refine hexadecimal?_eq_some_iff.2 ⟨Or.inr ⟨'x', by simp, (plain n).toList, ?_, ?_⟩, h⟩
  · simp [lower, String.toList_append]
  · exact (numeral?_eq_some_iff le_rfl).1 (numeral?_plain n)

theorem mode?_eq_some_iff {m : Mode} : mode? s = some m ↔ Numeral 10 s.toList m.bits := by
  have hbits : m.bits < 2 ^ 64 := by cases m <;> decide
  have hmode : mode? s = some m ↔ decimal? s = some m.bits := by
    unfold mode?
    split <;> cases m <;> simp_all [Mode.bits]
  rw [hmode, decimal?_eq_some_iff, and_iff_left hbits]

end Numerals

/-! ## One option -/

/-- The options that have a number for a value. -/
inductive NumericOption
  | base | bits | threads
deriving DecidableEq

namespace NumericOption

def name : NumericOption → String
  | base => "base"
  | bits => "bits"
  | threads => "threads"

def key : NumericOption → OptionKey
  | base => .base
  | bits => .bits
  | threads => .threads

/-- The option as an argument with a value. -/
def argument (k : NumericOption) (value : String) : String := "--" ++ k.name ++ "=" ++ value

/-- A value that an option takes, and what it changes. -/
inductive Sets : NumericOption → String → Options → Options → Prop
  | base {s : String} {n : Nat} {o : Options} (h : MarkedNumeral s.toList n) (hn : n < 2 ^ 64) :
      Sets base s o { o with base := UInt64.ofNat n }
  | bits {s : String} {m : Mode} {o : Options} (h : Numeral 10 s.toList m.bits) :
      Sets bits s o { o with mode := some m }
  | threads {s : String} {n : Nat} {o : Options} (h : Numeral 10 s.toList n) (hpos : 1 ≤ n)
      (hn : n < 2 ^ 64) : Sets threads s o { o with threads := n }

variable {k : NumericOption} {s value : String} {o o' : Options}

theorem ofName?_name (k : NumericOption) : OptionKey.ofName? k.name = some k.key := by
  cases k <;> decide +kernel

theorem assign?_eq_some_iff : o.assign? k.key s = some o' ↔ k.Sets s o o' := by
  cases k with
  | base =>
    constructor
    · intro h
      obtain ⟨n, hn, rfl⟩ := Option.map_eq_some_iff.1 h
      obtain ⟨hnumeral, hlt⟩ := hexadecimal?_eq_some_iff.1 hn
      exact .base hnumeral hlt
    · rintro (⟨hnumeral, hlt⟩ | _ | _)
      exact Option.map_eq_some_iff.2 ⟨_, hexadecimal?_eq_some_iff.2 ⟨hnumeral, hlt⟩, rfl⟩
  | bits =>
    constructor
    · intro h
      obtain ⟨m, hm, rfl⟩ := Option.map_eq_some_iff.1 h
      exact .bits (mode?_eq_some_iff.1 hm)
    · rintro (_ | ⟨hnumeral⟩ | _)
      exact Option.map_eq_some_iff.2 ⟨_, mode?_eq_some_iff.2 hnumeral, rfl⟩
  | threads =>
    constructor
    · intro h
      obtain ⟨n, hn, rfl⟩ := Option.map_eq_some_iff.1 h
      obtain ⟨hread, hpos⟩ := Option.filter_eq_some_iff.1 hn
      obtain ⟨hnumeral, hlt⟩ := decimal?_eq_some_iff.1 hread
      exact .threads hnumeral (of_decide_eq_true hpos) hlt
    · rintro (_ | _ | ⟨hnumeral, hpos, hlt⟩)
      refine Option.map_eq_some_iff.2 ⟨_, Option.filter_eq_some_iff.2 ⟨?_, ?_⟩, rfl⟩
      · exact decimal?_eq_some_iff.2 ⟨hnumeral, hlt⟩
      · exact decide_eq_true hpos

/-- An option takes the values that change something. -/
theorem accepts_iff (o : Options) : k.key.Accepts s ↔ ∃ o', k.Sets s o o' := by
  rw [← not_iff_not, ← Options.assign?_eq_none_iff o, Option.eq_none_iff_forall_ne_some, not_exists]
  simp only [ne_eq, assign?_eq_some_iff]

theorem set_eq_ok_iff : o.set k.name s = .ok o' ↔ k.Sets s o o' := by
  simp only [← assign?_eq_some_iff, Options.set, ofName?_name]
  cases o.assign? k.key s <;> simp

theorem set_eq_error_iff {e : OptionError} :
    o.set k.name s = .error e ↔ (∀ o', ¬ k.Sets s o o') ∧ e = .badValue k.name s := by
  simp only [← assign?_eq_some_iff, Options.set, ofName?_name]
  cases o.assign? k.key s <;> simp [eq_comm]

/-- What a value changes is one thing. -/
theorem Sets.unique {o₁ o₂ : Options} (h₁ : k.Sets s o o₁) (h₂ : k.Sets s o o₂) : o₁ = o₂ := by
  have hset := set_eq_ok_iff.2 h₁
  rw [set_eq_ok_iff.2 h₂] at hset
  cases hset
  rfl

/-! ## A whole command line -/

theorem ofString_argument (k : NumericOption) (value : String) :
    Argument.ofString (k.argument value) = .setting k.name value := by
  refine Argument.writes_iff.1 (.setting 1 ?_ ?_ ?_)
  · cases k <;> decide
  · cases k <;> decide
  · simp [argument, String.toList_append]

theorem ofList_argument (args : List String) (k : NumericOption) (value : String) :
    Arguments.ofList (args ++ [k.argument value]) =
      { files := (Arguments.ofList args).files
        selections := (Arguments.ofList args).selections.put k.name value } := by
  rw [Arguments.ofList_eq, List.map_append, List.map_singleton, ofString_argument,
    Arguments.ofGiven_append_singleton, ← Arguments.ofList_eq]
  rfl

variable {sel : Selections}

/-- Another value changes what is asked for as the option does. -/
theorem Sets.eq_requested {fileName : String}
    (h : k.Sets s { Options.requested (sel.put k.name value) with fileName } o') :
    o' = { Options.requested (sel.put k.name s) with fileName } := by
  cases h with
  | base h hn =>
    have hread := hexadecimal?_eq_some_iff.2 ⟨h, hn⟩
    simp [Options.requested, Selections.lookup_put, name, hread]
  | bits h =>
    have hread := mode?_eq_some_iff.2 h
    simp [Options.requested, Selections.lookup_put, name, hread]
  | threads h hpos hn =>
    have hread := decimal?_eq_some_iff.2 ⟨h, hn⟩
    simp [Options.requested, Selections.lookup_put, name, hread]

/-- A value that is taken leaves the other selections as usable as they were. -/
theorem usable_put (hs : k.key.Accepts s) (h : (sel.put k.name value).Usable) :
    (sel.put k.name s).Usable := by
  intro n v hlookup
  rw [Selections.lookup_put] at hlookup
  split_ifs at hlookup with hn
  · cases hlookup
    subst hn
    exact fun hoffends => hoffends k.key (ofName?_name k) hs
  · refine h n v ?_
    rwa [Selections.lookup_put, if_neg hn]

/-- A value that is not taken is the only offence where another would do. -/
theorem firstOffence_put (hs : ¬ k.key.Accepts s) (h : (sel.put k.name value).Usable) :
    (sel.put k.name s).FirstOffence k.name s where
  selected := by rw [Selections.lookup_put, if_pos rfl]
  offends := fun key hkey => by
    rw [ofName?_name] at hkey
    cases hkey
    exact hs
  first n v hlookup hoffends := by
    by_cases hn : n = k.name
    · exact hn.ge
    · rw [Selections.lookup_put, if_neg hn] at hlookup
      exact absurd hoffends (h n v (by rwa [Selections.lookup_put, if_neg hn]))

theorem help_put (k : NumericOption) (sel : Selections) (s value : String) :
    (Options.requested (sel.put k.name s)).help =
      (Options.requested (sel.put k.name value)).help := by
  cases k <;> simp [Options.requested, Selections.lookup_put, name]

theorem raw_put (k : NumericOption) (sel : Selections) (s value : String) :
    (Options.requested (sel.put k.name s)).raw =
      (Options.requested (sel.put k.name value)).raw := by
  cases k <;> simp [Options.requested, Selections.lookup_put, name]

/-- An option takes no mode away. -/
theorem Sets.mode_ne_none (h : k.Sets s o o') (hmode : o.mode ≠ none) : o'.mode ≠ none := by
  cases h with
  | base => exact hmode
  | bits => exact Option.some_ne_none _
  | threads => exact hmode

/-- In place of a value that will do another one that is taken will do as well. -/
theorem Sets.granted {files : List String}
    (h : Granted ⟨files, sel.put k.name value⟩ o) (hs : k.Sets s o o') :
    Granted ⟨files, sel.put k.name s⟩ o' := by
  have haccepts : k.key.Accepts s := (accepts_iff o).2 ⟨o', hs⟩
  cases h with
  | help usable hhelp =>
    obtain rfl := hs.eq_requested
    exact .help (usable_put haccepts usable) ((help_put k sel s value).trans hhelp)
  | file usable hhelp hfile hmode =>
    have hkept := hs.mode_ne_none
    obtain rfl := hs.eq_requested
    refine .file (usable_put haccepts usable) ((help_put k sel s value).trans hhelp) hfile ?_
    intro hraw
    exact hkept (hmode ((raw_put k sel s value).symm.trans hraw))

theorem usable_of_granted {a : Arguments} (h : Granted a o) : a.selections.Usable := by
  cases h with
  | help usable => exact usable
  | file usable => exact usable

section Arguments

variable {args : List String}
  (h : Options.ofArguments (.ofList (args ++ [k.argument value])) = .ok o)

include h

theorem granted_of_ofArguments_eq :
    Granted ⟨(Arguments.ofList args).files,
      (Arguments.ofList args).selections.put k.name value⟩ o := by
  rw [← ofList_argument]
  exact (Options.ofArguments_eq_ok_iff (Arguments.ascending_ofList _)).1 h

/-- Another value that is taken makes its change. -/
theorem ofArguments_of_sets (hs : k.Sets s o o') :
    Options.ofArguments (.ofList (args ++ [k.argument s])) = .ok o' := by
  refine Options.ofArguments_of_granted (Arguments.ascending_ofList _) ?_
  rw [ofList_argument]
  exact hs.granted (granted_of_ofArguments_eq h)

/-- Another value that is not taken is what is complained about. -/
theorem ofArguments_of_not_sets (hs : ∀ o', ¬ k.Sets s o o') :
    Options.ofArguments (.ofList (args ++ [k.argument s])) = .error (.badValue k.name s) := by
  have hrefused : ¬ k.key.Accepts s := mt (accepts_iff o).1 (not_exists.2 hs)
  have husable := usable_of_granted (granted_of_ofArguments_eq h)
  have hascending := Arguments.ascending_ofList (args ++ [k.argument s])
  rw [ofList_argument] at hascending ⊢
  rw [Options.ofArguments_of_firstOffence hascending (firstOffence_put hrefused husable),
    complaintAbout, ofName?_name]

end Arguments

/-- The base is set to an address as it is printed. -/
theorem set_base_lower (address : UInt64) (o : Options) :
    o.set "base" (lower address.toNat) = .ok { o with base := address } := by
  have hread := hexadecimal?_lower address.toNat_lt
  have hsets : base.Sets (lower address.toNat) o { o with base := UInt64.ofNat address.toNat } :=
    .base (hexadecimal?_eq_some_iff.1 hread).1 address.toNat_lt
  rw [UInt64.ofNat_toNat] at hsets
  exact set_eq_ok_iff.2 hsets

/-- **An option with a number for a value takes the numerals of its grammar**, wherever it is set:
hexadecimal ones with or without a mark for the base, decimal ones of a mode for the bits and from 1
on for the threads, below `2 ^ 64` in any case. Every other value is complained about. So it is
where the option is given at the end of any command line that would do with another value there. An
address is taken as it is printed. -/
theorem numericOptions_accept :
    (∀ (k : NumericOption) (s : String) (o : Options),
      (∀ o', o.set k.name s = .ok o' ↔ k.Sets s o o') ∧
      ∀ e, o.set k.name s = .error e ↔ (∀ o', ¬ k.Sets s o o') ∧ e = .badValue k.name s) ∧
    (∀ (args : List String) (k : NumericOption) (value : String) (o : Options),
      Options.ofArguments (.ofList (args ++ [k.argument value])) = .ok o → ∀ s,
        (∀ o', Options.ofArguments (.ofList (args ++ [k.argument s])) = .ok o' ↔
          k.Sets s o o') ∧
        ∀ e, Options.ofArguments (.ofList (args ++ [k.argument s])) = .error e ↔
          (∀ o', ¬ k.Sets s o o') ∧ e = .badValue k.name s) ∧
    (∀ (address : UInt64) (o : Options),
      hexadecimal? (lower address.toNat) = some address.toNat ∧
      o.set "base" (lower address.toNat) = .ok { o with base := address }) ∧
    ∀ (i : Instruction) (r : Relative) (o : Options),
      o.set "base" (ATT.operand i (.relative r)) = .ok { o with base := i.relativeTarget r } := by
  refine ⟨fun k s o => ⟨fun _ => set_eq_ok_iff, fun _ => set_eq_error_iff⟩, ?_,
    fun address o => ⟨hexadecimal?_lower address.toNat_lt, set_base_lower address o⟩,
    fun i r o => set_base_lower (i.relativeTarget r) o⟩
  intro args k value o h s
  by_cases hs : ∃ o', k.Sets s o o'
  · obtain ⟨o₁, h₁⟩ := hs
    rw [ofArguments_of_sets h h₁]
    constructor
    · intro o'
      rw [Except.ok.injEq]
      exact ⟨fun heq => heq ▸ h₁, h₁.unique⟩
    · intro e
      exact iff_of_false (by simp) fun hnone => hnone.1 o₁ h₁
  · have hnone := not_exists.1 hs
    rw [ofArguments_of_not_sets h hnone]
    constructor
    · intro o'
      exact iff_of_false (by simp) (hnone o')
    · intro e
      rw [Except.error.injEq]
      exact ⟨fun heq => ⟨hnone, heq.symm⟩, fun he => he.2.symm⟩

/-- Zeros before a number of bits do not matter. -/
theorem numericOptions_accept_zeros :
    Options.ofArguments (.ofList (["--raw", "a.exe"] ++ [bits.argument "16"])) =
      .ok { raw := true, mode := some .m16, fileName := "a.exe" } ∧
    bits.Sets "0064" { raw := true, mode := some .m16, fileName := "a.exe" }
      { raw := true, mode := some .m64, fileName := "a.exe" } ∧
    Options.ofArguments (.ofList (["--raw", "a.exe"] ++ [bits.argument "0064"])) =
      .ok { raw := true, mode := some .m64, fileName := "a.exe" } := by
  have hok : Options.ofArguments (.ofList (["--raw", "a.exe"] ++ [bits.argument "16"])) =
      .ok { raw := true, mode := some .m16, fileName := "a.exe" } := by decide +kernel
  have hsets : bits.Sets "0064" { raw := true, mode := some .m16, fileName := "a.exe" }
      { raw := true, mode := some .m64, fileName := "a.exe" } :=
    .bits (mode?_eq_some_iff.1 (by decide +kernel))
  exact ⟨hok, hsets, ((numericOptions_accept.2.1 _ _ _ _ hok "0064").1 _).2 hsets⟩

end NumericOption

end Disasm.CommandLine
