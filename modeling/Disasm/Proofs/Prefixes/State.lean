import Disasm.Prefixes
import Mathlib

/-!
# What a run of prefixes asks for

Prefix bytes are taken one after the other, and each changes what those before it asked for. Seen
as a whole, a run asks for little that depends on the order of its bytes.

* `LongestRun` — the run of prefix bytes at the start of some bytes, and no shorter one.
* `asked` — what a run asks for: which flags occur in it, its last override, its last F2 or F3,
  and the REX prefix that it ends with.

**Theorem (`scan_eq_asked`).** The prefixes found at a place are what the longest run there asks
for. So without REX only the order of the overrides matters and the order of F2 and F3, and a REX
prefix before a legacy prefix is a byte more and nothing else.
-/

namespace Disasm.Prefixes

variable {mode : Mode} {b : UInt8} {P Q bytes rest : List UInt8}

/-! ## The bytes -/

/-- The segment overrides. -/
def overrides : List (UInt8 × Segment) :=
  [(0x26, .es), (0x2e, .cs), (0x36, .ss), (0x3e, .ds), (0x64, .fs), (0x65, .gs)]

def repetitions : List (UInt8 × Repetition) := [(0xf2, .repne), (0xf3, .rep)]

/-- The bytes that are prefixes in every mode. -/
def legacyBytes : List UInt8 :=
  [0x66, 0x67, 0xf0] ++ repetitions.map Prod.fst ++ overrides.map Prod.fst

/-- The bytes that are REX prefixes in 64-bit mode. -/
def IsRexByte (b : UInt8) : Prop := 0x40 ≤ b ∧ b ≤ 0x4f

instance (b : UInt8) : Decidable (IsRexByte b) := inferInstanceAs (Decidable (_ ∧ _))

/-- Whether every byte is a prefix in a mode. -/
def AllPrefixes (mode : Mode) (bytes : List UInt8) : Prop :=
  ∀ b ∈ bytes, b ∈ legacyBytes ∨ mode = .m64 ∧ IsRexByte b

theorem segmentOverride?_eq (b : UInt8) : segmentOverride? b = overrides.lookup b := by
  unfold segmentOverride? overrides
  split_ifs <;> simp_all [List.lookup_cons, beq_eq_decide]

theorem repetition?_eq (b : UInt8) : repetition? b = repetitions.lookup b := by
  unfold repetition? repetitions
  split_ifs <;> simp_all [List.lookup_cons, beq_eq_decide]

theorem isLegacy_iff : isLegacy b ↔ b ∈ legacyBytes := by
  simp only [isLegacy, segmentOverride?_eq, repetition?_eq, List.lookup_isSome_iff, beq_iff_eq,
    legacyBytes, List.mem_append, List.mem_map, decide_eq_true_eq]
  simp [eq_comm, or_assoc]

theorem isRex_iff : isRex mode b ↔ mode = .m64 ∧ IsRexByte b := by
  rw [isRex, decide_eq_true_eq, IsRexByte, UInt8.le_iff_toNat_le, UInt8.le_iff_toNat_le]
  show _ ∧ b.toNat / 16 = 4 ↔ _ ∧ 64 ≤ b.toNat ∧ b.toNat ≤ 79
  refine and_congr_right fun _ => ?_
  omega

theorem isPrefix_iff : isPrefix mode b ↔ b ∈ legacyBytes ∨ mode = .m64 ∧ IsRexByte b := by
  rw [isPrefix, Bool.or_eq_true, isRex_iff, isLegacy_iff, or_comm]

theorem not_isRexByte_of_mem_legacyBytes : ∀ b ∈ legacyBytes, ¬ IsRexByte b := by
  decide +kernel

/-! ## What a run asks for -/

/-- What the last byte of a run that stands in a table means there. -/
def last? {α : Type} (table : List (UInt8 × α)) (run : List UInt8) : Option α :=
  (run.filterMap fun b => table.lookup b).getLast?

/-- What a run asks for, said of the run as a whole. A REX prefix is in force if it is the last
byte; its four low bits are W, R, X and B. -/
def asked (run : List UInt8) : Prefixes where
  lock := decide (0xf0 ∈ run)
  repetition := (last? repetitions run).getD .none
  segment := (last? overrides run).map .segment
  operandSize := decide (0x66 ∈ run)
  addressSize := decide (0x67 ∈ run)
  rex :=
    match run.getLast? with
    | some b =>
      if IsRexByte b then
        { present := true
          w := b.toNat / 8 % 2 = 1
          r := b.toNat / 4 % 2 = 1
          x := b.toNat / 2 % 2 = 1
          b := b.toNat % 2 = 1 }
      else {}
    | none => {}

theorem rex_ofByte (b : UInt8) : Rex.ofByte b =
    { present := true
      w := b.toNat / 8 % 2 = 1
      r := b.toNat / 4 % 2 = 1
      x := b.toNat / 2 % 2 = 1
      b := b.toNat % 2 = 1 } := by
  simp [Rex.ofByte, Nat.testBit_eq_decide_div_mod_eq]

theorem last?_append {α : Type} (table : List (UInt8 × α)) (P Q : List UInt8) :
    last? table (P ++ Q) = (last? table Q).or (last? table P) := by
  rw [last?, List.filterMap_append, List.getLast?_append, last?, last?]

theorem last?_singleton {α : Type} (table : List (UInt8 × α)) (b : UInt8) :
    last? table [b] = table.lookup b := by
  cases h : table.lookup b <;> simp [last?, h]

/-- A prefix adds to what those before it asked for what it asks for as the last of a run. -/
theorem step_asked (h : isPrefix mode b) : step mode (asked P) b = asked (P ++ [b]) := by
  have hsegment : last? overrides (P ++ [b]) = (segmentOverride? b).or (last? overrides P) := by
    rw [last?_append, last?_singleton, segmentOverride?_eq]
  have hrepetition : last? repetitions (P ++ [b]) =
      (repetition? b).or (last? repetitions P) := by
    rw [last?_append, last?_singleton, repetition?_eq]
  by_cases hrex : isRex mode b
  · -- A REX byte is none of the others.
    have hbyte := (isRex_iff.1 hrex).2
    have hnot : b ∉ legacyBytes := fun hb => not_isRexByte_of_mem_legacyBytes b hb hbyte
    have hnone : ¬ isLegacy b := fun hb => hnot (isLegacy_iff.1 hb)
    simp only [isLegacy, decide_eq_true_eq, not_or, Option.not_isSome_iff_eq_none] at hnone
    obtain ⟨h66, h67, hf0, hr, hs⟩ := hnone
    rw [hs, Option.none_or] at hsegment
    rw [hr, Option.none_or] at hrepetition
    simp [step, asked, hrex, hsegment, hrepetition, hbyte, rex_ofByte, Ne.symm h66, Ne.symm h67,
      Ne.symm hf0]
  · have hlegacy : b ∈ legacyBytes := (isPrefix_iff.1 h).resolve_right (mt isRex_iff.2 hrex)
    have hbyte := not_isRexByte_of_mem_legacyBytes b hlegacy
    simp [step, asked, hrex, hsegment, hrepetition, hbyte, eq_comm, Option.map_or]

theorem ofRun_eq_asked (h : ∀ b ∈ P, isPrefix mode b) : ofRun mode P = asked P := by
  induction P using List.reverseRecOn with
  | nil => rfl
  | append_singleton P b ih =>
    rw [ofRun, List.foldl_append]
    show step mode (ofRun mode P) b = _
    rw [ih fun x hx => h x (List.mem_append_left _ hx),
      step_asked (h b (List.mem_append_right _ (List.mem_singleton_self b)))]

/-! ## The run -/

/-- The longest run of prefixes at the start of some bytes that an instruction can have. -/
structure LongestRun (mode : Mode) (bytes run : List UInt8) : Prop where
  isPrefix : run <+: bytes
  length_le : run.length ≤ 14
  allPrefixes : AllPrefixes mode run
  longest : ∀ other, other <+: bytes → other.length ≤ 14 → AllPrefixes mode other →
    other.length ≤ run.length

theorem allPrefixes_iff : AllPrefixes mode P ↔ ∀ b ∈ P, isPrefix mode b := by
  simp only [AllPrefixes, isPrefix_iff]

/-- Prefixes at the start of some bytes belong to the run, as far as there is room for them. -/
theorem run_append (hP : AllPrefixes mode P) (hlen : P.length ≤ 14) :
    run mode (P ++ rest) = P ++ (rest.take (14 - P.length)).takeWhile (isPrefix mode) := by
  rw [run, maxLength, List.take_append, List.take_of_length_le hlen,
    List.takeWhile_append_of_pos (allPrefixes_iff.1 hP)]

theorem longestRun_run (mode : Mode) (bytes : List UInt8) :
    LongestRun mode bytes (run mode bytes) where
  isPrefix := (List.takeWhile_prefix _).trans (List.take_prefix _ _)
  length_le := (List.takeWhile_prefix _).length_le.trans (List.length_take_le _ _)
  allPrefixes := allPrefixes_iff.2 fun _ hb => List.mem_takeWhile_imp hb
  longest := by
    rintro other ⟨rest, rfl⟩ hlen hall
    rw [run_append hall hlen, List.length_append]
    exact Nat.le_add_right _ _

/-- Behind other prefixes the same bytes belong to no run, unless these leave more room. -/
theorem run_append_of_le (h : run mode (P ++ rest) = P) (hQ : AllPrefixes mode Q)
    (hle : P.length ≤ Q.length) (hlen : Q.length ≤ 14) : run mode (Q ++ rest) = Q := by
  have hrun := longestRun_run mode (P ++ rest)
  rw [h] at hrun
  rw [run_append hrun.allPrefixes hrun.length_le, List.append_right_eq_self] at h
  have hroom : rest.take (14 - Q.length) =
      (rest.take (14 - P.length)).take (14 - Q.length) := by
    rw [List.take_take, Nat.min_eq_left (by omega)]
  rw [run_append hQ hlen, hroom, ← List.take_takeWhile, h, List.take_nil, List.append_nil]

/-! ## Order -/

theorem lookup_eq_none {α : Type} {table : List (UInt8 × α)} (h : b ∉ table.map Prod.fst) :
    table.lookup b = none := by
  rw [List.lookup_eq_none_iff]
  rintro ⟨k, v⟩ hmem
  have hne : b ≠ k := fun heq => h (heq ▸ List.mem_map_of_mem hmem)
  simpa using hne

/-- Only the bytes that stand in the table matter to what the last of them means. -/
theorem last?_filter {α : Type} (table : List (UInt8 × α)) (run : List UInt8) :
    last? table (run.filter (· ∈ table.map Prod.fst)) = last? table run := by
  rw [last?, last?, List.filterMap_filter]
  congr 1
  refine List.filterMap_congr fun b _ => ?_
  by_cases hb : b ∈ table.map Prod.fst
  · simp only [hb, decide_true, if_true]
  · simp only [hb, decide_false, Bool.false_eq_true, if_false]
    exact (lookup_eq_none hb).symm

/-- Without REX a run that is put in another order asks for the same, if the overrides keep theirs,
and F2 and F3. -/
theorem asked_perm (h : Q.Perm P) (hrex : ∀ b ∈ P, ¬ IsRexByte b)
    (hoverrides : Q.filter (· ∈ overrides.map Prod.fst) =
      P.filter (· ∈ overrides.map Prod.fst))
    (hrepetitions : Q.filter (· ∈ repetitions.map Prod.fst) =
      P.filter (· ∈ repetitions.map Prod.fst)) : asked Q = asked P := by
  have hsegment : last? overrides Q = last? overrides P := by
    rw [← last?_filter, hoverrides, last?_filter]
  have hrepetition : last? repetitions Q = last? repetitions P := by
    rw [← last?_filter, hrepetitions, last?_filter]
  have hnone : ∀ R : List UInt8, (∀ b ∈ R, ¬ IsRexByte b) → (asked R).rex = {} := by
    intro R hR
    unfold asked
    cases hlast : R.getLast? with
    | none => rfl
    | some b => exact if_neg (hR b (List.mem_of_getLast? hlast))
  have hrexQ := hnone Q fun b hb => hrex b (h.mem_iff.1 hb)
  have hrexP := hnone P hrex
  unfold asked at hrexQ hrexP ⊢
  simp only at hrexQ hrexP
  simp only [h.mem_iff, hsegment, hrepetition, hrexQ, hrexP]

/-- A REX prefix before a legacy prefix asks for nothing. -/
theorem asked_insert {A B : List UInt8} {l x : UInt8} (hx : IsRexByte x) :
    asked (A ++ x :: l :: B) = asked (A ++ l :: B) := by
  have hnot : x ∉ legacyBytes := fun hb => not_isRexByte_of_mem_legacyBytes x hb hx
  have hnone : ∀ {α : Type} (table : List (UInt8 × α)), table.map Prod.fst ⊆ legacyBytes →
      last? table (A ++ x :: l :: B) = last? table (A ++ l :: B) := by
    intro α table htable
    simp only [last?, List.filterMap_append, List.filterMap_cons,
      lookup_eq_none fun hmem => hnot (htable hmem)]
  have hmem : ∀ k ∈ legacyBytes, k ∈ A ++ x :: l :: B ↔ k ∈ A ++ l :: B := by
    intro k hk
    have hne : k ≠ x := fun heq => hnot (heq ▸ hk)
    simp [hne]
  have hlast : (A ++ x :: l :: B).getLast? = (A ++ l :: B).getLast? := by
    simp [List.getLast?_append, List.getLast?_cons_cons]
  unfold asked
  simp only [hnone overrides (by decide), hnone repetitions (by decide), hlast,
    hmem 0xf0 (by decide), hmem 0x66 (by decide), hmem 0x67 (by decide)]

/-! ## Prefixes in a buffer -/

theorem scan_eq (mode : Mode) (bytes : List UInt8) (cursor : Nat) :
    scan mode bytes cursor = (asked (run mode (bytes.drop cursor)),
      (run mode (bytes.drop cursor)).length, cursor + (run mode (bytes.drop cursor)).length) := by
  rw [scan, ofRun_eq_asked (allPrefixes_iff.1 (longestRun_run mode _).allPrefixes)]

/-- Other prefixes in the place of a run are the run there, if they are no fewer. -/
theorem scan_replace {cursor : Nat} (hP : run mode (bytes.drop cursor) = P)
    (hcursor : cursor ≤ bytes.length) (hQ : AllPrefixes mode Q) (hle : P.length ≤ Q.length)
    (hlen : Q.length ≤ 14) :
    scan mode (bytes.take cursor ++ Q ++ bytes.drop (cursor + P.length)) cursor =
      (asked Q, Q.length, cursor + Q.length) := by
  have hdrop : bytes.drop cursor = P ++ bytes.drop (cursor + P.length) := by
    have hprefix : P <+: bytes.drop cursor := hP ▸ (longestRun_run mode _).isPrefix
    rw [← List.drop_drop, List.prefix_iff_eq_append.1 hprefix]
  have hnew : (bytes.take cursor ++ Q ++ bytes.drop (cursor + P.length)).drop cursor =
      Q ++ bytes.drop (cursor + P.length) := by
    rw [List.append_assoc, List.drop_left' (List.length_take_of_le hcursor)]
  rw [hdrop] at hP
  rw [scan_eq, hnew, run_append_of_le hP hQ hle hlen]

/-- **Prefixes are what the longest run asks for.** The prefixes at a place are the longest run of
prefix bytes there, at most 14: they ask for the flags that occur in it, for its last override and
its last F2 or F3, and for the REX prefix if it ends with one. A run without REX may be put in any
order that leaves the overrides in theirs, and F2 and F3. A REX prefix before a legacy prefix makes
the run longer and changes nothing else. -/
theorem scan_eq_asked (mode : Mode) (bytes : List UInt8) (cursor : Nat) :
    ∃ P, LongestRun mode (bytes.drop cursor) P ∧
      scan mode bytes cursor = (asked P, P.length, cursor + P.length) ∧
      (bytes.length ≤ cursor → scan mode bytes cursor = ({}, 0, cursor)) ∧
      (∀ Q, Q.Perm P → (∀ b ∈ P, ¬ IsRexByte b) →
        Q.filter (· ∈ overrides.map Prod.fst) = P.filter (· ∈ overrides.map Prod.fst) →
        Q.filter (· ∈ repetitions.map Prod.fst) = P.filter (· ∈ repetitions.map Prod.fst) →
        scan mode (bytes.take cursor ++ Q ++ bytes.drop (cursor + P.length)) cursor =
          scan mode bytes cursor) ∧
      ∀ A l B x, P = A ++ l :: B → l ∈ legacyBytes → P.length < 14 → mode = .m64 → IsRexByte x →
        scan mode (bytes.take cursor ++ (A ++ x :: l :: B) ++ bytes.drop (cursor + P.length))
          cursor = (asked P, P.length + 1, cursor + (P.length + 1)) := by
  have hrun := longestRun_run mode (bytes.drop cursor)
  have hscan := scan_eq mode bytes cursor
  generalize hP : run mode (bytes.drop cursor) = P at hrun hscan
  -- Past the end of the buffer there is no run.
  have hcursor : P ≠ [] → cursor ≤ bytes.length := by
    intro hne
    by_contra hlt
    have hprefix := hrun.isPrefix
    rw [List.drop_eq_nil_of_le (by omega), List.prefix_nil] at hprefix
    exact hne hprefix
  refine ⟨P, hrun, hscan, ?_, ?_, ?_⟩
  · intro hle
    rw [hscan]
    have hprefix := hrun.isPrefix
    rw [List.drop_eq_nil_of_le hle, List.prefix_nil] at hprefix
    subst hprefix
    rfl
  · intro Q hperm hrex hoverrides hrepetitions
    by_cases hne : P = []
    · subst hne
      rw [hperm.eq_nil, List.append_nil, List.length_nil, Nat.add_zero, List.take_append_drop]
    · have hQ : AllPrefixes mode Q := fun b hb => hrun.allPrefixes b (hperm.mem_iff.1 hb)
      have hlen := hperm.length_eq
      rw [scan_replace hP (hcursor hne) hQ (by omega) (by have := hrun.length_le; omega), hscan,
        asked_perm hperm hrex hoverrides hrepetitions, hlen]
  · rintro A l B x rfl hl hlen rfl hx
    have hnew : (A ++ x :: l :: B).length = (A ++ l :: B).length + 1 := by simp +arith
    have hQ : AllPrefixes .m64 (A ++ x :: l :: B) := by
      intro b hb
      by_cases hbx : b = x
      · exact Or.inr ⟨rfl, hbx ▸ hx⟩
      · exact hrun.allPrefixes b (by simpa [hbx] using hb)
    rw [scan_replace hP (hcursor (by simp)) hQ (by omega) (by omega), asked_insert hx, hnew]

/-- A run with two overrides and with F3 and F2, behind another byte, put in another order. With a
REX prefix at its end W, R and B are in force, and one more in its middle asks for nothing. -/
theorem scan_eq_asked_mixed :
    let bytes : List UInt8 := [0xcc, 0x66, 0x2e, 0xf3, 0x64, 0xf2, 0x90]
    let live : List UInt8 := [0xcc, 0x66, 0x2e, 0xf3, 0x64, 0xf2, 0x4d, 0x90]
    let p : Prefixes :=
      { repetition := .repne, segment := some (.segment .fs), operandSize := true }
    let q : Prefixes := { p with rex := { present := true, w := true, r := true, b := true } }
    scan .m64 bytes 1 = (p, 5, 6) ∧
    scan .m64 [0xcc, 0xf3, 0x2e, 0xf2, 0x64, 0x66, 0x90] 1 = scan .m64 bytes 1 ∧
    scan .m64 [0xcc, 0x66, 0x2e, 0x48, 0xf3, 0x64, 0xf2, 0x90] 1 = (p, 6, 7) ∧
    scan .m64 live 1 = (q, 6, 7) ∧
    scan .m64 [0xcc, 0x66, 0x2e, 0x42, 0xf3, 0x64, 0xf2, 0x4d, 0x90] 1 = (q, 7, 8) := by
  intro bytes live p q
  -- How long the run is tells which it is.
  have hfound : ∀ {bs P : List UInt8} {n : Nat}, LongestRun .m64 (bs.drop 1) P →
      scan .m64 bs 1 = (asked P, P.length, 1 + P.length) → (scan .m64 bs 1).2.1 = n →
      P = (bs.drop 1).take n := by
    intro bs P n hrun hscan hlen
    rw [hscan] at hlen
    rw [← hlen]
    exact List.prefix_iff_eq_take.1 hrun.isPrefix
  obtain ⟨P, hrun, hscan, -, horder, hinsert⟩ := scan_eq_asked .m64 bytes 1
  have hfive : (scan .m64 bytes 1).2.1 = 5 := by decide +kernel
  obtain rfl : P = [0x66, 0x2e, 0xf3, 0x64, 0xf2] := hfound hrun hscan hfive
  obtain ⟨Q, hrun', hscan', -, -, hinsert'⟩ := scan_eq_asked .m64 live 1
  have hsix : (scan .m64 live 1).2.1 = 6 := by decide +kernel
  obtain rfl : Q = [0x66, 0x2e, 0xf3, 0x64, 0xf2, 0x4d] := hfound hrun' hscan' hsix
  refine ⟨hscan, ?_, ?_, hscan', ?_⟩
  · exact horder [0xf3, 0x2e, 0xf2, 0x64, 0x66] (by decide) (by decide +kernel) (by decide)
      (by decide)
  · exact hinsert [0x66, 0x2e] 0xf3 [0x64, 0xf2] 0x48 rfl (by decide) (by decide) rfl
      (by decide +kernel)
  · exact hinsert' [0x66, 0x2e] 0xf3 [0x64, 0xf2, 0x4d] 0x42 rfl (by decide) (by decide) rfl
      (by decide +kernel)

end Disasm.Prefixes
