import Disasm.Proofs.Outline
import Disasm.Proofs.Text.Pieces

/-!
# The words of both syntaxes

Mnemonics, the names that a syntax has of its own, the words before them and the names of
registers are tables. What the tables have in common is checked over all of them at once:

* no word stands for two things (`nodup_vocabulary`, `Register.name_injective`);
* a word consists of letters and digits (`isWord_of_mem_vocabulary`), a number of these and signs
  (`Hex.isNumeral`), so that neither has a separator in it.

To be compared quickly, a word is read as a number (`code`), and a set of numbers is kept as the
bits of one number (`bits`).
-/

namespace Disasm

theorem Mnemonic.number_lt_count (m : Mnemonic) : m.number < count := by
  cases m <;> decide

namespace Text

/-! ## Words as numbers -/

/-- The bytes of a text. -/
def spelling (s : String) : List UInt8 := s.toByteArray.data.toList

/-- A text as a number with its bytes as digits, up to a prime. Different words of the tables
have different numbers. -/
def code (s : String) : Nat := (spelling s).foldl (fun n b => 256 * n + b.toNat) 0 % 1000003

/-- The numbers of a list as the bits of one number. -/
def bits (ks : List Nat) : Nat := ks.foldr (fun k n => n ||| 1 <<< k) 0

/-- Whether the numbers of a list differ from one another and from the bits of `seen`. -/
def distinct : List Nat → Nat → Bool
  | [], _ => true
  | k :: ks, seen => !seen.testBit k && distinct ks (seen ||| 1 <<< k)

theorem spelling_eq (s : String) : spelling s = s.toList.flatMap String.utf8EncodeChar := by
  rw [spelling, ← String.utf8Encode_toList, List.utf8Encode]
  simp

theorem mem_spelling {s : String} {c : Char} (h : c ∈ s.toList) {b : UInt8}
    (hb : b ∈ String.utf8EncodeChar c) : b ∈ spelling s := by
  rw [spelling_eq]
  exact List.mem_flatMap.2 ⟨c, h, hb⟩

theorem testBit_or_one_shiftLeft (n k j : Nat) :
    (n ||| 1 <<< k).testBit j = (n.testBit j || decide (k = j)) := by
  rw [Nat.testBit_or, Nat.one_shiftLeft, Nat.testBit_two_pow]

theorem testBit_bits (ks : List Nat) (j : Nat) : (bits ks).testBit j ↔ j ∈ ks := by
  induction ks with
  | nil => simp [bits]
  | cons k ks ih =>
    have hbits : bits (k :: ks) = bits ks ||| 1 <<< k := rfl
    rw [hbits, testBit_or_one_shiftLeft, Bool.or_eq_true, ih, decide_eq_true_eq, List.mem_cons,
      or_comm, eq_comm]

theorem nodup_of_distinct {ks : List Nat} {seen : Nat} (h : distinct ks seen) :
    ks.Nodup ∧ ∀ k ∈ ks, seen.testBit k = false := by
  induction ks generalizing seen with
  | nil => simp
  | cons k ks ih =>
    simp only [distinct, Bool.and_eq_true, Bool.not_eq_true'] at h
    obtain ⟨hnodup, hseen⟩ := ih h.2
    simp only [testBit_or_one_shiftLeft, Bool.or_eq_false_iff, decide_eq_false_iff_not] at hseen
    refine ⟨List.nodup_cons.2 ⟨fun hk => (hseen k hk).2 rfl, hnodup⟩, fun j hj => ?_⟩
    rcases List.mem_cons.1 hj with rfl | hj
    · exact h.1
    · exact (hseen j hj).1

theorem nodup_of_distinct_code {ss : List String} (h : distinct (ss.map code) 0) : ss.Nodup :=
  (nodup_of_distinct h).1.of_map code

/-! ## The vocabulary -/

/-- The words that stand before a name. -/
def leadingWords : List String :=
  ["es", "cs", "ss", "ds", "fs", "gs", "lock", "rep", "repe", "repne", "repz", "repnz", "bnd"]

/-- The names of string operations that are printed with operands. -/
def families : List String := ["movs", "cmps", "lods", "outs"]

/-- The names that AT&T syntax has for operations with another name elsewhere. -/
def renamed : List (Mnemonic × String) :=
  ATT.ownNames ++
  [(.MOVSXD, "movslq"),
   (.MOVZX, "movzbw"), (.MOVZX, "movzbl"), (.MOVZX, "movzbq"),
   (.MOVZX, "movzww"), (.MOVZX, "movzwl"), (.MOVZX, "movzwq"),
   (.MOVSX, "movsbw"), (.MOVSX, "movsbl"), (.MOVSX, "movsbq"),
   (.MOVSX, "movsww"), (.MOVSX, "movswl"), (.MOVSX, "movswq"),
   (.MOVSD, "movsl"), (.CMPSD, "cmpsl"), (.STOSD, "stosl"), (.LODSD, "lodsl"),
   (.SCASD, "scasl"), (.INSD, "insl"), (.OUTSD, "outsl")]

/-- Every operation with its name. -/
def named : List (Mnemonic × String) := Mnemonic.all.map fun m => (m, m.name)

/-- Every word that stands before the operands. -/
def vocabulary : List String := leadingWords ++ families ++ (renamed ++ named).map Prod.snd

theorem nodup_vocabulary : vocabulary.Nodup := nodup_of_distinct_code (by decide +kernel)

/-- A small letter or a digit. -/
def isWordByte (b : UInt8) : Bool :=
  (48 ≤ b.toNat && b.toNat ≤ 57) || (97 ≤ b.toNat && b.toNat ≤ 122)

/-- A text of small letters and digits. -/
def isWord (s : String) : Bool := (spelling s).all isWordByte

theorem isWord_append {a b : String} (ha : isWord a) (hb : isWord b) : isWord (a ++ b) := by
  have happend : spelling (a ++ b) = spelling a ++ spelling b := by
    simp [spelling_eq, String.toList_append]
  rw [isWord, happend, List.all_append, Bool.and_eq_true]
  exact ⟨ha, hb⟩

theorem not_mem_of_isWord {s : String} (h : isWord s) {c : Char} {b : UInt8}
    (hc : String.utf8EncodeChar c = [b]) (hb : isWordByte b = false) : c ∉ s.toList := by
  intro hmem
  have hbyte := List.all_eq_true.1 h b
    (mem_spelling hmem (by rw [hc]; exact List.mem_singleton_self b))
  rw [hb] at hbyte
  cases hbyte

theorem plain_of_isWord {s : String} (h : isWord s) : Plain s.toList := by
  intro c hc hsep
  fin_cases hsep
  · exact not_mem_of_isWord h rfl rfl hc
  · exact not_mem_of_isWord h rfl rfl hc
  · exact not_mem_of_isWord h rfl rfl hc
  · exact not_mem_of_isWord h rfl rfl hc

theorem colon_not_mem_of_isWord {s : String} (h : isWord s) : ':' ∉ s.toList :=
  not_mem_of_isWord h rfl rfl

theorem isWord_of_mem_vocabulary : ∀ s ∈ vocabulary, isWord s := by
  decide +kernel

theorem piece_of_mem_vocabulary {s : String} (h : s ∈ vocabulary) : Piece s.toList :=
  (plain_of_isWord (isWord_of_mem_vocabulary s h)).piece

/-- One name, one operation. -/
theorem mnemonic_eq_of_name_eq {x y : Mnemonic × String} (hx : x ∈ renamed ++ named)
    (hy : y ∈ renamed ++ named) (h : x.2 = y.2) : x.1 = y.1 :=
  congrArg Prod.fst
    (List.inj_on_of_nodup_map (List.nodup_append.1 nodup_vocabulary).2.1 hx hy h)

theorem mem_vocabulary_of_mem_leadingWords {s : String} (h : s ∈ leadingWords) : s ∈ vocabulary :=
  List.mem_append_left _ (List.mem_append_left _ h)

theorem mem_vocabulary_of_mem_families {s : String} (h : s ∈ families) : s ∈ vocabulary :=
  List.mem_append_left _ (List.mem_append_right _ h)

theorem mem_vocabulary_of_mem_names {x : Mnemonic × String} (h : x ∈ renamed ++ named) :
    x.2 ∈ vocabulary :=
  List.mem_append_right _ (List.mem_map_of_mem h)

theorem not_mem_leadingWords_of_mem_names {x : Mnemonic × String} (h : x ∈ renamed ++ named) :
    x.2 ∉ leadingWords := fun hw =>
  (List.nodup_append.1 nodup_vocabulary).2.2 _ (List.mem_append_left _ hw) _
    (List.mem_map_of_mem h) rfl

theorem not_mem_families_of_mem_names {x : Mnemonic × String} (h : x ∈ renamed ++ named) :
    x.2 ∉ families := fun hw =>
  (List.nodup_append.1 nodup_vocabulary).2.2 _ (List.mem_append_right _ hw) _
    (List.mem_map_of_mem h) rfl

theorem mem_named (m : Mnemonic) : (m, m.name) ∈ named :=
  List.mem_map.2 ⟨m, List.mem_map.2 ⟨m.number, List.mem_range.2 m.number_lt_count,
    Mnemonic.ofNat_ctorIdx m⟩, rfl⟩

theorem mem_names (m : Mnemonic) : (m, m.name) ∈ renamed ++ named :=
  List.mem_append_right _ (mem_named m)

end Text

namespace Mnemonic

theorem name_injective {m m' : Mnemonic} (h : m.name = m'.name) : m = m' :=
  Text.mnemonic_eq_of_name_eq (Text.mem_names m) (Text.mem_names m') h

end Mnemonic

/-! ## Registers -/

namespace Register

open Text

theorem nodup_names : (all.map name).Nodup := nodup_of_distinct_code (by decide +kernel)

theorem name_injective {r r' : Register} (h : r.name = r'.name) : r = r' :=
  List.inj_on_of_nodup_map nodup_names (mem_all r) (mem_all r') h

/-- All registers but those of the coprocessor have a word for a name. -/
theorem isWord_name : ∀ r ∈ all, isWord r.name || r.isX87 := by
  decide +kernel

/-- Neither colons, spaces, signs nor brackets stand in a register's name. -/
theorem not_mem_name {c : Char} (hc : c ∈ [':', ' ', '+', '-', '[', ']']) (r : Register) :
    c ∉ r.name.toList := by
  rcases Bool.or_eq_true_iff.1 (isWord_name r (mem_all r)) with h | h
  · fin_cases hc <;> exact not_mem_of_isWord h rfl rfl
  · cases r with
    | x87 n => revert n; fin_cases hc <;> decide +kernel
    | _ => cases h

/-- Separators do not occur in a register's name, and parentheses in pairs only. -/
theorem scan_name (r : Register) (depth : Nat) : scan depth r.name.toList = some depth := by
  rcases Bool.or_eq_true_iff.1 (isWord_name r (mem_all r)) with h | h
  · exact (plain_of_isWord h).scan_eq depth
  · cases r with
    | x87 n => fin_cases n <;> simp [name, x87Names, scan, nest]
    | _ => cases h

end Register

/-! ## Numbers -/

namespace Hex

open Text

/-- The characters of numbers. -/
def isNumeral (c : Char) : Bool := c.isAlphanum || c = '-'

variable {c : Char} {n : Nat}

theorem isNumeral_plain (h : c ∈ (plain n).toList) : isNumeral c := by
  have hdigit : ∀ d < 16, isNumeral (lowerDigit d) := by decide +kernel
  rw [plain, String.toList_ofList] at h
  obtain ⟨d, hd, rfl⟩ := List.mem_map.1 h
  exact hdigit d (lt_of_mem_digits hd)

theorem isNumeral_lower (h : c ∈ (lower n).toList) : isNumeral c := by
  rw [lower, String.toList_append] at h
  rcases List.mem_append.1 h with h | h
  · simp at h
    rcases h with rfl | rfl <;> rfl
  · exact isNumeral_plain h

theorem isNumeral_signed {v : Int} (h : c ∈ (signed v).toList) : isNumeral c := by
  unfold signed at h
  split_ifs at h
  · rw [String.toList_append] at h
    rcases List.mem_append.1 h with h | h
    · simp at h
      subst h
      rfl
    · exact isNumeral_lower h
  · exact isNumeral_lower h

theorem isDigit_toString (h : c ∈ (toString n).toList) : c.isDigit := by
  rw [Nat.toString_eq_repr, Nat.repr_eq_ofList_toDigits, String.toList_ofList] at h
  exact Nat.isDigit_of_mem_toDigits (by decide) (by decide) h

theorem isNumeral_toString (h : c ∈ (toString n).toList) : isNumeral c := by
  simp [isNumeral, Char.isAlphanum, isDigit_toString h]

theorem isNumeral_constant (h : c ∈ (constant n).toList) : isNumeral c := by
  have hdigit : ∀ d < 16, isNumeral (upperDigit d) := by decide +kernel
  unfold constant at h
  split_ifs at h
  · exact isNumeral_toString h
  · simp only [String.toList_ofList, List.mem_append, List.mem_map, List.mem_singleton] at h
    rcases h with (h | ⟨d, hd, rfl⟩) | rfl
    · split_ifs at h
      · cases h
      · rw [List.mem_singleton.1 h]
        rfl
    · exact hdigit d (lt_of_mem_digits hd)
    · rfl

theorem plain_of_isNumeral {cs : List Char} (h : ∀ c ∈ cs, isNumeral c) : Plain cs := by
  intro c hc hsep
  have := h c hc
  fin_cases hsep <;> cases this

theorem colon_not_mem_of_isNumeral {cs : List Char} (h : ∀ c ∈ cs, isNumeral c) : ':' ∉ cs :=
  fun hc => by cases h ':' hc

end Hex

/-! ## Lines -/

namespace Instruction

open Text

variable {i j : Instruction}

theorem repetitionWord_mem {w : String} (h : i.repetitionWord = some w) : w ∈ leadingWords := by
  unfold repetitionWord at h
  split at h
  · cases h
  · split_ifs at h <;> cases h <;> decide
  · split_ifs at h <;> cases h <;> decide

theorem prefixWords_mem_leadingWords (hi : ∀ r, i.prefixes.segment = some r → ∃ s, r = .segment s) :
    ∀ w ∈ i.prefixWords, w ∈ leadingWords := by
  intro w hw
  simp only [Instruction.prefixWords, List.mem_append, Option.mem_toList] at hw
  rcases hw with (hw | hw) | hw
  · split_ifs at hw
    · cases hw
    · obtain ⟨r, hr, rfl⟩ := Option.map_eq_some_iff.1 (Option.mem_toList.1 hw)
      obtain ⟨s, rfl⟩ := hi r hr
      cases s <;> decide
  · split_ifs at hw
    · cases List.mem_singleton.1 hw
      decide
    · cases hw
  · exact repetitionWord_mem hw

theorem shownOperands_of_some {f : StringForm} (h : i.stringForm? = some f) :
    i.shownOperands = f.operands i := by
  rw [shownOperands, h]

theorem shownOperands_of_none (h : i.stringForm? = none) : i.shownOperands = i.operands := by
  rw [shownOperands, h]

theorem toList_prefixText (i : Instruction) :
    i.prefixText.toList = (i.prefixWords.map String.toList).flatMap (· ++ [' ']) := by
  rw [prefixText, String.toList_join, List.flatMap_map, List.flatMap_map]
  simp

end Instruction

/-- A text that can stand for an operation: a word, and none of those before a name. -/
structure Text.IsName (s : String) : Prop where
  isWord : isWord s
  not_mem : s ∉ leadingWords

theorem Text.IsName.piece {s : String} (h : IsName s) : Piece s.toList :=
  (plain_of_isWord h.isWord).piece

theorem Text.isName_of_mem_names {x : Mnemonic × String} (h : x ∈ renamed ++ named) :
    IsName x.2 :=
  ⟨isWord_of_mem_vocabulary _ (mem_vocabulary_of_mem_names h), not_mem_leadingWords_of_mem_names h⟩

/-- **Lines fall apart in one way** into the words before the name, the name and the rest. -/
theorem Instruction.line_inj {i j : Instruction}
    (hi : ∀ r, i.prefixes.segment = some r → ∃ s, r = .segment s)
    (hj : ∀ r, j.prefixes.segment = some r → ∃ s, r = .segment s) {n n' r r' : String}
    (hn : Text.IsName n) (hn' : Text.IsName n') (hr : Text.Separated r.toList)
    (hr' : Text.Separated r'.toList)
    (h : i.prefixText ++ n ++ r = j.prefixText ++ n' ++ r') : n = n' ∧ r = r' := by
  have hlists := congrArg String.toList h
  simp only [String.toList_append, toList_prefixText, List.append_assoc] at hlists
  have hmap : ∀ {s : String}, s ∉ Text.leadingWords →
      s.toList ∉ Text.leadingWords.map String.toList := fun hs hmem => by
    obtain ⟨w, hw, heq⟩ := List.mem_map.1 hmem
    exact hs (String.toList_inj.1 heq ▸ hw)
  have hwords : ∀ {k : Instruction}, (∀ r, k.prefixes.segment = some r → ∃ s, r = .segment s) →
      ∀ w ∈ k.prefixWords.map String.toList, w ∈ Text.leadingWords.map String.toList := fun hk =>
    List.forall_mem_map.2 fun w hw =>
      List.mem_map_of_mem (prefixWords_mem_leadingWords hk w hw)
  have hpieces : ∀ w ∈ Text.leadingWords.map String.toList, Text.Piece w :=
    List.forall_mem_map.2 fun w hw =>
      Text.piece_of_mem_vocabulary (Text.mem_vocabulary_of_mem_leadingWords hw)
  obtain ⟨-, hname, hrest⟩ := Text.words_inj hpieces (hwords hi) (hwords hj)
    ⟨hn.piece, hmap hn.not_mem⟩ ⟨hn'.piece, hmap hn'.not_mem⟩ hr hr' hlists
  exact ⟨String.toList_inj.1 hname, String.toList_inj.1 hrest⟩

end Disasm
