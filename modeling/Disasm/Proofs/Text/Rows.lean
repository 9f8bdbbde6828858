import Disasm.Proofs.Partition
import Disasm.Proofs.Text.ATT
import Disasm.Proofs.Text.Digits
import Disasm.Proofs.Text.Intel

/-!
# Rows of a listing are read back

**Theorem (`decodeAt_listingLine`).** The row of a record tells its address, its text and, if there
is a column for them, its bytes, whatever the width of the column.

A row is taken apart (`RowParts.ofRow`) without regard to widths: the address ends at the first
colon, the bytes are as many pairs of digits with single spaces between them as there are
(`readBytes`), and the text starts where the spaces behind them end. It comes out right because a
number has no colon in it, two spaces at least stand behind the bytes, and no text starts with a
space (`Text.Opens`).
-/

namespace Disasm

open CommandLine

/-! ## Taking a row apart -/

/-- The byte that two digits stand for. -/
def pair? (a b : Char) : Option UInt8 := do
  return UInt8.ofNat (16 * (← digit? 16 a) + (← digit? 16 b))

/-- As many pairs of digits with single spaces between them as a text starts with, and what
follows them. -/
def readBytes : List Char → List UInt8 × List Char
  | a :: b :: rest =>
    match pair? a b with
    | none => ([], a :: b :: rest)
    | some byte =>
      match rest with
      | ' ' :: more =>
        match readBytes more with
        | ([], _) => ([byte], rest)
        | (bytes, behind) => (byte :: bytes, behind)
      | _ => ([byte], rest)
  | cs => ([], cs)

/-- What stands in a row: the address, the bytes, the spaces behind them, and the text. -/
structure RowParts where
  address : String
  bytes : List UInt8
  spaces : Nat
  text : String
deriving DecidableEq

/-- What stands behind the address, its colon and the spaces there. -/
def behindAddress (row : List Char) : List Char :=
  ((row.dropWhile (· != ':')).drop 1).dropWhile (· == ' ')

/-- Takes a row apart. -/
def RowParts.ofRow (width : Int) (row : String) : RowParts :=
  let behind := behindAddress row.toList
  let column := if 0 < width then readBytes behind else ([], behind)
  { address := String.ofList (row.toList.takeWhile (· != ':'))
    bytes := column.1
    spaces := (column.2.takeWhile (· == ' ')).length
    text := String.ofList (column.2.dropWhile (· == ' ')) }

/-! ## Bytes -/

namespace Hex

theorem pair?_lowerDigit (b : UInt8) :
    pair? (lowerDigit (b.toNat / 16)) (lowerDigit (b.toNat % 16)) = some b := by
  have hlt : b.toNat < 256 := b.toNat_lt
  rw [pair?, digit?_lowerDigit _ (Nat.div_lt_of_lt_mul hlt),
    digit?_lowerDigit _ (Nat.mod_lt _ (by decide))]
  change some (UInt8.ofNat (16 * (b.toNat / 16) + b.toNat % 16)) = some b
  rw [Nat.div_add_mod, UInt8.ofNat_toNat]

theorem toList_bytes_cons (b : UInt8) (bs : List UInt8) : (bytes (b :: bs)).toList =
    lowerDigit (b.toNat / 16) :: lowerDigit (b.toNat % 16) ::
      if bs = [] then [] else ' ' :: (bytes bs).toList := by
  cases bs with
  | nil =>
    rw [if_pos rfl, ← padded_byte]
    rfl
  | cons b' bs => simp [bytes, String.toList_intercalate, padded_byte]

/-- Bytes start with a digit. -/
theorem head?_bytes_append {bs : List UInt8} (h : bs ≠ []) (rest : List Char) :
    ((bytes bs).toList ++ rest).head? ≠ some ' ' := by
  have hdigits : ∀ d < 16, lowerDigit d ≠ ' ' := by decide
  cases bs with
  | nil => exact absurd rfl h
  | cons b bs =>
    rw [toList_bytes_cons]
    exact fun heq => hdigits _ (Nat.div_lt_of_lt_mul b.toNat_lt) (Option.some.inj heq)

theorem length_bytes {bs : List UInt8} (h : bs ≠ []) :
    (bytes bs).toList.length + 1 = 3 * bs.length := by
  induction bs with
  | nil => exact absurd rfl h
  | cons b bs ih =>
    rw [toList_bytes_cons]
    split_ifs with hbs
    · rw [hbs]
      rfl
    · have hrest := ih hbs
      simp only [List.length_cons]
      omega

end Hex

theorem readBytes_space (rest : List Char) : readBytes (' ' :: rest) = ([], ' ' :: rest) := by
  cases rest with
  | nil => rfl
  | cons b rest =>
    have hpair : pair? ' ' b = none := rfl
    rw [readBytes, hpair]

/-- A pair is read alone where no other follows the space behind it. -/
theorem readBytes_pair {a b : Char} {byte : UInt8} (h : pair? a b = some byte)
    {more behind : List Char} {bytes : List UInt8} (hmore : readBytes more = (bytes, behind)) :
    readBytes (a :: b :: ' ' :: more) =
      (byte :: bytes, if bytes = [] then ' ' :: more else behind) := by
  rw [readBytes, h]
  change (match readBytes more with
    | ([], _) => ([byte], ' ' :: more)
    | (bytes, behind) => (byte :: bytes, behind)) = _
  rw [hmore]
  cases bytes with
  | nil => rfl
  | cons byte' bytes => rfl

/-- Bytes are read as far as they go: what follows two spaces does not count. -/
theorem readBytes_bytes {bs : List UInt8} (h : bs ≠ []) (rest : List Char) :
    readBytes ((Hex.bytes bs).toList ++ ' ' :: ' ' :: rest) = (bs, ' ' :: ' ' :: rest) := by
  induction bs with
  | nil => exact absurd rfl h
  | cons b bs ih =>
    rw [Hex.toList_bytes_cons]
    split_ifs with hbs
    · -- Of the two spaces behind the last byte the second one starts no pair.
      rw [hbs]
      exact readBytes_pair (Hex.pair?_lowerDigit b) (readBytes_space rest)
    · refine (readBytes_pair (Hex.pair?_lowerDigit b) (ih hbs)).trans ?_
      rw [if_neg hbs]

/-! ## Texts -/

namespace Text

/-- The text starts with something that is not a space. -/
def Opens (s : String) : Prop := ∃ c ∈ s.toList.head?, c ≠ ' '

instance (s : String) : Decidable (Opens s) := inferInstanceAs (Decidable (∃ c ∈ _, _))

theorem Opens.append {s : String} (h : Opens s) (t : String) : Opens (s ++ t) := by
  obtain ⟨c, hc, hne⟩ := h
  refine ⟨c, ?_, hne⟩
  rw [String.toList_append]
  exact List.mem_head?_append_of_mem_head? hc

theorem Opens.head?_ne {s : String} (h : Opens s) : s.toList.head? ≠ some ' ' := fun hspace => by
  obtain ⟨c, hc, hne⟩ := h
  rw [hspace] at hc
  exact hne (Option.some.inj hc).symm

theorem ne_empty_of_mem_vocabulary : ∀ s ∈ vocabulary, s ≠ "" := by
  decide +kernel

theorem opens_of_mem_vocabulary {s : String} (h : s ∈ vocabulary) : Opens s := by
  have hspace : ' ' ∉ s.toList := not_mem_of_isWord (isWord_of_mem_vocabulary s h) rfl rfl
  cases hs : s.toList with
  | nil => exact absurd (String.toList_eq_nil_iff.1 hs) (ne_empty_of_mem_vocabulary s h)
  | cons c cs =>
    rw [hs] at hspace
    exact ⟨c, by rw [hs]; rfl, fun heq => hspace (heq ▸ List.mem_cons_self)⟩

end Text

namespace Instruction

open Text

variable {i : Instruction}

/-- A line opens with the first of the words before the name, or with the name. -/
theorem opens_line (hi : ∀ r, i.prefixes.segment = some r → ∃ s, r = .segment s) {n : String}
    (hn : Opens n) (rest : String) : Opens (i.prefixText ++ n ++ rest) := by
  have hwords := prefixWords_mem_leadingWords hi
  refine Opens.append ?_ rest
  rw [prefixText]
  cases hlist : i.prefixWords with
  | nil => simpa using hn
  | cons w ws =>
    have hw := hwords w (by rw [hlist]; exact List.mem_cons_self)
    rw [List.map_cons, String.join_cons, String.append_assoc, String.append_assoc]
    exact (opens_of_mem_vocabulary (mem_vocabulary_of_mem_leadingWords hw)).append _

end Instruction

theorem Intel.opens_name (i : Instruction) : Text.Opens (name i) := by
  refine Text.opens_of_mem_vocabulary ?_
  cases h : i.stringForm? with
  | some f =>
    rw [name_of_stringForm? h]
    exact Text.mem_vocabulary_of_mem_families (family_mem_families _ (mem_all_of_stringForm? h))
  | none =>
    rw [name_of_stringForm?_eq_none h]
    exact Text.mem_vocabulary_of_mem_names (Text.mem_names _)

theorem ATT.opens_name {i : Instruction} {f : Form} {wide : Bool} (h : i.Composed f wide) :
    Text.Opens (name i) := by
  rcases name_mem_or h with hmem | ⟨-, hname⟩
  · exact Text.opens_of_mem_vocabulary (Text.mem_vocabulary_of_mem_names hmem)
  · rw [hname]
    exact (Text.opens_of_mem_vocabulary
      (Text.mem_vocabulary_of_mem_names (Text.mem_names _))).append _

/-- No text of a record starts with a space. -/
theorem opens_text (mode : Mode) (address : UInt64) (bytes : List UInt8) (d : Dialect) :
    Text.Opens ((decode mode address bytes).text d) := by
  by_cases h : (decode mode address bytes).isValid
  · obtain ⟨f, wide, hi⟩ := exists_composed h
    unfold Instruction.text
    rw [if_pos h]
    cases d with
    | intel => exact Instruction.opens_line hi.override_eq (Intel.opens_name _) _
    | att =>
      dsimp only
      rw [ATT.text_eq]
      exact Instruction.opens_line hi.override_eq (ATT.opens_name hi) _
  · unfold Instruction.text
    rw [if_neg h]
    exact ⟨'(', rfl, by decide⟩

/-! ## Rows -/

theorem behindAddress_eq {a b : List Char} (ha : ':' ∉ a) (hb : b.head? ≠ some ' ') (n : Nat) :
    behindAddress (a ++ ':' :: (List.replicate n ' ' ++ b)) = b := by
  rw [behindAddress, Text.dropWhile_cut ha, List.drop_one, List.tail_cons,
    Text.dropWhile_replicate_append hb]

namespace Instruction

variable {i : Instruction} {d : Dialect} {width : Int}

/-- The spaces between the bytes and the text, where there is a column for bytes. -/
def gap (i : Instruction) (width : Int) : Nat := width.toNat - i.hex.toList.length + 2

theorem toList_listingLine_of_pos (h : 0 < width) : (i.listingLine d width).toList =
    (Hex.padded 8 i.address.toNat).toList ++ ':' :: (List.replicate 2 ' ' ++
      (i.hex.toList ++ (List.replicate (i.gap width) ' ' ++ (i.text d).toList))) := by
  have hcolon : ":  ".toList = ':' :: List.replicate 2 ' ' := rfl
  have hspaces : "  ".toList = List.replicate 2 ' ' := rfl
  rw [listingLine, if_pos h]
  simp only [gap, String.toList_append, String.toList_ofList, List.rightpad, hcolon, hspaces,
    List.replicate_add, List.append_assoc, List.cons_append]

theorem toList_listingLine_of_not_pos (h : ¬ 0 < width) : (i.listingLine d width).toList =
    (Hex.padded 8 i.address.toNat).toList ++
      ':' :: (List.replicate 2 ' ' ++ (i.text d).toList) := by
  rw [listingLine, if_neg h, String.append_empty, String.append_assoc, String.toList_append,
    String.toList_append]
  rfl

/-- What stands in the row of a record. -/
theorem ofRow_listingLine (hbytes : i.bytes ≠ []) (hopens : Text.Opens (i.text d)) (width : Int) :
    RowParts.ofRow width (i.listingLine d width) =
      { address := Hex.padded 8 i.address.toNat
        bytes := if 0 < width then i.bytes else []
        spaces := if 0 < width then i.gap width else 0
        text := i.text d } := by
  have haddress := Hex.not_mem_padded (c := ':') (by decide) 8 i.address.toNat
  have hspaces := Text.takeWhile_replicate_append hopens.head?_ne
  have htext := Text.dropWhile_replicate_append hopens.head?_ne
  by_cases h : 0 < width
  · have hread : readBytes (i.hex.toList ++ (List.replicate (i.gap width) ' ' ++
        (i.text d).toList)) =
        (i.bytes, List.replicate (i.gap width) ' ' ++ (i.text d).toList) :=
      readBytes_bytes hbytes _
    have hdigit : (i.hex.toList ++ (List.replicate (i.gap width) ' ' ++
        (i.text d).toList)).head? ≠ some ' ' := Hex.head?_bytes_append hbytes _
    rw [RowParts.ofRow, toList_listingLine_of_pos h, Text.takeWhile_cut haddress,
      behindAddress_eq haddress hdigit]
    simp only [if_pos h, hread, hspaces, htext, List.length_replicate, String.ofList_toList]
  · -- Without a column the text stands right behind the address.
    have hnone := hspaces 0
    have hall := htext 0
    rw [List.replicate_zero, List.nil_append] at hnone hall
    rw [RowParts.ofRow, toList_listingLine_of_not_pos h, Text.takeWhile_cut haddress,
      behindAddress_eq haddress hopens.head?_ne]
    simp only [if_neg h, hnone, hall, List.length_nil, String.ofList_toList]

/-- Fifteen bytes, with spaces between them, are the most. -/
theorem length_hex_le (hbytes : i.bytes ≠ []) (hlength : i.length ≤ maxLength) :
    i.hex.length ≤ 44 := by
  have hhex := Hex.length_bytes hbytes
  have hmax : i.bytes.length ≤ 15 := hlength
  rw [← String.length_toList, hex]
  omega

end Instruction

/-- **A row loses nothing.** What stands before its first colon are eight digits or more, a numeral
of the record's address. Where there is a column for bytes, the pairs behind it are the bytes of the
record, with two spaces or more after them, however many they are. What is left is the text, which
does not start with a space. -/
theorem decodeAt_listingLine {buffer : List UInt8} {cursor : Nat} (h : cursor < buffer.length)
    (address : UInt64) (mode : Mode) :
    ∃ r, decodeAt buffer cursor address mode = .ok r ∧ r.hex.length ≤ 44 ∧
      ∀ (d : Dialect) (width : Int), ∃ digits spaces,
        RowParts.ofRow width (r.listingLine d width) =
          ⟨digits, if 0 < width then r.bytes else [], spaces, r.text d⟩ ∧
        8 ≤ digits.length ∧ (∀ c ∈ digits.toList, (digit? 16 c).isSome) ∧
        hexadecimal? digits = some r.address.toNat ∧ (0 < width → 2 ≤ spaces) ∧
        Text.Opens (r.text d) := by
  refine ⟨_, decodeAt_of_lt h address mode, ?_⟩
  generalize hr : decode mode address (buffer.drop cursor) = r
  have hbytes : r.bytes ≠ [] := hr ▸ bytes_decode_ne_nil (drop_ne_nil h)
  refine ⟨Instruction.length_hex_le hbytes (hr ▸ length_decode_le_maxLength mode address _),
    fun d width => ?_⟩
  have hopens : Text.Opens (r.text d) := hr ▸ opens_text mode address _ d
  refine ⟨_, _, Instruction.ofRow_listingLine hbytes hopens width, ?_, fun c hc => ?_,
    Hex.hexadecimal?_padded 8 r.address.toNat_lt, fun hwidth => ?_, hopens⟩
  · rw [← String.length_toList]
    exact Hex.le_length_padded 8 _
  · obtain ⟨n, hn, rfl⟩ := Hex.exists_digit_of_mem_padded hc
    rw [Hex.digit?_lowerDigit n hn]
    rfl
  · rw [if_pos hwidth]
    exact Nat.le_add_left 2 _

/-- A `nop` of fifteen bytes. -/
def longNop : List UInt8 :=
  [0x66, 0x66, 0x66, 0x66, 0x66, 0x66, 0x2e, 0x0f, 0x1f, 0x84, 0, 0, 0, 0, 0]

/-- Its row in AT&T syntax. -/
def longNopRow : String :=
  "ffffffff80000000:  66 66 66 66 66 66 2e 0f 1f 84 00 00 00 00 00  cs nopw (%rax,%rax,1)"

/-- Sixteen digits of address, and fifteen bytes in a column of eight characters. -/
theorem decodeAt_listingLine_nop : 0 < longNop.length ∧
    ∃ r, decodeAt longNop 0 0xffffffff80000000 .m64 = .ok r ∧
      r.listingLine .att 8 = longNopRow ∧
      ∃ digits spaces, RowParts.ofRow 8 longNopRow =
          ⟨digits, longNop, spaces, "cs nopw (%rax,%rax,1)"⟩ ∧
        hexadecimal? digits = some 0xffffffff80000000 ∧ 2 ≤ spaces := by
  have hlt : 0 < longNop.length := by decide
  obtain ⟨r, hr, -, hrow⟩ := decodeAt_listingLine hlt 0xffffffff80000000 .m64
  have hdecode := Except.ok.inj (hr.symm.trans (decodeAt_of_lt hlt 0xffffffff80000000 .m64))
  have hrecord : r.bytes = longNop ∧ r.text .att = "cs nopw (%rax,%rax,1)" ∧
      r.address.toNat = 0xffffffff80000000 ∧ r.listingLine .att 8 = longNopRow := by
    rw [hdecode]
    decide +kernel
  obtain ⟨hbytes, htext, haddress, hline⟩ := hrecord
  obtain ⟨digits, spaces, hparts, -, -, hdigits, hspaces, -⟩ := hrow .att 8
  rw [if_pos (by decide), hbytes, htext, hline] at hparts
  exact ⟨hlt, r, hr, hline, digits, spaces, hparts, haddress ▸ hdigits, hspaces (by decide)⟩

end Disasm
