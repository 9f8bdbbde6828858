import Disasm.Disassembly
import Disasm.Proofs.Locality

/-!
# Instructions delimit themselves

**Theorem (`decodeAt_self_delimiting`).** The bytes of a record decode to that record by
themselves. The bytes of a valid one do so wherever they stand and whatever follows them, so that
no instruction is the beginning of a longer one.

Two windows are compared: the one that the record was cut from, and the record's own bytes with
others behind them. The run of prefixes is the same in both (`Prefixes.run_take_append`): the byte
that ended it belongs to the record, except where a window of prefixes alone has run out. After the
prefixes, reading is local. Both together are `exists_decode_append`, and all else follows from it.
-/

namespace Disasm

/-! ## The run of prefixes -/

namespace Prefixes

theorem run_take {mode : Mode} {w : List UInt8} {q : Nat} (hq : (run mode w).length ≤ q) :
    run mode (w.take q) = run mode w := by
  unfold run at hq ⊢
  rw [List.take_take, Nat.min_comm, ← List.take_take, ← List.take_takeWhile,
    List.take_of_length_le hq]

theorem length_run_le (mode : Mode) (w : List UInt8) : (run mode w).length ≤ w.length :=
  (List.takeWhile_prefix _).length_le.trans (List.length_take_le' _ _)

/-- The run does not change with what stands behind the byte that ended it. -/
theorem run_take_append {mode : Mode} {w rest : List UInt8} {q : Nat}
    (hq : (run mode w).length < q) (hw : q ≤ w.length) :
    run mode (w.take q ++ rest) = run mode w := by
  have hlen : (w.take q).length = q := List.length_take_of_le hw
  have hfirst := run_take (Nat.le_of_lt hq)
  unfold run at hq hfirst ⊢
  rw [List.take_append, List.takeWhile_append, hfirst, hlen]
  split
  · next hall =>
    -- The run fills all of its window, so that there is no room behind it.
    have hroom : maxLength - q = 0 := by
      rw [List.length_take, hlen] at hall
      omega
    have hwhole := (List.takeWhile_prefix (isPrefix mode)).eq_of_length (hfirst ▸ hall)
    rw [hroom, List.take_zero, List.takeWhile_nil, List.append_nil, ← hwhole, hfirst]
  · rfl

end Prefixes

/-! ## One record -/

namespace Instruction

theorem ofDecoded_ne_none {address : UInt64} {mode : Mode} {bytes : List UInt8}
    {d : Option Decoded} (h : (ofDecoded address mode bytes d).isValid) : d ≠ none := by
  rintro rfl
  simp [ofDecoded, invalid, ofBytes, isValid] at h

end Instruction

theorem length_window_le (bytes : List UInt8) : (window bytes).length ≤ Instruction.maxLength :=
  List.length_take_le _ _

theorem window_append {w : List UInt8} (h : w.length ≤ Instruction.maxLength)
    (rest : List UInt8) :
    window (w ++ rest) = w ++ rest.take (Instruction.maxLength - w.length) := by
  rw [window, List.take_append, List.take_of_length_le h]

/-- Decoding takes some of the bytes in its window. These decode to the same at any address, and
with other bytes behind them if they form an instruction. -/
theorem exists_decode_append (mode : Mode) {bytes : List UInt8} (h : bytes ≠ []) :
    ∃ (d : Option Decoded) (q : Nat), 1 ≤ q ∧ q ≤ (window bytes).length ∧
      (∀ address, decode mode address bytes =
        Instruction.ofDecoded address mode ((window bytes).take q) d) ∧
      ∀ rest, (d = none → rest = []) → ∀ address,
        decode mode address ((window bytes).take q ++ rest) =
          Instruction.ofDecoded address mode ((window bytes).take q) d := by
  have hpos : 0 < (window bytes).length := by
    have := List.length_pos_iff.2 h
    rw [window, List.length_take, Instruction.maxLength]
    omega
  have hmax := length_window_le bytes
  generalize hw : window bytes = w at hpos hmax
  have hrun := Prefixes.length_run_le mode w
  obtain ⟨d, q, hd, hq, hqw, hlocal⟩ := local_fetchDecoded mode
    (Prefixes.ofRun mode (Prefixes.run mode w)) w _ hrun
  have hadv := advances_fetchDecoded mode (Prefixes.ofRun mode (Prefixes.run mode w)) w _ hrun
  rw [hd] at hadv
  have hq1 : 1 ≤ q := by
    rcases Nat.lt_or_ge (Prefixes.run mode w).length w.length with hlt | hge
    · exact Nat.one_le_of_lt (hadv (Or.inl hlt))
    · exact hpos.trans_le (hge.trans hq)
  have hlen : (w.take q).length = q := List.length_take_of_le hqw
  refine ⟨d, q, hq1, hqw, fun address => ?_, fun rest hrest address => ?_⟩
  · simp only [decode, hw, hd, Nat.max_eq_right hq1]
  · -- Without an instruction nothing follows; with one, its opcode is behind the prefixes.
    have hsame : Prefixes.run mode (w.take q ++ rest.take (Instruction.maxLength - q)) =
        Prefixes.run mode w := by
      cases d with
      | none => rw [hrest rfl, List.take_nil, List.append_nil, Prefixes.run_take hq]
      | some d => exact Prefixes.run_take_append (hadv (Or.inr (Option.some_ne_none d))) hqw
    have hwin := window_append (hlen.trans_le (hqw.trans hmax)) rest
    rw [hlen] at hwin
    have hread := hlocal (rest.take (Instruction.maxLength - q)) fun hc => by
      rw [hrest hc, List.take_nil]
    simp only [decode, hwin, hsame, hread, Nat.max_eq_right hq1]
    rw [List.take_append_of_le_length hlen.ge, List.take_of_length_le hlen.le]

/-- A record's bytes decode to it: by themselves in any case, and with others behind them if the
record is valid. -/
theorem decode_append {mode : Mode} {address : UInt64} {bytes : List UInt8} (h : bytes ≠ [])
    {rest : List UInt8} (hrest : (decode mode address bytes).isValid ∨ rest = []) :
    decode mode address ((decode mode address bytes).bytes ++ rest) =
      decode mode address bytes := by
  obtain ⟨d, q, -, hq, hdec, happ⟩ := exists_decode_append mode h
  have hlen : ((window bytes).take q).length ≤ Instruction.maxLength :=
    (List.length_take_le' _ _).trans (length_window_le bytes)
  have hbytes : (decode mode address bytes).bytes = (window bytes).take q := by
    rw [hdec, Instruction.bytes_ofDecoded, List.take_of_length_le hlen]
  rw [hbytes, hdec]
  refine happ rest (fun hd => ?_) address
  rcases hrest with hvalid | hnil
  · rw [hdec] at hvalid
    exact absurd hd (Instruction.ofDecoded_ne_none hvalid)
  · exact hnil

theorem decode_bytes (mode : Mode) (address : UInt64) {bytes : List UInt8} (h : bytes ≠ []) :
    decode mode address (decode mode address bytes).bytes = decode mode address bytes := by
  have happ := @decode_append mode address bytes h [] (Or.inr rfl)
  rwa [List.append_nil] at happ

/-- Which bytes form a record does not depend on where they stand. -/
theorem bytes_decode_congr (mode : Mode) (a b : UInt64) {bytes : List UInt8} (h : bytes ≠ []) :
    (decode mode a bytes).bytes = (decode mode b bytes).bytes := by
  obtain ⟨d, q, -, -, hdec, -⟩ := exists_decode_append mode h
  rw [hdec a, hdec b, Instruction.bytes_ofDecoded, Instruction.bytes_ofDecoded]

theorem bytes_decode_ne_nil {mode : Mode} {address : UInt64} {bytes : List UInt8}
    (h : bytes ≠ []) : (decode mode address bytes).bytes ≠ [] :=
  List.length_pos_iff.1 (length_decode_pos h)

/-- The bytes of a valid record are not the beginning of more bytes that form a record. -/
theorem bytes_eq_of_isPrefix {mode : Mode} {a b : UInt64} {bytes bytes' : List UInt8}
    (h : bytes ≠ []) (h' : bytes' ≠ []) (hvalid : (decode mode a bytes).isValid)
    (hp : (decode mode a bytes).bytes <+: (decode mode b bytes').bytes) :
    (decode mode a bytes).bytes = (decode mode b bytes').bytes := by
  obtain ⟨rest, hrest⟩ := hp
  -- The longer bytes decode to either record.
  have hshort := @decode_append mode a bytes h rest (Or.inl hvalid)
  have hlong := decode_bytes mode b h'
  rw [hrest] at hshort
  have hsame := bytes_decode_congr mode a b (@bytes_decode_ne_nil mode b bytes' h')
  rwa [hshort, hlong] at hsame

/-! ## A record in a buffer -/

theorem decodeAt_of_lt {buffer : List UInt8} {cursor : Nat} (h : cursor < buffer.length)
    (address : UInt64) (mode : Mode) :
    decodeAt buffer cursor address mode = .ok (decode mode address (buffer.drop cursor)) := by
  rw [decodeAt, if_pos h]

theorem eq_decode_of_decodeAt {buffer : List UInt8} {cursor : Nat} {address : UInt64}
    {mode : Mode} {r : Instruction} (h : decodeAt buffer cursor address mode = .ok r) :
    buffer.drop cursor ≠ [] ∧ r = decode mode address (buffer.drop cursor) := by
  by_cases hc : cursor < buffer.length
  · rw [decodeAt_of_lt hc] at h
    exact ⟨drop_ne_nil hc, (Except.ok.inj h).symm⟩
  · rw [decodeAt, if_neg hc] at h
    exact nomatch h

/-- Bytes that stand somewhere in a buffer are decoded there with those that follow them. -/
theorem decodeAt_of_isPrefix {bytes buffer : List UInt8} {cursor : Nat} (h : bytes ≠ [])
    (hp : bytes <+: buffer.drop cursor) (address : UInt64) (mode : Mode) :
    ∃ rest, decodeAt buffer cursor address mode = .ok (decode mode address (bytes ++ rest)) := by
  obtain ⟨rest, hrest⟩ := hp
  have hlt : cursor < buffer.length := by
    by_contra hge
    rw [List.drop_eq_nil_of_le (Nat.not_lt.1 hge)] at hrest
    exact h (List.append_eq_nil_iff.1 hrest).1
  exact ⟨rest, by rw [decodeAt_of_lt hlt, hrest]⟩

/-- **Instructions delimit themselves.** The record at a place in a buffer is also the record of
its own bytes. If it is valid, it is the record wherever in a buffer its bytes stand, and its bytes
are not the beginning of those of another valid record. -/
theorem decodeAt_self_delimiting {buffer : List UInt8} {cursor : Nat}
    (h : cursor < buffer.length) (address : UInt64) (mode : Mode) :
    ∃ r, decodeAt buffer cursor address mode = .ok r ∧
      decodeAt r.bytes 0 address mode = .ok r ∧
      (r.isValid → ∀ buffer' cursor', r.bytes <+: buffer'.drop cursor' →
        decodeAt buffer' cursor' address mode = .ok r) ∧
      (r.isValid → ∀ buffer' cursor' address' r',
        decodeAt buffer' cursor' address' mode = .ok r' → r'.isValid →
          r.bytes <+: r'.bytes → r.bytes = r'.bytes) := by
  have hne := drop_ne_nil h
  refine ⟨_, decodeAt_of_lt h address mode, ?_, fun hvalid buffer' cursor' hp => ?_,
    fun hvalid buffer' cursor' address' r' hr' _ hp => ?_⟩
  · rw [decodeAt_of_lt (length_decode_pos hne), List.drop_zero, decode_bytes mode address hne]
  · obtain ⟨rest, hrest⟩ := decodeAt_of_isPrefix (bytes_decode_ne_nil hne) hp address mode
    rw [hrest, decode_append hne (Or.inl hvalid)]
  · obtain ⟨hne', rfl⟩ := eq_decode_of_decodeAt hr'
    exact bytes_eq_of_isPrefix hne hne' hvalid hp

/-- An instruction with each kind of part, between two others. -/
theorem decodeAt_self_delimiting_palignr :
    1 < ([0xcc, 0x66, 0x0f, 0x3a, 0x0f, 0x44, 0x88, 0x10, 0x04, 0xc3] : List UInt8).length ∧
      ∃ r, decodeAt [0xcc, 0x66, 0x0f, 0x3a, 0x0f, 0x44, 0x88, 0x10, 0x04, 0xc3] 1 0x1000 .m64 =
          .ok r ∧
        r.isValid ∧ r.bytes = [0x66, 0x0f, 0x3a, 0x0f, 0x44, 0x88, 0x10, 0x04] ∧
        decodeAt r.bytes 0 0x1000 .m64 = .ok r ∧
        ∀ buffer cursor, r.bytes <+: buffer.drop cursor →
          decodeAt buffer cursor 0x1000 .m64 = .ok r := by
  have hlt : 1 < ([0xcc, 0x66, 0x0f, 0x3a, 0x0f, 0x44, 0x88, 0x10, 0x04, 0xc3] :
      List UInt8).length := by decide
  obtain ⟨r, hr, hself, hany, -⟩ := decodeAt_self_delimiting hlt 0x1000 .m64
  obtain ⟨-, rfl⟩ := eq_decode_of_decodeAt hr
  have hvalid : (decode .m64 0x1000 ([0xcc, 0x66, 0x0f, 0x3a, 0x0f, 0x44, 0x88, 0x10, 0x04,
      0xc3].drop 1)).isValid := by decide +kernel
  exact ⟨hlt, _, hr, hvalid, by decide +kernel, hself, hany hvalid⟩

end Disasm
