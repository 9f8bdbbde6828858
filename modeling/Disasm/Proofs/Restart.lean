import Disasm.Proofs.Partition

/-!
# A disassembly can be restarted anywhere

**Theorem (`walk_restarts`).** The records met from some offset on are those of the bytes from
there on, disassembled by themselves. A walk of so many steps from the first byte comes to the
offset that the records it has passed end at, and walks that come to one offset go on together.

What a walk meets depends only on where it is (`toList_eq_records`), so it is enough to know what
is left after some steps (`toList_iterate_next`) and where they lead (`offset_iterate_next`). The
end is no exception: its record has no bytes, and a step leaves it where it is.
-/

namespace Disasm.Disassembly

open Iterator

variable {d : Disassembly}

/-! ## Steps -/

theorem Iterator.offset_next (it : Iterator d) : it.next.offset = it.offset + it.record.length :=
  rfl

theorem Iterator.next_of_not_lt {it : Iterator d} (h : ¬ it.offset < d.bytes.length) :
    it.next = it := by
  refine Iterator.ext ?_
  rw [offset_next, record, if_neg h]
  rfl

theorem next_last (d : Disassembly) : d.last.next = d.last := by
  refine Iterator.next_of_not_lt ?_
  rw [offset_last]
  exact Nat.lt_irrefl _

/-- A step meets the first of the records that are left, if there is one. -/
theorem Iterator.toList_next (it : Iterator d) : it.next.toList = it.toList.tail := by
  by_cases h : it.offset < d.bytes.length
  · rw [toList_of_lt h, List.tail_cons]
  · rw [next_of_not_lt h, toList_of_not_lt h, List.tail_nil]

theorem Iterator.toList_iterate_next (it : Iterator d) (k : Nat) :
    (next^[k] it).toList = it.toList.drop k := by
  induction k generalizing it with
  | zero => rfl
  | succ k ih => rw [Function.iterate_succ_apply, ih, toList_next, List.drop_tail]

/-- A walk has come as far as the records that it has met are long. -/
theorem Iterator.offset_iterate_next (it : Iterator d) (k : Nat) :
    (next^[k] it).offset = it.offset + ((it.toList.take k).map Instruction.length).sum := by
  induction k generalizing it with
  | zero => rfl
  | succ k ih =>
    rw [Function.iterate_succ_apply, ih]
    by_cases h : it.offset < d.bytes.length
    · rw [toList_of_lt h, List.take_succ_cons, List.map_cons, List.sum_cons, offset_next,
        Nat.add_assoc]
    · rw [next_of_not_lt h, toList_of_not_lt h, List.take_nil, List.take_nil]

/-! ## Increments -/

/-- Where increments of these kinds lead, one after the other. -/
def Iterator.walk (it : Iterator d) (moves : List Increment) : Iterator d :=
  moves.foldl (fun it m => (it.increment m).2) it

/-- However it is incremented, an iterator goes on by one step. -/
theorem Iterator.walk_eq_iterate_next (it : Iterator d) (moves : List Increment) :
    it.walk moves = next^[moves.length] it := by
  induction moves generalizing it with
  | nil => rfl
  | cons m moves ih =>
    have hm : (it.increment m).2 = it.next := by cases m <;> rfl
    rw [walk, List.foldl_cons, hm, List.length_cons, Function.iterate_succ_apply, ← ih]
    rfl

/-! ## Places -/

theorem offset_iteratorAt {o : Nat} (h : o ≤ d.bytes.length) : (d.iteratorAt o).offset = o :=
  Nat.min_eq_left h

theorem iteratorAt_of_le {o : Nat} (h : d.bytes.length ≤ o) : d.iteratorAt o = d.last :=
  Iterator.ext ((Nat.min_eq_right h).trans (offset_last d).symm)

theorem Iterator.eq_iteratorAt {it : Iterator d} {o : Nat} (h : it.offset = o) :
    it = d.iteratorAt o := by
  subst h
  exact Iterator.ext (offset_iteratorAt it.offset_le).symm

/-- From an offset on, the records are those of the bytes from there on. -/
theorem toList_iteratorAt {o : Nat} (h : o ≤ d.bytes.length) :
    (d.iteratorAt o).toList = records d.context.mode (d.context.base + UInt64.ofNat o)
      (d.bytes.drop o) := by
  rw [toList_eq_records, offset_iteratorAt h]

/-- **A disassembly can be restarted anywhere.** From an offset within the buffer on, a walk meets
the records of the bytes from there on, disassembled by themselves, and then the end; an offset
past them is the end. As many increments of either kind as the first records number lead from the
first byte to where these records end, and to the record after them. The end stays where it is.
Two walks that come to one offset meet the same records from there on. -/
theorem walk_restarts (bytes : List UInt8) (context : Context) (h : bytes ≠ []) :
    ∃ d, ofBytes bytes context = .ok d ∧
      (∀ o < bytes.length, ∃ tail,
        ofBytes (bytes.drop o) ⟨context.mode, context.base + UInt64.ofNat o⟩ = .ok tail ∧
          (d.iteratorAt o).toList = tail.toList ∧
          next^[tail.toList.length] (d.iteratorAt o) = d.last ∧
          ∀ (k : Nat) (hk : k < tail.toList.length),
            next^[k] (d.iteratorAt o) ≠ d.last ∧
              (next^[k] (d.iteratorAt o)).record = tail.toList[k]) ∧
      (∀ o, bytes.length ≤ o → d.iteratorAt o = d.last) ∧
      (∀ moves : List Increment,
        d.first.walk moves =
            d.iteratorAt ((d.toList.take moves.length).map Instruction.length).sum ∧
          ∀ hk : moves.length < d.toList.length,
            (d.first.walk moves).record = d.toList[moves.length]) ∧
      (∀ m, (d.last.increment m).2 = d.last) ∧
      ∀ o o' j k, (next^[j] (d.iteratorAt o)).offset = (next^[k] (d.iteratorAt o')).offset →
        (d.iteratorAt o).toList.drop j = (d.iteratorAt o').toList.drop k ∧
          ∀ n, next^[n + j] (d.iteratorAt o) = next^[n + k] (d.iteratorAt o') := by
  let d : Disassembly := ⟨bytes, context, h⟩
  refine ⟨d, dif_neg h, fun o ho => ?_, fun o ho => iteratorAt_of_le ho, fun moves => ⟨?_, ?_⟩,
    fun m => ?_, fun o o' j k hjk => ?_⟩
  · have hne : bytes.drop o ≠ [] := fun he => by
      have := congrArg List.length he
      rw [List.length_drop, List.length_nil] at this
      omega
    let tail : Disassembly := ⟨bytes.drop o, ⟨context.mode, context.base + UInt64.ofNat o⟩, hne⟩
    have htail : (d.iteratorAt o).toList = tail.toList := toList_iteratorAt (Nat.le_of_lt ho)
    have hwalk := (d.iteratorAt o).iterate_next
    simp only [htail] at hwalk
    exact ⟨tail, dif_neg hne, htail, hwalk⟩
  · refine Iterator.eq_iteratorAt ?_
    have hfirst : d.first.offset = 0 := offset_iteratorAt (Nat.zero_le _)
    rw [walk_eq_iterate_next, offset_iterate_next, toList_first, hfirst, Nat.zero_add]
  · intro hk
    have hrec := d.first.iterate_next.2 moves.length
    simp only [toList_first] at hrec
    rw [walk_eq_iterate_next]
    exact (hrec hk).2
  · cases m <;> exact next_last d
  · have hsame : next^[j] (d.iteratorAt o) = next^[k] (d.iteratorAt o') := Iterator.ext hjk
    refine ⟨?_, fun n => ?_⟩
    · rw [← toList_iterate_next, ← toList_iterate_next, hsame]
    · rw [Function.iterate_add_apply, Function.iterate_add_apply, hsame]

/-- Ten bytes at an address from which they run past the largest one. A walk that starts inside
the first instruction comes to the third byte, like the walk from the first byte. -/
theorem walk_restarts_inside :
    ([0x48, 0x89, 0xe5, 0x0f, 0xff, 0x66, 0x90, 0xe8, 0x00, 0x01] : List UInt8) ≠ [] ∧
      ∃ d, ofBytes [0x48, 0x89, 0xe5, 0x0f, 0xff, 0x66, 0x90, 0xe8, 0x00, 0x01]
          ⟨.m64, 0xfffffffffffffffe⟩ = .ok d ∧
        (∃ tail, ofBytes [0x89, 0xe5, 0x0f, 0xff, 0x66, 0x90, 0xe8, 0x00, 0x01]
            ⟨.m64, 0xffffffffffffffff⟩ = .ok tail ∧
          (d.iteratorAt 1).toList = tail.toList) ∧
        (d.iteratorAt 0).toList.drop 1 = (d.iteratorAt 1).toList.drop 1 := by
  have hne : ([0x48, 0x89, 0xe5, 0x0f, 0xff, 0x66, 0x90, 0xe8, 0x00, 0x01] : List UInt8) ≠ [] := by
    decide
  obtain ⟨d, hd, htail, -, -, -, hmeet⟩ := walk_restarts _ ⟨.m64, 0xfffffffffffffffe⟩ hne
  obtain ⟨tail, ht, hlist, -⟩ := htail 1 (by decide)
  cases hd
  exact ⟨hne, _, rfl, ⟨tail, ht, hlist⟩, (hmeet 0 1 1 1 (by decide +kernel)).1⟩

end Disasm.Disassembly
