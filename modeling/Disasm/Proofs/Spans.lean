import Disasm.Proofs.Encoding
import Disasm.Proofs.Locality

/-!
# How far reading comes

* `Fetch.Spans` — a computation succeeds if and only if a condition holds and a number of bytes is
  left, which it then consumes.
* `Fetch.Reads` — a computation has one outcome that bytes can lead to, and consumes a number of
  them.
* `Fetch.Ensures` — what holds of every value that a computation gives.

Each is about a sequence if it is about its parts. The last section applies them to the operands
with bytes of their own, which span their `OperandSpec.fieldLength`.
-/

namespace Disasm

/-! ## Spans -/

namespace Fetch

variable {α β : Type}

/-- At this place a computation succeeds if and only if `ok` holds and there are `n` more bytes,
and then it consumes these. -/
def Spans (m : Fetch α) (w : List UInt8) (p : Nat) (ok : Prop) (n : Nat) : Prop :=
  p ≤ w.length →
    (ok ∧ p + n ≤ w.length ∧ ∃ a, m ⟨w, p⟩ = (some a, ⟨w, p + n⟩)) ∨
      (¬ (ok ∧ p + n ≤ w.length) ∧ (m ⟨w, p⟩).1 = none)

variable {w : List UInt8} {p : Nat}

theorem Spans.congr {m : Fetch α} {ok ok' : Prop} {n n' : Nat} (h : m.Spans w p ok n)
    (hok : ok ↔ ok') (hn : n = n') : m.Spans w p ok' n' := by
  subst hn
  intro hp
  rw [← hok]
  exact h hp

theorem spans_field (n : Nat) (f : List UInt8 → α) : (field n f).Spans w p True n := by
  intro _
  by_cases h : p + n ≤ w.length
  · exact Or.inl ⟨trivial, h, _, field_of_le h⟩
  · refine Or.inr ⟨fun hc => h hc.2, ?_⟩
    rw [field_of_not_le h]

theorem spans_unsigned (n : Nat) : (unsigned n).Spans w p True n := spans_field n _

theorem spans_signed (n : Nat) : (signed n).Spans w p True n := by
  rw [signed_eq_field]
  exact spans_field n _

theorem spans_ofOption (v : Option α) : (ofOption v).Spans w p v.isSome 0 := by
  intro hp
  cases v with
  | none => exact Or.inr ⟨fun hc => Bool.false_ne_true hc.1, rfl⟩
  | some a => exact Or.inl ⟨rfl, hp, a, rfl⟩

theorem spans_pure (a : α) : (pure a : Fetch α).Spans w p True 0 :=
  (spans_ofOption (some a)).congr (by simp) rfl

theorem spans_fail : (fail : Fetch α).Spans w p False 0 :=
  (spans_ofOption none).congr (by simp) rfl

theorem bind_eq_none {m : Fetch α} {f : α → Fetch β} {r : Reader} (h : (m r).1 = none) :
    ((m >>= f) r).1 = none := by
  rw [bind_apply]
  cases hv : m r with
  | mk v r' =>
    rw [hv] at h
    cases h
    rfl

theorem Spans.bind {m : Fetch α} {f : α → Fetch β} {ok ok' : Prop} {n n' : Nat}
    (hm : m.Spans w p ok n)
    (hf : ∀ a, (m ⟨w, p⟩).1 = some a → (f a).Spans w (p + n) ok' n') :
    (m >>= f).Spans w p (ok ∧ ok') (n + n') := by
  intro hp
  rcases hm hp with ⟨hok, hn, a, ha⟩ | ⟨hno, hnone⟩
  · rw [bind_apply, ha, ← Nat.add_assoc]
    rcases hf a (by rw [ha]) hn with ⟨hok', hn', b, hb⟩ | ⟨hno, hnone⟩
    · exact Or.inl ⟨⟨hok, hok'⟩, hn', b, hb⟩
    · exact Or.inr ⟨fun hc => hno ⟨hc.1.2, hc.2⟩, hnone⟩
  · exact Or.inr ⟨fun hc => hno ⟨hc.1.1, by omega⟩, bind_eq_none hnone⟩

theorem Spans.map {m : Fetch α} {ok : Prop} {n : Nat} (hm : m.Spans w p ok n) (f : α → β) :
    (m >>= fun a => pure (f a)).Spans w p ok n :=
  (hm.bind fun a _ => spans_pure (f a)).congr (and_iff_left trivial) rfl

/-! ## Outcomes -/

/-- At this place a computation consumes `n` bytes and gives `a`; where there are fewer it
fails. -/
def Reads (m : Fetch α) (w : List UInt8) (p n : Nat) (a : α) : Prop :=
  p ≤ w.length →
    (p + n ≤ w.length ∧ m ⟨w, p⟩ = (some a, ⟨w, p + n⟩)) ∨
      (¬ p + n ≤ w.length ∧ (m ⟨w, p⟩).1 = none)

theorem reads_pure (a : α) : (pure a : Fetch α).Reads w p 0 a := fun hp => Or.inl ⟨hp, rfl⟩

/-- The next byte is that of any bytes which the window is the beginning of. -/
theorem reads_byte {bytes : List UInt8} (hw : w <+: bytes) :
    byte.Reads w p 1 (Encoding.byteAt bytes p) := by
  intro _
  by_cases h : p < w.length
  · refine Or.inl ⟨h, ?_⟩
    rw [byte_of_lt h, hw.getElem h, Encoding.byteAt, List.getD_eq_getElem?_getD,
      List.getElem?_eq_getElem (h.trans_le hw.length_le), Option.getD_some]
  · refine Or.inr ⟨h, ?_⟩
    rw [byte_of_not_lt h]

theorem Reads.spans_bind {m : Fetch α} {f : α → Fetch β} {a : α} {ok : Prop} {n n' : Nat}
    (hm : m.Reads w p n a) (hf : (f a).Spans w (p + n) ok n') :
    (m >>= f).Spans w p ok (n + n') := by
  intro hp
  rcases hm hp with ⟨hn, ha⟩ | ⟨hno, hnone⟩
  · rw [bind_apply, ha, ← Nat.add_assoc]
    exact hf hn
  · exact Or.inr ⟨fun hc => hno (by omega), bind_eq_none hnone⟩

theorem Reads.bind {m : Fetch α} {f : α → Fetch β} {a : α} {b : β} {n n' : Nat}
    (hm : m.Reads w p n a) (hf : (f a).Reads w (p + n) n' b) :
    (m >>= f).Reads w p (n + n') b := by
  intro hp
  rcases hm hp with ⟨hn, ha⟩ | ⟨hno, hnone⟩
  · rw [bind_apply, ha, ← Nat.add_assoc]
    exact hf hn
  · exact Or.inr ⟨fun hc => hno (by omega), bind_eq_none hnone⟩

theorem Reads.map {m : Fetch α} {a : α} {n : Nat} (hm : m.Reads w p n a) (f : α → β) :
    (m >>= fun a => pure (f a)).Reads w p n (f a) :=
  @Reads.bind _ _ _ _ m (fun a => pure (f a)) _ _ _ _ hm (reads_pure (f a))

/-! ## Values -/

/-- Every value that a computation gives has the property. -/
def Ensures (m : Fetch α) (P : α → Prop) : Prop := ∀ r a, (m r).1 = some a → P a

theorem ensures_pure {P : α → Prop} {a : α} (h : P a) : (pure a : Fetch α).Ensures P :=
  fun _ _ hb => Option.some.inj hb ▸ h

theorem ensures_bind {m : Fetch α} {f : α → Fetch β} {P : β → Prop} (Q : α → Prop)
    (hm : m.Ensures Q) (hf : ∀ a, Q a → (f a).Ensures P) : (m >>= f).Ensures P := by
  intro r b h
  rw [bind_apply] at h
  cases hv : m r with
  | mk v r' =>
    rw [hv] at h
    cases v with
    | none => exact nomatch h
    | some a => exact hf a (hm r a (by rw [hv])) r' b h

/-- What a sequence ensures may rest on its second part alone. -/
theorem ensures_bind_of_forall {m : Fetch α} {f : α → Fetch β} {P : β → Prop}
    (hf : ∀ a, (f a).Ensures P) : (m >>= f).Ensures P := by
  refine ensures_bind (fun _ => True) ?_ ?_
  · intro _ _ _
    trivial
  · intro a _
    exact hf a

end Fetch

open Fetch

/-! ## Operands with bytes of their own -/

variable {w : List UInt8} {p : Nat}

theorem spans_fetchImmediate (c : OperandContext) {type : OperandType}
    (h : [.b, .bs, .w, .z, .v].contains type) (number : Nat) :
    (fetchImmediate c type).Spans w p True
      (OperandSpec.fieldLength ⟨.I, type, number⟩ c.operationSize c.addressSize) := by
  cases type with
  | b => exact (spans_unsigned 1).map _
  | bs => exact (spans_signed 1).map _
  | w => exact (spans_unsigned 2).map _
  | z =>
    unfold fetchImmediate OperandSpec.fieldLength
    dsimp only
    split_ifs
    · exact (spans_signed 2).map _
    · exact (spans_signed 4).map _
  | v =>
    unfold fetchImmediate OperandSpec.fieldLength
    dsimp only
    cases c.operationSize with
    | word => exact (spans_unsigned 2).map _
    | qword => exact (spans_signed 8).map _
    | _ => exact (spans_unsigned 4).map _
  | _ => cases h

theorem spans_fetchRelative (c : OperandContext) (type : OperandType) (number : Nat) :
    (fetchRelative c type).Spans w p True
      (OperandSpec.fieldLength ⟨.J, type, number⟩ c.operationSize c.addressSize) := by
  unfold fetchRelative
  by_cases hb : type = .b
  · subst hb
    exact (spans_signed 1).map _
  · have hlen : OperandSpec.fieldLength ⟨.J, type, number⟩ c.operationSize c.addressSize =
        if c.operationSize = .word then 2 else 4 := by
      cases type <;> first | rfl | exact absurd rfl hb
    rw [if_neg hb, hlen]
    split_ifs
    · exact (spans_signed 2).map _
    · exact (spans_signed 4).map _

theorem spans_fetchAbsolute (a : AddressSize) : (fetchAbsolute a).Spans w p True (a.bits / 8) := by
  cases a with
  | a16 => exact (spans_unsigned 2).map _
  | a32 => exact (spans_unsigned 4).map _
  | a64 => exact spans_signed 8

theorem spans_fetchOffset (c : OperandContext) (type : OperandType) :
    (fetchOffset c type).Spans w p True (c.addressSize.bits / 8) :=
  (spans_fetchAbsolute c.addressSize).map _

theorem spans_fetchFar (c : OperandContext) :
    (fetchFar c).Spans w p True (if c.operationSize = .word then 2 + 2 else 4 + 2) := by
  unfold fetchFar
  split_ifs
  · exact ((spans_unsigned 2).bind fun _ _ => (spans_unsigned 2).map _).congr (and_self_iff) rfl
  · exact ((spans_unsigned 4).bind fun _ _ => (spans_unsigned 2).map _).congr (and_self_iff) rfl

end Disasm
