import Uart16550.Fifo.Basic

/-!
# The queue as a list

One equation per operation about the bytes that a queue holds. After this module no proof needs to
look at the ring: `push?` appends to `toList` or refuses at sixteen bytes, `pop?` removes its head,
`drainInto` takes a front part, `pushAll` appends as much of a batch as fits and `reset` empties it.
-/

namespace Uart16550

namespace Fifo

variable {q : Fifo}

/-! ### Length -/

@[simp] theorem length_toList (q : Fifo) : q.toList.length = q.length := by
  simp [toList]

theorem length_toList_le (q : Fifo) : q.toList.length ≤ capacity := by
  simpa using q.length_le

theorem toList_eq_nil_iff : q.toList = [] ↔ q.length = 0 := by
  rw [← List.length_eq_zero_iff, length_toList]

theorem isEmpty_eq (q : Fifo) : q.isEmpty = q.toList.isEmpty := by
  rw [Bool.eq_iff_iff, List.isEmpty_iff, toList_eq_nil_iff]
  simp [isEmpty]

theorem isFull_eq (q : Fifo) : q.isFull = (q.toList.length == capacity) := by
  simp [isFull]

@[simp] theorem toList_empty : empty.toList = [] := by
  simp [toList, empty]

@[simp] theorem toList_reset (q : Fifo) : q.reset.toList = [] := by
  simp [toList, reset]

/-! ### Appending -/

/-- Two places less than a full turn apart never share a cell. -/
private theorem slot_ne (q : Fifo) {i j : Nat} (hij : i < j) (hj : j < capacity) :
    (q.slot i).val ≠ (q.slot j).val := by
  have := q.head_lt
  simp only [slot, capacity] at *
  omega

theorem push?_eq_none_iff {byte : UInt8} : q.push? byte = none ↔ q.toList.length = capacity := by
  have := q.length_le
  by_cases h : q.length < capacity <;> simp [push?, h] <;> omega

theorem isSome_push? {byte : UInt8} (h : q.toList.length < capacity) :
    (q.push? byte).isSome := by
  rw [Option.isSome_iff_ne_none, Ne, push?_eq_none_iff]
  omega

theorem toList_push? {q' : Fifo} {byte : UInt8} (h : q.push? byte = some q') :
    q'.toList = q.toList ++ [byte] := by
  by_cases hlt : q.length < capacity
  · simp only [push?, hlt, dite_true, Option.some.injEq] at h
    subst h
    apply List.ext_getElem?
    intro i
    rcases Nat.lt_trichotomy i q.length with hi | hi | hi
    · rw [List.getElem?_append_left (by simpa using hi), getElem?_toList, getElem?_toList]
      have hne := slot_ne q hi hlt
      simp only [hi, if_true, Nat.lt_succ_of_lt hi]
      congr 1
      exact Vector.getElem_set_ne _ _ (Ne.symm hne)
    · subst hi
      rw [List.getElem?_append_right (by simp), getElem?_toList]
      simp only [Nat.lt_succ_self, if_true, length_toList, Nat.sub_self, List.getElem?_cons_zero]
      congr 1
      exact Vector.getElem_set_self _
    · rw [List.getElem?_append_right (by simpa using Nat.le_of_lt hi), getElem?_toList]
      rw [if_neg (by simp only; omega), length_toList, List.getElem?_eq_none]
      simp only [List.length_singleton]
      omega
  · simp [push?, hlt] at h

/-! ### Taking out -/

theorem pop?_eq_none_iff : q.pop? = none ↔ q.toList = [] := by
  rw [toList_eq_nil_iff]
  by_cases h : q.length = 0 <;> simp [pop?, h]

theorem toList_pop? {q' : Fifo} {byte : UInt8} (h : q.pop? = some (byte, q')) :
    q.toList = byte :: q'.toList := by
  by_cases hz : q.length = 0
  · simp [pop?, hz] at h
  · simp only [pop?, hz, if_false, Option.some.injEq, Prod.mk.injEq] at h
    obtain ⟨rfl, rfl⟩ := h
    apply List.ext_getElem?
    intro i
    cases i with
    | zero => rw [getElem?_toList, if_pos (Nat.pos_of_ne_zero hz), List.getElem?_cons_zero]
    | succ i =>
      rw [List.getElem?_cons_succ, getElem?_toList, getElem?_toList]
      by_cases hi : i + 1 < q.length
      · rw [if_pos hi, if_pos (by simp only; omega)]
        congr 1
        simp only [Fin.getElem_fin, slot]
        congr 1
        simp only [capacity]
        omega
      · rw [if_neg hi, if_neg (by simp only; omega)]

/-- The head of the queue and what is left of it, as one equation. -/
theorem pop?_map_toList (q : Fifo) :
    (q.pop?.map fun p => (p.1, p.2.toList)) = q.toList.head?.map fun b => (b, q.toList.tail) := by
  cases h : q.pop? with
  | none => simp [pop?_eq_none_iff.1 h]
  | some p =>
    obtain ⟨byte, rest⟩ := p
    simp [toList_pop? h]

/-- Draining moves as many of the oldest bytes as the buffer has room for to its front. -/
theorem drainInto_eq (q : Fifo) (out : List UInt8) :
    (q.drainInto out).1 = min q.toList.length out.length ∧
    (q.drainInto out).2.1 = q.toList.take out.length ++ out.drop q.toList.length ∧
    (q.drainInto out).2.2.toList = q.toList.drop out.length := by
  induction out generalizing q with
  | nil => simp [drainInto]
  | cons old out ih =>
    cases h : q.pop? with
    | none => simp [drainInto, h, pop?_eq_none_iff.1 h]
    | some p =>
      obtain ⟨byte, rest⟩ := p
      obtain ⟨h₁, h₂, h₃⟩ := ih rest
      simp [drainInto, h, toList_pop? h, h₁, h₂, h₃]

theorem length_drainInto (q : Fifo) (out : List UInt8) :
    (q.drainInto out).2.1.length = out.length := by
  rw [(drainInto_eq q out).2.1]
  simp
  omega

/-! ### Batches -/

/-- A batch is appended up to the byte that no longer fits. -/
theorem pushAll_eq (q : Fifo) (batch : List UInt8) :
    (q.pushAll batch).1 = min batch.length (capacity - q.toList.length) ∧
    (q.pushAll batch).2.toList =
      q.toList ++ batch.take (capacity - q.toList.length) := by
  induction batch generalizing q with
  | nil => simp [pushAll]
  | cons byte batch ih =>
    cases h : q.push? byte with
    | none =>
      have := push?_eq_none_iff.1 h
      simp [pushAll, h, this]
    | some q' =>
      obtain ⟨h₁, h₂⟩ := ih q'
      have hlt : q.toList.length < capacity := by
        have hne : q.toList.length ≠ capacity := fun hc => by
          rw [push?_eq_none_iff.2 hc] at h; simp at h
        have := q.length_toList_le
        omega
      have hroom : capacity - q.toList.length = (capacity - q'.toList.length) + 1 := by
        rw [toList_push? h, List.length_append, List.length_singleton]; omega
      rw [hroom, List.take_succ_cons]
      simp only [pushAll, h, h₁, h₂, List.length_cons]
      exact ⟨by omega, by rw [toList_push? h]; simp⟩

end Fifo

end Uart16550
