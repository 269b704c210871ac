import Mathlib.Algebra.Order.Field.Rat
import Mathlib.Tactic.NormNum
import Uart16550.Proofs.Accounting

/-!
# What the average flush size averages

The average flush size is meant to be the number of bytes handed to the consumer per delivering
flush, one made with a consumer bound. Its two sides are counted under different conditions: bytes
under what became of them, flushes under their reason, whether anybody took the bytes or not. So
every flush without a consumer pulls the average down (`Metrics.Averages`): it is what it is meant
to be exactly if there was no such flush, or no byte was handed over at all
(`averages_eq_intended_iff`).
-/

namespace Uart16550

namespace Metrics

/-- The average flush size as a fraction, zero before the first flush. -/
def average (m : Metrics) : ℚ := m.averageRatio.1.toNat / m.averageRatio.2.toNat

/-- The bytes handed over per delivering flush, zero if there was none. -/
def intendedAverage (bytes delivering : Nat) : ℚ := bytes / delivering

/-- What the average comes to when flushes have handed over so many bytes, so many of them with a
consumer bound and so many without. -/
structure Averages (m : Metrics) (bytes delivering discarding : Nat) : Prop where
  average_eq : m.average = bytes / (delivering + discarding : Nat)
  le_intended : m.average ≤ intendedAverage bytes delivering
  eq_intended_iff : m.average = intendedAverage bytes delivering ↔ discarding = 0 ∨ bytes = 0

/-! ### Two quotients -/

variable {bytes delivering discarding : Nat}

/-- A larger divisor makes the quotient smaller, unless there is nothing to divide. -/
theorem div_add_le (h : delivering = 0 → bytes = 0) :
    (bytes : ℚ) / (delivering + discarding : Nat) ≤ bytes / delivering := by
  rcases Nat.eq_zero_or_pos delivering with h0 | hpos
  · simp [h h0]
  · have hpos' : (0 : ℚ) < delivering := by exact_mod_cast hpos
    have hle : (delivering : ℚ) ≤ (delivering + discarding : Nat) := by
      exact_mod_cast Nat.le_add_right delivering discarding
    exact div_le_div_of_nonneg_left (Nat.cast_nonneg bytes) hpos' hle

theorem div_add_eq_iff (h : delivering = 0 → bytes = 0) :
    (bytes : ℚ) / (delivering + discarding : Nat) = bytes / delivering ↔
      discarding = 0 ∨ bytes = 0 := by
  rcases Nat.eq_zero_or_pos delivering with h0 | hpos
  · simp [h h0]
  · have hne : (delivering : ℚ) ≠ 0 := by exact_mod_cast Nat.ne_of_gt hpos
    have hne' : ((delivering + discarding : Nat) : ℚ) ≠ 0 := by
      exact_mod_cast Nat.ne_of_gt (Nat.add_pos_left hpos discarding)
    rw [div_eq_div_iff hne' hne]
    have hcast : (bytes : ℚ) * delivering = bytes * (delivering + discarding : Nat) ↔
        bytes * delivering = bytes * (delivering + discarding) := by
      exact_mod_cast Iff.rfl
    rw [hcast, Nat.mul_add, Nat.left_eq_add, Nat.mul_eq_zero, or_comm]

/-- The counters decide the average. -/
theorem averages_of_ratio {m : Metrics}
    (hratio : m.averageRatio = (.ofNat bytes, .ofNat (delivering + discarding)))
    (hbytes : bytes < 2 ^ 64) (hflushes : delivering + discarding < 2 ^ 64)
    (hnone : delivering = 0 → bytes = 0) : m.Averages bytes delivering discarding := by
  have haverage : m.average = bytes / (delivering + discarding : Nat) := by
    rw [average, hratio, UInt64.toNat_ofNat_of_lt' hbytes, UInt64.toNat_ofNat_of_lt' hflushes]
  refine ⟨haverage, ?_, ?_⟩
  · rw [haverage]
    exact div_add_le hnone
  · rw [haverage]
    exact div_add_eq_iff hnone

/-- The two sides of the average, read off the counters. -/
theorem averageRatio_of_value {m : Metrics} {counted : Counter → Nat}
    (h : ∀ c, m.value c = .ofNat (counted c)) :
    m.averageRatio = (.ofNat (counted .txBytes), .ofNat (counted (.flushes .threshold) +
      counted (.flushes .idle) + counted (.flushes .full))) := by
  have hratio : m.averageRatio = (m.value .txBytes,
      m.value (.flushes .threshold) + m.value (.flushes .idle) + m.value (.flushes .full)) := rfl
  rw [hratio, h, h, h, h, UInt64.ofNat_add, UInt64.ofNat_add]

/-! ### Lists of events -/

/-- Whether an event is a flush with a consumer bound. -/
def Event.delivers : Event → Bool
  | .flush _ _ delivered => delivered
  | _ => false

/-- Whether an event is a flush with nobody to take the bytes. -/
def Event.discards : Event → Bool
  | .flush _ _ delivered => !delivered
  | _ => false

/-- Every flush has one reason, and a consumer or none. -/
theorem weight_flushes (e : Event) :
    e.weight (.flushes .threshold) + e.weight (.flushes .idle) + e.weight (.flushes .full) =
      (if e.delivers then 1 else 0) + if e.discards then 1 else 0 := by
  cases e with
  | flush reason bytes delivered => cases reason <;> cases delivered <;> rfl
  | _ => rfl

theorem total_flushes (es : List Event) :
    total (.flushes .threshold) es + total (.flushes .idle) es + total (.flushes .full) es =
      es.countP (·.delivers) + es.countP (·.discards) := by
  induction es with
  | nil => rfl
  | cons e es ih =>
    have hweight := weight_flushes e
    simp only [total_cons, List.countP_cons]
    omega

/-- Bytes are handed over by delivering flushes only. -/
theorem total_txBytes_eq_zero {es : List Event} (h : es.countP (·.delivers) = 0) :
    total .txBytes es = 0 := by
  induction es with
  | nil => rfl
  | cons e es ih =>
    rw [List.countP_cons] at h
    obtain ⟨hes, he⟩ := Nat.add_eq_zero_iff.mp h
    rw [total_cons, ih hes]
    cases e with
    | flush reason bytes delivered =>
      cases delivered with
      | true => cases he
      | false => rfl
    | _ => rfl

/-- Counters that were reset average the flushes since. -/
theorem averages_recordAll {m : Metrics} (h : m.enabled = true) {es : List Event}
    (hbytes : total .txBytes es < 2 ^ 64)
    (hflushes : es.countP (·.delivers) + es.countP (·.discards) < 2 ^ 64) :
    (m.reset.recordAll es).Averages (total .txBytes es) (es.countP (·.delivers))
      (es.countP (·.discards)) := by
  have hreset : m.reset = .zero true := congrArg Metrics.zero h
  have hvalue : ∀ c, (m.reset.recordAll es).value c = .ofNat (total c es) := fun c => by
    rw [hreset, value_recordAll rfl, value_zero, UInt64.zero_add]
  refine averages_of_ratio ?_ hbytes hflushes total_txBytes_eq_zero
  rw [averageRatio_of_value hvalue, total_flushes]

end Metrics

variable {σ : Type}

namespace Device

open Metrics

/-! ### Runs of a device -/

/-- The flushes among departures are those that called the consumer and those that discarded what
was queued. -/
theorem countP_isFlush (line : UInt8) (xs : List Departure) :
    xs.countP (·.isFlush .threshold) + xs.countP (·.isFlush .idle) + xs.countP (·.isFlush .full) =
      (xs.filterMap (·.call? line)).length + xs.countP (·.isDiscarded) := by
  have hreason (reason : FlushReason) :
      total (.flushes reason) (xs.filterMap (·.event?)) = xs.countP (·.isFlush reason) :=
    total_departures line xs (.flushes reason)
  have hcalled : (xs.filterMap (·.event?)).countP (·.delivers) =
      (xs.filterMap (·.call? line)).length := by
    rw [List.countP_filterMap, List.length_filterMap_eq_countP]
    refine List.countP_congr fun x _ => ?_
    obtain ⟨bytes, route⟩ := x
    cases route <;> simp [Departure.event?, Departure.call?, Event.delivers]
  have hdiscarded : (xs.filterMap (·.event?)).countP (·.discards) = xs.countP (·.isDiscarded) := by
    rw [List.countP_filterMap]
    refine List.countP_congr fun x _ => ?_
    obtain ⟨bytes, route⟩ := x
    cases route <;> simp [Departure.event?, Departure.isDiscarded, Event.discards]
  rw [← hreason, ← hreason, ← hreason, total_flushes, hcalled, hdiscarded]

/-- The flushes of a run that found no consumer. -/
def discardings (d : Device σ) (ms : List (Move σ)) : List Departure :=
  (chronicle departures d ms).filter (·.isDiscarded)

theorem averages_after {before since : List (Move σ)} (hbefore : StartsCounting before)
    (hsince : .operate .resetCounters ∉ since) (info : LineInfo) :
    let start : Device σ := (create info true).after before
    ((start.calls since).flatMap (·.bytes)).length < 2 ^ 64 →
    (start.calls since).length + (start.discardings since).length < 2 ^ 64 →
    (start.after since).metrics.Averages ((start.calls since).flatMap (·.bytes)).length
      (start.calls since).length (start.discardings since).length := by
  intro start hbytes hflushes
  have hratio := averageRatio_of_value (hbefore.value_eq hsince info)
  have hcount : start.happened since (.flushes .threshold) + start.happened since (.flushes .idle) +
      start.happened since (.flushes .full) =
        (start.calls since).length + (start.discardings since).length := by
    rw [calls_eq_departures, discardings, ← List.countP_eq_length_filter]
    exact countP_isFlush start.line _
  refine averages_of_ratio (hratio.trans ?_) hbytes hflushes fun hnone => ?_
  · rw [hcount]
    rfl
  · rw [List.eq_nil_of_length_eq_zero hnone]
    rfl

end Device

/-! ### The average and its intent -/

open Metrics Device in
/-- **What the average flush size averages.** Over any list of events from a reset on, and over any
run of a device that counts from its creation or the last reset of its counters on, the average is
the number of bytes handed to the consumer divided by the number of all flushes, those without a
consumer among them. It is never more than the number of bytes per delivering flush, and equal to it
exactly if no flush was without a consumer or no byte was handed over. -/
theorem averages_eq_intended_iff {σ : Type} (m : Metrics) (info : LineInfo) :
    (∀ es : List Event, m.enabled = true →
      total .txBytes es < 2 ^ 64 → es.countP (·.delivers) + es.countP (·.discards) < 2 ^ 64 →
      (m.reset.recordAll es).Averages (total .txBytes es) (es.countP (·.delivers))
        (es.countP (·.discards))) ∧
    ∀ before since : List (Move σ), StartsCounting before →
      Move.operate .resetCounters ∉ since →
      let start : Device σ := (create info true).after before
      let calls := start.calls since
      let discarded := start.discardings since
      (calls.flatMap (·.bytes)).length < 2 ^ 64 → calls.length + discarded.length < 2 ^ 64 →
      (start.after since).metrics.Averages (calls.flatMap (·.bytes)).length calls.length
        discarded.length := by
  refine ⟨fun es henabled hbytes hflushes => averages_recordAll henabled hbytes hflushes, ?_⟩
  intro before since hbefore hsince start calls discarded hbytes hflushes
  exact averages_after hbefore hsince info hbytes hflushes

open Metrics Device in
/-- Three bytes are discarded by a flush that finds no consumer, then one is bound that wants four
bytes at once and gets them. Four bytes were handed over in one flush, and the average is two. -/
theorem averages_behind_discarded_flush :
    let info : LineInfo := { line := 0, ioBase := 0x3F8, irq := 4, baudBase := 115200 }
    let send : Move Unit := .operate (.access (.write Offset.data 0x41))
    let since : List (Move Unit) := List.replicate 3 send ++
      [.operate (.access (.flush .idle)), .operate (.bind 4 "tty")] ++ List.replicate 4 send
    let start : Device Unit := create info true
    let es : List Event := [.flush .idle 3 false, .flush .threshold 4 true]
    (start.calls since).map (·.bytes.length) = [4] ∧ (start.after since).metrics.average = 2 ∧
      ((zero true).reset.recordAll es).average = 2 := by
  intro info send since start es
  have hsince : .operate .resetCounters ∉ since := by decide
  have hcalls : (start.calls since).map (·.bytes.length) = [4] ∧
      ((start.calls since).flatMap (·.bytes)).length = 4 ∧ (start.calls since).length = 1 ∧
      (start.discardings since).length = 1 := by decide +kernel
  have hevents : total .txBytes es = 4 ∧ es.countP (·.delivers) = 1 ∧ es.countP (·.discards) = 1 := by
    decide
  clear_value since es
  obtain ⟨hlengths, hbytes, hdelivering, hdiscarding⟩ := hcalls
  obtain ⟨hrecorded, hrun⟩ := averages_eq_intended_iff (.zero true) info
  have hdevice := hrun [] since (Or.inl rfl) hsince (by rw [after_nil, hbytes]; decide)
    (by rw [after_nil, hdelivering, hdiscarding]; decide)
  have hlist := hrecorded es rfl (by rw [hevents.1]; decide)
    (by rw [hevents.2.1, hevents.2.2]; decide)
  refine ⟨hlengths, ?_, ?_⟩
  · rw [after_nil, hbytes, hdelivering, hdiscarding] at hdevice
    rw [hdevice.average_eq]
    norm_num
  · rw [hevents.1, hevents.2.1, hevents.2.2] at hlist
    rw [hlist.average_eq]
    norm_num

open Metrics in
/-- So the average is not in general the number of bytes per delivering flush. -/
theorem average_ne_intended :
    let es : List Event := [.flush .idle 3 false, .flush .threshold 4 true]
    ((zero true).recordAll es).average ≠
      intendedAverage (total .txBytes es) (es.countP (·.delivers)) := by
  intro es
  have haverage : ((zero true).recordAll es).average = 2 := by
    have hratio : ((zero true).recordAll es).averageRatio = (4, 2) := by decide
    rw [average, hratio]
    norm_num [UInt64.toNat]
  have hintended : intendedAverage (total .txBytes es) (es.countP (·.delivers)) = 4 := by
    have hboth : total .txBytes es = 4 ∧ es.countP (·.delivers) = 1 := by decide
    rw [intendedAverage, hboth.1, hboth.2]
    norm_num
  rw [haverage, hintended]
  norm_num

end Uart16550
