import Mathlib.Data.List.Basic
import Uart16550.Proofs.Operation

/-!
# Moves

Everything that ever happens to a device, one indivisible step at a time: an operation by somebody
who holds the device or by a handler of its own interrupt, a look of the worker, the beginning and
the end of a delivery, and what the table does to it as its line comes and goes. `Device.after` is
the device after a list of moves, `Device.moments` lists each move with the device on which it was
made, and `Device.chronicle` collects what is noted at each of them.

A move that has no place in the state of a device leaves it as it was, so every list of moves is a
run, whatever the order. Nothing here depends on the type of sinks or on the host. A request to stop
the worker comes from somebody who can wait for it, also while it delivers, and so never from the
handler of the device's own interrupt.

* `after_of_keeps`: what every move keeps, a run keeps.
* `Reachable.induction`: what holds at creation and is kept holds of every reachable device.
* `conserves_chronicle`: if every move balances what arrives against what departs, so does a run.
-/

namespace Uart16550

namespace Device

/-- One thing that happens to a device; `σ` is the type of interrupt sinks. -/
inductive Move (σ : Type) where
  /-- An operation by a holder of the device, or by a handler of its interrupt. A handler does
  not stop the worker that is calling it. -/
  | operate (op : Operation σ)
  /-- The worker looks at the device, if it is armed. -/
  | look
  /-- The attached sink becomes another as it takes a delivery. -/
  | advance (sink : σ)
  /-- The sink has returned from a delivery. -/
  | handled
  /-- The sink has crashed in a delivery, and the worker with it. -/
  | crashed
  /-- The host has listed the device, or is about to delist it. -/
  | list (registered : Bool)
  /-- The device lets go of everything, because its line was removed. -/
  | release
  deriving DecidableEq, Repr

variable {σ : Type}

/-- The device after a move. -/
def Move.run (d : Device σ) : Move σ → Device σ
  | .operate op => (op.run d).device
  | .look => if d.isArmed then d.capture.2 else d
  | .advance sink => { d with sink := d.sink.map fun _ => sink }
  | .handled => d.record .interrupt
  | .crashed => if d.worker = .alive then { d with worker := .dead } else d
  | .list registered => d.setRegistered registered
  | .release => d.release

/-- The batches that a move hands to the consumer. -/
def Move.flushes (d : Device σ) : Move σ → List Flush
  | .operate op => (op.run d).flushes
  | _ => []

/-! ### Runs -/

/-- The device after a list of moves. -/
def after (d : Device σ) (ms : List (Move σ)) : Device σ := ms.foldl Move.run d

/-- Every move of a list with the device on which it is made. -/
def moments (d : Device σ) : List (Move σ) → List (Device σ × Move σ)
  | [] => []
  | m :: ms => (d, m) :: (m.run d).moments ms

variable {α : Type}

/-- What is noted in the course of a list of moves; `note` says what at each of them. -/
def chronicle (note : Device σ → Move σ → List α) (d : Device σ) (ms : List (Move σ)) : List α :=
  (d.moments ms).flatMap fun x => note x.1 x.2

/-- The batches handed to the consumer in the course of a list of moves. -/
def calls (d : Device σ) (ms : List (Move σ)) : List Flush :=
  chronicle (fun d m => m.flushes d) d ms

@[simp] theorem after_nil (d : Device σ) : d.after [] = d := rfl

@[simp] theorem after_cons (d : Device σ) (m : Move σ) (ms : List (Move σ)) :
    d.after (m :: ms) = (m.run d).after ms := rfl

theorem after_append (d : Device σ) (ms ns : List (Move σ)) :
    d.after (ms ++ ns) = (d.after ms).after ns :=
  List.foldl_append

theorem moments_append (d : Device σ) (ms ns : List (Move σ)) :
    d.moments (ms ++ ns) = d.moments ms ++ (d.after ms).moments ns := by
  induction ms generalizing d with
  | nil => rfl
  | cons m ms ih => simp only [List.cons_append, moments, ih, after_cons]

/-- The device on which a move is made is the one that the moves before it have left. -/
theorem exists_after_of_mem_moments {d : Device σ} {ms : List (Move σ)}
    {x : Device σ × Move σ} (h : x ∈ d.moments ms) :
    ∃ ns, x.1 = d.after ns := by
  induction ms generalizing d with
  | nil => simp [moments] at h
  | cons m ms ih =>
    simp only [moments, List.mem_cons] at h
    rcases h with rfl | h
    · exact ⟨[], rfl⟩
    · obtain ⟨ns, hns⟩ := ih h
      exact ⟨m :: ns, hns⟩

@[simp] theorem chronicle_nil (note : Device σ → Move σ → List α) (d : Device σ) :
    chronicle note d [] = [] := rfl

@[simp] theorem chronicle_cons (note : Device σ → Move σ → List α) (d : Device σ) (m : Move σ)
    (ms : List (Move σ)) :
    chronicle note d (m :: ms) = note d m ++ chronicle note (m.run d) ms := rfl

theorem chronicle_append (note : Device σ → Move σ → List α) (d : Device σ)
    (ms ns : List (Move σ)) :
    chronicle note d (ms ++ ns) = chronicle note d ms ++ chronicle note (d.after ms) ns := by
  rw [chronicle, moments_append, List.flatMap_append]
  rfl

theorem chronicle_flatMap {β : Type} (note : Device σ → Move σ → List α) (f : α → List β)
    (d : Device σ) (ms : List (Move σ)) :
    chronicle (fun e m => (note e m).flatMap f) d ms = (chronicle note d ms).flatMap f :=
  List.flatMap_assoc.symm

theorem chronicle_filterMap {β : Type} (note : Device σ → Move σ → List α) (f : α → Option β)
    (d : Device σ) (ms : List (Move σ)) :
    chronicle (fun e m => (note e m).filterMap f) d ms = (chronicle note d ms).filterMap f :=
  (List.filterMap_flatMap ..).symm

/-- Two notes that agree at every move make the same chronicle. -/
theorem chronicle_congr {note note' : Device σ → Move σ → List α} {d : Device σ}
    {ms : List (Move σ)} (h : ∀ x ∈ d.moments ms, note x.1 x.2 = note' x.1 x.2) :
    chronicle note d ms = chronicle note' d ms :=
  List.flatMap_congr h

/-! ### What a run keeps -/

/-- What some moves keep, a run of these moves keeps. -/
theorem after_of_mem {P : Device σ → Prop} {Q : Move σ → Prop}
    (keep : ∀ d m, Q m → P d → P (Move.run d m)) {d : Device σ} (h : P d) {ms : List (Move σ)}
    (hms : ∀ m ∈ ms, Q m) : P (d.after ms) := by
  induction ms generalizing d with
  | nil => exact h
  | cons m ms ih =>
    rw [List.forall_mem_cons] at hms
    exact ih (keep d m hms.1 h) hms.2

/-- What every move keeps, a run keeps. -/
theorem after_of_keeps {P : Device σ → Prop} (keep : ∀ d m, P d → P (Move.run d m))
    {d : Device σ} (h : P d) (ms : List (Move σ)) : P (d.after ms) :=
  after_of_mem (Q := fun _ => True) (fun d m _ => keep d m) h fun _ _ => trivial

/-- **Conservation.** If at every move what is there and what arrives is what departs and what is
left, in that order, then so it is over a run: what was there and all that arrived is all that
departed and what is left. -/
theorem conserves_chronicle {P : Device σ → Prop} (keep : ∀ d m, P d → P (Move.run d m))
    {contents : Device σ → List α} {arrived departed : Device σ → Move σ → List α}
    (balance : ∀ d m, P d →
      contents d ++ arrived d m = departed d m ++ contents (Move.run d m))
    {d : Device σ} (h : P d) (ms : List (Move σ)) :
    contents d ++ chronicle arrived d ms =
      chronicle departed d ms ++ contents (d.after ms) := by
  induction ms generalizing d with
  | nil => simp
  | cons m ms ih =>
    rw [chronicle_cons, chronicle_cons, after_cons]
    -- What the first move leaves is what is there before the others.
    calc contents d ++ (arrived d m ++ chronicle arrived (m.run d) ms)
        = departed d m ++ (contents (m.run d) ++ chronicle arrived (m.run d) ms) := by
          rw [← List.append_assoc, balance d m h, List.append_assoc]
      _ = departed d m ++ (chronicle departed (m.run d) ms ++ contents ((m.run d).after ms)) := by
          rw [ih (keep d m h)]
      _ = departed d m ++ chronicle departed (m.run d) ms ++ contents ((m.run d).after ms) :=
          (List.append_assoc _ _ _).symm

/-! ### Moves other than operations -/

/-- A look of the worker changes no register, neither queue and no flag. -/
theorem capture_keeps (d : Device σ) :
    d.capture.2.regs = d.regs ∧ d.capture.2.rx = d.rx ∧ d.capture.2.tx = d.tx ∧
      d.capture.2.info = d.info ∧ d.capture.2.initialized = d.initialized := by
  simp only [capture]
  split
  · exact ⟨rfl, rfl, rfl, rfl, rfl⟩
  · split
    · split <;> exact ⟨rfl, rfl, rfl, rfl, rfl⟩
    · exact ⟨rfl, rfl, rfl, rfl, rfl⟩

/-- Moves that are neither operations nor a release leave registers and queues alone. -/
theorem run_keeps (d : Device σ) {m : Move σ} (hop : ∀ op, m ≠ .operate op) (hr : m ≠ .release) :
    (m.run d).regs = d.regs ∧ (m.run d).rx = d.rx ∧ (m.run d).tx = d.tx ∧
      (m.run d).info = d.info ∧ (m.run d).initialized = d.initialized := by
  cases m with
  | operate op => exact absurd rfl (hop op)
  | release => exact absurd rfl hr
  | look =>
    simp only [Move.run]
    split
    · exact capture_keeps d
    · exact ⟨rfl, rfl, rfl, rfl, rfl⟩
  | crashed =>
    simp only [Move.run]
    split <;> exact ⟨rfl, rfl, rfl, rfl, rfl⟩
  | _ => exact ⟨rfl, rfl, rfl, rfl, rfl⟩

/-- A device is the device of one line for good. -/
theorem info_run (d : Device σ) (m : Move σ) : (m.run d).info = d.info := by
  cases m with
  | operate op =>
    cases op with
    | access a => exact d.info_access a
    | _ => exact (d.sides_operate (by simp)).2.2.1
  | release => rfl
  | _ => exact (d.run_keeps (by simp) (by simp)).2.2.2.1

theorem info_after (d : Device σ) (ms : List (Move σ)) : (d.after ms).info = d.info :=
  after_of_keeps (P := fun e => e.info = d.info) (fun e m h => (info_run e m).trans h) rfl ms

/-! ### Reachable devices -/

/-- A device that some list of moves leads to from its creation. -/
def Reachable (d : Device σ) : Prop :=
  ∃ info counting ms, d = (create info counting).after ms

theorem Reachable.after {d : Device σ} (h : d.Reachable) (ms : List (Move σ)) :
    (d.after ms).Reachable := by
  obtain ⟨info, counting, ns, rfl⟩ := h
  exact ⟨info, counting, ns ++ ms, (after_append _ ns ms).symm⟩

/-- What holds at creation and is kept by every move holds of every reachable device. -/
theorem Reachable.induction {P : Device σ → Prop}
    (birth : ∀ info counting, P (create info counting))
    (keep : ∀ d m, P d → P (Move.run d m)) {d : Device σ} (h : d.Reachable) : P d := by
  obtain ⟨info, counting, ms, rfl⟩ := h
  exact after_of_keeps keep (birth info counting) ms

end Device

end Uart16550
