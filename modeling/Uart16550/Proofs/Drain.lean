import Uart16550.Proofs.EchoLines

/-!
# When the echo handler returns

The echo handler reads data for as long as the line status reports any. A read of the data slot
consumes a break or takes out a byte, so it is done after as many reads as bytes are queued, and one
more for a break (`Echo.drainWithin_of_readable`). But offset 0 is the data slot only while the
divisor latch access bit is clear. With that bit set a read takes nothing out, and a line that
reports data then reports it for ever (`Echo.drainWithin_of_stuck`).

Nothing keeps a holder of the device from setting the bit, and the handler does not look at it. All
else that the handler does ends by itself.

* `EchoSystem.returns_iff_not_stuck`: the handler returns exactly if it is not to read data from a
  line that is stuck like this.
-/

namespace Uart16550

namespace Echo

open Device

variable {σ : Type} {d : Device σ}

/-- Whether a device reports data that cannot be read, because offset 0 means the divisor latch. -/
def stuck (d : Device σ) : Bool := d.regs.divisorAccess && d.regs.lsr.dataReady

/-- What a drain reads: zero for a break, and then everything that is queued; nothing if the line
status does not report data. -/
def drained (d : Device σ) : List UInt8 :=
  if d.regs.lsr.dataReady then
    (if d.regs.lsr.breakInterrupt then [0] else []) ++ d.rx.toList
  else
    []

theorem length_drained_le (d : Device σ) : (drained d).length ≤ d.rx.length + 1 := by
  simp only [drained, ← d.rx.length_toList]
  split_ifs <;> simp

/-! ### A drain that returns -/

/-- From the data slot a drain reads the break first, and then the queue. -/
theorem drainWithin_of_readable (h : d.Readable) (hready : d.regs.lsr.dataReady = true)
    {reads : Nat} (hreads : (drained d).length ≤ reads) :
    ∃ e, drainWithin reads d = some (drained d, e) := by
  cases hb : d.regs.lsr.breakInterrupt with
  | false =>
    have hqueued : drained d = d.rx.toList := by
      simp only [drained, hready, hb, Bool.false_eq_true, if_false, if_true, List.nil_append]
    rw [hqueued] at hreads ⊢
    obtain ⟨e, hdrain, -⟩ := drainWithin_eq h hb hreads
    exact ⟨e, hdrain⟩
  | true =>
    have hbehind : drained d = 0 :: d.rx.toList := by
      simp only [drained, hready, hb, if_true, List.singleton_append]
    rw [hbehind, List.length_cons] at hreads
    rw [hbehind]
    have hbreak : d.statusRead.readData = _ := readData_of_break hb
    have hnext := h.statusRead.input Offset.data
    rw [h.statusRead.input_data, hbreak] at hnext
    obtain ⟨more, rfl⟩ := Nat.exists_eq_add_of_le' hreads
    obtain ⟨e, hdrain, -⟩ := drainWithin_eq hnext rfl (Nat.le_add_left _ more)
    refine ⟨e, ?_⟩
    rw [← Nat.add_assoc, drainWithin_of_ready h hready, hbreak]
    exact congrArg (Option.map _) hdrain

/-! ### A drain that does not -/

/-- A read of the divisor latch takes nothing out. -/
theorem input_latch (hi : d.initialized = true) (hlatch : d.regs.divisorAccess = true) :
    (d.input Offset.data).2 = d.refresh := by
  rw [Device.input, Device.read, if_pos hi, hlatch]
  rfl

/-- **While a device is stuck, a drain has no end**: reads of the status and of the latch leave it
stuck. -/
theorem drainWithin_of_stuck (hi : d.initialized = true) (h : stuck d = true) (reads : Nat) :
    drainWithin reads d = none := by
  induction reads generalizing d with
  | zero =>
    obtain ⟨-, hready⟩ := Bool.and_eq_true_iff.mp h
    rw [drainWithin.eq_def]
    simp only [input_status hi, hasBit_dataReady, hready, if_true]
  | succ reads ih =>
    obtain ⟨hlatch, hready⟩ := Bool.and_eq_true_iff.mp h
    have hnext : drainWithin reads (d.statusRead.input Offset.data).2 = none := by
      rw [input_latch (d := d.statusRead) hi hlatch]
      exact ih (d := d.statusRead.refresh) hi h
    rw [drainWithin.eq_def]
    simp only [input_status hi, hasBit_dataReady, hready, if_true, hnext, Option.map_none]

/-! ### The handler -/

/-- A reachable device is drained unless it is stuck. -/
theorem drainWithin_of_not_stuck (hr : d.Reachable) (hi : d.initialized = true)
    (h : stuck d = false) {reads : Nat} (hreads : (drained d).length ≤ reads) :
    ∃ e, drainWithin reads d = some (drained d, e) := by
  cases hready : d.regs.lsr.dataReady with
  | false =>
    have hnothing : drained d = [] := by simp only [drained, hready, Bool.false_eq_true, if_false]
    rw [hnothing]
    exact ⟨_, drainWithin_of_not_ready hi hready reads⟩
  | true =>
    rw [stuck, hready, Bool.and_true] at h
    exact drainWithin_of_readable ⟨hr, hi, h⟩ hready hreads

theorem drain_of_not_stuck (hr : d.Reachable) (hi : d.initialized = true) (h : stuck d = false) :
    ∃ e, drain d = some (drained d, e) :=
  drainWithin_of_not_stuck hr hi h (length_drained_le d)

/-- The handler returns unless it is to read data from a device that is stuck. -/
theorem isSome_deliver_iff (hr : d.Reachable) (hi : d.initialized = true) (iir : UInt8) :
    (deliver d iir).isSome = true ↔ ¬(Cause.ofIdent iir = some .receivedData ∧ stuck d = true) := by
  cases hcause : Cause.ofIdent iir with
  | none => simp [deliver, hcause]
  | some cause =>
    cases cause with
    | receivedData =>
      cases hs : stuck d with
      | true => simp [deliver, hcause, drain, drainWithin_of_stuck hi hs]
      | false =>
        obtain ⟨e, hdrain⟩ := drain_of_not_stuck hr hi hs
        simp [deliver, hcause, hdrain]
    | _ => simp [deliver, hcause]

end Echo

namespace EchoSystem

variable {s : EchoSystem} {line : UInt8} {place : Nat} {d : Device Unit}

theorem Attached.isSome_deliver_iff (h : s.Attached line place d) (hr : d.Reachable)
    (hi : d.initialized = true) (iir : UInt8) :
    (s.deliver line iir).isSome = true ↔
      ¬(Cause.ofIdent iir = some .receivedData ∧ Echo.stuck d = true) := by
  rw [← Echo.isSome_deliver_iff hr hi iir]
  simp only [EchoSystem.deliver, h.registered?, Option.isSome_map]

/-- **The echo handler returns exactly if it is not to read data from a stuck device.** In every
reached system, take a line that the host knows by a device. The handler of the line returns for
every identification, unless that is received data while the device reports data with the divisor
latch in place of the data slot; and a drain returns unless the device is stuck like this. A drain
that returns has read nothing if the device reports no data, also when a break is pending; else it
has read zero for a pending break and then everything that was queued, with at most one read more
than bytes were queued. From a stuck device it goes on reading for ever. -/
theorem returns_iff_not_stuck (hs : s.Reached)
    (hfind : s.host.find? line = some (.device place)) :
    ∃ d, s.devices[place]? = some d ∧
      (∀ iir, (s.deliver line iir).isSome = true ↔
        ¬(Cause.ofIdent iir = some .receivedData ∧ Echo.stuck d = true)) ∧
      ((s.drain line).isSome = true ↔ Echo.stuck d = false) ∧
      (Echo.stuck d = false → (Echo.drained d).length ≤ d.rx.length + 1 ∧
        (∀ reads, (Echo.drained d).length ≤ reads →
          ∃ e, Echo.drainWithin reads d = some (Echo.drained d, e)) ∧
        ∃ t, s.drain line = some (some (Echo.drained d), t)) ∧
      (Echo.stuck d = true → ∀ reads, Echo.drainWithin reads d = none) := by
  obtain ⟨d, hattached, hr, hserves⟩ := hs.attached ((hs.known line place).mp hfind)
  have hi := hserves.initialized
  have hdrain : s.drain line =
      (Echo.drain d).map fun r => (some r.1, s.modify place fun _ => r.2) := by
    simp only [EchoSystem.drain, hfind, hattached.device]
  refine ⟨d, hattached.device, hattached.isSome_deliver_iff hr hi, ?_, fun h => ⟨?_, ?_, ?_⟩,
    Echo.drainWithin_of_stuck hi⟩
  · rw [hdrain, Option.isSome_map]
    cases h : Echo.stuck d with
    | true => simp [Echo.drain, Echo.drainWithin_of_stuck hi h]
    | false =>
      obtain ⟨e, he⟩ := Echo.drain_of_not_stuck hr hi h
      simp [he]
  · exact Echo.length_drained_le d
  · exact fun reads => Echo.drainWithin_of_not_stuck hr hi h
  · obtain ⟨e, he⟩ := Echo.drain_of_not_stuck hr hi h
    exact ⟨_, by rw [hdrain, he]; rfl⟩

/-- Behind a break two bytes are queued, and a drain takes three reads. Once the divisor latch is
opened it has no end, but a line status interrupt is still handled. -/
theorem returns_behind_break :
    let steps : List Step := [.add 0 4, .onLine 0 (.inject [0x41, 0x42]), .onLine 0 .signalBreak]
    let s := (empty true).after steps
    let t := (empty true).after (steps ++ [.onLine 0 (.write 3 LineControl.divisorAccess)])
    (∃ u, s.drain 0 = some (some [0, 0x41, 0x42], u)) ∧
      (∀ iir, (s.deliver 0 iir).isSome = true) ∧
      (t.drain 0).isSome = false ∧ (t.deliver 0 0xC6).isSome = true := by
  intro steps s t
  have hs : s.Reached := (Reached.empty true).after _
  have ht : t.Reached := (Reached.empty true).after _
  have hfind : s.host.find? 0 = some (.device 0) := by decide +kernel
  have hfind' : t.host.find? 0 = some (.device 0) := by decide +kernel
  have hready : s.devices[0]?.map (fun d => (Echo.stuck d, Echo.drained d)) =
      some (false, [0, 0x41, 0x42]) := by decide +kernel
  have hstuck : t.devices[0]?.map Echo.stuck = some true := by decide +kernel
  clear_value s t
  obtain ⟨d, hd, hdeliver, -, hreturns, -⟩ := returns_iff_not_stuck hs hfind
  obtain ⟨e, he, hdeliver', hdrain', -⟩ := returns_iff_not_stuck ht hfind'
  rw [hd, Option.map_some, Option.some_inj, Prod.mk.injEq] at hready
  rw [he, Option.map_some, Option.some_inj] at hstuck
  obtain ⟨hfree, hbytes⟩ := hready
  refine ⟨?_, fun iir => ?_, ?_, ?_⟩
  · rw [← hbytes]
    exact (hreturns hfree).2.2
  · simp [hdeliver, hfree]
  · rw [← Bool.not_eq_true, hdrain', hstuck]
    simp
  · rw [hdeliver']
    exact fun h => absurd h.1 (by decide)

/-- A byte is received and then the divisor latch is opened. The line goes on reporting data and the
handler reads it for ever. -/
theorem endless_behind_divisor_latch :
    let s := (empty true).after [.add 0 1, .onLine 0 (.inject [0x41]),
      .onLine 0 (.write 3 LineControl.divisorAccess)]
    s.Reached ∧ s.host.find? 0 = some (.device 0) ∧
      s.deliver 0 0xC4 = none ∧ s.drain 0 = none ∧
      ∃ d, s.devices[0]? = some d ∧ d.rx.length = 1 ∧
        ∀ reads, Echo.drainWithin reads d = none := by
  intro s
  have hs : s.Reached := (Reached.empty true).after _
  have hfind : s.host.find? 0 = some (.device 0) := by decide +kernel
  have hdeliver : s.deliver 0 0xC4 = none := by decide +kernel
  have hdrain : s.drain 0 = none := by decide +kernel
  have hdevice : s.devices[0]?.map (fun d => (d.rx.length, d.initialized, Echo.stuck d)) =
      some (1, true, true) := by decide +kernel
  obtain ⟨d, hd, hfacts⟩ := Option.map_eq_some_iff.mp hdevice
  simp only [Prod.mk.injEq] at hfacts
  obtain ⟨hlength, hi, hstuck⟩ := hfacts
  exact ⟨hs, hfind, hdeliver, hdrain, d, hd, hlength, Echo.drainWithin_of_stuck hi hstuck⟩

end EchoSystem

end Uart16550
