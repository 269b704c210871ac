import Uart16550.Proofs.Alike
import Uart16550.Proofs.VirtualIrq

/-!
# A reset erases all history

Take two devices that have gone through whatever they have gone through, and reset both. If they
agree in what a reset is meant to keep, nobody can tell them apart any more, by any sequence of
operations, whatever else differed before.

This is said twice. Sinks about which nothing is known make a run a list of moves: what shows of
each is its reply, the calls of the consumer, what a sink is told, and what can be seen of the
device afterwards. Sinks that follow scripts need not be equal, only do the same from now on, and a
run is then a list of operations with everything that their interrupts bring about. Here the two
workers may take different numbers of looks, because one of them may still have a signal from before
the reset; it finds nothing.
-/

namespace Uart16550

/-! ### Sinks that will do the same -/

/-- Two sinks that run the same script at every delivery still to come. One may have been given
more empty scripts than the other. -/
def ScriptedSink.Same (s t : ScriptedSink) : Prop := ∀ k : Nat, s.getD k [] = t.getD k []

namespace ScriptedSink.Same

theorem refl (s : ScriptedSink) : Same s s := fun _ => rfl

theorem headD {s t : ScriptedSink} (h : Same s t) : s.headD [] = t.headD [] := by
  have h0 := h 0
  cases s <;> cases t <;> exact h0

theorem tail {s t : ScriptedSink} (h : Same s t) : Same s.tail t.tail := by
  intro k
  have hk := h (k + 1)
  cases s <;> cases t <;> exact hk

end ScriptedSink.Same

namespace Device

variable {σ : Type} {same : σ → σ → Prop} {d e : Device σ}

/-! ### Looks of the worker -/

namespace Alike

/-- While there is something to find, both workers are about to look or neither is. -/
theorem isArmed (h : d.Alike same e) (hp : Interrupt.isPending d.regs.iir = true) :
    d.isArmed = e.isArmed := by
  rw [Bool.eq_iff_iff, isArmed_iff, isArmed_iff, h.housed_left.not_stop, h.housed_right.not_stop,
    ← h.worker]
  exact and_congr_right fun hw => by rw [h.signaled hw hp]

theorem disarm (h : d.Alike same e) : Alike same d.disarm e.disarm :=
  h.put h.regs h.rx h.tx h.binding fun _ _ => rfl

/-- What is pending for the sink of one is pending for that of the other. -/
theorem capture_of_pending (h : d.Alike same e) (hp : Interrupt.isPending d.regs.iir = true) :
    (∃ s t, same s t ∧ d.capture = (.deliver d.regs.iir s, d.disarm) ∧
        e.capture = (.deliver d.regs.iir t, e.disarm)) ∨
      d.capture = (.unattended, d.disarm) ∧ e.capture = (.unattended, e.disarm) := by
  have hp' : Interrupt.isPending e.regs.iir = true := h.regs ▸ hp
  have hsink := h.sink
  rcases capture_cases h.housed_left.not_stop with ⟨s, -, hs, hc⟩ | ⟨hs, hc⟩ | ⟨hidle, -⟩
  · rcases capture_cases h.housed_right.not_stop with ⟨t, -, ht, hc'⟩ | ⟨ht, -⟩ | ⟨hidle, -⟩
    · rw [hs, ht] at hsink
      cases hsink with
      | some hst => exact Or.inl ⟨s, t, hst, hc, h.regs ▸ hc'⟩
    · rw [hs, ht] at hsink
      cases hsink
    · exact absurd hp' (by simp [hidle])
  · rcases capture_cases h.housed_right.not_stop with ⟨t, -, ht, -⟩ | ⟨-, hc'⟩ | ⟨hidle, -⟩
    · rw [hs, ht] at hsink
      cases hsink
    · exact Or.inr ⟨hc, hc'⟩
    · exact absurd hp' (by simp [hidle])
  · exact absurd hp (by simp [hidle])

/-- While there is nothing to find, it does not show whether a worker is about to look. -/
theorem idle (h : d.Alike same e) (hp : Interrupt.isPending d.regs.iir = false) {s s' : Bool}
    {m m' : Metrics} :
    Alike same { d with virq.signaled := s, metrics := m }
      { e with virq.signaled := s', metrics := m' } :=
  h.put h.regs h.rx h.tx h.binding fun _ hpending => by simp [hp] at hpending

end Alike

theorem capture_of_idle (hstop : d.virq.stop = false)
    (hp : Interrupt.isPending d.regs.iir = false) :
    d.capture = (.spurious, d.disarm.record .spuriousWakeup) := by
  rw [capture, if_neg (by simp [hstop])]
  exact if_neg (by simp [hp])

/-! ### Moves -/

/-- What shows of a move. -/
structure Glimpse where
  /-- The reply to an operation, counters aside. -/
  reply : Option Reply
  /-- The batches handed to the consumer. -/
  flushes : List Flush
  /-- What sinks are told. -/
  notices : List Notice
  /-- What can be seen of the device afterwards. -/
  snapshot : Snapshot
  deriving DecidableEq, Repr

/-- What shows of a move on a device. -/
def Move.glimpse (d : Device σ) (m : Move σ) : Glimpse where
  reply := match m with
    | .operate op => op.visible (op.run d).reply
    | _ => none
  flushes := m.flushes d
  notices := m.notices d
  snapshot := (m.run d).snapshot

/-- What shows of a list of moves. -/
def glimpses (d : Device σ) (ms : List (Move σ)) : List Glimpse :=
  chronicle (fun d m => [m.glimpse d]) d ms

/-- A move of another kind than an operation shows the same if it leaves devices alike and tells the
sinks the same. -/
theorem Alike.glimpse_eq {m : Move σ} (h : Alike same (m.run d) (m.run e))
    (hop : ∀ op, m ≠ .operate op) (hnotices : m.notices d = m.notices e) :
    m.glimpse d = m.glimpse e ∧ Alike same (m.run d) (m.run e) := by
  refine ⟨?_, h⟩
  cases m with
  | operate op => exact absurd rfl (hop op)
  | _ => simp only [Move.glimpse, Move.flushes, hnotices, h.snapshot]

theorem Alike.look (h : d.Alike same e) :
    Move.look.notices d = Move.look.notices e ∧ Alike same (Move.look.run d) (Move.look.run e) := by
  cases hp : Interrupt.isPending d.regs.iir with
  | true =>
    simp only [Move.run, Move.notices, h.isArmed hp]
    split
    · rcases h.capture_of_pending hp with ⟨s, t, -, hc, hc'⟩ | ⟨hc, hc'⟩ <;> rw [hc, hc']
      · exact ⟨by rw [h.line], h.disarm⟩
      · exact ⟨rfl, h.disarm⟩
    · exact ⟨rfl, h⟩
  | false =>
    -- Only one of the two may look, and it changes nothing that shows.
    have hc := capture_of_idle h.housed_left.not_stop hp
    have hc' := capture_of_idle h.housed_right.not_stop (h.regs ▸ hp)
    simp only [Move.run, Move.notices, hc, hc']
    split_ifs <;> exact ⟨rfl, h.idle hp⟩

/-- **A move on alike devices** shows the same on both and leaves them alike. -/
theorem Alike.move (hrefl : ∀ s, same s s) (h : d.Alike same e) (m : Move σ) :
    m.glimpse d = m.glimpse e ∧ Alike same (m.run d) (m.run e) := by
  have hleft := housed_move d m h.housed_left
  have hright := housed_move e m h.housed_right
  cases m with
  | operate op =>
    obtain ⟨hreply, hcalls, hdevice⟩ := h.operate hrefl op
    refine ⟨?_, hdevice⟩
    simp only [Move.glimpse, Move.flushes, Move.notices, Move.run, hreply, hcalls,
      Operation.notices_congr hreply, hdevice.snapshot]
  | look => exact h.look.2.glimpse_eq (by simp) h.look.1
  | advance sink =>
    refine glimpse_eq (m := .advance sink) (h.sinks ?_) (by simp) rfl
    have hsink := h.sink
    generalize d.sink = s at hsink
    generalize e.sink = t at hsink
    cases hsink with
    | none => exact .none
    | some _ => exact .some (hrefl sink)
  | handled => exact glimpse_eq (m := .handled) (h.record _ _) (by simp) rfl
  | crashed =>
    refine glimpse_eq (m := .crashed) ?_ (by simp) rfl
    simp only [Move.run] at hleft hright ⊢
    by_cases hw : e.worker = .alive
    · rw [if_pos hw] at hright ⊢
      rw [if_pos (h.worker.trans hw)] at hleft ⊢
      exact h.dead hleft hright
    · rw [if_neg hw, if_neg (h.worker ▸ hw)]
      exact h
  | list registered =>
    exact glimpse_eq (m := .list registered)
      { h with registered := rfl, housed_left := hleft, housed_right := hright } (by simp) rfl
  | release =>
    exact glimpse_eq (m := .release)
      { h with
        binding := rfl
        sink := .none
        registered := rfl
        rx := by simp [Move.run, release]
        tx := by simp [Move.run, release]
        initialized := rfl
        housed_left := hleft
        housed_right := hright } (by simp) rfl

/-- A run on alike devices shows the same on both and leaves them alike. -/
theorem Alike.after (hrefl : ∀ s, same s s) (h : d.Alike same e) (ms : List (Move σ)) :
    d.glimpses ms = e.glimpses ms ∧ Alike same (d.after ms) (e.after ms) := by
  induction ms generalizing d e with
  | nil => exact ⟨rfl, h⟩
  | cons m ms ih =>
    obtain ⟨hglimpse, hmove⟩ := h.move hrefl m
    obtain ⟨hrest, hafter⟩ := ih hmove
    refine ⟨?_, hafter⟩
    simp only [glimpses, chronicle_cons, hglimpse]
    exact congrArg _ hrest

/-! ### Scripts -/

/-- A script is answered the same on alike devices. -/
theorem Alike.script (h : d.Alike same e) (script : Script) :
    (script.run d).replies = (script.run e).replies ∧
      (script.run d).flushes = (script.run e).flushes ∧
      (script.run d).crashed = (script.run e).crashed ∧
      Alike same (script.run d).device (script.run e).device := by
  induction script generalizing d e with
  | nil => exact ⟨rfl, rfl, rfl, h⟩
  | cons instruction rest ih =>
    cases instruction with
    | crash => exact ⟨rfl, rfl, rfl, h⟩
    | access a =>
      obtain ⟨hreply, hcalls, hdevice⟩ := h.access a
      obtain ⟨hreplies, hcalls', hcrashed, hafter⟩ := ih hdevice
      exact ⟨congrArg₂ List.cons hreply hreplies, congrArg₂ (· ++ ·) hcalls hcalls', hcrashed,
        hafter⟩

/-- So is its end: both workers die of it or neither does. -/
theorem Alike.handled (h : d.Alike same e) (hw : d.worker = .alive) (script : Script) :
    Alike same (handled (script.run d)) (handled (script.run e)) := by
  have hleft := h.housed_left.leads (leads_script hw script)
  have hright := h.housed_right.leads (leads_script (h.worker.symm.trans hw) script)
  obtain ⟨-, -, hcrashed, hdevice⟩ := h.script script
  simp only [Device.handled, ← hcrashed] at hleft hright ⊢
  split
  · next hc =>
    rw [if_pos hc] at hleft hright
    exact hdevice.dead hleft hright
  · exact hdevice.record _ _

/-! ### Runs of operations -/

/-- Two ends of looks of the worker that cannot be told apart: the same calls on the way and alike
devices. -/
structure Settled.Alike (x y : Settled) : Prop where
  deliveries : x.deliveries = y.deliveries
  flushes : x.flushes = y.flushes
  device : x.device.Alike ScriptedSink.Same y.device

namespace Alike

variable {d e : Device ScriptedSink}

theorem serve (h : d.Alike ScriptedSink.Same e) (hw : d.worker = .alive) (iir : UInt8)
    {s t : ScriptedSink} (hst : s.Same t) : (d.serve iir s).Alike (e.serve iir t) := by
  have htold : Alike ScriptedSink.Same { d with sink := some s.tail }
      { e with sink := some t.tail } := h.sinks (.some hst.tail)
  obtain ⟨hreplies, hcalls, -⟩ := htold.script (s.headD [])
  rw [Device.serve, Device.serve, ← hst.headD]
  exact ⟨by simp only [hreplies, h.line], hcalls, htold.handled hw (s.headD [])⟩

/-- A look that finds something is the same on both. -/
theorem wake (h : d.Alike ScriptedSink.Same e) (hp : Interrupt.isPending d.regs.iir = true)
    (hw : d.worker = .alive) : d.wake.Alike e.wake := by
  rcases h.capture_of_pending hp with ⟨s, t, hst, hc, hc'⟩ | ⟨hc, hc'⟩
  · simp only [Device.wake, hc, hc']
    exact h.disarm.serve hw d.regs.iir hst
  · simp only [Device.wake, hc, hc']
    exact ⟨rfl, rfl, h.disarm⟩

end Alike

variable {d e : Device ScriptedSink}

/-- As long as nothing is pending, looks are spurious. -/
theorem settleWithin_of_nothing (hstop : d.virq.stop = false)
    (hp : Interrupt.isPending d.regs.iir = false) (looks : Nat) :
    ∃ s m, d.settleWithin looks =
      { device := { d with virq.signaled := s, metrics := m }, deliveries := [], flushes := [] } := by
  cases looks with
  | zero => exact ⟨d.virq.signaled, d.metrics, rfl⟩
  | succ looks =>
    by_cases harmed : d.isArmed = true
    · have hwake : d.wake =
          { device := d.disarm.record .spuriousWakeup, deliveries := [], flushes := [] } := by
        simp only [wake, capture_of_idle hstop hp]
      have hidle : (d.disarm.record .spuriousWakeup).isArmed = false := by
        simp [isArmed, disarm, record]
      simp only [settleWithin, harmed, if_true, hwake, settleWithin_of_idle hidle, List.append_nil]
      exact ⟨false, _, rfl⟩
    · exact ⟨d.virq.signaled, d.metrics, settleWithin_of_idle (by simpa using harmed) _⟩

namespace Alike

theorem settleWithin (h : d.Alike ScriptedSink.Same e) (looks : Nat) :
    (d.settleWithin looks).Alike (e.settleWithin looks) := by
  induction looks generalizing d e with
  | zero => exact ⟨rfl, rfl, h⟩
  | succ looks ih =>
    cases hp : Interrupt.isPending d.regs.iir with
    | false =>
      obtain ⟨s, m, hd⟩ := settleWithin_of_nothing h.housed_left.not_stop hp (looks + 1)
      obtain ⟨s', m', he⟩ :=
        settleWithin_of_nothing h.housed_right.not_stop (h.regs ▸ hp) (looks + 1)
      rw [hd, he]
      exact ⟨rfl, rfl, h.idle hp⟩
    | true =>
      have harmed := h.isArmed hp
      by_cases ha : d.isArmed = true
      · have hwake := h.wake hp (isArmed_iff.mp ha).1
        have hrest := ih hwake.device
        rw [Device.settleWithin, Device.settleWithin, if_pos ha, if_pos (harmed ▸ ha)]
        exact ⟨congrArg₂ (· ++ ·) hwake.deliveries hrest.deliveries,
          congrArg₂ (· ++ ·) hwake.flushes hrest.flushes, hrest.device⟩
      · rw [Device.settleWithin, Device.settleWithin, if_neg ha, if_neg (harmed ▸ ha)]
        exact ⟨rfl, rfl, h⟩

/-- The sinks may have different numbers of scripts left, of which the last ones are empty. -/
theorem settle (h : d.Alike ScriptedSink.Same e) : d.settle.Alike e.settle := by
  have hboth := h.settleWithin (d.scriptsLeft + e.scriptsLeft + 1)
  rwa [settleWithin_eq_settle (by omega), settleWithin_eq_settle (by omega)] at hboth

end Alike

/-- What shows of an operation and of everything that its interrupts bring about. -/
structure Sight where
  /-- The reply, counters aside. -/
  reply : Option Reply
  /-- The batches handed to the consumer. -/
  flushes : List Flush
  /-- The calls of the sink. -/
  deliveries : List Delivery
  /-- What can be seen of the device afterwards. -/
  snapshot : Snapshot
  deriving DecidableEq, Repr

/-- What shows of an operation on a device. -/
def sight (d : Device ScriptedSink) (op : Operation ScriptedSink) : Sight where
  reply := op.visible (d.step op).reply
  flushes := (d.step op).flushes
  deliveries := (d.step op).deliveries
  snapshot := (d.step op).device.snapshot

/-- What shows of a list of operations. -/
def sights (d : Device ScriptedSink) : List (Operation ScriptedSink) → List Sight
  | [] => []
  | op :: ops => d.sight op :: (d.step op).device.sights ops

/-- What an operation shows and leaves, with all that its interrupts bring about, follows from what
it shows and leaves by itself. -/
theorem step_congr (op : Operation ScriptedSink)
    (hreply : op.visible (op.run d).reply = op.visible (op.run e).reply)
    (hcalls : (op.run d).flushes = (op.run e).flushes)
    (hdevice : (op.run d).device.Alike ScriptedSink.Same (op.run e).device) :
    d.sight op = e.sight op ∧ (d.step op).device.Alike ScriptedSink.Same (e.step op).device := by
  have hsettle := hdevice.settle
  refine ⟨?_, hsettle.device⟩
  simp only [sight, step, hreply, hcalls, hsettle.flushes, hsettle.deliveries,
    hsettle.device.snapshot]

/-- A run of operations on alike devices shows the same on both. -/
theorem Alike.sights (h : d.Alike ScriptedSink.Same e) (ops : List (Operation ScriptedSink)) :
    d.sights ops = e.sights ops := by
  induction ops generalizing d e with
  | nil => rfl
  | cons op ops ih =>
    obtain ⟨hreply, hcalls, hdevice⟩ := h.operate ScriptedSink.Same.refl op
    obtain ⟨hsight, hstep⟩ := step_congr op hreply hcalls hdevice
    exact congrArg₂ List.cons hsight (ih hstep)

/-! ### After a reset -/

/-- What a reset leaves: power-on registers, empty queues, and nothing for a second one to do. -/
theorem reset_eq_powerOn {σ : Type} (d : Device σ) :
    d.reset.regs = .powerOn ∧ d.reset.rx.toList = [] ∧ d.reset.tx.toList = [] ∧
      d.reset.reset = d.reset := by
  have hident : RegisterBank.powerOn.ident = RegisterBank.powerOn.iir := by decide
  have hidle : Interrupt.isPending RegisterBank.powerOn.ident = false := by decide
  have hregs : d.reset.regs = .powerOn := by
    simp only [reset, refresh, RegisterBank.reset, hident]
  refine ⟨hregs, Fifo.toList_reset d.rx, Fifo.toList_reset d.tx, ?_⟩
  simp only [reset, refresh, RegisterBank.reset, hidle, Bool.false_and, Bool.or_false]
  rfl

theorem Kindred.sink_eq {σ : Type} {d e : Device σ} (h : d.Kindred Eq e) : d.sink = e.sink := by
  have hsink := h.sink
  generalize d.sink = s at hsink
  generalize e.sink = t at hsink
  cases hsink with
  | none => rfl
  | some hst => rw [hst]

/-- **A reset erases all history.** Take two reachable devices of the same line at the same point of
their lives, with consumers of the same name and threshold, and reset both. If they have the same
sink, then every list of moves, whatever the sink makes of what it is told, shows the same on both
and leaves them with the same sink. If their sinks follow scripts and will do the same, then every
list of operations shows the same on both, deliveries included. A reset leaves power-on registers
and empty queues, and a second one changes nothing. -/
theorem erased_of_reset :
    (∀ {σ : Type} {d e : Device σ}, d.Reachable → e.Reachable → d.Kindred Eq e →
      ∀ ms, d.glimpses (.operate (.access .reset) :: ms) =
          e.glimpses (.operate (.access .reset) :: ms) ∧
        (d.after (.operate (.access .reset) :: ms)).sink =
          (e.after (.operate (.access .reset) :: ms)).sink) ∧
    (∀ {d e : Device ScriptedSink}, d.Reachable → e.Reachable → d.Kindred ScriptedSink.Same e →
      ∀ ops, d.sights (.access .reset :: ops) = e.sights (.access .reset :: ops)) ∧
    ∀ {σ : Type} (d : Device σ),
      d.reset.regs = .powerOn ∧ d.reset.rx.toList = [] ∧ d.reset.tx.toList = [] ∧
        d.reset.reset = d.reset := by
  refine ⟨fun {σ d e} hd he h ms => ?_, fun {d e} hd he h ops => ?_, reset_eq_powerOn⟩
  · have hreset := h.reset (housed_of_reachable hd) (housed_of_reachable he)
    have hfirst : (Move.operate (.access .reset)).glimpse d =
        (Move.operate (.access .reset)).glimpse e := by
      have hsnapshot := hreset.snapshot
      simp only [Move.glimpse, Move.flushes, Move.notices, Move.run, Operation.run, Access.run,
        hsnapshot]
    obtain ⟨hrest, hafter⟩ := hreset.after (fun _ => rfl) ms
    exact ⟨congrArg₂ List.cons hfirst hrest, hafter.toKindred.sink_eq⟩
  · have hreset := h.reset (housed_of_reachable hd) (housed_of_reachable he)
    obtain ⟨hfirst, hstep⟩ := step_congr (d := d) (e := e) (.access .reset) rfl rfl hreset
    exact congrArg₂ List.cons hfirst (hstep.sights ops)

/-- One device is about to be told of an interrupt and its ring is turned, the other was just set up
and its sink was given an empty script more. After a reset both tell their sinks of the next byte,
and nobody can tell which is which. -/
theorem erased_behind_signal :
    let setUp (scripts : ScriptedSink) : List (Move ScriptedSink) := [.list true,
      .operate (.bind 4 "console"), .operate (.attach scripts), .operate .enableIrq]
    let used : List (Move ScriptedSink) := [
      .operate (.access (.write Offset.interruptEnable 0x01)),
      .operate (.access (.inject [0x41, 0x42])), .operate (.access (.read Offset.data))]
    let info : LineInfo := { line := 0, ioBase := 0x3F8, irq := 4, baudBase := 115200 }
    let d := (create info true).after (setUp [[.access (.read Offset.data)]] ++ used)
    let e := (create info false).after (setUp [[.access (.read Offset.data)], []])
    let f := (create info false).after (setUp [[.access (.read Offset.data)]])
    (d.isArmed = true ∧ e.isArmed = false ∧ d.rx.head ≠ e.rx.head ∧ d.sink ≠ e.sink) ∧
      (d.sights [.access .reset, .access (.write Offset.interruptEnable 0x01),
        .access (.inject [0x43])]).map (·.deliveries) =
          [[], [], [{ line := 0, iir := 0xC4, replies := [.byte 0x43] }]] ∧
      (∀ ops, d.sights (.access .reset :: ops) = e.sights (.access .reset :: ops)) ∧
      (∀ ms, d.glimpses (.operate (.access .reset) :: ms) =
        f.glimpses (.operate (.access .reset) :: ms)) ∧
      d.reset.reset = d.reset := by
  intro setUp used info d e f
  have hdiffer : d.isArmed = true ∧ e.isArmed = false ∧ d.rx.head ≠ e.rx.head ∧
      d.sink ≠ e.sink := by decide +kernel
  have htold : (d.sights [.access .reset, .access (.write Offset.interruptEnable 0x01),
      .access (.inject [0x43])]).map (·.deliveries) =
        [[], [], [{ line := 0, iir := 0xC4, replies := [.byte 0x43] }]] := by decide +kernel
  have hd : d.Reachable := ⟨info, true, _, rfl⟩
  have he : e.Reachable := ⟨info, false, _, rfl⟩
  have hf : f.Reachable := ⟨info, false, _, rfl⟩
  have hde : d.info = e.info ∧ d.initialized = e.initialized ∧ d.registered = e.registered ∧
      d.settings.binding = e.settings.binding ∧ d.worker = e.worker := by decide +kernel
  have hdf : d.info = f.info ∧ d.initialized = f.initialized ∧ d.registered = f.registered ∧
      d.settings.binding = f.settings.binding ∧ d.worker = f.worker := by decide +kernel
  have hsinks : d.sink = some [[.access (.read Offset.data)]] ∧
      e.sink = some [[.access (.read Offset.data)], []] ∧
      f.sink = some [[.access (.read Offset.data)]] := by decide +kernel
  clear_value d e f
  obtain ⟨hsinkd, hsinke, hsinkf⟩ := hsinks
  have hsame : ScriptedSink.Same [[.access (.read Offset.data)]]
      [[.access (.read Offset.data)], []] := by
    intro k
    match k with
    | 0 | 1 | _ + 2 => rfl
  obtain ⟨hmoves, hscripts, hprofile⟩ := erased_of_reset
  refine ⟨hdiffer, htold, hscripts hd he ?_, fun ms => (hmoves hd hf ?_ ms).1, (hprofile d).2.2.2⟩
  · obtain ⟨hinfo, hinitialized, hregistered, hbinding, hworker⟩ := hde
    exact ⟨hinfo, hinitialized, hregistered, hbinding, by rw [hsinkd, hsinke]; exact .some hsame,
      hworker⟩
  · obtain ⟨hinfo, hinitialized, hregistered, hbinding, hworker⟩ := hdf
    exact ⟨hinfo, hinitialized, hregistered, hbinding, by rw [hsinkd, hsinkf]; exact .some rfl,
      hworker⟩

end Device

end Uart16550
