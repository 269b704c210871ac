import Uart16550.EchoSystem.Run
import Uart16550.Program
import Uart16550.Proofs.EchoHandler
import Uart16550.Proofs.Reception
import Uart16550.Proofs.Removal

/-!
# The echo host echoes exactly

A line that the program brings up and then works with injections, breaks and service rounds prints
what it accepted, in order and nothing else, and so does line 0 in loopback when it is fed.

Between two service rounds the device of such a line is `Waiting`: what it has received is queued,
and the transmit queue is empty. `EchoSystem.Echoing` says that the bytes accepted so far are those
printed so far followed by those that wait, and every step keeps it.

A service round handles a line status interrupt, then a received data interrupt, then a transmitter
interrupt, each of them at most once, so `serviced_of_waiting` finds three deliveries enough.

## Main statements

* `EchoSystem.step_service`: a service round prints all that was received.
* `EchoSystem.setUp_of_bringUp`: a line that is brought up is set up.
* `EchoSystem.printedBy_eq_acceptedBy`: what is printed is what was accepted.
-/

namespace Uart16550

namespace EchoSystem

open Device Echo

/-! ### Lines under the echo host -/

/-- The device at a place belongs to a live line, and the host knows it under that line. -/
structure Attached (s : EchoSystem) (line : UInt8) (place : Nat) (d : Device Unit) : Prop where
  live : s.live? line = some place
  entry : s.host.find? line = some (.device place)
  device : s.devices[place]? = some d

variable {s : EchoSystem} {line : UInt8} {place : Nat} {d : Device Unit} {looped : Bool}

theorem Attached.modify (h : s.Attached line place d) (e : Device Unit) :
    Attached (s.modify place fun _ => e) line place e where
  live := h.live
  entry := h.entry
  device := by simp [System.modify, h.device]

theorem Attached.liveDevice? (h : s.Attached line place d) : s.liveDevice? line = some d := by
  rw [EchoSystem.liveDevice?, h.live]
  exact h.device

theorem Attached.onLine (h : s.Attached line place d) (op : Operation Unit) :
    s.onLine line op = .ok ((op.run d).reply, (op.run d).flushes,
      s.modify place fun _ => (op.run d).device) := by
  have hget : s.table.get line = .ok place := by
    have hlive := h.live
    unfold System.live? at hlive
    split at hlive
    · next device hget => rw [hget, Option.some.inj hlive]
    · cases hlive
  simp only [System.onLine, System.onDevice, hget, h.device, Option.map_some]

theorem Attached.registered? (h : s.Attached line place d) :
    s.registered? line = some (place, d) := by
  simp only [EchoSystem.registered?, h.entry, h.device, Option.map_some]

theorem Attached.deliver (h : s.Attached line place d) {out : List UInt8} {e : Device Unit}
    {iir : UInt8} (hd : Echo.deliver d iir = some (out, e)) :
    s.deliver line iir = some (out, s.modify place fun _ => e) := by
  simp only [EchoSystem.deliver, h.registered?, hd, Option.map_some]

/-! ### Service rounds -/

/-- A service round of at most `rounds` deliveries prints these bytes, takes at most `most` of them
and leaves the device finished. -/
def Serviced (s : EchoSystem) (line : UInt8) (place : Nat) (looped : Bool) (rounds most : Nat)
    (out : List UInt8) : Prop :=
  ∃ r e, s.serviceWithin line rounds = some r ∧ r.system.Attached line place e ∧
    Finished e looped ∧ r.printed = out ∧ r.handled.length ≤ most

theorem Serviced.mono {rounds most most' : Nat} {out : List UInt8}
    (h : s.Serviced line place looped rounds most out) (hle : most ≤ most') :
    s.Serviced line place looped rounds most' out := by
  obtain ⟨r, e, hr, hattached, he, hout, hmost⟩ := h
  exact ⟨r, e, hr, hattached, he, hout, Nat.le_trans hmost hle⟩

/-- What is stored tells whether there is a cause, and which. -/
theorem stored_of_reachable (h : d.Reachable) :
    Interrupt.isPending d.regs.iir = d.regs.cause.isSome ∧
      Cause.ofIdent d.regs.iir = d.regs.cause := by
  rw [show d.regs.iir = d.regs.ident from identified_of_reachable h]
  exact ⟨d.regs.isPending_ident, d.regs.ofIdent_ident⟩

/-- A finished device has nothing pending. -/
theorem isPending_finished (h : Finished d looped) : Interrupt.isPending d.regs.iir = false := by
  rw [(stored_of_reachable h.wired.reachable).1, cause_finished h]
  rfl

/-- Where nothing is pending, a service round does nothing. -/
theorem serviced_of_finished (h : s.Attached line place d) (hd : Finished d looped)
    (rounds : Nat) : s.Serviced line place looped rounds 0 [] := by
  refine ⟨{ handled := [], printed := [], system := s }, d, ?_, h, hd, rfl, Nat.le_refl 0⟩
  cases rounds with
  | zero => rfl
  | succ rounds =>
    simp only [serviceWithin, h.liveDevice?, isPending_finished hd, Bool.false_eq_true, if_false]

/-- A delivery and then the rest of the round. -/
theorem serviced_of_deliver (h : s.Attached line place d) (hd : d.Wired looped) {cause : Cause}
    (hcause : d.regs.cause = some cause) {rounds most : Nat} {first out : List UInt8}
    {e : Device Unit} (hdeliver : Echo.deliver d d.regs.iir = some (first, e))
    (hrest : ∀ {t : EchoSystem}, t.Attached line place e →
      t.Serviced line place looped rounds most out) :
    s.Serviced line place looped (rounds + 1) (most + 1) (first ++ out) := by
  have hpending : Interrupt.isPending d.regs.iir = true := by
    rw [(stored_of_reachable hd.reachable).1, hcause]
    rfl
  obtain ⟨r, f, hr, hattached, hf, hout, hmost⟩ := hrest (h.modify e)
  refine ⟨{ r with handled := d.regs.iir :: r.handled, printed := first ++ r.printed }, f, ?_,
    hattached, hf, by rw [hout], Nat.succ_le_succ hmost⟩
  simp only [serviceWithin, h.liveDevice?, hpending, if_true, h.deliver hdeliver, Option.bind_some,
    hr, Option.map_some]

/-- A device that still has to send needs one more delivery. -/
theorem serviced_of_owing (h : s.Attached line place d) (hd : Owing d looped) (rounds : Nat) :
    s.Serviced line place looped (rounds + 1) 1 d.tx.toList := by
  have hcause := cause_owing hd
  have hstored := (stored_of_reachable hd.wired.reachable).2
  obtain ⟨e, hdeliver, he⟩ := deliver_transmitterEmpty hd (hstored.trans hcause)
  rw [← List.append_nil d.tx.toList]
  exact serviced_of_deliver h hd.wired hcause hdeliver fun ht => serviced_of_finished ht he rounds

/-- With no error up, two deliveries are enough. -/
theorem serviced_of_faultless (h : s.Attached line place d) (hd : Waiting d looped)
    (ho : d.regs.lsr.overrun = false) (hb : d.regs.lsr.breakInterrupt = false) (rounds : Nat) :
    s.Serviced line place looped (rounds + 2) 2 d.rx.toList := by
  have hcause := cause_waiting hd
  rw [ho, hb] at hcause
  cases hready : d.regs.lsr.dataReady with
  | false =>
    have hnil : d.rx.toList = [] := hd.wired.readable.dataReady_eq_false_iff.mp hready
    rw [hnil]
    exact (serviced_of_finished h ⟨hd, ⟨hnil, hb, ho⟩⟩ _).mono (Nat.zero_le 2)
  | true =>
    rw [hready] at hcause
    have hstored := (stored_of_reachable hd.wired.reachable).2
    obtain ⟨out, e, hdeliver, hout, he⟩ := deliver_receivedData hd hb (hstored.trans hcause)
    rw [hout]
    refine serviced_of_deliver h hd.wired hcause hdeliver fun ht => ?_
    rcases he with he | he
    · rw [he.tx_nil]
      exact (serviced_of_finished ht he _).mono (Nat.zero_le 1)
    · exact serviced_of_owing ht he rounds

/-- **Three deliveries are enough** for whatever waits, and they print all that was received. -/
theorem serviced_of_waiting (h : s.Attached line place d) (hd : Waiting d looped) (rounds : Nat) :
    s.Serviced line place looped (rounds + 3) 3 d.rx.toList := by
  have hcause := cause_waiting hd
  cases herror : d.regs.lsr.overrun || d.regs.lsr.breakInterrupt with
  | false =>
    obtain ⟨ho, hb⟩ := Bool.or_eq_false_iff.mp herror
    exact (serviced_of_faultless h hd ho hb (rounds + 1)).mono (Nat.le_succ 2)
  | true =>
    rw [herror, if_pos rfl] at hcause
    have hstored := (stored_of_reachable hd.wired.reachable).2
    obtain ⟨e, hdeliver, he, hrx, ho, hb⟩ := deliver_lineStatus hd (hstored.trans hcause)
    rw [← hrx, ← List.nil_append e.rx.toList]
    exact serviced_of_deliver h hd.wired hcause hdeliver fun ht =>
      serviced_of_faultless ht he ho hb rounds

/-! ### Steps -/

theorem Attached.perform (h : s.Attached line place d) (op : Operation Unit) :
    s.perform line op = ((op.run d).reply, Echo.printed (op.run d).flushes,
      s.modify place fun _ => (op.run d).device) := by
  simp only [EchoSystem.perform, h.onLine op]

/-- A step that accesses the device of a line is that access. -/
theorem Attached.step_onLine (h : s.Attached line place d) (a : Access) :
    (s.step (.onLine line a)).1.result = .reply (a.run d).reply ∧
      (s.step (.onLine line a)).1.printed = Echo.printed (a.run d).flushes ∧
      (s.step (.onLine line a)).2.Attached line place (a.run d).device := by
  have heffect : s.effect (.onLine line a) =
      (.reply (a.run d).reply, Echo.printed (a.run d).flushes,
        s.modify place fun _ => (a.run d).device) := by
    simp only [effect, h.perform]
    rfl
  simp only [step, heffect]
  exact ⟨trivial, trivial, h.modify _⟩

/-- The steps that work a line: service rounds, and injections and breaks from the wire or, in
loopback, bytes fed to the transmitter of line 0. -/
def Step.works (line : UInt8) (looped : Bool) : Step → Bool
  | .service other => other == line
  | .onLine other (.inject _) | .onLine other .signalBreak => !looped && other == line
  | .feed _ loopback => looped && loopback && line == 0
  | _ => false

/-- The bytes that a step brings into a receive queue: those that an injection counts, and those fed
in loopback that find room. -/
def accepted (s : EchoSystem) : Step → List UInt8
  | .onLine line (.inject bytes) =>
    match (s.step (.onLine line (.inject bytes))).1.result with
    | .reply (.count n) => bytes.take n
    | _ => []
  | .feed bytes true =>
    match s.liveDevice? 0 with
    | some d =>
      chronicle arrived d (bytes.map fun byte => .operate (.access (.write Offset.data byte)))
    | none => []
  | _ => []

/-- The system after a sequence of steps. -/
def after (s : EchoSystem) (steps : List Step) : EchoSystem :=
  steps.foldl (fun s st => (s.step st).2) s

/-- Everything printed in the course of a sequence of steps. -/
def printedBy (s : EchoSystem) (steps : List Step) : List UInt8 :=
  (s.run steps).flatMap (·.printed)

/-- Everything accepted in the course of a sequence of steps. -/
def acceptedBy (s : EchoSystem) : List Step → List UInt8
  | [] => []
  | st :: steps => s.accepted st ++ acceptedBy (s.step st).2 steps

theorem printedBy_append (s : EchoSystem) (steps more : List Step) :
    s.printedBy (steps ++ more) = s.printedBy steps ++ (s.after steps).printedBy more := by
  induction steps generalizing s with
  | nil => rfl
  | cons st steps ih =>
    have hrest := ih (s.step st).2
    simp only [printedBy] at hrest ⊢
    simp only [List.cons_append, run, List.flatMap_cons, hrest, List.append_assoc]
    rfl

theorem acceptedBy_append (s : EchoSystem) (steps more : List Step) :
    s.acceptedBy (steps ++ more) = s.acceptedBy steps ++ (s.after steps).acceptedBy more := by
  induction steps generalizing s with
  | nil => rfl
  | cons st steps ih =>
    rw [List.cons_append, acceptedBy, acceptedBy, ih, List.append_assoc]
    rfl

/-- What was accepted and is not printed yet waits in the receive queue of the line. -/
def Echoing (s : EchoSystem) (line : UInt8) (place : Nat) (looped : Bool)
    (out received : List UInt8) : Prop :=
  ∃ d, s.Attached line place d ∧ Waiting d looped ∧ received = out ++ d.rx.toList

/-- In loopback, fed bytes are received as far as they find room. -/
theorem writeAll_eq (h : s.Attached 0 place d) (hd : Waiting d true) (bytes : List UInt8) :
    ∃ t e, s.writeAll bytes = (.ok (), [], t) ∧ t.Attached 0 place e ∧ Waiting e true ∧
      e.rx.toList = d.rx.toList ++ chronicle arrived d
        (bytes.map fun byte => .operate (.access (.write Offset.data byte))) := by
  induction bytes generalizing s d with
  | nil => exact ⟨s, d, rfl, h, hd, (List.append_nil _).symm⟩
  | cons byte bytes ih =>
    obtain ⟨hwaiting, hrx, hreply, hflushes⟩ := waiting_write hd byte
    obtain ⟨t, e, hall, hattached, he, hqueue⟩ :=
      ih (h.modify ((Access.write Offset.data byte).run d).device) hwaiting
    refine ⟨t, e, ?_, hattached, he, ?_⟩
    · have hrun : (Operation.access (.write Offset.data byte)).run d =
          (Access.write Offset.data byte).run d := rfl
      simp only [writeAll, h.onLine, hrun, hreply, hflushes, hall]
      rfl
    · rw [hqueue, hrx, List.append_assoc]
      rfl

/-- **A service round prints all that was received** and leaves the device finished. -/
theorem step_service (h : s.Attached line place d) (hd : Waiting d looped) :
    ∃ iirs e, (s.step (.service line)).1.result = .handled iirs ∧ iirs.length ≤ 3 ∧
      (s.step (.service line)).1.printed = d.rx.toList ∧
      (s.step (.service line)).2.Attached line place e ∧ Finished e looped := by
  obtain ⟨r, e, hr, hattached, he, hout, hmost⟩ := serviced_of_waiting h hd 5
  have heffect : s.effect (.service line) = (.handled r.handled, r.printed, r.system) := by
    have hlimit : s.serviceWithin line serviceLimit = some r := hr
    simp only [effect, hlimit]
  refine ⟨r.handled, e, ?_, hmost, ?_, ?_, he⟩
  · simp only [step, heffect]
  · simp only [step, heffect, hout]
  · simp only [step, heffect]
    exact hattached

/-- **Every step keeps the account** of what was accepted and printed. -/
theorem Echoing.step {out received : List UInt8} (h : s.Echoing line place looped out received)
    {st : Step} (hst : st.works line looped = true) :
    (s.step st).2.Echoing line place looped (out ++ (s.step st).1.printed)
      (received ++ s.accepted st) := by
  obtain ⟨d, hattached, hd, rfl⟩ := h
  cases st with
  | service other =>
    obtain rfl := beq_iff_eq.mp hst
    obtain ⟨iirs, e, -, -, hprinted, hattached', he⟩ := step_service hattached hd
    refine ⟨e, hattached', he.toWaiting, ?_⟩
    rw [hprinted, he.rx_nil]
    rfl
  | onLine other a =>
    cases a with
    | inject bytes =>
      obtain ⟨-, hline⟩ := Bool.and_eq_true_iff.mp hst
      obtain rfl := beq_iff_eq.mp hline
      obtain ⟨hwaiting, hrx⟩ := waiting_inject hd bytes
      obtain ⟨hresult, hprinted, hnext⟩ := hattached.step_onLine (.inject bytes)
      refine ⟨_, hnext, hwaiting, ?_⟩
      have haccepted : s.accepted (.onLine other (.inject bytes)) =
          d.arrived (.operate (.access (.inject bytes))) := by
        have hreply : ((Access.inject bytes).run d).reply = .ofExcept .count (d.inject bytes).1 :=
          rfl
        rw [accepted, hresult, hreply, arrived]
        cases (d.inject bytes).1 <;> rfl
      have hnothing : Echo.printed ((Access.inject bytes).run d).flushes = [] := rfl
      rw [haccepted, hprinted, hnothing, hrx, List.append_nil, List.append_assoc]
    | signalBreak =>
      obtain ⟨-, hline⟩ := Bool.and_eq_true_iff.mp hst
      obtain rfl := beq_iff_eq.mp hline
      obtain ⟨hwaiting, hrx⟩ := waiting_signalBreak hd
      obtain ⟨-, hprinted, hnext⟩ := hattached.step_onLine .signalBreak
      refine ⟨_, hnext, hwaiting, ?_⟩
      have hnothing : Echo.printed (Access.signalBreak.run d).flushes = [] := rfl
      have hnone : s.accepted (.onLine other .signalBreak) = [] := rfl
      rw [hprinted, hnothing, hnone, hrx, List.append_nil, List.append_nil]
    | _ => cases hst
  | feed bytes loopback =>
    obtain ⟨hboth, hline⟩ := Bool.and_eq_true_iff.mp hst
    obtain ⟨rfl, rfl⟩ := Bool.and_eq_true_iff.mp hboth
    obtain rfl := beq_iff_eq.mp hline
    obtain ⟨t, e, hall, hattached', he, hqueue⟩ := writeAll_eq hattached hd bytes
    have heffect : s.effect (.feed bytes true) = (.reply .done, [], t) := by
      simp only [effect, feed, hall, if_true]
    have hnext : (s.step (.feed bytes true)).2 = t := by simp only [step, heffect]
    have hprinted : (s.step (.feed bytes true)).1.printed = [] := by simp only [step, heffect]
    have haccepted : s.accepted (.feed bytes true) = chronicle arrived d
        (bytes.map fun byte => .operate (.access (.write Offset.data byte))) := by
      simp only [accepted, hattached.liveDevice?]
    rw [hnext]
    refine ⟨e, hattached', he, ?_⟩
    rw [hprinted, haccepted, hqueue, List.append_nil, List.append_assoc]
  | _ => cases hst

theorem Echoing.after {out received : List UInt8} (h : s.Echoing line place looped out received)
    {steps : List Step} (hsteps : ∀ st ∈ steps, st.works line looped = true) :
    (s.after steps).Echoing line place looped (out ++ s.printedBy steps)
      (received ++ s.acceptedBy steps) := by
  induction steps generalizing s out received with
  | nil =>
    have hnothing : s.printedBy [] = [] := rfl
    rw [hnothing, acceptedBy, List.append_nil, List.append_nil]
    exact h
  | cons st steps ih =>
    have hall : s.printedBy (st :: steps) =
        (s.step st).1.printed ++ (s.step st).2.printedBy steps := rfl
    rw [hall, acceptedBy, ← List.append_assoc, ← List.append_assoc]
    exact ih (h.step (hsteps st List.mem_cons_self)) fun t ht =>
      hsteps t (List.mem_cons_of_mem st ht)

/-! ### Lines that are set up -/

/-- A device that is bound, with nothing queued either way and offset 0 for the data slot. -/
structure Fresh (d : Device Unit) (consumer : Consumer) (looped : Bool) : Prop where
  initialized : d.initialized = true
  consumer_eq : d.consumer = some consumer
  dataSlot : d.regs.divisorAccess = false
  loopback_eq : d.regs.loopback = looped
  rx_nil : d.rx.toList = []
  tx_nil : d.tx.toList = []

/-- A line as it is brought up: live and known to the host, its device bound to standard output,
asking for the interrupts of the receiver, and with nothing queued either way. -/
structure SetUp (s : EchoSystem) (line : UInt8) (place : Nat) (d : Device Unit) (looped : Bool) :
    Prop extends s.Attached line place d where
  reachable : d.Reachable
  /-- Whatever its threshold, the consumer prints. -/
  fresh : ∃ consumer, consumer.label = stdout ∧ Fresh d consumer looped
  ier_eq : d.regs.ier = receiveInterrupts

theorem SetUp.waiting (h : s.SetUp line place d looped) : Waiting d looped ∧ d.rx.toList = [] := by
  obtain ⟨consumer, -, hfresh⟩ := h.fresh
  have hbound : d.consumer.isSome = true := by
    rw [hfresh.consumer_eq]
    rfl
  have hwired : d.Wired looped :=
    ⟨h.reachable, hfresh.initialized, hbound, hfresh.dataSlot, hfresh.loopback_eq⟩
  exact ⟨⟨hwired, hfresh.tx_nil, h.ier_eq⟩, hfresh.rx_nil⟩

/-- A line that was just added is known to the host under its new device. -/
theorem attached_of_add {t : EchoSystem} (h : s.add line = (.ok place, t)) :
    ∃ info, t.Attached line place (s.newcomer info) := by
  rcases s.add_cases line with
    ⟨⟨e, ha⟩, -⟩ | ⟨info, hi, hfree, ⟨e, -, ha⟩ | ⟨hr, ha⟩⟩
  · rw [ha] at h
    cases h
  · rw [ha] at h
    cases h
  · rw [ha] at h
    obtain ⟨hplace, rfl⟩ := Prod.mk.inj h
    obtain rfl := Except.ok.inj hplace
    have hlt : line.toNat < lineCount := LineInfo.ofLine_eq_ok_iff.mp ⟨info, hi⟩
    have hline : info.line = line := LineInfo.line_of_ofLine hi
    refine ⟨info, ?_, ?_, by simp⟩
    · exact System.live?_eq_some_iff.mpr (LineTable.slot_put_self _ hlt _)
    · -- The host accepts a line only if it knows none of that number.
      have hregister : Host.register s.host info s.devices.length =
          s.host.enter info.line (.device s.devices.length) := rfl
      rw [hregister, hline] at hr ⊢
      cases hfind : s.host.find? line with
      | some entry =>
        simp only [EchoHost.enter, hfind] at hr
        cases hr
      | none =>
        have hlookup : s.host.entries.lookup line = none := hfind
        simp [EchoHost.enter, EchoHost.find?, List.lookup_append, hlookup]

/-- An operation that is part of a successful preparation has not failed. -/
theorem performAll_cons (h : s.Attached line place d) {op : Operation Unit}
    {ops : List (Operation Unit)} {t : EchoSystem}
    (hok : Running.performAll s line (op :: ops) = (.ok (), t)) :
    (∀ e, (op.run d).reply ≠ .failed e) ∧
      Running.performAll (s.modify place fun _ => (op.run d).device) line ops = (.ok (), t) := by
  simp only [Running.performAll, h.perform] at hok
  cases hreply : (op.run d).reply with
  | failed e =>
    rw [hreply] at hok
    cases hok
  | _ =>
    rw [hreply] at hok
    exact ⟨fun _ he => (by cases he), hok⟩

theorem attached_performAll (h : s.Attached line place d) {ops : List (Operation Unit)}
    {t : EchoSystem} (hok : Running.performAll s line ops = (.ok (), t)) :
    t.Attached line place (d.after (ops.map .operate)) := by
  induction ops generalizing s d with
  | nil =>
    obtain rfl : s = t := congrArg Prod.snd hok
    exact h
  | cons op ops ih =>
    obtain ⟨-, hrest⟩ := performAll_cons h hok
    exact ih (h.modify (op.run d).device) hrest

/-- Asking for interrupts flushes nothing, because nothing is queued. -/
theorem Fresh.writeEnable {consumer : Consumer} (h : Fresh d consumer looped) (value : UInt8) :
    ((Access.write Offset.interruptEnable value).run d).device =
      refresh { d with regs.ier := value &&& InterruptEnable.implemented } := by
  have heffect : (Access.write Offset.interruptEnable value).effect d =
      .writes .interruptEnable value := writeEffect_interruptEnable h.initialized h.dataSlot value
  have hempty : d.tx.isEmpty = true := by rw [Fifo.isEmpty_eq, h.tx_nil]; rfl
  have hwrite : d.writeInterruptEnable value =
      ({ d with regs.ier := value &&& InterruptEnable.implemented }, []) := by
    simp only [writeInterruptEnable, hempty, Bool.not_true, Bool.and_false, Bool.false_eq_true,
      if_false]
  rw [Access.device_effect, heffect]
  simp only [Effect.run, writeRegister, hwrite]

theorem Fresh.writeControl {consumer : Consumer} (h : Fresh d consumer looped) (value : UInt8) :
    ((Access.write Offset.modemControl value).run d).device =
      refresh { d with regs.mcr := value &&& ModemControl.implemented } := by
  have heffect : (Access.write Offset.modemControl value).effect d =
      .writes .modemControl value := by
    rw [Access.effect, writeEffect, if_pos h.initialized]
    rfl
  rw [Access.device_effect, heffect]
  rfl

/-- Starting the worker changes none of this. -/
theorem Fresh.enableIrq {consumer : Consumer} (h : Fresh d consumer looped) :
    Fresh (Operation.enableIrq.run d).device consumer looped ∧
      (Operation.enableIrq.run d).device.regs.ier = d.regs.ier := by
  have hrun : (Operation.enableIrq.run d).device = d.enableIrq.2 := rfl
  rw [hrun]
  rcases d.enableIrq_cases with ⟨e, he⟩ | ⟨-, -, he⟩ <;> rw [he]
  · exact ⟨h, rfl⟩
  · exact ⟨⟨h.initialized, h.consumer_eq, h.dataSlot, h.loopback_eq, h.rx_nil, h.tx_nil⟩, rfl⟩

/-- What the rest of a preparation leaves, once the host is attached and the consumer bound. -/
theorem after_preparation {consumer : Consumer} (h : Fresh d consumer false) (looped : Bool) :
    let e := d.after ((Operation.access (.write Offset.interruptEnable receiveInterrupts) ::
      ((if looped then
          [Operation.access (.write Offset.modemControl (ModemControl.loop ||| ModemControl.out2))]
        else []) ++ [Operation.enableIrq])).map .operate)
    Fresh e consumer looped ∧ e.regs.ier = receiveInterrupts := by
  have hfirst : Fresh (refresh { d with
      regs.ier := receiveInterrupts &&& InterruptEnable.implemented }) consumer false :=
    ⟨h.initialized, h.consumer_eq, h.dataSlot, h.loopback_eq, h.rx_nil, h.tx_nil⟩
  intro e
  cases looped with
  | false =>
    have hrun : e = (Operation.enableIrq.run
        ((Access.write Offset.interruptEnable receiveInterrupts).run d).device).device := rfl
    rw [hrun, h.writeEnable]
    exact hfirst.enableIrq
  | true =>
    have hrun : e = (Operation.enableIrq.run ((Access.write Offset.modemControl
        (ModemControl.loop ||| ModemControl.out2)).run ((Access.write Offset.interruptEnable
          receiveInterrupts).run d).device).device).device := rfl
    have hloop : hasBit ((ModemControl.loop ||| ModemControl.out2) &&& ModemControl.implemented)
        ModemControl.loop = true := by decide
    rw [hrun, h.writeEnable, hfirst.writeControl]
    exact Fresh.enableIrq ⟨h.initialized, h.consumer_eq, h.dataSlot, hloop, h.rx_nil, h.tx_nil⟩

/-- A device that was just created is fresh once a consumer is bound to it. -/
theorem fresh_newcomer (s : EchoSystem) (info : LineInfo) (consumer : Consumer) :
    Fresh { (s.newcomer info).attach () with consumer := some consumer } consumer false := by
  have hslot : RegisterBank.powerOn.divisorAccess = false := by decide
  have hloop : RegisterBank.powerOn.loopback = false := by decide
  exact ⟨rfl, rfl, hslot, hloop, Fifo.toList_reset _, Fifo.toList_reset _⟩

/-- **A line that is brought up is set up**, with line 0 in loopback if that was asked for. -/
theorem setUp_of_bringUp {c : Config} {t : EchoSystem}
    (h : Running.bringUp s c line = (.ok place, t)) :
    ∃ d, t.SetUp line place d (c.loopback && line == 0) := by
  unfold Running.bringUp at h
  split at h
  · cases h
  · next device s₁ hadd =>
    split at h
    · next s₂ hok =>
      obtain ⟨hplace, rfl⟩ := Prod.mk.inj h
      obtain rfl := Except.ok.inj hplace
      obtain ⟨info, hattached⟩ := attached_of_add hadd
      -- The preparation went through, so the consumer was accepted.
      obtain ⟨-, hrest⟩ := performAll_cons hattached hok
      obtain ⟨hbind, hrest⟩ := performAll_cons (hattached.modify _) hrest
      obtain ⟨consumer, hlabel, hbound⟩ := device_bind_of_ne_failed hbind
      have hfresh : Fresh ((Operation.bind c.threshold stdout).run
          ((s.newcomer info).attach ())).device consumer false :=
        hbound ▸ fresh_newcomer s info consumer
      obtain ⟨hdone, hier⟩ := after_preparation hfresh (c.loopback && line == 0)
      exact ⟨_, attached_performAll hattached hok,
        ⟨info, s.table.counting, .list true :: (Running.preparation c line).map .operate, rfl⟩,
        ⟨consumer, hlabel, hdone⟩, hier⟩
    · cases h

/-- **The echo host echoes exactly.** Take a line that is set up, and any sequence of service rounds
with injections and breaks on that line or, in loopback, with bytes fed to line 0. After one more
service round everything that was accepted has been printed, in order, and nothing else has; at most
three interrupts were handled in that round; and nothing is queued, masked otherwise or pending. -/
theorem printedBy_eq_acceptedBy (h : s.SetUp line place d looped) (steps : List Step)
    (hsteps : ∀ st ∈ steps, st.works line looped = true) :
    s.printedBy (steps ++ [.service line]) = s.acceptedBy (steps ++ [.service line]) ∧
      ∃ iirs e, ((s.after steps).step (.service line)).1.result = .handled iirs ∧
        iirs.length ≤ 3 ∧ (s.after (steps ++ [.service line])).liveDevice? line = some e ∧
        e.rx.toList = [] ∧ e.tx.toList = [] ∧ e.regs.ier = receiveInterrupts ∧
        Interrupt.isPending e.regs.iir = false := by
  have hstart : s.Echoing line place looped [] [] :=
    ⟨d, h.toAttached, h.waiting.1, h.waiting.2.symm⟩
  obtain ⟨e, hattached, he, haccount⟩ := hstart.after hsteps
  rw [List.nil_append, List.nil_append] at haccount
  obtain ⟨iirs, f, hresult, hmost, hprinted, hattached', hf⟩ := step_service hattached he
  have hafter : s.after (steps ++ [.service line]) = ((s.after steps).step (.service line)).2 := by
    rw [after, List.foldl_append]
    rfl
  refine ⟨?_, iirs, f, hresult, hmost, ?_, hf.rx_nil, hf.tx_nil, hf.ier_eq, ?_⟩
  · have hlast : (s.after steps).printedBy [.service line] = e.rx.toList :=
      (List.append_nil _).trans hprinted
    have hnone : (s.after steps).acceptedBy [.service line] = [] := rfl
    rw [printedBy_append, acceptedBy_append, hlast, hnone, haccount, List.append_nil]
  · rw [hafter]
    exact hattached'.liveDevice?
  · exact isPending_finished hf

/-- A line from the wire, with a break among what it receives and more bytes than fit, and line 0 in
loopback with more bytes than find room. -/
theorem echoed_past_capacity :
    let c : Config := { Config.standard with threshold := 5, loopback := true }
    let wired := (Running.bringUp (empty true) c 2).2
    let looped := (Running.bringUp (empty true) c 0).2
    let chunk : List UInt8 := [1, 2, 3, 4, 5, 6, 7, 8, 9, 10, 11]
    let fromWire : List Step := [.onLine 2 (.inject chunk), .onLine 2 .signalBreak,
      .onLine 2 (.inject chunk), .service 2, .onLine 2 (.inject [12])]
    wired.printedBy (fromWire ++ [.service 2]) = chunk ++ [1, 2, 3, 4, 5, 12] ∧
      looped.printedBy ([.feed (chunk ++ chunk) true] ++ [.service 0]) =
        chunk ++ [1, 2, 3, 4, 5] := by
  intro c wired looped chunk fromWire
  have hwired : (Running.bringUp (empty true) c 2).1 = .ok 0 := by decide +kernel
  have hlooped : (Running.bringUp (empty true) c 0).1 = .ok 0 := by decide +kernel
  have hworks : ∀ st ∈ fromWire, st.works 2 false = true := by decide +kernel
  have hfed : wired.acceptedBy (fromWire ++ [.service 2]) = chunk ++ [1, 2, 3, 4, 5, 12] := by
    decide +kernel
  have hqueued : looped.acceptedBy ([.feed (chunk ++ chunk) true] ++ [.service 0]) =
      chunk ++ [1, 2, 3, 4, 5] := by decide +kernel
  obtain ⟨d, hd⟩ := setUp_of_bringUp (t := wired) (Prod.ext hwired rfl)
  obtain ⟨e, he⟩ := setUp_of_bringUp (t := looped) (Prod.ext hlooped rfl)
  clear_value wired looped
  exact ⟨(printedBy_eq_acceptedBy hd fromWire hworks).1.trans hfed,
    (printedBy_eq_acceptedBy he [.feed (chunk ++ chunk) true] (by decide)).1.trans hqueued⟩

end EchoSystem

end Uart16550
