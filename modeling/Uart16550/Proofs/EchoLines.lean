import Uart16550.Proofs.Echo
import Uart16550.Proofs.Registry

/-!
# The lines that the echo host knows

The echo host keeps a list of lines of its own, beside the table. In every system that is reached
by acts of the table, by holders of devices, and by lines registered behind the back of the table,
the host knows a line by a device exactly if the line is live and the device is its own
(`EchoSystem.Reached.known`); so whatever it handles, it handles on a reachable device that is
initialized and listed (`EchoSystem.Reached.attached`).

The handler itself does nothing but reads, and writes at the first two offsets (`Echo.Handles`). So
an access, a delivery, a service round and a drain are all work on one line: some accesses to its
device, which leave every other device alone (`EchoSystem.step_eq_work`), and the steps of a run
lead from reached systems to reached systems (`EchoSystem.Reached.step`).
-/

namespace Uart16550

/-! ### What the handler does -/

namespace Echo

open Device

variable {σ : Type} {d e f : Device σ}

/-- Whether an access is of the handler: a read, or a write at one of the first two offsets. -/
def isHandling : Access → Bool
  | .input _ => true
  | .output offset _ => offset == Offset.data || offset == Offset.interruptEnable
  | _ => false

/-- Accesses of the handler lead from one device to another. -/
def Handles (d e : Device σ) : Prop :=
  ∃ accesses : List Access, (∀ a ∈ accesses, isHandling a = true) ∧
    e = d.after (accesses.map fun a => .operate (.access a))

theorem Handles.refl (d : Device σ) : Handles d d := ⟨[], by simp, rfl⟩

theorem Handles.trans (h : Handles d e) (h' : Handles e f) : Handles d f := by
  obtain ⟨as, has, rfl⟩ := h
  obtain ⟨bs, hbs, rfl⟩ := h'
  refine ⟨as ++ bs, List.forall_mem_append.mpr ⟨has, hbs⟩, ?_⟩
  rw [List.map_append, after_append]

theorem handles_input (d : Device σ) (offset : UInt8) : Handles d (d.input offset).2 :=
  ⟨[.input offset], by simp [isHandling], rfl⟩

theorem handles_output_data (d : Device σ) (value : UInt8) :
    Handles d (d.output Offset.data value).1 :=
  ⟨[.output Offset.data value], by simp [isHandling], rfl⟩

theorem handles_output_enable (d : Device σ) (value : UInt8) :
    Handles d (d.output Offset.interruptEnable value).1 :=
  ⟨[.output Offset.interruptEnable value], by simp [isHandling], rfl⟩

theorem handles_drainWithin {reads : Nat} {bytes : List UInt8}
    (h : drainWithin reads d = some (bytes, e)) : Handles d e :=
  drainWithin_of_keeps (P := Handles d) (fun f offset hf => hf.trans (handles_input f offset))
    (.refl d) h

theorem handles_transmitAll (d : Device σ) (bytes : List UInt8) :
    Handles d (transmitAll d bytes).1 := by
  induction bytes generalizing d with
  | nil => exact .refl d
  | cons byte bytes ih => exact (handles_output_data d byte).trans (ih _)

theorem handles_writeBack (d : Device σ) (bytes : List UInt8) :
    Handles d (writeBack d bytes).1 := by
  have hstatus := ((handles_transmitAll d bytes).trans
    (handles_output_enable _ allInterrupts)).trans (handles_input _ Offset.lineStatus)
  simp only [writeBack]
  split
  · exact hstatus
  · exact hstatus.trans (handles_output_enable _ receiveInterrupts)

/-- **The handler makes reads, and writes at the first two offsets.** -/
theorem handles_deliver {iir : UInt8} {printed : List UInt8}
    (h : Echo.deliver d iir = some (printed, e)) : Handles d e := by
  rw [Echo.deliver] at h
  split at h
  · dsimp only at h
    obtain ⟨-, rfl⟩ := Prod.mk.inj (Option.some.inj h)
    split
    · exact (handles_input d _).trans (handles_input _ _)
    · exact handles_input d _
  · obtain ⟨⟨bytes, g⟩, hdrain, heq⟩ := Option.map_eq_some_iff.mp h
    have hcontrol := (handles_drainWithin hdrain).trans (handles_input g Offset.modemControl)
    dsimp only at heq
    split at heq
    · obtain ⟨-, rfl⟩ := Prod.mk.inj heq
      exact hcontrol
    · obtain ⟨-, rfl⟩ := Prod.mk.inj heq
      exact hcontrol.trans (handles_writeBack _ bytes)
  · obtain ⟨-, rfl⟩ := Prod.mk.inj (Option.some.inj h)
    exact handles_output_enable d _
  · obtain ⟨-, rfl⟩ := Prod.mk.inj (Option.some.inj h)
    exact .refl d

end Echo

namespace EchoSystem

open Device (Move)

/-! ### Reached systems -/

/-- A system that the table, the holders of devices and the echo host lead to. By itself the host
does nothing but to register lines that the table does not know of. -/
inductive Reached : EchoSystem → Prop
  | empty (counting : Bool) : Reached (empty counting)
  | act {s : EchoSystem} (h : Reached s) (a : System.Act EchoHost Unit) (ha : ∀ f, a ≠ .change f) :
    Reached (System.perform s a)
  | enter {s : EchoSystem} (h : Reached s) (line : UInt8) :
    Reached { s with host := (s.host.enter line .silent).2 }

/-- The host knows a line by a device exactly if the line is live, and by the device of the line. -/
def Known (s : EchoSystem) : Prop :=
  ∀ line place, s.host.find? line = some (.device place) ↔ s.table.slot line = .live place

namespace Reached

variable {s : EchoSystem}

/-- The lines that the table does not know of are silent. -/
theorem exists_inStep (h : s.Reached) :
    ∃ direct, s.InStep direct ∧ ∀ x ∈ direct, x.2 = .silent := by
  induction h with
  | empty counting => exact ⟨[], inStep_empty counting, by simp⟩
  | act _ a ha ih =>
    obtain ⟨direct, hstep, hsilent⟩ := ih
    exact ⟨direct, hstep.perform a ha, hsilent⟩
  | @enter s _ line ih =>
    obtain ⟨direct, hstep, hsilent⟩ := ih
    refine ⟨_, hstep.enter line .silent, List.forall_mem_append.mpr ⟨hsilent, ?_⟩⟩
    rw [entered]
    split <;> simp

theorem known (h : s.Reached) : s.Known := by
  intro line place
  obtain ⟨direct, hstep, hsilent⟩ := h.exists_inStep
  -- A device that the host knows is that of a live line, for want of any other.
  have hnot : (line, .device place) ∉ direct := fun hmem => nomatch hsilent _ hmem
  rw [hstep.joined.find?_eq_some_iff]
  simp only [EchoEntry.device.injEq, hnot, or_false]
  exact ⟨fun ⟨_, hs, hp⟩ => hp ▸ hs, fun hs => ⟨place, hs, rfl⟩⟩

theorem kept (h : s.Reached) : s.Kept none := by
  obtain ⟨_, hstep, -⟩ := h.exists_inStep
  exact hstep.kept

theorem reachable (h : s.Reached) : ∀ d ∈ s.devices, d.Reachable := by
  obtain ⟨_, hstep, -⟩ := h.exists_inStep
  exact hstep.reachable

/-- **What the host handles is live**: the device that it knows a line by belongs to the line, is
reachable, initialized and listed. -/
theorem attached (h : s.Reached) {line : UInt8} {place : Nat}
    (hlive : s.table.slot line = .live place) :
    ∃ d, s.Attached line place d ∧ d.Reachable ∧ System.Serves d line := by
  obtain ⟨d, hd, hserves⟩ := h.kept.live hlive
  exact ⟨d, ⟨System.live?_eq_some_iff.mpr hlive, (h.known line place).mpr hlive, hd⟩,
    h.reachable d (List.mem_of_getElem? hd), hserves⟩

theorem cases_line (h : s.Reached) (line : UInt8) :
    s.live? line = none ∨ ∃ place d, s.Attached line place d := by
  cases hlive : s.live? line with
  | none => exact .inl rfl
  | some place =>
    obtain ⟨d, hattached, -⟩ := h.attached (System.live?_eq_some_iff.mp hlive)
    exact .inr ⟨place, d, hattached⟩

end Reached

/-! ### Work on a line -/

variable {s t : EchoSystem} {line : UInt8} {place : Nat} {d : Device Unit}

/-- Accesses to the device of a line, one after another, if the line is live. -/
def work (s : EchoSystem) (line : UInt8) (accesses : List Access) : EchoSystem :=
  match s.live? line with
  | some place => s.modify place (·.after (accesses.map fun a => .operate (.access a)))
  | none => s

theorem work_of_none (h : s.live? line = none) (accesses : List Access) :
    s.work line accesses = s := by
  simp only [work, h]

theorem work_of_some (h : s.live? line = some place) (accesses : List Access) :
    s.work line accesses =
      s.modify place (·.after (accesses.map fun a => .operate (.access a))) := by
  simp only [work, h]

theorem live?_work (s : EchoSystem) (line other : UInt8) (accesses : List Access) :
    (s.work line accesses).live? other = s.live? other := by
  simp only [work]
  split <;> rfl

@[simp] theorem work_nil (s : EchoSystem) (line : UInt8) : s.work line [] = s := by
  cases h : s.live? line with
  | none => exact work_of_none h []
  | some place =>
    rw [work_of_some h]
    exact System.modify_eq_self fun d _ => rfl

theorem work_append (s : EchoSystem) (line : UInt8) (accesses more : List Access) :
    s.work line (accesses ++ more) = (s.work line accesses).work line more := by
  cases h : s.live? line with
  | none => rw [work_of_none h, work_of_none h, work_of_none h]
  | some place =>
    rw [work_of_some (s := s.work line accesses) ((live?_work ..).trans h), work_of_some h,
      work_of_some h]
    simp only [System.modify, List.modify_modify_eq, List.map_append, Device.after_append]
    rfl

theorem Attached.work_eq (h : s.Attached line place d) (accesses : List Access) :
    s.work line accesses =
      s.modify place fun _ => d.after (accesses.map fun a => .operate (.access a)) := by
  rw [work_of_some h.live]
  exact System.modify_congr fun e he => by rw [Option.some.inj (h.device.symm.trans he)]

/-- What the handler does to a device is work on its line. -/
theorem Attached.exists_work (h : s.Attached line place d) {e : Device Unit}
    (he : Echo.Handles d e) :
    ∃ accesses, (∀ a ∈ accesses, Echo.isHandling a = true) ∧
      (s.modify place fun _ => e) = s.work line accesses := by
  obtain ⟨accesses, hall, rfl⟩ := he
  exact ⟨accesses, hall, (h.work_eq accesses).symm⟩

theorem Reached.work (h : s.Reached) (line : UInt8) (accesses : List Access) :
    (s.work line accesses).Reached := by
  induction accesses generalizing s with
  | nil =>
    rw [work_nil]
    exact h
  | cons a accesses ih =>
    rw [← List.singleton_append, work_append]
    refine ih ?_
    cases hlive : s.live? line with
    | none =>
      rw [work_of_none hlive]
      exact h
    | some place =>
      rw [work_of_some hlive]
      exact h.act (.touch place (.operate (.access a))) (by simp)

theorem Attached.modify_ne (h : s.Attached line place d) {device : Nat} (hne : device ≠ place)
    (f : Device Unit → Device Unit) : Attached (s.modify device f) line place d where
  live := h.live
  entry := h.entry
  device := by simpa [System.modify, hne] using h.device

/-- Work on one line leaves the device of another alone. -/
theorem Attached.work_ne (h : s.Attached line place d) (hs : s.Reached) {other : UInt8}
    (hne : other ≠ line) (accesses : List Access) :
    (s.work other accesses).Attached line place d := by
  cases hlive : s.live? other with
  | none =>
    rw [work_of_none hlive]
    exact h
  | some device =>
    have hdevice : device ≠ place := by
      rintro rfl
      exact hne (hs.kept.distinct (System.live?_eq_some_iff.mp hlive)
        (System.live?_eq_some_iff.mp h.live))
    rw [work_of_some hlive]
    exact h.modify_ne hdevice _

theorem Attached.work (h : s.Attached line place d) (accesses : List Access) :
    (s.work line accesses).Attached line place
      (d.after (accesses.map fun a => .operate (.access a))) := by
  rw [h.work_eq]
  exact h.modify _

/-! ### What a step does -/

/-- Whether a step is work on one line. -/
def Step.isWork : Step → Bool
  | .onLine _ _ | .deliver _ _ | .service _ | .drain _ => true
  | _ => false

/-- An operation on a line that is not live is refused. -/
theorem onLine_of_none (h : s.live? line = none) (op : Operation Unit) :
    ∃ e, s.onLine line op = .error e := by
  simp only [System.live?] at h
  simp only [System.onLine]
  cases hget : s.table.get line with
  | error e => exact ⟨e, rfl⟩
  | ok device =>
    rw [hget] at h
    cases h

/-- An access to a line, through the table or by the feed, is work on it. -/
theorem onLine_eq_work (h : s.Reached) (line : UInt8) (a : Access) :
    (∃ e, s.onLine line (.access a) = .error e ∧ s.work line [a] = s) ∨
      ∃ reply flushes, s.onLine line (.access a) = .ok (reply, flushes, s.work line [a]) := by
  rcases h.cases_line line with hnone | ⟨place, d, hattached⟩
  · obtain ⟨e, he⟩ := onLine_of_none hnone (.access a)
    exact .inl ⟨e, he, work_of_none hnone [a]⟩
  · rw [hattached.work_eq]
    exact .inr ⟨_, _, hattached.onLine (.access a)⟩

theorem perform_eq_work (h : s.Reached) (line : UInt8) (a : Access) :
    (s.perform line (.access a)).2.2 = s.work line [a] := by
  simp only [EchoSystem.perform]
  rcases onLine_eq_work h line a with ⟨e, he, hwork⟩ | ⟨reply, flushes, ho⟩
  · rw [he, hwork]
  · rw [ho]

/-- The host handles the devices of live lines. -/
theorem Reached.attached_of_find? (h : s.Reached)
    (hfind : s.host.find? line = some (.device place)) (hd : s.devices[place]? = some d) :
    s.Attached line place d :=
  ⟨System.live?_eq_some_iff.mpr ((h.known line place).mp hfind), hfind, hd⟩

theorem deliver_eq_work (h : s.Reached) {iir : UInt8} {printed : List UInt8}
    (hdeliver : s.deliver line iir = some (printed, t)) :
    ∃ accesses, (∀ a ∈ accesses, Echo.isHandling a = true) ∧ t = s.work line accesses := by
  simp only [EchoSystem.deliver, registered?] at hdeliver
  split at hdeliver
  · next place d hregistered =>
    split at hregistered
    · next hfind =>
      obtain ⟨d, hd, hpair⟩ := Option.map_eq_some_iff.mp hregistered
      obtain ⟨rfl, rfl⟩ := Prod.mk.inj hpair
      obtain ⟨⟨out, e⟩, he, hresult⟩ := Option.map_eq_some_iff.mp hdeliver
      obtain ⟨-, rfl⟩ := Prod.mk.inj hresult
      exact (h.attached_of_find? hfind hd).exists_work (Echo.handles_deliver he)
    · cases hregistered
    · cases hregistered
  · obtain ⟨-, rfl⟩ := Prod.mk.inj (Option.some.inj hdeliver)
    exact ⟨[], by simp, (work_nil s line).symm⟩

theorem drain_eq_work (h : s.Reached) {bytes : Option (List UInt8)}
    (hdrain : s.drain line = some (bytes, t)) :
    ∃ accesses, (∀ a ∈ accesses, Echo.isHandling a = true) ∧ t = s.work line accesses := by
  have hsame (hst : s = t) :
      ∃ accesses, (∀ a ∈ accesses, Echo.isHandling a = true) ∧ t = s.work line accesses :=
    ⟨[], by simp, hst ▸ (work_nil s line).symm⟩
  unfold EchoSystem.drain at hdrain
  split at hdrain
  · exact hsame (Prod.mk.inj (Option.some.inj hdrain)).2
  · exact hsame (Prod.mk.inj (Option.some.inj hdrain)).2
  · next place hfind =>
    split at hdrain
    · next d hd =>
      obtain ⟨⟨out, e⟩, he, hresult⟩ := Option.map_eq_some_iff.mp hdrain
      obtain ⟨-, rfl⟩ := Prod.mk.inj hresult
      exact (h.attached_of_find? hfind hd).exists_work (Echo.handles_drainWithin he)
    · exact hsame (Prod.mk.inj (Option.some.inj hdrain)).2

theorem serviceWithin_eq_work (h : s.Reached) {rounds : Nat} {r : Service}
    (hservice : s.serviceWithin line rounds = some r) :
    ∃ accesses, (∀ a ∈ accesses, Echo.isHandling a = true) ∧ r.system = s.work line accesses := by
  have hsame (hr : some { handled := [], printed := [], system := s } = some r) :
      ∃ accesses, (∀ a ∈ accesses, Echo.isHandling a = true) ∧
        r.system = s.work line accesses := by
    obtain rfl := Option.some.inj hr
    exact ⟨[], by simp, (work_nil s line).symm⟩
  induction rounds generalizing s r with
  | zero => exact hsame hservice
  | succ rounds ih =>
    unfold serviceWithin at hservice
    split at hservice
    · split at hservice
      · -- One delivery, and then the rest of the round.
        obtain ⟨⟨out, u⟩, hdeliver, hrest⟩ := Option.bind_eq_some_iff.mp hservice
        obtain ⟨r', hr', rfl⟩ := Option.map_eq_some_iff.mp hrest
        obtain ⟨first, hfirst, rfl⟩ := deliver_eq_work h hdeliver
        obtain ⟨later, hlater, hsystem⟩ := ih (h.work line first) hr' fun hr => by
          obtain rfl := Option.some.inj hr
          exact ⟨[], by simp, (work_nil _ line).symm⟩
        exact ⟨first ++ later, List.forall_mem_append.mpr ⟨hfirst, hlater⟩,
          hsystem.trans (work_append s line first later).symm⟩
      · exact hsame hservice
    · exact hsame hservice

theorem writeAll_eq_work (h : s.Reached) (bytes : List UInt8) :
    ∃ accesses, (s.writeAll bytes).2.2 = s.work 0 accesses := by
  induction bytes generalizing s with
  | nil => exact ⟨[], (work_nil s 0).symm⟩
  | cons byte bytes ih =>
    simp only [writeAll]
    rcases onLine_eq_work h 0 (.write Offset.data byte) with ⟨e, he, -⟩ | ⟨reply, flushes, ho⟩
    · rw [he]
      exact ⟨[], (work_nil s 0).symm⟩
    · rw [ho]
      obtain ⟨accesses, hwork⟩ := ih (h.work 0 [.write Offset.data byte])
      cases reply with
      | failed e => exact ⟨[.write Offset.data byte], rfl⟩
      | _ =>
        exact ⟨.write Offset.data byte :: accesses,
          hwork.trans (work_append s 0 [.write Offset.data byte] accesses).symm⟩

theorem offer_eq_work (h : s.Reached) (bytes : List UInt8) :
    (s.offer bytes).2 = s.work 0 [.inject bytes] := by
  simp only [offer]
  rcases onLine_eq_work h 0 (.inject bytes) with ⟨e, he, hwork⟩ | ⟨reply, flushes, ho⟩
  · rw [he, hwork]
  · rw [ho]
    cases reply <;> rfl

theorem feed_eq_work (h : s.Reached) (bytes : List UInt8) (loopback : Bool) :
    ∃ accesses, (s.feed bytes loopback).2.2 = s.work 0 accesses := by
  cases loopback with
  | true =>
    obtain ⟨accesses, hwork⟩ := writeAll_eq_work h bytes
    refine ⟨accesses, hwork ▸ ?_⟩
    simp only [feed, if_true]
    rcases s.writeAll bytes with ⟨r, printed, u⟩
    cases r <;> rfl
  | false =>
    simp only [feed, Bool.false_eq_true, if_false]
    split
    · exact ⟨[], (work_nil s 0).symm⟩
    · refine ⟨[.inject bytes], ?_⟩
      rw [← offer_eq_work h bytes]
      rcases s.offer bytes with ⟨_ | rest, u⟩
      · rfl
      · cases rest <;> rfl

/-- **Accesses, deliveries, service rounds and drains are work on their line**: the access that is
asked for, or accesses of the handler. -/
theorem step_eq_work (h : s.Reached) {st : Step} (hst : st.isWork = true) :
    ∃ accesses, (∀ a ∈ accesses, Echo.isHandling a = true ∨ st = .onLine st.line a) ∧
      (s.step st).2 = s.work st.line accesses := by
  have hhandled {u : EchoSystem} (hu : ∃ accesses,
      (∀ a ∈ accesses, Echo.isHandling a = true) ∧ u = s.work st.line accesses) :
      ∃ accesses, (∀ a ∈ accesses, Echo.isHandling a = true ∨ st = .onLine st.line a) ∧
        u = s.work st.line accesses := by
    obtain ⟨accesses, hall, hwork⟩ := hu
    exact ⟨accesses, fun a ha => .inl (hall a ha), hwork⟩
  -- A step without an end is not made.
  have hnone : ∃ accesses, (∀ a ∈ accesses, Echo.isHandling a = true ∨ st = .onLine st.line a) ∧
      s = s.work st.line accesses := ⟨[], by simp, (work_nil s st.line).symm⟩
  cases st with
  | onLine line a => exact ⟨[a], by simp [Step.line], perform_eq_work h line a⟩
  | deliver line iir =>
    simp only [step, effect]
    cases hd : s.deliver line iir with
    | none => exact hnone
    | some r => exact hhandled (deliver_eq_work h hd)
  | service line =>
    simp only [step, effect]
    cases hr : s.serviceWithin line serviceLimit with
    | none => exact hnone
    | some r => exact hhandled (serviceWithin_eq_work h hr)
  | drain line =>
    simp only [step, effect]
    cases hd : s.drain line with
    | none => exact hnone
    | some r => exact hhandled (drain_eq_work h hd)
  | _ => cases hst

namespace Reached

theorem perform (h : s.Reached) (line : UInt8) (op : Operation Unit) :
    (s.perform line op).2.2.Reached := by
  rcases h.cases_line line with hnone | ⟨place, d, hattached⟩
  · obtain ⟨e, he⟩ := onLine_of_none hnone op
    simp only [EchoSystem.perform, he]
    exact h
  · rw [hattached.perform]
    have htouch : (s.modify place fun _ => (op.run d).device) =
        System.perform s (.touch place (.operate op)) :=
      System.modify_congr fun e he => by rw [Option.some.inj (hattached.device.symm.trans he)]; rfl
    rw [htouch]
    exact h.act (.touch place (.operate op)) (by simp)

theorem addEcho (h : s.Reached) (line : UInt8) (threshold : Nat) :
    (s.addEcho line threshold).2.Reached := by
  have hadd : Reached (s.add line).2 := h.act (.add line) (by simp)
  simp only [EchoSystem.addEcho]
  rcases ha : s.add line with ⟨r, u⟩
  rw [ha] at hadd
  cases r with
  | error e => exact hadd
  | ok place => exact (hadd.perform line (.attach ())).perform line (.bind threshold stdout)

/-- **Every step leads from a reached system to a reached system.** -/
theorem step (h : s.Reached) (st : Step) : (s.step st).2.Reached := by
  have hwork (hst : st.isWork = true) : (s.step st).2.Reached := by
    obtain ⟨accesses, -, hwork⟩ := step_eq_work h hst
    rw [hwork]
    exact h.work _ accesses
  cases st with
  | onLine | deliver | service | drain => exact hwork rfl
  | add line threshold => exact h.addEcho line threshold
  | remove line => exact h.act (.remove line) (by simp)
  | register line =>
    simp only [EchoSystem.step, effect]
    cases hi : LineInfo.ofLine line with
    | error e => exact h
    | ok info => exact h.enter info.line
  | feed bytes loopback =>
    obtain ⟨accesses, hwork⟩ := feed_eq_work h bytes loopback
    have hfed : (s.feed bytes loopback).2.2.Reached := hwork ▸ h.work 0 accesses
    simp only [EchoSystem.step, effect]
    rcases hfeed : s.feed bytes loopback with ⟨r, printed, u⟩
    rw [hfeed] at hfed
    cases r with
    | waiting rest => exact h
    | _ => exact hfed

theorem after (h : s.Reached) (steps : List Step) : (s.after steps).Reached := by
  induction steps generalizing s with
  | nil => exact h
  | cons st steps ih => exact ih (h.step st)

end Reached

end EchoSystem

end Uart16550
