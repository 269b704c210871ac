import Uart16550.Proofs.Retirement
import Uart16550.Proofs.Settings
import Uart16550.Proofs.VirtualIrq

/-!
# A removal among others that use the device

A removal takes no lock from one section to the next, so whoever holds the device, the host
included, may act on it in every gap. `System.removeAround` is a removal with all that others do to
the device in the meantime (`Device.Meanwhile`), and without any of it is the removal of
`System.removeAmid`.

The removal prevails in all that the last section on the device takes away: it is not initialized,
not listed, has no consumer and nothing queued, and nobody can change this any more
(`Device.Stripped`). The worker was stopped before, by a section that leaves the device initialized.
So it stays away for sure only if nobody starts it again before the device is released
(`Device.retired_tornDown`); then nothing is ever delivered for the device. A worker that is started
in a gap outlives the removal, and a sink that is attached later is told of interrupts
(`System.delivered_behind_teardown`).
-/

namespace Uart16550

variable {η σ : Type}

namespace Device

/-! ### What a released device cannot get back -/

/-- A device that was released: nothing brings back what it has let go of. -/
structure Stripped (d : Device σ) : Prop where
  not_initialized : d.initialized = false
  not_registered : d.registered = false
  consumer_eq : d.consumer = none
  rx_eq : d.rx.reset = d.rx
  tx_eq : d.tx.reset = d.tx

theorem stripped_release (d : Device σ) : d.release.Stripped := ⟨rfl, rfl, rfl, rfl, rfl⟩

namespace Stripped

variable {d : Device σ}

theorem toList_eq (h : d.Stripped) : d.rx.toList = [] ∧ d.tx.toList = [] := by
  rw [← h.rx_eq, ← h.tx_eq]
  exact ⟨Fifo.toList_reset _, Fifo.toList_reset _⟩

/-- An access is refused, or empties what is empty. -/
theorem queues_access (h : d.Stripped) (a : Access) :
    (a.run d).device.rx = d.rx ∧ (a.run d).device.tx = d.tx := by
  rw [a.device_effect, effect_of_not_initialized h.not_initialized]
  cases a with
  | flush reason =>
    have hrun : ((Effect.flushes reason).run d).1 = (d.flush reason).2.1.refresh := rfl
    have htx : (d.flush reason).2.1.tx = d.tx := by simp [flush, h.consumer_eq, h.tx_eq, record]
    rw [hrun]
    exact ⟨(receiver_inj (d.sends_flush reason).receiver_eq).1, htx⟩
  | reset => exact ⟨h.rx_eq, h.tx_eq⟩
  | _ => exact ⟨rfl, rfl⟩

theorem queues_run (h : d.Stripped) {m : Move σ} (hm : m.ofHolder = true) :
    (m.run d).rx = d.rx ∧ (m.run d).tx = d.tx := by
  by_cases hoper : ∃ op, m = .operate op
  · obtain ⟨op, rfl⟩ := hoper
    by_cases haccess : ∃ a, op = .access a
    · obtain ⟨a, rfl⟩ := haccess
      exact h.queues_access a
    · obtain ⟨hrx, htx, -⟩ := d.sides_operate (not_exists.mp haccess)
      exact ⟨(receiver_inj hrx).1, queue_of_transmitter htx⟩
  · have hkept : m ≠ .release := by
      rintro rfl
      cases hm
    obtain ⟨-, hrx, htx, -⟩ := d.run_keeps (not_exists.mp hoper) hkept
    exact ⟨hrx, htx⟩

/-- **Nobody but the table** gives a released device anything back. -/
theorem run (h : d.Stripped) {m : Move σ} (hm : m.ofHolder = true) : (m.run d).Stripped := by
  obtain ⟨-, hinit, hreg⟩ := d.flags_run hm
  obtain ⟨hrx, htx⟩ := h.queues_run hm
  have hrefused : d.binds m = false := by
    rw [← Bool.not_eq_true]
    intro hbound
    have hup := initialized_of_binds hbound
    rw [h.not_initialized] at hup
    cases hup
  have hunbound : d.settings.binding = none := by simp [settings, h.consumer_eq]
  have hconsumer : (m.run d).settings.binding = none := by
    rcases binding_run hrefused with hsame | hnone
    · exact hsame.trans hunbound
    · exact hnone
  exact {
    not_initialized := hinit.trans h.not_initialized
    not_registered := hreg.trans h.not_registered
    consumer_eq := by simpa [settings] using hconsumer
    rx_eq := by rw [hrx, h.rx_eq]
    tx_eq := by rw [htx, h.tx_eq] }

/-- A stripped device without a worker is retired. -/
theorem retired (h : d.Stripped) (habsent : d.worker = .absent) (hhoused : d.Housed) :
    d.Retired where
  not_initialized := h.not_initialized
  not_registered := h.not_registered
  consumer_eq := h.consumer_eq
  worker_eq := habsent
  not_enabled := by rw [hhoused.enabled_eq, holdsWorker, habsent]; rfl
  rx_eq := h.rx_eq
  tx_eq := h.tx_eq

theorem after (h : d.Stripped) {ms : List (Move σ)} (hms : ∀ m ∈ ms, m.ofHolder = true) :
    (d.after ms).Stripped :=
  after_of_mem (fun _ _ hm hd => hd.run hm) h hms

end Stripped

/-! ### The worker -/

variable {d : Device σ}

/-- Only starting a worker brings one. -/
theorem worker_run (h : d.worker = .absent) {m : Move σ} (hm : m ≠ .operate .enableIrq) :
    (m.run d).worker = .absent := by
  cases m with
  | operate op =>
    by_cases haccess : ∃ a, op = .access a
    · obtain ⟨a, rfl⟩ := haccess
      exact (d.worker_access a).trans h
    · rcases d.operate_cases (not_exists.mp haccess) with
        ⟨⟨c, metrics, hd⟩, -⟩ | ⟨sink, rfl⟩ | ⟨-, hnotices⟩ | ⟨hd, -⟩
      · simpa [Move.run, hd] using h
      · exact h
      · cases op with
        | enableIrq => exact absurd rfl hm
        | _ => cases hnotices
      · simp [Move.run, hd, stopped]
  | look => simp [Move.run, isArmed, h]
  | crashed => simp [Move.run, h]
  | _ => exact h

theorem worker_after (h : d.worker = .absent) {ms : List (Move σ)}
    (hms : ∀ m ∈ ms, m ≠ .operate .enableIrq) : (d.after ms).worker = .absent :=
  after_of_mem (P := fun d => d.worker = .absent) (fun _ _ hm hd => worker_run hd hm) h hms

/-! ### The moves of a removal -/

/-- What others do to a device while its line is removed, between one section and the next. -/
structure Meanwhile (σ : Type) where
  claimed : List (Move σ) := []
  stopped : List (Move σ) := []
  cutOff : List (Move σ) := []
  delisted : List (Move σ) := []
  released : List (Move σ) := []
  /-- None of it is the table's. -/
  ofHolder : ∀ m ∈ claimed ++ stopped ++ cutOff ++ delisted ++ released, m.ofHolder = true

namespace Meanwhile

/-- All that happens to the device until the host is asked to delist it. -/
def before (g : Meanwhile σ) : List (Move σ) :=
  g.claimed ++ .operate .disableIrq :: (g.stopped ++ .list false :: g.cutOff)

/-- All that happens to the device from then on. -/
def behind (g : Meanwhile σ) : List (Move σ) := g.delisted ++ .release :: g.released

/-- All that happens to the device after its worker was stopped and before it is released. -/
def unguarded (g : Meanwhile σ) : List (Move σ) :=
  g.stopped ++ .list false :: (g.cutOff ++ g.delisted)

theorem before_append_behind (g : Meanwhile σ) :
    g.before ++ g.behind =
      g.claimed ++ .operate .disableIrq :: (g.unguarded ++ .release :: g.released) := by
  simp [before, behind, unguarded]

theorem ofHolder_released (g : Meanwhile σ) : ∀ m ∈ g.released, m.ofHolder = true :=
  fun m hm => g.ofHolder m (List.mem_append_right _ hm)

end Meanwhile

/-- **A removal takes away what it lets go of last**, whatever others do in the meantime. -/
theorem stripped_tornDown (d : Device σ) (g : Meanwhile σ) :
    (d.after (g.before ++ g.behind)).Stripped := by
  rw [g.before_append_behind, after_append, after_cons, after_append, after_cons]
  exact (stripped_release _).after g.ofHolder_released

/-- **A removal retires its device**, if nobody starts a worker again in the middle of it. -/
theorem retired_tornDown (hd : d.Housed) {g : Meanwhile σ}
    (hg : ∀ m ∈ g.unguarded, m ≠ .operate .enableIrq) :
    (d.after (g.before ++ g.behind)).Retired := by
  rw [g.before_append_behind, after_append, after_cons, after_append, after_cons]
  set stopped := Move.run (d.after g.claimed) (.operate .disableIrq)
  have habsent : (stopped.after g.unguarded).worker = .absent :=
    worker_after (worker_disableIrq _) hg
  have hhoused : (stopped.after g.unguarded).Housed :=
    after_of_keeps housed_move (housed_move _ _ (after_of_keeps housed_move hd _)) _
  have hreleased : (Move.run (stopped.after g.unguarded) .release).Retired :=
    (stripped_release _).retired habsent (housed_move _ .release hhoused)
  exact after_of_mem (fun _ _ hm h => h.run hm) hreleased g.ofHolder_released

end Device

namespace System

/-! ### The removal -/

/-- What others do to a device. -/
def touchAll (s : System η σ) (device : Nat) (ms : List (Device.Move σ)) : System η σ :=
  s.modify device (·.after ms)

/-- A removal, section by section, with what others do to its device in between, and with the lines
that the host has added while it delists it. -/
def removeAround [Host η] (s : System η σ) (line : UInt8) (requests : List UInt8)
    (g : Device.Meanwhile σ) : System η σ :=
  match LineInfo.ofLine line, s.table.slot line with
  | .ok info, .live device =>
    let s := (s.claim line).touchAll device g.claimed
    let s := (s.stopWorker device).2.touchAll device g.stopped
    let s := (s.cutOff device).touchAll device g.cutOff
    let s := ((s.delist info).2.addAll requests).touchAll device g.delisted
    let s := (s.releaseDevice device).touchAll device g.released
    s.vacate line
  | _, _ => s

variable {s : System η σ} {line : UInt8} {device : Nat}

theorem touchAll_touchAll (s : System η σ) (device : Nat) (ms ns : List (Device.Move σ)) :
    (s.touchAll device ms).touchAll device ns = s.touchAll device (ms ++ ns) := by
  simp only [touchAll, modify, List.modify_modify_eq]
  congr 2
  exact funext fun d => (d.after_append ms ns).symm

/-- Each section that touches the device is one of its moves. -/
theorem stopWorker_eq_touchAll (s : System η σ) (device : Nat) :
    (s.stopWorker device).2 = s.touchAll device [.operate .disableIrq] :=
  s.stopWorker_eq_modify device

variable [Host η]

/-- All that happens to the device of a line in the course of its removal. -/
theorem removeAround_of_live {info : LineInfo} (hs : s.table.slot line = .live device)
    (hi : LineInfo.ofLine line = .ok info) (requests : List UInt8) (g : Device.Meanwhile σ) :
    s.removeAround line requests g =
      (((((s.claim line).touchAll device g.before).delist info).2.addAll requests).touchAll device
        g.behind).vacate line := by
  have hcutOff (t : System η σ) : t.cutOff device = t.touchAll device [.list false] := rfl
  have hrelease (t : System η σ) : t.releaseDevice device = t.touchAll device [.release] := rfl
  simp only [removeAround, hi, hs, stopWorker_eq_touchAll, hcutOff, hrelease, touchAll_touchAll,
    Device.Meanwhile.before, Device.Meanwhile.behind, List.append_assoc, List.cons_append,
    List.nil_append]

/-- **Without others** it is the removal of a table. -/
theorem removeAround_eq_removeAmid (s : System η σ) (line : UInt8) (requests : List UInt8) :
    s.removeAround line requests { ofHolder := by simp } = s.removeAmid line requests := by
  by_cases hlive : ∃ device, s.table.slot line = .live device
  · obtain ⟨device, hs⟩ := hlive
    obtain ⟨info, hi, -⟩ := delisting?_of_live hs
    have hcut : s.cutOffLine line device =
        (s.claim line).touchAll device [.operate .disableIrq, .list false] :=
      s.cutOffLine_eq_modify line device
    rw [removeAround_of_live hs hi]
    simp only [removeAmid, hs]
    rw [amid_of_live hs hi, hcut]
    rfl
  · rw [removeAmid_of_not_live (not_exists.mp hlive)]
    unfold removeAround
    split
    · next hs => exact absurd ⟨_, hs⟩ hlive
    · rfl

/-- **A removal leaves every other device as it was**, and its own as the moves of the removal do,
with those of the others among them. -/
theorem getElem?_removeAround (hs : s.table.slot line = .live device) (requests : List UInt8)
    (g : Device.Meanwhile σ) {place : Nat} {d : Device σ} (hd : s.devices[place]? = some d) :
    (s.removeAround line requests g).devices[place]? =
      some (if place = device then d.after (g.before ++ g.behind) else d) := by
  obtain ⟨info, hi, -⟩ := delisting?_of_live hs
  have htouched (t : System η σ) (ms : List (Device.Move σ)) {e : Device σ}
      (he : t.devices[place]? = some e) :
      (t.touchAll device ms).devices[place]? = some (if place = device then e.after ms else e) := by
    simp only [touchAll, modify, List.getElem?_modify, he]
    by_cases hp : place = device
    · simp [hp]
    · simp [hp, Ne.symm hp]
  have hbefore : (((s.claim line).touchAll device g.before).delist info).2.devices[place]? =
      some (if place = device then d.after g.before else d) :=
    htouched (s.claim line) g.before hd
  have hdelisted := getElem?_addAll hbefore requests
  rw [removeAround_of_live hs hi]
  refine (htouched _ g.behind hdelisted).trans ?_
  split
  · rw [Device.after_append]
  · rfl

theorem slot_removeAround_self (hs : s.table.slot line = .live device) (requests : List UInt8)
    (g : Device.Meanwhile σ) : (s.removeAround line requests g).table.slot line = .free := by
  obtain ⟨info, hi, -⟩ := delisting?_of_live hs
  rw [removeAround_of_live hs hi]
  exact LineTable.slot_vacate_self _ line

/-! ### What prevails -/

/-- **A removal prevails** over whatever others do in the meantime in all but the worker: the line
is free, and its device is not initialized, not listed, has no consumer and nothing queued, for
good. If nobody starts a worker in the middle of the removal, it prevails in all: the device is
retired, for good, so nothing is ever delivered for it. -/
theorem removeAround_prevails (host : η) (counting : Bool) (earlier : List (Act η σ))
    {line : UInt8} {device : Nat} (requests : List UInt8) (g : Device.Meanwhile σ) :
    let s := (System.empty host counting).after earlier
    let t := s.removeAround line requests g
    s.table.slot line = .live device →
    t.table.slot line = .free ∧
      (∃ d, t.devices[device]? = some d ∧
        ∀ ms : List (Device.Move σ), (∀ m ∈ ms, m.ofHolder = true) →
          (d.after ms).Stripped ∧ (d.after ms).rx.toList = [] ∧ (d.after ms).tx.toList = []) ∧
      ((∀ m ∈ g.unguarded, m ≠ .operate .enableIrq) →
        ∀ later, (t.after later).RetiredAt device) := by
  intro s t hs
  have hkept : s.Kept none := after_of_keeps kept_perform (kept_empty host counting) earlier
  obtain ⟨d, hd, -⟩ := hkept.live hs
  have hgone : t.devices[device]? = some (d.after (g.before ++ g.behind)) := by
    rw [getElem?_removeAround hs requests g hd, if_pos rfl]
  have hhoused : d.Housed :=
    Device.housed_of_reachable (reachable_after host counting earlier d (List.mem_of_getElem? hd))
  refine ⟨slot_removeAround_self hs requests g, ⟨_, hgone, fun ms hms => ?_⟩, fun hg later => ?_⟩
  · have hstripped := (d.stripped_tornDown g).after hms
    exact ⟨hstripped, hstripped.toList_eq⟩
  · exact after_of_keeps (P := fun s => s.RetiredAt device) retired_perform
      ⟨_, hgone, Device.retired_tornDown hhoused hg⟩ later

/-- A worker that is started after the removal has stopped it and before the device is released
outlives the removal. The interrupt that was pending stays so, and a sink that is attached to the
removed device is told of it. -/
theorem delivered_behind_teardown :
    let s : System RecordingHost Unit := (System.empty {} true).after [.add 0]
    let rearms : Device.Meanwhile Unit := {
      stopped := [
        .operate (.access (.write Offset.interruptEnable InterruptEnable.transmitterEmpty)),
        .operate .enableIrq]
      ofHolder := by simp [Device.Move.ofHolder] }
    let t := s.removeAround 0 [] rearms
    s.table.slot 0 = .live 0 ∧ t.table.slot 0 = .free ∧
      ∃ d, t.devices[0]? = some d ∧ d.Stripped ∧ d.worker = .alive ∧
        Device.Move.look.notices (d.after [.operate (.attach ())]) = [.delivered 0 0xC2] := by
  intro s rearms t
  have hs : s.table.slot 0 = .live 0 := by decide +kernel
  have hdelivered : ∃ d, t.devices[0]? = some d ∧ d.worker = .alive ∧
      Device.Move.look.notices (d.after [.operate (.attach ())]) = [.delivered 0 0xC2] := by
    decide +kernel
  obtain ⟨d, hd, hworker, hnotices⟩ := hdelivered
  obtain ⟨hfree, ⟨e, he, hstripped⟩, -⟩ :=
    removeAround_prevails (η := RecordingHost) {} true [.add 0] [] rearms hs
  obtain rfl := Option.some.inj (he.symm.trans hd)
  exact ⟨hs, hfree, e, hd, (hstripped [] (by simp)).1, hworker, hnotices⟩

end System

end Uart16550
