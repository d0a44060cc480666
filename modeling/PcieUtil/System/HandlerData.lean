import PcieUtil.System.Hotplug
import PcieUtil.System.OpenClose

/-! What an interrupt finds, over the histories of probe_one and remove_one, and over
those of xgpu_device_open and xgpu_device_close with any user_max (that of probe_one is
zero, because the structure it is read from has just been cleared). A device that is
worked on keeps the data of its handlers at every call, and the others are as the
history has left them. -/

namespace PcieUtil.System.HandlerData
open Lib.Action Lib.Bytes
open Driver.State Driver.Discipline Driver.Devices Driver.Interfaces Driver.Probe Driver.Probing
  Driver.Requests

/-- Every handler of every device finds its data. -/
def Alive (w : World) : Prop := ∀ d, Attended (w.dev d)

section
variable {hw : Dev → PciDev} {walk : Walk} {w u : World} {pdev : Dev}

/-- At a call for one device the other devices are as they were. -/
theorem alive_of_lawful {E : Prop} {c : Call} (present : ∀ d, (hw d).resourceLen 1 ≠ 0) (alive : Alive w)
    (on : LawfulOn hw E pdev w u c) : Alive u := by
  intro d
  by_cases own : d = pdev
  · rw [own]
    exact on.lawful.attended (present pdev)
  · rw [on.others d own]
    exact alive d

/-! Probes and removes. -/

theorem known_attended {binding : Hotplug.Binding} (known : Hotplug.Known hw w pdev binding)
    (present : (hw pdev).resourceLen 1 ≠ 0) : Attended (w.dev pdev) := by
  cases binding with
  | unbound => exact attended_of_idle (Unbound.actions known)
  | bound =>
    obtain ⟨x, rfl, ⟨h, closable, held⟩, _⟩ := known
    obtain ⟨old, opened, _⟩ := closable.opened
    have served := served_probe opened closable.live
    have now : (w.dev x.pdev).held = withProbeAction x h := held
    exact served.attended (now ▸ .refl x _) present
  | stuck => exact Stuck.attended known present

theorem hotplug_alive {s : Hotplug.Sys} (inv : Hotplug.Inv hw s)
    (present : ∀ d, (hw d).resourceLen 1 ≠ 0) : Alive s.world :=
  fun d => known_attended (inv.devices d) (present d)

theorem hotplug_calls_alive {s : Hotplug.Sys} (inv : Hotplug.Inv hw s)
    (present : ∀ d, (hw d).resourceLen 1 ≠ 0) {e : Hotplug.Event} (possible : Hotplug.Admits s e) :
    ∀ c ∈ Hotplug.calls hw walk s e, Alive c.1 := by
  have alive := hotplug_alive inv present
  intro c made
  cases e with
  | probe pdev env =>
    have spec : Act.wp (LawfulOn hw True pdev s.world) (probeOne hw tables walk env pdev) _ s.world :=
      Hotplug.probe_spec inv possible fun _ => trivial
    exact alive_of_lawful present alive (spec.1 c made)
  | remove pdev =>
    have spec : Act.wp (LawfulOn hw True pdev s.world) (removeOne hw tables walk pdev) _ s.world :=
      Hotplug.remove_spec inv possible
    exact alive_of_lawful present alive (spec.1 c made)
  | openFile fd m => cases made
  | request pdev fd op =>
    obtain ⟨file, opened⟩ := Option.ne_none_iff_exists'.mp possible
    simp only [Hotplug.calls, opened] at made
    have spec := request_step hw tables s.world file op
    have same : driverView c.1 = driverView s.world := (spec.1 c made).1
    exact fun d => Hotplug.Attended.view (alive d) (Hotplug.driverPart_same same d)

/-! Opens and closes. -/

theorem use_attended {use : OpenClose.Use} (known : OpenClose.Known hw w pdev use)
    (present : (hw pdev).resourceLen 1 ≠ 0) : Attended (w.dev pdev) := by
  cases use with
  | closed => exact attended_of_idle (OpenClose.HoldsNothing.actions known)
  | live handle =>
    obtain ⟨own, allocated, opened, _⟩ := known
    subst own
    exact opened.attended allocated present
  | stuck => exact absurd known present

theorem openClose_calls_alive {s : OpenClose.Sys} (known : ∀ d, OpenClose.Known hw s.world d (s.use d))
    (present : ∀ d, (hw d).resourceLen 1 ≠ 0) {e : OpenClose.Event} (possible : OpenClose.Admits s e) :
    ∀ c ∈ OpenClose.calls hw s e, Alive c.1 := by
  have alive : Alive s.world := fun d => use_attended (known d) (present d)
  intro c made
  cases e with
  | deviceOpen pdev mname userMax env =>
    have start := known pdev
    rw [possible] at start
    exact alive_of_lawful present alive ((OpenClose.open_spec start mname userMax env).1 c made)
  | deviceClose pdev =>
    obtain ⟨handle, held⟩ := possible
    have start := known pdev
    rw [held] at start
    simp only [OpenClose.calls, held] at made
    exact alive_of_lawful present alive ((OpenClose.close_spec start).1 c made)

/-- At every call of a probe, a remove, an open or a close, and between them, every handler
finds its data. -/
theorem handlers_find_data (present : ∀ d, (hw d).resourceLen 1 ≠ 0) (bus : Bus) (config : Dev → Memory)
    (regs : Dev → Nat → Nat → BitVec 32) :
    (∀ es s, (Hotplug.machine hw walk).Run (fun _ _ => True) (.start bus config regs) es s →
      Alive s.world ∧ ∀ e, Hotplug.Admits s e → ∀ c ∈ Hotplug.calls hw walk s e, Alive c.1) ∧
    ∀ es s, (OpenClose.machine hw).Run (fun _ _ => True) (.start bus config regs) es s →
      Alive s.world ∧ ∀ e, OpenClose.Admits s e → ∀ c ∈ OpenClose.calls hw s e, Alive c.1 := by
  constructor
  · intro es s run
    have inv := Hotplug.inv_run run
    exact ⟨hotplug_alive inv present, fun e possible => hotplug_calls_alive inv present possible⟩
  · intro es s run
    have known := OpenClose.run_known run
    exact ⟨fun d => use_attended (known d) (present d),
      fun e possible => openClose_calls_alive known present possible⟩

end

theorem handlers_find_data_board :
    (∀ es s, (Hotplug.machine Hotplug.board .every).Run (fun _ _ => True) Hotplug.idleStart es s →
      Alive s.world ∧ ∀ e, Hotplug.Admits s e → ∀ c ∈ Hotplug.calls Hotplug.board .every s e, Alive c.1) ∧
    ∀ es s, (OpenClose.machine Hotplug.board).Run (fun _ _ => True)
      (.start .plain Hotplug.pinConfig fun _ _ _ => 0) es s →
        Alive s.world ∧ ∀ e, OpenClose.Admits s e → ∀ c ∈ OpenClose.calls Hotplug.board s e, Alive c.1 :=
  handlers_find_data (fun _ => (by decide : (Hotplug.board 0).resourceLen 1 ≠ 0)) .plain Hotplug.pinConfig
    fun _ _ _ => 0

end PcieUtil.System.HandlerData
