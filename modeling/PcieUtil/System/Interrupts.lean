import PcieUtil.System.Hotplug

/-! The message modes and the interrupt lines over the histories of the module. -/

namespace PcieUtil.System.Interrupts
open Lib.Action Lib.Bytes
open Driver.State Driver.Discipline Driver.Devices Driver.Interfaces Driver.Probe Driver.Probing
  Driver.Requests Hotplug

/-- A message mode is enabled while none is on, disabled while it is on, and a line is
requested for exclusive use while no device has a handler on it. -/
def Disciplined (w : World) : Call → Prop
  | .pciAllocIrqVectors d _ _ | .pciEnableMsi d => (w.dev d).held.msi = .off
  | .pciDisableMsi d => (w.dev d).held.msi = .msi
  | .pciDisableMsix d => ∃ nvec, (w.dev d).held.msi = .msix nvec
  | .requestIrq irq _ false _ _ => ∀ d, ∀ a ∈ (w.dev d).held.actions, a.irq ≠ irq
  | _ => True

/-- The open of a probe leaves the message modes off. -/
def LeavesOff (hw : Dev → PciDev) (s : Sys) : Event → Prop
  | .probe pdev env =>
      LeavesModesOff hw env pdev (s.world.dev pdev).bus.nullRegister (s.world.dev pdev).held.regions
  | _ => True

section
variable {hw : Dev → PciDev} {walk : Walk} {s : Sys} {w : World} {pdev : Dev}

theorem Bound.lines {x : XdevPtr} (bound : Bound hw tables x w) :
    ∀ a ∈ (w.dev x.pdev).held.actions, OwnLine hw x.pdev a.irq := by
  obtain ⟨⟨h, closable, held⟩, _⟩ := bound
  rw [held]
  exact closable.probeLines

theorem Known.lines {binding : Binding} (known : Known hw w pdev binding) :
    ∀ a ∈ (w.dev pdev).held.actions, OwnLine hw pdev a.irq := by
  cases binding with
  | unbound =>
    rw [Unbound.actions known]
    intro a member
    cases member
  | bound =>
    obtain ⟨x, rfl, bound⟩ := known
    exact Bound.lines bound
  | stuck => exact Stuck.lines known

/-- A vector of one device is no line of another. -/
theorem OwnLine.apart {irq : Irq} {d : Dev} (own : OwnLine hw d irq) (different : d ≠ pdev) :
    irq.vectorOf ≠ some pdev := by
  intro vector
  obtain rfl | other := own
  · cases vector
  · rw [other, Option.some.injEq] at vector
    exact different vector

theorem disciplined_of_lawful (inv : Inv hw s) {c : Call} (on : LawfulOn hw False pdev s.world w c) :
    Disciplined w c := by
  have ordered : MsiOrdered pdev (w.dev pdev) c := on.lawful.ordered.resolve_right id
  cases c with
  | pciAllocIrqVectors d min max =>
    obtain ⟨rfl, off⟩ := ordered
    exact off
  | pciEnableMsi d =>
    obtain ⟨rfl, off⟩ := ordered
    exact off
  | pciDisableMsi d =>
    obtain ⟨rfl, enabled⟩ := ordered
    exact enabled
  | pciDisableMsix d =>
    obtain ⟨rfl, enabled⟩ := ordered
    exact enabled
  | requestIrq irq handler shared name devId =>
    cases shared with
    | true => trivial
    | false =>
      obtain ⟨vector, unused⟩ := ordered
      intro d a member
      by_cases own : d = pdev
      · subst own
        exact unused a member
      · rw [on.others d own] at member
        intro same
        exact OwnLine.apart (Known.lines (inv.devices d) a member) own (same ▸ vector)
  | _ => trivial

theorem disciplined_of_requested {base : Option (Option Mapping)} {c : Call}
    (requested : Requested base c) : Disciplined w c := by
  cases c <;> trivial

theorem disciplined_step (inv : Inv hw s) {e : Event} (possible : Admits s e)
    (meets : LeavesOff hw s e) : ∀ c ∈ calls hw walk s e, Disciplined c.1 c.2 := by
  intro c made
  cases e with
  | probe pdev env =>
    have spec : Act.wp (LawfulOn hw False pdev s.world) (probeOne hw tables walk env pdev) _ s.world :=
      probe_spec inv possible fun leaves => leaves meets
    exact disciplined_of_lawful inv (spec.1 c made)
  | remove pdev =>
    have spec : Act.wp (LawfulOn hw False pdev s.world) (removeOne hw tables walk pdev) _ s.world :=
      remove_spec inv possible
    exact disciplined_of_lawful inv (spec.1 c made)
  | openFile fd m => cases made
  | request pdev fd op =>
    obtain ⟨file, opened⟩ := Option.ne_none_iff_exists'.mp possible
    simp only [calls, opened] at made
    have spec := request_step hw tables s.world file op
    exact disciplined_of_requested (spec.1 c made).2

/-- In a history whose probes all leave the message modes off until they come to
pci_enable_msi, the modes and the lines are used in order. -/
theorem modes_in_order {bus : Bus} {config : Dev → Memory} {regs : Dev → Nat → Nat → BitVec 32}
    {es : List Event} (run : (machine hw walk).Run (LeavesOff hw) (Sys.start bus config regs) es s) :
    ∀ e, (machine hw walk).admits s e → LeavesOff hw s e →
      ∀ c ∈ calls hw walk s e, Disciplined c.1 c.2 :=
  fun _ possible meets => disciplined_step (inv_run run) possible meets

end

theorem modes_in_order_legacy : LeavesOff board idleStart (.probe 0 (.calm 2)) ∧
    ∀ c ∈ calls board .every idleStart (.probe 0 (.calm 2)), Disciplined c.1 c.2 := by
  have legacy : LeavesOff board idleStart (.probe 0 (.calm 2)) :=
    .inr (.inr (.inr (.inr (.inl (by decide)))))
  exact ⟨legacy, modes_in_order .start (.probe 0 (.calm 2)) rfl legacy⟩

/-- With interrupt_mode 1, probe_one enables MSI after xgpu_device_open has. -/
theorem msi_enabled_twice :
    ¬ ∀ (hw : Dev → PciDev) (walk : Walk) (bus : Bus) (config : Dev → Memory)
      (regs : Dev → Nat → Nat → BitVec 32) (es : List Event) (s : Sys),
      (machine hw walk).Run (fun _ _ => True) (Sys.start bus config regs) es s →
        ∀ e, (machine hw walk).admits s e → ∀ c ∈ calls hw walk s e, Disciplined c.1 c.2 := by
  intro all
  have again : ((calls board .every idleStart (.probe 0 (.calm 1))).any fun c =>
      c.2 = .pciEnableMsi 0 ∧ (c.1.dev 0).held.msi ≠ .off) = true := by decide
  obtain ⟨c, made, called⟩ := List.any_eq_true.mp again
  obtain ⟨enables, on⟩ := of_decide_eq_true called
  have disciplined := all board .every _ _ _ [] idleStart .start (.probe 0 (.calm 1)) rfl c made
  rw [enables] at disciplined
  exact on disciplined

end PcieUtil.System.Interrupts
