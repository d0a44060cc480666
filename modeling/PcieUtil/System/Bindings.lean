import PcieUtil.System.Hotplug

/-! What a device holds in the states that the histories of the module come to: nothing that could
still call into the driver while it has no driver, and while it has one exactly one xgpu_dev with
the two interrupts of its probe. -/

namespace PcieUtil.System.Bindings
open Lib.Bytes
open Driver.State Driver.Bars Driver.DeviceOpen Driver.Interfaces Driver.Probing Hotplug

/-- A device that nothing leads back to the driver from. -/
structure Idle (w : World) (pdev : Dev) : Prop where
  actions : (w.dev pdev).held.actions = []
  msi : (w.dev pdev).held.msi = .off
  lists : ∀ type, (w.dev pdev).xpdev.listHead type = []
  cdevs : (w.dev pdev).cdevs = []
  unlisted : ∀ x ∈ w.xdevList, x.pdev ≠ pdev
  unfound : ((xdevFindByPdev pdev).run w).value = some none

/-- A device with the xgpu_dev x. The interrupt of xgpu_device_open is on the line of the device, and
that of probe_one is its message. -/
structure Attached (hw : Dev → PciDev) (x : XdevPtr) (w : World) : Prop where
  drvdata : (w.dev x.pdev).drvdata = true
  owner : (w.dev x.pdev).xpdev.xdev = some x
  live : x ∈ (w.dev x.pdev).xdevLive
  listed : (w.xdevList.filter fun y => y.pdev = x.pdev) = [x]
  found : ((xdevFindByPdev x.pdev).run w).value = some (some x)
  msi : (w.dev x.pdev).held.msi = .msi
  actions : (w.dev x.pdev).held.actions =
    [⟨.msi x.pdev, .xgpuMsiInterrupt, .xdev x⟩, ⟨.line (hw x.pdev).irqLine, .xgpuIsr, .xdev x⟩]
  bars : ∀ (j : Nat) m, ((w.dev x.pdev).xdev x).bar j = some m → m ∈ (w.dev x.pdev).held.maps ∧ m.pdev = x.pdev
  configBar : (((w.dev x.pdev).xdev x).bar ((w.dev x.pdev).xdev x).configBarIdx).map Mapping.bar =
    if (hw x.pdev).resourceLen 1 = 0 then none else some 1
  nodes : ∀ entry ∈ (w.dev x.pdev).cdevs, ∃ type < 3, entry.2 ∈ (w.dev x.pdev).xpdev.listHead type

section
variable {hw : Dev → PciDev} {walk : Walk} {w : World} {pdev : Dev} {x : XdevPtr}

/-- The lookup goes by the part of the list that belongs to the device. -/
theorem find_filter (list : List XdevPtr) (pdev : Dev) :
    (list.find? fun y => y.pdev = pdev) = (list.filter fun y => y.pdev = pdev).head? := by
  rw [List.head?_filter]

theorem Unbound.idle (unbound : Unbound w pdev) : Idle w pdev where
  actions := unbound.actions
  msi := unbound.msi
  lists := unbound.nodes.lists
  cdevs := unbound.nodes.cdevs
  unlisted x among own := by
    have kept : x ∈ w.xdevList.filter fun y => y.pdev = pdev := List.mem_filter.mpr ⟨among, decide_eq_true own⟩
    rw [unbound.listed] at kept
    exact absurd kept List.not_mem_nil
  unfound := by
    change some (w.xdevList.find? fun y => y.pdev = pdev) = some none
    rw [find_filter, unbound.listed]
    rfl

/-- Where the interrupt registers are looked for. -/
theorem mapsBar_bar {X : XgpuDev} (mapped : Mapped hw pdev X.bar XGPU_BAR_NUM) (config : X.configBarIdx = 1) :
    (X.bar X.configBarIdx).map Mapping.bar = if (hw pdev).resourceLen 1 = 0 then none else some 1 := by
  have first : MapsBar hw pdev 1 (X.bar X.configBarIdx) := config ▸ mapped.below 1 (by decide)
  rw [MapsBar] at first
  split at first
  case isTrue absent => rw [first, if_pos absent, Option.map_none]
  case isFalse present =>
    obtain ⟨serial, base⟩ := first
    rw [base, if_neg present, Option.map_some]

theorem Bound.attached (bound : Bound hw tables x w) : Attached hw x w := by
  have usable := Bound.usable bound
  obtain ⟨⟨h, closable, held⟩, drvdata⟩ := bound
  obtain ⟨old, opened, _⟩ := closable.opened
  have listed := closable.listed
  refine ⟨drvdata, closable.owner, closable.live, listed, ?_, ?_, ?_, fun j m entry => ?_, ?_,
    fun entry among => ?_⟩
  · change some (w.xdevList.find? fun y => y.pdev = x.pdev) = some (some x)
    rw [find_filter, listed]
    rfl
  · rw [held]
  · rw [held]
    exact congrArg (List.cons (probeAction x)) opened.handlers
  · exact ⟨usable.mapped j m entry, usable.tagged j m entry⟩
  · exact mapsBar_bar opened.mapped opened.config
  · obtain ⟨type, there⟩ := usable.linked.registered entry among
    refine ⟨type, ?_, there⟩
    by_contra above
    rw [usable.linked.three type (by omega)] at there
    exact absurd there List.not_mem_nil

/-- In every state that probes, removes and file operations lead to, in any order and with any of
their kernel calls failing: a device without the driver holds no interrupt, no message mode, no node
and no place on the list, and is not found; a device with it has exactly one xgpu_dev on the list,
which is the one that is found, its own mappings behind the BARs, and two interrupts, of which only
the one on its line runs xgpu_isr. -/
theorem bindings_reached {bus : Bus} {config : Dev → Memory} {regs : Dev → Nat → Nat → BitVec 32}
    {es : List Event} {s : Sys}
    (run : (machine hw walk).Run (fun _ _ => True) (.start bus config regs) es s) (pdev : Dev) :
    (s.binding pdev = .unbound → Idle s.world pdev) ∧
      (s.binding pdev = .bound → ∃ x : XdevPtr, x.pdev = pdev ∧ Attached hw x s.world) := by
  have known := (inv_run run).devices pdev
  constructor
  · intro unbound
    rw [unbound] at known
    exact Unbound.idle known
  · intro bound
    rw [bound] at known
    obtain ⟨x, own, attached⟩ := known
    exact ⟨x, own, Bound.attached attached⟩

end

/-- Behind a probe of a board that lets xgpu_device_open have the line. -/
theorem bindings_reached_probed :
    ∃ x : XdevPtr, x.pdev = 0 ∧ Attached board x (step board .every idleStart (goodProbe 0)).world := by
  have run : (machine board .every).Run (fun _ _ => True) idleStart ([] ++ [goodProbe 0])
      (step board .every idleStart (goodProbe 0)) := .next (goodProbe 0) .start rfl trivial
  exact (bindings_reached run 0).2 (by decide +kernel)

end PcieUtil.System.Bindings
