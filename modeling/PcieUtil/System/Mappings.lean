import PcieUtil.Driver.Cleanup
import PcieUtil.Lib.Events
import PcieUtil.System.Hotplug

/-! The mappings of BAR 5 that the register nodes make, over the arrival and the removal
of any number of devices. file_destroy_interfaces is taken to go through every member
of its list. No mapping is ever given back, so a device that has one must stay. -/

namespace PcieUtil.System.Mappings
open Lib.Action Lib.Bytes Lib.Events
open Driver.State Driver.Kernel Driver.Interfaces Driver.Books Driver.Creation Driver.Cleanup

/-- The devices with nodes, what cdev_register_init has mapped for each of them, the
mappings of the devices whose nodes are gone, and what has been unmapped. -/
structure Sys where
  world : World
  present : Dev → Bool
  obtained : Dev → List Mapping
  due : List Mapping
  unmapped : List Mapping

inductive Event where
  | create (x : XdevPtr) (env : Env)
  | destroy (pdev : Dev)

def Sys.start (bus : Bus) (config : Dev → Memory) (regs : Dev → Nat → Nat → BitVec 32) : Sys where
  world := .start bus config regs
  present _ := false
  obtained _ := []
  due := []
  unmapped := []

section
variable (hw : Dev → PciDev) (t : Tables)

/-- The mapping that a call of pci_iomap returns. -/
def mappedBy : World × Call → List Mapping
  | (w, .pciIomap pdev bar maxlen true) =>
      [⟨pdev, bar, (w.dev pdev).serial, iomapLen ((hw pdev).resourceLen bar).toNat maxlen⟩]
  | _ => []

def unmappedBy : World × Call → List Mapping
  | (_, .pciIounmap _ m) => [m]
  | _ => []

/-- xpdev_create_interfaces for a new `struct xgpu_pci_dev`. -/
def create (x : XdevPtr) (env : Env) : M Int := do
  onDev x.pdev (Act.update fun s => { s with xpdev := { xdev := some x } })
  xpdevCreateInterfaces hw t .every env x.pdev

def step (s : Sys) : Event → Sys
  | .create x env =>
      let out := (create hw t x env).run s.world
      { s with
        world := out.state
        present := Function.update s.present x.pdev true
        obtained := Function.update s.obtained x.pdev (out.trace.flatMap (mappedBy hw))
        unmapped := s.unmapped ++ out.trace.flatMap unmappedBy }
  | .destroy pdev =>
      let out := (xpdevDestroyInterfaces t .every pdev).run s.world
      { world := out.state
        present := Function.update s.present pdev false
        obtained := Function.update s.obtained pdev []
        due := s.due ++ s.obtained pdev
        unmapped := s.unmapped ++ out.trace.flatMap unmappedBy }

/-- Nodes are made for a device without any, successfully, and taken down for one that has them. -/
def Admits (s : Sys) : Event → Prop
  | .create x env => s.present x.pdev = false ∧ ((create hw t x env).run s.world).value = some 0
  | .destroy pdev => s.present pdev = true

def machine : Machine Sys Event := ⟨Admits hw t, step hw t⟩

/-- The numbers of the register nodes fit into a minor number, and no device is destroyed
for which a mapping has been obtained. -/
def LeavesMapped (s : Sys) : Event → Prop
  | .create _ _ => t.itemRegisterMax ≤ 2 ^ 20
  | .destroy pdev => t.itemRegisterMax ≤ 2 ^ 20 ∧ s.obtained pdev = []

end

/-- The mappings of the destroyed devices have been unmapped once, those of the present
devices not at all. -/
structure Balanced (s : Sys) : Prop where
  due : ∀ m ∈ s.due, s.unmapped.count m = 1
  kept : ∀ pdev, ∀ m ∈ s.obtained pdev, m ∉ s.unmapped

/-- The books of each device. -/
def Known (w : World) (pdev : Dev) : Bool → Prop
  | true => ∃ x lost, x.pdev = pdev ∧ Ledger x lost (w.dev pdev)
  | false => (w.dev pdev).cdevs = [] ∧ (w.dev pdev).sysDevices = []

structure Inv (s : Sys) : Prop where
  sysClass : s.world.gXgpuClass = true
  devices : ∀ d, Known s.world d (s.present d)
  unmapped : s.unmapped = []

section
variable {hw : Dev → PciDev} {t : Tables} {s : Sys} {w w' : World} {pdev : Dev}

theorem Known.same {d : Dev} {present : Bool} (known : Known w d present) (same : SameNodes d w w') :
    Known w' d present := by
  obtain ⟨held, config, dev⟩ := same
  cases present with
  | true =>
    obtain ⟨x, lost, own, ledger⟩ := known
    refine ⟨x, lost, own, ?_⟩
    rw [dev]
    exact ledger.same held config
  | false =>
    unfold Known
    rw [dev]
    exact known

/-- Work on one device keeps what is known of the others. -/
theorem Inv.devices_update (inv : Inv s) {present : Bool} (known : Known w pdev present)
    (others : ∀ d, d ≠ pdev → SameNodes d s.world w) (d : Dev) :
    Known w d (Function.update s.present pdev present d) := by
  by_cases own : d = pdev
  · rw [own, Function.update_self]
    exact known
  · rw [Function.update_of_ne own]
    exact (inv.devices d).same (others d own)

/-- With small node numbers no call of a sound run gives a mapping back. -/
theorem nothing_unmapped {α : Type} {out : Outcome World Call α} (small : t.itemRegisterMax ≤ 2 ^ 20)
    (sound : ∀ e ∈ out.trace, Sound t pdev e.1 e.2) : out.trace.flatMap unmappedBy = [] := by
  rw [List.flatMap_eq_nil_iff]
  intro e member
  have watched := sound e member
  unfold unmappedBy
  split
  · exact absurd small (Nat.not_le.mpr watched)
  · rfl

/-- The device is as it should be, and the others are as before. -/
structure Settled (pdev : Dev) (present : Bool) (w w' : World) : Prop where
  sysClass : w'.gXgpuClass = true
  known : Known w' pdev present
  others : ∀ d, d ≠ pdev → SameNodes d w w'

theorem create_audit {x : XdevPtr} {env : Env} (placed : Tables.Placed t)
    (sysClass : w.gXgpuClass = true) (known : Known w x.pdev false) :
    Act.audit (Sound t x.pdev) (releases x.pdev) (create hw t x env)
      (fun v w' _ => v = some 0 → Settled x.pdev true w w') w := by
  unfold create
  rw [Act.audit_bind, audit_onDev_update, Act.thenCollects_some]
  generalize fresh : setDev w x.pdev _ = u
  have dev : u.dev x.pdev = { w.dev x.pdev with xpdev := { xdev := some x } } := by
    rw [← fresh, setDev_dev_same]
  have blank : Blank x u := by
    constructor
    · rw [← fresh]
      exact sysClass
    · rw [dev]
    · rw [deviceMajor, dev]
    · intro type
      rw [dev]
    · rw [dev]
      exact known.1
    · rw [dev]
      exact known.2
  apply Act.audit_mono (xpdevCreateInterfaces_audit placed blank.book)
  intro v w' _ post value
  obtain ⟨_, ends⟩ := post
  split at ends
  · obtain ⟨_, book, _⟩ := ends
    refine ⟨book.sysClass, ⟨x, _, rfl, book.ledger⟩, fun d other => ?_⟩
    have before : SameNodes d w u := .of_dev (fresh ▸ setDev_dev_other w _ other)
    exact before.trans (book.others d other)
  · rw [ends.1] at value
    cases value

theorem destroy_audit (sysClass : w.gXgpuClass = true) (known : Known w pdev true) :
    Act.audit (Sound t pdev) (releases pdev) (xpdevDestroyInterfaces t .every pdev)
      (fun _ w' _ => Settled pdev false w w') w := by
  obtain ⟨x, lost, rfl, ledger⟩ := known
  have book : Book x w lost w := ⟨sysClass, ledger, fun d _ => .refl d w⟩
  apply Act.audit_mono (xpdevDestroyInterfaces_audit book)
  intro _ w' _ post
  obtain ⟨_, emptied, _⟩ := post
  have gone := emptied.book.ledger.of_empty emptied.empty
  exact ⟨emptied.book.sysClass, gone.2, emptied.book.others⟩

theorem inv_step (placed : Tables.Placed t) (small : t.itemRegisterMax ≤ 2 ^ 20) (inv : Inv s)
    {e : Event} (possible : Admits hw t s e) : Inv (step hw t s e) := by
  cases e with
  | create x env =>
    obtain ⟨absent, value⟩ := possible
    have known : Known s.world x.pdev false := absent ▸ inv.devices x.pdev
    obtain ⟨sound, ends⟩ := create_audit placed inv.sysClass known
    have settled := ends value
    refine ⟨settled.sysClass, inv.devices_update settled.known settled.others, ?_⟩
    exact List.append_eq_nil_iff.mpr ⟨inv.unmapped, nothing_unmapped small sound⟩
  | destroy pdev =>
    have known : Known s.world pdev true := possible ▸ inv.devices pdev
    obtain ⟨sound, settled⟩ := destroy_audit inv.sysClass known
    refine ⟨settled.sysClass, inv.devices_update settled.known settled.others, ?_⟩
    exact List.append_eq_nil_iff.mpr ⟨inv.unmapped, nothing_unmapped small sound⟩

theorem inv_start (bus : Bus) (config : Dev → Memory) (regs : Dev → Nat → Nat → BitVec 32) :
    Inv (.start bus config regs) := ⟨rfl, fun _ => ⟨rfl, rfl⟩, rfl⟩

/-- With nothing unmapped the books are balanced exactly when nothing is due. -/
theorem balanced_iff (unmapped : s.unmapped = []) : Balanced s ↔ s.due = [] := by
  constructor
  · intro balanced
    apply List.eq_nil_iff_forall_not_mem.mpr
    intro m member
    have once := balanced.due m member
    rw [unmapped] at once
    cases once
  · intro nothing
    refine ⟨fun m member => ?_, fun pdev m _ => ?_⟩
    · rw [nothing] at member
      cases member
    · rw [unmapped]
      exact List.not_mem_nil

/-- The events of a run that never destroys a device with a mapping. -/
theorem kept_step (placed : Tables.Placed t) (inv : Inv s) (nothing : s.due = []) {e : Event}
    (possible : Admits hw t s e) (leaves : LeavesMapped t s e) :
    Inv (step hw t s e) ∧ (step hw t s e).due = [] := by
  cases e with
  | create x env => exact ⟨inv_step placed leaves inv possible, nothing⟩
  | destroy pdev =>
    obtain ⟨small, unmapped⟩ := leaves
    refine ⟨inv_step placed small inv possible, ?_⟩
    change s.due ++ s.obtained pdev = []
    rw [nothing, unmapped]
    rfl

/-- The mappings are balanced in every run in which only devices without a mapping are
destroyed, and the first destruction of a device with one ends that. -/
theorem mappings_balanced {bus : Bus} {config : Dev → Memory} {regs : Dev → Nat → Nat → BitVec 32}
    {es : List Event} (placed : Tables.Placed t)
    (run : (machine hw t).Run (LeavesMapped t) (.start bus config regs) es s) :
    Balanced s ∧ ∀ pdev, t.itemRegisterMax ≤ 2 ^ 20 → Admits hw t s (.destroy pdev) →
      (Balanced (step hw t s (.destroy pdev)) ↔ s.obtained pdev = []) := by
  have both : Inv s ∧ s.due = [] := by
    apply run.invariant (fun u => Inv u ∧ u.due = []) ⟨inv_start bus config regs, rfl⟩
    intro u e post possible leaves
    obtain ⟨inv, nothing⟩ := post
    exact kept_step placed inv nothing possible leaves
  obtain ⟨inv, nothing⟩ := both
  refine ⟨(balanced_iff inv.unmapped).mpr nothing, fun pdev small possible => ?_⟩
  have after := inv_step placed small inv possible
  rw [balanced_iff after.unmapped]
  change s.due ++ s.obtained pdev = [] ↔ s.obtained pdev = []
  rw [nothing, List.nil_append]

end

def emptyStart : Sys := .start .plain (fun _ _ => 0) fun _ _ _ => 0

def firstCreate : Event := .create ⟨0, 0⟩ (.calm 0)

theorem first_created {cond : Sys → Event → Prop} (meets : cond emptyStart firstCreate) :
    (machine Hotplug.board tables).Run cond emptyStart [firstCreate]
      (step Hotplug.board tables emptyStart firstCreate) := by
  have possible : Admits Hotplug.board tables emptyStart firstCreate := ⟨rfl, by decide +kernel⟩
  exact .next firstCreate .start possible meets

theorem mappings_balanced_created :
    Balanced (step Hotplug.board tables emptyStart firstCreate) :=
  (mappings_balanced tables_placed (first_created (by decide : tables.itemRegisterMax ≤ 2 ^ 20))).1

/-- The mappings of a device that comes and goes stay. -/
theorem mapping_stays :
    ¬ ∀ (hw : Dev → PciDev) (t : Tables) (bus : Bus) (config : Dev → Memory) (regs : Dev → Nat → Nat → BitVec 32)
      (es : List Event) (s : Sys), Tables.Placed t →
        (machine hw t).Run (fun _ _ => True) (.start bus config regs) es s → Balanced s := by
  intro all
  let created := step Hotplug.board tables emptyStart firstCreate
  let destroyed := step Hotplug.board tables created (.destroy 0)
  have possible : Admits Hotplug.board tables created (.destroy 0) := by
    change Function.update emptyStart.present 0 true 0 = true
    exact Function.update_self _ _ _
  have run : (machine Hotplug.board tables).Run (fun _ _ => True) emptyStart
      ([firstCreate] ++ [.destroy 0]) destroyed := .next _ (first_created trivial) possible trivial
  have due := (all Hotplug.board tables _ _ _ _ _ tables_placed run).due
  revert due
  change ¬ ∀ m ∈ destroyed.due, destroyed.unmapped.count m = 1
  decide +kernel

end PcieUtil.System.Mappings
