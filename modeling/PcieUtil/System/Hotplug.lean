import PcieUtil.Driver.Probing
import PcieUtil.Driver.Requests
import PcieUtil.Lib.Events

/-! Histories of the module: any number of devices are probed and removed, and files
that were opened on their nodes stay open until they are released, whether the device
is still there or not. -/

namespace PcieUtil.System.Hotplug
open Lib.Action Lib.Bytes Lib.Events
open Driver.State Driver.Discipline Driver.Irq Driver.Devices Driver.Interfaces Driver.Nodes Driver.Probe
  Driver.Probing Driver.Requests

/-- A device whose probe or remove was cut off by a fault stays stuck in it. -/
inductive Binding where
  | unbound
  | bound
  | stuck
  deriving DecidableEq

/-- The open files of each device are numbered. -/
structure Sys where
  world : World
  binding : Dev → Binding
  files : Dev × Nat → Option File

inductive Event where
  | probe (pdev : Dev) (env : Env)
  | remove (pdev : Dev)
  | openFile (fd : Nat) (m : MemberPtr)
  | request (pdev : Dev) (fd : Nat) (op : Op)

/-- The device that an event is about. -/
def Event.pdev : Event → Dev
  | .probe pdev _ | .remove pdev | .request pdev _ _ => pdev
  | .openFile _ m => m.pdev

def Sys.start (bus : Bus) (config : Dev → Memory) (regs : Dev → Nat → Nat → BitVec 32) : Sys where
  world := .start bus config regs
  binding _ := .unbound
  files _ := none

def bindingAfterProbe : Option Int → Binding
  | none => .stuck
  | some rv => if rv = 0 then .bound else .unbound

section
variable (hw : Dev → PciDev) (walk : Walk)

def step (s : Sys) : Event → Sys
  | .probe pdev env =>
      let out := (probeOne hw tables walk env pdev).run s.world
      { s with
        world := out.state
        binding := Function.update s.binding pdev (bindingAfterProbe out.value) }
  | .remove pdev =>
      let out := (removeOne hw tables walk pdev).run s.world
      { s with
        world := out.state
        binding := Function.update s.binding pdev (if out.value.isSome then .unbound else .stuck) }
  | .openFile fd m =>
      let ops := ((s.world.dev m.pdev).member m).ops
      { s with files := Function.update s.files (m.pdev, fd) (ops.map (charOpen m)) }
  | .request pdev fd op =>
      match s.files (pdev, fd) with
      | none => s
      | some file =>
          { s with
            world := ((request hw tables file op).run s.world).state
            files := if op.closes then Function.update s.files (pdev, fd) none else s.files }

/-- The kernel calls of a step. -/
def calls (s : Sys) : Event → List (World × Call)
  | .probe pdev env => ((probeOne hw tables walk env pdev).run s.world).trace
  | .remove pdev => ((removeOne hw tables walk pdev).run s.world).trace
  | .openFile _ _ => []
  | .request pdev fd op =>
      match s.files (pdev, fd) with
      | none => []
      | some file => ((request hw tables file op).run s.world).trace

/-- The kernel probes a device without a driver and removes a bound one. A node can be
opened while its cdev is registered; a file that is open stays usable after that. -/
def Admits (s : Sys) : Event → Prop
  | .probe pdev _ => s.binding pdev = .unbound
  | .remove pdev => s.binding pdev = .bound
  | .openFile fd m => s.files (m.pdev, fd) = none ∧ ∃ cdevno, (cdevno, m) ∈ (s.world.dev m.pdev).cdevs
  | .request pdev fd _ => s.files (pdev, fd) ≠ none

def machine : Machine Sys Event := ⟨Admits, step hw walk⟩

/-! The invariant of the devices. -/

def Known (w : World) (pdev : Dev) : Binding → Prop
  | .unbound => Unbound w pdev
  | .bound => ∃ x : XdevPtr, x.pdev = pdev ∧ Bound hw tables x w
  | .stuck => Stuck hw tables pdev w

structure Inv (s : Sys) : Prop where
  sysClass : s.world.gXgpuClass = true
  devices : ∀ d, Known hw s.world d (s.binding d)

end

section
variable {hw : Dev → PciDev} {walk : Walk} {s : Sys} {w u : World} {pdev : Dev} {E : Prop}

theorem Known.apart {d : Dev} {binding : Binding} (known : Known hw w d binding)
    (apart : Apart pdev w u) (different : d ≠ pdev) : Known hw u d binding := by
  cases binding with
  | unbound => exact Unbound.apart known apart different
  | bound =>
    obtain ⟨x, own, bound⟩ := known
    exact ⟨x, own, bound.apart apart (own ▸ different)⟩
  | stuck => exact Stuck.apart known apart different

theorem Bound.usable {x : XdevPtr} (bound : Bound hw tables x w) :
    Usable hw tables x (w.dev x.pdev) := by
  obtain ⟨⟨h, closable, held⟩, _⟩ := bound
  apply closable.usable
  rw [held]

/-- A device has no nodes, or they can be used. -/
theorem Known.usable {binding : Binding} (known : Known hw w pdev binding) :
    NoNodes (w.dev pdev) ∨ ∃ x : XdevPtr, x.pdev = pdev ∧ Usable hw tables x (w.dev pdev) := by
  cases binding with
  | unbound => exact .inl (Unbound.nodes known)
  | bound =>
    obtain ⟨x, rfl, bound⟩ := known
    exact .inr ⟨x, rfl, Bound.usable bound⟩
  | stuck => exact Stuck.usable known

/-- The mapping behind the register files is never one that its device has given back. -/
theorem Known.pinned {binding : Binding} (known : Known hw w pdev binding) :
    Pinned w pdev (w.dev pdev).held.maps := by
  cases binding with
  | unbound => exact Unbound.pinned known
  | bound =>
    obtain ⟨x, rfl, ⟨h, closable, held⟩, _⟩ := known
    obtain ⟨old, opened, pinned⟩ := closable.opened
    intro m base own
    rw [held]
    exact opened.maps.mem_iff.mpr (List.mem_append_right _ (pinned m base own))
  | stuck => exact Stuck.pinned known

theorem inv_start (bus : Bus) (config : Dev → Memory) (regs : Dev → Nat → Nat → BitVec 32) :
    Inv hw (.start bus config regs) := by
  constructor
  · rfl
  · intro d
    refine ⟨rfl, rfl, ⟨fun _ => rfl, rfl⟩, ?_, rfl⟩
    intro m mapped
    cases mapped

/-- An event that works on one device keeps the invariant when it does so for that device. -/
theorem Inv.update (inv : Inv hw s) (apart : Apart pdev s.world u) {binding : Binding}
    (known : Known hw u pdev binding) (files : Dev × Nat → Option File) :
    Inv hw ⟨u, Function.update s.binding pdev binding, files⟩ := by
  constructor
  · exact apart.sysClass.trans inv.sysClass
  · intro d
    change Known hw u d (Function.update s.binding pdev binding d)
    by_cases own : d = pdev
    · subst own
      rw [Function.update_self]
      exact known
    · rw [Function.update_of_ne own]
      exact (inv.devices d).apart apart own

/-! Requests leave the devices as they are. -/

theorem driverPart_eq {s s' : DevState} (same : driverPart s = driverPart s') :
    s = { s' with
      config := s.config, regs := s.regs
      xdev := fun x => { s'.xdev x with flags := (s.xdev x).flags } } := by
  have xdevs : ∀ x, s.xdev x = { s'.xdev x with flags := (s.xdev x).flags } := by
    intro x
    have entry := congrFun (congrArg DevState.xdev same) x
    exact congrArg (fun X : XgpuDev => { X with flags := (s.xdev x).flags }) entry
  calc s = { driverPart s with config := s.config, regs := s.regs, xdev := s.xdev } := rfl
    _ = { driverPart s' with config := s.config, regs := s.regs, xdev := s.xdev } := by rw [same]
    _ = _ := congrArg
      (fun xdev => { s' with config := s.config, regs := s.regs, xdev := xdev }) (funext xdevs)

theorem driverPart_same (same : driverView u = driverView w) (d : Dev) :
    driverPart (u.dev d) = driverPart (w.dev d) :=
  congrFun (congrArg DriverView.dev same) d

theorem Pinned.view {maps : List Mapping} (pinned : Pinned w pdev maps)
    (same : driverView u = driverView w) : Pinned u pdev maps := by
  intro m base own
  have addr : u.pcimapAddr = w.pcimapAddr := congrArg DriverView.pcimapAddr same
  exact pinned m (addr ▸ base) own

theorem listed_view (same : driverView u = driverView w) :
    (u.xdevList.filter fun y => y.pdev = pdev) = w.xdevList.filter fun y => y.pdev = pdev := by
  rw [show u.xdevList = w.xdevList from congrArg DriverView.xdevList same]

theorem Linked.view {x : XdevPtr} {s s' : DevState} (linked : Linked tables x s')
    (same : driverPart s = driverPart s') : Linked tables x s := by
  rw [driverPart_eq same]
  exact linked.keep rfl rfl linked.major (Nat.le_refl _) fun type m there =>
    ⟨(linked.each type m there).live, rfl⟩

theorem NoNodes.view {s s' : DevState} (nodes : NoNodes s') (same : driverPart s = driverPart s') :
    NoNodes s := by
  rw [driverPart_eq same]
  exact ⟨nodes.lists, nodes.cdevs⟩

theorem held_view {s s' : DevState} (same : driverPart s = driverPart s') : s.held = s'.held :=
  show (driverPart s).held = (driverPart s').held from congrArg DevState.held same

theorem Attended.view {s s' : DevState} (attended : Attended s') (same : driverPart s = driverPart s') :
    Attended s := by
  rw [driverPart_eq same]
  exact attended

theorem Usable.view {x : XdevPtr} {s s' : DevState} (usable : Usable hw tables x s')
    (same : driverPart s = driverPart s') : Usable hw tables x s := by
  have bars : ∀ j : Nat, (s.xdev x).bar j = (s'.xdev x).bar j := fun j =>
    show ((driverPart s).xdev x).bar j = ((driverPart s').xdev x).bar j by rw [same]
  constructor
  · rw [driverPart_eq same]
    exact usable.live
  · exact Linked.view usable.linked same
  · intro j m entry
    rw [held_view same]
    exact usable.mapped j m (bars j ▸ entry)
  · intro j m entry
    exact usable.tagged j m (bars j ▸ entry)

theorem Unbound.view (unbound : Unbound w pdev) (same : driverView u = driverView w) :
    Unbound u pdev := by
  have part := driverPart_same same pdev
  have held := held_view part
  constructor
  · rw [held, unbound.actions]
  · rw [held, unbound.msi]
  · exact NoNodes.view unbound.nodes part
  · rw [held]
    exact Pinned.view unbound.pinned same
  · rw [listed_view same, unbound.listed]

theorem Closable.view {mode : Driver.Modes.Mode} {x : XdevPtr} {h : Held}
    (closable : Closable hw tables mode x h w)
    (same : driverView u = driverView w) : Closable hw tables mode x h u := by
  have part := driverPart_same same x.pdev
  obtain ⟨old, opened, pinned⟩ := closable.opened
  constructor
  · rw [driverPart_eq part]
    exact closable.live
  · rw [driverPart_eq part]
    exact closable.owner
  · exact Linked.view closable.linked part
  · rw [listed_view same, closable.listed]
  · rw [show u.gXgpuClass = w.gXgpuClass from congrArg DriverView.gXgpuClass same, closable.sysClass]
  · refine ⟨old, ?_, Pinned.view pinned same⟩
    rw [driverPart_eq part]
    exact Opened.withFlags opened _

theorem Bound.view {x : XdevPtr} (bound : Bound hw tables x w) (same : driverView u = driverView w) :
    Bound hw tables x u := by
  have part := driverPart_same same x.pdev
  obtain ⟨⟨h, closable, held⟩, drvdata⟩ := bound
  refine ⟨⟨h, Closable.view closable same, ?_⟩, ?_⟩
  · rw [held_view part, held]
  · rw [driverPart_eq part]
    exact drvdata

theorem Stuck.view (stuck : Stuck hw tables pdev w) (same : driverView u = driverView w) :
    Stuck hw tables pdev u := by
  have part := driverPart_same same pdev
  constructor
  · rw [held_view part]
    exact stuck.lines
  · rw [held_view part]
    exact Pinned.view stuck.pinned same
  · apply stuck.usable.imp
    · exact fun nodes => NoNodes.view nodes part
    · exact fun ⟨x, own, usable⟩ => ⟨x, own, Usable.view usable part⟩
  · exact fun present => Attended.view (stuck.attended present) part

theorem Known.view {binding : Binding} (known : Known hw w pdev binding)
    (same : driverView u = driverView w) : Known hw u pdev binding := by
  cases binding with
  | unbound => exact Unbound.view known same
  | bound =>
    obtain ⟨x, own, bound⟩ := known
    exact ⟨x, own, Bound.view bound same⟩
  | stuck => exact Stuck.view known same

/-! The steps. -/

/-- What a probe of the module does. -/
theorem probe_spec {env : Env} (inv : Inv hw s) (free : s.binding pdev = .unbound)
    (exception : ¬ LeavesModesOff hw env pdev (s.world.dev pdev).bus.nullRegister
      (s.world.dev pdev).held.regions → E) :
    Act.wp (LawfulOn hw E pdev s.world) (probeOne hw tables walk env pdev) (fun v u =>
      Apart pdev s.world u ∧ Snapshotted pdev u ∧ Known hw u pdev (bindingAfterProbe v)) s.world := by
  have unbound : Unbound s.world pdev := by
    have known := inv.devices pdev
    rwa [free] at known
  apply Act.wp_mono (probeOne_step tables_fit unbound inv.sysClass exception)
  intro v u post
  obtain ⟨apart, snapshotted, ends⟩ := post
  refine ⟨apart, snapshotted, ?_⟩
  cases v with
  | none => exact ends
  | some rv =>
    change if rv = 0 then _ else _ at ends
    change Known hw u pdev (if rv = 0 then .bound else .unbound)
    split at ends
    next done =>
      rw [if_pos done]
      exact ends
    next failed =>
      rw [if_neg failed]
      exact ends

theorem remove_spec (inv : Inv hw s) (held : s.binding pdev = .bound) :
    Act.wp (LawfulOn hw E pdev s.world) (removeOne hw tables walk pdev) (fun v u =>
      Apart pdev s.world u ∧ Known hw u pdev (if v.isSome then .unbound else .stuck)) s.world := by
  have known := inv.devices pdev
  rw [held] at known
  obtain ⟨x, rfl, bound⟩ := known
  apply Act.wp_mono (removeOne_step bound)
  intro v u post
  obtain ⟨apart, ends⟩ := post
  cases v with
  | none => exact ⟨apart, ends⟩
  | some _ => exact ⟨apart, ends⟩

theorem inv_step (inv : Inv hw s) {e : Event} (possible : Admits s e) : Inv hw (step hw walk s e) := by
  cases e with
  | probe pdev env =>
    have spec : Act.wp (LawfulOn hw True pdev s.world) (probeOne hw tables walk env pdev) _ s.world :=
      probe_spec inv possible fun _ => trivial
    obtain ⟨_, apart, _, known⟩ := spec
    exact inv.update apart known s.files
  | remove pdev =>
    have spec : Act.wp (LawfulOn hw True pdev s.world) (removeOne hw tables walk pdev) _ s.world :=
      remove_spec inv possible
    obtain ⟨_, apart, known⟩ := spec
    exact inv.update apart known s.files
  | openFile fd m => exact ⟨inv.sysClass, inv.devices⟩
  | request pdev fd op =>
    obtain ⟨file, opened⟩ := Option.ne_none_iff_exists'.mp possible
    simp only [step, opened]
    obtain ⟨_, same⟩ := request_step hw tables s.world file op
    constructor
    · exact (congrArg DriverView.gXgpuClass same).trans inv.sysClass
    · exact fun d => (inv.devices d).view same

/-- One more event of a run. -/
theorem run_next {cond : Sys → Event → Prop} {start : Sys} {es : List Event}
    (run : (machine hw walk).Run cond start es s) (e : Event) (possible : Admits s e)
    (meets : cond s e) : (machine hw walk).Run cond start (es ++ [e]) (step hw walk s e) :=
  .next e run possible meets

theorem inv_run {cond : Sys → Event → Prop} {bus : Bus} {config : Dev → Memory}
    {regs : Dev → Nat → Nat → BitVec 32} {es : List Event}
    (run : (machine hw walk).Run cond (.start bus config regs) es s) : Inv hw s :=
  run.invariant (Inv hw) (inv_start bus config regs) fun _ _ inv possible _ => inv_step inv possible

end

/-- A board whose BARs 1, 2 and 5 are present, with both kinds of message interrupts. -/
def board : Dev → PciDev := fun _ =>
  plainDev (fun bar => if bar = 1 then 0x8000 else if bar = 2 ∨ bar = 5 then 0x1000 else 0) true true

/-- A configuration space in which only the interrupt pin is set. -/
def pinConfig : Dev → Memory := fun _ at' => if at' = PCI_INTERRUPT_PIN then 1 else 0

def idleStart : Sys := .start .plain pinConfig fun _ _ _ => 0

/-- A probe in which no call fails, with the legacy line. -/
def goodProbe (pdev : Dev) : Event := .probe pdev (.calm 2)

end PcieUtil.System.Hotplug
