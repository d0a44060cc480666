import PcieUtil.Driver.Devices
import PcieUtil.Lib.Events

/-! Histories of xgpu_device_open and xgpu_device_close over any number of
devices, each with at most one live handle. -/

namespace PcieUtil.System.OpenClose
open Lib.Action Lib.Events Lib.Bytes
open Driver.State Driver.Bars Driver.Modes Driver.DeviceOpen Driver.Opening Driver.Devices

/-- A handle that xgpu_device_open returned: the mode and user_max it was opened
with, and the regions held before. -/
structure Handle where
  xdev : XdevPtr
  mode : Mode
  userMax : Nat
  regions : List Nat

/-- A device whose open or close was cut off by a fault stays stuck in it. -/
inductive Use where
  | closed
  | live (handle : Handle)
  | stuck

structure Sys where
  world : World
  use : Dev → Use

inductive Event where
  | deviceOpen (pdev : Dev) (mname : String) (userMax : Nat) (env : Env)
  | deviceClose (pdev : Dev)

def Sys.start (bus : Bus) (config : Dev → Memory) (regs : Dev → Nat → Nat → BitVec 32) : Sys where
  world := .start bus config regs
  use _ := .closed

section
variable (hw : Dev → PciDev)

def useAfterOpen (s : Sys) (pdev : Dev) (userMax : Nat) (env : Env) :
    Option (Option XdevPtr × Nat) → Use
  | none => .stuck
  | some (none, _) => .closed
  | some (some x, _) => .live
      ⟨x, selectMode hw env.interruptMode pdev, userMax, (s.world.dev pdev).held.regions⟩

def step (s : Sys) : Event → Sys
  | .deviceOpen pdev mname userMax env =>
      let out := (xgpuDeviceOpen hw env pdev mname userMax).run s.world
      ⟨out.state, Function.update s.use pdev (useAfterOpen hw s pdev userMax env out.value)⟩
  | .deviceClose pdev =>
      match s.use pdev with
      | .live handle =>
          let out := (xgpuDeviceClose hw pdev (some handle.xdev)).run s.world
          ⟨out.state, Function.update s.use pdev (if out.value.isSome then .closed else .stuck)⟩
      | _ => s

/-- The kernel calls of a step. -/
def calls (s : Sys) : Event → List (World × Call)
  | .deviceOpen pdev mname userMax env => ((xgpuDeviceOpen hw env pdev mname userMax).run s.world).trace
  | .deviceClose pdev =>
      match s.use pdev with
      | .live handle => ((xgpuDeviceClose hw pdev (some handle.xdev)).run s.world).trace
      | _ => []

def Admits (s : Sys) : Event → Prop
  | .deviceOpen pdev _ _ _ => s.use pdev = .closed
  | .deviceClose pdev => ∃ handle, s.use pdev = .live handle

def machine : Machine Sys Event := ⟨Admits, step hw⟩

/-- The resources of exactly one successful open, besides the regions. -/
structure HoldsOpen (w : World) (pdev : Dev) (handle : Handle) : Prop where
  enables : (w.dev pdev).held.enables = 1
  bars : ((w.dev pdev).held.maps.map fun m => (m.bar, m.len)).Perm
    ((presentBars hw pdev XGPU_BAR_NUM).map fun j => (j, mapLen hw pdev j))
  msi : (w.dev pdev).held.msi = handle.mode.state handle.userMax
  actions : (w.dev pdev).held.actions = handle.mode.actions hw handle.xdev handle.userMax
  listed : (w.xdevList.filter fun x => x.pdev = pdev) = [handle.xdev]

structure HoldsNothing (w : World) (pdev : Dev) : Prop where
  enables : (w.dev pdev).held.enables = 0
  bars : (w.dev pdev).held.maps = []
  msi : (w.dev pdev).held.msi = .off
  actions : (w.dev pdev).held.actions = []
  listed : (w.xdevList.filter fun x => x.pdev = pdev) = []

/-- A device holds the resources of its live handle, or none. -/
def Balanced (w : World) (pdev : Dev) : Use → Prop
  | .closed => HoldsNothing w pdev
  | .live handle => HoldsOpen hw w pdev handle
  | .stuck => False

/-- A BAR that is unmapped and an interrupt that is freed are held at that moment. -/
def ReleasesHeldIn (w : World) : Call → Prop
  | .pciIounmap _ m => ∃ pdev, m ∈ (w.dev pdev).held.maps
  | .freeIrq irq devId => ∃ pdev, ∃ a ∈ (w.dev pdev).held.actions, a.irq = irq ∧ a.devId = devId
  | _ => True

/-- The invariant of one device. -/
structure LiveInv (w : World) (pdev : Dev) (handle : Handle) : Prop where
  own : handle.xdev.pdev = pdev
  allocated : handle.xdev ∈ (w.dev pdev).xdevLive
  opened : Opened hw handle.xdev handle.mode (w.dev pdev).bus.nullRegister [] (w.dev pdev).held
    ((w.dev pdev).xdev handle.xdev)
  userMax : ((w.dev pdev).xdev handle.xdev).userMax = handle.userMax
  enables : (w.dev pdev).held.enables = 1
  listed : (w.xdevList.filter fun x => x.pdev = pdev) = [handle.xdev]

def Known (w : World) (pdev : Dev) : Use → Prop
  | .closed => HoldsNothing w pdev
  | .live handle => LiveInv hw w pdev handle
  | .stuck => (hw pdev).resourceLen 1 = 0

end

section
variable {hw : Dev → PciDev} {s : Sys} {w : World} {pdev : Dev} {handle : Handle}

theorem LiveInv.holdsOpen (inv : LiveInv hw w pdev handle) : HoldsOpen hw w pdev handle := by
  obtain ⟨own, allocated, opened, userMax, enables, listed⟩ := inv
  subst own
  have view := mapsBelow_view opened.mapped.below
  refine ⟨enables, ?_, ?_, ?_, listed⟩
  · have perm := opened.maps.map fun m => (m.bar, m.len)
    rw [List.append_nil, view] at perm
    exact perm.trans (List.reverse_perm _)
  · rw [opened.state, userMax]
  · rw [opened.handlers, userMax]

/-- A step on one device leaves the others alone. -/
theorem known_other {other : Dev} {d : DevState} {list : List XdevPtr} {idx : XdevPtr → Int}
    {use : Use} (different : other ≠ pdev) (known : Known hw w other use)
    (same : (list.filter fun x => x.pdev = other) = w.xdevList.filter fun x => x.pdev = other) :
    Known hw (placed w pdev d list idx) other use := by
  have dev := placed_other w pdev d list idx different
  cases use with
  | closed =>
    obtain ⟨enables, bars, msi, actions, listed⟩ := known
    exact ⟨dev ▸ enables, dev ▸ bars, dev ▸ msi, dev ▸ actions, same.trans listed⟩
  | live handle =>
    obtain ⟨own, allocated, opened, userMax, enables, listed⟩ := known
    exact ⟨own, dev ▸ allocated, dev ▸ opened, dev ▸ userMax, dev ▸ enables, same.trans listed⟩
  | stuck => exact known

/-- An open that has ended leaves every device in a known state. -/
theorem known_opened {use : Dev → Use} (known : ∀ d, Known hw s.world d (use d))
    (closed : use pdev = .closed) {env : Env} {userMax : Nat} {v : Option (Option XdevPtr × Nat)}
    {u : World} (ends : DeviceOpened hw env s.world pdev userMax v u) (d : Dev) :
    Known hw u d (Function.update use pdev (useAfterOpen hw s pdev userMax env v) d) := by
  have start := known pdev
  rw [closed] at start
  obtain ⟨enables, bars, msi, actions, listed⟩ := start
  by_cases same : d = pdev
  · subst same
    rw [Function.update_self]
    rcases v with _ | ⟨_ | x, n⟩
    · exact ends.1
    · obtain ⟨_, left, t, xdev, idx, perm, frame, rfl⟩ := ends
      rw [bars, List.perm_nil] at perm
      refine ⟨?_, ?_, ?_, ?_, listed⟩
      · rw [placed_dev, frame.held, enables]
      · rw [placed_dev, frame.held, perm]
      · rw [placed_dev, frame.held, msi]
      · rw [placed_dev, frame.held, actions]
    · obtain ⟨own, _, _, _, _, _, k, t, xdev, idx, opened, same, count, _, frame, rfl⟩ := ends
      rw [bars] at opened
      rw [enables] at count
      refine ⟨own, ?_, ?_, ?_, ?_, ?_⟩
      · rw [placed_dev, frame.xdevLive]
        exact List.mem_cons_self
      · rw [placed_dev, frame.bus, frame.held, frame.xdev]
        exact opened
      · rw [placed_dev, frame.xdev]
        exact same
      · rw [placed_dev, frame.held, count]
        rfl
      · rw [placed_xdevList, List.filter_append, listed]
        simp [own]
  · rw [Function.update_of_ne same]
    rcases v with _ | ⟨_ | x, n⟩
    · obtain ⟨_, x, k, t, xdev, idx, own, _, _, _, rfl⟩ := ends
      exact known_other same (known d) (filter_push (own ▸ same))
    · obtain ⟨_, left, t, xdev, idx, _, _, rfl⟩ := ends
      exact known_other same (known d) rfl
    · obtain ⟨own, _, _, _, _, _, k, t, xdev, idx, _, _, _, _, _, rfl⟩ := ends
      exact known_other same (known d) (filter_push (own ▸ same))

theorem releasesHeldIn_of_lawful {E : Prop} {w₀ : World} {c : Call} (lawful : LawfulOn hw E pdev w₀ w c) :
    ReleasesHeldIn w c := by
  have releases := lawful.lawful.releases
  cases c with
  | pciIounmap _ m => exact ⟨pdev, releases⟩
  | freeIrq irq devId => exact ⟨pdev, releases⟩
  | _ => trivial

theorem open_spec (known : Known hw w pdev .closed) (mname : String) (userMax : Nat) (env : Env) :
    Act.wp (LawfulOn hw True pdev w) (xgpuDeviceOpen hw env pdev mname userMax)
      (DeviceOpened hw env w pdev userMax) w :=
  xgpuDeviceOpen_step mname userMax known.actions known.msi (unlisted_of_filter known.listed)
    fun _ _ _ _ => trivial

theorem close_spec (known : Known hw w pdev (.live handle)) :
    Act.wp (LawfulOn hw True pdev w) (xgpuDeviceClose hw pdev (some handle.xdev)) (Act.returns fun _ u =>
      ∃ t xdev, Frame (w.dev pdev) t { regions := (w.dev pdev).held.regions }
          ((w.dev pdev).xdevLive.erase handle.xdev) xdev ∧
        u = placed w pdev t (w.xdevList.erase handle.xdev) w.idx) w := by
  obtain ⟨own, allocated, opened, userMax, enables, listed⟩ := known
  subst own
  have found : w.xdevList.find? (fun y => y.pdev = handle.xdev.pdev) = some handle.xdev := by
    rw [← List.head?_filter, listed, List.head?_cons]
  refine Act.wp_returns_mono (xgpuDeviceClose_step found allocated opened) ?_
  rintro _ u ⟨left, t, xdev, perm, frame, state⟩
  rw [List.perm_nil] at perm
  rw [perm, enables] at frame
  exact ⟨t, xdev, frame, state⟩

/-- A close that has ended leaves every device in a known state. -/
theorem known_closed {use : Dev → Use} (known : ∀ d, Known hw w d (use d))
    (held : use pdev = .live handle) {t : DevState} {live : List XdevPtr} {xdev : XdevPtr → XgpuDev}
    {regions : List Nat} (frame : Frame (w.dev pdev) t { regions := regions } live xdev) (d : Dev) :
    Known hw (placed w pdev t (w.xdevList.erase handle.xdev) w.idx) d
      (Function.update use pdev .closed d) := by
  have start := known pdev
  rw [held] at start
  by_cases same : d = pdev
  · subst same
    rw [Function.update_self]
    refine ⟨?_, ?_, ?_, ?_, ?_⟩
    · rw [placed_dev, frame.held]
    · rw [placed_dev, frame.held]
    · rw [placed_dev, frame.held]
    · rw [placed_dev, frame.held]
    · rw [placed_xdevList, ← List.erase_filter, start.listed, List.erase_cons_head]
  · rw [Function.update_of_ne same]
    exact known_other same (known d) (filter_erase (start.own ▸ same))

/-- One step keeps every device known, and releases only what is held. -/
theorem step_known (known : ∀ d, Known hw s.world d (s.use d)) {e : Event} (possible : Admits s e) :
    (∀ d, Known hw (step hw s e).world d ((step hw s e).use d)) ∧
      ∀ c ∈ calls hw s e, ReleasesHeldIn c.1 c.2 := by
  cases e with
  | deviceOpen pdev mname userMax env =>
    have start := known pdev
    rw [possible] at start
    obtain ⟨lawful, ends⟩ := open_spec start mname userMax env
    exact ⟨known_opened known possible ends,
      fun c member => releasesHeldIn_of_lawful (lawful c member)⟩
  | deviceClose pdev =>
    obtain ⟨handle, held⟩ := possible
    have start := known pdev
    rw [held] at start
    have spec := close_spec start
    obtain ⟨a, value, t, xdev, frame, state⟩ := Act.wp_final spec
    constructor
    · simp only [step, held, value, Option.isSome_some, if_true, state]
      exact known_closed known held frame
    · simp only [calls, held]
      exact fun c member => releasesHeldIn_of_lawful (spec.1 c member)

theorem start_known (bus : Bus) (config : Dev → Memory) (regs : Dev → Nat → Nat → BitVec 32) (d : Dev) :
    Known hw (Sys.start bus config regs).world d ((Sys.start bus config regs).use d) :=
  ⟨rfl, rfl, rfl, rfl, rfl⟩

theorem run_known {cond : Sys → Event → Prop} {bus : Bus} {config : Dev → Memory}
    {regs : Dev → Nat → Nat → BitVec 32} {es : List Event}
    (run : (machine hw).Run cond (Sys.start bus config regs) es s) (d : Dev) :
    Known hw s.world d (s.use d) :=
  run.invariant (fun s => ∀ d, Known hw s.world d (s.use d)) (start_known bus config regs)
    (fun _ _ known possible _ => (step_known known possible).1) d

/-- After every call of any history, each device holds the resources of one
successful open if it has a live handle and none otherwise, and no call unmaps a
BAR or frees an interrupt that is not held. -/
theorem open_close_balanced (present : ∀ d, (hw d).resourceLen 1 ≠ 0) {bus : Bus} {config : Dev → Memory}
    {regs : Dev → Nat → Nat → BitVec 32} {es : List Event}
    (run : (machine hw).Run (fun _ _ => True) (Sys.start bus config regs) es s) :
    (∀ d, Balanced hw s.world d (s.use d)) ∧
      ∀ e, (machine hw).admits s e → ∀ c ∈ calls hw s e, ReleasesHeldIn c.1 c.2 := by
  constructor
  · intro d
    have known := run_known run d
    cases use : s.use d with
    | closed =>
      rw [use] at known
      exact known
    | live handle =>
      rw [use] at known
      exact known.holdsOpen
    | stuck =>
      rw [use] at known
      exact present d known
  · intro e possible
    exact (step_known (run_known run) possible).2

end

/-- A board with BARs 1, 2 and 5 and both message capabilities. -/
def board : Dev → PciDev := fun _ =>
  plainDev (fun bar => if bar = 1 then 0x8000 else if bar = 2 ∨ bar = 5 then 0x1000 else 0) true true

def idleStart : Sys := .start .plain (fun _ _ => 0) fun _ _ _ => 0

def firstOpen : Event := .deviceOpen 0 "xgpu" 2 (.calm 0)

theorem open_close_balanced_open :
    (∀ d, Balanced board (step board idleStart firstOpen).world d
      ((step board idleStart firstOpen).use d)) ∧
    ∀ e, (machine board).admits (step board idleStart firstOpen) e →
      ∀ c ∈ calls board (step board idleStart firstOpen) e, ReleasesHeldIn c.1 c.2 :=
  open_close_balanced (fun _ => (by decide : (board 0).resourceLen 1 ≠ 0))
    (.next firstOpen .start rfl trivial)

end PcieUtil.System.OpenClose
