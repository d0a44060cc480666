import PcieUtil.Driver.Nodes
import PcieUtil.Driver.Probe

/-! What probe_one and remove_one do to a device: a probe that succeeds leaves the
device bound, one that fails leaves it as it was but for the regions, and a fault in
either leaves it stuck with nodes that still work. -/

namespace PcieUtil.Driver.Probing
open Lib.Action State Kernel Discipline Bars Modes DeviceOpen Opening Devices Interfaces Nodes Probe

/-- The mapping of the register files is one of these, if it is one of the device. -/
def Pinned (w : World) (pdev : Dev) (maps : List Mapping) : Prop :=
  ∀ m, w.pcimapAddr = some m → m.pdev = pdev → m ∈ maps

structure NoNodes (s : DevState) : Prop where
  lists : ∀ type, s.xpdev.listHead type = []
  cdevs : s.cdevs = []

/-- The xgpu_dev x and the nodes of its device can be used. -/
structure Usable (hw : Dev → PciDev) (t : Tables) (x : XdevPtr) (s : DevState) : Prop where
  live : x ∈ s.xdevLive
  linked : Linked t x s
  mapped : ∀ (j : Nat) m, (s.xdev x).bar j = some m → m ∈ s.held.maps
  tagged : ∀ (j : Nat) m, (s.xdev x).bar j = some m → m.pdev = x.pdev

/-- A line that handlers of the device may be on. -/
def OwnLine (hw : Dev → PciDev) (pdev : Dev) (irq : Irq) : Prop :=
  irq = .line (hw pdev).irqLine ∨ irq.vectorOf = some pdev

/-- A device without a driver. -/
structure Unbound (w : World) (pdev : Dev) : Prop where
  actions : (w.dev pdev).held.actions = []
  msi : (w.dev pdev).held.msi = .off
  nodes : NoNodes (w.dev pdev)
  pinned : Pinned w pdev (w.dev pdev).held.maps
  listed : (w.xdevList.filter fun y => y.pdev = pdev) = []

/-- What probe_one registers by itself. -/
def probeAction (x : XdevPtr) : IrqAction := ⟨.msi x.pdev, .xgpuMsiInterrupt, .xdev x⟩

/-- A device that is open in a mode, and may have nodes. -/
structure Closable (hw : Dev → PciDev) (t : Tables) (mode : Mode) (x : XdevPtr) (h : Held)
    (w : World) : Prop where
  live : x ∈ (w.dev x.pdev).xdevLive
  owner : (w.dev x.pdev).xpdev.xdev = some x
  linked : Linked t x (w.dev x.pdev)
  listed : (w.xdevList.filter fun y => y.pdev = x.pdev) = [x]
  sysClass : w.gXgpuClass = true
  opened : ∃ old, Opened hw x mode (w.dev x.pdev).bus.nullRegister old h ((w.dev x.pdev).xdev x) ∧
    Pinned w x.pdev old

/-- A device that probe_one has bound, with the interrupt it has set up over those of
xgpu_device_open. -/
structure Bound (hw : Dev → PciDev) (t : Tables) (x : XdevPtr) (w : World) : Prop where
  closable : ∃ h, Closable hw t .legacy x h w ∧ (w.dev x.pdev).held =
    { h with msi := .msi, actions := probeAction x :: h.actions }
  drvdata : (w.dev x.pdev).drvdata = true

/-- A device that a fault has left in the middle of a probe or a remove. -/
structure Stuck (hw : Dev → PciDev) (t : Tables) (pdev : Dev) (w : World) : Prop where
  lines : ∀ a ∈ (w.dev pdev).held.actions, OwnLine hw pdev a.irq
  pinned : Pinned w pdev (w.dev pdev).held.maps
  usable : NoNodes (w.dev pdev) ∨ ∃ x : XdevPtr, x.pdev = pdev ∧ Usable hw t x (w.dev pdev)
  attended : AttendedIfPresent hw pdev (w.dev pdev)

/-- The world w' after work on one device in w. -/
structure Apart (pdev : Dev) (w w' : World) : Prop where
  dev : ∀ d, d ≠ pdev → w'.dev d = w.dev d
  list : ∀ d, d ≠ pdev →
    (w'.xdevList.filter fun y => y.pdev = d) = w.xdevList.filter fun y => y.pdev = d
  register : SameRegister w w' ∨ RegisterOf pdev w'
  sysClass : w'.gXgpuClass = w.gXgpuClass
  bus : (w'.dev pdev).bus = (w.dev pdev).bus

section
variable {hw : Dev → PciDev} {t : Tables} {walk : Walk} {x : XdevPtr} {pdev : Dev} {w w' w'' : World}
  {maps : List Mapping} {h : Held} {mode : Mode} {E : Prop}

theorem Apart.refl (pdev : Dev) (w : World) : Apart pdev w w :=
  ⟨fun _ _ => rfl, fun _ _ => rfl, .inl ⟨rfl, rfl⟩, rfl, rfl⟩

theorem Apart.trans (first : Apart pdev w w') (second : Apart pdev w' w'') : Apart pdev w w'' where
  dev d different := (second.dev d different).trans (first.dev d different)
  list d different := (second.list d different).trans (first.list d different)
  register := by
    obtain same | set := second.register
    · exact first.register.imp (fun before => before.trans same) fun set => set.same same
    · exact .inr set
  sysClass := second.sysClass.trans first.sysClass
  bus := second.bus.trans first.bus

theorem Apart.setDev (w : World) (pdev : Dev) (s : DevState) (bus : s.bus = (w.dev pdev).bus) :
    Apart pdev w (State.setDev w pdev s) :=
  ⟨fun _ different => setDev_dev_other w s different, fun _ _ => rfl, .inl ⟨rfl, rfl⟩, rfl,
    (congrArg DevState.bus (setDev_dev_same w pdev s)).trans bus⟩

theorem Stage.apart {w₀ : World} (stage : Stage t x w₀ maps w) (sysClass : w₀.gXgpuClass = true) :
    Apart x.pdev w₀ w where
  dev := stage.others
  list _ _ := by rw [stage.list]
  register := stage.pinned.imp id fun set => set.1
  sysClass := stage.sysClass.trans sysClass.symm
  bus := stage.bus

theorem Apart.buses (apart : Apart pdev w w') (d : Dev) : (w'.dev d).bus = (w.dev d).bus := by
  by_cases own : d = pdev
  · rw [own, apart.bus]
  · rw [apart.dev d own]

/-! Work on one device leaves what is known of the others. -/

theorem Pinned.apart {d : Dev} (pinned : Pinned w d maps) (apart : Apart pdev w w')
    (different : d ≠ pdev) : Pinned w' d maps := by
  intro m base own
  obtain same | set := apart.register
  · exact pinned m (same.addr ▸ base) own
  · exact absurd (own.symm.trans (set.own m base).1) different

theorem Unbound.apart {d : Dev} (unbound : Unbound w d) (apart : Apart pdev w w')
    (different : d ≠ pdev) : Unbound w' d := by
  have dev := apart.dev d different
  constructor
  · rw [dev, unbound.actions]
  · rw [dev, unbound.msi]
  · rw [dev]
    exact unbound.nodes
  · rw [dev]
    exact unbound.pinned.apart apart different
  · rw [apart.list d different, unbound.listed]

theorem Closable.apart (closable : Closable hw t mode x h w) (apart : Apart pdev w w')
    (different : x.pdev ≠ pdev) : Closable hw t mode x h w' := by
  have dev := apart.dev x.pdev different
  obtain ⟨old, opened, pinned⟩ := closable.opened
  constructor
  · rw [dev]
    exact closable.live
  · rw [dev, closable.owner]
  · rw [dev]
    exact closable.linked
  · rw [apart.list x.pdev different, closable.listed]
  · rw [apart.sysClass, closable.sysClass]
  · rw [dev]
    exact ⟨old, opened, pinned.apart apart different⟩

theorem Bound.apart (bound : Bound hw t x w) (apart : Apart pdev w w') (different : x.pdev ≠ pdev) :
    Bound hw t x w' := by
  have dev := apart.dev x.pdev different
  obtain ⟨⟨h, closable, held⟩, drvdata⟩ := bound
  refine ⟨⟨h, closable.apart apart different, ?_⟩, ?_⟩
  · rw [dev, held]
  · rw [dev, drvdata]

theorem Stuck.apart {d : Dev} (stuck : Stuck hw t d w) (apart : Apart pdev w w')
    (different : d ≠ pdev) : Stuck hw t d w' := by
  have dev := apart.dev d different
  constructor
  · rw [dev]
    exact stuck.lines
  · rw [dev]
    exact stuck.pinned.apart apart different
  · rw [dev]
    exact stuck.usable
  · rw [dev]
    exact stuck.attended

/-! Closing. -/

theorem Stage.refl (owner : (w.dev x.pdev).xpdev.xdev = some x) (linked : Linked t x (w.dev x.pdev))
    (sysClass : w.gXgpuClass = true) : Stage t x w [] w where
  others _ _ := rfl
  list := rfl
  sysClass := sysClass
  held := rfl
  xdev := rfl
  xdevLive := rfl
  config := rfl
  bus := rfl
  owner := owner
  drvdata := rfl
  linked := linked
  pinned := .inl ⟨rfl, rfl⟩
  filled := id

theorem Opened.usable {nullRegister : Option (BitVec 32)} {old : List Mapping} {s : DevState}
    (opened : Opened hw x mode nullRegister old h (s.xdev x)) (live : x ∈ s.xdevLive)
    (linked : Linked t x s) (maps : ∀ m ∈ h.maps, m ∈ s.held.maps) :
    Usable hw t x s := by
  have below : ∀ (j : Nat) m, (s.xdev x).bar j = some m → j < XGPU_BAR_NUM := by
    intro j m entry
    apply Nat.lt_of_not_le
    intro above
    rw [opened.mapped.above j above] at entry
    cases entry
  refine ⟨live, linked, fun j m entry => ?_, fun j m entry => ?_⟩
  · apply maps
    rw [opened.maps.mem_iff, List.mem_append]
    exact .inl (mem_mapsBelow.mpr ⟨j, below j m entry, entry⟩)
  · have bar := opened.mapped.below j (below j m entry)
    rw [MapsBar, entry] at bar
    split at bar
    · cases bar
    · obtain ⟨serial, same⟩ := bar
      cases same
      rfl

theorem NoNodes.of_empty {s : DevState} (linked : Linked t x s)
    (empty : ∀ type, s.xpdev.listHead type = []) : NoNodes s := by
  refine ⟨empty, List.eq_nil_iff_forall_not_mem.mpr fun entry there => ?_⟩
  obtain ⟨type, member⟩ := linked.registered entry there
  rw [empty type] at member
  cases member

/-- How xpdev_free ends. -/
def Freed (hw : Dev → PciDev) (t : Tables) (pdev : Dev) (w : World) (v : Option Unit) (w' : World) :
    Prop :=
  Apart pdev w w' ∧ (Snapshotted pdev w → Snapshotted pdev w') ∧
    match v with
    | none => Stuck hw t pdev w'
    | some _ => Unbound w' pdev

theorem Unbound.snapshotted (unbound : Unbound w pdev) : Snapshotted pdev w :=
  fun some_left => absurd (unbound.nodes.lists 0) some_left

theorem ownLine_actions {n : Nat} : ∀ a ∈ mode.actions hw x n, OwnLine hw x.pdev a.irq := by
  intro a member
  cases mode with
  | msix =>
    obtain ⟨i, _, rfl⟩ := List.mem_map.mp member
    exact .inr rfl
  | msi =>
    rw [List.mem_singleton.mp member]
    exact .inr rfl
  | legacy =>
    rw [List.mem_singleton.mp member]
    exact .inl rfl

/-- Nodes may have been made in between, with more register mappings. -/
theorem Closable.stage {w₀ : World} (closable : Closable hw t mode x h w₀)
    (stage : Stage t x w₀ maps w) : Closable hw t mode x { h with maps := maps ++ h.maps } w := by
  obtain ⟨live, owner, linked, listed, sysClass, old, opened, pinned⟩ := closable
  refine ⟨?_, stage.owner, stage.linked, ?_, stage.sysClass, maps ++ old, ?_, ?_⟩
  · rw [stage.xdevLive]
    exact live
  · rw [stage.list, listed]
  · rw [stage.xdev, stage.bus]
    refine { opened with maps := ?_ }
    have more := opened.maps.append_left maps
    exact more.trans (List.perm_append_comm_assoc _ _ _)
  · intro m same own
    obtain before | new := stage.pinned
    · exact List.mem_append_right _ (pinned m (before.addr ▸ same) own)
    · exact List.mem_append_left _ (new.2 m same)

theorem Closable.lines (closable : Closable hw t mode x h w) : ∀ a ∈ h.actions, OwnLine hw x.pdev a.irq := by
  obtain ⟨old, opened, _⟩ := closable.opened
  rw [opened.handlers]
  exact ownLine_actions

theorem Closable.usable (closable : Closable hw t mode x h w) (maps : (w.dev x.pdev).held.maps = h.maps) :
    Usable hw t x (w.dev x.pdev) := by
  obtain ⟨old, opened, _⟩ := closable.opened
  apply Opened.usable opened closable.live closable.linked
  rw [maps]
  exact fun _ => id

/-- Work that a fault has cut off leaves the device open, with the nodes that are there. -/
theorem Closable.stuck (closable : Closable hw t mode x h w) (maps : (w.dev x.pdev).held.maps = h.maps)
    (lines : ∀ a ∈ (w.dev x.pdev).held.actions, OwnLine hw x.pdev a.irq)
    (attended : AttendedIfPresent hw x.pdev (w.dev x.pdev)) :
    Stuck hw t x.pdev w := by
  obtain ⟨old, opened, pinned⟩ := closable.opened
  refine ⟨lines, ?_, .inr ⟨x, rfl, closable.usable maps⟩, attended⟩
  intro m same own
  rw [maps, opened.maps.mem_iff]
  exact List.mem_append_right _ (pinned m same own)

/-- What xgpu_device_close leaves of a device without nodes. -/
theorem unbound_closed {old left : List Mapping} {s : DevState} {enables : Int} {live : List XdevPtr}
    {xdev : XdevPtr → XgpuDev} (nodes : NoNodes (w.dev x.pdev))
    (listed : (w.xdevList.filter fun y => y.pdev = x.pdev) = [x]) (pinned : Pinned w x.pdev old)
    (perm : left.Perm old)
    (frame : Frame (w.dev x.pdev) s { (w.dev x.pdev).held with
      enables := enables, maps := left, msi := .off, actions := [] } live xdev) :
    Unbound (State.setDev (placed w x.pdev s (w.xdevList.erase x) w.idx) x.pdev
      { s with xpdevLive := false }) x.pdev := by
  refine ⟨?_, ?_, ?_, ?_, ?_⟩
  · rw [setDev_dev_same]
    exact congrArg Held.actions frame.held
  · rw [setDev_dev_same]
    exact congrArg Held.msi frame.held
  · rw [setDev_dev_same]
    refine ⟨fun type => ?_, ?_⟩
    · change s.xpdev.listHead type = []
      rw [frame.xpdev]
      exact nodes.lists type
    · change s.cdevs = []
      rw [frame.cdevs]
      exact nodes.cdevs
  · intro m same own
    rw [setDev_dev_same]
    change m ∈ s.held.maps
    rw [frame.held, perm.mem_iff]
    exact pinned m same own
  · change ((w.xdevList.erase x).filter fun y => y.pdev = x.pdev) = []
    rw [← List.erase_filter, listed, List.erase_cons_head]

theorem Apart.closed (w : World) (s : DevState) (bus : s.bus = (w.dev x.pdev).bus) :
    Apart x.pdev w (placed w x.pdev s (w.xdevList.erase x) w.idx) :=
  ⟨fun _ different => placed_other _ _ _ _ _ different, fun _ different => filter_erase different,
    .inl ⟨rfl, rfl⟩, rfl, by rw [placed_dev, bus]⟩

theorem xpdevFree_step (closable : Closable hw t mode x (w.dev x.pdev).held w) :
    Act.wp (LawfulOn hw E x.pdev w) (xpdevFree hw t walk x.pdev) (Freed hw t x.pdev w) w := by
  obtain ⟨old, opened, pinned⟩ := closable.opened
  have attended := opened.attended closable.live
  have sysClass := closable.sysClass
  unfold xpdevFree
  rw [Act.wp_bind, Act.wp_read, Act.andThen_some, closable.owner, Act.wp_bind]
  refine Act.wp_mono (xpdevDestroyInterfaces_step attended
    (Stage.refl closable.owner closable.linked sysClass)) ?_
  intro v w₁ post
  obtain ⟨stage, register, ends⟩ := post
  have apart : Apart x.pdev w w₁ := Stage.apart stage sysClass
  have held : (w₁.dev x.pdev).held = (w.dev x.pdev).held := stage.held
  cases v with
  | none =>
    refine ⟨apart, stage.filled, (closable.stage stage).stuck ?_ ?_ fun present =>
      stage.attended (attended present)⟩
    · rw [held]
      rfl
    · rw [held]
      exact closable.lines
  | some _ =>
    rw [Act.andThen_some, Act.wp_bind, storeXpdev, wp_onDev_update, Act.andThen_some]
    generalize state : State.setDev w₁ x.pdev { w₁.dev x.pdev with
      xpdev := { (w₁.dev x.pdev).xpdev with xdev := none } } = w₂
    have dev : w₂.dev x.pdev = { w₁.dev x.pdev with
        xpdev := { (w₁.dev x.pdev).xpdev with xdev := none } } := by
      rw [← state, setDev_dev_same]
    have apart₂ : Apart x.pdev w w₂ := by
      rw [← state]
      exact apart.trans (.setDev w₁ x.pdev _ rfl)
    have empty : NoNodes (w₁.dev x.pdev) := .of_empty stage.linked ends
    have nodes : NoNodes (w₂.dev x.pdev) := by
      rw [dev]
      exact ⟨empty.lists, empty.cdevs⟩
    have list : (w₂.xdevList.filter fun y => y.pdev = x.pdev) = [x] := by
      rw [← state]
      exact (congrArg _ stage.list).trans closable.listed
    have pinned₂ : Pinned w₂ x.pdev old := by
      rw [← state]
      exact fun m same own => pinned m (register.addr ▸ same) own
    have found : w₂.xdevList.find? (fun y => y.pdev = x.pdev) = some x := by
      rw [← List.head?_filter, list, List.head?_cons]
    have live₂ : x ∈ (w₂.dev x.pdev).xdevLive := by
      rw [dev]
      exact stage.xdevLive ▸ closable.live
    have opened₂ : Opened hw x mode (w₂.dev x.pdev).bus.nullRegister old (w₂.dev x.pdev).held
        ((w₂.dev x.pdev).xdev x) := by
      rw [dev]
      change Opened hw x mode (w₁.dev x.pdev).bus.nullRegister old (w₁.dev x.pdev).held ((w₁.dev x.pdev).xdev x)
      rw [held, stage.xdev, stage.bus]
      exact opened
    refine Act.wp_seq (Act.wp_calls (xgpuDeviceClose_step found live₂ opened₂)
      fun _ _ lawful => lawful.rebase apart₂.dev) ?_
    intro _ w₃ post
    obtain ⟨left, s, xdev, perm, frame, rfl⟩ := post
    have apart₃ := apart₂.trans (Apart.closed (x := x) w₂ s frame.bus)
    have unbound := unbound_closed nodes list pinned₂ perm frame
    rw [kfree, wp_onDev_call, placed_dev]
    refine ⟨⟨.quiet (fun _ => attended_of_idle ?_) trivial, apart₃.dev⟩, ?_⟩
    · rw [placed_dev, frame.held]
    · exact ⟨apart₃.trans (.setDev _ x.pdev _ (by rw [placed_dev])), fun _ => unbound.snapshotted, unbound⟩

theorem errOut_step (closable : Closable hw t mode x (w.dev x.pdev).held w) (rv : Int) :
    Act.wp (LawfulOn hw E x.pdev w) (errOut hw t walk x.pdev rv)
      (fun v w' => Freed hw t x.pdev w (v.map fun _ => ()) w' ∧ ∀ a ∈ v, a = rv) w := by
  rw [errOut, Act.wp_bind]
  refine Act.wp_mono (xpdevFree_step closable) ?_
  intro v w' freed
  cases v with
  | none => exact ⟨freed, by simp⟩
  | some _ =>
    rw [Act.andThen_some, Act.wp_pure]
    exact ⟨freed, by simp⟩

/-! The interrupt of probe_one. -/

/-- What is held while the interrupt of probe_one is there. -/
def withProbeAction (x : XdevPtr) (h : Held) : Held :=
  { h with msi := .msi, actions := probeAction x :: h.actions }

theorem Closable.probeLines (closable : Closable hw t mode x h w) :
    ∀ a ∈ (withProbeAction x h).actions, OwnLine hw x.pdev a.irq := by
  intro a member
  obtain rfl | earlier := List.mem_cons.mp member
  · exact .inr rfl
  · exact closable.lines a earlier

theorem served_probe {o : DevState} {X : XgpuDev} {nullRegister : Option (BitVec 32)} {old : List Mapping}
    (opened : Opened hw x .legacy nullRegister old h X) (live : x ∈ o.xdevLive) :
    Served hw x o (withProbeAction x h) X := by
  have served : Served hw x o h X := opened.served live
  intro a member
  obtain rfl | earlier := List.mem_cons.mp member
  · exact ⟨rfl, live, by simp [probeAction], rfl⟩
  · obtain ⟨target, live, mapped, _⟩ := served a earlier
    rw [opened.handlers, Mode.actions, List.mem_singleton] at earlier
    subst earlier
    exact ⟨target, live, mapped, trivial⟩

/-- The world after work on the structure x alone. -/
theorem Closable.becomes {s : DevState} {k : Held} (closable : Closable hw t mode x h w)
    (now : Becomes x (w.dev x.pdev) s k ((w.dev x.pdev).xdev x)) :
    Closable hw t mode x h (placed w x.pdev s w.xdevList w.idx) := by
  obtain ⟨live, owner, linked, listed, sysClass, old, opened, pinned⟩ := closable
  obtain ⟨config, regs, new, rfl⟩ := now
  have kept : Linked t x { ((w.dev x.pdev).withHeld k).withXdev x ((w.dev x.pdev).xdev x) with
      config := config, regs := regs, serial := (w.dev x.pdev).serial + new } :=
    linked.keep rfl rfl linked.major (Nat.le_add_right _ _) fun type m there =>
      ⟨(linked.each type m there).live, rfl⟩
  refine ⟨?_, ?_, ?_, listed, sysClass, old, ?_, pinned⟩
  all_goals rw [placed_dev]
  · exact live
  · exact owner
  · exact kept
  · change Opened hw x mode (w.dev x.pdev).bus.nullRegister old h
      (Function.update (w.dev x.pdev).xdev x ((w.dev x.pdev).xdev x) x)
    rw [Function.update_self]
    exact opened

theorem Apart.placed (w : World) (pdev : Dev) (s : DevState) (bus : s.bus = (w.dev pdev).bus) :
    Apart pdev w (Devices.placed w pdev s w.xdevList w.idx) :=
  ⟨fun _ different => placed_other _ _ _ _ _ different, fun _ _ => rfl, .inl ⟨rfl, rfl⟩, rfl,
    by rw [placed_dev, bus]⟩

theorem freeMsi_step (closable : Closable hw t .legacy x h w)
    (held : (w.dev x.pdev).held = withProbeAction x h) :
    Act.wp (LawfulOn hw E x.pdev w) (freeMsi hw x.pdev x) (Act.returns fun _ w' =>
      Apart x.pdev w w' ∧ Closable hw t .legacy x h w' ∧ (w'.dev x.pdev).held = h ∧
        (w'.dev x.pdev).xpdev = (w.dev x.pdev).xpdev) w := by
  obtain ⟨old, opened, _⟩ := closable.opened
  have served := served_probe opened closable.live
  have start : Becomes x (w.dev x.pdev) (w.dev x.pdev) (withProbeAction x h)
      ((w.dev x.pdev).xdev x) := held ▸ .refl x _
  suffices whole : Act.wp (LawfulOn hw E x.pdev w) (freeMsi hw x.pdev x) _
      (placed w x.pdev (w.dev x.pdev) w.xdevList w.idx) by
    rwa [placed_self] at whole
  refine Act.wp_seq (onDev_returns _ _ (pdevIrq_step start)) ?_
  intro irq _ post
  obtain ⟨s, ⟨now, vector⟩, same⟩ := post
  rw [same, vector, if_pos (show (withProbeAction x h).msi = .msi from rfl)]
  refine Act.wp_seq (onDev_returns _ _ (freeIrq_step now served [] h.actions rfl (by simp))) ?_
  intro _ _ post
  obtain ⟨s, now, same⟩ := post
  rw [same]
  have fewer : Served hw x (w.dev x.pdev)
      { withProbeAction x h with actions := [] ++ h.actions } ((w.dev x.pdev).xdev x) :=
    served.mono (fun a member => List.mem_cons_of_mem _ member) (fun _ => id) rfl rfl
  refine Act.wp_returns_mono (onDev_returns _ _ (pciDisableMsi_step now fewer (.inl rfl))) ?_
  intro _ _ post
  obtain ⟨s, now, same⟩ := post
  have off : ({ withProbeAction x h with actions := [] ++ h.actions, msi := .off } : Held) = h := by
    have before : h.msi = .off := opened.state
    rw [← before]
    rfl
  rw [off] at now
  rw [same]
  refine ⟨.placed w x.pdev s now.bus, closable.becomes now, ?_⟩
  rw [placed_dev]
  exact ⟨now.held, now.xpdev⟩

/-- remove_one takes down what probe_one has set up, or is cut off in the middle. -/
theorem removeOne_step (bound : Bound hw t x w) :
    Act.wp (LawfulOn hw E x.pdev w) (removeOne hw t walk x.pdev)
      (fun v w' => Apart x.pdev w w' ∧
        match v with
        | none => Stuck hw t x.pdev w'
        | some _ => Unbound w' x.pdev) w := by
  obtain ⟨⟨h, closable, held⟩, drvdata⟩ := bound
  unfold removeOne
  rw [Act.wp_bind, Act.wp_read, Act.andThen_some, if_pos drvdata, Act.wp_bind, Act.wp_read,
    Act.andThen_some, closable.owner]
  refine Act.wp_seq (freeMsi_step closable held) ?_
  intro _ w₁ post
  obtain ⟨apart, closable, held, _⟩ := post
  have freeing : Act.wp (LawfulOn hw E x.pdev w₁) (xpdevFree hw t walk x.pdev) (Freed hw t x.pdev w₁) w₁ :=
    xpdevFree_step (by rw [held]; exact closable)
  refine Act.wp_mono (Act.wp_calls freeing fun _ _ lawful => lawful.rebase apart.dev) ?_
  intro v w₂ post
  obtain ⟨second, _, ends⟩ := post
  exact ⟨apart.trans second, ends⟩

/-! The probe. -/

/-- How probe_one ends. -/
def Probed (hw : Dev → PciDev) (t : Tables) (pdev : Dev) (w : World) (v : Option Int) (w' : World) :
    Prop :=
  Apart pdev w w' ∧ Snapshotted pdev w' ∧
    match v with
    | none => Stuck hw t pdev w'
    | some rv => if rv = 0 then ∃ x : XdevPtr, x.pdev = pdev ∧ Bound hw t x w' else Unbound w' pdev

theorem Unbound.setDev {s : DevState} (unbound : Unbound w pdev) (held : s.held = (w.dev pdev).held)
    (nodes : NoNodes s) : Unbound (State.setDev w pdev s) pdev where
  actions := by rw [setDev_dev_same, held, unbound.actions]
  msi := by rw [setDev_dev_same, held, unbound.msi]
  nodes := by rw [setDev_dev_same]; exact nodes
  pinned := by rw [setDev_dev_same, held]; exact unbound.pinned
  listed := unbound.listed

theorem Unbound.probed {s : DevState} (unbound : Unbound w pdev) (held : s.held = (w.dev pdev).held)
    (nodes : NoNodes s) (bus : s.bus = (w.dev pdev).bus) {rv : Int} (failed : rv ≠ 0) :
    Probed hw t pdev w (some rv) (State.setDev w pdev s) := by
  have after := unbound.setDev held nodes
  refine ⟨.setDev w pdev s bus, after.snapshotted, ?_⟩
  change if rv = 0 then _ else _
  rw [if_neg failed]
  exact after

theorem errOut_idle_step (E : Prop) (hw : Dev → PciDev) (t : Tables) (walk : Walk)
    (unbound : Unbound w pdev) (owner : (w.dev pdev).xpdev.xdev = none)
    (major : (w.dev pdev).xpdev.major = 0) {rv : Int} (failed : rv ≠ 0) :
    Act.wp (LawfulOn hw E pdev w) (errOut hw t walk pdev rv) (Probed hw t pdev w) w := by
  unfold errOut xpdevFree xpdevDestroyInterfaces fileDestroyInterfaces
  simp only [Act.wp_bind, Act.wp_read, Act.andThen_some, unbound.nodes.lists, destroyMembers,
    Act.wp_pure, major, ne_eq, not_true_eq_false, if_false, owner, storeXpdev, wp_onDev_update,
    xgpuDeviceClose, kfree, wp_onDev_call, setDev_setDev, setDev_dev_same]
  constructor
  · refine ⟨.quiet (fun _ => attended_of_idle ?_) trivial, fun _ => setDev_dev_other w _⟩
    rw [setDev_dev_same]
    exact unbound.actions
  · apply unbound.probed ?_ ?_ ?_ failed
    · rfl
    · exact ⟨unbound.nodes.lists, unbound.nodes.cdevs⟩
    · rfl

theorem probed_of_freed {v : Option Int} {rv : Int} (apart : Apart pdev w w')
    (snapshotted : Snapshotted pdev w') (failed : rv ≠ 0)
    (freed : Freed hw t pdev w' (v.map fun _ => ()) w'') (value : ∀ a ∈ v, a = rv) :
    Probed hw t pdev w v w'' := by
  obtain ⟨second, kept, ends⟩ := freed
  refine ⟨apart.trans second, kept snapshotted, ?_⟩
  cases v with
  | none => exact ends
  | some a =>
    have same : a = rv := value a rfl
    change if a = 0 then _ else _
    rw [same, if_neg failed]
    exact ends

theorem probeEnableMsi_step {env : Env} {o s : DevState} {X : XgpuDev} {nullRegister : Option (BitVec 32)}
    {old : List Mapping} (now : Becomes x o s h X) (live : x ∈ o.xdevLive)
    (opened : Opened hw x mode nullRegister old h X)
    (exception : mode ≠ .legacy → E) :
    Act.wp (Lawful hw E x.pdev) (pciEnableMsi hw env .probeEnableMsi x.pdev) (Act.returns fun rv t =>
      rv = 0 ∧ mode = .legacy ∧ Becomes x o t { h with msi := .msi } X ∨
        rv ≠ 0 ∧ Becomes x o t h X) s := by
  have served : Served hw x o h X := opened.served live
  by_cases legacy : mode = .legacy
  · have off : h.msi = .off := by
      rw [opened.state, legacy]
      rfl
    refine Act.wp_returns_mono (pciEnableMsi_step now served off _) ?_
    intro rv t outcome
    split at outcome
    · exact .inl ⟨outcome.1, legacy, outcome.2⟩
    · exact .inr ⟨by omega, outcome.2⟩
  · have on : h.msi ≠ .off := by
      rw [opened.state]
      cases mode with
      | msix | msi => exact fun same => by cases same
      | legacy => exact absurd rfl legacy
    refine Act.wp_returns_mono (pciEnableMsi_refused now served on _ (exception legacy)) ?_
    intro rv t post
    obtain ⟨refused, now⟩ := post
    exact .inr ⟨by rw [refused]; decide, now⟩

theorem Closable.bound (closable : Closable hw t mode x h w) : Closable hw t mode x h
    (State.setDev w x.pdev { w.dev x.pdev with drvdata := true }) := by
  obtain ⟨live, owner, linked, listed, sysClass, old, opened, pinned⟩ := closable
  refine ⟨?_, ?_, ?_, listed, sysClass, old, ?_, pinned⟩
  all_goals rw [setDev_dev_same]
  · exact live
  · exact owner
  · exact linked.keep rfl rfl linked.major (Nat.le_refl _) fun type m there =>
      ⟨(linked.each type m there).live, rfl⟩
  · exact opened

/-- A failure without nodes goes back through err_out, with what was open still held. -/
theorem giveUp_step {rv : Int} (apart : Apart x.pdev w w') (closable : Closable hw t mode x h w')
    (held : (w'.dev x.pdev).held = h) (nodes : ∀ type, (w'.dev x.pdev).xpdev.listHead type = [])
    (failed : rv ≠ 0) :
    Act.wp (LawfulOn hw E x.pdev w) (errOut hw t walk x.pdev rv) (Probed hw t x.pdev w) w' := by
  have freeing : Act.wp (LawfulOn hw E x.pdev w') (errOut hw t walk x.pdev rv) _ w' :=
    errOut_step (by rw [held]; exact closable) rv
  refine Act.wp_mono (Act.wp_calls freeing fun _ _ lawful => lawful.rebase apart.dev) ?_
  intro v w'' post
  obtain ⟨freed, value⟩ := post
  exact probed_of_freed apart (fun some_left => absurd (nodes 0) some_left) failed freed value

/-- The nodes of a device with the interrupt of probe_one in place, and what follows. -/
theorem probeNodes_step (E : Prop) (walk : Walk) (env : Env) (fit : Tables.Fit t)
    (closable : Closable hw t .legacy x h w) (held : (w.dev x.pdev).held = withProbeAction x h)
    (nodes : ∀ type, (w.dev x.pdev).xpdev.listHead type = []) :
    Act.wp (LawfulOn hw E x.pdev w)
      (do
        let rv ← xpdevCreateInterfaces hw t walk env x.pdev
        if rv ≠ 0 then
          freeMsi hw x.pdev x
          errOut hw t walk x.pdev rv
        else
          onDev x.pdev (Act.update fun s => { s with drvdata := true })
          return 0)
      (Probed hw t x.pdev w) w := by
  obtain ⟨old, opened, pinned⟩ := closable.opened
  have served := served_probe opened closable.live
  have attended : AttendedIfPresent hw x.pdev (w.dev x.pdev) := served.attended (held ▸ .refl x _)
  have position := opened.config
  rw [Act.wp_bind]
  refine Act.wp_mono (xpdevCreateInterfaces_step fit attended position
    (Stage.refl closable.owner closable.linked closable.sysClass)) ?_
  intro v w₁ post
  obtain ⟨maps, stage, ends⟩ := post
  have apart := Stage.apart stage closable.sysClass
  have snapshotted : Snapshotted x.pdev w₁ :=
    stage.filled fun some_left => absurd (nodes 0) some_left
  have closable₁ := closable.stage stage
  have held₁ : (w₁.dev x.pdev).held = withProbeAction x { h with maps := maps ++ h.maps } := by
    rw [stage.held, held]
    rfl
  cases v with
  | none =>
    refine ⟨apart, snapshotted, closable₁.stuck ?_ ?_ fun present => stage.attended (attended present)⟩
    · rw [held₁]
      rfl
    · rw [held₁]
      exact closable.probeLines
  | some rv =>
    obtain rfl | ⟨rfl, empty⟩ := ends
    · rw [Act.andThen_some, if_neg (by decide), Act.wp_bind, wp_onDev_update, Act.andThen_some,
        Act.wp_pure]
      refine ⟨apart.trans (.setDev w₁ x.pdev _ rfl), ?_, ?_⟩
      · unfold Snapshotted Filled
        rw [setDev_dev_same]
        exact snapshotted
      · change if (0 : Int) = 0 then _ else _
        rw [if_pos rfl]
        refine ⟨x, rfl, ⟨_, closable₁.bound, ?_⟩, ?_⟩
        · rw [setDev_dev_same]
          exact held₁
        · rw [setDev_dev_same]
    · rw [Act.andThen_some, if_pos (by decide)]
      refine Act.wp_seq (Act.wp_calls (freeMsi_step closable₁ held₁) fun _ _ lawful =>
        lawful.rebase apart.dev) ?_
      intro _ w₂ post
      obtain ⟨second, closable₂, held₂, same⟩ := post
      refine giveUp_step (apart.trans second) closable₂ held₂ ?_ (by decide)
      rw [same]
      exact empty

/-- From pci_enable_msi on, with the device open. It goes on past that call only when the
device was opened in legacy mode. -/
theorem probeXdev_step {env : Env} (fit : Tables.Fit t)
    (closable : Closable hw t mode x (w.dev x.pdev).held w)
    (nodes : ∀ type, (w.dev x.pdev).xpdev.listHead type = []) (exception : mode ≠ .legacy → E) :
    Act.wp (LawfulOn hw E x.pdev w) (probeXdev hw t walk env x.pdev x) (Probed hw t x.pdev w) w := by
  obtain ⟨old, opened, _⟩ := closable.opened
  have live := closable.live
  have start : Becomes x (w.dev x.pdev) (w.dev x.pdev) _ _ := .refl x _
  have giveUp : ∀ {s : DevState} {rv : Int}, rv ≠ 0 →
      Becomes x (w.dev x.pdev) s (w.dev x.pdev).held ((w.dev x.pdev).xdev x) →
      Act.wp (LawfulOn hw E x.pdev w) (errOut hw t walk x.pdev rv) (Probed hw t x.pdev w)
        (placed w x.pdev s w.xdevList w.idx) := by
    intro s rv failed now
    refine giveUp_step (.placed w x.pdev s now.bus) (closable.becomes now) ?_ ?_ failed
    all_goals rw [placed_dev]
    · exact now.held
    · rw [now.xpdev]
      exact nodes
  suffices whole : Act.wp (LawfulOn hw E x.pdev w) (probeXdev hw t walk env x.pdev x)
      (Probed hw t x.pdev w) (placed w x.pdev (w.dev x.pdev) w.xdevList w.idx) by
    rwa [placed_self] at whole
  refine Act.wp_seq (onDev_returns _ _ (probeEnableMsi_step start live opened exception)) ?_
  intro rv _ post
  obtain ⟨s, outcome, same⟩ := post
  rw [same]
  obtain ⟨rfl, rfl, now⟩ | ⟨failed, now⟩ := outcome
  · rw [if_neg (by decide)]
    have served : Served hw x (w.dev x.pdev) { (w.dev x.pdev).held with msi := .msi }
        ((w.dev x.pdev).xdev x) := by
      refine (served_probe opened live).mono ?_ (fun _ => id) rfl rfl
      exact fun a member => List.mem_cons_of_mem _ member
    refine Act.wp_seq (onDev_returns _ _ (pdevIrq_step now)) ?_
    intro irq _ post
    obtain ⟨s, ⟨now, vector⟩, same⟩ := post
    rw [same, vector, if_pos rfl]
    have unused : ∀ a ∈ (w.dev x.pdev).held.actions, a.irq ≠ .msi x.pdev := by
      intro a member
      rw [opened.handlers, Mode.actions, List.mem_singleton] at member
      rw [member]
      exact fun same => by cases same
    refine Act.wp_seq (onDev_returns _ _ (requestIrq_step now served _ _ fun _ => ⟨rfl, unused⟩)) ?_
    intro rv _ post
    obtain ⟨s, outcome, same⟩ := post
    rw [same]
    split at outcome
    · obtain ⟨rfl, now⟩ := outcome
      rw [if_neg (by decide)]
      have apart := Apart.placed w x.pdev s now.bus
      have rest := probeNodes_step E walk env fit (closable.becomes now)
        (by rw [placed_dev]; exact now.held) (by rw [placed_dev, now.xpdev]; exact nodes)
      refine Act.wp_mono (Act.wp_calls rest fun _ _ lawful => lawful.rebase apart.dev) ?_
      intro v w' post
      obtain ⟨second, ends⟩ := post
      exact ⟨apart.trans second, ends⟩
    · obtain ⟨failed, now⟩ := outcome
      rw [if_pos (by omega)]
      refine Act.wp_seq (onDev_returns _ _ (pciDisableMsi_step now served (.inl rfl))) ?_
      intro _ _ post
      obtain ⟨s, now, same⟩ := post
      have off : ({ (w.dev x.pdev).held with msi := .off } : Held) = (w.dev x.pdev).held := by
        have before : (w.dev x.pdev).held.msi = .off := opened.state
        rw [← before]
      rw [same]
      exact giveUp (by omega) (off ▸ now)
  · rw [if_pos failed]
    exact giveUp failed now

/-- The open of a probe leaves no message mode on: it ends before it enables one, or it goes for the
legacy line, or it gives MSI back because its line is refused. -/
def LeavesModesOff (hw : Dev → PciDev) (env : Env) (pdev : Dev) (nullRegister : Option (BitVec 32))
    (regions : List Nat) : Prop :=
  let mode := selectMode hw env.interruptMode pdev
  env.errno .kmallocXpdev ≠ 0 ∨ env.errno .kzalloc ≠ 0 ∨
    ¬ ReachesInterrupts hw env pdev regions ∨ ¬ GoesOn hw pdev nullRegister ∨ mode = .legacy ∨
    mode = .msi ∧ mode.Enables env ∧ env.errno .requestIrqMsi ≠ 0

theorem xpdevAlloc_step {env : Env} (unbound : Unbound w pdev) :
    Act.wp (LawfulOn hw E pdev w) (onDev pdev (xpdevAlloc env)) (Act.returns fun made w' =>
      if env.errno .kmallocXpdev = 0 then
        made = true ∧ w' = State.setDev w pdev { w.dev pdev with xpdevLive := true, xpdev := {} }
      else made = false ∧ w' = w) w := by
  unfold xpdevAlloc kmallocXpdev
  rw [onDev, Act.wp_zoom, Act.wp_bind, Act.wp_call]
  refine ⟨⟨?_, fun _ => setDev_dev_other w _⟩, ?_⟩
  · rw [setDev_dev_same]
    exact .quiet (fun _ => attended_of_idle unbound.actions) trivial
  · by_cases ok : env.errno .kmallocXpdev = 0
    · rw [if_pos ok, Act.andThen_some, if_pos rfl]
      simp only [storeXpdev, Act.wp_bind, Act.wp_update, Act.andThen_some, Act.wp_pure,
        Act.returns_some, if_pos ok]
      exact ⟨trivial, trivial⟩
    · rw [if_neg ok, Act.andThen_some, if_neg Bool.false_ne_true, Act.wp_pure, Act.returns_some,
        if_neg ok, setDev_self]
      exact ⟨rfl, rfl⟩

theorem Linked.empty {s : DevState} (nodes : NoNodes s) (major : s.xpdev.major = 0) :
    Linked t x s where
  each type m there := by
    rw [nodes.lists type] at there
    cases there
  nodup type := by
    rw [nodes.lists type]
    exact List.nodup_nil
  three type _ := nodes.lists type
  registered entry there := by
    rw [nodes.cdevs] at there
    cases there
  major := by
    rw [major]
    decide

/-- probe_one once the device is open. -/
theorem probeOpened_step {n : Nat} (E : Prop) (walk : Walk) (env : Env) (fit : Tables.Fit t)
    (next : w' = State.setDev w x.pdev { w.dev x.pdev with
      xpdev := { (w.dev x.pdev).xpdev with userMax := n, xdev := some x } })
    (closable : Closable hw t mode x (w'.dev x.pdev).held w')
    (nodes : ∀ type, (w'.dev x.pdev).xpdev.listHead type = []) (exception : mode ≠ .legacy → E) :
    Act.wp (LawfulOn hw E x.pdev w)
      (do
        onDev x.pdev (storeXpdev fun p => { p with userMax := n })
        match ← xdevFindByPdev x.pdev with
        | none => errOut hw t walk x.pdev (-EINVAL)
        | some xdev =>
            if x ≠ xdev then errOut hw t walk x.pdev (-EINVAL)
            else
              onDev x.pdev (storeXpdev fun p => { p with xdev := some x })
              probeXdev hw t walk env x.pdev x)
      (Probed hw t x.pdev w) w := by
  have found : w.xdevList.find? (fun y => y.pdev = x.pdev) = some x := by
    have same : w'.xdevList = w.xdevList := by rw [next]; rfl
    rw [← List.head?_filter, ← same, closable.listed, List.head?_cons]
  have apart : Apart x.pdev w w' := next ▸ .setDev w x.pdev _ rfl
  rw [Act.wp_bind, storeXpdev, wp_onDev_update, Act.andThen_some, Act.wp_bind, xdevFindByPdev,
    Act.wp_read, Act.andThen_some]
  change Act.wp _ (match w.xdevList.find? fun y => y.pdev = x.pdev with
    | none => _
    | some _ => _) _ _
  rw [found]
  change Act.wp _ (if x ≠ x then _ else _) _ _
  rw [if_neg (not_not.mpr rfl), Act.wp_bind, storeXpdev, wp_onDev_update, Act.andThen_some,
    setDev_setDev, setDev_dev_same]
  have rest : Act.wp (LawfulOn hw E x.pdev w') (probeXdev hw t walk env x.pdev x) _ w' :=
    probeXdev_step fit closable nodes exception
  rw [next] at rest
  refine Act.wp_mono (Act.wp_calls rest fun _ _ lawful => lawful.rebase (next ▸ apart.dev)) ?_
  intro v w'' post
  obtain ⟨second, ends⟩ := post
  rw [← next] at second
  exact ⟨apart.trans second, ends⟩

theorem modesOn {env : Env} {nullRegister : Option (BitVec 32)} {regions : List Nat}
    (made : env.errno .kmallocXpdev = 0) (kzalloc : env.errno .kzalloc = 0)
    (reaches : ReachesInterrupts hw env pdev regions) (goesOn : GoesOn hw pdev nullRegister)
    (stays : let mode := selectMode hw env.interruptMode pdev
      ¬ mode.Enables env ∨ mode ≠ .legacy ∧ (mode = .msi → env.errno .requestIrqMsi = 0)) :
    ¬ LeavesModesOff hw env pdev nullRegister regions := by
  intro off
  unfold LeavesModesOff at off
  dsimp only at stays off
  obtain fails | fails | fails | stops | legacy | ⟨msi, enables, refused⟩ := off
  · exact fails made
  · exact fails kzalloc
  · exact fails reaches
  · exact stops goesOn
  · rw [legacy] at stays
    obtain disabled | ⟨different, _⟩ := stays
    · exact disabled rfl
    · exact different rfl
  · obtain disabled | ⟨_, accepted⟩ := stays
    · exact disabled enables
    · exact refused (accepted msi)

/-- An open that succeeds leaves the device ready for the rest of the probe. -/
theorem closable_opened {env : Env} {n : Nat} {w₁ w₂ : World} (unbound : Unbound w₁ x.pdev)
    (owner : (w₁.dev x.pdev).xpdev = {}) (sysClass : w₁.gXgpuClass = true)
    (ends : DeviceOpened hw env w₁ x.pdev 0 (some (some x, n)) w₂)
    (next : w' = State.setDev w₂ x.pdev { w₂.dev x.pdev with
      xpdev := { (w₂.dev x.pdev).xpdev with userMax := n, xdev := some x } }) :
    Closable hw t (selectMode hw env.interruptMode x.pdev) x (w'.dev x.pdev).held w' ∧
      ∀ type, (w'.dev x.pdev).xpdev.listHead type = [] := by
  obtain ⟨_, _, _, _, _, _, k, s, xdev, idx, opened, _, _, _, frame, rfl⟩ := ends
  rw [placed_dev] at next
  have dev : w'.dev x.pdev = { s with xpdev := { s.xpdev with userMax := n, xdev := some x } } := by
    rw [next, setDev_dev_same]
  have xpdev : s.xpdev = {} := frame.xpdev.trans owner
  have nodes : NoNodes (w'.dev x.pdev) := by
    rw [dev]
    refine ⟨fun type => ?_, ?_⟩
    · change s.xpdev.listHead type = []
      rw [xpdev]
    · exact frame.cdevs.trans unbound.nodes.cdevs
  refine ⟨⟨?_, ?_, Linked.empty nodes ?_, ?_, ?_, (w₁.dev x.pdev).held.maps, ?_, ?_⟩, nodes.lists⟩
  · rw [dev]
    change x ∈ s.xdevLive
    rw [frame.xdevLive]
    exact List.mem_cons_self
  · rw [dev]
  · rw [dev]
    change s.xpdev.major = 0
    rw [xpdev]
  · rw [next]
    change (w₁.xdevList ++ [x]).filter _ = [x]
    rw [List.filter_append, unbound.listed]
    simp
  · rw [next]
    exact sysClass
  · rw [dev]
    change Opened hw x _ s.bus.nullRegister _ s.held (s.xdev x)
    rw [frame.bus, frame.held, frame.xdev]
    exact opened
  · intro m same own
    rw [next] at same
    exact unbound.pinned m same own

/-- An open that fails leaves the device without a driver. -/
theorem unbound_opened {env : Env} {n : Nat} (unbound : Unbound w pdev)
    (ends : DeviceOpened hw env w pdev 0 (some (none, n)) w') :
    Apart pdev w w' ∧ Unbound w' pdev ∧ (w'.dev pdev).xpdev = (w.dev pdev).xpdev := by
  obtain ⟨_, left, s, xdev, idx, perm, frame, rfl⟩ := ends
  refine ⟨⟨fun _ different => placed_other _ _ _ _ _ different, fun _ _ => rfl, .inl ⟨rfl, rfl⟩, rfl,
      by rw [placed_dev, frame.bus]⟩,
    ⟨?_, ?_, ⟨fun type => ?_, ?_⟩, ?_, unbound.listed⟩, ?_⟩
  · rw [placed_dev, frame.held, unbound.actions]
  · rw [placed_dev, frame.held, unbound.msi]
  · rw [placed_dev, frame.xpdev, unbound.nodes.lists]
  · rw [placed_dev, frame.cdevs, unbound.nodes.cdevs]
  · intro m same own
    rw [placed_dev, frame.held]
    exact perm.mem_iff.mpr (unbound.pinned m same own)
  · rw [placed_dev, frame.xpdev]

theorem Apart.opened (own : x.pdev = pdev) (w : World) (s : DevState) (idx : XdevPtr → Int)
    (bus : s.bus = (w.dev pdev).bus) : Apart pdev w (Devices.placed w pdev s (w.xdevList ++ [x]) idx) :=
  ⟨fun _ different => placed_other _ _ _ _ _ different, fun _ different => filter_push (own ▸ different),
    .inl ⟨rfl, rfl⟩, rfl, by rw [placed_dev, bus]⟩

/-- An open that faults leaves a device without BAR 1 stuck. -/
theorem stuck_opened {env : Env} (unbound : Unbound w pdev)
    (ends : DeviceOpened hw env w pdev 0 none w') :
    Apart pdev w w' ∧ Snapshotted pdev w' ∧ Stuck hw t pdev w' := by
  obtain ⟨absent, x, k, s, xdev, idx, own, quiet, kept, frame, rfl⟩ := ends
  have nodes : NoNodes s := by
    refine ⟨fun type => ?_, frame.cdevs.trans unbound.nodes.cdevs⟩
    rw [frame.xpdev]
    exact unbound.nodes.lists type
  refine ⟨.opened own w s idx frame.bus, ?_, ?_, ?_, ?_, fun present => absurd absent present⟩
  · intro some_left
    rw [placed_dev] at some_left
    exact absurd (nodes.lists 0) some_left
  · rw [placed_dev, frame.held, quiet]
    exact List.forall_mem_nil _
  · intro m same own
    rw [placed_dev, frame.held]
    exact kept m (unbound.pinned m same own)
  · rw [placed_dev]
    exact .inl nodes

/-- probe_one on a device without a driver. -/
theorem probeOne_step {env : Env} (fit : Tables.Fit t) (unbound : Unbound w pdev)
    (sysClass : w.gXgpuClass = true)
    (exception : ¬ LeavesModesOff hw env pdev (w.dev pdev).bus.nullRegister (w.dev pdev).held.regions → E) :
    Act.wp (LawfulOn hw E pdev w) (probeOne hw t walk env pdev) (Probed hw t pdev w) w := by
  unfold probeOne
  refine Act.wp_seq (xpdevAlloc_step unbound) ?_
  intro made w₁ outcome
  split at outcome
  case isTrue made =>
    obtain ⟨rfl, start⟩ := outcome
    have dev : w₁.dev pdev = { w.dev pdev with xpdevLive := true, xpdev := {} } := by
      rw [start, setDev_dev_same]
    have unbound₁ : Unbound w₁ pdev :=
      start ▸ unbound.setDev rfl ⟨fun _ => rfl, unbound.nodes.cdevs⟩
    have apart : Apart pdev w w₁ := start ▸ .setDev w pdev _ rfl
    have owner : (w₁.dev pdev).xpdev = {} := by rw [dev]
    have regions : (w₁.dev pdev).held.regions = (w.dev pdev).held.regions := by rw [dev]
    have bus : (w₁.dev pdev).bus = (w.dev pdev).bus := by rw [dev]
    rw [if_pos rfl, Act.wp_bind, Act.wp_read, Act.andThen_some, owner, Act.wp_bind]
    have opening : Act.wp (LawfulOn hw E pdev w₁) (xgpuDeviceOpen hw env pdev "xgpu" 0)
        (DeviceOpened hw env w₁ pdev 0) w₁ := by
      refine xgpuDeviceOpen_step "xgpu" 0 unbound₁.actions unbound₁.msi
        (unlisted_of_filter unbound₁.listed) fun kzalloc reaches goesOn fails => exception ?_
      exact modesOn made kzalloc (regions ▸ reaches) (bus ▸ goesOn) (.inl fails)
    refine Act.wp_mono (Act.wp_calls opening fun _ _ lawful => lawful.rebase apart.dev) ?_
    intro v w₂ ends
    obtain _ | ⟨_ | x, n⟩ := v
    · obtain ⟨apart₂, snapshotted, stuck⟩ := stuck_opened unbound₁ ends
      exact ⟨apart.trans apart₂, snapshotted, stuck⟩
    · obtain ⟨apart₂, unbound₂, xpdev⟩ := unbound_opened unbound₁ ends
      rw [Act.andThen_some, Act.wp_bind, storeXpdev, wp_onDev_update, Act.andThen_some]
      have whole := (apart.trans apart₂).trans (.setDev w₂ pdev { w₂.dev pdev with
        xpdev := { (w₂.dev pdev).xpdev with userMax := n } } rfl)
      have unbound₃ := unbound₂.setDev (s := { w₂.dev pdev with
        xpdev := { (w₂.dev pdev).xpdev with userMax := n } }) rfl
        ⟨unbound₂.nodes.lists, unbound₂.nodes.cdevs⟩
      have rest := errOut_idle_step E hw t walk unbound₃
        (by rw [setDev_dev_same, xpdev, owner]) (by rw [setDev_dev_same, xpdev, owner])
        (show (-EINVAL : Int) ≠ 0 by decide)
      refine Act.wp_mono (Act.wp_calls rest fun _ _ lawful => lawful.rebase whole.dev) ?_
      intro v w₃ post
      obtain ⟨last, ends⟩ := post
      exact ⟨whole.trans last, ends⟩
    · obtain own := ends.1
      subst own
      rw [Act.andThen_some]
      obtain ⟨closable, nodes⟩ := closable_opened unbound₁ owner (start ▸ sysClass) ends rfl
      have apart₂ : Apart x.pdev w₁ w₂ := by
        obtain ⟨_, _, _, _, _, _, k, s, xdev, idx, _, _, _, _, frame, rfl⟩ := ends
        exact .opened rfl w₁ s idx frame.bus
      have whole := apart.trans apart₂
      have rest := probeOpened_step E walk env fit rfl closable nodes ?_
      · refine Act.wp_mono (Act.wp_calls rest fun _ _ lawful => lawful.rebase whole.dev) ?_
        intro v w₃ post
        obtain ⟨last, ends⟩ := post
        exact ⟨whole.trans last, ends⟩
      · intro different
        obtain ⟨_, _, kzalloc, reaches, _, accepted, k, s, xdev, idx, opened, _⟩ := ends
        exact exception (modesOn made kzalloc (regions ▸ reaches) (bus ▸ opened.goesOn)
          (.inr ⟨different, accepted⟩))
  case isFalse failed =>
    obtain ⟨rfl, rfl⟩ := outcome
    rw [if_neg (by decide), Act.wp_pure]
    refine ⟨.refl _ _, unbound.snapshotted, ?_⟩
    change if (-ENOMEM : Int) = 0 then _ else _
    rw [if_neg (by decide)]
    exact unbound

end

end PcieUtil.Driver.Probing
