import PcieUtil.Driver.Opening

/-! xgpu_device_open and xgpu_device_close on the state of the module: the list of
devices around the part that works on one of them. -/

namespace PcieUtil.Driver.Devices
open Lib.Action State Kernel Discipline Modes DeviceOpen Opening

/-- The world w with the state of one device and the device list replaced. -/
def placed (w : World) (pdev : Dev) (s : DevState) (list : List XdevPtr) (idx : XdevPtr → Int) :
    World :=
  { setDev w pdev s with xdevList := list, idx := idx }

section
variable (w : World) (pdev : Dev) (s t : DevState) (list : List XdevPtr) (idx : XdevPtr → Int)

@[simp] theorem placed_dev : (placed w pdev s list idx).dev pdev = s := setDev_dev_same w pdev s

@[simp] theorem placed_xdevList : (placed w pdev s list idx).xdevList = list := rfl

@[simp] theorem setDev_placed :
    setDev (placed w pdev s list idx) pdev t = placed w pdev t list idx := by
  simp [placed, setDev]

theorem placed_self : placed w pdev (w.dev pdev) w.xdevList w.idx = w := by
  simp [placed]

theorem placed_other {other : Dev} (different : other ≠ pdev) :
    (placed w pdev s list idx).dev other = w.dev other := setDev_dev_other w s different

end

/-- The state of a device with one more allocated structure. -/
def allocated (o : DevState) (x : XdevPtr) : DevState :=
  { o.withXdev x {} with serial := o.serial + 1, xdevLive := x :: o.xdevLive }

/-- The state o but for the hardware, what is held, and the xgpu_dev structures. -/
def Frame (o t : DevState) (h : Held) (live : List XdevPtr) (xdev : XdevPtr → XgpuDev) : Prop :=
  ∃ config regs serial, t =
    { o with held := h, xdevLive := live, xdev := xdev
             config := config, regs := regs, serial := serial }

section
variable {hw : Dev → PciDev} {env : Env} {w : World} {pdev : Dev} {x : XdevPtr} {o s t : DevState}
  {h : Held} {X : XgpuDev} {E : Prop}

theorem frame_of_becomes (now : Becomes x (allocated o x) s h X) :
    Frame o s h (x :: o.xdevLive) (Function.update o.xdev x X) := by
  obtain ⟨config, regs, new, rfl⟩ := now
  refine ⟨config, regs, o.serial + 1 + new, ?_⟩
  simp [allocated, DevState.withXdev, DevState.withHeld]

/-- A call for a device is lawful in the state of the device, and no other device has
changed since w₀. -/
structure LawfulOn (hw : Dev → PciDev) (E : Prop) (pdev : Dev) (w₀ w : World) (c : Call) : Prop where
  lawful : Lawful hw E pdev (w.dev pdev) c
  others : ∀ d, d ≠ pdev → w.dev d = w₀.dev d

theorem LawfulOn.rebase {w₁ w₀ : World} {c : Call} (on : LawfulOn hw E pdev w₁ w c)
    (same : ∀ d, d ≠ pdev → w₁.dev d = w₀.dev d) : LawfulOn hw E pdev w₀ w c :=
  ⟨on.lawful, fun d different => (on.others d different).trans (same d different)⟩

theorem onDev_step {α : Type} {act : DevM α} {Q : Option α → DevState → Prop}
    (list : List XdevPtr) (idx : XdevPtr → Int) (holds : Act.wp (Lawful hw E pdev) act Q s) :
    Act.wp (LawfulOn hw E pdev w) (onDev pdev act)
      (fun v u => ∃ t, Q v t ∧ u = placed w pdev t list idx) (placed w pdev s list idx) := by
  rw [onDev, Act.wp_zoom, placed_dev]
  refine Act.wp_mono (Act.wp_calls holds fun t c lawful => ?_) fun v t post => ?_
  · refine ⟨?_, fun d different => ?_⟩
    · rw [setDev_dev_same]
      exact lawful
    · rw [setDev_placed, placed_other _ _ _ _ _ different]
  · exact ⟨t, post, setDev_placed w pdev s t list idx⟩

theorem onDev_returns {α : Type} {act : DevM α} {P : α → DevState → Prop}
    (list : List XdevPtr) (idx : XdevPtr → Int) (holds : Act.wp (Lawful hw E pdev) act (Act.returns P) s) :
    Act.wp (LawfulOn hw E pdev w) (onDev pdev act)
      (Act.returns fun a u => ∃ t, P a t ∧ u = placed w pdev t list idx)
      (placed w pdev s list idx) := by
  refine Act.wp_mono (onDev_step list idx holds) ?_
  rintro v u ⟨t, post, same⟩
  cases v with
  | none => exact post.elim
  | some a => exact ⟨t, post, same⟩

theorem allocDevInstance_step (attended : Attended s) :
    Act.wp (Lawful hw E pdev) (allocDevInstance env pdev) (Act.returns fun v t =>
      if env.errno .kzalloc = 0 then
        let x : XdevPtr := ⟨pdev, s.serial⟩
        v = some x ∧ Becomes x (allocated s x) t s.held
          { configBarIdx := -1, userBarIdx := -1, bypassBarIdx := -1 }
      else v = none ∧ t = s) s := by
  unfold allocDevInstance
  simp only [kzallocXdev, Act.wp_bind, Act.wp_call]
  refine ⟨⟨trivial, fun _ => attended, .inl trivial⟩, ?_⟩
  by_cases ok : env.errno .kzalloc = 0
  · simp only [if_pos ok, Act.andThen_some, Act.wp_bind]
    have start : Becomes ⟨pdev, s.serial⟩ (allocated s ⟨pdev, s.serial⟩)
        (allocated s ⟨pdev, s.serial⟩) s.held {} := by
      have same : (allocated s ⟨pdev, s.serial⟩).xdev ⟨pdev, s.serial⟩ = {} := by
        simp [allocated, DevState.withXdev]
      have refl := Becomes.refl ⟨pdev, s.serial⟩ (allocated s ⟨pdev, s.serial⟩)
      rw [same] at refl
      exact refl
    refine Act.wp_mono (storeXdev_step start _) ?_
    rintro (_ | _) t now
    · exact now.elim
    · rw [Act.andThen_some, Act.wp_pure, Act.returns_some]
      exact ⟨rfl, now⟩
  · simp only [if_neg ok, Act.andThen_some, Act.wp_pure, Act.returns_some]
    exact ⟨trivial, trivial⟩

theorem kfreeXdev_step (attended : Attended s) :
    Act.wp (Lawful hw E pdev) (kfree (.xdev x)) (Act.returns fun _ t =>
      t = { s with xdevLive := s.xdevLive.erase x }) s := by
  simp only [kfree, Act.wp_call, Act.returns_some]
  exact ⟨⟨trivial, fun _ => attended, .inl trivial⟩, trivial⟩

theorem xdevListAdd_step {R : World → Call → Prop} (list : List XdevPtr) (idx : XdevPtr → Int) :
    Act.wp R (xdevListAdd x) (Act.returns fun rv u =>
      rv = 0 ∧ ∃ idx, u = placed w pdev s (list ++ [x]) idx) (placed w pdev s list idx) := by
  simp only [xdevListAdd, Act.wp_bind, Act.wp_update, Act.andThen_some, Act.wp_pure, Act.returns_some]
  exact ⟨trivial, _, rfl⟩

theorem xdevListRemove_step {R : World → Call → Prop} (list : List XdevPtr) (idx : XdevPtr → Int) :
    Act.wp R (xdevListRemove x) (Act.returns fun _ u => u = placed w pdev s (list.erase x) idx)
      (placed w pdev s list idx) := by
  simp only [xdevListRemove, Act.wp_update, Act.returns_some]
  rfl

/-- The structure of a device that xgpu_device_open has just set up. -/
def freshXdev (mname : String) (userMax : Nat) : XgpuDev :=
  { modName := mname, userMax := userMax, flags := 0 ||| XDEV_FLAG_OFFLINE
    configBarIdx := -1, userBarIdx := -1, bypassBarIdx := -1 }

theorem freshXdev_fresh (mname : String) (userMax : Nat) : Fresh (freshXdev mname userMax) :=
  ⟨fun _ => rfl, rfl, rfl, rfl, rfl⟩

/-- How xgpu_device_open ends. -/
def DeviceOpened (hw : Dev → PciDev) (env : Env) (w : World) (pdev : Dev) (userMax : Nat) :
    Option (Option XdevPtr × Nat) → World → Prop
  | none, u =>
      (hw pdev).resourceLen 1 = 0 ∧ ∃ x k s xdev idx, x.pdev = pdev ∧ k.actions = [] ∧
        (∀ m ∈ (w.dev pdev).held.maps, m ∈ k.maps) ∧
        Frame (w.dev pdev) s k (x :: (w.dev pdev).xdevLive) xdev ∧
        u = placed w pdev s (w.xdevList ++ [x]) idx
  | some (none, n), u =>
      n = userMax ∧ ∃ left s xdev idx, left.Perm (w.dev pdev).held.maps ∧
        Frame (w.dev pdev) s
          { (w.dev pdev).held with
            maps := left
            regions := if env.errno .kzalloc = 0 then
              regionsAfter hw env pdev (w.dev pdev).held.regions else (w.dev pdev).held.regions }
          (w.dev pdev).xdevLive xdev ∧
        u = placed w pdev s w.xdevList idx
  | some (some x, n), u =>
      let mode := selectMode hw env.interruptMode pdev
      x.pdev = pdev ∧ n = userMax ∧ env.errno .kzalloc = 0 ∧
        ReachesInterrupts hw env pdev (w.dev pdev).held.regions ∧ mode.Enables env ∧
        (mode = .msi → env.errno .requestIrqMsi = 0) ∧
        ∃ k s xdev idx, Opened hw x mode (w.dev pdev).bus.nullRegister (w.dev pdev).held.maps k (xdev x) ∧
          (xdev x).userMax = userMax ∧ k.enables = (w.dev pdev).held.enables + 1 ∧
          k.regions = regionsAfter hw env pdev (w.dev pdev).held.regions ∧
          Frame (w.dev pdev) s k (x :: (w.dev pdev).xdevLive) xdev ∧
          u = placed w pdev s (w.xdevList ++ [x]) idx

theorem Frame.refl (s : DevState) : Frame s s s.held s.xdevLive s.xdev :=
  ⟨s.config, s.regs, s.serial, rfl⟩

theorem Frame.held {live : List XdevPtr} {xdev : XdevPtr → XgpuDev} (frame : Frame o s h live xdev) :
    s.held = h := by
  obtain ⟨config, regs, serial, rfl⟩ := frame
  rfl

theorem Frame.xdevLive {live : List XdevPtr} {xdev : XdevPtr → XgpuDev}
    (frame : Frame o s h live xdev) : s.xdevLive = live := by
  obtain ⟨config, regs, serial, rfl⟩ := frame
  rfl

theorem Frame.xdev {live : List XdevPtr} {xdev : XdevPtr → XgpuDev}
    (frame : Frame o s h live xdev) : s.xdev = xdev := by
  obtain ⟨config, regs, serial, rfl⟩ := frame
  rfl

theorem Frame.xpdev {live : List XdevPtr} {xdev : XdevPtr → XgpuDev}
    (frame : Frame o s h live xdev) : s.xpdev = o.xpdev := by
  obtain ⟨config, regs, serial, rfl⟩ := frame
  rfl

theorem Frame.bus {live : List XdevPtr} {xdev : XdevPtr → XgpuDev}
    (frame : Frame o s h live xdev) : s.bus = o.bus := by
  obtain ⟨config, regs, serial, rfl⟩ := frame
  rfl

theorem Frame.cdevs {live : List XdevPtr} {xdev : XdevPtr → XgpuDev}
    (frame : Frame o s h live xdev) : s.cdevs = o.cdevs := by
  obtain ⟨config, regs, serial, rfl⟩ := frame
  rfl

theorem Frame.free {live : List XdevPtr} {xdev : XdevPtr → XgpuDev} (frame : Frame o s h live xdev)
    (x : XdevPtr) :
    Frame o { s with xdevLive := s.xdevLive.erase x } h (live.erase x) xdev := by
  obtain ⟨config, regs, serial, rfl⟩ := frame
  exact ⟨config, regs, serial, rfl⟩

theorem Opened.withFlags {mode : Mode} {nullRegister : Option (BitVec 32)} {old : List Mapping}
    (opened : Opened hw x mode nullRegister old h X) (flags : BitVec 32) :
    Opened hw x mode nullRegister old h { X with flags := flags } :=
  ⟨opened.carried, ⟨opened.marked.msix, opened.marked.msi⟩, opened.state, opened.handlers, opened.line,
    opened.mapped, opened.maps, opened.config, opened.got, opened.inUse⟩

theorem xgpuDeviceOpen_step (mname : String) (userMax : Nat)
    (idle : (w.dev pdev).held.actions = []) (off : (w.dev pdev).held.msi = .off)
    (unlisted : ∀ y ∈ w.xdevList, y.pdev ≠ pdev)
    (exception : env.errno .kzalloc = 0 →
      ReachesInterrupts hw env pdev (w.dev pdev).held.regions → GoesOn hw pdev (w.dev pdev).bus.nullRegister →
      ¬ (selectMode hw env.interruptMode pdev).Enables env → E) :
    Act.wp (LawfulOn hw E pdev w) (xgpuDeviceOpen hw env pdev mname userMax)
      (DeviceOpened hw env w pdev userMax) w := by
  suffices whole : Act.wp (LawfulOn hw E pdev w) (xgpuDeviceOpen hw env pdev mname userMax)
      (DeviceOpened hw env w pdev userMax) (placed w pdev (w.dev pdev) w.xdevList w.idx) by
    rwa [placed_self] at whole
  refine Act.wp_seq (onDev_returns _ _ (allocDevInstance_step (attended_of_idle idle))) ?_
  rintro v _ ⟨s, outcome, rfl⟩
  by_cases ok : env.errno .kzalloc = 0
  · rw [if_pos ok] at outcome
    obtain ⟨rfl, now⟩ := outcome
    generalize pointer : (⟨pdev, (w.dev pdev).serial⟩ : XdevPtr) = x at now
    have own : x.pdev = pdev := by rw [← pointer]
    subst own
    have live : x ∈ (allocated (w.dev x.pdev) x).xdevLive := List.mem_cons_self
    refine Act.wp_seq (onDev_returns _ _ (storeXdev_step now _)) ?_
    rintro _ _ ⟨s, now, rfl⟩
    refine Act.wp_seq (onDev_returns _ _ (storeXdev_step now _)) ?_
    rintro _ _ ⟨s, now, rfl⟩
    have fresh : Fresh (freshXdev mname userMax) := freshXdev_fresh mname userMax
    have opening : Act.wp (Lawful hw E x.pdev) (openPdev hw env x x.pdev)
        (OpenEnds hw env x (allocated (w.dev x.pdev) x) (w.dev x.pdev).held
          (freshXdev mname userMax)) s :=
      openPdev_step live now idle off fresh (exception ok)
    refine Act.wp_seq (xdevListAdd_step _ _) ?_
    rintro _ _ ⟨rfl, idx, rfl⟩
    rw [if_neg (by decide), Act.wp_bind]
    refine Act.wp_mono (onDev_step (w.xdevList ++ [x]) _ opening) ?_
    rintro (_ | _ | _) _ ⟨s, ends, rfl⟩
    · obtain ⟨absent, k, Y, quiet, kept, now⟩ := ends
      exact ⟨absent, x, k, s, _, _, rfl, quiet, kept, frame_of_becomes now, rfl⟩
    · obtain ⟨_, Y, left, perm, now⟩ := ends
      have frame := frame_of_becomes now
      have attended : Attended s := attended_of_idle (by rw [frame.held]; exact idle)
      rw [Act.andThen_some, if_neg (by simp)]
      have unlinked : (w.xdevList ++ [x]).erase x = w.xdevList := by
        rw [List.erase_append_right _ fun member => unlisted x member rfl, List.erase_cons_head,
          List.append_nil]
      refine Act.wp_seq (xdevListRemove_step _ _) ?_
      rintro _ _ rfl
      rw [unlinked]
      refine Act.wp_seq (onDev_returns _ _ (kfreeXdev_step attended)) ?_
      rintro _ _ ⟨_, rfl, rfl⟩
      have freed := frame.free x
      rw [List.erase_cons_head] at freed
      rw [Act.wp_pure]
      refine ⟨rfl, left, _, Function.update (w.dev x.pdev).xdev x Y, idx, perm, ?_, rfl⟩
      rw [if_pos ok]
      exact freed
    · obtain ⟨reached, enables, accepted, k, Y, opened, count, regions, same, now⟩ := ends
      rw [Act.andThen_some, if_pos rfl]
      refine Act.wp_seq (onDev_returns _ _ (loadXdev_step now _)) ?_
      rintro _ _ ⟨s, ⟨now, rfl⟩, rfl⟩
      refine Act.wp_seq (onDev_returns _ _ (storeXdev_step now _)) ?_
      rintro _ _ ⟨s, now, rfl⟩
      rw [Act.wp_pure]
      refine ⟨rfl, same, ok, reached, enables, accepted, k, s, _, _, ?_, ?_, count, regions,
        frame_of_becomes now, rfl⟩
      · rw [Function.update_self]
        exact Opened.withFlags opened _
      · rw [Function.update_self]
        exact same
  · rw [if_neg ok] at outcome
    obtain ⟨rfl, rfl⟩ := outcome
    rw [Act.wp_pure]
    refine ⟨rfl, (w.dev pdev).held.maps, w.dev pdev, (w.dev pdev).xdev, w.idx, .refl _, ?_, rfl⟩
    rw [if_neg ok]
    exact Frame.refl _

theorem frame_of_becomes_live (now : Becomes x o s h X) :
    Frame o s h o.xdevLive (Function.update o.xdev x X) := by
  obtain ⟨config, regs, new, rfl⟩ := now
  exact ⟨config, regs, o.serial + new, rfl⟩

/-- Closing the device that is listed for pdev. -/
theorem xgpuDeviceClose_step {mode : Mode} {old : List Mapping}
    (listed : w.xdevList.find? (fun y => y.pdev = x.pdev) = some x)
    (live : x ∈ (w.dev x.pdev).xdevLive)
    (opened : Opened hw x mode (w.dev x.pdev).bus.nullRegister old (w.dev x.pdev).held ((w.dev x.pdev).xdev x)) :
    Act.wp (LawfulOn hw E x.pdev w) (xgpuDeviceClose hw x.pdev (some x)) (Act.returns fun _ u =>
      ∃ left s xdev, left.Perm old ∧
        Frame (w.dev x.pdev) s
          { (w.dev x.pdev).held with
            enables := (w.dev x.pdev).held.enables - 1, maps := left, msi := .off, actions := [] }
          ((w.dev x.pdev).xdevLive.erase x) xdev ∧
        u = placed w x.pdev s (w.xdevList.erase x) w.idx) w := by
  suffices whole : Act.wp (LawfulOn hw E x.pdev w) (xgpuDeviceClose hw x.pdev (some x)) _
      (placed w x.pdev (w.dev x.pdev) w.xdevList w.idx) by
    rwa [placed_self] at whole
  have checked : Act.wp (LawfulOn hw E x.pdev w) (debugCheckDevHndl x.pdev x)
      (Act.returns fun rv u => rv = 0 ∧ u = placed w x.pdev (w.dev x.pdev) w.xdevList w.idx)
      (placed w x.pdev (w.dev x.pdev) w.xdevList w.idx) := by
    simp only [debugCheckDevHndl, xdevFindByPdev, Act.wp_bind, Act.wp_read, Act.andThen_some,
      placed_xdevList, listed]
    rw [if_neg (by simp), Act.wp_pure]
    exact ⟨rfl, rfl⟩
  refine Act.wp_seq checked ?_
  rintro _ _ ⟨rfl, rfl⟩
  rw [if_neg (by decide)]
  refine Act.wp_seq (onDev_returns _ _ (closePdev_step live (.refl x _) opened)) ?_
  rintro _ _ ⟨s, ⟨Y, left, perm, now⟩, rfl⟩
  have frame := frame_of_becomes_live now
  have attended : Attended s := attended_of_idle (by rw [frame.held])
  refine Act.wp_seq (xdevListRemove_step _ _) ?_
  rintro _ _ rfl
  refine Act.wp_returns_mono (onDev_returns _ _ (kfreeXdev_step attended)) ?_
  rintro _ _ ⟨_, rfl, rfl⟩
  exact ⟨left, _, _, perm, frame.free x, rfl⟩

/-! The devices of the list that belong to one PCI device. -/

theorem unlisted_of_filter {list : List XdevPtr} (empty : (list.filter fun x => x.pdev = pdev) = []) :
    ∀ y ∈ list, y.pdev ≠ pdev := by
  intro y member same
  have filtered : y ∈ list.filter fun x => x.pdev = pdev := by simp [member, same]
  rw [empty] at filtered
  cases filtered

theorem filter_push {list : List XdevPtr} {x : XdevPtr} {other : Dev} (different : other ≠ x.pdev) :
    ((list ++ [x]).filter fun y => y.pdev = other) = list.filter fun y => y.pdev = other := by
  simp [different.symm]

theorem filter_erase {list : List XdevPtr} {x : XdevPtr} {other : Dev} (different : other ≠ x.pdev) :
    ((list.erase x).filter fun y => y.pdev = other) = list.filter fun y => y.pdev = other := by
  rw [← List.erase_filter, List.erase_of_not_mem]
  simp only [List.mem_filter, decide_eq_true_eq, not_and]
  exact fun _ same => different same.symm

/-- An open works on its own device and the list. -/
theorem DeviceOpened.placed {v : Option (Option XdevPtr × Nat)} {u : World} {userMax : Nat}
    (ends : DeviceOpened hw env w pdev userMax v u) :
    ∃ t list idx, u = Devices.placed w pdev t list idx := by
  rcases v with _ | ⟨_ | x, n⟩
  · obtain ⟨_, x, k, t, xdev, idx, _, _, _, _, rfl⟩ := ends
    exact ⟨t, _, idx, rfl⟩
  · obtain ⟨_, left, t, xdev, idx, _, _, rfl⟩ := ends
    exact ⟨t, _, idx, rfl⟩
  · obtain ⟨_, _, _, _, _, _, k, t, xdev, idx, _, _, _, _, _, rfl⟩ := ends
    exact ⟨t, _, idx, rfl⟩

end

end PcieUtil.Driver.Devices
