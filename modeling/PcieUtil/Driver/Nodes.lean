import PcieUtil.Driver.Devices
import PcieUtil.Driver.Interfaces
import PcieUtil.Driver.Snapshot

/-! What holds of the device nodes of a device while they are made and taken down:
the members on its lists are allocated, registered with the device's xgpu_dev, and
nothing else is registered. -/

namespace PcieUtil.Driver.Nodes
open Lib.Action State Kernel Discipline RegisterFile Interfaces Devices

/-- The operations of the members of each list. -/
def opsOf : Nat → Option FileOps
  | 0 => some .config
  | 1 => some .register
  | 2 => some .ctrl
  | _ => none

/-- A finished xgpu_cdev. -/
structure Finished (t : Tables) (x : XdevPtr) (type : Nat) (c : XgpuCdev) : Prop where
  xdev : c.xdev = some x
  ops : c.ops = opsOf type
  bar : ∃ i : Nat, c.bar = i
  made : c.sysDevice ≠ .null
  number : ¬ isRegisterNumber t c.cdevno

/-- An allocation for a node of the device of x. -/
structure Allocated (x : XdevPtr) (s : DevState) (m : MemberPtr) : Prop where
  own : m.pdev = x.pdev
  old : m.serial < s.serial
  live : m ∈ s.memberLive

structure MemberOf (t : Tables) (x : XdevPtr) (s : DevState) (type : Nat) (m : MemberPtr) : Prop
    extends Allocated x s m where
  finished : Finished t x type (s.member m)

/-- The lists of a device. -/
structure Linked (t : Tables) (x : XdevPtr) (s : DevState) : Prop where
  each : ∀ type m, m ∈ s.xpdev.listHead type → MemberOf t x s type m
  nodup : ∀ type, (s.xpdev.listHead type).Nodup
  three : ∀ type, 3 ≤ type → s.xpdev.listHead type = []
  registered : ∀ entry ∈ s.cdevs, ∃ type, entry.2 ∈ s.xpdev.listHead type
  major : s.xpdev.major < CHRDEV_MAJOR_MAX

/-- What the work on the nodes leaves alone. -/
structure SameRest (s s' : DevState) : Prop where
  held : s'.held = s.held
  xdev : s'.xdev = s.xdev
  xdevLive : s'.xdevLive = s.xdevLive
  config : s'.config = s.config
  bus : s'.bus = s.bus
  owner : s'.xpdev.xdev = s.xpdev.xdev
  drvdata : s'.drvdata = s.drvdata

/-- The mapping behind the register files is as before. -/
structure SameRegister (w w' : World) : Prop where
  addr : w'.pcimapAddr = w.pcimapAddr
  note : w'.registerInit = w.registerInit

/-- The device has set the mapping behind the register files last. -/
structure RegisterOf (pdev : Dev) (w : World) : Prop where
  note : w.registerInit = some (pdev, w.pcimapAddr.isSome)
  own : ∀ m, w.pcimapAddr = some m → m.pdev = pdev ∧ m.bar = REGISTER_BAR

theorem SameRegister.trans {w w' w'' : World} (first : SameRegister w w')
    (second : SameRegister w' w'') : SameRegister w w'' :=
  ⟨second.addr.trans first.addr, second.note.trans first.note⟩

theorem RegisterOf.same {pdev : Dev} {w w' : World} (set : RegisterOf pdev w)
    (same : SameRegister w w') : RegisterOf pdev w' := by
  constructor
  · rw [same.note, same.addr, set.note]
  · rw [same.addr]
    exact set.own

/-- The snapshot holds the first bytes of the device. -/
def Filled (pdev : Dev) (w : World) : Prop :=
  ∀ k < PCI_CONFIG_SIZE, w.configData k = (w.dev pdev).config k

/-- A device with config files has its snapshot filled. -/
def Snapshotted (pdev : Dev) (w : World) : Prop :=
  (w.dev pdev).xpdev.listHead 0 ≠ [] → Filled pdev w

/-- The world w on the way from w₀, with more register mappings of the device. -/
structure Stage (t : Tables) (x : XdevPtr) (w₀ : World) (maps : List Mapping) (w : World) : Prop where
  others : ∀ d, d ≠ x.pdev → w.dev d = w₀.dev d
  list : w.xdevList = w₀.xdevList
  sysClass : w.gXgpuClass = true
  held : (w.dev x.pdev).held =
    { (w₀.dev x.pdev).held with maps := maps ++ (w₀.dev x.pdev).held.maps }
  xdev : (w.dev x.pdev).xdev = (w₀.dev x.pdev).xdev
  xdevLive : (w.dev x.pdev).xdevLive = (w₀.dev x.pdev).xdevLive
  config : (w.dev x.pdev).config = (w₀.dev x.pdev).config
  bus : (w.dev x.pdev).bus = (w₀.dev x.pdev).bus
  owner : (w.dev x.pdev).xpdev.xdev = some x
  drvdata : (w.dev x.pdev).drvdata = (w₀.dev x.pdev).drvdata
  linked : Linked t x (w.dev x.pdev)
  pinned : SameRegister w₀ w ∨ RegisterOf x.pdev w ∧ ∀ m, w.pcimapAddr = some m → m ∈ maps
  filled : Snapshotted x.pdev w₀ → Snapshotted x.pdev w

section
variable {t : Tables} {x : XdevPtr} {w₀ w : World} {maps : List Mapping} {s s' : DevState}
  {E : Prop} {m : MemberPtr}

theorem opsOf_inj {a b : Nat} (small : a < 3) (same : opsOf a = opsOf b) : a = b := by
  match a, b with
  | 0, 0 | 1, 1 | 2, 2 => rfl
  | 0, 1 | 0, 2 | 1, 0 | 1, 2 | 2, 0 | 2, 1 => cases same
  | 0, n + 3 | 1, n + 3 | 2, n + 3 => cases same
  | n + 3, _ => omega

/-- A member is on one list only. -/
theorem Linked.apart (linked : Linked t x s) {a b : Nat} (one : m ∈ s.xpdev.listHead a)
    (two : m ∈ s.xpdev.listHead b) : a = b := by
  by_cases small : a < 3
  · have first := (linked.each a m one).finished.ops
    have second := (linked.each b m two).finished.ops
    exact opsOf_inj small (first.symm.trans second)
  · rw [linked.three a (by omega)] at one
    cases one

/-- A change that concerns no member on a list. -/
theorem Linked.keep (linked : Linked t x s) (lists : s'.xpdev.listHead = s.xpdev.listHead)
    (cdevs : s'.cdevs = s.cdevs) (major : s'.xpdev.major < CHRDEV_MAJOR_MAX)
    (serial : s.serial ≤ s'.serial)
    (members : ∀ type m, m ∈ s.xpdev.listHead type → m ∈ s'.memberLive ∧ s'.member m = s.member m) :
    Linked t x s' := by
  constructor
  · intro type m there
    rw [lists] at there
    have member := linked.each type m there
    obtain ⟨live, same⟩ := members type m there
    refine ⟨⟨member.own, Nat.lt_of_lt_of_le member.old serial, live⟩, ?_⟩
    rw [same]
    exact member.finished
  · rw [lists]
    exact linked.nodup
  · rw [lists]
    exact linked.three
  · rw [lists, cdevs]
    exact linked.registered
  · exact major

theorem Stage.pinned_same (stage : Stage t x w₀ maps w) {w' : World} (same : SameRegister w w') :
    SameRegister w₀ w' ∨ RegisterOf x.pdev w' ∧ ∀ m, w'.pcimapAddr = some m → m ∈ maps := by
  rw [same.addr]
  exact stage.pinned.imp (fun before => before.trans same) fun set => ⟨set.1.same same, set.2⟩

theorem Stage.setDev (stage : Stage t x w₀ maps w) (same : SameRest (w.dev x.pdev) s)
    (linked : Linked t x s)
    (filled : Snapshotted x.pdev w₀ → s.xpdev.listHead 0 ≠ [] → Filled x.pdev w) :
    Stage t x w₀ maps (setDev w x.pdev s) where
  others d different := (setDev_dev_other w s different).trans (stage.others d different)
  list := stage.list
  sysClass := stage.sysClass
  held := by rw [setDev_dev_same, same.held, stage.held]
  xdev := by rw [setDev_dev_same, same.xdev, stage.xdev]
  xdevLive := by rw [setDev_dev_same, same.xdevLive, stage.xdevLive]
  config := by rw [setDev_dev_same, same.config, stage.config]
  bus := by rw [setDev_dev_same, same.bus, stage.bus]
  owner := by rw [setDev_dev_same, same.owner, stage.owner]
  drvdata := by rw [setDev_dev_same, same.drvdata, stage.drvdata]
  linked := by rw [setDev_dev_same]; exact linked
  pinned := stage.pinned_same ⟨rfl, rfl⟩
  filled := by
    unfold Snapshotted Filled
    rw [setDev_dev_same, same.config]
    exact filled

theorem Stage.attended (stage : Stage t x w₀ maps w) (attended : Attended (w₀.dev x.pdev)) :
    Attended (w.dev x.pdev) := by
  intro a member
  rw [stage.held] at member
  obtain ⟨live, mapped, vector⟩ := attended a member
  rw [stage.held, stage.xdev, stage.xdevLive]
  refine ⟨live, fun isr => ?_, vector⟩
  obtain ⟨m, there, base⟩ := mapped isr
  exact ⟨m, List.mem_append_right _ there, base⟩

theorem Stage.lawful (stage : Stage t x w₀ maps w) (attended : AttendedIfPresent hw x.pdev (w₀.dev x.pdev))
    {c : Call} (quiet : Quiet c) : LawfulOn hw E x.pdev w₀ w c :=
  ⟨.quiet (fun present => stage.attended (attended present)) quiet, stage.others⟩

/-- The same in the middle of a change that leaves the rest alone. -/
theorem Stage.lawful_rest (stage : Stage t x w₀ maps w) (attended : AttendedIfPresent hw x.pdev (w₀.dev x.pdev))
    (same : SameRest (w.dev x.pdev) s) {c : Call} (quiet : Quiet c) :
    LawfulOn hw E x.pdev w₀ (State.setDev w x.pdev s) c := by
  refine ⟨?_, fun d different => (setDev_dev_other w s different).trans (stage.others d different)⟩
  rw [setDev_dev_same]
  refine .quiet (fun present => ?_) quiet
  have kept := stage.attended (attended present)
  unfold Attended at *
  rw [same.held, same.xdev, same.xdevLive]
  exact kept

theorem wp_onDev_call {R : World → Call → Prop} {α : Type} {pdev : Dev} {c : Call}
    {answer : DevState → α × DevState} {Q : Option α → World → Prop} :
    Act.wp R (onDev pdev (Act.call c answer)) Q w ↔
      R w c ∧ Q (some (answer (w.dev pdev)).1) (State.setDev w pdev (answer (w.dev pdev)).2) := by
  rw [onDev, Act.wp_zoom, Act.wp_call, setDev_self]

theorem wp_onDev_update {R : World → Call → Prop} {pdev : Dev} {change : DevState → DevState}
    {Q : Option Unit → World → Prop} :
    Act.wp R (onDev pdev (Act.update change)) Q w ↔
      Q (some ()) (State.setDev w pdev (change (w.dev pdev))) := by
  rw [onDev, Act.wp_zoom, Act.wp_update]

/-! Taking nodes down. -/

/-- The device state without a member: not on its list, not registered, and freed. -/
def dropped (s : DevState) (type : Nat) (m : MemberPtr) : DevState :=
  { s with
    sysDevices := s.sysDevices.erase (s.member m).cdevno
    cdevs := s.cdevs.filter fun entry => entry.2 ≠ m
    xpdev := { s.xpdev with
      listHead := Function.update s.xpdev.listHead type ((s.xpdev.listHead type).erase m) }
    memberLive := s.memberLive.erase m }

theorem Linked.dropped (linked : Linked t x s) {type : Nat} (member : m ∈ s.xpdev.listHead type) :
    Linked t x (dropped s type m) := by
  have inside : ∀ type' m', m' ∈ (Nodes.dropped s type m).xpdev.listHead type' →
      m' ∈ s.xpdev.listHead type' ∧ m' ≠ m := by
    intro type' m' there
    change m' ∈ Function.update s.xpdev.listHead type ((s.xpdev.listHead type).erase m) type' at there
    by_cases same : type' = type
    · subst same
      rw [Function.update_self] at there
      refine ⟨List.mem_of_mem_erase there, fun equal => ?_⟩
      exact (linked.nodup type').not_mem_erase (equal ▸ there)
    · rw [Function.update_of_ne same] at there
      exact ⟨there, fun equal => same (linked.apart (equal ▸ there) member)⟩
  constructor
  · intro type' m' there
    obtain ⟨before, different⟩ := inside type' m' there
    have kept := linked.each type' m' before
    exact ⟨⟨kept.own, kept.old, (List.mem_erase_of_ne different).mpr kept.live⟩, kept.finished⟩
  · intro type'
    change (Function.update s.xpdev.listHead type _ type').Nodup
    by_cases same : type' = type
    · subst same
      rw [Function.update_self]
      exact (linked.nodup type').erase m
    · rw [Function.update_of_ne same]
      exact linked.nodup type'
  · intro type' high
    rw [List.eq_nil_iff_forall_not_mem]
    intro m' there
    have before := (inside type' m' there).1
    rw [linked.three type' high] at before
    cases before
  · intro entry registered
    obtain ⟨before, different⟩ := List.mem_filter.mp registered
    obtain ⟨type', there⟩ := linked.registered entry before
    refine ⟨type', ?_⟩
    change entry.2 ∈ Function.update s.xpdev.listHead type _ type'
    by_cases same : type' = type
    · subst same
      rw [Function.update_self]
      exact (List.mem_erase_of_ne (of_decide_eq_true different)).mpr there
    · rw [Function.update_of_ne same]
      exact there
  · exact linked.major

theorem Stage.dropped (stage : Stage t x w₀ maps w) {type : Nat}
    (member : m ∈ (w.dev x.pdev).xpdev.listHead type) :
    Stage t x w₀ maps (State.setDev w x.pdev (Nodes.dropped (w.dev x.pdev) type m)) := by
  refine stage.setDev ⟨rfl, rfl, rfl, rfl, rfl, rfl, rfl⟩ (stage.linked.dropped member) ?_
  intro start some_left
  apply stage.filled start
  intro nothing
  apply some_left
  change Function.update (w.dev x.pdev).xpdev.listHead type _ 0 = []
  by_cases same : 0 = type
  · subst same
    rw [Function.update_self, nothing]
    rfl
  · rw [Function.update_of_ne same]
    exact nothing

/-- How a destroyed list leaves the stage: empty, or cut off behind its first member. -/
def ListDestroyed (t : Tables) (walk : Walk) (x : XdevPtr) (w₀ : World) (maps : List Mapping)
    (w : World) (type : Nat) (v : Option Unit) (w' : World) : Prop :=
  Stage t x w₀ maps w' ∧ SameRegister w w' ∧
    match v with
    | none => walk = .poison
    | some _ => (w'.dev x.pdev).xpdev.listHead =
        Function.update (w.dev x.pdev).xpdev.listHead type []

theorem destroyMembers_step {walk : Walk} (attended : AttendedIfPresent hw x.pdev (w₀.dev x.pdev)) {type : Nat}
    (ms : List MemberPtr) (stage : Stage t x w₀ maps w)
    (list : (w.dev x.pdev).xpdev.listHead type = ms) :
    Act.wp (LawfulOn hw E x.pdev w₀) (destroyMembers t walk x.pdev type ms)
      (ListDestroyed t walk x w₀ maps w type) w := by
  induction ms generalizing w with
  | nil =>
    have same : (w.dev x.pdev).xpdev.listHead =
        Function.update (w.dev x.pdev).xpdev.listHead type [] := by
      rw [← list, Function.update_eq_self]
    exact Act.wp_pure.mpr ⟨stage, ⟨rfl, rfl⟩, same⟩
  | cons m rest ih =>
    have member : m ∈ (w.dev x.pdev).xpdev.listHead type := by
      rw [list]
      exact List.mem_cons_self
    obtain ⟨⟨own, old, live⟩, finished⟩ := stage.linked.each type m member
    have next : (dropped (w.dev x.pdev) type m).xpdev.listHead =
        Function.update (w.dev x.pdev).xpdev.listHead type rest := by
      change Function.update (w.dev x.pdev).xpdev.listHead type
        (((w.dev x.pdev).xpdev.listHead type).erase m) = _
      rw [list, List.erase_cons_head]
    unfold destroyMembers
    simp only [loadMember, destroyXcdev, deviceDestroy, cdevDel, Act.wp_bind, Act.wp_read,
      Act.andThen_some, own, if_neg finished.number, Act.wp_pure, id_eq, finished.xdev, reduceCtorEq,
      if_false, stage.sysClass, not_true_eq_false, finished.made, wp_onDev_call, setDev_setDev,
      setDev_dev_same]
    refine ⟨stage.lawful attended trivial, ?_, ?_⟩
    · refine stage.lawful_rest attended ?_ trivial
      exact ⟨rfl, rfl, rfl, rfl, rfl, rfl, rfl⟩
    rw [if_neg (Int.lt_irrefl 0)]
    simp only [listDel, storeXpdev, kfree, Act.wp_bind, Act.andThen_some, wp_onDev_call,
      wp_onDev_update, setDev_setDev, setDev_dev_same]
    refine ⟨?_, ?_⟩
    · refine stage.lawful_rest attended ?_ trivial
      exact ⟨rfl, rfl, rfl, rfl, rfl, rfl, rfl⟩
    have after := stage.dropped member
    generalize again : State.setDev w x.pdev (dropped (w.dev x.pdev) type m) = u at after
    have left : (u.dev x.pdev).xpdev.listHead =
        Function.update (w.dev x.pdev).xpdev.listHead type rest := by
      rw [← again, setDev_dev_same, next]
    have register : SameRegister w u := by
      rw [← again]
      exact ⟨rfl, rfl⟩
    cases walk with
    | poison =>
      rw [← again] at after register
      exact Act.wp_fault.mpr ⟨after, register, rfl⟩
    | every =>
      have goal : Act.wp (LawfulOn hw E x.pdev w₀) (destroyMembers t .every x.pdev type rest)
          (ListDestroyed t .every x w₀ maps w type) u := by
        refine Act.wp_mono (ih after (by rw [left, Function.update_self])) ?_
        intro v w' post
        obtain ⟨stage, later, ends⟩ := post
        refine ⟨stage, register.trans later, ?_⟩
        cases v with
        | none => exact ends
        | some _ => rw [ends, left, Function.update_idem]
      rw [← again] at goal
      exact goal

theorem fileDestroyInterfaces_step {walk : Walk} (attended : AttendedIfPresent hw x.pdev (w₀.dev x.pdev))
    (type : Nat)
    (stage : Stage t x w₀ maps w) :
    Act.wp (LawfulOn hw E x.pdev w₀) (fileDestroyInterfaces t walk x.pdev type)
      (ListDestroyed t walk x w₀ maps w type) w := by
  unfold fileDestroyInterfaces
  rw [Act.wp_bind, Act.wp_read, Act.andThen_some]
  exact destroyMembers_step attended _ stage rfl

/-- How the nodes of a device are left when they are destroyed: none, or cut off. -/
def NodesDestroyed (t : Tables) (walk : Walk) (x : XdevPtr) (w₀ : World) (maps : List Mapping)
    (w : World) (v : Option Unit) (w' : World) : Prop :=
  Stage t x w₀ maps w' ∧ SameRegister w w' ∧
    match v with
    | none => walk = .poison
    | some _ => ∀ type, (w'.dev x.pdev).xpdev.listHead type = []

theorem xpdevDestroyInterfaces_step {walk : Walk} (attended : AttendedIfPresent hw x.pdev (w₀.dev x.pdev))
    (stage : Stage t x w₀ maps w) :
    Act.wp (LawfulOn hw E x.pdev w₀) (xpdevDestroyInterfaces t walk x.pdev)
      (NodesDestroyed t walk x w₀ maps w) w := by
  unfold xpdevDestroyInterfaces
  rw [Act.wp_bind]
  refine Act.wp_mono (fileDestroyInterfaces_step attended 2 stage) ?_
  intro v w₂ post
  obtain ⟨stage, register₂, ends₂⟩ := post
  cases v with
  | none => exact ⟨stage, register₂, ends₂⟩
  | some _ =>
    rw [Act.andThen_some, Act.wp_bind]
    refine Act.wp_mono (fileDestroyInterfaces_step attended 1 stage) ?_
    intro v w₁ post
    obtain ⟨stage, register₁, ends₁⟩ := post
    cases v with
    | none => exact ⟨stage, register₂.trans register₁, ends₁⟩
    | some _ =>
      rw [Act.andThen_some, Act.wp_bind]
      refine Act.wp_mono (fileDestroyInterfaces_step attended 0 stage) ?_
      intro v u post
      obtain ⟨stage, last, ends⟩ := post
      have register := (register₂.trans register₁).trans last
      cases v with
      | none => exact ⟨stage, register, ends⟩
      | some _ =>
        have empty : ∀ type, (u.dev x.pdev).xpdev.listHead type = [] := by
          intro type
          by_cases high : 3 ≤ type
          · exact stage.linked.three type high
          · rw [ends, ends₁, ends₂]
            have small : type = 0 ∨ type = 1 ∨ type = 2 := by omega
            obtain rfl | rfl | rfl := small <;> simp [Function.update]
        simp only [Act.andThen_some, Act.wp_bind, Act.wp_read]
        split
        · rw [unregisterChrdevRegion, wp_onDev_call]
          refine ⟨stage.lawful attended trivial, ?_, ⟨register.addr, register.note⟩, ?_⟩
          · have linked : Linked t x (u.dev x.pdev) := stage.linked
            refine stage.setDev ⟨rfl, rfl, rfl, rfl, rfl, rfl, rfl⟩ ?_ stage.filled
            exact linked.keep rfl rfl linked.major (Nat.le_refl _) fun type m there =>
              ⟨(linked.each type m there).live, rfl⟩
          · intro type
            rw [setDev_dev_same]
            exact empty type
        · exact Act.wp_pure.mpr ⟨stage, register, empty⟩

/-! Making a node. -/

/-- A stage with a member in the making, which is on no list yet. -/
structure Making (t : Tables) (x : XdevPtr) (w₀ : World) (maps : List Mapping) (m : MemberPtr)
    (c : XgpuCdev) (w : World) : Prop where
  stage : Stage t x w₀ maps w
  allocated : Allocated x (w.dev x.pdev) m
  unlisted : ∀ type, m ∉ (w.dev x.pdev).xpdev.listHead type
  content : (w.dev x.pdev).member m = c

theorem Making.setDev {c c' : XgpuCdev} (making : Making t x w₀ maps m c w)
    (same : SameRest (w.dev x.pdev) s) (linked : Linked t x s)
    (lists : s.xpdev.listHead = (w.dev x.pdev).xpdev.listHead) (allocated : Allocated x s m)
    (content : s.member m = c') : Making t x w₀ maps m c' (State.setDev w x.pdev s) := by
  refine ⟨making.stage.setDev same linked (lists ▸ making.stage.filled), ?_, ?_, ?_⟩
  · rw [setDev_dev_same]
    exact allocated
  · rw [setDev_dev_same, lists]
    exact making.unlisted
  · rw [setDev_dev_same]
    exact content

/-- A change of the globals that other modules' files use. -/
theorem Stage.globals (stage : Stage t x w₀ maps w) {w' : World} (dev : w'.dev = w.dev)
    (list : w'.xdevList = w.xdevList) (sysClass : w'.gXgpuClass = w.gXgpuClass)
    (register : SameRegister w w') (filled : w'.configData = w.configData) :
    Stage t x w₀ maps w' where
  others := by rw [dev]; exact stage.others
  list := list.trans stage.list
  sysClass := sysClass.trans stage.sysClass
  held := by rw [dev]; exact stage.held
  xdev := by rw [dev]; exact stage.xdev
  xdevLive := by rw [dev]; exact stage.xdevLive
  config := by rw [dev]; exact stage.config
  bus := by rw [dev]; exact stage.bus
  owner := by rw [dev]; exact stage.owner
  drvdata := by rw [dev]; exact stage.drvdata
  linked := by rw [dev]; exact stage.linked
  pinned := stage.pinned_same register
  filled := by
    unfold Snapshotted Filled
    rw [dev, filled]
    exact stage.filled

/-! What the calls of create_xcdev do, in any world. -/

/-- The state of a device with a new member. -/
def withMember (s : DevState) (m : MemberPtr) (garbage : XgpuCdev) : DevState :=
  { s with
    serial := s.serial + 1, memberLive := m :: s.memberLive
    member := Function.update s.member m garbage }

theorem kmallocMember_becomes {R : World → Call → Prop} {env : Env} {pdev : Dev} (devId : Nat)
    (lawful : R w .kmalloc) :
    Act.wp R (onDev pdev (kmallocMember env pdev devId)) (Act.returns fun v u =>
      v = none ∧ env.errno (.kmallocMember devId) ≠ 0 ∧ u = w ∨
      v = some ⟨pdev, (w.dev pdev).serial⟩ ∧ env.errno (.kmallocMember devId) = 0 ∧
        u = State.setDev w pdev
          (withMember (w.dev pdev) ⟨pdev, (w.dev pdev).serial⟩ env.garbage)) w := by
  rw [kmallocMember, wp_onDev_call]
  refine ⟨lawful, ?_⟩
  by_cases ok : env.errno (.kmallocMember devId) = 0
  · rw [if_pos ok]
    exact .inr ⟨rfl, ok, rfl⟩
  · rw [if_neg ok, setDev_self]
    exact .inl ⟨rfl, ok, rfl⟩

/-- The state of a device with a range of numbers under a major number of its own. -/
def withMajor (s : DevState) (major : Nat) : DevState :=
  { s with chrdevs := (major, 0) :: s.chrdevs, xpdev := { s.xpdev with major := major } }

theorem allocMajor_becomes {R : World → Call → Prop} {env : Env} {pdev : Dev} (devId : Nat)
    (lawful : R w (.allocChrdevRegion 0 XGPU_MINOR_COUNT "xgpu")) :
    Act.wp R (allocMajor env pdev devId) (Act.returns fun rv u =>
      (w.dev pdev).xpdev.major ≠ 0 ∧ rv = 0 ∧ u = w ∨
      (w.dev pdev).xpdev.major = 0 ∧ env.errno (.allocChrdevRegion devId) = 0 ∧ rv = 0 ∧
        u = State.setDev w pdev (withMajor (w.dev pdev) env.major.number) ∨
      (w.dev pdev).xpdev.major = 0 ∧ env.errno (.allocChrdevRegion devId) ≠ 0 ∧ rv < 0 ∧ u = w) w := by
  unfold allocMajor
  simp only [Act.wp_bind, Act.wp_read, Act.andThen_some]
  by_cases unset : (w.dev pdev).xpdev.major = 0
  · rw [if_neg (not_not.mpr unset)]
    simp only [allocChrdevRegion, Act.wp_bind, wp_onDev_call]
    refine ⟨lawful, ?_⟩
    by_cases ok : env.errno (.allocChrdevRegion devId) = 0
    · simp only [if_pos ok, Act.andThen_some, ne_eq, not_true_eq_false, if_false, storeXpdev,
        Act.wp_bind, wp_onDev_update, Act.wp_pure, setDev_setDev, setDev_dev_same, Act.returns_some]
      exact .inr (.inl ⟨unset, ok, trivial, rfl⟩)
    · have failed : env.rv (.allocChrdevRegion devId) < 0 := rv_neg ok
      simp only [if_neg ok, Act.andThen_some, setDev_self]
      rw [if_pos (by omega), Act.wp_pure]
      exact .inr (.inr ⟨unset, ok, failed, rfl⟩)
  · rw [if_pos unset, Act.wp_pure]
    exact .inl ⟨unset, rfl, rfl⟩

theorem kmallocMember_step {env : Env} (attended : AttendedIfPresent hw x.pdev (w₀.dev x.pdev)) (devId : Nat)
    (stage : Stage t x w₀ maps w) :
    Act.wp (LawfulOn hw E x.pdev w₀) (onDev x.pdev (kmallocMember env x.pdev devId))
      (Act.returns fun v w' => match v with
        | none => w' = w
        | some m => Making t x w₀ maps m env.garbage w') w := by
  apply Act.wp_returns_mono (kmallocMember_becomes devId (stage.lawful attended trivial))
  intro v u outcome
  obtain ⟨refused, _, same⟩ | ⟨made, _, same⟩ := outcome
  · rw [refused]
    exact same
  · rw [made, same]
    have linked : Linked t x (w.dev x.pdev) := stage.linked
    have unlisted : ∀ type, (⟨x.pdev, (w.dev x.pdev).serial⟩ : MemberPtr) ∉
        (w.dev x.pdev).xpdev.listHead type := fun type there =>
      Nat.lt_irrefl _ (linked.each type _ there).old
    constructor
    · refine stage.setDev ⟨rfl, rfl, rfl, rfl, rfl, rfl, rfl⟩ ?_ stage.filled
      refine linked.keep rfl rfl linked.major (Nat.le_succ _) fun type m there => ?_
      have different : m ≠ ⟨x.pdev, (w.dev x.pdev).serial⟩ := fun same =>
        unlisted type (same ▸ there)
      exact ⟨List.mem_cons_of_mem _ (linked.each type m there).live,
        Function.update_of_ne different _ _⟩
    · rw [setDev_dev_same]
      exact ⟨rfl, Nat.lt_succ_self _, List.mem_cons_self⟩
    · rw [setDev_dev_same]
      exact unlisted
    · rw [setDev_dev_same]
      exact Function.update_self _ _ _

/-- The state of a device with the content of a member changed. -/
def stored (s : DevState) (m : MemberPtr) (change : XgpuCdev → XgpuCdev) : DevState :=
  { s with member := Function.update s.member m (change (s.member m)) }

theorem Making.store {c : XgpuCdev} (making : Making t x w₀ maps m c w)
    (change : XgpuCdev → XgpuCdev) :
    Making t x w₀ maps m (change c) (State.setDev w x.pdev (stored (w.dev x.pdev) m change)) := by
  have linked : Linked t x (w.dev x.pdev) := making.stage.linked
  have allocated := making.allocated
  refine making.setDev ⟨rfl, rfl, rfl, rfl, rfl, rfl, rfl⟩ ?_ rfl
    ⟨allocated.own, allocated.old, allocated.live⟩ ?_
  · refine linked.keep rfl rfl linked.major (Nat.le_refl _) fun type m' there => ?_
    have different : m' ≠ m := fun same => making.unlisted type (same ▸ there)
    exact ⟨(linked.each type m' there).live, Function.update_of_ne different _ _⟩
  · rw [← making.content]
    exact Function.update_self _ _ _

theorem storeMember_step {c : XgpuCdev} (change : XgpuCdev → XgpuCdev)
    (making : Making t x w₀ maps m c w) :
    Act.wp (LawfulOn hw E x.pdev w₀) (onDev x.pdev (storeMember m change))
      (Act.returns fun _ w' => Making t x w₀ maps m (change c) w' ∧
        w'.configData = w.configData ∧ (w'.dev x.pdev).xpdev = (w.dev x.pdev).xpdev) w := by
  rw [storeMember, wp_onDev_update, Act.returns_some]
  refine ⟨making.store change, rfl, ?_⟩
  rw [setDev_dev_same]

theorem Making.globals {c : XgpuCdev} (making : Making t x w₀ maps m c w) {w' : World}
    (dev : w'.dev = w.dev) (list : w'.xdevList = w.xdevList)
    (sysClass : w'.gXgpuClass = w.gXgpuClass) (register : SameRegister w w')
    (filled : w'.configData = w.configData) : Making t x w₀ maps m c w' :=
  ⟨making.stage.globals dev list sysClass register filled, dev ▸ making.allocated,
    dev ▸ making.unlisted, dev ▸ making.content⟩

theorem cdevInit_step {c : XgpuCdev} (ops : FileOps) (making : Making t x w₀ maps m c w) :
    Act.wp (LawfulOn hw E x.pdev w₀) (cdevInit m ops)
      (Act.returns fun _ w' => Making t x w₀ maps m { c with owner := false, ops := some ops } w' ∧
        (w'.dev x.pdev).xpdev = (w.dev x.pdev).xpdev) w := by
  rw [cdevInit, making.allocated.own]
  simp only [Act.wp_bind, Act.wp_update, Act.andThen_some]
  have renamed : Making t x w₀ maps m c { w with kobjName := Function.update w.kobjName m none } :=
    making.globals rfl rfl rfl ⟨rfl, rfl⟩ rfl
  refine Act.wp_returns_mono (storeMember_step _ renamed) ?_
  intro _ w' post
  obtain ⟨making, _, same⟩ := post
  exact ⟨making, same⟩

/-- The number of a node is one of those of its table. -/
def InTable (t : Tables) : Nat → Nat → Prop
  | 0, devId => devId < t.itemConfigMax
  | 1, devId => t.itemConfigMax ≤ devId ∧ devId < t.itemRegisterMax
  | 2, devId => t.itemRegisterMax ≤ devId ∧ devId < t.itemIfwiMax
  | _, _ => False

instance (t : Tables) (type devId : Nat) : Decidable (InTable t type devId) :=
  match type with
  | 0 => inferInstanceAs (Decidable (_ < _))
  | 1 | 2 => inferInstanceAs (Decidable (_ ∧ _))
  | _ + 3 => inferInstanceAs (Decidable False)

theorem InTable.kind {type devId : Nat} (node : InTable t type devId) : type < 3 := by
  rcases type with _ | _ | _ | type
  · exact Nat.zero_lt_succ 2
  · exact Nat.one_lt_succ_succ 1
  · exact Nat.lt_succ_self 2
  · exact False.elim node

theorem cdevConfigInit_step {c : XgpuCdev} (attended : AttendedIfPresent hw x.pdev (w₀.dev x.pdev))
    (making : Making t x w₀ maps m c w) :
    Act.wp (LawfulOn hw E x.pdev w₀) (cdevConfigInit m x)
      (Act.returns fun _ w' =>
        Making t x w₀ maps m { c with owner := false, ops := some .config } w' ∧ Filled x.pdev w' ∧
          (w'.dev x.pdev).xpdev = (w.dev x.pdev).xpdev) w := by
  refine Act.wp_seq (cdevInit_step .config making) fun _ u ⟨making, xpdev⟩ => ?_
  have calls : ∀ data offset width,
      LawfulOn hw E x.pdev w₀ { u with configData := data } (.pciReadConfig x.pdev offset width) :=
    fun _ _ _ => ⟨.quiet (fun present => making.stage.attended (attended present)) trivial, making.stage.others⟩
  refine Act.wp_returns_mono (Snapshot.fillSnapshot_step PCI_CONFIG_SIZE 0 calls
    fun k below => absurd below (Nat.not_lt_zero k)) ?_
  intro _ w' post
  obtain ⟨data, same, filled⟩ := post
  have filled : Filled x.pdev w' := by
    intro k below
    rw [same]
    exact filled k (by omega)
  rw [same] at filled ⊢
  obtain ⟨stage, allocated, unlisted, content⟩ := making
  refine ⟨⟨?_, allocated, unlisted, content⟩, filled, xpdev⟩
  exact { stage with filled := fun _ _ => filled, pinned := stage.pinned_same ⟨rfl, rfl⟩ }

/-- One more mapping of the device, as the one that the register files use. -/
theorem Stage.addMap (stage : Stage t x w₀ maps w) (base : Mapping) (own : base.pdev = x.pdev)
    (bar : base.bar = REGISTER_BAR) :
    Stage t x w₀ (base :: maps)
      { State.setDev w x.pdev (((w.dev x.pdev).withHeld
          { (w.dev x.pdev).held with maps := base :: (w.dev x.pdev).held.maps }).withSerial
            ((w.dev x.pdev).serial + 1)) with
        pcimapAddr := some base, registerInit := some (x.pdev, true) } where
  others d different := (setDev_dev_other w _ different).trans (stage.others d different)
  list := stage.list
  sysClass := stage.sysClass
  held := by
    rw [setDev_dev_same]
    change ({ (w.dev x.pdev).held with maps := base :: (w.dev x.pdev).held.maps } : Held) = _
    rw [stage.held]
    rfl
  xdev := by rw [setDev_dev_same]; exact stage.xdev
  xdevLive := by rw [setDev_dev_same]; exact stage.xdevLive
  config := by rw [setDev_dev_same]; exact stage.config
  bus := by rw [setDev_dev_same]; exact stage.bus
  owner := by rw [setDev_dev_same]; exact stage.owner
  drvdata := by rw [setDev_dev_same]; exact stage.drvdata
  linked := by
    have linked := stage.linked
    rw [setDev_dev_same]
    exact linked.keep rfl rfl linked.major (Nat.le_succ _) fun type m there =>
      ⟨(linked.each type m there).live, rfl⟩
  pinned := by
    refine .inr ⟨⟨rfl, fun m same => ?_⟩, fun m same => ?_⟩
    · cases same
      exact ⟨own, bar⟩
    · cases same
      exact List.mem_cons_self
  filled := by
    unfold Snapshotted Filled
    rw [setDev_dev_same]
    exact stage.filled

theorem cdevRegisterInit_step {hw : Dev → PciDev} {env : Env} {c : XgpuCdev} (devId : Nat)
    (attended : AttendedIfPresent hw x.pdev (w₀.dev x.pdev)) (making : Making t x w₀ maps m c w) :
    Act.wp (LawfulOn hw E x.pdev w₀) (cdevRegisterInit hw env m x devId)
      (Act.returns fun _ w' => ∃ maps',
        Making t x w₀ maps' m { c with owner := false, ops := some .register } w' ∧
          (w'.dev x.pdev).xpdev = (w.dev x.pdev).xpdev) w := by
  refine Act.wp_seq (cdevInit_step .register making) fun _ u ⟨making, xpdev⟩ => ?_
  simp only [pciIomap, Act.wp_bind, wp_onDev_call]
  refine ⟨making.stage.lawful attended trivial, ?_⟩
  obtain ⟨stage, allocated, unlisted, content⟩ := making
  by_cases ok : (hw x.pdev).resourceLen REGISTER_BAR ≠ 0 ∧
      env.errno (.iomapRegister devId) = 0
  · simp only [if_pos ok, Act.andThen_some, Act.wp_update, Act.returns_some]
    refine ⟨_ :: maps, ⟨stage.addMap _ rfl rfl, ?_, ?_, ?_⟩, ?_⟩
    · rw [setDev_dev_same]
      exact ⟨allocated.own, Nat.lt_succ_of_lt allocated.old, allocated.live⟩
    · rw [setDev_dev_same]
      exact unlisted
    · rw [setDev_dev_same]
      exact content
    · rw [setDev_dev_same]
      exact xpdev
  · simp only [if_neg ok, Act.andThen_some, Act.wp_update, Act.returns_some, setDev_self]
    refine ⟨maps, ⟨?_, allocated, unlisted, content⟩, xpdev⟩
    exact { stage with pinned := .inr ⟨⟨rfl, by simp⟩, by simp⟩ }

theorem initXcdev_step {hw : Dev → PciDev} {env : Env} {c : XgpuCdev} {type devId : Nat}
    (node : InTable t type devId) (attended : AttendedIfPresent hw x.pdev (w₀.dev x.pdev))
    (making : Making t x w₀ maps m c w) :
    Act.wp (LawfulOn hw E x.pdev w₀) (initXcdev hw t env m x devId)
      (Act.returns fun _ w' => ∃ maps',
        Making t x w₀ maps' m { c with owner := false, ops := opsOf type } w' ∧
          (type = 0 → Filled x.pdev w') ∧ (w'.dev x.pdev).xpdev = (w.dev x.pdev).xpdev) w := by
  unfold initXcdev
  match type, node with
  | 0, config =>
    rw [if_pos (show devId < t.itemConfigMax from config)]
    refine Act.wp_returns_mono (cdevConfigInit_step attended making) ?_
    intro _ w' post
    obtain ⟨making, filled, same⟩ := post
    exact ⟨maps, making, fun _ => filled, same⟩
  | 1, ⟨low, high⟩ =>
    rw [if_neg (by omega), if_pos high]
    refine Act.wp_returns_mono (cdevRegisterInit_step devId attended making) ?_
    intro _ w' post
    obtain ⟨maps', making, same⟩ := post
    exact ⟨maps', making, fun zero => absurd zero (by decide), same⟩
  | 2, ⟨low, high⟩ =>
    have register : t.itemConfigMax ≤ t.itemRegisterMax := Nat.le_add_right _ _
    rw [if_neg (by omega), if_neg (by omega), if_pos high]
    refine Act.wp_returns_mono (cdevInit_step .ctrl making) ?_
    intro _ w' post
    obtain ⟨making, same⟩ := post
    exact ⟨maps, making, fun zero => absurd zero (by decide), same⟩

/-- Every node that is in a table has an entry there. -/
theorem nodeOf_inTable {type devId : Nat} (node : InTable t type devId) :
    ∃ item, nodeOf t devId = some item := by
  unfold nodeOf
  match type, node with
  | 0, config =>
    have inside : devId < t.configItems.length := config
    exact ⟨_, (if_pos inside).trans (List.getElem?_eq_getElem inside)⟩
  | 1, ⟨low, high⟩ =>
    have inside : devId - t.itemConfigMax < t.registerItems.length := by
      unfold Tables.itemRegisterMax at high
      omega
    rw [if_neg (by omega), if_pos high]
    exact ⟨_, List.getElem?_eq_getElem inside⟩
  | 2, ⟨low, high⟩ =>
    have register : t.itemConfigMax ≤ t.itemRegisterMax := Nat.le_add_right _ _
    have inside : devId - t.itemRegisterMax < t.ifwiItems.length := by
      unfold Tables.itemIfwiMax at high
      omega
    rw [if_neg (by omega), if_neg (by omega), if_pos high]
    exact ⟨_, List.getElem?_eq_getElem inside⟩

/-- The names of the other members stay. -/
theorem configKobject_becomes {R : World → Call → Prop} {env : Env} {type devId : Nat}
    (node : InTable t type devId) (lawful : ∀ name, R w (.kobjectSetName name)) :
    Act.wp R (configKobject t env m x devId) (Act.returns fun rv u =>
      (rv < 0 ↔ env.errno (.kobjectSetName devId) ≠ 0) ∧
        ∃ names, u = { w with kobjName := names } ∧ ∀ m', m' ≠ m → names m' = w.kobjName m') w := by
  obtain ⟨item, entry⟩ := nodeOf_inTable node
  unfold configKobject
  simp only [entry]
  rw [Act.wp_bind, Act.wp_read, Act.andThen_some, kobjectSetName, Act.wp_call]
  refine ⟨lawful _, ?_⟩
  by_cases ok : env.errno (.kobjectSetName devId) = 0
  · rw [if_pos ok]
    refine ⟨by omega, _, rfl, ?_⟩
    exact fun m' other => Function.update_of_ne other _ _
  · have failed : env.rv (.kobjectSetName devId) < 0 := rv_neg ok
    rw [if_neg ok]
    exact ⟨⟨fun _ => ok, fun _ => failed⟩, w.kobjName, rfl, fun _ _ => rfl⟩

theorem configKobject_step {env : Env} {c : XgpuCdev} {type devId : Nat} (node : InTable t type devId)
    (attended : AttendedIfPresent hw x.pdev (w₀.dev x.pdev)) (making : Making t x w₀ maps m c w) :
    Act.wp (LawfulOn hw E x.pdev w₀) (configKobject t env m x devId)
      (Act.returns fun _ w' => Making t x w₀ maps m c w' ∧
        (w'.dev x.pdev).xpdev = (w.dev x.pdev).xpdev) w := by
  apply Act.wp_returns_mono
    (configKobject_becomes node fun _ => making.stage.lawful attended trivial)
  intro rv u post
  obtain ⟨_, names, same, _⟩ := post
  rw [same]
  exact ⟨making.globals rfl rfl rfl ⟨rfl, rfl⟩ rfl, rfl⟩

theorem allocMajor_step {env : Env} {c : XgpuCdev} (devId : Nat)
    (attended : AttendedIfPresent hw x.pdev (w₀.dev x.pdev)) (making : Making t x w₀ maps m c w) :
    Act.wp (LawfulOn hw E x.pdev w₀) (allocMajor env x.pdev devId)
      (Act.returns fun rv w' => Making t x w₀ maps m c w' ∧
        (rv = 0 ∧ (w'.dev x.pdev).xpdev.major ≠ 0 ∨ rv < 0)) w := by
  have linked : Linked t x (w.dev x.pdev) := making.stage.linked
  have allocated := making.allocated
  apply Act.wp_returns_mono (allocMajor_becomes devId (making.stage.lawful attended trivial))
  intro rv u outcome
  obtain ⟨set, zero, same⟩ | ⟨_, _, zero, same⟩ | ⟨_, _, failed, same⟩ := outcome
  · rw [same]
    exact ⟨making, .inl ⟨zero, set⟩⟩
  · rw [same]
    refine ⟨making.setDev ⟨rfl, rfl, rfl, rfl, rfl, rfl, rfl⟩ ?_ rfl
      ⟨allocated.own, allocated.old, allocated.live⟩ making.content, .inl ⟨zero, ?_⟩⟩
    · exact linked.keep rfl rfl env.major.below (Nat.le_refl _) fun type m there =>
        ⟨(linked.each type m there).live, rfl⟩
    · rw [setDev_dev_same]
      exact Nat.pos_iff_ne_zero.mp env.major.positive
  · rw [same]
    exact ⟨making, .inr failed⟩

theorem mkdev_toInt {major minor : Nat} (first : major < CHRDEV_MAJOR_MAX)
    (second : minor < XGPU_MINOR_COUNT) : (mkdev major minor).toInt = major * 2 ^ 20 + minor := by
  unfold CHRDEV_MAJOR_MAX at first
  unfold XGPU_MINOR_COUNT at second
  have joined : (mkdev major minor).toNat = major * 2 ^ 20 + minor := by
    have small : major <<< 20 < 2 ^ 32 := by
      rw [Nat.shiftLeft_eq]
      omega
    rw [mkdev, BitVec.toNat_or, BitVec.toNat_shiftLeft, BitVec.toNat_ofNat, BitVec.toNat_ofNat,
      Nat.mod_eq_of_lt (by omega : major < 2 ^ 32), Nat.mod_eq_of_lt small,
      Nat.mod_eq_of_lt (by omega : minor < 2 ^ 32),
      ← Nat.shiftLeft_add_eq_or_of_lt (by omega : minor < 2 ^ 20), Nat.shiftLeft_eq]
  rw [BitVec.toInt_eq_toNat_of_lt (by omega), joined]
  omega

/-- A full device number is never taken for the number of a register node. -/
theorem mkdev_number {major minor : Nat} (positive : major ≠ 0) (first : major < CHRDEV_MAJOR_MAX)
    (second : minor < t.itemIfwiMax) (small : t.itemIfwiMax ≤ XGPU_MINOR_COUNT) :
    ¬ isRegisterNumber t (mkdev major minor) := by
  have number := mkdev_toInt first (Nat.lt_of_lt_of_le second small)
  have register : t.itemRegisterMax ≤ t.itemIfwiMax := Nat.le_add_right _ _
  unfold XGPU_MINOR_COUNT at small
  intro post
  obtain ⟨_, high⟩ := post
  omega

/-- The device state with a member at the end of a list. -/
def appended (s : DevState) (type : Nat) (m : MemberPtr) : DevState :=
  { s with xpdev := { s.xpdev with
      listHead := Function.update s.xpdev.listHead type (s.xpdev.listHead type ++ [m]) } }

theorem Linked.appended (linked : Linked t x s) {type : Nat} (small : type < 3)
    (member : MemberOf t x s type m) (unlisted : ∀ type, m ∉ s.xpdev.listHead type) {n : BitVec 32} :
    Linked t x { appended s type m with cdevs := (n, m) :: s.cdevs } := by
  have lists : ∀ type', (Function.update s.xpdev.listHead type (s.xpdev.listHead type ++ [m])) type' =
      if type' = type then s.xpdev.listHead type ++ [m] else s.xpdev.listHead type' := by
    intro type'
    by_cases same : type' = type
    · rw [if_pos same, same, Function.update_self]
    · rw [if_neg same, Function.update_of_ne same]
  constructor
  · intro type' m' there
    change m' ∈ (Function.update s.xpdev.listHead type (s.xpdev.listHead type ++ [m])) type' at there
    have kept : MemberOf t x s type' m' := by
      rw [lists] at there
      by_cases same : type' = type
      · rw [if_pos same, List.mem_append, List.mem_singleton] at there
        obtain before | rfl := there
        · exact same ▸ linked.each type m' before
        · exact same ▸ member
      · rw [if_neg same] at there
        exact linked.each type' m' there
    exact ⟨⟨kept.own, kept.old, kept.live⟩, kept.finished⟩
  · intro type'
    change ((Function.update s.xpdev.listHead type (s.xpdev.listHead type ++ [m])) type').Nodup
    rw [lists]
    split
    · refine List.nodup_append.mpr ⟨linked.nodup type, List.pairwise_singleton _ m, ?_⟩
      intro one before two new same
      rw [List.mem_singleton.mp new] at same
      exact unlisted type (same ▸ before)
    · exact linked.nodup type'
  · intro type' high
    change (Function.update s.xpdev.listHead type (s.xpdev.listHead type ++ [m])) type' = []
    rw [lists, if_neg (by omega)]
    exact linked.three type' high
  · intro entry there
    obtain rfl | before := List.mem_cons.mp there
    · refine ⟨type, ?_⟩
      change m ∈ (Function.update s.xpdev.listHead type (s.xpdev.listHead type ++ [m])) type
      rw [Function.update_self]
      exact List.mem_append_right _ List.mem_cons_self
    · obtain ⟨type', held⟩ := linked.registered entry before
      refine ⟨type', ?_⟩
      change entry.2 ∈ (Function.update s.xpdev.listHead type (s.xpdev.listHead type ++ [m])) type'
      rw [lists]
      split
      · next same => exact List.mem_append_left _ (same ▸ held)
      · exact held
  · exact linked.major

/-- The member is finished and goes to the end of its list. -/
theorem Making.finish {c : XgpuCdev} (making : Making t x w₀ maps m c w) {type : Nat}
    (small : type < 3) (finished : Finished t x type c) (filled : type = 0 → Filled x.pdev w)
    (n : BitVec 32) (sysDevices : List (BitVec 32)) :
    Stage t x w₀ maps (State.setDev w x.pdev (appended { w.dev x.pdev with
      cdevs := (n, m) :: (w.dev x.pdev).cdevs, sysDevices := sysDevices } type m)) := by
  have stage := making.stage
  have member : MemberOf t x (w.dev x.pdev) type m := ⟨making.allocated, making.content ▸ finished⟩
  have linked : Linked t x _ := stage.linked.appended small member making.unlisted (n := n)
  refine stage.setDev ⟨rfl, rfl, rfl, rfl, rfl, rfl, rfl⟩ ?_ fun start some_left => ?_
  · exact linked.keep rfl rfl linked.major (Nat.le_refl _) fun type m there =>
      ⟨(linked.each type m there).live, rfl⟩
  · by_cases config : type = 0
    · exact filled config
    · apply stage.filled start
      intro nothing
      apply some_left
      change Function.update (w.dev x.pdev).xpdev.listHead type _ 0 = []
      rw [Function.update_of_ne (Ne.symm config)]
      exact nothing

/-- How create_xcdev ends: it fails, or the member is ready to go on its list. -/
def Created (t : Tables) (x : XdevPtr) (w₀ : World) (type : Nat) (m : MemberPtr) (rv : Int)
    (w : World) : Prop :=
  ∃ maps, rv < 0 ∧ Stage t x w₀ maps w ∨
    rv = 0 ∧ Stage t x w₀ maps (State.setDev w x.pdev (appended (w.dev x.pdev) type m))

/-- device_create never returns NULL, so create_sys_device never fails. -/
theorem createSysDevice_step {R : World → Call → Prop} {env : Env} {type devId : Nat}
    (node : InTable t type devId) (own : m.pdev = x.pdev)
    (lawful : ∀ cdevno name, R w (.deviceCreate cdevno name)) :
    Act.wp R (createSysDevice t env m x devId) (Act.returns fun rv w' =>
      rv = 0 ∧ ∃ sysDevice ≠ SysDevice.null, ∃ all,
        (all = (w.dev x.pdev).sysDevices ∨
          all = ((w.dev x.pdev).member m).cdevno :: (w.dev x.pdev).sysDevices) ∧
        w' = State.setDev w x.pdev
          { stored (w.dev x.pdev) m (fun c => { c with sysDevice := sysDevice }) with
            sysDevices := all }) w := by
  obtain ⟨item, entry⟩ := nodeOf_inTable node
  unfold createSysDevice
  simp only [entry, loadMember, own, deviceCreate, storeMember, Act.wp_bind, Act.wp_read,
    Act.andThen_some, wp_onDev_call, wp_onDev_update, setDev_dev_same, setDev_setDev]
  refine ⟨lawful _ _, ?_⟩
  by_cases ok : env.errno (.deviceCreate devId) = 0
  · simp only [if_pos ok]
    rw [if_neg (by decide), Act.wp_pure]
    exact ⟨rfl, .real, by decide, _, .inr rfl, rfl⟩
  · simp only [if_neg ok]
    rw [if_neg (by decide), Act.wp_pure]
    exact ⟨rfl, .errPtr, by decide, _, .inl rfl, rfl⟩

theorem addXcdev_step {env : Env} {c : XgpuCdev} {type devId : Nat} (node : InTable t type devId)
    (attended : AttendedIfPresent hw x.pdev (w₀.dev x.pdev)) (making : Making t x w₀ maps m c w)
    (finished : ∀ s, s ≠ SysDevice.null → Finished t x type { c with sysDevice := s })
    (filled : type = 0 → Filled x.pdev w) (cdevno : BitVec 32) :
    Act.wp (LawfulOn hw E x.pdev w₀) (addXcdev t env x.pdev x m devId cdevno)
      (Act.returns (Created t x w₀ type m)) w := by
  have stage := making.stage
  have linked : Linked t x (w.dev x.pdev) := stage.linked
  have small : type < 3 := node.kind
  unfold addXcdev
  simp only [cdevAdd, Act.wp_bind, wp_onDev_call]
  refine ⟨stage.lawful attended trivial, ?_⟩
  by_cases added : env.errno (.cdevAdd devId) = 0
  · simp only [if_pos added, Act.andThen_some]
    rw [if_neg (Int.lt_irrefl 0)]
    rw [Act.wp_bind, Act.wp_read, Act.andThen_some, setDev_gXgpuClass, stage.sysClass, if_pos rfl]
    refine Act.wp_seq (createSysDevice_step node making.allocated.own fun _ _ => ?_) ?_
    · refine stage.lawful_rest attended ?_ trivial
      exact ⟨rfl, rfl, rfl, rfl, rfl, rfl, rfl⟩
    intro rv w' post
    obtain ⟨zero, sysDevice, made, all, _, same⟩ := post
    rw [zero, if_neg (Int.lt_irrefl 0), Act.wp_pure]
    refine ⟨maps, .inr ⟨rfl, ?_⟩⟩
    have finish := (making.store fun c => { c with sysDevice := sysDevice }).finish small
      (finished sysDevice made) ?_ cdevno all
    · rw [same]
      simp only [setDev_setDev, setDev_dev_same] at finish ⊢
      exact finish
    · intro config
      have before := filled config
      unfold Filled at *
      rw [setDev_dev_same]
      exact before
  · have failed : env.rv (.cdevAdd devId) < 0 := rv_neg added
    simp only [if_neg added, Act.andThen_some, setDev_self]
    rw [if_pos failed]
    simp only [unregisterChrdevRegion, Act.wp_bind, wp_onDev_call, Act.andThen_some, Act.wp_pure,
      Act.returns_some]
    refine ⟨stage.lawful attended trivial, maps, .inl ⟨failed, ?_⟩⟩
    refine stage.setDev ⟨rfl, rfl, rfl, rfl, rfl, rfl, rfl⟩ ?_ stage.filled
    exact linked.keep rfl rfl linked.major (Nat.le_refl _) fun type m there =>
      ⟨(linked.each type m there).live, rfl⟩

theorem InTable.below {type devId : Nat} (node : InTable t type devId) : devId < t.itemIfwiMax := by
  have register : t.itemConfigMax ≤ t.itemRegisterMax := Nat.le_add_right _ _
  have ifwi : t.itemRegisterMax ≤ t.itemIfwiMax := Nat.le_add_right _ _
  match type, node with
  | 0, config =>
    have inside : devId < t.itemConfigMax := config
    omega
  | 1, ⟨_, high⟩ => omega
  | 2, ⟨_, high⟩ => exact high

theorem createXcdev_step {hw : Dev → PciDev} {env : Env} {c : XgpuCdev} {type devId : Nat} {bar : Int}
    (position : ∃ i : Nat, bar = i) (node : InTable t type devId)
    (small : t.itemIfwiMax ≤ XGPU_MINOR_COUNT) (attended : AttendedIfPresent hw x.pdev (w₀.dev x.pdev))
    (making : Making t x w₀ maps m c w) :
    Act.wp (LawfulOn hw E x.pdev w₀) (createXcdev hw t env x.pdev x m bar devId)
      (Act.returns (Created t x w₀ type m)) w := by
  have last : devId < t.itemIfwiMax := node.below
  refine Act.wp_seq (allocMajor_step devId attended making) ?_
  intro rv w post
  obtain ⟨making, ends⟩ := post
  obtain ⟨zero, major⟩ | failed := ends
  · rw [if_neg (not_not.mpr zero)]
    refine Act.wp_seq (storeMember_step _ making) ?_
    intro _ w₁ post
    obtain ⟨making, _, same₁⟩ := post
    refine Act.wp_seq (configKobject_step node attended making) ?_
    intro rv w₂ post
    obtain ⟨making, same₂⟩ := post
    by_cases named : rv < 0
    · rw [if_pos named, Act.wp_pure]
      exact ⟨maps, .inl ⟨named, making.stage⟩⟩
    · rw [if_neg named]
      refine Act.wp_seq (initXcdev_step node attended making) ?_
      intro _ w₃ post
      obtain ⟨maps', making, filled, same₃⟩ := post
      rw [Act.wp_bind, Act.wp_read, Act.andThen_some]
      have before := making.stage.config
      refine Act.wp_seq (storeMember_step _ making) ?_
      intro _ w₄ post
      obtain ⟨making, data, same₄⟩ := post
      refine addXcdev_step node attended making ?_ ?_ _
      · intro sysDevice made
        have below := making.stage.linked.major
        rw [same₄] at below
        rw [← same₁, ← same₂, ← same₃] at major
        exact ⟨rfl, rfl, position, made, mkdev_number major below last small⟩
      · intro config k below
        rw [data, making.stage.config, ← before]
        exact filled config k below
  · rw [if_pos (by omega), Act.wp_pure]
    exact ⟨maps, .inl ⟨failed, making.stage⟩⟩

/-- How the making of nodes ends: it is cut off, it fails, or the nodes are there. -/
def NodesMade (t : Tables) (walk : Walk) (x : XdevPtr) (w₀ : World) (v : Option Int) (w : World) :
    Prop :=
  ∃ maps, Stage t x w₀ maps w ∧
    match v with
    | none => walk = .poison
    | some rv => rv = 0 ∨ rv = -1

theorem destroyed_made {walk : Walk} {type : Nat} {v : Option Unit} {w' : World}
    (destroyed : ListDestroyed t walk x w₀ maps w type v w') :
    Act.andThen (fun _ => Act.wp (LawfulOn hw E x.pdev w₀) (pure (-1)) (NodesMade t walk x w₀))
      (NodesMade t walk x w₀) v w' := by
  obtain ⟨stage, _, ends⟩ := destroyed
  cases v with
  | none => exact ⟨maps, stage, ends⟩
  | some _ => exact Act.wp_pure.mpr ⟨maps, stage, .inr rfl⟩

theorem createMembers_step {hw : Dev → PciDev} {walk : Walk} {env : Env} {type : Nat}
    (items : List Node) (ii : Nat) (nodes : ∀ item ∈ items, InTable t type item.devId)
    (small : t.itemIfwiMax ≤ XGPU_MINOR_COUNT) (attended : AttendedIfPresent hw x.pdev (w₀.dev x.pdev))
    (position : ((w₀.dev x.pdev).xdev x).configBarIdx = 1) (stage : Stage t x w₀ maps w) :
    Act.wp (LawfulOn hw E x.pdev w₀) (createMembers hw t walk env x.pdev x type items ii)
      (NodesMade t walk x w₀) w := by
  induction items generalizing w maps ii with
  | nil => exact Act.wp_pure.mpr ⟨maps, stage, .inl rfl⟩
  | cons item rest ih =>
    have node : InTable t type item.devId := nodes item List.mem_cons_self
    refine Act.wp_seq (kmallocMember_step attended item.devId stage) ?_
    intro v w₁ outcome
    cases v with
    | none =>
      rw [outcome]
      rw [Act.wp_bind]
      exact Act.wp_mono (fileDestroyInterfaces_step attended type stage) fun _ _ => destroyed_made
    | some m =>
      have making : Making t x w₀ maps m env.garbage w₁ := outcome
      have first : ((w₁.dev x.pdev).xdev x).configBarIdx = 1 := by
        rw [making.stage.xdev, position]
      rw [loadXdev, onDev, Act.wp_bind, Act.wp_zoom, Act.wp_read, Act.andThen_some, first, setDev_self]
      refine Act.wp_seq (createXcdev_step ⟨1 + ii, by omega⟩ node small attended making) ?_
      intro rv w₂ post
      obtain ⟨maps', created⟩ := post
      obtain ⟨failed, stage⟩ | ⟨rfl, stage⟩ := created
      · rw [if_pos failed, Act.wp_bind]
        exact Act.wp_mono (fileDestroyInterfaces_step attended type stage) fun _ _ => destroyed_made
      · rw [if_neg (Int.lt_irrefl 0), Act.wp_bind, listAddTail, storeXpdev, wp_onDev_update,
          Act.andThen_some]
        exact ih (ii + 1) (fun item there => nodes item (List.mem_cons_of_mem _ there)) stage

theorem fileCreateInterface_step {hw : Dev → PciDev} {walk : Walk} {env : Env} {type : Nat}
    (items : List Node) (nodes : ∀ item ∈ items, InTable t type item.devId)
    (small : t.itemIfwiMax ≤ XGPU_MINOR_COUNT) (attended : AttendedIfPresent hw x.pdev (w₀.dev x.pdev))
    (position : ((w₀.dev x.pdev).xdev x).configBarIdx = 1) (stage : Stage t x w₀ maps w) :
    Act.wp (LawfulOn hw E x.pdev w₀) (fileCreateInterface hw t walk env x.pdev items type)
      (NodesMade t walk x w₀) w := by
  unfold fileCreateInterface
  rw [Act.wp_bind, Act.wp_read, Act.andThen_some, stage.owner]
  exact createMembers_step items 0 nodes small attended position stage

/-- The nodes of each table have its numbers, and there is a minor for each. -/
structure Tables.Fit (t : Tables) : Prop where
  config : ∀ item ∈ t.configItems, InTable t 0 item.devId
  register : ∀ item ∈ t.registerItems, InTable t 1 item.devId
  ifwi : ∀ item ∈ t.ifwiItems, InTable t 2 item.devId
  small : t.itemIfwiMax ≤ XGPU_MINOR_COUNT

theorem tables_fit : Tables.Fit tables := ⟨by decide, by decide, by decide, by decide⟩

/-- How xpdev_create_interfaces ends: it is cut off, it fails and leaves no nodes, or
the nodes are there. -/
def InterfacesMade (t : Tables) (walk : Walk) (x : XdevPtr) (w₀ : World) (v : Option Int)
    (w : World) : Prop :=
  ∃ maps, Stage t x w₀ maps w ∧
    match v with
    | none => walk = .poison
    | some rv => rv = 0 ∨ rv = -1 ∧ ∀ type, (w.dev x.pdev).xpdev.listHead type = []

theorem createFailed_step {walk : Walk} (attended : AttendedIfPresent hw x.pdev (w₀.dev x.pdev))
    (stage : Stage t x w₀ maps w) :
    Act.wp (LawfulOn hw E x.pdev w₀) (do xpdevDestroyInterfaces t walk x.pdev; return (-1 : Int))
      (InterfacesMade t walk x w₀) w := by
  rw [Act.wp_bind]
  refine Act.wp_mono (xpdevDestroyInterfaces_step attended stage) ?_
  intro v w' post
  obtain ⟨stage, _, ends⟩ := post
  cases v with
  | none => exact ⟨maps, stage, ends⟩
  | some _ => exact Act.wp_pure.mpr ⟨maps, stage, .inr ⟨rfl, ends⟩⟩

theorem createTable_step {hw : Dev → PciDev} {walk : Walk} {env : Env} {type : Nat} {items : List Node}
    {next : Int → M Int} (fit : Tables.Fit t) (nodes : ∀ item ∈ items, InTable t type item.devId)
    (attended : AttendedIfPresent hw x.pdev (w₀.dev x.pdev)) (position : ((w₀.dev x.pdev).xdev x).configBarIdx = 1)
    (rest : ∀ maps w, Stage t x w₀ maps w →
      Act.wp (LawfulOn hw E x.pdev w₀) (next 0) (InterfacesMade t walk x w₀) w)
    (stage : Stage t x w₀ maps w) :
    Act.wp (LawfulOn hw E x.pdev w₀)
      (do
        let ret ← fileCreateInterface hw t walk env x.pdev items type
        if ret ≠ 0 then
          xpdevDestroyInterfaces t walk x.pdev
          return -1
        else next ret)
      (InterfacesMade t walk x w₀) w := by
  rw [Act.wp_bind]
  refine Act.wp_mono (fileCreateInterface_step _ nodes fit.small attended position stage) ?_
  intro v w₁ post
  obtain ⟨maps₁, stage, ends⟩ := post
  cases v with
  | none => exact ⟨maps₁, stage, ends⟩
  | some rv =>
    obtain rfl | rfl := ends
    · rw [Act.andThen_some, if_neg (by decide)]
      exact rest maps₁ w₁ stage
    · rw [Act.andThen_some, if_pos (by decide)]
      exact createFailed_step attended stage

theorem xpdevCreateInterfaces_step {hw : Dev → PciDev} {walk : Walk} {env : Env} (fit : Tables.Fit t)
    (attended : AttendedIfPresent hw x.pdev (w₀.dev x.pdev)) (position : ((w₀.dev x.pdev).xdev x).configBarIdx = 1)
    (stage : Stage t x w₀ maps w) :
    Act.wp (LawfulOn hw E x.pdev w₀) (xpdevCreateInterfaces hw t walk env x.pdev)
      (InterfacesMade t walk x w₀) w := by
  unfold xpdevCreateInterfaces
  apply createTable_step fit fit.config attended position _ stage
  intro maps w stage
  apply createTable_step fit fit.register attended position _ stage
  intro maps w stage
  apply createTable_step fit fit.ifwi attended position _ stage
  intro maps w stage
  exact Act.wp_pure.mpr ⟨maps, stage, .inl rfl⟩

end

end PcieUtil.Driver.Nodes
