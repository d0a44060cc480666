import PcieUtil.Driver.Books

/-! The books while the nodes of a device are made: what each step of create_xcdev adds
to them, and what a step that fails leaves in them. -/

namespace PcieUtil.Driver.Creation
open Lib.Action Lib.Bytes State Kernel ConfigFile RegisterFile Interfaces Nodes Books

/-- The device ids of each table are those of its nodes. -/
structure Tables.Placed (t : Tables) : Prop where
  config : ∀ item ∈ t.configItems, InTable t 0 item.devId
  register : ∀ item ∈ t.registerItems, InTable t 1 item.devId
  ifwi : ∀ item ∈ t.ifwiItems, InTable t 2 item.devId

/-- Where a node that cannot be made fails. -/
inductive Failure where
  | kmalloc
  | later
  deriving DecidableEq

/-- No step behind kmalloc fails; alloc_chrdev_region is one of them for the first node. -/
def StepsSucceed (env : Env) (first : Bool) (devId : Nat) : Prop :=
  (first = true → env.errno (.allocChrdevRegion devId) = 0) ∧ env.errno (.kobjectSetName devId) = 0 ∧
    env.errno (.cdevAdd devId) = 0

instance (env : Env) (first : Bool) (devId : Nat) : Decidable (StepsSucceed env first devId) :=
  inferInstanceAs (Decidable (_ ∧ _))

/-- The first failure among the steps of the nodes. -/
def failure (env : Env) (first : Bool) : List Node → Option Failure
  | [] => none
  | item :: rest =>
      if env.errno (.kmallocMember item.devId) ≠ 0 then some .kmalloc
      else if StepsSucceed env first item.devId then failure env false rest
      else some .later

/-- alloc_chrdev_region succeeds for the first node. -/
def Allocates (env : Env) : List Node → Prop
  | [] => False
  | item :: _ => env.errno (.kmallocMember item.devId) = 0 ∧ env.errno (.allocChrdevRegion item.devId) = 0

instance (env : Env) (items : List Node) : Decidable (Allocates env items) :=
  match items with
  | [] => inferInstanceAs (Decidable False)
  | _ :: _ => inferInstanceAs (Decidable (_ ∧ _))

/-- The major number behind the step of a node that allocates one for the first node. -/
def majorAfter (env : Env) (devId before : Nat) : Nat :=
  if before = 0 ∧ env.errno (.allocChrdevRegion devId) = 0 then env.major.number else before

/-- The major number after the making of some nodes. -/
def majorMade (env : Env) (items : List Node) (before : Nat) : Nat :=
  match items with
  | [] => before
  | item :: _ =>
      if env.errno (.kmallocMember item.devId) = 0 then majorAfter env item.devId before else before

/-- A refused region is a failed step. -/
theorem steps_refused {env : Env} {devId before : Nat}
    (refused : before = 0 ∧ env.errno (.allocChrdevRegion devId) ≠ 0) :
    ¬ StepsSucceed env (decide (before = 0)) devId :=
  fun succeed => refused.2 (succeed.1 (decide_eq_true refused.1))

/-- With region and name there, cdev_add decides. -/
theorem steps_iff_added {env : Env} {devId before : Nat}
    (accepted : ¬ (before = 0 ∧ env.errno (.allocChrdevRegion devId) ≠ 0))
    (name_set : env.errno (.kobjectSetName devId) = 0) :
    StepsSucceed env (decide (before = 0)) devId ↔ env.errno (.cdevAdd devId) = 0 := by
  have region : decide (before = 0) = true → env.errno (.allocChrdevRegion devId) = 0 := by
    intro unset
    by_contra failed
    exact accepted ⟨of_decide_eq_true unset, failed⟩
  exact ⟨fun succeed => succeed.2.2, fun added => ⟨region, name_set, added⟩⟩

theorem majorAfter_ne_zero {env : Env} {devId before : Nat} :
    majorAfter env devId before ≠ 0 ↔ before ≠ 0 ∨ env.errno (.allocChrdevRegion devId) = 0 := by
  have positive := env.major.positive
  unfold majorAfter
  split <;> omega

/-- A major number is kept. -/
theorem majorMade_set {env : Env} {before : Nat} (set : before ≠ 0) (items : List Node) :
    majorMade env items before = before := by
  unfold majorMade majorAfter
  split
  · rfl
  · split
    · exact if_neg fun both => set both.1
    · rfl

/-- The first node allocates the number, or none does. -/
theorem majorMade_fresh (env : Env) (items : List Node) :
    Allocates env items ∧ majorMade env items 0 = env.major.number ∨
      ¬ Allocates env items ∧ majorMade env items 0 = 0 := by
  cases items with
  | nil => exact .inr ⟨id, rfl⟩
  | cons item rest =>
    unfold Allocates majorMade majorAfter
    by_cases allocated : env.errno (.kmallocMember item.devId) = 0
    · by_cases region : env.errno (.allocChrdevRegion item.devId) = 0 <;> simp [allocated, region]
    · simp [allocated]

/-- What a failure adds to the members that are lost. -/
def Failure.Loses (lost lost' : List MemberPtr) : Failure → Prop
  | .kmalloc => lost' = lost
  | .later => ∃ m, lost' = m :: lost

theorem failure_append (env : Env) (first : Bool) (front back : List Node) :
    failure env first (front ++ back) = match failure env first front with
      | some f => some f
      | none => failure env (first && front.isEmpty) back := by
  induction front generalizing first with
  | nil => simp [failure]
  | cons item rest ih =>
    rw [List.cons_append, failure, failure]
    split
    · rfl
    · split
      · rw [ih]
        simp
      · rfl

section
variable {t : Tables} {x : XdevPtr} {lost : List MemberPtr} {s s' : DevState} {m : MemberPtr}
  {w₀ w w' : World} {type devId : Nat} {env : Env} {c : XgpuCdev}

/-- The devices s and s' differ in nothing that the books say of members other than m. -/
structure Beside (m : MemberPtr) (s s' : DevState) : Prop where
  owner : s'.xpdev.xdev = s.xpdev.xdev
  lists : s'.xpdev.listHead = s.xpdev.listHead
  memory : s'.memberLive = s.memberLive
  cdevs : s'.cdevs = s.cdevs
  sysDevices : s'.sysDevices = s.sysDevices
  serial : s.serial ≤ s'.serial
  others : ∀ m', m' ≠ m → s'.member m' = s.member m'

theorem Ledger.beside (ledger : Ledger x lost s) (unlisted : m ∉ listed s.xpdev.listHead)
    (beside : Beside m s s') (major : s'.xpdev.major < CHRDEV_MAJOR_MAX) : Ledger x lost s' := by
  have other : ∀ m' ∈ listed s.xpdev.listHead, s'.member m' = s.member m' :=
    fun m' member => beside.others m' fun same => unlisted (same ▸ member)
  constructor
  · rw [beside.owner, ledger.owner]
  · exact major
  · rw [beside.lists]
    exact ledger.three
  · rw [beside.lists]
    intro m' member
    have made := ledger.made m' member
    have same := other m' member
    exact ⟨made.own, Nat.lt_of_lt_of_le made.old beside.serial, same ▸ made.xdev, same ▸ made.device,
      same ▸ made.number⟩
  · rw [beside.lists]
    exact ledger.nodup
  · rw [beside.lists, beside.memory]
    exact ledger.memory
  · rw [beside.lists, beside.cdevs]
    exact ledger.cdevs
  · have numbers : (listed s.xpdev.listHead).map (fun m' => (s'.member m').cdevno) =
        (listed s.xpdev.listHead).map fun m' => (s.member m').cdevno :=
      List.map_congr_left fun m' member => congrArg XgpuCdev.cdevno (other m' member)
    rw [beside.lists, beside.sysDevices, numbers]
    exact ledger.sysDevices

/-- A member that is allocated, but not on its list yet. -/
structure Pending (x : XdevPtr) (w₀ : World) (lost : List MemberPtr) (m : MemberPtr) (c : XgpuCdev)
    (w : World) : Prop where
  book : Book x w₀ (m :: lost) w
  own : m.pdev = x.pdev
  old : m.serial < (w.dev x.pdev).serial
  unlisted : m ∉ listed (w.dev x.pdev).xpdev.listHead
  content : (w.dev x.pdev).member m = c

theorem Pending.beside {c' : XgpuCdev} (pending : Pending x w₀ lost m c w)
    (sysClass : w'.gXgpuClass = w.gXgpuClass) (others : ∀ d, d ≠ x.pdev → w'.dev d = w.dev d)
    (beside : Beside m (w.dev x.pdev) (w'.dev x.pdev))
    (major : deviceMajor x w' < CHRDEV_MAJOR_MAX) (content : (w'.dev x.pdev).member m = c') :
    Pending x w₀ lost m c' w' := by
  refine ⟨⟨sysClass.trans pending.book.sysClass, ?_, fun d other => ?_⟩, pending.own, ?_, ?_, content⟩
  · exact Ledger.beside pending.book.ledger pending.unlisted beside major
  · exact (pending.book.others d other).trans (.of_dev (others d other))
  · exact Nat.lt_of_lt_of_le pending.old beside.serial
  · rw [beside.lists]
    exact pending.unlisted

theorem Pending.setDev {c' : XgpuCdev} (pending : Pending x w₀ lost m c w)
    (beside : Beside m (w.dev x.pdev) s) (major : s.xpdev.major < CHRDEV_MAJOR_MAX)
    (content : s.member m = c') : Pending x w₀ lost m c' (State.setDev w x.pdev s) := by
  have dev : (State.setDev w x.pdev s).dev x.pdev = s := setDev_dev_same w x.pdev s
  have others : ∀ d, d ≠ x.pdev → (State.setDev w x.pdev s).dev d = w.dev d :=
    fun d other => setDev_dev_other w s other
  exact pending.beside rfl others (dev.symm ▸ beside) (deviceMajor_setDev x w s ▸ major) (dev.symm ▸ content)

theorem Beside.refl (m : MemberPtr) (s : DevState) : Beside m s s :=
  ⟨rfl, rfl, rfl, rfl, rfl, Nat.le_refl _, fun _ _ => rfl⟩

/-- A change of globals, which belong to no device. -/
theorem Pending.globals (pending : Pending x w₀ lost m c w) (sysClass : w'.gXgpuClass = w.gXgpuClass)
    (dev : w'.dev = w.dev) : Pending x w₀ lost m c w' := by
  have major := pending.book.ledger.major
  apply pending.beside sysClass
  · exact fun d _ => by rw [dev]
  · rw [dev]
    exact .refl m _
  · rw [deviceMajor, dev]
    exact major
  · rw [dev]
    exact pending.content

/-- Calls that give nothing back. -/
def plainly : World → Call → Prop := fun _ c => Plain c

theorem plainly_sound (t : Tables) (pdev : Dev) :
    ∀ w c, plainly w c → Sound t pdev w c ∧ releases pdev w c = [] := fun _ _ plain => plain.sound

theorem Ledger.allocated (ledger : Ledger x lost s) (m : MemberPtr) :
    Ledger x (m :: lost) { s with memberLive := m :: s.memberLive } where
  owner := ledger.owner
  major := ledger.major
  three := ledger.three
  made m' member :=
    have made := ledger.made m' member
    ⟨made.own, made.old, made.xdev, made.device, made.number⟩
  nodup := ledger.nodup
  memory := (ledger.memory.cons m).trans List.perm_middle.symm
  cdevs := ledger.cdevs
  sysDevices := ledger.sysDevices

theorem kmallocMember_spec (book : Book x w₀ lost w) :
    Act.wp plainly (onDev x.pdev (kmallocMember env x.pdev devId)) (Act.returns fun v w' =>
      match v with
      | none => env.errno (.kmallocMember devId) ≠ 0 ∧ w' = w
      | some m => env.errno (.kmallocMember devId) = 0 ∧ Pending x w₀ lost m env.garbage w' ∧
          deviceMajor x w' = deviceMajor x w) w := by
  apply Act.wp_returns_mono (kmallocMember_becomes devId trivial)
  intro v u outcome
  obtain ⟨nothing, refused, same⟩ | ⟨member, ok, same⟩ := outcome
  · rw [nothing]
    exact ⟨refused, same⟩
  · rw [member, same]
    have ledger := book.ledger
    generalize made : (⟨x.pdev, (w.dev x.pdev).serial⟩ : MemberPtr) = m
    have serial : m.serial = (w.dev x.pdev).serial := by rw [← made]
    have unlisted : m ∉ listed (w.dev x.pdev).xpdev.listHead := by
      intro member
      have old := (ledger.made m member).old
      omega
    refine ⟨ok, ⟨book.setDev ?_, ?_, ?_, ?_, ?_⟩, ?_⟩
    · apply Ledger.beside (Ledger.allocated ledger m) unlisted
      · exact ⟨rfl, rfl, rfl, rfl, rfl, Nat.le_succ _, fun m' other => Function.update_of_ne other _ _⟩
      · exact ledger.major
    · rw [← made]
    · rw [setDev_dev_same, serial]
      exact Nat.lt_succ_self _
    · rw [setDev_dev_same]
      exact unlisted
    · rw [setDev_dev_same]
      exact Function.update_self _ _ _
    · rw [deviceMajor, deviceMajor, setDev_dev_same]
      rfl

theorem storeMember_spec (pending : Pending x w₀ lost m c w) (change : XgpuCdev → XgpuCdev) :
    Act.wp plainly (onDev x.pdev (storeMember m change)) (Act.returns fun _ w' =>
      Pending x w₀ lost m (change c) w' ∧ deviceMajor x w' = deviceMajor x w) w := by
  have major := pending.book.ledger.major
  rw [storeMember, wp_onDev_update, Act.returns_some]
  refine ⟨pending.setDev ?_ ?_ ?_, ?_⟩
  · exact ⟨rfl, rfl, rfl, rfl, rfl, Nat.le_refl _, fun m' other => Function.update_of_ne other _ _⟩
  · exact major
  · rw [← pending.content]
    exact Function.update_self _ _ _
  · exact deviceMajor_setDev _ _ _

theorem allocMajor_spec (pending : Pending x w₀ lost m c w) :
    Act.wp plainly (allocMajor env x.pdev devId) (Act.returns fun rv w' => Pending x w₀ lost m c w' ∧
      deviceMajor x w' = majorAfter env devId (deviceMajor x w) ∧
        if deviceMajor x w = 0 ∧ env.errno (.allocChrdevRegion devId) ≠ 0 then rv < 0 else rv = 0) w := by
  apply Act.wp_returns_mono (allocMajor_becomes devId trivial)
  intro rv u outcome
  obtain ⟨set, zero, same⟩ | ⟨unset, ok, zero, same⟩ | ⟨unset, refused, failed, same⟩ := outcome
  · have set : deviceMajor x w ≠ 0 := set
    rw [same, if_neg fun both => set both.1, majorAfter, if_neg fun both => set both.1]
    exact ⟨pending, rfl, zero⟩
  · have unset : deviceMajor x w = 0 := unset
    rw [same, if_neg fun both => both.2 ok, majorAfter, if_pos ⟨unset, ok⟩]
    refine ⟨pending.setDev ?_ ?_ ?_, ?_, zero⟩
    · exact ⟨rfl, rfl, rfl, rfl, rfl, Nat.le_refl _, fun _ _ => rfl⟩
    · exact env.major.below
    · exact pending.content
    · exact deviceMajor_setDev _ _ _
  · have unset : deviceMajor x w = 0 := unset
    rw [same, if_pos ⟨unset, refused⟩, majorAfter, if_neg fun both => refused both.2]
    exact ⟨pending, rfl, failed⟩

theorem configKobject_spec (node : InTable t type devId) (pending : Pending x w₀ lost m c w) :
    Act.wp plainly (configKobject t env m x devId) (Act.returns fun rv w' =>
      Pending x w₀ lost m c w' ∧ deviceMajor x w' = deviceMajor x w ∧
        (rv < 0 ↔ env.errno (.kobjectSetName devId) ≠ 0)) w := by
  apply Act.wp_returns_mono (configKobject_becomes node fun _ => trivial)
  intro rv u post
  obtain ⟨named, names, same, _⟩ := post
  rw [same]
  exact ⟨pending.globals rfl rfl, rfl, named⟩

theorem cdevInit_spec (pending : Pending x w₀ lost m c w) (ops : FileOps) :
    Act.wp plainly (cdevInit m ops) (Act.returns fun _ w' =>
      Pending x w₀ lost m { c with owner := false, ops := some ops } w' ∧
        deviceMajor x w' = deviceMajor x w) w := by
  rw [cdevInit, pending.own, Act.wp_bind, Act.wp_update, Act.andThen_some]
  have renamed : Pending x w₀ lost m c { w with kobjName := Function.update w.kobjName m none } :=
    pending.globals rfl rfl
  exact storeMember_spec renamed _

/-- The init routines change the operations of the member only. -/
theorem initXcdev_spec {hw : Dev → PciDev} (pending : Pending x w₀ lost m c w) :
    Act.wp plainly (initXcdev hw t env m x devId) (Act.returns fun _ w' =>
      ∃ c', c'.xdev = c.xdev ∧ Pending x w₀ lost m c' w' ∧ deviceMajor x w' = deviceMajor x w) w := by
  unfold initXcdev
  split
  · apply Act.wp_seq (cdevInit_spec pending .config)
    intro _ u post
    obtain ⟨pending, major⟩ := post
    have nothing : ∀ k < 0, u.configData k = (u.dev x.pdev).config k :=
      fun k below => absurd below (Nat.not_lt_zero k)
    apply Act.wp_returns_mono (Snapshot.fillSnapshot_step PCI_CONFIG_SIZE 0 (fun _ _ _ => trivial) nothing)
    intro _ w' post
    obtain ⟨data, same, _⟩ := post
    rw [same]
    exact ⟨{ c with owner := false, ops := some .config }, rfl, pending.globals rfl rfl, major⟩
  · split
    · apply Act.wp_seq (cdevInit_spec pending .register)
      intro _ u post
      obtain ⟨pending, major⟩ := post
      refine Act.wp_returns_mono (P := fun _ w' => Pending x w₀ lost m
        { c with owner := false, ops := some .register } w' ∧ deviceMajor x w' = deviceMajor x w) ?_
        fun _ _ after => ⟨{ c with owner := false, ops := some .register }, rfl, after⟩
      have below := pending.book.ledger.major
      simp only [pciIomap, Act.wp_bind, wp_onDev_call]
      refine ⟨trivial, ?_⟩
      by_cases ok : (hw x.pdev).resourceLen REGISTER_BAR ≠ 0 ∧ env.errno (.iomapRegister devId) = 0
      · simp only [if_pos ok, Act.andThen_some, Act.wp_update, Act.returns_some]
        refine ⟨Pending.globals (pending.setDev ?_ ?_ ?_) rfl rfl, ?_⟩
        · exact ⟨rfl, rfl, rfl, rfl, rfl, Nat.le_succ _, fun _ _ => rfl⟩
        · exact below
        · exact pending.content
        · exact (deviceMajor_setDev _ _ _).trans major
      · simp only [if_neg ok, Act.andThen_some, Act.wp_update, Act.returns_some, setDev_self]
        exact ⟨pending.globals rfl rfl, major⟩
    · split
      · apply Act.wp_returns_mono (cdevInit_spec pending .ctrl)
        intro _ w' after
        exact ⟨{ c with owner := false, ops := some .ctrl }, rfl, after⟩
      · exact Act.wp_pure.mpr ⟨c, rfl, pending, rfl⟩

/-- The device with a pending member finished, registered and at the end of its list. -/
def finished (s : DevState) (type : Nat) (m : MemberPtr) (cdevno : BitVec 32) (sysDevice : SysDevice)
    (all : List (BitVec 32)) : DevState :=
  appended { stored s m (fun c => { c with sysDevice := sysDevice }) with
    cdevs := (cdevno, m) :: s.cdevs, sysDevices := all } type m

theorem listed_appended (s : DevState) (small : type < 3) (m : MemberPtr) :
    (listed (appended s type m).xpdev.listHead).Perm (m :: listed s.xpdev.listHead) := by
  have lists : (appended s type m).xpdev.listHead =
      Function.update s.xpdev.listHead type (s.xpdev.listHead type ++ [m]) := rfl
  have ends : ((appended s type m).xpdev.listHead type).Perm (m :: s.xpdev.listHead type) := by
    rw [lists, Function.update_self]
    exact List.perm_append_singleton _ _
  have back := listed_update small ends
  rw [lists, Function.update_idem, Function.update_eq_self] at back
  exact back

theorem numbers_cons {members members' : MemberPtr → XgpuCdev} {ms ms' : List MemberPtr}
    (perm : ms'.Perm (m :: ms)) (same : ∀ m' ∈ ms, members' m' = members m') :
    (ms'.map fun m' => (members' m').cdevno).Perm
      ((members' m).cdevno :: ms.map fun m' => (members m').cdevno) := by
  have mapped := perm.map fun m' => (members' m').cdevno
  rw [List.map_cons] at mapped
  rw [List.map_congr_left fun m' there => congrArg XgpuCdev.cdevno (same m' there)] at mapped
  exact mapped

/-- A finished member is lost no longer. -/
theorem Pending.finish (pending : Pending x w₀ lost m c w) {sysDevice : SysDevice} {all : List (BitVec 32)}
    (small : type < 3) (owner : c.xdev = some x)
    (number : ∃ major devId, 0 < major ∧ major < CHRDEV_MAJOR_MAX ∧ c.cdevno = mkdev major devId)
    (device : sysDevice ≠ .null)
    (devices : all = (w.dev x.pdev).sysDevices ∨ all = c.cdevno :: (w.dev x.pdev).sysDevices) :
    Ledger x lost (finished (w.dev x.pdev) type m c.cdevno sysDevice all) := by
  generalize dev : w.dev x.pdev = s at *
  generalize after : finished s type m c.cdevno sysDevice all = s'
  have ledger : Ledger x (m :: lost) s := dev ▸ pending.book.ledger
  have unlisted : m ∉ listed s.xpdev.listHead := dev ▸ pending.unlisted
  have content : s.member m = c := dev ▸ pending.content
  have old : m.serial < s.serial := dev ▸ pending.old
  have lists : s'.xpdev.listHead =
      Function.update s.xpdev.listHead type (s.xpdev.listHead type ++ [m]) := by
    rw [← after]
    rfl
  have member : s'.member = Function.update s.member m { c with sysDevice := sysDevice } := by
    rw [← after, ← content]
    rfl
  have here : s'.member m = { c with sysDevice := sysDevice } := by rw [member, Function.update_self]
  have other : ∀ m' ∈ listed s.xpdev.listHead, s'.member m' = s.member m' := by
    intro m' there
    have different : m' ≠ m := fun same => unlisted (same ▸ there)
    rw [member, Function.update_of_ne different]
  have perm : (listed s'.xpdev.listHead).Perm (m :: listed s.xpdev.listHead) := by
    rw [← after]
    exact listed_appended _ small m
  constructor
  · rw [← after]
    exact ledger.owner
  · rw [← after]
    exact ledger.major
  · intro type' high
    have different : type' ≠ type := by omega
    rw [lists, Function.update_of_ne different]
    exact ledger.three type' high
  · intro m' there
    have serial : s'.serial = s.serial := by
      rw [← after]
      rfl
    rcases List.mem_cons.mp (perm.subset there) with same | before
    · rw [same]
      refine ⟨pending.own, serial.symm ▸ old, ?_, ?_, ?_⟩
      · rw [here]
        exact owner
      · rw [here]
        exact device
      · rw [here]
        exact number
    · have made := ledger.made m' before
      have same := other m' before
      exact ⟨made.own, serial.symm ▸ made.old, same ▸ made.xdev, same ▸ made.device, same ▸ made.number⟩
  · exact perm.nodup_iff.mpr (List.nodup_cons.mpr ⟨unlisted, ledger.nodup⟩)
  · have memory : s'.memberLive = s.memberLive := by
      rw [← after]
      rfl
    rw [memory]
    exact ledger.memory.trans (List.perm_middle.trans (perm.symm.append_right lost))
  · intro entry there
    have registered : entry ∈ (c.cdevno, m) :: s.cdevs := by
      rw [← after] at there
      exact there
    rcases List.mem_cons.mp registered with same | before
    · rw [same]
      exact perm.symm.subset List.mem_cons_self
    · exact perm.symm.subset (List.mem_cons_of_mem _ (ledger.cdevs entry before))
  · have devices' : s'.sysDevices = all := by
      rw [← after]
      rfl
    have numbers := numbers_cons perm other
    rw [here] at numbers
    rw [devices', numbers.subperm_left]
    obtain rfl | rfl := devices
    · exact ledger.sysDevices.cons_right _
    · exact (List.subperm_cons _).mpr ledger.sysDevices

/-- The member is ready for its list. -/
def NodeMade (x : XdevPtr) (w₀ : World) (lost : List MemberPtr) (type : Nat) (m : MemberPtr)
    (w : World) : Prop :=
  Book x w₀ lost (setDev w x.pdev (appended (w.dev x.pdev) type m))

theorem addXcdev_audit (node : InTable t type devId) (pending : Pending x w₀ lost m c w)
    (owner : c.xdev = some x)
    (number : ∃ major devId, 0 < major ∧ major < CHRDEV_MAJOR_MAX ∧ c.cdevno = mkdev major devId) :
    Act.audit (Sound t x.pdev) (releases x.pdev) (addXcdev t env x.pdev x m devId c.cdevno)
      (fun v w' picked => ∃ rv, v = some rv ∧ deviceMajor x w' = deviceMajor x w ∧
        if env.errno (.cdevAdd devId) = 0 then rv = 0 ∧ NodeMade x w₀ lost type m w' ∧ picked = []
        else rv < 0 ∧ Book x w₀ (m :: lost) w') w := by
  have small : type < 3 := node.kind
  unfold addXcdev
  simp only [cdevAdd, Act.audit_bind, audit_onDev_call]
  refine ⟨trivial, ?_⟩
  by_cases added : env.errno (.cdevAdd devId) = 0
  · simp only [if_pos added, Act.thenCollects_some]
    rw [if_neg (Int.lt_irrefl 0), Act.audit_bind, Act.audit_read, Act.thenCollects_some,
      setDev_gXgpuClass, pending.book.sysClass, if_pos rfl]
    apply Act.audit_seq (createSysDevice_step node pending.own fun _ _ => trivial) (plainly_sound t x.pdev)
    intro rv w' post
    obtain ⟨zero, sysDevice, device, all, devices, same⟩ := post
    rw [zero, if_neg (Int.lt_irrefl 0), Act.audit_pure]
    rw [setDev_setDev, setDev_dev_same] at same
    rw [setDev_dev_same] at devices
    have content : ((w.dev x.pdev).member m).cdevno = c.cdevno := congrArg _ pending.content
    have ledger := pending.finish small owner number device (content ▸ devices)
    refine ⟨0, rfl, ?_, rfl, ?_, rfl⟩
    · rw [same]
      exact deviceMajor_setDev _ _ _
    · rw [NodeMade, same, setDev_dev_same, setDev_setDev]
      exact pending.book.setDev ledger
  · have failed : env.rv (.cdevAdd devId) < 0 := rv_neg added
    simp only [if_neg added, Act.thenCollects_some, setDev_self]
    rw [if_pos failed]
    simp only [unregisterChrdevRegion, Act.audit_bind, audit_onDev_call, Act.thenCollects_some,
      Act.audit_pure]
    exact ⟨trivial, _, rfl, deviceMajor_setDev _ _ _, failed, pending.book.unregistered _⟩

/-- create_xcdev: the member is ready for its list when no step fails, and lost otherwise. -/
theorem createXcdev_audit {hw : Dev → PciDev} {bar : Int} (node : InTable t type devId)
    (pending : Pending x w₀ lost m c w) :
    Act.audit (Sound t x.pdev) (releases x.pdev) (createXcdev hw t env x.pdev x m bar devId)
      (fun v w' picked => ∃ rv, v = some rv ∧
        deviceMajor x w' = majorAfter env devId (deviceMajor x w) ∧
        if StepsSucceed env (decide (deviceMajor x w = 0)) devId then
          rv = 0 ∧ NodeMade x w₀ lost type m w' ∧ picked = []
        else rv < 0 ∧ Book x w₀ (m :: lost) w' ∧ (deviceMajor x w' = 0 → picked = [])) w := by
  unfold createXcdev
  apply Act.audit_seq (allocMajor_spec pending) (plainly_sound t x.pdev)
  intro rv w₁ post
  obtain ⟨pending, major, ends⟩ := post
  by_cases refused : deviceMajor x w = 0 ∧ env.errno (.allocChrdevRegion devId) ≠ 0
  · rw [if_pos refused] at ends
    rw [if_pos (by omega), Act.audit_pure]
    refine ⟨rv, rfl, major, ?_⟩
    rw [if_neg (steps_refused refused)]
    exact ⟨ends, pending.book, fun _ => rfl⟩
  · rw [if_neg refused] at ends
    have region : deviceMajor x w ≠ 0 ∨ env.errno (.allocChrdevRegion devId) = 0 := by
      by_cases unset : deviceMajor x w = 0
      · exact .inr (by_contra fun failed => refused ⟨unset, failed⟩)
      · exact .inl unset
    have below := pending.book.ledger.major
    have set : deviceMajor x w₁ ≠ 0 := by
      rw [major]
      exact majorAfter_ne_zero.mpr region
    rw [if_neg (not_not.mpr ends)]
    apply Act.audit_seq (storeMember_spec pending _) (plainly_sound t x.pdev)
    intro _ w₂ post
    obtain ⟨pending, same₂⟩ := post
    apply Act.audit_seq (configKobject_spec node pending) (plainly_sound t x.pdev)
    intro rv w₃ post
    obtain ⟨pending, same₃, named⟩ := post
    by_cases unnamed : rv < 0
    · have steps : ¬ StepsSucceed env (decide (deviceMajor x w = 0)) devId :=
        fun succeed => named.mp unnamed succeed.2.1
      rw [if_pos unnamed, Act.audit_pure]
      refine ⟨rv, rfl, by rw [same₃, same₂, major], ?_⟩
      rw [if_neg steps]
      exact ⟨unnamed, pending.book, fun _ => rfl⟩
    · have name_set : env.errno (.kobjectSetName devId) = 0 := by
        by_contra failed
        exact unnamed (named.mpr failed)
      rw [if_neg unnamed]
      apply Act.audit_seq (initXcdev_spec pending) (plainly_sound t x.pdev)
      intro _ w₄ post
      obtain ⟨c', owner, pending, same₄⟩ := post
      rw [Act.audit_bind, Act.audit_read, Act.thenCollects_some]
      apply Act.audit_seq (storeMember_spec pending _) (plainly_sound t x.pdev)
      intro _ w₅ post
      obtain ⟨pending, same₅⟩ := post
      have major₄ : deviceMajor x w₄ = deviceMajor x w₁ := by rw [same₄, same₃, same₂]
      have number : ∃ major number, 0 < major ∧ major < CHRDEV_MAJOR_MAX ∧
          mkdev (w₄.dev x.pdev).xpdev.major devId = mkdev major number := by
        refine ⟨deviceMajor x w₄, devId, ?_, ?_, rfl⟩
        · rw [major₄]
          exact Nat.pos_of_ne_zero set
        · rw [major₄]
          exact below
      apply Act.audit_mono (addXcdev_audit node pending owner number)
      intro v w' picked post
      obtain ⟨rv, value, same, added⟩ := post
      have kept : deviceMajor x w' ≠ 0 := by
        rw [same, same₅, major₄]
        exact set
      refine ⟨rv, value, by rw [same, same₅, major₄, major], ?_⟩
      have steps := steps_iff_added refused name_set
      by_cases ok : env.errno (.cdevAdd devId) = 0
      · rw [if_pos ok] at added
        rw [if_pos (steps.mpr ok)]
        exact added
      · rw [if_neg ok] at added
        rw [if_neg fun succeed => ok (steps.mp succeed)]
        exact ⟨added.1, added.2, fun unset => absurd unset kept⟩

/-- How the making of the nodes of a table ends. -/
structure MembersMade (env : Env) (x : XdevPtr) (w₀ : World) (lost : List MemberPtr)
    (items : List Node) (w : World) (v : Option Int) (w' : World) (picked : List Release) : Prop where
  major : deviceMajor x w' = majorMade env items (deviceMajor x w)
  ends : match failure env (decide (deviceMajor x w = 0)) items with
    | none => v = some 0 ∧ Book x w₀ lost w' ∧ picked = []
    | some f => v = some (-1) ∧ (∃ lost', f.Loses lost lost' ∧ Book x w₀ lost' w') ∧
        (deviceMajor x w' = 0 → picked = [])

/-- The cleanup behind a node that cannot be made. -/
theorem failed_audit {f : Failure} (lost' : List MemberPtr) (loses : f.Loses lost lost')
    (book : Book x w₀ lost' w) (before : List Release) (clean : deviceMajor x w = 0 → before = []) :
    Act.audit (Sound t x.pdev) (releases x.pdev)
      (do fileDestroyInterfaces t .every x.pdev type; return (-1 : Int))
      (fun v w' more => v = some (-1) ∧ deviceMajor x w' = deviceMajor x w ∧
        (∃ lost', f.Loses lost lost' ∧ Book x w₀ lost' w') ∧
          (deviceMajor x w' = 0 → before ++ more = [])) w := by
  rw [Act.audit_bind]
  apply Act.audit_mono (fileDestroyInterfaces_audit type book)
  intro v w' picked post
  obtain ⟨done, emptied, none_picked⟩ := post
  subst done none_picked
  rw [Act.thenCollects_some, Act.audit_pure]
  refine ⟨rfl, emptied.major, ⟨lost', loses, emptied.book⟩, fun unset => ?_⟩
  have same : deviceMajor x w' = deviceMajor x w := emptied.major
  rw [clean (same ▸ unset)]
  rfl

theorem createMembers_audit {hw : Dev → PciDev} (items : List Node) (ii : Nat)
    (nodes : ∀ item ∈ items, InTable t type item.devId) (book : Book x w₀ lost w) :
    Act.audit (Sound t x.pdev) (releases x.pdev) (createMembers hw t .every env x.pdev x type items ii)
      (MembersMade env x w₀ lost items w) w := by
  induction items generalizing w ii with
  | nil => exact Act.audit_pure.mpr ⟨rfl, rfl, book, rfl⟩
  | cons item rest ih =>
    have node : InTable t type item.devId := nodes item List.mem_cons_self
    have later : ∀ item ∈ rest, InTable t type item.devId := fun item there =>
      nodes item (List.mem_cons_of_mem _ there)
    apply Act.audit_seq (kmallocMember_spec book) (plainly_sound t x.pdev)
    intro v w₁ outcome
    cases v with
    | none =>
      obtain ⟨failed, same⟩ := outcome
      subst same
      have stops : failure env (decide (deviceMajor x w₁ = 0)) (item :: rest) = some .kmalloc := by
        rw [failure, if_pos failed]
      apply Act.audit_mono (failed_audit (f := .kmalloc) lost rfl book [] fun _ => rfl)
      intro v w' picked post
      obtain ⟨value, same, loses, clean⟩ := post
      refine ⟨?_, ?_⟩
      · rw [same, majorMade, if_neg failed]
      · rw [stops]
        exact ⟨value, loses, clean⟩
    | some m =>
      obtain ⟨allocated, pending, same₁⟩ := outcome
      rw [loadXdev, onDev, Act.audit_bind, Act.audit_zoom, Act.audit_read, Act.thenCollects_some,
        setDev_self, Act.audit_bind]
      apply Act.audit_mono (createXcdev_audit node pending)
      intro v w₂ picked post
      obtain ⟨rv, value, major, created⟩ := post
      subst value
      rw [same₁] at major created
      have goes_on : ¬ env.errno (.kmallocMember item.devId) ≠ 0 := not_not.mpr allocated
      have step : deviceMajor x w₂ = majorMade env (item :: rest) (deviceMajor x w) := by
        rw [major, majorMade, if_pos allocated]
      by_cases succeed : StepsSucceed env (decide (deviceMajor x w = 0)) item.devId
      · rw [if_pos succeed] at created
        obtain ⟨zero, made, none_picked⟩ := created
        subst zero none_picked
        have set : deviceMajor x w₂ ≠ 0 := by
          rw [major, majorAfter_ne_zero]
          by_cases unset : deviceMajor x w = 0
          · exact .inr (succeed.1 (decide_eq_true unset))
          · exact .inl unset
        rw [Act.thenCollects_some, if_neg (Int.lt_irrefl 0), Act.audit_bind, listAddTail, storeXpdev,
          audit_onDev_update, Act.thenCollects_some]
        have made_major : deviceMajor x (setDev w₂ x.pdev (appended (w₂.dev x.pdev) type m)) =
            deviceMajor x w₂ := deviceMajor_setDev _ _ _
        apply Act.audit_mono (ih (ii + 1) later made)
        intro v w' picked post
        obtain ⟨after, ends⟩ := post
        rw [made_major] at after ends
        have rest_ends : failure env (decide (deviceMajor x w = 0)) (item :: rest) =
            failure env (decide (deviceMajor x w₂ = 0)) rest := by
          rw [failure, if_neg goes_on, if_pos succeed, decide_eq_false set]
        refine ⟨?_, ?_⟩
        · rw [after, majorMade_set set, step]
        · rw [rest_ends]
          exact ends
      · rw [if_neg succeed] at created
        obtain ⟨negative, book, clean⟩ := created
        have stops : failure env (decide (deviceMajor x w = 0)) (item :: rest) = some .later := by
          rw [failure, if_neg goes_on, if_neg succeed]
        rw [Act.thenCollects_some, if_pos negative]
        apply Act.audit_mono (failed_audit (f := .later) _ ⟨m, rfl⟩ book picked clean)
        intro v w' more post
        obtain ⟨value, same, loses, clean⟩ := post
        refine ⟨?_, ?_⟩
        · rw [same]
          exact step
        · rw [stops]
          exact ⟨value, loses, clean⟩

/-- How the making of all nodes ends. A failure takes all lists down, and gives the number range
back if there is one. -/
structure InterfacesMade (env : Env) (x : XdevPtr) (w₀ : World) (lost : List MemberPtr)
    (items : List Node) (w : World) (v : Option Int) (w' : World) (picked : List Release) : Prop where
  major : deviceMajor x w' = majorMade env items (deviceMajor x w)
  ends : match failure env (decide (deviceMajor x w = 0)) items with
    | none => v = some 0 ∧ Book x w₀ lost w' ∧ picked = []
    | some f => v = some (-1) ∧ (∃ lost', f.Loses lost lost' ∧ Book x w₀ lost' w') ∧
        (∀ type, (w'.dev x.pdev).xpdev.listHead type = []) ∧ (deviceMajor x w' = 0 → picked = []) ∧
        (deviceMajor x w' ≠ 0 → ⟨mkdev (deviceMajor x w') 0, XGPU_MINOR_COUNT, true⟩ ∈ picked)

/-- What the nodes of a table that could be made leave to the next table. -/
theorem failure_next {front : List Node} (back : List Node) {before : Nat}
    (made : failure env (decide (before = 0)) front = none) :
    failure env (decide (before = 0)) (front ++ back) =
        failure env (decide (majorMade env front before = 0)) back ∧
      majorMade env (front ++ back) before = majorMade env back (majorMade env front before) := by
  rw [failure_append, made]
  cases front with
  | nil =>
    refine ⟨?_, rfl⟩
    change failure env (decide (before = 0) && true) back = failure env (decide (before = 0)) back
    rw [Bool.and_true]
  | cons item rest =>
    have set : majorMade env (item :: rest) before ≠ 0 := by
      rw [failure] at made
      split at made
      · cases made
      · next allocated =>
        rw [majorMade, if_pos (not_not.mp allocated), majorAfter_ne_zero]
        split at made
        · next succeed =>
          by_cases unset : before = 0
          · exact .inr (succeed.1 (decide_eq_true unset))
          · exact .inl unset
        · cases made
    refine ⟨?_, ?_⟩
    · simp [set]
    · rw [majorMade_set set]
      rfl

theorem failure_here {front : List Node} (back : List Node) {first : Bool} {f : Failure}
    (failed : failure env first front = some f) : failure env first (front ++ back) = some f ∧
      ∀ before, majorMade env (front ++ back) before = majorMade env front before := by
  cases front with
  | nil => cases failed
  | cons item rest => exact ⟨by rw [failure_append, failed], fun _ => rfl⟩

/-- The cleanup behind a table that cannot be made. -/
theorem createFailed_audit {f : Failure} (loses : ∃ lost', f.Loses lost lost' ∧ Book x w₀ lost' w)
    (before : List Release) (clean : deviceMajor x w = 0 → before = []) :
    Act.audit (Sound t x.pdev) (releases x.pdev)
      (do xpdevDestroyInterfaces t .every x.pdev; return (-1 : Int))
      (fun v w' more => deviceMajor x w' = deviceMajor x w ∧ v = some (-1) ∧
        (∃ lost', f.Loses lost lost' ∧ Book x w₀ lost' w') ∧
        (∀ type, (w'.dev x.pdev).xpdev.listHead type = []) ∧
        (deviceMajor x w' = 0 → before ++ more = []) ∧
        (deviceMajor x w' ≠ 0 → ⟨mkdev (deviceMajor x w') 0, XGPU_MINOR_COUNT, true⟩ ∈ before ++ more)) w := by
  obtain ⟨lost', loses, book⟩ := loses
  rw [Act.audit_bind]
  apply Act.audit_mono (xpdevDestroyInterfaces_audit book)
  intro v w' picked post
  obtain ⟨done, emptied, released⟩ := post
  subst done released
  have same : deviceMajor x w' = deviceMajor x w := emptied.major
  rw [Act.thenCollects_some, Act.audit_pure, List.append_nil]
  refine ⟨same, rfl, ⟨lost', loses, emptied.book⟩, emptied.empty, fun unset => ?_, fun set => ?_⟩
  · rw [same] at unset
    rw [clean unset, lastRelease, if_pos unset]
    rfl
  · rw [same] at set ⊢
    rw [lastRelease, if_neg set]
    exact List.mem_append_right _ (List.mem_singleton.mpr rfl)

theorem createTable_audit {hw : Dev → PciDev} {items back : List Node} {next : Int → M Int}
    (nodes : ∀ item ∈ items, InTable t type item.devId)
    (rest : ∀ w, Book x w₀ lost w → Act.audit (Sound t x.pdev) (releases x.pdev) (next 0)
      (InterfacesMade env x w₀ lost back w) w) (book : Book x w₀ lost w) :
    Act.audit (Sound t x.pdev) (releases x.pdev)
      (do
        let ret ← fileCreateInterface hw t .every env x.pdev items type
        if ret ≠ 0 then
          xpdevDestroyInterfaces t .every x.pdev
          return -1
        else next ret)
      (InterfacesMade env x w₀ lost (items ++ back) w) w := by
  have owner := book.ledger.owner
  rw [Act.audit_bind, fileCreateInterface, Act.audit_bind, Act.audit_read, Act.thenCollects_some, owner]
  apply Act.audit_mono (createMembers_audit items 0 nodes book)
  intro v w₁ picked post
  obtain ⟨major, ends⟩ := post
  cases stops : failure env (decide (deviceMajor x w = 0)) items with
  | some f =>
    rw [stops] at ends
    obtain ⟨value, loses, clean⟩ := ends
    obtain ⟨stops, same_major⟩ := failure_here back stops
    subst value
    rw [Act.thenCollects_some, if_pos (by decide)]
    apply Act.audit_mono (createFailed_audit loses picked clean)
    intro v w' more post
    obtain ⟨same, cleaned⟩ := post
    refine ⟨by rw [same, major, same_major], ?_⟩
    rw [stops]
    exact cleaned
  | none =>
    rw [stops] at ends
    obtain ⟨value, book₁, none_picked⟩ := ends
    obtain ⟨goes_on, next_major⟩ := failure_next back stops
    subst value none_picked
    rw [Act.thenCollects_some, if_neg (by decide)]
    apply Act.audit_mono (rest w₁ book₁)
    intro v w' more post
    obtain ⟨major', ends'⟩ := post
    refine ⟨by rw [major', major, next_major], ?_⟩
    rw [goes_on, ← major]
    exact ends'

theorem xpdevCreateInterfaces_audit {hw : Dev → PciDev} (placed : Tables.Placed t)
    (book : Book x w₀ lost w) :
    Act.audit (Sound t x.pdev) (releases x.pdev) (xpdevCreateInterfaces hw t .every env x.pdev)
      (InterfacesMade env x w₀ lost t.allItems w) w := by
  have order : t.allItems = t.configItems ++ (t.registerItems ++ (t.ifwiItems ++ [])) := by
    rw [List.append_nil, Tables.allItems, List.append_assoc]
  rw [order]
  apply createTable_audit placed.config _ book
  intro w book
  apply createTable_audit placed.register _ book
  intro w book
  apply createTable_audit placed.ifwi _ book
  intro w book
  exact Act.audit_pure.mpr ⟨rfl, rfl, book, rfl⟩

end

end PcieUtil.Driver.Creation
