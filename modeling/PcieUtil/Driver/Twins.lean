import PcieUtil.Driver.Probing

/-! Two runs that show a device the same: whatever the driver does for that device, a probe
included, it does in both, though the other devices, the numbers in the names of the nodes,
the snapshot and the mapping behind the register files may differ. -/

namespace PcieUtil.Driver.Twins
open Lib.Action State Kernel DeviceOpen ConfigFile Interfaces Devices Nodes Probe Probing

/-- Two worlds that show a device the same. -/
structure Twin (pdev : Dev) (w u : World) : Prop where
  dev : w.dev pdev = u.dev pdev
  listed : (w.xdevList.filter fun y => y.pdev = pdev) = u.xdevList.filter fun y => y.pdev = pdev
  sysClass : w.gXgpuClass = u.gXgpuClass

/-- The same, with something known of the device. -/
def TwinWith (P : DevState → Prop) (pdev : Dev) (w u : World) : Prop := Twin pdev w u ∧ P (w.dev pdev)

/-- What the work on one device leaves alone but for its nodes. -/
structure Nodeless {α : Type} (act : DevM α) : Prop where
  xpdev : ∀ s, (act.run s).state.xpdev = s.xpdev
  member : ∀ s, (act.run s).state.member = s.member
  serial : ∀ s, s.serial ≤ (act.run s).state.serial

/-- What is known of the nodes alone. -/
def Local (P : DevState → Prop) : Prop :=
  ∀ s s', s'.xpdev = s.xpdev → s'.member = s.member → s.serial ≤ s'.serial → P s → P s'

section
variable {α : Type} {P : DevState → Prop} {pdev : Dev} {w u : World} {act : DevM α}

theorem Twin.refl (pdev : Dev) (w : World) : Twin pdev w w := ⟨rfl, rfl, rfl⟩

theorem Twin.symm (twin : Twin pdev w u) : Twin pdev u w :=
  ⟨twin.dev.symm, twin.listed.symm, twin.sysClass.symm⟩

theorem Twin.trans {v : World} (twin : Twin pdev w u) (next : Twin pdev u v) : Twin pdev w v :=
  ⟨twin.dev.trans next.dev, twin.listed.trans next.listed, twin.sysClass.trans next.sysClass⟩

theorem Twin.setDev (twin : Twin pdev w u) (s : DevState) :
    Twin pdev (State.setDev w pdev s) (State.setDev u pdev s) := by
  constructor
  · rw [setDev_dev_same, setDev_dev_same]
  · exact twin.listed
  · exact twin.sysClass

theorem onDev_agrees (kept : ∀ s, P s → P (act.run s).state) :
    Act.Agrees (TwinWith P pdev) (onDev pdev act) := by
  intro w u related
  obtain ⟨twin, known⟩ := related
  simp only [onDev, Act.zoom, ← twin.dev]
  refine ⟨trivial, twin.setDev _, ?_⟩
  rw [setDev_dev_same]
  exact kept _ known

theorem Nodeless.agrees (nodeless : Nodeless act) (about : Local P) :
    Act.Agrees (TwinWith P pdev) (onDev pdev act) :=
  onDev_agrees fun s => about _ _ (nodeless.xpdev s) (nodeless.member s) (nodeless.serial s)

theorem twin_agrees (act : DevM α) : Act.Agrees (Twin pdev) (onDev pdev act) := by
  intro w u twin
  simp only [onDev, Act.zoom, ← twin.dev]
  exact ⟨trivial, twin.setDev _⟩

theorem readDev_agrees (look : DevState → α) :
    Act.Agrees (TwinWith P pdev) (Act.read (fun w => look (w.dev pdev)) : M α) := by
  apply Act.Agrees.read
  intro w u related
  exact congrArg look related.1.dev

theorem readClass_agrees : Act.Agrees (TwinWith P pdev) (Act.read World.gXgpuClass : M Bool) := by
  apply Act.Agrees.read
  intro w u related
  exact related.1.sysClass

/-- Changes of what twins need not share. -/
theorem aside_agrees {change : World → World}
    (same : ∀ w, (change w).dev = w.dev ∧ (change w).xdevList = w.xdevList ∧
      (change w).gXgpuClass = w.gXgpuClass) :
    Act.Agrees (TwinWith P pdev) (Act.update change : M Unit) := by
  apply Act.Agrees.update
  intro w u related
  obtain ⟨twin, known⟩ := related
  obtain ⟨dev, list, sysClass⟩ := same w
  obtain ⟨dev', list', sysClass'⟩ := same u
  refine ⟨⟨?_, ?_, ?_⟩, ?_⟩
  · rw [dev, dev', twin.dev]
  · rw [list, list', twin.listed]
  · rw [sysClass, sysClass', twin.sysClass]
  · rw [dev]
    exact known

end

/-! What is known of the nodes of a device while they are made and taken down. -/

/-- The members on the lists are those of the device, and have numbers that are not taken
for those of register nodes. -/
structure Tidy (t : Tables) (pdev : Dev) (s : DevState) : Prop where
  own : ∀ type m, m ∈ s.xpdev.listHead type → m.pdev = pdev
  old : ∀ type m, m ∈ s.xpdev.listHead type → m.serial < s.serial
  number : ∀ type m, m ∈ s.xpdev.listHead type → ¬ isRegisterNumber t (s.member m).cdevno
  major : s.xpdev.major < CHRDEV_MAJOR_MAX
  owner : ∀ x, s.xpdev.xdev = some x → x.pdev = pdev

/-- A member in the making. -/
structure Unlisted (t : Tables) (pdev : Dev) (m : MemberPtr) (s : DevState) : Prop
    extends Tidy t pdev s where
  mine : m.pdev = pdev
  young : m.serial < s.serial
  unlisted : ∀ type, m ∉ s.xpdev.listHead type

/-- One that has got a major number, which is not zero. -/
def WithMajor (t : Tables) (pdev : Dev) (m : MemberPtr) (s : DevState) : Prop :=
  Unlisted t pdev m s ∧ s.xpdev.major ≠ 0

/-- One that has got its own number. -/
def Numbered (t : Tables) (pdev : Dev) (m : MemberPtr) (s : DevState) : Prop :=
  Unlisted t pdev m s ∧ ¬ isRegisterNumber t (s.member m).cdevno

section
variable {α : Type} {t : Tables} {pdev : Dev} {m : MemberPtr} {P : DevState → Prop} {w u : World}

theorem tidy_local : Local (Tidy t pdev) := by
  intro s s' xpdev member serial tidy
  constructor
  · rw [xpdev]
    exact tidy.own
  · rw [xpdev]
    exact fun type m there => Nat.lt_of_lt_of_le (tidy.old type m there) serial
  · rw [xpdev, member]
    exact tidy.number
  · rw [xpdev]
    exact tidy.major
  · rw [xpdev]
    exact tidy.owner

theorem unlisted_local : Local (Unlisted t pdev m) := by
  intro s s' xpdev member serial unlisted
  refine ⟨tidy_local s s' xpdev member serial unlisted.toTidy, unlisted.mine, ?_, ?_⟩
  · exact Nat.lt_of_lt_of_le unlisted.young serial
  · rw [xpdev]
    exact unlisted.unlisted

theorem withMajor_local : Local (WithMajor t pdev m) := by
  intro s s' xpdev member serial known
  obtain ⟨unlisted, major⟩ := known
  refine ⟨unlisted_local s s' xpdev member serial unlisted, ?_⟩
  rw [xpdev]
  exact major

theorem numbered_local : Local (Numbered t pdev m) := by
  intro s s' xpdev member serial known
  obtain ⟨unlisted, number⟩ := known
  refine ⟨unlisted_local s s' xpdev member serial unlisted, ?_⟩
  rw [member]
  exact number

end

/-! The kernel calls. -/

section
variable {α : Type} {hw : Dev → PciDev} {env : Env} {pdev : Dev} {m : MemberPtr}

theorem Nodeless.call {c : Call} {answer : DevState → α × DevState}
    (same : ∀ s, (answer s).2.xpdev = s.xpdev ∧ (answer s).2.member = s.member ∧
      s.serial ≤ (answer s).2.serial) : Nodeless (Act.call c answer) :=
  ⟨fun s => (same s).1, fun s => (same s).2.1, fun s => (same s).2.2⟩

theorem Nodeless.read (look : DevState → α) : Nodeless (Act.read look) :=
  ⟨fun _ => rfl, fun _ => rfl, fun _ => Nat.le_refl _⟩

theorem cdevAdd_nodeless (devId : Nat) (cdevno : BitVec 32) (count : Nat) :
    Nodeless (cdevAdd env devId m cdevno count) := by
  apply Nodeless.call
  intro s
  split <;> exact ⟨rfl, rfl, Nat.le_refl _⟩

theorem cdevDel_nodeless : Nodeless (cdevDel m) := Nodeless.call fun _ => ⟨rfl, rfl, Nat.le_refl _⟩

theorem deviceCreate_nodeless (devId : Nat) (cdevno : BitVec 32) (name : String) :
    Nodeless (deviceCreate env devId cdevno name) := by
  apply Nodeless.call
  intro s
  split <;> exact ⟨rfl, rfl, Nat.le_refl _⟩

theorem deviceDestroy_nodeless (cdevno : BitVec 32) : Nodeless (deviceDestroy cdevno) :=
  Nodeless.call fun _ => ⟨rfl, rfl, Nat.le_refl _⟩

theorem unregisterChrdevRegion_nodeless (cdevno : BitVec 32) (count : Nat) :
    Nodeless (unregisterChrdevRegion cdevno count) := Nodeless.call fun _ => ⟨rfl, rfl, Nat.le_refl _⟩

theorem kfree_nodeless (ptr : Ptr) : Nodeless (kfree ptr) := by
  apply Nodeless.call
  intro s
  cases ptr <;> exact ⟨rfl, rfl, Nat.le_refl _⟩

theorem pciReadConfig_nodeless (offset width : Nat) : Nodeless (pciReadConfig pdev offset width) :=
  Nodeless.call fun _ => ⟨rfl, rfl, Nat.le_refl _⟩

theorem pciIomap_nodeless (site : Site) (bar maxlen : Nat) :
    Nodeless (pciIomap hw env site pdev bar maxlen) := by
  apply Nodeless.call
  intro s
  dsimp only
  split
  · exact ⟨rfl, rfl, Nat.le_succ _⟩
  · exact ⟨rfl, rfl, Nat.le_refl _⟩

theorem pciEnableMsi_nodeless (site : Site) : Nodeless (pciEnableMsi hw env site pdev) := by
  apply Nodeless.call
  intro s
  dsimp only
  split
  · exact ⟨rfl, rfl, Nat.le_refl _⟩
  · split <;> exact ⟨rfl, rfl, Nat.le_refl _⟩

theorem pciDisableMsi_nodeless : Nodeless (pciDisableMsi hw pdev) := by
  apply Nodeless.call
  intro s
  dsimp only
  split <;> exact ⟨rfl, rfl, Nat.le_refl _⟩

theorem requestIrq_nodeless (site : Site) (irq : Irq) (handler : IrqHandler) (shared : Bool)
    (name : String) (devId : DevId) : Nodeless (requestIrq env site irq handler shared name devId) := by
  apply Nodeless.call
  intro s
  split <;> exact ⟨rfl, rfl, Nat.le_refl _⟩

theorem freeIrq_nodeless (irq : Irq) (devId : DevId) : Nodeless (freeIrq irq devId) :=
  Nodeless.call fun _ => ⟨rfl, rfl, Nat.le_refl _⟩

end

/-! Taking nodes down. -/

section
variable {t : Tables} {walk : Walk} {pdev : Dev} {m : MemberPtr} {P : DevState → Prop} {w u : World}
  {members : MemberPtr → XgpuCdev}

theorem destroyXcdev_agrees (own : m.pdev = pdev) (about : Local P) :
    Act.Agrees (TwinWith P pdev) (destroyXcdev m) := by
  subst own
  unfold destroyXcdev loadMember
  apply Act.Agrees.bind (readDev_agrees fun s => id (s.member m))
  intro cdev
  split
  · exact .pure _ _
  · apply Act.Agrees.bind readClass_agrees
    intro sysClass
    split
    · exact .pure _ _
    · split
      · exact .pure _ _
      · apply Act.Agrees.bind ((deviceDestroy_nodeless _).agrees about)
        intro _
        apply Act.Agrees.bind (cdevDel_nodeless.agrees about)
        exact fun _ => .pure _ _

/-- The nodes of a device, whose members have these contents. -/
def TidyWith (t : Tables) (pdev : Dev) (members : MemberPtr → XgpuCdev) (s : DevState) : Prop :=
  Tidy t pdev s ∧ s.member = members

theorem tidyWith_local : Local (TidyWith t pdev members) := by
  intro s s' xpdev member serial known
  exact ⟨tidy_local s s' xpdev member serial known.1, member.trans known.2⟩

theorem listDel_agrees (type : Nat) :
    Act.Agrees (TwinWith (TidyWith t pdev members) pdev) (onDev pdev (Interfaces.listDel type m)) := by
  apply onDev_agrees
  intro s known
  obtain ⟨tidy, contents⟩ := known
  have fewer : ∀ type' m',
      m' ∈ Function.update s.xpdev.listHead type ((s.xpdev.listHead type).erase m) type' →
        m' ∈ s.xpdev.listHead type' := by
    intro type' m' there
    by_cases same : type' = type
    · subst same
      rw [Function.update_self] at there
      exact List.mem_of_mem_erase there
    · rw [Function.update_of_ne same] at there
      exact there
  refine ⟨⟨?_, ?_, ?_, tidy.major, tidy.owner⟩, contents⟩
  · exact fun type' m' there => tidy.own type' m' (fewer type' m' there)
  · exact fun type' m' there => tidy.old type' m' (fewer type' m' there)
  · exact fun type' m' there => tidy.number type' m' (fewer type' m' there)

theorem destroyMembers_agrees (type : Nat) (ms : List MemberPtr)
    (own : ∀ m ∈ ms, m.pdev = pdev) (number : ∀ m ∈ ms, ¬ isRegisterNumber t (members m).cdevno) :
    Act.Agrees (TwinWith (TidyWith t pdev members) pdev) (destroyMembers t walk pdev type ms) := by
  induction ms with
  | nil => exact .pure _ _
  | cons m rest ih =>
    have mine : m.pdev = pdev := own m List.mem_cons_self
    apply Act.agrees_of_both
    intro w u related
    have cdevno : ((w.dev m.pdev).member m).cdevno = (members m).cdevno := by
      rw [mine, related.2.2]
    have same : ((u.dev m.pdev).member m).cdevno = ((w.dev m.pdev).member m).cdevno := by
      rw [mine, related.1.dev]
    have other : ¬ isRegisterNumber t ((w.dev m.pdev).member m).cdevno := by
      rw [cdevno]
      exact number m List.mem_cons_self
    unfold destroyMembers loadMember
    apply Act.both_read.mpr
    rw [same, if_neg other, pure_bind]
    apply Act.both_seq ((destroyXcdev_agrees mine tidyWith_local).both related) fun _ _ => id
    intro rv w u related
    split
    · exact Act.both_pure.mpr related
    · apply Act.both_seq ((listDel_agrees type).both related) fun _ _ => id
      intro _ w u related
      apply Act.both_seq (((kfree_nodeless _).agrees tidyWith_local).both related) fun _ _ => id
      intro _ w u related
      cases walk with
      | poison => exact Act.Agrees.fault _ w u related
      | every =>
        exact ih (fun m there => own m (List.mem_cons_of_mem _ there))
          (fun m there => number m (List.mem_cons_of_mem _ there)) w u related

theorem fileDestroyInterfaces_agrees (type : Nat) :
    Act.Agrees (TwinWith (TidyWith t pdev members) pdev) (fileDestroyInterfaces t walk pdev type) := by
  apply Act.agrees_of_both
  intro w u related
  have same : (u.dev pdev).xpdev.listHead type = (w.dev pdev).xpdev.listHead type := by
    rw [related.1.dev]
  have tidy : Tidy t pdev (w.dev pdev) := related.2.1
  unfold fileDestroyInterfaces
  apply Act.both_read.mpr
  rw [same]
  apply destroyMembers_agrees type _ (tidy.own type) ?_ w u related
  rw [← related.2.2]
  exact tidy.number type

theorem xpdevDestroyInterfaces_agrees :
    Act.Agrees (TwinWith (TidyWith t pdev members) pdev) (xpdevDestroyInterfaces t walk pdev) := by
  unfold xpdevDestroyInterfaces
  apply Act.Agrees.bind (fileDestroyInterfaces_agrees 2)
  intro _
  apply Act.Agrees.bind (fileDestroyInterfaces_agrees 1)
  intro _
  apply Act.Agrees.bind (fileDestroyInterfaces_agrees 0)
  intro _
  apply Act.Agrees.bind (readDev_agrees fun s => s.xpdev.major)
  intro major
  split
  · exact (unregisterChrdevRegion_nodeless _ _).agrees tidyWith_local
  · exact .pure _ _

/-- The contents of the members need not be named. -/
theorem agrees_tidy {α : Type} {act : M α}
    (agrees : ∀ members, Act.Agrees (TwinWith (TidyWith t pdev members) pdev) act) :
    Act.Agrees (TwinWith (Tidy t pdev) pdev) act := by
  intro w u related
  obtain ⟨twin, tidy⟩ := related
  obtain ⟨value, twin, tidy, _⟩ := agrees (w.dev pdev).member w u ⟨twin, tidy, rfl⟩
  exact ⟨value, twin, tidy⟩

end

/-! Making a node. -/

section
variable {hw : Dev → PciDev} {t : Tables} {env : Env} {pdev : Dev} {m : MemberPtr} {x : XdevPtr}
  {P : DevState → Prop} {w u : World}

theorem Unlisted.store {s : DevState} (known : Unlisted t pdev m s) (change : XgpuCdev → XgpuCdev) :
    Unlisted t pdev m (stored s m change) := by
  refine ⟨⟨known.own, known.old, ?_, known.major, known.owner⟩, known.mine, known.young, known.unlisted⟩
  intro type m' there
  have other : m' ≠ m := fun same => known.unlisted type (same ▸ there)
  change ¬ isRegisterNumber t (Function.update s.member m (change (s.member m)) m').cdevno
  rw [Function.update_of_ne other]
  exact known.number type m' there

theorem storeMember_agrees (change : XgpuCdev → XgpuCdev) :
    Act.Agrees (TwinWith (WithMajor t pdev m) pdev) (onDev pdev (storeMember m change)) :=
  onDev_agrees fun _ known => ⟨known.1.store change, known.2⟩

theorem cdevInit_agrees (own : m.pdev = pdev) (ops : FileOps) :
    Act.Agrees (TwinWith (WithMajor t pdev m) pdev) (cdevInit m ops) := by
  unfold cdevInit
  rw [own]
  refine Act.Agrees.bind (aside_agrees ?_) fun _ => storeMember_agrees _
  exact fun _ => ⟨rfl, rfl, rfl⟩

theorem fillSnapshot_agrees (about : Local P) (count ii : Nat) :
    Act.Agrees (TwinWith P pdev) (fillSnapshot pdev count ii) := by
  induction count generalizing ii with
  | zero => exact .pure _ _
  | succ count ih =>
    unfold fillSnapshot pciReadConfigByte
    apply Act.Agrees.bind (.bind ((pciReadConfig_nodeless _ _).agrees about) fun _ => .pure _ _)
    intro val
    refine Act.Agrees.bind (aside_agrees ?_) fun _ => ih (ii + 1)
    exact fun _ => ⟨rfl, rfl, rfl⟩

theorem initXcdev_agrees (own : m.pdev = pdev) (mine : x.pdev = pdev) (devId : Nat) :
    Act.Agrees (TwinWith (WithMajor t pdev m) pdev) (initXcdev hw t env m x devId) := by
  unfold initXcdev
  split
  · unfold cdevConfigInit
    rw [mine]
    apply Act.Agrees.bind (cdevInit_agrees own _)
    exact fun _ => fillSnapshot_agrees withMajor_local _ _
  · split
    · unfold cdevRegisterInit
      rw [mine]
      apply Act.Agrees.bind (cdevInit_agrees own _)
      intro _
      apply Act.Agrees.bind ((pciIomap_nodeless _ _ _).agrees withMajor_local)
      intro base
      exact aside_agrees fun _ => ⟨rfl, rfl, rfl⟩
    · split
      · exact cdevInit_agrees own _
      · exact .pure _ _

/-- The name may differ, since the numbers of the devices may. -/
theorem kobjectSetName_both (devId : Nat) (name name' : String) (related : TwinWith P pdev w u) :
    Act.both (fun _ => TwinWith P pdev) (kobjectSetName env m devId name)
      (kobjectSetName env m devId name') w u := by
  obtain ⟨twin, known⟩ := related
  unfold kobjectSetName Act.both Act.call
  by_cases named : env.errno (.kobjectSetName devId) = 0
  · simp only [if_pos named]
    exact ⟨trivial, ⟨twin.dev, twin.listed, twin.sysClass⟩, known⟩
  · simp only [if_neg named]
    exact ⟨trivial, twin, known⟩

theorem configKobject_agrees (devId : Nat) :
    Act.Agrees (TwinWith P pdev) (configKobject t env m x devId) := by
  unfold configKobject
  split
  · exact .pure _ _
  · apply Act.agrees_of_both
    intro w u related
    apply Act.both_read.mpr
    exact kobjectSetName_both devId _ _ related

theorem deviceCreate_both (devId : Nat) (cdevno : BitVec 32) (name name' : String)
    (about : Local P) (related : TwinWith P pdev w u) :
    Act.both (fun _ => TwinWith P pdev) (onDev pdev (deviceCreate env devId cdevno name))
      (onDev pdev (deviceCreate env devId cdevno name')) w u :=
  -- the name stands in the call alone
  (deviceCreate_nodeless devId cdevno name).agrees about w u related

theorem createSysDevice_agrees (own : m.pdev = pdev) (devId : Nat) :
    Act.Agrees (TwinWith (Numbered t pdev m) pdev) (createSysDevice t env m x devId) := by
  unfold createSysDevice loadMember
  rw [own]
  split
  · exact .pure _ _
  · apply Act.agrees_of_both
    intro w u related
    apply Act.both_read.mpr
    apply Act.both_read.mpr
    rw [← related.1.dev]
    apply Act.both_seq (deviceCreate_both devId _ _ _ numbered_local related) fun _ _ => id
    intro sysDevice w u related
    have stored : Act.Agrees (TwinWith (Numbered t pdev m) pdev)
        (onDev pdev (storeMember m fun c => { c with sysDevice := sysDevice })) := by
      apply onDev_agrees
      intro s known
      refine ⟨known.1.store fun c => { c with sysDevice := sysDevice }, ?_⟩
      change ¬ isRegisterNumber t (Function.update s.member m _ m).cdevno
      rw [Function.update_self]
      exact known.2
    apply Act.both_seq (stored.both related) fun _ _ => id
    intro _ w u related
    split
    · exact Act.both_pure.mpr related
    · exact Act.both_pure.mpr related

theorem addXcdev_agrees (own : m.pdev = pdev) (devId : Nat) (cdevno : BitVec 32) :
    Act.Agrees (TwinWith (Numbered t pdev m) pdev) (addXcdev t env pdev x m devId cdevno) := by
  unfold addXcdev
  apply Act.Agrees.bind ((cdevAdd_nodeless _ _ _).agrees numbered_local)
  intro rv
  split
  · apply Act.Agrees.bind ((unregisterChrdevRegion_nodeless _ _).agrees numbered_local)
    exact fun _ => .pure _ _
  · apply Act.Agrees.bind readClass_agrees
    intro sysClass
    split
    · apply Act.Agrees.bind (createSysDevice_agrees own devId)
      intro rv
      split
      · apply Act.Agrees.bind (cdevDel_nodeless.agrees numbered_local)
        intro _
        apply Act.Agrees.bind ((unregisterChrdevRegion_nodeless _ _).agrees numbered_local)
        exact fun _ => .pure _ _
      · exact .pure _ _
    · exact .pure _ _

theorem TwinWith.mono {P' : DevState → Prop} (related : TwinWith P pdev w u)
    (weaker : ∀ s, P s → P' s) : TwinWith P' pdev w u := ⟨related.1, weaker _ related.2⟩

theorem onDev_call_both {α : Type} {c : Call} {answer : DevState → α × DevState}
    {Q : Option α → World → World → Prop} (twin : Twin pdev w u)
    (holds : Q (some (answer (w.dev pdev)).1) (setDev w pdev (answer (w.dev pdev)).2)
      (setDev u pdev (answer (w.dev pdev)).2)) :
    Act.both Q (onDev pdev (Act.call c answer)) (onDev pdev (Act.call c answer)) w u := by
  simp only [Act.both, onDev, Act.zoom, Act.call, ← twin.dev]
  exact ⟨trivial, holds⟩

theorem onDev_update_both {change : DevState → DevState} {Q : Option Unit → World → World → Prop}
    (twin : Twin pdev w u)
    (holds : Q (some ()) (setDev w pdev (change (w.dev pdev))) (setDev u pdev (change (w.dev pdev)))) :
    Act.both Q (onDev pdev (Act.update change)) (onDev pdev (Act.update change)) w u := by
  simp only [Act.both, onDev, Act.zoom, Act.update, ← twin.dev]
  exact ⟨trivial, holds⟩

/-- How alloc_major ends: with a major number, or with an error. -/
def MajorGot (t : Tables) (pdev : Dev) (m : MemberPtr) : Option Int → World → World → Prop
  | none, w, u => TwinWith (Tidy t pdev) pdev w u
  | some rv, w, u =>
      rv = 0 ∧ TwinWith (WithMajor t pdev m) pdev w u ∨ rv < 0 ∧ TwinWith (Tidy t pdev) pdev w u

theorem allocMajor_both (devId : Nat) (related : TwinWith (Unlisted t pdev m) pdev w u) :
    Act.both (MajorGot t pdev m) (allocMajor env pdev devId) (allocMajor env pdev devId) w u := by
  obtain ⟨twin, known⟩ := related
  unfold allocMajor
  apply Act.both_read.mpr
  rw [← twin.dev]
  split
  · next got => exact Act.both_pure.mpr (.inl ⟨rfl, twin, known, got⟩)
  · apply Act.both_bind
    apply onDev_call_both twin
    by_cases allocated : env.errno (.allocChrdevRegion devId) = 0
    · simp only [if_pos allocated, Act.thenBoth]
      rw [if_neg (by decide)]
      apply Act.both_bind
      apply onDev_update_both (twin.setDev _)
      refine Act.both_pure.mpr (.inl ⟨rfl, (twin.setDev _).setDev _, ?_⟩)
      rw [setDev_dev_same, setDev_dev_same]
      refine ⟨⟨⟨known.own, known.old, known.number, env.major.below, known.owner⟩, known.mine,
        known.young, known.unlisted⟩, Nat.ne_of_gt env.major.positive⟩
    · simp only [if_neg allocated, Act.thenBoth]
      have failed : env.rv (.allocChrdevRegion devId) < 0 := rv_neg allocated
      rw [if_pos (by omega)]
      refine Act.both_pure.mpr (.inr ⟨failed, twin.setDev _, ?_⟩)
      rw [setDev_dev_same]
      exact known.toTidy

/-- How the making of a node ends: in an error, or with a member for the list. -/
def NodeMade (t : Tables) (pdev : Dev) (m : MemberPtr) : Option Int → World → World → Prop
  | none, w, u => TwinWith (Tidy t pdev) pdev w u
  | some rv, w, u =>
      if rv < 0 then TwinWith (Tidy t pdev) pdev w u else TwinWith (Numbered t pdev m) pdev w u

theorem numbered_tidy {s : DevState} (known : Numbered t pdev m s) : Tidy t pdev s := known.1.toTidy

theorem withMajor_tidy {s : DevState} (known : WithMajor t pdev m s) : Tidy t pdev s := known.1.toTidy

theorem createXcdev_both (mine : x.pdev = pdev) (bar : Int) {devId : Nat} (small : devId < t.itemIfwiMax)
    (minors : t.itemIfwiMax ≤ XGPU_MINOR_COUNT) (related : TwinWith (Unlisted t pdev m) pdev w u) :
    Act.both (NodeMade t pdev m) (createXcdev hw t env pdev x m bar devId)
      (createXcdev hw t env pdev x m bar devId) w u := by
  have own : m.pdev = pdev := related.2.mine
  apply Act.both_bind
  apply Act.both_mono (allocMajor_both devId related)
  intro v w u got
  cases v with
  | none => exact got
  | some rv =>
    rw [Act.thenBoth_some]
    obtain ⟨rfl, related⟩ | ⟨failed, related⟩ := got
    · rw [if_neg (not_not.mpr rfl)]
      apply Act.both_seq ((storeMember_agrees _).both related)
        fun _ _ related => related.mono fun _ => withMajor_tidy
      intro _ w u related
      apply Act.both_seq ((configKobject_agrees devId).both related)
        fun _ _ related => related.mono fun _ => withMajor_tidy
      intro rv w u related
      split
      · next failed =>
        apply Act.both_pure.mpr
        rw [NodeMade, if_pos failed]
        exact related.mono fun _ => withMajor_tidy
      · apply Act.both_seq ((initXcdev_agrees own mine devId).both related)
          fun _ _ related => related.mono fun _ => withMajor_tidy
        intro _ w u related
        apply Act.both_read.mpr
        rw [← related.1.dev]
        generalize number : mkdev (w.dev pdev).xpdev.major devId = cdevno
        have other : ¬ isRegisterNumber t cdevno := by
          rw [← number]
          exact mkdev_number related.2.2 related.2.1.major small minors
        apply Act.both_bind
        apply onDev_update_both related.1
        have numbered : TwinWith (Numbered t pdev m) pdev
            (setDev w pdev (stored (w.dev pdev) m fun c => { c with cdevno := cdevno }))
            (setDev u pdev (stored (w.dev pdev) m fun c => { c with cdevno := cdevno })) := by
          refine ⟨related.1.setDev _, ?_⟩
          rw [setDev_dev_same]
          refine ⟨related.2.1.store fun c => { c with cdevno := cdevno }, ?_⟩
          change ¬ isRegisterNumber t (Function.update (w.dev pdev).member m _ m).cdevno
          rw [Function.update_self]
          exact other
        apply Act.both_mono ((addXcdev_agrees own devId cdevno).both numbered)
        intro v w u related
        cases v with
        | none => exact related.mono fun _ => numbered_tidy
        | some rv =>
          change if rv < 0 then _ else _
          split
          · exact related.mono fun _ => numbered_tidy
          · exact related
    · rw [if_pos (by omega)]
      apply Act.both_pure.mpr
      rw [NodeMade, if_pos failed]
      exact related

end

/-! Making the nodes of a device. -/

section
variable {hw : Dev → PciDev} {t : Tables} {walk : Walk} {env : Env} {pdev : Dev} {x : XdevPtr} {w u : World}

/-- A new member, if there is memory for one. -/
def MemberGot (t : Tables) (pdev : Dev) : Option (Option MemberPtr) → World → World → Prop
  | some (some m), w, u => TwinWith (Unlisted t pdev m) pdev w u
  | _, w, u => TwinWith (Tidy t pdev) pdev w u

theorem kmallocMember_both (devId : Nat) (related : TwinWith (Tidy t pdev) pdev w u) :
    Act.both (MemberGot t pdev) (onDev pdev (kmallocMember env pdev devId))
      (onDev pdev (kmallocMember env pdev devId)) w u := by
  obtain ⟨twin, tidy⟩ := related
  apply onDev_call_both twin
  by_cases got : env.errno (.kmallocMember devId) = 0
  · simp only [if_pos got]
    refine ⟨twin.setDev _, ?_⟩
    rw [setDev_dev_same]
    have young : (w.dev pdev).serial < (w.dev pdev).serial + 1 := Nat.lt_succ_self _
    have other : ∀ type m, m ∈ (w.dev pdev).xpdev.listHead type → m ≠ ⟨pdev, (w.dev pdev).serial⟩ := by
      intro type m there same
      have old := tidy.old type m there
      rw [same] at old
      exact Nat.lt_irrefl _ old
    refine ⟨⟨tidy.own, ?_, ?_, tidy.major, tidy.owner⟩, rfl, young, ?_⟩
    · exact fun type m there => Nat.lt_trans (tidy.old type m there) young
    · intro type m there
      change ¬ isRegisterNumber t (Function.update (w.dev pdev).member _ env.garbage m).cdevno
      rw [Function.update_of_ne (other type m there)]
      exact tidy.number type m there
    · exact fun type there => other type _ there rfl
  · simp only [if_neg got]
    refine ⟨twin.setDev _, ?_⟩
    rw [setDev_dev_same]
    exact tidy

/-- The member is put on its list. -/
theorem Numbered.listed {m : MemberPtr} {s : DevState} (known : Numbered t pdev m s) (type : Nat) :
    Tidy t pdev (appended s type m) := by
  obtain ⟨unlisted, number⟩ := known
  have lists : ∀ type' m', m' ∈ (appended s type m).xpdev.listHead type' →
      m' = m ∨ m' ∈ s.xpdev.listHead type' := by
    intro type' m' there
    change m' ∈ Function.update s.xpdev.listHead type (s.xpdev.listHead type ++ [m]) type' at there
    by_cases same : type' = type
    · subst same
      rw [Function.update_self, List.mem_append, List.mem_singleton] at there
      exact there.symm
    · rw [Function.update_of_ne same] at there
      exact .inr there
  refine ⟨?_, ?_, ?_, unlisted.major, unlisted.owner⟩
  · intro type' m' there
    rcases lists type' m' there with rfl | before
    · exact unlisted.mine
    · exact unlisted.own type' m' before
  · intro type' m' there
    rcases lists type' m' there with rfl | before
    · exact unlisted.young
    · exact unlisted.old type' m' before
  · intro type' m' there
    rcases lists type' m' there with rfl | before
    · exact number
    · exact unlisted.number type' m' before

theorem createMembers_agrees (mine : x.pdev = pdev) (minors : t.itemIfwiMax ≤ XGPU_MINOR_COUNT)
    (type : Nat) (items : List Node) (ii : Nat) (nodes : ∀ item ∈ items, InTable t type item.devId) :
    Act.Agrees (TwinWith (Tidy t pdev) pdev) (createMembers hw t walk env pdev x type items ii) := by
  induction items generalizing ii with
  | nil => exact .pure _ _
  | cons item rest ih =>
    have givenUp : Act.Agrees (TwinWith (Tidy t pdev) pdev)
        (do fileDestroyInterfaces t walk pdev type; return (-1 : Int)) := by
      apply Act.Agrees.bind (agrees_tidy fun _ => fileDestroyInterfaces_agrees type)
      exact fun _ => .pure _ _
    apply Act.agrees_of_both
    intro w u related
    apply Act.both_bind
    apply Act.both_mono (kmallocMember_both item.devId related)
    intro v w u got
    obtain _ | _ | m := v
    · exact got
    · exact givenUp.both got
    · have bars : Act.Agrees (TwinWith (Unlisted t pdev m) pdev)
          (onDev pdev (loadXdev x XgpuDev.configBarIdx)) :=
        (Nodeless.read _).agrees unlisted_local
      rw [Act.thenBoth_some]
      apply Act.both_seq (bars.both got) fun _ _ related => related.mono fun _ known => known.toTidy
      intro configBarIdx w u related
      apply Act.both_bind
      apply Act.both_mono (createXcdev_both mine _ (nodes item List.mem_cons_self).below minors related)
      intro v w u made
      cases v with
      | none => exact made
      | some rv =>
        rw [NodeMade] at made
        rw [Act.thenBoth_some]
        split at made
        next failed =>
          rw [if_pos failed]
          exact givenUp.both made
        next ready =>
          rw [if_neg ready]
          apply Act.both_bind
          apply onDev_update_both made.1
          apply (ih (ii + 1) fun item there => nodes item (List.mem_cons_of_mem _ there)).both
          refine ⟨made.1.setDev _, ?_⟩
          rw [setDev_dev_same]
          exact made.2.listed type

theorem fileCreateInterface_agrees (minors : t.itemIfwiMax ≤ XGPU_MINOR_COUNT) (type : Nat)
    (items : List Node) (nodes : ∀ item ∈ items, InTable t type item.devId) :
    Act.Agrees (TwinWith (Tidy t pdev) pdev) (fileCreateInterface hw t walk env pdev items type) := by
  apply Act.agrees_of_both
  intro w u related
  unfold fileCreateInterface
  apply Act.both_read.mpr
  rw [← related.1.dev]
  cases owner : (w.dev pdev).xpdev.xdev with
  | none => exact Act.both_pure.mpr related
  | some x => exact (createMembers_agrees (related.2.owner x owner) minors type items 0 nodes).both related

theorem xpdevCreateInterfaces_agrees (fit : Tables.Fit t) :
    Act.Agrees (TwinWith (Tidy t pdev) pdev) (xpdevCreateInterfaces hw t walk env pdev) := by
  have givenUp : Act.Agrees (TwinWith (Tidy t pdev) pdev)
      (do xpdevDestroyInterfaces t walk pdev; return (-1 : Int)) := by
    apply Act.Agrees.bind (agrees_tidy fun _ => xpdevDestroyInterfaces_agrees)
    exact fun _ => .pure _ _
  unfold xpdevCreateInterfaces
  apply Act.Agrees.bind (fileCreateInterface_agrees fit.small 0 _ fit.config)
  intro ret
  split
  · exact givenUp
  · apply Act.Agrees.bind (fileCreateInterface_agrees fit.small 1 _ fit.register)
    intro ret
    split
    · exact givenUp
    · apply Act.Agrees.bind (fileCreateInterface_agrees fit.small 2 _ fit.ifwi)
      intro ret
      split
      · exact givenUp
      · exact .pure _ _

end

/-! The probe. -/

section
variable {hw : Dev → PciDev} {t : Tables} {walk : Walk} {env : Env} {pdev : Dev} {x : XdevPtr}
  {P : DevState → Prop} {w u : World}

theorem find_twin (twin : Twin pdev w u) :
    u.xdevList.find? (fun y => y.pdev = pdev) = w.xdevList.find? fun y => y.pdev = pdev := by
  rw [← List.head?_filter, ← List.head?_filter, twin.listed]

theorem xdevFindByPdev_agrees : Act.Agrees (Twin pdev) (xdevFindByPdev pdev) :=
  .read fun _ _ twin => (find_twin twin).symm

theorem xdevListAdd_agrees (x : XdevPtr) : Act.Agrees (Twin pdev) (xdevListAdd x) := by
  unfold xdevListAdd
  refine Act.Agrees.bind (Act.Agrees.update ?_) fun _ => .pure _ _
  intro w u twin
  refine ⟨twin.dev, ?_, twin.sysClass⟩
  rw [List.filter_append, List.filter_append, twin.listed]

theorem xdevListRemove_agrees (x : XdevPtr) : Act.Agrees (Twin pdev) (xdevListRemove x) := by
  apply Act.Agrees.update
  intro w u twin
  refine ⟨twin.dev, ?_, twin.sysClass⟩
  rw [← List.erase_filter, ← List.erase_filter, twin.listed]

theorem xgpuDeviceOpen_agrees (mname : String) (userMax : Nat) :
    Act.Agrees (Twin pdev) (xgpuDeviceOpen hw env pdev mname userMax) := by
  unfold xgpuDeviceOpen
  apply Act.Agrees.bind (twin_agrees _)
  intro x
  cases x with
  | none => exact .pure _ _
  | some x =>
    apply Act.Agrees.bind (twin_agrees _)
    intro _
    apply Act.Agrees.bind (twin_agrees _)
    intro _
    apply Act.Agrees.bind (xdevListAdd_agrees x)
    intro rv
    split
    · exact .bind (twin_agrees _) fun _ => .pure _ _
    · apply Act.Agrees.bind (twin_agrees _)
      intro opened
      split
      · apply Act.Agrees.bind (twin_agrees _)
        intro n
        exact .bind (twin_agrees _) fun _ => .pure _ _
      · apply Act.Agrees.bind (xdevListRemove_agrees x)
        intro _
        exact .bind (twin_agrees _) fun _ => .pure _ _

theorem xgpuDeviceClose_agrees (devHndl : Option XdevPtr) :
    Act.Agrees (Twin pdev) (xgpuDeviceClose hw pdev devHndl) := by
  unfold xgpuDeviceClose debugCheckDevHndl
  cases devHndl with
  | none => exact .pure _ _
  | some x =>
    have checked : Act.Agrees (Twin pdev) (debugCheckDevHndl pdev x) := by
      apply Act.Agrees.bind xdevFindByPdev_agrees
      intro found
      cases found with
      | none => exact .pure _ _
      | some y => dsimp only; split <;> exact .pure _ _
    apply Act.Agrees.bind checked
    intro rv
    split
    · exact .pure _ _
    · apply Act.Agrees.bind (twin_agrees _)
      intro _
      exact .bind (xdevListRemove_agrees x) fun _ => twin_agrees _

theorem freeMsi_agrees (about : Local P) : Act.Agrees (TwinWith P pdev) (freeMsi hw pdev x) := by
  unfold freeMsi
  apply Act.Agrees.bind ((Nodeless.read _).agrees about)
  intro irq
  apply Act.Agrees.bind ((freeIrq_nodeless _ _).agrees about)
  exact fun _ => pciDisableMsi_nodeless.agrees about

theorem errOut_both (rv : Int) (related : TwinWith (Tidy t pdev) pdev w u) :
    Act.both (fun _ => Twin pdev) (errOut hw t walk pdev rv) (errOut hw t walk pdev rv) w u := by
  have destroyed : Act.Agrees (TwinWith (Tidy t pdev) pdev) (xpdevDestroyInterfaces t walk pdev) :=
    agrees_tidy fun _ => xpdevDestroyInterfaces_agrees
  unfold errOut xpdevFree
  rw [bind_assoc]
  apply Act.both_read.mpr
  rw [← related.1.dev]
  generalize (w.dev pdev).xpdev.xdev = owner
  rw [bind_assoc]
  apply Act.both_seq (destroyed.both related) fun _ _ related => related.1
  intro _ w u related
  have closed : Act.Agrees (Twin pdev) (do
      onDev pdev (storeXpdev fun p => { p with xdev := none })
      xgpuDeviceClose hw pdev owner
      onDev pdev (kfree (.xpdev pdev))) := by
    apply Act.Agrees.bind (twin_agrees _)
    intro _
    exact .bind (xgpuDeviceClose_agrees owner) fun _ => twin_agrees _
  exact (Act.Agrees.bind closed fun _ => .pure _ rv).both related.1

theorem probeXdev_both (fit : Tables.Fit t) (related : TwinWith (Tidy t pdev) pdev w u) :
    Act.both (fun _ => Twin pdev) (probeXdev hw t walk env pdev x) (probeXdev hw t walk env pdev x) w u := by
  have stops : ∀ w u, TwinWith (Tidy t pdev) pdev w u → Twin pdev w u := fun _ _ related => related.1
  unfold probeXdev
  apply Act.both_seq (((pciEnableMsi_nodeless _).agrees tidy_local).both related) stops
  intro rv w u related
  split
  · exact errOut_both rv related
  · apply Act.both_seq (((Nodeless.read _).agrees tidy_local).both related) stops
    intro irq w u related
    apply Act.both_seq (((requestIrq_nodeless _ _ _ _ _ _).agrees tidy_local).both related) stops
    intro rv w u related
    split
    · apply Act.both_seq ((pciDisableMsi_nodeless.agrees tidy_local).both related) stops
      exact fun _ _ _ related => errOut_both rv related
    · apply Act.both_seq ((xpdevCreateInterfaces_agrees fit).both related) stops
      intro rv w u related
      split
      · apply Act.both_seq ((freeMsi_agrees tidy_local).both related) stops
        exact fun _ _ _ related => errOut_both rv related
      · exact (Act.Agrees.bind (twin_agrees _) fun _ => .pure _ 0).both related.1

/-- xgpu_device_open does not touch the structure of the probe. -/
theorem opened_xpdev {n : Nat} {v : Option (Option XdevPtr × Nat)}
    (opened : DeviceOpened hw env w pdev n v u) : (u.dev pdev).xpdev = (w.dev pdev).xpdev := by
  obtain _ | ⟨_ | x, n⟩ := v
  · obtain ⟨_, x, k, s, xdev, idx, _, _, _, frame, rfl⟩ := opened
    rw [placed_dev, frame.xpdev]
  · obtain ⟨_, left, s, xdev, idx, _, frame, rfl⟩ := opened
    rw [placed_dev, frame.xpdev]
  · obtain ⟨_, _, _, _, _, _, k, s, xdev, idx, _, _, _, _, frame, rfl⟩ := opened
    rw [placed_dev, frame.xpdev]

theorem Tidy.blank {s : DevState} (lists : ∀ type, s.xpdev.listHead type = []) (major : s.xpdev.major = 0)
    (owner : ∀ x, s.xpdev.xdev = some x → x.pdev = pdev) : Tidy t pdev s := by
  have none_there : ∀ type m, m ∉ s.xpdev.listHead type := by
    intro type m there
    rw [lists type] at there
    cases there
  refine ⟨?_, ?_, ?_, ?_, owner⟩
  · exact fun type m there => absurd there (none_there type m)
  · exact fun type m there => absurd there (none_there type m)
  · exact fun type m there => absurd there (none_there type m)
  · rw [major]
    decide

/-- A probe of a device does the same wherever the device looks the same. -/
theorem probeOne_both (fit : Tables.Fit t) (unbound : Unbound w pdev) (twin : Twin pdev w u) :
    Act.both (fun _ => Twin pdev) (probeOne hw t walk env pdev) (probeOne hw t walk env pdev) w u := by
  unfold probeOne
  apply Act.both_bind
  have alloc : Act.wp (LawfulOn hw True pdev w) (onDev pdev (xpdevAlloc env)) _ w := xpdevAlloc_step unbound
  apply Act.both_mono (Act.both_wp ((twin_agrees _).both twin) alloc)
  intro v w₁ u₁ post
  obtain ⟨twin, post⟩ := post
  cases v with
  | none => exact twin
  | some made =>
    rw [Act.thenBoth_some]
    change if env.errno .kmallocXpdev = 0 then _ else _ at post
    split at post
    · obtain ⟨rfl, start⟩ := post
      have dev : w₁.dev pdev = { w.dev pdev with xpdevLive := true, xpdev := {} } := by
        rw [start, setDev_dev_same]
      have unbound₁ : Unbound w₁ pdev :=
        start ▸ unbound.setDev rfl ⟨fun _ => rfl, unbound.nodes.cdevs⟩
      rw [if_pos rfl]
      apply Act.both_read.mpr
      rw [← twin.dev]
      apply Act.both_bind
      have opening : Act.wp (LawfulOn hw True pdev w₁) (xgpuDeviceOpen hw env pdev "xgpu" _) _ w₁ :=
        xgpuDeviceOpen_step "xgpu" (w₁.dev pdev).xpdev.userMax unbound₁.actions unbound₁.msi
          (unlisted_of_filter unbound₁.listed) fun _ _ _ _ => trivial
      apply Act.both_mono (Act.both_wp ((xgpuDeviceOpen_agrees _ _).both twin) opening)
      intro v w₂ u₂ post
      obtain ⟨twin, opened⟩ := post
      have fresh : (w₂.dev pdev).xpdev = {} := by
        rw [opened_xpdev opened, dev]
      obtain _ | ⟨hndl, n⟩ := v
      · exact twin
      · rw [Act.thenBoth_some]
        apply Act.both_bind
        apply onDev_update_both twin
        rw [Act.thenBoth_some]
        have related : TwinWith (Tidy t pdev) pdev
            (State.setDev w₂ pdev { w₂.dev pdev with xpdev := { (w₂.dev pdev).xpdev with userMax := n } })
            (State.setDev u₂ pdev { w₂.dev pdev with xpdev := { (w₂.dev pdev).xpdev with userMax := n } }) := by
          refine ⟨twin.setDev _, ?_⟩
          rw [setDev_dev_same, fresh]
          exact .blank (fun _ => rfl) rfl fun _ owner => by cases owner
        cases hndl with
        | none => exact errOut_both _ related
        | some hndl =>
          unfold xdevFindByPdev
          apply Act.both_read.mpr
          rw [find_twin related.1]
          cases found : (State.setDev w₂ pdev _).xdevList.find? fun y => y.pdev = pdev with
          | none => exact errOut_both _ related
          | some xdev =>
            by_cases differs : hndl ≠ xdev
            · simp only [if_pos differs]
              exact errOut_both _ related
            · simp only [if_neg differs]
              have mine : hndl.pdev = pdev := by
                rw [not_not.mp differs]
                simpa using List.find?_some found
              apply Act.both_bind
              apply onDev_update_both related.1
              rw [Act.thenBoth_some]
              apply probeXdev_both fit
              refine ⟨related.1.setDev _, ?_⟩
              rw [setDev_dev_same]
              refine ⟨related.2.own, related.2.old, related.2.number, related.2.major, fun x owner => ?_⟩
              rw [← Option.some.inj owner]
              exact mine
    · obtain ⟨rfl, _⟩ := post
      exact Act.both_pure.mpr twin

end

end PcieUtil.Driver.Twins
