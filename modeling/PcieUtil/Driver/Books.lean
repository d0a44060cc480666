import Mathlib.Data.List.Perm.Basic
import PcieUtil.Driver.Nodes

/-! The books of the device nodes: which members are allocated, which of them are on
the lists, and what the class and the kernel have registered for them. A member that
is allocated but on no list is lost to the code that takes the lists down. -/

namespace PcieUtil.Driver.Books
open Lib.Action Lib.Bytes State Kernel ConfigFile RegisterFile Interfaces Nodes

/-- The members on the three lists. -/
def listed (lists : Nat → List MemberPtr) : List MemberPtr := lists 0 ++ lists 1 ++ lists 2

/-- A finished member. -/
structure Made (x : XdevPtr) (s : DevState) (m : MemberPtr) : Prop where
  own : m.pdev = x.pdev
  old : m.serial < s.serial
  xdev : (s.member m).xdev = some x
  device : (s.member m).sysDevice ≠ .null
  number : ∃ major devId, 0 < major ∧ major < CHRDEV_MAJOR_MAX ∧ (s.member m).cdevno = mkdev major devId

structure Ledger (x : XdevPtr) (lost : List MemberPtr) (s : DevState) : Prop where
  owner : s.xpdev.xdev = some x
  major : s.xpdev.major < CHRDEV_MAJOR_MAX
  three : ∀ type, 3 ≤ type → s.xpdev.listHead type = []
  made : ∀ m ∈ listed s.xpdev.listHead, Made x s m
  nodup : (listed s.xpdev.listHead).Nodup
  memory : s.memberLive.Perm (listed s.xpdev.listHead ++ lost)
  cdevs : ∀ entry ∈ s.cdevs, entry.2 ∈ listed s.xpdev.listHead
  sysDevices : s.sysDevices.Subperm ((listed s.xpdev.listHead).map fun m => (s.member m).cdevno)

/-- The device d has the nodes in w' that it has in w. -/
def SameNodes (d : Dev) (w w' : World) : Prop :=
  ∃ held config, w'.dev d = ((w.dev d).withHeld held).withConfig config

/-- No node is changed. -/
structure Aside (w w' : World) : Prop where
  sysClass : w'.gXgpuClass = w.gXgpuClass
  nodes : ∀ d, SameNodes d w w'

/-- The books on the way from w₀, where only the device of x is worked on. -/
structure Book (x : XdevPtr) (w₀ : World) (lost : List MemberPtr) (w : World) : Prop where
  sysClass : w.gXgpuClass = true
  ledger : Ledger x lost (w.dev x.pdev)
  others : ∀ d, d ≠ x.pdev → SameNodes d w₀ w

def deviceMajor (x : XdevPtr) (w : World) : Nat := (w.dev x.pdev).xpdev.major

theorem deviceMajor_setDev (x : XdevPtr) (w : World) (s : DevState) :
    deviceMajor x (setDev w x.pdev s) = s.xpdev.major := by
  rw [deviceMajor, setDev_dev_same]

theorem SameNodes.refl (d : Dev) (w : World) : SameNodes d w w := ⟨_, _, rfl⟩

theorem SameNodes.trans {d : Dev} {w w' w'' : World} (first : SameNodes d w w')
    (second : SameNodes d w' w'') : SameNodes d w w'' := by
  obtain ⟨held, config, dev⟩ := first
  obtain ⟨held', config', dev'⟩ := second
  refine ⟨held', config', ?_⟩
  rw [dev', dev]
  rfl

theorem SameNodes.xpdev {d : Dev} {w w' : World} (same : SameNodes d w w') :
    (w'.dev d).xpdev = (w.dev d).xpdev := by
  obtain ⟨held, config, dev⟩ := same
  rw [dev]
  rfl

theorem SameNodes.of_dev {d : Dev} {w w' : World} (same : w'.dev d = w.dev d) : SameNodes d w w' :=
  ⟨(w.dev d).held, (w.dev d).config, same⟩

theorem Aside.refl (w : World) : Aside w w := ⟨rfl, fun d => .refl d w⟩

theorem Aside.trans {w w' w'' : World} (first : Aside w w') (second : Aside w' w'') : Aside w w'' :=
  ⟨second.sysClass.trans first.sysClass, fun d => (first.nodes d).trans (second.nodes d)⟩

/-- A change of what the kernel holds for a device, or of its configuration space. -/
theorem Aside.setDev (w : World) (pdev : Dev) (held : Held) (config : Memory) :
    Aside w (State.setDev w pdev (((w.dev pdev).withHeld held).withConfig config)) := by
  refine ⟨rfl, fun d => ?_⟩
  by_cases same : d = pdev
  · rw [same]
    exact ⟨held, config, setDev_dev_same _ _ _⟩
  · exact .of_dev (setDev_dev_other _ _ same)

/-! What is watched of the calls. -/

/-- A call that gives nothing back. -/
def Plain : Call → Prop
  | .unregisterChrdevRegion _ _ | .kfree (.memberEntry _) | .pciIounmap _ _ => False
  | _ => True

/-- Only allocated members are freed, and no mapping is given back while the numbers of the
register nodes fit into a minor number. -/
def Sound (t : Tables) (pdev : Dev) (w : World) : Call → Prop
  | .kfree (.memberEntry m) => m ∈ (w.dev pdev).memberLive
  | .pciIounmap _ _ => 2 ^ 20 < t.itemRegisterMax
  | _ => True

/-- A call of unregister_chrdev_region, and whether no cdev was registered then. -/
structure Release where
  cdevno : BitVec 32
  count : Nat
  alone : Bool
  deriving DecidableEq

def releases (pdev : Dev) (w : World) : Call → List Release
  | .unregisterChrdevRegion cdevno count => [⟨cdevno, count, decide ((w.dev pdev).cdevs = [])⟩]
  | _ => []

theorem Plain.sound {t : Tables} {pdev : Dev} {w : World} {c : Call} (plain : Plain c) :
    Sound t pdev w c ∧ releases pdev w c = [] := by
  unfold Plain at plain
  split at plain
  · cases plain
  · cases plain
  · cases plain
  · next other₁ other₂ other₃ =>
    constructor
    · unfold Sound
      split
      · exact absurd rfl (other₂ _)
      · exact absurd rfl (other₃ _ _)
      · trivial
    · unfold releases
      split
      · exact absurd rfl (other₁ _ _)
      · rfl

section
variable {t : Tables} {x : XdevPtr} {lost : List MemberPtr} {s s' : DevState} {m : MemberPtr}
  {w₀ w w' : World} {type : Nat}

/-- A list with one member less. -/
theorem listed_update {lists : Nat → List MemberPtr} {ms : List MemberPtr} (small : type < 3)
    (perm : (lists type).Perm (m :: ms)) :
    (listed lists).Perm (m :: listed (Function.update lists type ms)) := by
  have cases : type = 0 ∨ type = 1 ∨ type = 2 := by omega
  obtain rfl | rfl | rfl := cases
  · exact (perm.append_right _).append_right _
  · have front : (lists 0 ++ lists 1).Perm (m :: (lists 0 ++ ms)) :=
      (perm.append_left _).trans List.perm_middle
    exact front.append_right _
  · exact (perm.append_left _).trans List.perm_middle

theorem listed_mem {lists : Nat → List MemberPtr} (small : type < 3) (member : m ∈ lists type) :
    m ∈ listed lists := by
  have cases : type = 0 ∨ type = 1 ∨ type = 2 := by omega
  obtain rfl | rfl | rfl := cases <;> simp [listed, member]

/-- A full device number is larger than every number of a node that fits into a minor number. -/
theorem number_apart {major devId : Nat} (positive : 0 < major) (below : major < CHRDEV_MAJOR_MAX)
    (small : t.itemRegisterMax ≤ 2 ^ 20) : ¬ isRegisterNumber t (mkdev major devId) := by
  unfold CHRDEV_MAJOR_MAX at below
  have shifted : (BitVec.ofNat 32 major <<< 20).toNat = major * 2 ^ 20 := by
    rw [BitVec.toNat_shiftLeft, BitVec.toNat_ofNat, Nat.shiftLeft_eq]
    omega
  have large : 2 ^ 20 ≤ (mkdev major devId).toNat := by
    have left : (BitVec.ofNat 32 major <<< 20).toNat ≤ (mkdev major devId).toNat := by
      rw [mkdev, BitVec.toNat_or]
      exact Nat.left_le_or
    omega
  have bound := (mkdev major devId).isLt
  intro post
  obtain ⟨low, high⟩ := post
  rw [BitVec.toInt_eq_toNat_cond] at low high
  split at high <;> omega

theorem audit_onDev_call {κ α : Type} {R : World → Call → Prop} {pick : World → Call → List κ}
    {pdev : Dev} {c : Call} {answer : DevState → α × DevState} {Q : Option α → World → List κ → Prop} :
    Act.audit R pick (onDev pdev (Act.call c answer)) Q w ↔
      R w c ∧ Q (some (answer (w.dev pdev)).1) (setDev w pdev (answer (w.dev pdev)).2) (pick w c) := by
  rw [onDev, Act.audit_zoom, Act.audit_call, setDev_self]

theorem audit_onDev_update {κ : Type} {R : World → Call → Prop} {pick : World → Call → List κ}
    {pdev : Dev} {change : DevState → DevState} {Q : Option Unit → World → List κ → Prop} :
    Act.audit R pick (onDev pdev (Act.update change)) Q w ↔
      Q (some ()) (setDev w pdev (change (w.dev pdev))) [] := by
  rw [onDev, Act.audit_zoom, Act.audit_update]

/-! Taking nodes down. -/

/-- cdev_register_exit, where file_destroy_interfaces calls it. -/
theorem registerExit_audit (made : Made x (w.dev x.pdev) m) :
    Act.audit (Sound t x.pdev) (releases x.pdev)
      (if isRegisterNumber t ((w.dev x.pdev).member m).cdevno then cdevRegisterExit m else pure ())
      (fun v w' picked => v = some () ∧ Aside w w' ∧ picked = []) w := by
  have here : Aside w w := .refl w
  by_cases number : isRegisterNumber t ((w.dev x.pdev).member m).cdevno
  · obtain ⟨major, devId, positive, below, same⟩ := made.number
    have long : 2 ^ 20 < t.itemRegisterMax := by
      rw [same] at number
      by_contra small
      exact number_apart positive below (by omega) number
    rw [if_pos number, cdevRegisterExit, Act.audit_bind, Act.audit_read, Act.thenCollects_some]
    cases mapped : w.pcimapAddr with
    | none => exact Act.audit_pure.mpr ⟨rfl, here, rfl⟩
    | some base =>
      simp only [loadMember, Act.audit_bind, Act.audit_read, Act.thenCollects_some, made.own, made.xdev,
        onDev, Act.audit_zoom, pciIounmap, Act.audit_call, Act.audit_update]
      have unmapped := Aside.setDev w base.pdev
        { (w.dev base.pdev).held with maps := (w.dev base.pdev).held.maps.erase base }
        (w.dev base.pdev).config
      exact ⟨long, trivial, ⟨rfl, unmapped.nodes⟩, rfl⟩
  · rw [if_neg number]
    exact Act.audit_pure.mpr ⟨rfl, here, rfl⟩

theorem Ledger.same (ledger : Ledger x lost s) (held : Held) (config : Memory) :
    Ledger x lost ((s.withHeld held).withConfig config) :=
  ⟨ledger.owner, ledger.major, ledger.three, fun m member =>
    ⟨(ledger.made m member).own, (ledger.made m member).old, (ledger.made m member).xdev,
      (ledger.made m member).device, (ledger.made m member).number⟩,
    ledger.nodup, ledger.memory, ledger.cdevs, ledger.sysDevices⟩

theorem Ledger.mem_listed (ledger : Ledger x lost s) (member : m ∈ s.xpdev.listHead type) :
    m ∈ listed s.xpdev.listHead := by
  apply listed_mem _ member
  by_contra high
  rw [ledger.three type (by omega)] at member
  cases member

theorem Book.same (book : Book x w₀ lost w) (aside : Aside w w') : Book x w₀ lost w' := by
  obtain ⟨held, config, dev⟩ := aside.nodes x.pdev
  refine ⟨aside.sysClass.trans book.sysClass, ?_, fun d other => (book.others d other).trans (aside.nodes d)⟩
  rw [dev]
  exact book.ledger.same held config

/-- A change of the device itself. -/
theorem Book.setDev (book : Book x w₀ lost w) {lost' : List MemberPtr} (ledger : Ledger x lost' s) :
    Book x w₀ lost' (State.setDev w x.pdev s) := by
  refine ⟨book.sysClass, ?_, fun d other => ?_⟩
  · rw [setDev_dev_same]
    exact ledger
  · exact (book.others d other).trans (.of_dev (setDev_dev_other _ _ other))

/-- A member is taken off its list, and its registrations and its memory are given back. -/
theorem Ledger.dropped (ledger : Ledger x lost s) (member : m ∈ s.xpdev.listHead type) :
    Ledger x lost (dropped s type m) := by
  have small : type < 3 := by
    by_contra high
    rw [ledger.three type (by omega)] at member
    cases member
  have perm : (listed s.xpdev.listHead).Perm (m :: listed (Nodes.dropped s type m).xpdev.listHead) :=
    listed_update small (List.perm_cons_erase member)
  have once := (perm.nodup_iff).mp ledger.nodup
  obtain ⟨absent, nodup⟩ := List.nodup_cons.mp once
  have inside : ∀ m' ∈ listed (Nodes.dropped s type m).xpdev.listHead, m' ∈ listed s.xpdev.listHead :=
    fun m' there => perm.symm.subset (List.mem_cons_of_mem _ there)
  constructor
  · exact ledger.owner
  · exact ledger.major
  · intro type' high
    have other : type' ≠ type := by omega
    change Function.update s.xpdev.listHead type _ type' = []
    rw [Function.update_of_ne other]
    exact ledger.three type' high
  · intro m' there
    have made := ledger.made m' (inside m' there)
    exact ⟨made.own, made.old, made.xdev, made.device, made.number⟩
  · exact nodup
  · have before := (ledger.memory.trans (perm.append_right lost)).erase m
    rw [List.cons_append, List.erase_cons_head] at before
    exact before
  · intro entry there
    obtain ⟨before, different⟩ := List.mem_filter.mp there
    have old := perm.subset (ledger.cdevs entry before)
    exact (List.mem_cons.mp old).resolve_left (of_decide_eq_true different)
  · have before := (perm.map fun m' => (s.member m').cdevno).subperm_left.mp ledger.sysDevices
    have less := before.erase (s.member m).cdevno
    rw [List.map_cons, List.erase_cons_head] at less
    exact less

theorem Book.dropped (book : Book x w₀ lost w) (member : m ∈ (w.dev x.pdev).xpdev.listHead type) :
    Book x w₀ lost (State.setDev w x.pdev (Nodes.dropped (w.dev x.pdev) type m)) :=
  book.setDev (book.ledger.dropped member)

/-- What taking down a list does to the device: the list is empty, the rest of the books is kept. -/
structure Emptied (x : XdevPtr) (w₀ : World) (lost : List MemberPtr) (type : Nat) (w w' : World) : Prop where
  book : Book x w₀ lost w'
  lists : (w'.dev x.pdev).xpdev.listHead = Function.update (w.dev x.pdev).xpdev.listHead type []
  major : (w'.dev x.pdev).xpdev.major = (w.dev x.pdev).xpdev.major

theorem destroyMembers_audit (ms : List MemberPtr) (book : Book x w₀ lost w)
    (list : (w.dev x.pdev).xpdev.listHead type = ms) :
    Act.audit (Sound t x.pdev) (releases x.pdev) (destroyMembers t .every x.pdev type ms)
      (fun v w' picked => v = some () ∧ Emptied x w₀ lost type w w' ∧ picked = []) w := by
  induction ms generalizing w with
  | nil =>
    have same : (w.dev x.pdev).xpdev.listHead = Function.update (w.dev x.pdev).xpdev.listHead type [] := by
      rw [← list, Function.update_eq_self]
    exact Act.audit_pure.mpr ⟨rfl, ⟨book, same, rfl⟩, rfl⟩
  | cons m rest ih =>
    have member : m ∈ (w.dev x.pdev).xpdev.listHead type := by
      rw [list]
      exact List.mem_cons_self
    have made := book.ledger.made m (book.ledger.mem_listed member)
    unfold destroyMembers
    simp only [loadMember, made.own]
    rw [Act.audit_bind, Act.audit_read, Act.thenCollects_some, Act.audit_bind]
    apply Act.audit_mono (registerExit_audit made)
    intro v w₁ picked post
    obtain ⟨done, same, none_picked⟩ := post
    subst done none_picked
    have book₁ := book.same same
    have list₁ : (w₁.dev x.pdev).xpdev.listHead type = m :: rest := by rw [(same.nodes x.pdev).xpdev, list]
    have member₁ : m ∈ (w₁.dev x.pdev).xpdev.listHead type := by
      rw [list₁]
      exact List.mem_cons_self
    have made₁ := book₁.ledger.made m (book₁.ledger.mem_listed member₁)
    simp only [Act.thenCollects_some, destroyXcdev, loadMember, deviceDestroy, cdevDel, Act.audit_bind,
      Act.audit_read, made.own, id_eq, made₁.xdev, reduceCtorEq, if_false, book₁.sysClass,
      not_true_eq_false, made₁.device, audit_onDev_call, setDev_setDev, setDev_dev_same, Act.audit_pure]
    refine ⟨trivial, trivial, ?_⟩
    rw [if_neg (Int.lt_irrefl 0)]
    simp only [Interfaces.listDel, storeXpdev, kfree, Act.audit_bind, Act.thenCollects_some,
      audit_onDev_call, audit_onDev_update, setDev_setDev, setDev_dev_same]
    constructor
    · have live := book₁.ledger.memory.symm.subset
        (List.mem_append_left _ (book₁.ledger.mem_listed member₁))
      change m ∈ (DevState.memberLive _)
      rw [setDev_dev_same]
      exact live
    have book₂ := book₁.dropped member₁
    have list₂ : (dropped (w₁.dev x.pdev) type m).xpdev.listHead =
        Function.update (w.dev x.pdev).xpdev.listHead type rest := by
      change Function.update (w₁.dev x.pdev).xpdev.listHead type
        (((w₁.dev x.pdev).xpdev.listHead type).erase m) = _
      rw [list₁, List.erase_cons_head, (same.nodes x.pdev).xpdev]
    generalize again : State.setDev w₁ x.pdev (dropped (w₁.dev x.pdev) type m) = u at book₂
    have dev : u.dev x.pdev = dropped (w₁.dev x.pdev) type m := by rw [← again, setDev_dev_same]
    suffices goal : Act.audit (Sound t x.pdev) (releases x.pdev) (destroyMembers t .every x.pdev type rest)
        (fun v w' picked => v = some () ∧ Emptied x w₀ lost type w w' ∧ picked = []) u by
      rw [← again] at goal
      exact goal
    apply Act.audit_mono (ih book₂ (by rw [dev, list₂, Function.update_self]))
    intro v w' picked post
    obtain ⟨done, emptied, none_picked⟩ := post
    refine ⟨done, ⟨emptied.book, ?_, ?_⟩, none_picked⟩
    · rw [emptied.lists, dev, list₂, Function.update_idem]
    · rw [emptied.major, dev, ← (same.nodes x.pdev).xpdev]
      rfl

theorem fileDestroyInterfaces_audit (type : Nat) (book : Book x w₀ lost w) :
    Act.audit (Sound t x.pdev) (releases x.pdev) (fileDestroyInterfaces t .every x.pdev type)
      (fun v w' picked => v = some () ∧ Emptied x w₀ lost type w w' ∧ picked = []) w := by
  rw [fileDestroyInterfaces, Act.audit_bind, Act.audit_read, Act.thenCollects_some]
  exact destroyMembers_audit _ book rfl

/-- Nothing of the device is registered any more when its lists are empty. -/
theorem Ledger.of_empty (ledger : Ledger x lost s) (empty : ∀ type, s.xpdev.listHead type = []) :
    s.memberLive.Perm lost ∧ s.cdevs = [] ∧ s.sysDevices = [] := by
  have none_listed : listed s.xpdev.listHead = [] := by simp [listed, empty]
  refine ⟨?_, ?_, ?_⟩
  · have memory := ledger.memory
    rw [none_listed] at memory
    exact memory
  · rw [List.eq_nil_iff_forall_not_mem]
    intro entry there
    have member := ledger.cdevs entry there
    rw [none_listed] at member
    cases member
  · have devices := ledger.sysDevices
    rw [none_listed] at devices
    exact List.subperm_nil.mp devices

/-- The call of unregister_chrdev_region at the end of xpdev_destroy_interfaces. -/
def lastRelease (major : Nat) : List Release :=
  if major = 0 then [] else [⟨mkdev major 0, XGPU_MINOR_COUNT, true⟩]

/-- All lists are empty, and the major number is what it was. -/
structure AllEmptied (x : XdevPtr) (w₀ : World) (lost : List MemberPtr) (w w' : World) : Prop where
  book : Book x w₀ lost w'
  empty : ∀ type, (w'.dev x.pdev).xpdev.listHead type = []
  major : deviceMajor x w' = deviceMajor x w

theorem Book.unregistered (book : Book x w₀ lost w) (chrdevs : List (Nat × Nat)) :
    Book x w₀ lost (State.setDev w x.pdev { w.dev x.pdev with chrdevs := chrdevs }) := by
  have ledger := book.ledger
  apply book.setDev
  refine ⟨ledger.owner, ledger.major, ledger.three, fun m member => ?_, ledger.nodup, ledger.memory,
    ledger.cdevs, ledger.sysDevices⟩
  have made := ledger.made m member
  exact ⟨made.own, made.old, made.xdev, made.device, made.number⟩

theorem xpdevDestroyInterfaces_audit (book : Book x w₀ lost w) :
    Act.audit (Sound t x.pdev) (releases x.pdev) (xpdevDestroyInterfaces t .every x.pdev)
      (fun v w' picked => v = some () ∧ AllEmptied x w₀ lost w w' ∧
        picked = lastRelease (deviceMajor x w)) w := by
  unfold xpdevDestroyInterfaces
  rw [Act.audit_bind]
  apply Act.audit_mono (fileDestroyInterfaces_audit 2 book)
  intro v w₂ picked post
  obtain ⟨done₂, ends₂, picked₂⟩ := post
  subst done₂ picked₂
  rw [Act.thenCollects_some, Act.audit_bind]
  apply Act.audit_mono (fileDestroyInterfaces_audit 1 ends₂.book)
  intro v w₁ picked post
  obtain ⟨done₁, ends₁, picked₁⟩ := post
  subst done₁ picked₁
  rw [Act.thenCollects_some, Act.audit_bind]
  apply Act.audit_mono (fileDestroyInterfaces_audit 0 ends₁.book)
  intro v w₀ picked post
  obtain ⟨done₀, ends₀, picked₀⟩ := post
  subst done₀ picked₀
  have empty : ∀ type, (w₀.dev x.pdev).xpdev.listHead type = [] := by
    intro type
    by_cases high : 3 ≤ type
    · exact ends₀.book.ledger.three type high
    · rw [ends₀.lists, ends₁.lists, ends₂.lists]
      have small : type = 0 ∨ type = 1 ∨ type = 2 := by omega
      obtain rfl | rfl | rfl := small <;> simp [Function.update]
  have same : deviceMajor x w₀ = deviceMajor x w := by
    unfold deviceMajor
    rw [ends₀.major, ends₁.major, ends₂.major]
  have gone := (ends₀.book.ledger.of_empty empty).2.1
  rw [Act.thenCollects_some, Act.audit_bind, Act.audit_read, Act.thenCollects_some, ← same]
  unfold lastRelease deviceMajor at *
  by_cases unset : (w₀.dev x.pdev).xpdev.major = 0
  · rw [if_neg (not_not.mpr unset), if_pos unset, Act.audit_pure]
    exact ⟨rfl, ⟨ends₀.book, empty, same⟩, rfl⟩
  · rw [if_pos unset, if_neg unset, unregisterChrdevRegion, audit_onDev_call]
    refine ⟨trivial, rfl, ⟨ends₀.book.unregistered _, ?_, ?_⟩, ?_⟩
    · rw [setDev_dev_same]
      exact empty
    · exact (deviceMajor_setDev _ _ _).trans same
    · simp [releases, gone]

end

end PcieUtil.Driver.Books
