import PcieUtil.Driver.Callees
import PcieUtil.Driver.Creation

/-! What is left of the nodes of a device after xpdev_create_interfaces, and after the
cleanup that probe_one or remove_one does behind it. file_destroy_interfaces is taken
to go through every member of its list. -/

namespace PcieUtil.Driver.Cleanup
open Lib.Action Lib.Bytes State Kernel DeviceOpen Interfaces Nodes Books Creation Probe Callees
open Snapshot (plainBoard zeroWorld firstXdev)

/-- A fresh `struct xgpu_pci_dev`. -/
structure Blank (x : XdevPtr) (w : World) : Prop where
  sysClass : w.gXgpuClass = true
  owner : (w.dev x.pdev).xpdev.xdev = some x
  major : deviceMajor x w = 0
  empty : ∀ type, (w.dev x.pdev).xpdev.listHead type = []
  cdevs : (w.dev x.pdev).cdevs = []
  sysDevices : (w.dev x.pdev).sysDevices = []

/-- Every member that was allocated has been freed once, and no node is left. -/
structure LeavesNothing (x : XdevPtr) (w : World) (out : Outcome World Call Int) : Prop where
  memory : (out.state.dev x.pdev).memberLive.Perm (w.dev x.pdev).memberLive
  once : ∀ e ∈ out.trace, ∀ m, e.2 = .kfree (.memberEntry m) → m ∈ (e.1.dev x.pdev).memberLive
  cdevs : (out.state.dev x.pdev).cdevs = []
  sysDevices : (out.state.dev x.pdev).sysDevices = []
  empty : ∀ type, (out.state.dev x.pdev).xpdev.listHead type = []

section
variable {hw : Dev → PciDev} {t : Tables} {env : Env} {x : XdevPtr} {w : World}

theorem Blank.book (blank : Blank x w) : Book x w (w.dev x.pdev).memberLive w := by
  have major : (w.dev x.pdev).xpdev.major = 0 := blank.major
  have none_listed : listed (w.dev x.pdev).xpdev.listHead = [] := by simp [listed, blank.empty]
  refine ⟨blank.sysClass, ⟨blank.owner, ?_, fun type _ => blank.empty type, ?_, ?_, ?_, ?_, ?_⟩,
    fun d _ => .refl d w⟩
  · rw [major]
    decide
  · simp [none_listed]
  · simp [none_listed]
  · simp [none_listed]
  · simp [blank.cdevs]
  · simp [blank.sysDevices]

/-- A creation that returns -1 leaves nothing behind exactly when the step that fails
first is the kmalloc of a node. -/
theorem failed_creation_iff (placed : Tables.Placed t) (blank : Blank x w) :
    (((xpdevCreateInterfaces hw t .every env x.pdev).run w).value = some (-1) →
      LeavesNothing x w ((xpdevCreateInterfaces hw t .every env x.pdev).run w)) ↔
      failure env true t.allItems ≠ some .later := by
  obtain ⟨sound, _, ends⟩ := xpdevCreateInterfaces_audit placed blank.book
  generalize (xpdevCreateInterfaces hw t .every env x.pdev).run w = out at *
  have once : ∀ e ∈ out.trace, ∀ m, e.2 = .kfree (.memberEntry m) → m ∈ (e.1.dev x.pdev).memberLive := by
    intro e member m call
    have watched := sound e member
    rw [call] at watched
    exact watched
  rw [decide_eq_true blank.major] at ends
  cases stops : failure env true t.allItems with
  | none =>
    rw [stops] at ends
    refine iff_of_true (fun failed => ?_) (by simp)
    rw [ends.1] at failed
    cases failed
  | some f =>
    rw [stops] at ends
    obtain ⟨value, ⟨lost, loses, book⟩, empty, _⟩ := ends
    obtain ⟨memory, cdevs, sysDevices⟩ := book.ledger.of_empty empty
    cases f with
    | kmalloc =>
      have same : lost = (w.dev x.pdev).memberLive := loses
      exact iff_of_true (fun _ => ⟨same ▸ memory, once, cdevs, sysDevices, empty⟩) (by simp)
    | later =>
      obtain ⟨m, leaked⟩ := loses
      refine iff_of_false (fun nothing => ?_) (by simp)
      have lengths := (memory.symm.trans (nothing value).memory).length_eq
      rw [leaked, List.length_cons] at lengths
      omega

end

theorem tables_placed : Tables.Placed tables := ⟨by decide, by decide, by decide⟩

/-- An entry into the driver in which one call fails. -/
def failingAt (site : Site) : Env := { Env.calm 0 with errno := fun s => if s = site then ENOMEM else 0 }

/-- The module in front of its first xpdev_create_interfaces. -/
def openedWorld : World :=
  setDev zeroWorld 0 { zeroWorld.dev 0 with xpdev := { xdev := some firstXdev } }

theorem openedWorld_blank : Blank firstXdev openedWorld where
  sysClass := rfl
  owner := rfl
  major := rfl
  empty _ := rfl
  cdevs := rfl
  sysDevices := rfl

theorem failed_creation_iff_kmalloc :
    LeavesNothing firstXdev openedWorld
      ((xpdevCreateInterfaces plainBoard tables .every (failingAt (.kmallocMember 3)) 0).run openedWorld) := by
  have first : failure (failingAt (.kmallocMember 3)) true tables.allItems ≠ some .later := by decide
  apply (failed_creation_iff tables_placed openedWorld_blank).mpr first
  decide +kernel

/-- A member whose name cannot be set is on no list when the creation gives up. -/
theorem unnamed_member_leaks :
    ¬ ∀ (hw : Dev → PciDev) (t : Tables) (env : Env) (x : XdevPtr) (w : World), Tables.Placed t →
      Blank x w → ((xpdevCreateInterfaces hw t .every env x.pdev).run w).value = some (-1) →
        LeavesNothing x w ((xpdevCreateInterfaces hw t .every env x.pdev).run w) := by
  intro all
  have nothing := all plainBoard tables (failingAt (.kobjectSetName 0)) firstXdev openedWorld
    tables_placed openedWorld_blank (by decide +kernel)
  have leaked := nothing.memory.length_eq
  revert leaked
  decide +kernel

/-! The number range. -/

section
variable {hw : Dev → PciDev} {t : Tables} {env : Env} {x : XdevPtr} {w : World}

/-- xpdev_create_interfaces, and the cleanup of probe_one or remove_one. -/
def createAndFree (hw : Dev → PciDev) (t : Tables) (env : Env) (x : XdevPtr) : M Unit := do
  let _ ← xpdevCreateInterfaces hw t .every env x.pdev
  freeMsi hw x.pdev x
  xpdevFree hw t .every x.pdev

/-- The range that alloc_chrdev_region has given out is released by one call, with no cdev
left, and no other range is. -/
def ReleasedOnce (t : Tables) (env : Env) (x : XdevPtr) (out : Outcome World Call Unit) : Prop :=
  (out.trace.flatMap fun e => releases x.pdev e.1 e.2) =
    if Allocates env t.allItems then [⟨mkdev env.major.number 0, XGPU_MINOR_COUNT, true⟩] else []

theorem keepsNumbers_releases {pdev : Dev} {u : World} {c : Call} (keeps : KeepsNumbers c) :
    releases pdev u c = [] := by
  unfold releases
  split
  · exact absurd trivial keeps
  · rfl

/-- free_irq and pci_disable_msi do not touch the nodes. -/
theorem freeMsi_spec : Act.wp plainly (freeMsi hw x.pdev x) (Act.returns fun _ w' => Aside w w') w := by
  unfold freeMsi
  have irq : Act.wp plainly (onDev x.pdev (pdevIrq hw x.pdev)) (Act.returns fun _ u => u = w) w := by
    rw [onDev, Act.wp_zoom, pdevIrq, Act.wp_read, setDev_self]
    exact rfl
  apply Act.wp_seq irq
  intro irq u same
  rw [same, freeIrq, Act.wp_bind, wp_onDev_call, Act.andThen_some]
  refine ⟨trivial, ?_⟩
  rw [pciDisableMsi, pciCall, wp_onDev_call, Act.returns_some]
  refine ⟨trivial, ?_⟩
  apply Aside.trans (Aside.setDev w x.pdev { (w.dev x.pdev).held with
    actions := (w.dev x.pdev).held.actions.eraseP fun a => a.irq = irq ∧ a.devId = .xdev x }
    (w.dev x.pdev).config)
  dsimp only
  split
  · exact Aside.setDev _ _ _ _
  · exact Aside.setDev _ _ ((State.setDev w x.pdev _).dev x.pdev).held _

/-- The cleanup releases the number range of the device. -/
theorem free_audit {w₀ : World} {lost : List MemberPtr} (book : Book x w₀ lost w) :
    Act.audit (fun _ _ => True) (releases x.pdev) (do freeMsi hw x.pdev x; xpdevFree hw t .every x.pdev)
      (fun _ _ picked => picked = lastRelease (deviceMajor x w)) w := by
  apply Act.audit_seq freeMsi_spec
  · exact fun u c plain => ⟨trivial, (plainly_sound t x.pdev u c plain).2⟩
  · intro _ u same
    have book := book.same same
    have major : deviceMajor x u = deviceMajor x w := congrArg XgpuPciDev.major (same.nodes x.pdev).xpdev
    unfold xpdevFree
    rw [Act.audit_bind, Act.audit_read, Act.thenCollects_some, Act.audit_bind]
    apply Act.audit_mono (Act.audit_calls (xpdevDestroyInterfaces_audit book) fun _ _ _ => trivial)
    intro v w' picked post
    obtain ⟨done, _, released⟩ := post
    subst done released
    have rest : Act.Within KeepsNumbers (do
        onDev x.pdev (storeXpdev fun p => { p with xdev := none })
        xgpuDeviceClose hw x.pdev (u.dev x.pdev).xpdev.xdev
        onDev x.pdev (kfree (.xpdev x.pdev))) :=
      .bind onDev_update_within fun _ => .bind (xgpuDeviceClose_within _) fun _ => onDev_call_within id
    rw [Act.thenCollects_some]
    apply Act.audit_mono (Act.audit_of_wp (rest w' trivial) fun _ _ both =>
      ⟨trivial, keepsNumbers_releases both.2⟩)
    intro _ _ more post
    obtain ⟨_, nothing⟩ := post
    rw [nothing, List.append_nil, major, List.nil_append]

/-- The number range is released once exactly when alloc_chrdev_region does not give one out,
or no step of any node fails. -/
theorem releasedOnce_iff (placed : Tables.Placed t) (blank : Blank x w) :
    ReleasedOnce t env x ((createAndFree hw t env x).run w) ↔
      (Allocates env t.allItems → failure env true t.allItems = none) := by
  have run : Act.audit (fun _ _ => True) (releases x.pdev) (createAndFree hw t env x)
      (fun _ _ picked => picked = (if Allocates env t.allItems then
          [⟨mkdev env.major.number 0, XGPU_MINOR_COUNT, true⟩] else []) ↔
        (Allocates env t.allItems → failure env true t.allItems = none)) w := by
    unfold createAndFree
    rw [Act.audit_bind]
    apply Act.audit_mono (Act.audit_calls (xpdevCreateInterfaces_audit placed blank.book)
      fun _ _ _ => trivial)
    intro v u picked post
    obtain ⟨major, ends⟩ := post
    rw [blank.major] at major
    rw [decide_eq_true blank.major] at ends
    have allocates := majorMade_fresh env t.allItems
    rw [← major] at allocates
    cases stops : failure env true t.allItems with
    | none =>
      rw [stops] at ends
      obtain ⟨value, book, none_picked⟩ := ends
      subst value none_picked
      rw [Act.thenCollects_some]
      apply Act.audit_mono (free_audit book)
      intro _ _ more released
      refine iff_of_true ?_ fun _ => rfl
      rw [List.nil_append, released]
      obtain ⟨given, number⟩ | ⟨refused, number⟩ := allocates
      · rw [if_pos given, number, lastRelease, if_neg (by have := env.major.positive; omega)]
      · rw [if_neg refused, number, lastRelease, if_pos rfl]
    | some f =>
      rw [stops] at ends
      obtain ⟨value, ⟨lost, _, book⟩, _, clean, cleaned⟩ := ends
      subst value
      rw [Act.thenCollects_some]
      apply Act.audit_mono (free_audit book)
      intro _ _ more released
      rw [released]
      obtain ⟨given, number⟩ | ⟨refused, number⟩ := allocates
      · have set : deviceMajor x u ≠ 0 := by
          have positive := env.major.positive
          omega
        refine iff_of_false ?_ fun every => by cases every given
        rw [if_pos given, lastRelease, if_neg set]
        intro once
        have lengths := congrArg List.length once
        have before := List.length_pos_of_mem (cleaned set)
        rw [List.length_append, List.length_singleton, List.length_singleton] at lengths
        omega
      · refine iff_of_true ?_ fun given => absurd given refused
        rw [if_neg refused, clean number, number, lastRelease, if_pos rfl]
        rfl
  exact run.2

end

theorem releasedOnce_iff_calm :
    ReleasedOnce tables (.calm 0) firstXdev
      ((createAndFree plainBoard tables (.calm 0) firstXdev).run openedWorld) :=
  (releasedOnce_iff tables_placed openedWorld_blank).mpr fun _ => by decide

/-- The failing node gives the range back, and so does the cleanup behind it. -/
theorem range_released_again :
    ¬ ∀ (hw : Dev → PciDev) (t : Tables) (env : Env) (x : XdevPtr) (w : World), Tables.Placed t →
      Blank x w → ReleasedOnce t env x ((createAndFree hw t env x).run w) := by
  intro all
  have once := all plainBoard tables (failingAt (.kobjectSetName 0)) firstXdev openedWorld
    tables_placed openedWorld_blank
  revert once
  unfold ReleasedOnce
  decide +kernel

end PcieUtil.Driver.Cleanup
