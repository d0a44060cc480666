import PcieUtil.Lib.LinkedList
import PcieUtil.Driver.Interfaces

/-! file_destroy_interfaces on the links of a list. The list_for_each of the kernel goes
on along the link of the entry that the body has taken out. -/

namespace PcieUtil.Driver.Walking
open Lib.Action Lib.LinkedList State Kernel
open Interfaces hiding fileDestroyInterfaces listDel

/-- The entries of one list of a `struct xgpu_pci_dev`. -/
inductive Entry where
  | head
  | member (m : MemberPtr)
  deriving DecidableEq

/-- The last field is a history variable: the links that the loop has gone along. -/
structure Heap where
  world : World
  links : Links Entry
  followed : List (Link Entry)

abbrev LinkM := Act Heap Call

def Heap.withWorld (h : Heap) (w : World) : Heap := { h with world := w }

@[simp] theorem Heap.withWorld_links (h : Heap) (w : World) : (h.withWorld w).links = h.links := rfl

def onWorld {α : Type} (act : M α) : LinkM α := Act.zoom Heap.world Heap.withWorld act

def listDel (e : Entry) : LinkM Unit := do
  match ← Act.read fun h => h.links.delete e with
  | none => Act.fault
  | some links => Act.update fun h => { h with links := links }

def follow (e : Entry) : LinkM (Link Entry) := do
  let next ← Act.read fun h => h.links.next e
  Act.update fun h => { h with followed := h.followed ++ [next] }
  return next

section
variable (t : Tables) (pdev : Dev)

/-- The loop with the cursor at a link, and whether it ends within so many passes. -/
def destroyFrom : Nat → Link Entry → LinkM Bool
  | 0, _ => return false
  | _ + 1, .to .head => return true
  -- the member is read at the poison address
  | _ + 1, .poison => Act.fault
  | passes + 1, .to (.member m) => do
      let cdevno ← onWorld (loadMember m XgpuCdev.cdevno)
      (if isRegisterNumber t cdevno then onWorld (cdevRegisterExit m) else pure ())
      if (← onWorld (destroyXcdev m)) < 0 then return true
      else
        listDel (.member m)
        onWorld (onDev pdev (kfree (.memberEntry m)))
        let next ← follow (.member m)
        destroyFrom passes next

def fileDestroyInterfaces (passes : Nat) : LinkM Bool := do
  if (← Act.read fun h => h.links.next .head) = .to .head then return true
  else
    let first ← follow .head
    destroyFrom t pdev passes first

end

/-! What the loop is for. -/

def destroyedDevices : Call → List (BitVec 32)
  | .deviceDestroy cdevno => [cdevno]
  | _ => []

def deletedCdevs : Call → List MemberPtr
  | .cdevDel m => [m]
  | _ => []

def freed : Call → List Ptr
  | .kfree ptr => [ptr]
  | _ => []

/-- The loop ends, has destroyed the class device and the cdev of each member in the
order of the list, has freed what kmalloc returned for each, leaves the list empty,
and has gone along no link of an entry that was out of the list. -/
structure DestroysAll (w : World) (ms : List MemberPtr) (out : Outcome Heap Call Bool) : Prop where
  ends : out.value = some true
  devices : (out.trace.flatMap fun e => destroyedDevices e.2) =
    ms.map fun m => ((w.dev m.pdev).member m).cdevno
  cdevs : (out.trace.flatMap fun e => deletedCdevs e.2) = ms
  memory : (out.trace.flatMap fun e => freed e.2).Perm (ms.map .member)
  empty : out.state.links.next .head = .to .head
  inside : .poison ∉ out.state.followed

def DestroysList (t : Tables) (pdev : Dev) (w : World) (links : Links Entry) (ms : List MemberPtr) : Prop :=
  ∃ passes, DestroysAll w ms ((fileDestroyInterfaces t pdev passes).run ⟨w, links, []⟩)

section
variable {t : Tables} {pdev : Dev} {w : World} {links : Links Entry} {m : MemberPtr}
  {ms rest : List MemberPtr}

/-- The part of the body before list_del. -/
def takeDown (t : Tables) (m : MemberPtr) : M Int := do
  let cdevno ← loadMember m XgpuCdev.cdevno
  (if isRegisterNumber t cdevno then cdevRegisterExit m else pure ())
  destroyXcdev m

theorem onWorld_bind {α β : Type} (act : M α) (next : α → M β) :
    onWorld (act >>= next) = onWorld act >>= fun a => onWorld (next a) := by
  have get_put : ∀ (h : Heap) (w : World), (h.withWorld w).world = w := fun _ _ => rfl
  have put_put : ∀ (h : Heap) (w u : World), (h.withWorld w).withWorld u = h.withWorld u :=
    fun _ _ _ => rfl
  exact Act.zoom_bind get_put put_put act next

theorem destroyFrom_member (passes : Nat) (m : MemberPtr) :
    destroyFrom t pdev (passes + 1) (.to (.member m)) = (do
      if (← onWorld (takeDown t m)) < 0 then return true
      else
        listDel (.member m)
        onWorld (onDev pdev (kfree (.memberEntry m)))
        let next ← follow (.member m)
        destroyFrom t pdev passes next) := by
  rw [destroyFrom, takeDown, onWorld_bind, bind_assoc]
  congr 1
  funext cdevno
  rw [onWorld_bind, bind_assoc]
  split <;> rfl

/-- What an action on the world leaves alone. -/
theorem onWorld_links {α : Type} (act : M α) (h : Heap) :
    Act.wp (fun _ _ => True) (onWorld act)
      (fun _ u => u.links = h.links ∧ u.followed = h.followed) h := by
  rw [onWorld, Act.wp_zoom]
  exact ⟨fun _ _ => trivial, rfl, rfl⟩

/-- The loop goes on from a poisoned link into a fault. -/
theorem destroyFrom_poison (passes : Nat) (h : Heap) :
    Act.wp (fun _ _ => True) (destroyFrom t pdev passes .poison) (fun v _ => v ≠ some true) h := by
  cases passes with
  | zero => exact Act.wp_pure.mpr (by simp)
  | succ passes => exact Act.wp_fault.mpr (by simp)

/-- A pass over a member ends the loop with the list as it was, or does not let it end. -/
theorem destroyFrom_ends {h : Heap} (ring : h.links.Represents .head ((m :: rest).map .member))
    (passes : Nat) :
    Act.wp (fun _ _ => True) (destroyFrom t pdev passes (.to (.member m)))
      (fun v u => v = some true → u.links = h.links) h := by
  cases passes with
  | zero => exact Act.wp_pure.mpr (by simp)
  | succ passes =>
    rw [destroyFrom_member, Act.wp_bind]
    apply Act.wp_mono (onWorld_links (takeDown t m) h)
    intro v u same
    cases v with
    | none => exact fun _ => same.1
    | some rv =>
      obtain ⟨changed, deleted, _, poisoned⟩ := Links.delete_represents [] ring
      rw [← same.1] at deleted
      rw [Act.andThen_some]
      by_cases failed : rv < 0
      · rw [if_pos failed]
        exact Act.wp_pure.mpr fun _ => same.1
      · rw [if_neg failed]
        simp only [listDel, follow, Act.wp_bind, Act.wp_read, Act.andThen_some, deleted, Act.wp_update]
        apply Act.wp_mono (onWorld_links _ _)
        intro v u kept
        cases v with
        | none => simp
        | some _ =>
          simp only [Act.andThen_some, Act.wp_bind, Act.wp_read, Act.wp_update, Act.wp_pure, kept.1,
            poisoned]
          apply Act.wp_mono (destroyFrom_poison passes _)
          intro v _ other ended
          exact absurd ended other

/-- A list with a member on it is not emptied by a loop that ends. -/
theorem member_stays (ring : links.Represents .head ((m :: rest).map .member)) :
    ¬ DestroysList t pdev w links (m :: rest) := by
  rintro ⟨passes, all⟩
  have full : links.next .head = .to (.member m) := ring.next
  have run : Act.wp (fun _ _ => True) (fileDestroyInterfaces t pdev passes)
      (fun v u => v = some true → u.links = links) ⟨w, links, []⟩ := by
    simp only [fileDestroyInterfaces, follow, Act.wp_bind, Act.wp_read, Act.andThen_some, full,
      Link.to.injEq, reduceCtorEq, if_false, Act.wp_update, Act.wp_pure]
    exact destroyFrom_ends ring passes
  have kept := run.2 all.ends
  have empty := all.empty
  rw [kept, full] at empty
  cases empty

theorem empty_destroyed (ring : links.Represents .head []) : DestroysList t pdev w links [] := by
  refine ⟨0, ?_⟩
  have empty : links.next .head = .to .head := ring.next
  have first : ((Act.read fun h : Heap => h.links.next .head).run ⟨w, links, []⟩ :
      Outcome Heap Call _).value = some (.to .head) := congrArg some empty
  rw [fileDestroyInterfaces, Act.run_bind_some _ first, if_pos rfl]
  exact ⟨rfl, rfl, rfl, .nil, empty, List.not_mem_nil⟩

/-- file_destroy_interfaces does all of that exactly when the list is empty. -/
theorem destroysList_iff (ring : links.Represents .head (ms.map .member)) :
    DestroysList t pdev w links ms ↔ ms = [] := by
  cases ms with
  | nil => exact ⟨fun _ => rfl, fun _ => empty_destroyed ring⟩
  | cons m rest => exact ⟨fun all => absurd all (member_stays ring), fun impossible => by cases impossible⟩

/-- On a list with a first member, the loop over the list of members takes that one down,
and runs into a fault behind it. -/
theorem destroyMembers_member (type : Nat) :
    destroyMembers t .poison pdev type (m :: rest) = (do
      if (← takeDown t m) < 0 then return
      else
        onDev pdev (Interfaces.listDel type m)
        onDev pdev (kfree (.memberEntry m))
        Act.fault) := by
  rw [destroyMembers, takeDown, bind_assoc]
  congr 1
  funext cdevno
  rw [bind_assoc]

/-- The loop on links makes the calls of the loop over the list of members that finds
poison behind an entry, and ends or is cut off with it. -/
theorem walk_refines (ring : links.Represents .head (ms.map .member)) (type passes : Nat) :
    let walked := (fileDestroyInterfaces t pdev (passes + 2)).run ⟨w, links, []⟩
    let listed := (destroyMembers t .poison pdev type ms).run w
    walked.value.isSome = listed.value.isSome ∧
      (walked.trace.flatMap fun e => [e.2]) = listed.trace.flatMap fun e => [e.2] := by
  have both : Act.collects (fun c => [c]) (fileDestroyInterfaces t pdev (passes + 2)) (fun v _ walked =>
      Act.collects (fun c => [c]) (destroyMembers t .poison pdev type ms) (fun v' _ listed =>
        v.isSome = v'.isSome ∧ walked = listed) w) ⟨w, links, []⟩ := by
    cases ms with
    | nil =>
      have empty : links.next .head = .to .head := ring.next
      simp [fileDestroyInterfaces, empty, destroyMembers]
    | cons m rest =>
      have full : links.next .head = .to (.member m) := ring.next
      obtain ⟨changed, deleted, _, poisoned⟩ := Links.delete_represents [] ring
      have astray : destroyFrom t pdev (passes + 1) .poison = Act.fault := rfl
      simp only [fileDestroyInterfaces, follow, Act.collects_bind, Act.collects_read,
        Act.thenCollects_some, full, Link.to.injEq, reduceCtorEq, if_false, Act.collects_update,
        Act.collects_pure, destroyFrom_member, onWorld, Act.collects_zoom, destroyMembers_member,
        List.nil_append]
      cases taken : ((takeDown t m).run w).value with
      | none => simp [Act.collects_value taken]
      | some rv =>
        simp only [Act.collects_value taken, Act.thenCollects_some]
        by_cases failed : rv < 0
        · simp [failed]
        · simp only [if_neg failed, listDel, onDev, kfree, Interfaces.listDel, storeXpdev,
            Act.collects_bind, Act.collects_read, Act.thenCollects_some, Heap.withWorld_links, deleted,
            Act.collects_update, Act.collects_zoom, Act.collects_call, Act.collects_fault, poisoned]
          simp [astray]
  exact both

end

/-- A member as create_xcdev leaves it. -/
structure Live (w : World) (m : MemberPtr) : Prop where
  allocated : m ∈ (w.dev m.pdev).memberLive
  device : ((w.dev m.pdev).member m).sysDevice = .real
  owner : ((w.dev m.pdev).member m).xdev ≠ none

/-- The ring of a head and one member. -/
def loneLinks (m : MemberPtr) : Links Entry where
  next e := if e = .head then .to (.member m) else .to .head
  prev e := if e = .head then .to (.member m) else .to .head

theorem loneLinks_represents (m : MemberPtr) : (loneLinks m).Represents .head ([m].map .member) where
  nodup := by simp
  path := ⟨⟨rfl, rfl⟩, rfl, rfl⟩

def noLinks : Links Entry := ⟨fun _ => .to .head, fun _ => .to .head⟩

theorem noLinks_represents : noLinks.Represents .head (([] : List MemberPtr).map .member) where
  nodup := by simp
  path := ⟨rfl, rfl⟩

/-- A module with one device file. -/
def loneWorld (m : MemberPtr) : World :=
  setDev (.start .plain (fun _ _ => 0) fun _ _ _ => 0) m.pdev
    { config := fun _ => 0, regs := fun _ _ => 0, memberLive := [m], cdevs := [(mkdev 240 0, m)]
      sysDevices := [mkdev 240 0]
      member := fun _ => ⟨some ⟨m.pdev, 0⟩, mkdev 240 0, true, some .config, 0, .real⟩ }

theorem destroysList_iff_few :
    (DestroysList tables 0 (loneWorld ⟨0, 0⟩) noLinks [] ↔ ([] : List MemberPtr) = []) ∧
      (DestroysList tables 0 (loneWorld ⟨0, 0⟩) (loneLinks ⟨0, 0⟩) [⟨0, 0⟩] ↔
        [(⟨0, 0⟩ : MemberPtr)] = []) :=
  ⟨destroysList_iff noLinks_represents, destroysList_iff (loneLinks_represents ⟨0, 0⟩)⟩

/-- A list of one member already makes the loop follow a link of a removed entry. -/
theorem lone_member_stays :
    ¬ ∀ (w : World) (links : Links Entry) (pdev : Dev) (ms : List MemberPtr),
      links.Represents .head (ms.map .member) → w.gXgpuClass = true → (∀ m ∈ ms, Live w m) →
        DestroysList tables pdev w links ms := by
  intro all
  have live : ∀ m ∈ [(⟨0, 0⟩ : MemberPtr)], Live (loneWorld ⟨0, 0⟩) m := by
    intro m member
    rw [List.mem_singleton.mp member]
    exact ⟨by decide, by decide, by decide⟩
  exact member_stays (loneLinks_represents ⟨0, 0⟩)
    (all (loneWorld ⟨0, 0⟩) (loneLinks ⟨0, 0⟩) 0 [⟨0, 0⟩] (loneLinks_represents _) rfl live)

end PcieUtil.Driver.Walking
