import PcieUtil.System.Hotplug

/-! Files that stay open while devices come and go: what their handlers dereference. -/

namespace PcieUtil.System.Files
open Lib.Action Lib.Bytes
open Driver.State Driver.Devices Driver.Interfaces Driver.Transfers Driver.Nodes Driver.Probe
  Driver.Probing Driver.Requests Hotplug

/-- The xgpu_cdev m and the xgpu_dev it points to are allocated. -/
structure Alive (w : World) (m : MemberPtr) : Prop where
  member : m ∈ (w.dev m.pdev).memberLive
  xdev : ∀ x, ((w.dev m.pdev).member m).xdev = some x → x ∈ (w.dev x.pdev).xdevLive

/-- An access goes through a mapping that is there, if it goes through one. -/
def AccessMapped (w : World) : Call → Prop
  | .ioread32 (some m) _ | .iowrite32 (some m) _ _ => m ∈ (w.dev m.pdev).held.maps
  | _ => True

section
variable (hw : Dev → PciDev) (walk : Walk)

/-- The handler of an event finds what it dereferences, from its entry on. -/
def HandlerSafe (s : Sys) (e : Event) : Prop :=
  match e with
  | .openFile _ m => Alive s.world m
  | .request pdev fd _ => ∀ file, s.files (pdev, fd) = some file →
      Alive s.world file.member ∧
        ∀ c ∈ calls hw walk s e, Alive c.1 file.member ∧ AccessMapped c.1 c.2
  | .probe _ _ | .remove _ => True

/-- A device is removed only when none of its files is open. -/
def Released (s : Sys) : Event → Prop
  | .remove pdev => ∀ fd, s.files (pdev, fd) = none
  | _ => True

/-- A file on a node that its device still has. -/
def Serving (w : World) (pdev : Dev) (file : File) : Prop :=
  ∃ x type, x.pdev = pdev ∧ Usable hw tables x (w.dev pdev) ∧
    file.member ∈ (w.dev pdev).xpdev.listHead type ∧ opsOf type = some file.ops

/-- Every open file is on such a node. -/
def Served (s : Sys) : Prop :=
  ∀ pdev fd file, s.files (pdev, fd) = some file → Serving hw s.world pdev file

end

section
variable {hw : Dev → PciDev} {walk : Walk} {s : Sys} {w u : World} {pdev : Dev} {file : File}

theorem Serving.same_dev (serving : Serving hw w pdev file) (dev : u.dev pdev = w.dev pdev) :
    Serving hw u pdev file := by
  unfold Serving
  rw [dev]
  exact serving

theorem Serving.view (serving : Serving hw w pdev file) (same : driverView u = driverView w) :
    Serving hw u pdev file := by
  obtain ⟨x, type, own, usable, listed, ops⟩ := serving
  have part := driverPart_same same pdev
  refine ⟨x, type, own, Usable.view usable part, ?_, ops⟩
  rw [driverPart_eq part]
  exact listed

theorem Serving.alive (serving : Serving hw w pdev file) : Alive w file.member := by
  obtain ⟨x, type, own, usable, listed, _⟩ := serving
  have member := usable.linked.each type _ listed
  have home : file.member.pdev = pdev := member.own.trans own
  constructor
  · rw [home]
    exact member.live
  · intro y set
    rw [home, member.finished.xdev, Option.some.injEq] at set
    subst set
    rw [own]
    exact usable.live

/-- A device without nodes has no open files. -/
theorem Served.none_open (served : Served hw s) (nodes : NoNodes (s.world.dev pdev)) (fd : Nat) :
    s.files (pdev, fd) = none := by
  rw [Option.eq_none_iff_forall_ne_some]
  intro file opened
  obtain ⟨x, type, _, _, listed, _⟩ := served pdev fd file opened
  rw [nodes.lists type] at listed
  cases listed

/-- What can be opened is a node that its device still has. -/
theorem serving_of_registered (inv : Inv hw s) {m : MemberPtr} {cdevno : BitVec 32}
    (registered : (cdevno, m) ∈ (s.world.dev m.pdev).cdevs) :
    ∃ ops, ((s.world.dev m.pdev).member m).ops = some ops ∧
      Serving hw s.world m.pdev (charOpen m ops) := by
  obtain nodes | ⟨x, own, usable⟩ := Known.usable (inv.devices m.pdev)
  · rw [nodes.cdevs] at registered
    cases registered
  · obtain ⟨type, listed⟩ := usable.linked.registered _ registered
    have ops := (usable.linked.each type m listed).finished.ops
    have small : type < 3 := by
      apply Nat.lt_of_not_le
      intro large
      rw [usable.linked.three type large] at listed
      cases listed
    obtain ⟨fops, named⟩ : ∃ fops, opsOf type = some fops := by
      match type, small with
      | 0, _ => exact ⟨_, rfl⟩
      | 1, _ => exact ⟨_, rfl⟩
      | 2, _ => exact ⟨_, rfl⟩
    exact ⟨fops, ops.trans named, x, type, own, usable, listed, named⟩

/-- The pointer of a request is a mapping that is there. -/
theorem basePointer_mapped (inv : Inv hw s) (serving : Serving hw s.world pdev file) {op : Op}
    {m : Mapping} (base : basePointer tables s.world file op = some (some m)) :
    m ∈ (s.world.dev m.pdev).held.maps := by
  obtain ⟨x, type, own, usable, listed, _⟩ := serving
  have member := usable.linked.each type _ listed
  have home : file.member.pdev = pdev := member.own.trans own
  unfold basePointer at base
  cases ops : file.ops with
  | config =>
    rw [ops] at base
    cases base
  | register =>
    simp only [ops] at base
    split at base
    · rw [Option.some.injEq] at base
      exact Known.pinned (inv.devices m.pdev) m base rfl
    · cases base
  | ctrl =>
    obtain ⟨i, bar⟩ := member.finished.bar
    simp only [ops, home, ctrlMapping, member.finished.xdev, Option.bind_some, bar, own,
      Option.some.injEq] at base
    rw [usable.tagged i m base, own]
    exact usable.mapped i m base

theorem served_step (inv : Inv hw s) (served : Served hw s) {e : Event} (possible : Admits s e)
    (meets : Released s e) : Served hw (step hw walk s e) := by
  cases e with
  | probe d env =>
    have spec : Act.wp (LawfulOn hw True d s.world) (probeOne hw tables walk env d) _ s.world :=
      probe_spec inv possible fun _ => trivial
    obtain ⟨_, apart, _⟩ := spec
    have unbound := inv.devices d
    rw [show s.binding d = .unbound from possible] at unbound
    intro pdev fd file opened
    change s.files (pdev, fd) = some file at opened
    by_cases own : pdev = d
    · subst own
      rw [served.none_open (Unbound.nodes unbound) fd] at opened
      cases opened
    · exact (served pdev fd file opened).same_dev (apart.dev pdev own)
  | remove d =>
    have spec : Act.wp (LawfulOn hw True d s.world) (removeOne hw tables walk d) _ s.world :=
      remove_spec inv possible
    obtain ⟨_, apart, _⟩ := spec
    intro pdev fd file opened
    change s.files (pdev, fd) = some file at opened
    by_cases own : pdev = d
    · subst own
      rw [meets fd] at opened
      cases opened
    · exact (served pdev fd file opened).same_dev (apart.dev pdev own)
  | openFile fd m =>
    obtain ⟨_, cdevno, registered⟩ := possible
    obtain ⟨ops, named, serving⟩ := serving_of_registered inv registered
    intro pdev fd' file opened
    simp only [step, named, Option.map_some] at opened ⊢
    by_cases new : (pdev, fd') = (m.pdev, fd)
    · rw [new, Function.update_self, Option.some.injEq] at opened
      obtain ⟨rfl, rfl⟩ := Prod.mk.inj new
      subst opened
      exact serving
    · rw [Function.update_of_ne new] at opened
      exact served pdev fd' file opened
  | request d fd op =>
    obtain ⟨used, there⟩ := Option.ne_none_iff_exists'.mp possible
    obtain ⟨_, same⟩ := request_step hw tables s.world used op
    intro pdev fd' file opened
    simp only [step, there] at opened ⊢
    have before : s.files (pdev, fd') = some file := by
      split at opened
      · by_cases closed : (pdev, fd') = (d, fd)
        · rw [closed, Function.update_self] at opened
          cases opened
        · rwa [Function.update_of_ne closed] at opened
      · exact opened
    exact (served pdev fd' file before).view same

/-- Only an open makes a file. -/
theorem step_files_none {e : Event} {fd : Nat} (closed : s.files (pdev, fd) = none)
    (other : ∀ m, .openFile fd m ≠ e) : (step hw walk s e).files (pdev, fd) = none := by
  cases e with
  | probe d env => exact closed
  | remove d => exact closed
  | openFile fd' m =>
    have different : (pdev, fd) ≠ (m.pdev, fd') := by
      rintro ⟨⟩
      exact other m rfl
    simp only [step, Function.update_of_ne different, closed]
  | request d fd' op =>
    cases used : s.files (d, fd') with
    | none => simp only [step, used, closed]
    | some file =>
      simp only [step, used]
      split
      · by_cases same : (pdev, fd) = (d, fd')
        · rw [same, Function.update_self]
        · rw [Function.update_of_ne same, closed]
      · exact closed

theorem handlerSafe_step (inv : Inv hw s) (served : Served hw s) {e : Event}
    (possible : Admits s e) : HandlerSafe hw walk s e := by
  cases e with
  | probe d env => trivial
  | remove d => trivial
  | openFile fd m =>
    obtain ⟨_, cdevno, registered⟩ := possible
    obtain ⟨ops, _, serving⟩ := serving_of_registered inv registered
    exact serving.alive
  | request pdev fd op =>
    intro file opened
    have serving := served pdev fd file opened
    refine ⟨serving.alive, ?_⟩
    simp only [calls, opened]
    intro c made
    have spec := request_step hw tables s.world file op
    obtain ⟨same, requested⟩ := spec.1 c made
    refine ⟨(serving.view same).alive, ?_⟩
    have mapped : ∀ m, basePointer tables s.world file op = some (some m) →
        m ∈ (c.1.dev m.pdev).held.maps := by
      intro m base
      rw [held_view (driverPart_same same m.pdev)]
      exact basePointer_mapped inv serving base
    cases called : c.2 with
    | ioread32 base offset =>
      rw [called] at requested
      cases base with
      | none => trivial
      | some m => exact mapped m requested
    | iowrite32 base offset value =>
      rw [called] at requested
      cases base with
      | none => trivial
      | some m => exact mapped m requested
    | _ => trivial

/-- While devices are removed only when none of their files is open, no handler runs on
what the driver has released. -/
theorem handlers_safe {bus : Bus} {config : Dev → Memory} {regs : Dev → Nat → Nat → BitVec 32}
    {es : List Event} (run : (machine hw walk).Run Released (Sys.start bus config regs) es s) :
    ∀ e, (machine hw walk).admits s e → HandlerSafe hw walk s e := by
  have kept := run.invariant (fun s => Inv hw s ∧ Served hw s)
    ⟨inv_start bus config regs, fun _ _ _ opened => by cases opened⟩
    fun _ _ inv possible meets =>
      ⟨inv_step inv.1 possible, served_step inv.1 inv.2 possible meets⟩
  exact fun _ possible => handlerSafe_step kept.1 kept.2 possible

end

/-- The first control file of the device. -/
def ctrlMember : MemberPtr := ⟨0, 25⟩

theorem ctrlMember_opens (walk : Walk) :
    Admits (step board walk idleStart (goodProbe 0)) (.openFile 0 ctrlMember) := by
  refine ⟨?_, 0x0F00000E, ?_⟩
  · cases walk <;> decide +kernel
  · cases walk <;> decide +kernel

/-- A board that has no regions left when it is removed, so that it can be probed again. -/
def smallBoard : Dev → PciDev := fun _ =>
  plainDev (fun bar => if bar = 1 then 0x8000 else if bar = 3 then 0x1000 else 0) true true

def readWord : Op := .read ample 4 0

/-- A file of device 0 is read and closed, the device goes and comes back, and one of its
new files is opened. -/
def comesBack : List Event :=
  [goodProbe 0, .openFile 0 ⟨0, 17⟩, .request 0 0 readWord, .request 0 0 .release, .remove 0,
    goodProbe 0, .openFile 0 ⟨0, 37⟩]

/-- The state after the first n of these events. -/
def after (n : Nat) : Sys := (comesBack.take n).foldl (step smallBoard .every) idleStart

theorem after_succ {n : Nat} {e : Event} (here : comesBack[n]? = some e) :
    after (n + 1) = step smallBoard .every (after n) e := by
  rw [after, List.take_add_one, here, List.foldl_append]
  rfl

/-- The first events make a run when the next one is possible. -/
theorem after_run {n : Nat} {e : Event}
    (run : (machine smallBoard .every).Run Released idleStart (comesBack.take n) (after n))
    (here : comesBack[n]? = some e) (possible : Admits (after n) e) (meets : Released (after n) e) :
    (machine smallBoard .every).Run Released idleStart (comesBack.take (n + 1)) (after (n + 1)) := by
  rw [after_succ here, List.take_add_one, here]
  exact run_next run e possible meets

theorem comesBack_closed (fd : Nat) : (after 4).files (0, fd) = none := by
  by_cases first : fd = 0
  · subst first
    decide +kernel
  · have different : ∀ m, .openFile fd m ≠ Event.openFile 0 ⟨0, 17⟩ := by
      intro m same
      cases same
      exact first rfl
    rw [after_succ (show comesBack[3]? = some (.request 0 0 .release) from rfl)]
    apply step_files_none _ fun m same => by cases same
    rw [after_succ (show comesBack[2]? = some (.request 0 0 readWord) from rfl)]
    apply step_files_none _ fun m same => by cases same
    rw [after_succ (show comesBack[1]? = some (.openFile 0 ⟨0, 17⟩) from rfl)]
    exact step_files_none rfl different

theorem handlers_safe_back :
    (after 7).files (0, 0) = some ⟨⟨0, 37⟩, .ctrl⟩ ∧
      HandlerSafe smallBoard .every (after 7) (.request 0 0 readWord) := by
  have opens : Admits (after 1) (.openFile 0 ⟨0, 17⟩) :=
    ⟨by decide +kernel, 0x0F00000E, by decide +kernel⟩
  have reads : Admits (after 2) (.request 0 0 readWord) := by unfold Admits; decide +kernel
  have closes : Admits (after 3) (.request 0 0 .release) := by unfold Admits; decide +kernel
  have goes : Admits (after 4) (.remove 0) := by unfold Admits; decide +kernel
  have returns : (after 5).binding 0 = .unbound := by decide +kernel
  have reopens : Admits (after 6) (.openFile 0 ⟨0, 37⟩) :=
    ⟨by decide +kernel, 0x0F00000E, by decide +kernel⟩
  have released : Released (after 4) (.remove 0) := fun fd => comesBack_closed fd
  have probed := after_run .start (show comesBack[0]? = some (goodProbe 0) from rfl) rfl trivial
  have opened := after_run probed (show comesBack[1]? = some (.openFile 0 ⟨0, 17⟩) from rfl) opens trivial
  have read := after_run opened (show comesBack[2]? = some (.request 0 0 readWord) from rfl) reads trivial
  have closed := after_run read (show comesBack[3]? = some (.request 0 0 .release) from rfl) closes trivial
  have gone := after_run closed (show comesBack[4]? = some (.remove 0) from rfl) goes released
  have back := after_run gone (show comesBack[5]? = some (goodProbe 0) from rfl) returns trivial
  have reopened := after_run back (show comesBack[6]? = some (.openFile 0 ⟨0, 37⟩) from rfl) reopens trivial
  have file : (after 7).files (0, 0) = some ⟨⟨0, 37⟩, .ctrl⟩ := by decide +kernel
  refine ⟨file, handlers_safe reopened _ ?_⟩
  intro closed
  rw [file] at closed
  cases closed

/-- A file that was open when its device was removed is released afterwards. -/
theorem released_after_remove :
    ¬ ∃ walk : Walk, ∀ (hw : Dev → PciDev) (bus : Bus) (config : Dev → Memory)
      (regs : Dev → Nat → Nat → BitVec 32) (es : List Event) (s : Sys),
      (machine hw walk).Run (fun _ _ => True) (Sys.start bus config regs) es s →
        ∀ e, (machine hw walk).admits s e → HandlerSafe hw walk s e := by
  rintro ⟨walk, all⟩
  have bound : (machine board walk).Run (fun _ _ => True) idleStart _ _ :=
    run_next .start (goodProbe 0) rfl trivial
  have opened := run_next bound (.openFile 0 ctrlMember) (ctrlMember_opens walk) trivial
  have possible : Admits (step board walk (step board walk idleStart (goodProbe 0))
      (.openFile 0 ctrlMember)) (.remove 0) := by
    unfold Admits
    cases walk <;> decide +kernel
  have removed := run_next opened (.remove 0) possible trivial
  have file : (step board walk (step board walk (step board walk idleStart (goodProbe 0))
      (.openFile 0 ctrlMember)) (.remove 0)).files (0, 0) = some (charOpen ctrlMember .ctrl) := by
    cases walk <;> decide +kernel
  have freed : ctrlMember ∉ ((step board walk (step board walk (step board walk idleStart (goodProbe 0))
      (.openFile 0 ctrlMember)) (.remove 0)).world.dev ctrlMember.pdev).memberLive := by
    cases walk <;> decide +kernel
  have requested : Admits (step board walk (step board walk (step board walk idleStart (goodProbe 0))
      (.openFile 0 ctrlMember)) (.remove 0)) (.request 0 0 .release) := by
    intro closed
    rw [file] at closed
    cases closed
  have safe := all board _ _ _ _ _ removed (.request 0 0 .release) requested
  have alive : Alive _ ctrlMember := (safe _ file).1
  exact freed alive.member

end PcieUtil.System.Files
