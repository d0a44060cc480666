import PcieUtil.System.Hotplug

/-! The register files over the histories of the module: all of them go through the one
mapping that cdev_register_init has set last. -/

namespace PcieUtil.System.Registers
open Lib.Action Lib.Bytes
open Driver.State Driver.RegisterFile Driver.Devices Driver.Interfaces Driver.Probe Driver.Probing
  Driver.Requests Hotplug

/-- An access goes through a mapping of BAR 5 of the device that is there. -/
def OnOwnDevice (pdev : Dev) (w : World) : Call → Prop
  | .ioread32 base _ | .iowrite32 base _ _ =>
      ∃ m, base = some m ∧ m.pdev = pdev ∧ m.bar = REGISTER_BAR ∧ m ∈ (w.dev pdev).held.maps
  | _ => True

/-- A request on a register file of a bound device reaches that device. -/
def ReachesOwn (hw : Dev → PciDev) (walk : Walk) (s : Sys) (e : Event) : Prop :=
  match e with
  | .request pdev fd _ => ∀ m, s.files (pdev, fd) = some ⟨m, .register⟩ → s.binding pdev = .bound →
      ∀ c ∈ calls hw walk s e, OnOwnDevice pdev c.1 c.2
  | .probe _ _ | .remove _ | .openFile _ _ => True

/-- An access on a register file of a bound device comes while the latest pci_iomap in
cdev_register_init was for that device and has succeeded. -/
def LatestMapped (s : Sys) : Event → Prop
  | .request pdev fd op => ∀ m, s.files (pdev, fd) = some ⟨m, .register⟩ → s.binding pdev = .bound →
      Accesses tables ((s.world.dev m.pdev).member m) op → s.world.registerInit = some (pdev, true)
  | _ => True

/-- What the history variable says of the mapping. -/
def Noted (w : World) : Prop :=
  ∀ d mapped, w.registerInit = some (d, mapped) →
    mapped = w.pcimapAddr.isSome ∧ ∀ m, w.pcimapAddr = some m → m.pdev = d ∧ m.bar = REGISTER_BAR

section
variable {hw : Dev → PciDev} {walk : Walk} {s : Sys} {w u : World} {pdev : Dev}

theorem Noted.same (noted : Noted w) (addr : u.pcimapAddr = w.pcimapAddr)
    (note : u.registerInit = w.registerInit) : Noted u := by
  unfold Noted
  rw [addr, note]
  exact noted

theorem Noted.apart (noted : Noted w) (apart : Apart pdev w u) : Noted u := by
  obtain same | set := apart.register
  · exact noted.same same.addr same.note
  · intro d mapped note
    rw [set.note, Option.some.injEq, Prod.mk.injEq] at note
    obtain ⟨rfl, rfl⟩ := note
    exact ⟨rfl, set.own⟩

theorem noted_step (inv : Inv hw s) (noted : Noted s.world) {e : Event} (possible : Admits s e) :
    Noted (step hw walk s e).world := by
  cases e with
  | probe d env =>
    have spec : Act.wp (LawfulOn hw True d s.world) (probeOne hw tables walk env d) _ s.world :=
      probe_spec inv possible fun _ => trivial
    obtain ⟨_, apart, _⟩ := spec
    exact noted.apart apart
  | remove d =>
    have spec : Act.wp (LawfulOn hw True d s.world) (removeOne hw tables walk d) _ s.world :=
      remove_spec inv possible
    obtain ⟨_, apart, _⟩ := spec
    exact noted.apart apart
  | openFile fd m => exact noted
  | request d fd op =>
    obtain ⟨file, there⟩ := Option.ne_none_iff_exists'.mp possible
    obtain ⟨_, same⟩ := request_step hw tables s.world file op
    simp only [step, there]
    exact noted.same (congrArg DriverView.pcimapAddr same) (congrArg DriverView.registerInit same)

/-- The mapping that was set last, for a device that is bound. -/
theorem Noted.mapping (noted : Noted s.world) (inv : Inv hw s)
    (latest : s.world.registerInit = some (pdev, true)) :
    ∃ m, s.world.pcimapAddr = some m ∧ m.pdev = pdev ∧ m.bar = REGISTER_BAR ∧
      m ∈ (s.world.dev pdev).held.maps := by
  obtain ⟨mapped, own⟩ := noted pdev true latest
  obtain ⟨m, base⟩ := Option.isSome_iff_exists.mp mapped.symm
  obtain ⟨device, bar⟩ := own m base
  exact ⟨m, base, device, bar, Known.pinned (inv.devices pdev) m base device⟩

theorem reachesOwn_step (inv : Inv hw s) (noted : Noted s.world) {e : Event}
    (meets : LatestMapped s e) : ReachesOwn hw walk s e := by
  cases e with
  | probe d env => trivial
  | remove d => trivial
  | openFile fd m => trivial
  | request pdev fd op =>
    intro member opened bound
    simp only [calls, opened]
    intro c made
    have spec := request_step hw tables s.world ⟨member, .register⟩ op
    obtain ⟨same, requested⟩ := spec.1 c made
    have reached : ∀ base,
        basePointer tables s.world ⟨member, .register⟩ op = some base →
        ∃ m, base = some m ∧ m.pdev = pdev ∧ m.bar = REGISTER_BAR ∧
          m ∈ (c.1.dev pdev).held.maps := by
      intro base pointer
      simp only [basePointer] at pointer
      split at pointer
      next accesses =>
        rw [Option.some.injEq] at pointer
        rw [held_view (driverPart_same same pdev), ← pointer]
        exact noted.mapping inv (meets member opened bound accesses)
      next => cases pointer
    cases called : c.2 with
    | ioread32 base offset =>
      rw [called] at requested
      exact reached base requested
    | iowrite32 base offset value =>
      rw [called] at requested
      exact reached base requested
    | _ => trivial

/-- In a history whose register accesses all come while their own device has been mapped
last, they reach that device. -/
theorem registers_reach_own {bus : Bus} {config : Dev → Memory} {regs : Dev → Nat → Nat → BitVec 32}
    {es : List Event} (run : (machine hw walk).Run LatestMapped (Sys.start bus config regs) es s) :
    ∀ e, (machine hw walk).admits s e → LatestMapped s e → ReachesOwn hw walk s e := by
  have kept := run.invariant (fun s => Inv hw s ∧ Noted s.world)
    ⟨inv_start bus config regs, fun _ _ note => by cases note⟩
    fun _ _ inv possible _ => ⟨inv_step inv.1 possible, noted_step inv.1 inv.2 possible⟩
  exact fun _ _ meets => reachesOwn_step kept.1 kept.2 meets

end

/-- The second register file of device 0. -/
def registerMember : MemberPtr := ⟨0, 13⟩

/-- A read of four bytes into a buffer that holds them. -/
def readFour : Op := .read ⟨fun _ => 0, 4, 4⟩ 4 0

theorem registers_reach_own_read :
    ReachesOwn board .every (step board .every (step board .every idleStart (goodProbe 0))
      (.openFile 0 registerMember)) (.request 0 0 readFour) := by
  have opens : Admits (step board .every idleStart (goodProbe 0)) (.openFile 0 registerMember) :=
    ⟨by decide +kernel, 0x0F000008, by decide +kernel⟩
  have bound : (machine board .every).Run LatestMapped idleStart _ _ :=
    run_next .start (goodProbe 0) rfl trivial
  have opened := run_next bound (.openFile 0 registerMember) opens trivial
  have reads : Admits (step board .every (step board .every idleStart (goodProbe 0))
      (.openFile 0 registerMember)) (.request 0 0 readFour) := by
    unfold Admits
    decide +kernel
  apply registers_reach_own opened (.request 0 0 readFour) reads
  intro m _ _ _
  decide +kernel

/-- After a second board is probed, the register files of the first one read that board. -/
theorem register_of_other :
    ¬ ∃ walk : Walk, ∀ (hw : Dev → PciDev) (bus : Bus) (config : Dev → Memory)
      (regs : Dev → Nat → Nat → BitVec 32) (es : List Event) (s : Sys),
      (machine hw walk).Run (fun _ _ => True) (Sys.start bus config regs) es s →
        ∀ e, (machine hw walk).admits s e → ReachesOwn hw walk s e := by
  rintro ⟨walk, all⟩
  generalize both : step board walk (step board walk idleStart (goodProbe 0)) (goodProbe 1) = probed
  have second : Admits (step board walk idleStart (goodProbe 0)) (goodProbe 1) := by
    unfold Admits goodProbe
    cases walk <;> decide +kernel
  have opens : Admits probed (.openFile 0 registerMember) := by
    rw [← both]
    refine ⟨?_, 0x0F000008, ?_⟩
    · cases walk <;> decide +kernel
    · cases walk <;> decide +kernel
  have first : (machine board walk).Run (fun _ _ => True) idleStart _ _ :=
    run_next .start (goodProbe 0) rfl trivial
  have run := run_next first (goodProbe 1) second trivial
  rw [both] at run
  have opened := run_next run (.openFile 0 registerMember) opens trivial
  have file : (step board walk probed (.openFile 0 registerMember)).files (0, 0) =
      some ⟨registerMember, .register⟩ := by
    rw [← both]
    cases walk <;> decide +kernel
  have bound : (step board walk probed (.openFile 0 registerMember)).binding 0 = .bound := by
    rw [← both]
    cases walk <;> decide +kernel
  have reads : Admits (step board walk probed (.openFile 0 registerMember)) (.request 0 0 readFour) := by
    intro closed
    rw [file] at closed
    cases closed
  have foreign : ((calls board walk (step board walk probed (.openFile 0 registerMember))
      (.request 0 0 readFour)).any fun c =>
        c.2 = .ioread32 (some ⟨1, 5, 24, 0x1000⟩) 0x378c) = true := by
    rw [← both]
    cases walk <;> decide +kernel
  obtain ⟨c, made, called⟩ := List.any_eq_true.mp foreign
  have own := all board _ _ _ _ _ opened (.request 0 0 readFour) reads registerMember file bound c made
  rw [of_decide_eq_true called] at own
  obtain ⟨m, same, device, _⟩ := own
  cases same
  cases device

end PcieUtil.System.Registers
