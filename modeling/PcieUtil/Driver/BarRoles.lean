import PcieUtil.Driver.Devices

/-! The roles that map_bars gives to the BARs of a device. -/

namespace PcieUtil.Driver.BarRoles
open Lib.Action State Kernel Discipline Bars Irq Devices

/-- `XDMA_OFS_INT_CTRL + sizeof(struct interrupt_regs)` -/
def interruptRegsEnd : Nat := XDMA_OFS_INT_CTRL + 0xc0

/-- The structure as alloc_dev_instance leaves it: no BAR is mapped, and none has a role. -/
structure Allocated (X : XgpuDev) : Prop where
  bar : ∀ j : Nat, X.bar j = none
  user : X.userBarIdx = -1
  bypass : X.bypassBarIdx = -1

theorem freshXdev_allocated (mname : String) (userMax : Nat) : Allocated (freshXdev mname userMax) :=
  ⟨fun _ => rfl, rfl, rfl⟩

/-- The BARs that have a role. -/
def roles (X : XgpuDev) : List Int :=
  [X.userBarIdx, X.configBarIdx, X.bypassBarIdx].filter (· ≠ -1)

/-- The config BAR is mapped as far as the interrupt registers go, each BAR with a role is mapped,
and no BAR has two roles. -/
structure GoodRoles (X : XgpuDev) : Prop where
  config : ∃ m, X.bar X.configBarIdx = some m ∧ interruptRegsEnd ≤ m.len
  mapped : ∀ idx ∈ roles X, X.bar idx ≠ none
  distinct : (roles X).Nodup

section
variable {hw : Dev → PciDev} {env : Env} {x : XdevPtr} {pdev : Dev} {X : XgpuDev}

theorem interruptRegs_covered :
    interruptRegsEnd ≤ mapLen hw pdev 1 ↔ interruptRegsEnd ≤ ((hw pdev).resourceLen 1).toNat := by
  unfold mapLen interruptRegsEnd XDMA_OFS_INT_CTRL INT_MAX
  split <;> omega

theorem presentBars_sorted (n : Nat) : (presentBars hw pdev n).Pairwise (· < ·) :=
  List.pairwise_lt_range.filter _

theorem mem_presentBars {n j : Nat} :
    j ∈ presentBars hw pdev n ↔ j < n ∧ (hw pdev).resourceLen j ≠ 0 := by
  simp [presentBars]

/-- The second of two BARs is BAR 1 when the first is BAR 0. -/
theorem second_present {n : Nat} (two : (presentBars hw pdev n).length = 2) :
    (presentBars hw pdev n).getD 1 0 ∈ presentBars hw pdev n ∧
      ((presentBars hw pdev n).getD 1 0 = 1 ↔ presentBars hw pdev n = [0, 1]) := by
  have sorted : (presentBars hw pdev n).Pairwise (· < ·) := presentBars_sorted n
  obtain ⟨a, b, same⟩ := List.length_eq_two.mp two
  rw [same] at sorted ⊢
  have order : a < b := by simpa using sorted
  refine ⟨by simp, ?_⟩
  constructor
  · intro second
    have one : b = 1 := second
    have zero : a = 0 := by omega
    rw [one, zero]
  · intro whole
    rw [whole]
    rfl

theorem bar_none_iff {bar : Int → Option Mapping} {j : Nat}
    (mapped : Mapped hw pdev bar XGPU_BAR_NUM) (below : j < XGPU_BAR_NUM) :
    bar j = none ↔ (hw pdev).resourceLen j = 0 := by
  have entry := mapped.below j below
  unfold MapsBar at entry
  by_cases absent : (hw pdev).resourceLen j = 0
  · rw [if_pos absent] at entry
    simp [entry, absent]
  · rw [if_neg absent] at entry
    obtain ⟨serial, entry⟩ := entry
    rw [entry]
    simpa using absent

/-- The config BAR, which is BAR 1 whatever is present. -/
theorem config_good {bar : Int → Option Mapping} (mapped : Mapped hw pdev bar XGPU_BAR_NUM) :
    (∃ m, bar 1 = some m ∧ interruptRegsEnd ≤ m.len) ↔
      interruptRegsEnd ≤ ((hw pdev).resourceLen 1).toNat := by
  have entry := mapped.below 1 (by decide)
  unfold MapsBar at entry
  by_cases absent : (hw pdev).resourceLen 1 = 0
  · rw [if_pos absent] at entry
    have entry : bar 1 = none := entry
    rw [entry, absent]
    simp [interruptRegsEnd]
  · rw [if_neg absent] at entry
    obtain ⟨serial, entry⟩ := entry
    have entry : bar 1 = some ⟨pdev, 1, serial, mapLen hw pdev 1⟩ := entry
    rw [entry, ← interruptRegs_covered]
    simp

/-- The roles after map_bars: the config BAR, and the second of exactly two BARs. -/
theorem barsOf_roles (allocated : Allocated X) (bar : Int → Option Mapping) :
    roles (barsOf hw pdev X bar) =
      if (presentBars hw pdev XGPU_BAR_NUM).length = 2 then
        [1, ((presentBars hw pdev XGPU_BAR_NUM).getD 1 0 : Int)]
      else [1] := by
  unfold roles barsOf
  simp only [allocated.user, allocated.bypass]
  split
  · simp
  · simp

theorem goodRoles_iff {bar : Int → Option Mapping} (allocated : Allocated X)
    (mapped : Mapped hw pdev bar XGPU_BAR_NUM) :
    GoodRoles (barsOf hw pdev X bar) ↔
      interruptRegsEnd ≤ ((hw pdev).resourceLen 1).toNat ∧ presentBars hw pdev XGPU_BAR_NUM ≠ [0, 1] := by
  have config := config_good mapped
  have given : roles (barsOf hw pdev X bar) = _ := barsOf_roles allocated bar
  have two_first : presentBars hw pdev XGPU_BAR_NUM = [0, 1] →
      (presentBars hw pdev XGPU_BAR_NUM).length = 2 := fun whole => congrArg List.length whole
  constructor
  · intro good
    refine ⟨config.mp good.config, fun whole => ?_⟩
    have distinct := good.distinct
    rw [given, if_pos (two_first whole), whole] at distinct
    exact absurd distinct (by decide)
  · intro both
    obtain ⟨covered, apart⟩ := both
    have first : bar 1 ≠ none := by
      obtain ⟨m, entry, _⟩ := config.mpr covered
      simp [entry]
    refine ⟨config.mpr covered, ?_, ?_⟩
    · rw [given]
      intro idx member
      by_cases two : (presentBars hw pdev XGPU_BAR_NUM).length = 2
      · rw [if_pos two] at member
        obtain rfl | rfl : idx = 1 ∨ idx = _ := by simpa using member
        · exact first
        · obtain ⟨below, present⟩ := mem_presentBars.mp (second_present two).1
          exact fun absent => present ((bar_none_iff mapped below).mp absent)
      · rw [if_neg two] at member
        obtain rfl : idx = 1 := by simpa using member
        exact first
    · rw [given]
      by_cases two : (presentBars hw pdev XGPU_BAR_NUM).length = 2
      · have other : (presentBars hw pdev XGPU_BAR_NUM).getD 1 0 ≠ 1 := fun one =>
          apart ((second_present two).2.mp one)
        rw [if_pos two, List.nodup_cons, List.mem_singleton]
        exact ⟨fun same => other (by omega), by simp⟩
      · rw [if_neg two]
        simp

/-- A successful map_bars gives usable roles exactly when BAR 1 reaches behind the interrupt
registers and is not the second of two BARs. -/
theorem mapBars_roles_iff {s : DevState} (allocated : Allocated (s.xdev x)) :
    (((mapBars hw env x pdev).run s).value = some 0 →
        GoodRoles (((mapBars hw env x pdev).run s).state.xdev x)) ↔
      ¬ BarsMap hw env pdev ∨
        interruptRegsEnd ≤ ((hw pdev).resourceLen 1).toNat ∧
          presentBars hw pdev XGPU_BAR_NUM ≠ [0, 1] := by
  have allows : AllowsBars (fun _ _ => True) x pdev s s.held.actions :=
    ⟨fun _ _ _ _ _ _ _ _ => trivial, fun _ _ _ _ _ _ _ => trivial⟩
  have run : Act.wp _ (mapBars hw env x pdev) _ s :=
    mapBars_step (Becomes.refl x s) allows allocated.bar
  obtain ⟨rv, value, outcome⟩ := Act.wp_final run
  rw [value]
  obtain ⟨zero, maps, bar, mapped, now⟩ | ⟨failed, fails, _⟩ := outcome
  · rw [now.xdev, goodRoles_iff allocated mapped]
    simp [zero, maps]
  · simp [failed, fails]

end

/-- A board with BARs 0 and 1 of 32 KiB each, when both are true. -/
def twoBars (first second : Bool) : Dev → PciDev := fun _ =>
  plainDev (fun bar => if bar = 0 ∧ first ∨ bar = 1 ∧ second then 0x8000 else 0) false false

/-- A device right behind alloc_dev_instance. -/
def allocatedState : DevState where
  config := fun _ => 0
  regs := fun _ _ => 0
  xdev := fun _ => freshXdev "xgpu" 16

theorem mapBars_roles_iff_second :
    GoodRoles (((mapBars (twoBars false true) (.calm 0) ⟨0, 0⟩ 0).run allocatedState).state.xdev
      ⟨0, 0⟩) :=
  (mapBars_roles_iff (freshXdev_allocated "xgpu" 16)).mpr (.inr (by decide)) (by decide +kernel)

/-- With BAR 0 alone, map_bars succeeds and names BAR 1 the config BAR. -/
theorem config_bar_absent :
    ¬ ∀ (hw : Dev → PciDev) (env : Env) (x : XdevPtr) (pdev : Dev) (s : DevState),
      Allocated (s.xdev x) → ((mapBars hw env x pdev).run s).value = some 0 →
        GoodRoles (((mapBars hw env x pdev).run s).state.xdev x) := by
  intro all
  have good := all (twoBars true false) (.calm 0) ⟨0, 0⟩ 0 allocatedState
    (freshXdev_allocated "xgpu" 16) (by decide +kernel)
  obtain ⟨m, entry, _⟩ := good.config
  have unmapped : (((mapBars (twoBars true false) (.calm 0) ⟨0, 0⟩ 0).run allocatedState).state.xdev
      ⟨0, 0⟩).bar 1 = none := by decide +kernel
  have named : (((mapBars (twoBars true false) (.calm 0) ⟨0, 0⟩ 0).run allocatedState).state.xdev
      ⟨0, 0⟩).configBarIdx = 1 := by decide +kernel
  rw [named, unmapped] at entry
  exact absurd entry (by simp)

end PcieUtil.Driver.BarRoles
