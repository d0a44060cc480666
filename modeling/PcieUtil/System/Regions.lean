import PcieUtil.System.OpenClose

/-! The regions over histories of open and close. request_regions does not set
got_regions, which the unwinding and the close path test, so a region that an
open is granted is never released. -/

namespace PcieUtil.System.Regions
open Lib.Action Lib.Events Lib.Bytes
open Driver.State Driver.Kernel Driver.Discipline Driver.Modes Driver.DeviceOpen Driver.Opening
  Driver.Devices OpenClose

def regionsOf (s : Sys) (pdev : Dev) : List Nat := (s.world.dev pdev).held.regions

def SameRegions (some other : List Nat) : Prop := ∀ bar, bar ∈ some ↔ bar ∈ other

section
variable (hw : Dev → PciDev)

/-- An open that returns NULL and a close leave the regions held as they were
before the open. -/
def GivesBack (s : Sys) : Event → Prop
  | .deviceOpen pdev mname userMax env =>
      let t := step hw s (.deviceOpen pdev mname userMax env)
      t.use pdev = .closed → SameRegions (regionsOf t pdev) (regionsOf s pdev)
  | .deviceClose pdev => ∀ handle, s.use pdev = .live handle →
      SameRegions (regionsOf (step hw s (.deviceClose pdev)) pdev) handle.regions

/-- The regions that an open is going to request are not held before. -/
def FindsFree (s : Sys) : Event → Prop
  | .deviceOpen pdev _ _ _ => 2 ∉ regionsOf s pdev ∧ 5 ∉ regionsOf s pdev
  | .deviceClose _ => True

/-- pci_request_region would take the region. -/
def Granted (env : Env) (pdev : Dev) (regions : List Nat) (bar : Nat) : Prop :=
  (hw pdev).resourceLen bar ≠ 0 ∧ bar ∉ regions ∧ env.errno (.requestRegion bar) = 0

/-- The open does not get to a region that it is granted. -/
def AcquiresNothing (env : Env) (pdev : Dev) (regions : List Nat) : Prop :=
  env.errno .kzalloc ≠ 0 ∨ env.errno .enableDevice ≠ 0 ∨
    if (hw pdev).resourceLen 2 = 0 then ¬ Granted hw env pdev regions 5
    else ¬ Granted hw env pdev regions 2

def Quietly (s : Sys) : Event → Prop
  | .deviceOpen pdev _ _ env => AcquiresNothing hw env pdev (regionsOf s pdev)
  | .deviceClose _ => True

end

section
variable {hw : Dev → PciDev} {env : Env} {pdev : Dev} {regions : List Nat} {s : Sys}

theorem requested_granted {bar : Nat} (granted : Granted hw env pdev regions bar) :
    requested hw env pdev regions bar = (true, bar :: regions) := by
  obtain ⟨present, free, ok⟩ := granted
  rw [requested, if_neg present, if_neg free, if_pos ok]

theorem requested_not_granted {bar : Nat} (refused : ¬ Granted hw env pdev regions bar) :
    (requested hw env pdev regions bar).2 = regions ∧
      ((hw pdev).resourceLen bar ≠ 0 → (requested hw env pdev regions bar).1 = false) := by
  unfold requested
  by_cases absent : (hw pdev).resourceLen bar = 0
  · rw [if_pos absent]
    exact ⟨rfl, fun present => absurd absent present⟩
  · rw [if_neg absent]
    by_cases busy : bar ∈ regions
    · rw [if_pos busy]
      exact ⟨rfl, fun _ => rfl⟩
    · rw [if_neg busy]
      by_cases ok : env.errno (.requestRegion bar) = 0
      · exact absurd ⟨absent, busy, ok⟩ refused
      · rw [if_neg ok]
        exact ⟨rfl, fun _ => rfl⟩

theorem requested_grows {bar other : Nat} (member : other ∈ regions) :
    other ∈ (requested hw env pdev regions bar).2 := by
  by_cases granted : Granted hw env pdev regions bar
  · rw [requested_granted granted]
    exact List.mem_cons_of_mem _ member
  · rw [(requested_not_granted granted).1]
    exact member

/-- The regions held after an open, for an open that is granted one and for one
that is not. -/
theorem regionsAfter_quiet (quiet : AcquiresNothing hw env pdev regions)
    (allocated : env.errno .kzalloc = 0) : regionsAfter hw env pdev regions = regions := by
  unfold regionsAfter
  by_cases enabled : env.errno .enableDevice = 0
  · rw [if_pos enabled]
    obtain failed | failed | refused := quiet
    · exact absurd allocated failed
    · exact absurd enabled failed
    · unfold regionsRequested
      by_cases absent : (hw pdev).resourceLen 2 = 0
      · rw [if_pos absent] at refused
        have first : requested hw env pdev regions 2 = (true, regions) := if_pos absent
        rw [first, if_pos rfl]
        exact (requested_not_granted refused).1
      · rw [if_neg absent] at refused
        have first := requested_not_granted refused
        rw [if_neg (by simp [first.2 absent])]
        exact first.1
  · rw [if_neg enabled]

theorem regionsAfter_granted (acquires : ¬ AcquiresNothing hw env pdev regions) :
    ∃ bar ∈ regionsAfter hw env pdev regions, bar ∉ regions := by
  simp only [AcquiresNothing, not_or, not_not] at acquires
  obtain ⟨_, enabled, acquires⟩ := acquires
  rw [regionsAfter, if_pos enabled, regionsRequested]
  by_cases absent : (hw pdev).resourceLen 2 = 0
  · rw [if_pos absent, not_not] at acquires
    have first : requested hw env pdev regions 2 = (true, regions) := if_pos absent
    rw [first, if_pos rfl, requested_granted acquires]
    exact ⟨5, List.mem_cons_self, acquires.2.1⟩
  · rw [if_neg absent, not_not] at acquires
    rw [requested_granted acquires, if_pos rfl]
    exact ⟨2, requested_grows List.mem_cons_self, acquires.2.1⟩

/-- The regions after an open that was not cut off. -/
theorem opened_regions {v : Option (Option XdevPtr × Nat)} {u : World} {userMax : Nat} {w : World}
    (ends : DeviceOpened hw env w pdev userMax v u) (returned : v.isSome) :
    (u.dev pdev).held.regions = if env.errno .kzalloc = 0 then
      regionsAfter hw env pdev (w.dev pdev).held.regions else (w.dev pdev).held.regions := by
  rcases v with _ | ⟨_ | x, n⟩
  · cases returned
  · obtain ⟨_, left, t, xdev, idx, _, frame, rfl⟩ := ends
    rw [placed_dev, frame.held]
  · obtain ⟨_, _, ok, _, _, _, k, t, xdev, idx, _, _, _, same, frame, rfl⟩ := ends
    rw [placed_dev, frame.held, same, if_pos ok]

/-- An open that returned kept the regions exactly when it acquired none. -/
theorem open_keeps_regions_iff {v : Option (Option XdevPtr × Nat)} {u w : World} {userMax : Nat}
    (ends : DeviceOpened hw env w pdev userMax v u) (returned : v.isSome) :
    SameRegions (u.dev pdev).held.regions (w.dev pdev).held.regions ↔
      AcquiresNothing hw env pdev (w.dev pdev).held.regions := by
  rw [opened_regions ends returned]
  constructor
  · intro same
    by_cases allocated : env.errno .kzalloc = 0
    · by_cases quiet : AcquiresNothing hw env pdev (w.dev pdev).held.regions
      · exact quiet
      · obtain ⟨bar, member, fresh⟩ := regionsAfter_granted quiet
        rw [if_pos allocated] at same
        exact absurd ((same bar).mp member) fresh
    · exact .inl allocated
  · intro quiet bar
    by_cases allocated : env.errno .kzalloc = 0
    · rw [if_pos allocated, regionsAfter_quiet quiet allocated]
    · rw [if_neg allocated]

/-- No region is held, and none was when the live handle was opened. -/
def NoRegions (w : World) (pdev : Dev) : Use → Prop
  | .closed => (w.dev pdev).held.regions = []
  | .live handle => (w.dev pdev).held.regions = [] ∧ handle.regions = []
  | .stuck => True

theorem noRegions_other {w : World} {other : Dev} {d : DevState} {list : List XdevPtr}
    {idx : XdevPtr → Int} {use : Use} (different : other ≠ pdev) (none_held : NoRegions w other use) :
    NoRegions (placed w pdev d list idx) other use := by
  have dev := placed_other w pdev d list idx different
  cases use with
  | closed =>
    rw [NoRegions, dev]
    exact none_held
  | live handle =>
    rw [NoRegions, dev]
    exact none_held
  | stuck => trivial

theorem step_regions (known : ∀ d, Known hw s.world d (s.use d))
    (none_held : ∀ d, NoRegions s.world d (s.use d)) {e : Event} (possible : Admits s e)
    (quiet : Quietly hw s e) :
    (∀ d, NoRegions (step hw s e).world d ((step hw s e).use d)) ∧
      GivesBack hw s e ∧ FindsFree s e := by
  cases e with
  | deviceOpen pdev mname userMax env =>
    have start := known pdev
    have before := none_held pdev
    rw [possible] at start before
    have spec := (open_spec start mname userMax env).2
    rw [Quietly, regionsOf] at quiet
    rw [GivesBack, FindsFree, regionsOf, regionsOf]
    simp only [step, Function.update_self]
    generalize ((xgpuDeviceOpen hw env pdev mname userMax).run s.world).value = v at spec
    generalize ((xgpuDeviceOpen hw env pdev mname userMax).run s.world).state = u at spec
    have same := open_keeps_regions_iff spec
    have after : v.isSome → (u.dev pdev).held.regions = [] := by
      intro returned
      rw [opened_regions spec returned]
      by_cases allocated : env.errno .kzalloc = 0
      · rw [if_pos allocated, regionsAfter_quiet quiet allocated]
        exact before
      · rw [if_neg allocated]
        exact before
    refine ⟨fun d => ?_, fun closed => ?_, ?_⟩
    · by_cases here : d = pdev
      · subst here
        rw [Function.update_self]
        rcases v with _ | ⟨_ | x, n⟩
        · trivial
        · exact after rfl
        · exact ⟨after rfl, before⟩
      · obtain ⟨t, list, idx, rfl⟩ := spec.placed
        rw [Function.update_of_ne here]
        exact noRegions_other here (none_held d)
    · rcases v with _ | ⟨_ | x, n⟩
      · cases closed
      · exact (same rfl).mpr quiet
      · cases closed
    · have empty : (s.world.dev pdev).held.regions = [] := before
      simp [empty]
  | deviceClose pdev =>
    obtain ⟨handle, held⟩ := possible
    have start := known pdev
    have before := none_held pdev
    rw [held] at start before
    obtain ⟨a, value, t, xdev, frame, state⟩ := Act.wp_final (close_spec start)
    have after : ((step hw s (.deviceClose pdev)).world.dev pdev).held.regions = [] := by
      simp only [step, held, state, placed_dev, frame.held]
      exact before.1
    refine ⟨fun d => ?_, ?_, trivial⟩
    · by_cases here : d = pdev
      · subst here
        have closed : (step hw s (.deviceClose d)).use d = .closed := by
          simp [step, held, value]
        rw [closed]
        exact after
      · simp only [step, held, state, Function.update_of_ne here]
        exact noRegions_other here (none_held d)
    · intro other same bar
      rw [held, Use.live.injEq] at same
      subst same
      rw [regionsOf, after, before.2]

/-- In a history of opens that acquire no region, every open that returns NULL
and every close leaves the regions as they were before the open, and no open
finds a region it requests still held. -/
theorem regions_given_back {bus : Bus} {config : Dev → Memory} {regs : Dev → Nat → Nat → BitVec 32}
    {es : List Event} (run : (machine hw).Run (Quietly hw) (Sys.start bus config regs) es s) :
    ∀ e, (machine hw).admits s e → Quietly hw s e → GivesBack hw s e ∧ FindsFree s e := by
  have kept := run.invariant
    (fun s => (∀ d, Known hw s.world d (s.use d)) ∧ ∀ d, NoRegions s.world d (s.use d))
    ⟨start_known bus config regs, fun _ => rfl⟩ fun u e inv possible quiet =>
      ⟨(step_known inv.1 possible).1, (step_regions inv.1 inv.2 possible quiet).1⟩
  intro e possible quiet
  exact (step_regions kept.1 kept.2 possible quiet).2

end

/-- A board without BARs 2 and 5. -/
def smallBoard : Dev → PciDev := fun _ => plainDev (fun bar => if bar = 1 then 0x8000 else 0) true true

theorem smallBoard_acquires {env : Env} {pdev : Dev} {regions : List Nat} :
    AcquiresNothing smallBoard env pdev regions := by
  refine .inr (.inr ?_)
  rw [if_pos (show (smallBoard pdev).resourceLen 2 = 0 from rfl)]
  exact fun granted => granted.1 rfl

/-- An open in which pci_enable_device fails. -/
def enableFails : Event :=
  .deviceOpen 0 "xgpu" 0 { Env.calm 0 with errno := fun site => if site = .enableDevice then EIO' else 0 }

/-- The small board was opened and closed, and opens that fail and that do not come next. -/
theorem regions_given_back_closed :
    let opened := step smallBoard idleStart firstOpen
    let closed := step smallBoard opened (.deviceClose 0)
    GivesBack smallBoard opened (.deviceClose 0) ∧ GivesBack smallBoard closed enableFails ∧
      FindsFree closed firstOpen := by
  intro opened closed
  have first : (machine smallBoard).Run (Quietly smallBoard) idleStart [firstOpen] opened :=
    .next firstOpen .start rfl smallBoard_acquires
  have live : opened.use 0 = .live ⟨⟨0, 0⟩, .msix, 2, []⟩ := by rfl
  have closes : Admits opened (.deviceClose 0) := ⟨_, live⟩
  have second : (machine smallBoard).Run (Quietly smallBoard) idleStart _ closed :=
    .next (Event.deviceClose 0) first closes trivial
  have free : closed.use 0 = .closed := by rfl
  exact ⟨(regions_given_back first (.deviceClose 0) closes trivial).1,
    (regions_given_back second enableFails free smallBoard_acquires).1,
    (regions_given_back second firstOpen free smallBoard_acquires).2⟩

/-- Regions 2 and 5 of the board are still held after it was opened and closed. -/
theorem regions_left :
    ¬ ∀ (hw : Dev → PciDev) (bus : Bus) (config : Dev → Memory) (regs : Dev → Nat → Nat → BitVec 32)
      (es : List Event) (s : Sys),
      (machine hw).Run (fun _ _ => True) (Sys.start bus config regs) es s →
        ∀ e, (machine hw).admits s e → GivesBack hw s e ∧ FindsFree s e := by
  intro all
  have handle : (step board idleStart firstOpen).use 0 = .live ⟨⟨0, 0⟩, .msix, 2, []⟩ := by rfl
  have back := all board _ _ _ _ (step board idleStart firstOpen)
    (.next firstOpen .start rfl trivial) (.deviceClose 0) ⟨_, handle⟩
  have same := (back.1 _ handle 2).mp (by decide)
  cases same

end PcieUtil.System.Regions
