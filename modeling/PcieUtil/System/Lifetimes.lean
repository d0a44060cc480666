import PcieUtil.System.Bindings

/-! The module itself: `xgpu_mod_init` and `xgpu_mod_exit`, with what xgpu_cdev.c does in them, around
the histories of the devices. -/

namespace PcieUtil.System.Lifetimes
open Lib.Action Lib.Bytes Lib.Events Driver.State Driver.Interfaces Driver.Probing Bindings Hotplug

/-- The error numbers of the calls of a load, zero for success. -/
structure LoadEnv where
  classCreate : Nat
  kmemCacheCreate : Nat
  pciRegisterDriver : Nat

inductive Call where
  | classCreate
  | kmemCacheCreate
  | pciRegisterDriver
  | pciUnregisterDriver
  | kmemCacheDestroy
  | classDestroy
  deriving DecidableEq

/-- A module whose xgpu_mod_exit does not return is of no use any more. -/
inductive Status where
  | absent
  | loaded
  | hung
  deriving DecidableEq

/-- The devices with the globals of the module, and what the kernel has beside them: the class, which
can be there once, and the caches. -/
structure Host where
  devices : Sys
  cdevCache : Bool := false
  status : Status := .absent
  sysClass : Bool := false
  caches : Nat := 0

/-- Before the first load. -/
def Host.boot (bus : Bus) (config : Dev → Memory) (regs : Dev → Nat → Nat → BitVec 32) : Host where
  devices := .start bus config regs

abbrev Mod := Act Host Call

def setClass (pointer : Bool) : Mod Unit :=
  Act.update fun h => { h with devices := { h.devices with world := { h.devices.world with gXgpuClass := pointer } } }

/-- A class is refused while there is one of that name. -/
def classCreate (env : LoadEnv) : Mod Bool :=
  Act.call .classCreate fun h =>
    if h.sysClass = false ∧ env.classCreate = 0 then (true, { h with sysClass := true }) else (false, h)

def kmemCacheCreate (env : LoadEnv) : Mod Bool :=
  Act.call .kmemCacheCreate fun h =>
    if env.kmemCacheCreate = 0 then (true, { h with caches := h.caches + 1 }) else (false, h)

def kmemCacheDestroy : Mod Unit :=
  Act.call .kmemCacheDestroy fun h => ((), { h with caches := h.caches - 1 })

def classDestroy : Mod Unit :=
  Act.call .classDestroy fun h => ((), { h with sysClass := false })

def pciRegisterDriver (env : LoadEnv) : Mod Int :=
  Act.call .pciRegisterDriver fun h => (-(env.pciRegisterDriver : Int), h)

def xgpuCdevInit (env : LoadEnv) : Mod Int := do
  let created ← classCreate env
  -- an error pointer is no NULL either
  setClass true
  if ¬ created then return -EINVAL
  else
    let cache ← kmemCacheCreate env
    Act.update fun h => { h with cdevCache := cache }
    if ¬ cache then return -ENOMEM else return 0

def xgpuCdevCleanup : Mod Unit := do
  (if ← Act.read Host.cdevCache then kmemCacheDestroy else pure ())
  if ← Act.read fun h => h.devices.world.gXgpuClass then classDestroy else pure ()

def xgpuModInit (env : LoadEnv) : Mod Int := do
  let rv ← xgpuCdevInit env
  if rv < 0 then return rv else pciRegisterDriver env

section
variable (hw : Dev → PciDev) (walk : Walk)

/-- The kernel waits for a device that is stuck, and for a remove that does not return. -/
def detach (pdev : Dev) : Mod Unit := do
  if (← Act.read fun h => h.devices.binding pdev) ≠ .bound then Act.fault
  else
    Act.update fun h => { h with devices := Hotplug.step hw walk h.devices (.remove pdev) }
    if (← Act.read fun h => h.devices.binding pdev) ≠ .unbound then Act.fault else pure ()

def detachAll : List Dev → Mod Unit
  | [] => pure ()
  | pdev :: rest => do
      detach hw walk pdev
      detachAll rest

/-- The devices with the driver lose it one after the other. -/
def pciUnregisterDriver (order : List Dev) : Mod Unit := do
  Act.call .pciUnregisterDriver fun h => ((), h)
  detachAll hw walk order

def xgpuModExit (order : List Dev) : Mod Unit := do
  pciUnregisterDriver hw walk order
  xgpuCdevCleanup

end

inductive Event where
  | load (env : LoadEnv)
  | unload (order : List Dev)
  | device (e : Hotplug.Event)

/-- The globals as they are in the file of the module. -/
def Host.fresh (h : Host) : Host :=
  { h with
    cdevCache := false
    devices :=
      { world := { dev := h.devices.world.dev, gXgpuClass := false }
        binding := fun _ => .unbound
        files := fun _ => none } }

/-- A module that does not say that it has succeeded is not kept. -/
def afterLoad : Option Int → Status
  | some rv => if rv = 0 then .loaded else .absent
  | none => .hung

section
variable (hw : Dev → PciDev) (walk : Walk)

def step (h : Host) : Event → Host
  | .load env =>
      let out := (xgpuModInit env).run h.fresh
      { out.state with status := afterLoad out.value }
  | .unload order =>
      let out := (xgpuModExit hw walk order).run h
      { out.state with status := if out.value.isSome then .absent else .hung }
  | .device e => { h with devices := Hotplug.step hw walk h.devices e }

/-- An open file keeps the module, by the owner in its operations. All devices with the driver are
detached, in some order. -/
def Admits (h : Host) : Event → Prop
  | .load _ => h.status = .absent
  | .unload order => h.status = .loaded ∧ (∀ file, h.devices.files file = none) ∧ order.Nodup ∧
      ∀ pdev, pdev ∈ order ↔ h.devices.binding pdev ≠ .unbound
  | .device e => h.status = .loaded ∧ Hotplug.Admits h.devices e

def machine : Machine Host Event := ⟨Admits, step hw walk⟩

end

/-- A load that fails behind class_create. -/
def Spoils (h : Host) : Event → Prop
  | .load env => h.sysClass = false ∧ env.classCreate = 0 ∧ (env.kmemCacheCreate ≠ 0 ∨ env.pciRegisterDriver ≠ 0)
  | .unload _ | .device _ => False

/-! One load. -/

/-- What xgpu_mod_init returns, and what it leaves. -/
inductive Loading (env : LoadEnv) (h u : Host) : Int → Prop
  | refused (why : h.sysClass = true ∨ env.classCreate ≠ 0) (sysClass : u.sysClass = h.sysClass)
      (caches : u.caches = h.caches) : Loading env h u (-(EINVAL : Int))
  | spoiled (rv : Int) (failed : rv < 0) (spoils : Spoils h (.load env)) (sysClass : u.sysClass = true) :
      Loading env h u rv
  | done (free : h.sysClass = false) (created : env.classCreate = 0) (cached : env.kmemCacheCreate = 0)
      (registered : env.pciRegisterDriver = 0) (sysClass : u.sysClass = true) (cdevCache : u.cdevCache = true)
      (caches : u.caches = h.caches + 1) : Loading env h u 0

def withClass (s : Sys) : Sys := { s with world := { s.world with gXgpuClass := true } }

section
variable {hw : Dev → PciDev} {walk : Walk} {h u : Host}

theorem modInit_spec (env : LoadEnv) (h : Host) : Act.wp (fun _ _ => True) (xgpuModInit env)
    (Act.returns fun rv u => u.devices = withClass h.devices ∧ Loading env h u rv) h := by
  unfold xgpuModInit xgpuCdevInit classCreate kmemCacheCreate pciRegisterDriver setClass
  simp only [Act.wp_bind, Act.wp_call, Act.andThen_some, true_and, Act.wp_update]
  by_cases free : h.sysClass = false ∧ env.classCreate = 0
  · simp only [if_pos free, not_true_eq_false, if_false, Act.wp_bind, Act.wp_call, Act.andThen_some, true_and,
      Act.wp_update]
    by_cases cached : env.kmemCacheCreate = 0
    · simp only [if_pos cached, not_true_eq_false, if_false, Act.wp_pure, Act.andThen_some, Act.wp_call, true_and,
        Act.returns_some, Int.lt_irrefl]
      refine ⟨rfl, ?_⟩
      by_cases registered : env.pciRegisterDriver = 0
      · rw [registered]
        exact .done free.1 free.2 cached registered rfl rfl rfl
      · exact .spoiled _ (by omega) ⟨free.1, free.2, .inr registered⟩ rfl
    · have failed : -(ENOMEM : Int) < 0 := by decide
      simp only [if_neg cached, Bool.false_eq_true, not_false_eq_true, if_true, Act.wp_pure, Act.andThen_some,
        if_pos failed, Act.returns_some]
      exact ⟨rfl, .spoiled _ failed ⟨free.1, free.2, .inl cached⟩ rfl⟩
  · have failed : -(EINVAL : Int) < 0 := by decide
    simp only [if_neg free, Bool.false_eq_true, not_false_eq_true, if_true, Act.wp_pure, Act.andThen_some,
      if_pos failed, Act.returns_some]
    refine ⟨rfl, .refused ?_ rfl rfl⟩
    by_cases there : h.sysClass = true
    · exact .inl there
    · exact .inr fun created => free ⟨Bool.eq_false_iff.mpr there, created⟩

/-! One unload. -/

/-- What the detaching leaves of the module. -/
structure Detaching (hw : Dev → PciDev) (h u : Host) : Prop where
  devices : Hotplug.Inv hw u.devices
  cdevCache : u.cdevCache = h.cdevCache
  caches : u.caches = h.caches

theorem detach_spec (inv : Hotplug.Inv hw h.devices) (pdev : Dev) :
    Act.wp (fun _ _ => False) (detach hw walk pdev) (fun v u => v = some () →
      Detaching hw h u ∧ u.devices.binding = Function.update h.devices.binding pdev .unbound) h := by
  unfold detach
  rw [Act.wp_bind, Act.wp_read, Act.andThen_some]
  by_cases bound : h.devices.binding pdev = .bound
  · rw [if_neg (not_not.mpr bound), Act.wp_bind, Act.wp_update, Act.andThen_some, Act.wp_bind, Act.wp_read,
      Act.andThen_some]
    split_ifs with gone
    · rw [Act.wp_fault]
      intro returned
      cases returned
    · rw [Act.wp_pure]
      intro _
      refine ⟨⟨Hotplug.inv_step inv (show Hotplug.Admits h.devices (.remove pdev) from bound), rfl, rfl⟩, ?_⟩
      have after := not_not.mp gone
      funext d
      by_cases own : d = pdev
      · subst own
        rw [Function.update_self]
        exact after
      · rw [Function.update_of_ne own]
        exact Function.update_of_ne own _ _
  · rw [if_pos bound, Act.wp_fault]
    intro returned
    cases returned

theorem detachAll_spec (order : List Dev) (inv : Hotplug.Inv hw h.devices) :
    Act.wp (fun _ _ => False) (detachAll hw walk order) (fun v u => v = some () → Detaching hw h u ∧
      ∀ pdev, u.devices.binding pdev = .unbound ∨ pdev ∉ order ∧ u.devices.binding pdev = h.devices.binding pdev) h := by
  induction order generalizing h with
  | nil =>
    rw [detachAll, Act.wp_pure]
    exact fun _ => ⟨⟨inv, rfl, rfl⟩, fun pdev => .inr ⟨List.not_mem_nil, rfl⟩⟩
  | cons first rest ih =>
    rw [detachAll, Act.wp_bind]
    apply Act.wp_mono (detach_spec inv first)
    intro v t post
    cases v with
    | none =>
      intro returned
      cases returned
    | some _ =>
      obtain ⟨now, binding⟩ := post rfl
      rw [Act.andThen_some]
      apply Act.wp_mono (ih now.devices)
      intro v u post returned
      obtain ⟨later, each⟩ := post returned
      refine ⟨⟨later.devices, later.cdevCache.trans now.cdevCache, later.caches.trans now.caches⟩,
        fun pdev => ?_⟩
      rcases each pdev with unbound | ⟨other, same⟩
      · exact .inl unbound
      · rw [binding] at same
        by_cases own : pdev = first
        · rw [own, Function.update_self] at same
          exact .inl (own ▸ same)
        · rw [Function.update_of_ne own] at same
          exact .inr ⟨List.not_mem_cons_of_ne_of_not_mem own other, same⟩

theorem cleanup_spec (cached : h.cdevCache = true) (created : h.devices.world.gXgpuClass = true) :
    Act.wp (fun t _ => t.devices = h.devices) xgpuCdevCleanup (Act.returns fun _ u =>
      u.devices = h.devices ∧ u.sysClass = false ∧ u.caches = h.caches - 1) h := by
  unfold xgpuCdevCleanup kmemCacheDestroy classDestroy
  simp only [Act.wp_bind, Act.wp_read, Act.andThen_some, cached, if_true, Act.wp_call, created, Act.returns_some,
    and_self]

/-- Nothing of the driver is on a device. -/
structure Bare (s : DevState) : Prop where
  actions : s.held.actions = []
  msi : s.held.msi = .off
  nodes : NoNodes s

theorem modExit_spec {order : List Dev} (inv : Hotplug.Inv hw h.devices) (cached : h.cdevCache = true)
    (all : ∀ pdev, pdev ∈ order ↔ h.devices.binding pdev ≠ .unbound) :
    Act.wp (fun t c => c = .classDestroy → ∀ pdev, Idle t.devices.world pdev) (xgpuModExit hw walk order)
      (fun v u => v = some () → (∀ pdev, Bare (u.devices.world.dev pdev)) ∧ u.sysClass = false ∧
        u.caches = h.caches - 1) h := by
  have detached : Act.wp (fun t c => c = .classDestroy → ∀ pdev, Idle t.devices.world pdev)
      (pciUnregisterDriver hw walk order) (fun v u => v = some () → Detaching hw h u ∧
        ∀ pdev, Unbound u.devices.world pdev) h := by
    unfold pciUnregisterDriver
    rw [Act.wp_bind, Act.wp_call, Act.andThen_some]
    refine ⟨fun destroys => absurd destroys (by decide), ?_⟩
    apply Act.wp_mono (Act.wp_calls (detachAll_spec order inv) fun _ _ none_made => none_made.elim)
    intro v u post returned
    obtain ⟨detaching, each⟩ := post returned
    refine ⟨detaching, fun pdev => ?_⟩
    have known := detaching.devices.devices pdev
    have unbound : u.devices.binding pdev = .unbound := by
      rcases each pdev with unbound | ⟨other, same⟩
      · exact unbound
      · exact same.trans (not_not.mp ((all pdev).not.mp other))
    rwa [unbound] at known
  unfold xgpuModExit
  rw [Act.wp_bind]
  apply Act.wp_mono detached
  intro v u post
  cases v with
  | none =>
    intro returned
    cases returned
  | some _ =>
    obtain ⟨detaching, unbound⟩ := post rfl
    have cleaned := cleanup_spec (detaching.cdevCache.trans cached) detaching.devices.sysClass
    rw [Act.andThen_some]
    apply Act.wp_mono (Act.wp_calls cleaned fun t c same _ pdev => same ▸ Unbound.idle (unbound pdev))
    intro v t post returned
    rw [returned] at post
    obtain ⟨devices, sysClass, caches⟩ := post
    rw [devices, sysClass, caches, detaching.caches]
    exact ⟨fun pdev => ⟨(unbound pdev).actions, (unbound pdev).msi, (unbound pdev).nodes⟩, rfl, rfl⟩

/-! All lifetimes. -/

structure Inv (hw : Dev → PciDev) (h : Host) : Prop where
  loaded : h.status = .loaded → Hotplug.Inv hw h.devices ∧ h.cdevCache = true
  absent : h.status = .absent → ∀ pdev, Bare (h.devices.world.dev pdev)

/-- The devices as a load finds them, with the class that it has created. -/
theorem inv_fresh (bare : ∀ pdev, Bare (h.devices.world.dev pdev)) :
    Hotplug.Inv hw (withClass h.fresh.devices) := by
  constructor
  · rfl
  · intro pdev
    refine ⟨(bare pdev).actions, (bare pdev).msi, (bare pdev).nodes, ?_, rfl⟩
    intro m mapped
    cases mapped

theorem inv_step (inv : Inv hw h) {e : Event} (possible : Admits h e) : Inv hw (step hw walk h e) := by
  cases e with
  | load env =>
    have bare := inv.absent possible
    obtain ⟨rv, returned, devices, loading⟩ := Act.wp_final (modInit_spec env h.fresh)
    unfold step
    dsimp only
    rw [returned]
    constructor
    · intro loaded
      dsimp only at loaded ⊢
      rw [devices]
      refine ⟨inv_fresh bare, ?_⟩
      cases loading with
      | refused => cases loaded
      | spoiled rv failed =>
        rw [afterLoad, if_neg (Int.ne_of_lt failed)] at loaded
        cases loaded
      | done free created cached registered sysClass cdevCache => exact cdevCache
    · intro _
      dsimp only
      rw [devices]
      exact bare
  | unload order =>
    obtain ⟨loaded, _, _, all⟩ := possible
    obtain ⟨inv, cached⟩ := inv.loaded loaded
    have spec : Act.wp _ (xgpuModExit hw walk order) _ h := modExit_spec inv cached all
    unfold step
    dsimp only
    cases returned : ((xgpuModExit hw walk order).run h).value with
    | none =>
      constructor
      · intro loaded
        cases loaded
      · intro absent
        cases absent
    | some _ =>
      constructor
      · intro loaded
        cases loaded
      · exact fun _ => (spec.2 returned).1
  | device e =>
    obtain ⟨loaded, possible⟩ := possible
    obtain ⟨inv, cached⟩ := inv.loaded loaded
    refine ⟨fun _ => ⟨Hotplug.inv_step inv possible, cached⟩, fun absent => ?_⟩
    cases loaded.symm.trans absent

theorem inv_boot (bus : Bus) (config : Dev → Memory) (regs : Dev → Nat → Nat → BitVec 32) :
    Inv hw (.boot bus config regs) := by
  constructor
  · intro loaded
    cases loaded
  · exact fun _ pdev => ⟨rfl, rfl, fun _ => rfl, rfl⟩

theorem inv_run {bus : Bus} {config : Dev → Memory} {regs : Dev → Nat → Nat → BitVec 32} {es : List Event}
    (run : (machine hw walk).Run (fun _ _ => True) (.boot bus config regs) es h) : Inv hw h := by
  exact run.invariant (Inv hw) (inv_boot bus config regs) fun _ _ inv possible _ => inv_step inv possible

end

/-- Before the first load, with boards as in the histories of the devices. -/
def boardBoot : Host := .boot .plain pinConfig fun _ _ _ => 0

/-- A load in which no call fails. -/
def LoadEnv.calm : LoadEnv := ⟨0, 0, 0⟩

section
variable {hw : Dev → PciDev} {walk : Walk} {h : Host}

/-! Which loads succeed. -/

/-- What a load returns. -/
def loadReturns (h : Host) (env : LoadEnv) : Option Int := ((xgpuModInit env).run h.fresh).value

/-- Nothing of an earlier load is left but what the one that is there has made. -/
structure Fair (h : Host) : Prop where
  loaded : h.status = .loaded → h.sysClass = true ∧ h.caches = 1
  absent : h.status = .absent → h.sysClass = false ∧ h.caches = 0

theorem fair_step (inv : Inv hw h) (fair : Fair h) {e : Event} (possible : Admits h e) (kept : ¬ Spoils h e) :
    Fair (step hw walk h e) := by
  cases e with
  | load env =>
    obtain ⟨free, none_left⟩ := fair.absent possible
    obtain ⟨rv, returned, _, loading⟩ := Act.wp_final (modInit_spec env h.fresh)
    unfold step
    dsimp only
    rw [returned]
    cases loading with
    | refused why sysClass caches =>
      constructor
      · intro loaded
        cases loaded
      · exact fun _ => ⟨sysClass.trans free, caches.trans none_left⟩
    | spoiled rv failed spoils => exact absurd spoils kept
    | done _ _ _ _ sysClass _ caches =>
      constructor
      · exact fun _ => ⟨sysClass, by rw [caches]; exact congrArg (· + 1) none_left⟩
      · intro absent
        cases absent
  | unload order =>
    obtain ⟨loaded, _, _, all⟩ := possible
    obtain ⟨inv, cached⟩ := inv.loaded loaded
    have spec : Act.wp _ (xgpuModExit hw walk order) _ h := modExit_spec inv cached all
    unfold step
    dsimp only
    cases returned : ((xgpuModExit hw walk order).run h).value with
    | none =>
      constructor
      · intro loaded
        cases loaded
      · intro absent
        cases absent
    | some _ =>
      constructor
      · intro loaded
        cases loaded
      · intro _
        obtain ⟨_, sysClass, caches⟩ := spec.2 returned
        exact ⟨sysClass, by rw [caches, (fair.loaded loaded).2]⟩
  | device e => exact ⟨fair.loaded, fair.absent⟩

/-- The class without the module. -/
def Spoiled (h : Host) : Prop := h.status = .absent ∧ h.sysClass = true

theorem load_refused {env : LoadEnv} (there : h.sysClass = true) :
    loadReturns h env = some (-(EINVAL : Int)) ∧ ((xgpuModInit env).run h.fresh).state.sysClass = true := by
  obtain ⟨rv, returned, _, loading⟩ := Act.wp_final (modInit_spec env h.fresh)
  have taken : h.fresh.sysClass ≠ false := Bool.eq_false_iff.not.mpr (not_not.mpr there)
  cases loading with
  | refused why sysClass => exact ⟨returned, sysClass.trans there⟩
  | spoiled rv _ spoils => exact absurd spoils.1 taken
  | done free => exact absurd free taken

theorem spoiled_load {env : LoadEnv} (there : h.sysClass = true) : Spoiled (step hw walk h (.load env)) := by
  have refused : loadReturns h env = some (-(EINVAL : Int)) ∧ _ := load_refused there
  obtain ⟨returned, sysClass⟩ := refused
  refine ⟨?_, sysClass⟩
  show afterLoad (loadReturns h env) = .absent
  rw [returned]
  rfl

theorem spoils_step {e : Event} (spoils : Spoils h e) : Spoiled (step hw walk h e) := by
  cases e with
  | load env =>
    obtain ⟨rv, returned, _, loading⟩ := Act.wp_final (modInit_spec env h.fresh)
    obtain ⟨free, created, fails⟩ := spoils
    cases loading with
    | refused why =>
      rcases why with there | failed
      · exact absurd (free.symm.trans there) Bool.false_ne_true
      · exact absurd created failed
    | spoiled rv failed _ sysClass =>
      refine ⟨?_, sysClass⟩
      unfold step
      dsimp only
      rw [returned, afterLoad, if_neg (Int.ne_of_lt failed)]
    | done _ _ cached registered =>
      rcases fails with failed | failed
      · exact absurd cached failed
      · exact absurd registered failed
  | unload order => exact spoils.elim
  | device e => exact spoils.elim

theorem spoiled_step {e : Event} (spoiled : Spoiled h) (possible : Admits h e) : Spoiled (step hw walk h e) := by
  cases e with
  | load env => exact spoiled_load spoiled.2
  | unload order => cases spoiled.1.symm.trans possible.1
  | device e => cases spoiled.1.symm.trans possible.1

/-- While no load has failed behind class_create, a load succeeds when its own calls do, and an unload
gives everything back. The first that fails there is the last word: no load succeeds after it. -/
theorem loads {bus : Bus} {config : Dev → Memory} {regs : Dev → Nat → Nat → BitVec 32} {es : List Event}
    (run : (machine hw walk).Run (fun h e => ¬ Spoils h e) (.boot bus config regs) es h) :
    (h.status = .absent → h.sysClass = false ∧ h.caches = 0 ∧ ∀ env, loadReturns h env = some 0 ↔
      env.classCreate = 0 ∧ env.kmemCacheCreate = 0 ∧ env.pciRegisterDriver = 0) ∧
    ∀ e, Spoils h e → ∀ later u, (machine hw walk).Run (fun _ _ => True) (step hw walk h e) later u →
      u.status = .absent ∧ u.sysClass = true ∧ ∀ env, loadReturns u env = some (-(EINVAL : Int)) := by
  have kept : Inv hw h ∧ Fair h := by
    refine run.invariant (fun h => Inv hw h ∧ Fair h) ⟨inv_boot bus config regs, ?_⟩ fun u e both possible kept =>
      ⟨inv_step both.1 possible, fair_step both.1 both.2 possible kept⟩
    constructor
    · intro loaded
      cases loaded
    · exact fun _ => ⟨rfl, rfl⟩
  refine ⟨fun absent => ?_, fun e spoils later u more => ?_⟩
  · obtain ⟨free, none_left⟩ := kept.2.absent absent
    refine ⟨free, none_left, fun env => ?_⟩
    obtain ⟨rv, returned, _, loading⟩ := Act.wp_final (modInit_spec env h.fresh)
    unfold loadReturns
    rw [returned, Option.some.injEq]
    cases loading with
    | refused why =>
      refine ⟨fun zero => absurd zero (by decide), fun fine => ?_⟩
      rcases why with there | failed
      · exact absurd (free.symm.trans there) Bool.false_ne_true
      · exact absurd fine.1 failed
    | spoiled rv failed spoils =>
      refine ⟨fun zero => absurd zero (Int.ne_of_lt failed), fun fine => ?_⟩
      rcases spoils.2.2 with fails | fails
      · exact absurd fine.2.1 fails
      · exact absurd fine.2.2 fails
    | done _ created cached registered => exact ⟨fun _ => ⟨created, cached, registered⟩, fun _ => rfl⟩
  · have spoiled : Spoiled u := more.invariant Spoiled (spoils_step spoils) fun _ _ spoiled possible _ =>
      spoiled_step spoiled possible
    exact ⟨spoiled.1, spoiled.2, fun env => (load_refused spoiled.2).1⟩

end

/-- A load without its cache, after the module has been loaded and unloaded. -/
theorem loads_spoiled : loadReturns
    (step board .every (step board .every (step board .every boardBoot (.load .calm)) (.unload [])) (.load ⟨0, 1, 0⟩))
    .calm = some (-(EINVAL : Int)) := by
  have fine : ¬ Spoils boardBoot (.load .calm) := fun spoils => spoils.2.2.elim (· rfl) (· rfl)
  have loaded : (machine board .every).Run (fun h e => ¬ Spoils h e) boardBoot [.load .calm]
      (step board .every boardBoot (.load .calm)) := .next (Event.load .calm) .start rfl fine
  have idle : (machine board .every).admits (step board .every boardBoot (.load .calm)) (.unload []) := by
    refine ⟨by decide +kernel, fun _ => rfl, List.nodup_nil, fun pdev => ?_⟩
    exact ⟨fun among => absurd among List.not_mem_nil, fun bound => absurd rfl bound⟩
  have unloaded := loaded.next (Event.unload []) idle id
  exact ((loads unloaded).2 (.load ⟨0, 1, 0⟩) ⟨by decide +kernel, rfl, .inl Nat.one_ne_zero⟩ [] _ .start).2.2 .calm

end PcieUtil.System.Lifetimes
