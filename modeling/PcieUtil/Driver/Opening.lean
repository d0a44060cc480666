import PcieUtil.Driver.DeviceOpen

/-! What the part of open and close that works on one device does to it: an open
that succeeds leaves exactly the resources of the selected interrupt mode and of
the BARs present, and one that fails leaves what was there before, except for
the regions. -/

namespace PcieUtil.Driver.Opening
open Lib.Action State Kernel Discipline Bars Irq Modes DeviceOpen

section
variable (hw : Dev → PciDev) (env : Env) (pdev : Dev)

/-- Whether pci_request_region of a BAR succeeds, and the regions held afterwards. -/
def requested (regions : List Nat) (bar : Nat) : Bool × List Nat :=
  if (hw pdev).resourceLen bar = 0 then (true, regions)
  else if bar ∈ regions then (false, regions)
  else if env.errno (.requestRegion bar) = 0 then (true, bar :: regions)
  else (false, regions)

/-- The same for request_regions. -/
def regionsRequested (regions : List Nat) : Bool × List Nat :=
  if (requested hw env pdev regions 2).1 then
    requested hw env pdev (requested hw env pdev regions 2).2 5
  else requested hw env pdev regions 2

/-- The regions held after an open. -/
def regionsAfter (regions : List Nat) : List Nat :=
  if env.errno .enableDevice = 0 then (regionsRequested hw env pdev regions).2 else regions

def DmaOk : Prop := env.errno (.dmaMask 64) = 0 ∨ env.errno (.dmaMask 32) = 0

/-- The open gets as far as the interrupt registers. -/
structure ReachesInterrupts (regions : List Nat) : Prop where
  enabled : env.errno .enableDevice = 0
  regions : (regionsRequested hw env pdev regions).1 = true
  bars : BarsMap hw env pdev
  mask : DmaOk env

/-- The open fails while it enables or sets up the selected interrupt mode. -/
def InterruptsFail (userMax : Nat) : Prop :=
  let mode := selectMode hw env.interruptMode pdev
  ¬ mode.Enables env ∨ mode.Refused env userMax

end

/-- A structure as alloc_dev_instance and open have set it up. -/
structure Fresh (X : XgpuDev) : Prop where
  bar : ∀ j : Nat, X.bar j = none
  msix : X.msixEnabled = false
  msi : X.msiEnabled = false
  got : X.gotRegions = false
  inUse : X.regionsInUse = false

/-- The register accesses of an open come to their end: BAR 1, which is taken for the one with the
interrupt registers, is there, or an access through NULL goes on. -/
def GoesOn (hw : Dev → PciDev) (pdev : Dev) (nullRegister : Option (BitVec 32)) : Prop :=
  (hw pdev).resourceLen 1 = 0 → nullRegister ≠ none

/-- What holds of a device that is open in a mode, with mappings of others around
its own. -/
structure Opened (hw : Dev → PciDev) (x : XdevPtr) (mode : Mode) (nullRegister : Option (BitVec 32))
    (old : List Mapping) (h : Held) (X : XgpuDev) : Prop where
  carried : Carried nullRegister (X.bar X.configBarIdx)
  marked : Marked mode X
  state : h.msi = mode.state X.userMax
  handlers : h.actions = mode.actions hw x X.userMax
  line : X.irqLine = mode.line hw x.pdev X.irqLine
  mapped : Mapped hw x.pdev X.bar XGPU_BAR_NUM
  maps : h.maps.Perm (mapsBelow X.bar XGPU_BAR_NUM ++ old)
  config : X.configBarIdx = 1
  got : X.gotRegions = false
  inUse : X.regionsInUse = false

section
variable {hw : Dev → PciDev} {env : Env} {x : XdevPtr} {pdev : Dev} {o s : DevState} {h : Held}
  {X : XgpuDev} {E : Prop}

/-! The calls of the open path. -/

theorem pciEnableDevice_step (now : Becomes x o s h X) (served : Served hw x o h X) :
    Act.wp (Lawful hw E x.pdev) (pciEnableDevice hw env pdev) (Act.returns fun rv t =>
      if env.errno .enableDevice = 0 then
        rv = 0 ∧ Becomes x o t { h with enables := h.enables + 1 } X
      else rv < 0 ∧ Becomes x o t h X) s := by
  simp only [pciEnableDevice, pciCall, Act.wp_call, now.held]
  refine ⟨.of_quiet now served trivial, ?_⟩
  by_cases ok : env.errno .enableDevice = 0
  · simp only [if_pos ok, Act.returns_some]
    exact ⟨trivial, (now.withHeld _).withConfig _⟩
  · simp only [if_neg ok, Act.returns_some]
    exact ⟨rv_neg ok, now.withConfig _⟩

theorem pciDisableDevice_step (now : Becomes x o s h X) (served : Served hw x o h X) :
    Act.wp (Lawful hw E x.pdev) (pciDisableDevice hw pdev) (Act.returns fun _ t =>
      Becomes x o t { h with enables := h.enables - 1 } X) s := by
  simp only [pciDisableDevice, pciCall, Act.wp_call, Act.returns_some, now.held]
  exact ⟨.of_quiet now served trivial, (now.withHeld _).withConfig _⟩

theorem pcieSetReadrq_step (now : Becomes x o s h X) (served : Served hw x o h X) (rq : Nat) :
    Act.wp (Lawful hw E x.pdev) (pcieSetReadrq hw env pdev rq) (Act.returns fun _ t => Becomes x o t h X) s := by
  simp only [pcieSetReadrq, pciCall, Act.wp_call, Act.returns_some]
  exact ⟨.of_quiet now served trivial, now.withConfig _⟩

theorem pciSetMaster_step (now : Becomes x o s h X) (served : Served hw x o h X) :
    Act.wp (Lawful hw E x.pdev) (pciSetMaster hw pdev) (Act.returns fun _ t => Becomes x o t h X) s := by
  simp only [pciSetMaster, pciCall, Act.wp_call, Act.returns_some]
  exact ⟨.of_quiet now served trivial, now.withConfig _⟩

theorem dmaSetMask_step (now : Becomes x o s h X) (served : Served hw x o h X) (bits : Nat) :
    Act.wp (Lawful hw E x.pdev) (dmaSetMaskAndCoherent env pdev bits) (Act.returns fun rv t =>
      rv = env.rv (.dmaMask bits) ∧ Becomes x o t h X) s := by
  simp only [dmaSetMaskAndCoherent, Act.wp_call, Act.returns_some]
  exact ⟨.of_quiet now served trivial, trivial, now⟩

theorem setDmaMask_step (now : Becomes x o s h X) (served : Served hw x o h X) :
    Act.wp (Lawful hw E x.pdev) (setDmaMask env pdev) (Act.returns fun rv t =>
      (rv = 0 ↔ DmaOk env) ∧ Becomes x o t h X) s := by
  unfold DmaOk
  refine Act.wp_seq (dmaSetMask_step now served 64) ?_
  rintro _ s ⟨rfl, now⟩
  by_cases wide : env.errno (.dmaMask 64) = 0
  · rw [if_pos (rv_zero.mpr wide), Act.wp_pure]
    exact ⟨by simp [wide], now⟩
  · rw [if_neg (mt rv_zero.mp wide)]
    refine Act.wp_seq (dmaSetMask_step now served 32) ?_
    rintro _ s ⟨rfl, now⟩
    by_cases narrow : env.errno (.dmaMask 32) = 0
    · rw [if_pos (rv_zero.mpr narrow), Act.wp_pure]
      exact ⟨by simp [narrow], now⟩
    · rw [if_neg (mt rv_zero.mp narrow), Act.wp_pure]
      exact ⟨by simp [wide, narrow, EINVAL], now⟩

theorem pciRequestRegion_step (now : Becomes x o s h X) (served : Served hw x o h X) (bar : Nat)
    (name : String) :
    Act.wp (Lawful hw E x.pdev) (pciRequestRegion hw env pdev bar name) (Act.returns fun rv t =>
      (rv = 0 ↔ (requested hw env pdev h.regions bar).1 = true) ∧
        Becomes x o t { h with regions := (requested hw env pdev h.regions bar).2 } X) s := by
  simp only [pciRequestRegion, Act.wp_call, now.held]
  refine ⟨.of_quiet now served trivial, ?_⟩
  unfold requested
  by_cases absent : (hw pdev).resourceLen bar = 0
  · simp only [if_pos absent, Act.returns_some]
    exact ⟨by simp, now⟩
  · simp only [if_neg absent]
    by_cases busy : bar ∈ h.regions
    · simp only [if_pos busy, Act.returns_some]
      exact ⟨by simp [EBUSY], now⟩
    · simp only [if_neg busy]
      by_cases ok : env.errno (.requestRegion bar) = 0
      · simp only [if_pos ok, Act.returns_some]
        exact ⟨by simp, now.withHeld _⟩
      · simp only [if_neg ok, Act.returns_some]
        exact ⟨by simp [rv_zero, ok], now⟩

theorem requestRegions_step (now : Becomes x o s h X) (served : Served hw x o h X) (idle : h.actions = []) :
    Act.wp (Lawful hw E x.pdev) (requestRegions hw env pdev) (Act.returns fun rv t =>
      (rv = 0 ↔ (regionsRequested hw env pdev h.regions).1 = true) ∧
        Becomes x o t { h with regions := (regionsRequested hw env pdev h.regions).2 } X) s := by
  unfold regionsRequested
  refine Act.wp_seq (pciRequestRegion_step now served 2 _) ?_
  rintro rv s ⟨zero, now⟩
  by_cases ok : (requested hw env pdev h.regions 2).1 = true
  · simp only [if_pos ok]
    rw [if_neg (by simp [zero, ok])]
    exact pciRequestRegion_step now (.of_idle idle) 5 _
  · simp only [if_neg ok]
    have failed : rv ≠ 0 := mt zero.mp ok
    rw [if_pos failed, Act.wp_pure]
    exact ⟨zero, now⟩

theorem pciCheckIntrPend_step (now : Becomes x o s h X) (served : Served hw x o h X) :
    Act.wp (Lawful hw E x.pdev) (pciCheckIntrPend hw pdev) (Act.returns fun _ t => Becomes x o t h X) s := by
  refine Act.wp_seq (pciReadConfig_step now served _ _) ?_
  rintro bytes s ⟨now, _⟩
  dsimp only
  split_ifs
  · exact pciWriteConfig_step now served _ _
  · rw [Act.wp_pure]
    exact now

theorem pciEnableCapability_step (now : Becomes x o s h X) (served : Served hw x o h X) (cap : BitVec 16) :
    Act.wp (Lawful hw E x.pdev) (pciEnableCapability hw pdev cap) (Act.returns fun _ t => Becomes x o t h X) s := by
  unfold pciEnableCapability
  dsimp only
  split_ifs
  · refine Act.wp_seq (pciReadConfig_step now served _ _) ?_
    rintro bytes s ⟨now, _⟩
    exact pciWriteConfig_step now served _ _
  · rw [Act.wp_pure]
    exact now

/-! The unwinding. -/

theorem errRegions_step (now : Becomes x o s h X) (idle : h.actions = []) (inUse : X.regionsInUse = false) :
    Act.wp (Lawful hw E x.pdev) (errRegions hw x pdev) (Act.returns fun _ t =>
      Becomes x o t { h with enables := h.enables - 1 } X) s := by
  refine Act.wp_seq (loadXdev_step now _) ?_
  rintro _ s ⟨now, rfl⟩
  rw [if_neg (by simp [inUse])]
  exact pciDisableDevice_step now (.of_idle idle)

theorem errMap_step (now : Becomes x o s h X) (idle : h.actions = []) (got : X.gotRegions = false)
    (inUse : X.regionsInUse = false) :
    Act.wp (Lawful hw E x.pdev) (errMap hw x pdev) (Act.returns fun _ t =>
      Becomes x o t { h with enables := h.enables - 1 } X) s := by
  refine Act.wp_seq (loadXdev_step now _) ?_
  rintro _ s ⟨now, rfl⟩
  rw [if_neg (by simp [got]), pure_bind]
  exact errRegions_step now idle inUse

theorem errMask_step (now : Becomes x o s h X) (idle : h.actions = []) (got : X.gotRegions = false)
    (inUse : X.regionsInUse = false) (tagged : Tagged X.bar) {old : List Mapping}
    (maps : h.maps.Perm (mapsBelow X.bar XGPU_BAR_NUM ++ old)) :
    Act.wp (Lawful hw E x.pdev) (errMask hw x pdev) (Act.returns fun _ t => ∃ Y left, left.Perm old ∧
      Becomes x o t { h with enables := h.enables - 1, maps := left } Y) s := by
  refine Act.wp_seq (unmapBars_step now (idle ▸ .of_idle) tagged maps) ?_
  rintro _ s ⟨bar, left, perm, now, _⟩
  refine Act.wp_returns_mono (errMap_step now idle got inUse) fun _ t now => ?_
  exact ⟨_, left, perm, now⟩

theorem errMsix_step (now : Becomes x o s h X) (idle : h.actions = []) (got : X.gotRegions = false)
    (inUse : X.regionsInUse = false) (tagged : Tagged X.bar) {old : List Mapping}
    (maps : h.maps.Perm (mapsBelow X.bar XGPU_BAR_NUM ++ old)) (fit : FlagsFit E X h.msi) :
    Act.wp (Lawful hw E x.pdev) (errMsix hw x x.pdev) (Act.returns fun _ t => ∃ Y left, left.Perm old ∧
      Becomes x o t { h with enables := h.enables - 1, maps := left, msi := .off } Y) s := by
  refine Act.wp_seq (disableMsiMsix_step now idle fit) ?_
  rintro _ s ⟨one, two, now⟩
  have unwound : Act.wp (Lawful hw E x.pdev) (errMask hw x x.pdev) _ s :=
    errMask_step now idle got inUse tagged maps
  exact unwound

/-! The interrupt part. -/

/-- How the interrupt part of an open ends. It may be cut off when BAR 1, which it
takes for the one with the interrupt registers, is not there. -/
def InterruptsEnd (hw : Dev → PciDev) (env : Env) (x : XdevPtr) (o : DevState) (old : List Mapping)
    (h : Held) (X : XgpuDev) : Option Bool → DevState → Prop
  | none, t => (hw x.pdev).resourceLen 1 = 0 ∧
      ∃ k Y, k.actions = [] ∧ (∀ m ∈ old, m ∈ k.maps) ∧ Becomes x o t k Y
  | some true, t =>
      let mode := selectMode hw env.interruptMode x.pdev
      Carried o.bus.nullRegister (X.bar X.configBarIdx) ∧ mode.Enables env ∧
        (mode = .msi → env.errno .requestIrqMsi = 0) ∧
        Becomes x o t
          { h with msi := mode.state X.userMax, actions := mode.actions hw x X.userMax }
          ((mode.mark X).withIrqLine (mode.line hw x.pdev X.irqLine))
  | some false, t =>
      InterruptsFail hw env x.pdev X.userMax ∧ ∃ Y left, left.Perm old ∧
        Becomes x o t { h with enables := h.enables - 1, maps := left } Y

/-- The flags fit a mode that is on, and one that could not be enabled. -/
theorem flagsFit_on {mode : Mode} (marked : Marked mode X) (n : Nat) : FlagsFit E X (mode.state n) := by
  unfold FlagsFit
  rw [marked.msix, marked.msi]
  cases mode <;> simp [Mode.state]

theorem flagsFit_failed {mode : Mode} (marked : Marked mode X) (failed : ¬ mode.Enables env)
    (exception : E) : FlagsFit E X .off := by
  unfold FlagsFit
  rw [marked.msix, marked.msi]
  cases mode with
  | legacy => exact absurd rfl failed
  | msix | msi => simp [exception]

theorem readInterrupts_step (now : Becomes x o s h X) (served : Served hw x o h X)
    (carried : Carried o.bus.nullRegister (X.bar X.configBarIdx)) :
    Act.wp (Lawful hw E x.pdev) (readInterrupts x) (Act.returns fun _ t => Becomes x o t h X) s := by
  refine Act.wp_seq (loadXdev_step now _) ?_
  rintro _ s ⟨now, rfl⟩
  refine Act.wp_seq (ioread32_step now served carried _) fun _ s now => ?_
  refine Act.wp_seq (ioread32_step now served carried _) fun _ s now => ?_
  rw [Act.wp_pure]
  exact now

theorem interruptsDisable_step (now : Becomes x o s h X) (served : Served hw x o h X)
    (carried : Carried o.bus.nullRegister (X.bar X.configBarIdx)) (mask : BitVec 32) :
    Act.wp (Lawful hw E x.pdev) (channelInterruptsDisable x mask) (Act.returns fun _ t => Becomes x o t h X) s ∧
    Act.wp (Lawful hw E x.pdev) (userInterruptsDisable x mask) (Act.returns fun _ t => Becomes x o t h X) s := by
  constructor
  · refine Act.wp_seq (loadXdev_step now _) ?_
    rintro _ s ⟨now, rfl⟩
    exact iowrite32_step now served carried _ _
  · refine Act.wp_seq (loadXdev_step now _) ?_
    rintro _ s ⟨now, rfl⟩
    exact iowrite32_step now served carried _ _

/-- Without BAR 1 the first access of the open is one through NULL, which may stop the kernel. -/
theorem openInterrupts_cut (now : Becomes x o s h X) (idle : h.actions = [])
    (absent : (hw x.pdev).resourceLen 1 = 0) (entry : X.bar X.configBarIdx = none)
    (stops : o.bus.nullRegister = none) {old : List Mapping}
    (maps : h.maps = mapsBelow X.bar XGPU_BAR_NUM ++ old) :
    Act.wp (Lawful hw E x.pdev) (openInterrupts hw env x x.pdev) (InterruptsEnd hw env x o old h X) s := by
  have cut : Act.wp (Lawful hw E x.pdev) (channelInterruptsDisable x (~~~0))
      (fun v t => v = none ∧ Becomes x o t h X) s := by
    refine Act.wp_seq (loadXdev_step now _) ?_
    rintro _ s ⟨now, rfl⟩
    rw [entry, iowrite32, Act.wp_bind]
    exact nullAccess_cut now (.of_idle idle) trivial stops ⟨rfl, now⟩
  unfold openInterrupts
  rw [Act.wp_bind]
  refine Act.wp_mono cut ?_
  rintro _ t ⟨rfl, now⟩
  refine ⟨absent, h, X, idle, fun m there => ?_, now⟩
  rw [maps]
  exact List.mem_append_right _ there

/-- The interrupts of an open whose register accesses are carried out. -/
theorem openInterrupts_carried (live : x ∈ o.xdevLive) (now : Becomes x o s h X) (idle : h.actions = [])
    (off : h.msi = .off) (msix : X.msixEnabled = false) (msi : X.msiEnabled = false)
    (got : X.gotRegions = false) (inUse : X.regionsInUse = false) (tagged : Tagged X.bar)
    {old : List Mapping} (maps : h.maps = mapsBelow X.bar XGPU_BAR_NUM ++ old)
    (carried : Carried o.bus.nullRegister (X.bar X.configBarIdx))
    (there : (hw x.pdev).resourceLen 1 ≠ 0 → ∃ m ∈ h.maps, X.bar X.configBarIdx = some m)
    (exception : ¬ (selectMode hw env.interruptMode x.pdev).Enables env → E) :
    Act.wp (Lawful hw E x.pdev) (openInterrupts hw env x x.pdev) (InterruptsEnd hw env x o old h X) s := by
  refine Act.wp_seq (interruptsDisable_step now (.of_idle idle) carried _).1 fun _ s now => ?_
  refine Act.wp_seq (interruptsDisable_step now (.of_idle idle) carried _).2 fun _ s now => ?_
  refine Act.wp_seq (readInterrupts_step now (.of_idle idle) carried) fun _ s now => ?_
  refine Act.wp_seq (enableMsiMsix_step now idle off) fun rv s outcome => ?_
  generalize chosen : selectMode hw env.interruptMode x.pdev = mode at outcome exception
  have marked : Marked mode (mode.mark X) := Mode.marked_mark mode msix msi
  have base : (mode.mark X).bar (mode.mark X).configBarIdx = X.bar X.configBarIdx := by
    rw [Mode.mark_bar, Mode.mark_configBarIdx]
  have carried' : Carried o.bus.nullRegister ((mode.mark X).bar (mode.mark X).configBarIdx) := base ▸ carried
  have there' := base ▸ there
  have got' : (mode.mark X).gotRegions = false := by rw [Mode.mark_gotRegions, got]
  have inUse' : (mode.mark X).regionsInUse = false := by rw [Mode.mark_regionsInUse, inUse]
  have tagged' : Tagged (mode.mark X).bar := by rwa [Mode.mark_bar]
  have maps' : h.maps.Perm (mapsBelow (mode.mark X).bar XGPU_BAR_NUM ++ old) := by
    rw [Mode.mark_bar, maps]
  by_cases ok : mode.Enables env
  · rw [if_pos ok] at outcome
    rw [if_neg (by omega)]
    have setup : Act.wp (Lawful hw E x.pdev) (irqSetup hw env x x.pdev) _ s :=
      irqSetup_step rfl live outcome.2 idle marked (by rw [Mode.mark_userMax]) carried'
    refine Act.wp_seq setup ?_
    rintro rv s (⟨rfl, accepted, now⟩ | ⟨failed, refused, line, now⟩)
    · rw [Mode.mark_userMax, Mode.mark_irqLine] at now
      rw [if_neg (by simp)]
      have served : Served hw x o
          { h with msi := mode.state X.userMax, actions := mode.actions hw x X.userMax }
          ((mode.mark X).withIrqLine (mode.line hw x.pdev X.irqLine)) := by
        have same := Mode.mark_userMax mode X
        exact served_actions live (congrArg (mode.state ·) same.symm)
          (congrArg (mode.actions hw x ·) same.symm) there'
      refine Act.wp_seq (readInterrupts_step now served carried') fun _ s now => ?_
      rw [Act.wp_pure]
      subst chosen
      exact ⟨carried, ok, accepted, now⟩
    · rw [if_pos failed]
      refine Act.wp_seq (errMsix_step now idle got' inUse' tagged' maps'
        (flagsFit_on marked _)) ?_
      rintro _ s ⟨Y, left, perm, now⟩
      rw [Act.wp_pure]
      rw [Mode.mark_userMax] at refused
      rw [← off] at now
      subst chosen
      exact ⟨.inr refused, Y, left, perm, now⟩
  · rw [if_neg ok] at outcome
    rw [if_pos outcome.1]
    have fit : FlagsFit E (mode.mark X) h.msi := off ▸ flagsFit_failed marked ok (exception ok)
    refine Act.wp_seq (errMsix_step outcome.2 idle got' inUse' tagged' maps' fit) ?_
    rintro _ s ⟨Y, left, perm, now⟩
    rw [Act.wp_pure]
    rw [← off] at now
    subst chosen
    exact ⟨.inl ok, Y, left, perm, now⟩

theorem openInterrupts_step (live : x ∈ o.xdevLive) (now : Becomes x o s h X) (idle : h.actions = [])
    (off : h.msi = .off) (msix : X.msixEnabled = false) (msi : X.msiEnabled = false)
    (got : X.gotRegions = false) (inUse : X.regionsInUse = false) (config : X.configBarIdx = 1)
    (mapped : Mapped hw x.pdev X.bar XGPU_BAR_NUM) {old : List Mapping}
    (maps : h.maps = mapsBelow X.bar XGPU_BAR_NUM ++ old)
    (exception : GoesOn hw x.pdev o.bus.nullRegister →
      ¬ (selectMode hw env.interruptMode x.pdev).Enables env → E) :
    Act.wp (Lawful hw E x.pdev) (openInterrupts hw env x x.pdev) (InterruptsEnd hw env x o old h X) s := by
  have entry : MapsBar hw x.pdev 1 (X.bar X.configBarIdx) := config ▸ mapped.below 1 (by decide)
  unfold MapsBar at entry
  by_cases stops : X.bar X.configBarIdx = none ∧ o.bus.nullRegister = none
  · have absent : (hw x.pdev).resourceLen 1 = 0 := by
      by_contra present
      rw [if_neg present, stops.1] at entry
      exact nomatch entry.choose_spec
    exact openInterrupts_cut now idle absent stops.1 stops.2 maps
  · have carried : Carried o.bus.nullRegister (X.bar X.configBarIdx) := fun none stop => stops ⟨none, stop⟩
    have goesOn : GoesOn hw x.pdev o.bus.nullRegister := fun absent => carried (by rwa [if_pos absent] at entry)
    have there (present : (hw x.pdev).resourceLen 1 ≠ 0) : ∃ m ∈ h.maps, X.bar X.configBarIdx = some m := by
      rw [if_neg present] at entry
      obtain ⟨serial, base⟩ := entry
      have first : X.bar ((1 : Nat) : Int) = X.bar X.configBarIdx := by
        rw [config]
        rfl
      refine ⟨_, ?_, base⟩
      rw [maps, List.mem_append]
      exact .inl (mem_mapsBelow.mpr ⟨1, by decide, first.trans base⟩)
    exact openInterrupts_carried live now idle off msix msi got inUse mapped.tagged maps carried there
      (exception goesOn)

/-! The whole of open and close on one device. -/

/-- How an open ends on its device. -/
def OpenEnds (hw : Dev → PciDev) (env : Env) (x : XdevPtr) (o : DevState) (h : Held) (X : XgpuDev) :
    Option Bool → DevState → Prop
  | none, t => (hw x.pdev).resourceLen 1 = 0 ∧
      ∃ k Y, k.actions = [] ∧ (∀ m ∈ h.maps, m ∈ k.maps) ∧ Becomes x o t k Y
  | some true, t =>
      let mode := selectMode hw env.interruptMode x.pdev
      ReachesInterrupts hw env x.pdev h.regions ∧ mode.Enables env ∧
        (mode = .msi → env.errno .requestIrqMsi = 0) ∧
        ∃ k Y, Opened hw x mode o.bus.nullRegister h.maps k Y ∧ k.enables = h.enables + 1 ∧
          k.regions = regionsAfter hw env x.pdev h.regions ∧ Y.userMax = X.userMax ∧
          Becomes x o t k Y
  | some false, t =>
      (ReachesInterrupts hw env x.pdev h.regions → InterruptsFail hw env x.pdev X.userMax) ∧
        ∃ Y left, left.Perm h.maps ∧
          Becomes x o t { h with regions := regionsAfter hw env x.pdev h.regions, maps := left } Y

/-- Counting an enable and taking it back. -/
theorem enables_back (h : Held) (regions : List Nat) (left : List Mapping) :
    ({ h with enables := h.enables + 1 - 1, regions := regions, maps := left } : Held) =
      { h with regions := regions, maps := left } := by
  rw [Int.add_sub_cancel]

theorem opened_mark (mode : Mode) {nullRegister : Option (BitVec 32)} (fresh : Fresh X)
    {bar : Int → Option Mapping} (carried : Carried nullRegister (bar 1))
    (mapped : Mapped hw x.pdev bar XGPU_BAR_NUM) {k : Held} (state : k.msi = mode.state X.userMax)
    (handlers : k.actions = mode.actions hw x X.userMax) {old : List Mapping}
    (maps : k.maps.Perm (mapsBelow bar XGPU_BAR_NUM ++ old)) :
    Opened hw x mode nullRegister old k
      ((mode.mark (barsOf hw x.pdev X bar)).withIrqLine (mode.line hw x.pdev X.irqLine)) := by
  cases mode with
  | msix =>
    exact ⟨carried, ⟨rfl, fresh.msi⟩, state, handlers, rfl, mapped, maps, rfl, fresh.got, fresh.inUse⟩
  | msi =>
    exact ⟨carried, ⟨fresh.msix, rfl⟩, state, handlers, rfl, mapped, maps, rfl, fresh.got, fresh.inUse⟩
  | legacy =>
    exact ⟨carried, ⟨fresh.msix, fresh.msi⟩, state, handlers, rfl, mapped, maps, rfl, fresh.got,
      fresh.inUse⟩

theorem openPdev_step (live : x ∈ o.xdevLive) (now : Becomes x o s h X) (idle : h.actions = [])
    (off : h.msi = .off) (fresh : Fresh X)
    (exception : ReachesInterrupts hw env x.pdev h.regions → GoesOn hw x.pdev o.bus.nullRegister →
      ¬ (selectMode hw env.interruptMode x.pdev).Enables env → E) :
    Act.wp (Lawful hw E x.pdev) (openPdev hw env x x.pdev) (OpenEnds hw env x o h X) s := by
  refine Act.wp_seq (pciEnableDevice_step now (.of_idle idle)) fun rv s outcome => ?_
  by_cases enabled : env.errno .enableDevice = 0
  · have after : regionsAfter hw env x.pdev h.regions =
        (regionsRequested hw env x.pdev h.regions).2 := if_pos enabled
    rw [if_pos enabled] at outcome
    obtain ⟨rfl, now⟩ := outcome
    rw [if_neg (by simp)]
    refine Act.wp_seq (pciCheckIntrPend_step now (.of_idle idle)) fun _ s now => ?_
    refine Act.wp_seq (pciEnableCapability_step now (.of_idle idle) _) fun _ s now => ?_
    refine Act.wp_seq (pciEnableCapability_step now (.of_idle idle) _) fun _ s now => ?_
    refine Act.wp_seq (pcieSetReadrq_step now (.of_idle idle) _) fun _ s now => ?_
    refine Act.wp_seq (pciSetMaster_step now (.of_idle idle)) fun _ s now => ?_
    refine Act.wp_seq (requestRegions_step now (.of_idle idle) idle) ?_
    rintro rv s ⟨zero, now⟩
    by_cases granted : (regionsRequested hw env x.pdev h.regions).1 = true
    · rw [if_neg (by simp [zero, granted])]
      refine Act.wp_seq (mapBars_step now (idle ▸ .of_idle) fresh.bar) ?_
      rintro rv s (⟨rfl, bars, bar, mapped, now⟩ | ⟨failed, unmapped, bar, left, perm, now⟩)
      · rw [if_neg (by simp)]
        refine Act.wp_seq (setDmaMask_step now (.of_idle idle)) ?_
        rintro rv s ⟨suits, now⟩
        by_cases mask : DmaOk env
        · have reached : ReachesInterrupts hw env x.pdev h.regions := ⟨enabled, granted, bars, mask⟩
          rw [if_neg (by simp [suits, mask])]
          refine Act.wp_mono (openInterrupts_step live now idle off fresh.msix fresh.msi fresh.got
            fresh.inUse rfl mapped rfl (exception reached)) ?_
          rintro (_ | _ | _) t ends
          · exact ends
          · obtain ⟨fails, Y, left, perm, now⟩ := ends
            rw [enables_back, ← after] at now
            exact ⟨fun _ => fails, Y, left, perm, now⟩
          · obtain ⟨carried, enables, accepted, now⟩ := ends
            refine ⟨reached, enables, accepted, _, _, ?_, rfl, ?_, ?_, now⟩
            · exact opened_mark _ fresh carried mapped rfl rfl (.refl _)
            · exact after.symm
            · exact Mode.mark_userMax _ _
        · rw [if_pos (mt suits.mp mask)]
          refine Act.wp_seq (errMask_step now idle fresh.got fresh.inUse mapped.tagged (.refl _)) ?_
          rintro _ s ⟨Y, left, perm, now⟩
          rw [enables_back, ← after] at now
          rw [Act.wp_pure]
          exact ⟨fun reached => absurd reached.mask mask, Y, left, perm, now⟩
      · rw [if_pos failed]
        refine Act.wp_seq (errMap_step now idle fresh.got fresh.inUse) fun _ s now => ?_
        rw [Act.wp_pure]
        rw [enables_back, ← after] at now
        exact ⟨fun reached => absurd reached.bars unmapped, _, left, perm, now⟩
    · rw [if_pos (mt zero.mp granted)]
      refine Act.wp_seq (errRegions_step now idle fresh.inUse) fun _ s now => ?_
      rw [Act.wp_pure]
      rw [enables_back, ← after] at now
      exact ⟨fun reached => absurd reached.regions granted, X, h.maps, .refl _, now⟩
  · have after : regionsAfter hw env x.pdev h.regions = h.regions := if_neg enabled
    rw [if_neg enabled] at outcome
    rw [if_pos (by omega), Act.wp_pure]
    refine ⟨fun reached => absurd reached.enabled enabled, X, h.maps, .refl _, ?_⟩
    rw [after]
    exact outcome.2

/-- Where there is a BAR with the interrupt registers, it is mapped. -/
theorem Opened.entry {mode : Mode} {nullRegister : Option (BitVec 32)} {old : List Mapping}
    (opened : Opened hw x mode nullRegister old h X) (present : (hw x.pdev).resourceLen 1 ≠ 0) :
    ∃ m ∈ h.maps, X.bar X.configBarIdx = some m := by
  have entry : MapsBar hw x.pdev 1 (X.bar X.configBarIdx) :=
    opened.config ▸ opened.mapped.below 1 (by decide)
  rw [MapsBar, if_neg present] at entry
  obtain ⟨serial, base⟩ := entry
  have first : X.bar ((1 : Nat) : Int) = X.bar X.configBarIdx := by
    rw [opened.config]
    rfl
  refine ⟨_, ?_, base⟩
  rw [opened.maps.mem_iff, List.mem_append]
  exact .inl (mem_mapsBelow.mpr ⟨1, by decide, first.trans base⟩)

theorem Opened.goesOn {mode : Mode} {nullRegister : Option (BitVec 32)} {old : List Mapping}
    (opened : Opened hw x mode nullRegister old h X) : GoesOn hw x.pdev nullRegister := by
  intro absent
  have entry : MapsBar hw x.pdev 1 (X.bar X.configBarIdx) :=
    opened.config ▸ opened.mapped.below 1 (by decide)
  rw [MapsBar, if_pos absent] at entry
  exact opened.carried entry

theorem Opened.served {mode : Mode} {nullRegister : Option (BitVec 32)} {old : List Mapping}
    (opened : Opened hw x mode nullRegister old h X) (live : x ∈ o.xdevLive) : Served hw x o h X :=
  served_actions live opened.state opened.handlers opened.entry

theorem Opened.attended {mode : Mode} {nullRegister : Option (BitVec 32)} {old : List Mapping}
    (opened : Opened hw x mode nullRegister old s.held (s.xdev x)) (live : x ∈ s.xdevLive)
    (present : (hw x.pdev).resourceLen 1 ≠ 0) : Attended s :=
  (opened.served live).attended (.refl x s) present

/-- Closing a device gives everything back but the regions. -/
theorem closePdev_step {mode : Mode} (live : x ∈ o.xdevLive) (now : Becomes x o s h X)
    {old : List Mapping} (opened : Opened hw x mode o.bus.nullRegister old h X) :
    Act.wp (Lawful hw E x.pdev) (closePdev hw x x.pdev) (Act.returns fun _ t => ∃ Y left, left.Perm old ∧
      Becomes x o t
        { h with enables := h.enables - 1, maps := left, msi := .off, actions := [] } Y) s := by
  refine Act.wp_seq (irqTeardown_step rfl live now opened.marked opened.state opened.handlers
    opened.line opened.entry opened.carried) fun _ s now => ?_
  have fit : FlagsFit E X h.msi := opened.state ▸ flagsFit_on opened.marked _
  refine Act.wp_seq (disableMsiMsix_step now rfl fit) ?_
  rintro _ s ⟨one, two, now⟩
  refine Act.wp_seq (unmapBars_step now .of_idle opened.mapped.tagged opened.maps) ?_
  rintro _ s ⟨bar, left, perm, now, _⟩
  refine Act.wp_seq (loadXdev_step now _) ?_
  rintro _ s ⟨now, rfl⟩
  rw [if_neg (by simp [opened.got]), pure_bind]
  refine Act.wp_seq (loadXdev_step now _) ?_
  rintro _ s ⟨now, rfl⟩
  rw [if_neg (by simp [opened.inUse])]
  refine Act.wp_returns_mono (pciDisableDevice_step now (.of_idle rfl)) fun _ t now => ?_
  exact ⟨_, left, perm, now⟩

end

end PcieUtil.Driver.Opening
