import PcieUtil.Driver.Callees
import PcieUtil.Driver.Probing

/-! The error handlers of xgpu_mod.c, and how often a probe, a remove and the handlers
enable and disable their device. -/

namespace PcieUtil.Driver.Recovery
open Lib.Action State Kernel Discipline Irq DeviceOpen Devices Interfaces Nodes Probe Probing Callees

/-! `pci_channel_state_t` is an unsigned int. -/

def PCI_CHANNEL_IO_NORMAL : BitVec 32 := 1
def PCI_CHANNEL_IO_FROZEN : BitVec 32 := 2
def PCI_CHANNEL_IO_PERM_FAILURE : BitVec 32 := 3

/-- `pci_ers_result_t` -/
inductive PciErsResult where
  | canRecover
  | needReset
  | disconnect
  | recovered
  deriving DecidableEq, Repr

section
variable (hw : Dev → PciDev) (pdev : Dev)

def pciEnableDeviceMem (errno : Nat) : DevM Int :=
  pciCall hw pdev (.pciEnableDeviceMem pdev) fun s =>
    if errno = 0 then (0, s.withHeld { s.held with enables := s.held.enables + 1 })
    else (-(errno : Int), s)

def pciRestoreState : DevM Unit := pciCall hw pdev (.pciRestoreState pdev) fun s => ((), s)

def pciSaveState : DevM Unit := pciCall hw pdev (.pciSaveState pdev) fun s => ((), s)

def xgpuErrorDetected (state : BitVec 32) : DevM PciErsResult := do
  if state = PCI_CHANNEL_IO_NORMAL then return .canRecover
  else if state = PCI_CHANNEL_IO_FROZEN then
    pciDisableDevice hw pdev
    return .needReset
  else if state = PCI_CHANNEL_IO_PERM_FAILURE then return .disconnect
  else return .needReset

def xgpuSlotReset (errno : Nat) : DevM PciErsResult := do
  if (← pciEnableDeviceMem hw pdev errno) ≠ 0 then return .disconnect
  else
    pciSetMaster hw pdev
    pciRestoreState hw pdev
    pciSaveState hw pdev
    return .recovered

/-- It only prints. -/
def xgpuErrorResume : DevM Unit := return ()

end

/-- The change that a call makes to the enable count of a device, where the calls that enable
it succeed or fail. -/
def countChanges (succeeds : Bool) (pdev : Dev) : Call → List Int
  | .pciEnableDevice p | .pciEnableDeviceMem p => if succeeds ∧ p = pdev then [1] else []
  | .pciDisableDevice p => if p = pdev then [-1] else []
  | _ => []

section
variable {hw : Dev → PciDev} {t : Tables} {walk : Walk} {env : Env} {x : XdevPtr} {pdev : Dev}
  {succeeds : Bool} {w : World}

theorem countChanges_steady {c : Call} (steady : Steady c) : countChanges succeeds pdev c = [] := by
  unfold countChanges
  split
  · exact absurd trivial steady
  · exact absurd trivial steady
  · exact absurd trivial steady
  · rfl

theorem countChanges_ordinary {c : Call} (ordinary : Ordinary c) : countChanges succeeds pdev c = [] :=
  countChanges_steady ordinary.steady

/-- An action that has not ended has returned nothing. -/
theorem not_returned {α : Type} {a : α} {P : Prop} (returned : none = some a) : P := by
  cases returned

/-- Ordinary calls count nothing: what is counted is what the rest counts. -/
theorem ordinary_first {α β σ : Type} {act : Act σ Call α} {next : α → Act σ Call β}
    {Q : Option β → σ → List Int → Prop} {s : σ} (within : Act.Within Ordinary act)
    (stops : ∀ s', Q none s' [])
    (rest : ∀ a s', Act.collects (countChanges succeeds pdev) (next a) Q s') :
    Act.collects (countChanges succeeds pdev) (act >>= next) Q s :=
  Act.collects_seq within (fun _ => countChanges_ordinary) stops rest

/-- A failure path of an open, whatever it has picked up. -/
theorem failed_open {act : DevM Unit} {s : DevState} {pick : Call → List Int} {Q : List Int → Prop} :
    Act.collects pick (do act; return false) (fun v _ more => v = some true → Q more) s :=
  Act.collects_returns (fun _ _ => not_returned) fun _ _ returned => by simp at returned

/-- The interrupt part of an open. -/
theorem openInterrupts_changes (s : DevState) :
    Act.collects (countChanges succeeds pdev) (openInterrupts hw env x pdev)
      (fun v _ picked => v = some true → picked = []) s := by
  have disabled : ∀ mask, Act.Within Ordinary (channelInterruptsDisable x mask) :=
    fun _ => .bind (.read _) fun _ => iowrite32_within _ _ _
  have userDisabled : ∀ mask, Act.Within Ordinary (userInterruptsDisable x mask) :=
    fun _ => .bind (.read _) fun _ => iowrite32_within _ _ _
  unfold openInterrupts
  apply ordinary_first (disabled _) fun _ => not_returned
  intro _ s
  apply ordinary_first (userDisabled _) fun _ => not_returned
  intro _ s
  apply ordinary_first readInterrupts_within fun _ => not_returned
  intro _ s
  apply ordinary_first enableMsiMsix_within fun _ => not_returned
  intro rv s
  split
  · exact failed_open
  · apply ordinary_first irqSetup_within fun _ => not_returned
    intro rv s
    split
    · exact failed_open
    · apply ordinary_first readInterrupts_within fun _ => not_returned
      intro _ s
      exact Act.collects_pure.mpr fun _ => rfl

/-- An open that succeeds has enabled its device once. -/
theorem openPdev_changes (s : DevState) :
    Act.collects (countChanges (decide (env.errno .enableDevice = 0)) pdev) (openPdev hw env x pdev)
      (fun v _ picked => v = some true → picked = [1]) s := by
  unfold openPdev
  rw [Act.collects_bind, pciEnableDevice, pciCall, Act.collects_call]
  by_cases ok : env.errno .enableDevice = 0
  · have enabled : countChanges (decide (env.errno .enableDevice = 0)) pdev (.pciEnableDevice pdev) = [1] := by
      simp [countChanges, ok]
    have rest : ∀ {act : DevM Bool} {u : DevState},
        Act.collects (countChanges (decide (env.errno .enableDevice = 0)) pdev) act
          (fun v _ more => v = some true → more = []) u →
        Act.collects (countChanges (decide (env.errno .enableDevice = 0)) pdev) act
          (fun v _ more => v = some true → [1] ++ more = [1]) u := by
      intro act u holds
      apply Act.collects_mono holds
      intro v _ more nothing value
      rw [nothing value, List.append_nil]
    simp only [if_pos ok, Act.thenCollects_some]
    rw [if_neg (by decide), enabled]
    apply rest
    apply ordinary_first pciCheckIntrPend_within fun _ => not_returned
    intro _ s
    apply ordinary_first (pciEnableCapability_within _) fun _ => not_returned
    intro _ s
    apply ordinary_first (pciEnableCapability_within _) fun _ => not_returned
    intro _ s
    apply ordinary_first (.call ⟨id, id⟩) fun _ => not_returned
    intro _ s
    apply ordinary_first (.call ⟨id, id⟩) fun _ => not_returned
    intro _ s
    apply ordinary_first requestRegions_within fun _ => not_returned
    intro rv s
    split
    · exact failed_open
    · apply ordinary_first mapBars_within fun _ => not_returned
      intro rv s
      split
      · exact failed_open
      · apply ordinary_first setDmaMask_within fun _ => not_returned
        intro rv s
        split
        · exact failed_open
        · exact openInterrupts_changes s
  · have failed : env.rv .enableDevice ≠ 0 := mt rv_zero.mp ok
    simp only [if_neg ok, Act.thenCollects_some]
    rw [if_pos failed, Act.collects_pure]
    exact fun returned => by simp at returned

theorem xgpuDeviceOpen_changes (mname : String) (userMax : Nat) (w : World) :
    Act.collects (countChanges (decide (env.errno .enableDevice = 0)) pdev)
      (xgpuDeviceOpen hw env pdev mname userMax)
      (fun v _ picked => ∀ x n, v = some (some x, n) → picked = [1]) w := by
  have alloc : Act.Within Ordinary (onDev pdev (allocDevInstance env pdev)) := by
    apply within_onDev
    unfold allocDevInstance
    apply Act.Within.bind (.call ⟨id, id⟩) fun x => ?_
    cases x with
    | none => exact .pure _
    | some x => exact .bind (.update _) fun _ => .pure _
  unfold xgpuDeviceOpen
  apply ordinary_first alloc fun _ _ _ => not_returned
  intro x w
  cases x with
  | none => exact Act.collects_pure.mpr fun _ _ returned => by simp at returned
  | some x =>
    apply ordinary_first onDev_update_within fun _ _ _ => not_returned
    intro _ w
    apply ordinary_first onDev_update_within fun _ _ _ => not_returned
    intro _ w
    apply ordinary_first (.bind (.update _) fun _ => .pure _) fun _ _ _ => not_returned
    intro rv w
    split
    · exact Act.collects_returns (fun _ _ _ _ => not_returned) fun _ _ _ _ returned => by simp at returned
    · rw [Act.collects_bind, onDev, Act.collects_zoom]
      apply Act.collects_mono (openPdev_changes _)
      intro v s picked once
      cases v with
      | none => exact fun _ _ => not_returned
      | some opened =>
        cases opened with
        | false =>
          rw [Act.thenCollects_some, if_neg Bool.false_ne_true]
          apply ordinary_first (.update _) fun _ _ _ => not_returned
          exact fun _ w => Act.collects_returns (fun _ _ _ _ => not_returned)
            fun _ _ _ _ returned => by simp at returned
        | true =>
          rw [Act.thenCollects_some, if_pos rfl, once rfl]
          have ends : Act.Within Ordinary (do
              let userMax ← onDev pdev (loadXdev x XgpuDev.userMax)
              onDev pdev (xgpuDeviceFlagClear x XDEV_FLAG_OFFLINE)
              return (some x, userMax)) :=
            .bind (within_onDev pdev (.read _)) fun _ => .bind onDev_update_within fun _ => .pure _
          apply Act.collects_mono (Act.collects_of_wp (Act.wp_within (ends _ trivial) ends)
            fun _ => countChanges_ordinary)
          intro v _ more post _ _ _
          obtain ⟨_, nothing⟩ := post
          rw [nothing, List.append_nil]

/-- A probe that gives up has failed. -/
theorem errOut_collects {rv : Int} {pick : Call → List Int} {Q : List Int → Prop} (failed : rv ≠ 0)
    (w : World) : Act.collects pick (errOut hw t walk pdev rv) (fun v _ more => v = some 0 → Q more) w := by
  apply Act.collects_returns
  · exact fun _ _ => not_returned
  · exact fun _ _ zero => absurd (Option.some.inj zero) failed

theorem probeXdev_changes (w : World) :
    Act.collects (countChanges succeeds pdev) (probeXdev hw t walk env pdev x)
      (fun v _ picked => v = some 0 → picked = []) w := by
  unfold probeXdev
  apply ordinary_first (onDev_call_within ⟨id, id⟩) fun _ => not_returned
  intro rv w
  split
  · next failed => exact errOut_collects failed w
  · apply ordinary_first (within_onDev pdev (.read _)) fun _ => not_returned
    intro irq w
    apply ordinary_first (onDev_call_within ⟨id, id⟩) fun _ => not_returned
    intro rv w
    split
    · next failed =>
      apply ordinary_first (onDev_call_within ⟨id, id⟩) fun _ => not_returned
      exact fun _ w => errOut_collects failed w
    · apply Act.collects_seq xpdevCreateInterfaces_within (fun _ => countChanges_steady) fun _ => not_returned
      intro rv w
      split
      · next failed =>
        apply ordinary_first freeMsi_within fun _ => not_returned
        exact fun _ w => errOut_collects failed w
      · apply ordinary_first onDev_update_within fun _ => not_returned
        exact fun _ w => Act.collects_pure.mpr fun _ => rfl

/-- A probe that succeeds has enabled its device once. -/
theorem probeOne_changes (hw : Dev → PciDev) (t : Tables) (walk : Walk) (env : Env) (pdev : Dev) (w : World) :
    Act.collects (countChanges (decide (env.errno .enableDevice = 0)) pdev) (probeOne hw t walk env pdev)
      (fun v _ picked => v = some 0 → picked = [1]) w := by
  have alloc : Act.Within Ordinary (onDev pdev (xpdevAlloc env)) := by
    apply within_onDev
    unfold xpdevAlloc
    apply Act.Within.bind (.call ⟨id, id⟩) fun made => ?_
    split
    · exact .bind (.update _) fun _ => .pure _
    · exact .pure _
  unfold probeOne
  apply ordinary_first alloc fun _ => not_returned
  intro made w
  split
  · apply ordinary_first (.read _) fun _ => not_returned
    intro userMax w
    rw [Act.collects_bind]
    apply Act.collects_mono (xgpuDeviceOpen_changes "xgpu" userMax w)
    intro v w picked once
    cases v with
    | none => exact not_returned
    | some result =>
      obtain ⟨hndl, n⟩ := result
      rw [Act.thenCollects_some]
      apply ordinary_first onDev_update_within fun _ => not_returned
      intro _ w
      cases hndl with
      | none => exact errOut_collects (by decide) w
      | some hndl =>
        apply ordinary_first (.read _) fun _ => not_returned
        intro found w
        cases found with
        | none => exact errOut_collects (by decide) w
        | some xdev =>
          dsimp only
          split
          · exact errOut_collects (by decide) w
          · apply ordinary_first onDev_update_within fun _ => not_returned
            intro _ w
            apply Act.collects_mono (probeXdev_changes w)
            intro v _ more nothing value
            rw [once hndl n rfl, nothing value, List.append_nil]
  · exact Act.collects_pure.mpr fun returned => by cases returned

/-- The change of a remove, or of its last part, if it ends. -/
def Disabled (α : Type) : Option α → List Int → Prop
  | none, picked => picked = []
  | some _, picked => picked = [-1]

theorem closePdev_changes {s : DevState} (free : InUse x false s) :
    Act.collects (countChanges succeeds pdev) (closePdev hw x pdev)
      (fun v _ picked => Disabled Unit v picked) s := by
  unfold closePdev
  apply Act.collects_maintains irqTeardown_maintains free (fun _ => countChanges_ordinary) fun _ => rfl
  intro _ s free
  apply Act.collects_maintains disableMsiMsix_maintains free (fun _ => countChanges_ordinary) fun _ => rfl
  intro _ s free
  apply Act.collects_maintains (unmapBarsFrom_maintains _ _) free (fun _ => countChanges_ordinary) fun _ => rfl
  intro _ s free
  have kept : Act.Maintains (InUse x false) Ordinary (loadXdev x XgpuDev.gotRegions) := .read _
  apply Act.collects_maintains kept free (fun _ => countChanges_ordinary) fun _ => rfl
  intro got s free
  have released : Act.Maintains (InUse x false) Ordinary
      (if got then pciReleaseRegions pdev else pure ()) := by
    split
    · exact call_maintains ⟨id, id⟩ fun _ => rfl
    · exact .pure ()
  apply Act.collects_maintains released free (fun _ => countChanges_ordinary) fun _ => rfl
  intro _ s free
  rw [Act.collects_bind, loadXdev, Act.collects_read, Act.thenCollects_some, free,
    if_neg Bool.false_ne_true, pciDisableDevice, pciCall, Act.collects_call]
  change [] ++ countChanges succeeds pdev (.pciDisableDevice pdev) = [-1]
  simp [countChanges]

theorem xgpuDeviceClose_changes (found : w.xdevList.find? (fun y => y.pdev = x.pdev) = some x)
    (free : InUse x false (w.dev x.pdev)) :
    Act.collects (countChanges succeeds x.pdev) (xgpuDeviceClose hw x.pdev (some x))
      (fun v _ picked => Disabled Unit v picked) w := by
  unfold xgpuDeviceClose debugCheckDevHndl xdevFindByPdev
  simp only [Act.collects_bind, Act.collects_read, Act.thenCollects_some, found, ne_eq,
    not_true_eq_false, if_false, Act.collects_pure]
  rw [if_neg (by decide), Act.collects_bind, onDev, Act.collects_zoom]
  apply Act.collects_mono (closePdev_changes free)
  intro v s picked disabled
  cases v with
  | none => exact disabled
  | some _ =>
    have once : picked = [-1] := disabled
    rw [once]
    exact rfl

/-- A remove of a bound device disables it once, if it is not cut off. -/
theorem removeOne_changes (succeeds : Bool) (walk : Walk) (bound : Bound hw t x w) :
    Act.collects (countChanges succeeds x.pdev) (removeOne hw t walk x.pdev)
      (fun v _ picked => Disabled Unit v picked) w := by
  obtain ⟨⟨h, closable, held⟩, drvdata⟩ := bound
  unfold removeOne
  simp only [Act.collects_bind, Act.collects_read, Act.thenCollects_some, drvdata, if_true, closable.owner]
  have freeing : Act.wp (LawfulOn hw True x.pdev w) (freeMsi hw x.pdev x) _ w := freeMsi_step closable held
  apply Act.collects_mono (Act.collects_of_wp (Act.wp_within freeing freeMsi_within)
    fun _ => countChanges_ordinary)
  intro v w₁ picked post
  obtain ⟨freed, nothing⟩ := post
  subst nothing
  cases v with
  | none => exact freed.elim
  | some _ =>
    obtain ⟨_, closable, held, _⟩ := freed
    obtain ⟨old, opened, _⟩ := closable.opened
    rw [Act.thenCollects_some, xpdevFree]
    simp only [Act.collects_bind, Act.collects_read, Act.thenCollects_some, closable.owner]
    subst held
    have attended : AttendedIfPresent hw x.pdev (w₁.dev x.pdev) := opened.attended closable.live
    have destroying : Act.wp (LawfulOn hw True x.pdev w₁) (xpdevDestroyInterfaces t walk x.pdev) _ w₁ :=
      xpdevDestroyInterfaces_step attended (Stage.refl closable.owner closable.linked closable.sysClass)
    apply Act.collects_mono (Act.collects_of_wp (Act.wp_within destroying xpdevDestroyInterfaces_within)
      fun _ => countChanges_steady)
    intro v w₂ picked post
    obtain ⟨⟨stage, _, _⟩, nothing⟩ := post
    subst nothing
    cases v with
    | none => exact rfl
    | some _ =>
      rw [Act.thenCollects_some, storeXpdev, onDev, Act.collects_zoom, Act.collects_update,
        Act.thenCollects_some]
      generalize cleared : setDev w₂ x.pdev _ = w₃
      have found : w₃.xdevList.find? (fun y => y.pdev = x.pdev) = some x := by
        have list : w₃.xdevList = w₁.xdevList := by
          rw [← cleared]
          exact stage.list
        rw [list, ← List.head?_filter, closable.listed, List.head?_cons]
      have free : InUse x false (w₃.dev x.pdev) := by
        rw [InUse, ← cleared, setDev_dev_same]
        change ((w₂.dev x.pdev).xdev x).regionsInUse = false
        rw [stage.xdev]
        exact opened.inUse
      apply Act.collects_mono (xgpuDeviceClose_changes found free)
      intro v _ picked disabled
      cases v with
      | none => exact disabled
      | some _ =>
        have once : picked = [-1] := disabled
        rw [once]
        exact rfl

/-! The error handlers. -/

/-- Of the device, only its enable count and its configuration space are changed. -/
def Touches (pdev : Dev) (w w' : World) : Prop :=
  ∃ enables config, w' = setDev w pdev
    (((w.dev pdev).withHeld { (w.dev pdev).held with enables := enables }).withConfig config)

theorem Touches.refl (pdev : Dev) (w : World) : Touches pdev w w :=
  ⟨(w.dev pdev).held.enables, (w.dev pdev).config, (setDev_self w pdev).symm⟩

theorem Touches.bound {w' : World} (touches : Touches x.pdev w w') (bound : Bound hw t x w) :
    Bound hw t x w' := by
  obtain ⟨enables, config, rfl⟩ := touches
  obtain ⟨⟨h, ⟨live, owner, linked, listed, sysClass, old, opened, pinned⟩, held⟩, drvdata⟩ := bound
  refine ⟨⟨{ h with enables := enables }, ⟨?_, ?_, ?_, listed, sysClass, old, ?_, pinned⟩, ?_⟩, ?_⟩
  all_goals rw [setDev_dev_same]
  · exact live
  · exact owner
  · exact linked.keep rfl rfl linked.major (Nat.le_refl _) fun type m there =>
      ⟨(linked.each type m there).live, rfl⟩
  · exact ⟨opened.carried, opened.marked, opened.state, opened.handlers, opened.line, opened.mapped,
      opened.maps, opened.config, opened.got, opened.inUse⟩
  · change ({ (w.dev x.pdev).held with enables := enables } : Held) = _
    rw [held]
  · exact drvdata

theorem xgpuErrorDetected_changes (hw : Dev → PciDev) (pdev : Dev) (succeeds : Bool) (state : BitVec 32)
    (w : World) :
    Act.collects (countChanges succeeds pdev) (onDev pdev (xgpuErrorDetected hw pdev state))
      (fun v w' picked => v ≠ none ∧ Touches pdev w w' ∧
        picked = if state = PCI_CHANNEL_IO_FROZEN then [-1] else []) w := by
  have same : setDev w pdev (w.dev pdev) = w := setDev_self w pdev
  rw [onDev, Act.collects_zoom, xgpuErrorDetected]
  by_cases normal : state = PCI_CHANNEL_IO_NORMAL
  · have other : state ≠ PCI_CHANNEL_IO_FROZEN := by
      rw [normal]
      decide
    rw [if_pos normal, Act.collects_pure, if_neg other, same]
    exact ⟨Option.some_ne_none _, .refl pdev w, rfl⟩
  · by_cases frozen : state = PCI_CHANNEL_IO_FROZEN
    · rw [if_neg normal, if_pos frozen, if_pos frozen, Act.collects_bind, pciDisableDevice, pciCall,
        Act.collects_call, Act.thenCollects_some, Act.collects_pure]
      refine ⟨Option.some_ne_none _, ⟨_, _, rfl⟩, ?_⟩
      simp [countChanges]
    · rw [if_neg normal, if_neg frozen, if_neg frozen]
      split
      · rw [Act.collects_pure, same]
        exact ⟨Option.some_ne_none _, .refl pdev w, rfl⟩
      · rw [Act.collects_pure, same]
        exact ⟨Option.some_ne_none _, .refl pdev w, rfl⟩

theorem xgpuSlotReset_changes (hw : Dev → PciDev) (pdev : Dev) (errno : Nat) (w : World) :
    Act.collects (countChanges (decide (errno = 0)) pdev) (onDev pdev (xgpuSlotReset hw pdev errno))
      (fun v w' picked => v ≠ none ∧ Touches pdev w w' ∧ picked = if errno = 0 then [1] else []) w := by
  rw [onDev, Act.collects_zoom, xgpuSlotReset, Act.collects_bind, pciEnableDeviceMem, pciCall,
    Act.collects_call]
  by_cases ok : errno = 0
  · simp only [if_pos ok, Act.thenCollects_some]
    rw [if_neg (by decide)]
    simp only [pciSetMaster, pciRestoreState, pciSaveState, pciCall, Act.collects_bind, Act.collects_call,
      Act.thenCollects_some, Act.collects_pure]
    refine ⟨Option.some_ne_none _, ⟨_, _, rfl⟩, ?_⟩
    simp [countChanges, ok]
  · simp only [if_neg ok, Act.thenCollects_some]
    rw [if_pos (by omega), Act.collects_pure]
    refine ⟨Option.some_ne_none _, ⟨(w.dev pdev).held.enables, _, rfl⟩, ?_⟩
    simp [countChanges, ok]

end

end PcieUtil.Driver.Recovery
