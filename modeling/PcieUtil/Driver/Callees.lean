import PcieUtil.Driver.Probe

/-! Which calls the parts of the driver make: only xgpu_device_open and xgpu_device_close
enable or disable a device, and only the code of the nodes registers and releases
number ranges. -/

namespace PcieUtil.Driver.Callees
open Lib.Action Lib.Bytes State Kernel Bars Irq DeviceOpen ConfigFile Interfaces Probe

/-- A call that changes the enable count of a device. -/
def Switches : Call → Prop
  | .pciEnableDevice _ | .pciEnableDeviceMem _ | .pciDisableDevice _ => True
  | _ => False

def Releases : Call → Prop
  | .unregisterChrdevRegion _ _ => True
  | _ => False

def Steady (c : Call) : Prop := ¬ Switches c

def KeepsNumbers (c : Call) : Prop := ¬ Releases c

/-- A call that does neither. -/
def Ordinary (c : Call) : Prop := ¬ Switches c ∧ ¬ Releases c

theorem Ordinary.steady {c : Call} (ordinary : Ordinary c) : Steady c := ordinary.1

theorem Ordinary.keepsNumbers {c : Call} (ordinary : Ordinary c) : KeepsNumbers c := ordinary.2

theorem within_onDev {α : Type} {may : Call → Prop} {act : DevM α} (pdev : Dev) (within : Act.Within may act) :
    Act.Within may (onDev pdev act) := within.zoom fun w => setDev_self w pdev

section
variable {hw : Dev → PciDev} {t : Tables} {walk : Walk} {env : Env} {x : XdevPtr} {pdev : Dev}

/-! The interrupt registers. -/

theorem nullAccess_within {σ : Type} {may : Call → Prop} {c : Call} {outcome : σ → Option (BitVec 32)}
    (allowed : may c) : Act.Within may (nullAccess c outcome) :=
  .bind (.call allowed) fun _ => .bind (.read _) fun
    | none => .fault
    | some _ => .pure _

theorem iowrite32_within (value : BitVec 32) (base : Option Mapping) (offset : Nat) :
    Act.Within Ordinary (iowrite32 value base offset) := by
  cases base with
  | none => exact .bind (nullAccess_within ⟨id, id⟩) fun _ => .pure _
  | some m => exact .call ⟨id, id⟩

theorem ioread32_within (base : Option Mapping) (offset : Nat) :
    Act.Within Ordinary (ioread32 base offset) := by
  cases base with
  | none => exact nullAccess_within ⟨id, id⟩
  | some m => exact .call ⟨id, id⟩

theorem readInterrupts_within : Act.Within Ordinary (readInterrupts x) :=
  .bind (.read _) fun _ => .bind (ioread32_within _ _) fun _ => .bind (ioread32_within _ _) fun _ => .pure _

theorem progVectorsFrom_within (base : Option Mapping) (vector max : Nat) (clear : Bool)
    (passes i j : Nat) : Act.Within Ordinary (progVectorsFrom base vector max clear passes i j) := by
  induction passes generalizing i j with
  | zero => exact .pure ()
  | succ passes ih =>
    unfold progVectorsFrom
    split
    · exact .bind (iowrite32_within _ _ _) fun _ => ih _ _
    · exact .pure ()

/-! The modes. -/

theorem enableMsiMsix_within : Act.Within Ordinary (enableMsiMsix hw env x pdev) := by
  unfold enableMsiMsix
  split
  · exact .bind (.read _) fun _ => .bind (.call ⟨id, id⟩) fun _ => .bind (.update _) fun _ => .pure _
  · split
    · exact .bind (.call ⟨id, id⟩) fun _ => .bind (.update _) fun _ => .pure _
    · exact .pure _

theorem rollback_within (i : Nat) : Act.Within Ordinary (irqMsixUserRollback x i) := by
  induction i with
  | zero => exact .pure ()
  | succ i ih => exact .bind (.call ⟨id, id⟩) fun _ => ih

theorem setupFrom_within (count i : Nat) : Act.Within Ordinary (irqMsixUserSetupFrom env x count i) := by
  induction count generalizing i with
  | zero => exact .pure _
  | succ count ih =>
    unfold irqMsixUserSetupFrom
    apply Act.Within.bind (.read _) fun _ => ?_
    apply Act.Within.bind (.call ⟨id, id⟩) fun rv => ?_
    split
    · exact .bind (rollback_within i) fun _ => .pure _
    · exact ih _

theorem progLegacyPin_within (val : Byte) : Act.Within Ordinary (progLegacyPin x val) :=
  .bind (.read _) fun _ => .bind (iowrite32_within _ _ _) fun _ => .bind (iowrite32_within _ _ _) fun _ =>
    .bind (iowrite32_within _ _ _) fun _ => .bind (iowrite32_within _ _ _) fun _ =>
      .bind (iowrite32_within _ _ _) fun _ => iowrite32_within _ _ _

theorem irqMsiSetup_within : Act.Within Ordinary (irqMsiSetup hw env x pdev) :=
  .bind (.read _) fun _ => .bind (.update _) fun _ => .bind (.read _) fun _ => .call ⟨id, id⟩

theorem irqLegacySetup_within : Act.Within Ordinary (irqLegacySetup hw env x pdev) := by
  unfold irqLegacySetup
  apply Act.Within.bind (.call ⟨id, id⟩) fun bytes => ?_
  dsimp only
  split
  · exact .pure _
  · apply Act.Within.bind
    · split
      · exact progLegacyPin_within _
      · exact .pure ()
    · exact fun _ => .bind (.read _) fun _ => .bind (.update _) fun _ => .bind (.read _) fun _ =>
        .call ⟨id, id⟩

theorem irqSetup_within : Act.Within Ordinary (irqSetup hw env x pdev) := by
  unfold irqSetup pciKeepIntxEnabled
  apply Act.Within.bind
  · apply Act.Within.bind (.call ⟨id, id⟩) fun bytes => ?_
    dsimp only
    split
    · exact .call ⟨id, id⟩
    · exact .pure ()
  · intro _
    apply Act.Within.bind (.read _) fun msix => ?_
    split
    · apply Act.Within.bind (.bind (.read _) fun _ => setupFrom_within _ _) fun rv => ?_
      split
      · exact .pure _
      · exact .bind (.bind (.read _) fun _ => progVectorsFrom_within _ _ _ _ _ _ _) fun _ =>
          .bind (.bind (.read _) fun _ => .bind (.read _) fun _ => progVectorsFrom_within _ _ _ _ _ _ _)
            fun _ => .pure _
    · apply Act.Within.bind (.read _) fun msi => ?_
      split
      · exact irqMsiSetup_within
      · exact irqLegacySetup_within

/-! The rest of the opening. -/

theorem pciCheckIntrPend_within : Act.Within Ordinary (pciCheckIntrPend hw pdev) := by
  unfold pciCheckIntrPend
  apply Act.Within.bind (.call ⟨id, id⟩) fun bytes => ?_
  dsimp only
  split
  · exact .call ⟨id, id⟩
  · exact .pure ()

theorem pciEnableCapability_within (cap : BitVec 16) :
    Act.Within Ordinary (pciEnableCapability hw pdev cap) := by
  unfold pciEnableCapability
  dsimp only
  split
  · exact .bind (.call ⟨id, id⟩) fun _ => .call ⟨id, id⟩
  · exact .pure ()

theorem requestRegions_within : Act.Within Ordinary (requestRegions hw env pdev) := by
  unfold requestRegions
  apply Act.Within.bind (.call ⟨id, id⟩) fun rv => ?_
  split
  · exact .pure _
  · exact .call ⟨id, id⟩

theorem setDmaMask_within : Act.Within Ordinary (setDmaMask env pdev) := by
  unfold setDmaMask
  apply Act.Within.bind (.call ⟨id, id⟩) fun rv => ?_
  split
  · exact .pure _
  · apply Act.Within.bind (.call ⟨id, id⟩) fun rv => ?_
    split
    · exact .pure _
    · exact .pure _

theorem mapBarsFrom_within (count i : Nat) (barIdList : List Nat) :
    Act.Within Ordinary (mapBarsFrom hw env x pdev count i barIdList) := by
  induction count generalizing i barIdList with
  | zero => exact .pure _
  | succ count ih =>
    unfold mapBarsFrom mapSingleBar
    apply Act.Within.bind
    · apply Act.Within.bind (.update _) fun _ => ?_
      split
      · exact .pure _
      · apply Act.Within.bind (.call ⟨id, id⟩) fun m => .bind (.update _) fun _ => ?_
        split
        · exact .pure _
        · exact .pure _
    · intro barLen
      split
      · exact ih _ _
      · split
        · exact .pure _
        · exact ih _ _

/-! The closing. No part of it changes whether the regions are in use. -/

def InUse (x : XdevPtr) (inUse : Bool) (s : DevState) : Prop := (s.xdev x).regionsInUse = inUse

theorem InUse.within {α : Type} {act : DevM α}
    (maintains : ∀ inUse, Act.Maintains (InUse x inUse) Ordinary act) : Act.Within Ordinary act :=
  .of_maintains maintains fun s => ⟨(s.xdev x).regionsInUse, rfl⟩

/-- A change of the structure that leaves regions_in_use alone. -/
theorem storeXdev_maintains {inUse : Bool} {change : XgpuDev → XgpuDev}
    (kept : ∀ X, (change X).regionsInUse = X.regionsInUse) :
    Act.Maintains (InUse x inUse) Ordinary (storeXdev x change) := by
  apply Act.Maintains.update
  intro s same
  change (Function.update s.xdev x (change (s.xdev x)) x).regionsInUse = inUse
  rw [Function.update_self, kept]
  exact same

/-- A call that does not touch the structures of the driver. -/
theorem call_maintains {α : Type} {inUse : Bool} {c : Call} {answer : DevState → α × DevState}
    (ordinary : Ordinary c) (same : ∀ s, (answer s).2.xdev = s.xdev) :
    Act.Maintains (InUse x inUse) Ordinary (Act.call c answer) := by
  apply Act.Maintains.call ordinary
  intro s holds
  rw [InUse, same s]
  exact holds

theorem iowrite32_maintains {inUse : Bool} (value : BitVec 32) (base : Option Mapping) (offset : Nat) :
    Act.Maintains (InUse x inUse) Ordinary (iowrite32 value base offset) := by
  cases base with
  | none =>
    apply Act.Maintains.bind (.bind (call_maintains ⟨id, id⟩ fun _ => rfl) fun _ => .bind (.read _) fun
      | none => .fault
      | some _ => .pure _)
    exact fun _ => .pure _
  | some m => exact call_maintains ⟨id, id⟩ fun _ => rfl

theorem progVectorsFrom_maintains {inUse : Bool} (base : Option Mapping) (vector max : Nat)
    (clear : Bool) (passes i j : Nat) : Act.Maintains (InUse x inUse) Ordinary
      (progVectorsFrom base vector max clear passes i j) := by
  induction passes generalizing i j with
  | zero => exact .pure ()
  | succ passes ih =>
    unfold progVectorsFrom
    split
    · exact .bind (iowrite32_maintains _ _ _) fun _ => ih _ _
    · exact .pure ()

theorem teardownFrom_maintains {inUse : Bool} (count i : Nat) :
    Act.Maintains (InUse x inUse) Ordinary (irqMsixUserTeardownFrom x count i) := by
  induction count generalizing i with
  | zero => exact .pure ()
  | succ count ih => exact .bind (call_maintains ⟨id, id⟩ fun _ => rfl) fun _ => ih _

theorem irqTeardown_maintains {inUse : Bool} :
    Act.Maintains (InUse x inUse) Ordinary (irqTeardown x) := by
  unfold irqTeardown irqMsixUserTeardown
  apply Act.Maintains.bind (.read _) fun msix => ?_
  split
  · apply Act.Maintains.bind (.read _) fun msix => ?_
    split
    · apply Act.Maintains.bind
      · exact .bind (.read _) fun _ => .bind (.read _) fun _ => progVectorsFrom_maintains _ _ _ _ _ _ _
      · exact fun _ => .bind (.read _) fun _ => teardownFrom_maintains _ _
    · exact .pure ()
  · apply Act.Maintains.bind (.read _) fun line => ?_
    cases line with
    | none => exact .pure ()
    | some irq => exact call_maintains ⟨id, id⟩ fun _ => rfl

theorem pciDisableMsi_xdev (s : DevState) :
    (if s.held.msi = .msi then s.withHeld { s.held with msi := .off } else s).xdev = s.xdev := by
  split <;> rfl

theorem disableMsiMsix_maintains {inUse : Bool} :
    Act.Maintains (InUse x inUse) Ordinary (disableMsiMsix hw x pdev) := by
  unfold disableMsiMsix
  apply Act.Maintains.bind (.read _) fun msix => ?_
  split
  · apply Act.Maintains.bind
    · apply call_maintains ⟨id, id⟩
      intro s
      dsimp only
      split <;> rfl
    · exact fun _ => storeXdev_maintains fun _ => rfl
  · apply Act.Maintains.bind (.read _) fun msi => ?_
    split
    · exact .bind (call_maintains ⟨id, id⟩ pciDisableMsi_xdev) fun _ => storeXdev_maintains fun _ => rfl
    · exact .pure ()

theorem unmapBarsFrom_maintains {inUse : Bool} (count i : Nat) :
    Act.Maintains (InUse x inUse) Ordinary (unmapBarsFrom x pdev count i) := by
  induction count generalizing i with
  | zero => exact .pure ()
  | succ count ih =>
    unfold unmapBarsFrom
    apply Act.Maintains.bind (.read _) fun m => ?_
    cases m with
    | none => exact .bind (.pure ()) fun _ => ih _
    | some m =>
      apply Act.Maintains.bind (call_maintains ⟨id, id⟩ fun _ => rfl) fun _ => ?_
      exact .bind (storeXdev_maintains fun _ => rfl) fun _ => ih _

theorem irqTeardown_within : Act.Within Ordinary (irqTeardown x) :=
  InUse.within fun _ => irqTeardown_maintains

theorem disableMsiMsix_within : Act.Within Ordinary (disableMsiMsix hw x pdev) :=
  InUse.within fun _ => disableMsiMsix_maintains

theorem unmapBars_within : Act.Within Ordinary (unmapBars x pdev) :=
  InUse.within (x := x) fun _ => unmapBarsFrom_maintains _ _

theorem closePdev_within : Act.Within KeepsNumbers (closePdev hw x pdev) := by
  unfold closePdev
  apply Act.Within.bind (irqTeardown_within.mono fun _ => Ordinary.keepsNumbers) fun _ =>
    .bind (disableMsiMsix_within.mono fun _ => Ordinary.keepsNumbers) fun _ =>
      .bind (unmapBars_within.mono fun _ => Ordinary.keepsNumbers) fun _ => .bind (.read _) fun got => ?_
  apply Act.Within.bind
  · split
    · exact .call id
    · exact .pure ()
  · intro _
    apply Act.Within.bind (.read _) fun inUse => ?_
    split
    · exact .pure ()
    · exact .call id

theorem xgpuDeviceClose_within (hndl : Option XdevPtr) :
    Act.Within KeepsNumbers (xgpuDeviceClose hw pdev hndl) := by
  unfold xgpuDeviceClose debugCheckDevHndl
  cases hndl with
  | none => exact .pure ()
  | some xdev =>
    apply Act.Within.bind
    · apply Act.Within.bind (.read _) fun found => ?_
      cases found with
      | none => exact .pure _
      | some other =>
        dsimp only
        split
        · exact .pure _
        · exact .pure _
    · intro rv
      split
      · exact .pure ()
      · exact .bind (within_onDev pdev closePdev_within) fun _ => .bind (.update _) fun _ =>
          within_onDev pdev (.call id)

theorem identifyBars_within (barIdList : List Nat) (numBars configBarPos : Nat) :
    Act.Within Ordinary (identifyBars x barIdList numBars configBarPos) := by
  unfold identifyBars
  dsimp only
  split
  · split
    · exact .bind (.update _) fun _ => .pure _
    · split
      · exact .bind (.update _) fun _ => .pure _
      · exact .pure _
  · split
    · exact .bind (.update _) fun _ => .pure _
    · exact .pure _
  · split
    · exact .bind (.update _) fun _ => .pure _
    · exact .pure _
  · exact .pure _

theorem mapBars_within : Act.Within Ordinary (mapBars hw env x pdev) := by
  unfold mapBars
  apply Act.Within.bind (mapBarsFrom_within _ _ _) fun found => ?_
  cases found with
  | none => exact .bind unmapBars_within fun _ => .pure _
  | some barIdList =>
    apply Act.Within.bind (.update _) fun _ => .bind (.read _) fun idx => ?_
    split
    · exact .bind unmapBars_within fun _ => .pure _
    · apply Act.Within.bind (identifyBars_within _ _ _) fun rv => ?_
      split
      · exact .pure _
      · exact .pure _

/-! The nodes. -/

theorem onDev_call_within {α : Type} {may : Call → Prop} {c : Call} {answer : DevState → α × DevState}
    (allowed : may c) : Act.Within may (onDev pdev (Act.call c answer)) :=
  within_onDev pdev (.call allowed)

theorem onDev_update_within {may : Call → Prop} {change : DevState → DevState} :
    Act.Within may (onDev pdev (Act.update change)) := within_onDev pdev (.update change)

theorem fillSnapshot_within (count ii : Nat) : Act.Within Steady (fillSnapshot pdev count ii) := by
  induction count generalizing ii with
  | zero => exact .pure ()
  | succ count ih =>
    exact .bind (.bind (onDev_call_within id) fun _ => .pure _) fun _ => .bind (.update _) fun _ => ih _

theorem cdevInit_within (m : MemberPtr) (ops : FileOps) : Act.Within Steady (cdevInit m ops) :=
  .bind (.update _) fun _ => onDev_update_within

theorem initXcdev_within (m : MemberPtr) (devId : Nat) :
    Act.Within Steady (initXcdev hw t env m x devId) := by
  unfold initXcdev
  split
  · exact .bind (cdevInit_within m _) fun _ => fillSnapshot_within _ _
  · split
    · exact .bind (cdevInit_within m _) fun _ => .bind (onDev_call_within id) fun _ => .update _
    · split
      · exact cdevInit_within m _
      · exact .pure ()

theorem allocMajor_within (devId : Nat) : Act.Within Steady (allocMajor env pdev devId) := by
  unfold allocMajor
  apply Act.Within.bind (.read _) fun major => ?_
  split
  · exact .pure _
  · apply Act.Within.bind (onDev_call_within id) fun given => ?_
    dsimp only
    split
    · exact .pure _
    · exact .bind onDev_update_within fun _ => .pure _

theorem configKobject_within (m : MemberPtr) (devId : Nat) :
    Act.Within Steady (configKobject t env m x devId) := by
  unfold configKobject
  split
  · exact .pure _
  · exact .bind (.read _) fun _ => .call id

theorem createSysDevice_within (m : MemberPtr) (devId : Nat) :
    Act.Within Steady (createSysDevice t env m x devId) := by
  unfold createSysDevice
  split
  · exact .pure _
  · apply Act.Within.bind (.read _) fun _ => .bind (.read _) fun _ =>
      .bind (onDev_call_within id) fun sysDevice => .bind onDev_update_within fun _ => ?_
    split
    · exact .pure _
    · exact .pure _

theorem addXcdev_within (m : MemberPtr) (devId : Nat) (cdevno : BitVec 32) :
    Act.Within Steady (addXcdev t env pdev x m devId cdevno) := by
  unfold addXcdev
  apply Act.Within.bind (onDev_call_within id) fun rv => ?_
  split
  · exact .bind (onDev_call_within id) fun _ => .pure _
  · apply Act.Within.bind (.read _) fun sysClass => ?_
    split
    · apply Act.Within.bind (createSysDevice_within m devId) fun rv => ?_
      split
      · exact .bind (onDev_call_within id) fun _ => .bind (onDev_call_within id) fun _ => .pure _
      · exact .pure _
    · exact .pure _

theorem createXcdev_within (m : MemberPtr) (bar : Int) (devId : Nat) :
    Act.Within Steady (createXcdev hw t env pdev x m bar devId) := by
  unfold createXcdev
  apply Act.Within.bind (allocMajor_within devId) fun rv => ?_
  split
  · exact .pure _
  · apply Act.Within.bind onDev_update_within fun _ => .bind (configKobject_within m devId) fun rv => ?_
    split
    · exact .pure _
    · exact .bind (initXcdev_within m devId) fun _ => .bind (.read _) fun _ =>
        .bind onDev_update_within fun _ => addXcdev_within m devId _

theorem registerExit_within (m : MemberPtr) : Act.Within Steady (cdevRegisterExit m) := by
  unfold cdevRegisterExit
  apply Act.Within.bind (.read _) fun base => ?_
  cases base with
  | none => exact .pure ()
  | some base =>
    apply Act.Within.bind (.read _) fun xdev => ?_
    cases xdev with
    | none => exact .fault
    | some xdev => exact .bind (onDev_call_within id) fun _ => .update _

theorem destroyXcdev_within (m : MemberPtr) : Act.Within Steady (destroyXcdev m) := by
  unfold destroyXcdev
  apply Act.Within.bind (.read _) fun cdev => ?_
  split
  · exact .pure _
  · apply Act.Within.bind (.read _) fun sysClass => ?_
    split
    · exact .pure _
    · split
      · exact .pure _
      · exact .bind (onDev_call_within id) fun _ => .bind (onDev_call_within id) fun _ => .pure _

theorem destroyMembers_within (type : Nat) (ms : List MemberPtr) :
    Act.Within Steady (destroyMembers t walk pdev type ms) := by
  induction ms with
  | nil => exact .pure ()
  | cons m rest ih =>
    unfold destroyMembers
    apply Act.Within.bind (.read _) fun cdevno => ?_
    apply Act.Within.bind
    · split
      · exact registerExit_within m
      · exact .pure ()
    · intro _
      apply Act.Within.bind (destroyXcdev_within m) fun rv => ?_
      split
      · exact .pure ()
      · apply Act.Within.bind onDev_update_within fun _ => .bind (onDev_call_within id) fun _ => ?_
        split
        · exact .fault
        · exact ih

theorem fileDestroyInterfaces_within (type : Nat) :
    Act.Within Steady (fileDestroyInterfaces t walk pdev type) :=
  .bind (.read _) fun _ => destroyMembers_within _ _

theorem xpdevDestroyInterfaces_within : Act.Within Steady (xpdevDestroyInterfaces t walk pdev) := by
  unfold xpdevDestroyInterfaces
  apply Act.Within.bind (fileDestroyInterfaces_within 2) fun _ =>
    .bind (fileDestroyInterfaces_within 1) fun _ => .bind (fileDestroyInterfaces_within 0) fun _ =>
      .bind (.read _) fun major => ?_
  split
  · exact onDev_call_within id
  · exact .pure ()

theorem createMembers_within (type : Nat) (items : List Node) (ii : Nat) :
    Act.Within Steady (createMembers hw t walk env pdev x type items ii) := by
  induction items generalizing ii with
  | nil => exact .pure _
  | cons item rest ih =>
    unfold createMembers
    apply Act.Within.bind (onDev_call_within id) fun m => ?_
    cases m with
    | none => exact .bind (fileDestroyInterfaces_within type) fun _ => .pure _
    | some m =>
      apply Act.Within.bind (within_onDev pdev (.read _)) fun _ => .bind (createXcdev_within m _ _) fun rv => ?_
      split
      · exact .bind (fileDestroyInterfaces_within type) fun _ => .pure _
      · exact .bind onDev_update_within fun _ => ih _

theorem fileCreateInterface_within (items : List Node) (type : Nat) :
    Act.Within Steady (fileCreateInterface hw t walk env pdev items type) := by
  unfold fileCreateInterface
  apply Act.Within.bind (.read _) fun xdev => ?_
  cases xdev with
  | none => exact .pure _
  | some xdev => exact createMembers_within _ _ _

theorem xpdevCreateInterfaces_within :
    Act.Within Steady (xpdevCreateInterfaces hw t walk env pdev) := by
  unfold xpdevCreateInterfaces
  apply Act.Within.bind (fileCreateInterface_within _ _) fun ret => ?_
  split
  · exact .bind xpdevDestroyInterfaces_within fun _ => .pure _
  · apply Act.Within.bind (fileCreateInterface_within _ _) fun ret => ?_
    split
    · exact .bind xpdevDestroyInterfaces_within fun _ => .pure _
    · apply Act.Within.bind (fileCreateInterface_within _ _) fun ret => ?_
      split
      · exact .bind xpdevDestroyInterfaces_within fun _ => .pure _
      · exact .pure _

theorem freeMsi_within : Act.Within Ordinary (freeMsi hw pdev x) :=
  .bind (within_onDev pdev (.read _)) fun _ => .bind (onDev_call_within ⟨id, id⟩) fun _ =>
    onDev_call_within ⟨id, id⟩

end

end PcieUtil.Driver.Callees
