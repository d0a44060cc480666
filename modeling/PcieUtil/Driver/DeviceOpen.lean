import PcieUtil.Driver.Bars
import PcieUtil.Driver.Modes

/-! xgpu_device_open and xgpu_device_close of libxgpu.c. The part of each that
works on one device only is a function of its own; the labels of the unwinding
code are functions that run into one another as the labels do. -/

namespace PcieUtil.Driver.DeviceOpen
open Lib.Action Lib.Bytes State Kernel Discipline Bars Irq Modes

def PCI_STATUS : Nat := 6
def PCI_STATUS_INTERRUPT : BitVec 16 := 0x8
def PCI_EXP_DEVCTL : Nat := 8
def PCI_EXP_DEVCTL_RELAX_EN : BitVec 16 := 0x10
def PCI_EXP_DEVCTL_EXT_TAG : BitVec 16 := 0x100
def XDEV_FLAG_OFFLINE : BitVec 32 := 1

/-! The list of devices. The idx field is an int. -/

def xdevListAdd (xdev : XdevPtr) : M Int := do
  Act.update fun w =>
    let idx := match w.xdevList.getLast? with
      | none => 0
      | some last => Int.bmod (w.idx last + 1) (2 ^ 32)
    { w with idx := Function.update w.idx xdev idx, xdevList := w.xdevList ++ [xdev] }
  return 0

def xdevListRemove (xdev : XdevPtr) : M Unit :=
  Act.update fun w => { w with xdevList := w.xdevList.erase xdev }

def xdevFindByPdev (pdev : Dev) : M (Option XdevPtr) :=
  Act.read fun w => w.xdevList.find? fun xdev => xdev.pdev = pdev

def debugCheckDevHndl (pdev : Dev) (hndl : XdevPtr) : M Int := do
  match ← xdevFindByPdev pdev with
  | none => return -EINVAL
  | some xdev => if xdev ≠ hndl then return -EINVAL else return 0

section
variable (hw : Dev → PciDev) (env : Env) (xdev : XdevPtr) (pdev : Dev)

def allocDevInstance : DevM (Option XdevPtr) := do
  match ← kzallocXdev env pdev with
  | none => return none
  | some xdev =>
      storeXdev xdev fun x => { x with configBarIdx := -1, userBarIdx := -1, bypassBarIdx := -1 }
      return some xdev

def xgpuDeviceFlagSet (f : BitVec 32) : DevM Unit :=
  storeXdev xdev fun x => { x with flags := x.flags ||| f }

def xgpuDeviceFlagClear (f : BitVec 32) : DevM Unit :=
  storeXdev xdev fun x => { x with flags := x.flags &&& ~~~f }

def pciCheckIntrPend : DevM Unit := do
  let v : BitVec 16 := BitVec.ofNat 16 (ofLE (← pciReadConfig pdev PCI_STATUS 2))
  if v &&& PCI_STATUS_INTERRUPT ≠ 0 then
    pciWriteConfig hw pdev PCI_STATUS (toLE 2 PCI_STATUS_INTERRUPT.toNat)
  else pure ()

def pciEnableCapability (cap : BitVec 16) : DevM Unit := do
  let pos := (hw pdev).pcieCap
  if 0 < pos then
    let vcap : BitVec 16 := BitVec.ofNat 16 (ofLE (← pciReadConfig pdev (pos + PCI_EXP_DEVCTL) 2))
    pciWriteConfig hw pdev (pos + PCI_EXP_DEVCTL) (toLE 2 (vcap ||| cap).toNat)
  else pure ()

def requestRegions : DevM Int := do
  -- region 0 is in efifb. it cannot request_region.
  let rv ← pciRequestRegion hw env pdev 2 "region2 memory"
  if rv ≠ 0 then return rv
  else pciRequestRegion hw env pdev 5 "region5 memory"

def setDmaMask : DevM Int := do
  if (← dmaSetMaskAndCoherent env pdev 64) = 0 then return 0
  else if (← dmaSetMaskAndCoherent env pdev 32) = 0 then return 0
  else return -EINVAL

/-! The labels err_regions, err_map, err_mask and err_msix. -/

def errRegions : DevM Unit := do
  if ← loadXdev xdev XgpuDev.regionsInUse then pure () else pciDisableDevice hw pdev

def errMap : DevM Unit := do
  (if ← loadXdev xdev XgpuDev.gotRegions then pciReleaseRegions pdev else pure ())
  errRegions hw xdev pdev

def errMask : DevM Unit := do
  unmapBars xdev pdev
  errMap hw xdev pdev

def errMsix : DevM Unit := do
  disableMsiMsix hw xdev pdev
  errMask hw xdev pdev

/-- The interrupt part of xgpu_device_open, from the registers on. -/
def openInterrupts : DevM Bool := do
  -- explicitely zero all interrupt enable masks
  channelInterruptsDisable xdev (~~~0)
  userInterruptsDisable xdev (~~~0)
  let _ ← readInterrupts xdev
  let rv ← enableMsiMsix hw env xdev pdev
  if rv < 0 then
    errMsix hw xdev pdev
    return false
  else
    let rv ← irqSetup hw env xdev pdev
    if rv < 0 then
      errMsix hw xdev pdev
      return false
    else
      -- Flush writes
      let _ ← readInterrupts xdev
      return true

/-- xgpu_device_open from pci_enable_device on; false after the unwinding down to
the label err_enable. -/
def openPdev : DevM Bool := do
  let rv ← pciEnableDevice hw env pdev
  if rv ≠ 0 then return false
  else
    -- keep INTx enabled
    pciCheckIntrPend hw pdev
    -- enable relaxed ordering
    pciEnableCapability hw pdev PCI_EXP_DEVCTL_RELAX_EN
    -- enable extended tag
    pciEnableCapability hw pdev PCI_EXP_DEVCTL_EXT_TAG
    -- force MRRS to be 512
    let _ ← pcieSetReadrq hw env pdev 512
    -- enable bus master capability
    pciSetMaster hw pdev
    let rv ← requestRegions hw env pdev
    if rv ≠ 0 then
      errRegions hw xdev pdev
      return false
    else
      let rv ← mapBars hw env xdev pdev
      if rv ≠ 0 then
        errMap hw xdev pdev
        return false
      else
        let rv ← setDmaMask env pdev
        if rv ≠ 0 then
          errMask hw xdev pdev
          return false
        else openInterrupts hw env xdev pdev

/-- xgpu_device_close from irq_teardown to pci_disable_device. -/
def closePdev : DevM Unit := do
  irqTeardown xdev
  disableMsiMsix hw xdev pdev
  unmapBars xdev pdev
  (if ← loadXdev xdev XgpuDev.gotRegions then pciReleaseRegions pdev else pure ())
  if ← loadXdev xdev XgpuDev.regionsInUse then pure () else pciDisableDevice hw pdev

/-- The handle and what is left in the user_max argument. -/
def xgpuDeviceOpen (mname : String) (userMax : Nat) : M (Option XdevPtr × Nat) := do
  match ← onDev pdev (allocDevInstance env pdev) with
  | none => return (none, userMax)
  | some xdev =>
      onDev pdev (storeXdev xdev fun x => { x with modName := mname, userMax := userMax })
      onDev pdev (xgpuDeviceFlagSet xdev XDEV_FLAG_OFFLINE)
      let rv ← xdevListAdd xdev
      if rv < 0 then
        onDev pdev (kfree (.xdev xdev))
        return (none, userMax)
      else if ← onDev pdev (openPdev hw env xdev pdev) then
        let userMax ← onDev pdev (loadXdev xdev XgpuDev.userMax)
        onDev pdev (xgpuDeviceFlagClear xdev XDEV_FLAG_OFFLINE)
        return (some xdev, userMax)
      else
        xdevListRemove xdev
        onDev pdev (kfree (.xdev xdev))
        return (none, userMax)

def xgpuDeviceClose (devHndl : Option XdevPtr) : M Unit := do
  match devHndl with
  | none => return
  | some xdev =>
      if (← debugCheckDevHndl pdev xdev) < 0 then return
      else
        onDev pdev (closePdev hw xdev pdev)
        xdevListRemove xdev
        onDev pdev (kfree (.xdev xdev))

end

end PcieUtil.Driver.DeviceOpen
