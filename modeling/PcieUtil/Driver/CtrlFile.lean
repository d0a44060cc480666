import PcieUtil.Driver.ConfigFile
import PcieUtil.Driver.DeviceOpen

/-! The device files of cdev_ctrl.c, which access a BAR at the file position. -/

namespace PcieUtil.Driver.CtrlFile
open Lib.Action Lib.Bytes State Kernel ConfigFile DeviceOpen

def XDMA_IOC_MAGIC : BitVec 32 := 0x78
def XDMA_IOCINFO : BitVec 32 := 0xC0287801
def XDMA_IOCOFFLINE : BitVec 32 := 0x7802
def XDMA_IOCONLINE : BitVec 32 := 0x7803
def DRV_MOD_VERSION_NUMBER : BitVec 32 := 2024 * 1000 + 11 * 100 + 10

/-- `xdev->bar[xcdev->bar]` -/
def ctrlBase (xdev : XdevPtr) (bar : Int) : M (Option Mapping) :=
  Act.read fun w => ((w.dev xdev.pdev).xdev xdev).bar bar

def charCtrlRead (xcdev : XgpuCdev) (user : UserBuf) (pos : Nat) : M Ret := do
  match xcdev.xdev with
  | none => return (-EINVAL, pos)
  | some xdev =>
      -- only 32-bit aligned and 32-bit multiples
      if pos % 4 ≠ 0 then return (-EPROTO, pos)
      else
        let base ← ctrlBase xdev xcdev.bar
        let val ← ioread32At base pos
        let _ ← copyToUser user (toLE 4 val.toNat)
        return (4, pos + 4)

def charCtrlWrite (xcdev : XgpuCdev) (user : UserBuf) (pos : Nat) : M Ret := do
  match xcdev.xdev with
  | none => return (-EINVAL, pos)
  | some xdev =>
      -- only 32-bit aligned and 32-bit multiples
      if pos % 4 ≠ 0 then return (-EPROTO, pos)
      else
        let base ← ctrlBase xdev xcdev.bar
        let (bytes, _) ← copyFromUser user 0 4
        iowrite32At (BitVec.ofNat 32 (ofLE bytes)) base pos
        return (4, pos + 4)

/-- `struct xgpu_ioc_info` -/
structure XgpuIocInfo where
  vendor : BitVec 16
  device : BitVec 16
  subsystemVendor : BitVec 16
  subsystemDevice : BitVec 16
  driverVersion : BitVec 32
  domain : BitVec 16
  bus : BitVec 8
  dev : BitVec 8
  func : BitVec 8

/-- The fields of the structure in user memory; the fields not listed are zero. -/
def XgpuIocInfo.toBytes (obj : XgpuIocInfo) : List Byte :=
  List.replicate 8 0 ++ toLE 2 obj.vendor.toNat ++ toLE 2 obj.device.toNat ++
    toLE 2 obj.subsystemVendor.toNat ++ toLE 2 obj.subsystemDevice.toNat ++ List.replicate 4 0 ++
    toLE 4 obj.driverVersion.toNat ++ List.replicate 8 0 ++ toLE 2 obj.domain.toNat ++
    toLE 1 obj.bus.toNat ++ toLE 1 obj.dev.toNat ++ toLE 1 obj.func.toNat ++ List.replicate 3 0

section
variable (hw : Dev → PciDev)

/-- The object of version_ioctl: PCI_BUS_NUM, PCI_SLOT and PCI_FUNC all of devfn. -/
def versionInfo (pdev : Dev) : XgpuIocInfo where
  vendor := (hw pdev).vendor
  device := (hw pdev).device
  subsystemVendor := (hw pdev).subsystemVendor
  subsystemDevice := (hw pdev).subsystemDevice
  driverVersion := DRV_MOD_VERSION_NUMBER
  domain := 0
  bus := ((hw pdev).devfn >>> 8).setWidth 8
  dev := ((hw pdev).devfn >>> 3).setWidth 8 &&& 0x1f
  func := (hw pdev).devfn.setWidth 8 &&& 0x07

def versionIoctl (xdev : XdevPtr) (arg : UserBuf) : M Int := do
  let (_, missed) ← copyFromUser arg 0 40
  if missed ≠ 0 then return -EFAULT
  else
    let ret ← copyToUser arg (versionInfo hw xdev.pdev).toBytes
    if ret ≠ 0 then return -EFAULT else return 0

def xgpuDeviceOffline (pdev : Dev) (xdev : XdevPtr) : M Unit := do
  if (← debugCheckDevHndl pdev xdev) < 0 then return
  else onDev pdev (xgpuDeviceFlagSet xdev XDEV_FLAG_OFFLINE)

def xgpuDeviceOnline (pdev : Dev) (xdev : XdevPtr) : M Unit := do
  if (← debugCheckDevHndl pdev xdev) < 0 then return
  else onDev pdev (xgpuDeviceFlagClear xdev XDEV_FLAG_OFFLINE)

/-- accessOk is what access_ok says of the argument and the size in the command. -/
def charCtrlIoctl (xcdev : XgpuCdev) (cmd : BitVec 32) (arg : UserBuf) (accessOk : Bool) : M Int := do
  match xcdev.xdev with
  | none => return -EINVAL
  | some xdev =>
      if cmd >>> 8 &&& 0xff ≠ XDMA_IOC_MAGIC then return -ENOTTY
      else if cmd >>> 30 ≠ 0 ∧ ¬ accessOk then return -EFAULT
      else if cmd = XDMA_IOCINFO then
        let (_, missed) ← copyFromUser arg 0 8
        if missed ≠ 0 then return -EFAULT else versionIoctl hw xdev arg
      else if cmd = XDMA_IOCOFFLINE then
        xgpuDeviceOffline xdev.pdev xdev
        return 0
      else if cmd = XDMA_IOCONLINE then
        xgpuDeviceOnline xdev.pdev xdev
        return 0
      else return -ENOTTY

/-- `struct vm_area_struct` -/
structure Vma where
  vmStart : BitVec 64
  vmEnd : BitVec 64
  vmPgoff : BitVec 64

def PAGE_SHIFT : Nat := 12

/-- remapOk says whether io_remap_pfn_range succeeds. -/
def bridgeMmap (xcdev : XgpuCdev) (vma : Vma) (remapOk : Bool) : M Int := do
  match xcdev.xdev with
  | none => return -EINVAL
  | some xdev =>
      let pdev := hw xdev.pdev
      let bar := xcdev.bar.toNat
      let off := vma.vmPgoff <<< PAGE_SHIFT
      -- BAR physical address
      let phys := pdev.resourceStart bar + off
      let vsize := vma.vmEnd - vma.vmStart
      -- complete resource
      let psize := pdev.resourceEnd bar - pdev.resourceStart bar + 1 - off
      if psize < vsize then return -EINVAL
      else
        Act.call (.ioRemapPfnRange vma.vmStart (phys >>> PAGE_SHIFT) vsize) fun w => ((), w)
        if remapOk then return 0 else return -EAGAIN

end

end PcieUtil.Driver.CtrlFile
