import PcieUtil.Driver.Interfaces

/-! probe_one and remove_one of xgpu_mod.c. -/

namespace PcieUtil.Driver.Probe
open Lib.Action State Kernel DeviceOpen Interfaces

section
variable (hw : Dev → PciDev) (t : Tables) (walk : Walk) (env : Env) (pdev : Dev)

/-- The structure is cleared, and its lists are made empty. -/
def xpdevAlloc : DevM Bool := do
  if ← kmallocXpdev env then
    storeXpdev fun _ => {}
    return true
  else return false

def xpdevFree : M Unit := do
  let xdev ← Act.read fun w => (w.dev pdev).xpdev.xdev
  xpdevDestroyInterfaces t walk pdev
  onDev pdev (storeXpdev fun p => { p with xdev := none })
  xgpuDeviceClose hw pdev xdev
  onDev pdev (kfree (.xpdev pdev))

/-- The label err_out. -/
def errOut (rv : Int) : M Int := do
  xpdevFree hw t walk pdev
  return rv

/-- free_irq and pci_disable_msi, behind the label err_irq and in remove_one. -/
def freeMsi (xdev : XdevPtr) : M Unit := do
  let irq ← onDev pdev (pdevIrq hw pdev)
  onDev pdev (freeIrq irq (.xdev xdev))
  onDev pdev (pciDisableMsi hw pdev)

/-- The part of probe_one from pci_enable_msi on. -/
def probeXdev (xdev : XdevPtr) : M Int := do
  let rv ← onDev pdev (pciEnableMsi hw env .probeEnableMsi pdev)
  if rv ≠ 0 then errOut hw t walk pdev rv
  else
    let irq ← onDev pdev (pdevIrq hw pdev)
    let rv ← onDev pdev
      (requestIrq env .probeRequestIrq irq .xgpuMsiInterrupt false "xgpu_msi" (.xdev xdev))
    if rv ≠ 0 then
      onDev pdev (pciDisableMsi hw pdev)
      errOut hw t walk pdev rv
    else
      let rv ← xpdevCreateInterfaces hw t walk env pdev
      if rv ≠ 0 then
        freeMsi hw pdev xdev
        errOut hw t walk pdev rv
      else
        onDev pdev (Act.update fun s => { s with drvdata := true })
        return 0

def probeOne : M Int := do
  if ← onDev pdev (xpdevAlloc env) then
    let userMax ← Act.read fun w => (w.dev pdev).xpdev.userMax
    let (hndl, userMax) ← xgpuDeviceOpen hw env pdev "xgpu" userMax
    onDev pdev (storeXpdev fun p => { p with userMax := userMax })
    match hndl with
    | none => errOut hw t walk pdev (-EINVAL)
    | some hndl =>
        -- make sure no duplicate
        match ← xdevFindByPdev pdev with
        | none => errOut hw t walk pdev (-EINVAL)
        | some xdev =>
            if hndl ≠ xdev then errOut hw t walk pdev (-EINVAL)
            else
              onDev pdev (storeXpdev fun p => { p with xdev := some hndl })
              probeXdev hw t walk env pdev hndl
  else return -ENOMEM

/-- The xgpu_dev in the structure is set while the device is bound. -/
def removeOne : M Unit := do
  if ← Act.read fun w => (w.dev pdev).drvdata then
    match ← Act.read fun w => (w.dev pdev).xpdev.xdev with
    | none => Act.fault
    | some xdev =>
        freeMsi hw pdev xdev
        xpdevFree hw t walk pdev
  else return

end

end PcieUtil.Driver.Probe
