import PcieUtil.Lib.Action
import PcieUtil.Lib.Bytes

/-! The data of the driver: the structures of xgpu_mod.h and libxgpu.h, the node
tables, what the kernel holds on the driver's behalf for one PCI device, and the
kernel interface the driver calls. -/

namespace PcieUtil.Driver.State
open Lib.Action Lib.Bytes

/-- A `struct pci_dev *`. -/
abbrev Dev := Nat

/-- A `struct xgpu_dev *`. Its pdev field is set once, when the structure is
allocated, so the pointer carries it. -/
structure XdevPtr where
  pdev : Dev
  serial : Nat
  deriving DecidableEq, Repr

/-- A `struct xcdev_member *`, on a list of the `struct xgpu_pci_dev` of pdev. -/
structure MemberPtr where
  pdev : Dev
  serial : Nat
  deriving DecidableEq, Repr

/-- A mapping that pci_iomap returned. Addresses are never reused, so the serial
number tells two mappings of one BAR apart. -/
structure Mapping where
  pdev : Dev
  bar : Nat
  serial : Nat
  len : Nat
  deriving DecidableEq, Repr

/-- Interrupt lines. The kernel hands out vector numbers that no other device
and no INTx line uses. -/
inductive Irq where
  | line (n : Nat)
  | msi (pdev : Dev)
  | msix (pdev : Dev) (entry : Nat)
  deriving DecidableEq, Repr

/-- The device whose vector a line is. -/
def Irq.vectorOf : Irq → Option Dev
  | .line _ => none
  | .msi pdev | .msix pdev _ => some pdev

inductive DevId where
  | xdev (xdev : XdevPtr)
  | userIrq (xdev : XdevPtr) (i : Nat)
  deriving DecidableEq, Repr

/-- The xgpu_dev a dev_id points into. -/
def DevId.target : DevId → XdevPtr
  | .xdev x => x
  | .userIrq x _ => x

inductive IrqHandler where
  | xgpuIsr
  | xgpuUserIrq
  | xgpuMsiInterrupt
  deriving DecidableEq, Repr

structure IrqAction where
  irq : Irq
  handler : IrqHandler
  devId : DevId
  deriving DecidableEq, Repr

inductive MsiState where
  | off
  | msi
  | msix (nvec : Nat)
  deriving DecidableEq, Repr

/-- Allocations handed to kfree. `memberEntry` is the address of the list entry
inside a member, which is not where the allocation starts. -/
inductive Ptr where
  | xdev (xdev : XdevPtr)
  | xpdev (pdev : Dev)
  | member (member : MemberPtr)
  | memberEntry (member : MemberPtr)
  deriving DecidableEq, Repr

/-- The kernel interface. -/
inductive Call where
  | kzalloc
  | kmalloc
  | kfree (ptr : Ptr)
  | pciEnableDevice (pdev : Dev)
  | pciDisableDevice (pdev : Dev)
  | pciEnableDeviceMem (pdev : Dev)
  | pciRestoreState (pdev : Dev)
  | pciSaveState (pdev : Dev)
  | pcieSetReadrq (pdev : Dev) (rq : Nat)
  | pciSetMaster (pdev : Dev)
  | pciRequestRegion (pdev : Dev) (bar : Nat) (name : String)
  | pciReleaseRegions (pdev : Dev)
  | pciIomap (pdev : Dev) (bar maxlen : Nat) (ok : Bool)
  | pciIounmap (pdev : Dev) (mapping : Mapping)
  | dmaSetMaskAndCoherent (pdev : Dev) (bits : Nat)
  | pciAllocIrqVectors (pdev : Dev) (min max : Nat)
  | pciEnableMsi (pdev : Dev)
  | pciDisableMsi (pdev : Dev)
  | pciDisableMsix (pdev : Dev)
  | requestIrq (irq : Irq) (handler : IrqHandler) (shared : Bool) (name : String) (devId : DevId)
  | freeIrq (irq : Irq) (devId : DevId)
  | pciReadConfig (pdev : Dev) (offset width : Nat)
  | pciWriteConfig (pdev : Dev) (offset : Nat) (bytes : List Byte)
  | ioread32 (base : Option Mapping) (offset : Nat)
  | iowrite32 (base : Option Mapping) (offset : Nat) (value : BitVec 32)
  | copyToUser (bytes : List Byte) (copied : Nat)
  | copyFromUser (count copied : Nat)
  | allocChrdevRegion (baseminor count : Nat) (name : String)
  | unregisterChrdevRegion (cdevno : BitVec 32) (count : Nat)
  | kobjectSetName (name : String)
  | cdevAdd (cdevno : BitVec 32) (count : Nat)
  | cdevDel (member : MemberPtr)
  | deviceCreate (cdevno : BitVec 32) (name : String)
  | deviceDestroy (cdevno : BitVec 32)
  | ioRemapPfnRange (vmStart pfn size : BitVec 64)
  deriving DecidableEq, Repr

/-- A PCI function: its resources and capabilities, and how its configuration
space reacts to writes and to the kernel calls that reach it. -/
structure PciDev where
  resourceStart : Nat → BitVec 64
  resourceEnd : Nat → BitVec 64
  irqLine : Nat
  noMsi : Bool
  /-- PCI_BUS_FLAGS_NO_MSI of the device's bus and of each bus above it. -/
  busNoMsi : List Bool
  capMsi : Bool
  capMsix : Bool
  pcieCap : Nat
  vendor : BitVec 16
  device : BitVec 16
  subsystemVendor : BitVec 16
  subsystemDevice : BitVec 16
  domain : Nat
  busNumber : BitVec 8
  devfn : BitVec 32
  configWrite : Memory → Nat → List Byte → Memory
  kernelConfig : Call → Memory → Memory

def PciDev.resourceLen (dev : PciDev) (bar : Nat) : BitVec 64 :=
  if dev.resourceEnd bar = 0 then 0 else dev.resourceEnd bar - dev.resourceStart bar + 1

/-- The registers of a device: a word for each BAR and offset. -/
abbrev Regs := Nat → Nat → BitVec 32

/-- A write to a register that holds what has been written to it last. -/
def plainWrite (regs : Regs) (bar offset : Nat) (value : BitVec 32) : Regs :=
  fun bar' offset' => if bar' = bar ∧ offset' = offset then value else regs bar' offset'

/-- What a write makes of the registers of a device, and how an access to its interrupt registers comes
out without a mapping, which is one through NULL: it stops the kernel, or it is only reported, and a read
gives some word. -/
structure RegBus where
  regWrite : Regs → Nat → Nat → BitVec 32 → Regs
  nullRegister : Option (BitVec 32)

/-- Registers that are memory, and accesses through NULL that stop the kernel. -/
def RegBus.plain : RegBus := ⟨plainWrite, none⟩

/-- The same for all devices, and for an access through NULL by a file, at each of its offsets. -/
structure Bus where
  regs : Dev → RegBus
  nullFile : Nat → Option (BitVec 32)

def Bus.plain : Bus := ⟨fun _ => .plain, fun _ => none⟩

/-- `xgpu_cdev_node` -/
structure Node where
  devId : Nat
  offset : Nat
  length : Nat
  devnodeName : String
  deriving DecidableEq, Repr, Inhabited

/-- The three node tables of cdev_config.h, cdev_register.h and cdev_ctrl.h. -/
structure Tables where
  configItems : List Node
  registerItems : List Node
  ifwiItems : List Node

def Tables.itemConfigMax (t : Tables) : Nat := t.configItems.length
def Tables.itemRegisterMax (t : Tables) : Nat := t.itemConfigMax + t.registerItems.length
def Tables.itemIfwiMax (t : Tables) : Nat := t.itemRegisterMax + t.ifwiItems.length

/-- The nodes in the order they are made. -/
def Tables.allItems (t : Tables) : List Node := t.configItems ++ t.registerItems ++ t.ifwiItems

def PCI_CONFIG_SIZE : Nat := 128
def XGPU_BAR_NUM : Nat := 6
def XGPU_MINOR_COUNT : Nat := 1024
def CHRDEV_MAJOR_MAX : Nat := 512
def INT_MAX : Nat := 2 ^ 31 - 1

def EIO' : Nat := 5
def ENOMEM : Nat := 12
def EFAULT : Nat := 14
def EBUSY : Nat := 16
def EINVAL : Nat := 22
def ENOTTY : Nat := 25
def EPROTO : Nat := 71
def EAGAIN : Nat := 11

def configItems : List Node :=
  [⟨0, 0, PCI_CONFIG_SIZE, "xgpu%d/config"⟩,
   ⟨1, 0, 2, "xgpu%d/vendor"⟩,
   ⟨2, 2, 2, "xgpu%d/device"⟩,
   ⟨3, 4, 2, "xgpu%d/command"⟩,
   ⟨4, 6, 2, "xgpu%d/status"⟩,
   ⟨5, 8, 1, "xgpu%d/revision"⟩,
   ⟨6, 9, 3, "xgpu%d/class"⟩]

def registerItems : List Node :=
  [⟨7, 0, 4, "xgpu%d/register"⟩,
   ⟨8, 0x378c, 4, "xgpu%d/reg/CfgMemSize"⟩,
   ⟨9, 0xA370, 4, "xgpu%d/reg/VmFbLocBase"⟩,
   ⟨10, 0xA374, 4, "xgpu%d/reg/VmFbLocTop"⟩,
   ⟨11, 0xA10C, 4, "xgpu%d/reg/VmFbOffset"⟩,
   ⟨12, 0xA048, 4, "xgpu%d/reg/VmLfbAddrStart"⟩,
   ⟨13, 0xA04C, 4, "xgpu%d/reg/VmLfbAddrEnd"⟩]

def ifwiItems : List Node :=
  [⟨14, 0, 10, "xgpu%d/ifwi/asic"⟩,
   ⟨15, 10, 6, "xgpu%d/ifwi/version"⟩,
   ⟨16, 16, 8, "xgpu%d/ifwi/sku"⟩]

def tables : Tables := ⟨configItems, registerItems, ifwiItems⟩

/-! The driver's own structures. -/

inductive FileOps where
  | config
  | register
  | ctrl
  deriving DecidableEq, Repr

/-- What device_create left in sys_device. -/
inductive SysDevice where
  | null
  | errPtr
  | real
  deriving DecidableEq, Repr, Inhabited

/-- `struct xgpu_cdev`; owner says whether cdev.owner is THIS_MODULE and ops which
file operations cdev_init gave it. -/
structure XgpuCdev where
  xdev : Option XdevPtr
  cdevno : BitVec 32
  owner : Bool
  ops : Option FileOps
  bar : Int
  sysDevice : SysDevice
  deriving DecidableEq, Repr, Inhabited

/-- `struct xgpu_dev`, without the list entry and idx, which `World` keeps. -/
structure XgpuDev where
  modName : String := ""
  flags : BitVec 32 := 0
  bar : Int → Option Mapping := fun _ => none
  userBarIdx : Int := 0
  configBarIdx : Int := 0
  bypassBarIdx : Int := 0
  regionsInUse : Bool := false
  gotRegions : Bool := false
  userMax : Nat := 0
  /-- `none` is the line number -1 -/
  irqLine : Option Irq := some (.line 0)
  msiEnabled : Bool := false
  msixEnabled : Bool := false

def XgpuDev.withBar (X : XgpuDev) (bar : Int → Option Mapping) : XgpuDev := { X with bar := bar }

@[simp] theorem XgpuDev.withBar_bar (X : XgpuDev) (bar : Int → Option Mapping) :
    (X.withBar bar).bar = bar := rfl

@[simp] theorem XgpuDev.withBar_withBar (X : XgpuDev) (bar bar' : Int → Option Mapping) :
    (X.withBar bar).withBar bar' = X.withBar bar' := rfl

@[simp] theorem XgpuDev.withBar_gotRegions (X : XgpuDev) (bar : Int → Option Mapping) :
    (X.withBar bar).gotRegions = X.gotRegions := rfl

@[simp] theorem XgpuDev.withBar_regionsInUse (X : XgpuDev) (bar : Int → Option Mapping) :
    (X.withBar bar).regionsInUse = X.regionsInUse := rfl

def XgpuDev.withIrqLine (X : XgpuDev) (line : Option Irq) : XgpuDev := { X with irqLine := line }

/-- `struct xgpu_pci_dev` -/
structure XgpuPciDev where
  xdev : Option XdevPtr := none
  major : Nat := 0
  userMax : Nat := 0
  listHead : Nat → List MemberPtr := fun _ => []

/-- What the kernel holds for the driver on one device. -/
structure Held where
  enables : Int := 0
  regions : List Nat := []
  maps : List Mapping := []
  msi : MsiState := .off
  actions : List IrqAction := []
  deriving DecidableEq, Repr

/-- Everything that belongs to one PCI device: its hardware state, the bus in front of it, which never
changes, what the kernel holds for the driver, and the driver's allocations for it. -/
structure DevState where
  config : Memory
  regs : Regs
  bus : RegBus := .plain
  held : Held := {}
  serial : Nat := 0
  xdev : XdevPtr → XgpuDev := fun _ => {}
  xdevLive : List XdevPtr := []
  xpdev : XgpuPciDev := {}
  xpdevLive : Bool := false
  member : MemberPtr → XgpuCdev := fun _ => default
  memberLive : List MemberPtr := []
  cdevs : List (BitVec 32 × MemberPtr) := []
  sysDevices : List (BitVec 32) := []
  chrdevs : List (Nat × Nat) := []
  drvdata : Bool := false

namespace DevState

def withConfig (s : DevState) (config : Memory) : DevState := { s with config := config }

def withHeld (s : DevState) (held : Held) : DevState := { s with held := held }

def withSerial (s : DevState) (serial : Nat) : DevState := { s with serial := serial }

def withXdev (s : DevState) (x : XdevPtr) (X : XgpuDev) : DevState :=
  { s with xdev := Function.update s.xdev x X }

end DevState

/-- The state of the module: its devices, the list of xgpu devices with the
numbers it gives them, and the two globals behind the device files; nullFile is that of the bus
and never changes. The last field is a history variable that no code of the driver reads: the
device and the success of the latest pci_iomap in cdev_register_init. -/
structure World where
  dev : Dev → DevState
  xdevList : List XdevPtr := []
  idx : XdevPtr → Int := fun _ => 0
  kobjName : MemberPtr → Option String := fun _ => none
  configData : Memory := fun _ => 0
  pcimapAddr : Option Mapping := none
  gXgpuClass : Bool := true
  nullFile : Nat → Option (BitVec 32) := fun _ => none
  registerInit : Option (Dev × Bool) := none

/-- The module before its first probe. -/
def World.start (bus : Bus) (config : Dev → Memory) (regs : Dev → Regs) : World where
  dev d := { config := config d, regs := regs d, bus := bus.regs d }
  nullFile := bus.nullFile

/-- The places where a kernel call may fail, within one entry into the driver. -/
inductive Site where
  | kzalloc
  | enableDevice
  | setReadrq
  | requestRegion (bar : Nat)
  | iomapBar (bar : Nat)
  | dmaMask (bits : Nat)
  | allocIrqVectors
  | enableMsi
  | requestIrqMsix (i : Nat)
  | requestIrqMsi
  | requestIrqLegacy
  | kmallocXpdev
  | probeEnableMsi
  | probeRequestIrq
  | kmallocMember (devId : Nat)
  | allocChrdevRegion (devId : Nat)
  | kobjectSetName (devId : Nat)
  | iomapRegister (devId : Nat)
  | cdevAdd (devId : Nat)
  | deviceCreate (devId : Nat)
  deriving DecidableEq, Repr

/-- A major number as alloc_chrdev_region gives it out. -/
structure Major where
  number : Nat
  positive : 0 < number
  below : number < CHRDEV_MAJOR_MAX

/-- What one entry into the driver meets: the module parameter at that time, the
error number of each kernel call (zero for success), the major number that
alloc_chrdev_region would pick, and what kmalloc'ed memory holds. -/
structure Env where
  interruptMode : Nat
  errno : Site → Nat
  major : Major
  garbage : XgpuCdev

/-- A device with BARs of the given lengths and a plain configuration space. -/
def plainDev (len : Nat → BitVec 64) (capMsi capMsix : Bool) : PciDev where
  resourceStart _ := 0x1000
  resourceEnd bar := if len bar = 0 then 0 else 0x1000 + len bar - 1
  irqLine := 11
  noMsi := false
  busNoMsi := [false]
  capMsi := capMsi
  capMsix := capMsix
  pcieCap := 0
  vendor := 0x1002
  device := 0x748f
  subsystemVendor := 0
  subsystemDevice := 0
  domain := 0
  busNumber := 1
  devfn := 0
  configWrite := store
  kernelConfig _ mem := mem

/-- An entry into the driver in which no call fails. -/
def Env.calm (interruptMode : Nat) : Env :=
  ⟨interruptMode, fun _ => 0, ⟨240, by decide, by decide⟩, default⟩

/-- The int a kernel call returns. -/
def Env.rv (env : Env) (site : Site) : Int := -(env.errno site : Int)

theorem rv_neg {env : Env} {site : Site} (failed : env.errno site ≠ 0) : env.rv site < 0 := by
  unfold Env.rv
  omega

theorem rv_zero {env : Env} {site : Site} : env.rv site = 0 ↔ env.errno site = 0 := by
  unfold Env.rv
  omega

abbrev DevM := Act DevState Call
abbrev M := Act World Call

def setDev (w : World) (pdev : Dev) (s : DevState) : World :=
  { w with dev := Function.update w.dev pdev s }

/-- An action on the state of one device. -/
def onDev {α : Type} (pdev : Dev) (act : DevM α) : M α :=
  Act.zoom (fun w => w.dev pdev) (fun w s => setDev w pdev s) act

@[simp] theorem setDev_dev_same (w : World) (pdev : Dev) (s : DevState) :
    (setDev w pdev s).dev pdev = s := by
  simp [setDev]

theorem setDev_dev_other (w : World) {pdev other : Dev} (s : DevState) (different : other ≠ pdev) :
    (setDev w pdev s).dev other = w.dev other := by
  simp [setDev, different]

@[simp] theorem setDev_self (w : World) (pdev : Dev) : setDev w pdev (w.dev pdev) = w := by
  simp [setDev]

@[simp] theorem setDev_setDev (w : World) (pdev : Dev) (s t : DevState) :
    setDev (setDev w pdev s) pdev t = setDev w pdev t := by
  simp [setDev]

@[simp] theorem setDev_gXgpuClass (w : World) (pdev : Dev) (s : DevState) :
    (setDev w pdev s).gXgpuClass = w.gXgpuClass := rfl

end PcieUtil.Driver.State
