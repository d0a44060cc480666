import PcieUtil.Driver.State

/-! The kernel calls of the driver. Each one records itself, may fail as the
environment says, and changes what the kernel holds for the device. The rules
that the kernel enforces by itself are the ones written out here: a busy region
is refused, a message mode is not enabled twice, disabling a mode that is off
does nothing. -/

namespace PcieUtil.Driver.Kernel
open Lib.Action Lib.Bytes State

/-- A register access without a mapping. -/
def nullAccess {σ : Type} (c : Call) (outcome : σ → Option (BitVec 32)) : Act σ Call (BitVec 32) := do
  Act.call c fun s => ((), s)
  match ← Act.read outcome with
  | none => Act.fault
  | some word => return word

def ioread32 (base : Option Mapping) (offset : Nat) : DevM (BitVec 32) :=
  match base with
  | none => nullAccess (.ioread32 none offset) (fun s => s.bus.nullRegister)
  | some m => Act.call (.ioread32 base offset) fun s => (s.regs m.bar offset, s)

def iowrite32 (value : BitVec 32) (base : Option Mapping) (offset : Nat) : DevM Unit :=
  match base with
  | none => do
      let _ ← nullAccess (.iowrite32 none offset value) (fun s => s.bus.nullRegister)
      return
  | some m => Act.call (.iowrite32 base offset value) fun s =>
      ((), { s with regs := s.bus.regWrite s.regs m.bar offset value })

def pciReadConfig (pdev : Dev) (offset width : Nat) : DevM (List Byte) :=
  Act.call (.pciReadConfig pdev offset width) fun s => (load s.config offset width, s)

section
variable (hw : Dev → PciDev) (env : Env)

/-- A call that acts on a PCI device may also touch its configuration space. -/
def pciCall {α : Type} (pdev : Dev) (c : Call) (answer : DevState → α × DevState) : DevM α :=
  Act.call c fun s =>
    ((answer s).1, (answer s).2.withConfig ((hw pdev).kernelConfig c (answer s).2.config))

def pciWriteConfig (pdev : Dev) (offset : Nat) (bytes : List Byte) : DevM Unit :=
  Act.call (.pciWriteConfig pdev offset bytes) fun s =>
    ((), s.withConfig ((hw pdev).configWrite s.config offset bytes))

def pciEnableDevice (pdev : Dev) : DevM Int :=
  pciCall hw pdev (.pciEnableDevice pdev) fun s =>
    if env.errno .enableDevice = 0 then
      (0, s.withHeld { s.held with enables := s.held.enables + 1 })
    else (env.rv .enableDevice, s)

def pciDisableDevice (pdev : Dev) : DevM Unit :=
  pciCall hw pdev (.pciDisableDevice pdev) fun s =>
    ((), s.withHeld { s.held with enables := s.held.enables - 1 })

def pcieSetReadrq (pdev : Dev) (rq : Nat) : DevM Int :=
  pciCall hw pdev (.pcieSetReadrq pdev rq) fun s => (env.rv .setReadrq, s)

def pciSetMaster (pdev : Dev) : DevM Unit :=
  pciCall hw pdev (.pciSetMaster pdev) fun s => ((), s)

/-- A BAR of length zero has no region, and requesting it succeeds. -/
def pciRequestRegion (pdev : Dev) (bar : Nat) (name : String) : DevM Int :=
  Act.call (.pciRequestRegion pdev bar name) fun s =>
    if (hw pdev).resourceLen bar = 0 then (0, s)
    else if bar ∈ s.held.regions then (-EBUSY, s)
    else if env.errno (.requestRegion bar) = 0 then
      (0, s.withHeld { s.held with regions := bar :: s.held.regions })
    else (env.rv (.requestRegion bar), s)

def pciReleaseRegions (pdev : Dev) : DevM Unit :=
  Act.call (.pciReleaseRegions pdev) fun s => ((), s.withHeld { s.held with regions := [] })

/-- pci_iomap maps at most maxlen bytes of the BAR, or all of it for maxlen zero. -/
def iomapLen (len maxlen : Nat) : Nat := if maxlen ≠ 0 ∧ maxlen < len then maxlen else len

def pciIomap (site : Site) (pdev : Dev) (bar maxlen : Nat) : DevM (Option Mapping) :=
  let len := (hw pdev).resourceLen bar
  let ok := len ≠ 0 ∧ env.errno site = 0
  Act.call (.pciIomap pdev bar maxlen (decide ok)) fun s =>
    if ok then
      let m : Mapping := ⟨pdev, bar, s.serial, iomapLen len.toNat maxlen⟩
      (some m, (s.withHeld { s.held with maps := m :: s.held.maps }).withSerial (s.serial + 1))
    else (none, s)

def pciIounmap (pdev : Dev) (m : Mapping) : DevM Unit :=
  Act.call (.pciIounmap pdev m) fun s =>
    ((), s.withHeld { s.held with maps := s.held.maps.erase m })

def dmaSetMaskAndCoherent (pdev : Dev) (bits : Nat) : DevM Int :=
  Act.call (.dmaSetMaskAndCoherent pdev bits) fun s => (env.rv (.dmaMask bits), s)

/-- The number of vectors on success: all of those asked for. -/
def pciAllocIrqVectors (pdev : Dev) (minVecs maxVecs : Nat) : DevM Int :=
  pciCall hw pdev (.pciAllocIrqVectors pdev minVecs maxVecs) fun s =>
    if s.held.msi ≠ .off then (-EINVAL, s)
    else if env.errno .allocIrqVectors = 0 then
      (maxVecs, s.withHeld { s.held with msi := .msix maxVecs })
    else (env.rv .allocIrqVectors, s)

def pciEnableMsi (site : Site) (pdev : Dev) : DevM Int :=
  pciCall hw pdev (.pciEnableMsi pdev) fun s =>
    if s.held.msi ≠ .off then (-EINVAL, s)
    else if env.errno site = 0 then (0, s.withHeld { s.held with msi := .msi })
    else (env.rv site, s)

def pciDisableMsi (pdev : Dev) : DevM Unit :=
  pciCall hw pdev (.pciDisableMsi pdev) fun s =>
    ((), if s.held.msi = .msi then s.withHeld { s.held with msi := .off } else s)

def pciDisableMsix (pdev : Dev) : DevM Unit :=
  pciCall hw pdev (.pciDisableMsix pdev) fun s =>
    match s.held.msi with
    | .msix _ => ((), s.withHeld { s.held with msi := .off })
    | _ => ((), s)

/-- `pdev->irq`, which is the message vector while MSI is enabled. -/
def pdevIrq (pdev : Dev) : DevM Irq :=
  Act.read fun s => if s.held.msi = .msi then .msi pdev else .line (hw pdev).irqLine

def requestIrq (site : Site) (irq : Irq) (handler : IrqHandler) (shared : Bool) (name : String)
    (devId : DevId) : DevM Int :=
  Act.call (.requestIrq irq handler shared name devId) fun s =>
    if env.errno site = 0 then
      (0, s.withHeld { s.held with actions := ⟨irq, handler, devId⟩ :: s.held.actions })
    else (env.rv site, s)

def freeIrq (irq : Irq) (devId : DevId) : DevM Unit :=
  Act.call (.freeIrq irq devId) fun s =>
    ((), s.withHeld { s.held with
      actions := s.held.actions.eraseP fun a => a.irq = irq ∧ a.devId = devId })

/-! Allocations. -/

def kzallocXdev (pdev : Dev) : DevM (Option XdevPtr) :=
  Act.call .kzalloc fun s =>
    if env.errno .kzalloc = 0 then
      let x : XdevPtr := ⟨pdev, s.serial⟩
      (some x, { s.withXdev x {} with serial := s.serial + 1, xdevLive := x :: s.xdevLive })
    else (none, s)

def kmallocXpdev : DevM Bool :=
  Act.call .kmalloc fun s =>
    if env.errno .kmallocXpdev = 0 then (true, { s with xpdevLive := true }) else (false, s)

def kmallocMember (pdev : Dev) (devId : Nat) : DevM (Option MemberPtr) :=
  Act.call .kmalloc fun s =>
    if env.errno (.kmallocMember devId) = 0 then
      let m : MemberPtr := ⟨pdev, s.serial⟩
      (some m, { s with
        serial := s.serial + 1, memberLive := m :: s.memberLive
        member := Function.update s.member m env.garbage })
    else (none, s)

end

def kfree (ptr : Ptr) : DevM Unit :=
  Act.call (.kfree ptr) fun s =>
    match ptr with
    | .xdev x => ((), { s with xdevLive := s.xdevLive.erase x })
    | .xpdev _ => ((), { s with xpdevLive := false })
    | .member m => ((), { s with memberLive := s.memberLive.erase m })
    | .memberEntry m => ((), { s with memberLive := s.memberLive.erase m })

/-! Fields of the driver's structures. -/

def loadXdev {α : Type} (x : XdevPtr) (field : XgpuDev → α) : DevM α :=
  Act.read fun s => field (s.xdev x)

def storeXdev (x : XdevPtr) (change : XgpuDev → XgpuDev) : DevM Unit :=
  Act.update fun s => s.withXdev x (change (s.xdev x))

def storeMember (m : MemberPtr) (change : XgpuCdev → XgpuCdev) : DevM Unit :=
  Act.update fun s => { s with member := Function.update s.member m (change (s.member m)) }

def storeXpdev (change : XgpuPciDev → XgpuPciDev) : DevM Unit :=
  Act.update fun s => { s with xpdev := change s.xpdev }

/-! Character devices. -/

def mkdev (major minor : Nat) : BitVec 32 := BitVec.ofNat 32 major <<< 20 ||| BitVec.ofNat 32 minor

def majorOf (cdevno : BitVec 32) : Nat := (cdevno >>> 20).toNat

def minorOf (cdevno : BitVec 32) : Nat := (cdevno &&& 0xFFFFF).toNat

section
variable (env : Env)

/-- Zero and the major number of the new range, or an error. -/
def allocChrdevRegion (devId baseminor count : Nat) (name : String) : DevM (Int × Nat) :=
  Act.call (.allocChrdevRegion baseminor count name) fun s =>
    if env.errno (.allocChrdevRegion devId) = 0 then
      ((0, env.major.number), { s with chrdevs := (env.major.number, baseminor) :: s.chrdevs })
    else ((env.rv (.allocChrdevRegion devId), 0), s)

/-- Only the range that starts at the given number is released. -/
def unregisterChrdevRegion (cdevno : BitVec 32) (count : Nat) : DevM Unit :=
  Act.call (.unregisterChrdevRegion cdevno count) fun s =>
    ((), { s with chrdevs := s.chrdevs.erase (majorOf cdevno, minorOf cdevno) })

def cdevAdd (devId : Nat) (m : MemberPtr) (cdevno : BitVec 32) (count : Nat) : DevM Int :=
  Act.call (.cdevAdd cdevno count) fun s =>
    if env.errno (.cdevAdd devId) = 0 then (0, { s with cdevs := (cdevno, m) :: s.cdevs })
    else (env.rv (.cdevAdd devId), s)

def cdevDel (m : MemberPtr) : DevM Unit :=
  Act.call (.cdevDel m) fun s => ((), { s with cdevs := s.cdevs.filter fun entry => entry.2 ≠ m })

/-- device_create reports a failure through an error pointer, never NULL. -/
def deviceCreate (devId : Nat) (cdevno : BitVec 32) (name : String) : DevM SysDevice :=
  Act.call (.deviceCreate cdevno name) fun s =>
    if env.errno (.deviceCreate devId) = 0 then
      (.real, { s with sysDevices := cdevno :: s.sysDevices })
    else (.errPtr, s)

def deviceDestroy (cdevno : BitVec 32) : DevM Unit :=
  Act.call (.deviceDestroy cdevno) fun s =>
    ((), { s with sysDevices := s.sysDevices.erase cdevno })

end

/-! User memory. -/

/-- A user buffer, of which the first `avail` bytes can be read and the first `room`
bytes can be written. -/
structure UserBuf where
  data : Memory
  avail : Nat
  room : Nat

/-- The number of bytes that could not be copied. -/
def copyToUser (user : UserBuf) (src : List Byte) : M Nat :=
  let copied := min src.length user.room
  Act.call (.copyToUser src copied) fun w => (src.length - copied, w)

/-- What the destination holds afterwards, and the number of bytes that could not
be copied, which the kernel has cleared in the destination. -/
def copyFromUser (user : UserBuf) (start count : Nat) : M (List Byte × Nat) :=
  let copied := min count (user.avail - start)
  Act.call (.copyFromUser count copied) fun w =>
    ((load user.data start copied ++ List.replicate (count - copied) 0, count - copied), w)

/-! Accesses to any device. -/

def pciReadConfigByte (pdev : Dev) (offset : Nat) : M Byte := do
  return BitVec.ofNat 8 (ofLE (← onDev pdev (pciReadConfig pdev offset 1)))

def pciReadConfigWord (pdev : Dev) (offset : Nat) : M (BitVec 16) := do
  return BitVec.ofNat 16 (ofLE (← onDev pdev (pciReadConfig pdev offset 2)))

def pciReadConfigDword (pdev : Dev) (offset : Nat) : M (BitVec 32) := do
  return BitVec.ofNat 32 (ofLE (← onDev pdev (pciReadConfig pdev offset 4)))

def pciWriteConfigByte (hw : Dev → PciDev) (pdev : Dev) (offset : Nat) (val : Byte) : M Unit :=
  onDev pdev (pciWriteConfig hw pdev offset [val])

def pciWriteConfigWord (hw : Dev → PciDev) (pdev : Dev) (offset : Nat) (val : BitVec 16) : M Unit :=
  onDev pdev (pciWriteConfig hw pdev offset (toLE 2 val.toNat))

def ioread32At (base : Option Mapping) (offset : Nat) : M (BitVec 32) :=
  match base with
  | none => nullAccess (.ioread32 none offset) fun w => w.nullFile offset
  | some m => onDev m.pdev (ioread32 base offset)

def iowrite32At (value : BitVec 32) (base : Option Mapping) (offset : Nat) : M Unit :=
  match base with
  | none => do
      let _ ← nullAccess (.iowrite32 none offset value) fun w => w.nullFile offset
      return
  | some m => onDev m.pdev (iowrite32 value base offset)

end PcieUtil.Driver.Kernel
