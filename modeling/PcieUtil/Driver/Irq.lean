import PcieUtil.Driver.Discipline

/-! Interrupts: the interrupt register block, the choice between the message
modes and the legacy line, and the handlers, from libxgpu.c. -/

namespace PcieUtil.Driver.Irq
open Lib.Action Lib.Bytes State Kernel Discipline

def XDMA_OFS_INT_CTRL : Nat := 0x2000

/-! Offsets in `struct interrupt_regs`. -/

def userIntEnableW1c : Nat := 0x0c
def channelIntEnableW1c : Nat := 0x18
def userIntRequest : Nat := 0x40
def channelIntRequest : Nat := 0x44
def userMsiVector : Nat := 0x80
def channelMsiVector : Nat := 0xa0

def PCI_COMMAND : Nat := 4
def PCI_COMMAND_INTX_DISABLE : BitVec 16 := 0x400
def PCI_INTERRUPT_PIN : Nat := 0x3d

def buildU32 (hi lo : BitVec 32) : BitVec 32 := (hi &&& 0xffff) <<< 16 ||| (lo &&& 0xffff)

/-- The capabilities that msi_msix_capable is asked about. -/
inductive CapId where
  | msi
  | msix
  deriving DecidableEq, Repr

section
variable (hw : Dev → PciDev) (env : Env) (xdev : XdevPtr) (pdev : Dev)

/-- `xdev->bar[xdev->config_bar_idx]` -/
def configBase : DevM (Option Mapping) := loadXdev xdev fun x => x.bar x.configBarIdx

def channelInterruptsDisable (mask : BitVec 32) : DevM Unit := do
  iowrite32 mask (← configBase xdev) (XDMA_OFS_INT_CTRL + channelIntEnableW1c)

def userInterruptsDisable (mask : BitVec 32) : DevM Unit := do
  iowrite32 mask (← configBase xdev) (XDMA_OFS_INT_CTRL + userIntEnableW1c)

def readInterrupts : DevM (BitVec 32) := do
  let base ← configBase xdev
  let hi ← ioread32 base (XDMA_OFS_INT_CTRL + userIntRequest)
  let lo ← ioread32 base (XDMA_OFS_INT_CTRL + channelIntRequest)
  return buildU32 hi lo

def msiMsixCapable (type : CapId) : Bool :=
  if (hw pdev).noMsi then false
  else if (hw pdev).busNoMsi.any id then false
  else match type with
    | .msi => (hw pdev).capMsi
    | .msix => (hw pdev).capMsix

def disableMsiMsix : DevM Unit := do
  if ← loadXdev xdev XgpuDev.msixEnabled then
    pciDisableMsix hw pdev
    storeXdev xdev fun x => { x with msixEnabled := false }
  else if ← loadXdev xdev XgpuDev.msiEnabled then
    pciDisableMsi hw pdev
    storeXdev xdev fun x => { x with msiEnabled := false }
  else pure ()

def enableMsiMsix : DevM Int := do
  if (env.interruptMode = 3 ∨ env.interruptMode = 0) ∧ msiMsixCapable hw pdev .msix then
    let reqNvec ← loadXdev xdev XgpuDev.userMax
    let rv ← pciAllocIrqVectors hw env pdev reqNvec reqNvec
    storeXdev xdev fun x => { x with msixEnabled := true }
    return rv
  else if (env.interruptMode = 1 ∨ env.interruptMode = 0) ∧ msiMsixCapable hw pdev .msi then
    let rv ← pciEnableMsi hw env .enableMsi pdev
    storeXdev xdev fun x => { x with msiEnabled := true }
    return rv
  else return 0

def pciKeepIntxEnabled : DevM Unit := do
  let pcmd : BitVec 16 := BitVec.ofNat 16 (ofLE (← pciReadConfig pdev PCI_COMMAND 2))
  let pcmdNew := pcmd &&& ~~~PCI_COMMAND_INTX_DISABLE
  if pcmdNew ≠ pcmd then pciWriteConfig hw pdev PCI_COMMAND (toLE 2 pcmdNew.toNat)
  else pure ()

/-- The inner loop of the programming functions: up to four vector numbers from i
on, one a byte. It returns the i behind them and the register value. -/
def packVectors (max : Nat) : Nat → Nat → Nat → BitVec 32 → Nat × BitVec 32
  | 0, i, _, val => (i, val)
  | k + 1, i, shift, val =>
      if i < max then
        packVectors max k (i + 1) (shift + 8) (val ||| BitVec.ofNat 32 (i % 32) <<< shift)
      else (i, val)

/-- The outer loop, which writes one register after the other. Every pass takes i
further, so that max passes are enough. -/
def progVectorsFrom (base : Option Mapping) (vector max : Nat) (clear : Bool) :
    Nat → Nat → Nat → DevM Unit
  | 0, _, _ => pure ()
  | passes + 1, i, j =>
      if i < max then do
        let (i', val) := if clear then (i + 4, 0) else packVectors max 4 i 0 0
        iowrite32 val base (XDMA_OFS_INT_CTRL + vector + 4 * j)
        progVectorsFrom base vector max clear passes i' (j + 1)
      else pure ()

def progIrqMsixUser (clear : Bool) : DevM Unit := do
  let base ← configBase xdev
  let max ← loadXdev xdev XgpuDev.userMax
  progVectorsFrom base userMsiVector max clear max 0 0

/-- There are no channel vectors yet. -/
def progIrqMsixChannel (clear : Bool) : DevM Unit := do
  let base ← configBase xdev
  progVectorsFrom base channelMsiVector 0 clear 0 0 0

def irqMsixUserTeardownFrom : Nat → Nat → DevM Unit
  | 0, _ => pure ()
  | count + 1, i => do
      freeIrq (.msix xdev.pdev i) (.userIrq xdev i)
      irqMsixUserTeardownFrom count (i + 1)

def irqMsixUserTeardown : DevM Unit := do
  if ← loadXdev xdev XgpuDev.msixEnabled then
    progIrqMsixUser xdev true
    irqMsixUserTeardownFrom xdev (← loadXdev xdev XgpuDev.userMax) 0
  else pure ()

/-- The loop that frees the vectors below i again. -/
def irqMsixUserRollback : Nat → DevM Unit
  | 0 => pure ()
  | i + 1 => do
      freeIrq (.msix xdev.pdev i) (.userIrq xdev i)
      irqMsixUserRollback i

def irqMsixUserSetupFrom : Nat → Nat → DevM Int
  | 0, _ => return 0
  | count + 1, i => do
      let modName ← loadXdev xdev XgpuDev.modName
      let rv ← requestIrq env (.requestIrqMsix i) (.msix xdev.pdev i) .xgpuUserIrq false modName
        (.userIrq xdev i)
      if rv ≠ 0 then
        irqMsixUserRollback xdev i
        return rv
      else irqMsixUserSetupFrom count (i + 1)

def irqMsixUserSetup : DevM Int := do
  irqMsixUserSetupFrom env xdev (← loadXdev xdev XgpuDev.userMax) 0

def irqMsiSetup : DevM Int := do
  let irq ← pdevIrq hw pdev
  storeXdev xdev fun x => { x with irqLine := some irq }
  let modName ← loadXdev xdev XgpuDev.modName
  requestIrq env .requestIrqMsi irq .xgpuIsr false modName (.xdev xdev)

/-- The interrupt pin in each byte. -/
def pinVector (val : Byte) : BitVec 32 :=
  let w := val.zeroExtend 32
  w <<< 24 ||| w <<< 16 ||| w <<< 8 ||| w

def progLegacyPin (val : Byte) : DevM Unit := do
  let w := pinVector (val - 1)
  let base ← configBase xdev
  iowrite32 w base 0x2080
  iowrite32 w base 0x2084
  iowrite32 w base 0x2088
  iowrite32 w base 0x208c
  iowrite32 w base 0x20a0
  iowrite32 w base 0x20a4

def irqLegacySetup : DevM Int := do
  let val : Byte := BitVec.ofNat 8 (ofLE (← pciReadConfig pdev PCI_INTERRUPT_PIN 1))
  if val = 0 then return -EINVAL
  else
    (if 1 < val.toNat then progLegacyPin xdev val else pure ())
    let irq ← pdevIrq hw pdev
    storeXdev xdev fun x => { x with irqLine := some irq }
    let modName ← loadXdev xdev XgpuDev.modName
    requestIrq env .requestIrqLegacy irq .xgpuIsr true modName (.xdev xdev)

def irqTeardown : DevM Unit := do
  if ← loadXdev xdev XgpuDev.msixEnabled then irqMsixUserTeardown xdev
  else match ← loadXdev xdev XgpuDev.irqLine with
    | some irq => freeIrq irq (.xdev xdev)
    | none => pure ()

def irqSetup : DevM Int := do
  pciKeepIntxEnabled hw pdev
  if ← loadXdev xdev XgpuDev.msixEnabled then
    let rv ← irqMsixUserSetup env xdev
    if rv ≠ 0 then return rv
    else
      progIrqMsixChannel xdev false
      progIrqMsixUser xdev false
      return 0
  else if ← loadXdev xdev XgpuDev.msiEnabled then irqMsiSetup hw env xdev pdev
  else irqLegacySetup hw env xdev pdev

end

end PcieUtil.Driver.Irq
