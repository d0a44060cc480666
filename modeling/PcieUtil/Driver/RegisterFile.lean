import PcieUtil.Driver.ConfigFile

/-! The device files of cdev_register.c, which access BAR 5 through one mapping. -/

namespace PcieUtil.Driver.RegisterFile
open Lib.Action Lib.Bytes State Kernel ConfigFile

def XGPU_IOCTL_REGISTER_READ : BitVec 32 := 0xC0085801
def XGPU_IOCTL_REGISTER_WRITE : BitVec 32 := 0xC0085802

/-- AMD registers are in BAR5. -/
def REGISTER_BAR : Nat := 5

section
variable (t : Tables)

/-- The place of a register node in its table. The node of the table's first place
is refused, and the place behind the last one is not. -/
def registerLoc (xcdev : XgpuCdev) : Option Nat :=
  let loc : Int := minorOf xcdev.cdevno - t.itemConfigMax
  if loc ≤ 0 ∨ (t.registerItems.length : Int) < loc then none else some loc.toNat

def charRegisterRead (xcdev : XgpuCdev) (user : UserBuf) (pos : Nat) : M Ret := do
  if 4 ≤ pos then return (0, pos)
  else if xcdev.xdev = none then return (-EINVAL, pos)
  else
    match registerLoc t xcdev with
    | none => return (-EINVAL, pos)
    | some loc =>
        match t.registerItems[loc]? with
        | none => Act.fault
        | some item =>
            let base ← Act.read World.pcimapAddr
            let val ← ioread32At base item.offset
            let ret ← copyToUser user (toLE 4 val.toNat)
            if ret ≠ 0 then return (-EIO', pos) else return (4, pos + 4)

def charRegisterWrite (xcdev : XgpuCdev) (user : UserBuf) (pos : Nat) : M Ret := do
  if 4 ≤ pos then return (0, pos)
  else if xcdev.xdev = none then return (-EINVAL, pos)
  else
    match registerLoc t xcdev with
    | none => return (-EINVAL, pos)
    | some loc =>
        match t.registerItems[loc]? with
        | none => Act.fault
        | some item =>
            let (bytes, missed) ← copyFromUser user 0 4
            if missed ≠ 0 then return (-EINVAL, pos)
            else
              let base ← Act.read World.pcimapAddr
              iowrite32At (BitVec.ofNat 32 (ofLE bytes)) base item.offset
              return (4, pos + 4)

end

/-- `register_read_write`, as its eight bytes in user memory. -/
structure RegisterReadWrite where
  address : BitVec 32
  value : BitVec 32

def RegisterReadWrite.ofBytes (bytes : List Byte) : RegisterReadWrite where
  address := BitVec.ofNat 32 (ofLE (bytes.take 4))
  value := BitVec.ofNat 32 (ofLE (bytes.drop 4))

def RegisterReadWrite.toBytes (reg : RegisterReadWrite) : List Byte :=
  toLE 4 reg.address.toNat ++ toLE 4 reg.value.toNat

def charRegisterIoctl (xcdev : XgpuCdev) (cmd : BitVec 32) (arg : UserBuf) : M Int := do
  if xcdev.xdev = none then return -EINVAL
  else if cmd = XGPU_IOCTL_REGISTER_READ then
    let (bytes, missed) ← copyFromUser arg 0 8
    if missed ≠ 0 then return -EFAULT
    else
      let reg := RegisterReadWrite.ofBytes bytes
      let base ← Act.read World.pcimapAddr
      let value ← ioread32At base reg.address.toNat
      let ret ← copyToUser arg { reg with value := value }.toBytes
      if ret ≠ 0 then return -EFAULT else return 0
  else if cmd = XGPU_IOCTL_REGISTER_WRITE then
    let (bytes, missed) ← copyFromUser arg 0 8
    if missed ≠ 0 then return -EFAULT
    else
      let reg := RegisterReadWrite.ofBytes bytes
      let base ← Act.read World.pcimapAddr
      iowrite32At reg.value base reg.address.toNat
      return 0
  else return -ENOTTY

end PcieUtil.Driver.RegisterFile
