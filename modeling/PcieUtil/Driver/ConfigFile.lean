import PcieUtil.Driver.Kernel

/-! The device files of cdev_config.c: the whole configuration space, which is read
from a snapshot, and its fields, which are read from the device. -/

namespace PcieUtil.Driver.ConfigFile
open Lib.Action Lib.Bytes State Kernel

/-- A file operation returns its result and the position it leaves. -/
abbrev Ret := Int × Nat

section
variable (hw : Dev → PciDev) (t : Tables)

/-- The value of a field node; zero for the node of the whole space. -/
def readField (pdev : Dev) (item : Node) : M (BitVec 32) := do
  match item.length with
  | 1 => return (← pciReadConfigByte pdev item.offset).zeroExtend 32
  | 2 => return (← pciReadConfigWord pdev item.offset).zeroExtend 32
  | 3 =>
      let dat0 ← pciReadConfigByte pdev item.offset
      let dat1 ← pciReadConfigByte pdev (item.offset + 1)
      let dat2 ← pciReadConfigByte pdev (item.offset + 2)
      return (dat2.zeroExtend 32 <<< 16) + (dat1.zeroExtend 32 <<< 8) + dat0.zeroExtend 32
  | 4 => pciReadConfigDword pdev item.offset
  | _ => return 0

/-- `PCI_CONFIG_SIZE - *pos` as an int, or zero when that is not positive. -/
def clampCount (pos : Nat) : Nat :=
  let size : Int := Int.bmod (PCI_CONFIG_SIZE - pos) (2 ^ 32)
  if 0 < size then size.toNat else 0

def charConfigRead (xcdev : XgpuCdev) (user : UserBuf) (count pos : Nat) : M Ret := do
  match xcdev.xdev with
  | none => Act.fault
  | some xdev =>
      match t.configItems[minorOf xcdev.cdevno]? with
      | none => return (-EINVAL, pos)
      | some item =>
          let val ← readField xdev.pdev item
          if item.length ≤ 4 then
            if 0 < pos then return (0, pos)
            else
              let ret ← copyToUser user ((toLE 4 val.toNat).take item.length)
              if ret ≠ 0 then return (-EIO', pos)
              else return (item.length, pos + item.length)
          else
            let count := if PCI_CONFIG_SIZE < (pos + count) % 2 ^ 64 then clampCount pos else count
            if count = 0 ∨ count ≤ pos then return (0, pos)
            else
              let src ← Act.read fun w => load w.configData pos count
              let ret ← copyToUser user src
              if ret ≠ 0 then return (-EIO', pos)
              else return (count, pos + count)

/-- Writes the snapshot to the device, one byte after the other. -/
def writeSnapshot (pdev : Dev) (offset : Nat) : Nat → Nat → M Unit
  | 0, _ => pure ()
  | count + 1, ii => do
      let val ← Act.read fun w => w.configData ii
      pciWriteConfigByte hw pdev (offset + ii) val
      writeSnapshot pdev offset count (ii + 1)

/-- The node of a field of one to four bytes: copied to a zeroed variable and written
from there. The case of four bytes reads the device where the others write. -/
def writeField (pdev : Dev) (item : Node) (val : BitVec 32) : M Unit := do
  match item.length with
  | 1 => pciWriteConfigByte hw pdev item.offset (val.setWidth 8)
  | 2 => pciWriteConfigWord hw pdev item.offset (val.setWidth 16)
  | 3 =>
      pciWriteConfigByte hw pdev item.offset (val.setWidth 8)
      pciWriteConfigByte hw pdev (item.offset + 1) ((val >>> 8).setWidth 8)
      pciWriteConfigByte hw pdev (item.offset + 2) ((val >>> 16).setWidth 8)
  | _ =>
      let _ ← pciReadConfigDword pdev item.offset

def charConfigWrite (xcdev : XgpuCdev) (user : UserBuf) (pos : Nat) : M Ret := do
  match xcdev.xdev with
  | none => Act.fault
  | some xdev =>
      match t.configItems[minorOf xcdev.cdevno]? with
      | none => return (-EINVAL, pos)
      | some item =>
          if item.length ≤ pos then return (0, pos)
          else if item.length ≤ 4 then
            let (bytes, missed) ← copyFromUser user 0 item.length
            if missed ≠ 0 then return (-EINVAL, pos)
            else
              writeField hw xdev.pdev item (BitVec.ofNat 32 (ofLE bytes))
              return (item.length, pos + item.length)
          else
            let length := if PCI_CONFIG_SIZE < item.length then PCI_CONFIG_SIZE else item.length
            let (bytes, missed) ← copyFromUser user pos length
            Act.update fun w => { w with configData := store w.configData 0 bytes }
            if missed ≠ 0 then return (-EINVAL, pos)
            else
              writeSnapshot hw xdev.pdev item.offset length 0
              return (length, pos + length)

/-- The loop of cdev_config_init, which fills the snapshot. -/
def fillSnapshot (pdev : Dev) : Nat → Nat → M Unit
  | 0, _ => pure ()
  | count + 1, ii => do
      let val ← pciReadConfigByte pdev ii
      Act.update fun w => { w with configData := Function.update w.configData ii val }
      fillSnapshot pdev count (ii + 1)

end

end PcieUtil.Driver.ConfigFile
