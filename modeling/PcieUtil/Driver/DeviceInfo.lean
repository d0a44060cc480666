import PcieUtil.Driver.CtrlFile
import PcieUtil.Driver.Snapshot

/-! The PCI address of a device, and what the info ioctl reports of it. -/

namespace PcieUtil.Driver.DeviceInfo
open Lib.Action Lib.Bytes State Kernel CtrlFile Transfers Snapshot

/-- Domain, bus number, slot and function. -/
structure PciAddress where
  domain : Nat
  bus : Nat
  slot : Nat
  func : Nat
  deriving DecidableEq

/-- The address that the kernel has for a device; devfn packs slot and function into eight bits. -/
def addressOf (dev : PciDev) : PciAddress :=
  ⟨dev.domain, dev.busNumber.toNat, dev.devfn.toNat / 8, dev.devfn.toNat % 8⟩

/-- The fields domain, bus, dev and func in the bytes of a `struct xgpu_ioc_info`. -/
def infoAddress (bytes : List Byte) : PciAddress :=
  ⟨ofLE ((bytes.drop 32).take 2), ofLE ((bytes.drop 34).take 1), ofLE ((bytes.drop 35).take 1),
    ofLE ((bytes.drop 36).take 1)⟩

/-- A control file of a device, and an argument that holds a `struct xgpu_ioc_info`. -/
structure InfoCall (x : XdevPtr) (file : XgpuCdev) (arg : UserBuf) : Prop where
  owner : file.xdev = some x
  readable : 40 ≤ arg.avail
  writable : 40 ≤ arg.room

/-- The info ioctl. -/
def info (hw : Dev → PciDev) (file : XgpuCdev) (arg : UserBuf) (w : World) : Outcome World Call Int :=
  (charCtrlIoctl hw file XDMA_IOCINFO arg true).run w

/-- The address in what the info ioctl hands to the user. -/
def reported (hw : Dev → PciDev) (file : XgpuCdev) (arg : UserBuf) (w : World) : PciAddress :=
  infoAddress ((info hw file arg w).trace.flatMap fun e => handedOut e.2)

section
variable {hw : Dev → PciDev} {x y : XdevPtr} {file other : XgpuCdev} {arg arg' : UserBuf} {w w' : World}

theorem toBytes_length (obj : XgpuIocInfo) : obj.toBytes.length = 40 := by
  simp [XgpuIocInfo.toBytes]

/-- A call with the right argument succeeds, and hands the whole structure out. -/
theorem info_collects (call : InfoCall x file arg) :
    Act.collects handedOut (charCtrlIoctl hw file XDMA_IOCINFO arg true) (fun v _ bytes =>
      v = some 0 ∧ bytes = (versionInfo hw x.pdev).toBytes) w := by
  have readable := call.readable
  have writable := call.writable
  have magic : ¬ XDMA_IOCINFO >>> 8 &&& 0xff ≠ XDMA_IOC_MAGIC := by decide
  have base : 8 - min 8 (arg.avail - 0) = 0 := by omega
  have whole : 40 - min 40 (arg.avail - 0) = 0 := by omega
  have copied : min 40 arg.room = 40 := by omega
  have all : (versionInfo hw x.pdev).toBytes.take 40 = (versionInfo hw x.pdev).toBytes :=
    List.take_of_length_le (Nat.le_of_eq (toBytes_length _))
  unfold charCtrlIoctl versionIoctl
  rw [call.owner]
  simp only [if_neg magic, not_true_eq_false, and_false, if_false, if_true, Act.collects_bind,
    collects_copyFromUser, Act.thenCollects_some, base, whole, ne_eq, collects_copyToUser, toBytes_length,
    copied, Nat.sub_self, Act.collects_pure, handedOut, all, List.nil_append, List.append_nil, and_self]

/-- The fields of the structure, at their places. -/
theorem infoAddress_toBytes (obj : XgpuIocInfo) : infoAddress obj.toBytes =
    ⟨obj.domain.toNat, obj.bus.toNat, obj.dev.toNat, obj.func.toNat⟩ := by
  have domain := obj.domain.isLt
  have word : obj.domain.toNat % 256 + 256 * (obj.domain.toNat / 256 % 256) = obj.domain.toNat := by omega
  simp [infoAddress, XgpuIocInfo.toBytes, toLE, ofLE, List.replicate, word]

/-- The object of version_ioctl knows slot and function, but neither domain nor bus. -/
theorem versionInfo_fields {pdev : Dev} (eight_bits : (hw pdev).devfn.toNat < 256) :
    infoAddress (versionInfo hw pdev).toBytes =
      ⟨0, 0, (hw pdev).devfn.toNat / 8, (hw pdev).devfn.toNat % 8⟩ := by
  have bus : ((versionInfo hw pdev).bus).toNat = 0 := by
    simp only [versionInfo, BitVec.toNat_setWidth, BitVec.toNat_ushiftRight, Nat.shiftRight_eq_div_pow]
    omega
  have slot : ((versionInfo hw pdev).dev).toNat = (hw pdev).devfn.toNat / 8 := by
    have five_bits : (hw pdev).devfn.toNat / 8 % 256 &&& 31 = (hw pdev).devfn.toNat / 8 % 256 % 32 :=
      Nat.and_two_pow_sub_one_eq_mod _ 5
    have byte : ((versionInfo hw pdev).dev).toNat = (hw pdev).devfn.toNat / 8 % 256 &&& 31 := by
      simp [versionInfo, Nat.shiftRight_eq_div_pow]
    rw [byte, five_bits]
    omega
  have func : ((versionInfo hw pdev).func).toNat = (hw pdev).devfn.toNat % 8 := by
    have three_bits : (hw pdev).devfn.toNat % 256 &&& 7 = (hw pdev).devfn.toNat % 256 % 8 :=
      Nat.and_two_pow_sub_one_eq_mod _ 3
    have byte : ((versionInfo hw pdev).func).toNat = (hw pdev).devfn.toNat % 256 &&& 7 := by
      simp [versionInfo]
    rw [byte, three_bits]
    omega
  rw [infoAddress_toBytes, bus, slot, func]
  rfl

theorem reported_eq (call : InfoCall x file arg) (eight_bits : (hw x.pdev).devfn.toNat < 256) :
    reported hw file arg w = ⟨0, 0, (hw x.pdev).devfn.toNat / 8, (hw x.pdev).devfn.toNat % 8⟩ := by
  have run : Act.collects handedOut (charCtrlIoctl hw file XDMA_IOCINFO arg true) _ w := info_collects call
  have bytes : ((info hw file arg w).trace.flatMap fun e => handedOut e.2) =
    (versionInfo hw x.pdev).toBytes := run.2
  rw [reported, bytes, versionInfo_fields eight_bits]

theorem reported_eq_iff (call : InfoCall x file arg) (eight_bits : (hw x.pdev).devfn.toNat < 256) :
    reported hw file arg w = addressOf (hw x.pdev) ↔
      (addressOf (hw x.pdev)).domain = 0 ∧ (addressOf (hw x.pdev)).bus = 0 := by
  rw [reported_eq call eight_bits, addressOf, PciAddress.mk.injEq]
  simp only [and_true]
  rw [eq_comm, @eq_comm _ 0 (hw x.pdev).busNumber.toNat]

/-- The fields tell two devices apart exactly when their slots or functions differ or nothing else
does, and are the address of a device exactly when it is on bus 0 of domain 0. -/
theorem info_identifies_iff (first : InfoCall x file arg) (second : InfoCall y other arg')
    (eight_bits : ∀ pdev, (hw pdev).devfn.toNat < 256) :
    ((addressOf (hw x.pdev) ≠ addressOf (hw y.pdev) →
        reported hw file arg w ≠ reported hw other arg' w') ↔
      (addressOf (hw x.pdev)).slot ≠ (addressOf (hw y.pdev)).slot ∨
        (addressOf (hw x.pdev)).func ≠ (addressOf (hw y.pdev)).func ∨
          (addressOf (hw x.pdev)).domain = (addressOf (hw y.pdev)).domain ∧
            (addressOf (hw x.pdev)).bus = (addressOf (hw y.pdev)).bus) ∧
      (reported hw file arg w = addressOf (hw x.pdev) ↔
        (addressOf (hw x.pdev)).domain = 0 ∧ (addressOf (hw x.pdev)).bus = 0) := by
  refine ⟨?_, reported_eq_iff first (eight_bits x.pdev)⟩
  rw [reported_eq first (eight_bits x.pdev), reported_eq second (eight_bits y.pdev)]
  simp only [addressOf, ne_eq, PciAddress.mk.injEq, true_and]
  by_cases slots : (hw x.pdev).devfn.toNat / 8 = (hw y.pdev).devfn.toNat / 8
  · by_cases funcs : (hw x.pdev).devfn.toNat % 8 = (hw y.pdev).devfn.toNat % 8
    · simp [slots, funcs]
    · simp [funcs]
  · simp [slots]

end

/-- A board in a slot of its own on the buses of a device table: devices 0, 1 and 2. -/
def threeBoards : Dev → PciDev := fun pdev =>
  { plainDev (fun _ => 0) false false with
    busNumber := if pdev = 0 then 1 else 2
    devfn := if pdev = 2 then 8 else 0 }

theorem threeBoards_devfn (pdev : Dev) : (threeBoards pdev).devfn.toNat < 256 := by
  by_cases third : pdev = 2
  · simp [threeBoards, third]
  · simp [threeBoards, third]

theorem infoCall_nodeFile (pdev : Dev) :
    InfoCall ⟨pdev, 0⟩ { nodeFile 14 1 with xdev := some ⟨pdev, 0⟩ } ample :=
  ⟨rfl, by decide, by decide⟩

theorem info_identifies_iff_slots :
    ((addressOf (threeBoards 0) ≠ addressOf (threeBoards 2) →
        reported threeBoards { nodeFile 14 1 with xdev := some ⟨0, 0⟩ } ample zeroWorld ≠
          reported threeBoards { nodeFile 14 1 with xdev := some ⟨2, 0⟩ } ample zeroWorld) ↔
      (addressOf (threeBoards 0)).slot ≠ (addressOf (threeBoards 2)).slot ∨
        (addressOf (threeBoards 0)).func ≠ (addressOf (threeBoards 2)).func ∨
          (addressOf (threeBoards 0)).domain = (addressOf (threeBoards 2)).domain ∧
            (addressOf (threeBoards 0)).bus = (addressOf (threeBoards 2)).bus) ∧
      (reported threeBoards { nodeFile 14 1 with xdev := some ⟨0, 0⟩ } ample zeroWorld =
          addressOf (threeBoards 0) ↔
        (addressOf (threeBoards 0)).domain = 0 ∧ (addressOf (threeBoards 0)).bus = 0) :=
  info_identifies_iff (infoCall_nodeFile 0) (infoCall_nodeFile 2) threeBoards_devfn

/-- The same slot on the buses 1 and 2. -/
theorem buses_confused :
    ¬ ∀ (hw : Dev → PciDev) (x y : XdevPtr) (file other : XgpuCdev) (arg arg' : UserBuf) (w w' : World),
      InfoCall x file arg → InfoCall y other arg' → (∀ pdev, (hw pdev).devfn.toNat < 256) →
        addressOf (hw x.pdev) ≠ addressOf (hw y.pdev) →
          reported hw file arg w ≠ reported hw other arg' w' := by
  intro all
  have apart := all threeBoards ⟨0, 0⟩ ⟨1, 0⟩ _ _ ample ample zeroWorld zeroWorld (infoCall_nodeFile 0)
    (infoCall_nodeFile 1) threeBoards_devfn (by decide)
  apply apart
  rw [reported_eq (infoCall_nodeFile 0) (threeBoards_devfn 0),
    reported_eq (infoCall_nodeFile 1) (threeBoards_devfn 1)]
  decide

end PcieUtil.Driver.DeviceInfo
