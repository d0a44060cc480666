import PcieUtil.Driver.RegisterFile
import PcieUtil.Driver.CtrlFile

/-! How much the read and write handlers move between the user and the driver. Each
of them requests at most one copy; its size is a property of the node, not of the
count that the caller passed. -/

namespace PcieUtil.Driver.Transfers
open Lib.Action Lib.Bytes State Kernel ConfigFile RegisterFile CtrlFile

inductive Handler where
  | configRead
  | configWrite
  | registerRead
  | registerWrite
  | ctrlRead
  | ctrlWrite
  deriving DecidableEq, Repr

section
variable (hw : Dev → PciDev) (t : Tables)

/-- The handler on a file, a buffer, a count and a position. -/
def Handler.act (xcdev : XgpuCdev) (user : UserBuf) (count pos : Nat) : Handler → M Ret
  | configRead => charConfigRead t xcdev user count pos
  | configWrite => charConfigWrite hw t xcdev user pos
  | registerRead => charRegisterRead t xcdev user pos
  | registerWrite => charRegisterWrite t xcdev user pos
  | ctrlRead => charCtrlRead xcdev user pos
  | ctrlWrite => charCtrlWrite xcdev user pos

/-- A copy that does not follow the count: its size, how many bytes of the buffer are
accessible there, and whether the handler goes on when that is not enough. -/
structure Request where
  size : Nat
  accessible : Nat
  goesOn : Bool

/-- The register node of a file, when the handlers get as far as using it. -/
def registerItem (xcdev : XgpuCdev) (pos : Nat) : Option Node :=
  if 4 ≤ pos ∨ xcdev.xdev = none then none else (registerLoc t xcdev).bind (t.registerItems[·]?)

/-- The mapping of a control file. -/
def ctrlMapping (w : World) (xcdev : XgpuCdev) : Option Mapping :=
  xcdev.xdev.bind fun x => ((w.dev x.pdev).xdev x).bar xcdev.bar

/-- An access through a mapping that may not be there is made, and the handler goes on. -/
def reaches (w : World) (base : Option Mapping) (offset : Nat) : Bool :=
  base.isSome || (w.nullFile offset).isSome

/-- The copy that a handler requests, from the node, the position and the access it makes. -/
def Handler.request (w : World) (xcdev : XgpuCdev) (user : UserBuf) (pos : Nat) :
    Handler → Option Request
  | configRead =>
      match xcdev.xdev, t.configItems[minorOf xcdev.cdevno]? with
      | some _, some item =>
          if item.length ≤ 4 ∧ pos = 0 then some ⟨item.length, user.room, false⟩ else none
      | _, _ => none
  | configWrite =>
      match xcdev.xdev, t.configItems[minorOf xcdev.cdevno]? with
      | some _, some item =>
          if item.length ≤ pos then none
          else if item.length ≤ 4 then some ⟨item.length, user.avail, false⟩
          else some ⟨min item.length PCI_CONFIG_SIZE, user.avail - pos, false⟩
      | _, _ => none
  | registerRead =>
      match registerItem t xcdev pos with
      | some item => if reaches w w.pcimapAddr item.offset then some ⟨4, user.room, false⟩ else none
      | none => none
  | registerWrite =>
      match registerItem t xcdev pos with
      | some _ => some ⟨4, user.avail, false⟩
      | none => none
  | ctrlRead =>
      if xcdev.xdev ≠ none ∧ pos % 4 = 0 ∧ reaches w (ctrlMapping w xcdev) pos then
        some ⟨4, user.room, true⟩
      else none
  | ctrlWrite =>
      if xcdev.xdev ≠ none ∧ pos % 4 = 0 then
        some ⟨4, user.avail, reaches w (ctrlMapping w xcdev) pos⟩
      else none

end

section
variable {hw : Dev → PciDev} {t : Tables} {w : World} {xcdev : XgpuCdev} {user : UserBuf}
  {count pos : Nat}

@[simp] theorem collects_copyToUser {κ : Type} {pick : Call → List κ} {src : List Byte}
    {Q : Option Nat → World → List κ → Prop} :
    Act.collects pick (copyToUser user src) Q w ↔
      Q (some (src.length - min src.length user.room)) w
        (pick (.copyToUser src (min src.length user.room))) := by
  simp [copyToUser]

@[simp] theorem collects_copyFromUser {κ : Type} {pick : Call → List κ} {start size : Nat}
    {Q : Option (List Byte × Nat) → World → List κ → Prop} :
    Act.collects pick (copyFromUser user start size) Q w ↔
      Q (some (load user.data start (min size (user.avail - start)) ++
          List.replicate (size - min size (user.avail - start)) 0,
        size - min size (user.avail - start))) w
        (pick (.copyFromUser size (min size (user.avail - start)))) := by
  simp [copyFromUser]

/-- The bytes of a field in memory, as its value. -/
def fieldValue (mem : Memory) (item : Node) : BitVec 32 :=
  if item.length ≤ 4 then BitVec.ofNat 32 (ofLE (load mem item.offset item.length)) else 0

theorem zeroExtend_ofNat {width n : Nat} (small : n < 2 ^ width) :
    (BitVec.ofNat width n).zeroExtend 32 = BitVec.ofNat 32 n := by
  apply BitVec.eq_of_toNat_eq
  rw [BitVec.zeroExtend, BitVec.toNat_setWidth, BitVec.toNat_ofNat, BitVec.toNat_ofNat,
    Nat.mod_eq_of_lt small]

theorem load_one_value (mem : Memory) (start : Nat) : ofLE (load mem start 1) = (mem start).toNat := by
  simp [load, ofLE]

/-- Three bytes put together as the read handler does. -/
theorem three_bytes (mem : Memory) (start : Nat) :
    ((mem (start + 2)).zeroExtend 32 <<< 16) + ((mem (start + 1)).zeroExtend 32 <<< 8) +
      (mem start).zeroExtend 32 = BitVec.ofNat 32 (ofLE (load mem start 3)) := by
  have high := (mem (start + 2)).isLt
  have middle := (mem (start + 1)).isLt
  have low := (mem start).isLt
  have bytes : load mem start 3 = [mem start, mem (start + 1), mem (start + 2)] := by
    simp [load, List.range_succ]
  apply BitVec.eq_of_toNat_eq
  simp only [bytes, ofLE, BitVec.toNat_add, BitVec.toNat_shiftLeft, BitVec.zeroExtend,
    BitVec.toNat_setWidth, BitVec.toNat_ofNat, Nat.shiftLeft_eq]
  omega

theorem collects_readField {κ : Type} (pick : Call → List κ) {pdev : Dev} {item : Node}
    (quiet : ∀ pdev offset width, pick (.pciReadConfig pdev offset width) = [])
    {Q : Option (BitVec 32) → World → List κ → Prop} :
    Act.collects pick (readField pdev item) Q w ↔
      Q (some (fieldValue (w.dev pdev).config item)) w [] := by
  unfold readField fieldValue
  split
  case h_1 one =>
    rw [if_pos (by omega), one]
    simp only [pciReadConfigByte, onDev, pciReadConfig, bind_pure_comp, Act.collects_map,
      Act.collects_zoom, Act.collects_call, quiet, setDev_self, Option.map_some]
    rw [zeroExtend_ofNat (by rw [load_one_value]; exact BitVec.isLt _)]
  case h_2 two =>
    rw [if_pos (by omega), two]
    simp only [pciReadConfigWord, onDev, pciReadConfig, bind_pure_comp, Act.collects_map,
      Act.collects_zoom, Act.collects_call, quiet, setDev_self, Option.map_some]
    rw [zeroExtend_ofNat (lt_of_lt_of_eq (ofLE_lt _) (by simp [load_length]))]
  case h_3 three =>
    rw [if_pos (by omega), three, ← three_bytes]
    simp only [pciReadConfigByte, onDev, pciReadConfig, bind_pure_comp, Act.collects_bind,
      Act.collects_map, Act.collects_zoom, Act.collects_call, quiet, setDev_self, Option.map_some,
      Act.thenCollects_some, List.nil_append, load_one_value, BitVec.ofNat_toNat,
      BitVec.setWidth_eq]
  case h_4 four =>
    rw [if_pos (by omega), four]
    simp [pciReadConfigDword, onDev, pciReadConfig, quiet]
  case h_5 one two three four =>
    simp only [imp_false] at one two three four
    by_cases short : item.length ≤ 4
    · have zero : item.length = 0 := by omega
      rw [if_pos short, zero]
      simp [load, ofLE]
    · simp [if_neg short]

theorem collects_nullAccess {κ : Type} {pick : Call → List κ} {c : Call}
    {outcome : World → Option (BitVec 32)} {Q : Option (BitVec 32) → World → List κ → Prop} :
    Act.collects pick (nullAccess c outcome) Q w ↔ Q (outcome w) w (pick c) := by
  simp only [nullAccess, Act.collects_bind, Act.collects_call, Act.thenCollects_some, Act.collects_read,
    List.nil_append]
  cases outcome w <;> simp

/-- The word that an access reads, when it is made. -/
def wordAt (w : World) (offset : Nat) : Option Mapping → Option (BitVec 32)
  | none => w.nullFile offset
  | some m => some ((w.dev m.pdev).regs m.bar offset)

@[simp] theorem collects_ioread32At {κ : Type} {pick : Call → List κ} {base : Option Mapping}
    {offset : Nat} {Q : Option (BitVec 32) → World → List κ → Prop} :
    Act.collects pick (ioread32At base offset) Q w ↔
      Q (wordAt w offset base) w (pick (.ioread32 base offset)) := by
  cases base with
  | none => exact collects_nullAccess
  | some m => simp [ioread32At, onDev, ioread32, wordAt]

/-- A write access picks one call. -/
theorem collects_iowrite32At {κ : Type} (pick : Call → List κ) {base : Option Mapping}
    {offset : Nat} {value : BitVec 32} {P : Option Unit → List κ → Prop} :
    Act.collects pick (iowrite32At value base offset) (fun v _ picked => P v picked) w ↔
      P (if reaches w base offset then some () else none) (pick (.iowrite32 base offset value)) := by
  cases base with
  | none =>
    simp only [iowrite32At, Act.collects_bind, collects_nullAccess, reaches, Option.isSome_none, Bool.false_or]
    cases w.nullFile offset <;> simp
  | some m => simp [iowrite32At, onDev, iowrite32, reaches]

/-- Up to 2^31 the difference of the clamping does not wrap. -/
theorem clamped_difference {pos : Nat} (near : pos < 2 ^ 31) :
    Int.bmod ((PCI_CONFIG_SIZE : Int) - pos) (2 ^ 32) = 128 - pos := by
  unfold PCI_CONFIG_SIZE
  rw [Int.bmod_eq_of_le] <;> omega

theorem clampCount_inside {pos : Nat} (inside : pos ≤ PCI_CONFIG_SIZE) :
    clampCount pos = PCI_CONFIG_SIZE - pos := by
  unfold PCI_CONFIG_SIZE at inside
  simp only [clampCount, clamped_difference (by omega : pos < 2 ^ 31)]
  unfold PCI_CONFIG_SIZE
  split <;> omega

/-- The clamped count of a read of the whole space, inside and behind that space. -/
theorem clampCount_le (pos : Nat) : clampCount pos ≤ 128 - pos ∨ clampCount pos ≤ pos := by
  by_cases inside : pos ≤ PCI_CONFIG_SIZE
  · exact .inl (Nat.le_of_eq (clampCount_inside inside))
  · right
    by_cases near : pos < 2 ^ 31
    · unfold PCI_CONFIG_SIZE at inside
      simp only [clampCount, clamped_difference near]
      split <;> omega
    · have size : Int.bmod ((PCI_CONFIG_SIZE : Int) - pos) (2 ^ 32) < (2 ^ 32 + 1) / 2 :=
        Int.bmod_lt (by decide)
      simp only [clampCount]
      split <;> omega

end

/-- A file of the node with the given number, of the first device. -/
def nodeFile (devId : Nat) (bar : Int) : XgpuCdev :=
  ⟨some ⟨0, 0⟩, mkdev 240 devId, true, none, bar, .real⟩

def ample : UserBuf := ⟨fun _ => 0, 4096, 4096⟩

end PcieUtil.Driver.Transfers
