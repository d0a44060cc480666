import PcieUtil.Enum.PciTree
import PcieUtil.Enum.RegionAmount
import PcieUtil.Lib.Strtol

/-! The files of sysfs that the constructors of `pci_device` and `pci_tree` read. A numeral that
`std::stoi` does not take ends the tool, as nothing catches the exception. -/

namespace PcieUtil.Enum.DeviceFiles
open Lib.Bytes Lib.Strtol PciTree RegionAmount

inductive Thrown where
  | invalidArgument
  | outOfRange
  | filesystemError
  | cmdlineError
  deriving DecidableEq, Repr

/-- How a run ends before `main` returns. -/
inductive Stop where
  | thrown (exception : Thrown)
  | undefined
  | exits (code : Nat)
  deriving DecidableEq, Repr

/-- What the tool finds; it does not change during a run. -/
structure Sysfs where
  /-- The entries of the directory of the devices, as the iterator gives them, if it is there. -/
  entries : Option (List (List Char))
  /-- The text of a file that can be opened. -/
  text : List Char → Option (List Char)
  /-- The bytes of a file, none when it cannot be opened. -/
  bytes : List Char → List Byte
  exist : List Char → Bool

/-- `std::stoi(s, nullptr, 0)` -/
def stoi (s : List Char) : Except Thrown Int :=
  match strtol s with
  | none => .error .invalidArgument
  | some val => if -intMax - 1 ≤ val ∧ val ≤ intMax then .ok val else .error .outOfRange

/-- `getline`, which leaves the string empty when the file is not open. -/
def getline (file : Option (List Char)) : List Char := (file.getD []).takeWhile (· ≠ '\n')

def getFileContext (fs : Sysfs) (filePath fileName : List Char) : Except Thrown (BitVec 32) := do
  let val ← stoi (getline (fs.text (filePath ++ "/".toList ++ fileName)))
  return BitVec.ofInt 32 val

def getFileContext3 (fs : Sysfs) (filePath fileName : List Char) : List Byte :=
  fs.bytes (filePath ++ "/".toList ++ fileName)

/-- `class pci_device`; the name and the config space are those of the device in the tree. -/
structure Device where
  dev : PciDevice
  deviceId : BitVec 32
  vendorId : BitVec 32
  classId : BitVec 32
  regionAmount : BitVec 32

/-- The constructor. -/
def pciDevice (fs : Sysfs) (filePath : List Char) : Except Stop Device := do
  let deviceId ← (getFileContext fs filePath "device".toList).mapError .thrown
  let vendorId ← (getFileContext fs filePath "vendor".toList).mapError .thrown
  let classId ← (getFileContext fs filePath "class".toList).mapError .thrown
  let dev : PciDevice := ⟨filePath, getFileContext3 fs filePath "config".toList⟩
  match getPciDeviceRegionAmount fs.exist dev.pciName with
  | none => .error .undefined
  | some amount => return ⟨dev, deviceId, vendorId, classId, BitVec.ofInt 32 amount⟩

/-- The constructor of `pci_tree`. -/
def deviceList (fs : Sysfs) : Except Stop (List Device) :=
  match fs.entries with
  | none => .error (.thrown .filesystemError)
  | some entries => (enumeration "/sys/bus/pci/devices".toList entries).mapM (pciDevice fs)

/-! The numerals of sysfs. -/

/-- `%0<width>x` with `0x` in front. -/
def hexText (width n : Nat) : List Char := "0x".toList ++ (Nat.toDigits 16 n).leftpad width '0'

theorem hexText_unbroken (width n : Nat) : '\n' ∉ hexText width n := by
  obtain ⟨digits, _, _, written, _⟩ := exists_digits (by decide : 1 < 16) n
  rw [hexText, List.leftpad, written]
  intro found
  simp only [List.mem_append, List.mem_replicate, List.mem_map] at found
  rcases found with front | zero | ⟨d, _, same⟩
  · exact absurd front (by decide)
  · exact absurd zero.2 (by decide)
  · exact Nat.digitChar_ne '\n' (by decide) same

/-- A hexadecimal number is read back when it fits an `int`. Others are no negative numbers but end
the tool. -/
theorem getFileContext_hex {fs : Sysfs} {filePath fileName : List Char} {width n : Nat} {more : List Char}
    (file : fs.text (filePath ++ "/".toList ++ fileName) = some (hexText width n ++ '\n' :: more)) :
    getFileContext fs filePath fileName =
      if n < 2 ^ 31 then .ok (BitVec.ofNat 32 n) else .error .outOfRange := by
  have line : getline (some (hexText width n ++ '\n' :: more)) = hexText width n := by
    have unbroken : ∀ c ∈ hexText width n, decide (c ≠ '\n') = true :=
      fun c among => decide_eq_true fun same => hexText_unbroken width n (same ▸ among)
    rw [getline, Option.getD_some, List.takeWhile_append_of_pos unbroken]
    exact List.append_nil _
  have value : strtol (hexText width n) = some (n : Int) := by
    have ends : Ends 16 [] := fun c first => nomatch first
    have read := strtol_hex ends (width - (Nat.toDigits 16 n).length) n
    rwa [List.append_nil, List.append_assoc] at read
  have limit : intMax = 2147483647 := rfl
  rw [getFileContext, file, line, stoi, value]
  dsimp only
  by_cases fits : n < 2 ^ 31
  · rw [if_pos fits, if_pos (by omega)]
    exact congrArg Except.ok (BitVec.ofInt_natCast 32 n)
  · rw [if_neg fits, if_neg (by omega)]
    rfl

/-! What the kernel has in the files. -/

structure Board where
  name : List Char
  device : BitVec 16
  vendor : BitVec 16
  classCode : BitVec 24
  config : List Byte
  /-- The numbers of its region files, and the least number that is not among them. -/
  regions : Finset Nat
  amount : Nat

def Board.path (b : Board) : List Char := "/sys/bus/pci/devices".toList ++ '/' :: b.name

/-- sysfs with the files of some boards. -/
structure Serves (fs : Sysfs) (boards : List Board) : Prop where
  entries : fs.entries = some (boards.map Board.name)
  device : ∀ b ∈ boards, fs.text (b.path ++ "/device".toList) = some (hexText 4 b.device.toNat ++ ['\n'])
  vendor : ∀ b ∈ boards, fs.text (b.path ++ "/vendor".toList) = some (hexText 4 b.vendor.toNat ++ ['\n'])
  classCode : ∀ b ∈ boards, fs.text (b.path ++ "/class".toList) = some (hexText 6 b.classCode.toNat ++ ['\n'])
  config : ∀ b ∈ boards, fs.bytes (b.path ++ "/config".toList) = b.config
  regions : ∀ b ∈ boards, Directory fs.exist b.name b.regions
  before : ∀ b ∈ boards, ∀ i < b.amount, i ∈ b.regions
  missing : ∀ b ∈ boards, b.amount ∉ b.regions
  room : ∀ b ∈ boards, (b.amount : Int) < intMax

/-- A board as the tool holds it. -/
def Board.read (b : Board) : Device :=
  ⟨⟨b.path, b.config⟩, b.device.zeroExtend 32, b.vendor.zeroExtend 32, b.classCode.zeroExtend 32, BitVec.ofNat 32 b.amount⟩

theorem getFileContext_word {fs : Sysfs} {filePath fileName : List Char} {width w : Nat} {v : BitVec w} (small : w < 32)
    (file : fs.text (filePath ++ ("/".toList ++ fileName)) = some (hexText width v.toNat ++ ['\n'])) :
    getFileContext fs filePath fileName = .ok (v.zeroExtend 32) := by
  rw [← List.append_assoc] at file
  have fits : v.toNat < 2 ^ 31 := Nat.lt_of_lt_of_le v.isLt (Nat.pow_le_pow_right (by decide) (by omega))
  rw [getFileContext_hex file, if_pos fits]
  exact congrArg Except.ok (BitVec.ofNat_toNat 32 v)

theorem Board.pciName (b : Board) : b.read.dev.pciName = b.name := rfl

theorem regionAmount_serves {fs : Sysfs} {boards : List Board} (serves : Serves fs boards) {b : Board}
    (among : b ∈ boards) : getPciDeviceRegionAmount fs.exist b.name = some (b.amount : Int) :=
  regionAmount_gap (serves.regions b among) (serves.before b among) (serves.missing b among) (serves.room b among)

theorem pciDevice_serves {fs : Sysfs} {boards : List Board} (serves : Serves fs boards) {b : Board}
    (among : b ∈ boards) : pciDevice fs b.path = .ok b.read := by
  have deviceId : getFileContext fs b.path "device".toList = .ok (b.device.zeroExtend 32) :=
    getFileContext_word (by decide) (serves.device b among)
  have vendorId : getFileContext fs b.path "vendor".toList = .ok (b.vendor.zeroExtend 32) :=
    getFileContext_word (by decide) (serves.vendor b among)
  have classId : getFileContext fs b.path "class".toList = .ok (b.classCode.zeroExtend 32) :=
    getFileContext_word (by decide) (serves.classCode b among)
  have config : getFileContext3 fs b.path "config".toList = b.config := by
    rw [getFileContext3, List.append_assoc]
    exact serves.config b among
  have amount : getPciDeviceRegionAmount fs.exist (PciDevice.pciName ⟨b.path, b.config⟩) = some (b.amount : Int) :=
    regionAmount_serves serves among
  rw [pciDevice, deviceId, vendorId, classId, config]
  change (match getPciDeviceRegionAmount fs.exist (PciDevice.pciName ⟨b.path, b.config⟩) with
    | none => _ | some amount => _) = _
  rw [amount]
  exact congrArg (fun amount => Except.ok (Device.mk _ _ _ _ amount)) (BitVec.ofInt_natCast 32 b.amount)

/-- The tool has every board, with its numbers, in the order of the directory. -/
theorem deviceList_serves {fs : Sysfs} {boards : List Board} (serves : Serves fs boards) :
    deviceList fs = .ok (boards.map Board.read) := by
  have each (some_boards : List Board) (inside : ∀ b ∈ some_boards, b ∈ boards) :
      (some_boards.map Board.path).mapM (pciDevice fs) = .ok (some_boards.map Board.read) := by
    induction some_boards with
    | nil => rfl
    | cons b some_boards ih =>
      rw [List.map_cons, List.mapM_cons, pciDevice_serves serves (inside b List.mem_cons_self)]
      change (do let rest ← (some_boards.map Board.path).mapM (pciDevice fs); pure (b.read :: rest)) = _
      rw [ih fun other among => inside other (List.mem_cons_of_mem b among)]
      rfl
  rw [deviceList, serves.entries]
  change (enumeration "/sys/bus/pci/devices".toList (boards.map Board.name)).mapM (pciDevice fs) = _
  rw [enumeration, List.map_map]
  exact each boards fun _ among => among

/-! The files of any boards whose names are distinct and of one length. -/

/-- The board whose directory a path leads into. -/
def boardOf (boards : List Board) (path : List Char) : Option Board :=
  boards.find? fun b => b.path.isPrefixOf path

def Board.text (b : Board) (path : List Char) : Option (List Char) :=
  if path = b.path ++ "/device".toList then some (hexText 4 b.device.toNat ++ ['\n'])
  else if path = b.path ++ "/vendor".toList then some (hexText 4 b.vendor.toNat ++ ['\n'])
  else if path = b.path ++ "/class".toList then some (hexText 6 b.classCode.toNat ++ ['\n'])
  else none

def filesOf (boards : List Board) : Sysfs where
  entries := some (boards.map Board.name)
  text path := (boardOf boards path).bind fun b => b.text path
  bytes path := (boardOf boards path).elim [] fun b => if path = b.path ++ "/config".toList then b.config else []
  exist path := (boardOf boards path).any fun b => sysfs b.name b.regions path

section
variable {boards : List Board} {length : Nat}

theorem boardOf_path (sized : ∀ b ∈ boards, b.name.length = length) (distinct : (boards.map Board.name).Nodup)
    {b : Board} (among : b ∈ boards) (rest : List Char) : boardOf boards (b.path ++ rest) = some b := by
  have own : b.path.isPrefixOf (b.path ++ rest) = true := List.isPrefixOf_iff_prefix.mpr (List.prefix_append _ _)
  have some_board : (boardOf boards (b.path ++ rest)).isSome = true := by
    rw [boardOf, List.find?_isSome]
    exact ⟨b, among, own⟩
  obtain ⟨found, there⟩ := Option.isSome_iff_exists.mp some_board
  have listed := List.mem_of_find?_eq_some there
  have front : found.path <+: b.path ++ rest := by
    rw [boardOf] at there
    have leads := List.find?_some there
    exact List.isPrefixOf_iff_prefix.mp leads
  have same : found.path = b.path := by
    have lengths : found.path.length = b.path.length := by
      unfold Board.path
      rw [List.length_append, List.length_append, List.length_cons, List.length_cons, sized found listed,
        sized b among]
    have shared := List.prefix_of_prefix_length_le front (List.prefix_append _ _) (Nat.le_of_eq lengths)
    exact shared.eq_of_length lengths
  have name : found.name = b.name := (List.cons.inj (List.append_cancel_left same)).2
  rw [there, List.inj_on_of_nodup_map distinct listed among name]

/-- Such boards have files as `Serves` says. -/
theorem filesOf_serves (sized : ∀ b ∈ boards, b.name.length = length) (distinct : (boards.map Board.name).Nodup)
    (before : ∀ b ∈ boards, ∀ i < b.amount, i ∈ b.regions) (missing : ∀ b ∈ boards, b.amount ∉ b.regions)
    (room : ∀ b ∈ boards, (b.amount : Int) < intMax) : Serves (filesOf boards) boards := by
  have text {b : Board} (among : b ∈ boards) (rest : List Char) :
      (filesOf boards).text (b.path ++ rest) = b.text (b.path ++ rest) := by
    change (boardOf boards _).bind _ = _
    rw [boardOf_path sized distinct among, Option.bind_some]
  have exist {b : Board} (among : b ∈ boards) (rest : List Char) :
      (filesOf boards).exist (b.path ++ rest) = sysfs b.name b.regions (b.path ++ rest) := by
    change (boardOf boards _).any _ = _
    rw [boardOf_path sized distinct among, Option.any_some]
  have apart (b : Board) {first second : List Char} (differ : first ≠ second) : b.path ++ first ≠ b.path ++ second :=
    fun same => differ (List.append_cancel_left same)
  have under (b : Board) : regionPath b.name = b.path ++ "/resource".toList := by
    have closed : "/sys/bus/pci/devices/".toList = "/sys/bus/pci/devices".toList ++ ['/'] := rfl
    unfold regionPath Board.path
    rw [closed, List.append_assoc "/sys/bus/pci/devices".toList, List.singleton_append]
  refine ⟨rfl, fun b among => ?_, fun b among => ?_, fun b among => ?_, fun b among => ?_, fun b among => ?_,
    before, missing, room⟩
  · rw [text among, Board.text, if_pos rfl]
  · have device := apart b (show "/vendor".toList ≠ "/device".toList by decide)
    rw [text among, Board.text, if_neg device, if_pos rfl]
  · have device := apart b (show "/class".toList ≠ "/device".toList by decide)
    have vendor := apart b (show "/class".toList ≠ "/vendor".toList by decide)
    rw [text among, Board.text, if_neg device, if_neg vendor, if_pos rfl]
  · change (boardOf boards _).elim [] _ = _
    rw [boardOf_path sized distinct among, Option.elim_some, if_pos rfl]
  · have own := sysfs_directory b.name b.regions
    constructor
    · rw [under, exist among, ← under]
      exact own.resource
    · intro i
      rw [under, List.append_assoc, exist among, ← List.append_assoc, ← under]
      exact own.region i

end

end PcieUtil.Enum.DeviceFiles
