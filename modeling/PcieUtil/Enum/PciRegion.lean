import PcieUtil.Enum.PciTree

/-! `read_region`: the byte dump of a config space and the listing of its regions. The
second loop runs one counter through all bytes; its conditions are evaluated as `int`s,
and `none` is an overflow. -/

namespace PcieUtil.Enum.PciRegion
open Lib.Bytes Lib.Lines PciTree

/-- The result of an `int` operation. -/
def int (value : Int) : Option Int :=
  if -2147483648 ≤ value ∧ value ≤ 2147483647 then some value else none

/-- `std::cout << std::bitset<8>(byte)`: the bits from the highest to the lowest. -/
def bitset (byte : Byte) : List Char :=
  (List.range 8).map fun b => if byte.getLsbD (7 - b) then '1' else '0'

/-- `std::cout << value` for an `int`. -/
def decimal : Int → List Char
  | .ofNat n => Nat.toDigits 10 n
  | .negSucc n => '-' :: Nat.toDigits 10 (n + 1)

/-- `pci_tree::getPciDevice`: what it writes, and the device. -/
def getPciDevice (devices : List PciDevice) (fileName : List Char) :
    List Char × Option PciDevice :=
  match devices.find? fun dev => dev.pciName == fileName with
  | some dev => ("success\n".toList, some dev)
  | none => ([], none)

/-- One round of the first loop, on the counter and the text so far. -/
def dumpByte (st : Int × List Char) (c : Byte) : Int × List Char :=
  let out := st.2 ++ bitset c ++ [' ']
  let i := st.1 + 1
  if i = 9 then (1, out ++ ['\n']) else (i, out)

/-- The byte dump with the line break behind it. -/
def byteDump (config : List Byte) : List Char :=
  (config.foldl dumpByte (1, [])).2 ++ ['\n']

structure Listing where
  i : Int
  regions : Int
  out : List Char

/-- `i <= base + region_amount * 4`. -/
def within (i base regionAmount : Int) : Option Bool := do
  let product ← int (regionAmount * 4)
  let bound ← int (base + product)
  return decide (i ≤ bound)

/-- The condition for printing the byte. -/
def printsByte (i regionAmount : Int) : Option Bool :=
  if i ≥ 18 then within i 17 regionAmount else some false

/-- What the conditions for the line break and for the label have in common. -/
def atRegion (i regionAmount : Int) : Option Bool :=
  if (i - 17).tmod 4 = 0 then within i 16 regionAmount else some false

/-- One round of the second loop. -/
def listByte (regionAmount : Int) (st : Listing) (r : Byte) : Option Listing := do
  let i ← int (st.i + 1)
  let prints ← printsByte i regionAmount
  let out := if prints then st.out ++ bitset r ++ [' '] else st.out
  let region ← atRegion i regionAmount
  let out := if region ∧ i ≥ 18 then out ++ ['\n'] else out
  if region ∧ i ≥ 17 then
    let label := "region".toList ++ decimal st.regions ++ ": ".toList
    let regions ← int (st.regions + 1)
    return ⟨i, regions, out ++ label⟩
  else return ⟨i, st.regions, out⟩

def listRegions (config : List Byte) (regionAmount : Int) : Option (List Char) := do
  let st ← config.foldlM (listByte regionAmount) ⟨1, 0, []⟩
  return st.out ++ ['\n']

def readRegion (devices : List PciDevice) (fileName : List Char) (regionAmount : Int) :
    Option (List Char) :=
  match getPciDevice devices fileName with
  | (written, none) => return written ++ "failed\n".toList
  | (written, some pciDevice) => do
    let listed ← listRegions pciDevice.config regionAmount
    return written ++ "Path: ".toList ++ fileName ++ " : \n".toList ++
      byteDump pciDevice.config ++ listed

theorem int_fits {value : Int} (low : -2147483648 ≤ value) (high : value ≤ 2147483647) :
    int value = some value := if_pos ⟨low, high⟩

/-! The second loop. Byte k is read with the counter at k + 1. -/

/-- The state before byte k, with m labels written. -/
abbrev before (k m : Nat) (out : List Char) : Listing := ⟨(k + 1 : Nat), m, out⟩

def label (m : Nat) : List Char := "region".toList ++ Nat.toDigits 10 m ++ ": ".toList

section
variable {r k m : Nat} {out : List Char} {byte : Byte}

theorem within_fits (room : 4 * r + 17 ≤ 2147483647) {i base : Int} (low : 0 ≤ base)
    (high : base ≤ 17) : within i base r = some (decide (i ≤ base + r * 4)) := by
  rw [within, int_fits (by omega) (by omega)]
  change (int (base + r * 4)).bind _ = _
  rw [int_fits (by omega) (by omega)]
  rfl

theorem printsByte_at (room : 4 * r + 17 ≤ 2147483647) :
    printsByte (k + 1 + 1 : Nat) r = some (decide (16 ≤ k ∧ k < 16 + 4 * r)) := by
  unfold printsByte
  split_ifs with late
  · rw [within_fits room (by decide) (by decide), Option.some.injEq, decide_eq_decide]
    omega
  · rw [Option.some.injEq, eq_comm, decide_eq_false_iff_not]
    omega

theorem atRegion_at (room : 4 * r + 17 ≤ 2147483647) :
    atRegion (k + 1 + 1 : Nat) r = some (decide (k % 4 = 3 ∧ k < 15 + 4 * r)) := by
  have multiple : (((k + 1 + 1 : Nat) : Int) - 17).tmod 4 = 0 ↔ k % 4 = 3 := by
    rw [← Int.dvd_iff_tmod_eq_zero]
    omega
  unfold atRegion
  split_ifs with aligned
  · rw [within_fits room (by decide) (by decide), Option.some.injEq, decide_eq_decide]
    have place := multiple.mp aligned
    omega
  · rw [Option.some.injEq, eq_comm, decide_eq_false_iff_not]
    exact fun place => aligned (multiple.mpr place.1)

/-- What a round does, by the place of the byte. -/
theorem listByte_round (room : 4 * r + 17 ≤ 2147483647) (count : k + 2 ≤ 2147483647)
    (labels : m + 1 ≤ 2147483647) :
    listByte r (before k m out) byte =
      let shown := if 16 ≤ k ∧ k < 16 + 4 * r then out ++ bitset byte ++ [' '] else out
      let closed := if (k % 4 = 3 ∧ k < 15 + 4 * r) ∧ 16 ≤ k then shown ++ ['\n'] else shown
      if (k % 4 = 3 ∧ k < 15 + 4 * r) ∧ 15 ≤ k then
        some (before (k + 1) (m + 1) (closed ++ label m))
      else some (before (k + 1) m closed) := by
  have next : int ((k + 1 : Nat) + 1) = some ((k + 1 + 1 : Nat) : Int) :=
    int_fits (by omega) (by omega)
  have more : int ((m : Int) + 1) = some ((m + 1 : Nat) : Int) := int_fits (by omega) (by omega)
  have broken : ((k + 1 + 1 : Nat) : Int) ≥ 18 ↔ 16 ≤ k := by omega
  have labelled : ((k + 1 + 1 : Nat) : Int) ≥ 17 ↔ 15 ≤ k := by omega
  simp only [listByte, next, printsByte_at room, atRegion_at room, more, Option.bind_eq_bind,
    Option.bind_some, decide_eq_true_eq, broken, labelled]
  rfl

/-- Bytes in front of the regions and behind them are passed over. -/
theorem listByte_passes (room : 4 * r + 17 ≤ 2147483647) (count : k + 2 ≤ 2147483647)
    (labels : m + 1 ≤ 2147483647) (outside : r = 0 ∨ k < 15 ∨ 16 + 4 * r ≤ k) :
    listByte r (before k m out) byte = some (before (k + 1) m out) := by
  rw [listByte_round room count labels]
  simp only
  rw [if_neg (by omega), if_neg (by omega), if_neg (by omega)]

theorem listByte_opens (room : 4 * r + 17 ≤ 2147483647) (some_region : 0 < r) :
    listByte r (before 15 0 out) byte = some (before 16 1 (out ++ label 0)) := by
  rw [listByte_round room (by decide) (by decide)]
  simp [some_region]

theorem listByte_shows (room : 4 * r + 17 ≤ 2147483647) (count : k + 2 ≤ 2147483647)
    (labels : m + 1 ≤ 2147483647) (inside : 16 ≤ k ∧ k < 16 + 4 * r)
    (region_goes_on : k % 4 ≠ 3 ∨ k = 15 + 4 * r) :
    listByte r (before k m out) byte =
      some (before (k + 1) m (out ++ (bitset byte ++ [' ']))) := by
  rw [listByte_round room count labels]
  simp only
  rw [if_neg (by omega), if_neg (by omega), if_pos inside, List.append_assoc]

theorem listByte_closes (room : 4 * r + 17 ≤ 2147483647) (count : k + 2 ≤ 2147483647)
    (labels : m + 1 ≤ 2147483647) (inside : 16 ≤ k ∧ k < 15 + 4 * r) (last : k % 4 = 3) :
    listByte r (before k m out) byte =
      some (before (k + 1) (m + 1) (out ++ (bitset byte ++ [' ']) ++ ['\n'] ++ label m)) := by
  rw [listByte_round room count labels]
  simp only
  rw [if_pos (by omega), if_pos (by omega), if_pos (by omega), List.append_assoc out]

/-- Several bytes outside the regions. -/
theorem passes (room : 4 * r + 17 ≤ 2147483647) (bytes : List Byte) (start regions : Nat)
    (text : List Char) (labels : regions + 1 ≤ 2147483647)
    (count : start + bytes.length + 1 ≤ 2147483647)
    (outside : r = 0 ∨ start + bytes.length ≤ 15 ∨ 16 + 4 * r ≤ start) :
    bytes.foldlM (listByte r) (before start regions text) =
      some (before (start + bytes.length) regions text) := by
  induction bytes generalizing start with
  | nil => rfl
  | cons byte bytes later =>
    rw [List.length_cons] at count outside
    have first : listByte r (before start regions text) byte =
        some (before (start + 1) regions text) :=
      listByte_passes room (by omega) labels (by omega)
    rw [List.foldlM_cons, first, Option.bind_eq_bind, Option.bind_some,
      later (start + 1) (by omega) (by omega), List.length_cons, Nat.add_right_comm, Nat.add_assoc]

/-- The bytes of a region but the last are only printed. -/
theorem shows_three (room : 4 * r + 17 ≤ 2147483647) (labels : m + 1 ≤ 2147483647)
    (aligned : k % 4 = 0) (inside : 16 ≤ k ∧ k + 4 ≤ 16 + 4 * r) (b0 b1 b2 : Byte) :
    [b0, b1, b2].foldlM (listByte r) (before k m out) =
      some (before (k + 3) m
        (out ++ (bitset b0 ++ [' ']) ++ (bitset b1 ++ [' ']) ++ (bitset b2 ++ [' ']))) := by
  simp only [List.foldlM_cons, List.foldlM_nil, Option.bind_eq_bind]
  rw [listByte_shows room (by omega) labels (by omega) (by omega), Option.bind_some,
    listByte_shows room (by omega) labels (by omega) (by omega), Option.bind_some,
    listByte_shows room (by omega) labels (by omega) (by omega)]
  rfl

end

/-! The listing as text. -/

/-- The binary form of a byte, with all its eight digits. -/
def binaryForm (byte : Byte) : List Char := (Nat.toDigits 2 byte.toNat).leftpad 8 '0'

theorem bitset_binaryForm : ∀ byte, bitset byte = binaryForm byte := by decide +kernel

/-- The four bytes from start on, each followed by a blank. -/
def shownBytes (config : List Byte) (start : Nat) : List Char :=
  (List.range 4).flatMap fun b => binaryForm (config.getD (start + b) 0) ++ [' ']

/-- The line of region j: its label and the bytes of its base address register. -/
def regionLine (config : List Byte) (j : Nat) : List Char :=
  label j ++ shownBytes config (16 + 4 * j)

/-- r lines, or one empty line when there is no region. -/
def regionText (config : List Byte) (r : Nat) : List Char :=
  if r = 0 then ['\n'] else (List.range r).flatMap fun j => regionLine config j ++ ['\n']

section
variable {config : List Byte} {r : Nat}

theorem slice_four {start : Nat} (inside : start + 4 ≤ config.length) :
    (config.drop start).take 4 = [config.getD start 0, config.getD (start + 1) 0,
      config.getD (start + 2) 0, config.getD (start + 3) 0] := by
  have slice : (config.drop start).take 4 =
      (List.range 4).map fun b => config.getD (start + b) 0 := by
    apply List.ext_getElem
    · simp
      omega
    · intro b within_slice _
      rw [List.length_take] at within_slice
      have bound : start + b < config.length := by omega
      simp [List.getElem?_eq_getElem bound]
  exact slice

theorem fourth_byte (f : Listing → Byte → Option Listing) (st : Listing) (b0 b1 b2 b3 : Byte) :
    [b0, b1, b2, b3].foldlM f st = ([b0, b1, b2].foldlM f st).bind fun st => f st b3 := by
  simp [Option.bind_assoc]

/-- From one label to the next. -/
theorem region_goes_on (room : 4 * r + 17 ≤ 2147483647) {j : Nat} (more : j + 1 < r)
    (enough : 16 + 4 * r ≤ config.length) (out : List Char) :
    ((config.drop (16 + 4 * j)).take 4).foldlM (listByte r) (before (16 + 4 * j) (j + 1) out) =
      some (before (16 + 4 * (j + 1)) (j + 1 + 1)
        (out ++ shownBytes config (16 + 4 * j) ++ ['\n'] ++ label (j + 1))) := by
  have place : 16 + 4 * j + 3 + 1 = 16 + 4 * (j + 1) := by omega
  rw [slice_four (by omega), fourth_byte, shows_three room (by omega) (by omega) (by omega),
    Option.bind_some, listByte_closes room (by omega) (by omega) (by omega) (by omega), place]
  simp [shownBytes, bitset_binaryForm, List.range_succ]

/-- The last region has no line break behind it. -/
theorem region_ends (room : 4 * r + 17 ≤ 2147483647) {j : Nat} (last : j + 1 = r)
    (enough : 16 + 4 * r ≤ config.length) (out : List Char) :
    ((config.drop (16 + 4 * j)).take 4).foldlM (listByte r) (before (16 + 4 * j) (j + 1) out) =
      some (before (16 + 4 * (j + 1)) (j + 1) (out ++ shownBytes config (16 + 4 * j))) := by
  have place : 16 + 4 * j + 3 + 1 = 16 + 4 * (j + 1) := by omega
  rw [slice_four (by omega), fourth_byte, shows_three room (by omega) (by omega) (by omega),
    Option.bind_some, listByte_shows room (by omega) (by omega) (by omega) (by omega), place]
  simp [shownBytes, bitset_binaryForm, List.range_succ]

theorem read_parts (f : Listing → Byte → Option Listing) (st : Listing) (bytes : List Byte)
    (start : Nat) :
    bytes.foldlM f st =
      ((bytes.take start).foldlM f st).bind fun st => (bytes.drop start).foldlM f st := by
  calc
    bytes.foldlM f st = (bytes.take start ++ bytes.drop start).foldlM f st := by
      rw [List.take_append_drop]
    _ = _ := List.foldlM_append

theorem read_slice (f : Listing → Byte → Option Listing) (st : Listing) (bytes : List Byte)
    (start count : Nat) :
    (bytes.take (start + count)).foldlM f st =
      ((bytes.take start).foldlM f st).bind fun st =>
        ((bytes.drop start).take count).foldlM f st := by
  rw [List.take_add, List.foldlM_append]
  rfl

/-- The bytes in front of the first region print its label. -/
theorem header_read (room : 4 * r + 17 ≤ 2147483647) (some_region : 0 < r)
    (enough : 16 + 4 * r ≤ config.length) :
    (config.take 16).foldlM (listByte r) (before 0 0 []) = some (before 16 1 (label 0)) := by
  have bound : 15 < config.length := by omega
  have header : (config.take 15).length = 15 := List.length_take_of_le (by omega)
  have quiet := passes room (config.take 15) 0 0 [] (by decide) (by omega) (by omega)
  have next : (config.drop 15).take 1 = [config[15]] := by
    simp [List.take_one, List.getElem?_eq_getElem bound]
  calc
    (config.take 16).foldlM (listByte r) (before 0 0 []) =
        ((config.take 15).foldlM (listByte r) (before 0 0 [])).bind fun st =>
          ((config.drop 15).take 1).foldlM (listByte r) st := read_slice _ _ config 15 1
    _ = [config[15]].foldlM (listByte r) (before 15 0 []) := by
      rw [quiet, next, header, Option.bind_some]
    _ = some (before 16 1 (label 0)) := by
      rw [List.foldlM_cons, listByte_opens room some_region]
      rfl

/-- With j regions printed, the label of the next one ends the text. -/
theorem regions_read (room : 4 * r + 17 ≤ 2147483647) (enough : 16 + 4 * r ≤ config.length)
    (j : Nat) (left : j < r) :
    (config.take (16 + 4 * j)).foldlM (listByte r) (before 0 0 []) =
      some (before (16 + 4 * j) (j + 1)
        (((List.range j).flatMap fun j => regionLine config j ++ ['\n']) ++ label j)) := by
  induction j with
  | zero => exact header_read room left enough
  | succ j earlier =>
    have place : 16 + 4 * (j + 1) = 16 + 4 * j + 4 := by omega
    have slice := read_slice (listByte r) (before 0 0 []) config (16 + 4 * j) 4
    rw [earlier (by omega), Option.bind_some, region_goes_on room left enough, ← place] at slice
    rw [slice, List.range_succ, List.flatMap_append]
    simp [regionLine]

/-- All bytes of a config space with its regions. -/
theorem config_read (short : config.length < 2147483647) {j : Nat}
    (enough : 16 + 4 * (j + 1) ≤ config.length) :
    config.foldlM (listByte (j + 1 : Nat)) (before 0 0 []) =
      some (before config.length (j + 1)
        (((List.range j).flatMap fun j => regionLine config j ++ ['\n']) ++ regionLine config j)) := by
  have room : 4 * (j + 1) + 17 ≤ 2147483647 := by omega
  have place : 16 + 4 * (j + 1) = 16 + 4 * j + 4 := by omega
  have last := read_slice (listByte (j + 1 : Nat)) (before 0 0 []) config (16 + 4 * j) 4
  rw [regions_read room enough j (by omega), Option.bind_some, region_ends room rfl enough,
    ← place, List.append_assoc] at last
  have behind : (config.drop (16 + 4 * (j + 1))).length = config.length - (16 + 4 * (j + 1)) :=
    List.length_drop
  rw [read_parts _ _ config (16 + 4 * (j + 1)), last, Option.bind_some,
    passes room _ _ _ _ (by omega) (by omega) (by omega), behind, Nat.add_sub_cancel' enough]
  rfl

theorem listRegions_text (short : config.length < 2147483647)
    (enough : 16 + 4 * r ≤ config.length) :
    listRegions config r = some (regionText config r) := by
  cases r with
  | zero =>
    have quiet := passes (by decide) config 0 0 [] (by decide) (by omega) (.inl rfl)
    change (config.foldlM (listByte (0 : Nat)) (before 0 0 [])).bind _ = _
    rw [quiet]
    rfl
  | succ j =>
    change (config.foldlM (listByte (j + 1 : Nat)) (before 0 0 [])).bind _ = _
    rw [config_read short enough, regionText, if_neg (Nat.succ_ne_zero j), List.range_succ,
      List.flatMap_append]
    simp

/-- The counter passes the largest `int` behind byte 2^31 - 2. -/
theorem listRegions_overflows (long : 2147483647 ≤ config.length) :
    listRegions config (0 : Nat) = none := by
  have bound : 2147483646 < config.length := by omega
  have front : (config.take 2147483646).length = 2147483646 := List.length_take_of_le (by omega)
  have quiet := passes (by decide) (config.take 2147483646) 0 0 [] (by decide) (by omega) (.inl rfl)
  rw [front] at quiet
  have overflow : int ((2147483646 + 1 : Nat) + 1) = none := if_neg (by decide)
  change (config.foldlM (listByte (0 : Nat)) (before 0 0 [])).bind _ = _
  rw [read_parts _ _ config 2147483646, quiet, Option.bind_some, Nat.zero_add,
    List.drop_eq_getElem_cons bound, List.foldlM_cons]
  simp only [listByte, overflow, Option.bind_eq_bind, Option.bind_none]

theorem digits_unbroken {base n : Nat} (binary_or_decimal : 0 < base ∧ base ≤ 10) :
    '\n' ∉ Nat.toDigits base n := by
  intro found
  have digit := Nat.isDigit_of_mem_toDigits binary_or_decimal.1 binary_or_decimal.2 found
  exact absurd digit (by decide)

theorem label_unbroken (m : Nat) : '\n' ∉ label m := by
  intro found
  rcases List.mem_append.mp found with front | colon
  · rcases List.mem_append.mp front with word | numeral
    · exact absurd word (by decide)
    · exact digits_unbroken (by decide) numeral
  · exact absurd colon (by decide)

theorem shownBytes_unbroken (config : List Byte) (start : Nat) : '\n' ∉ shownBytes config start := by
  intro found
  obtain ⟨b, _, shown⟩ := List.mem_flatMap.mp found
  have digits : '\n' ∉ Nat.toDigits 2 (config.getD (start + b) 0).toNat := digits_unbroken (by decide)
  have padded : '\n' ∉ binaryForm (config.getD (start + b) 0) := by
    rw [binaryForm, List.leftpad]
    simp only [List.mem_append, List.mem_replicate, not_or]
    exact ⟨fun zeros => absurd zeros.2 (by decide), digits⟩
  rcases List.mem_append.mp shown with form | blank
  · exact padded form
  · exact absurd blank (by decide)

theorem regionLine_unbroken (config : List Byte) (j : Nat) : '\n' ∉ regionLine config j := by
  intro found
  rcases List.mem_append.mp found with labelled | shown
  · exact label_unbroken j labelled
  · exact shownBytes_unbroken config (16 + 4 * j) shown

theorem regionText_lines (config : List Byte) (some_region : 0 < r) :
    lines (regionText config r) = (List.range r).map (regionLine config) := by
  have closed : regionText config r = ((List.range r).map (regionLine config)).flatMap (· ++ ['\n']) := by
    rw [regionText, if_neg (by omega), List.flatMap_map]
  rw [closed]
  apply lines_closed
  intro line found
  obtain ⟨j, _, same⟩ := List.mem_map.mp found
  rw [← same]
  exact regionLine_unbroken config j

end

/-- Behind the byte dump stand the lines of the regions, each with the bytes of its own register. -/
theorem readRegion_lists {devices : List PciDevice} {fileName : List Char} {device : PciDevice}
    (found : (getPciDevice devices fileName).2 = some device) {r : Nat}
    (enough : 16 + 4 * r ≤ device.config.length) (short : device.config.length < 2147483647) :
    readRegion devices fileName r =
        some ((getPciDevice devices fileName).1 ++ "Path: ".toList ++ fileName ++ " : \n".toList ++
          byteDump device.config ++ regionText device.config r) ∧
      (0 < r → lines (regionText device.config r) =
        (List.range r).map (regionLine device.config)) := by
  refine ⟨?_, regionText_lines device.config⟩
  have parts : getPciDevice devices fileName = ((getPciDevice devices fileName).1, some device) :=
    Prod.ext rfl found
  rw [readRegion, parts]
  simp only [listRegions_text short enough, Option.bind_eq_bind, Option.bind_some]
  rfl

/-- A device with the given config space. -/
abbrev deviceWith (config : List Byte) : PciDevice :=
  ⟨"/sys/bus/pci/devices/0000:00:1f.2".toList, config⟩

theorem getPciDevice_only (config : List Byte) :
    getPciDevice [deviceWith config] "0000:00:1f.2".toList =
      ("success\n".toList, some (deviceWith config)) := rfl

theorem readRegion_lists_two :
    readRegion [deviceWith ((List.range 24).map (BitVec.ofNat 8))] "0000:00:1f.2".toList 2 =
        some ("success\nPath: 0000:00:1f.2 : \n".toList ++
          byteDump ((List.range 24).map (BitVec.ofNat 8)) ++
          regionText ((List.range 24).map (BitVec.ofNat 8)) 2) ∧
      lines (regionText ((List.range 24).map (BitVec.ofNat 8)) 2) =
        ["region0: 00010000 00010001 00010010 00010011 ".toList,
          "region1: 00010100 00010101 00010110 00010111 ".toList] := by
  have found : (getPciDevice [deviceWith ((List.range 24).map (BitVec.ofNat 8))]
      "0000:00:1f.2".toList).2 = some (deviceWith ((List.range 24).map (BitVec.ofNat 8))) := rfl
  have listed := readRegion_lists (r := 2) found (by decide) (by decide)
  exact ⟨listed.1, (listed.2 (by decide)).trans (by decide)⟩

/-- 2^31 - 1 bytes overflow the counter, also without a region. -/
theorem long_config_overflows :
    (deviceWith (List.replicate 2147483647 0)).config.length = 2147483647 ∧
      readRegion [deviceWith (List.replicate 2147483647 0)] "0000:00:1f.2".toList (0 : Nat) =
        none := by
  have size : (List.replicate 2147483647 (0 : Byte)).length = 2147483647 := List.length_replicate
  refine ⟨size, ?_⟩
  rw [readRegion, getPciDevice_only]
  simp only [listRegions_overflows size.ge, Option.bind_eq_bind, Option.bind_none]

end PcieUtil.Enum.PciRegion
