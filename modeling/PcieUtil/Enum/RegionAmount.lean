import Mathlib.Data.Finset.Card
import Mathlib.Data.Finset.Range
import Mathlib.Order.Nat
import PcieUtil.Lib.Numerals

/-! Counting the regions of a device by probing the names of its sysfs files.
A `std::string` is the list of its characters; the file system is the predicate
`std::filesystem::exists` answers, and does not change while the loop runs. -/

namespace PcieUtil.Enum.RegionAmount
open Lib.Numerals

/-- The largest `int`. Going past it is undefined, and the model stops with `none`. -/
abbrev intMax : Int := 2147483647

/-- The loop of `aaa`: the digit is put in front of `temp` before the division,
and the exit test comes after it. -/
def aaaLoop (number : Int) (temp : List Char) : List Char :=
  let t := Char.ofNat (number.tmod 10 + 48).toNat
  let temp := t :: temp
  if number.tdiv 10 = 0 then temp else aaaLoop (number.tdiv 10) temp
termination_by number.natAbs
decreasing_by
  have nonzero : number ≠ 0 := by
    intro zero
    simp_all
  rw [Int.natAbs_tdiv]
  exact Nat.div_lt_self (by omega) (by decide)

def aaa (content : List Char) (number : Int) : List Char :=
  content ++ aaaLoop number []

/-- `regionPath` of `getPciDeviceRegionAmount`. -/
def regionPath (deviceAddress : List Char) : List Char :=
  "/sys/bus/pci/devices/".toList ++ deviceAddress ++ "/resource".toList

/-- The loop `while (exists(P))`, from the values of its variables. -/
def probe (exist : List Char → Bool) (regionPath P : List Char) (regionAmount : Int) :
    Option Int :=
  if exist P then
    if regionAmount < intMax then
      probe exist regionPath (aaa regionPath regionAmount) (regionAmount + 1)
    else none
  else some regionAmount
termination_by (intMax - regionAmount).toNat

def getPciDeviceRegionAmount (exist : List Char → Bool) (deviceAddress : List Char) :
    Option Int :=
  (probe exist (regionPath deviceAddress) (regionPath deviceAddress) 0).map (· - 1)

/-! The suffix is the decimal numeral. -/

private theorem digit_char : ∀ digit < 10, Char.ofNat (digit + 48) = digit.digitChar := by
  decide

theorem aaaLoop_digits (number : Nat) (temp : List Char) :
    aaaLoop number temp = Nat.toDigits 10 number ++ temp := by
  induction number using Nat.strongRecOn generalizing temp with
  | ind number earlier =>
    have digit : Char.ofNat ((number : Int).tmod 10 + 48).toNat = (number % 10).digitChar := by
      have value : ((number : Int).tmod 10 + 48).toNat = number % 10 + 48 := by
        rw [Int.tmod_eq_emod_of_nonneg (by omega)]
        omega
      rw [value]
      exact digit_char _ (Nat.mod_lt _ (by decide))
    have quotient : (number : Int).tdiv 10 = ((number / 10 : Nat) : Int) := by
      rw [Int.tdiv_eq_ediv_of_nonneg (by omega)]
      rfl
    rw [aaaLoop, digit, quotient]
    by_cases single : number / 10 = 0
    · have below : number < 10 := by omega
      rw [if_pos (by exact_mod_cast single), Nat.toDigits_of_lt_base below, Nat.mod_eq_of_lt below]
      rfl
    · have split : Nat.toDigits 10 number =
          Nat.toDigits 10 (number / 10) ++ [(number % 10).digitChar] :=
        Nat.toDigits_of_base_le (by decide) (by omega)
      rw [if_neg (by exact_mod_cast single), earlier _ (by omega), split, List.append_assoc]
      rfl

theorem aaa_digits (content : List Char) (number : Nat) :
    aaa content number = content ++ Nat.toDigits 10 number := by
  rw [aaa, aaaLoop_digits, List.append_nil]

/-! Which files the loop finds. -/

/-- The device's directory has `resource`, and `resource<i>` exactly for the `i` of `regions`. -/
structure Directory (exist : List Char → Bool) (deviceAddress : List Char)
    (regions : Finset Nat) : Prop where
  resource : exist (regionPath deviceAddress) = true
  region : ∀ i, exist (regionPath deviceAddress ++ Nat.toDigits 10 i) = true ↔ i ∈ regions

variable {exist : List Char → Bool} {deviceAddress : List Char} {regions : Finset Nat}

/-- The paths the loop asks for are those of the region files. -/
theorem Directory.asks (files : Directory exist deviceAddress regions) (i : Nat) :
    exist (aaa (regionPath deviceAddress) i) = true ↔ i ∈ regions := by
  rw [aaa_digits]
  exact files.region i

/-- One round: with `resource<i>` there the loop asks for the next one. -/
theorem probe_present (files : Directory exist deviceAddress regions) {i : Nat}
    (present : i ∈ regions) (room : (i : Int) + 1 < intMax) :
    probe exist (regionPath deviceAddress) (aaa (regionPath deviceAddress) i) (i + 1) =
      probe exist (regionPath deviceAddress) (aaa (regionPath deviceAddress) (i + 1 : Nat))
        ((i + 1 : Nat) + 1) := by
  rw [probe, if_pos ((files.asks i).mpr present), if_pos room]
  rfl

theorem probe_stops (files : Directory exist deviceAddress regions) {gap : Nat}
    (before : ∀ i < gap, i ∈ regions) (missing : gap ∉ regions) (room : (gap : Int) < intMax)
    (i : Nat) (reached : i ≤ gap) :
    probe exist (regionPath deviceAddress) (aaa (regionPath deviceAddress) i) (i + 1) =
      some ((gap : Int) + 1) := by
  induction reached using Nat.decreasingInduction with
  | self => rw [probe, if_neg fun found => missing ((files.asks gap).mp found)]
  | of_succ i below later => rw [probe_present files (before i below) (by omega), later]

theorem probe_overflows (files : Directory exist deviceAddress regions)
    (all : ∀ i : Nat, (i : Int) < intMax → i ∈ regions) (i : Nat) (reached : (i : Int) < intMax) :
    probe exist (regionPath deviceAddress) (aaa (regionPath deviceAddress) i) (i + 1) = none := by
  have limit : intMax = 2147483647 := rfl
  have bound : i ≤ 2147483646 := by omega
  induction bound using Nat.decreasingInduction with
  | self =>
    have last : 2147483646 ∈ regions := all _ (by decide)
    rw [probe, if_pos ((files.asks _).mpr last), if_neg (by decide)]
  | of_succ i below later =>
    rw [probe_present files (all i (by omega)) (by omega)]
    exact later (by omega)

/-- With `resource` there the loop goes on to `resource0`. -/
theorem regionAmount_first (files : Directory exist deviceAddress regions) :
    getPciDeviceRegionAmount exist deviceAddress =
      (probe exist (regionPath deviceAddress) (aaa (regionPath deviceAddress) (0 : Nat))
        ((0 : Nat) + 1)).map (· - 1) := by
  rw [getPciDeviceRegionAmount, probe, if_pos files.resource, if_pos (by decide)]
  rfl

/-- The amount is the least number whose file is missing, when it fits the counter. -/
theorem regionAmount_gap (files : Directory exist deviceAddress regions) {gap : Nat}
    (before : ∀ i < gap, i ∈ regions) (missing : gap ∉ regions) (room : (gap : Int) < intMax) :
    getPciDeviceRegionAmount exist deviceAddress = some (gap : Int) := by
  rw [regionAmount_first files, probe_stops files before missing room 0 (Nat.zero_le gap)]
  simp

theorem regionAmount_overflows (files : Directory exist deviceAddress regions)
    (all : ∀ i : Nat, (i : Int) < intMax → i ∈ regions) :
    getPciDeviceRegionAmount exist deviceAddress = none := by
  rw [regionAmount_first files, probe_overflows files all 0 (by decide)]
  rfl

theorem regionAmount_absent (absent : exist (regionPath deviceAddress) = false) :
    getPciDeviceRegionAmount exist deviceAddress = some (-1) := by
  rw [getPciDeviceRegionAmount, probe, absent]
  rfl

/-- A finite set misses a number no larger than its size. -/
theorem gap_exists (regions : Finset Nat) : ∃ gap, (∀ i < gap, i ∈ regions) ∧ gap ∉ regions := by
  have some_missing : ∃ gap, gap ∉ regions := by
    by_contra none_missing
    push Not at none_missing
    have inside : Finset.range (regions.card + 1) ⊆ regions := fun i _ => none_missing i
    have size := Finset.card_le_card inside
    rw [Finset.card_range] at size
    omega
  refine ⟨Nat.find some_missing, ?_, Nat.find_spec some_missing⟩
  intro i below
  exact not_not.mp (Nat.find_min some_missing below)

/-- No gap: the numbers are `0, 1, …, |regions| - 1`. -/
abbrev Gapless (regions : Finset Nat) : Prop := ∀ i, i ∈ regions ↔ i < regions.card

theorem gapless_of_card (before : ∀ i < regions.card, i ∈ regions) : Gapless regions := by
  have inside : Finset.range regions.card ⊆ regions := by
    intro i below
    exact before i (Finset.mem_range.mp below)
  have same : Finset.range regions.card = regions :=
    Finset.eq_of_subset_of_card_le inside (Finset.card_range _).ge
  intro i
  calc
    i ∈ regions ↔ i ∈ Finset.range regions.card := by rw [same]
    _ ↔ i < regions.card := Finset.mem_range

/-- The file system of one device with the given regions. -/
def sysfs (deviceAddress : List Char) (regions : Finset Nat) (path : List Char) : Bool :=
  decide (path = regionPath deviceAddress ∨
    ∃ i ∈ regions, path = regionPath deviceAddress ++ Nat.toDigits 10 i)

theorem sysfs_directory (deviceAddress : List Char) (regions : Finset Nat) :
    Directory (sysfs deviceAddress regions) deviceAddress regions where
  resource := by simp [sysfs]
  region := by
    intro i
    have nonempty : Nat.toDigits 10 i ≠ [] := Nat.toDigits_ne_nil
    simp only [sysfs, decide_eq_true_eq, List.append_cancel_left_eq]
    constructor
    · intro either
      obtain empty | ⟨j, present, same⟩ := either
      · exact absurd (List.append_right_eq_self.mp empty) nonempty
      · rwa [toDigits_injective same]
    · exact fun present => .inr ⟨i, present, rfl⟩

/-- The loop counts the regions exactly when their numbers have no gap and the counter,
which runs one past them, does not overflow; without `resource` it answers -1. -/
theorem regionAmount_counts_iff (exist : List Char → Bool) (deviceAddress : List Char) :
    (∀ regions, Directory exist deviceAddress regions →
      (getPciDeviceRegionAmount exist deviceAddress = some (regions.card : Int) ↔
        Gapless regions ∧ (regions.card : Int) < intMax)) ∧
    (exist (regionPath deviceAddress) = false →
      getPciDeviceRegionAmount exist deviceAddress = some (-1)) := by
  refine ⟨?_, regionAmount_absent⟩
  intro regions files
  constructor
  · intro counted
    obtain ⟨gap, before, missing⟩ := gap_exists regions
    by_cases room : (gap : Int) < intMax
    · rw [regionAmount_gap files before missing room] at counted
      have size : gap = regions.card := by
        have same := Option.some.inj counted
        omega
      subst size
      exact ⟨gapless_of_card before, room⟩
    · have all : ∀ i : Nat, (i : Int) < intMax → i ∈ regions := by
        intro i below
        exact before i (by omega)
      rw [regionAmount_overflows files all] at counted
      exact absurd counted (by simp)
  · intro condition
    obtain ⟨gapless, room⟩ := condition
    have before : ∀ i < regions.card, i ∈ regions := fun i below => (gapless i).mpr below
    have missing : regions.card ∉ regions := fun found => lt_irrefl _ ((gapless _).mp found)
    exact regionAmount_gap files before missing room

theorem regionAmount_counts_iff_two :
    getPciDeviceRegionAmount (sysfs "0000:00:1f.2".toList {0, 1}) "0000:00:1f.2".toList = some 2 ∧
      getPciDeviceRegionAmount (fun _ => false) "0000:00:1f.2".toList = some (-1) := by
  have gapless : Gapless {0, 1} := by
    intro i
    simp only [Finset.mem_insert, Finset.mem_singleton, Finset.card_pair (by decide : (0 : Nat) ≠ 1)]
    omega
  exact ⟨((regionAmount_counts_iff _ _).1 {0, 1} (sysfs_directory _ _)).mpr ⟨gapless, by decide⟩,
    (regionAmount_counts_iff _ _).2 rfl⟩

/-- A 64-bit BAR takes two slots: regions 0 and 2, and the loop stops at `resource1`. -/
theorem gap_miscounted :
    Directory (sysfs "0000:00:1f.2".toList {0, 2}) "0000:00:1f.2".toList {0, 2} ∧
      getPciDeviceRegionAmount (sysfs "0000:00:1f.2".toList {0, 2}) "0000:00:1f.2".toList = some 1 ∧
      ({0, 2} : Finset Nat).card = 2 := by
  have files := sysfs_directory "0000:00:1f.2".toList {0, 2}
  have before : ∀ i < 1, i ∈ ({0, 2} : Finset Nat) := by decide
  exact ⟨files, regionAmount_gap files before (by decide) (by decide), rfl⟩

end PcieUtil.Enum.RegionAmount
