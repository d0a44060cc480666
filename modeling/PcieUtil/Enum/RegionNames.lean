import PcieUtil.Enum.RegionAmount

/-! The names that `aaa` makes, and the files that the counting loop asks for. -/

namespace PcieUtil.Enum.RegionNames
open Lib.Numerals RegionAmount

variable {exist : List Char → Bool}

/-- The loop of `getPciDeviceRegionAmount` together with the paths it has asked for, in order. -/
def probeAsking (exist : List Char → Bool) (regionPath P : List Char) (regionAmount : Int) :
    Option Int × List (List Char) :=
  if exist P then
    if regionAmount < intMax then
      let rest := probeAsking exist regionPath (aaa regionPath regionAmount) (regionAmount + 1)
      (rest.1, P :: rest.2)
    else (none, [P])
  else (some regionAmount, [P])
termination_by (intMax - regionAmount).toNat

/-- Keeping the paths does not change the loop. -/
theorem probeAsking_result (regionPath P : List Char) (regionAmount : Int) :
    (probeAsking exist regionPath P regionAmount).1 = probe exist regionPath P regionAmount := by
  induction P, regionAmount using probe.induct exist regionPath with
  | case1 P regionAmount found room rest =>
    rw [probeAsking, probe, if_pos found, if_pos room, if_pos found, if_pos room]
    exact rest
  | case2 P regionAmount found full =>
    rw [probeAsking, probe, if_pos found, if_neg full, if_pos found, if_neg full]
  | case3 P regionAmount missing =>
    rw [probeAsking, probe, if_neg missing, if_neg missing]

/-- The paths that `getPciDeviceRegionAmount` asks for. -/
def asked (exist : List Char → Bool) (deviceAddress : List Char) : List (List Char) :=
  (probeAsking exist (regionPath deviceAddress) (regionPath deviceAddress) 0).2

/-- One round asks for one path. -/
theorem probeAsking_round (regionPath P : List Char) (regionAmount : Int) :
    (probeAsking exist regionPath P regionAmount).2 =
      P :: if exist P = true ∧ regionAmount < intMax then
        (probeAsking exist regionPath (aaa regionPath regionAmount) (regionAmount + 1)).2
      else [] := by
  rw [probeAsking]
  by_cases found : exist P = true
  · by_cases room : regionAmount < intMax
    · rw [if_pos found, if_pos room, if_pos ⟨found, room⟩]
    · rw [if_pos found, if_neg room, if_neg fun both => room both.2]
  · rw [if_neg found, if_neg fun both => found both.1]

/-- From a region file on the loop asks for the next ones, one number after the other. -/
theorem asked_from (exist : List Char → Bool) (path : List Char) (left start : Nat)
    (counter : start + 1 + left = 2147483647) :
    ∃ count, (probeAsking exist path (aaa path start) (start + 1)).2 =
      (List.range' start count).map (numbered path) := by
  induction left generalizing start with
  | zero =>
    have full : ¬ (start : Int) + 1 < intMax := by
      unfold intMax
      omega
    refine ⟨1, ?_⟩
    rw [probeAsking_round, if_neg fun both => full both.2, aaa_digits]
    rfl
  | succ left later =>
    obtain ⟨count, rest⟩ := later (start + 1) (by omega)
    by_cases goes_on : exist (aaa path start) = true ∧ (start : Int) + 1 < intMax
    · refine ⟨count + 1, ?_⟩
      rw [probeAsking_round, if_pos goes_on, List.range'_succ, List.map_cons, ← rest, aaa_digits]
      rfl
    · refine ⟨1, ?_⟩
      rw [probeAsking_round, if_neg goes_on, aaa_digits]
      rfl

/-- `resource` first, and behind it the region files from number 0 on. -/
theorem asked_numbered (exist : List Char → Bool) (deviceAddress : List Char) :
    ∃ count, asked exist deviceAddress =
      regionPath deviceAddress :: (List.range' 0 count).map (numbered (regionPath deviceAddress)) := by
  unfold asked
  by_cases found : exist (regionPath deviceAddress) = true
  · obtain ⟨count, rest⟩ := asked_from exist (regionPath deviceAddress) 2147483646 0 rfl
    refine ⟨count, ?_⟩
    rw [probeAsking_round, if_pos ⟨found, by decide⟩, ← rest]
    rfl
  · refine ⟨0, ?_⟩
    rw [probeAsking_round, if_neg fun both => found both.1]
    rfl

/-- `aaa` puts the canonical numeral behind the text, so that different numbers give different
paths; the counting loop, whose result is the first component, asks for no path twice. -/
theorem region_names_canonical (content : List Char) (exist : List Char → Bool)
    (deviceAddress : List Char) :
    (∀ number : Nat, aaa content number = content ++ Nat.toDigits 10 number ∧
        Canonical (Nat.toDigits 10 number) number) ∧
      aaa content 0 = content ++ ['0'] ∧
      (∀ i j : Nat, aaa content i = aaa content j ↔ i = j) ∧
      (probeAsking exist (regionPath deviceAddress) (regionPath deviceAddress) 0).1.map (· - 1) =
        getPciDeviceRegionAmount exist deviceAddress ∧
      (asked exist deviceAddress).Nodup := by
  refine ⟨fun number => ⟨aaa_digits content number, toDigits_canonical number⟩,
    aaa_digits content 0, ?_, ?_, ?_⟩
  · intro i j
    rw [aaa_digits, aaa_digits]
    exact numbered_inj
  · rw [probeAsking_result, getPciDeviceRegionAmount]
  · obtain ⟨count, names⟩ := asked_numbered exist deviceAddress
    rw [names]
    exact stem_numbered_nodup (regionPath deviceAddress) 0 count

end PcieUtil.Enum.RegionNames
