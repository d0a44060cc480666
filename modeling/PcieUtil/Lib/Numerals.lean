import Mathlib.Data.List.Nodup

/-! Decimal numerals, and the names that are numbered with them. -/

namespace PcieUtil.Lib.Numerals

/-- The decimal numeral of n: digits only, no leading zero unless it is 0, and read back as n. -/
structure Canonical (numeral : List Char) (n : Nat) : Prop where
  nonempty : numeral ≠ []
  digits : ∀ c ∈ numeral, c.isDigit = true
  leading : numeral.head? = some '0' → numeral = ['0']
  value : Nat.ofDigitChars 10 numeral 0 = n

theorem toDigits_head {n : Nat} (positive : 0 < n) : (Nat.toDigits 10 n).head? ≠ some '0' := by
  induction n using Nat.strongRecOn with
  | ind n earlier =>
    by_cases single : n < 10
    · rw [Nat.toDigits_of_lt_base single, List.head?_cons, ne_eq, Option.some.injEq,
        Nat.digitChar_eq_zero]
      omega
    · have front : Nat.toDigits 10 (n / 10) ≠ [] := Nat.toDigits_ne_nil
      have quotient := earlier (n / 10) (by omega) (by omega)
      rwa [Nat.toDigits_of_base_le (by decide) (by omega), List.head?_append_of_ne_nil _ front]

theorem toDigits_canonical (n : Nat) : Canonical (Nat.toDigits 10 n) n where
  nonempty := Nat.toDigits_ne_nil
  digits := fun _ member => Nat.isDigit_of_mem_toDigits (by decide) (by decide) member
  leading := by
    intro zero
    cases n with
    | zero => rfl
    | succ n => exact absurd zero (toDigits_head n.succ_pos)
  value := Nat.ofDigitChars_ten_toDigits

theorem toDigits_injective {i j : Nat} (same : Nat.toDigits 10 i = Nat.toDigits 10 j) : i = j := by
  have parsed := congrArg (fun numeral => Nat.ofDigitChars 10 numeral 0) same
  simpa using parsed

/-- A stem with a number behind it. -/
def numbered (stem : List Char) (n : Nat) : List Char := stem ++ Nat.toDigits 10 n

theorem numbered_inj {stem : List Char} {i j : Nat} : numbered stem i = numbered stem j ↔ i = j := by
  constructor
  · intro same
    exact toDigits_injective (List.append_cancel_left same)
  · intro same
    rw [same]

/-- The stem itself is no numbered name. -/
theorem numbered_ne_stem (stem : List Char) (n : Nat) : numbered stem n ≠ stem := by
  intro same
  exact Nat.toDigits_ne_nil (List.append_right_eq_self.mp same)

/-- The stem and its names from one number on are pairwise different. -/
theorem stem_numbered_nodup (stem : List Char) (start count : Nat) :
    (stem :: (List.range' start count).map (numbered stem)).Nodup := by
  apply List.nodup_cons.mpr
  constructor
  · intro member
    obtain ⟨n, _, same⟩ := List.mem_map.mp member
    exact numbered_ne_stem stem n same
  · exact List.Nodup.map (fun _ _ same => numbered_inj.mp same) List.nodup_range'

end PcieUtil.Lib.Numerals
