import Mathlib.Tactic.ByContra

/-! Scanning the set bits of a word from the lowest one on: the word of the bits that are
still pending, and the mask of the bit that is looked at. -/

namespace PcieUtil.Lib.BitScan

variable {w : Nat} {value pending : BitVec w} {i : Nat}

/-- The bits of value from i on. -/
def PendingFrom (value pending : BitVec w) (i : Nat) : Prop :=
  ∀ j, pending.getLsbD j = (decide (i ≤ j) && value.getLsbD j)

/-- The mask of one bit. -/
def maskOf (w i : Nat) : BitVec w := 1#w <<< i

theorem maskOf_succ (w i : Nat) : maskOf w i <<< 1 = maskOf w (i + 1) := by
  rw [maskOf, maskOf, BitVec.shiftLeft_add]

theorem maskOf_getLsbD (bound : i < w) (j : Nat) : (maskOf w i).getLsbD j = decide (i = j) := by
  rw [maskOf, ← BitVec.twoPow_eq, BitVec.getLsbD_twoPow]
  simp [bound]

theorem PendingFrom.start (value : BitVec w) : PendingFrom value value 0 := by
  intro j
  simp

/-- Nothing is pending behind an empty word. -/
theorem PendingFrom.rest_clear (from_i : PendingFrom value 0 i) {j : Nat} (behind : i ≤ j) :
    value.getLsbD j = false := by
  have bit := from_i j
  simpa [behind] using bit.symm

theorem PendingFrom.hit_iff (from_i : PendingFrom value pending i) (bound : i < w) :
    pending &&& maskOf w i ≠ 0 ↔ value.getLsbD i = true := by
  have here : pending.getLsbD i = value.getLsbD i := by
    rw [from_i i]
    simp
  constructor
  · intro some_bit
    by_contra unset
    have clear : value.getLsbD i = false := Bool.not_eq_true _ ▸ unset
    apply some_bit
    apply BitVec.eq_of_getLsbD_eq
    intro j _
    rw [BitVec.getLsbD_and, maskOf_getLsbD bound]
    by_cases same : i = j
    · subst same
      rw [here, clear]
      simp
    · simp [same]
  · intro set zero
    have bit := congrArg (fun v => BitVec.getLsbD v i) zero
    simp [maskOf_getLsbD bound, here, set] at bit

/-- Clearing the bit that was found. -/
theorem PendingFrom.cleared (from_i : PendingFrom value pending i) (bound : i < w) :
    PendingFrom value (pending &&& ~~~maskOf w i) (i + 1) := by
  intro j
  rw [BitVec.getLsbD_and, BitVec.getLsbD_not, maskOf_getLsbD bound, from_i j]
  by_cases inside : j < w
  · by_cases same : i = j
    · subst same
      have passed : ¬ i + 1 ≤ i := by omega
      simp [passed]
    · have order : i ≤ j ↔ i + 1 ≤ j := by omega
      simp [inside, same, order]
  · have outside : value.getLsbD j = false := BitVec.getLsbD_of_ge _ _ (by omega)
    simp [outside]

/-- Passing over a bit that is clear. -/
theorem PendingFrom.skipped (from_i : PendingFrom value pending i) (clear : value.getLsbD i = false) :
    PendingFrom value pending (i + 1) := by
  intro j
  rw [from_i j]
  by_cases same : i = j
  · subst same
    simp [clear]
  · have order : i ≤ j ↔ i + 1 ≤ j := by omega
    simp [order]

end PcieUtil.Lib.BitScan
