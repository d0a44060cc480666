import Mathlib.Data.List.Basic

/-! Texts as the lines they consist of: a line ends at its line break, and a last
line without one counts as a line when it is not empty. -/

namespace PcieUtil.Lib.Lines

def lines : List Char → List (List Char)
  | [] => []
  | c :: rest =>
    if c = '\n' then [] :: lines rest
    else match lines rest with
      | [] => [[c]]
      | line :: more => (c :: line) :: more

theorem lines_line {line : List Char} (unbroken : '\n' ∉ line) (rest : List Char) :
    lines (line ++ '\n' :: rest) = line :: lines rest := by
  induction line with
  | nil => rfl
  | cons c line shorter =>
    have other : c ≠ '\n' := fun same => unbroken (same ▸ List.mem_cons_self)
    have tail := shorter (fun found => unbroken (List.mem_cons_of_mem _ found))
    rw [List.cons_append, lines, if_neg other, tail]

/-- Lines without breaks of their own, each closed by one, are read back. -/
theorem lines_closed {text : List (List Char)} (unbroken : ∀ line ∈ text, '\n' ∉ line) :
    lines (text.flatMap (· ++ ['\n'])) = text := by
  induction text with
  | nil => rfl
  | cons line text later =>
    have first := unbroken line List.mem_cons_self
    have others : ∀ other ∈ text, '\n' ∉ other :=
      fun other found => unbroken other (List.mem_cons_of_mem _ found)
    rw [List.flatMap_cons, List.append_assoc, List.singleton_append, lines_line first, later others]

end PcieUtil.Lib.Lines
