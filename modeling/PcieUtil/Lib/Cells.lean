import Mathlib.Data.List.Basic
import Mathlib.Logic.Function.Basic

/-! A memory of cells, as the accesses to it see it. A write may have an effect of its own on each cell;
a plain cell is one that holds what is written to it. -/

namespace PcieUtil.Lib.Cells

variable {κ ν : Type} [DecidableEq κ]

inductive Access (κ ν : Type) where
  | read (cell : κ)
  | write (cell : κ) (value : ν)
deriving DecidableEq

def Access.cell : Access κ ν → κ
  | .read cell => cell
  | .write cell _ => cell

/-- The memory behind an access, when writes have the given effect. -/
def Access.apply (effect : (κ → ν) → κ → ν → κ → ν) (mem : κ → ν) : Access κ ν → κ → ν
  | .read _ => mem
  | .write cell value => effect mem cell value

/-- What an access writes to a cell. -/
def Access.writes (cell : κ) : Access κ ν → Option ν
  | .read _ => none
  | .write other value => if other = cell then some value else none

/-- The memory behind a list of accesses. -/
def store (effect : (κ → ν) → κ → ν → κ → ν) (mem : κ → ν) (accesses : List (Access κ ν)) : κ → ν :=
  accesses.foldl (Access.apply effect) mem

/-- A write to one of the given cells shows in this cell when it is its own, and only then. -/
def PlainCell (effect : (κ → ν) → κ → ν → κ → ν) (among : κ → Prop) (cell : κ) : Prop :=
  ∀ mem other value, among other → effect mem other value cell = if other = cell then value else mem cell

section
variable {effect : (κ → ν) → κ → ν → κ → ν} {among : κ → Prop} {cell : κ}

omit [DecidableEq κ] in
theorem store_append (mem : κ → ν) (before after : List (Access κ ν)) :
    store effect mem (before ++ after) = store effect (store effect mem before) after := List.foldl_append

theorem apply_writes (plain : PlainCell effect among cell) (mem : κ → ν) {access : Access κ ν}
    (inside : among access.cell) : access.apply effect mem cell = (access.writes cell).getD (mem cell) := by
  cases access with
  | read other => rfl
  | write other value =>
    show effect mem other value cell = (if other = cell then some value else none).getD (mem cell)
    rw [plain mem other value inside]
    split_ifs <;> rfl

/-- A plain cell holds what has been written to it last. -/
theorem store_last (plain : PlainCell effect among cell) (mem : κ → ν) {accesses : List (Access κ ν)}
    (inside : ∀ access ∈ accesses, among access.cell) :
    store effect mem accesses cell = (accesses.filterMap (Access.writes cell)).getLastD (mem cell) := by
  induction accesses generalizing mem with
  | nil => rfl
  | cons access accesses ih =>
    obtain ⟨first, rest⟩ := List.forall_mem_cons.mp inside
    show store effect (access.apply effect mem) accesses cell = _
    rw [ih _ rest, apply_writes plain mem first, List.filterMap_cons]
    cases access.writes cell with
    | none => rfl
    | some value => exact List.getLastD_cons.symm

/-- What a plain cell holds depends on no other cell. -/
theorem store_congr (plain : PlainCell effect among cell) {mem mem' : κ → ν} (same : mem cell = mem' cell)
    {accesses : List (Access κ ν)} (inside : ∀ access ∈ accesses, among access.cell) :
    store effect mem accesses cell = store effect mem' accesses cell := by
  rw [store_last plain mem inside, store_last plain mem' inside, same]

end

end PcieUtil.Lib.Cells
