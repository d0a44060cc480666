import Mathlib.Logic.Function.Basic
import Mathlib.Data.List.Basic

/-! Circular doubly linked lists. The links of all entries are two maps, and an entry
that is taken out of its list keeps poison in its own links. -/

namespace PcieUtil.Lib.LinkedList

inductive Link (ε : Type) where
  | to (e : ε)
  | poison
  deriving DecidableEq

structure Links (ε : Type) where
  next : ε → Link ε
  prev : ε → Link ε

namespace Links

section
variable {ε : Type} {links changed : Links ε} {a b c e head : ε} {front back entries : List ε}

/-- a is followed by b. -/
def Joined (links : Links ε) (a b : ε) : Prop := links.next a = .to b ∧ links.prev b = .to a

/-- From a over the entries to b. -/
def Path (links : Links ε) (a : ε) : List ε → ε → Prop
  | [], b => links.Joined a b
  | e :: rest, b => links.Joined a e ∧ links.Path e rest b

/-- The ring of a head and its entries. -/
structure Represents (links : Links ε) (head : ε) (entries : List ε) : Prop where
  nodup : (head :: entries).Nodup
  path : links.Path head entries head

theorem path_append :
    links.Path a (front ++ e :: back) b ↔ links.Path a front e ∧ links.Path e back b := by
  induction front generalizing a with
  | nil => exact Iff.rfl
  | cons x front ih => rw [List.cons_append, Path, Path, ih, and_assoc]

theorem path_first (path : links.Path a entries b) :
    links.Joined a ((entries ++ [b]).head (by simp)) := by
  cases entries with
  | nil => exact path
  | cons e rest => exact path.1

theorem path_last (path : links.Path a entries b) :
    links.Joined ((a :: entries).getLast (by simp)) b := by
  induction entries generalizing a with
  | nil => exact path
  | cons e rest ih =>
    rw [List.getLast_cons (by simp)]
    exact ih path.2

/-- A path stays when the links inside it do. Its last entry may be joined to another one. -/
theorem path_retarget (path : links.Path a entries b)
    (next : ∀ x ∈ (a :: entries).dropLast, changed.next x = links.next x)
    (prev : ∀ x ∈ entries, changed.prev x = links.prev x)
    (joined : changed.Joined ((a :: entries).getLast (by simp)) c) : changed.Path a entries c := by
  induction entries generalizing a with
  | nil => exact joined
  | cons x rest ih =>
    obtain ⟨first, later⟩ := path
    have here : changed.next a = links.next a := next a (by simp)
    have back : changed.prev x = links.prev x := prev x (by simp)
    refine ⟨⟨here.trans first.1, back.trans first.2⟩, ih later ?_ ?_ ?_⟩
    · intro y member
      exact next y (by simp [member])
    · intro y member
      exact prev y (List.mem_cons_of_mem _ member)
    · rw [List.getLast_cons (by simp)] at joined
      exact joined

theorem Represents.next (ring : links.Represents head entries) :
    links.next head = .to (entries.headD head) := by
  have first := (path_first ring.path).1
  cases entries with
  | nil => exact first
  | cons e rest => exact first

/-- The path around an entry when the neighbours of that entry are joined. -/
theorem path_unlink {changed : Links ε} {before after : ε} (toE : links.Path head front e)
    (fromE : links.Path e back head) (nodup : (head :: front ++ e :: back).Nodup)
    (last : (head :: front).getLast (by simp) = before)
    (first : (back ++ [head]).head (by simp) = after) (joined : changed.Joined before after)
    (next : ∀ x, x ≠ before → x ≠ e → changed.next x = links.next x)
    (prev : ∀ x, x ≠ after → x ≠ e → changed.prev x = links.prev x) :
    changed.Path head (front ++ back) head := by
  obtain ⟨nodup_front, nodup_back, apart⟩ := List.nodup_append.mp nodup
  obtain ⟨absent, nodup_back⟩ := List.nodup_cons.mp nodup_back
  have head_front : head ∉ front := (List.nodup_cons.mp nodup_front).1
  have front_e : ∀ x ∈ head :: front, x ≠ e := fun x member => apart x member e List.mem_cons_self
  have front_back : ∀ x ∈ head :: front, ∀ y ∈ back, x ≠ y := fun x one y two =>
    apart x one y (List.mem_cons_of_mem _ two)
  have before_front : before ∈ head :: front := last ▸ List.getLast_mem _
  have last_once : ∀ x ∈ (head :: front).dropLast, x ≠ before := by
    intro x member
    have split := List.dropLast_append_getLast (l := head :: front) (by simp)
    rw [last] at split
    rw [← split] at nodup_front
    exact (List.nodup_append.mp nodup_front).2.2 x member before (List.mem_singleton.mpr rfl)
  have inner : ∀ x ∈ (head :: front).dropLast, changed.next x = links.next x := fun x member =>
    next x (last_once x member) (front_e x (List.dropLast_subset _ member))
  have joined_last : changed.Joined ((head :: front).getLast (by simp)) after := last.symm ▸ joined
  cases back with
  | nil =>
    have same : after = head := first.symm
    rw [List.append_nil]
    apply path_retarget toE inner _ (same ▸ joined_last)
    intro x member
    have other : x ≠ head := fun here => head_front (here ▸ member)
    exact prev x (same ▸ other) (front_e x (List.mem_cons_of_mem _ member))
  | cons n rest =>
    have same : n = after := first
    subst same
    have back_e : ∀ y ∈ n :: rest, y ≠ e := fun y member here => absent (here ▸ member)
    have head_n : head ≠ n := front_back head List.mem_cons_self n List.mem_cons_self
    have head_prev : changed.prev head = links.prev head :=
      prev head head_n (front_e head List.mem_cons_self)
    have back_next : ∀ y ∈ n :: rest, changed.next y = links.next y := fun y member =>
      next y (front_back before before_front y member).symm (back_e y member)
    have ends := path_last fromE.2
    rw [path_append]
    constructor
    · apply path_retarget toE inner _ joined_last
      intro x member
      have listed := List.mem_cons_of_mem head member
      exact prev x (front_back x listed n List.mem_cons_self) (front_e x listed)
    · apply path_retarget fromE.2
      · exact fun x member => back_next x (List.dropLast_subset _ member)
      · intro x member
        have other : x ≠ n := fun here => (List.nodup_cons.mp nodup_back).1 (here ▸ member)
        exact prev x other (back_e x (List.mem_cons_of_mem _ member))
      · exact ⟨(back_next _ (List.getLast_mem _)).trans ends.1, head_prev.trans ends.2⟩

end

section
variable {ε : Type} [DecidableEq ε] {links : Links ε} {e head : ε} {front back : List ε}

/-- Takes an entry out of its list; there is no result when a link of it is poison. -/
def delete (links : Links ε) (e : ε) : Option (Links ε) :=
  match links.prev e, links.next e with
  | .to before, .to after => some {
      next := Function.update (Function.update links.next before (.to after)) e .poison
      prev := Function.update (Function.update links.prev after (.to before)) e .poison }
  | _, _ => none

/-- Deleting an entry joins its neighbours, and leaves poison in the entry. -/
theorem delete_represents (front : List ε) (ring : links.Represents head (front ++ e :: back)) :
    ∃ changed, links.delete e = some changed ∧ changed.Represents head (front ++ back) ∧
      changed.next e = .poison := by
  obtain ⟨toE, fromE⟩ := path_append.mp ring.path
  have nodup : (head :: front ++ e :: back).Nodup := ring.nodup
  obtain ⟨_, nodup_back, apart⟩ := List.nodup_append.mp nodup
  have prev_e := (path_last toE).2
  have next_e := (path_first fromE).1
  have front_e : ∀ x ∈ head :: front, x ≠ e := fun x member => apart x member e List.mem_cons_self
  have before_e : (head :: front).getLast (by simp) ≠ e := front_e _ (List.getLast_mem _)
  have after_e : (back ++ [head]).head (by simp) ≠ e := by
    have member : (back ++ [head]).head (by simp) ∈ back ++ [head] := List.head_mem _
    rcases List.mem_append.mp member with later | final
    · exact fun here => (List.nodup_cons.mp nodup_back).1 (here ▸ later)
    · rw [List.mem_singleton.mp final]
      exact front_e head List.mem_cons_self
  refine ⟨_, by rw [delete, prev_e, next_e], ⟨?_, ?_⟩, Function.update_self _ _ _⟩
  · have sublist : (front ++ back).Sublist (front ++ e :: back) :=
      (List.Sublist.refl front).append (List.sublist_cons_self e back)
    exact ring.nodup.sublist (sublist.cons_cons head)
  · apply path_unlink toE fromE nodup rfl rfl
    · exact ⟨by simp [before_e], by simp [after_e]⟩
    · intro x other removed
      simp [removed, other]
    · intro x other removed
      simp [removed, other]

end

end Links

end PcieUtil.Lib.LinkedList
