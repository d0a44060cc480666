import Mathlib
import PcieUtil.Driver.Interfaces
import PcieUtil.Driver.DeviceOpen
import PcieUtil.Lib.Events

/-! The numbers that the list of devices gives to them, and the lookup in it, over
any sequence of additions and removals. A new number is one more than that of the
last device on the list, wherever devices have been taken out of it. -/

namespace PcieUtil.System.Numbering
open Lib.Events Driver.State Driver.DeviceOpen Driver.Interfaces

inductive Event where
  | add (x : XdevPtr)
  | remove (x : XdevPtr)

/-- The list, with the number of additions since it was last empty. -/
structure Listing where
  world : World
  added : Nat

def step (s : Listing) : Event → Listing
  | .add x =>
      { world := ((xdevListAdd x).run s.world).state
        added := if s.world.xdevList = [] then 1 else s.added + 1 }
  | .remove x => { s with world := ((xdevListRemove x).run s.world).state }

/-- A device is added that is not listed, and one is removed that is. -/
def Admits (s : Listing) : Event → Prop
  | .add x => x ∉ s.world.xdevList
  | .remove x => x ∈ s.world.xdevList

def machine : Machine Listing Event := ⟨Admits, step⟩

def FewAdditions (s : Listing) (e : Event) : Prop := (step s e).added < 2 ^ 31

/-- No device is added for a PCI function that has one on the list. -/
def NewPdev (s : Listing) : Event → Prop
  | .add x => ∀ y ∈ s.world.xdevList, y.pdev ≠ x.pdev
  | .remove _ => True

/-- The device that each PCI function has after a history: the one added last, if it
has not been removed. -/
def live (es : List Event) : Dev → Option XdevPtr :=
  es.foldl (fun device e =>
    match e with
    | .add x => Function.update device x.pdev (some x)
    | .remove x => Function.update device x.pdev none) fun _ => none

@[simp] theorem live_add (es : List Event) (x : XdevPtr) :
    live (es ++ [.add x]) = Function.update (live es) x.pdev (some x) := by
  simp [live]

@[simp] theorem live_remove (es : List Event) (x : XdevPtr) :
    live (es ++ [.remove x]) = Function.update (live es) x.pdev none := by
  simp [live]

/-! Names. -/

theorem fillFormat_plain (digits : List Char) {format : List Char} (plain : '%' ∉ format) :
    fillFormat digits format = format := by
  induction format with
  | nil => rfl
  | cons c rest ih =>
    obtain ⟨different, later⟩ := not_or.mp (List.mem_cons.not.mp plain)
    unfold fillFormat
    split
    · next same => exact absurd (List.cons_eq_cons.mp same).1.symm different
    · next same =>
      obtain ⟨rfl, rfl⟩ := List.cons_eq_cons.mp same
      rw [ih later]
    · next impossible => cases impossible

/-- Every name of the tables starts with the directory of the device, and has one number. -/
theorem item_format {item : Node} (member : item ∈ tables.allItems) :
    ∃ rest, item.devnodeName.toList = 'x' :: 'g' :: 'p' :: 'u' :: '%' :: 'd' :: rest ∧ '%' ∉ rest := by
  revert item
  have formats : ∀ item ∈ tables.allItems, item.devnodeName.toList =
      'x' :: 'g' :: 'p' :: 'u' :: '%' :: 'd' :: item.devnodeName.toList.drop 6 ∧
        '%' ∉ item.devnodeName.toList.drop 6 := by decide
  exact fun item member => ⟨_, formats item member⟩

theorem nodeName_injective {item : Node} (member : item ∈ tables.allItems) {i j : Int}
    (same : nodeName item i = nodeName item j) : i = j := by
  obtain ⟨rest, format, plain⟩ := item_format member
  have filled : ∀ digits, fillFormat digits item.devnodeName.toList =
      'x' :: 'g' :: 'p' :: 'u' :: (digits ++ rest) := by
    intro digits
    rw [format]
    change 'x' :: 'g' :: 'p' :: 'u' :: (digits ++ fillFormat digits rest) = _
    rw [fillFormat_plain digits plain]
  have lists := String.ofList_injective same
  rw [filled, filled] at lists
  simp only [List.cons.injEq, true_and, List.append_cancel_right_eq] at lists
  exact Int.repr_injective (String.toList_injective lists)

/-! Numbers. -/

/-- The numbers increase along the list, and all of them are smaller than the number
of additions. -/
structure Increasing (s : Listing) : Prop where
  nonneg : ∀ x ∈ s.world.xdevList, 0 ≤ s.world.idx x
  below : ∀ x ∈ s.world.xdevList, s.world.idx x < s.added
  strict : s.world.xdevList.Pairwise fun x y => s.world.idx x < s.world.idx y

section
variable {s : Listing} {x : XdevPtr}

theorem step_add (s : Listing) (x : XdevPtr) :
    (step s (.add x)).world.xdevList = s.world.xdevList ++ [x] ∧
      (∀ y, y ≠ x → (step s (.add x)).world.idx y = s.world.idx y) ∧
      (step s (.add x)).world.idx x = match s.world.xdevList.getLast? with
        | none => 0
        | some last => Int.bmod (s.world.idx last + 1) (2 ^ 32) := by
  refine ⟨rfl, fun y different => ?_, ?_⟩
  · exact Function.update_of_ne different _ _
  · exact Function.update_self _ _ _

/-- Every number on a list of increasing numbers is at most the last one. -/
theorem Increasing.at_most_last {last : XdevPtr} (increasing : Increasing s)
    (ends : s.world.xdevList.getLast? = some last) {y : XdevPtr} (member : y ∈ s.world.xdevList) :
    s.world.idx y ≤ s.world.idx last := by
  obtain ⟨front, split⟩ := List.getLast?_eq_some_iff.mp ends
  have strict := increasing.strict
  rw [split] at member strict
  rcases List.mem_append.mp member with before | final
  · have smaller := (List.pairwise_append.mp strict).2.2 y before last (List.mem_singleton.mpr rfl)
    omega
  · rw [List.mem_singleton.mp final]

/-- The number of a new device: it is larger than those on the list, and smaller than the
number of additions, which keeps the int from overflowing. -/
theorem new_number (increasing : Increasing s) (few : FewAdditions s (.add x)) :
    0 ≤ (step s (.add x)).world.idx x ∧
      (step s (.add x)).world.idx x < (step s (.add x)).added ∧
      ∀ y ∈ s.world.xdevList, s.world.idx y < (step s (.add x)).world.idx x := by
  obtain ⟨_, _, number⟩ := step_add s x
  unfold FewAdditions at few
  have added : (step s (.add x)).added = if s.world.xdevList = [] then 1 else s.added + 1 := rfl
  cases ends : s.world.xdevList.getLast? with
  | none =>
    have empty := List.getLast?_eq_none_iff.mp ends
    simp only [ends] at number
    rw [if_pos empty] at added
    rw [number, added, empty]
    exact ⟨by omega, by omega, fun _ member => absurd member List.not_mem_nil⟩
  | some last =>
    have member := List.mem_of_getLast? ends
    have nonneg := increasing.nonneg last member
    have below := increasing.below last member
    simp only [ends] at number
    rw [if_neg (List.ne_nil_of_mem member)] at added
    have exact : Int.bmod (s.world.idx last + 1) (2 ^ 32) = s.world.idx last + 1 := by
      rw [Int.bmod_eq_of_le] <;> omega
    rw [number, exact, added]
    refine ⟨by omega, by omega, fun y listed => ?_⟩
    have bound := increasing.at_most_last ends listed
    omega

theorem increasing_add (increasing : Increasing s) (fresh : x ∉ s.world.xdevList)
    (few : FewAdditions s (.add x)) : Increasing (step s (.add x)) := by
  obtain ⟨list, others, _⟩ := step_add s x
  obtain ⟨nonneg, below, above⟩ := new_number increasing few
  have same : ∀ y ∈ s.world.xdevList, (step s (.add x)).world.idx y = s.world.idx y :=
    fun y member => others y fun here => fresh (here ▸ member)
  have more : ∀ y ∈ s.world.xdevList, s.world.idx y < (step s (.add x)).added :=
    fun y member => Int.lt_trans (above y member) below
  constructor
  · intro y member
    rw [list] at member
    rcases List.mem_append.mp member with old | new
    · rw [same y old]
      exact increasing.nonneg y old
    · rw [List.mem_singleton.mp new]
      exact nonneg
  · intro y member
    rw [list] at member
    rcases List.mem_append.mp member with old | new
    · rw [same y old]
      exact more y old
    · rw [List.mem_singleton.mp new]
      exact below
  · rw [list, List.pairwise_append]
    refine ⟨?_, List.pairwise_singleton _ _, ?_⟩
    · apply increasing.strict.imp_of_mem
      intro y z first second smaller
      rw [same y first, same z second]
      exact smaller
    · intro y old z new
      rw [same y old, List.mem_singleton.mp new]
      exact above y old

/-- A list stays increasing wherever a device is taken out. -/
theorem increasing_remove (increasing : Increasing s) : Increasing (step s (.remove x)) where
  nonneg y member := increasing.nonneg y (List.mem_of_mem_erase member)
  below y member := increasing.below y (List.mem_of_mem_erase member)
  strict := increasing.strict.sublist List.erase_sublist

theorem increasing_run {t : Listing} {es : List Event} (run : machine.Run FewAdditions s es t)
    (empty : s.world.xdevList = []) : Increasing t := by
  have start : Increasing s := by
    constructor <;> simp [empty]
  apply run.invariant Increasing start
  intro u e increasing possible few
  cases e with
  | add x => exact increasing_add increasing possible few
  | remove x => exact increasing_remove increasing

theorem Increasing.unique (increasing : Increasing s) {y : XdevPtr} (first : x ∈ s.world.xdevList)
    (second : y ∈ s.world.xdevList) (same : s.world.idx x = s.world.idx y) : x = y := by
  have strict := increasing.strict
  rw [← List.pairwise_map] at strict
  exact List.inj_on_of_nodup_map (strict.imp Int.ne_of_lt) first second same

/-! The lookup. -/

/-- The list holds exactly the devices that a history leaves. -/
structure Lists (list : List XdevPtr) (device : Dev → Option XdevPtr) : Prop where
  nodup : list.Nodup
  member : ∀ x, x ∈ list ↔ device x.pdev = some x
  own : ∀ pdev x, device pdev = some x → x.pdev = pdev

theorem Lists.add {list : List XdevPtr} {device : Dev → Option XdevPtr} (lists : Lists list device)
    (fresh : ∀ y ∈ list, y.pdev ≠ x.pdev) :
    Lists (list ++ [x]) (Function.update device x.pdev (some x)) := by
  constructor
  · have absent : x ∉ list := fun member => fresh x member rfl
    exact List.nodup_append.mpr ⟨lists.nodup, List.nodup_singleton x, by
      intro y member z last
      rw [List.mem_singleton.mp last]
      exact fun here => absent (here ▸ member)⟩
  · intro y
    rw [List.mem_append, List.mem_singleton]
    by_cases here : y.pdev = x.pdev
    · rw [here, Function.update_self, Option.some.injEq]
      constructor
      · rintro (old | rfl)
        · exact absurd here (fresh y old)
        · rfl
      · exact fun same => .inr same.symm
    · rw [Function.update_of_ne here, ← lists.member y]
      exact or_iff_left fun same => here (congrArg XdevPtr.pdev same)
  · intro pdev y found
    by_cases here : pdev = x.pdev
    · rw [here, Function.update_self, Option.some.injEq] at found
      rw [here, found]
    · rw [Function.update_of_ne here] at found
      exact lists.own pdev y found

theorem Lists.remove {list : List XdevPtr} {device : Dev → Option XdevPtr} (lists : Lists list device)
    (listed : x ∈ list) : Lists (list.erase x) (Function.update device x.pdev none) := by
  constructor
  · exact lists.nodup.erase x
  · intro y
    rw [lists.nodup.mem_erase_iff, lists.member y]
    by_cases here : y.pdev = x.pdev
    · have device_x := (lists.member x).mp listed
      rw [here, Function.update_self, device_x, Option.some.injEq]
      constructor
      · rintro ⟨different, same⟩
        exact absurd same.symm different
      · intro impossible
        cases impossible
    · rw [Function.update_of_ne here]
      exact and_iff_right fun same => here (congrArg XdevPtr.pdev same)
  · intro pdev y found
    by_cases here : pdev = x.pdev
    · rw [here, Function.update_self] at found
      cases found
    · rw [Function.update_of_ne here] at found
      exact lists.own pdev y found

theorem Lists.find {list : List XdevPtr} {device : Dev → Option XdevPtr} (lists : Lists list device)
    (pdev : Dev) : (list.find? fun x => x.pdev = pdev) = device pdev := by
  cases found : list.find? fun x => x.pdev = pdev with
  | some y =>
    have member := List.mem_of_find?_eq_some found
    have own : y.pdev = pdev := by simpa using List.find?_some found
    rw [← own]
    exact ((lists.member y).mp member).symm
  | none =>
    cases other : device pdev with
    | none => rfl
    | some y =>
      have own := lists.own pdev y other
      have member := (lists.member y).mpr (own ▸ other)
      have absent := List.find?_eq_none.mp found y member
      simp [own] at absent

theorem lists_run {t : Listing} {es : List Event} (run : machine.Run NewPdev s es t)
    (empty : s.world.xdevList = []) : Lists t.world.xdevList (live es) := by
  induction run with
  | start =>
    rw [empty]
    exact ⟨List.nodup_nil, by simp [live], by simp [live]⟩
  | next e run possible meets ih =>
    cases e with
    | add x =>
      rw [live_add]
      exact ih.add meets
    | remove x =>
      rw [live_remove]
      exact ih.remove possible

end

/-- What the list gives its devices: numbers that increase from zero on, no two of them the
same, and so different names for each of their nodes. -/
structure Numbers (w : World) : Prop where
  nonneg : ∀ x ∈ w.xdevList, 0 ≤ w.idx x
  increasing : (w.xdevList.map w.idx).Pairwise (· < ·)
  indices : ∀ x ∈ w.xdevList, ∀ y ∈ w.xdevList, w.idx x = w.idx y → x = y
  names : ∀ item ∈ tables.allItems, ∀ x ∈ w.xdevList, ∀ y ∈ w.xdevList,
    nodeName item (w.idx x) = nodeName item (w.idx y) → x = y

/-- With fewer than 2^31 additions since the list was last empty the devices on it have
different numbers, and when no PCI function is added twice the lookup finds exactly the
device that the history has left to it. -/
theorem numbers_and_lookup {s : Listing} (empty : s.world.xdevList = []) :
    (∀ es t, machine.Run FewAdditions s es t → Numbers t.world) ∧
      ∀ es t, machine.Run NewPdev s es t → ∀ pdev,
        ((xdevFindByPdev pdev).run t.world).value = some (live es pdev) ∧
          ∀ x, live es pdev = some x ↔ x ∈ t.world.xdevList ∧ x.pdev = pdev := by
  constructor
  · intro es t run
    have increasing := increasing_run run empty
    refine ⟨increasing.nonneg, List.pairwise_map.mpr increasing.strict, ?_, ?_⟩
    · intro x first y second same
      exact increasing.unique first second same
    · intro item node x first y second same
      exact increasing.unique first second (nodeName_injective node same)
  · intro es t run pdev
    have lists := lists_run run empty
    refine ⟨congrArg some (lists.find pdev), fun x => ?_⟩
    constructor
    · intro found
      have own := lists.own pdev x found
      exact ⟨(lists.member x).mpr (own ▸ found), own⟩
    · rintro ⟨listed, rfl⟩
      exact (lists.member x).mp listed

theorem numbers_and_lookup_start :
    let s : Listing := ⟨.start .plain (fun _ _ => 0) fun _ _ _ => 0, 0⟩
    (∀ es t, machine.Run FewAdditions s es t → Numbers t.world) ∧
      ∀ es t, machine.Run NewPdev s es t → ∀ pdev,
        ((xdevFindByPdev pdev).run t.world).value = some (live es pdev) ∧
          ∀ x, live es pdev = some x ↔ x ∈ t.world.xdevList ∧ x.pdev = pdev :=
  numbers_and_lookup rfl

end PcieUtil.System.Numbering
