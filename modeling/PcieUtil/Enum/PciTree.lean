import Mathlib.Data.Char
import Mathlib.Data.List.Lex
import Mathlib.Data.List.Sort
import PcieUtil.Lib.Bytes
import PcieUtil.Lib.Lines

/-! The device list of the enumeration tool and the tree it prints. A branch is drawn for
each device under its name without domain and bus; which branch is the first and which is
the last is decided by comparing these shortened names. -/

namespace PcieUtil.Enum.PciTree
open Lib.Bytes Lib.Lines

structure PciDevice where
  filePath : List Char
  config : List Byte

/-- `getFileContext2`: `path.erase(0,21)`. -/
def PciDevice.pciName (dev : PciDevice) : List Char := dev.filePath.drop 21

def enumeration (path : List Char) (entries : List (List Char)) : List (List Char) :=
  entries.map fun entry => path ++ '/' :: entry

/-- `m_pciDeviceList`, from the entries of the directory and what their `config` files hold. -/
def pciTree (entries : List (List Char)) (config : List Char → List Byte) : List PciDevice :=
  (enumeration "/sys/bus/pci/devices".toList entries).map fun path => ⟨path, config path⟩

/-- One round of the printing loop, without its line break. -/
def branch (aTree : List (List Char)) (i : List Char) : List Char :=
  if aTree.head? = some i then "+-".toList ++ i
  else if aTree.head? ≠ some i ∧ aTree.getLast? ≠ some i then "           +-".toList ++ i
  else "           \\-".toList ++ i

/-- What `print_pci_tree` writes; it then ends without the string it declares to return. -/
def printPciTree (devTree : List PciDevice) : List Char :=
  let aTree := (devTree.map fun dev => dev.pciName.drop 8).insertionSort (· ≤ ·)
  "-[0000:00]-".toList ++ aTree.flatMap fun i => branch aTree i ++ ['\n']

/-! Names of the form dddd:bb:ss.f. -/

structure PciName where
  domain : List Char
  bus : List Char
  slot : List Char
  function : Char
  domain_length : domain.length = 4
  bus_length : bus.length = 2
  slot_length : slot.length = 2
  hex : ∀ c ∈ domain ++ bus ++ slot ++ [function], c ∈ "0123456789abcdef".toList

def PciName.text (name : PciName) : List Char :=
  name.domain ++ ':' :: name.bus ++ ':' :: name.slot ++ ['.', name.function]

def PciName.shortened (name : PciName) : List Char := name.slot ++ ['.', name.function]

theorem PciName.text_drop (name : PciName) : name.text.drop 8 = name.shortened := by
  have before : (name.domain ++ ':' :: name.bus ++ [':']).length = 8 := by
    simp [name.domain_length, name.bus_length]
  have parts : name.text = (name.domain ++ ':' :: name.bus ++ [':']) ++ name.shortened := by
    simp [text, shortened]
  rw [parts, List.drop_left' before]

theorem PciName.shortened_inj {a b : PciName} :
    a.shortened = b.shortened ↔ (a.slot, a.function) = (b.slot, b.function) := by
  rw [Prod.mk.injEq]
  constructor
  · intro same
    have lengths : a.slot.length = b.slot.length := a.slot_length.trans b.slot_length.symm
    obtain ⟨slots, functions⟩ := List.append_inj same lengths
    exact ⟨slots, by simpa using functions⟩
  · intro same
    rw [shortened, shortened, same.1, same.2]

theorem PciName.shortened_unbroken (name : PciName) : '\n' ∉ name.shortened := by
  intro found
  have hex : '\n' ∈ "0123456789abcdef".toList := by
    have parts : '\n' ∈ name.slot ∨ '\n' = name.function := by simpa [shortened] using found
    apply name.hex
    simp only [List.mem_append, List.mem_singleton]
    tauto
  exact absurd hex (by decide)

theorem pciTree_shortened (names : List PciName) (config : List Char → List Byte) :
    ((pciTree (names.map PciName.text) config).map fun dev => dev.pciName.drop 8) =
      names.map PciName.shortened := by
  simp only [pciTree, enumeration, List.map_map]
  apply List.map_congr_left
  intro name _
  exact name.text_drop

/-! The lines of the tree. -/

/-- The line a well-formed tree of count devices has in place k. -/
def drawnAt (count k : Nat) (name : List Char) : List Char :=
  if k = 0 then "-[0000:00]-+-".toList ++ name
  else if k + 1 = count then "           \\-".toList ++ name
  else "           +-".toList ++ name

structure WellDrawn (names : List PciName) (text : List Char) : Prop where
  /-- One line for each device, in sorted order, each drawn as its place asks for. -/
  drawn : ∃ sorted : List (List Char), sorted.Perm (names.map PciName.shortened) ∧
    sorted.Pairwise (· ≤ ·) ∧ lines text = sorted.mapIdx (drawnAt names.length)
  differ : (lines text).Nodup

theorem drawnAt_drop (count k : Nat) (name : List Char) : (drawnAt count k name).drop 13 = name := by
  unfold drawnAt
  split_ifs <;> rfl

/-- Behind the first line the tree is indented. -/
theorem drawnAt_indented (count k : Nat) (name : List Char) :
    (drawnAt count (k + 1) name).head? = some ' ' := by
  unfold drawnAt
  split_ifs <;> first | contradiction | rfl

theorem branch_unbroken {aTree : List (List Char)} {i : List Char} (unbroken : '\n' ∉ i) :
    '\n' ∉ branch aTree i := by
  unfold branch
  split_ifs <;> simpa using unbroken

theorem branch_first (first : List Char) (rest : List (List Char)) :
    branch (first :: rest) first = "+-".toList ++ first := by
  have front : (first :: rest).head? = some first := rfl
  rw [branch, if_pos front]

/-- The first branch is attached to the header, the others have lines of their own. -/
theorem tree_lines {first : List Char} {rest : List (List Char)}
    (unbroken : ∀ i ∈ first :: rest, '\n' ∉ i) :
    lines ("-[0000:00]-".toList ++
        (first :: rest).flatMap fun i => branch (first :: rest) i ++ ['\n']) =
      ("-[0000:00]-+-".toList ++ first) :: rest.map (branch (first :: rest)) := by
  have closed : "-[0000:00]-".toList ++
      (first :: rest).flatMap (fun i => branch (first :: rest) i ++ ['\n']) =
      (("-[0000:00]-+-".toList ++ first) :: rest.map (branch (first :: rest))).flatMap
        (· ++ ['\n']) := by
    rw [List.flatMap_cons, List.flatMap_cons, branch_first, List.flatMap_map]
    simp
  rw [closed]
  apply lines_closed
  intro line found
  rcases List.mem_cons.mp found with attached | indented
  · have clean := unbroken first List.mem_cons_self
    rw [attached]
    simpa using clean
  · obtain ⟨i, present, same⟩ := List.mem_map.mp indented
    rw [← same]
    exact branch_unbroken (unbroken i (List.mem_cons_of_mem _ present))

/-- Without repeated names the comparisons decide the place. -/
theorem branch_at {first : List Char} {rest : List (List Char)} (distinct : (first :: rest).Nodup)
    {k : Nat} (inside : k < rest.length) :
    branch (first :: rest) rest[k] = drawnAt (first :: rest).length (k + 1) rest[k] := by
  have not_first : (first :: rest).head? ≠ some rest[k] := by
    intro same
    have repeated : first ∈ rest := Option.some.inj same ▸ List.getElem_mem inside
    exact (List.nodup_cons.mp distinct).1 repeated
  have last : (first :: rest).getLast? = some rest[k] ↔ k + 1 = rest.length := by
    rw [List.getLast?_eq_getElem?, List.length_cons, Nat.add_sub_cancel,
      List.getElem?_eq_getElem (by simp), Option.some.injEq]
    have bound : k + 1 < (first :: rest).length := Nat.succ_lt_succ inside
    have place : rest[k] = (first :: rest)[k + 1] := rfl
    rw [place, distinct.getElem_inj_iff]
    exact eq_comm
  rw [branch, if_neg not_first, drawnAt, if_neg (Nat.succ_ne_zero k), List.length_cons]
  by_cases final : k + 1 = rest.length
  · rw [if_neg (fun between => between.2 (last.mpr final)), if_pos (by omega)]
  · rw [if_pos ⟨not_first, fun same => final (last.mp same)⟩, if_neg (by omega)]

variable {names : List PciName} {text : List Char} {first : List Char} {rest : List (List Char)}

/-- A tree with the lines the loop prints is well drawn when no name is repeated. -/
theorem wellDrawn_of_distinct (same_names : (first :: rest).Perm (names.map PciName.shortened))
    (sorted : (first :: rest).Pairwise (· ≤ ·)) (distinct : (first :: rest).Nodup)
    (printed : lines text =
      ("-[0000:00]-+-".toList ++ first) :: rest.map (branch (first :: rest))) :
    WellDrawn names text := by
  have count : names.length = (first :: rest).length := by
    rw [same_names.length_eq, List.length_map]
  have placed : lines text = (first :: rest).mapIdx (drawnAt names.length) := by
    rw [printed, List.mapIdx_cons, count]
    congr 1
    apply List.ext_getElem
    · simp
    · intro k _ _
      rw [List.getElem_map, List.getElem_mapIdx]
      exact branch_at distinct _
  refine ⟨⟨_, same_names, sorted, placed⟩, ?_⟩
  have readable : (lines text).map (List.drop 13) = first :: rest := by
    rw [placed]
    apply List.ext_getElem
    · simp
    · intro k _ _
      rw [List.getElem_map, List.getElem_mapIdx, drawnAt_drop]
  rw [← readable] at distinct
  exact distinct.of_map

/-- Repeated names give two branches at the header, or two lines with one text. -/
theorem distinct_of_wellDrawn (wellDrawn : WellDrawn names text)
    (printed : lines text =
      ("-[0000:00]-+-".toList ++ first) :: rest.map (branch (first :: rest))) :
    (first :: rest).Nodup := by
  have differ := wellDrawn.differ
  obtain ⟨sorted, _, _, placed⟩ := wellDrawn.drawn
  rw [printed] at differ placed
  apply List.nodup_cons.mpr
  constructor
  · intro repeated
    have unindented : "+-".toList ++ first ∈ rest.map (branch (first :: rest)) := by
      rw [← branch_first first rest]
      exact List.mem_map_of_mem repeated
    cases sorted with
    | nil => simp at placed
    | cons front others =>
      rw [List.mapIdx_cons] at placed
      rw [(List.cons.inj placed).2] at unindented
      obtain ⟨k, _, same⟩ := List.mem_mapIdx.mp unindented
      have indented := drawnAt_indented names.length k others[k]
      have attached : ("+-".toList ++ first).head? = some '+' := rfl
      rw [same, attached] at indented
      exact absurd indented (by decide)
  · exact (List.nodup_cons.mp differ).2.of_map

theorem wellDrawn_iff {devTree : List PciDevice} (nonempty : names ≠ [])
    (shortened : (devTree.map fun dev => dev.pciName.drop 8) = names.map PciName.shortened) :
    WellDrawn names (printPciTree devTree) ↔
      (names.map fun name => (name.slot, name.function)).Nodup := by
  have same_names := List.perm_insertionSort (· ≤ ·) (names.map PciName.shortened)
  have sorted := List.pairwise_insertionSort (· ≤ ·) (names.map PciName.shortened)
  have keys : (names.map fun name => (name.slot, name.function)).Nodup ↔
      ((names.map PciName.shortened).insertionSort (· ≤ ·)).Nodup := by
    rw [same_names.nodup_iff, List.Nodup, List.Nodup, List.pairwise_map, List.pairwise_map]
    simp only [ne_eq, PciName.shortened_inj]
  rw [keys]
  unfold printPciTree
  rw [shortened]
  cases tree : (names.map PciName.shortened).insertionSort (· ≤ ·) with
  | nil =>
    rw [tree] at same_names
    have empty := List.map_eq_nil_iff.mp same_names.nil_eq.symm
    exact absurd empty nonempty
  | cons first rest =>
    rw [tree] at same_names sorted
    have unbroken : ∀ i ∈ first :: rest, '\n' ∉ i := by
      intro i found
      obtain ⟨name, _, same⟩ := List.mem_map.mp (same_names.mem_iff.mp found)
      rw [← same]
      exact name.shortened_unbroken
    have printed := tree_lines unbroken
    exact ⟨fun wellDrawn => distinct_of_wellDrawn wellDrawn printed,
      fun distinct => wellDrawn_of_distinct same_names sorted distinct printed⟩

/-- The tree is well drawn exactly when no two devices share slot and function:
the names it compares leave domain and bus out. -/
theorem printPciTree_wellDrawn_iff (names : List PciName) (nonempty : names ≠ [])
    (config : List Char → List Byte) :
    WellDrawn names (printPciTree (pciTree (names.map PciName.text) config)) ↔
      (names.map fun name => (name.slot, name.function)).Nodup :=
  wellDrawn_iff nonempty (pciTree_shortened names config)

/-- 0000:00:00.0 -/
abbrev hostBridge : PciName where
  domain := "0000".toList
  bus := "00".toList
  slot := "00".toList
  function := '0'
  domain_length := rfl
  bus_length := rfl
  slot_length := rfl
  hex := List.forall_iff_forall_mem.mp (by decide)

/-- 0000:00:00.1 -/
abbrev nextFunction : PciName :=
  { hostBridge with function := '1', hex := List.forall_iff_forall_mem.mp (by decide) }

/-- 0000:01:00.0 -/
abbrev behindBridge : PciName :=
  { hostBridge with
    bus := "01".toList, bus_length := rfl, hex := List.forall_iff_forall_mem.mp (by decide) }

theorem printPciTree_wellDrawn_iff_neighbours :
    WellDrawn [nextFunction, hostBridge]
      (printPciTree (pciTree ([nextFunction, hostBridge].map PciName.text) fun _ => [])) :=
  (printPciTree_wellDrawn_iff _ (List.cons_ne_nil _ _) _).mpr (by decide)

/-- 0000:00:00.0 and 0000:01:00.0 are drawn as one and the same branch. -/
theorem buses_collide :
    hostBridge.text ≠ behindBridge.text ∧
      printPciTree (pciTree ["0000:00:00.0".toList, "0000:01:00.0".toList] fun _ => []) =
        "-[0000:00]-+-00.0\n+-00.0\n".toList ∧
      ¬WellDrawn [hostBridge, behindBridge]
        (printPciTree (pciTree ([hostBridge, behindBridge].map PciName.text) fun _ => [])) := by
  refine ⟨by decide, by decide, ?_⟩
  intro wellDrawn
  have distinct := (wellDrawn_iff (List.cons_ne_nil _ _) (pciTree_shortened _ _)).mp wellDrawn
  exact absurd distinct (by decide)

end PcieUtil.Enum.PciTree
