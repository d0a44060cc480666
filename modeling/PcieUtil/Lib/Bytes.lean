import Mathlib.Algebra.GroupWithZero.Nat
import Mathlib.Algebra.Ring.Int.Defs
import Mathlib.Data.List.Basic

/-! Bytes: little-endian numerals of a fixed width, and byte-addressed memory
with ranges that are stored and loaded as lists. -/

namespace PcieUtil.Lib.Bytes

abbrev Byte := BitVec 8

def toLE : Nat → Nat → List Byte
  | 0, _ => []
  | width + 1, value => BitVec.ofNat 8 value :: toLE width (value / 256)

def ofLE : List Byte → Nat
  | [] => 0
  | byte :: rest => byte.toNat + 256 * ofLE rest

@[simp] theorem toLE_length (width value : Nat) : (toLE width value).length = width := by
  induction width generalizing value with
  | zero => rfl
  | succ width ih => simp [toLE, ih]

theorem ofLE_lt (bytes : List Byte) : ofLE bytes < 256 ^ bytes.length := by
  induction bytes with
  | nil => simp [ofLE]
  | cons byte rest ih =>
    have small := byte.isLt
    simp only [ofLE, List.length_cons, Nat.pow_succ]
    omega

theorem toLE_cons (width low high : Nat) (small : low < 256) :
    toLE (width + 1) (low + 256 * high) = BitVec.ofNat 8 low :: toLE width high := by
  have quotient : (low + 256 * high) / 256 = high := by omega
  rw [toLE, quotient]
  congr 1
  apply BitVec.eq_of_toNat_eq
  simp only [BitVec.toNat_ofNat]
  omega

@[simp] theorem toLE_ofLE (bytes : List Byte) : toLE bytes.length (ofLE bytes) = bytes := by
  induction bytes with
  | nil => rfl
  | cons byte rest ih =>
    rw [ofLE, List.length_cons, toLE_cons _ _ _ byte.isLt, ih, BitVec.ofNat_toNat,
      BitVec.setWidth_eq]

theorem toLE_ofLE_of_length {bytes : List Byte} {width : Nat} (size : bytes.length = width) :
    toLE width (ofLE bytes) = bytes := by
  subst size
  exact toLE_ofLE bytes

theorem toLE_take {count width : Nat} (shorter : count ≤ width) (value : Nat) :
    (toLE width value).take count = toLE count value := by
  induction count generalizing width value with
  | zero => simp [toLE]
  | succ count ih =>
    cases width with
    | zero => omega
    | succ width => rw [toLE, toLE, List.take_succ_cons, ih (by omega)]

abbrev Memory := Nat → Byte

def store (mem : Memory) (start : Nat) (bytes : List Byte) : Memory := fun k =>
  if start ≤ k then (bytes[k - start]?).getD (mem k) else mem k

def load (mem : Memory) (start count : Nat) : List Byte :=
  (List.range count).map fun i => mem (start + i)

theorem load_succ (mem : Memory) (start count : Nat) :
    load mem start (count + 1) = mem start :: load mem (start + 1) count := by
  unfold load
  rw [List.range_succ_eq_map, List.map_cons, List.map_map]
  congr 1
  apply List.map_congr_left
  intro i _
  exact congrArg mem (by omega)

@[simp] theorem load_length (mem : Memory) (start count : Nat) :
    (load mem start count).length = count := by
  simp [load]

@[simp] theorem load_getElem (mem : Memory) (start count i : Nat)
    (bound : i < (load mem start count).length) : (load mem start count)[i] = mem (start + i) := by
  simp [load]

theorem store_below {mem : Memory} {start : Nat} {bytes : List Byte} {k : Nat} (below : k < start) :
    store mem start bytes k = mem k := by
  simp [store, Nat.not_le.mpr below]

theorem store_above {mem : Memory} {start : Nat} {bytes : List Byte} {k : Nat}
    (above : start + bytes.length ≤ k) : store mem start bytes k = mem k := by
  unfold store
  split_ifs with inside
  · rw [List.getElem?_eq_none (by omega)]
    rfl
  · rfl

theorem store_inside (mem : Memory) (start : Nat) {bytes : List Byte} {i : Nat}
    (bound : i < bytes.length) : store mem start bytes (start + i) = bytes[i] := by
  simp [store, bound]

theorem store_covers {first second : Memory} {bytes : List Byte} {k : Nat} (inside : k < bytes.length) :
    store first 0 bytes k = store second 0 bytes k := by
  simp [store, inside]

/-- A byte after a store depends on the byte before it only. -/
theorem store_congr {first second : Memory} {k : Nat} (start : Nat) (bytes : List Byte)
    (same : first k = second k) : store first start bytes k = store second start bytes k := by
  simp only [store, same]

theorem store_nil (mem : Memory) (start : Nat) : store mem start [] = mem := by
  funext k
  simp [store]

/-- Storing a byte and what follows it, one after the other. -/
theorem store_cons (mem : Memory) (start : Nat) (byte : Byte) (rest : List Byte) :
    store mem start (byte :: rest) = store (store mem start [byte]) (start + 1) rest := by
  funext k
  by_cases behind : start + 1 ≤ k
  · have index : k - start = (k - (start + 1)) + 1 := by omega
    have above : store mem start [byte] k = mem k := store_above (by simpa using behind)
    have below : start ≤ k := by omega
    rw [store, store, if_pos below, if_pos behind, above, index, List.getElem?_cons_succ]
  · have before : store (store mem start [byte]) (start + 1) rest k = store mem start [byte] k :=
      store_below (by omega)
    rw [before]
    by_cases here : k = start
    · simp [store, here]
    · simp only [store]
      by_cases above : start ≤ k
      · omega
      · simp [above]

/-- Two ranges that follow one another. -/
theorem load_append (mem : Memory) (start first second : Nat) :
    load mem start first ++ load mem (start + first) second = load mem start (first + second) := by
  unfold load
  rw [List.range_add, List.map_append, List.map_map]
  congr 1
  apply List.map_congr_left
  intro i _
  exact congrArg mem (Nat.add_assoc _ _ _)

/-- Two memories give the same bytes on a range when they agree on it. -/
theorem load_congr {first second : Memory} {start count : Nat}
    (same : ∀ i < count, first (start + i) = second (start + i)) :
    load first start count = load second start count := by
  unfold load
  apply List.map_congr_left
  intro i member
  exact same i (List.mem_range.mp member)

theorem load_take (mem : Memory) (start count n : Nat) :
    (load mem start count).take n = load mem start (min n count) := by
  rw [load, ← List.map_take, List.take_range, load]

theorem load_eq_iff {first second : Memory} {start count : Nat} :
    load first start count = load second start count ↔
      ∀ i < count, first (start + i) = second (start + i) := by
  constructor
  · intro same i bound
    have values := congrArg (fun bytes => bytes[i]?) same
    simpa [load, List.getElem?_map, bound] using values
  · exact load_congr

theorem load_store_self (mem : Memory) (start : Nat) (bytes : List Byte) :
    load (store mem start bytes) start bytes.length = bytes := by
  apply List.ext_getElem
  · simp
  · intro i _ bound
    rw [load_getElem, store_inside _ _ bound]

/-- The bytes of a sub-range, cut out of the bytes of a range that starts at zero. -/
theorem load_slice (mem : Memory) {start count total : Nat} (bound : start + count ≤ total) :
    ((load mem 0 total).drop start).take count = load mem start count := by
  apply List.ext_getElem
  · simp
    omega
  · intro i _ _
    simp

end PcieUtil.Lib.Bytes
