import PcieUtil.Driver.Irq

/-! The registers of the user vectors: what prog_irq_msix_user writes to them. -/

namespace PcieUtil.Driver.Vectors
open Lib.Action Lib.Bytes State Kernel Irq

/-- The byte of one user interrupt, of n. -/
def vectorByte (n i : Nat) : Byte := if i < n then BitVec.ofNat 8 (i % 32) else 0

/-- The four bytes of a register. -/
def registerBytes (n : Nat) (clear : Bool) (j : Nat) : List Byte :=
  (List.range 4).map fun k => if clear then 0 else vectorByte n (4 * j + k)

/-- A register write: through which mapping, where, and the bytes. -/
def registerWrite : Call → List (Option Mapping × Nat × List Byte)
  | .iowrite32 base offset value => [(base, offset, toLE 4 value.toNat)]
  | _ => []

/-- The number of registers for n interrupts. -/
def registers (n : Nat) : Nat := (n + 3) / 4

section
variable {n : Nat}

/-- Bytes that are written into a word from its low end on. -/
theorem or_byte {val : BitVec 32} {b i : Nat} (inside : b < 4) (small : val.toNat < 256 ^ b) :
    (val ||| BitVec.ofNat 32 (i % 32) <<< (8 * b)).toNat = val.toNat + 256 ^ b * (i % 32) := by
  have power : 2 ^ (8 * b) = 256 ^ b := by rw [Nat.pow_mul]
  have bound : 256 ^ b * (i % 32) < 2 ^ 32 := by
    have largest : 256 ^ b ≤ 256 ^ 3 := Nat.pow_le_pow_right (by decide) (by omega)
    calc 256 ^ b * (i % 32) ≤ 256 ^ 3 * 31 := Nat.mul_le_mul largest (by omega)
      _ < 2 ^ 32 := by decide
  have vector : i % 32 < 2 ^ 32 := by omega
  rw [BitVec.toNat_or, BitVec.toNat_shiftLeft, BitVec.toNat_ofNat, Nat.mod_eq_of_lt vector,
    Nat.shiftLeft_eq, power, Nat.mul_comm, Nat.mod_eq_of_lt bound, ← power, Nat.or_comm,
    ← Nat.two_pow_add_eq_or_of_lt (by rwa [power]), Nat.add_comm]

theorem ofLE_zeros {bytes : List Byte} (zeros : ∀ byte ∈ bytes, byte = 0) : ofLE bytes = 0 := by
  induction bytes with
  | nil => rfl
  | cons byte rest ih =>
    have first := zeros byte List.mem_cons_self
    have others := ih fun other member => zeros other (List.mem_cons_of_mem _ member)
    rw [ofLE, first, others]
    rfl

/-- The inner loop, started at byte b of the word with k bytes to go. -/
theorem packVectors_spec (k : Nat) {b i : Nat} {val : BitVec 32} (width : b + k = 4) (below : i ≤ n)
    (small : val.toNat < 256 ^ b) :
    (packVectors n k i (8 * b) val).1 = min (i + k) n ∧
      (packVectors n k i (8 * b) val).2.toNat =
        val.toNat + 256 ^ b * ofLE ((List.range k).map fun l => vectorByte n (i + l)) := by
  induction k generalizing b i val with
  | zero =>
    rw [packVectors]
    refine ⟨by omega, ?_⟩
    simp [ofLE]
  | succ k ih =>
    unfold packVectors
    by_cases more : i < n
    · have placed := or_byte (i := i) (by omega : b < 4) small
      have grown : val.toNat + 256 ^ b * (i % 32) < 256 ^ (b + 1) := by
        have vector : 256 ^ b * (i % 32) ≤ 256 ^ b * 31 := Nat.mul_le_mul_left _ (by omega)
        rw [Nat.pow_succ]
        omega
      have step : 8 * b + 8 = 8 * (b + 1) := by omega
      rw [if_pos more, step]
      obtain ⟨next, value⟩ := ih (b := b + 1) (i := i + 1) (by omega) more (placed ▸ grown)
      refine ⟨by omega, ?_⟩
      have first : (vectorByte n (i + 0)).toNat = i % 32 := by
        rw [Nat.add_zero, vectorByte, if_pos more, BitVec.toNat_ofNat]
        omega
      have rest : ((List.range k).map fun l => vectorByte n (i + 1 + l)) =
          (List.range k).map ((fun l => vectorByte n (i + l)) ∘ Nat.succ) := by
        apply List.map_congr_left
        intro l _
        rw [Function.comp_apply, Nat.succ_eq_add_one]
        congr 1
        omega
      rw [value, placed, rest, List.range_succ_eq_map, List.map_cons, List.map_map, ofLE, first,
        Nat.pow_succ, Nat.mul_add, ← Nat.mul_assoc, Nat.add_assoc]
    · have zeros : ofLE ((List.range (k + 1)).map fun l => vectorByte n (i + l)) = 0 := by
        apply ofLE_zeros
        intro byte member
        obtain ⟨l, _, rfl⟩ := List.mem_map.mp member
        rw [vectorByte, if_neg (by omega)]
      rw [if_neg more, zeros]
      exact ⟨by omega, rfl⟩

/-- One whole register. -/
theorem packVectors_bytes {i : Nat} (below : i ≤ n) :
    (packVectors n 4 i 0 0).1 = min (i + 4) n ∧
      toLE 4 (packVectors n 4 i 0 0).2.toNat = (List.range 4).map fun k => vectorByte n (i + k) := by
  have empty : (0 : BitVec 32).toNat < 256 ^ 0 := by decide
  obtain ⟨next, value⟩ := packVectors_spec (n := n) 4 (by omega) below empty
  refine ⟨next, ?_⟩
  have bytes : (packVectors n 4 i 0 0).2.toNat = ofLE ((List.range 4).map fun k => vectorByte n (i + k)) := by
    simpa using value
  rw [bytes]
  exact toLE_ofLE_of_length (by simp)

/-- The counter of the outer loop at register j, or past the last register. -/
def CounterAt (n i j : Nat) : Prop := i = 4 * j ∨ n ≤ i ∧ n ≤ 4 * j

/-- The counter and the register value that one pass makes at register j. -/
theorem pass_spec (clear : Bool) {j : Nat} (more : 4 * j < n) :
    CounterAt n (if clear then (4 * j + 4, 0) else packVectors n 4 (4 * j) 0 0).1 (j + 1) ∧
      toLE 4 (if clear then (4 * j + 4, 0) else packVectors n 4 (4 * j) 0 0).2.toNat =
        registerBytes n clear j := by
  cases clear with
  | true =>
    have counter : CounterAt n (4 * j + 4) (j + 1) := .inl (by omega)
    simpa [registerBytes, toLE, List.range_succ] using counter
  | false =>
    obtain ⟨counter, bytes⟩ := packVectors_bytes (n := n) (i := 4 * j) (by omega)
    refine ⟨?_, bytes⟩
    rw [if_neg Bool.false_ne_true, counter, CounterAt]
    omega

/-- The outer loop, which has come to register j: it writes that register and the ones
behind it. -/
theorem progVectorsFrom_collects {s : DevState} (m : Mapping) (vector : Nat) (clear : Bool)
    (passes : Nat) {i j : Nat} (here : CounterAt n i j)
    (enough : registers n ≤ j + passes) :
    Act.collects registerWrite (progVectorsFrom (some m) vector n clear passes i j) (fun v _ writes =>
      v = some () ∧ writes = (List.range' j (registers n - j)).map fun j =>
        (some m, XDMA_OFS_INT_CTRL + vector + 4 * j, registerBytes n clear j)) s := by
  induction passes generalizing i j s with
  | zero =>
    have nothing : registers n - j = 0 := by omega
    simp [progVectorsFrom, nothing]
  | succ passes ih =>
    unfold progVectorsFrom
    by_cases more : i < n
    · have at_j : i = 4 * j := by
        unfold CounterAt at here
        omega
      subst at_j
      have left : registers n - j = (registers n - (j + 1)) + 1 := by
        unfold registers
        omega
      obtain ⟨counter, bytes⟩ := pass_spec clear more
      rw [if_pos more, left, List.range'_succ]
      generalize (if clear then (4 * j + 4, 0) else packVectors n 4 (4 * j) 0 0) = pass at counter bytes
      obtain ⟨i', val⟩ := pass
      simp only [iowrite32, Act.collects_bind, Act.collects_call, Act.thenCollects_some, registerWrite]
      apply Act.collects_mono (ih counter (by omega))
      intro v _ writes both
      obtain ⟨done, rest⟩ := both
      simp only at bytes
      rw [done, rest, bytes]
      exact ⟨rfl, rfl⟩
    · have nothing : registers n - j = 0 := by
        unfold registers
        unfold CounterAt at here
        omega
      simp [more, nothing]

end

/-- More passes than the registers need change nothing. -/
theorem progVectorsFrom_more {n : Nat} (base : Option Mapping) (vector : Nat) (clear : Bool)
    {passes more : Nat} {i j : Nat} (here : CounterAt n i j)
    (enough : registers n ≤ j + passes) (longer : passes ≤ more) :
    progVectorsFrom base vector n clear more i j = progVectorsFrom base vector n clear passes i j := by
  induction passes generalizing more i j with
  | zero =>
    have done : ¬ i < n := by
      unfold registers at enough
      unfold CounterAt at here
      omega
    cases more with
    | zero => rfl
    | succ more => rw [progVectorsFrom, progVectorsFrom, if_neg done]
  | succ passes ih =>
    obtain ⟨more, rfl⟩ : ∃ rest, more = rest + 1 := ⟨more - 1, by omega⟩
    rw [progVectorsFrom, progVectorsFrom]
    by_cases goes_on : i < n
    · have at_j : i = 4 * j := by
        unfold CounterAt at here
        omega
      subst at_j
      obtain ⟨counter, _⟩ := pass_spec clear goes_on
      rw [if_pos goes_on, if_pos goes_on]
      generalize (if clear then (4 * j + 4, 0) else packVectors n 4 (4 * j) 0 0) = pass at counter
      obtain ⟨i', val⟩ := pass
      simp only
      rw [ih counter (by omega) (by omega)]
    · rw [if_neg goes_on, if_neg goes_on]

/-- The run of prog_irq_msix_user for n interrupts: every register is written once, in order, with
its four bytes, and up to 32 interrupts fit the table of the interrupt registers. -/
structure Programs (m : Mapping) (n : Nat) (clear : Bool) (out : Outcome DevState Call Unit) : Prop where
  ends : out.value = some ()
  writes : (out.trace.flatMap fun e => registerWrite e.2) = (List.range (registers n)).map fun j =>
    (some m, XDMA_OFS_INT_CTRL + userMsiVector + 4 * j, registerBytes n clear j)
  inside : n ≤ 32 → ∀ write ∈ out.trace.flatMap fun e => registerWrite e.2,
    XDMA_OFS_INT_CTRL + userMsiVector ≤ write.2.1 ∧ write.2.1 + 4 ≤ XDMA_OFS_INT_CTRL + channelMsiVector

/-- Setting and clearing the vectors writes the same registers, and the loop comes to its end
however many more passes it is given. -/
theorem progIrqMsixUser_programs {s : DevState} {x : XdevPtr} {m : Mapping} (clear : Bool)
    (mapped : (s.xdev x).bar (s.xdev x).configBarIdx = some m) :
    Programs m (s.xdev x).userMax clear ((progIrqMsixUser x clear).run s) ∧
      ∀ passes, (s.xdev x).userMax ≤ passes →
        progVectorsFrom (some m) userMsiVector (s.xdev x).userMax clear passes 0 0 =
          progVectorsFrom (some m) userMsiVector (s.xdev x).userMax clear (s.xdev x).userMax 0 0 := by
  have enough : registers (s.xdev x).userMax ≤ 0 + (s.xdev x).userMax := by
    unfold registers
    omega
  have run : Act.collects registerWrite (progIrqMsixUser x clear) (fun v _ writes =>
      v = some () ∧ writes = (List.range (registers (s.xdev x).userMax)).map fun j =>
        (some m, XDMA_OFS_INT_CTRL + userMsiVector + 4 * j,
          registerBytes (s.xdev x).userMax clear j)) s := by
    simp only [progIrqMsixUser, configBase, loadXdev, Act.collects_bind, Act.collects_read,
      Act.thenCollects_some, List.nil_append, mapped]
    rw [List.range_eq_range']
    exact progVectorsFrom_collects m userMsiVector clear _ (.inl rfl) enough
  obtain ⟨ends, writes⟩ := run
  refine ⟨⟨ends, writes, fun few write member => ?_⟩, fun passes longer => ?_⟩
  · rw [writes] at member
    obtain ⟨j, below, rfl⟩ := List.mem_map.mp member
    rw [List.mem_range, registers] at below
    simp only [userMsiVector, channelMsiVector]
    omega
  · exact progVectorsFrom_more _ _ clear (.inl rfl) enough longer

/-- A device with six user interrupts whose config BAR is mapped. -/
def sixVectors : DevState where
  config := fun _ => 0
  regs := fun _ _ => 0
  xdev := fun _ => { userMax := 6, configBarIdx := 1, bar := fun _ => some ⟨0, 1, 0, 0x8000⟩ }

theorem progIrqMsixUser_programs_six :
    Programs ⟨0, 1, 0, 0x8000⟩ 6 false ((progIrqMsixUser ⟨0, 0⟩ false).run sixVectors) ∧
      ∀ passes, 6 ≤ passes →
        progVectorsFrom (some ⟨0, 1, 0, 0x8000⟩) userMsiVector 6 false passes 0 0 =
          progVectorsFrom (some ⟨0, 1, 0, 0x8000⟩) userMsiVector 6 false 6 0 0 :=
  progIrqMsixUser_programs (s := sixVectors) (x := ⟨0, 0⟩) false rfl

example : registerBytes 6 false 1 = [4, 5, 0, 0] := by decide

end PcieUtil.Driver.Vectors
