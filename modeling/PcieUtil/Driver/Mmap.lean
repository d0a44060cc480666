import PcieUtil.Driver.CtrlFile

/-! What bridge_mmap maps, against the BAR of the file. -/

namespace PcieUtil.Driver.Mmap
open Lib.Action State CtrlFile

/-- `off` in bridge_mmap -/
def offOf (vma : Vma) : BitVec 64 := vma.vmPgoff <<< PAGE_SHIFT

/-- `phys` in bridge_mmap -/
def physOf (dev : PciDev) (bar : Nat) (vma : Vma) : BitVec 64 := dev.resourceStart bar + offOf vma

/-- `vsize` in bridge_mmap -/
def vsizeOf (vma : Vma) : BitVec 64 := vma.vmEnd - vma.vmStart

/-- The range that a run maps lies inside the BAR of the file. -/
def StaysInside (hw : Dev → PciDev) (xcdev : XgpuCdev) (vma : Vma) (out : Outcome World Call Int) :
    Prop :=
  ∀ x, xcdev.xdev = some x → ∀ e ∈ out.trace, ∀ vmStart pfn size,
    e.2 = .ioRemapPfnRange vmStart pfn size →
    let dev := hw x.pdev
    let bar := xcdev.bar.toNat
    pfn = physOf dev bar vma >>> PAGE_SHIFT ∧ size = vsizeOf vma ∧
      (dev.resourceStart bar).toNat ≤ (physOf dev bar vma).toNat ∧
      (physOf dev bar vma).toNat + size.toNat ≤ (dev.resourceEnd bar).toNat + 1

/-- The offset is not behind the BAR, or so little that the size left, which has wrapped
around, is smaller than the area. -/
def OffsetFits (dev : PciDev) (bar : Nat) (vma : Vma) : Prop :=
  let len := (dev.resourceEnd bar).toNat - (dev.resourceStart bar).toNat + 1
  (offOf vma).toNat ≤ len ∨ 2 ^ 64 + len < (offOf vma).toNat + (vsizeOf vma).toNat

section
variable {hw : Dev → PciDev} {xcdev : XgpuCdev} {vma : Vma} {w : World}

/-- The remaining size that bridge_mmap computes, as a number. -/
theorem psize_toNat {start last : BitVec 64} (off : BitVec 64) (valid : start ≤ last) :
    (last - start + 1 - off).toNat =
      if off.toNat ≤ last.toNat - start.toNat + 1 then
        (last.toNat - start.toNat + 1 - off.toNat) % 2 ^ 64
      else 2 ^ 64 + (last.toNat - start.toNat + 1) - off.toNat := by
  have order : start.toNat ≤ last.toNat := valid
  have below := last.isLt
  have offset := off.isLt
  have len : (last - start + 1).toNat = (last.toNat - start.toNat + 1) % 2 ^ 64 := by
    rw [BitVec.toNat_add, BitVec.toNat_sub]
    have one : (1 : BitVec 64).toNat = 1 := rfl
    omega
  rw [BitVec.toNat_sub, len]
  split <;> omega

/-- The comparison of bridge_mmap lets an area pass that lies behind the BAR exactly when
the size left has wrapped around. -/
theorem inside_iff {start last vsize : BitVec 64} (off : BitVec 64) (valid : start ≤ last)
    (some_size : 0 < vsize) :
    (vsize ≤ last - start + 1 - off →
      start.toNat ≤ (start + off).toNat ∧ (start + off).toNat + vsize.toNat ≤ last.toNat + 1) ↔
    off.toNat ≤ last.toNat - start.toNat + 1 ∨
      2 ^ 64 + (last.toNat - start.toNat + 1) < off.toNat + vsize.toNat := by
  have order : start.toNat ≤ last.toNat := valid
  have positive : 0 < vsize.toNat := some_size
  have below := last.isLt
  have offset := off.isLt
  have left := psize_toNat off valid
  rw [BitVec.le_def, left, BitVec.toNat_add]
  constructor
  · intro inside
    by_cases fits : off.toNat ≤ last.toNat - start.toNat + 1
    · exact .inl fits
    · rw [if_neg fits] at inside
      right
      by_cases passes : vsize.toNat ≤ 2 ^ 64 + (last.toNat - start.toNat + 1) - off.toNat
      · have := inside passes
        omega
      · omega
  · rintro (fits | large) passes
    · rw [if_pos fits] at passes
      omega
    · split at passes <;> omega

/-- The only kernel call of bridge_mmap. -/
theorem bridgeMmap_trace {x : XdevPtr} (set : xcdev.xdev = some x) (remapOk : Bool) :
    ((bridgeMmap hw xcdev vma remapOk).run w).trace =
      let dev := hw x.pdev
      let bar := xcdev.bar.toNat
      if dev.resourceEnd bar - dev.resourceStart bar + 1 - offOf vma < vsizeOf vma then []
      else [(w, .ioRemapPfnRange vma.vmStart (physOf dev bar vma >>> PAGE_SHIFT) (vsizeOf vma))] := by
  unfold bridgeMmap
  rw [set]
  dsimp only
  split
  next refused => exact (if_pos refused).symm
  next passes =>
    refine Eq.trans ?_ (if_neg passes).symm
    cases remapOk <;> rfl

/-- What bridge_mmap maps lies inside the BAR exactly when the offset does, or the area is
too large even for the size that wraps around. -/
theorem mmap_inside_iff (remapOk : Bool)
    (valid : ∀ x, xcdev.xdev = some x →
      (hw x.pdev).resourceStart xcdev.bar.toNat ≤ (hw x.pdev).resourceEnd xcdev.bar.toNat)
    (some_size : 0 < vsizeOf vma) :
    StaysInside hw xcdev vma ((bridgeMmap hw xcdev vma remapOk).run w) ↔
      ∀ x, xcdev.xdev = some x → OffsetFits (hw x.pdev) xcdev.bar.toNat vma := by
  apply forall₂_congr
  intro x set
  have inside := inside_iff (offOf vma) (valid x set) some_size
  rw [OffsetFits, ← inside, bridgeMmap_trace set]
  dsimp only
  by_cases refused : (hw x.pdev).resourceEnd xcdev.bar.toNat -
      (hw x.pdev).resourceStart xcdev.bar.toNat + 1 - offOf vma < vsizeOf vma
  · rw [if_pos refused]
    constructor
    · intro _ passes
      exact absurd refused (BitVec.not_lt.mpr passes)
    · intro _ e made
      cases made
  · rw [if_neg refused]
    constructor
    · intro stays _
      obtain ⟨_, _, low, high⟩ := stays _ (List.mem_singleton_self _) _ _ _ rfl
      exact ⟨low, high⟩
    · intro stays e made vmStart pfn size called
      rw [List.mem_singleton.mp made] at called
      cases called
      exact ⟨rfl, rfl, stays (BitVec.not_lt.mp refused)⟩

end

/-- A control file for BAR 1 of device 0. -/
def barFile : XgpuCdev := ⟨some ⟨0, 0⟩, 0x0F00000E, false, some .ctrl, 1, .real⟩

/-- A device with one page of BAR 1, from 0x1000 on. -/
def onePage : Dev → PciDev := fun _ => plainDev (fun bar => if bar = 1 then 0x1000 else 0) false false

theorem mmap_inside_first_page :
    StaysInside onePage barFile ⟨0, 0x1000, 0⟩ ((bridgeMmap onePage barFile ⟨0, 0x1000, 0⟩ true).run
      (.start .plain (fun _ _ => 0) fun _ _ _ => 0)) := by
  apply (mmap_inside_iff true (by rintro x ⟨⟩; decide) (by decide)).mpr
  rintro x ⟨⟩
  exact .inl (by decide)

/-- An area two pages behind the start of a BAR of one page is mapped. -/
theorem maps_behind_bar :
    ¬ ∀ (hw : Dev → PciDev) (xcdev : XgpuCdev) (vma : Vma) (remapOk : Bool) (w : World),
      (∀ x, xcdev.xdev = some x →
        (hw x.pdev).resourceStart xcdev.bar.toNat ≤ (hw x.pdev).resourceEnd xcdev.bar.toNat) →
      0 < vsizeOf vma → (vsizeOf vma).toNat % 2 ^ PAGE_SHIFT = 0 →
      vma.vmPgoff.toNat + (vsizeOf vma).toNat / 2 ^ PAGE_SHIFT < 2 ^ 64 →
      StaysInside hw xcdev vma ((bridgeMmap hw xcdev vma remapOk).run w) := by
  intro all
  have stays := all onePage barFile ⟨0, 0x1000, 2⟩ true (.start .plain (fun _ _ => 0) fun _ _ _ => 0)
    (by rintro x ⟨⟩; decide) (by decide) (by decide) (by decide)
  obtain ⟨_, _, _, high⟩ := stays ⟨0, 0⟩ rfl _ (List.mem_singleton_self _) _ _ _ rfl
  revert high
  decide

end PcieUtil.Driver.Mmap
