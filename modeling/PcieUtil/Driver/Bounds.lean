import PcieUtil.Driver.Transfers

/-! The register accesses that a user directs: through a control file at the file
position, and through the register ioctl at an address of the caller's choice. -/

namespace PcieUtil.Driver.Bounds
open Lib.Action Lib.Bytes State Kernel Bars RegisterFile CtrlFile Transfers

inductive Access where
  | ctrlRead (user : UserBuf) (pos : Nat)
  | ctrlWrite (user : UserBuf) (pos : Nat)
  | registerIoctl (cmd : BitVec 32) (arg : UserBuf)

/-- The handler of the access; its result without the position. -/
def Access.act (file : XgpuCdev) : Access → M Int
  | ctrlRead user pos => Prod.fst <$> charCtrlRead file user pos
  | ctrlWrite user pos => Prod.fst <$> charCtrlWrite file user pos
  | registerIoctl cmd arg => charRegisterIoctl file cmd arg

/-- The mapping that the access goes through and the offset it names. -/
def Access.target (w : World) (file : XgpuCdev) : Access → Option Mapping × Nat
  | ctrlRead _ pos => (ctrlMapping w file, pos)
  | ctrlWrite _ pos => (ctrlMapping w file, pos)
  | registerIoctl _ arg => (w.pcimapAddr, (RegisterReadWrite.ofBytes (load arg.data 0 8)).address.toNat)

/-- The accesses that a handler refuses for another reason than their offset. -/
def Access.Refused : Access → Prop
  | ctrlRead _ pos => pos % 4 ≠ 0
  | ctrlWrite _ pos => pos % 4 ≠ 0
  | registerIoctl cmd arg =>
      (cmd ≠ XGPU_IOCTL_REGISTER_READ ∧ cmd ≠ XGPU_IOCTL_REGISTER_WRITE) ∨ arg.avail < 8

/-- The four bytes at an offset lie inside what is mapped. -/
def InBounds (access : Option Mapping × Nat) : Prop :=
  ∃ m, access.1 = some m ∧ access.2 + 4 ≤ m.len

/-- The register accesses among the calls. -/
def mmio : Call → List (Option Mapping × Nat)
  | .ioread32 base offset => [(base, offset)]
  | .iowrite32 base offset _ => [(base, offset)]
  | _ => []

/-- Every register access of a run is in bounds, and when the target is not, the run
ends in an error without one. -/
structure Contained (target : Option Mapping × Nat) (out : Outcome World Call Int) : Prop where
  bounds : ∀ access ∈ out.trace.flatMap fun e => mmio e.2, InBounds access
  outside : ¬ InBounds target →
    (∃ ret, out.value = some ret ∧ ret < 0) ∧ (out.trace.flatMap fun e => mmio e.2) = []

/-- What `Contained` says of a result and the accesses on the way to it. -/
def Confines (target : Option Mapping × Nat) (v : Option Int) (accesses : List (Option Mapping × Nat)) :
    Prop :=
  (∀ access ∈ accesses, InBounds access) ∧
    (¬ InBounds target → (∃ ret, v = some ret ∧ ret < 0) ∧ accesses = [])

/-- A file and the state it is used in. A control file has the BAR that
file_create_interface gave to one of the nodes, and map_bars has mapped what the
device has; the register files go through what some pci_iomap of BAR 5 returned. -/
def Ready (hw : Dev → PciDev) (w : World) (file : XgpuCdev) (x : XdevPtr) : Access → Prop
  | .registerIoctl _ _ =>
      ∀ m, w.pcimapAddr = some m → m.bar = REGISTER_BAR ∧ m.len = ((hw m.pdev).resourceLen 5).toNat
  | _ => ∃ ii < tables.ifwiItems.length,
      file.bar = ((w.dev x.pdev).xdev x).configBarIdx + ii ∧
      ((w.dev x.pdev).xdev x).configBarIdx = 1 ∧
      Mapped hw x.pdev ((w.dev x.pdev).xdev x).bar XGPU_BAR_NUM

/-- The access names four bytes of a BAR that is there and mapped so far. -/
def Access.InRange (hw : Dev → PciDev) (w : World) (file : XgpuCdev) (x : XdevPtr) : Access → Prop
  | ctrlRead _ pos | ctrlWrite _ pos =>
      (hw x.pdev).resourceLen file.bar.toNat ≠ 0 ∧
        pos + 4 ≤ min ((hw x.pdev).resourceLen file.bar.toNat).toNat INT_MAX
  | registerIoctl _ arg =>
      ∃ m, w.pcimapAddr = some m ∧
        (RegisterReadWrite.ofBytes (load arg.data 0 8)).address.toNat + 4 ≤
          ((hw m.pdev).resourceLen 5).toNat

section
variable {hw : Dev → PciDev} {w : World} {file : XgpuCdev} {x : XdevPtr}

theorem contained_iff {target : Option Mapping × Nat} {act : M Int} :
    Contained target (act.run w) ↔
      Act.collects mmio act (fun v _ accesses => Confines target v accesses) w := by
  unfold Act.collects Confines
  constructor
  · intro contained
    exact ⟨contained.bounds, contained.outside⟩
  · intro post
    obtain ⟨bounds, outside⟩ := post
    exact ⟨bounds, outside⟩

@[simp] theorem confines_one {target : Option Mapping × Nat} {v : Option Int} :
    Confines target v [target] ↔ InBounds target := by
  unfold Confines
  simp only [List.mem_singleton, forall_eq, reduceCtorEq, and_false, imp_false, not_not, and_self]

theorem confines_error {target : Option Mapping × Nat} {ret : Int} (negative : ret < 0) :
    Confines target (some ret) [] :=
  ⟨fun _ member => absurd member List.not_mem_nil, fun _ => ⟨⟨ret, rfl, negative⟩, rfl⟩⟩

theorem ctrlMapping_owner (owner : file.xdev = some x) :
    ctrlMapping w file = ((w.dev x.pdev).xdev x).bar file.bar := by
  rw [ctrlMapping, owner, Option.bind_some]

theorem ctrlRead_contained (owner : file.xdev = some x) (user : UserBuf) (pos : Nat) :
    Contained (ctrlMapping w file, pos) ((Prod.fst <$> charCtrlRead file user pos).run w) ↔
      pos % 4 ≠ 0 ∨ InBounds (ctrlMapping w file, pos) := by
  rw [contained_iff, ctrlMapping_owner owner]
  simp only [charCtrlRead, owner]
  by_cases aligned : pos % 4 = 0
  · simp only [aligned, ne_eq, not_true_eq_false, if_false, ctrlBase, Act.collects_map,
      Act.collects_bind, Act.collects_read, Act.thenCollects_some, collects_ioread32At, false_or]
    cases wordAt w pos (((w.dev x.pdev).xdev x).bar file.bar) with
    | none => exact confines_one
    | some val =>
      simp only [Act.thenCollects_some, collects_copyToUser, Act.collects_pure]
      exact confines_one
  · have error : Confines (((w.dev x.pdev).xdev x).bar file.bar, pos) (some (-(EPROTO : Int))) [] :=
      confines_error (by decide)
    simpa [aligned] using error

theorem ctrlWrite_contained (owner : file.xdev = some x) (user : UserBuf) (pos : Nat) :
    Contained (ctrlMapping w file, pos) ((Prod.fst <$> charCtrlWrite file user pos).run w) ↔
      pos % 4 ≠ 0 ∨ InBounds (ctrlMapping w file, pos) := by
  rw [contained_iff, ctrlMapping_owner owner]
  simp only [charCtrlWrite, owner]
  by_cases aligned : pos % 4 = 0
  · simp only [aligned, ne_eq, not_true_eq_false, if_false, ctrlBase, Act.collects_map,
      Act.collects_bind, Act.collects_read, Act.thenCollects_some, collects_copyFromUser, false_or,
      bind_pure_comp, mmio, List.nil_append]
    rw [collects_iowrite32At mmio]
    exact confines_one
  · have error : Confines (((w.dev x.pdev).xdev x).bar file.bar, pos) (some (-(EPROTO : Int))) [] :=
      confines_error (by decide)
    simpa [aligned] using error

/-- The copy of the ioctl argument: an error, or the eight bytes. -/
theorem argument_confines (w : World) (target : Option Mapping × Nat) (arg : UserBuf)
    (next : List Byte → M Int) :
    Act.collects mmio
      (do
        let (bytes, missed) ← copyFromUser arg 0 8
        if missed ≠ 0 then return -(EFAULT : Int) else next bytes)
      (fun v _ accesses => Confines target v accesses) w ↔
      arg.avail < 8 ∨
        Act.collects mmio (next (load arg.data 0 8)) (fun v _ accesses => Confines target v accesses) w := by
  by_cases unreadable : arg.avail < 8
  · have missed : 8 - min 8 (arg.avail - 0) ≠ 0 := by omega
    have error : Confines target (some (-(EFAULT : Int))) [] := confines_error (by decide)
    simp only [Act.collects_bind, collects_copyFromUser, Act.thenCollects_some, if_pos missed,
      Act.collects_pure, mmio, List.append_nil, error, unreadable, true_or]
  · have all : min 8 (arg.avail - 0) = 8 := by omega
    simp only [Act.collects_bind, collects_copyFromUser, Act.thenCollects_some, all, Nat.sub_self,
      ne_eq, not_true_eq_false, if_false, List.replicate_zero, List.append_nil, mmio,
      List.nil_append, unreadable, false_or]

theorem registerIoctl_contained (owner : file.xdev = some x) (cmd : BitVec 32) (arg : UserBuf) :
    Contained ((Access.registerIoctl cmd arg).target w file) ((charRegisterIoctl file cmd arg).run w) ↔
      (Access.registerIoctl cmd arg).Refused ∨ InBounds ((Access.registerIoctl cmd arg).target w file) := by
  rw [contained_iff]
  simp only [charRegisterIoctl, owner, reduceCtorEq, if_false, Access.target, Access.Refused]
  generalize address : (RegisterReadWrite.ofBytes (load arg.data 0 8)).address.toNat = offset
  by_cases reads : cmd = XGPU_IOCTL_REGISTER_READ
  · rw [if_pos reads]
    simp only [reads, ne_eq, not_true_eq_false, false_and, false_or]
    have argument := argument_confines w (w.pcimapAddr, offset) arg fun bytes => do
      let reg := RegisterReadWrite.ofBytes bytes
      let base ← Act.read World.pcimapAddr
      let value ← ioread32At base reg.address.toNat
      let ret ← copyToUser arg { reg with value := value }.toBytes
      if ret ≠ 0 then return -(EFAULT : Int) else return 0
    rw [argument]
    refine or_congr_right ?_
    simp only [Act.collects_bind, Act.collects_read, Act.thenCollects_some, collects_ioread32At,
      List.nil_append]
    rw [address]
    cases wordAt w offset w.pcimapAddr with
    | none => exact confines_one
    | some val =>
      simp only [Act.thenCollects_some, collects_copyToUser]
      split <;> exact confines_one
  · rw [if_neg reads]
    by_cases writes : cmd = XGPU_IOCTL_REGISTER_WRITE
    · rw [if_pos writes]
      simp only [writes, ne_eq, not_true_eq_false, and_false, false_or]
      have argument := argument_confines w (w.pcimapAddr, offset) arg fun bytes => do
        let reg := RegisterReadWrite.ofBytes bytes
        let base ← Act.read World.pcimapAddr
        iowrite32At reg.value base reg.address.toNat
        return 0
      rw [argument]
      refine or_congr_right ?_
      simp only [bind_pure_comp, Act.collects_bind, Act.collects_read, Act.thenCollects_some,
        Act.collects_map, List.nil_append]
      rw [address, collects_iowrite32At mmio]
      exact confines_one
    · have error : Confines (w.pcimapAddr, offset) (some (-(ENOTTY : Int))) [] :=
        confines_error (by decide)
      simp [reads, writes, error]

theorem access_contained (owner : file.xdev = some x) (access : Access) :
    Contained (access.target w file) ((access.act file).run w) ↔
      access.Refused ∨ InBounds (access.target w file) := by
  cases access with
  | ctrlRead user pos => exact ctrlRead_contained owner user pos
  | ctrlWrite user pos => exact ctrlWrite_contained owner user pos
  | registerIoctl cmd arg => exact registerIoctl_contained owner cmd arg

/-- The BAR of a control file, as map_bars has mapped it. -/
theorem ctrl_inBounds {ii pos : Nat} (owner : file.xdev = some x)
    (node : ii < tables.ifwiItems.length)
    (bar : file.bar = ((w.dev x.pdev).xdev x).configBarIdx + ii)
    (config : ((w.dev x.pdev).xdev x).configBarIdx = 1)
    (mapped : Mapped hw x.pdev ((w.dev x.pdev).xdev x).bar XGPU_BAR_NUM) :
    InBounds (ctrlMapping w file, pos) ↔
      (hw x.pdev).resourceLen file.bar.toNat ≠ 0 ∧
        pos + 4 ≤ min ((hw x.pdev).resourceLen file.bar.toNat).toNat INT_MAX := by
  have small : ii < 3 := node
  have index : file.bar = ((1 + ii : Nat) : Int) := by omega
  have maps := mapped.below (1 + ii) (by unfold XGPU_BAR_NUM; omega)
  have number : file.bar.toNat = 1 + ii := by omega
  rw [ctrlMapping_owner owner, number, index]
  unfold MapsBar at maps
  unfold InBounds
  by_cases absent : (hw x.pdev).resourceLen (1 + ii) = 0
  · rw [if_pos absent] at maps
    rw [maps]
    simp [absent]
  · rw [if_neg absent] at maps
    obtain ⟨serial, maps⟩ := maps
    have len : mapLen hw x.pdev (1 + ii) =
        min ((hw x.pdev).resourceLen (1 + ii)).toNat INT_MAX := by
      unfold mapLen
      split <;> omega
    rw [maps, ← len]
    simp only [Option.some.injEq, exists_eq_left', absent, ne_eq, not_false_eq_true, true_and]

/-- The accesses that a user directs are in bounds, and those out of range refused,
exactly when the access is refused for another reason or names bytes of a BAR that
is there. -/
theorem access_in_bounds_iff (owner : file.xdev = some x) (access : Access)
    (ready : Ready hw w file x access) :
    Contained (access.target w file) ((access.act file).run w) ↔
      access.Refused ∨ access.InRange hw w file x := by
  rw [access_contained owner]
  refine or_congr_right ?_
  cases access with
  | ctrlRead user pos =>
    obtain ⟨ii, node, bar, config, mapped⟩ := ready
    exact ctrl_inBounds owner node bar config mapped
  | ctrlWrite user pos =>
    obtain ⟨ii, node, bar, config, mapped⟩ := ready
    exact ctrl_inBounds owner node bar config mapped
  | registerIoctl cmd arg =>
    constructor
    · intro post
      obtain ⟨m, base, inside⟩ := post
      exact ⟨m, base, (ready m base).2 ▸ inside⟩
    · intro post
      obtain ⟨m, base, inside⟩ := post
      exact ⟨m, base, (ready m base).2.symm ▸ inside⟩

end

/-- The first device with its BAR 1 mapped. -/
def mappedXdev : XgpuDev :=
  { configBarIdx := 1, bar := fun i => if i = 1 then some ⟨0, 1, 1, 0x8000⟩ else none }

def mappedWorld : World :=
  { World.start .plain (fun _ _ => 0) (fun _ _ _ => 0) with
    dev := fun _ => { config := fun _ => 0, regs := fun _ _ => 0, xdev := fun _ => mappedXdev } }

def oneBar : Dev → PciDev := fun _ => plainDev (fun bar => if bar = 1 then 0x8000 else 0) false false

theorem mappedWorld_ready (access : Access) :
    Ready oneBar mappedWorld (nodeFile 14 1) ⟨0, 0⟩ access := by
  have mapped : Mapped oneBar 0 mappedXdev.bar XGPU_BAR_NUM := by
    constructor
    · intro j below
      by_cases first : j = 1
      · subst first
        exact ⟨1, rfl⟩
      · have absent : (oneBar 0).resourceLen j = 0 := by
          simp [oneBar, plainDev, PciDev.resourceLen, first]
        rw [MapsBar, if_pos absent]
        exact if_neg (by omega)
    · intro j above
      exact if_neg (by unfold XGPU_BAR_NUM at above; omega)
  cases access with
  | ctrlRead user pos => exact ⟨0, by decide, rfl, rfl, mapped⟩
  | ctrlWrite user pos => exact ⟨0, by decide, rfl, rfl, mapped⟩
  | registerIoctl cmd arg => exact fun m unset => by cases unset

theorem access_in_bounds_iff_first :
    Contained (some ⟨0, 1, 1, 0x8000⟩, 0)
      (((Access.ctrlRead ample 0).act (nodeFile 14 1)).run mappedWorld) :=
  (access_in_bounds_iff rfl (.ctrlRead ample 0) (mappedWorld_ready _)).mpr
    (.inr ⟨by decide, by decide⟩)

/-- A read behind the end of BAR 1 is not refused. -/
theorem read_behind_bar :
    ¬ ∀ (hw : Dev → PciDev) (w : World) (file : XgpuCdev) (x : XdevPtr) (access : Access),
      file.xdev = some x → Ready hw w file x access →
        Contained (access.target w file) ((access.act file).run w) := by
  intro all
  have contained := all oneBar mappedWorld (nodeFile 14 1) ⟨0, 0⟩ (.ctrlRead ample 0x8000) rfl
    (mappedWorld_ready _)
  have accessed : (some ⟨0, 1, 1, 0x8000⟩, 0x8000) ∈
      ((Access.act (nodeFile 14 1) (.ctrlRead ample 0x8000)).run mappedWorld).trace.flatMap
        fun e => mmio e.2 := by
    decide
  obtain ⟨m, base, inside⟩ := contained.bounds _ accessed
  cases base
  exact absurd inside (by decide)

end PcieUtil.Driver.Bounds
