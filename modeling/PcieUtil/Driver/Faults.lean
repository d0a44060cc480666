import PcieUtil.Driver.Transfers

/-! Write handlers on a user buffer that is not accessible as far as they copy. -/

namespace PcieUtil.Driver.Faults
open Lib.Action Lib.Bytes State Kernel ConfigFile RegisterFile CtrlFile Transfers

def Writes : Handler → Prop
  | .configWrite | .registerWrite | .ctrlWrite => True
  | .configRead | .registerRead | .ctrlRead => False

/-- The writes of a call to a device: configuration bytes and registers. -/
def deviceWrites : Call → List Call
  | .pciWriteConfig pdev offset bytes => [.pciWriteConfig pdev offset bytes]
  | .iowrite32 base offset value => [.iowrite32 base offset value]
  | _ => []

/-- A write that ends in an error and has no effect. -/
structure ChangesNothing (w : World) (pos : Nat) (out : Outcome World Call Ret) : Prop where
  error : ∃ ret, out.value = some (ret, pos) ∧ ret < 0
  snapshot : out.state.configData = w.configData
  device : (out.trace.flatMap fun e => deviceWrites e.2) = []

/-- What a copy of size bytes leaves in its destination: the accessible bytes, and
zeros behind them. -/
def received (user : UserBuf) (start size : Nat) : List Byte :=
  load user.data start (min size (user.avail - start)) ++
    List.replicate (size - min size (user.avail - start)) 0

/-- The writes that a fault leaves without effect: of a field, whose copy goes to a
variable, and of the whole space when the snapshot already holds what the copy
leaves in it. -/
def Harmless (t : Tables) (w : World) (xcdev : XgpuCdev) (user : UserBuf) (pos : Nat) :
    Handler → Prop
  | .configWrite => ∀ item, t.configItems[minorOf xcdev.cdevno]? = some item → 4 < item.length →
      store w.configData 0 (received user pos (min item.length PCI_CONFIG_SIZE)) = w.configData
  | .registerWrite => True
  | _ => False

section
variable {hw : Dev → PciDev} {t : Tables} {w : World} {xcdev : XgpuCdev} {user : UserBuf}
  {pos : Nat}

theorem changesNothing_iff {act : M Ret} :
    ChangesNothing w pos (act.run w) ↔
      Act.collects deviceWrites act (fun v w' writes => (∃ ret, v = some (ret, pos) ∧ ret < 0) ∧
        w'.configData = w.configData ∧ writes = []) w := by
  unfold Act.collects
  constructor
  · intro none
    exact ⟨none.error, none.snapshot, none.device⟩
  · intro post
    obtain ⟨error, snapshot, device⟩ := post
    exact ⟨error, snapshot, device⟩

/-- A short copy that is the first step and whose failure is the error. -/
theorem short_copy {start size : Nat} (next : List Byte → M Ret)
    (short : user.avail - start < size) :
    ChangesNothing w pos (Act.run (do
      let (bytes, missed) ← copyFromUser user start size
      if missed ≠ 0 then return (-(EINVAL : Int), pos) else next bytes) w) := by
  have missed : size - min size (user.avail - start) ≠ 0 := by omega
  rw [changesNothing_iff]
  simp only [Act.collects_bind, collects_copyFromUser, Act.thenCollects_some, if_pos missed,
    Act.collects_pure, deviceWrites, List.append_nil, and_self, and_true]
  exact ⟨_, rfl, by decide⟩

theorem configWrite_fault {r : Request}
    (asks : Handler.request t w xcdev user pos .configWrite = some r) (short : r.accessible < r.size) :
    ChangesNothing w pos ((charConfigWrite hw t xcdev user pos).run w) ↔
      Harmless t w xcdev user pos .configWrite := by
  unfold Handler.request at asks
  unfold charConfigWrite Harmless
  cases set : xcdev.xdev with
  | none => simp [set] at asks
  | some x =>
    cases node : t.configItems[minorOf xcdev.cdevno]? with
    | none => simp [set, node] at asks
    | some item =>
      by_cases behind : item.length ≤ pos
      · simp [set, node, behind] at asks
      · by_cases field : item.length ≤ 4
        · simp only [set, node, behind, field, if_false, if_true, Option.some.injEq] at asks
          subst asks
          have copied : user.avail - 0 < item.length := short
          simp only [behind, field, if_false, if_true, Option.some.injEq, forall_eq',
            Nat.not_lt.mpr field, false_implies, iff_true]
          exact short_copy (fun bytes => do
            writeField hw x.pdev item (BitVec.ofNat 32 (ofLE bytes))
            return (item.length, pos + item.length)) copied
        · simp only [set, node, behind, field, if_false, Option.some.injEq] at asks
          subst asks
          have cut : (if PCI_CONFIG_SIZE < item.length then PCI_CONFIG_SIZE else item.length) =
              min item.length PCI_CONFIG_SIZE := by
            split <;> omega
          have copied : user.avail - pos < min item.length PCI_CONFIG_SIZE := short
          rw [changesNothing_iff]
          simp only [behind, field, if_false, Option.some.injEq, forall_eq', cut,
            Nat.not_le.mp field, true_implies]
          generalize min item.length PCI_CONFIG_SIZE = length at *
          have missed : length - min length (user.avail - pos) ≠ 0 := by omega
          simp only [Act.collects_bind, collects_copyFromUser, Act.thenCollects_some,
            Act.collects_update, if_pos missed, Act.collects_pure, deviceWrites, List.append_nil,
            and_true]
          constructor
          · intro post
            obtain ⟨_, snapshot⟩ := post
            exact snapshot
          · intro same
            exact ⟨⟨_, rfl, by decide⟩, same⟩

theorem registerWrite_fault {r : Request}
    (asks : Handler.request t w xcdev user pos .registerWrite = some r)
    (short : r.accessible < r.size) :
    ChangesNothing w pos ((charRegisterWrite t xcdev user pos).run w) := by
  unfold Handler.request registerItem at asks
  unfold charRegisterWrite
  by_cases out : 4 ≤ pos ∨ xcdev.xdev = none
  · simp [out] at asks
  · obtain ⟨before, set⟩ := not_or.mp out
    cases place : registerLoc t xcdev with
    | none => simp [out, place] at asks
    | some loc =>
      cases node : t.registerItems[loc]? with
      | none => simp [out, place, node] at asks
      | some item =>
        simp only [out, place, node, if_false, Option.bind_some, Option.some.injEq] at asks
        subst asks
        have copied : user.avail - 0 < 4 := short
        simp only [before, set, if_false, node]
        exact short_copy (fun bytes => do
          let base ← Act.read World.pcimapAddr
          iowrite32At (BitVec.ofNat 32 (ofLE bytes)) base item.offset
          return (4, pos + 4)) copied

/-- The control file writes the register all the same, when it gets that far. -/
theorem ctrlWrite_fault {r : Request}
    (asks : Handler.request t w xcdev user pos .ctrlWrite = some r) :
    ¬ ChangesNothing w pos ((charCtrlWrite xcdev user pos).run w) := by
  intro nothing
  have writes : Act.collects deviceWrites (charCtrlWrite xcdev user pos)
      (fun _ _ writes => writes = []) w := nothing.device
  unfold Handler.request at asks
  unfold charCtrlWrite at writes
  cases set : xcdev.xdev with
  | none => simp [set] at asks
  | some x =>
    by_cases aligned : pos % 4 = 0
    · simp only [set, aligned, ne_eq, not_true_eq_false, if_false, ctrlBase, Act.collects_bind,
        Act.collects_read, Act.thenCollects_some, List.nil_append, collects_copyFromUser,
        bind_pure_comp, Act.collects_map, deviceWrites] at writes
      rw [collects_iowrite32At deviceWrites] at writes
      simp [deviceWrites] at writes
    · simp [aligned] at asks

/-- A write on a faulting buffer has no effect exactly when it is harmless. -/
theorem fault_changes_nothing_iff {handler : Handler} (writes : Writes handler) {r : Request}
    (asks : handler.request t w xcdev user pos = some r) (short : r.accessible < r.size) (count : Nat) :
    ChangesNothing w pos ((handler.act hw t xcdev user count pos).run w) ↔
      Harmless t w xcdev user pos handler := by
  cases handler with
  | configRead => exact writes.elim
  | configWrite => exact configWrite_fault asks short
  | registerRead => exact writes.elim
  | registerWrite => exact iff_of_true (registerWrite_fault asks short) trivial
  | ctrlRead => exact writes.elim
  | ctrlWrite => exact iff_of_false (ctrlWrite_fault asks) id

end

/-- A buffer of one accessible byte. -/
def oneByte : UserBuf := ⟨fun _ => 0xff, 1, 1⟩

def quietWorld : World := .start .plain (fun _ _ => 0) fun _ _ _ => 0

theorem fault_changes_nothing_vendor :
    ChangesNothing quietWorld 0 ((Handler.act (fun _ => plainDev (fun _ => 0) false false) tables
      (nodeFile 1 1) oneByte 2 0 .configWrite).run quietWorld) := by
  have asks : Handler.request tables quietWorld (nodeFile 1 1) oneByte 0 .configWrite =
      some ⟨2, 1, false⟩ := rfl
  have writes : Writes .configWrite := trivial
  refine (fault_changes_nothing_iff writes asks (by decide) 2).mpr fun item node long => ?_
  have vendor : item = ⟨1, 0, 2, "xgpu%d/vendor"⟩ := (Option.some.inj node).symm
  rw [vendor] at long
  exact absurd long (by decide)

/-- A write of the whole space with one accessible byte leaves the byte in the snapshot. -/
theorem snapshot_takes_fault :
    ¬ ∀ (handler : Handler) (hw : Dev → PciDev) (t : Tables) (w : World) (xcdev : XgpuCdev)
      (user : UserBuf) (pos count : Nat) (r : Request), Writes handler →
        handler.request t w xcdev user pos = some r → r.accessible < r.size →
          ChangesNothing w pos ((handler.act hw t xcdev user count pos).run w) := by
  intro all
  have whole := all .configWrite (fun _ => plainDev (fun _ => 0) false false) tables quietWorld
    (nodeFile 0 1) oneByte 0 128 ⟨128, 1, false⟩ trivial rfl (by decide)
  have first : (255 : Byte) = 0 := congrFun whole.snapshot 0
  cases first

end PcieUtil.Driver.Faults
