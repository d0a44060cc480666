import PcieUtil.Lib.Cells
import PcieUtil.System.Registers

/-! The registers of a device as its files show them: one memory, whichever file, ioctl or process an
access comes from. -/

namespace PcieUtil.System.RegisterMemory
open Lib.Action Lib.Bytes Lib.Cells
open Driver.State Driver.Kernel Driver.ConfigFile Driver.RegisterFile Driver.CtrlFile Driver.DeviceOpen
  Driver.Devices Driver.Interfaces Driver.Transfers Driver.Probe Driver.Requests Hotplug

/-- A register: its device, its BAR and its offset. -/
abbrev Cell := Dev × Nat × Nat

def cells (w : World) (cell : Cell) : BitVec 32 := (w.dev cell.1).regs cell.2.1 cell.2.2

def cellAt (m : Mapping) (offset : Nat) : Cell := (m.pdev, m.bar, offset)

/-- The bytes that copy_from_user leaves, zero behind what it can read. -/
def given (user : UserBuf) (count : Nat) : List Byte :=
  load user.data 0 (min count user.avail) ++ List.replicate (count - min count user.avail) 0

/-- What is written by the bytes of a user. -/
def word (bytes : List Byte) : BitVec 32 := BitVec.ofNat 32 (ofLE bytes)

section
variable (t : Tables)

/-- The register that a request on a register file is about. -/
def registerAccess (w : World) (xcdev : XgpuCdev) : Op → Option (Access Cell (BitVec 32))
  | .read _ _ pos => do
      let item ← registerItem t xcdev pos
      let m ← w.pcimapAddr
      return .read (cellAt m item.offset)
  | .write user _ pos =>
      if user.avail < 4 then none
      else do
        let item ← registerItem t xcdev pos
        let m ← w.pcimapAddr
        return .write (cellAt m item.offset) (word (given user 4))
  | .ioctl cmd arg _ =>
      let reg := RegisterReadWrite.ofBytes (given arg 8)
      if xcdev.xdev = none ∨ arg.avail < 8 then none
      else if cmd = XGPU_IOCTL_REGISTER_READ then
        w.pcimapAddr.map fun m => .read (cellAt m reg.address.toNat)
      else if cmd = XGPU_IOCTL_REGISTER_WRITE then
        w.pcimapAddr.map fun m => .write (cellAt m reg.address.toNat) reg.value
      else none
  | .mmap _ _ | .release => none

/-- The register that a request on a control file is about. -/
def ctrlAccess (w : World) (xcdev : XgpuCdev) : Op → Option (Access Cell (BitVec 32))
  | .read _ _ pos =>
      if pos % 4 ≠ 0 then none else (ctrlMapping w xcdev).map fun m => .read (cellAt m pos)
  | .write user _ pos =>
      if pos % 4 ≠ 0 then none
      else (ctrlMapping w xcdev).map fun m => .write (cellAt m pos) (word (given user 4))
  | .ioctl _ _ _ | .mmap _ _ | .release => none

def access (w : World) (file : File) (op : Op) : Option (Access Cell (BitVec 32)) :=
  let xcdev := (w.dev file.member.pdev).member file.member
  match file.ops with
  | .config => none
  | .register => registerAccess t w xcdev op
  | .ctrl => ctrlAccess w xcdev op

end

/-- What a call hands to the user. -/
def handed : Call → List (List Byte)
  | .copyToUser src copied => [src.take copied]
  | _ => []

/-- What the user gets of the value of a register, as far as there is room. -/
def reply (value : BitVec 32) : Op → List Byte
  | .read user _ _ => (toLE 4 value.toNat).take user.room
  | .ioctl _ arg _ => { RegisterReadWrite.ofBytes (given arg 8) with value := value }.toBytes.take arg.room
  | .write _ _ _ | .mmap _ _ | .release => []

/-- What a write makes of the registers: those of its device are what that device makes of them. -/
def effect (bus : Dev → RegBus) (mem : Cell → BitVec 32) (cell : Cell) (value : BitVec 32) : Cell → BitVec 32 :=
  fun other =>
    if other.1 = cell.1 then
      (bus cell.1).regWrite (fun bar offset => mem (cell.1, bar, offset)) cell.2.1 cell.2.2 value
        other.2.1 other.2.2
    else mem other

def busOf (w : World) (d : Dev) : RegBus := (w.dev d).bus

/-- A request does its access and nothing else to the registers; a read hands out what the register
holds. -/
structure Serves (access : Option (Access Cell (BitVec 32))) (op : Op) (w u : World) (told : List (List Byte)) :
    Prop where
  cells : cells u = store (effect (busOf w)) (cells w) access.toList
  told : ∀ cell, access = some (.read cell) → told = [reply (RegisterMemory.cells w cell) op]

section
variable {hw : Dev → PciDev} {t : Tables} {w : World} {file : File} {op : Op} {pdev : Dev} {α : Type}

/-- Code that touches no register. -/
abbrev Leaves (w : World) (act : M α) : Prop :=
  Act.Maintains (fun u => cells u = cells w) (fun _ => True) act

theorem cells_setDev {u : World} {s : DevState} (same : cells u = cells w) (regs : s.regs = (u.dev pdev).regs) :
    cells (setDev u pdev s) = cells w := by
  rw [← same]
  funext cell
  unfold cells
  by_cases own : cell.1 = pdev
  · rw [own, setDev_dev_same, regs]
  · rw [setDev_dev_other u s own]

theorem leaves_onDev {c : Call} {answer : DevState → α × DevState} (regs : ∀ s, (answer s).2.regs = s.regs) :
    Leaves w (onDev pdev (Act.call c answer)) := by
  intro u same
  rw [onDev, Act.wp_zoom, Act.wp_call, setDev_self]
  exact ⟨⟨same, trivial⟩, cells_setDev same (regs _)⟩

theorem leaves_configRead (xcdev : XgpuCdev) (user : UserBuf) (count pos : Nat) :
    Leaves w (charConfigRead t xcdev user count pos) :=
  charConfigRead_maintains count pos (fun _ _ _ _ => leaves_onDev fun _ => rfl) fun _ => .call trivial fun _ => id

theorem leaves_configWrite (xcdev : XgpuCdev) (user : UserBuf) (pos : Nat) :
    Leaves w (charConfigWrite hw t xcdev user pos) :=
  charConfigWrite_maintains pos (fun _ _ _ _ => leaves_onDev fun _ => rfl)
    (fun _ _ _ _ => leaves_onDev fun _ => rfl) (fun _ _ => .call trivial fun _ => id) fun _ _ => id

/-- A request without an access. -/
theorem serves_none {u : World} {told : List (List Byte)} (same : cells u = cells w) : Serves none op w u told where
  cells := same
  told cell reads := by cases reads

theorem collects_leaves {act : M α} (leaves : Leaves w act) :
    Act.collects handed act (fun _ u told => Serves none op w u told) w :=
  serves_none (leaves w rfl).2

theorem serves_read {cell : Cell} {u : World} {told : List (List Byte)} (same : cells u = cells w)
    (answer : told = [reply (cells w cell) op]) : Serves (some (.read cell)) op w u told where
  cells := same
  told other reads := by
    obtain rfl := Access.read.inj (Option.some.inj reads)
    exact answer

theorem serves_write {cell : Cell} {value : BitVec 32} {u : World} {told : List (List Byte)}
    (written : cells u = effect (busOf w) (cells w) cell value) :
    Serves (some (.write cell value)) op w u told where
  cells := written
  told other reads := by cases reads

/-! The two accesses. -/

/-- A register is read and handed out, whatever is returned for it. -/
theorem collects_reads (m : Mapping) (offset : Nat) (user : UserBuf) (answer : BitVec 32 → List Byte)
    {next : Nat → M α} (ends : ∀ ret, ∃ v, next ret = pure v) :
    Act.collects handed (do
        let val ← ioread32At (some m) offset
        let ret ← copyToUser user (answer val)
        next ret)
      (fun _ u told => u = w ∧ told = [(answer (cells w (cellAt m offset))).take user.room]) w := by
  rw [Act.collects_bind, collects_ioread32At, wordAt, Act.thenCollects_some, Act.collects_bind,
    collects_copyToUser, Act.thenCollects_some]
  generalize bytes : answer (cells w (cellAt m offset)) = src
  show Act.collects handed (next ((answer (cells w (cellAt m offset))).length - _)) (fun _ u more => u = w ∧
    [(answer (cells w (cellAt m offset))).take (min (answer (cells w (cellAt m offset))).length user.room)] ++ more =
      [src.take user.room]) w
  rw [bytes]
  generalize src.length - _ = ret
  obtain ⟨v, ended⟩ := ends ret
  rw [ended, Act.collects_pure, List.append_nil, Nat.min_comm, ← List.take_eq_take_min]
  exact ⟨rfl, rfl⟩

/-- An access through NULL reaches no register, and what follows it is not about registers either. -/
theorem leaves_nullAccess {c : Call} {outcome : World → Option (BitVec 32)} : Leaves w (nullAccess c outcome) :=
  .bind (.call trivial fun _ => id) fun _ => .bind (.read _) fun
    | none => .fault
    | some _ => .pure _

/-- What follows the copy to the user returns either way. -/
theorem pure_either {c : Prop} [Decidable c] (failed copied : α) :
    ∃ v, (if c then pure failed else pure copied : M α) = pure v := by
  split_ifs
  · exact ⟨failed, rfl⟩
  · exact ⟨copied, rfl⟩

theorem leaves_nothing_read (offset : Nat) (user : UserBuf) (answer : BitVec 32 → List Byte) {next : Nat → M α}
    (ends : ∀ ret, ∃ v, next ret = pure v) :
    Leaves w (do
      let val ← ioread32At none offset
      let ret ← copyToUser user (answer val)
      next ret) := by
  refine .bind leaves_nullAccess fun val => .bind (.call trivial fun _ => id) fun ret => ?_
  obtain ⟨v, ended⟩ := ends ret
  rw [ended]
  exact .pure v

theorem leaves_nothing_written {offset : Nat} {value : BitVec 32} {v : α} :
    Leaves w (iowrite32At value none offset >>= fun _ => pure v) :=
  .bind (.bind leaves_nullAccess fun _ => .pure _) fun _ => .pure v

theorem cells_write (m : Mapping) (offset : Nat) (value : BitVec 32) :
    cells ((iowrite32At value (some m) offset).run w).state =
      effect (busOf w) (cells w) (cellAt m offset) value := by
  funext cell
  show ((Function.update w.dev m.pdev _) cell.1).regs cell.2.1 cell.2.2 = if cell.1 = m.pdev then _ else _
  by_cases own : cell.1 = m.pdev
  · rw [own, Function.update_self, if_pos rfl]
    rfl
  · rw [Function.update_of_ne own, if_neg own]
    rfl

theorem collects_writes {m : Mapping} {offset : Nat} {value : BitVec 32} {v : α} :
    Act.collects handed (iowrite32At value (some m) offset >>= fun _ => pure v)
      (fun _ u _ => cells u = effect (busOf w) (cells w) (cellAt m offset) value) w := by
  have written : ((iowrite32At value (some m) offset).run w).value = some () := rfl
  rw [Act.collects_bind, Act.collects_value written, Act.thenCollects_some, Act.collects_pure]
  exact cells_write m offset value

/-! The handlers. -/

/-- The checks in front of the handlers of a register file. -/
def checked (t : Tables) (xcdev : XgpuCdev) (pos : Nat) (work : Node → M Ret) : M Ret :=
  if 4 ≤ pos then return (0, pos)
  else if xcdev.xdev = none then return (-EINVAL, pos)
  else
    match registerLoc t xcdev with
    | none => return (-EINVAL, pos)
    | some loc =>
        match t.registerItems[loc]? with
        | none => Act.fault
        | some item => work item

theorem checked_some {xcdev : XgpuCdev} {pos : Nat} {work : Node → M Ret} {item : Node}
    (found : registerItem t xcdev pos = some item) : checked t xcdev pos work = work item := by
  unfold registerItem at found
  split_ifs at found with outside
  obtain ⟨past, unset⟩ := not_or.mp outside
  obtain ⟨loc, place, entry⟩ := Option.bind_eq_some_iff.mp found
  rw [checked, if_neg past, if_neg unset, place]
  dsimp only
  rw [entry]

theorem checked_none {xcdev : XgpuCdev} {pos : Nat} {work : Node → M Ret} (found : registerItem t xcdev pos = none) :
    ((checked t xcdev pos work).run w).state = w := by
  unfold checked
  by_cases past : 4 ≤ pos
  · rw [if_pos past]
    rfl
  by_cases unset : xcdev.xdev = none
  · rw [if_neg past, if_pos unset]
    rfl
  rw [registerItem, if_neg (not_or.mpr ⟨past, unset⟩)] at found
  rw [if_neg past, if_neg unset]
  cases place : registerLoc t xcdev with
  | none => rfl
  | some loc =>
    rw [place, Option.bind_some] at found
    dsimp only
    rw [found]
    rfl

theorem registerRead_serves (xcdev : XgpuCdev) (user : UserBuf) (count pos : Nat) :
    Act.collects handed (charRegisterRead t xcdev user pos) (fun _ u told =>
      Serves (registerAccess t w xcdev (.read user count pos)) (.read user count pos) w u told) w := by
  have guarded : charRegisterRead t xcdev user pos = checked t xcdev pos fun item => do
      let base ← Act.read World.pcimapAddr
      let val ← ioread32At base item.offset
      let ret ← copyToUser user (toLE 4 val.toNat)
      if ret ≠ 0 then return (-EIO', pos) else return (4, pos + 4) := rfl
  rw [guarded]
  cases found : registerItem t xcdev pos with
  | none =>
    rw [show registerAccess t w xcdev (.read user count pos) = none by rw [registerAccess, found]; rfl]
    exact serves_none (congrArg cells (checked_none found))
  | some item =>
    have ends (ret : Nat) : ∃ v, (if ret ≠ 0 then pure (-EIO', pos) else pure (4, pos + 4) : M Ret) = pure v :=
      pure_either _ _
    rw [checked_some found, Act.collects_bind, Act.collects_read, Act.thenCollects_some]
    cases mapped : w.pcimapAddr with
    | none =>
      rw [show registerAccess t w xcdev (.read user count pos) = none by rw [registerAccess, found, mapped]; rfl]
      exact collects_leaves (leaves_nothing_read _ user (fun val => toLE 4 val.toNat) ends)
    | some m =>
      rw [show registerAccess t w xcdev (.read user count pos) = some (.read (cellAt m item.offset)) by
        rw [registerAccess, found, mapped]; rfl]
      exact Act.collects_mono (collects_reads m _ user (fun val => toLE 4 val.toNat) ends) fun _ u told post =>
        serves_read (congrArg cells post.1) post.2

theorem collects_given {user : UserBuf} {count : Nat} {next : List Byte × Nat → M α}
    {Q : Option α → World → List (List Byte) → Prop} : Act.collects handed (copyFromUser user 0 count >>= next) Q w ↔
      Act.collects handed (next (given user count, count - min count user.avail)) Q w := by
  rw [Act.collects_bind, collects_copyFromUser, Act.thenCollects_some]
  rfl

theorem registerWrite_serves (xcdev : XgpuCdev) (user : UserBuf) (count pos : Nat) :
    Act.collects handed (charRegisterWrite t xcdev user pos) (fun _ u told =>
      Serves (registerAccess t w xcdev (.write user count pos)) (.write user count pos) w u told) w := by
  have guarded : charRegisterWrite t xcdev user pos = checked t xcdev pos fun item =>
      copyFromUser user 0 4 >>= fun copied =>
        if copied.2 ≠ 0 then return (-EINVAL, pos)
        else Act.read World.pcimapAddr >>= fun base =>
          iowrite32At (word copied.1) base item.offset >>= fun _ => return (4, pos + 4) := rfl
  rw [guarded, registerAccess]
  cases found : registerItem t xcdev pos with
  | none =>
    rw [show (if user.avail < 4 then none else _) = (none : Option (Access Cell (BitVec 32))) by split_ifs <;> rfl]
    exact serves_none (congrArg cells (checked_none found))
  | some item =>
    rw [checked_some found, collects_given]
    by_cases short : user.avail < 4
    · rw [if_pos short, if_pos (show 4 - min 4 user.avail ≠ 0 by omega)]
      exact serves_none rfl
    · rw [if_neg short, if_neg (show ¬ 4 - min 4 user.avail ≠ 0 by omega), Act.collects_bind, Act.collects_read,
        Act.thenCollects_some]
      cases w.pcimapAddr with
      | none => exact collects_leaves leaves_nothing_written
      | some m => exact Act.collects_mono collects_writes fun _ u told written => serves_write written

theorem registerIoctl_serves (xcdev : XgpuCdev) (cmd : BitVec 32) (arg : UserBuf) (accessOk : Bool) :
    Act.collects handed (charRegisterIoctl xcdev cmd arg) (fun _ u told =>
      Serves (registerAccess t w xcdev (.ioctl cmd arg accessOk)) (.ioctl cmd arg accessOk) w u told) w := by
  have refused {v : Int} {u : World} (same : u = w) : Act.collects handed (pure v : M Int) (fun _ u told =>
      Serves none (.ioctl cmd arg accessOk) w u told) u := serves_none (congrArg cells same)
  unfold charRegisterIoctl registerAccess
  dsimp only
  by_cases unset : xcdev.xdev = none
  · rw [if_pos unset, if_pos (.inl unset)]
    exact refused rfl
  rw [if_neg unset]
  by_cases short : arg.avail < 8
  · have missed : 8 - min 8 arg.avail ≠ 0 := by omega
    have stops : xcdev.xdev = none ∨ arg.avail < 8 := .inr short
    rw [if_pos stops]
    split_ifs
    · rw [collects_given]
      dsimp only
      rw [if_pos missed]
      exact refused rfl
    · rw [collects_given]
      dsimp only
      rw [if_pos missed]
      exact refused rfl
    · exact refused rfl
  have whole : ¬ 8 - min 8 arg.avail ≠ 0 := by omega
  have ends (ret : Nat) : ∃ v, (if ret ≠ 0 then pure (-EFAULT) else pure 0 : M Int) = pure v :=
    pure_either _ _
  rw [if_neg (not_or.mpr ⟨unset, short⟩)]
  split_ifs
  · rw [collects_given]
    dsimp only
    rw [if_neg whole, Act.collects_bind, Act.collects_read, Act.thenCollects_some]
    have answer (value : BitVec 32) : reply value (.ioctl cmd arg accessOk) =
        { RegisterReadWrite.ofBytes (given arg 8) with value := value }.toBytes.take arg.room := rfl
    generalize RegisterReadWrite.ofBytes (given arg 8) = reg at answer ⊢
    cases w.pcimapAddr with
    | none =>
      have nothing := leaves_nothing_read (w := w) reg.address.toNat arg
        (fun value => { reg with value := value }.toBytes) ends
      exact collects_leaves nothing
    | some m =>
      have hands := collects_reads (w := w) m reg.address.toNat arg
        (fun value => { reg with value := value }.toBytes) ends
      apply Act.collects_mono hands
      intro v u told post
      apply serves_read (congrArg cells post.1)
      rw [answer]
      exact post.2
  · rw [collects_given]
    dsimp only
    rw [if_neg whole, Act.collects_bind, Act.collects_read, Act.thenCollects_some]
    generalize RegisterReadWrite.ofBytes (given arg 8) = reg
    cases w.pcimapAddr with
    | none => exact collects_leaves leaves_nothing_written
    | some m => exact Act.collects_mono collects_writes fun _ u told written => serves_write written
  · exact refused rfl

theorem ctrlRead_serves (xcdev : XgpuCdev) (user : UserBuf) (count pos : Nat) :
    Act.collects handed (charCtrlRead xcdev user pos) (fun _ u told =>
      Serves (ctrlAccess w xcdev (.read user count pos)) (.read user count pos) w u told) w := by
  unfold charCtrlRead ctrlAccess ctrlMapping ctrlBase
  dsimp only
  cases set : xcdev.xdev with
  | none =>
    rw [show (if pos % 4 ≠ 0 then none else _) = (none : Option (Access Cell (BitVec 32))) by split_ifs <;> rfl]
    exact serves_none rfl
  | some x =>
    dsimp only [Option.bind_some]
    by_cases odd : pos % 4 ≠ 0
    · rw [if_pos odd, if_pos odd]
      exact serves_none rfl
    · rw [if_neg odd, if_neg odd, Act.collects_bind, Act.collects_read, Act.thenCollects_some]
      cases ((w.dev x.pdev).xdev x).bar xcdev.bar with
      | none =>
        exact collects_leaves
          (leaves_nothing_read _ user (fun val => toLE 4 val.toNat) fun _ => ⟨(4, pos + 4), rfl⟩)
      | some m =>
        refine Act.collects_mono (collects_reads m _ user (fun val => toLE 4 val.toNat)
          fun ret => ⟨(4, pos + 4), rfl⟩) fun _ u told post => serves_read (congrArg cells post.1) post.2

theorem ctrlWrite_serves (xcdev : XgpuCdev) (user : UserBuf) (count pos : Nat) :
    Act.collects handed (charCtrlWrite xcdev user pos) (fun _ u told =>
      Serves (ctrlAccess w xcdev (.write user count pos)) (.write user count pos) w u told) w := by
  unfold charCtrlWrite ctrlAccess ctrlMapping ctrlBase
  dsimp only
  cases set : xcdev.xdev with
  | none =>
    rw [show (if pos % 4 ≠ 0 then none else _) = (none : Option (Access Cell (BitVec 32))) by split_ifs <;> rfl]
    exact serves_none rfl
  | some x =>
    dsimp only [Option.bind_some]
    by_cases odd : pos % 4 ≠ 0
    · rw [if_pos odd, if_pos odd]
      exact serves_none rfl
    · rw [if_neg odd, if_neg odd, Act.collects_bind, Act.collects_read, Act.thenCollects_some, collects_given]
      cases ((w.dev x.pdev).xdev x).bar xcdev.bar with
      | none => exact collects_leaves leaves_nothing_written
      | some m => exact Act.collects_mono collects_writes fun _ u told written => serves_write written

theorem leaves_flags (x : XdevPtr) (change : XgpuDev → XgpuDev) : Leaves w (onDev pdev (storeXdev x change)) := by
  intro u same
  rw [onDev, Act.wp_zoom, storeXdev, Act.wp_update]
  exact cells_setDev same rfl

theorem leaves_checked (hndl : XdevPtr) : Leaves w (debugCheckDevHndl pdev hndl) := by
  refine .bind (.read _) fun found => ?_
  split
  · exact .pure _
  · split <;> exact .pure _

theorem leaves_versionIoctl (x : XdevPtr) (arg : UserBuf) : Leaves w (versionIoctl hw x arg) := by
  refine .bind (.call trivial fun _ => id) fun copied => ?_
  dsimp only
  split
  · exact .pure _
  · refine .bind (.call trivial fun _ => id) fun ret => ?_
    split <;> exact .pure _

theorem leaves_charCtrlIoctl (xcdev : XgpuCdev) (cmd : BitVec 32) (arg : UserBuf) (accessOk : Bool) :
    Leaves w (charCtrlIoctl hw xcdev cmd arg accessOk) := by
  have copies (start n : Nat) : Leaves w (copyFromUser arg start n) := .call trivial fun _ => id
  have offline (x : XdevPtr) : Leaves w (xgpuDeviceOffline x.pdev x) := by
    refine .bind (leaves_checked x) fun rv => ?_
    split
    · exact .pure _
    · exact leaves_flags x _
  have online (x : XdevPtr) : Leaves w (xgpuDeviceOnline x.pdev x) := by
    refine .bind (leaves_checked x) fun rv => ?_
    split
    · exact .pure _
    · exact leaves_flags x _
  unfold charCtrlIoctl
  cases xcdev.xdev with
  | none => exact .pure _
  | some x =>
    dsimp only
    split_ifs
    · exact .pure _
    · exact .pure _
    · refine .bind (copies 0 8) fun copied => ?_
      split
      · exact .pure _
      · exact leaves_versionIoctl x arg
    · exact .bind (offline x) fun _ => .pure _
    · exact .bind (online x) fun _ => .pure _
    · exact .pure _

theorem leaves_bridgeMmap (xcdev : XgpuCdev) (vma : Vma) (remapOk : Bool) :
    Leaves w (bridgeMmap hw xcdev vma remapOk) := by
  unfold bridgeMmap
  cases xcdev.xdev with
  | none => exact .pure _
  | some x =>
    dsimp only
    split
    · exact .pure _
    · refine .bind (.call trivial fun _ => id) fun _ => ?_
      split <;> exact .pure _

theorem leaves_charClose (xcdev : XgpuCdev) : Leaves w (charClose xcdev) := by
  unfold charClose
  cases xcdev.xdev <;> exact .pure _

/-- A request on an open file, through whatever handler. -/
theorem request_serves (hw : Dev → PciDev) (t : Tables) (w : World) (file : File) (op : Op) :
    Act.collects handed (request hw t file op) (fun _ u told => Serves (access t w file op) op w u told) w := by
  unfold request loadMember access
  rw [Act.collects_bind, Act.collects_read, Act.thenCollects_some]
  dsimp only [id]
  generalize (w.dev file.member.pdev).member file.member = xcdev
  have close : Act.collects handed (do return (← charClose xcdev, 0) : M Ret) (fun _ u told =>
      Serves none .release w u told) w := collects_leaves (.bind (leaves_charClose xcdev) fun _ => .pure _)
  cases file.ops with
  | config =>
    cases op with
    | read user count pos => exact collects_leaves (leaves_configRead xcdev user count pos)
    | write user count pos => exact collects_leaves (leaves_configWrite xcdev user pos)
    | ioctl => exact serves_none rfl
    | mmap => exact serves_none rfl
    | release => exact close
  | register =>
    cases op with
    | read user count pos => exact registerRead_serves xcdev user count pos
    | write user count pos => exact registerWrite_serves xcdev user count pos
    | ioctl cmd arg accessOk =>
      show Act.collects handed (charRegisterIoctl xcdev cmd arg >>= fun rv => pure (rv, 0)) _ w
      rw [bind_pure_comp, Act.collects_map]
      exact registerIoctl_serves xcdev cmd arg accessOk
    | mmap => exact serves_none rfl
    | release => exact close
  | ctrl =>
    cases op with
    | read user count pos => exact ctrlRead_serves xcdev user count pos
    | write user count pos => exact ctrlWrite_serves xcdev user count pos
    | ioctl cmd arg accessOk =>
      exact collects_leaves (.bind (leaves_charCtrlIoctl xcdev cmd arg accessOk) fun _ => .pure _)
    | mmap vma remapOk => exact collects_leaves (.bind (leaves_bridgeMmap xcdev vma remapOk) fun _ => .pure _)
    | release => exact close

end

/-! Histories. -/

def accessAt (s : Sys) : Event → Option (Access Cell (BitVec 32))
  | .request pdev fd op => (s.files (pdev, fd)).bind fun file => access tables s.world file op
  | .probe _ _ | .remove _ | .openFile _ _ => none

/-- All accesses of the events from s on. -/
def accesses (hw : Dev → PciDev) (walk : Walk) (s : Sys) : List Event → List (Access Cell (BitVec 32))
  | [] => []
  | e :: es => (accessAt s e).toList ++ accesses hw walk (step hw walk s e) es

/-- The device is neither probed nor removed, and every access is to a word at a multiple of four, so
that two of them are to the same bytes or to none in common. -/
def Undisturbed (d : Dev) (s : Sys) : Event → Prop
  | .probe pdev _ | .remove pdev => pdev ≠ d
  | .openFile _ _ => True
  | .request pdev fd op => ∀ made ∈ accessAt s (.request pdev fd op), made.cell.2.2 % 4 = 0

/-- A register that holds what is written to it, and that no write to another word changes. -/
def PlainRegister (bus : RegBus) (bar offset : Nat) : Prop :=
  ∀ regs bar' offset' value, offset' % 4 = 0 → bus.regWrite regs bar' offset' value bar offset =
    if bar' = bar ∧ offset' = offset then value else regs bar offset

theorem PlainRegister.cell {bus : Dev → RegBus} {d : Dev} {bar offset : Nat}
    (plain : PlainRegister (bus d) bar offset) :
    PlainCell (effect bus) (fun cell => cell.2.2 % 4 = 0) (d, bar, offset) := by
  rintro mem ⟨d', bar', offset'⟩ value whole
  unfold effect
  by_cases own : d = d'
  · subst own
    rw [if_pos rfl]
    refine (plain _ _ _ _ whole).trans ?_
    simp only [Prod.mk.injEq, true_and]
  · rw [if_neg own, if_neg fun same => own (Prod.mk.inj same).1.symm]

section
variable {hw : Dev → PciDev} {walk : Walk} {s u : Sys} {d : Dev} {es : List Event}

/-- The buses stay as they are. -/
theorem bus_step {e : Event} (inv : Inv hw s) (possible : Admits s e) :
    busOf (step hw walk s e).world = busOf s.world := by
  funext d
  cases e with
  | probe pdev env =>
    have spec : Act.wp (LawfulOn hw True pdev s.world) (probeOne hw tables walk env pdev) _ s.world :=
      probe_spec inv possible fun _ => trivial
    obtain ⟨_, apart, _⟩ := spec
    exact apart.buses d
  | remove pdev =>
    have spec : Act.wp (LawfulOn hw True pdev s.world) (removeOne hw tables walk pdev) _ s.world :=
      remove_spec inv possible
    obtain ⟨_, apart, _⟩ := spec
    exact apart.buses d
  | openFile fd m => rfl
  | request pdev fd op =>
    obtain ⟨file, opened⟩ := Option.ne_none_iff_exists'.mp possible
    have same : driverView ((request hw tables file op).run s.world).state = driverView s.world :=
      (request_step hw tables s.world file op).2
    simp only [step, opened]
    have bus (s : DevState) : s.bus = (driverPart s).bus := rfl
    rw [busOf, bus, driverPart_same same d]
    rfl

theorem bus_run {cond : Sys → Event → Prop} (inv : Inv hw s) (run : (machine hw walk).Run cond s es u) :
    Inv hw u ∧ busOf u.world = busOf s.world :=
  run.invariant (fun u => Inv hw u ∧ busOf u.world = busOf s.world) ⟨inv, rfl⟩ fun _ _ kept possible _ =>
    ⟨inv_step kept.1 possible, (bus_step kept.1 possible).trans kept.2⟩

theorem accesses_append (s : Sys) (es : List Event) (e : Event) : accesses hw walk s (es ++ [e]) =
    accesses hw walk s es ++ (accessAt (es.foldl (step hw walk) s) e).toList := by
  induction es generalizing s with
  | nil => exact List.append_nil _
  | cons first es ih =>
    show (accessAt s first).toList ++ accesses hw walk _ (es ++ [e]) = _
    rw [ih, ← List.append_assoc]
    rfl

theorem cells_step {e : Event} (inv : Inv hw s) (possible : Admits s e) (away : Undisturbed d s e) (bar offset : Nat) :
    cells (step hw walk s e).world (d, bar, offset) =
      store (effect (busOf s.world)) (cells s.world) (accessAt s e).toList (d, bar, offset) := by
  cases e with
  | probe pdev env =>
    have spec : Act.wp (LawfulOn hw True pdev s.world) (probeOne hw tables walk env pdev) _ s.world :=
      probe_spec inv possible fun _ => trivial
    obtain ⟨_, apart, _⟩ := spec
    exact congrArg (fun dev : DevState => dev.regs bar offset) (apart.dev d away.symm)
  | remove pdev =>
    have spec : Act.wp (LawfulOn hw True pdev s.world) (removeOne hw tables walk pdev) _ s.world :=
      remove_spec inv possible
    obtain ⟨_, apart, _⟩ := spec
    exact congrArg (fun dev : DevState => dev.regs bar offset) (apart.dev d away.symm)
  | openFile fd m => rfl
  | request pdev fd op =>
    obtain ⟨file, opened⟩ := Option.ne_none_iff_exists'.mp possible
    have served : Serves _ op s.world _ _ := request_serves hw tables s.world file op
    simp only [step, accessAt, opened, Option.bind_some]
    exact congrFun served.cells (d, bar, offset)

/-- Every access of the events is to a whole word. -/
theorem whole_step {e : Event} (away : Undisturbed d s e) :
    ∀ made ∈ (accessAt s e).toList, made.cell.2.2 % 4 = 0 := by
  intro made among
  cases e with
  | request pdev fd op => exact away made (Option.mem_toList.mp among)
  | probe pdev env => cases among
  | remove pdev => cases among
  | openFile fd m => cases among

theorem cells_run (inv : Inv hw s) {bar offset : Nat} (plain : PlainRegister (busOf s.world d) bar offset)
    (run : (machine hw walk).Run (Undisturbed d) s es u) :
    (∀ made ∈ accesses hw walk s es, made.cell.2.2 % 4 = 0) ∧ cells u.world (d, bar, offset) =
      store (effect (busOf s.world)) (cells s.world) (accesses hw walk s es) (d, bar, offset) := by
  induction run with
  | start => exact ⟨fun made among => absurd among List.not_mem_nil, rfl⟩
  | next e run possible away ih =>
    obtain ⟨whole, held⟩ := ih
    obtain ⟨inv, bus⟩ := bus_run inv run
    have last := whole_step away
    rw [accesses_append, show List.foldl (step hw walk) s _ = _ from run.ends.symm]
    refine ⟨fun made among => (List.mem_append.mp among).elim (whole made) (last made), ?_⟩
    calc
      cells (step hw walk _ e).world (d, bar, offset) = _ := cells_step inv possible away bar offset
      _ = store (effect (busOf s.world)) _ _ _ := by rw [bus]
      _ = _ := store_congr plain.cell held last
      _ = _ := congrFun (store_append _ _ _).symm _

/-- The plain registers of a device are one memory. From any reachable state on, while nothing disturbs
the device, a read of such a register hands out what has been written there last, through whichever files
and ioctls, or what was there before. -/
theorem registers_remember {bus : Bus} {config : Dev → Memory} {regs : Dev → Nat → Nat → BitVec 32}
    {before : List Event} (reached : (machine hw walk).Run (fun _ _ => True) (.start bus config regs) before s)
    (run : (machine hw walk).Run (Undisturbed d) s es u) {pdev : Dev} {fd bar offset : Nat} {file : File} {op : Op}
    (plain : PlainRegister (bus.regs d) bar offset) (opened : u.files (pdev, fd) = some file)
    (reads : access tables u.world file op = some (.read (d, bar, offset)))
    (_ : Undisturbed d u (.request pdev fd op)) :
    ((calls hw walk u (.request pdev fd op)).flatMap fun made => handed made.2) =
      [reply (((accesses hw walk s es).filterMap (Access.writes (d, bar, offset))).getLastD
        (cells s.world (d, bar, offset))) op] := by
  have served : Serves _ op u.world _ _ := request_serves hw tables u.world file op
  have buses : busOf s.world = bus.regs := (bus_run (inv_start bus config regs) reached).2
  have memory : PlainRegister (busOf s.world d) bar offset := buses ▸ plain
  obtain ⟨whole, held⟩ := cells_run (inv_run reached) memory run
  simp only [calls, opened]
  rw [served.told _ reads, held, store_last memory.cell _ whole]

end

/-- The registers of the board hold what is written to them. -/
theorem plain_register (bar offset : Nat) : PlainRegister .plain bar offset := by
  intro regs bar' offset' value _
  show (if bar = bar' ∧ offset = offset' then value else regs bar offset) = _
  simp only [eq_comm]

/-- Device 0 with its second register file open. -/
def openSys : Sys :=
  step board .every (step board .every idleStart (goodProbe 0)) (.openFile 0 Registers.registerMember)

/-- The ioctl that writes the register at 0x378c. -/
def writeIoctl : Op :=
  .ioctl XGPU_IOCTL_REGISTER_WRITE ⟨fun i => [0x8C, 0x37, 0, 0, 0x11, 0x22, 0x33, 0x44].getD i 0, 8, 8⟩ true

theorem registers_remember_ioctl :
    ((calls board .every (step board .every openSys (.request 0 0 writeIoctl))
      (.request 0 0 Registers.readFour)).flatMap fun made => handed made.2) = [[0x11, 0x22, 0x33, 0x44]] := by
  have opens : Admits (step board .every idleStart (goodProbe 0)) (.openFile 0 Registers.registerMember) :=
    ⟨by decide +kernel, 0x0F000008, by decide +kernel⟩
  have bound : (machine board .every).Run (fun _ _ => True) idleStart _ _ :=
    run_next .start (goodProbe 0) rfl trivial
  have reached := run_next bound (.openFile 0 Registers.registerMember) opens trivial
  have writes : Admits openSys (.request 0 0 writeIoctl) := by
    unfold Admits
    decide +kernel
  have whole : ∀ made ∈ accessAt openSys (.request 0 0 writeIoctl), made.cell.2.2 % 4 = 0 := by
    decide +kernel
  have run : (machine board .every).Run (Undisturbed 0) openSys _ _ :=
    run_next .start (.request 0 0 writeIoctl) writes whole
  have file : (step board .every openSys (.request 0 0 writeIoctl)).files (0, 0) =
      some ⟨Registers.registerMember, .register⟩ := by
    decide +kernel
  have reads : access tables (step board .every openSys (.request 0 0 writeIoctl)).world
      ⟨Registers.registerMember, .register⟩ Registers.readFour = some (.read (0, 5, 0x378C)) := by
    decide +kernel
  have asked : ∀ made ∈ accessAt (step board .every openSys (.request 0 0 writeIoctl))
      (.request 0 0 Registers.readFour), made.cell.2.2 % 4 = 0 := by
    decide +kernel
  have held := registers_remember reached run (plain_register 5 0x378C) file reads asked
  have last : reply (((accesses board .every openSys [.request 0 0 writeIoctl]).filterMap
      (Access.writes (0, 5, 0x378C))).getLastD (cells openSys.world (0, 5, 0x378C))) Registers.readFour =
        [0x11, 0x22, 0x33, 0x44] := by
    decide +kernel
  exact held.trans (congrArg (fun bytes => [bytes]) last)

end PcieUtil.System.RegisterMemory
