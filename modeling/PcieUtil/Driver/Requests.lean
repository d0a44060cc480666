import PcieUtil.Driver.Interfaces
import PcieUtil.Driver.Transfers

/-! Requests on open device files: which handler takes them, what of the driver they
leave alone, and which mapping they access. -/

namespace PcieUtil.Driver.Requests
open Lib.Action Lib.Bytes State Kernel ConfigFile RegisterFile CtrlFile DeviceOpen Interfaces Transfers

def ENODEV : Nat := 19

/-- A request on an open file. The position is the one that the kernel passes. -/
inductive Op where
  | read (user : UserBuf) (count pos : Nat)
  | write (user : UserBuf) (count pos : Nat)
  | ioctl (cmd : BitVec 32) (arg : UserBuf) (accessOk : Bool)
  | mmap (vma : Vma) (remapOk : Bool)
  | release

def Op.closes : Op → Bool
  | .release => true
  | _ => false

def readHandler : FileOps → Handler
  | .config => .configRead
  | .register => .registerRead
  | .ctrl => .ctrlRead

def writeHandler : FileOps → Handler
  | .config => .configWrite
  | .register => .registerWrite
  | .ctrl => .ctrlWrite

def charClose (xcdev : XgpuCdev) : M Int :=
  match xcdev.xdev with
  | none => return -EINVAL
  | some _ => return 0

section
variable (hw : Dev → PciDev) (t : Tables)

/-- The handler that the file operations name; the kernel refuses what they do not. -/
def handle (ops : FileOps) (xcdev : XgpuCdev) : Op → M Ret
  | .read user count pos => (readHandler ops).act hw t xcdev user count pos
  | .write user count pos => (writeHandler ops).act hw t xcdev user count pos
  | .ioctl cmd arg accessOk =>
      match ops with
      | .config => return (-ENOTTY, 0)
      | .register => do return (← charRegisterIoctl xcdev cmd arg, 0)
      | .ctrl => do return (← charCtrlIoctl hw xcdev cmd arg accessOk, 0)
  | .mmap vma remapOk =>
      match ops with
      | .ctrl => do return (← bridgeMmap hw xcdev vma remapOk, 0)
      | _ => return (-ENODEV, 0)
  | .release => do return (← charClose xcdev, 0)

/-- An open file: what char_open stores in private_data, and its operations. -/
structure File where
  member : MemberPtr
  ops : FileOps
  deriving DecidableEq

/-- char_open, which never fails; the operations are those of the cdev. -/
def charOpen (m : MemberPtr) (ops : FileOps) : File := ⟨m, ops⟩

/-- A request, on the contents that the xgpu_cdev of the file has by then. -/
def request (file : File) (op : Op) : M Ret := do
  let xcdev ← loadMember file.member id
  handle hw t file.ops xcdev op

end

/-! What requests leave alone. -/

/-- The state of a device without its hardware and the flags of its structures. -/
def driverPart (s : DevState) : DevState :=
  { s with
    config := fun _ => 0, regs := fun _ _ => 0
    xdev := fun x => { s.xdev x with flags := 0 } }

/-- What no request changes. -/
structure DriverView where
  dev : Dev → DevState
  xdevList : List XdevPtr
  pcimapAddr : Option Mapping
  registerInit : Option (Dev × Bool)
  gXgpuClass : Bool

def driverView (w : World) : DriverView :=
  ⟨fun d => driverPart (w.dev d), w.xdevList, w.pcimapAddr, w.registerInit, w.gXgpuClass⟩

theorem driverView_setDev {u w : World} {pdev : Dev} {s : DevState}
    (same : driverView u = driverView w) :
    driverView (setDev u pdev s) = driverView w ↔ driverPart s = driverPart (w.dev pdev) := by
  constructor
  · intro now
    have part : driverPart ((setDev u pdev s).dev pdev) = driverPart (w.dev pdev) :=
      congrFun (congrArg DriverView.dev now) pdev
    rwa [setDev_dev_same] at part
  · intro part
    have devs : (fun d => driverPart ((setDev u pdev s).dev d)) = fun d => driverPart (w.dev d) := by
      funext d
      by_cases own : d = pdev
      · subst own
        rw [setDev_dev_same, part]
      · rw [setDev_dev_other u s own]
        exact congrFun (congrArg DriverView.dev same) d
    calc driverView (setDev u pdev s)
        = { driverView u with dev := fun d => driverPart (w.dev d) } :=
          congrArg (fun dev => { driverView u with dev := dev }) devs
      _ = { driverView w with dev := fun d => driverPart (w.dev d) } := by rw [same]
      _ = driverView w := rfl

section
variable (t : Tables)

/-- The requests on a register file that get as far as an access. -/
def Accesses (xcdev : XgpuCdev) : Op → Prop
  | .read _ _ pos => registerItem t xcdev pos ≠ none
  | .write user _ pos => registerItem t xcdev pos ≠ none ∧ 4 ≤ user.avail
  | .ioctl cmd arg _ =>
      xcdev.xdev ≠ none ∧ (cmd = XGPU_IOCTL_REGISTER_READ ∨ cmd = XGPU_IOCTL_REGISTER_WRITE) ∧
        8 ≤ arg.avail
  | .mmap _ _ | .release => False

instance (xcdev : XgpuCdev) (op : Op) : Decidable (Accesses t xcdev op) :=
  match op with
  | .read _ _ _ => inferInstanceAs (Decidable (_ ≠ _))
  | .write _ _ _ => inferInstanceAs (Decidable (_ ∧ _))
  | .ioctl _ _ _ => inferInstanceAs (Decidable (_ ∧ _ ∧ _))
  | .mmap _ _ | .release => inferInstanceAs (Decidable False)

/-- The pointer that the accesses of a request go through, if it may make any. -/
def basePointer (w : World) (file : File) (op : Op) : Option (Option Mapping) :=
  let xcdev := (w.dev file.member.pdev).member file.member
  match file.ops with
  | .config => none
  | .register => if Accesses t xcdev op then some w.pcimapAddr else none
  | .ctrl => some (ctrlMapping w xcdev)

end

/-- The calls of a request. One that accesses a BAR goes through the given pointer, if
an access is allowed at all. -/
def Requested (base : Option (Option Mapping)) : Call → Prop
  | .ioread32 used _ | .iowrite32 used _ _ => base = some used
  | .copyToUser _ _ | .copyFromUser _ _ | .pciReadConfig _ _ _ | .pciWriteConfig _ _ _
  | .ioRemapPfnRange _ _ _ => True
  | _ => False

/-! What holds through the work of a config file. -/

section
variable {hw : Dev → PciDev} {t : Tables} {pdev : Dev} {inv : World → Prop} {may : Call → Prop}

theorem readField_maintains (item : Node)
    (reads : ∀ offset width, Act.Maintains inv may (onDev pdev (pciReadConfig pdev offset width))) :
    Act.Maintains inv may (readField pdev item) := by
  unfold readField
  split
  · exact .bind (.bind (reads _ _) fun _ => .pure _) fun _ => .pure _
  · exact .bind (.bind (reads _ _) fun _ => .pure _) fun _ => .pure _
  · apply Act.Maintains.bind (.bind (reads _ _) fun _ => .pure _)
    intro _
    apply Act.Maintains.bind (.bind (reads _ _) fun _ => .pure _)
    intro _
    exact .bind (.bind (reads _ _) fun _ => .pure _) fun _ => .pure _
  · exact .bind (reads _ _) fun _ => .pure _
  · exact .pure _

theorem charConfigRead_maintains {xcdev : XgpuCdev} {user : UserBuf} (count pos : Nat)
    (reads : ∀ x, xcdev.xdev = some x → ∀ offset width,
      Act.Maintains inv may (onDev x.pdev (pciReadConfig x.pdev offset width)))
    (copies : ∀ src, Act.Maintains inv may (copyToUser user src)) :
    Act.Maintains inv may (charConfigRead t xcdev user count pos) := by
  unfold charConfigRead
  cases owner : xcdev.xdev with
  | none => exact .fault
  | some x =>
    dsimp only
    split
    · exact .pure _
    apply Act.Maintains.bind (readField_maintains _ (reads x owner))
    intro val
    split
    · split
      · exact .pure _
      apply Act.Maintains.bind (copies _)
      intro ret
      split <;> exact .pure _
    generalize (if PCI_CONFIG_SIZE < (pos + count) % 2 ^ 64 then clampCount pos else count) = n
    split
    · exact .pure _
    apply Act.Maintains.bind (.read _)
    intro src
    apply Act.Maintains.bind (copies _)
    intro ret
    split <;> exact .pure _

theorem writeField_maintains (item : Node) (val : BitVec 32)
    (reads : ∀ offset width, Act.Maintains inv may (onDev pdev (pciReadConfig pdev offset width)))
    (writes : ∀ offset bytes, Act.Maintains inv may (onDev pdev (pciWriteConfig hw pdev offset bytes))) :
    Act.Maintains inv may (writeField hw pdev item val) := by
  unfold writeField
  split
  · exact writes _ _
  · exact writes _ _
  · apply Act.Maintains.bind (writes _ _)
    intro _
    exact .bind (writes _ _) fun _ => writes _ _
  · exact .bind (.bind (reads _ _) fun _ => .pure _) fun _ => .pure _

theorem writeSnapshot_maintains (offset count ii : Nat)
    (writes : ∀ offset bytes, Act.Maintains inv may (onDev pdev (pciWriteConfig hw pdev offset bytes))) :
    Act.Maintains inv may (writeSnapshot hw pdev offset count ii) := by
  induction count generalizing ii with
  | zero => exact .pure _
  | succ count ih =>
    apply Act.Maintains.bind (.read _)
    intro val
    exact .bind (writes _ _) fun _ => ih (ii + 1)

theorem charConfigWrite_maintains {xcdev : XgpuCdev} {user : UserBuf} (pos : Nat)
    (reads : ∀ x, xcdev.xdev = some x → ∀ offset width,
      Act.Maintains inv may (onDev x.pdev (pciReadConfig x.pdev offset width)))
    (writes : ∀ x, xcdev.xdev = some x → ∀ offset bytes,
      Act.Maintains inv may (onDev x.pdev (pciWriteConfig hw x.pdev offset bytes)))
    (copies : ∀ start n, Act.Maintains inv may (copyFromUser user start n))
    (stores : ∀ w data, inv w → inv { w with configData := data }) :
    Act.Maintains inv may (charConfigWrite hw t xcdev user pos) := by
  unfold charConfigWrite
  cases owner : xcdev.xdev with
  | none => exact .fault
  | some x =>
    dsimp only
    split
    · exact .pure _
    split
    · exact .pure _
    split
    · apply Act.Maintains.bind (copies _ _)
      intro copied
      split
      · exact .pure _
      exact .bind (writeField_maintains _ _ (reads x owner) (writes x owner)) fun _ => .pure _
    apply Act.Maintains.bind (copies _ _)
    intro copied
    apply Act.Maintains.bind (.update fun w holds => stores w _ holds)
    intro _
    split
    · exact .pure _
    exact .bind (writeSnapshot_maintains _ _ _ (writes x owner)) fun _ => .pure _

end

/-- The work of a request that started in w. -/
abbrev Keeps {α : Type} (w : World) (base : Option (Option Mapping)) (act : M α) : Prop :=
  Act.Maintains (fun u => driverView u = driverView w) (Requested base) act

section
variable {hw : Dev → PciDev} {t : Tables} {pdev : Dev} {α : Type} {w : World}
  {base : Option (Option Mapping)}

theorem keeps_onDev {act : DevM α}
    (kept : ∀ part, Act.Maintains (fun s => driverPart s = part) (Requested base) act) :
    Keeps w base (onDev pdev act) := by
  apply Act.Maintains.zoom
  · intro u same
    simp only [driverView_setDev same]
    exact kept _
  · exact fun u => setDev_self u pdev

theorem keeps_nullAccess {c : Call} {outcome : World → Option (BitVec 32)} (allowed : Requested base c) :
    Keeps w base (nullAccess c outcome) :=
  .bind (.call allowed fun _ same => same) fun _ => .bind (.read _) fun
    | none => .fault
    | some _ => .pure _

theorem keeps_copyToUser (user : UserBuf) (src : List Byte) : Keeps w base (copyToUser user src) :=
  .call trivial fun _ same => same

theorem keeps_copyFromUser (user : UserBuf) (start count : Nat) :
    Keeps w base (copyFromUser user start count) :=
  .call trivial fun _ same => same

theorem keeps_afterCopy {user : UserBuf} {start count : Nat} {next : List Byte × Nat → M α}
    (rest : ∀ bytes missed, (missed = 0 → count ≤ user.avail - start) →
      Keeps w base (next (bytes, missed))) :
    Keeps w base (copyFromUser user start count >>= next) := by
  intro u same
  rw [Act.wp_bind, copyFromUser, Act.wp_call, Act.andThen_some]
  exact ⟨⟨same, trivial⟩, rest _ _ (by omega) u same⟩

theorem keeps_ioread32At (used : Option Mapping) (offset : Nat) :
    Keeps w (some used) (ioread32At used offset) := by
  cases used with
  | none => exact keeps_nullAccess rfl
  | some m => exact keeps_onDev fun _ => .call rfl fun _ same => same

theorem keeps_iowrite32At (value : BitVec 32) (used : Option Mapping) (offset : Nat) :
    Keeps w (some used) (iowrite32At value used offset) := by
  cases used with
  | none => exact .bind (keeps_nullAccess rfl) fun _ => .pure _
  | some m => exact keeps_onDev fun _ => .call rfl fun _ same => same

theorem keeps_pciReadConfig (offset width : Nat) :
    Keeps w base (onDev pdev (pciReadConfig pdev offset width)) :=
  keeps_onDev fun _ => .call trivial fun _ same => same

theorem keeps_pciWriteConfig (offset : Nat) (bytes : List Byte) :
    Keeps w base (onDev pdev (pciWriteConfig hw pdev offset bytes)) :=
  keeps_onDev fun _ => .call trivial fun _ same => same

theorem keeps_charConfigRead (xcdev : XgpuCdev) (user : UserBuf) (count pos : Nat) :
    Keeps w base (charConfigRead t xcdev user count pos) :=
  charConfigRead_maintains count pos (fun _ _ => keeps_pciReadConfig) (keeps_copyToUser user)

theorem keeps_charConfigWrite (xcdev : XgpuCdev) (user : UserBuf) (pos : Nat) :
    Keeps w base (charConfigWrite hw t xcdev user pos) :=
  charConfigWrite_maintains pos (fun _ _ => keeps_pciReadConfig) (fun _ _ => keeps_pciWriteConfig)
    (keeps_copyFromUser user) fun _ _ same => same

/-- Access through the mapping that is there by then. -/
theorem keeps_readRegister {next : BitVec 32 → M α} (offset : Nat)
    (allowed : base = some w.pcimapAddr) (rest : ∀ val, Keeps w base (next val)) :
    Keeps w base (do
      let used ← Act.read World.pcimapAddr
      next (← ioread32At used offset)) := by
  apply Act.Maintains.bind_read
  intro u same
  rw [show u.pcimapAddr = w.pcimapAddr from congrArg DriverView.pcimapAddr same]
  subst allowed
  exact .bind (keeps_ioread32At _ _) rest

theorem keeps_writeRegister {next : M α} (value : BitVec 32) (offset : Nat)
    (allowed : base = some w.pcimapAddr) (rest : Keeps w base next) :
    Keeps w base (do
      let used ← Act.read World.pcimapAddr
      iowrite32At value used offset
      next) := by
  apply Act.Maintains.bind_read
  intro u same
  rw [show u.pcimapAddr = w.pcimapAddr from congrArg DriverView.pcimapAddr same]
  subst allowed
  exact .bind (keeps_iowrite32At _ _ _) fun _ => rest

theorem registerItem_eq {xcdev : XgpuCdev} {pos loc : Nat} {item : Node} (low : ¬ 4 ≤ pos)
    (set : ¬ xcdev.xdev = none) (place : registerLoc t xcdev = some loc)
    (entry : t.registerItems[loc]? = some item) : registerItem t xcdev pos = some item := by
  simp [registerItem, low, set, place, entry]

theorem keeps_charRegisterRead {xcdev : XgpuCdev} {pos : Nat} (user : UserBuf)
    (allowed : registerItem t xcdev pos ≠ none → base = some w.pcimapAddr) :
    Keeps w base (charRegisterRead t xcdev user pos) := by
  unfold charRegisterRead
  split
  · exact .pure _
  split
  · exact .pure _
  split
  · exact .pure _
  split
  · exact .fault
  next low set _ _ place _ _ entry =>
  apply keeps_readRegister
  · apply allowed
    simp [registerItem_eq low set place entry]
  · intro val
    refine .bind (keeps_copyToUser _ _) fun ret => ?_
    split <;> exact .pure _

theorem keeps_charRegisterWrite {xcdev : XgpuCdev} {user : UserBuf} {pos : Nat}
    (allowed : registerItem t xcdev pos ≠ none → 4 ≤ user.avail → base = some w.pcimapAddr) :
    Keeps w base (charRegisterWrite t xcdev user pos) := by
  unfold charRegisterWrite
  split
  · exact .pure _
  split
  · exact .pure _
  split
  · exact .pure _
  split
  · exact .fault
  next low set _ _ place _ _ entry =>
  apply keeps_afterCopy
  intro bytes missed all
  dsimp only
  split
  · exact .pure _
  next done =>
  apply keeps_writeRegister
  · apply allowed
    · simp [registerItem_eq low set place entry]
    · exact all (by omega)
  · exact .pure _

theorem keeps_charRegisterIoctl {xcdev : XgpuCdev} {cmd : BitVec 32} {arg : UserBuf}
    (allowed : xcdev.xdev ≠ none →
      cmd = XGPU_IOCTL_REGISTER_READ ∨ cmd = XGPU_IOCTL_REGISTER_WRITE → 8 ≤ arg.avail →
      base = some w.pcimapAddr) :
    Keeps w base (charRegisterIoctl xcdev cmd arg) := by
  unfold charRegisterIoctl
  split
  · exact .pure _
  next set =>
  split
  next reads =>
    apply keeps_afterCopy
    intro bytes missed all
    dsimp only
    split
    · exact .pure _
    next done =>
    apply keeps_readRegister
    · exact allowed set (.inl reads) (all (by omega))
    · intro val
      refine .bind (keeps_copyToUser _ _) fun ret => ?_
      split <;> exact .pure _
  split
  next writes =>
    apply keeps_afterCopy
    intro bytes missed all
    dsimp only
    split
    · exact .pure _
    next done =>
    apply keeps_writeRegister
    · exact allowed set (.inr writes) (all (by omega))
    · exact .pure _
  · exact .pure _

theorem keeps_debugCheckDevHndl (hndl : XdevPtr) :
    Keeps w base (debugCheckDevHndl pdev hndl) := by
  refine .bind (.read _) fun found => ?_
  split
  · exact .pure _
  · split <;> exact .pure _

/-- Changing the flags of a structure. -/
theorem keeps_flags (x : XdevPtr) (flags : BitVec 32 → BitVec 32) :
    Keeps w base (onDev pdev (storeXdev x fun X => { X with flags := flags X.flags })) := by
  apply keeps_onDev
  intro part
  apply Act.Maintains.update
  intro s now
  have same : ∀ y, { Function.update s.xdev x { s.xdev x with flags := flags (s.xdev x).flags } y with
      flags := 0 } = { s.xdev y with flags := 0 } := by
    intro y
    by_cases target : y = x
    · subst target
      rw [Function.update_self]
    · rw [Function.update_of_ne target]
  calc driverPart (s.withXdev x { s.xdev x with flags := flags (s.xdev x).flags })
      = driverPart s := congrArg (fun xdev => { driverPart s with xdev := xdev }) (funext same)
    _ = part := now

/-- The BAR pointers of a structure are part of the view. -/
theorem ctrlBase_same {u : World} (same : driverView u = driverView w) (x : XdevPtr) (bar : Int) :
    ((u.dev x.pdev).xdev x).bar bar = ((w.dev x.pdev).xdev x).bar bar := by
  have part : driverPart (u.dev x.pdev) = driverPart (w.dev x.pdev) :=
    congrFun (congrArg DriverView.dev same) x.pdev
  exact congrArg (fun s => (s.xdev x).bar bar) part

theorem keeps_charCtrlRead (xcdev : XgpuCdev) (user : UserBuf) (pos : Nat) :
    Keeps w (some (ctrlMapping w xcdev)) (charCtrlRead xcdev user pos) := by
  unfold charCtrlRead
  split
  · exact .pure _
  next x set =>
  split
  · exact .pure _
  apply Act.Maintains.bind_read
  intro u same
  rw [ctrlBase_same same, ctrlMapping, set, Option.bind_some]
  refine .bind (keeps_ioread32At _ _) fun val => ?_
  exact .bind (keeps_copyToUser _ _) fun _ => .pure _

theorem keeps_charCtrlWrite (xcdev : XgpuCdev) (user : UserBuf) (pos : Nat) :
    Keeps w (some (ctrlMapping w xcdev)) (charCtrlWrite xcdev user pos) := by
  unfold charCtrlWrite
  split
  · exact .pure _
  next x set =>
  split
  · exact .pure _
  apply Act.Maintains.bind_read
  intro u same
  rw [ctrlBase_same same, ctrlMapping, set, Option.bind_some]
  refine .bind (keeps_copyFromUser _ _ _) fun (bytes, _) => ?_
  exact .bind (keeps_iowrite32At _ _ _) fun _ => .pure _

theorem keeps_versionIoctl (x : XdevPtr) (arg : UserBuf) :
    Keeps w base (versionIoctl hw x arg) := by
  refine .bind (keeps_copyFromUser _ _ _) fun (_, missed) => ?_
  dsimp only
  split
  · exact .pure _
  refine .bind (keeps_copyToUser _ _) fun ret => ?_
  split <;> exact .pure _

theorem keeps_charCtrlIoctl (xcdev : XgpuCdev) (cmd : BitVec 32) (arg : UserBuf) (accessOk : Bool) :
    Keeps w base (charCtrlIoctl hw xcdev cmd arg accessOk) := by
  unfold charCtrlIoctl
  split
  · exact .pure _
  split
  · exact .pure _
  split
  · exact .pure _
  split
  · refine .bind (keeps_copyFromUser _ _ _) fun (_, missed) => ?_
    dsimp only
    split
    · exact .pure _
    · exact keeps_versionIoctl _ _
  split
  · refine .bind (.bind (keeps_debugCheckDevHndl _) fun rv => ?_) fun _ => .pure _
    split
    · exact .pure _
    · exact keeps_flags _ fun flags => flags ||| XDEV_FLAG_OFFLINE
  split
  · refine .bind (.bind (keeps_debugCheckDevHndl _) fun rv => ?_) fun _ => .pure _
    split
    · exact .pure _
    · exact keeps_flags _ fun flags => flags &&& ~~~XDEV_FLAG_OFFLINE
  · exact .pure _

theorem keeps_bridgeMmap (xcdev : XgpuCdev) (vma : Vma) (remapOk : Bool) :
    Keeps w base (bridgeMmap hw xcdev vma remapOk) := by
  unfold bridgeMmap
  split
  · exact .pure _
  dsimp only
  split
  · exact .pure _
  refine .bind (.call trivial fun _ same => same) fun _ => ?_
  split <;> exact .pure _

theorem keeps_charClose (xcdev : XgpuCdev) : Keeps w base (charClose xcdev) := by
  unfold charClose
  split <;> exact .pure _

/-- The state in which a request calls the kernel, and the one it leaves, differ from
the state it starts in by the hardware, the flags of a device and the snapshot. -/
theorem request_step (hw : Dev → PciDev) (t : Tables) (w : World) (file : File) (op : Op) : Act.wp
    (fun u c => driverView u = driverView w ∧ Requested (basePointer t w file op) c)
    (request hw t file op) (fun _ u => driverView u = driverView w) w := by
  unfold request loadMember basePointer
  rw [Act.wp_bind, Act.wp_read, Act.andThen_some]
  dsimp only [id]
  generalize (w.dev file.member.pdev).member file.member = xcdev
  suffices keeps : ∀ ops, Keeps w
      (match ops with
        | .config => none
        | .register => if Accesses t xcdev op then some w.pcimapAddr else none
        | .ctrl => some (ctrlMapping w xcdev))
      (handle hw t ops xcdev op) from keeps file.ops w rfl
  intro ops
  unfold handle
  cases op with
  | read user count pos =>
    cases ops with
    | config => exact keeps_charConfigRead _ _ _ _
    | register => exact keeps_charRegisterRead _ fun accesses => if_pos accesses
    | ctrl => exact keeps_charCtrlRead _ _ _
  | write user count pos =>
    cases ops with
    | config => exact keeps_charConfigWrite _ _ _
    | register => exact keeps_charRegisterWrite fun node all => if_pos ⟨node, all⟩
    | ctrl => exact keeps_charCtrlWrite _ _ _
  | ioctl cmd arg accessOk =>
    cases ops with
    | config => exact .pure _
    | register =>
      apply Act.Maintains.bind
      · exact keeps_charRegisterIoctl fun set command all => if_pos ⟨set, command, all⟩
      · exact fun _ => .pure _
    | ctrl => exact .bind (keeps_charCtrlIoctl _ _ _ _) fun _ => .pure _
  | mmap vma remapOk =>
    cases ops with
    | config => exact .pure _
    | register => exact .pure _
    | ctrl => exact .bind (keeps_bridgeMmap _ _ _) fun _ => .pure _
  | release => exact .bind (keeps_charClose _) fun _ => .pure _

end

end PcieUtil.Driver.Requests
