import PcieUtil.Driver.RegisterFile
import PcieUtil.Driver.CtrlFile

/-! The device nodes of a device: xgpu_cdev.c, with the init and exit routines that
the files of the three kinds give it. -/

namespace PcieUtil.Driver.Interfaces
open Lib.Action Lib.Bytes State Kernel ConfigFile RegisterFile

/-- What list_for_each finds when it follows an entry that list_del has taken out and
kfree has given back: the poison value, or the entry that came next. -/
inductive Walk where
  | poison
  | every
  deriving DecidableEq, Repr

/-- The entry of a node in the table that its number belongs to. -/
def nodeOf (t : Tables) (devId : Nat) : Option Node :=
  if devId < t.itemConfigMax then t.configItems[devId]?
  else if devId < t.itemRegisterMax then t.registerItems[devId - t.itemConfigMax]?
  else if devId < t.itemIfwiMax then t.ifwiItems[devId - t.itemRegisterMax]?
  else none

/-- A format with the digits of a number put in for %d. -/
def fillFormat (digits : List Char) : List Char → List Char
  | '%' :: 'd' :: rest => digits ++ fillFormat digits rest
  | c :: rest => c :: fillFormat digits rest
  | [] => []

/-- The name of a node, with the number of the device put in. -/
def nodeName (item : Node) (idx : Int) : String :=
  String.ofList (fillFormat (toString idx).toList item.devnodeName.toList)

example : nodeName ⟨7, 0, 4, "xgpu%d/register"⟩ 12 = "xgpu12/register" := by decide

def loadMember {α : Type} (m : MemberPtr) (field : XgpuCdev → α) : M α :=
  Act.read fun w => field ((w.dev m.pdev).member m)

section
variable (hw : Dev → PciDev) (t : Tables) (env : Env)

/-- It allocates a new string, which it never fails to set when that succeeds. -/
def kobjectSetName (m : MemberPtr) (devId : Nat) (name : String) : M Int :=
  Act.call (.kobjectSetName name) fun w =>
    if env.errno (.kobjectSetName devId) = 0 then
      (0, { w with kobjName := Function.update w.kobjName m (some name) })
    else (env.rv (.kobjectSetName devId), w)

def configKobject (m : MemberPtr) (xdev : XdevPtr) (devId : Nat) : M Int := do
  match nodeOf t devId with
  | none => return 0
  | some item =>
      let idx ← Act.read fun w => w.idx xdev
      kobjectSetName env m devId (nodeName item idx)

/-- cdev_init clears the whole struct cdev before it sets the operations. -/
def cdevInit (m : MemberPtr) (ops : FileOps) : M Unit := do
  Act.update fun w => { w with kobjName := Function.update w.kobjName m none }
  onDev m.pdev (storeMember m fun c => { c with owner := false, ops := some ops })

def cdevConfigInit (m : MemberPtr) (xdev : XdevPtr) : M Unit := do
  cdevInit m .config
  fillSnapshot xdev.pdev PCI_CONFIG_SIZE 0

def cdevRegisterInit (m : MemberPtr) (xdev : XdevPtr) (devId : Nat) : M Unit := do
  cdevInit m .register
  let base ← onDev xdev.pdev (pciIomap hw env (.iomapRegister devId) xdev.pdev REGISTER_BAR 0)
  Act.update fun w =>
    { w with pcimapAddr := base, registerInit := some (xdev.pdev, base.isSome) }

def cdevRegisterExit (m : MemberPtr) : M Unit := do
  match ← Act.read World.pcimapAddr with
  | none => return
  | some base =>
      match ← loadMember m XgpuCdev.xdev with
      | none => Act.fault
      | some xdev =>
          onDev base.pdev (pciIounmap xdev.pdev base)
          Act.update fun w => { w with pcimapAddr := none }

def cdevCtrlInit (m : MemberPtr) : M Unit := cdevInit m .ctrl

def initXcdev (m : MemberPtr) (xdev : XdevPtr) (devId : Nat) : M Unit :=
  if devId < t.itemConfigMax then cdevConfigInit m xdev
  else if devId < t.itemRegisterMax then cdevRegisterInit hw env m xdev devId
  else if devId < t.itemIfwiMax then cdevCtrlInit m
  else pure ()

def createSysDevice (m : MemberPtr) (xdev : XdevPtr) (devId : Nat) : M Int := do
  match nodeOf t devId with
  | none => return 0
  | some item =>
      let idx ← Act.read fun w => w.idx xdev
      let cdevno ← loadMember m XgpuCdev.cdevno
      let sysDevice ← onDev m.pdev (deviceCreate env devId cdevno (nodeName item idx))
      onDev m.pdev (storeMember m fun c => { c with sysDevice := sysDevice })
      if sysDevice = .null then return -1 else return 0

def destroyXcdev (m : MemberPtr) : M Int := do
  let cdev ← loadMember m id
  if cdev.xdev = none then return -EINVAL
  else if ¬ (← Act.read World.gXgpuClass) then return -EINVAL
  else if cdev.sysDevice = .null then return -EINVAL
  else
    onDev m.pdev (deviceDestroy cdev.cdevno)
    onDev m.pdev (cdevDel m)
    return 0

/-- The major number of the device, which its first node allocates. -/
def allocMajor (pdev : Dev) (devId : Nat) : M Int := do
  if (← Act.read fun w => (w.dev pdev).xpdev.major) ≠ 0 then return 0
  else
    let (rv, major) ← onDev pdev
      (allocChrdevRegion env devId 0 XGPU_MINOR_COUNT "xgpu")
    if rv ≠ 0 then return rv
    else
      onDev pdev (storeXpdev fun p => { p with major := major })
      return 0

/-- The end of create_xcdev, from cdev_add on. -/
def addXcdev (pdev : Dev) (xdev : XdevPtr) (m : MemberPtr) (devId : Nat) (cdevno : BitVec 32) :
    M Int := do
  let rv ← onDev pdev (cdevAdd env devId m cdevno 1)
  if rv < 0 then
    onDev pdev (unregisterChrdevRegion cdevno XGPU_MINOR_COUNT)
    return rv
  else if ← Act.read World.gXgpuClass then
    -- create device on our class
    let rv ← createSysDevice t env m xdev devId
    if rv < 0 then
      onDev pdev (cdevDel m)
      onDev pdev (unregisterChrdevRegion cdevno XGPU_MINOR_COUNT)
      return rv
    else return 0
  else return 0

def createXcdev (pdev : Dev) (xdev : XdevPtr) (m : MemberPtr) (bar : Int) (devId : Nat) : M Int := do
  let rv ← allocMajor env pdev devId
  if rv ≠ 0 then return rv
  else
    -- do not register yet, create kobjects and name them
    onDev pdev (storeMember m fun c => { c with owner := true, xdev := some xdev, bar := bar })
    let rv ← configKobject t env m xdev devId
    if rv < 0 then return rv
    else
      initXcdev hw t env m xdev devId
      let cdevno ← Act.read fun w => mkdev (w.dev pdev).xpdev.major devId
      onDev pdev (storeMember m fun c => { c with cdevno := cdevno })
      -- bring character device live
      addXcdev t env pdev xdev m devId cdevno

end

section
variable (t : Tables) (walk : Walk)

/-- Whether the number of a member, as an int32_t, is that of a register node. -/
def isRegisterNumber (cdevno : BitVec 32) : Prop :=
  (t.itemConfigMax : Int) ≤ cdevno.toInt ∧ cdevno.toInt < t.itemRegisterMax

instance (cdevno : BitVec 32) : Decidable (isRegisterNumber t cdevno) :=
  inferInstanceAs (Decidable (_ ∧ _))

def listDel (type : Nat) (m : MemberPtr) : DevM Unit :=
  storeXpdev fun p =>
    { p with listHead := Function.update p.listHead type ((p.listHead type).erase m) }

def listAddTail (type : Nat) (m : MemberPtr) : DevM Unit :=
  storeXpdev fun p =>
    { p with listHead := Function.update p.listHead type (p.listHead type ++ [m]) }

/-- The loop over the members of a list. -/
def destroyMembers (pdev : Dev) (type : Nat) : List MemberPtr → M Unit
  | [] => pure ()
  | m :: rest => do
      let cdevno ← loadMember m XgpuCdev.cdevno
      (if isRegisterNumber t cdevno then cdevRegisterExit m else pure ())
      if (← destroyXcdev m) < 0 then return
      else
        onDev pdev (listDel type m)
        onDev pdev (kfree (.memberEntry m))
        match walk with
        | .poison => Act.fault
        | .every => destroyMembers pdev type rest

def fileDestroyInterfaces (pdev : Dev) (type : Nat) : M Unit := do
  destroyMembers t walk pdev type (← Act.read fun w => (w.dev pdev).xpdev.listHead type)

def xpdevDestroyInterfaces (pdev : Dev) : M Unit := do
  fileDestroyInterfaces t walk pdev 2
  fileDestroyInterfaces t walk pdev 1
  fileDestroyInterfaces t walk pdev 0
  let major ← Act.read fun w => (w.dev pdev).xpdev.major
  if major ≠ 0 then onDev pdev (unregisterChrdevRegion (mkdev major 0) XGPU_MINOR_COUNT)
  else pure ()

end

section
variable (hw : Dev → PciDev) (t : Tables) (walk : Walk) (env : Env)

/-- The loop of file_create_interface over the items of a table, from index ii on. -/
def createMembers (pdev : Dev) (xdev : XdevPtr) (type : Nat) : List Node → Nat → M Int
  | [], _ => return 0
  | item :: rest, ii => do
      match ← onDev pdev (kmallocMember env pdev item.devId) with
      | none =>
          fileDestroyInterfaces t walk pdev type
          return -1
      | some m =>
          let configBarIdx ← onDev pdev (loadXdev xdev XgpuDev.configBarIdx)
          let rv ← createXcdev hw t env pdev xdev m (configBarIdx + ii) item.devId
          if rv < 0 then
            fileDestroyInterfaces t walk pdev type
            return -1
          else
            onDev pdev (listAddTail type m)
            createMembers pdev xdev type rest (ii + 1)

def fileCreateInterface (pdev : Dev) (items : List Node) (type : Nat) : M Int := do
  match ← Act.read fun w => (w.dev pdev).xpdev.xdev with
  | none => return -1
  | some xdev => createMembers hw t walk env pdev xdev type items 0

def xpdevCreateInterfaces (pdev : Dev) : M Int := do
  let ret ← fileCreateInterface hw t walk env pdev t.configItems 0
  if ret ≠ 0 then
    xpdevDestroyInterfaces t walk pdev
    return -1
  else
    let ret ← fileCreateInterface hw t walk env pdev t.registerItems 1
    if ret ≠ 0 then
      xpdevDestroyInterfaces t walk pdev
      return -1
    else
      let ret ← fileCreateInterface hw t walk env pdev t.ifwiItems 2
      if ret ≠ 0 then
        xpdevDestroyInterfaces t walk pdev
        return -1
      else return ret

end

end PcieUtil.Driver.Interfaces
