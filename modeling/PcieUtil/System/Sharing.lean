import PcieUtil.Driver.ConfigTwins
import PcieUtil.System.Files

/-! Histories in which devices are probed and their config files are read and written:
what the files of a device give, beside the other devices and without them. -/

namespace PcieUtil.System.Sharing
open Lib.Action Lib.Bytes Lib.Events
open Driver.State Driver.Kernel Driver.ConfigFile Driver.Transfers Driver.Snapshot Driver.Devices
  Driver.Interfaces Driver.Nodes Driver.Probe Driver.Requests Driver.Twins Driver.ConfigTwins Hotplug
  Files

/-- What a read gives: what its handler returns, and the bytes that it hands out. -/
structure Answer where
  result : Option Ret
  bytes : List Byte
  deriving DecidableEq

/-- The module, with the snapshot as the last probe of each device or the last write
through it left it, and what the files of each device have given so far. -/
structure Sys where
  hot : Hotplug.Sys
  left : Dev → Memory
  returned : Dev → List (Nat × Answer)

def Sys.start (bus : Bus) (config : Dev → Memory) (regs : Dev → Nat → Nat → BitVec 32) : Sys where
  hot := .start bus config regs
  left _ _ := 0
  returned _ := []

/-- The xgpu_cdev behind an open file. -/
def xcdevOf (w : World) (file : File) : XgpuCdev := (w.dev file.member.pdev).member file.member

/-- Whether an event fills the snapshot, or may. -/
def fills (s : Hotplug.Sys) : Event → Bool
  | .probe _ _ => true
  | .request pdev fd (.write _ _ pos) =>
      match s.files (pdev, fd) with
      | none => false
      | some file => renews (xcdevOf s.world file) pos
  | _ => false

section
variable (hw : Dev → PciDev) (walk : Walk)

def answer (w : World) (file : File) (op : Op) : Answer :=
  let out := (request hw tables file op).run w
  ⟨out.value, out.trace.flatMap fun e => handedOut e.2⟩

/-- What an event adds to what the files of its device have given. -/
def gives (s : Hotplug.Sys) : Event → List (Nat × Answer)
  | .request pdev fd (.read user count pos) =>
      match s.files (pdev, fd) with
      | none => []
      | some file => [(fd, answer hw s.world file (.read user count pos))]
  | _ => []

def step (s : Sys) (e : Event) : Sys where
  hot := Hotplug.step hw walk s.hot e
  left :=
    if fills s.hot e then
      Function.update s.left e.pdev (Hotplug.step hw walk s.hot e).world.configData
    else s.left
  returned := Function.update s.returned e.pdev (s.returned e.pdev ++ gives hw s.hot e)

/-- Reads, writes and releases. The kernel keeps counts and positions signed. -/
def Plain : Op → Prop
  | .read _ count pos | .write _ count pos => count < 2 ^ 63 ∧ pos < 2 ^ 63
  | .release => True
  | .ioctl _ _ _ | .mmap _ _ => False

/-- Devices are probed, and files are opened; those that are used are config files. -/
def InScope (s : Hotplug.Sys) : Event → Prop
  | .probe _ _ | .openFile _ _ => True
  | .remove _ => False
  | .request pdev fd op => (∀ file, s.files (pdev, fd) = some file → file.ops = .config) ∧ Plain op

def machine : Machine Sys Event := ⟨fun s e => Admits s.hot e ∧ InScope s.hot e, step hw walk⟩

end

/-- A read of the device's file of the whole space comes while the snapshot is, where the read
hands it out, what the device left there. -/
def Undisturbed (pdev : Dev) (s : Sys) : Event → Prop
  | .request d fd (.read user count pos) => d = pdev → ∀ file, s.hot.files (d, fd) = some file →
      isWhole tables (xcdevOf s.hot.world file) = true →
        ∀ k, Covers user pos count k → s.hot.world.configData k = s.left pdev k
  | _ => True

section
variable (hw : Dev → PciDev) (pdev : Dev)

structure Sound (s : Hotplug.Sys) : Prop where
  inv : Inv hw s
  served : Served hw s

/-- The module with the other devices and without them. -/
structure Beside (s u : Hotplug.Sys) : Prop where
  twin : Twin pdev s.world u.world
  binding : s.binding pdev = u.binding pdev
  files : ∀ fd, s.files (pdev, fd) = u.files (pdev, fd)

/-- The same for the histories; without the others, the snapshot is what the device left. -/
structure Alike (s u : Sys) : Prop where
  sound : Sound hw s.hot
  sound' : Sound hw u.hot
  beside : Beside pdev s.hot u.hot
  returned : s.returned pdev = u.returned pdev
  snapshot : (s.hot.world.dev pdev).xpdev.listHead 0 ≠ [] →
    SameBelow PCI_CONFIG_SIZE (s.left pdev) u.hot.world.configData

end

section
variable {hw : Dev → PciDev} {walk : Walk} {pdev : Dev} {s u : Sys} {h h' : Hotplug.Sys}
  {w : World} {file : File} {fd : Nat} {e : Event}

theorem Sound.step (sound : Sound hw h) (possible : Admits h e) (scope : InScope h e) :
    Sound hw (Hotplug.step hw walk h e) := by
  have released : Released h e := by
    cases e with
    | remove d => exact scope.elim
    | _ => trivial
  exact ⟨inv_step sound.inv possible, served_step sound.inv sound.served possible released⟩

theorem opsOf_config {type : Nat} (named : opsOf type = some .config) : type = 0 := by
  rcases type with _ | _ | _ | type
  · rfl
  · cases named
  · cases named
  · cases named

/-- An open config file is on a node of its device. -/
theorem Sound.config (sound : Sound hw h) (opened : h.files (pdev, fd) = some file)
    (ops : file.ops = .config) :
    ∃ x : XdevPtr, x.pdev = pdev ∧ file.member.pdev = pdev ∧
      (xcdevOf h.world file).xdev = some x ∧ (h.world.dev pdev).xpdev.listHead 0 ≠ [] := by
  obtain ⟨x, type, own, usable, listed, named⟩ := sound.served pdev fd file opened
  have member := usable.linked.each type _ listed
  have home : file.member.pdev = pdev := member.own.trans own
  obtain rfl := opsOf_config (named.trans (congrArg some ops))
  refine ⟨x, own, home, ?_, List.ne_nil_of_mem listed⟩
  rw [xcdevOf, home]
  exact member.finished.xdev

theorem request_read (m : MemberPtr) (user : UserBuf) (count pos : Nat) (w : World) :
    (request hw tables ⟨m, .config⟩ (.read user count pos)).run w =
      (charConfigRead tables (xcdevOf w ⟨m, .config⟩) user count pos).run w := rfl

theorem request_write (m : MemberPtr) (user : UserBuf) (count pos : Nat) (w : World) :
    (request hw tables ⟨m, .config⟩ (.write user count pos)).run w =
      (charConfigWrite hw tables (xcdevOf w ⟨m, .config⟩) user pos).run w := rfl

/-- Reads and releases change nothing. -/
theorem request_same (ops : file.ops = .config) {op : Op}
    (idle : ∀ user count pos, op ≠ .write user count pos) (plain : Plain op) :
    ((request hw tables file op).run w).state = w := by
  obtain ⟨m, kind⟩ := file
  change kind = .config at ops
  subst ops
  cases op with
  | read user count pos =>
    rw [request_read]
    exact (charConfigRead_same w w rfl).2
  | write user count pos => exact absurd rfl (idle user count pos)
  | release =>
    change ((charClose (xcdevOf w ⟨m, .config⟩) >>= fun ret => pure (ret, 0)).run w).state = w
    unfold charClose
    split <;> rfl
  | ioctl cmd arg accessOk => exact plain.elim
  | mmap vma remapOk => exact plain.elim

/-- A request on a config file of another device leaves the device alone. -/
theorem request_aside {x : XdevPtr} (owner : (xcdevOf w file).xdev = some x) (other : pdev ≠ x.pdev)
    (ops : file.ops = .config) {op : Op} (plain : Plain op) :
    Twin pdev w ((request hw tables file op).run w).state := by
  by_cases idle : ∀ user count pos, op ≠ .write user count pos
  · rw [request_same ops idle plain]
    exact .refl pdev w
  · obtain ⟨m, kind⟩ := file
    change kind = .config at ops
    subst ops
    cases op with
    | write user count pos =>
      rw [request_write]
      exact (charConfigWrite_aside owner other w w (.refl pdev w)).2
    | _ => exact absurd (fun _ _ _ same => by cases same) idle

/-! The events of the device do the same in both. -/

theorem Beside.admits (beside : Beside pdev h h') (own : e.pdev = pdev) (possible : Admits h e)
    (scope : InScope h e) : Admits h' e ∧ InScope h' e := by
  cases e with
  | probe d env =>
    obtain rfl : d = pdev := own
    exact ⟨beside.binding.symm.trans possible, trivial⟩
  | remove d => exact scope.elim
  | openFile fd m =>
    obtain rfl : m.pdev = pdev := own
    obtain ⟨free, cdevno, registered⟩ := possible
    refine ⟨⟨(beside.files fd).symm.trans free, cdevno, ?_⟩, trivial⟩
    rw [← beside.twin.dev]
    exact registered
  | request d fd op =>
    obtain rfl : d = pdev := own
    constructor
    · change h'.files (d, fd) ≠ none
      rw [← beside.files fd]
      exact possible
    · refine ⟨?_, scope.2⟩
      rw [← beside.files fd]
      exact scope.1

theorem Beside.open (beside : Beside pdev h h') (m : MemberPtr) (own : m.pdev = pdev) :
    Beside pdev (Hotplug.step hw walk h (.openFile fd m)) (Hotplug.step hw walk h' (.openFile fd m)) := by
  refine ⟨beside.twin, beside.binding, fun fd' => ?_⟩
  subst own
  simp only [Hotplug.step, ← beside.twin.dev, Function.update_apply, beside.files fd']

theorem Beside.request (beside : Beside pdev h h') {op : Op} (opened : h.files (pdev, fd) = some file)
    (twin : Twin pdev ((request hw tables file op).run h.world).state
      ((request hw tables file op).run h'.world).state) :
    Beside pdev (Hotplug.step hw walk h (.request pdev fd op))
      (Hotplug.step hw walk h' (.request pdev fd op)) := by
  have opened' : h'.files (pdev, fd) = some file := (beside.files fd).symm.trans opened
  simp only [Hotplug.step, opened, opened']
  refine ⟨twin, beside.binding, fun fd' => ?_⟩
  by_cases closes : op.closes = true
  · simp only [if_pos closes, Function.update_apply, beside.files fd']
  · simp only [if_neg closes, beside.files fd']

/-- Where both have filled the snapshot, it is the same below the size of the space. -/
theorem filled_both {w u : World} (twin : Twin pdev w u) (first : Snapshotted pdev w)
    (second : Snapshotted pdev u) (nodes : (w.dev pdev).xpdev.listHead 0 ≠ []) :
    SameBelow PCI_CONFIG_SIZE w.configData u.configData := by
  intro k below
  rw [first nodes k below, second (twin.dev ▸ nodes) k below, twin.dev]

theorem Alike.probe (alike : Alike hw pdev s u) (env : Env) (free : s.hot.binding pdev = .unbound)
    (sound : Sound hw (Hotplug.step hw walk s.hot (.probe pdev env)))
    (sound' : Sound hw (Hotplug.step hw walk u.hot (.probe pdev env))) :
    Alike hw pdev (step hw walk s (.probe pdev env)) (step hw walk u (.probe pdev env)) := by
  have known := alike.sound.inv.devices pdev
  rw [free] at known
  have both : Act.both (fun _ => Twin pdev) (probeOne hw tables walk env pdev)
      (probeOne hw tables walk env pdev) s.hot.world u.hot.world :=
    probeOne_both tables_fit known alike.beside.twin
  obtain ⟨value, twin⟩ := both
  have first : Act.wp (LawfulOn hw True pdev s.hot.world) (probeOne hw tables walk env pdev) _ s.hot.world :=
    probe_spec alike.sound.inv free fun _ => trivial
  have second : Act.wp (LawfulOn hw True pdev u.hot.world) (probeOne hw tables walk env pdev) _ u.hot.world :=
    probe_spec alike.sound'.inv (alike.beside.binding.symm.trans free) fun _ => trivial
  refine ⟨sound, sound', ⟨twin, ?_, alike.beside.files⟩, ?_, ?_⟩
  · simp only [step, Hotplug.step, Function.update_self, value]
  · simp only [step, gives, Event.pdev, Function.update_self, alike.returned]
  · intro nodes
    have left : (step hw walk s (.probe pdev env)).left pdev =
        (Hotplug.step hw walk s.hot (.probe pdev env)).world.configData := Function.update_self _ _ _
    rw [left]
    exact filled_both twin first.2.2.1 second.2.2.1 nodes

/-- A read gives the same when the snapshots are the same where it hands them out. -/
theorem answer_same {u : World} {x : XdevPtr} {user : UserBuf} {count pos : Nat}
    (twin : Twin pdev w u) (home : file.member.pdev = pdev) (ops : file.ops = .config)
    (owner : (xcdevOf w file).xdev = some x) (own : x.pdev = pdev) (plain : count < 2 ^ 63 ∧ pos < 2 ^ 63)
    (data : isWhole tables (xcdevOf w file) = true →
      ∀ k, Covers user pos count k → w.configData k = u.configData k) :
    answer hw w file (.read user count pos) = answer hw u file (.read user count pos) := by
  have same : xcdevOf w file = xcdevOf u file := by
    rw [xcdevOf, xcdevOf, home, twin.dev]
  have config : (w.dev x.pdev).config = (u.dev x.pdev).config := by
    rw [own, twin.dev]
  obtain ⟨m, kind⟩ := file
  change kind = .config at ops
  subst ops
  have here : Act.collects handedOut (charConfigRead tables (xcdevOf w ⟨m, .config⟩) user count pos)
      (fun v w' bytes => w' = w ∧ ⟨v, bytes⟩ = answer hw w ⟨m, .config⟩ (.read user count pos)) w :=
    ⟨(charConfigRead_same w w rfl).2, rfl⟩
  have there := (charConfigRead_twin owner plain.2 plain.1 config data).mp here
  rw [same] at there
  exact there.2.symm

theorem Alike.read (alike : Alike hw pdev s u) {user : UserBuf} {count pos : Nat}
    (opened : s.hot.files (pdev, fd) = some file) (ops : file.ops = .config)
    (plain : count < 2 ^ 63 ∧ pos < 2 ^ 63)
    (meets : Undisturbed pdev s (.request pdev fd (.read user count pos)))
    (sound : Sound hw (Hotplug.step hw walk s.hot (.request pdev fd (.read user count pos))))
    (sound' : Sound hw (Hotplug.step hw walk u.hot (.request pdev fd (.read user count pos)))) :
    Alike hw pdev (step hw walk s (.request pdev fd (.read user count pos)))
      (step hw walk u (.request pdev fd (.read user count pos))) := by
  have opened' : u.hot.files (pdev, fd) = some file := (alike.beside.files fd).symm.trans opened
  obtain ⟨x, own, home, owner, nodes⟩ := alike.sound.config opened ops
  have same : ∀ w, ((request hw tables file (.read user count pos)).run w).state = w := fun w =>
    request_same ops (fun _ _ _ differs => by cases differs) plain
  have data : isWhole tables (xcdevOf s.hot.world file) = true →
      ∀ k, Covers user pos count k → s.hot.world.configData k = u.hot.world.configData k := by
    intro whole k covers
    exact (meets rfl file opened whole k covers).trans (alike.snapshot nodes k (covers_inside covers))
  have answers : answer hw s.hot.world file (.read user count pos) =
      answer hw u.hot.world file (.read user count pos) :=
    answer_same alike.beside.twin home ops owner own plain data
  have twin : Twin pdev ((request hw tables file (.read user count pos)).run s.hot.world).state
      ((request hw tables file (.read user count pos)).run u.hot.world).state := by
    rw [same, same]
    exact alike.beside.twin
  have beside : Beside pdev
      (Hotplug.step hw walk s.hot (.request pdev fd (.read user count pos)))
      (Hotplug.step hw walk u.hot (.request pdev fd (.read user count pos))) :=
    alike.beside.request opened twin
  refine ⟨sound, sound', beside, ?_, ?_⟩
  · simp only [step, gives, Event.pdev, opened, opened', Function.update_self, alike.returned, answers]
  · simp only [step, fills, Hotplug.step, opened, opened', same]
    exact fun _ => alike.snapshot nodes

theorem Alike.write (alike : Alike hw pdev s u) {user : UserBuf} {count pos : Nat}
    (opened : s.hot.files (pdev, fd) = some file) (ops : file.ops = .config)
    (sound : Sound hw (Hotplug.step hw walk s.hot (.request pdev fd (.write user count pos))))
    (sound' : Sound hw (Hotplug.step hw walk u.hot (.request pdev fd (.write user count pos)))) :
    Alike hw pdev (step hw walk s (.request pdev fd (.write user count pos)))
      (step hw walk u (.request pdev fd (.write user count pos))) := by
  have opened' : u.hot.files (pdev, fd) = some file := (alike.beside.files fd).symm.trans opened
  obtain ⟨x, own, home, owner, nodes⟩ := alike.sound.config opened ops
  have same : xcdevOf s.hot.world file = xcdevOf u.hot.world file := by
    rw [xcdevOf, xcdevOf, home, alike.beside.twin.dev]
  have written : Act.both (fun _ w' u' => Twin pdev w' u' ∧
        Renewed (xcdevOf s.hot.world file) pos s.hot.world u.hot.world w' u')
      (request hw tables file (.write user count pos)) (request hw tables file (.write user count pos))
      s.hot.world u.hot.world := by
    obtain ⟨m, kind⟩ := file
    change kind = .config at ops
    subst ops
    rw [Act.both, request_write, request_write, ← same]
    exact charConfigWrite_both owner own alike.beside.twin
  obtain ⟨_, twin, renewed⟩ := written
  have beside : Beside pdev
      (Hotplug.step hw walk s.hot (.request pdev fd (.write user count pos)))
      (Hotplug.step hw walk u.hot (.request pdev fd (.write user count pos))) :=
    alike.beside.request opened twin
  refine ⟨sound, sound', beside, ?_, ?_⟩
  · simp only [step, gives, Event.pdev, Function.update_self, alike.returned]
  · intro _
    unfold Renewed at renewed
    simp only [step, fills, Hotplug.step, Event.pdev, opened, opened']
    split at renewed
    next fresh =>
      rw [if_pos fresh, Function.update_self]
      exact renewed
    next kept =>
      rw [if_neg kept, renewed.2]
      exact alike.snapshot nodes

theorem Alike.release (alike : Alike hw pdev s u) (opened : s.hot.files (pdev, fd) = some file)
    (ops : file.ops = .config)
    (sound : Sound hw (Hotplug.step hw walk s.hot (.request pdev fd .release)))
    (sound' : Sound hw (Hotplug.step hw walk u.hot (.request pdev fd .release))) :
    Alike hw pdev (step hw walk s (.request pdev fd .release))
      (step hw walk u (.request pdev fd .release)) := by
  have opened' : u.hot.files (pdev, fd) = some file := (alike.beside.files fd).symm.trans opened
  have same : ∀ w, ((request hw tables file .release).run w).state = w := fun w =>
    request_same ops (fun _ _ _ differs => by cases differs) trivial
  have twin : Twin pdev ((request hw tables file .release).run s.hot.world).state
      ((request hw tables file .release).run u.hot.world).state := by
    rw [same, same]
    exact alike.beside.twin
  have beside : Beside pdev (Hotplug.step hw walk s.hot (.request pdev fd .release))
      (Hotplug.step hw walk u.hot (.request pdev fd .release)) :=
    alike.beside.request opened twin
  refine ⟨sound, sound', beside, ?_, ?_⟩
  · simp only [step, gives, Event.pdev, Function.update_self, alike.returned]
  · simp only [step, fills, Hotplug.step, opened, opened', same]
    exact alike.snapshot

/-- An event of the device is possible in both, and keeps them alike. -/
theorem Alike.keep (alike : Alike hw pdev s u) (own : e.pdev = pdev)
    (possible : (machine hw walk).admits s e) (meets : Undisturbed pdev s e) :
    (machine hw walk).admits u e ∧ Alike hw pdev (step hw walk s e) (step hw walk u e) := by
  obtain ⟨admitted, scope⟩ := possible
  obtain ⟨admitted', scope'⟩ := alike.beside.admits own admitted scope
  have sound : Sound hw (Hotplug.step hw walk s.hot e) := alike.sound.step admitted scope
  have sound' : Sound hw (Hotplug.step hw walk u.hot e) := alike.sound'.step admitted' scope'
  refine ⟨⟨admitted', scope'⟩, ?_⟩
  cases e with
  | probe d env =>
    obtain rfl : d = pdev := own
    exact alike.probe env admitted sound sound'
  | remove d => exact scope.elim
  | openFile fd m =>
    have beside : Beside pdev (Hotplug.step hw walk s.hot (.openFile fd m))
        (Hotplug.step hw walk u.hot (.openFile fd m)) := alike.beside.open m own
    refine ⟨sound, sound', beside, ?_, alike.snapshot⟩
    simp only [step, gives, own, Function.update_self, alike.returned]
  | request d fd op =>
    obtain rfl : d = pdev := own
    obtain ⟨file, opened⟩ := Option.ne_none_iff_exists'.mp admitted
    have ops := scope.1 file opened
    cases op with
    | read user count pos => exact alike.read opened ops scope.2 meets sound sound'
    | write user count pos => exact alike.write opened ops sound sound'
    | release => exact alike.release opened ops sound sound'
    | ioctl cmd arg accessOk => exact scope.2.elim
    | mmap vma remapOk => exact scope.2.elim

/-! The events of other devices cannot be seen. -/

theorem Sound.aside (sound : Sound hw h) (other : e.pdev ≠ pdev) (possible : Admits h e)
    (scope : InScope h e) : Twin pdev h.world (Hotplug.step hw walk h e).world := by
  cases e with
  | probe d env =>
    have spec : Act.wp (LawfulOn hw True d h.world) (probeOne hw tables walk env d) _ h.world :=
      probe_spec sound.inv possible fun _ => trivial
    obtain ⟨_, apart, _⟩ := spec
    exact ⟨(apart.dev pdev other.symm).symm, (apart.list pdev other.symm).symm, apart.sysClass.symm⟩
  | remove d => exact scope.elim
  | openFile fd m => exact .refl pdev h.world
  | request d fd op =>
    obtain ⟨file, opened⟩ := Option.ne_none_iff_exists'.mp possible
    have ops := scope.1 file opened
    obtain ⟨x, own, _, owner, _⟩ := sound.config opened ops
    simp only [Hotplug.step, opened]
    exact request_aside owner (own ▸ other.symm) ops scope.2

theorem elsewhere_binding (other : e.pdev ≠ pdev) :
    (Hotplug.step hw walk h e).binding pdev = h.binding pdev := by
  cases e with
  | probe d env => exact Function.update_of_ne other.symm _ _
  | remove d => exact Function.update_of_ne other.symm _ _
  | openFile fd m => rfl
  | request d fd op =>
    simp only [Hotplug.step]
    split <;> rfl

theorem elsewhere_files (other : e.pdev ≠ pdev) :
    (Hotplug.step hw walk h e).files (pdev, fd) = h.files (pdev, fd) := by
  have apart : ∀ d fd', d ≠ pdev → (pdev, fd) ≠ (d, fd') := fun d fd' differs same =>
    differs (congrArg Prod.fst same).symm
  cases e with
  | probe d env => rfl
  | remove d => rfl
  | openFile fd' m => exact Function.update_of_ne (apart _ fd' other) _ _
  | request d fd' op =>
    simp only [Hotplug.step]
    split
    · rfl
    · dsimp only
      split
      · exact Function.update_of_ne (apart _ fd' other) _ _
      · rfl

theorem Alike.skip (alike : Alike hw pdev s u) (other : e.pdev ≠ pdev)
    (possible : (machine hw walk).admits s e) : Alike hw pdev (step hw walk s e) u := by
  obtain ⟨admitted, scope⟩ := possible
  have sound : Sound hw (Hotplug.step hw walk s.hot e) := alike.sound.step admitted scope
  have twin : Twin pdev s.hot.world (Hotplug.step hw walk s.hot e).world :=
    alike.sound.aside other admitted scope
  have left : (step hw walk s e).left pdev = s.left pdev := by
    simp only [step]
    split
    · exact Function.update_of_ne other.symm _ _
    · rfl
  refine ⟨sound, alike.sound', ⟨?_, ?_, ?_⟩, ?_, ?_⟩
  · exact twin.symm.trans alike.beside.twin
  · exact (elsewhere_binding other).trans alike.beside.binding
  · exact fun fd => (elsewhere_files other).trans (alike.beside.files fd)
  · exact (Function.update_of_ne other.symm _ _).trans alike.returned
  · change ((Hotplug.step hw walk s.hot e).world.dev pdev).xpdev.listHead 0 ≠ [] → _
    rw [left, ← twin.dev]
    exact alike.snapshot

/-- No other device has come between a probe and the files opened behind it. -/
theorem undisturbed_opened (s : Sys) (env : Env) (fd : Nat) (m : MemberPtr) (e : Event) :
    Undisturbed pdev (step hw walk (step hw walk s (.probe pdev env)) (.openFile fd m)) e := by
  cases e with
  | request d fd op =>
    cases op with
    | read user count pos =>
      intro _ file _ _ k _
      have left : (step hw walk s (.probe pdev env)).left pdev =
          (step hw walk s (.probe pdev env)).hot.world.configData := Function.update_self _ _ _
      exact (congrFun left k).symm
    | _ => trivial
  | _ => trivial

theorem alike_start {bus : Bus} {config config' : Dev → Memory} {regs regs' : Dev → Nat → Nat → BitVec 32}
    (sameConfig : config' pdev = config pdev) (sameRegs : regs' pdev = regs pdev) :
    Alike hw pdev (.start bus config regs) (.start bus config' regs') := by
  have served : ∀ config regs, Served hw (Hotplug.Sys.start bus config regs) := by
    intro config regs d fd file opened
    cases opened
  refine ⟨⟨inv_start bus config regs, served _ _⟩, ⟨inv_start bus config' regs', served _ _⟩,
    ⟨⟨?_, rfl, rfl⟩, rfl, fun _ => rfl⟩, rfl, fun nodes => absurd rfl nodes⟩
  simp only [Sys.start, Hotplug.Sys.start, World.start, sameConfig, sameRegs]

/-- Without the other devices, and whatever is in their spaces, a run in which no read of the
device's is disturbed is possible, and the files of the device give the same. -/
theorem reads_alone {bus : Bus} {config config' : Dev → Memory} {regs regs' : Dev → Nat → Nat → BitVec 32}
    {es : List Event} (sameConfig : config' pdev = config pdev) (sameRegs : regs' pdev = regs pdev)
    (run : (machine hw walk).Run (Undisturbed pdev) (.start bus config regs) es s) :
    ∃ u, (machine hw walk).Run (fun _ _ => True) (.start bus config' regs')
      (es.filter fun e => e.pdev = pdev) u ∧ s.returned pdev = u.returned pdev := by
  have purged := run.purge (Alike hw pdev) (fun e => decide (e.pdev = pdev)) (alike_start sameConfig sameRegs)
    (fun _ _ _ own alike possible meets => alike.keep (of_decide_eq_true own) possible meets)
    (fun _ _ _ other alike possible => alike.skip (of_decide_eq_false other) possible)
  obtain ⟨u, alone, alike⟩ := purged
  exact ⟨u, alone, alike.returned⟩

end

/-- Boards that differ in the first byte of their spaces. -/
def boardStart : Sys :=
  .start .plain (fun d at' => if at' = 0 then BitVec.ofNat 8 d else pinConfig d at') fun _ _ _ => 0

/-- The node of the whole space of the first device. -/
def wholeMember : MemberPtr := ⟨0, 4⟩

/-- A read of all of it. -/
def wholeRead : Event := .request 0 0 (.read ample PCI_CONFIG_SIZE 0)

/-- Two devices are probed, and the first one's file of the whole space is opened. -/
def opening (first second : Dev) : List Event :=
  [goodProbe first, goodProbe second, .openFile 0 wholeMember]

def opened (walk : Walk) (first second : Dev) : Sys :=
  (opening first second).foldl (step board walk) boardStart

theorem run_next {cond : Sys → Event → Prop} {hw : Dev → PciDev} {walk : Walk} {start s : Sys}
    {es : List Event} (run : (machine hw walk).Run cond start es s) (e : Event)
    (possible : Admits s.hot e) (scope : InScope s.hot e) (meets : cond s e) :
    (machine hw walk).Run cond start (es ++ [e]) (step hw walk s e) :=
  .next e run ⟨possible, scope⟩ meets

theorem opened_run (walk : Walk) {first second : Dev}
    (order : first = 0 ∧ second = 1 ∨ first = 1 ∧ second = 0) :
    (machine board walk).Run (Undisturbed 0) boardStart (opening first second)
        (opened walk first second) ∧
      (opened walk first second).hot.files (0, 0) = some ⟨wholeMember, .config⟩ := by
  have one : (machine board walk).Run (Undisturbed 0) boardStart _ _ :=
    run_next .start (goodProbe first) rfl trivial trivial
  have free : (step board walk boardStart (goodProbe first)).hot.binding second = .unbound := by
    rcases order with ⟨rfl, rfl⟩ | ⟨rfl, rfl⟩ <;> rfl
  have two := run_next one (goodProbe second) free trivial trivial
  have node : Admits (step board walk (step board walk boardStart (goodProbe first))
      (goodProbe second)).hot (.openFile 0 wholeMember) := by
    refine ⟨rfl, 0x0F000000, ?_⟩
    rcases order with ⟨rfl, rfl⟩ | ⟨rfl, rfl⟩ <;> cases walk <;> decide +kernel
  refine ⟨run_next two _ node trivial trivial, ?_⟩
  rcases order with ⟨rfl, rfl⟩ | ⟨rfl, rfl⟩ <;> cases walk <;> decide +kernel

theorem wholeRead_possible {s : Hotplug.Sys} (file : s.files (0, 0) = some ⟨wholeMember, .config⟩) :
    Admits s wholeRead ∧ InScope s wholeRead := by
  refine ⟨?_, ?_, ?_⟩
  · change s.files (0, 0) ≠ none
    rw [file]
    exact Option.some_ne_none _
  · intro other there
    rw [file, Option.some.injEq] at there
    rw [← there]
  · exact (by decide : PCI_CONFIG_SIZE < 2 ^ 63 ∧ 0 < 2 ^ 63)

theorem reads_alone_last :
    ∃ u, (machine board .every).Run (fun _ _ => True) boardStart
      ((opening 1 0 ++ [wholeRead]).filter fun e => e.pdev = 0) u ∧
        (step board .every (opened .every 1 0) wholeRead).returned 0 = u.returned 0 := by
  obtain ⟨run, file⟩ := opened_run .every (.inr ⟨rfl, rfl⟩)
  obtain ⟨possible, scope⟩ := wholeRead_possible file
  have meets : Undisturbed 0 (opened .every 1 0) wholeRead := undisturbed_opened _ _ 0 wholeMember _
  exact reads_alone rfl rfl (run_next run wholeRead possible scope meets)

/-- After a probe of another device, the file of the whole space gives its bytes. -/
theorem snapshot_shared :
    ¬ ∃ walk : Walk, ∀ (hw : Dev → PciDev) (bus : Bus) (config : Dev → Memory)
      (regs : Dev → Nat → Nat → BitVec 32) (pdev : Dev) (es : List Event) (s : Sys),
      (machine hw walk).Run (fun _ _ => True) (.start bus config regs) es s →
        ∃ u, (machine hw walk).Run (fun _ _ => True) (.start bus config regs)
          (es.filter fun e => e.pdev = pdev) u ∧ s.returned pdev = u.returned pdev := by
  intro some_walk
  obtain ⟨walk, all⟩ := some_walk
  obtain ⟨run, file⟩ := opened_run walk (.inl ⟨rfl, rfl⟩)
  obtain ⟨possible, scope⟩ := wholeRead_possible file
  have read := run_next (run.weaken fun _ _ _ => trivial) wholeRead possible scope trivial
  obtain ⟨u, alone, same⟩ := all board _ _ _ 0 _ _ read
  rw [alone.ends] at same
  revert same
  cases walk <;> decide +kernel

end PcieUtil.System.Sharing
