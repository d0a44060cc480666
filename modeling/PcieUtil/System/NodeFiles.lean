import Mathlib.Data.List.Nodup
import PcieUtil.Driver.Directory
import PcieUtil.System.Hotplug

/-! The nodes of the devices over the histories of the module: which cdevs are registered, and what
the handlers behind each of them read. -/

namespace PcieUtil.System.NodeFiles
open Lib.Action Lib.Bytes
open Driver.State Driver.Kernel Driver.ConfigFile Driver.RegisterFile Driver.Devices Driver.Interfaces
  Driver.Nodes Driver.Cleanup Driver.Snapshot Driver.Directory Driver.Probe Driver.Probing
  Driver.Requests Hotplug

/-- What a read of the file of a node gives at its start, into a buffer with room for it: the field of
the configuration space or, of the first node, all of the snapshot; the register of the node, through
the mapping that the module keeps, or an error at the first of these nodes. -/
def Gives (w : World) (x : XdevPtr) (file : XgpuCdev) (node : Node) : FileOps → Prop
  | .config =>
      if node.length ≤ 4 then
        ∀ (user : UserBuf) (count : Nat), node.length ≤ user.room →
          Act.collects handedOut (charConfigRead tables file user count 0) (fun v u bytes =>
            v = some ((node.length : Int), node.length) ∧ u = w ∧
              bytes = load (w.dev x.pdev).config node.offset node.length) w
      else
        ∀ user : UserBuf, PCI_CONFIG_SIZE ≤ user.room →
          Act.collects handedOut (charConfigRead tables file user PCI_CONFIG_SIZE 0) (fun v _ bytes =>
            v = some ((PCI_CONFIG_SIZE : Int), PCI_CONFIG_SIZE) ∧
              bytes = load w.configData 0 PCI_CONFIG_SIZE) w
  | .register =>
      if node.devId = tables.itemConfigMax then
        ∀ user, Act.collects handedOut (charRegisterRead tables file user 0) (fun v u bytes =>
          v = some (-(EINVAL : Int), 0) ∧ u = w ∧ bytes = []) w
      else
        ∀ (user : UserBuf) (m : Mapping), 4 ≤ user.room → w.pcimapAddr = some m →
          Act.collects handedOut (charRegisterRead tables file user 0) (fun v u bytes =>
            v = some (4, 4) ∧ u = w ∧ bytes = toLE 4 ((w.dev m.pdev).regs m.bar node.offset).toNat) w
  | .ctrl => True

/-- A cdev is registered under the number of a node, for its own device, and its handlers are those of
the table, which read what the node is for. -/
structure LeadsHome (x : XdevPtr) (major : Nat) (w : World) (entry : BitVec 32 × MemberPtr) (node : Nat × Node) :
    Prop where
  own : entry.2.pdev = x.pdev
  number : entry.1 = mkdev major node.2.devId
  xdev : ((w.dev x.pdev).member entry.2).xdev = some x
  ops : ((w.dev x.pdev).member entry.2).ops = opsOf node.1
  gives : ∀ ops, ((w.dev x.pdev).member entry.2).ops = some ops →
    Gives w x ((w.dev x.pdev).member entry.2) node.2 ops

section
variable {hw : Dev → PciDev} {walk : Walk} {s : Sys} {w u : World} {pdev : Dev} {x : XdevPtr} {major : Nat}
  {made : List (Nat × Node)} {c : XgpuCdev}

theorem minorOf_mkdev {minor : Nat} (small : minor < 2 ^ 20) : minorOf (mkdev major minor) = minor := by
  have mask : (0xFFFFF : BitVec 32).toNat = 2 ^ 20 - 1 := rfl
  have high : (BitVec.ofNat 32 major <<< 20).toNat % 2 ^ 20 = 0 := by
    rw [BitVec.toNat_shiftLeft, Nat.shiftLeft_eq]
    omega
  have low : (BitVec.ofNat 32 minor).toNat % 2 ^ 20 = minor := by
    rw [BitVec.toNat_ofNat]
    omega
  rw [minorOf, mkdev, BitVec.toNat_and, mask, Nat.and_two_pow_sub_one_eq_mod, BitVec.toNat_or, Nat.or_mod_two_pow,
    high, low, Nat.zero_or]

/-- The place of a register node, from its number. -/
theorem registerLoc_eq {t : Tables} {loc : Nat} (number : minorOf c.cdevno = t.itemConfigMax + loc) :
    registerLoc t c = if loc = 0 ∨ t.registerItems.length < loc then none else some loc := by
  have place : (minorOf c.cdevno : Int) - t.itemConfigMax = loc := by omega
  unfold registerLoc
  rw [place]
  by_cases outside : loc = 0 ∨ t.registerItems.length < loc
  · rw [if_pos outside]
    exact if_pos (by omega)
  · rw [if_neg outside]
    exact (if_neg (by omega)).trans (congrArg some (Int.toNat_natCast loc))

/-- A read of a register gives the word that its mapping shows. -/
theorem read_register {t : Tables} {loc : Nat} {item : Node} {user : UserBuf} {m : Mapping} (set : c.xdev = some x)
    (found : registerLoc t c = some loc) (node : t.registerItems[loc]? = some item) (room : 4 ≤ user.room)
    (mapped : w.pcimapAddr = some m) :
    Act.collects handedOut (charRegisterRead t c user 0) (fun v u bytes =>
      v = some (4, 4) ∧ u = w ∧ bytes = toLE 4 ((w.dev m.pdev).regs m.bar item.offset).toNat) w := by
  have copied : min 4 user.room = 4 := by omega
  have whole (value : Nat) : (toLE 4 value).take 4 = toLE 4 value :=
    List.take_of_length_le (Nat.le_of_eq (toLE_length 4 value))
  unfold charRegisterRead
  simp [set, found, node, mapped, copied, whole, handedOut, Driver.Transfers.wordAt]

theorem read_refused {t : Tables} (set : c.xdev = some x) (missing : registerLoc t c = none) (user : UserBuf) :
    Act.collects handedOut (charRegisterRead t c user 0) (fun v u bytes =>
      v = some (-(EINVAL : Int), 0) ∧ u = w ∧ bytes = []) w := by
  unfold charRegisterRead
  simp [set, missing]

theorem node_small : ∀ node ∈ nodes tables, node.2.devId < 2 ^ 20 := by
  decide

theorem config_node : ∀ node ∈ nodes tables, opsOf node.1 = some .config →
    tables.configItems[node.2.devId]? = some node.2 ∧ (4 < node.2.length → node.2.devId = 0) := by
  decide

theorem register_node : ∀ node ∈ nodes tables, opsOf node.1 = some .register →
    tables.itemConfigMax ≤ node.2.devId ∧
      tables.registerItems[node.2.devId - tables.itemConfigMax]? = some node.2 := by
  decide

/-- A finished file with the number of a node gives what the node is for. -/
theorem gives_node {node : Nat × Node} {ops : FileOps} (among : node ∈ nodes tables) (set : c.xdev = some x)
    (number : minorOf c.cdevno = node.2.devId) (handlers : opsOf node.1 = some ops) : Gives w x c node.2 ops := by
  cases ops with
  | config =>
    obtain ⟨item, whole⟩ := config_node node among handlers
    rw [← number] at item
    rw [Gives]
    split_ifs with field
    · exact fun user count room => read_field count set item field room
    · exact fun user room => read_whole set (number.trans (whole (Nat.lt_of_not_le field))) room
  | register =>
    obtain ⟨behind, item⟩ := register_node node among handlers
    have loc := registerLoc_eq (t := tables) (number.trans (Nat.add_sub_cancel' behind).symm)
    rw [Gives]
    split_ifs with first
    · rw [if_pos (.inl (Nat.sub_eq_zero_of_le (Nat.le_of_eq first)))] at loc
      exact read_refused set loc
    · have inside := (List.getElem?_eq_some_iff.mp item).1
      rw [if_neg (by omega)] at loc
      exact fun user m room mapped => read_register set loc item room mapped
  | ctrl => trivial

theorem Shelved.leads {entry : BitVec 32 × MemberPtr} {node : Nat × Node} (among : node ∈ nodes tables)
    (shelved : Shelved x major (w.dev x.pdev) entry node) : LeadsHome x major w entry node where
  own := shelved.own
  number := shelved.key
  xdev := shelved.xdev
  ops := shelved.ops
  gives := by
    intro ops known
    apply gives_node among shelved.xdev
    · rw [shelved.number, shelved.key, minorOf_mkdev (node_small node among)]
    · exact shelved.ops.symm.trans known

/-- What is registered depends on the nodes of the device only. -/
theorem Stocked.same {d d' : DevState} (stocked : Stocked x major made w) (before : w.dev x.pdev = d)
    (after : u.dev x.pdev = d') (xpdev : d'.xpdev = d.xpdev) (cdevs : d'.cdevs = d.cdevs)
    (member : d'.member = d.member) (serial : d'.serial = d.serial) : Stocked x major made u := by
  subst before after
  refine ⟨xpdev ▸ stocked.points, ?_, stocked.first, cdevs ▸ stocked.keys, ?_⟩
  · have number : (w.dev x.pdev).xpdev.major = major := stocked.number
    exact (congrArg XgpuPciDev.major xpdev).trans number
  · intro entry there
    rw [cdevs] at there
    obtain ⟨node, among, shelved⟩ := stocked.entries entry there
    have content := congrFun member entry.2
    exact ⟨node, among, shelved.keep (Nat.le_of_eq serial.symm) (congrArg _ content) (congrArg _ content)
      (congrArg _ content)⟩

theorem Stocked.dev (stocked : Stocked x major made w) (same : u.dev x.pdev = w.dev x.pdev) :
    Stocked x major made u :=
  Stocked.same stocked rfl same rfl rfl rfl rfl

/-- Every bound device has the nodes of the tables. -/
def AllStocked (s : Sys) : Prop :=
  ∀ pdev, s.binding pdev = .bound → ∃ x major, x.pdev = pdev ∧ Stocked x major (nodes tables) s.world

/-- Work on one device leaves the others bound and stocked. -/
theorem AllStocked.update (all : AllStocked s) {binding : Binding}
    (apart : ∀ d, d ≠ pdev → u.dev d = s.world.dev d)
    (here : binding = .bound → ∃ x major, x.pdev = pdev ∧ Stocked x major (nodes tables) u) :
    AllStocked { s with world := u, binding := Function.update s.binding pdev binding } := by
  intro d bound
  by_cases own : d = pdev
  · subst own
    apply here
    rw [← bound]
    exact (Function.update_self d binding s.binding).symm
  · have before : s.binding d = .bound := by
      rw [← bound]
      exact (Function.update_of_ne own _ _).symm
    obtain ⟨x, major, mine, stocked⟩ := all d before
    exact ⟨x, major, mine, Stocked.dev stocked (apart x.pdev (mine ▸ own))⟩

theorem allStocked_step (inv : Inv hw s) (all : AllStocked s) {e : Event} (possible : Admits s e) :
    AllStocked (step hw walk s e) := by
  cases e with
  | probe pdev env =>
    have spec : Act.wp (LawfulOn hw True pdev s.world) (probeOne hw tables walk env pdev) _ s.world :=
      probe_spec inv possible fun _ => trivial
    obtain ⟨_, apart, _⟩ := spec
    have unbound : Unbound s.world pdev := by
      have known := inv.devices pdev
      rw [show s.binding pdev = .unbound from possible] at known
      exact known
    have stocks : Act.wp anyCall (probeOne hw tables walk env pdev) _ s.world :=
      probeOne_stocks tables_placed unbound
    apply AllStocked.update all apart.dev
    intro bound
    apply stocks.2
    cases returned : ((probeOne hw tables walk env pdev).run s.world).value with
    | none =>
      rw [returned] at bound
      cases bound
    | some rv =>
      rw [returned, bindingAfterProbe] at bound
      split_ifs at bound with zero
      rw [zero]
  | remove pdev =>
    have spec : Act.wp (LawfulOn hw True pdev s.world) (removeOne hw tables walk pdev) _ s.world :=
      remove_spec inv possible
    obtain ⟨_, apart, _⟩ := spec
    apply AllStocked.update all apart.dev
    intro bound
    split_ifs at bound
  | openFile fd m => exact all
  | request pdev fd op =>
    obtain ⟨file, there⟩ := Option.ne_none_iff_exists'.mp possible
    obtain ⟨_, same⟩ := request_step hw tables s.world file op
    simp only [step, there]
    intro d bound
    obtain ⟨x, major, own, stocked⟩ := all d bound
    have part := driverPart_same same x.pdev
    have xpdev := congrArg DevState.xpdev part
    have cdevs := congrArg DevState.cdevs part
    have member := congrArg DevState.member part
    have serial := congrArg DevState.serial part
    exact ⟨x, major, own, Stocked.same stocked rfl rfl xpdev cdevs member serial⟩

/-- Over all histories: while a device is bound, exactly one cdev is registered for each node of the
tables, under a number of its own. Each of them is a cdev of that device, with the handlers of its
table, and what they read is what the node is for. -/
theorem nodes_lead_home {bus : Bus} {config : Dev → Memory} {regs : Dev → Nat → Nat → BitVec 32} {es : List Event}
    (run : (machine hw walk).Run (fun _ _ => True) (.start bus config regs) es s) (bound : s.binding pdev = .bound) :
    ∃ (x : XdevPtr) (major : Nat), x.pdev = pdev ∧ (s.world.dev pdev).xpdev.xdev = some x ∧
      ((s.world.dev pdev).cdevs.map Prod.fst) = ((nodes tables).map fun node => mkdev major node.2.devId) ∧
      ((s.world.dev pdev).cdevs.map Prod.fst).Nodup ∧
      ∀ entry ∈ (s.world.dev pdev).cdevs, ∃ node ∈ nodes tables, LeadsHome x major s.world entry node := by
  have kept := run.invariant (fun s => Inv hw s ∧ AllStocked s)
    ⟨inv_start bus config regs, fun _ bound => by cases bound⟩
    fun _ _ both possible _ => ⟨inv_step both.1 possible, allStocked_step both.1 both.2 possible⟩
  obtain ⟨x, major, rfl, stocked⟩ := kept.2 pdev bound
  have distinct : ((nodes tables).map fun node => mkdev major node.2.devId).Nodup := by
    have devIds : ((nodes tables).map fun node => node.2.devId).Nodup := by decide
    apply List.Nodup.of_map minorOf
    rw [List.map_map, List.map_congr_left]
    · exact devIds
    · exact fun node among => minorOf_mkdev (node_small node among)
  refine ⟨x, major, rfl, stocked.points, stocked.keys, stocked.keys ▸ distinct, fun entry there => ?_⟩
  obtain ⟨node, among, shelved⟩ := stocked.entries entry there
  exact ⟨node, among, Shelved.leads among shelved⟩

end

/-- Behind the probe of a board. -/
theorem nodes_lead_home_probed : ∃ (x : XdevPtr) (major : Nat), x.pdev = 0 ∧
    ((step board .every idleStart (goodProbe 0)).world.dev 0).cdevs.map Prod.fst =
      ((nodes tables).map fun node => mkdev major node.2.devId) ∧
    ∀ entry ∈ ((step board .every idleStart (goodProbe 0)).world.dev 0).cdevs,
      ∃ node ∈ nodes tables,
        LeadsHome x major (step board .every idleStart (goodProbe 0)).world entry node := by
  have run : (machine board .every).Run (fun _ _ => True) idleStart ([] ++ [goodProbe 0])
      (step board .every idleStart (goodProbe 0)) := .next (goodProbe 0) .start rfl trivial
  have bound : (step board .every idleStart (goodProbe 0)).binding 0 = .bound := by decide +kernel
  obtain ⟨x, major, own, _, numbers, _, home⟩ := nodes_lead_home run bound
  exact ⟨x, major, own, numbers, home⟩

/-! The snapshot behind a probe. -/

section
variable {hw : Dev → PciDev} {walk : Walk} {env : Env} {pdev : Dev} {s : Sys}

theorem first_node : ∀ node ∈ nodes tables, node.2.devId = 0 → opsOf node.1 = some .config := by
  decide

theorem config_type {type : Nat} (ops : opsOf type = some .config) : type = 0 := by
  match type with
  | 0 => rfl
  | 1 | 2 | _ + 3 => cases ops

/-- A probe that succeeds has made the config file, and with it filled the snapshot. -/
theorem probe_fills (inv : Inv hw s) (free : s.binding pdev = .unbound)
    (success : ((probeOne hw tables walk env pdev).run s.world).value = some 0) :
    Filled pdev ((probeOne hw tables walk env pdev).run s.world).state := by
  have unbound : Unbound s.world pdev := by
    have known := inv.devices pdev
    rwa [free] at known
  have spec : Act.wp (LawfulOn hw True pdev s.world) (probeOne hw tables walk env pdev) _ s.world :=
    probe_spec inv free fun _ => trivial
  have stocks : Act.wp anyCall (probeOne hw tables walk env pdev) _ s.world :=
    probeOne_stocks tables_placed unbound
  obtain ⟨_, _, snapshotted, known⟩ := spec
  obtain ⟨x, major, rfl, stocked⟩ := stocks.2 success
  rw [success] at known
  obtain ⟨y, own, bound⟩ := known
  apply snapshotted
  have made : mkdev major 0 ∈ (nodes tables).map fun node => mkdev major node.2.devId :=
    List.mem_map.mpr ⟨(0, ⟨0, 0, PCI_CONFIG_SIZE, "xgpu%d/config"⟩), by decide, rfl⟩
  rw [← stocked.keys] at made
  obtain ⟨entry, there, key⟩ := List.mem_map.mp made
  obtain ⟨node, among, shelved⟩ := stocked.entries entry there
  have number : node.2.devId = 0 := by
    have minors := congrArg minorOf (shelved.key.symm.trans key)
    rwa [minorOf_mkdev (node_small node among), minorOf_mkdev (by decide)] at minors
  have linked := (Bound.usable bound).linked
  rw [own] at linked
  obtain ⟨type, listed⟩ := linked.registered entry there
  have ops := (linked.each type _ listed).finished.ops
  rw [shelved.ops, first_node node among number] at ops
  rw [config_type ops.symm] at listed
  exact List.ne_nil_of_mem listed

/-- The files of a device agree with it behind its probe as they do behind cdev_config_init,
while no other device is probed. -/
theorem probed_consistent {bus : Bus} {config : Dev → Memory} {regs : Dev → Nat → Nat → BitVec 32}
    {es : List Event} {x : XdevPtr} {file : XgpuCdev} {user : UserBuf} {writes : List Write}
    (run : (machine hw walk).Run (fun _ _ => True) (.start bus config regs) es s)
    (free : s.binding x.pdev = .unbound)
    (success : ((probeOne hw tables walk env x.pdev).run s.world).value = some 0)
    (plain : PlainBelow (hw x.pdev) PCI_CONFIG_SIZE) (full : ∀ write ∈ writes, write.Full x)
    (owner : file.xdev = some x) (node : minorOf file.cdevno = 0) (room : PCI_CONFIG_SIZE ≤ user.room) :
    let probed := ((probeOne hw tables walk env x.pdev).run s.world).state
    Consistent (afterWrites hw probed writes) x file user ↔
      SameBelow PCI_CONFIG_SIZE
        (stored (lastWhole (probed.dev x.pdev).config writes) (fieldsSince writes))
        (lastWhole (probed.dev x.pdev).config writes) := by
  intro probed
  have filled : Filled x.pdev probed := probe_fills (inv_run run) free success
  exact filled_consistent ⟨filled, fun _ _ => rfl⟩ plain full owner node room

end

end PcieUtil.System.NodeFiles
