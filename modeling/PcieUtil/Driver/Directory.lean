import PcieUtil.Driver.Completion
import PcieUtil.Driver.Probing

/-! What is registered under the numbers of a device once probe_one has bound it: one member for each
node of the tables, with the operations of its table. -/

namespace PcieUtil.Driver.Directory
open Lib.Action State Kernel DeviceOpen Devices RegisterFile Interfaces Nodes Books Creation Snapshot Probe Probing

/-- The member that is registered for a node. -/
structure Shelved (x : XdevPtr) (major : Nat) (s : DevState) (entry : BitVec 32 × MemberPtr) (node : Nat × Node) :
    Prop where
  own : entry.2.pdev = x.pdev
  key : entry.1 = mkdev major node.2.devId
  old : entry.2.serial < s.serial
  xdev : (s.member entry.2).xdev = some x
  number : (s.member entry.2).cdevno = entry.1
  ops : (s.member entry.2).ops = opsOf node.1

/-- The nodes that have been made are registered, the last one first, and nothing else is. -/
structure Stocked (x : XdevPtr) (major : Nat) (made : List (Nat × Node)) (w : World) : Prop where
  points : (w.dev x.pdev).xpdev.xdev = some x
  number : deviceMajor x w = major
  first : major = 0 → made = []
  keys : (w.dev x.pdev).cdevs.map Prod.fst = made.map fun node => mkdev major node.2.devId
  entries : ∀ entry ∈ (w.dev x.pdev).cdevs, ∃ node ∈ made, Shelved x major (w.dev x.pdev) entry node

/-- A member in the making, which is not registered yet. -/
structure Shelving (x : XdevPtr) (major : Nat) (made : List (Nat × Node)) (m : MemberPtr) (c : XgpuCdev)
    (w : World) : Prop extends Stocked x major made w where
  own : m.pdev = x.pdev
  old : m.serial < (w.dev x.pdev).serial
  apart : ∀ entry ∈ (w.dev x.pdev).cdevs, entry.2 ≠ m
  content : (w.dev x.pdev).member m = c

section
variable {hw : Dev → PciDev} {t : Tables} {walk : Walk} {env : Env} {x : XdevPtr} {m : MemberPtr} {c : XgpuCdev}
  {major type devId : Nat} {made : List (Nat × Node)} {w w' : World} {s s' : DevState}

theorem Shelved.keep {entry : BitVec 32 × MemberPtr} {node : Nat × Node} (shelved : Shelved x major s entry node)
    (serial : s.serial ≤ s'.serial) (xdev : (s'.member entry.2).xdev = (s.member entry.2).xdev)
    (number : (s'.member entry.2).cdevno = (s.member entry.2).cdevno)
    (ops : (s'.member entry.2).ops = (s.member entry.2).ops) : Shelved x major s' entry node where
  own := shelved.own
  key := shelved.key
  old := Nat.lt_of_lt_of_le shelved.old serial
  xdev := xdev.trans shelved.xdev
  number := number.trans shelved.number
  ops := ops.trans shelved.ops

/-- Where nothing is registered, no node has been made. -/
theorem stocked_none (points : (w.dev x.pdev).xpdev.xdev = some x) (number : deviceMajor x w = major)
    (bare : (w.dev x.pdev).cdevs = []) : Stocked x major [] w where
  points := points
  number := number
  first := fun _ => rfl
  keys := by
    rw [bare]
    rfl
  entries := by
    intro entry there
    rw [bare] at there
    cases there

/-- A step on the device that keeps what is registered. -/
theorem Stocked.setDev (stocked : Stocked x major made w) (xdev : s.xpdev.xdev = (w.dev x.pdev).xpdev.xdev)
    (number : s.xpdev.major = (w.dev x.pdev).xpdev.major) (serial : (w.dev x.pdev).serial ≤ s.serial)
    (cdevs : s.cdevs = (w.dev x.pdev).cdevs)
    (members : ∀ entry ∈ (w.dev x.pdev).cdevs, s.member entry.2 = (w.dev x.pdev).member entry.2) :
    Stocked x major made (State.setDev w x.pdev s) := by
  refine ⟨?_, ?_, stocked.first, ?_, ?_⟩
  · rw [setDev_dev_same, xdev, stocked.points]
  · rw [deviceMajor_setDev, number]
    exact stocked.number
  · rw [setDev_dev_same, cdevs]
    exact stocked.keys
  · rw [setDev_dev_same, cdevs]
    intro entry there
    obtain ⟨node, among, shelved⟩ := stocked.entries entry there
    have same := members entry there
    exact ⟨node, among, shelved.keep serial (congrArg _ same) (congrArg _ same) (congrArg _ same)⟩

theorem Stocked.globals (stocked : Stocked x major made w) (dev : w'.dev = w.dev) : Stocked x major made w' := by
  have here := congrFun dev x.pdev
  refine ⟨here ▸ stocked.points, ?_, stocked.first, here ▸ stocked.keys, here ▸ stocked.entries⟩
  rw [deviceMajor, here]
  exact stocked.number

theorem Shelving.setDev {c' : XgpuCdev} (shelving : Shelving x major made m c w)
    (xdev : s.xpdev.xdev = (w.dev x.pdev).xpdev.xdev) (number : s.xpdev.major = (w.dev x.pdev).xpdev.major)
    (serial : (w.dev x.pdev).serial ≤ s.serial) (cdevs : s.cdevs = (w.dev x.pdev).cdevs)
    (members : ∀ m', m' ≠ m → s.member m' = (w.dev x.pdev).member m') (content : s.member m = c') :
    Shelving x major made m c' (State.setDev w x.pdev s) where
  toStocked := shelving.toStocked.setDev xdev number serial cdevs
    fun entry there => members entry.2 (shelving.apart entry there)
  own := shelving.own
  old := by
    rw [setDev_dev_same]
    exact Nat.lt_of_lt_of_le shelving.old serial
  apart := by
    rw [setDev_dev_same, cdevs]
    exact shelving.apart
  content := by
    rw [setDev_dev_same]
    exact content

theorem Shelving.globals (shelving : Shelving x major made m c w) (dev : w'.dev = w.dev) :
    Shelving x major made m c w' where
  toStocked := shelving.toStocked.globals dev
  own := shelving.own
  old := congrFun dev x.pdev ▸ shelving.old
  apart := congrFun dev x.pdev ▸ shelving.apart
  content := congrFun dev x.pdev ▸ shelving.content

/-! Making a node. -/

theorem kmallocMember_shelving (stocked : Stocked x major made w) :
    Act.wp anyCall (onDev x.pdev (kmallocMember env x.pdev devId)) (Act.returns fun v u =>
      ∀ m, v = some m → Shelving x major made m env.garbage u) w := by
  apply Act.wp_returns_mono (kmallocMember_becomes devId trivial)
  intro v u outcome m given
  obtain ⟨nothing, _, _⟩ | ⟨member, _, same⟩ := outcome
  · rw [nothing] at given
    cases given
  · obtain rfl := Option.some.inj (member.symm.trans given)
    have apart : ∀ entry ∈ (w.dev x.pdev).cdevs, entry.2 ≠ ⟨x.pdev, (w.dev x.pdev).serial⟩ := by
      intro entry there new
      obtain ⟨node, _, shelved⟩ := stocked.entries entry there
      have old := shelved.old
      rw [new] at old
      exact Nat.lt_irrefl _ old
    rw [same]
    refine ⟨stocked.setDev rfl rfl (Nat.le_succ _) rfl ?_, rfl, ?_, ?_, ?_⟩
    · exact fun entry there => Function.update_of_ne (apart entry there) _ _
    · rw [setDev_dev_same]
      exact Nat.lt_succ_self _
    · rw [setDev_dev_same]
      exact apart
    · rw [setDev_dev_same]
      exact Function.update_self _ _ _

/-- The first node gets the device its major number; nothing is registered before. -/
theorem allocMajor_shelving (shelving : Shelving x major made m c w) :
    Act.wp anyCall (allocMajor env x.pdev devId) (Act.returns fun rv u =>
      rv < 0 ∨ rv = 0 ∧ ∃ major ≠ 0, Shelving x major made m c u) w := by
  apply Act.wp_returns_mono (allocMajor_becomes devId trivial)
  intro rv u outcome
  obtain ⟨set, zero, same⟩ | ⟨unset, _, zero, same⟩ | ⟨_, _, failed, _⟩ := outcome
  · rw [same]
    have number : (w.dev x.pdev).xpdev.major = major := shelving.number
    exact .inr ⟨zero, major, number ▸ set, shelving⟩
  · have number : (w.dev x.pdev).xpdev.major = major := shelving.number
    have nothing : made = [] := shelving.first (number.symm.trans unset)
    have bare : (w.dev x.pdev).cdevs = [] := by
      have keys := shelving.keys
      rw [nothing, List.map_nil, List.map_eq_nil_iff] at keys
      exact keys
    have positive : env.major.number ≠ 0 := Nat.pos_iff_ne_zero.mp env.major.positive
    rw [same, nothing]
    refine .inr ⟨zero, env.major.number, positive, ⟨stocked_none ?_ ?_ ?_, shelving.own, ?_, ?_, ?_⟩⟩
    · rw [setDev_dev_same]
      exact shelving.points
    · rw [deviceMajor_setDev]
      rfl
    · rw [setDev_dev_same]
      exact bare
    · rw [setDev_dev_same]
      exact shelving.old
    · rw [setDev_dev_same]
      exact shelving.apart
    · rw [setDev_dev_same]
      exact shelving.content
  · exact .inl failed

theorem storeMember_shelving (shelving : Shelving x major made m c w) (change : XgpuCdev → XgpuCdev) :
    Act.wp anyCall (onDev x.pdev (storeMember m change)) (Act.returns fun _ u =>
      Shelving x major made m (change c) u) w := by
  rw [storeMember, wp_onDev_update, Act.returns_some]
  apply shelving.setDev
  · rfl
  · rfl
  · exact Nat.le_refl _
  · rfl
  · exact fun m' other => Function.update_of_ne other _ _
  · rw [← shelving.content]
    exact Function.update_self _ _ _

theorem cdevInit_shelving (shelving : Shelving x major made m c w) (ops : FileOps) :
    Act.wp anyCall (cdevInit m ops) (Act.returns fun _ u =>
      Shelving x major made m { c with owner := false, ops := some ops } u) w := by
  rw [cdevInit, shelving.own, Act.wp_bind, Act.wp_update, Act.andThen_some]
  have renamed : Shelving x major made m c { w with kobjName := Function.update w.kobjName m none } :=
    shelving.globals rfl
  exact storeMember_shelving renamed _

/-- A member gets the operations of its table. -/
theorem initXcdev_shelving (node : InTable t type devId) (shelving : Shelving x major made m c w) :
    Act.wp anyCall (initXcdev hw t env m x devId) (Act.returns fun _ u =>
      Shelving x major made m { c with owner := false, ops := opsOf type } u) w := by
  unfold initXcdev
  match type, node with
  | 0, config =>
    rw [if_pos (show devId < t.itemConfigMax from config)]
    apply Act.wp_seq (cdevInit_shelving shelving .config)
    intro _ u shelving
    have nothing : ∀ k < 0, u.configData k = (u.dev x.pdev).config k :=
      fun k below => absurd below (Nat.not_lt_zero k)
    apply Act.wp_returns_mono (fillSnapshot_step PCI_CONFIG_SIZE 0 (fun _ _ _ => trivial) nothing)
    intro _ u' post
    obtain ⟨data, same, _⟩ := post
    rw [same]
    exact shelving.globals rfl
  | 1, ⟨low, high⟩ =>
    rw [if_neg (Nat.not_lt.mpr low), if_pos high]
    apply Act.wp_seq (cdevInit_shelving shelving .register)
    intro _ u shelving
    simp only [pciIomap, Act.wp_bind, wp_onDev_call]
    refine ⟨trivial, ?_⟩
    by_cases ok : (hw x.pdev).resourceLen REGISTER_BAR ≠ 0 ∧ env.errno (.iomapRegister devId) = 0
    · simp only [if_pos ok, Act.andThen_some, Act.wp_update, Act.returns_some]
      refine Shelving.globals (shelving.setDev ?_ ?_ ?_ ?_ ?_ ?_) rfl
      · rfl
      · rfl
      · exact Nat.le_succ _
      · rfl
      · exact fun _ _ => rfl
      · exact shelving.content
    · simp only [if_neg ok, Act.andThen_some, Act.wp_update, Act.returns_some, setDev_self]
      exact shelving.globals rfl
  | 2, ⟨low, high⟩ =>
    have before : t.itemConfigMax ≤ t.itemRegisterMax := Nat.le_add_right _ _
    rw [if_neg (by omega), if_neg (by omega), if_pos high]
    exact cdevInit_shelving shelving .ctrl

/-- A member that has all its fields is registered as the next one. -/
theorem Shelving.added {item : Node} (shelving : Shelving x major made m c w) (set : major ≠ 0)
    (xdev : c.xdev = some x) (number : c.cdevno = mkdev major item.devId) (ops : c.ops = opsOf type)
    (lists : s = { w.dev x.pdev with
      cdevs := (c.cdevno, m) :: (w.dev x.pdev).cdevs, member := s.member, sysDevices := s.sysDevices })
    (others : ∀ m', m' ≠ m → s.member m' = (w.dev x.pdev).member m')
    (content : ∃ sysDevice, s.member m = { c with sysDevice := sysDevice }) :
    Stocked x major ((type, item) :: made) (State.setDev w x.pdev s) := by
  obtain ⟨sysDevice, content⟩ := content
  have cdevs : s.cdevs = (c.cdevno, m) :: (w.dev x.pdev).cdevs := by rw [lists]
  have serial : s.serial = (w.dev x.pdev).serial := by rw [lists]
  have xpdev : s.xpdev = (w.dev x.pdev).xpdev := by rw [lists]
  refine ⟨?_, ?_, fun unset => absurd unset set, ?_, ?_⟩
  · rw [setDev_dev_same, xpdev]
    exact shelving.points
  · rw [deviceMajor_setDev, xpdev]
    exact shelving.number
  · rw [setDev_dev_same, cdevs, List.map_cons, List.map_cons, shelving.keys, number]
  · rw [setDev_dev_same, cdevs]
    intro entry there
    rcases List.mem_cons.mp there with new | before
    · rw [new]
      refine ⟨_, List.mem_cons_self, shelving.own, number, serial ▸ shelving.old, ?_, ?_, ?_⟩
      · rw [content]
        exact xdev
      · rw [content]
      · rw [content]
        exact ops
    · obtain ⟨node, among, shelved⟩ := shelving.entries entry before
      have same := others entry.2 (shelving.apart entry before)
      exact ⟨node, List.mem_cons_of_mem _ among, shelved.keep (Nat.le_of_eq serial.symm) (congrArg _ same)
        (congrArg _ same) (congrArg _ same)⟩

theorem addXcdev_stocked {item : Node} (node : InTable t type item.devId)
    (shelving : Shelving x major made m c w) (set : major ≠ 0) (xdev : c.xdev = some x)
    (number : c.cdevno = mkdev major item.devId) (ops : c.ops = opsOf type) :
    Act.wp anyCall (addXcdev t env x.pdev x m item.devId c.cdevno) (Act.returns fun rv u =>
      rv < 0 ∨ rv = 0 ∧ Stocked x major ((type, item) :: made) u) w := by
  unfold addXcdev
  simp only [cdevAdd, Act.wp_bind, wp_onDev_call]
  refine ⟨trivial, ?_⟩
  by_cases added : env.errno (.cdevAdd item.devId) = 0
  · simp only [if_pos added, Act.andThen_some]
    rw [if_neg (Int.lt_irrefl 0), Act.wp_bind, Act.wp_read, Act.andThen_some]
    split
    · apply Act.wp_seq (createSysDevice_step node shelving.own fun _ _ => trivial)
      intro rv u post
      obtain ⟨zero, sysDevice, _, all, _, same⟩ := post
      rw [setDev_setDev, setDev_dev_same] at same
      subst same
      rw [zero, if_neg (Int.lt_irrefl 0), Act.wp_pure]
      refine .inr ⟨rfl, shelving.added set xdev number ops ?_ ?_ ?_⟩
      · rfl
      · exact fun m' other => Function.update_of_ne other _ _
      · refine ⟨sysDevice, ?_⟩
        rw [← shelving.content]
        exact Function.update_self _ _ _
    · rw [Act.wp_pure]
      exact .inr ⟨rfl, shelving.added set xdev number ops rfl (fun _ _ => rfl) ⟨c.sysDevice, shelving.content⟩⟩
  · have failed : env.rv (.cdevAdd item.devId) < 0 := rv_neg added
    simp only [if_neg added, Act.andThen_some, setDev_self]
    rw [if_pos failed]
    simp only [unregisterChrdevRegion, Act.wp_bind, wp_onDev_call, Act.andThen_some, Act.wp_pure]
    exact ⟨trivial, .inl failed⟩

/-- create_xcdev fails, or registers the node. -/
theorem createXcdev_stocked {item : Node} {bar : Int} (node : InTable t type item.devId)
    (shelving : Shelving x major made m c w) :
    Act.wp anyCall (createXcdev hw t env x.pdev x m bar item.devId) (Act.returns fun rv u =>
      rv < 0 ∨ rv = 0 ∧ ∃ major ≠ 0, Stocked x major ((type, item) :: made) u) w := by
  unfold createXcdev
  apply Act.wp_seq (allocMajor_shelving shelving)
  intro rv w₁ post
  by_cases refused : rv < 0
  · rw [if_pos (Int.ne_of_lt refused), Act.wp_pure]
    exact .inl refused
  obtain ⟨zero, major, set, shelving⟩ := post.resolve_left refused
  rw [if_neg (not_not.mpr zero)]
  apply Act.wp_seq (storeMember_shelving shelving _)
  intro _ w₂ shelving
  apply Act.wp_seq (configKobject_becomes node fun _ => trivial)
  intro rv w₃ post
  obtain ⟨_, names, same, _⟩ := post
  have kept : w₃.dev = w₂.dev := by rw [same]
  have shelving := shelving.globals kept
  by_cases unnamed : rv < 0
  · rw [if_pos unnamed, Act.wp_pure]
    exact .inl unnamed
  rw [if_neg unnamed]
  apply Act.wp_seq (initXcdev_shelving node shelving)
  intro _ w₄ shelving
  have number : (w₄.dev x.pdev).xpdev.major = major := shelving.number
  rw [Act.wp_bind, Act.wp_read, Act.andThen_some, number]
  apply Act.wp_seq (storeMember_shelving shelving fun c => { c with cdevno := mkdev major item.devId })
  intro _ w₅ shelving
  apply Act.wp_returns_mono (addXcdev_stocked node shelving set rfl rfl rfl)
  intro rv u outcome
  rcases outcome with failed | ⟨zero, stocked⟩
  · exact .inl failed
  · exact .inr ⟨zero, major, set, stocked⟩

/-! Making all nodes. -/

/-- What is registered when the nodes have been made, if they have. -/
def Stocks (x : XdevPtr) (made : List (Nat × Node)) (v : Option Int) (u : World) : Prop :=
  v = some 0 → ∃ major, Stocked x major made u

theorem failed_stocks {α : Type} {act : M α} :
    Act.wp anyCall (act >>= fun _ => pure (-1)) (Stocks x made) w := by
  apply Act.wp_ends_with
  · intro u zero
    cases zero
  · intro u zero
    cases zero

theorem listAddTail_stocked (stocked : Stocked x major made w) (type : Nat) :
    Act.wp anyCall (onDev x.pdev (listAddTail type m)) (Act.returns fun _ u => Stocked x major made u) w := by
  rw [listAddTail, storeXpdev, wp_onDev_update, Act.returns_some]
  apply stocked.setDev
  · rfl
  · rfl
  · exact Nat.le_refl _
  · rfl
  · exact fun _ _ => rfl

/-- The items of a table as nodes, the last one first, in front of those before. -/
def shelve (type : Nat) (items : List Node) (made : List (Nat × Node)) : List (Nat × Node) :=
  items.foldl (fun made item => (type, item) :: made) made

theorem createMembers_stocks (items : List Node) (ii : Nat) (nodes : ∀ item ∈ items, InTable t type item.devId)
    (stocked : Stocked x major made w) :
    Act.wp anyCall (createMembers hw t walk env x.pdev x type items ii) (Stocks x (shelve type items made)) w := by
  induction items generalizing major made ii w with
  | nil =>
    rw [createMembers, Act.wp_pure]
    exact fun _ => ⟨major, stocked⟩
  | cons item rest ih =>
    have node : InTable t type item.devId := nodes item List.mem_cons_self
    have later : ∀ item ∈ rest, InTable t type item.devId := fun item there =>
      nodes item (List.mem_cons_of_mem _ there)
    unfold createMembers
    apply Act.wp_seq (kmallocMember_shelving stocked)
    intro v w₁ outcome
    cases v with
    | none => exact failed_stocks
    | some m =>
      have shelving := outcome m rfl
      simp only [onDev, loadXdev, Act.wp_bind, Act.wp_zoom, Act.wp_read, Act.andThen_some, setDev_self]
      rw [← Act.wp_bind]
      apply Act.wp_seq (createXcdev_stocked node shelving)
      intro rv w₂ created
      rcases created with failed | ⟨zero, major, _, stocked⟩
      · rw [if_pos failed]
        exact failed_stocks
      · rw [zero, if_neg (Int.lt_irrefl 0)]
        apply Act.wp_seq (listAddTail_stocked stocked type)
        intro _ w₃ stocked
        exact ih (ii + 1) later stocked

/-- The nodes of one table and of those behind it. -/
theorem createTable_stocks {items : List Node} {all : List (Nat × Node)} {next : Int → M Int}
    (nodes : ∀ item ∈ items, InTable t type item.devId)
    (rest : ∀ major w, Stocked x major (shelve type items made) w → Act.wp anyCall (next 0) (Stocks x all) w)
    (stocked : Stocked x major made w) :
    Act.wp anyCall
      (do
        let ret ← fileCreateInterface hw t walk env x.pdev items type
        if ret ≠ 0 then
          xpdevDestroyInterfaces t walk x.pdev
          return -1
        else next ret)
      (Stocks x all) w := by
  have owner := stocked.points
  rw [Act.wp_bind, fileCreateInterface, Act.wp_bind, Act.wp_read, Act.andThen_some, owner]
  apply Act.wp_mono (createMembers_stocks items 0 nodes stocked)
  intro v w₁ stocks
  cases v with
  | none =>
    intro zero
    cases zero
  | some rv =>
    rw [Act.andThen_some]
    by_cases made : rv = 0
    · obtain ⟨major, stocked⟩ := stocks (congrArg some made)
      rw [if_neg (not_not.mpr made), made]
      exact rest major w₁ stocked
    · rw [if_pos made]
      exact failed_stocks

/-- All nodes, in the order in which they are registered, from behind. -/
def nodes (t : Tables) : List (Nat × Node) :=
  shelve 2 t.ifwiItems (shelve 1 t.registerItems (shelve 0 t.configItems []))

theorem xpdevCreateInterfaces_stocks (placed : Tables.Placed t) (stocked : Stocked x major [] w) :
    Act.wp anyCall (xpdevCreateInterfaces hw t walk env x.pdev) (Stocks x (nodes t)) w := by
  apply createTable_stocks placed.config _ stocked
  intro major w stocked
  apply createTable_stocks placed.register _ stocked
  intro major w stocked
  apply createTable_stocks placed.ifwi _ stocked
  intro major w stocked
  rw [Act.wp_pure]
  exact fun _ => ⟨major, stocked⟩

/-! The probe. -/

/-- A call that leaves the nodes alone. -/
theorem call_stocked {α : Type} {call : Call} {answer : DevState → α × DevState} (stocked : Stocked x major made w)
    (same : ∀ s, (answer s).2.xpdev = s.xpdev ∧ (answer s).2.cdevs = s.cdevs ∧ (answer s).2.member = s.member ∧
      (answer s).2.serial = s.serial) :
    Act.wp anyCall (onDev x.pdev (Act.call call answer)) (Act.returns fun _ u => Stocked x major made u) w := by
  obtain ⟨xpdev, cdevs, member, serial⟩ := same (w.dev x.pdev)
  rw [wp_onDev_call, Act.returns_some]
  refine ⟨trivial, stocked.setDev ?_ ?_ (Nat.le_of_eq serial.symm) cdevs fun _ _ => congrFun member _⟩
  · rw [xpdev]
  · rw [xpdev]

theorem errOut_stocks {rv : Int} (failed : rv ≠ 0) {pdev : Dev} :
    Act.wp anyCall (errOut hw t walk pdev rv) (Stocks x made) w := by
  apply Act.wp_ends_with
  · intro u zero
    cases zero
  · intro u zero
    exact absurd (Option.some.inj zero) failed

theorem probeXdev_stocks (placed : Tables.Placed t) (stocked : Stocked x major [] w) :
    Act.wp anyCall (probeXdev hw t walk env x.pdev x) (Stocks x (nodes t)) w := by
  unfold probeXdev
  apply Act.wp_seq (call_stocked stocked _)
  · intro rv w₁ stocked
    by_cases refused : rv ≠ 0
    · rw [if_pos refused]
      exact errOut_stocks refused
    rw [if_neg refused, pdevIrq, onDev, Act.wp_bind, Act.wp_zoom, Act.wp_read, Act.andThen_some, setDev_self]
    apply Act.wp_seq (call_stocked stocked _)
    · intro rv w₂ stocked
      by_cases refused : rv ≠ 0
      · rw [if_pos refused]
        apply Act.wp_seq (call_stocked stocked _)
        · exact fun _ _ _ => errOut_stocks refused
        · intro s
          dsimp only
          split <;> exact ⟨rfl, rfl, rfl, rfl⟩
      rw [if_neg refused, Act.wp_bind]
      apply Act.wp_mono (xpdevCreateInterfaces_stocks placed stocked)
      intro v w₃ stocks
      cases v with
      | none =>
        intro zero
        cases zero
      | some rv =>
        rw [Act.andThen_some]
        by_cases made : rv ≠ 0
        · rw [if_pos made]
          refine Act.wp_bind.mpr ⟨fun _ _ => trivial, ?_⟩
          cases ((freeMsi hw x.pdev x).run w₃).value with
          | none =>
            intro zero
            cases zero
          | some _ => exact errOut_stocks made
        · obtain ⟨major, stocked⟩ := stocks (congrArg some (not_not.mp made))
          rw [if_neg made, Act.wp_bind, wp_onDev_update, Act.andThen_some, Act.wp_pure]
          refine fun _ => ⟨major, stocked.setDev ?_ ?_ ?_ ?_ ?_⟩
          · rfl
          · rfl
          · exact Nat.le_refl _
          · rfl
          · exact fun _ _ => rfl
    · intro s
      split <;> exact ⟨rfl, rfl, rfl, rfl⟩
  · intro s
    dsimp only
    split
    · exact ⟨rfl, rfl, rfl, rfl⟩
    · split <;> exact ⟨rfl, rfl, rfl, rfl⟩

end

section
variable {hw : Dev → PciDev} {t : Tables} {walk : Walk} {env : Env} {pdev : Dev} {w : World}

/-- A probe that succeeds has registered every node of the tables. -/
theorem probeOne_stocks (placed : Tables.Placed t) (unbound : Unbound w pdev) :
    Act.wp anyCall (probeOne hw t walk env pdev)
      (fun v u => v = some 0 → ∃ x major, x.pdev = pdev ∧ Stocked x major (nodes t) u) w := by
  have weaken {act : M Int} {x : XdevPtr} {u : World} (own : x.pdev = pdev)
      (stocks : Act.wp anyCall act (Stocks x (nodes t)) u) :
      Act.wp anyCall act (fun v u => v = some 0 → ∃ x major, x.pdev = pdev ∧ Stocked x major (nodes t) u) u := by
    apply Act.wp_mono stocks
    intro v u' ends zero
    obtain ⟨major, stocked⟩ := ends zero
    exact ⟨x, major, own, stocked⟩
  have noDevice : (⟨pdev, 0⟩ : XdevPtr).pdev = pdev := rfl
  unfold probeOne
  have alloc : Act.wp (LawfulOn hw True pdev w) (onDev pdev (xpdevAlloc env)) _ w := xpdevAlloc_step unbound
  refine Act.wp_seq (Act.wp_calls alloc fun _ _ _ => trivial) ?_
  intro made w₁ outcome
  split at outcome
  case isTrue made =>
    obtain ⟨rfl, start⟩ := outcome
    have unbound₁ : Unbound w₁ pdev := start ▸ unbound.setDev rfl ⟨fun _ => rfl, unbound.nodes.cdevs⟩
    have opening : Act.wp (LawfulOn hw True pdev w₁)
        (xgpuDeviceOpen hw env pdev "xgpu" (w₁.dev pdev).xpdev.userMax) _ w₁ :=
      xgpuDeviceOpen_step "xgpu" _ unbound₁.actions unbound₁.msi (unlisted_of_filter unbound₁.listed)
        fun _ _ _ _ => trivial
    rw [if_pos rfl, Act.wp_bind, Act.wp_read, Act.andThen_some, Act.wp_bind]
    apply Act.wp_mono (Act.wp_calls opening fun _ _ _ => trivial)
    intro v w₂ ends
    obtain _ | ⟨_ | x, n⟩ := v
    · intro zero
      cases zero
    · rw [Act.andThen_some, Act.wp_bind, storeXpdev, wp_onDev_update, Act.andThen_some]
      exact weaken noDevice (errOut_stocks (by decide))
    · obtain ⟨own, _, _, _, _, _, k, s, xdev, idx, _, _, _, _, frame, rfl⟩ := ends
      subst own
      rw [Act.andThen_some, Act.wp_bind, storeXpdev, wp_onDev_update, Act.andThen_some, Act.wp_bind,
        xdevFindByPdev, Act.wp_read, Act.andThen_some]
      split
      · exact weaken noDevice (errOut_stocks (by decide))
      · split
        · exact weaken noDevice (errOut_stocks (by decide))
        · rw [Act.wp_bind, storeXpdev, wp_onDev_update, Act.andThen_some]
          have bare : s.cdevs = [] := frame.cdevs.trans unbound₁.nodes.cdevs
          refine weaken rfl (probeXdev_stocks placed (stocked_none ?_ rfl ?_))
          · rw [setDev_dev_same]
          · rw [setDev_dev_same, setDev_dev_same, placed_dev]
            exact bare
  case isFalse =>
    obtain ⟨rfl, _⟩ := outcome
    rw [if_neg Bool.false_ne_true, Act.wp_pure]
    intro zero
    cases zero

end

end PcieUtil.Driver.Directory
