import PcieUtil.Driver.Cleanup

/-! What a successful xpdev_create_interfaces leaves behind: cdev_init clears what
create_xcdev has set in the cdev of each node before. -/

namespace PcieUtil.Driver.Completion
open Lib.Action Lib.Bytes State Kernel RegisterFile Interfaces Nodes Books Creation Cleanup Snapshot

/-- A linked member of a node that is registered under its number and its name, belongs to the
module, and has a device of the class. -/
structure Complete (t : Tables) (x : XdevPtr) (w : World) (type : Nat) (item : Node) (m : MemberPtr) :
    Prop where
  linked : m ∈ (w.dev x.pdev).xpdev.listHead type
  registered : (mkdev (deviceMajor x w) item.devId, m) ∈ (w.dev x.pdev).cdevs
  number : ((w.dev x.pdev).member m).cdevno = mkdev (deviceMajor x w) item.devId
  named : w.kobjName m = some (nodeName item (w.idx x))
  owned : ((w.dev x.pdev).member m).owner = true
  device : ((w.dev x.pdev).member m).sysDevice = .real
  created : mkdev (deviceMajor x w) item.devId ∈ (w.dev x.pdev).sysDevices

/-- The nodes of a table, by its number. -/
def tableItems (t : Tables) : Nat → List Node
  | 0 => t.configItems
  | 1 => t.registerItems
  | 2 => t.ifwiItems
  | _ => []

/-- Every node of every table has one member that is complete. -/
def AllComplete (t : Tables) (x : XdevPtr) (w : World) : Prop :=
  ∀ type, ∀ item ∈ tableItems t type, ∃! m, Complete t x w type item m

/-- A cdev as cdev_init leaves it: without owner and name. -/
def Cleared (x : XdevPtr) (m : MemberPtr) (w : World) : Prop :=
  ((w.dev x.pdev).member m).owner = false ∧ w.kobjName m = none

/-- Between two nodes: the members on the lists are cleared. -/
structure Between (x : XdevPtr) (lists : Nat → List MemberPtr) (major : Nat) (w : World) : Prop where
  points : (w.dev x.pdev).xpdev.xdev = some x
  listed : (w.dev x.pdev).xpdev.listHead = lists
  number : deviceMajor x w = major
  cleared : ∀ type, ∀ m ∈ lists type, Cleared x m w

/-- While a node is made: so are the others on the lists, and the new member once it is
initialized. -/
structure During (x : XdevPtr) (m : MemberPtr) (lists : Nat → List MemberPtr) (major : Nat)
    (initialized : Bool) (w : World) : Prop where
  own : m.pdev = x.pdev
  points : (w.dev x.pdev).xpdev.xdev = some x
  listed : (w.dev x.pdev).xpdev.listHead = lists
  number : deviceMajor x w = major
  others : ∀ type, ∀ m' ∈ lists type, m' ≠ m → Cleared x m' w
  here : initialized = true → Cleared x m w

section
variable {t : Tables} {x : XdevPtr} {m : MemberPtr} {lists : Nat → List MemberPtr} {major type devId : Nat}
  {initialized : Bool} {env : Env} {hw : Dev → PciDev} {w w' : World} {s : DevState}

/-- A step on the device that changes at most the new member. -/
theorem During.setDev {n : Nat} {done : Bool} (during : During x m lists major initialized w)
    (xdev : s.xpdev.xdev = (w.dev x.pdev).xpdev.xdev)
    (same_lists : s.xpdev.listHead = (w.dev x.pdev).xpdev.listHead) (number : s.xpdev.major = n)
    (members : ∀ m', m' ≠ m → s.member m' = (w.dev x.pdev).member m')
    (here : done = true → (s.member m).owner = false ∧ w.kobjName m = none) :
    During x m lists n done (State.setDev w x.pdev s) := by
  refine ⟨during.own, ?_, ?_, ?_, fun type m' member other => ?_, fun ready => ?_⟩
  · rw [setDev_dev_same, xdev, during.points]
  · rw [setDev_dev_same, same_lists, during.listed]
  · rw [deviceMajor_setDev, number]
  · have before := during.others type m' member other
    rw [Cleared, setDev_dev_same, members m' other]
    exact before
  · rw [Cleared, setDev_dev_same]
    exact here ready

/-- A step on the globals that changes at most the name of the new member. -/
theorem During.globals {done : Bool} (during : During x m lists major initialized w)
    (dev : w'.dev = w.dev) (names : ∀ m', m' ≠ m → w'.kobjName m' = w.kobjName m')
    (here : done = true → Cleared x m w') : During x m lists major done w' := by
  refine ⟨during.own, ?_, ?_, ?_, fun type m' member other => ?_, here⟩
  · rw [dev, during.points]
  · rw [dev, during.listed]
  · rw [deviceMajor, dev]
    exact during.number
  · have before := during.others type m' member other
    rw [Cleared, dev, names m' other]
    exact before

/-- A step on globals other than the names. -/
theorem During.elsewhere (during : During x m lists major initialized w) (dev : w'.dev = w.dev)
    (names : w'.kobjName = w.kobjName) : During x m lists major initialized w' := by
  apply during.globals dev (fun m' _ => congrFun names m')
  intro ready
  rw [Cleared, dev, names]
  exact during.here ready

theorem storeMember_during (during : During x m lists major initialized w) (done : Bool)
    (change : XgpuCdev → XgpuCdev)
    (here : done = true → (change ((w.dev x.pdev).member m)).owner = false ∧ w.kobjName m = none) :
    Act.wp anyCall (onDev x.pdev (storeMember m change))
      (Act.returns fun _ u => During x m lists major done u) w := by
  rw [storeMember, wp_onDev_update, Act.returns_some]
  apply during.setDev
  · rfl
  · rfl
  · exact during.number
  · exact fun m' other => Function.update_of_ne other _ _
  · intro ready
    simp only [Function.update_self]
    exact here ready

theorem allocMajor_during (during : During x m lists major false w) :
    Act.wp anyCall (allocMajor env x.pdev devId) (Act.returns fun rv u =>
      During x m lists (majorAfter env devId major) false u ∧
        if major = 0 ∧ env.errno (.allocChrdevRegion devId) ≠ 0 then rv < 0 else rv = 0) w := by
  have number := during.number
  apply Act.wp_returns_mono (allocMajor_becomes devId trivial)
  intro rv u outcome
  obtain ⟨set, zero, same⟩ | ⟨unset, ok, zero, same⟩ | ⟨unset, refused, failed, same⟩ := outcome
  · have set : major ≠ 0 := number ▸ set
    rw [same, majorAfter, if_neg fun both => set both.1, if_neg fun both => set both.1]
    exact ⟨during, zero⟩
  · have unset : major = 0 := number ▸ unset
    rw [same, majorAfter, if_pos ⟨unset, ok⟩, if_neg fun both => both.2 ok]
    refine ⟨during.setDev rfl rfl rfl (fun _ _ => rfl) ?_, zero⟩
    exact fun wrong => absurd wrong Bool.false_ne_true
  · have unset : major = 0 := number ▸ unset
    rw [same, majorAfter, if_neg fun both => refused both.2, if_pos ⟨unset, refused⟩]
    exact ⟨during, failed⟩

theorem configKobject_during (node : InTable t type devId) (during : During x m lists major false w) :
    Act.wp anyCall (configKobject t env m x devId) (Act.returns fun rv u =>
      During x m lists major false u ∧ (rv < 0 ↔ env.errno (.kobjectSetName devId) ≠ 0)) w := by
  apply Act.wp_returns_mono (configKobject_becomes node fun _ => trivial)
  intro rv u post
  obtain ⟨named, names, same, others⟩ := post
  rw [same]
  exact ⟨during.globals rfl others fun wrong => absurd wrong Bool.false_ne_true, named⟩

/-- cdev_init clears the name and the owner. -/
theorem cdevInit_during (during : During x m lists major false w) (ops : FileOps) :
    Act.wp anyCall (cdevInit m ops) (Act.returns fun _ u => During x m lists major true u) w := by
  rw [cdevInit, during.own, Act.wp_bind, Act.wp_update, Act.andThen_some]
  have unnamed : During x m lists major false { w with kobjName := Function.update w.kobjName m none } :=
    during.globals rfl (fun m' other => Function.update_of_ne other _ _) (fun wrong => absurd wrong Bool.false_ne_true)
  apply storeMember_during unnamed true
  intro _
  exact ⟨rfl, Function.update_self _ _ _⟩

/-- Whatever its table, a member has been through cdev_init. -/
theorem initXcdev_during (node : InTable t type devId) (during : During x m lists major false w) :
    Act.wp anyCall (initXcdev hw t env m x devId)
      (Act.returns fun _ u => During x m lists major true u) w := by
  unfold initXcdev
  by_cases config : devId < t.itemConfigMax
  · rw [if_pos config]
    apply Act.wp_seq (cdevInit_during during .config)
    intro _ u during
    have nothing : ∀ k < 0, u.configData k = (u.dev x.pdev).config k :=
      fun k below => absurd below (Nat.not_lt_zero k)
    apply Act.wp_returns_mono (fillSnapshot_step PCI_CONFIG_SIZE 0 (fun _ _ _ => trivial) nothing)
    intro _ u' post
    obtain ⟨data, same, _⟩ := post
    rw [same]
    exact during.elsewhere rfl rfl
  · rw [if_neg config]
    by_cases register : devId < t.itemRegisterMax
    · rw [if_pos register]
      apply Act.wp_seq (cdevInit_during during .register)
      intro _ u during
      simp only [pciIomap, Act.wp_bind, wp_onDev_call]
      refine ⟨trivial, ?_⟩
      by_cases ok : (hw x.pdev).resourceLen REGISTER_BAR ≠ 0 ∧ env.errno (.iomapRegister devId) = 0
      · simp only [if_pos ok, Act.andThen_some, Act.wp_update, Act.returns_some]
        refine During.elsewhere (during.setDev ?_ ?_ ?_ ?_ ?_) rfl rfl
        · rfl
        · rfl
        · exact during.number
        · exact fun _ _ => rfl
        · exact during.here
      · simp only [if_neg ok, Act.andThen_some, Act.wp_update, Act.returns_some, setDev_self]
        exact during.elsewhere rfl rfl
    · have ifwi : devId < t.itemIfwiMax := by
        rcases type with _ | _ | _ | type
        · exact absurd node config
        · exact absurd node.2 register
        · exact node.2
        · exact False.elim node
      rw [if_neg register, if_pos ifwi]
      exact cdevInit_during during .ctrl

/-- Registering a member changes no owner and no name. -/
theorem addXcdev_during (node : InTable t type devId) (during : During x m lists major true w)
    (cdevno : BitVec 32) :
    Act.wp anyCall (addXcdev t env x.pdev x m devId cdevno) (Act.returns fun rv u =>
      if env.errno (.cdevAdd devId) = 0 then rv = 0 ∧ During x m lists major true u else rv < 0) w := by
  unfold addXcdev
  simp only [cdevAdd, Act.wp_bind, wp_onDev_call]
  refine ⟨trivial, ?_⟩
  by_cases added : env.errno (.cdevAdd devId) = 0
  · simp only [if_pos added, Act.andThen_some]
    rw [if_neg (Int.lt_irrefl 0), Act.wp_bind, Act.wp_read, Act.andThen_some]
    split
    · apply Act.wp_seq (createSysDevice_step node during.own fun _ _ => trivial)
      intro rv u post
      obtain ⟨zero, sysDevice, _, all, _, same⟩ := post
      rw [setDev_setDev, setDev_dev_same] at same
      subst same
      rw [zero, if_neg (Int.lt_irrefl 0), Act.wp_pure]
      refine ⟨rfl, during.setDev ?_ ?_ ?_ ?_ ?_⟩
      · rfl
      · rfl
      · exact during.number
      · exact fun m' other => Function.update_of_ne other _ _
      · intro ready
        have before := during.here ready
        simp only [Nodes.stored, Function.update_self]
        exact before
    · rw [Act.wp_pure]
      exact ⟨rfl, during.setDev rfl rfl during.number (fun _ _ => rfl) during.here⟩
  · have failed : env.rv (.cdevAdd devId) < 0 := rv_neg added
    simp only [if_neg added, Act.andThen_some, setDev_self]
    rw [if_pos failed]
    simp only [unregisterChrdevRegion, Act.wp_bind, wp_onDev_call, Act.andThen_some, Act.wp_pure]
    exact ⟨trivial, failed⟩

theorem createXcdev_during {bar : Int} (node : InTable t type devId)
    (during : During x m lists major false w) :
    Act.wp anyCall (createXcdev hw t env x.pdev x m bar devId) (Act.returns fun rv u =>
      if StepsSucceed env (decide (major = 0)) devId then
        rv = 0 ∧ During x m lists (majorAfter env devId major) true u else rv < 0) w := by
  unfold createXcdev
  apply Act.wp_seq (allocMajor_during during)
  intro rv w₁ post
  obtain ⟨during, ends⟩ := post
  by_cases refused : major = 0 ∧ env.errno (.allocChrdevRegion devId) ≠ 0
  · rw [if_pos refused] at ends
    rw [if_pos (by omega), Act.wp_pure, Act.returns_some, if_neg (steps_refused refused)]
    exact ends
  · rw [if_neg refused] at ends
    rw [if_neg (not_not.mpr ends)]
    apply Act.wp_seq (storeMember_during during false _
      (fun wrong => absurd wrong Bool.false_ne_true))
    intro _ w₂ during
    apply Act.wp_seq (configKobject_during node during)
    intro rv w₃ post
    obtain ⟨during, named⟩ := post
    by_cases unnamed : rv < 0
    · have steps : ¬ StepsSucceed env (decide (major = 0)) devId :=
        fun succeed => named.mp unnamed succeed.2.1
      rw [if_pos unnamed, Act.wp_pure, Act.returns_some, if_neg steps]
      exact unnamed
    · rw [if_neg unnamed]
      apply Act.wp_seq (initXcdev_during node during)
      intro _ w₄ during
      rw [Act.wp_bind, Act.wp_read, Act.andThen_some]
      have cleared := during.here
      generalize mkdev (w₄.dev x.pdev).xpdev.major devId = cdevno
      apply Act.wp_seq (storeMember_during during true (fun c => { c with cdevno := cdevno }) cleared)
      intro _ w₅ during
      apply Act.wp_returns_mono (addXcdev_during node during _)
      intro rv u added
      have name_set : env.errno (.kobjectSetName devId) = 0 := by
        by_contra failed
        exact unnamed (named.mpr failed)
      have steps := steps_iff_added refused name_set
      simp only [steps]
      exact added

/-- An allocated member is not initialized yet. -/
theorem kmallocMember_during (between : Between x lists major w) :
    Act.wp anyCall (onDev x.pdev (kmallocMember env x.pdev devId)) (Act.returns fun v u =>
      match v with
      | none => env.errno (.kmallocMember devId) ≠ 0
      | some m => env.errno (.kmallocMember devId) = 0 ∧ During x m lists major false u) w := by
  apply Act.wp_returns_mono (kmallocMember_becomes devId trivial)
  intro v u outcome
  obtain ⟨nothing, refused, same⟩ | ⟨member, ok, same⟩ := outcome
  · rw [nothing]
    exact refused
  · rw [member, same]
    generalize made : (⟨x.pdev, (w.dev x.pdev).serial⟩ : MemberPtr) = m
    have during : During x m lists major false w := by
      refine ⟨by rw [← made], between.points, between.listed, between.number, fun type m' member _ => ?_,
        fun wrong => absurd wrong Bool.false_ne_true⟩
      exact between.cleared type m' member
    refine ⟨ok, during.setDev ?_ ?_ ?_ ?_ ?_⟩
    · rfl
    · rfl
    · exact between.number
    · exact fun m' other => Function.update_of_ne other _ _
    · exact fun wrong => absurd wrong Bool.false_ne_true

/-- An initialized member goes to the end of its list. -/
theorem listAddTail_between (during : During x m lists major true w) (type : Nat) :
    Act.wp anyCall (onDev x.pdev (listAddTail type m)) (Act.returns fun _ u =>
      Between x (Function.update lists type (lists type ++ [m])) major u) w := by
  rw [listAddTail, storeXpdev, wp_onDev_update, Act.returns_some]
  refine ⟨?_, ?_, ?_, fun type' m' member => ?_⟩
  · rw [setDev_dev_same]
    exact during.points
  · rw [setDev_dev_same, ← during.listed]
  · rw [deviceMajor_setDev]
    exact during.number
  · rw [Cleared, setDev_dev_same]
    by_cases new : m' = m
    · rw [new]
      exact during.here rfl
    · have before : m' ∈ lists type' := by
        by_cases same : type' = type
        · subst same
          rw [Function.update_self, List.mem_append, List.mem_singleton] at member
          exact member.resolve_right new
        · rwa [Function.update_of_ne same] at member
      exact during.others type' m' before new

/-- How the making of some nodes ends: with all of them, or with an error. -/
def Ends (env : Env) (x : XdevPtr) (items : List Node) (major : Nat) (v : Option Int) (u : World) : Prop :=
  if failure env (decide (major = 0)) items = none then
    v = some 0 ∧ ∃ lists, Between x lists (majorMade env items major) u
  else v ≠ some 0

/-- The cleanup behind a failure does not make it a success. -/
theorem failed_ends {items : List Node} {α : Type} {act : M α}
    (stops : failure env (decide (major = 0)) items ≠ none) :
    Act.wp anyCall (act >>= fun _ => pure (-1)) (Ends env x items major) w := by
  apply Act.wp_ends_with
  · intro u
    rw [Ends, if_neg stops]
    exact (Option.some_ne_none 0).symm
  · intro u
    rw [Ends, if_neg stops]
    decide

theorem createMembers_ends {walk : Walk} (items : List Node) (ii : Nat)
    (nodes : ∀ item ∈ items, InTable t type item.devId) (between : Between x lists major w) :
    Act.wp anyCall (createMembers hw t walk env x.pdev x type items ii) (Ends env x items major) w := by
  induction items generalizing lists major ii w with
  | nil =>
    rw [createMembers, Act.wp_pure]
    exact ⟨rfl, lists, between⟩
  | cons item rest ih =>
    have node : InTable t type item.devId := nodes item List.mem_cons_self
    have later : ∀ item ∈ rest, InTable t type item.devId := fun item there =>
      nodes item (List.mem_cons_of_mem _ there)
    unfold createMembers
    apply Act.wp_seq (kmallocMember_during between)
    intro v w₁ outcome
    cases v with
    | none =>
      have stops : failure env (decide (major = 0)) (item :: rest) ≠ none := by
        rw [Creation.failure, if_pos outcome]
        exact Option.some_ne_none _
      exact failed_ends stops
    | some m =>
      obtain ⟨allocated, during⟩ := outcome
      have goes_on : ¬ env.errno (.kmallocMember item.devId) ≠ 0 := not_not.mpr allocated
      simp only [onDev, loadXdev, Act.wp_bind, Act.wp_zoom, Act.wp_read, Act.andThen_some, setDev_self]
      rw [← Act.wp_bind]
      apply Act.wp_seq (createXcdev_during node during)
      intro rv w₂ created
      by_cases succeed : StepsSucceed env (decide (major = 0)) item.devId
      · rw [if_pos succeed] at created
        obtain ⟨zero, during⟩ := created
        rw [zero, if_neg (Int.lt_irrefl 0)]
        apply Act.wp_seq (listAddTail_between during type)
        intro _ w₃ between
        apply Act.wp_mono (ih (ii + 1) later between)
        intro v u ends
        have set : majorAfter env item.devId major ≠ 0 := by
          rw [majorAfter_ne_zero]
          by_cases unset : major = 0
          · exact .inr (succeed.1 (decide_eq_true unset))
          · exact .inl unset
        have goes : failure env (decide (major = 0)) (item :: rest) =
            failure env (decide (majorAfter env item.devId major = 0)) rest := by
          rw [Creation.failure, if_neg goes_on, if_pos succeed, decide_eq_false set]
        have number : majorMade env (item :: rest) major =
            majorMade env rest (majorAfter env item.devId major) := by
          rw [majorMade_set set, majorMade, if_pos allocated]
        rw [Ends, goes, number]
        exact ends
      · rw [if_neg succeed] at created
        rw [if_pos created]
        apply failed_ends
        rw [Creation.failure, if_neg goes_on, if_neg succeed]
        exact Option.some_ne_none _

/-- The nodes of one table and of those behind it. -/
theorem createTable_ends {walk : Walk} {items back : List Node} {next : Int → M Int}
    (nodes : ∀ item ∈ items, InTable t type item.devId)
    (rest : ∀ lists major w, Between x lists major w → Act.wp anyCall (next 0) (Ends env x back major) w)
    (between : Between x lists major w) :
    Act.wp anyCall
      (do
        let ret ← fileCreateInterface hw t walk env x.pdev items type
        if ret ≠ 0 then
          xpdevDestroyInterfaces t walk x.pdev
          return -1
        else next ret)
      (Ends env x (items ++ back) major) w := by
  have owner := between.points
  rw [Act.wp_bind, fileCreateInterface, Act.wp_bind, Act.wp_read, Act.andThen_some, owner]
  apply Act.wp_mono (createMembers_ends items 0 nodes between)
  intro v w₁ ends
  by_cases made : failure env (decide (major = 0)) items = none
  · rw [Ends, if_pos made] at ends
    obtain ⟨zero, lists, between⟩ := ends
    obtain ⟨goes_on, next_major⟩ := failure_next back made
    rw [zero, Act.andThen_some, if_neg (by decide)]
    apply Act.wp_mono (rest lists _ w₁ between)
    intro v u ends
    rw [Ends, goes_on, next_major]
    exact ends
  · obtain ⟨f, stops⟩ := Option.ne_none_iff_exists'.mp made
    obtain ⟨stops, _⟩ := failure_here back stops
    have fails : failure env (decide (major = 0)) (items ++ back) ≠ none := by
      rw [stops]
      exact Option.some_ne_none f
    rw [Ends, if_neg made] at ends
    cases v with
    | none =>
      rw [Act.andThen_none, Ends, if_neg fails]
      exact (Option.some_ne_none 0).symm
    | some rv =>
      have failed : rv ≠ 0 := fun zero => ends (congrArg some zero)
      rw [Act.andThen_some, if_pos failed]
      exact failed_ends fails

theorem xpdevCreateInterfaces_ends {walk : Walk} (placed : Tables.Placed t)
    (between : Between x lists major w) :
    Act.wp anyCall (xpdevCreateInterfaces hw t walk env x.pdev) (Ends env x t.allItems major) w := by
  have order : t.allItems = t.configItems ++ (t.registerItems ++ (t.ifwiItems ++ [])) := by
    rw [List.append_nil, Tables.allItems, List.append_assoc]
  rw [order]
  apply createTable_ends placed.config _ between
  intro lists major w between
  apply createTable_ends placed.register _ between
  intro lists major w between
  apply createTable_ends placed.ifwi _ between
  intro lists major w between
  rw [Act.wp_pure]
  exact ⟨rfl, lists, between⟩

/-! What completeness comes to. -/

theorem mem_allItems {item : Node} : item ∈ t.allItems ↔ ∃ type, item ∈ tableItems t type := by
  rw [Tables.allItems, List.mem_append, List.mem_append]
  constructor
  · intro member
    obtain (config | register) | ifwi := member
    · exact ⟨0, config⟩
    · exact ⟨1, register⟩
    · exact ⟨2, ifwi⟩
  · intro member
    obtain ⟨type, inside⟩ := member
    rcases type with _ | _ | _ | type
    · exact .inl (.inl inside)
    · exact .inl (.inr inside)
    · exact .inr inside
    · exact absurd inside List.not_mem_nil

/-- The linked members are all cleared, so that none of them is complete. -/
theorem Between.incomplete (between : Between x lists major w) (some_item : t.allItems ≠ []) :
    ¬ AllComplete t x w := by
  intro complete
  obtain ⟨item, member⟩ := List.exists_mem_of_ne_nil _ some_item
  obtain ⟨type, inside⟩ := mem_allItems.mp member
  obtain ⟨m, made, _⟩ := complete type item inside
  have listed := made.linked
  rw [between.listed] at listed
  have owned := made.owned
  rw [(between.cleared type m listed).1] at owned
  exact Bool.false_ne_true owned

/-- A device without nodes, right before they are made. -/
theorem created_ends {walk : Walk} (placed : Tables.Placed t)
    (points : (w.dev x.pdev).xpdev.xdev = some x)
    (empty : ∀ type, (w.dev x.pdev).xpdev.listHead type = []) :
    Ends env x t.allItems (deviceMajor x w) ((xpdevCreateInterfaces hw t walk env x.pdev).run w).value
      ((xpdevCreateInterfaces hw t walk env x.pdev).run w).state := by
  have between : Between x (fun _ => []) (deviceMajor x w) w := by
    refine ⟨points, funext empty, rfl, fun type m member => ?_⟩
    cases member
  exact (xpdevCreateInterfaces_ends placed between).2

/-- A creation that returns 0 is complete only when there is nothing to make. -/
theorem complete_iff {walk : Walk} (placed : Tables.Placed t)
    (points : (w.dev x.pdev).xpdev.xdev = some x)
    (empty : ∀ type, (w.dev x.pdev).xpdev.listHead type = []) :
    (((xpdevCreateInterfaces hw t walk env x.pdev).run w).value = some 0 →
        AllComplete t x ((xpdevCreateInterfaces hw t walk env x.pdev).run w).state) ↔
      t.allItems = [] ∨ failure env (decide (deviceMajor x w = 0)) t.allItems ≠ none := by
  have ends : Ends env x t.allItems (deviceMajor x w)
      ((xpdevCreateInterfaces hw t walk env x.pdev).run w).value
      ((xpdevCreateInterfaces hw t walk env x.pdev).run w).state := created_ends placed points empty
  by_cases no_items : t.allItems = []
  · refine iff_of_true (fun _ type item inside => ?_) (.inl no_items)
    have member := mem_allItems.mpr ⟨type, inside⟩
    rw [no_items] at member
    cases member
  · by_cases made : failure env (decide (deviceMajor x w = 0)) t.allItems = none
    · rw [Ends, if_pos made] at ends
      obtain ⟨zero, lists, between⟩ := ends
      refine iff_of_false (fun complete => ?_) (by simp [no_items, made])
      exact between.incomplete no_items (complete zero)
    · rw [Ends, if_neg made] at ends
      exact iff_of_true (fun zero => absurd zero ends) (.inr made)

end

theorem complete_iff_failing :
    failure (failingAt (.cdevAdd 3)) (decide (deviceMajor firstXdev openedWorld = 0))
        tables.allItems ≠ none ∧
      (((xpdevCreateInterfaces plainBoard tables .every (failingAt (.cdevAdd 3)) firstXdev.pdev).run
          openedWorld).value = some 0 →
        AllComplete tables firstXdev
          ((xpdevCreateInterfaces plainBoard tables .every (failingAt (.cdevAdd 3))
            firstXdev.pdev).run openedWorld).state) := by
  have fails : failure (failingAt (.cdevAdd 3)) (decide (deviceMajor firstXdev openedWorld = 0))
      tables.allItems ≠ none := by decide +kernel
  refine ⟨fails, ?_⟩
  exact (complete_iff tables_placed openedWorld_blank.owner openedWorld_blank.empty).mpr (.inr fails)

theorem calm_made : failure (Env.calm 0) (decide (deviceMajor firstXdev openedWorld = 0)) tables.allItems =
    none := by
  decide +kernel

/-- With every kernel call succeeding, the nodes are made without owner and name. -/
theorem calm_creation_incomplete :
    ¬ ∀ (hw : Dev → PciDev) (t : Tables) (walk : Walk) (env : Env) (x : XdevPtr) (w : World),
      Tables.Placed t → (w.dev x.pdev).xpdev.xdev = some x →
        (∀ type, (w.dev x.pdev).xpdev.listHead type = []) →
          ((xpdevCreateInterfaces hw t walk env x.pdev).run w).value = some 0 →
            AllComplete t x ((xpdevCreateInterfaces hw t walk env x.pdev).run w).state := by
  intro all
  have some_item : tables.allItems ≠ [] := List.cons_ne_nil _ _
  have complete := all plainBoard tables .every (Env.calm 0) firstXdev openedWorld tables_placed
    openedWorld_blank.owner openedWorld_blank.empty
  have ends : Ends (Env.calm 0) firstXdev tables.allItems (deviceMajor firstXdev openedWorld)
      ((xpdevCreateInterfaces plainBoard tables .every (Env.calm 0) firstXdev.pdev).run openedWorld).value
      ((xpdevCreateInterfaces plainBoard tables .every (Env.calm 0) firstXdev.pdev).run openedWorld).state :=
    created_ends tables_placed openedWorld_blank.owner openedWorld_blank.empty
  rw [Ends, if_pos calm_made] at ends
  obtain ⟨zero, lists, between⟩ := ends
  exact between.incomplete some_item (complete zero)

end PcieUtil.Driver.Completion
