import PcieUtil.Cmdline.Usage
import PcieUtil.Enum.DeviceFiles
import PcieUtil.Enum.PciRegion

/-! `main` of the enumeration tool. It reads all devices before it looks at its arguments, and then
writes what it has been asked for. -/

namespace PcieUtil.Enum.Main
open Cmdline.Options Cmdline.Parse Cmdline.Settings Cmdline.Reading Cmdline.Verdict Cmdline.Usage
open PciTree PciRegion RegionAmount DeviceFiles

/-- `std::cout` and `std::cerr`. -/
structure Output where
  out : List Char := []
  err : List Char := []
  deriving DecidableEq

/-- Code that writes, and may stop before it is through. -/
abbrev Tool := ExceptT Stop (StateM Output)

def print (text : List Char) : Tool Unit := modify fun o => { o with out := o.out ++ text }

def printErr (text : List Char) : Tool Unit := modify fun o => { o with err := o.err ++ text }

/-- `throw cmdline_error(...)`, which nothing catches either. -/
def orThrow {α : Type} : Except (List Char) α → Tool α
  | .ok a => return a
  | .error _ => throw (.thrown .cmdlineError)

/-- The calls of `add`. -/
def addOptions : Except (List Char) (Parser strings) := do
  let a ← Parser.add {} "device".toList 'd' "device Id".toList
  let a ← a.add "vendor".toList 'v' "vendor Id".toList
  let a ← a.add "class".toList 'c' "class  Id".toList
  let a ← a.add "tree".toList 't' "pci tree".toList
  a.addValue () "id".toList 'i' "id of pci device".toList false [] some

/-- One of the loops over `devTree`. -/
def showIds (kind : List Char) (id : Device → BitVec 32) (devTree : List Device) : Tool Unit :=
  devTree.forM fun dev => print ("Path:".toList ++ dev.dev.filePath ++ ": ".toList ++ kind ++ " id: ".toList ++
    Nat.toDigits 10 (id dev).toNat ++ ['\n'])

/-- `print_pci_tree`, with a tree of its own. Coming to its end without a string is not defined. -/
def showTree (fs : Sysfs) : Tool Unit := do
  let devTree ← MonadExcept.ofExcept (deviceList fs)
  print (printPciTree (devTree.map Device.dev))
  throw .undefined

/-- `read_region`, with a tree of its own. -/
def showRegions (fs : Sysfs) (fileName : List Char) (regionAmount : Int) : Tool Unit := do
  let devTree ← MonadExcept.ofExcept (deviceList fs)
  match readRegion (devTree.map Device.dev) fileName regionAmount with
  | none => throw .undefined
  | some text => print text

/-- `if (wanted)` -/
def onlyIf (wanted : Bool) (act : Tool Unit) : Tool Unit := if wanted then act else pure ()

/-- What is done for the option `id`. -/
def showDevice (fs : Sysfs) (devTree : List Device) (fileName : List Char) : Tool Unit := do
  let (written, pciDevice) := getPciDevice (devTree.map Device.dev) fileName
  print written
  match pciDevice with
  | none => print "failed\n".toList
  | some _ =>
      match getPciDeviceRegionAmount fs.exist fileName with
      | none => throw .undefined
      | some regionAmount =>
          onlyIf (0 ≤ regionAmount) (print ("The PCI device ".toList ++ fileName ++ " has ".toList ++
            decimal regionAmount ++ " regions.\n".toList))
          showRegions fs fileName regionAmount

/-- `main` behind `parse_check`. -/
def handle (fs : Sysfs) (devTree : List Device) (a : Parser strings) : Tool Int := do
  onlyIf (a.exist "device".toList) (showIds "device".toList Device.deviceId devTree)
  onlyIf (a.exist "vendor".toList) (showIds "vendor".toList Device.vendorId devTree)
  onlyIf (a.exist "class".toList) (showIds "class".toList Device.classId devTree)
  onlyIf (a.exist "tree".toList) (showTree fs)
  onlyIf (a.exist "id".toList) (do showDevice fs devTree (← orThrow (a.get () "id".toList)))
  return 0

/-- How `check` ends the program. -/
def leave (code : Nat) (err : List Char) : Tool Int := do
  printErr err
  throw (.exits code)

def main (fs : Sysfs) (argv : List (List Char)) : Tool Int := do
  let devTree ← MonadExcept.ofExcept (deviceList fs)
  let a ← orThrow addOptions
  match ← orThrow (parseCheck a argv) with
  | .exits code err => leave code err
  | .passes a => handle fs devTree a

/-! The options. -/

/-- The options of the tool, in the order in which they are added. -/
def toolOptions : List (Opt strings) := [
  ⟨"device".toList, 'd', "device Id".toList, .withoutValue false⟩,
  ⟨"vendor".toList, 'v', "vendor Id".toList, .withoutValue false⟩,
  ⟨"class".toList, 'c', "class  Id".toList, .withoutValue false⟩,
  ⟨"tree".toList, 't', "pci tree".toList, .withoutValue false⟩,
  ⟨"id".toList, 'i', fullDescription (T := strings) "id of pci device".toList () false [],
    .withValue ⟨(), false, false, [], [], some⟩⟩,
  ⟨"help".toList, '?', "print this message".toList, .withoutValue false⟩]

def added (options : List (Opt strings)) : OptionMap strings := options.foldl (fun map o => map.insert o.nam o) ∅

theorem getElem?_added_onto {options : List (Opt strings)} (distinct : (options.map (·.nam)).Nodup)
    (map : OptionMap strings) (fresh : ∀ o ∈ options, map[o.nam]? = none) (name : List Char) (o : Opt strings) :
    (options.foldl (fun map o => map.insert o.nam o) map)[name]? = some o ↔
      map[name]? = some o ∨ o ∈ options ∧ o.nam = name := by
  induction options generalizing map with
  | nil => simp
  | cons first options ih =>
    rw [List.map_cons, List.nodup_cons] at distinct
    have other (later : Opt strings) (among : later ∈ options) : first.nam ≠ later.nam := by
      intro same
      exact distinct.1 (same ▸ List.mem_map_of_mem among)
    have fresh' : ∀ later ∈ options, (map.insert first.nam first)[later.nam]? = none := by
      intro later among
      rw [Std.ExtTreeMap.getElem?_insert, if_neg fun same => other later among (Std.LawfulEqCmp.eq_of_compare same)]
      exact fresh later (List.mem_cons_of_mem _ among)
    rw [List.foldl_cons, ih distinct.2 _ fresh', Std.ExtTreeMap.getElem?_insert, List.mem_cons]
    by_cases here : first.nam = name
    · subst here
      rw [if_pos Std.ReflCmp.compare_self, fresh first List.mem_cons_self]
      constructor
      · rintro (same | ⟨among, same⟩)
        · exact .inr ⟨.inl (Option.some.inj same).symm, congrArg Opt.nam (Option.some.inj same).symm⟩
        · exact absurd same.symm (other o among)
      · rintro (nothing | ⟨rfl | among, same⟩)
        · exact nomatch nothing
        · exact .inl rfl
        · exact absurd same.symm (other o among)
    · rw [if_neg fun same => here (Std.LawfulEqCmp.eq_of_compare same)]
      constructor
      · exact Or.imp_right fun both => ⟨.inr both.1, both.2⟩
      · exact Or.imp_right fun both => ⟨both.1.resolve_left fun same => here (same ▸ both.2), both.2⟩

theorem getElem?_added {options : List (Opt strings)} (distinct : (options.map (·.nam)).Nodup) (name : List Char)
    (o : Opt strings) : (added options)[name]? = some o ↔ o ∈ options ∧ o.nam = name := by
  have nothing : ∀ o ∈ options, (∅ : OptionMap strings)[o.nam]? = none := fun _ _ => Std.ExtTreeMap.getElem?_empty
  rw [added, getElem?_added_onto distinct ∅ nothing, Std.ExtTreeMap.getElem?_empty]
  exact ⟨fun either => either.resolve_left (nomatch ·), .inr⟩

/-- The parser that `parse_check` has. -/
def toolParser : Parser strings where
  options := added toolOptions
  ordered := toolOptions.map (·.nam)

theorem toolOptions_distinct : (toolOptions.map (·.nam)).Nodup := by decide

theorem insertNew_fresh {options : List (Opt strings)} {o : Opt strings}
    (distinct : ((options ++ [o]).map (·.nam)).Nodup) :
    Parser.insertNew { options := added options, ordered := options.map (·.nam) } o =
      .ok { options := added (options ++ [o]), ordered := (options ++ [o]).map (·.nam) } := by
  rw [List.map_append, List.nodup_append] at distinct
  obtain ⟨before, -, apart⟩ := distinct
  have absent : ¬ (added options).contains o.nam = true := by
    rw [Std.ExtTreeMap.contains_eq_isSome_getElem?, Option.isSome_iff_exists]
    rintro ⟨other, found⟩
    obtain ⟨among, same⟩ := (getElem?_added before o.nam other).mp found
    exact apart _ (List.mem_map_of_mem among) _ (List.mem_singleton_self _) same
  unfold Parser.insertNew
  rw [if_neg absent, added, added, List.foldl_append, List.map_append]
  rfl

/-- The parser with the first options. -/
def withFirst (count : Nat) : Parser strings where
  options := added (toolOptions.take count)
  ordered := (toolOptions.take count).map (·.nam)

theorem withFirst_next {count : Nat} {o : Opt strings} (next : toolOptions.take count ++ [o] = toolOptions.take (count + 1)) :
    (withFirst count).insertNew o = .ok (withFirst (count + 1)) := by
  have distinct : ((toolOptions.take count ++ [o]).map (·.nam)).Nodup := by
    rw [next]
    exact toolOptions_distinct.sublist ((List.take_sublist _ _).map _)
  have step := insertNew_fresh distinct
  rwa [next] at step

theorem addOptions_ok : addOptions = .ok (withFirst 5) := by
  have device : Parser.add {} "device".toList 'd' "device Id".toList = .ok (withFirst 1) :=
    withFirst_next (show toolOptions.take 0 ++ [_] = toolOptions.take 1 from rfl)
  have vendor : (withFirst 1).add "vendor".toList 'v' "vendor Id".toList = .ok (withFirst 2) := withFirst_next rfl
  have classId : (withFirst 2).add "class".toList 'c' "class  Id".toList = .ok (withFirst 3) := withFirst_next rfl
  have tree : (withFirst 3).add "tree".toList 't' "pci tree".toList = .ok (withFirst 4) := withFirst_next rfl
  have id : (withFirst 4).addValue () "id".toList 'i' "id of pci device".toList false [] some = .ok (withFirst 5) :=
    withFirst_next rfl
  simp only [addOptions, device, vendor, classId, tree, id, bind, Except.bind]

theorem withHelp_first : withHelp (withFirst 5) = .ok toolParser := by
  have absent : ¬ (withFirst 5).options.contains "help".toList = true := by
    rw [Std.ExtTreeMap.contains_eq_isSome_getElem?, Option.isSome_iff_exists]
    rintro ⟨o, found⟩
    have distinct : ((toolOptions.take 5).map (·.nam)).Nodup := toolOptions_distinct.sublist ((List.take_sublist _ _).map _)
    obtain ⟨among, same⟩ := (getElem?_added distinct "help".toList o).mp found
    have others : ∀ o ∈ toolOptions.take 5, o.nam ≠ "help".toList := by decide
    exact others o among same
  rw [withHelp, if_pos absent]
  exact withFirst_next rfl

theorem toolParser_option {name : List Char} {o : Opt strings} :
    toolParser.options[name]? = some o ↔ o ∈ toolOptions ∧ o.nam = name :=
  getElem?_added toolOptions_distinct name o

theorem toolParser_unambiguous : Unambiguous toolParser.options := by
  intro c first second one two
  obtain ⟨-, -, o, found, short⟩ := one
  obtain ⟨-, -, o', found', short'⟩ := two
  obtain ⟨among, rfl⟩ := toolParser_option.mp found
  obtain ⟨among', rfl⟩ := toolParser_option.mp found'
  have apart : ∀ o ∈ toolOptions, ∀ o' ∈ toolOptions, o.snam = o'.snam → o.nam = o'.nam := by decide
  exact apart o among o' among' (short.trans short'.symm)

theorem toolParser_met (acts : List Act) (name : List Char) : ¬ Unmet toolParser acts name := by
  rintro ⟨o, found, must, -⟩
  have optional : ∀ o ∈ toolOptions, o.must = false := by decide
  rw [optional o (toolParser_option.mp found).1] at must
  exact absurd must Bool.false_ne_true

/-! What the arguments ask for. -/

theorem sets_flag {options : OptionMap strings} {name desc : List Char} {snam : Char} {has : Bool} {acts : List Act}
    (found : options[name]? = some ⟨name, snam, desc, .withoutValue has⟩) :
    (∃ act ∈ acts, act.Sets options name) ↔ .set name ∈ acts := by
  constructor
  · rintro ⟨act, among, o, found', gives⟩
    obtain rfl := Option.some.inj (found.symm.trans found')
    cases act with
    | set other =>
      unfold Act.gives at gives
      dsimp only at gives
      split_ifs at gives with same
      · exact same ▸ among
      · exact absurd gives Bool.false_ne_true
    | setTo other value =>
      unfold Act.gives at gives
      dsimp only at gives
      split_ifs at gives
      · exact absurd gives Bool.false_ne_true
      · exact absurd gives Bool.false_ne_true
    | word => exact absurd gives Bool.false_ne_true
    | refuse => exact absurd gives Bool.false_ne_true
  · intro among
    exact ⟨_, among, _, found, congrArg Option.isSome (if_pos rfl)⟩

/-- The value that an act has for the option `id`. -/
def idOf : Act → Option (List Char)
  | .setTo name value => if name = "id".toList then some value else none
  | _ => none

/-- What is wanted: all numbers of a kind, the tree, the device that is named last. -/
structure Asked where
  device : Bool
  vendor : Bool
  classId : Bool
  tree : Bool
  id : Option (List Char)

def asked (acts : List Act) : Asked where
  device := .set "device".toList ∈ acts
  vendor := .set "vendor".toList ∈ acts
  classId := .set "class".toList ∈ acts
  tree := .set "tree".toList ∈ acts
  id := (acts.filterMap idOf).getLast?

/-- The answer, in one order whatever the order of the arguments. -/
def answer (fs : Sysfs) (devTree : List Device) (asked : Asked) : Tool Int := do
  onlyIf asked.device (showIds "device".toList Device.deviceId devTree)
  onlyIf asked.vendor (showIds "vendor".toList Device.vendorId devTree)
  onlyIf asked.classId (showIds "class".toList Device.classId devTree)
  onlyIf asked.tree (showTree fs)
  match asked.id with
  | none => pure ()
  | some fileName => showDevice fs devTree fileName
  return 0

/-- What the tool does for a command line that is read as `acts`. -/
def reply (fs : Sysfs) (prog : List Char) (acts : List Act) : Tool Int := do
  let devTree ← MonadExcept.ofExcept (deviceList fs)
  if .set "help".toList ∈ acts then leave 0 (usage (started toolParser prog))
  else match acts.filterMap (Act.fault toolParser.options) with
    | [] => answer fs devTree (asked acts)
    | error :: _ => leave 1 (error ++ '\n' :: usage (started toolParser prog))

variable {fs : Sysfs} {prog : List Char} {args : List (List Char)} {acts : List Act}

theorem exist_flag (prog : List Char) (reads : Reads toolParser.options args acts) {name desc : List Char} {snam : Char}
    (found : toolParser.options[name]? = some ⟨name, snam, desc, .withoutValue false⟩) :
    (parse toolParser (prog :: args)).2.exist name = decide (.set name ∈ acts) := by
  have unset : toolParser.exist name = false := by rw [Parser.exist, found]; rfl
  rw [Bool.eq_iff_iff, exist_parsed toolParser_unambiguous reads, unset, sets_flag found, decide_eq_true_iff]
  exact ⟨fun either => either.resolve_left Bool.false_ne_true, .inr⟩

theorem toolParser_id : toolParser.options["id".toList]? = some ⟨"id".toList, 'i',
    fullDescription (T := strings) "id of pci device".toList () false [], .withValue ⟨(), false, false, [], [], some⟩⟩ :=
  toolParser_option.mpr ⟨by simp [toolOptions], rfl⟩

theorem reads_id (v : WithValue strings) (plain : v.reader = some) (act : Act) : act.reads "id".toList v = idOf act := by
  cases act with
  | setTo name value =>
    unfold Act.reads idOf
    dsimp only
    rw [plain]
  | _ => rfl

theorem exist_id (reads : Reads toolParser.options args acts) :
    (parse toolParser (prog :: args)).2.exist "id".toList = (asked acts).id.isSome := by
  have unset : toolParser.exist "id".toList = false := by rw [Parser.exist, toolParser_id]; rfl
  have sets (act : Act) : act.Sets toolParser.options "id".toList ↔ (idOf act).isSome = true := by
    constructor
    · rintro ⟨o, found, gives⟩
      obtain rfl := Option.some.inj (toolParser_id.symm.trans found)
      rwa [gives_reads rfl, Option.isSome_map, reads_id _ rfl] at gives
    · intro value
      refine ⟨_, toolParser_id, ?_⟩
      rwa [gives_reads rfl, Option.isSome_map, reads_id _ rfl]
  have some_value : (asked acts).id.isSome = true ↔ acts.filterMap idOf ≠ [] := List.getLast?_isSome
  rw [Bool.eq_iff_iff, exist_parsed toolParser_unambiguous reads, unset, some_value, ne_eq, List.filterMap_eq_nil_iff]
  constructor
  · rintro (nothing | ⟨act, among, set⟩) none_given
    · exact absurd nothing Bool.false_ne_true
    · have value := (sets act).mp set
      rw [none_given act among] at value
      exact absurd value Bool.false_ne_true
  · intro some_given
    obtain ⟨act, given⟩ := not_forall.mp some_given
    obtain ⟨among, given⟩ := Classical.not_imp.mp given
    exact .inr ⟨act, among, (sets act).mpr (Option.isSome_iff_ne_none.mpr given)⟩

theorem get_id (reads : Reads toolParser.options args acts) {fileName : List Char} (last : (asked acts).id = some fileName) :
    (parse toolParser (prog :: args)).2.get () "id".toList = .ok fileName := by
  have value := get_parsed toolParser_unambiguous reads prog toolParser_id rfl
  have readings : acts.filterMap (Act.reads "id".toList (T := strings) ⟨(), false, false, [], [], some⟩) =
      acts.filterMap idOf := List.filterMap_congr fun act _ => reads_id _ rfl act
  have given : (acts.filterMap idOf).getLast? = some fileName := last
  rw [readings, List.getLastD_eq_getLast?, given] at value
  exact value

theorem handle_asked (reads : Reads toolParser.options args acts) {devTree : List Device} :
    handle fs devTree (parse toolParser (prog :: args)).2 = answer fs devTree (asked acts) := by
  have device := exist_flag prog reads (toolParser_option.mpr ⟨.head _, rfl⟩)
  have vendor := exist_flag prog reads (toolParser_option.mpr ⟨.tail _ (.head _), rfl⟩)
  have classId := exist_flag prog reads (toolParser_option.mpr ⟨.tail _ (.tail _ (.head _)), rfl⟩)
  have tree := exist_flag prog reads (toolParser_option.mpr ⟨.tail _ (.tail _ (.tail _ (.head _))), rfl⟩)
  unfold handle answer
  rw [device, vendor, classId, tree, exist_id reads]
  cases last : (asked acts).id with
  | none => rfl
  | some fileName =>
    rw [get_id reads last]
    rfl

theorem main_leaves {argv : List (List Char)} {code : Nat} {err : List Char}
    (ends : parseCheck (withFirst 5) argv = .ok (.exits code err)) :
    main fs argv = MonadExcept.ofExcept (deviceList fs) >>= fun _ => leave code err := by
  unfold main
  rw [addOptions_ok]
  refine bind_congr fun devTree => ?_
  rw [show orThrow (.ok (withFirst 5)) = pure (withFirst 5) from rfl, pure_bind, ends]
  rfl

theorem main_passes {argv : List (List Char)} {a : Parser strings} (ends : parseCheck (withFirst 5) argv = .ok (.passes a)) :
    main fs argv = MonadExcept.ofExcept (deviceList fs) >>= fun devTree => handle fs devTree a := by
  unfold main
  rw [addOptions_ok]
  refine bind_congr fun devTree => ?_
  rw [show orThrow (.ok (withFirst 5)) = pure (withFirst 5) from rfl, pure_bind, ends]
  rfl

/-- No option of the tool must be given: what is wrong is wrong with an argument. -/
theorem tool_faults (reads : Reads toolParser.options args acts) (prog : List Char) :
    (parse toolParser (prog :: args)).2.errors = acts.filterMap (Act.fault toolParser.options) ∧
      (parse toolParser (prog :: args)).1 = decide ((parse toolParser (prog :: args)).2.errors.length = 0) ∧
      usage (parse toolParser (prog :: args)).2 = usage (started toolParser prog) := by
  obtain ⟨names, _, unmet, errors, verdict, text⟩ := parse_faults toolParser_unambiguous reads prog
  have complete : names = [] := List.eq_nil_iff_forall_not_mem.mpr fun name among =>
    toolParser_met acts name ((unmet name).mp among)
  rw [complete, List.map_nil, List.append_nil] at errors
  exact ⟨errors, verdict, text⟩

theorem exist_help (prog : List Char) (reads : Reads toolParser.options args acts) :
    (parse toolParser (prog :: args)).2.exist "help".toList = decide (.set "help".toList ∈ acts) := by
  have found : toolParser.options["help".toList]? =
      some ⟨"help".toList, '?', "print this message".toList, .withoutValue false⟩ :=
    toolParser_option.mpr ⟨by simp [toolOptions], rfl⟩
  exact exist_flag prog reads found

theorem main_answers (reads : Reads toolParser.options args acts) (quiet : .set "help".toList ∉ acts)
    (fine : acts.filterMap (Act.fault toolParser.options) = []) :
    main fs (prog :: args) = MonadExcept.ofExcept (deviceList fs) >>= fun devTree => answer fs devTree (asked acts) := by
  obtain ⟨errors, verdict, _⟩ := tool_faults reads prog
  have unasked : ¬ (parse toolParser (prog :: args)).2.exist "help".toList = true := by
    rw [exist_help prog reads, decide_eq_true_iff]
    exact quiet
  have passes : parseCheck (withFirst 5) (prog :: args) = .ok (.passes (parse toolParser (prog :: args)).2) := by
    rw [parseCheck_helped withHelp_first, verdict, errors, fine,
      show decide (([] : List (List Char)).length = 0) = true from rfl, check_passes _ unasked]
  rw [main_passes passes]
  exact bind_congr fun devTree => handle_asked reads

/-- The tool answers a command line by what the arguments ask for: whatever is wrong with them, it has
read all devices before it says so. -/
theorem main_replies (reads : Reads toolParser.options args acts) : main fs (prog :: args) = reply fs prog acts := by
  obtain ⟨errors, verdict, text⟩ := tool_faults reads prog
  unfold reply
  by_cases help : .set "help".toList ∈ acts
  · have there : (parse toolParser (prog :: args)).2.exist "help".toList = true := by
      rw [exist_help prog reads, decide_eq_true_iff]
      exact help
    simp only [if_pos help]
    apply main_leaves
    rw [parseCheck_helped withHelp_first, check_helps _ there, text]
  · simp only [if_neg help]
    have quiet : ¬ (parse toolParser (prog :: args)).2.exist "help".toList = true := by
      rw [exist_help prog reads, decide_eq_true_iff]
      exact help
    cases faults : acts.filterMap (Act.fault toolParser.options) with
    | nil => exact main_answers reads help faults
    | cons error more =>
      have more_than_one : ¬ (prog :: args).length = 1 := by
        intro alone
        obtain rfl := List.length_eq_zero_iff.mp (Nat.succ.inj alone)
        cases reads
        exact nomatch faults
      have wrong := errors.trans faults
      dsimp only
      apply main_leaves
      rw [parseCheck_helped withHelp_first, verdict, wrong, show decide ((error :: more).length = 0) = false from rfl,
        check_refuses _ quiet wrong, if_neg more_than_one, text]

/-! What is written. -/

/-- The code writes a text and goes on. -/
def Writes (act : Tool Unit) (text : List Char) : Prop :=
  ∀ o : Output, act.run.run o = (.ok (), { o with out := o.out ++ text })

section
variable {act next : Tool Unit} {text later : List Char}

theorem writes_nothing : Writes (pure ()) [] := by
  intro o
  show (Except.ok (), o) = (Except.ok (), { o with out := o.out ++ [] })
  rw [List.append_nil]

theorem writes_print (text : List Char) : Writes (print text) text := fun _ => rfl

/-- Code behind code that writes. -/
theorem Writes.run {α : Type} (writes : Writes act text) (rest : Tool α) (o : Output) :
    (do act; rest : Tool α).run.run o = rest.run.run { o with out := o.out ++ text } := by
  rw [ExceptT.run_bind, StateT.run_bind, writes o]
  rfl

theorem Writes.bind (writes : Writes act text) (more : Writes next later) :
    Writes (do act; next) (text ++ later) := by
  intro o
  rw [writes.run, more]
  simp only [List.append_assoc]

theorem writes_onlyIf (wanted : Bool) (writes : Writes act text) :
    Writes (onlyIf wanted act) (if wanted then text else []) := by
  unfold onlyIf
  split_ifs
  · exact writes
  · exact writes_nothing

theorem writes_forM {devTree : List Device} {each : Device → Tool Unit} {line : Device → List Char}
    (writes : ∀ dev, Writes (each dev) (line dev)) : Writes (devTree.forM each) (devTree.flatMap line) := by
  induction devTree with
  | nil => exact writes_nothing
  | cons dev devTree ih => exact (writes dev).bind ih

end

/-- The lines for one kind of numbers. -/
def idLines (kind : List Char) (id : Board → Nat) (boards : List Board) : List Char :=
  boards.flatMap fun b => "Path:".toList ++ b.path ++ ": ".toList ++ kind ++ " id: ".toList ++
    Nat.toDigits 10 (id b) ++ ['\n']

/-- The text for the device of that name. -/
def deviceText (boards : List Board) (name : List Char) : List Char :=
  match boards.find? fun b => b.name == name with
  | none => "failed\n".toList
  | some b =>
      "success\n".toList ++ ("The PCI device ".toList ++ name ++ " has ".toList ++ Nat.toDigits 10 b.amount ++
        " regions.\n".toList ++ ("success\n".toList ++ "Path: ".toList ++ name ++ " : \n".toList ++
          byteDump b.config ++ regionText b.config b.amount))

section
variable {boards : List Board}

theorem showIds_writes (boards : List Board) (kind : List Char) {id : Device → BitVec 32} {number : Board → Nat}
    (same : ∀ b, (id b.read).toNat = number b) :
    Writes (showIds kind id (boards.map Board.read)) (idLines kind number boards) := by
  have lines : Writes (showIds kind id (boards.map Board.read)) ((boards.map Board.read).flatMap fun dev =>
      "Path:".toList ++ dev.dev.filePath ++ ": ".toList ++ kind ++ " id: ".toList ++
        Nat.toDigits 10 (id dev).toNat ++ ['\n']) := writes_forM fun dev => writes_print _
  rw [List.flatMap_map] at lines
  have texts : (fun b : Board => "Path:".toList ++ b.read.dev.filePath ++ ": ".toList ++ kind ++ " id: ".toList ++
      Nat.toDigits 10 (id b.read).toNat ++ ['\n']) = fun b => "Path:".toList ++ b.path ++ ": ".toList ++ kind ++
        " id: ".toList ++ Nat.toDigits 10 (number b) ++ ['\n'] := by
    funext b
    rw [same]
    rfl
  rwa [texts] at lines

theorem getPciDevice_boards (boards : List Board) (name : List Char) :
    getPciDevice ((boards.map Board.read).map Device.dev) name =
      (boards.find? fun b => b.name == name).elim ([], none) fun b =>
        ("success\n".toList, some ⟨b.path, b.config⟩) := by
  have named : ((fun dev : PciDevice => dev.pciName == name) ∘ (Device.dev ∘ Board.read)) = fun b => b.name == name := by
    funext b
    rfl
  rw [List.map_map, getPciDevice, List.find?_map, named]
  cases boards.find? fun b => b.name == name with
  | none => rfl
  | some b => rfl

variable {name : List Char} {b : Board}

theorem showRegions_writes (serves : Serves fs boards) (found : (boards.find? fun b => b.name == name) = some b)
    (enough : 16 + 4 * b.amount ≤ b.config.length) (short : b.config.length < 2147483647) :
    Writes (showRegions fs name b.amount) ("success\n".toList ++ "Path: ".toList ++ name ++ " : \n".toList ++
      byteDump b.config ++ regionText b.config b.amount) := by
  have listed : readRegion ((boards.map Board.read).map Device.dev) name b.amount =
      some ("success\n".toList ++ "Path: ".toList ++ name ++ " : \n".toList ++
        byteDump b.config ++ regionText b.config b.amount) := by
    rw [readRegion, getPciDevice_boards, found]
    show (listRegions b.config b.amount).bind _ = _
    rw [listRegions_text short enough]
    rfl
  unfold showRegions
  rw [deviceList_serves serves]
  show Writes (match readRegion ((boards.map Board.read).map Device.dev) name b.amount with
    | none => throw .undefined | some text => print text) _
  rw [listed]
  exact writes_print _

/-- Devices whose registers are all in the config space, and whose dump has an end. -/
def Listable (boards : List Board) (name : List Char) : Prop :=
  ∀ b ∈ boards, b.name = name → 16 + 4 * b.amount ≤ b.config.length ∧ b.config.length < 2147483647

theorem showDevice_writes (serves : Serves fs boards) (listable : Listable boards name) :
    Writes (showDevice fs (boards.map Board.read) name) (deviceText boards name) := by
  unfold showDevice deviceText
  rw [getPciDevice_boards]
  cases found : boards.find? fun b => b.name == name with
  | none => exact (writes_print []).bind (writes_print _)
  | some b =>
    have among : b ∈ boards := List.mem_of_find?_eq_some found
    have named : b.name = name := by simpa using List.find?_some found
    obtain ⟨enough, short⟩ := listable b among named
    have amount : getPciDeviceRegionAmount fs.exist name = some (b.amount : Int) := named ▸ regionAmount_serves serves among
    have header : Writes (onlyIf (0 ≤ (b.amount : Int)) (print ("The PCI device ".toList ++ name ++ " has ".toList ++
        decimal b.amount ++ " regions.\n".toList))) ("The PCI device ".toList ++ name ++ " has ".toList ++
          Nat.toDigits 10 b.amount ++ " regions.\n".toList) := by
      rw [decide_eq_true (Int.natCast_nonneg b.amount)]
      exact writes_print _
    apply (writes_print "success\n".toList).bind
    dsimp only
    rw [amount]
    exact header.bind (showRegions_writes serves found enough short)

/-- The text of the answer in front of the tree or the device. -/
def listings (boards : List Board) (asked : Asked) : List Char :=
  (if asked.device then idLines "device".toList (·.device.toNat) boards else []) ++
    ((if asked.vendor then idLines "vendor".toList (·.vendor.toNat) boards else []) ++
      (if asked.classId then idLines "class".toList (·.classCode.toNat) boards else []))

theorem showTree_text (serves : Serves fs boards) (o : Output) : (showTree fs).run.run o =
    (.error .undefined, { o with out := o.out ++ printPciTree ((boards.map Board.read).map Device.dev) }) := by
  unfold showTree
  rw [deviceList_serves serves]
  rfl

theorem setWidth_toNat {w : Nat} (fits : w ≤ 32) (v : BitVec w) : (v.zeroExtend 32).toNat = v.toNat := by
  have below : v.toNat < 2 ^ 32 := Nat.lt_of_lt_of_le v.isLt (Nat.pow_le_pow_right (by decide) fits)
  exact (BitVec.toNat_setWidth 32 v).trans (Nat.mod_eq_of_lt below)

/-- Whether the tree is asked for decides how the answer ends: `print_pci_tree` comes to its end
without a string, and what the program then does is not defined. -/
theorem answer_text (serves : Serves fs boards) (wanted : Asked)
    (listable : ∀ name, wanted.id = some name → Listable boards name) :
    (answer fs (boards.map Board.read) wanted).run.run {} =
      if wanted.tree then
        (.error .undefined, { out := listings boards wanted ++ printPciTree ((boards.map Board.read).map Device.dev) })
      else (.ok 0, { out := listings boards wanted ++ wanted.id.elim [] (deviceText boards) }) := by
  have ids (b : Board) : b.read.deviceId.toNat = b.device.toNat ∧ b.read.vendorId.toNat = b.vendor.toNat ∧
      b.read.classId.toNat = b.classCode.toNat :=
    ⟨setWidth_toNat (by decide) b.device, setWidth_toNat (by decide) b.vendor, setWidth_toNat (by decide) b.classCode⟩
  have device := writes_onlyIf wanted.device (showIds_writes boards "device".toList fun b => (ids b).1)
  have vendor := writes_onlyIf wanted.vendor (showIds_writes boards "vendor".toList fun b => (ids b).2.1)
  have classId := writes_onlyIf wanted.classId (showIds_writes boards "class".toList fun b => (ids b).2.2)
  have front (first second third : List Char) : [] ++ first ++ second ++ third = first ++ (second ++ third) :=
    List.append_assoc first second third
  unfold answer
  rw [device.run, vendor.run, classId.run]
  dsimp only
  rw [front]
  change StateT.run _ (Output.mk (listings boards wanted) []) = _
  cases wanted.tree with
  | true =>
    rw [if_pos rfl, ExceptT.run_bind, StateT.run_bind]
    have stops : (onlyIf true (showTree fs)).run.run { out := listings boards wanted } = _ := showTree_text serves _
    rw [stops]
    rfl
  | false =>
    rw [if_neg Bool.false_ne_true]
    have passed : Writes (onlyIf false (showTree fs)) [] := writes_nothing
    rw [passed.run]
    cases named : wanted.id with
    | none => rfl
    | some name =>
      show (do showDevice fs (boards.map Board.read) name; pure 0 : Tool Int).run.run _ = _
      rw [(showDevice_writes serves (listable name named)).run]
      dsimp only
      rw [List.append_nil]
      rfl

end

/-- From the files of the boards and the arguments to the text: the numbers of every board in decimal,
in the order of the directory, for each kind that is asked for, and then the tree or the device that
is named last. -/
theorem main_prints {boards : List Board} (serves : Serves fs boards) (reads : Reads toolParser.options args acts)
    (fine : acts.filterMap (Act.fault toolParser.options) = []) (quiet : .set "help".toList ∉ acts)
    (listable : ∀ name, (asked acts).id = some name → Listable boards name) :
    (main fs (prog :: args)).run.run {} =
      if (asked acts).tree then (.error .undefined,
        { out := listings boards (asked acts) ++ printPciTree ((boards.map Board.read).map Device.dev) })
      else (.ok 0, { out := listings boards (asked acts) ++ (asked acts).id.elim [] (deviceText boards) }) := by
  rw [main_answers reads quiet fine, deviceList_serves serves]
  exact answer_text serves (asked acts) listable

def controller : Board where
  name := "0000:00:1f.2".toList
  device := 0x2922
  vendor := 0x8086
  classCode := 0x010601
  config := []
  regions := {0, 1}
  amount := 2

/-- A graphics board with one memory BAR, whose config file is cut off behind its register. -/
def display : Board where
  name := "0000:03:00.0".toList
  device := 0x748f
  vendor := 0x1002
  classCode := 0x030000
  config := [0x02, 0x10, 0x8f, 0x74, 0x07, 0x00, 0x10, 0x00, 0x00, 0x00, 0x00, 0x03, 0x10, 0x00, 0x00, 0x00,
    0x0c, 0x00, 0x00, 0xe0]
  regions := {0}
  amount := 1

theorem twoBoards_serve : Serves (filesOf [controller, display]) [controller, display] :=
  filesOf_serves (by decide : ∀ b ∈ [controller, display], b.name.length = 12) (by decide) (by decide) (by decide)
    (by decide)

/-- All that can be asked for, but for the tree. -/
def everything : List (List Char) :=
  ["--device".toList, "--vendor".toList, "--class".toList, "--id=0000:03:00.0".toList]

def everythingActs : List Act :=
  [.set "device".toList, .set "vendor".toList, .set "class".toList, .setTo "id".toList display.name]

theorem everything_reads : Reads toolParser.options everything everythingActs := by
  refine .long (by decide) (toolParser_option.mpr ⟨.head _, rfl⟩) rfl ?_
  refine .long (by decide) (toolParser_option.mpr ⟨.tail _ (.head _), rfl⟩) rfl ?_
  refine .long (by decide) (toolParser_option.mpr ⟨.tail _ (.tail _ (.head _)), rfl⟩) rfl ?_
  change Reads _ ['-' :: '-' :: ("id".toList ++ '=' :: display.name)] _
  exact .assign (by decide) .done

theorem everything_fine : everythingActs.filterMap (Act.fault toolParser.options) = [] := by
  have device : toolParser.options["device".toList]? = _ := toolParser_option.mpr ⟨.head _, rfl⟩
  have vendor : toolParser.options["vendor".toList]? = _ := toolParser_option.mpr ⟨.tail _ (.head _), rfl⟩
  have classId : toolParser.options["class".toList]? = _ := toolParser_option.mpr ⟨.tail _ (.tail _ (.head _)), rfl⟩
  unfold everythingActs
  rw [List.filterMap_cons, Act.fault, device, List.filterMap_cons, Act.fault, vendor, List.filterMap_cons, Act.fault,
    classId, List.filterMap_cons, Act.fault, toolParser_id]
  rfl

theorem main_replies_device : main (filesOf [controller, display]) ("pcie_enum".toList :: everything) =
    reply (filesOf [controller, display]) "pcie_enum".toList everythingActs := main_replies everything_reads

def everythingLines : List (List Char) := [
  "Path:/sys/bus/pci/devices/0000:00:1f.2: device id: 10530".toList,
  "Path:/sys/bus/pci/devices/0000:03:00.0: device id: 29839".toList,
  "Path:/sys/bus/pci/devices/0000:00:1f.2: vendor id: 32902".toList,
  "Path:/sys/bus/pci/devices/0000:03:00.0: vendor id: 4098".toList,
  "Path:/sys/bus/pci/devices/0000:00:1f.2: class id: 67073".toList,
  "Path:/sys/bus/pci/devices/0000:03:00.0: class id: 196608".toList,
  "success".toList,
  "The PCI device 0000:03:00.0 has 1 regions.".toList,
  "success".toList,
  "Path: 0000:03:00.0 : ".toList,
  "00000010 00010000 10001111 01110100 00000111 00000000 00010000 00000000 ".toList,
  "00000000 00000000 00000000 00000011 00010000 00000000 00000000 00000000 ".toList,
  "00001100 00000000 00000000 11100000 ".toList,
  "region0: 00001100 00000000 00000000 11100000 ".toList]

theorem main_prints_device : (main (filesOf [controller, display]) ("pcie_enum".toList :: everything)).run.run {} =
    (.ok 0, { out := everythingLines.flatMap (· ++ ['\n']) }) := by
  have listable : ∀ name, (asked everythingActs).id = some name → Listable [controller, display] name := by
    intro name last b among same
    obtain rfl : display.name = name := Option.some.inj last
    have apart : ∀ b ∈ [controller, display], b.name = display.name → 16 + 4 * b.amount ≤ b.config.length := by decide
    have short : ∀ b ∈ [controller, display], b.config.length < 2147483647 := by decide
    exact ⟨apart b among same, short b among⟩
  have text : listings [controller, display] (asked everythingActs) ++ deviceText [controller, display] display.name =
      everythingLines.flatMap (· ++ ['\n']) := by decide +kernel
  have run : (main (filesOf [controller, display]) ("pcie_enum".toList :: everything)).run.run {} = _ :=
    main_prints twoBoards_serve everything_reads everything_fine (by decide) listable
  exact run.trans (congrArg (fun text => (Except.ok 0, (⟨text, []⟩ : Output))) text)

end PcieUtil.Enum.Main
