import PcieUtil.Cmdline.Parse

/-! What the arguments of a command line ask of a parser, one after the other, and the parser that
they leave behind. -/

namespace PcieUtil.Cmdline.Settings
open Options

variable {T : Types}

abbrev OptionMap (T : Types) := Std.ExtTreeMap (List Char) (Opt T)

/-- An option to be set, without a value or to one, a word to be kept, an argument to be refused. -/
inductive Act where
  | set (name : List Char)
  | setTo (name value : List Char)
  | word (text : List Char)
  | refuse (error : List Char)
  deriving DecidableEq

namespace Act

/-- What the act makes of the option of that name, if it changes it. -/
def gives (name : List Char) (o : Opt T) : Act → Option (Opt T)
  | .set other => if other = name then o.set else none
  | .setTo other value => if other = name then o.setTo value else none
  | .word _ => none
  | .refuse _ => none

/-- What is wrong with the act. -/
def fault (options : OptionMap T) : Act → Option (List Char)
  | .set name =>
      match options[name]? with
      | none => some (Parser.undefinedOption name)
      | some o => if o.set.isNone then some (Parser.needsValue name) else none
  | .setTo name value =>
      match options[name]? with
      | none => some (Parser.undefinedOption name)
      | some o => if (o.setTo value).isNone then some (Parser.invalidValue name value) else none
  | .word _ => none
  | .refuse error => some error

def kept : Act → Option (List Char)
  | .set _ => none
  | .setTo _ _ => none
  | .word text => some text
  | .refuse _ => none

/-- The value that the act has for an option of that name. -/
def reads (name : List Char) (v : WithValue T) : Act → Option (T.El v.tag)
  | .set _ => none
  | .setTo other value => if other = name then v.reader value else none
  | .word _ => none
  | .refuse _ => none

/-- The act sets the option of that name. -/
def Sets (options : OptionMap T) (name : List Char) (act : Act) : Prop :=
  ∃ o, options[name]? = some o ∧ (act.gives name o).isSome = true

end Act

/-- The last act that changes an option decides on it. -/
def settled (acts : List Act) (name : List Char) (o : Opt T) : Opt T :=
  (acts.filterMap (Act.gives name o)).getLastD o

/-- The parser that the acts leave behind. -/
def after (p : Parser T) (acts : List Act) : Parser T :=
  { p with
    options := p.options.map (settled acts)
    others := p.others ++ acts.filterMap Act.kept
    errors := p.errors ++ acts.filterMap (Act.fault p.options) }

variable {p : Parser T} {o o' : Opt T} {act : Act} {acts : List Act} {name value : List Char}

/-! An option keeps everything but what it was set to, and setting it again forgets that. -/

structure SameOption (o o' : Opt T) : Prop where
  nam : o'.nam = o.nam
  snam : o'.snam = o.snam
  desc : o'.desc = o.desc
  hasValue : o'.hasValue = o.hasValue
  must : o'.must = o.must
  shortDescription : o'.shortDescription = o.shortDescription
  set : o'.set = o.set
  setTo : ∀ value, o'.setTo value = o.setTo value

theorem sameOption_refl (o : Opt T) : SameOption o o := ⟨rfl, rfl, rfl, rfl, rfl, rfl, rfl, fun _ => rfl⟩

theorem sameOption_set (set : o.set = some o') : SameOption o o' ∧ o'.hasSet = true := by
  obtain ⟨nam, snam, desc, kind⟩ := o
  cases kind with
  | withoutValue has =>
    cases Option.some.inj set
    exact ⟨⟨rfl, rfl, rfl, rfl, rfl, rfl, rfl, fun _ => rfl⟩, rfl⟩
  | withValue v => exact nomatch set

theorem sameOption_setTo (setTo : o.setTo value = some o') : SameOption o o' ∧ o'.hasSet = true := by
  obtain ⟨nam, snam, desc, kind⟩ := o
  cases kind with
  | withoutValue has => exact nomatch setTo
  | withValue v =>
    cases read : v.reader value with
    | none =>
      simp only [Opt.setTo, read] at setTo
      exact nomatch setTo
    | some actual =>
      simp only [Opt.setTo, read] at setTo
      cases Option.some.inj setTo
      have again (other : List Char) : Opt.setTo (T := T) ⟨nam, snam, desc, .withValue { v with
          has := true, actual := actual }⟩ other = Opt.setTo ⟨nam, snam, desc, .withValue v⟩ other := by
        simp only [Opt.setTo]
        cases v.reader other with
        | none => rfl
        | some _ => rfl
      exact ⟨⟨rfl, rfl, rfl, rfl, rfl, rfl, rfl, again⟩, rfl⟩

theorem sameOption_gives (gives : act.gives name o = some o') : SameOption o o' ∧ o'.hasSet = true := by
  cases act with
  | set other =>
    dsimp only [Act.gives] at gives
    split_ifs at gives
    exact sameOption_set gives
  | setTo other value =>
    dsimp only [Act.gives] at gives
    split_ifs at gives
    exact sameOption_setTo gives
  | word => exact nomatch gives
  | refuse => exact nomatch gives

theorem settled_cases (acts : List Act) (name : List Char) (o : Opt T) :
    (settled acts name o = o ∧ ∀ act ∈ acts, act.gives name o = none) ∨
      ∃ act ∈ acts, act.gives name o = some (settled acts name o) := by
  unfold settled
  rw [List.getLastD_eq_getLast?]
  cases last : (acts.filterMap (Act.gives name o)).getLast? with
  | none => exact .inl ⟨rfl, List.filterMap_eq_nil_iff.mp (List.getLast?_eq_none_iff.mp last)⟩
  | some o' =>
    obtain ⟨act, among, gives⟩ := List.mem_filterMap.mp (List.mem_of_getLast? last)
    exact .inr ⟨act, among, gives⟩

theorem sameOption_settled (acts : List Act) (name : List Char) (o : Opt T) :
    SameOption o (settled acts name o) := by
  obtain ⟨same, -⟩ | ⟨act, _, gives⟩ := settled_cases acts name o
  · rw [same]
    exact sameOption_refl o
  · exact (sameOption_gives gives).1

theorem settled_concat (acts : List Act) (act : Act) (name : List Char) (o : Opt T) :
    settled (acts ++ [act]) name o = (act.gives name o).getD (settled acts name o) := by
  unfold settled
  rw [List.filterMap_append, List.filterMap_cons, List.filterMap_nil]
  cases act.gives name o with
  | none => rw [List.append_nil, Option.getD_none]
  | some o' => rw [List.getLastD_concat, Option.getD_some]

/-! One act after the others. -/

theorem after_options (name : List Char) :
    (after p acts).options[name]? = (p.options[name]?).map (settled acts name) := by
  unfold after
  rw [Std.ExtTreeMap.getElem?_map]

/-- The options that an act leaves as they are. -/
theorem map_unchanged (unchanged : ∀ name o, p.options[name]? = some o → act.gives name o = none) :
    p.options.map (settled (acts ++ [act])) = p.options.map (settled acts) := by
  apply Std.ExtTreeMap.ext_getElem?
  intro name
  rw [Std.ExtTreeMap.getElem?_map, Std.ExtTreeMap.getElem?_map]
  cases found : p.options[name]? with
  | none => rfl
  | some o => rw [Option.map_some, Option.map_some, settled_concat, unchanged name o found, Option.getD_none]

theorem map_changed (found : p.options[name]? = some o) (gives : act.gives name o = some o')
    (elsewhere : ∀ (other : List Char) (o : Opt T), other ≠ name → act.gives other o = none) :
    (p.options.map (settled acts)).insert name o' = p.options.map (settled (acts ++ [act])) := by
  apply Std.ExtTreeMap.ext_getElem?
  intro other
  rw [Std.ExtTreeMap.getElem?_insert, Std.ExtTreeMap.getElem?_map, Std.ExtTreeMap.getElem?_map]
  split_ifs with same
  · obtain rfl := Std.LawfulEqCmp.eq_of_compare same
    rw [found, Option.map_some, settled_concat, gives, Option.getD_some]
  · have apart : other ≠ name := fun eq => same (eq ▸ Std.ReflCmp.compare_self)
    cases p.options[other]? with
    | none => rfl
    | some o => rw [Option.map_some, Option.map_some, settled_concat, elsewhere other o apart, Option.getD_none]

theorem gives_elsewhere_set (other : List Char) (o : Opt T) (apart : other ≠ name) :
    (Act.set name).gives other o = none := if_neg apart.symm

theorem gives_elsewhere_setTo (other : List Char) (o : Opt T) (apart : other ≠ name) :
    (Act.setTo name value).gives other o = none := if_neg apart.symm

/-- An act that is at fault leaves the options as they are. -/
theorem gives_fault {error : List Char} (fault : act.fault p.options = some error) (other : List Char) (o : Opt T)
    (found : p.options[other]? = some o) : act.gives other o = none := by
  cases act with
  | set name =>
    by_cases same : other = name
    · subst same
      simp only [Act.fault, found] at fault
      split_ifs at fault with refused
      exact (if_pos rfl).trans (Option.isNone_iff_eq_none.mp refused)
    · exact gives_elsewhere_set other o same
  | setTo name value =>
    by_cases same : other = name
    · subst same
      simp only [Act.fault, found] at fault
      split_ifs at fault with refused
      exact (if_pos rfl).trans (Option.isNone_iff_eq_none.mp refused)
    · exact gives_elsewhere_setTo other o same
  | word => rfl
  | refuse => rfl

theorem after_fault {error : List Char} (fault : act.fault p.options = some error) :
    after p (acts ++ [act]) = (after p acts).pushError error := by
  have kept : act.kept = none := by
    cases act with
    | word => exact nomatch fault
    | _ => rfl
  have options : p.options.map (settled (acts ++ [act])) = p.options.map (settled acts) :=
    map_unchanged (gives_fault fault)
  unfold after Parser.pushError
  rw [options]
  simp [kept, fault]

theorem after_changed (faultless : act.fault p.options = none) (kept : act.kept = none)
    (found : p.options[name]? = some o) (gives : act.gives name o = some o')
    (elsewhere : ∀ (other : List Char) (o : Opt T), other ≠ name → act.gives other o = none) :
    after p (acts ++ [act]) = { after p acts with options := (after p acts).options.insert name o' } := by
  have options : (p.options.map (settled acts)).insert name o' = p.options.map (settled (acts ++ [act])) :=
    map_changed found gives elsewhere
  unfold after
  rw [← options]
  simp [kept, faultless]

theorem apply_set (name : List Char) : (after p acts).setOption name = after p (acts ++ [.set name]) := by
  have found : (after p acts).options[name]? = (p.options[name]?).map (settled acts name) := after_options name
  cases there : p.options[name]? with
  | none =>
    have fault : (Act.set name).fault p.options = some (Parser.undefinedOption name) := by
      simp only [Act.fault, there]
    rw [there, Option.map_none] at found
    rw [after_fault fault]
    simp only [Parser.setOption, found]
  | some o =>
    rw [there, Option.map_some] at found
    have same := (sameOption_settled acts name o).set
    cases set : o.set with
    | none =>
      have fault : (Act.set name).fault p.options = some (Parser.needsValue name) := by
        simp only [Act.fault, there, set, Option.isNone_none, if_true]
      rw [after_fault fault]
      simp only [Parser.setOption, found, same, set]
    | some o' =>
      have faultless : (Act.set name).fault p.options = none := by
        simp [Act.fault, there, set]
      rw [after_changed faultless rfl there ((if_pos rfl).trans set) gives_elsewhere_set]
      simp only [Parser.setOption, found, same, set]

theorem apply_setTo (name value : List Char) :
    (after p acts).setOptionTo name value = after p (acts ++ [.setTo name value]) := by
  have found : (after p acts).options[name]? = (p.options[name]?).map (settled acts name) := after_options name
  cases there : p.options[name]? with
  | none =>
    have fault : (Act.setTo name value).fault p.options = some (Parser.undefinedOption name) := by
      simp only [Act.fault, there]
    rw [there, Option.map_none] at found
    rw [after_fault fault]
    simp only [Parser.setOptionTo, found]
  | some o =>
    rw [there, Option.map_some] at found
    have same := (sameOption_settled acts name o).setTo value
    cases set : o.setTo value with
    | none =>
      have fault : (Act.setTo name value).fault p.options = some (Parser.invalidValue name value) := by
        simp only [Act.fault, there, set, Option.isNone_none, if_true]
      rw [after_fault fault]
      simp only [Parser.setOptionTo, found, same, set]
    | some o' =>
      have faultless : (Act.setTo name value).fault p.options = none := by
        simp [Act.fault, there, set]
      rw [after_changed faultless rfl there ((if_pos rfl).trans set) gives_elsewhere_setTo]
      simp only [Parser.setOptionTo, found, same, set]

theorem apply_refuse (error : List Char) : (after p acts).pushError error = after p (acts ++ [.refuse error]) :=
  (after_fault rfl).symm

theorem apply_word (text : List Char) :
    { after p acts with others := (after p acts).others ++ [text] } = after p (acts ++ [.word text]) := by
  have options : p.options.map (settled (acts ++ [.word text])) = p.options.map (settled acts) :=
    map_unchanged fun _ _ _ => rfl
  unfold after
  rw [options]
  simp [Act.kept, Act.fault]

theorem after_nil : after p [] = p := by
  have options : p.options.map (settled []) = p.options := Std.ExtTreeMap.map_id
  unfold after
  rw [options]
  simp

end PcieUtil.Cmdline.Settings
