import PcieUtil.Cmdline.Settings

/-! How a command line is read: which arguments belong together, and what each of them asks for.
The loop over the arguments does what they ask for, in their order. -/

namespace PcieUtil.Cmdline.Reading
open Options Parse Settings

variable {T : Types}

/-- The option of that name has the short name `c`. -/
def Short (options : OptionMap T) (c : Char) (name : List Char) : Prop :=
  name ≠ [] ∧ c ≠ '\x00' ∧ ∃ o, options[name]? = some o ∧ o.snam = c

def Unambiguous (options : OptionMap T) : Prop :=
  ∀ (c : Char) (first second : List Char), Short options c first → Short options c second → first = second

/-- A short option that is not the last one of its argument. -/
inductive ReadsShort (options : OptionMap T) : Char → Act → Prop
  | known {c : Char} {name : List Char} (short : Short options c name) : ReadsShort options c (.set name)
  | unknown {c : Char} (unknown : ∀ name, ¬ Short options c name) : ReadsShort options c (.refuse (undefinedShort c))

/-- What the arguments ask for. -/
inductive Reads (options : OptionMap T) : List (List Char) → List Act → Prop
  | done : Reads options [] []
  | assign {name value : List Char} {args : List (List Char)} {acts : List Act} (plain : '=' ∉ name)
      (rest : Reads options args acts) :
      Reads options (('-' :: '-' :: (name ++ '=' :: value)) :: args) (.setTo name value :: acts)
  | undefined {name : List Char} {args : List (List Char)} {acts : List Act} (plain : '=' ∉ name)
      (absent : options[name]? = none) (rest : Reads options args acts) :
      Reads options (('-' :: '-' :: name) :: args) (.refuse (Parser.undefinedOption name) :: acts)
  | long {name : List Char} {o : Opt T} {args : List (List Char)} {acts : List Act} (plain : '=' ∉ name)
      (found : options[name]? = some o) (takes : o.hasValue = false) (rest : Reads options args acts) :
      Reads options (('-' :: '-' :: name) :: args) (.set name :: acts)
  | longValue {name value : List Char} {o : Opt T} {args : List (List Char)} {acts : List Act}
      (plain : '=' ∉ name) (found : options[name]? = some o) (takes : o.hasValue = true)
      (rest : Reads options args acts) :
      Reads options (('-' :: '-' :: name) :: value :: args) (.setTo name value :: acts)
  | longBare {name : List Char} {o : Opt T} (plain : '=' ∉ name) (found : options[name]? = some o)
      (takes : o.hasValue = true) :
      Reads options [('-' :: '-' :: name)] [.refuse (Parser.needsValue name)]
  | dash {args : List (List Char)} {acts : List Act} (rest : Reads options args acts) : Reads options (['-'] :: args) acts
  | short {front name : List Char} {last : Char} {o : Opt T} {before acts : List Act}
      {args : List (List Char)} (single : (front ++ [last]).head? ≠ some '-')
      (others : List.Forall₂ (ReadsShort options) front before) (short : Short options last name)
      (found : options[name]? = some o) (takes : o.hasValue = false) (rest : Reads options args acts) :
      Reads options (('-' :: (front ++ [last])) :: args) (before ++ .set name :: acts)
  | shortValue {front name value : List Char} {last : Char} {o : Opt T} {before acts : List Act}
      {args : List (List Char)} (single : (front ++ [last]).head? ≠ some '-')
      (others : List.Forall₂ (ReadsShort options) front before) (short : Short options last name)
      (found : options[name]? = some o) (takes : o.hasValue = true) (rest : Reads options args acts) :
      Reads options (('-' :: (front ++ [last])) :: value :: args) (before ++ .setTo name value :: acts)
  | shortBare {front name : List Char} {last : Char} {o : Opt T} {before : List Act}
      (single : (front ++ [last]).head? ≠ some '-')
      (others : List.Forall₂ (ReadsShort options) front before) (short : Short options last name)
      (found : options[name]? = some o) (takes : o.hasValue = true) :
      Reads options [('-' :: (front ++ [last]))] (before ++ [.set name])
  | shortUndefined {front : List Char} {last : Char} {before acts : List Act} {args : List (List Char)}
      (single : (front ++ [last]).head? ≠ some '-')
      (others : List.Forall₂ (ReadsShort options) front before) (unknown : ∀ name, ¬ Short options last name)
      (rest : Reads options args acts) :
      Reads options (('-' :: (front ++ [last])) :: args) (before ++ .refuse (undefinedShort last) :: acts)
  | word {text : List Char} {args : List (List Char)} {acts : List Act} (plain : text.head? ≠ some '-')
      (rest : Reads options args acts) : Reads options (text :: args) (.word text :: acts)

variable {options : OptionMap T} {args : List (List Char)}

/-- Whatever the arguments are, they can be read. -/
theorem readsShort (options : OptionMap T) (c : Char) : ∃ act, ReadsShort options c act := by
  by_cases known : ∃ name, Short options c name
  · obtain ⟨name, short⟩ := known
    exact ⟨_, .known short⟩
  · exact ⟨_, .unknown (not_exists.mp known)⟩

theorem readsShorts (options : OptionMap T) (front : List Char) : ∃ before, List.Forall₂ (ReadsShort options) front before := by
  induction front with
  | nil => exact ⟨[], .nil⟩
  | cons c front ih =>
    obtain ⟨before, others⟩ := ih
    obtain ⟨act, first⟩ := readsShort options c
    exact ⟨act :: before, .cons first others⟩

theorem exists_reads_long (body : List Char) (args : List (List Char))
    (tail : ∃ acts, Reads options args acts) (second : ∀ value more, args = value :: more → ∃ acts, Reads options more acts) :
    ∃ acts, Reads options (('-' :: '-' :: body) :: args) acts := by
  obtain ⟨acts, rest⟩ := tail
  by_cases assigned : '=' ∈ body
  · obtain ⟨name, value, rfl, plain⟩ := List.eq_append_cons_of_mem assigned
    exact ⟨_, .assign plain rest⟩
  · cases found : options[body]? with
    | none => exact ⟨_, .undefined assigned found rest⟩
    | some o =>
      cases takes : o.hasValue with
      | false => exact ⟨_, .long assigned found takes rest⟩
      | true =>
        cases args with
        | nil => exact ⟨_, .longBare assigned found takes⟩
        | cons value more =>
          obtain ⟨acts, rest⟩ := second value more rfl
          exact ⟨_, .longValue assigned found takes rest⟩

theorem exists_reads_short (front : List Char) (last : Char) (args : List (List Char))
    (single : (front ++ [last]).head? ≠ some '-') (tail : ∃ acts, Reads options args acts)
    (second : ∀ value more, args = value :: more → ∃ acts, Reads options more acts) :
    ∃ acts, Reads options (('-' :: (front ++ [last])) :: args) acts := by
  obtain ⟨acts, rest⟩ := tail
  obtain ⟨before, others⟩ := readsShorts options front
  by_cases known : ∃ name, Short options last name
  · obtain ⟨name, short⟩ := known
    obtain ⟨o, found, _⟩ := short.2.2
    cases takes : o.hasValue with
    | false => exact ⟨_, .short single others short found takes rest⟩
    | true =>
      cases args with
      | nil => exact ⟨_, .shortBare single others short found takes⟩
      | cons value more =>
        obtain ⟨acts, rest⟩ := second value more rfl
        exact ⟨_, .shortValue single others short found takes rest⟩
  · exact ⟨_, .shortUndefined single others (not_exists.mp known) rest⟩

theorem exists_reads_one (arg : List Char) (args : List (List Char))
    (tail : ∃ acts, Reads options args acts) (second : ∀ value more, args = value :: more → ∃ acts, Reads options more acts) :
    ∃ acts, Reads options (arg :: args) acts := by
  by_cases option : arg.head? = some '-'
  · obtain ⟨body, rfl⟩ := List.head?_eq_some_iff.mp option
    by_cases double : body.head? = some '-'
    · obtain ⟨name, rfl⟩ := List.head?_eq_some_iff.mp double
      exact exists_reads_long name args tail second
    · obtain rfl | ⟨front, last, rfl⟩ := List.eq_nil_or_concat' body
      · obtain ⟨acts, rest⟩ := tail
        exact ⟨acts, .dash rest⟩
      · exact exists_reads_short front last args double tail second
  · obtain ⟨acts, rest⟩ := tail
    exact ⟨_, .word option rest⟩

/-- Whatever the arguments are, they can be read. -/
theorem exists_reads (options : OptionMap T) (args : List (List Char)) : ∃ acts, Reads options args acts := by
  induction args using List.twoStepInduction with
  | nil => exact ⟨[], .done⟩
  | singleton arg =>
    refine exists_reads_one arg [] ⟨[], .done⟩ fun value more two => ?_
    exact nomatch two
  | cons_cons arg value more shorter tail =>
    refine exists_reads_one arg (value :: more) (tail value) fun other rest two => ?_
    obtain ⟨-, rfl⟩ := List.cons.inj two
    exact shorter

/-! The loop. -/

/-- What `lookup` must hold. -/
def Matches (lookup : Lookup) (options : OptionMap T) : Prop :=
  ∀ (c : Char) (name : List Char), lookup[c]? = some name ↔ Short options c name

variable {p : Parser T} {lookup : Lookup} {acts : List Act}

theorem contains_after {name : List Char} :
    (after p acts).options.contains name = (p.options[name]?).isSome := by
  rw [Std.ExtTreeMap.contains_eq_isSome_getElem?, after_options, Option.isSome_map]

theorem contains_absent {name : List Char} (absent : p.options[name]? = none) :
    (after p acts).options.contains name = false := by
  rw [contains_after, absent]
  rfl

theorem contains_found {name : List Char} {o : Opt T} (found : p.options[name]? = some o) :
    (after p acts).options.contains name = true := by
  rw [contains_after, found]
  rfl

theorem takes_after {o : Opt T} {name : List Char} {takes : Bool} (found : p.options[name]? = some o)
    (known : o.hasValue = takes) : hasValue (after p acts) name = takes := by
  unfold hasValue
  rw [after_options, found]
  exact (sameOption_settled acts name o).hasValue.trans known

theorem shortOption_after {c : Char} {act : Act} (agree : Matches lookup p.options) (reads : ReadsShort p.options c act) :
    shortOption lookup (after p acts) c = after p (acts ++ [act]) := by
  unfold shortOption
  cases reads with
  | known short =>
    rw [(agree c _).mpr short]
    exact (if_neg short.1).trans (apply_set _)
  | unknown unknown =>
    cases there : lookup[c]? with
    | none => exact apply_refuse _
    | some name => exact absurd ((agree c name).mp there) (unknown name)

theorem shortOptions_after {front : List Char} {before : List Act} (agree : Matches lookup p.options)
    (others : List.Forall₂ (ReadsShort p.options) front before) (last : Char) :
    ∀ first more, front ++ [last] = first :: more →
      shortOptions lookup (after p acts) first more = (after p (acts ++ before), last) := by
  induction others generalizing acts with
  | nil =>
    rintro first more whole
    obtain ⟨rfl, rfl⟩ := List.cons.inj whole
    rw [List.append_nil]
    rfl
  | cons reads others ih =>
    rintro first more whole
    obtain ⟨rfl, rfl⟩ := List.cons.inj whole
    obtain ⟨second, more, rest⟩ := List.exists_cons_of_ne_nil
      (List.append_ne_nil_of_right_ne_nil _ (List.cons_ne_nil last []))
    change shortOptions lookup (after p acts) _ (_ ++ [last]) = _
    rw [rest]
    unfold shortOptions
    rw [shortOption_after agree reads, ih second more rest, List.append_assoc, List.singleton_append]

/-- A turn of the loop on an option with a long name that is the last argument, or not. -/
theorem parseArgs_last (body : List Char) :
    parseArgs lookup p ['-' :: '-' :: body] =
      if '=' ∈ body then p.setOptionTo (body.takeWhile (· ≠ '=')) (body.dropWhile (· ≠ '=')).tail
      else if ¬ p.options.contains body then p.pushError (Parser.undefinedOption body)
      else if hasValue p body then p.pushError (Parser.needsValue body)
      else p.setOption body := rfl

theorem parseArgs_next (body value : List Char) :
    parseArgs lookup p (('-' :: '-' :: body) :: value :: args) =
      if '=' ∈ body then
        parseArgs lookup (p.setOptionTo (body.takeWhile (· ≠ '=')) (body.dropWhile (· ≠ '=')).tail) (value :: args)
      else if ¬ p.options.contains body then
        parseArgs lookup (p.pushError (Parser.undefinedOption body)) (value :: args)
      else if hasValue p body then parseArgs lookup (p.setOptionTo body value) args
      else parseArgs lookup (p.setOption body) (value :: args) := rfl

theorem parseArgs_assign {name value : List Char} (plain : '=' ∉ name) :
    parseArgs lookup p (('-' :: '-' :: (name ++ '=' :: value)) :: args) =
      parseArgs lookup (p.setOptionTo name value) args := by
  have assigned : '=' ∈ name ++ '=' :: value := List.mem_append_right _ List.mem_cons_self
  have differs : ∀ c ∈ name, decide (c ≠ '=') = true := fun c among => decide_eq_true fun same => plain (same ▸ among)
  have front : (name ++ '=' :: value).takeWhile (· ≠ '=') = name := by
    rw [List.takeWhile_append_of_pos differs, List.takeWhile_cons_of_neg (by decide), List.append_nil]
  have back : ((name ++ '=' :: value).dropWhile (· ≠ '=')).tail = value := by
    rw [List.dropWhile_append_of_pos differs, List.dropWhile_cons_of_neg (by decide), List.tail_cons]
  cases args with
  | nil =>
    rw [parseArgs_last, if_pos assigned, front, back]
    rfl
  | cons => rw [parseArgs_next, if_pos assigned, front, back]

theorem parseArgs_undefined {name : List Char} (plain : '=' ∉ name) (absent : p.options.contains name = false) :
    parseArgs lookup p (('-' :: '-' :: name) :: args) =
      parseArgs lookup (p.pushError (Parser.undefinedOption name)) args := by
  have missing : ¬ p.options.contains name := Bool.eq_false_iff.mp absent
  cases args with
  | nil =>
    rw [parseArgs_last, if_neg plain, if_pos missing]
    rfl
  | cons => rw [parseArgs_next, if_neg plain, if_pos missing]

theorem parseArgs_long {name : List Char} (plain : '=' ∉ name) (there : p.options.contains name = true)
    (takes : hasValue p name = false) :
    parseArgs lookup p (('-' :: '-' :: name) :: args) = parseArgs lookup (p.setOption name) args := by
  have flag : ¬ hasValue p name := Bool.eq_false_iff.mp takes
  cases args with
  | nil =>
    rw [parseArgs_last, if_neg plain, if_neg (not_not.mpr there), if_neg flag]
    rfl
  | cons => rw [parseArgs_next, if_neg plain, if_neg (not_not.mpr there), if_neg flag]

theorem parseArgs_longValue {name value : List Char} (plain : '=' ∉ name)
    (there : p.options.contains name = true) (takes : hasValue p name = true) :
    parseArgs lookup p (('-' :: '-' :: name) :: value :: args) = parseArgs lookup (p.setOptionTo name value) args := by
  rw [parseArgs_next, if_neg plain, if_neg (not_not.mpr there), if_pos takes]

theorem parseArgs_longBare {name : List Char} (plain : '=' ∉ name) (there : p.options.contains name = true)
    (takes : hasValue p name = true) :
    parseArgs lookup p ['-' :: '-' :: name] = p.pushError (Parser.needsValue name) := by
  rw [parseArgs_last, if_neg plain, if_neg (not_not.mpr there), if_pos takes]

theorem parseArgs_word {text : List Char} (plain : text.head? ≠ some '-') :
    parseArgs lookup p (text :: args) = parseArgs lookup { p with others := p.others ++ [text] } args := by
  cases text with
  | nil => rfl
  | cons c text =>
    have first : c ≠ '-' := fun same => plain (same ▸ rfl)
    exact parseArgs.eq_6 lookup p (c :: text) args
      (fun _ same => first (List.cons.inj same).1) (fun same => first (List.cons.inj same).1)
      (fun _ _ same => first (List.cons.inj same).1)

/-- A turn of the loop on an argument of short options, when those in front of the last one are set. -/
theorem parseArgs_shorts {p' : Parser T} {c last : Char} {more : List Char} (single : c = '-' → False)
    (front : shortOptions lookup p c more = (p', last)) :
    (lookup[last]? = none → parseArgs lookup p (('-' :: c :: more) :: args) =
      parseArgs lookup (p'.pushError (undefinedShort last)) args) ∧
    ∀ name, lookup[last]? = some name → name ≠ [] →
      (hasValue p' name = false → parseArgs lookup p (('-' :: c :: more) :: args) =
        parseArgs lookup (p'.setOption name) args) ∧
      (hasValue p' name = true → args = [] → parseArgs lookup p (('-' :: c :: more) :: args) = p'.setOption name) ∧
      ∀ value rest, hasValue p' name = true → args = value :: rest →
        parseArgs lookup p (('-' :: c :: more) :: args) = parseArgs lookup (p'.setOptionTo name value) rest := by
  have turn := parseArgs.eq_5 lookup p c more args single
  rw [front] at turn
  dsimp only at turn
  refine ⟨fun absent => ?_, fun name there nonempty => ?_⟩
  · rw [absent] at turn
    exact turn
  · rw [there] at turn
    refine ⟨fun flag => ?_, ?_, ?_⟩
    · exact turn.trans ((if_neg nonempty).trans (if_neg (Bool.eq_false_iff.mp flag)))
    · rintro takes rfl
      exact turn.trans ((if_neg nonempty).trans (if_pos takes))
    · rintro value rest takes rfl
      exact turn.trans ((if_neg nonempty).trans (if_pos takes))

theorem shorts_after {front : List Char} {before : List Act} {last : Char} (agree : Matches lookup p.options)
    (single : (front ++ [last]).head? ≠ some '-') (others : List.Forall₂ (ReadsShort p.options) front before) :
    ∃ c more, front ++ [last] = c :: more ∧ (c = '-' → False) ∧
      shortOptions lookup (after p acts) c more = (after p (acts ++ before), last) := by
  obtain ⟨c, more, whole⟩ := List.exists_cons_of_ne_nil
    (List.append_ne_nil_of_right_ne_nil front (List.cons_ne_nil last []))
  rw [whole, List.head?_cons] at single
  exact ⟨c, more, whole, fun same => single (congrArg some same),
    shortOptions_after agree others last c more whole⟩

/-- The loop does what the arguments ask for. -/
theorem parseArgs_after {more : List Act} (agree : Matches lookup p.options) (reads : Reads p.options args more) :
    parseArgs lookup (after p acts) args = after p (acts ++ more) := by
  induction reads generalizing acts with
  | done =>
    rw [List.append_nil]
    rfl
  | assign plain _ ih => rw [parseArgs_assign plain, apply_setTo, ih, List.append_assoc, List.singleton_append]
  | undefined plain absent _ ih =>
    rw [parseArgs_undefined plain (contains_absent absent), apply_refuse, ih, List.append_assoc,
      List.singleton_append]
  | long plain found takes _ ih =>
    rw [parseArgs_long plain (contains_found found) (takes_after found takes), apply_set, ih, List.append_assoc,
      List.singleton_append]
  | longValue plain found takes _ ih =>
    rw [parseArgs_longValue plain (contains_found found) (takes_after found takes), apply_setTo, ih,
      List.append_assoc, List.singleton_append]
  | longBare plain found takes =>
    rw [parseArgs_longBare plain (contains_found found) (takes_after found takes), apply_refuse]
  | dash _ ih => exact ih
  | short single others short found takes _ ih =>
    obtain ⟨c, more, whole, single, front⟩ := shorts_after agree single others
    have known := (agree _ _).mpr short
    rw [whole, ((parseArgs_shorts single front).2 _ known short.1).1 (takes_after found takes), apply_set, ih]
    rw [List.append_assoc, List.append_assoc, List.singleton_append]
  | shortValue single others short found takes _ ih =>
    obtain ⟨c, more, whole, single, front⟩ := shorts_after agree single others
    have known := (agree _ _).mpr short
    rw [whole, ((parseArgs_shorts single front).2 _ known short.1).2.2 _ _ (takes_after found takes) rfl]
    rw [apply_setTo, ih, List.append_assoc, List.append_assoc, List.singleton_append]
  | shortBare single others short found takes =>
    obtain ⟨c, more, whole, single, front⟩ := shorts_after agree single others
    have known := (agree _ _).mpr short
    rw [whole, ((parseArgs_shorts single front).2 _ known short.1).2.1 (takes_after found takes) rfl, apply_set]
    rw [List.append_assoc]
  | shortUndefined single others unknown _ ih =>
    obtain ⟨c, more, whole, single, front⟩ := shorts_after agree single others
    have absent : lookup[_]? = none := Option.eq_none_iff_forall_ne_some.mpr fun name there =>
      unknown name ((agree _ name).mp there)
    rw [whole, (parseArgs_shorts single front).1 absent, apply_refuse, ih]
    rw [List.append_assoc, List.append_assoc, List.singleton_append]
  | word plain _ ih => rw [parseArgs_word plain, apply_word, ih, List.append_assoc, List.singleton_append]

end PcieUtil.Cmdline.Reading
