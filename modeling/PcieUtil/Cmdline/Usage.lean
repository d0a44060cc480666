import Mathlib.Data.List.Forall2
import Mathlib.Data.List.TakeWhile
import PcieUtil.Cmdline.History
import PcieUtil.Lib.Lines

/-! What cmdline.hpp tells its user: the text of `usage`, and how `parse_check` goes on after a
parse. -/

namespace PcieUtil.Cmdline.Usage
open Options Words Parse Settings Reading Verdict History Lib.Lines

variable {T : Types}

/-- What `ordered` points to. -/
def objects (p : Parser T) : List (Opt T) := p.ordered.filterMap (p.options[·]?)

/-- `max_width` -/
def maxWidth (objects : List (Opt T)) : Nat := objects.foldl (fun width o => max width o.nam.length) 0

/-- A round of the last loop, without its line break. -/
def optionLine (maxWidth : Nat) (o : Opt T) : List Char :=
  (if o.snam ≠ '\x00' then "  -".toList ++ [o.snam] ++ ", ".toList else "      ".toList) ++
    "--".toList ++ o.nam ++ List.replicate (maxWidth + 4 - o.nam.length) ' ' ++ o.desc

/-- The first line: the options that must be given. -/
def usageLine (p : Parser T) : List Char :=
  "usage: ".toList ++ p.progName ++ " ".toList ++
    ((objects p).flatMap fun o => if o.must then o.shortDescription ++ " ".toList else []) ++
    "[options] ... ".toList ++ p.ftr

def usage (p : Parser T) : List Char :=
  usageLine p ++ "\n".toList ++ "options:".toList ++ "\n".toList ++
    (objects p).flatMap fun o => optionLine (maxWidth (objects p)) o ++ ['\n']

/-- What `check` does: the program ends with a code and a text on `std::cerr`, or goes on. -/
inductive Checked (T : Types) where
  | exits (code : Nat) (err : List Char)
  | passes (p : Parser T)

def check (argc : Nat) (ok : Bool) (p : Parser T) : Checked T :=
  if (argc = 1 ∧ ¬ ok) ∨ p.exist "help".toList then .exits 0 (usage p)
  else if ¬ ok then .exits 1 (p.error ++ '\n' :: usage p)
  else .passes p

/-- How each `parse_check` begins. -/
def withHelp (p : Parser T) : Except (List Char) (Parser T) :=
  if ¬ p.options.contains "help".toList then p.add "help".toList '?' "print this message".toList else .ok p

def parseCheck (p : Parser T) (argv : List (List Char)) : Except (List Char) (Checked T) := do
  let p ← withHelp p
  let (ok, p) := parse p argv
  return check argv.length ok p

/-- `parse_check` of a vector; an empty one is not defined. -/
def parseCheckVector (p : Parser T) (args : List (List Char)) : Except (List Char) (Option (Checked T)) := do
  let p ← withHelp p
  return (parseVector p args).map fun (ok, p) => check args.length ok p

/-- `parse_check` of a string, with what it writes. -/
def parseCheckString (p : Parser T) (arg : List Char) :
    Except (List Char) (List Char × Option (Checked T)) := do
  let p ← withHelp p
  let (written, parsed) := parseString p arg
  return (written, parsed.map fun (ok, p) => check 0 ok p)

/-- The three forms of parse_check go on alike with the same arguments, but for a single argument in a
string: a string gives check no count, so that nothing but its help ends the program with status 0. -/
theorem parseCheck_forms (p : Parser T) {args : List (List Char)} (nonempty : args ≠ [])
    (unbroken : ∀ arg ∈ args, '\x00' ∉ arg) :
    parseCheckVector p args = (parseCheck p args).map some ∧
      ∀ line, split line = .ok args → args.length ≠ 1 →
        parseCheckString p line = (parseCheck p args).map fun checked => (echo args, some checked) := by
  have same (arg : List Char) (among : arg ∈ args) : cStr arg = id arg := by
    refine List.takeWhile_eq_self_iff.mpr fun c inside => decide_eq_true ?_
    rintro rfl
    exact unbroken arg among inside
  have whole : args.map cStr = args := (List.map_congr_left same).trans (List.map_id args)
  have parsed (q : Parser T) : parseVector q args = some (parse q args) := by
    rw [parseVector, if_neg nonempty, whole]
  unfold parseCheckVector parseCheckString parseCheck
  cases withHelp p with
  | error error => exact ⟨rfl, fun _ _ _ => rfl⟩
  | ok q =>
    refine ⟨?_, fun line cut several => ?_⟩
    · change Except.ok ((parseVector q args).map _) = _
      rw [parsed]
      rfl
    · have uncounted (ok : Bool) (q : Parser T) : check 0 ok q = check args.length ok q := by
        simp [check, several]
      have written : parseString q line = (echo args, some (parse q args)) := by
        rw [parseString, cut, ← parsed]
      change Except.ok ((parseString q line).1, (parseString q line).2.map _) = _
      rw [written]
      exact congrArg (fun checked => Except.ok (echo args, some checked)) (uncounted _ _)

/-! The text as lines. -/

theorem le_maxWidth (options : List (Opt T)) (start : Nat) :
    start ≤ options.foldl (fun width o => max width o.nam.length) start ∧
      ∀ o ∈ options, o.nam.length ≤ options.foldl (fun width o => max width o.nam.length) start := by
  induction options generalizing start with
  | nil => exact ⟨Nat.le_refl start, fun o among => absurd among List.not_mem_nil⟩
  | cons first options ih =>
    obtain ⟨above, each⟩ := ih (max start first.nam.length)
    refine ⟨Nat.le_trans (Nat.le_max_left _ _) above, fun o among => ?_⟩
    cases among with
    | head => exact Nat.le_trans (Nat.le_max_right _ _) above
    | tail _ later => exact each o later

/-- A line with the description of its option in a given column, behind the name and at least four
blanks. -/
structure Column (column : Nat) (o : Opt T) (line : List Char) : Prop where
  name : (line.drop 8).take o.nam.length = o.nam
  blanks : ∃ count, 4 ≤ count ∧ 8 + o.nam.length + count = column ∧
    (line.take column).drop (8 + o.nam.length) = List.replicate count ' '
  description : line.drop column = o.desc

theorem optionLine_column {width : Nat} {o : Opt T} (fits : o.nam.length ≤ width) :
    Column (width + 12) o (optionLine width o) := by
  have front : ∃ start : List Char, start.length = 8 ∧ optionLine width o =
      start ++ (o.nam ++ (List.replicate (width + 4 - o.nam.length) ' ' ++ o.desc)) := by
    unfold optionLine
    split_ifs
    · exact ⟨"  -".toList ++ [o.snam] ++ ", ".toList ++ "--".toList, rfl, by simp only [List.append_assoc]⟩
    · exact ⟨"      ".toList ++ "--".toList, rfl, by simp only [List.append_assoc]⟩
  obtain ⟨start, eight, line⟩ := front
  have whole : (start ++ o.nam).length = 8 + o.nam.length := by rw [List.length_append, eight]
  have padded : (start ++ o.nam ++ List.replicate (width + 4 - o.nam.length) ' ').length = width + 12 := by
    rw [List.length_append, whole, List.length_replicate]
    omega
  have grouped : optionLine width o =
      start ++ o.nam ++ List.replicate (width + 4 - o.nam.length) ' ' ++ o.desc := by
    rw [line]
    simp only [List.append_assoc]
  constructor
  · rw [line, ← eight, List.drop_left, List.take_left]
  · refine ⟨width + 4 - o.nam.length, by omega, by omega, ?_⟩
    rw [grouped, ← padded, List.take_left, ← whole, List.drop_left]
  · rw [grouped, ← padded, List.drop_left]

/-- No text that the usage is made of has a line break. -/
structure Plain (p : Parser T) : Prop where
  progName : '\n' ∉ p.progName
  ftr : '\n' ∉ p.ftr
  options : ∀ o ∈ objects p, '\n' ∉ o.nam ++ o.desc ++ o.shortDescription ++ [o.snam]

theorem usage_split {p : Parser T} (plain : Plain p) :
    lines (usage p) = usageLine p :: "options:".toList :: (objects p).map (optionLine (maxWidth (objects p))) := by
  have closed : usage p = (usageLine p :: "options:".toList ::
      (objects p).map (optionLine (maxWidth (objects p)))).flatMap (· ++ ['\n']) := by
    unfold usage
    rw [List.flatMap_cons, List.flatMap_cons, List.flatMap_map]
    simp only [List.append_assoc]
    rfl
  rw [closed]
  apply lines_closed
  intro line among
  cases among with
  | head =>
    unfold usageLine
    have given : '\n' ∉ (objects p).flatMap fun o => if o.must then o.shortDescription ++ " ".toList else [] := by
      intro found
      obtain ⟨o, listed, found⟩ := List.mem_flatMap.mp found
      have texts := plain.options o listed
      simp only [List.mem_append, not_or] at texts
      split_ifs at found
      · rcases List.mem_append.mp found with there | there
        · exact texts.1.2 there
        · exact absurd there (by decide)
      · exact absurd found List.not_mem_nil
    simp only [List.mem_append, not_or]
    exact ⟨⟨⟨⟨⟨by decide, plain.progName⟩, by decide⟩, given⟩, by decide⟩, plain.ftr⟩
  | tail _ among =>
    cases among with
    | head => decide
    | tail _ among =>
      obtain ⟨o, listed, rfl⟩ := List.mem_map.mp among
      have texts := plain.options o listed
      simp only [List.mem_append, List.mem_singleton, not_or] at texts
      obtain ⟨⟨⟨nam, desc⟩, -⟩, snam⟩ := texts
      have blanks : ∀ count, '\n' ∉ List.replicate count ' ' :=
        fun count found => absurd (List.eq_of_mem_replicate found) (by decide)
      have short : '\n' ∉ (if o.snam ≠ '\x00' then "  -".toList ++ [o.snam] ++ ", ".toList else "      ".toList) := by
        split_ifs
        · simp only [List.mem_append, List.mem_singleton, not_or]
          exact ⟨⟨by decide, snam⟩, by decide⟩
        · decide
      unfold optionLine
      simp only [List.mem_append, not_or]
      exact ⟨⟨⟨⟨short, by decide⟩, nam⟩, blanks _⟩, desc⟩

/-- `error_full` has a line for each error. -/
theorem errorFull_lines {p : Parser T} (unbroken : ∀ error ∈ p.errors, '\n' ∉ error) :
    lines p.errorFull = p.errors := lines_closed unbroken

theorem objects_named {p : Parser T} (sound : Sound p) : (objects p).map (·.nam) = p.ordered := by
  unfold objects
  have each (name : List Char) (among : name ∈ p.ordered) : (p.options[name]?).map (·.nam) = some name := by
    obtain ⟨o, found⟩ := Option.isSome_iff_exists.mp ((sound.listed name).mp among)
    rw [found, Option.map_some, sound.named name o found]
  rw [List.map_filterMap]
  calc
    p.ordered.filterMap (fun name => (p.options[name]?).map (·.nam)) = p.ordered.filterMap some :=
      List.filterMap_congr each
    _ = p.ordered := List.filterMap_some

/-- Whatever has been called on a parser, the usage has a line for each option, in the order in which
they were added and with all descriptions in one column. -/
theorem usage_lines {calls : List (Call T)} {p : Parser T} (run : (machine T).Run (fun _ _ => True) {} calls p)
    (plain : Plain p) :
    ∃ column list, (objects p).map (·.nam) = p.ordered ∧ List.Forall₂ (Column column) (objects p) list ∧
      lines (usage p) = usageLine p :: "options:".toList :: list := by
  refine ⟨maxWidth (objects p) + 12, _, objects_named (sound_run sound_new run), ?_, usage_split plain⟩
  rw [List.forall₂_map_right_iff, List.forall₂_same]
  exact fun o among => optionLine_column ((le_maxWidth (objects p) 0).2 o among)

theorem usage_lines_added : ∃ (column : Nat) (list : List (List Char)),
    (objects threeAdded).map (·.nam) = ["tree".toList, "id".toList] ∧
      List.Forall₂ (Column column) (objects threeAdded) list ∧
      lines (usage threeAdded) = "usage:  [options] ... ".toList :: "options:".toList :: list := by
  have plain : Plain threeAdded := ⟨by decide, by decide, by decide +kernel⟩
  have line : usageLine threeAdded = "usage:  [options] ... ".toList := by decide +kernel
  have names : threeAdded.ordered = ["tree".toList, "id".toList] := by decide +kernel
  obtain ⟨column, list, named, columns, text⟩ := usage_lines threeAdded_run plain
  exact ⟨column, list, named.trans names, columns, line ▸ text⟩

example : lines (usage threeAdded) = ["usage:  [options] ... ".toList, "options:".toList,
    "  -t, --tree    pci tree".toList, "  -i, --id      id of pci device (string [=])".toList] := by decide +kernel

/-! A parse does not change the usage but for the name of the program. -/

section
variable {first second : List (Opt T)}

theorem flatMap_same {f : Opt T → List Char} (same : List.Forall₂ SameOption first second)
    (each : ∀ o o', SameOption o o' → f o' = f o) : second.flatMap f = first.flatMap f := by
  induction same with
  | nil => rfl
  | cons head _ ih => rw [List.flatMap_cons, List.flatMap_cons, ih, each _ _ head]

theorem maxWidth_same (same : List.Forall₂ SameOption first second) : maxWidth second = maxWidth first := by
  have from_start (start : Nat) : second.foldl (fun width o => max width o.nam.length) start =
      first.foldl (fun width o => max width o.nam.length) start := by
    induction same generalizing start with
    | nil => rfl
    | cons head _ ih => rw [List.foldl_cons, List.foldl_cons, head.nam, ih]
  exact from_start 0

theorem objects_after (p : Parser T) (acts : List Act) :
    List.Forall₂ SameOption (objects p) (objects (after p acts)) := by
  change List.Forall₂ SameOption (p.ordered.filterMap (p.options[·]?)) (p.ordered.filterMap ((after p acts).options[·]?))
  induction p.ordered with
  | nil => exact .nil
  | cons name names ih =>
    rw [List.filterMap_cons, List.filterMap_cons, after_options]
    cases p.options[name]? with
    | none => exact ih
    | some o => exact .cons (sameOption_settled acts name o) ih

theorem usage_after (p : Parser T) (acts : List Act) (errors : List (List Char)) :
    usage { after p acts with errors := errors } = usage p := by
  have same := objects_after p acts
  have lines : (objects (after p acts)).flatMap (fun o => optionLine (maxWidth (objects (after p acts))) o ++ ['\n']) =
      (objects p).flatMap fun o => optionLine (maxWidth (objects p)) o ++ ['\n'] := by
    rw [maxWidth_same same]
    apply flatMap_same same
    intro o o' as
    rw [optionLine, optionLine, as.nam, as.snam, as.desc]
  have given : (objects (after p acts)).flatMap (fun o => if o.must then o.shortDescription ++ " ".toList else []) =
      (objects p).flatMap fun o => if o.must then o.shortDescription ++ " ".toList else [] := by
    apply flatMap_same same
    intro o o' as
    rw [as.must, as.shortDescription]
  change usage (after p acts) = usage p
  unfold usage usageLine
  rw [lines, given]
  rfl

end

/-! How the program goes on. -/

section
variable {p : Parser T} {error : List Char} {more : List (List Char)} {ok : Bool}

theorem check_helps (argc : Nat) (there : p.exist "help".toList = true) : check argc ok p = .exits 0 (usage p) :=
  if_pos (.inr there)

theorem check_refuses (argc : Nat) (quiet : ¬ p.exist "help".toList = true) (wrong : p.errors = error :: more) :
    check argc false p = if argc = 1 then .exits 0 (usage p) else .exits 1 (error ++ '\n' :: usage p) := by
  have refused : ¬ false = true := Bool.false_ne_true
  have first : p.error = error := by rw [Parser.error, wrong]; rfl
  unfold check
  by_cases alone : argc = 1
  · rw [if_pos (.inl ⟨alone, refused⟩), if_pos alone]
  · rw [if_neg (not_or.mpr ⟨fun both => alone both.1, quiet⟩), if_pos refused, if_neg alone, first]

theorem check_passes (argc : Nat) (quiet : ¬ p.exist "help".toList = true) : check argc true p = .passes p := by
  have taken : ¬ ¬ true = true := not_not.mpr rfl
  unfold check
  rw [if_neg (not_or.mpr ⟨fun both => taken both.2, quiet⟩), if_neg taken]

end

section
variable {p q : Parser T} {args : List (List Char)} {acts : List Act}

theorem parseCheck_helped (help : withHelp p = .ok q) (argv : List (List Char)) :
    parseCheck p argv = .ok (check argv.length (parse q argv).1 (parse q argv).2) := by
  unfold parseCheck
  rw [help]
  rfl

theorem parse_faults (unambiguous : Unambiguous q.options) (reads : Reads q.options args acts) (prog : List Char) :
    ∃ names : List (List Char), names.Pairwise (compare · · = .lt) ∧ (∀ name, name ∈ names ↔ Unmet q acts name) ∧
      (parse q (prog :: args)).2.errors = acts.filterMap (Act.fault q.options) ++ names.map needOption ∧
      (parse q (prog :: args)).1 = decide ((parse q (prog :: args)).2.errors.length = 0) ∧
      usage (parse q (prog :: args)).2 = usage (started q prog) := by
  obtain ⟨errors, sum, result⟩ := parse_after unambiguous reads prog
  obtain ⟨names, ordered, unmet, absent⟩ := missing_after (started q prog) acts
  rw [result]
  refine ⟨names, ordered, unmet, ?_, rfl, usage_after (started q prog) acts errors⟩
  show errors = _
  rw [sum, absent]
  rfl

end

end PcieUtil.Cmdline.Usage
