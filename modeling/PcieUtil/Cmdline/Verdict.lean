import PcieUtil.Cmdline.Reading

/-! What `parse` makes of a command line: whether it takes it, what it has against it, and what
the options hold afterwards. -/

namespace PcieUtil.Cmdline.Verdict
open Options Parse Settings Reading

variable {T : Types} {p : Parser T} {lookup : Lookup}

/-! The table of the short names. -/

/-- An entry of the table from an option of the map. -/
def Names (entries : List (List Char × Opt T)) (c : Char) (name : List Char) : Prop :=
  name ≠ [] ∧ c ≠ '\x00' ∧ ∃ o, (name, o) ∈ entries ∧ o.snam = c

theorem names_options (c : Char) (name : List Char) : Names p.options.toList c name ↔ Short p.options c name := by
  unfold Names Short
  simp only [Std.ExtTreeMap.mem_toList_iff_getElem?_eq_some]

theorem names_cons {c : Char} {name other : List Char} {o : Opt T} {entries : List (List Char × Opt T)} :
    Names ((other, o) :: entries) c name ↔
      (name = other ∧ name ≠ [] ∧ c ≠ '\x00' ∧ o.snam = c) ∨ Names entries c name := by
  unfold Names
  constructor
  · rintro ⟨nonempty, printable, o', among, initial⟩
    obtain same | below := List.mem_cons.mp among
    · obtain ⟨rfl, rfl⟩ := Prod.mk.inj same
      exact .inl ⟨rfl, nonempty, printable, initial⟩
    · exact .inr ⟨nonempty, printable, o', below, initial⟩
  · rintro (⟨rfl, nonempty, printable, initial⟩ | ⟨nonempty, printable, o', below, initial⟩)
    · exact ⟨nonempty, printable, o, List.mem_cons_self, initial⟩
    · exact ⟨nonempty, printable, o', List.mem_cons_of_mem _ below, initial⟩

/-- One turn of the loop, whose option has a short name or is passed over. -/
theorem buildLookup_cons (name : List Char) (o : Opt T) (entries : List (List Char × Opt T)) (lookup : Lookup) :
    (name ≠ [] ∧ o.snam ≠ '\x00' ∧
      buildLookup ((name, o) :: entries) lookup =
        if lookup.contains o.snam then .error o.snam else buildLookup entries (lookup.insert o.snam name)) ∨
    ((∀ c, ¬ (name ≠ [] ∧ c ≠ '\x00' ∧ o.snam = c)) ∧
      buildLookup ((name, o) :: entries) lookup = buildLookup entries lookup) := by
  rw [buildLookup]
  by_cases empty : name = []
  · refine .inr ⟨fun c named => named.1 empty, ?_⟩
    rw [if_pos (List.length_eq_zero_iff.mpr empty)]
  · rw [if_neg (mt List.length_eq_zero_iff.mp empty)]
    by_cases initial : o.snam = '\x00'
    · refine .inr ⟨fun c named => named.2.1 (named.2.2 ▸ initial), ?_⟩
      rw [if_neg (not_not.mpr initial)]
    · exact .inl ⟨empty, initial, if_pos initial⟩

theorem getElem?_insertNew {c other : Char} {name n : List Char} (fresh : lookup.contains c = false) :
    (lookup.insert c name)[other]? = some n ↔ (other = c ∧ n = name) ∨ lookup[other]? = some n := by
  rw [Std.ExtTreeMap.getElem?_insert]
  split_ifs with same
  · obtain rfl := Std.LawfulEqCmp.eq_of_compare same
    have absent : lookup[c]? = none := by
      rw [← Option.isNone_iff_eq_none, ← Option.not_isSome, ← Std.ExtTreeMap.contains_eq_isSome_getElem?, fresh]
      decide
    rw [absent]
    constructor
    · rintro there
      exact .inl ⟨rfl, (Option.some.inj there).symm⟩
    · rintro (⟨-, rfl⟩ | there)
      · rfl
      · exact nomatch there
  · have apart : other ≠ c := fun eq => same (eq ▸ Std.ReflCmp.compare_self)
    exact ⟨.inr, fun there => there.resolve_left fun both => apart both.1⟩

/-- A short name of the table or of the options that the loop has not come to. -/
def Told (lookup : Lookup) (entries : List (List Char × Opt T)) (c : Char) (name : List Char) : Prop :=
  lookup[c]? = some name ∨ Names entries c name

theorem told_inserted {entries : List (List Char × Opt T)} {o : Opt T} {other : List Char}
    (nonempty : other ≠ []) (printable : o.snam ≠ '\x00') (fresh : lookup.contains o.snam = false)
    (c : Char) (name : List Char) :
    Told (lookup.insert o.snam other) entries c name ↔ Told lookup ((other, o) :: entries) c name := by
  unfold Told
  rw [getElem?_insertNew fresh, names_cons]
  constructor
  · rintro ((⟨rfl, rfl⟩ | there) | below)
    · exact .inr (.inl ⟨rfl, nonempty, printable, rfl⟩)
    · exact .inl there
    · exact .inr (.inr below)
  · rintro (there | ⟨rfl, _, _, rfl⟩ | below)
    · exact .inl (.inr there)
    · exact .inl (.inl ⟨rfl, rfl⟩)
    · exact .inr below

theorem told_passed {entries : List (List Char × Opt T)} {o : Opt T} {other : List Char}
    (passed : ∀ c, ¬ (other ≠ [] ∧ c ≠ '\x00' ∧ o.snam = c)) (c : Char) (name : List Char) :
    Told lookup entries c name ↔ Told lookup ((other, o) :: entries) c name := by
  unfold Told
  rw [names_cons]
  constructor
  · rintro (there | below)
    · exact .inl there
    · exact .inr (.inr below)
  · rintro (there | ⟨rfl, named⟩ | below)
    · exact .inl there
    · exact absurd named (passed c)
    · exact .inr below

/-- Where the loop ends, the table holds every short name. -/
theorem buildLookup_ok {entries : List (List Char × Opt T)} {result : Lookup}
    (ends : buildLookup entries lookup = .ok result) (c : Char) (name : List Char) :
    result[c]? = some name ↔ Told lookup entries c name := by
  induction entries generalizing lookup with
  | nil =>
    obtain rfl := Except.ok.inj ends
    have nothing : ¬ Names ([] : List (List Char × Opt T)) c name := by
      rintro ⟨-, -, o, among, -⟩
      exact absurd among List.not_mem_nil
    exact ⟨.inl, fun there => there.resolve_right nothing⟩
  | cons entry entries ih =>
    obtain ⟨other, o⟩ := entry
    obtain ⟨nonempty, printable, turn⟩ | ⟨passed, turn⟩ := buildLookup_cons other o entries lookup
    · rw [turn] at ends
      split_ifs at ends with taken
      rw [ih ends, told_inserted nonempty printable (Bool.eq_false_iff.mpr taken)]
    · rw [turn] at ends
      rw [ih ends, told_passed passed]

/-- Where it stops, two options have that short name. -/
theorem buildLookup_error {entries : List (List Char × Opt T)} {c : Char}
    (distinct : (entries.map Prod.fst).Nodup)
    (apart : ∀ (c : Char) (name : List Char), lookup[c]? = some name → name ∉ entries.map Prod.fst)
    (stops : buildLookup entries lookup = .error c) :
    ∃ first second, first ≠ second ∧ Told lookup entries c first ∧ Told lookup entries c second := by
  induction entries generalizing lookup with
  | nil => exact nomatch stops
  | cons entry entries ih =>
    obtain ⟨other, o⟩ := entry
    rw [List.map_cons, List.nodup_cons] at distinct
    obtain ⟨nonempty, printable, turn⟩ | ⟨passed, turn⟩ := buildLookup_cons other o entries lookup
    · rw [turn] at stops
      split_ifs at stops with taken
      · obtain rfl := Except.error.inj stops
        rw [Std.ExtTreeMap.contains_eq_isSome_getElem?] at taken
        obtain ⟨name, there⟩ := Option.isSome_iff_exists.mp taken
        refine ⟨name, other, ?_, .inl there, .inr (names_cons.mpr (.inl ⟨rfl, nonempty, printable, rfl⟩))⟩
        rintro rfl
        exact apart _ _ there List.mem_cons_self
      · have fresh := Bool.eq_false_iff.mpr taken
        have apart' (c : Char) (name : List Char) (there : (lookup.insert o.snam other)[c]? = some name) :
            name ∉ entries.map Prod.fst := by
          obtain ⟨-, rfl⟩ | there := (getElem?_insertNew fresh).mp there
          · exact distinct.1
          · exact fun among => apart c name there (List.mem_cons_of_mem _ among)
        obtain ⟨first, second, differ, one, two⟩ := ih distinct.2 apart' stops
        exact ⟨first, second, differ, (told_inserted nonempty printable fresh c first).mp one,
          (told_inserted nonempty printable fresh c second).mp two⟩
    · rw [turn] at stops
      have apart' (c : Char) (name : List Char) (there : lookup[c]? = some name) : name ∉ entries.map Prod.fst :=
        fun among => apart c name there (List.mem_cons_of_mem _ among)
      obtain ⟨first, second, differ, one, two⟩ := ih distinct.2 apart' stops
      exact ⟨first, second, differ, (told_passed passed c first).mp one, (told_passed passed c second).mp two⟩

theorem told_options (c : Char) (name : List Char) : Told ∅ p.options.toList c name ↔ Short p.options c name := by
  unfold Told
  rw [names_options, Std.ExtTreeMap.getElem?_empty]
  exact ⟨fun told => told.resolve_left (Option.some_ne_none _ ·.symm), .inr⟩

/-- The loop takes the options apart from the ambiguous ones. -/
theorem buildLookup_options (p : Parser T) :
    (Unambiguous p.options ∧ ∃ lookup, buildLookup p.options.toList ∅ = .ok lookup ∧ Matches lookup p.options) ∨
      ∃ c first second, first ≠ second ∧ Short p.options c first ∧ Short p.options c second ∧
        buildLookup p.options.toList ∅ = .error c := by
  cases ends : buildLookup p.options.toList ∅ with
  | ok lookup =>
    have agree : Matches lookup p.options := fun c name => (buildLookup_ok ends c name).trans (told_options c name)
    refine .inl ⟨fun c first second one two => ?_, lookup, rfl, agree⟩
    exact Option.some.inj (((agree c first).mpr one).symm.trans ((agree c second).mpr two))
  | error c =>
    have distinct : (p.options.toList.map Prod.fst).Nodup := by
      rw [Std.ExtTreeMap.map_fst_toList_eq_keys]
      exact Std.ExtTreeMap.nodup_keys
    obtain ⟨first, second, differ, one, two⟩ := buildLookup_error distinct
      (fun c name there => absurd there (by simp)) ends
    exact .inr ⟨c, first, second, differ, (told_options c first).mp one, (told_options c second).mp two, rfl⟩

/-! One parse. -/

/-- The parser that the loop over the arguments starts from. -/
def started (p : Parser T) (prog : List Char) : Parser T :=
  { p with errors := [], others := [], progName := if p.progName = [] then prog else p.progName }

/-- A required option that no argument has set, in this parse or in an earlier one. -/
def Unmet (p : Parser T) (acts : List Act) (name : List Char) : Prop :=
  ∃ o, p.options[name]? = some o ∧ o.must = true ∧ o.hasSet = false ∧ ∀ act ∈ acts, act.gives name o = none

variable {prog : List Char} {args : List (List Char)} {acts : List Act} {o : Opt T}

theorem valid_iff (o : Opt T) : o.valid = false ↔ o.must = true ∧ o.hasSet = false := by
  obtain ⟨nam, snam, desc, kind⟩ := o
  cases kind with
  | withoutValue has => simp [Opt.valid, Opt.must]
  | withValue v => simp [Opt.valid, Opt.must, Opt.hasSet]

theorem hasSet_settled (acts : List Act) (name : List Char) (o : Opt T) :
    (settled acts name o).hasSet = false ↔ o.hasSet = false ∧ ∀ act ∈ acts, act.gives name o = none := by
  obtain ⟨same, nothing⟩ | ⟨act, among, gives⟩ := settled_cases acts name o
  · rw [same]
    exact ⟨fun unset => ⟨unset, nothing⟩, And.left⟩
  · have has := (sameOption_gives gives).2
    constructor
    · intro unset
      exact absurd (unset.symm.trans has) (by decide)
    · intro nothing
      exact nomatch gives.symm.trans (nothing.2 act among)

/-- The options that are found missing, each once and in the order of their names. -/
theorem missing_after (p : Parser T) (acts : List Act) :
    ∃ names : List (List Char), names.Pairwise (compare · · = .lt) ∧ (∀ name, name ∈ names ↔ Unmet p acts name) ∧
      missing (after p acts) = names.map needOption := by
  refine ⟨((after p acts).options.toList.filter fun entry => ¬ entry.2.valid).map Prod.fst, ?_, ?_, ?_⟩
  · exact List.Pairwise.map Prod.fst (fun _ _ below => below)
      (List.Pairwise.filter _ Std.ExtTreeMap.ordered_keys_toList)
  · intro name
    unfold Unmet
    constructor
    · intro among
      obtain ⟨⟨other, o⟩, kept, rfl⟩ := List.mem_map.mp among
      obtain ⟨listed, invalid⟩ := List.mem_filter.mp kept
      have found := Std.ExtTreeMap.mem_toList_iff_getElem?_eq_some.mp listed
      rw [after_options] at found
      obtain ⟨before, there, rfl⟩ := Option.map_eq_some_iff.mp found
      obtain ⟨must, unset⟩ := (valid_iff _).mp (by simpa using invalid)
      obtain ⟨unset, nothing⟩ := (hasSet_settled acts other before).mp unset
      exact ⟨before, there, (sameOption_settled acts other before).must.symm.trans must, unset, nothing⟩
    · rintro ⟨o, there, must, unset, nothing⟩
      have found : (after p acts).options[name]? = some (settled acts name o) := by
        rw [after_options, there, Option.map_some]
      have invalid := (valid_iff (settled acts name o)).mpr
        ⟨(sameOption_settled acts name o).must.trans must, (hasSet_settled acts name o).mpr ⟨unset, nothing⟩⟩
      have kept : (name, settled acts name o) ∈
          (after p acts).options.toList.filter fun entry => ¬ entry.2.valid := by
        refine List.mem_filter.mpr ⟨Std.ExtTreeMap.mem_toList_iff_getElem?_eq_some.mpr found, ?_⟩
        simpa using invalid
      exact List.mem_map.mpr ⟨_, kept, rfl⟩
  · unfold missing
    rw [List.map_map]
    rfl

/-- A parse that finds each short name once does what the arguments ask for, and then looks for the
required options. -/
theorem parse_after (unambiguous : Unambiguous p.options) (reads : Reads p.options args acts) (prog : List Char) :
    ∃ errors, errors = (after (started p prog) acts).errors ++ missing (after (started p prog) acts) ∧
      parse p (prog :: args) =
        (decide (errors.length = 0), { after (started p prog) acts with errors := errors }) := by
  obtain ⟨-, lookup, built, agree⟩ | ⟨c, first, second, differ, one, two, -⟩ := buildLookup_options p
  · have start : after (started p prog) [] = started p prog := after_nil
    have loop : parseArgs lookup (after (started p prog) []) args = after (started p prog) ([] ++ acts) :=
      parseArgs_after agree reads
    rw [start, List.nil_append] at loop
    refine ⟨_, rfl, ?_⟩
    rw [← loop]
    unfold parse started
    by_cases unnamed : p.progName = []
    · simp only [unnamed, if_true, built]
    · simp only [unnamed, if_false, built]
  · exact absurd (unambiguous c first second one two) differ

/-- What a parse leaves behind that finds a short name twice. -/
theorem parse_ambiguous (ambiguous : ¬ Unambiguous p.options) (prog : List Char) :
    ∃ c first second, first ≠ second ∧ Short p.options c first ∧ Short p.options c second ∧
      ∀ args, parse p (prog :: args) = (false, { started p prog with errors := [ambiguousOption c] }) := by
  obtain ⟨unambiguous, _⟩ | ⟨c, first, second, differ, one, two, built⟩ := buildLookup_options p
  · exact absurd unambiguous ambiguous
  · refine ⟨c, first, second, differ, one, two, fun args => ?_⟩
    unfold parse started
    by_cases unnamed : p.progName = []
    · simp only [unnamed, if_true, built, Parser.pushError, List.nil_append]
    · simp only [unnamed, if_false, built, Parser.pushError, List.nil_append]

/-- Everything that a parse has against a command line, in this order: what the arguments ask for
and cannot have, each in its place, and then the required options that are not set, by their names.
With a short name that two options have, that is all it says. -/
theorem parse_errors (p : Parser T) (prog : List Char) (args : List (List Char)) :
    (Unambiguous p.options →
      (∃ acts, Reads p.options args acts) ∧
        ∀ acts, Reads p.options args acts → ∃ names : List (List Char),
          names.Pairwise (compare · · = .lt) ∧ (∀ name, name ∈ names ↔ Unmet p acts name) ∧
            (parse p (prog :: args)).2.errors = acts.filterMap (Act.fault p.options) ++ names.map needOption) ∧
      (¬ Unambiguous p.options →
        ∃ c first second, first ≠ second ∧ Short p.options c first ∧ Short p.options c second ∧
          (parse p (prog :: args)).2.errors = [ambiguousOption c] ∧
          (parse p (prog :: args)).2.options = p.options) := by
  refine ⟨fun unambiguous => ⟨exists_reads p.options args, fun acts reads => ?_⟩, fun ambiguous => ?_⟩
  · obtain ⟨errors, whole, result⟩ := parse_after unambiguous reads prog
    obtain ⟨names, ordered, unmet, absent⟩ := missing_after (started p prog) acts
    refine ⟨names, ordered, unmet, ?_⟩
    rw [result]
    dsimp only
    rw [whole, absent]
    rfl
  · obtain ⟨c, first, second, differ, one, two, result⟩ := parse_ambiguous ambiguous prog
    refine ⟨c, first, second, differ, one, two, ?_, ?_⟩
    · rw [result]
    · rw [result]
      rfl

/-- A command line is taken when every argument asks for what it can have and every required option
is set, by it or before it. -/
theorem parse_verdict (p : Parser T) (argv : List (List Char)) :
    (parse p argv).1 = true ↔
      Unambiguous p.options ∧ ∃ prog args acts, argv = prog :: args ∧ Reads p.options args acts ∧
        (∀ act ∈ acts, act.fault p.options = none) ∧ ∀ name, ¬ Unmet p acts name := by
  cases argv with
  | nil =>
    constructor
    · intro accepted
      exact absurd accepted Bool.false_ne_true
    · rintro ⟨-, prog, args, acts, whole, -⟩
      exact nomatch whole
  | cons prog args =>
    by_cases unambiguous : Unambiguous p.options
    · have verdict (acts : List Act) (reads : Reads p.options args acts) :
          (parse p (prog :: args)).1 = true ↔
            (∀ act ∈ acts, act.fault p.options = none) ∧ ∀ name, ¬ Unmet p acts name := by
        obtain ⟨errors, whole, result⟩ := parse_after unambiguous reads prog
        obtain ⟨names, -, unmet, absent⟩ := missing_after (started p prog) acts
        have sum : errors = acts.filterMap (Act.fault p.options) ++ names.map needOption := by
          rw [whole, absent]
          rfl
        rw [result, decide_eq_true_iff, List.length_eq_zero_iff, sum, List.append_eq_nil_iff,
          List.filterMap_eq_nil_iff, List.map_eq_nil_iff, List.eq_nil_iff_forall_not_mem]
        exact and_congr_right fun _ => forall_congr' fun name => not_congr (unmet name)
      constructor
      · intro accepted
        obtain ⟨acts, reads⟩ := exists_reads p.options args
        exact ⟨unambiguous, prog, args, acts, rfl, reads, (verdict acts reads).mp accepted⟩
      · rintro ⟨-, _, _, acts, whole, reads, fine⟩
        obtain ⟨rfl, rfl⟩ := List.cons.inj whole
        exact (verdict acts reads).mpr fine
    · obtain ⟨c, first, second, _, _, _, result⟩ := parse_ambiguous unambiguous prog
      rw [result]
      exact ⟨fun accepted => absurd accepted Bool.false_ne_true, fun accepted => absurd accepted.1 unambiguous⟩

/-! The values. -/

theorem gives_reads {v : WithValue T} (valued : o.kind = .withValue v) (name : List Char) (act : Act) :
    act.gives name o = (act.reads name v).map fun actual =>
      { o with kind := .withValue { v with has := true, actual := actual } } := by
  obtain ⟨nam, snam, desc, kind⟩ := o
  obtain rfl : kind = .withValue v := valued
  cases act with
  | set other =>
    unfold Act.gives Act.reads
    dsimp only
    split_ifs
    · rfl
    · rfl
  | setTo other value =>
    unfold Act.gives Act.reads
    dsimp only
    split_ifs
    · unfold Opt.setTo
      dsimp only
      cases v.reader value with
      | none => rfl
      | some _ => rfl
    · rfl
  | word => rfl
  | refuse => rfl

/-- The value that an option has last been given. -/
theorem settled_value {v : WithValue T} (valued : o.kind = .withValue v) (acts : List Act) (name : List Char) :
    ∃ has, (settled acts name o).kind =
      .withValue { v with has := has, actual := (acts.filterMap (Act.reads name v)).getLastD v.actual } := by
  have readings : acts.filterMap (Act.gives name o) = (acts.filterMap (Act.reads name v)).map fun actual =>
      { o with kind := .withValue { v with has := true, actual := actual } } := by
    rw [List.map_filterMap]
    exact List.filterMap_congr fun act _ => gives_reads valued name act
  unfold settled
  rw [readings, List.getLastD_eq_getLast?, List.getLastD_eq_getLast?, List.getLast?_map]
  cases (acts.filterMap (Act.reads name v)).getLast? with
  | none => exact ⟨v.has, valued⟩
  | some actual => exact ⟨true, rfl⟩

theorem get_value {q : Parser T} {v : WithValue T} {name : List Char} (found : q.options[name]? = some o)
    (valued : o.kind = .withValue v) : q.get v.tag name = .ok v.actual := by
  unfold Parser.get
  rw [found]
  dsimp only
  rw [valued]
  dsimp only
  cases T.decEq v.tag v.tag with
  | isTrue same => rfl
  | isFalse differ => exact absurd rfl differ

section
variable (unambiguous : Unambiguous p.options) (reads : Reads p.options args acts) (prog : List Char)
include unambiguous reads

theorem options_parsed (name : List Char) :
    (parse p (prog :: args)).2.options[name]? = (p.options[name]?).map (settled acts name) := by
  obtain ⟨errors, _, result⟩ := parse_after unambiguous reads prog
  rw [result]
  exact after_options name

theorem exist_parsed (name : List Char) : (parse p (prog :: args)).2.exist name = true ↔
    p.exist name = true ∨ ∃ act ∈ acts, act.Sets p.options name := by
  unfold Parser.exist
  rw [options_parsed unambiguous reads]
  cases found : p.options[name]? with
  | none =>
    constructor
    · intro there
      exact absurd there Bool.false_ne_true
    · rintro (there | ⟨act, _, o, found', _⟩)
      · exact absurd there Bool.false_ne_true
      · exact nomatch found.symm.trans found'
  | some o =>
    dsimp only [Option.map_some]
    rw [← Bool.not_eq_false, hasSet_settled, not_and_or, Bool.not_eq_false]
    refine or_congr_right ⟨fun some => ?_, ?_⟩
    · obtain ⟨act, some⟩ := not_forall.mp some
      obtain ⟨among, gives⟩ := Classical.not_imp.mp some
      exact ⟨act, among, o, found, Option.isSome_iff_ne_none.mpr gives⟩
    · rintro ⟨act, among, o', found', gives⟩ nothing
      obtain rfl := Option.some.inj (found.symm.trans found')
      rw [nothing act among] at gives
      exact absurd gives Bool.false_ne_true

theorem get_parsed {name : List Char} {v : WithValue T} (found : p.options[name]? = some o)
    (valued : o.kind = .withValue v) : (parse p (prog :: args)).2.get v.tag name =
      .ok ((acts.filterMap (Act.reads name v)).getLastD v.actual) := by
  obtain ⟨has, kind⟩ := settled_value valued acts name
  have there := options_parsed unambiguous reads prog name
  rw [found, Option.map_some] at there
  exact get_value there kind

end

/-- What can be asked of the parser behind a parse. The words are kept in their order. An option is
there if an argument has set it, now or in an earlier parse; its value is the last one that it has
been given, and what it had before, at first its default, when it has been given none. A parse
without a program name, and one that finds a short name twice, does not come to the arguments: it
keeps no word and sets nothing. -/
theorem parse_values (p : Parser T) (argv : List (List Char)) :
    (∀ prog args, argv = prog :: args → Unambiguous p.options →
      (∃ acts, Reads p.options args acts) ∧ ∀ acts, Reads p.options args acts →
        (parse p argv).2.rest = acts.filterMap Act.kept ∧
        (∀ name, (parse p argv).2.exist name = true ↔
          p.exist name = true ∨ ∃ act ∈ acts, act.Sets p.options name) ∧
        ∀ name o v, p.options[name]? = some o → o.kind = .withValue v →
          (parse p argv).2.get v.tag name = .ok ((acts.filterMap (Act.reads name v)).getLastD v.actual)) ∧
      (argv = [] ∨ ¬ Unambiguous p.options →
        (parse p argv).2.rest = [] ∧ (∀ name, (parse p argv).2.exist name = p.exist name) ∧
          ∀ tag name, (parse p argv).2.get tag name = p.get tag name) := by
  constructor
  · rintro prog args rfl unambiguous
    refine ⟨exists_reads p.options args, fun acts reads => ⟨?_, exist_parsed unambiguous reads prog, ?_⟩⟩
    · obtain ⟨errors, _, result⟩ := parse_after unambiguous reads prog
      rw [result]
      rfl
    · exact fun _ _ _ => get_parsed unambiguous reads prog
  · intro idle
    cases argv with
    | nil => exact ⟨rfl, fun _ => rfl, fun _ _ => rfl⟩
    | cons prog args =>
      have ambiguous := idle.resolve_left (List.cons_ne_nil prog args)
      obtain ⟨c, _, _, _, _, _, result⟩ := parse_ambiguous ambiguous prog
      rw [result]
      exact ⟨rfl, fun _ => rfl, fun _ _ => rfl⟩

/-- Two options of main.cpp. -/
def treeAndId : Parser strings where
  options := ((∅ : OptionMap strings).insert "tree".toList ⟨"tree".toList, 't', "pci tree".toList,
    .withoutValue false⟩).insert "id".toList ⟨"id".toList, 'i', "id of pci device (string [=])".toList,
    .withValue ⟨(), false, false, [], [], some⟩⟩
  ordered := ["tree".toList, "id".toList]

theorem treeAndId_tree : treeAndId.options["tree".toList]? =
    some ⟨"tree".toList, 't', "pci tree".toList, .withoutValue false⟩ := by
  unfold treeAndId
  rw [Std.ExtTreeMap.getElem?_insert, if_neg (by decide), Std.ExtTreeMap.getElem?_insert_self]

theorem treeAndId_id : treeAndId.options["id".toList]? =
    some ⟨"id".toList, 'i', "id of pci device (string [=])".toList, .withValue ⟨(), false, false, [], [], some⟩⟩ := by
  unfold treeAndId
  rw [Std.ExtTreeMap.getElem?_insert_self]

theorem treeAndId_unambiguous : Unambiguous treeAndId.options := by
  have built : (buildLookup treeAndId.options.toList ∅).toOption.isSome = true := by decide +kernel
  obtain ⟨unambiguous, _⟩ | ⟨c, _, _, _, _, _, stops⟩ := buildLookup_options treeAndId
  · exact unambiguous
  · rw [stops] at built
    exact absurd built Bool.false_ne_true

theorem treeAndId_short : Short treeAndId.options 't' "tree".toList :=
  ⟨by decide, by decide, _, treeAndId_tree, rfl⟩

theorem treeAndId_assign {args : List (List Char)} {acts : List Act} (rest : Reads treeAndId.options args acts) :
    Reads treeAndId.options ("--id=a".toList :: args) (.setTo "id".toList "a".toList :: acts) := by
  change Reads _ (('-' :: '-' :: ("id".toList ++ '=' :: "a".toList)) :: args) _
  exact .assign (by decide) rest

theorem treeAndId_both {args : List (List Char)} {acts : List Act} (rest : Reads treeAndId.options args acts) :
    Reads treeAndId.options ("-ti".toList :: "b".toList :: args)
      (.set "tree".toList :: .setTo "id".toList "b".toList :: acts) := by
  change Reads _ (('-' :: (['t'] ++ ['i'])) :: "b".toList :: args) ([.set "tree".toList] ++ _)
  exact .shortValue (by decide) (.cons (.known treeAndId_short) .nil)
    ⟨by decide, by decide, _, treeAndId_id, rfl⟩ treeAndId_id rfl rest

theorem treeAndId_flag {args : List (List Char)} {acts : List Act} (rest : Reads treeAndId.options args acts) :
    Reads treeAndId.options ("-t".toList :: args) (.set "tree".toList :: acts) := by
  change Reads _ (('-' :: ([] ++ ['t'])) :: args) ([] ++ _)
  exact .short (by decide) .nil treeAndId_short treeAndId_tree rfl rest

theorem parse_values_last :
    (parse treeAndId ["pcie_enum".toList, "--id=a".toList, "-ti".toList, "b".toList]).2.exist "tree".toList = true ∧
      (parse treeAndId ["pcie_enum".toList, "--id=a".toList, "-ti".toList, "b".toList]).2.get () "id".toList =
        .ok "b".toList := by
  obtain ⟨_, behind⟩ := (parse_values treeAndId ("pcie_enum".toList :: _)).1 _ _ rfl treeAndId_unambiguous
  obtain ⟨_, there, values⟩ := behind _ (treeAndId_assign (treeAndId_both .done))
  exact ⟨(there _).mpr (.inr ⟨.set "tree".toList, by decide, _, treeAndId_tree, rfl⟩),
    values "id".toList _ _ treeAndId_id rfl⟩

/-! The order of the arguments. -/

/-- The option that an act is about. -/
def target : Act → Option (List Char)
  | .set name => some name
  | .setTo name _ => some name
  | .word _ => none
  | .refuse _ => none

theorem gives_untargeted {act : Act} {name : List Char} (other : target act ≠ some name) :
    act.gives name o = none := by
  cases act with
  | set => exact if_neg fun same => other (congrArg some same)
  | setTo => exact if_neg fun same => other (congrArg some same)
  | word => rfl
  | refuse => rfl

/-- Only the acts that are about an option decide on it. -/
theorem settled_targeted (acts : List Act) (name : List Char) (o : Opt T) :
    settled (acts.filter (target · = some name)) name o = settled acts name o := by
  unfold settled
  rw [List.filterMap_filter]
  refine congrArg (List.getLastD · o) (List.filterMap_congr fun act _ => ?_)
  by_cases targeted : target act = some name
  · rw [decide_eq_true targeted, if_pos rfl]
  · rw [decide_eq_false targeted, if_neg Bool.false_ne_true, gives_untargeted targeted]

/-- Arguments may stand in any order that keeps what is asked of each option in its order: a parse of
them has the same verdict, leaves the same options, and says the same things against them. -/
theorem parse_order (p : Parser T) (prog : List Char) (first second : List (List Char)) (acts acts' : List Act)
    (reads : Reads p.options first acts) (reads' : Reads p.options second acts') (perm : acts.Perm acts')
    (each : ∀ name, acts.filter (target · = some name) = acts'.filter (target · = some name)) :
    (parse p (prog :: first)).1 = (parse p (prog :: second)).1 ∧
      (parse p (prog :: first)).2.options = (parse p (prog :: second)).2.options ∧
      (parse p (prog :: first)).2.errors.Perm (parse p (prog :: second)).2.errors := by
  by_cases unambiguous : Unambiguous p.options
  · have options : (after (started p prog) acts).options = (after (started p prog) acts').options := by
      refine Std.ExtTreeMap.ext_getElem? fun name => ?_
      rw [after_options, after_options]
      refine Option.map_congr fun o _ => ?_
      rw [← settled_targeted acts, each, settled_targeted]
    obtain ⟨errors, whole, result⟩ := parse_after unambiguous reads prog
    obtain ⟨errors', whole', result'⟩ := parse_after unambiguous reads' prog
    have same : errors.Perm errors' := by
      have absent : missing (after (started p prog) acts) = missing (after (started p prog) acts') := by
        unfold missing
        rw [options]
      rw [whole, whole', absent]
      exact ((perm.filterMap _).append_left []).append_right _
    rw [result, result']
    exact ⟨by rw [same.length_eq], options, same⟩
  · obtain ⟨c, _, _, _, _, _, result⟩ := parse_ambiguous unambiguous prog
    rw [result, result]
    exact ⟨rfl, rfl, .refl _⟩

theorem parse_order_swapped :
    (parse treeAndId ["pcie_enum".toList, "-t".toList, "--id=a".toList]).1 =
      (parse treeAndId ["pcie_enum".toList, "--id=a".toList, "-t".toList]).1 := by
  refine (parse_order treeAndId "pcie_enum".toList _ _ _ _ (treeAndId_flag (treeAndId_assign .done))
    (treeAndId_assign (treeAndId_flag .done)) (.swap _ _ _) fun name => ?_).1
  by_cases tree : name = "tree".toList
  · subst tree
    decide
  · have away : target (.set "tree".toList) ≠ some name := fun same => tree (Option.some.inj same).symm
    rw [List.filter_cons, List.filter_cons, List.filter_cons, List.filter_cons]
    rw [decide_eq_false away, if_neg Bool.false_ne_true]
    rfl

end PcieUtil.Cmdline.Verdict
