import PcieUtil.Cmdline.Verdict
import PcieUtil.Lib.Events

/-! A parser over any sequence of calls: what stays true of its options, and what happens to each
of them. -/

namespace PcieUtil.Cmdline.History
open Options Parse Settings Reading Verdict Lib.Events

variable {T : Types}

/-! The readers that restrict another one, for which `none` is the exception. -/

/-- `range_reader` -/
def rangeReader {α : Type} [LE α] [DecidableLE α] (low high : α) (read : List Char → Option α)
    (s : List Char) : Option α :=
  match read s with
  | none => none
  | some ret => if ¬ (low ≤ ret ∧ ret ≤ high) then none else some ret

/-- `oneof_reader` -/
def oneofReader {α : Type} [DecidableEq α] (alt : List α) (read : List Char → Option α)
    (s : List Char) : Option α :=
  match read s with
  | none => none
  | some ret => if ret ∉ alt then none else some ret

theorem rangeReader_inside {α : Type} [LE α] [DecidableLE α] {low high ret : α} {read : List Char → Option α}
    {s : List Char} (reads : rangeReader low high read s = some ret) : low ≤ ret ∧ ret ≤ high := by
  unfold rangeReader at reads
  cases inner : read s with
  | none =>
    rw [inner] at reads
    exact nomatch reads
  | some other =>
    rw [inner] at reads
    dsimp only at reads
    split_ifs at reads with outside
    · exact Option.some.inj reads ▸ outside

theorem oneofReader_among {α : Type} [DecidableEq α] {alt : List α} {ret : α} {read : List Char → Option α}
    {s : List Char} (reads : oneofReader alt read s = some ret) : ret ∈ alt := by
  unfold oneofReader at reads
  cases inner : read s with
  | none =>
    rw [inner] at reads
    exact nomatch reads
  | some other =>
    rw [inner] at reads
    dsimp only at reads
    split_ifs at reads with outside
    · exact Option.some.inj reads ▸ outside

/-! The calls. -/

inductive Call (T : Types) where
  | add (name : List Char) (shortName : Char) (desc : List Char)
  | addValue (tag : T.Tag) (name : List Char) (shortName : Char) (desc : List Char) (need : Bool)
      (default : T.El tag) (reader : List Char → Option (T.El tag))
  | footer (f : List Char)
  | setProgramName (name : List Char)
  | parse (argv : List (List Char))
  | parseVector (args : List (List Char))
  | parseString (arg : List Char)

/-- What a call leaves behind: an exception leaves the parser as it is. For `none` it is not defined. -/
def result (p : Parser T) : Call T → Option (Parser T)
  | .add name shortName desc => some ((p.add name shortName desc).toOption.getD p)
  | .addValue tag name shortName desc need default reader =>
      some ((p.addValue tag name shortName desc need default reader).toOption.getD p)
  | .footer f => some { p with ftr := f }
  | .setProgramName name => some { p with progName := name }
  | .parse argv => some (parse p argv).2
  | .parseVector args => (parseVector p args).map Prod.snd
  | .parseString arg => (parseString p arg).2.map Prod.snd

/-- The option that a call of `add` is for. -/
def Call.option : Call T → Option (Opt T)
  | .add name shortName desc => some ⟨name, shortName, desc, .withoutValue false⟩
  | .addValue tag name shortName desc need default reader =>
      some ⟨name, shortName, fullDescription desc tag need default,
        .withValue ⟨tag, need, false, default, default, reader⟩⟩
  | .footer _ => none
  | .setProgramName _ => none
  | .parse _ => none
  | .parseVector _ => none
  | .parseString _ => none

/-- The options that the calls of `add` are for, in their order. -/
def offered (calls : List (Call T)) : List (Opt T) := calls.filterMap Call.option

def machine (T : Types) : Machine (Parser T) (Call T) where
  admits p call := (result p call).isSome = true
  step p call := (result p call).getD p

/-! One option over time. -/

/-- An option later on: a flag stays set, and a value is the one from before or one that the reader
has made of some text. -/
inductive Later : Opt T → Opt T → Prop
  | flag {nam desc : List Char} {snam : Char} {before now : Bool} (stays : before = true → now = true) :
      Later ⟨nam, snam, desc, .withoutValue before⟩ ⟨nam, snam, desc, .withoutValue now⟩
  | same {nam desc : List Char} {snam : Char} {v : WithValue T} :
      Later ⟨nam, snam, desc, .withValue v⟩ ⟨nam, snam, desc, .withValue v⟩
  | read {nam desc : List Char} {snam : Char} {v : WithValue T} {actual : T.El v.tag} (text : List Char)
      (reads : v.reader text = some actual) :
      Later ⟨nam, snam, desc, .withValue v⟩ ⟨nam, snam, desc, .withValue { v with has := true, actual := actual }⟩

theorem Later.refl (o : Opt T) : Later o o := by
  obtain ⟨nam, snam, desc, kind⟩ := o
  cases kind with
  | withoutValue has => exact .flag id
  | withValue v => exact .same

theorem Later.trans {o o' o'' : Opt T} (first : Later o o') (second : Later o' o'') : Later o o'' := by
  cases first with
  | flag stays =>
    cases second with
    | flag stays' => exact .flag fun set => stays' (stays set)
  | same => exact second
  | read text reads =>
    cases second with
    | same => exact .read text reads
    | read text' reads' => exact .read text' reads'

theorem Later.hasSet {o o' : Opt T} (later : Later o o') (set : o.hasSet = true) : o'.hasSet = true := by
  cases later with
  | flag stays => exact stays set
  | same => exact set
  | read => rfl

theorem Later.nam {o o' : Opt T} (later : Later o o') : o'.nam = o.nam := by
  cases later with
  | flag => rfl
  | same => rfl
  | read => rfl

theorem later_set {o o' : Opt T} (set : o.set = some o') : Later o o' := by
  obtain ⟨nam, snam, desc, kind⟩ := o
  cases kind with
  | withoutValue has =>
    cases Option.some.inj set
    exact .flag fun _ => rfl
  | withValue v => exact nomatch set

theorem later_setTo {o o' : Opt T} {value : List Char} (setTo : o.setTo value = some o') : Later o o' := by
  obtain ⟨nam, snam, desc, kind⟩ := o
  cases kind with
  | withoutValue has => cases setTo
  | withValue v =>
    cases reads : v.reader value with
    | none =>
      simp only [Opt.setTo, reads] at setTo
      cases setTo
    | some actual =>
      simp only [Opt.setTo, reads] at setTo
      cases Option.some.inj setTo
      exact .read value reads

theorem later_settled (acts : List Act) (name : List Char) (o : Opt T) : Later o (settled acts name o) := by
  obtain ⟨same, -⟩ | ⟨act, _, gives⟩ := settled_cases acts name o
  · rw [same]
    exact .refl o
  · cases act with
    | set other =>
      dsimp only [Act.gives] at gives
      split_ifs at gives
      exact later_set gives
    | setTo other value =>
      dsimp only [Act.gives] at gives
      split_ifs at gives
      exact later_setTo gives
    | word => exact nomatch gives
    | refuse => exact nomatch gives

/-! The options of a parser. -/

/-- Each option is there once, under its own name, and has its default or, once it is set, a value
that its reader has made of some text. -/
structure Sound (p : Parser T) : Prop where
  once : p.ordered.Nodup
  listed : ∀ name : List Char, name ∈ p.ordered ↔ (p.options[name]?).isSome = true
  named : ∀ (name : List Char) (o : Opt T), p.options[name]? = some o → o.nam = name
  made : ∀ (name : List Char) (o : Opt T) (v : WithValue T), p.options[name]? = some o → o.kind = .withValue v →
    v.has = false ∧ v.actual = v.default ∨ v.has = true ∧ ∃ text, v.reader text = some v.actual

/-- No option is lost, and none changes but for what it is set to. -/
structure Grows (p q : Parser T) : Prop where
  ordered : p.ordered <+: q.ordered
  options : ∀ (name : List Char) (o : Opt T), p.options[name]? = some o → ∃ o', q.options[name]? = some o' ∧ Later o o'

theorem Grows.refl (p : Parser T) : Grows p p :=
  ⟨List.prefix_rfl, fun _ o found => ⟨o, found, .refl o⟩⟩

theorem Grows.trans {p q r : Parser T} (first : Grows p q) (second : Grows q r) : Grows p r := by
  refine ⟨first.ordered.trans second.ordered, fun name o found => ?_⟩
  obtain ⟨o', found', later⟩ := first.options name o found
  obtain ⟨o'', found'', later'⟩ := second.options name o' found'
  exact ⟨o'', found'', later.trans later'⟩

/-- What a call does to the options: the one that it offers is added if there is none of that name, or
some are set. -/
inductive Turns (p q : Parser T) : Option (Opt T) → Prop
  | kept (options : q.options = p.options) (ordered : q.ordered = p.ordered) : Turns p q none
  | refused (o : Opt T) (there : (p.options[o.nam]?).isSome = true) (options : q.options = p.options)
      (ordered : q.ordered = p.ordered) : Turns p q (some o)
  | added (o : Opt T) (absent : p.options[o.nam]? = none) (options : q.options = p.options.insert o.nam o)
      (ordered : q.ordered = p.ordered ++ [o.nam])
      (fresh : ∀ v, o.kind = .withValue v → v.has = false ∧ v.actual = v.default) : Turns p q (some o)
  | set (acts : List Act) (options : q.options = p.options.map (settled acts)) (ordered : q.ordered = p.ordered) :
      Turns p q none

theorem turns_insertNew {p q : Parser T} (o : Opt T)
    (fresh : ∀ v, o.kind = .withValue v → v.has = false ∧ v.actual = v.default)
    (gives : (p.insertNew o).toOption.getD p = q) : Turns p q (some o) := by
  subst gives
  unfold Parser.insertNew
  split_ifs with there
  · rw [Std.ExtTreeMap.contains_eq_isSome_getElem?] at there
    exact .refused o there rfl rfl
  · rw [Std.ExtTreeMap.contains_eq_isSome_getElem?, Bool.not_eq_true, Option.isSome_eq_false_iff,
      Option.isNone_iff_eq_none] at there
    exact .added o there rfl rfl fresh

theorem turns_parse (p : Parser T) (argv : List (List Char)) : Turns p (parse p argv).2 none := by
  cases argv with
  | nil => exact .kept rfl rfl
  | cons prog args =>
    by_cases unambiguous : Unambiguous p.options
    · obtain ⟨acts, reads⟩ := exists_reads p.options args
      obtain ⟨errors, _, result⟩ := parse_after unambiguous reads prog
      rw [result]
      exact .set acts rfl rfl
    · obtain ⟨c, _, _, _, _, _, result⟩ := parse_ambiguous unambiguous prog
      rw [result]
      exact .kept rfl rfl

theorem turns_parseVector {p q : Parser T} {args : List (List Char)}
    (gives : (parseVector p args).map Prod.snd = some q) : Turns p q none := by
  unfold parseVector at gives
  split_ifs at gives with empty
  · exact nomatch gives
  · exact Option.some.inj gives ▸ turns_parse p _

theorem turns_parseString {p q : Parser T} {arg : List Char}
    (gives : (parseString p arg).2.map Prod.snd = some q) : Turns p q none := by
  unfold parseString at gives
  cases cut : Words.split arg with
  | error error =>
    rw [cut] at gives
    exact Option.some.inj gives ▸ .kept rfl rfl
  | ok args =>
    rw [cut] at gives
    exact turns_parseVector gives

theorem turns {p q : Parser T} {call : Call T} (gives : result p call = some q) : Turns p q call.option := by
  cases call with
  | add name shortName desc =>
    refine turns_insertNew _ (fun v kind => ?_) (Option.some.inj gives)
    cases kind
  | addValue tag name shortName desc need default reader =>
    refine turns_insertNew _ (fun v kind => ?_) (Option.some.inj gives)
    cases kind
    exact ⟨rfl, rfl⟩
  | footer => exact Option.some.inj gives ▸ .kept rfl rfl
  | setProgramName => exact Option.some.inj gives ▸ .kept rfl rfl
  | parse argv => exact Option.some.inj gives ▸ turns_parse p argv
  | parseVector args => exact turns_parseVector gives
  | parseString arg => exact turns_parseString gives

/-! What one call keeps. -/

theorem grows_same {p q : Parser T} (options : q.options = p.options) (ordered : q.ordered = p.ordered) :
    Grows p q :=
  ⟨ordered ▸ List.prefix_rfl, fun _ o found => ⟨o, options ▸ found, .refl o⟩⟩

theorem grows_turns {p q : Parser T} {offer : Option (Opt T)} (turns : Turns p q offer) : Grows p q := by
  cases turns with
  | kept options ordered => exact grows_same options ordered
  | refused o there options ordered => exact grows_same options ordered
  | added o absent options ordered fresh =>
    refine ⟨ordered ▸ List.prefix_append _ _, fun name o' found => ⟨o', ?_, .refl o'⟩⟩
    have other : ¬ compare o.nam name = .eq := fun same => by
      rw [Std.LawfulEqCmp.eq_of_compare same, found] at absent
      exact nomatch absent
    rw [options, Std.ExtTreeMap.getElem?_insert, if_neg other, found]
  | set acts options ordered =>
    refine ⟨ordered ▸ List.prefix_rfl, fun name o found => ⟨settled acts name o, ?_, later_settled acts name o⟩⟩
    rw [options, Std.ExtTreeMap.getElem?_map, found, Option.map_some]

theorem made_later {o o' : Opt T} (later : Later o o')
    (made : ∀ v, o.kind = .withValue v →
      v.has = false ∧ v.actual = v.default ∨ v.has = true ∧ ∃ text, v.reader text = some v.actual)
    (v' : WithValue T) (kind : o'.kind = .withValue v') :
    v'.has = false ∧ v'.actual = v'.default ∨ v'.has = true ∧ ∃ text, v'.reader text = some v'.actual := by
  cases later with
  | flag => exact nomatch kind
  | same => exact made v' kind
  | read text reads =>
    cases kind
    exact .inr ⟨rfl, text, reads⟩

theorem sound_same {p q : Parser T} (sound : Sound p) (options : q.options = p.options)
    (ordered : q.ordered = p.ordered) : Sound q :=
  ⟨ordered ▸ sound.once, fun name => by rw [ordered, options]; exact sound.listed name,
    options ▸ sound.named, options ▸ sound.made⟩

theorem sound_turns {p q : Parser T} {offer : Option (Opt T)} (sound : Sound p) (turns : Turns p q offer) :
    Sound q := by
  cases turns with
  | kept options ordered => exact sound_same sound options ordered
  | refused o there options ordered => exact sound_same sound options ordered
  | added o absent options ordered fresh =>
    have found (name : List Char) (o' : Opt T) (there : q.options[name]? = some o') :
        (name = o.nam ∧ o' = o) ∨ p.options[name]? = some o' := by
      rw [options, Std.ExtTreeMap.getElem?_insert] at there
      split_ifs at there with same
      · exact .inl ⟨(Std.LawfulEqCmp.eq_of_compare same).symm, (Option.some.inj there).symm⟩
      · exact .inr there
    refine ⟨?_, fun name => ?_, fun name o' there => ?_, fun name o' v there kind => ?_⟩
    · rw [ordered]
      refine List.nodup_append.mpr ⟨sound.once, List.pairwise_singleton _ _, ?_⟩
      intro name before other last same
      rw [List.mem_singleton.mp last] at same
      have listed := (sound.listed name).mp before
      rw [same, absent] at listed
      exact absurd listed Bool.false_ne_true
    · rw [ordered, options, List.mem_append, List.mem_singleton, sound.listed, Std.ExtTreeMap.getElem?_insert]
      by_cases same : compare o.nam name = .eq
      · rw [if_pos same]
        exact ⟨fun _ => rfl, fun _ => .inr (Std.LawfulEqCmp.eq_of_compare same).symm⟩
      · rw [if_neg same]
        exact ⟨fun either => either.resolve_right fun eq => same (eq ▸ Std.ReflCmp.compare_self), .inl⟩
    · obtain ⟨rfl, rfl⟩ | there := found name o' there
      · rfl
      · exact sound.named name o' there
    · obtain ⟨rfl, rfl⟩ | there := found name o' there
      · exact .inl (fresh v kind)
      · exact sound.made name o' v there kind
  | set acts options ordered =>
    have found (name : List Char) : q.options[name]? = (p.options[name]?).map (settled acts name) := by
      rw [options, Std.ExtTreeMap.getElem?_map]
    refine ⟨ordered ▸ sound.once, fun name => ?_, fun name o' there => ?_, fun name o' v there kind => ?_⟩
    · rw [ordered, found, Option.isSome_map]
      exact sound.listed name
    · rw [found] at there
      obtain ⟨o, before, rfl⟩ := Option.map_eq_some_iff.mp there
      exact (later_settled acts name o).nam.trans (sound.named name o before)
    · rw [found] at there
      obtain ⟨o, before, rfl⟩ := Option.map_eq_some_iff.mp there
      exact made_later (later_settled acts name o) (fun v kind => sound.made name o v before kind) v kind

theorem sound_new : Sound ({} : Parser T) := by
  have nothing (name : List Char) : ({} : Parser T).options[name]? = none := Std.ExtTreeMap.getElem?_empty
  refine ⟨List.nodup_nil, fun name => ?_, fun name o there => ?_, fun name o v there => ?_⟩
  · rw [nothing]
    exact ⟨fun listed => absurd listed List.not_mem_nil, fun some => absurd some Bool.false_ne_true⟩
  · exact nomatch (nothing name).symm.trans there
  · exact nomatch (nothing name).symm.trans there

/-! Any sequence of calls. -/

variable {p q : Parser T} {calls : List (Call T)}

theorem step_turns {call : Call T} (admitted : (machine T).admits p call) :
    Turns p ((machine T).step p call) call.option := by
  obtain ⟨q, gives⟩ := Option.isSome_iff_exists.mp admitted
  have ends : (machine T).step p call = q := by
    change (result p call).getD p = q
    rw [gives, Option.getD_some]
  rw [ends]
  exact turns gives

theorem grows_run (run : (machine T).Run (fun _ _ => True) p calls q) : Grows p q := by
  refine run.invariant (Grows p) (.refl p) fun r call before admitted _ => ?_
  exact before.trans (grows_turns (step_turns admitted))

theorem sound_run (sound : Sound p) (run : (machine T).Run (fun _ _ => True) p calls q) : Sound q := by
  refine run.invariant Sound sound fun r call before admitted _ => ?_
  exact sound_turns before (step_turns admitted)

/-! Which options there are. -/

/-- The options are those that have been offered, in that order and of several with one name the
first, and each is as it was offered but for what it has been set to. -/
structure Added (calls : List (Call T)) (p : Parser T) : Prop where
  ordered : p.ordered = ((offered calls).map (·.nam)).eraseDups
  first : ∀ (name : List Char) (o : Opt T), (offered calls).find? (fun o => o.nam = name) = some o →
    ∃ o', p.options[name]? = some o' ∧ Later o o'

theorem added_new : Added [] ({} : Parser T) := ⟨rfl, fun _ _ found => nomatch found⟩

theorem offered_concat (calls : List (Call T)) (call : Call T) :
    offered (calls ++ [call]) = offered calls ++ call.option.toList := by
  unfold offered
  rw [List.filterMap_append]
  cases offers : call.option with
  | none => rw [List.filterMap_cons_none offers]; rfl
  | some o => rw [List.filterMap_cons_some offers]; rfl

/-- An option is there exactly when one of its name has been offered. -/
theorem Added.offered_iff (added : Added calls p) (sound : Sound p) (name : List Char) :
    (p.options[name]?).isSome = true ↔ name ∈ (offered calls).map (·.nam) := by
  rw [← sound.listed, added.ordered, List.mem_eraseDups]

/-- The order behind a call, which adds the option that it offers at the end if it is new. -/
theorem Added.ordered_turns {offer : Option (Opt T)} (added : Added calls p) (sound : Sound p)
    (turns : Turns p q offer) : q.ordered = ((offered calls ++ offer.toList).map (·.nam)).eraseDups := by
  cases turns with
  | kept options ordered => rw [ordered, added.ordered, Option.toList_none, List.append_nil]
  | set acts options ordered => rw [ordered, added.ordered, Option.toList_none, List.append_nil]
  | refused o there options ordered =>
    have known := (added.offered_iff sound o.nam).mp there
    have again : [o.nam].removeAll ((offered calls).map (·.nam)) = [] :=
      List.filter_cons_of_neg (by rw [List.elem_eq_mem, decide_eq_true known]; decide)
    rw [List.map_append, List.eraseDups_append, Option.toList_some, List.map_singleton, again, ordered,
      added.ordered, List.eraseDups_nil, List.append_nil]
  | added o absent options ordered =>
    have unknown : o.nam ∉ (offered calls).map (·.nam) := by
      rw [← added.offered_iff sound, absent]
      exact Bool.false_ne_true
    have new : [o.nam].removeAll ((offered calls).map (·.nam)) = [o.nam] :=
      List.filter_cons_of_pos (by rw [List.elem_eq_mem, decide_eq_false unknown]; rfl)
    rw [List.map_append, List.eraseDups_append, Option.toList_some, List.map_singleton, new, ordered,
      added.ordered]
    rfl

/-- The first option offered under a name is there behind a call: it was there before, or the call
has added it. -/
theorem Added.first_turns {offer : Option (Opt T)} (added : Added calls p) (sound : Sound p)
    (turns : Turns p q offer) {name : List Char} {o : Opt T}
    (found : (offered calls ++ offer.toList).find? (fun o => o.nam = name) = some o) :
    ∃ o', q.options[name]? = some o' ∧ Later o o' := by
  rw [List.find?_append] at found
  cases before : (offered calls).find? (fun o => o.nam = name) with
  | some first =>
    rw [before, Option.some_or] at found
    obtain rfl := Option.some.inj found
    obtain ⟨now, there, later⟩ := added.first name first before
    obtain ⟨next, there', later'⟩ := (grows_turns turns).options name now there
    exact ⟨next, there', later.trans later'⟩
  | none =>
    rw [before, Option.none_or] at found
    have unknown : name ∉ (offered calls).map (·.nam) := by
      intro known
      obtain ⟨o', among, same⟩ := List.mem_map.mp known
      exact List.find?_eq_none.mp before o' among (decide_eq_true same)
    have same : o.nam = name := by simpa using List.find?_some found
    have among : o ∈ offer.toList := List.mem_of_find?_eq_some found
    cases turns with
    | kept options ordered => exact absurd among List.not_mem_nil
    | set acts options ordered => exact absurd among List.not_mem_nil
    | refused o' there options ordered =>
      obtain rfl := List.mem_singleton.mp among
      exact absurd ((added.offered_iff sound _).mp there) (same ▸ unknown)
    | added o' absent options ordered =>
      obtain rfl := List.mem_singleton.mp among
      refine ⟨o, ?_, .refl o⟩
      rw [options, same, Std.ExtTreeMap.getElem?_insert_self]

theorem added_turns {call : Call T} (added : Added calls p) (sound : Sound p) (turns : Turns p q call.option) :
    Added (calls ++ [call]) q := by
  have whole := offered_concat calls call
  constructor
  · rw [whole]
    exact added.ordered_turns sound turns
  · intro name o found
    rw [whole] at found
    exact added.first_turns sound turns found

theorem added_run {later : List (Call T)} (added : Added calls p) (sound : Sound p)
    (run : (machine T).Run (fun _ _ => True) p later q) : Added (calls ++ later) q := by
  induction run with
  | start => rwa [List.append_nil]
  | next call run admitted _ ih =>
    rw [← List.append_assoc]
    exact added_turns ih (sound_run sound run) (step_turns admitted)

/-- Whatever is called on a new parser, and in whatever order: its options are those that the calls of
`add` have offered, of several with one name the first, each once, under its name and in the order of
adding; no later call takes one away, changes it but for what it is set to, or makes it unset; and a
value is always the default or what its reader has made of a text. -/
theorem parser_history (run : (machine T).Run (fun _ _ => True) {} calls p) :
    Sound p ∧ Added calls p ∧ ∀ later q, (machine T).Run (fun _ _ => True) p later q →
      Sound q ∧ Added (calls ++ later) q ∧ Grows p q ∧ ∀ name, p.exist name = true → q.exist name = true := by
  have sound := sound_run sound_new run
  have added := added_run added_new sound_new run
  refine ⟨sound, added, fun later q more => ?_⟩
  refine ⟨sound_run sound more, added_run added sound more, grows_run more, fun name there => ?_⟩
  unfold Parser.exist at there ⊢
  cases found : p.options[name]? with
  | none =>
    rw [found] at there
    exact absurd there Bool.false_ne_true
  | some o =>
    obtain ⟨o', found', after⟩ := (grows_run more).options name o found
    rw [found] at there
    rw [found']
    exact after.hasSet there

/-- Two options, one of them offered twice. -/
def threeAdds : List (Call strings) := [.add "tree".toList 't' "pci tree".toList,
  .addValue () "id".toList 'i' "id of pci device".toList false [] some, .add "tree".toList 'x' "again".toList]

def threeAdded : Parser strings := threeAdds.foldl (machine strings).step {}

theorem threeAdded_run : (machine strings).Run (fun _ _ => True) {} threeAdds threeAdded :=
  .next _ (.next _ (.next _ .start rfl trivial) rfl trivial) rfl trivial

def setBoth : Call strings := .parse ["pcie_enum".toList, "-t".toList, "--id=a".toList]

theorem parser_history_added :
    threeAdded.ordered = ["tree".toList, "id".toList] ∧
      ((machine strings).step threeAdded setBoth).ordered = ["tree".toList, "id".toList] ∧
      ∃ o', ((machine strings).step threeAdded setBoth).options["tree".toList]? = some o' ∧
        Later ⟨"tree".toList, 't', "pci tree".toList, .withoutValue false⟩ o' := by
  obtain ⟨_, added, later⟩ := parser_history threeAdded_run
  obtain ⟨_, added', _, _⟩ := later [setBoth] _ (.next setBoth .start rfl trivial)
  have names : ((offered threeAdds).map (·.nam)).eraseDups = ["tree".toList, "id".toList] := by decide
  have names' : ((offered (threeAdds ++ [setBoth])).map (·.nam)).eraseDups =
      ["tree".toList, "id".toList] := by
    decide
  exact ⟨added.ordered.trans names, added'.ordered.trans names', added'.first _ _ rfl⟩

/-- Whatever is called after it has been added, an option has its default or what its reader gives. -/
theorem get_reached {tag : T.Tag} {name desc : List Char} {shortName : Char} {need : Bool} {default : T.El tag}
    {reader : List Char → Option (T.El tag)} {q' : Parser T}
    (added : p.addValue tag name shortName desc need default reader = .ok q)
    (run : (machine T).Run (fun _ _ => True) q calls q') :
    ∃ value, q'.get tag name = .ok value ∧ (value = default ∨ ∃ text, reader text = some value) := by
  have found : q.options[name]? = some ⟨name, shortName, fullDescription desc tag need default,
      .withValue ⟨tag, need, false, default, default, reader⟩⟩ := by
    unfold Parser.addValue Parser.insertNew at added
    split_ifs at added
    obtain rfl := Except.ok.inj added
    exact Std.ExtTreeMap.getElem?_insert_self
  obtain ⟨o, there, later⟩ := (grows_run run).options name _ found
  cases later with
  | same => exact ⟨default, get_value there rfl, .inl rfl⟩
  | read text gives => exact ⟨_, get_value there rfl, .inr ⟨text, gives⟩⟩

/-- An option whose default has some property, and whose reader gives only values that have it, has it
whatever is called after it has been added: such are the values in a range or among alternatives. -/
theorem get_always {tag : T.Tag} {name desc : List Char} {shortName : Char} {need : Bool} {default : T.El tag}
    {reader : List Char → Option (T.El tag)} {q' : Parser T} (good : T.El tag → Prop)
    (added : p.addValue tag name shortName desc need default reader = .ok q) (start : good default)
    (reads : ∀ text value, reader text = some value → good value)
    (run : (machine T).Run (fun _ _ => True) q calls q') : ∃ value, q'.get tag name = .ok value ∧ good value := by
  obtain ⟨value, has, rfl | ⟨text, gives⟩⟩ := get_reached added run
  · exact ⟨value, has, start⟩
  · exact ⟨value, has, reads text value gives⟩

def protocols : List (List Char) := ["http".toList, "https".toList, "ssh".toList, "ftp".toList]

/-- The option of the example in cmdline.hpp. -/
def typeOption : Parser strings := { ({} : Parser strings) with
  options := (∅ : OptionMap strings).insert "type".toList ⟨"type".toList, 't',
    fullDescription (T := strings) "protocol type".toList () false "http".toList,
    .withValue ⟨(), false, false, "http".toList, "http".toList, oneofReader protocols some⟩⟩
  ordered := ["type".toList] }

/-- The value types of that example. -/
inductive Kind where
  | int
  | string
deriving DecidableEq

abbrev intsAndStrings : Types where
  Tag := Kind
  El
    | .int => Int
    | .string => List Char
  decEq := inferInstance
  readableTypename
    | .int => "int".toList
    | .string => "string".toList
  text
    | .int, value => (toString value).toList
    | .string, value => value

/-- Digits only. -/
def readNumeral (text : List Char) : Option Int :=
  if text ≠ [] ∧ text.all Char.isDigit then some (Nat.ofDigitChars 10 text 0 : Nat) else none

def portOption : Parser intsAndStrings := { ({} : Parser intsAndStrings) with
  options := (∅ : OptionMap intsAndStrings).insert "port".toList ⟨"port".toList, 'p',
    fullDescription (T := intsAndStrings) "port number".toList .int false (80 : Int),
    .withValue ⟨.int, false, false, (80 : Int), (80 : Int), rangeReader (1 : Int) 65535 readNumeral⟩⟩
  ordered := ["port".toList] }

/-- The first option of a parser. -/
theorem addValue_first (tag : T.Tag) (name : List Char) (shortName : Char) (desc : List Char) (need : Bool)
    (default : T.El tag) (reader : List Char → Option (T.El tag)) :
    Parser.addValue ({} : Parser T) tag name shortName desc need default reader =
      .ok { ({} : Parser T) with
        options := (∅ : OptionMap T).insert name ⟨name, shortName, fullDescription desc tag need default,
          .withValue ⟨tag, need, false, default, default, reader⟩⟩
        ordered := [name] } := by
  have absent : ¬ (∅ : OptionMap T).contains name = true := by simp
  unfold Parser.addValue Parser.insertNew
  split_ifs with there
  · exact absurd there absent
  · rfl

theorem typeOption_added : Parser.addValue (T := strings) {} () "type".toList 't' "protocol type".toList false
    "http".toList (oneofReader protocols some) = .ok typeOption := addValue_first ..

theorem portOption_added : Parser.addValue (T := intsAndStrings) {} .int "port".toList 'p' "port number".toList false
    (80 : Int) (rangeReader (1 : Int) 65535 readNumeral) = .ok portOption := addValue_first ..

/-- A value that is no alternative, and one that is out of range. -/
def strayType : Call strings := .parse ["ssh".toList, "--type=sftp".toList]

def strayPort : Call intsAndStrings := .parse ["ssh".toList, "--port=65536".toList]

theorem get_always_oneof :
    (∃ value : List Char, ((machine strings).step typeOption strayType).get () "type".toList = .ok value ∧
      value ∈ protocols) ∧
    ∃ value : Int, ((machine intsAndStrings).step portOption strayPort).get .int "port".toList = .ok value ∧
      1 ≤ value ∧ value ≤ 65535 := by
  constructor
  · exact get_always (T := strings) (· ∈ protocols) typeOption_added (by decide)
      (fun _ _ gives => oneofReader_among gives) (.next strayType .start rfl trivial)
  · exact get_always (T := intsAndStrings) (fun value : Int => 1 ≤ value ∧ value ≤ 65535) portOption_added
      (by decide) (fun _ _ gives => rangeReader_inside gives) (.next strayPort .start rfl trivial)

end PcieUtil.Cmdline.History
