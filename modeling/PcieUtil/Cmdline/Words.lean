import PcieUtil.Lib.Quoting

/-! The command line parser of cmdline.hpp on one string: the loop of `parse(const std::string &)`
that cuts it into arguments. A `std::string` is the list of its characters. -/

namespace PcieUtil.Cmdline.Words
open Lib.Quoting

def danglingEscape : List Char := "unexpected occurrence of '\\' at end of string".toList

def openQuote : List Char := "quote is not closed".toList

/-- The loop, from the values of `in_quote`, `buf` and `args`; an error is the text that is
pushed to `errors`. -/
def splitFrom (inQuote : Bool) (buf : List Char) (args : List (List Char)) :
    List Char → Except (List Char) (List (List Char))
  | [] =>
      if inQuote then .error openQuote
      else if buf.length > 0 then .ok (args ++ [buf]) else .ok args
  | c :: text =>
      if c = '"' then splitFrom (!inQuote) buf args text
      else if c = ' ' ∧ ¬ inQuote then splitFrom inQuote [] (args ++ [buf]) text
      else if c = '\\' then
        match text with
        | [] => .error danglingEscape
        | next :: text => splitFrom inQuote (buf ++ [next]) args text
      else splitFrom inQuote (buf ++ [c]) args text

def split (arg : List Char) : Except (List Char) (List (List Char)) := splitFrom false [] [] arg

/-! What the loop reads. -/

def marks : Marks Char := ⟨'"', ' ', '\\', by decide, by decide, by decide⟩

/-- The arguments of a line of words: an empty last word is none. -/
def argsOf (words : List (List Char)) : List (List Char) :=
  if words.getLast? = some [] then words.dropLast else words

variable {inQuote after : Bool} {buf text word front : List Char} {args words : List (List Char)}

/-- One turn of the loop, but for an escape. -/
theorem splitFrom_cons {c : Char} (unescape : c ≠ '\\') :
    splitFrom inQuote buf args (c :: text) =
      if c = '"' then splitFrom (!inQuote) buf args text
      else if c = ' ' ∧ ¬ inQuote then splitFrom inQuote [] (args ++ [buf]) text
      else splitFrom inQuote (buf ++ [c]) args text := by
  rw [splitFrom.eq_def]
  dsimp only
  rw [if_neg unescape]

theorem splitFrom_escaped (c : Char) :
    splitFrom inQuote buf args ('\\' :: c :: text) = splitFrom inQuote (buf ++ [c]) args text := by
  cases inQuote with
  | true => rfl
  | false => rfl

theorem splitFrom_mark : splitFrom inQuote buf args ('"' :: text) = splitFrom (!inQuote) buf args text := by
  rw [splitFrom_cons (by decide), if_pos rfl]

theorem splitFrom_separator : splitFrom false buf args (' ' :: text) = splitFrom false [] (args ++ [buf]) text := by
  rw [splitFrom_cons (by decide), if_neg (by decide), if_pos ⟨rfl, by decide⟩]

theorem splitFrom_plain {c : Char} (unquote : c ≠ '"') (unescape : c ≠ '\\') (joins : c = ' ' → inQuote = true) :
    splitFrom inQuote buf args (c :: text) = splitFrom inQuote (buf ++ [c]) args text := by
  rw [splitFrom_cons unescape, if_neg unquote, if_neg fun both => both.2 (joins both.1)]

/-- A stretch inside of a word goes to the buffer. -/
theorem splitFrom_spells (spelled : Spells marks inQuote front word after) (rest : List Char) :
    splitFrom inQuote buf args (front ++ rest) = splitFrom after (buf ++ word) args rest := by
  induction spelled generalizing buf with
  | done => rw [List.nil_append, List.append_nil]
  | mark _ ih => exact splitFrom_mark.trans ih
  | escaped c _ ih =>
    rw [List.append_cons, ← ih]
    exact splitFrom_escaped c
  | plain c unquote unescape joins _ ih =>
    rw [List.append_cons, ← ih]
    exact splitFrom_plain unquote unescape joins

/-- The last word of a line stays in the buffer, and the others have become arguments. -/
theorem splitFrom_line (line : Line marks inQuote text (word :: words) after) (rest : List Char) :
    splitFrom inQuote buf args (text ++ rest) =
      splitFrom after (((buf ++ word) :: words).getLast (List.cons_ne_nil _ _))
        (args ++ ((buf ++ word) :: words).dropLast) rest := by
  generalize whole : word :: words = all at line
  induction line generalizing buf args word words with
  | last spelled =>
    obtain ⟨rfl, rfl⟩ := List.cons.inj whole
    rw [splitFrom_spells spelled, List.getLast_singleton, List.dropLast_singleton, List.append_nil]
  | next spelled tail ih =>
    obtain ⟨rfl, rfl⟩ := List.cons.inj whole
    obtain ⟨second, more, rfl⟩ := List.exists_cons_of_ne_nil tail.nonempty
    rw [List.append_assoc, splitFrom_spells spelled, List.cons_append]
    rw [show marks.separator = ' ' from rfl, splitFrom_separator, ih rfl]
    rw [List.dropLast_cons_of_ne_nil tail.nonempty, List.getLast_cons tail.nonempty, List.append_assoc]
    rfl

theorem splitFrom_nil (nonempty : words ≠ []) :
    splitFrom inQuote (words.getLast nonempty) (args ++ words.dropLast) [] =
      if inQuote then .error openQuote else .ok (args ++ argsOf words) := by
  unfold argsOf
  cases inQuote with
  | true => rfl
  | false =>
    rw [List.getLast?_eq_some_getLast nonempty]
    by_cases empty : words.getLast nonempty = []
    · rw [if_pos (congrArg some empty), empty]
      rfl
    · have positive : (words.getLast nonempty).length > 0 := List.length_pos_iff.mpr empty
      have other : some (words.getLast nonempty) ≠ some [] := fun same => empty (Option.some.inj same)
      have whole : args ++ words = args ++ words.dropLast ++ [words.getLast nonempty] := by
        rw [List.append_assoc, List.dropLast_concat_getLast]
      rw [if_neg other, whole]
      exact if_pos positive

theorem split_line (line : Line marks false text words after) :
    split text = if after then .error openQuote else .ok (argsOf words) := by
  obtain ⟨word, more, rfl⟩ := List.exists_cons_of_ne_nil line.nonempty
  have whole : splitFrom false [] [] (text ++ []) = _ := splitFrom_line line []
  rw [List.append_nil] at whole
  exact whole.trans (splitFrom_nil (List.cons_ne_nil word more))

theorem split_dangling (line : Line marks false front words after) :
    split (front ++ ['\\']) = .error danglingEscape := by
  obtain ⟨word, more, rfl⟩ := List.exists_cons_of_ne_nil line.nonempty
  exact splitFrom_line line ['\\']

/-- The three ways in which the loop ends. -/
theorem split_cases (text : List Char) :
    (∃ words, Line marks false text words false ∧ split text = .ok (argsOf words)) ∨
      (∃ words, Line marks false text words true ∧ split text = .error openQuote) ∨
        ∃ front words after, text = front ++ ['\\'] ∧ Line marks false front words after ∧
          split text = .error danglingEscape := by
  obtain ⟨words, after, line⟩ | ⟨front, words, after, rfl, line⟩ := readable marks false text
  · have loop := split_line line
    cases after with
    | true => exact .inr (.inl ⟨words, line, loop⟩)
    | false => exact .inl ⟨words, line, loop⟩
  · exact .inr (.inr ⟨front, words, after, rfl, line, split_dangling line⟩)

/-- The loop accepts the lines whose last word is out of quotation, and gives the words that they
spell; the others it refuses for the one thing that is wrong with them. -/
theorem split_reads (text : List Char) :
    (∀ args, split text = .ok args ↔ ∃ words, Line marks false text words false ∧ args = argsOf words) ∧
      (split text = .error openQuote ↔ ∃ words, Line marks false text words true) ∧
      (split text = .error danglingEscape ↔
        ∃ front words after, text = front ++ ['\\'] ∧ Line marks false front words after) ∧
      ∀ error, split text = .error error → error = openQuote ∨ error = danglingEscape := by
  have apart : openQuote ≠ danglingEscape := by decide
  refine ⟨fun args => ⟨fun accepted => ?_, ?_⟩, ⟨fun refused => ?_, ?_⟩, ⟨fun refused => ?_, ?_⟩,
    fun error refused => ?_⟩
  · obtain ⟨words, line, loop⟩ | ⟨words, _, loop⟩ | ⟨front, words, after, _, _, loop⟩ := split_cases text
    · exact ⟨words, line, Except.ok.inj (accepted.symm.trans loop)⟩
    · cases accepted.symm.trans loop
    · cases accepted.symm.trans loop
  · intro spelled
    obtain ⟨words, line, rfl⟩ := spelled
    exact split_line line
  · obtain ⟨words, _, loop⟩ | ⟨words, line, _⟩ | ⟨front, words, after, _, _, loop⟩ := split_cases text
    · cases refused.symm.trans loop
    · exact ⟨words, line⟩
    · exact absurd (Except.error.inj (refused.symm.trans loop)) apart
  · intro spelled
    obtain ⟨words, line⟩ := spelled
    exact split_line line
  · obtain ⟨words, _, loop⟩ | ⟨words, _, loop⟩ | ⟨front, words, after, same, line, _⟩ := split_cases text
    · cases refused.symm.trans loop
    · exact absurd (Except.error.inj (refused.symm.trans loop)).symm apart
    · exact ⟨front, words, after, same, line⟩
  · intro spelled
    obtain ⟨front, words, after, rfl, line⟩ := spelled
    exact split_dangling line
  · obtain ⟨words, _, loop⟩ | ⟨words, _, loop⟩ | ⟨front, words, after, _, _, loop⟩ := split_cases text
    · cases refused.symm.trans loop
    · exact .inl (Except.error.inj (refused.symm.trans loop))
    · exact .inr (Except.error.inj (refused.symm.trans loop))

/-- Any arguments can be written as one string: each in quotation marks, with an empty word behind
them. Without that word an empty last argument is lost, and nothing else. -/
theorem split_quoted (args : List (List Char)) :
    split (quotedLine marks (args ++ [[]])) = .ok args ∧
      (split (quotedLine marks args) = .ok args ↔ args.getLast? ≠ some []) := by
  constructor
  · obtain ⟨word, words, whole⟩ := List.exists_cons_of_ne_nil
      (List.append_ne_nil_of_right_ne_nil args (List.cons_ne_nil ([] : List Char) []))
    have line := line_quoted marks word words
    rw [← whole] at line
    rw [split_line line, argsOf, List.getLast?_concat, if_pos rfl, List.dropLast_concat]
    rfl
  · cases args with
    | nil => exact ⟨fun _ empty => Option.some_ne_none _ empty.symm, fun _ => rfl⟩
    | cons word words =>
      have loop : split (quotedLine marks (word :: words)) = .ok (argsOf (word :: words)) :=
        split_line (line_quoted marks word words)
      rw [loop, argsOf]
      by_cases empty : (word :: words).getLast? = some []
      · have shorter : (word :: words).dropLast ≠ word :: words := by
          intro same
          have lengths := congrArg List.length same
          rw [List.length_dropLast, List.length_cons] at lengths
          omega
        rw [if_pos empty]
        exact ⟨fun same => absurd (Except.ok.inj same) shorter, fun other => absurd empty other⟩
      · rw [if_neg empty]
        exact ⟨fun _ => empty, fun _ => rfl⟩

example : split "-d \"a \\\" b\" c\\ d  e".toList =
    .ok ["-d".toList, "a \" b".toList, "c d".toList, [], "e".toList] := by decide +kernel

end PcieUtil.Cmdline.Words
