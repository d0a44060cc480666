import Mathlib.Data.List.Induction

/-! Words in a line of text. A separator ends a word unless it is quoted, a quotation mark
switches quoting on and off wherever it stands, and an escape takes the next character as it is. -/

namespace PcieUtil.Lib.Quoting

/-- The characters with a meaning of their own. -/
structure Marks (α : Type) where
  quote : α
  separator : α
  escape : α
  quote_separator : quote ≠ separator
  quote_escape : quote ≠ escape
  separator_escape : separator ≠ escape

variable {α : Type} {marks : Marks α}

/-- A stretch of text inside one word and the characters that it stands for, with the quoting
before and behind it. -/
inductive Spells (marks : Marks α) : Bool → List α → List α → Bool → Prop
  | done (quoting : Bool) : Spells marks quoting [] [] quoting
  | mark {quoting after : Bool} {text word : List α} (rest : Spells marks (!quoting) text word after) :
      Spells marks quoting (marks.quote :: text) word after
  | escaped {quoting after : Bool} {text word : List α} (c : α) (rest : Spells marks quoting text word after) :
      Spells marks quoting (marks.escape :: c :: text) (c :: word) after
  | plain {quoting after : Bool} {text word : List α} (c : α) (unquote : c ≠ marks.quote)
      (unescape : c ≠ marks.escape) (joins : c = marks.separator → quoting = true)
      (rest : Spells marks quoting text word after) : Spells marks quoting (c :: text) (c :: word) after

/-- A text as the words that it spells. -/
inductive Line (marks : Marks α) : Bool → List α → List (List α) → Bool → Prop
  | last {quoting after : Bool} {text word : List α} (spelled : Spells marks quoting text word after) :
      Line marks quoting text [word] after
  | next {quoting after : Bool} {front text word : List α} {words : List (List α)}
      (spelled : Spells marks quoting front word false) (rest : Line marks false text words after) :
      Line marks quoting (front ++ marks.separator :: text) (word :: words) after

theorem Spells.append {quoting middle after : Bool} {front text word more : List α}
    (first : Spells marks quoting front word middle) (second : Spells marks middle text more after) :
    Spells marks quoting (front ++ text) (word ++ more) after := by
  induction first with
  | done => exact second
  | mark rest ih => exact .mark (ih second)
  | escaped c rest ih => exact .escaped c (ih second)
  | plain c unquote unescape joins rest ih => exact .plain c unquote unescape joins (ih second)

/-- What stands in front of a line belongs to its first word. -/
theorem Line.extend {quoting middle after : Bool} {front text before word : List α}
    {words : List (List α)} (first : Spells marks quoting front before middle)
    (line : Line marks middle text (word :: words) after) :
    Line marks quoting (front ++ text) ((before ++ word) :: words) after := by
  cases line with
  | last spelled => exact .last (first.append spelled)
  | next spelled rest =>
    rw [← List.append_assoc]
    exact .next (first.append spelled) rest

/-- A line has at least one word. -/
theorem Line.nonempty {quoting after : Bool} {text : List α} {words : List (List α)}
    (line : Line marks quoting text words after) : words ≠ [] := by
  cases line with
  | last => exact List.cons_ne_nil _ _
  | next => exact List.cons_ne_nil _ _

/-! Every text is a line, but for an escape at its end. -/

/-- The text is a line, or a line with an escape behind it that has nothing to escape. -/
def Readable (marks : Marks α) (quoting : Bool) (text : List α) : Prop :=
  (∃ words after, Line marks quoting text words after) ∨
    ∃ front words after, text = front ++ [marks.escape] ∧ Line marks quoting front words after

theorem Line.extended {quoting middle after : Bool} {front text before : List α} {words : List (List α)}
    (first : Spells marks quoting front before middle) (line : Line marks middle text words after) :
    ∃ words, Line marks quoting (front ++ text) words after := by
  obtain ⟨word, more, rfl⟩ := List.exists_cons_of_ne_nil line.nonempty
  exact ⟨_, line.extend first⟩

theorem Readable.extend {quoting middle : Bool} {front text before : List α}
    (first : Spells marks quoting front before middle) (readable : Readable marks middle text) :
    Readable marks quoting (front ++ text) := by
  obtain ⟨words, after, line⟩ | ⟨shorter, words, after, rfl, line⟩ := readable
  · obtain ⟨words, whole⟩ := line.extended first
    exact .inl ⟨words, after, whole⟩
  · obtain ⟨words, whole⟩ := line.extended first
    exact .inr ⟨front ++ shorter, words, after, (List.append_assoc _ _ _).symm, whole⟩

theorem Readable.separated {text : List α} (readable : Readable marks false text) :
    Readable marks false (marks.separator :: text) := by
  obtain ⟨words, after, line⟩ | ⟨shorter, words, after, rfl, line⟩ := readable
  · exact .inl ⟨[] :: words, after, .next (.done false) line⟩
  · exact .inr ⟨marks.separator :: shorter, [] :: words, after, rfl, .next (.done false) line⟩

theorem readable [DecidableEq α] (marks : Marks α) (quoting : Bool) (text : List α) :
    Readable marks quoting text := by
  have unescaped : ∀ (c : α) (text : List α), c ≠ marks.escape →
      (∀ quoting, Readable marks quoting text) → ∀ quoting, Readable marks quoting (c :: text) := by
    intro c text unescape tail quoting
    by_cases unquote : c = marks.quote
    · subst unquote
      exact (tail _).extend (.mark (.done _))
    · by_cases separates : c = marks.separator ∧ quoting = false
      · obtain ⟨rfl, rfl⟩ := separates
        exact (tail false).separated
      · have joins : c = marks.separator → quoting = true := by
          intro same
          rw [← Bool.not_eq_false]
          exact fun off => separates ⟨same, off⟩
        exact (tail quoting).extend (.plain c unquote unescape joins (.done quoting))
  induction text using List.twoStepInduction generalizing quoting with
  | nil => exact .inl ⟨[[]], quoting, .last (.done quoting)⟩
  | singleton c =>
    by_cases escapes : c = marks.escape
    · subst escapes
      exact .inr ⟨[], [[]], quoting, rfl, .last (.done quoting)⟩
    · exact unescaped c [] escapes (fun quoting => .inl ⟨[[]], quoting, .last (.done quoting)⟩) quoting
  | cons_cons c d text shorter tail =>
    by_cases escapes : c = marks.escape
    · subst escapes
      exact (shorter quoting).extend (.escaped d (.done quoting))
    · exact unescaped c (d :: text) escapes (fun quoting => tail d quoting) quoting

/-! A spelling of any words. -/

section
variable [DecidableEq α]

/-- A character as it is written inside of quotation marks. -/
def spelledChar (marks : Marks α) (c : α) : List α :=
  if c = marks.quote ∨ c = marks.escape then [marks.escape, c] else [c]

def quoted (marks : Marks α) (word : List α) : List α :=
  marks.quote :: word.flatMap (spelledChar marks) ++ [marks.quote]

/-- The words one after the other, each in quotation marks. -/
def quotedLine (marks : Marks α) (words : List (List α)) : List α :=
  [marks.separator].intercalate (words.map (quoted marks))

theorem spells_inside (marks : Marks α) (word : List α) :
    Spells marks true (word.flatMap (spelledChar marks)) word true := by
  induction word with
  | nil => exact .done true
  | cons c word ih =>
    rw [List.flatMap_cons]
    unfold spelledChar
    split_ifs with special
    · exact .escaped c ih
    · obtain ⟨unquote, unescape⟩ := not_or.mp special
      exact .plain c unquote unescape (fun _ => rfl) ih

theorem spells_quoted (marks : Marks α) (word : List α) : Spells marks false (quoted marks word) word false := by
  have closed : Spells marks true [marks.quote] [] false := .mark (.done false)
  have inside := (spells_inside marks word).append closed
  rw [List.append_nil] at inside
  exact .mark inside

theorem line_quoted (marks : Marks α) (word : List α) (words : List (List α)) :
    Line marks false (quotedLine marks (word :: words)) (word :: words) false := by
  induction words generalizing word with
  | nil =>
    have single : quotedLine marks [word] = quoted marks word := by
      simp [quotedLine, List.intercalate]
    rw [single]
    exact .last (spells_quoted marks word)
  | cons second words ih =>
    have several : quotedLine marks (word :: second :: words) =
        quoted marks word ++ marks.separator :: quotedLine marks (second :: words) := by
      simp [quotedLine, List.intercalate]
    rw [several]
    exact .next (spells_quoted marks word) (ih second)

end

end PcieUtil.Lib.Quoting
