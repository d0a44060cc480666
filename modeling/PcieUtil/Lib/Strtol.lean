import Mathlib.Data.List.Basic

/-! Integers as `strtol` reads them with base 0: the numeral itself says whether it is hexadecimal,
octal or decimal. The value is not bounded here. A null character ends the text, as it is no part of
what is read. -/

namespace PcieUtil.Lib.Strtol

/-- `isspace` -/
def isSpace (c : Char) : Bool := c = ' ' ∨ 9 ≤ c.toNat ∧ c.toNat ≤ 13

def digitValue (c : Char) : Option Nat :=
  if '0' ≤ c ∧ c ≤ '9' then some (c.toNat - 48)
  else if 'a' ≤ c ∧ c ≤ 'z' then some (c.toNat - 87)
  else if 'A' ≤ c ∧ c ≤ 'Z' then some (c.toNat - 55)
  else none

def digit (base : Nat) (c : Char) : Option Nat :=
  match digitValue c with
  | none => none
  | some d => if d < base then some d else none

/-- The digits that a text begins with. -/
def leadingDigits (base : Nat) : List Char → List Nat
  | [] => []
  | c :: rest =>
      match digit base c with
      | none => []
      | some d => d :: leadingDigits base rest

def ofDigits (base : Nat) (digits : List Nat) : Nat := digits.foldl (fun n d => base * n + d) 0

/-- The number that a text begins with. -/
def numeral (base : Nat) (s : List Char) : Option Nat :=
  if leadingDigits base s = [] then none else some (ofDigits base (leadingDigits base s))

/-- Behind an `0x` without digits, the number is its 0. -/
def unsigned : List Char → Option Nat
  | '0' :: 'x' :: rest => some ((numeral 16 rest).getD 0)
  | '0' :: 'X' :: rest => some ((numeral 16 rest).getD 0)
  | '0' :: rest => numeral 8 ('0' :: rest)
  | s => numeral 10 s

def signed : List Char → Option Int
  | '-' :: rest => (unsigned rest).map fun n => -(n : Int)
  | '+' :: rest => (unsigned rest).map fun n => (n : Int)
  | s => (unsigned s).map fun n => (n : Int)

/-- There is no value when the text begins with no number. -/
def strtol (s : List Char) : Option Int := signed (s.dropWhile isSpace)

/-! Numerals are read back. -/

section
variable {base n : Nat} {rest : List Char}

/-- A text that no digit of the base begins. -/
def Ends (base : Nat) (rest : List Char) : Prop := ∀ c, rest.head? = some c → digit base c = none

theorem digitValue_digitChar : ∀ d < 16, digitValue d.digitChar = some d := by decide

theorem digit_digitChar (small : base ≤ 16) {d : Nat} (below : d < base) : digit base d.digitChar = some d := by
  rw [digit, digitValue_digitChar d (by omega)]
  exact if_pos below

theorem leadingDigits_append (small : base ≤ 16) (ends : Ends base rest) {digits : List Nat}
    (below : ∀ d ∈ digits, d < base) :
    leadingDigits base (digits.map Nat.digitChar ++ rest) = digits := by
  induction digits with
  | nil =>
    cases rest with
    | nil => rfl
    | cons c rest =>
      rw [List.map_nil, List.nil_append, leadingDigits, ends c rfl]
  | cons d digits ih =>
    have first : digit base d.digitChar = some d := digit_digitChar small (below d List.mem_cons_self)
    rw [List.map_cons, List.cons_append, leadingDigits, first]
    exact congrArg (d :: ·) (ih fun other among => below other (List.mem_cons_of_mem _ among))

theorem ofDigits_concat (digits : List Nat) (d : Nat) : ofDigits base (digits ++ [d]) = base * ofDigits base digits + d := by
  rw [ofDigits, List.foldl_append]
  rfl

theorem ofDigits_zeros (zeros : Nat) (digits : List Nat) :
    ofDigits base (List.replicate zeros 0 ++ digits) = ofDigits base digits := by
  induction zeros with
  | zero => rfl
  | succ zeros ih =>
    rw [List.replicate_succ, List.cons_append, ← ih]
    rfl

/-- The digits of a number. -/
theorem exists_digits (large : 1 < base) (n : Nat) :
    ∃ digits : List Nat, digits ≠ [] ∧ (∀ d ∈ digits, d < base) ∧
      Nat.toDigits base n = digits.map Nat.digitChar ∧ ofDigits base digits = n := by
  induction n using Nat.strongRecOn with
  | ind n ih =>
    by_cases single : n < base
    · refine ⟨[n], List.cons_ne_nil _ _, ?_, Nat.toDigits_of_lt_base single, ?_⟩
      · intro d among
        rwa [List.mem_singleton.mp among]
      · rw [ofDigits, List.foldl_cons, Nat.mul_zero, Nat.zero_add]
        rfl
    · have smaller : n / base < n := Nat.div_lt_self (by omega) large
      obtain ⟨digits, _, below, written, value⟩ := ih (n / base) smaller
      refine ⟨digits ++ [n % base], by simp, ?_, ?_, ?_⟩
      · intro d among
        rcases List.mem_append.mp among with front | last
        · exact below d front
        · rw [List.mem_singleton.mp last]
          exact Nat.mod_lt n (by omega)
      · rw [Nat.toDigits_of_base_le large (by omega), written, List.map_append]
        rfl
      · rw [ofDigits_concat, value]
        exact Nat.div_add_mod n base

theorem numeral_padded (large : 1 < base) (small : base ≤ 16) (ends : Ends base rest) (zeros n : Nat) :
    numeral base (List.replicate zeros '0' ++ Nat.toDigits base n ++ rest) = some n := by
  obtain ⟨digits, nonempty, below, written, value⟩ := exists_digits large n
  have padded : List.replicate zeros '0' ++ Nat.toDigits base n =
      (List.replicate zeros 0 ++ digits).map Nat.digitChar := by
    rw [List.map_append, List.map_replicate, written]
    rfl
  have inside : ∀ d ∈ List.replicate zeros 0 ++ digits, d < base := by
    intro d among
    rcases List.mem_append.mp among with zero | digit
    · rw [List.eq_of_mem_replicate zero]
      omega
    · exact below d digit
  have some_digit : List.replicate zeros 0 ++ digits ≠ [] := by simp [nonempty]
  rw [numeral, padded, leadingDigits_append small ends inside, if_neg some_digit, ofDigits_zeros, value]

/-- A hexadecimal numeral with its `0x`, padded or not. -/
theorem strtol_hex (ends : Ends 16 rest) (zeros n : Nat) :
    strtol ("0x".toList ++ List.replicate zeros '0' ++ Nat.toDigits 16 n ++ rest) = some n := by
  have digits := numeral_padded (by decide) (by decide) ends zeros n
  change ((some ((numeral 16 (List.replicate zeros '0' ++ Nat.toDigits 16 n ++ rest)).getD 0)).map fun n : Nat => (n : Int)) = _
  rw [digits]
  rfl

end

end PcieUtil.Lib.Strtol
