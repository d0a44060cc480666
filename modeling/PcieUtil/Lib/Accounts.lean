import PcieUtil.Lib.Action

/-! Accounts of actions: a relation between the state before an action, the state behind it and what
a selection picks out of its calls, from whatever state it starts in and also where it is cut off. A
relation that composes needs to be shown for the single steps only. -/

namespace PcieUtil.Lib.Accounts
open Lib.Action

variable {σ ι κ α β : Type}

/-- Accounts of what is done one after the other add up. -/
structure Composes (R : σ → σ → List κ → Prop) : Prop where
  refl : ∀ s, R s s []
  trans : ∀ {s t u p q}, R s t p → R t u q → R s u (p ++ q)

/-- The account of an action, which may also tell what it returns. -/
def Yields (pick : ι → List κ) (S : Option α → σ → σ → List κ → Prop) (act : Act σ ι α) : Prop :=
  ∀ s, Act.collects pick act (fun v t picked => S v s t picked) s

/-- The account is the same whether the action ends or is cut off. -/
def Adds (pick : ι → List κ) (R : σ → σ → List κ → Prop) (act : Act σ ι α) : Prop :=
  Yields pick (fun _ => R) act

variable {pick : ι → List κ} {R : σ → σ → List κ → Prop} {act : Act σ ι α} {next : α → Act σ ι β}

/-- Sequencing behind an action that only the account is known of. -/
theorem Adds.then {S : Option β → σ → σ → List κ → Prop} (first : Adds pick R act)
    (cut : ∀ s t p, R s t p → S none s t p)
    (add : ∀ v s t u p q, R s t p → S v t u q → S v s u (p ++ q)) (rest : ∀ a, Yields pick S (next a)) :
    Yields pick S (act >>= next) := by
  intro s
  rw [Act.collects_bind]
  apply Act.collects_mono (first s)
  intro v t picked known
  cases v with
  | none => exact cut s t picked known
  | some a =>
    rw [Act.thenCollects_some]
    apply Act.collects_mono (rest a t)
    intro v u more later
    exact add v s t u picked more known later

theorem Adds.bind (composes : Composes R) (first : Adds pick R act)
    (rest : ∀ a, Adds pick R (next a)) : Adds pick R (act >>= next) :=
  first.then (fun _ _ _ known => known) (fun _ _ _ _ _ _ known later => composes.trans known later) rest

theorem Adds.pure (composes : Composes R) (a : α) : Adds pick R (pure a : Act σ ι α) := by
  intro s
  rw [Act.collects_pure]
  exact composes.refl s

theorem Adds.fault (composes : Composes R) : Adds pick R (Act.fault : Act σ ι α) := by
  intro s
  rw [Act.collects_fault]
  exact composes.refl s

theorem Adds.read (composes : Composes R) (look : σ → α) : Adds pick R (Act.read look : Act σ ι α) := by
  intro s
  rw [Act.collects_read]
  exact composes.refl s

theorem Adds.update {change : σ → σ} (changed : ∀ s, R s (change s) []) :
    Adds pick R (Act.update change : Act σ ι Unit) := by
  intro s
  rw [Act.collects_update]
  exact changed s

theorem Adds.call {c : ι} {answer : σ → α × σ} (answered : ∀ s, R s (answer s).2 (pick c)) :
    Adds pick R (Act.call c answer) := by
  intro s
  rw [Act.collects_call]
  exact answered s

end PcieUtil.Lib.Accounts
