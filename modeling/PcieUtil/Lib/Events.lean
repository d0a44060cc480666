import Mathlib.Data.List.Basic

/-! Systems that take one event after the other, their runs under a condition on
the events, and the induction over runs. -/

namespace PcieUtil.Lib.Events

/-- Which events are possible in a state, and where each one leads. -/
structure Machine (σ ε : Type) where
  admits : σ → ε → Prop
  step : σ → ε → σ

namespace Machine
variable {σ ε : Type} (m : Machine σ ε)

/-- The runs from s in which every event is possible and meets a condition. -/
inductive Run (cond : σ → ε → Prop) (s : σ) : List ε → σ → Prop
  | start : Run cond s [] s
  | next {es : List ε} {t : σ} (e : ε) (run : Run cond s es t) (possible : m.admits t e)
      (meets : cond t e) : Run cond s (es ++ [e]) (m.step t e)

variable {m} {cond : σ → ε → Prop} {s t : σ} {es : List ε}

/-- What holds at the start and is kept by every step of a run holds at its end. -/
theorem Run.invariant (run : m.Run cond s es t) (inv : σ → Prop) (start : inv s)
    (kept : ∀ u e, inv u → m.admits u e → cond u e → inv (m.step u e)) : inv t := by
  induction run with
  | start => exact start
  | next e run possible meets ih => exact kept _ e ih possible meets

theorem Run.weaken {weak : σ → ε → Prop} (run : m.Run cond s es t)
    (weaker : ∀ u e, cond u e → weak u e) : m.Run weak s es t := by
  induction run with
  | start => exact .start
  | next e run possible meets ih => exact .next e ih possible (weaker _ e meets)

/-- The end of a run is computed from its events. -/
theorem Run.ends (run : m.Run cond s es t) : t = es.foldl m.step s := by
  induction run with
  | start => rfl
  | next e run possible meets ih => rw [List.foldl_append, ← ih, List.foldl_cons, List.foldl_nil]

/-- Noninterference by unwinding. When the events that are kept do the same in related
states, and the others cannot be seen from the second state, the run of the kept events
alone is possible and ends related. -/
theorem Run.purge {t₀ : σ} (related : σ → σ → Prop) (keep : ε → Bool) (run : m.Run cond s es t)
    (start : related s t₀)
    (same : ∀ u u' e, keep e = true → related u u' → m.admits u e → cond u e →
      m.admits u' e ∧ related (m.step u e) (m.step u' e))
    (unseen : ∀ u u' e, keep e = false → related u u' → m.admits u e → related (m.step u e) u') :
    ∃ t', m.Run (fun _ _ => True) t₀ (es.filter keep) t' ∧ related t t' := by
  induction run with
  | start => exact ⟨t₀, .start, start⟩
  | next e run possible meets ih =>
    obtain ⟨t', purged, now⟩ := ih
    rw [List.filter_append]
    cases kept : keep e with
    | true =>
      obtain ⟨admitted, after⟩ := same _ _ e kept now possible meets
      rw [List.filter_cons_of_pos kept, List.filter_nil]
      exact ⟨m.step t' e, purged.next e admitted trivial, after⟩
    | false =>
      have dropped : ([e] : List ε).filter keep = [] := by simp [kept]
      rw [dropped, List.append_nil]
      exact ⟨t', purged, unseen _ _ e kept now possible⟩

end Machine

end PcieUtil.Lib.Events
