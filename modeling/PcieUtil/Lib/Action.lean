import Mathlib.Logic.Function.Basic
import Mathlib.Data.List.Basic

/-! Sequential code over a state that it shares with an environment it calls.
An action transforms the state, may be cut off by a fault, and records each call
it makes together with the state in which the call is issued. The rules below
are the weakest precondition calculus of such actions, and the two judgements
about views and pairs of runs that noninterference arguments need. -/

namespace PcieUtil.Lib.Action

variable {σ τ ι κ α β γ : Type}

/-- A run of an action. There is no value when a fault cut the run off. -/
structure Outcome (σ ι α : Type) where
  value : Option α
  state : σ
  trace : List (σ × ι)

structure Act (σ ι α : Type) where
  run : σ → Outcome σ ι α

namespace Act

def bind (act : Act σ ι α) (next : α → Act σ ι β) : Act σ ι β where
  run s :=
    match act.run s with
    | ⟨none, t, calls⟩ => ⟨none, t, calls⟩
    | ⟨some a, t, calls⟩ =>
        let rest := (next a).run t
        ⟨rest.value, rest.state, calls ++ rest.trace⟩

instance : Monad (Act σ ι) where
  pure a := ⟨fun s => ⟨some a, s, []⟩⟩
  bind := bind

@[simp] theorem run_pure (a : α) (s : σ) : (pure a : Act σ ι α).run s = ⟨some a, s, []⟩ := rfl

theorem run_bind_none {act : Act σ ι α} {s : σ} (next : α → Act σ ι β)
    (cut : (act.run s).value = none) :
    (act >>= next).run s = ⟨none, (act.run s).state, (act.run s).trace⟩ := by
  change (bind act next).run s = _
  unfold bind
  rcases same : act.run s with ⟨_ | a, t, calls⟩
  · simp [same]
  · simp [same] at cut

theorem run_bind_some {act : Act σ ι α} {s : σ} {a : α} (next : α → Act σ ι β)
    (done : (act.run s).value = some a) :
    (act >>= next).run s =
      ⟨((next a).run (act.run s).state).value, ((next a).run (act.run s).state).state,
        (act.run s).trace ++ ((next a).run (act.run s).state).trace⟩ := by
  change (bind act next).run s = _
  unfold bind
  rcases same : act.run s with ⟨_ | b, t, calls⟩
  · simp [same] at done
  · simp only [same, Option.some.injEq] at done
    subst done
    simp [same]

theorem ext_run {first second : Act σ ι α} (same : ∀ s, first.run s = second.run s) :
    first = second := by
  cases first
  cases second
  exact congrArg Act.mk (funext same)

theorem id_map_run (act : Act σ ι α) : id <$> act = act := by
  apply ext_run
  intro s
  change (bind act (fun a => pure (id a))).run s = act.run s
  unfold bind
  rcases same : act.run s with ⟨_ | a, t, calls⟩ <;> simp [same]

theorem pure_bind_run (a : α) (next : α → Act σ ι β) : (pure a >>= next) = next a := by
  apply ext_run
  intro s
  have done : ((pure a : Act σ ι α).run s).value = some a := rfl
  rw [run_bind_some next done]
  simp

theorem bind_assoc_run (act : Act σ ι α) (next : α → Act σ ι β) (last : β → Act σ ι γ) :
    (act >>= next) >>= last = act >>= fun a => next a >>= last := by
  apply ext_run
  intro s
  cases first : (act.run s).value with
  | none => simp [run_bind_none, first]
  | some a =>
    cases second : ((next a).run (act.run s).state).value with
    | none => simp [run_bind_none, run_bind_some _ first, second]
    | some b =>
      have whole : ((act >>= next).run s).value = some b := by
        rw [run_bind_some next first]
        exact second
      simp [run_bind_some _ whole, run_bind_some _ first, run_bind_some _ second]

instance : LawfulMonad (Act σ ι) := LawfulMonad.mk' _ id_map_run pure_bind_run bind_assoc_run

/-- One call of the environment: its answer and its effect on the state. -/
def call (c : ι) (answer : σ → α × σ) : Act σ ι α where
  run s := ⟨some (answer s).1, (answer s).2, [(s, c)]⟩

def read (look : σ → α) : Act σ ι α where
  run s := ⟨some (look s), s, []⟩

def update (change : σ → σ) : Act σ ι Unit where
  run s := ⟨some (), change s, []⟩

def fault : Act σ ι α where
  run s := ⟨none, s, []⟩

/-- An action on a component of the state, seen as an action on the whole. -/
def zoom (get : σ → τ) (put : σ → τ → σ) (act : Act τ ι α) : Act σ ι α where
  run s :=
    let part := act.run (get s)
    ⟨part.value, put s part.state, part.trace.map fun e => (put s e.1, e.2)⟩

/-- An action whose calls are seen as calls of a larger interface. -/
def relabel (name : ι → κ) (act : Act σ ι α) : Act σ κ α where
  run s := ⟨(act.run s).value, (act.run s).state, (act.run s).trace.map fun e => (e.1, name e.2)⟩

/-! Weakest preconditions. The first argument constrains every recorded call,
the postcondition sees the value, or its absence, and the final state. -/

def wp (R : σ → ι → Prop) (act : Act σ ι α) (Q : Option α → σ → Prop) (s : σ) : Prop :=
  (∀ e ∈ (act.run s).trace, R e.1 e.2) ∧ Q (act.run s).value (act.run s).state

/-- The postcondition of a run that no fault cuts off. -/
def returns (Q : α → σ → Prop) : Option α → σ → Prop
  | none, _ => False
  | some a, s => Q a s

/-- What a sequence asks of its first action, given what the second one needs. -/
def andThen (W : α → σ → Prop) (Q : Option β → σ → Prop) : Option α → σ → Prop
  | none, s => Q none s
  | some a, s => W a s

theorem zoom_bind {get : τ → σ} {put : τ → σ → τ} (get_put : ∀ s t, get (put s t) = t)
    (put_put : ∀ s t u, put (put s t) u = put s u) (act : Act σ ι α) (next : α → Act σ ι β) :
    zoom get put (act >>= next) = zoom get put act >>= fun a => zoom get put (next a) := by
  apply ext_run
  intro s
  cases done : (act.run (get s)).value with
  | none =>
    have cut : ((zoom get put act).run s).value = none := done
    rw [run_bind_none _ cut]
    simp only [zoom, run_bind_none next done]
  | some a =>
    have value : ((zoom get put act).run s).value = some a := done
    rw [run_bind_some _ value]
    simp only [zoom, run_bind_some next done, get_put, put_put, List.map_append]

variable {R : σ → ι → Prop} {act : Act σ ι α} {next : α → Act σ ι β} {s : σ}

@[simp] theorem returns_some (Q : α → σ → Prop) (a : α) (s : σ) : returns Q (some a) s = Q a s := rfl

@[simp] theorem returns_none (Q : α → σ → Prop) (s : σ) : returns Q none s = False := rfl

@[simp] theorem andThen_some (W : α → σ → Prop) (Q : Option β → σ → Prop) (a : α) (s : σ) :
    andThen W Q (some a) s = W a s := rfl

@[simp] theorem andThen_none (W : α → σ → Prop) (Q : Option β → σ → Prop) (s : σ) :
    andThen W Q none s = Q none s := rfl

@[simp] theorem wp_pure {Q : Option α → σ → Prop} {a : α} : wp R (pure a) Q s ↔ Q (some a) s := by
  simp [wp]

@[simp] theorem wp_bind {Q : Option β → σ → Prop} :
    wp R (act >>= next) Q s ↔ wp R act (andThen (fun a => wp R (next a) Q) Q) s := by
  cases done : (act.run s).value with
  | none => simp [wp, run_bind_none next done, done]
  | some a =>
    simp only [wp, run_bind_some next done, done, andThen_some, List.mem_append, or_imp,
      forall_and, and_assoc]

@[simp] theorem wp_call {c : ι} {answer : σ → α × σ} {Q : Option α → σ → Prop} :
    wp R (call c answer) Q s ↔ R s c ∧ Q (some (answer s).1) (answer s).2 := by
  simp [wp, call]

@[simp] theorem wp_read {look : σ → α} {Q : Option α → σ → Prop} :
    wp R (read look) Q s ↔ Q (some (look s)) s := by
  simp [wp, read]

@[simp] theorem wp_update {change : σ → σ} {Q : Option Unit → σ → Prop} :
    wp R (update change) Q s ↔ Q (some ()) (change s) := by
  simp [wp, update]

@[simp] theorem wp_fault {Q : Option α → σ → Prop} : wp R (fault : Act σ ι α) Q s ↔ Q none s := by
  simp [wp, fault]

theorem wp_mono {P Q : Option α → σ → Prop} (holds : wp R act P s)
    (weaker : ∀ v t, P v t → Q v t) : wp R act Q s :=
  ⟨holds.1, weaker _ _ holds.2⟩

theorem wp_calls {R' : σ → ι → Prop} {Q : Option α → σ → Prop} (holds : wp R act Q s)
    (weaker : ∀ t c, R t c → R' t c) : wp R' act Q s :=
  ⟨fun e member => weaker _ _ (holds.1 e member), holds.2⟩

/-- Sequencing through the specification of the first action. -/
theorem wp_seq {P : α → σ → Prop} {Q : Option β → σ → Prop} (first : wp R act (returns P) s)
    (rest : ∀ a t, P a t → wp R (next a) Q t) : wp R (act >>= next) Q s := by
  rw [wp_bind]
  refine wp_mono first ?_
  intro v t holds
  cases v with
  | none => exact holds.elim
  | some a => exact rest a t holds

theorem wp_returns_mono {P Q : α → σ → Prop} (holds : wp R act (returns P) s)
    (weaker : ∀ a t, P a t → Q a t) : wp R act (returns Q) s := by
  refine wp_mono holds ?_
  intro v t post
  cases v with
  | none => exact post
  | some a => exact weaker a t post

/-- An action whose value is replaced by b. -/
theorem wp_ends_with {b : β} {Q : Option β → σ → Prop} (stops : ∀ t, Q none t) (ends : ∀ t, Q (some b) t) :
    wp (fun _ _ => True) (act >>= fun _ => Pure.pure b) Q s := by
  rw [wp_bind]
  refine ⟨fun _ _ => trivial, ?_⟩
  cases (act.run s).value with
  | none => exact stops _
  | some a =>
    rw [andThen_some, wp_pure]
    exact ends _

theorem wp_zoom {get : τ → σ} {put : τ → σ → τ} {R : τ → ι → Prop} {Q : Option α → τ → Prop}
    {s : τ} : wp R (zoom get put act) Q s ↔
      wp (fun t c => R (put s t) c) act (fun v t => Q v (put s t)) (get s) := by
  simp only [wp, zoom, List.mem_map, forall_exists_index, and_imp]
  constructor
  · rintro ⟨calls, post⟩
    exact ⟨fun e member => calls _ e member rfl, post⟩
  · rintro ⟨calls, post⟩
    refine ⟨?_, post⟩
    rintro _ e member rfl
    exact calls e member

/-- The final state and value of a run, out of its specification. -/
theorem wp_final {Q : α → σ → Prop} (holds : wp R act (returns Q) s) :
    ∃ a, (act.run s).value = some a ∧ Q a (act.run s).state := by
  have post := holds.2
  cases value : (act.run s).value with
  | none => rw [value] at post; exact post.elim
  | some a => rw [value] at post; exact ⟨a, rfl, post⟩

/-! Exact evaluation of a run, with what a selection picks out of its calls. -/

def collects (pick : ι → List κ) (act : Act σ ι α) (Q : Option α → σ → List κ → Prop) (s : σ) : Prop :=
  Q (act.run s).value (act.run s).state ((act.run s).trace.flatMap fun e => pick e.2)

/-- What a sequence has to collect after its first action. -/
def thenCollects (W : α → σ → List κ → Prop) (Q : Option β → σ → List κ → Prop) :
    Option α → σ → List κ → Prop
  | none, s, picked => Q none s picked
  | some a, s, picked => W a s picked

/-- The counterpart of `returns`, with what is picked. -/
def gives (P : α → σ → List κ → Prop) : Option α → σ → List κ → Prop
  | none, _, _ => False
  | some a, s, picked => P a s picked

@[simp] theorem gives_some (P : α → σ → List κ → Prop) (a : α) (s : σ) (picked : List κ) :
    gives P (some a) s picked = P a s picked := rfl

@[simp] theorem gives_none (P : α → σ → List κ → Prop) (s : σ) (picked : List κ) :
    gives P none s picked = False := rfl

section
variable {pick : ι → List κ}

/-- An action whose value is known. -/
theorem collects_value {v : Option α} (value : (act.run s).value = v)
    {Q : Option α → σ → List κ → Prop} : collects pick act Q s ↔
      Q v (act.run s).state ((act.run s).trace.flatMap fun e => pick e.2) := by
  rw [collects, value]

@[simp] theorem thenCollects_some (W : α → σ → List κ → Prop) (Q : Option β → σ → List κ → Prop)
    (a : α) (s : σ) (picked : List κ) : thenCollects W Q (some a) s picked = W a s picked := rfl

@[simp] theorem thenCollects_none (W : α → σ → List κ → Prop) (Q : Option β → σ → List κ → Prop)
    (s : σ) (picked : List κ) : thenCollects W Q none s picked = Q none s picked := rfl

@[simp] theorem collects_pure {Q : Option α → σ → List κ → Prop} {a : α} :
    collects pick (pure a : Act σ ι α) Q s ↔ Q (some a) s [] := by
  simp [collects]

@[simp] theorem collects_bind {Q : Option β → σ → List κ → Prop} :
    collects pick (act >>= next) Q s ↔ collects pick act
      (thenCollects (fun a t picked => collects pick (next a) (fun v u more => Q v u (picked ++ more)) t)
        Q) s := by
  cases done : (act.run s).value with
  | none => simp [collects, run_bind_none next done, done]
  | some a => simp [collects, run_bind_some next done, done]

@[simp] theorem collects_map {f : α → β} {Q : Option β → σ → List κ → Prop} :
    collects pick (f <$> act) Q s ↔ collects pick act (fun v t picked => Q (v.map f) t picked) s := by
  rw [← bind_pure_comp, collects_bind]
  unfold collects
  cases (act.run s).value <;> simp

@[simp] theorem collects_call {c : ι} {answer : σ → α × σ} {Q : Option α → σ → List κ → Prop} :
    collects pick (call c answer) Q s ↔ Q (some (answer s).1) (answer s).2 (pick c) := by
  simp [collects, call]

@[simp] theorem collects_read {look : σ → α} {Q : Option α → σ → List κ → Prop} :
    collects pick (read look : Act σ ι α) Q s ↔ Q (some (look s)) s [] := by
  simp [collects, read]

@[simp] theorem collects_update {change : σ → σ} {Q : Option Unit → σ → List κ → Prop} :
    collects pick (update change : Act σ ι Unit) Q s ↔ Q (some ()) (change s) [] := by
  simp [collects, update]

@[simp] theorem collects_fault {Q : Option α → σ → List κ → Prop} :
    collects pick (fault : Act σ ι α) Q s ↔ Q none s [] := by
  simp [collects, fault]

@[simp] theorem collects_relabel {ι' : Type} {name : ι' → ι} {part : Act σ ι' α}
    {Q : Option α → σ → List κ → Prop} :
    collects pick (relabel name part) Q s ↔ collects (fun c => pick (name c)) part Q s := by
  simp [collects, relabel, List.flatMap_map]

@[simp] theorem collects_zoom {get : τ → σ} {put : τ → σ → τ} {Q : Option α → τ → List κ → Prop}
    {s : τ} : collects pick (zoom get put act) Q s ↔
      collects pick act (fun v t picked => Q v (put s t) picked) (get s) := by
  simp [collects, zoom, List.flatMap_map]

end

/-! Both at once: every call meets a condition, and what a selection picks out of the
calls, with the states they are made in, is known. -/

def audit (R : σ → ι → Prop) (pick : σ → ι → List κ) (act : Act σ ι α)
    (Q : Option α → σ → List κ → Prop) (s : σ) : Prop :=
  (∀ e ∈ (act.run s).trace, R e.1 e.2) ∧
    Q (act.run s).value (act.run s).state ((act.run s).trace.flatMap fun e => pick e.1 e.2)

section
variable {pick : σ → ι → List κ}

@[simp] theorem audit_pure {Q : Option α → σ → List κ → Prop} {a : α} :
    audit R pick (pure a : Act σ ι α) Q s ↔ Q (some a) s [] := by
  simp [audit]

@[simp] theorem audit_bind {Q : Option β → σ → List κ → Prop} :
    audit R pick (act >>= next) Q s ↔ audit R pick act
      (thenCollects (fun a t picked => audit R pick (next a) (fun v u more => Q v u (picked ++ more)) t)
        Q) s := by
  cases done : (act.run s).value with
  | none => simp [audit, run_bind_none next done, done]
  | some a =>
    simp only [audit, run_bind_some next done, done, thenCollects_some, List.mem_append, or_imp,
      forall_and, and_assoc, List.flatMap_append]

@[simp] theorem audit_call {c : ι} {answer : σ → α × σ} {Q : Option α → σ → List κ → Prop} :
    audit R pick (call c answer) Q s ↔ R s c ∧ Q (some (answer s).1) (answer s).2 (pick s c) := by
  simp [audit, call]

@[simp] theorem audit_read {look : σ → α} {Q : Option α → σ → List κ → Prop} :
    audit R pick (read look : Act σ ι α) Q s ↔ Q (some (look s)) s [] := by
  simp [audit, read]

@[simp] theorem audit_update {change : σ → σ} {Q : Option Unit → σ → List κ → Prop} :
    audit R pick (update change : Act σ ι Unit) Q s ↔ Q (some ()) (change s) [] := by
  simp [audit, update]

theorem audit_zoom {R : τ → ι → Prop} {pick : τ → ι → List κ} {get : τ → σ} {put : τ → σ → τ}
    {Q : Option α → τ → List κ → Prop} {s : τ} : audit R pick (zoom get put act) Q s ↔
      audit (fun t c => R (put s t) c) (fun t c => pick (put s t) c) act
        (fun v t picked => Q v (put s t) picked) (get s) := by
  simp only [audit, zoom, List.mem_map, forall_exists_index, and_imp, List.flatMap_map]
  constructor
  · intro both
    obtain ⟨calls, post⟩ := both
    exact ⟨fun e member => calls _ e member rfl, post⟩
  · intro both
    obtain ⟨calls, post⟩ := both
    refine ⟨?_, post⟩
    intro _ e member same
    subst same
    exact calls e member

theorem audit_mono {P Q : Option α → σ → List κ → Prop} (holds : audit R pick act P s)
    (weaker : ∀ v t picked, P v t picked → Q v t picked) : audit R pick act Q s :=
  ⟨holds.1, weaker _ _ _ holds.2⟩

theorem audit_calls {R' : σ → ι → Prop} {Q : Option α → σ → List κ → Prop}
    (holds : audit R pick act Q s) (weaker : ∀ t c, R t c → R' t c) : audit R' pick act Q s :=
  ⟨fun e member => weaker _ _ (holds.1 e member), holds.2⟩

/-- An action that makes no call the selection picks anything out of. -/
theorem audit_of_wp {R' : σ → ι → Prop} {Q : Option α → σ → Prop} (holds : wp R' act Q s)
    (plain : ∀ t c, R' t c → R t c ∧ pick t c = []) :
    audit R pick act (fun v t picked => Q v t ∧ picked = []) s := by
  refine ⟨fun e member => (plain _ _ (holds.1 e member)).1, holds.2, ?_⟩
  rw [List.flatMap_eq_nil_iff]
  exact fun e member => (plain _ _ (holds.1 e member)).2

/-- Sequencing behind an action that ends, and out of which nothing is picked. -/
theorem audit_seq {R' : σ → ι → Prop} {P : α → σ → Prop} {Q : Option β → σ → List κ → Prop}
    (first : wp R' act (returns P) s) (plain : ∀ t c, R' t c → R t c ∧ pick t c = [])
    (rest : ∀ a t, P a t → audit R pick (next a) Q t) : audit R pick (act >>= next) Q s := by
  rw [audit_bind]
  apply audit_mono (audit_of_wp first plain)
  rintro (_ | a) t picked ⟨post, rfl⟩
  · exact post.elim
  · exact rest a t post

end

/-! An action maintains an invariant when it makes every call in a state of the
invariant, calls only what it may, and ends in a state of the invariant. -/

def Maintains (inv : σ → Prop) (may : ι → Prop) (act : Act σ ι α) : Prop :=
  ∀ s, inv s → wp (fun t c => inv t ∧ may c) act (fun _ t => inv t) s

section
variable {inv : σ → Prop} {may : ι → Prop}

theorem Maintains.pure (a : α) : Maintains inv may (Pure.pure a : Act σ ι α) :=
  fun _ holds => wp_pure.mpr holds

theorem Maintains.fault : Maintains inv may (Act.fault : Act σ ι α) := fun _ holds => wp_fault.mpr holds

theorem Maintains.read (look : σ → α) : Maintains inv may (Act.read look : Act σ ι α) :=
  fun _ holds => wp_read.mpr holds

theorem Maintains.call {c : ι} {answer : σ → α × σ} (allowed : may c)
    (kept : ∀ s, inv s → inv (answer s).2) : Maintains inv may (Act.call c answer) :=
  fun s holds => wp_call.mpr ⟨⟨holds, allowed⟩, kept s holds⟩

theorem Maintains.update {change : σ → σ} (kept : ∀ s, inv s → inv (change s)) :
    Maintains inv may (Act.update change : Act σ ι Unit) :=
  fun s holds => wp_update.mpr (kept s holds)

theorem Maintains.bind (first : Maintains inv may act) (rest : ∀ a, Maintains inv may (next a)) :
    Maintains inv may (act >>= next) := by
  intro s holds
  rw [wp_bind]
  apply wp_mono (first s holds)
  intro v t after
  cases v with
  | none => exact after
  | some a => exact rest a t after

/-- What is read may be used with all that the invariant says of it. -/
theorem Maintains.bind_read {look : σ → γ} {next : γ → Act σ ι β}
    (rest : ∀ s, inv s → Maintains inv may (next (look s))) :
    Maintains inv may (Act.read look >>= next) := by
  intro s holds
  rw [wp_bind, wp_read]
  exact rest s holds s holds

theorem Maintains.zoom {inv : τ → Prop} {get : τ → σ} {put : τ → σ → τ}
    (part : ∀ s, inv s → Maintains (fun u => inv (put s u)) may act)
    (same : ∀ s, put s (get s) = s) : Maintains inv may (Act.zoom get put act) := by
  intro s holds
  rw [wp_zoom]
  apply part s holds
  rw [same]
  exact holds

end

/-! An action is within a set of calls when it makes no others. -/

def Within (may : ι → Prop) (act : Act σ ι α) : Prop := Maintains (fun _ => True) may act

section
variable {may : ι → Prop}

theorem Within.bind (first : Within may act) (rest : ∀ a, Within may (next a)) :
    Within may (act >>= next) := Maintains.bind first rest

theorem Within.pure (a : α) : Within may (Pure.pure a : Act σ ι α) := Maintains.pure a

theorem Within.fault : Within may (Act.fault : Act σ ι α) := Maintains.fault

theorem Within.read (look : σ → α) : Within may (Act.read look : Act σ ι α) := Maintains.read look

theorem Within.update (change : σ → σ) : Within may (Act.update change : Act σ ι Unit) :=
  Maintains.update fun _ _ => trivial

theorem Within.call {c : ι} {answer : σ → α × σ} (allowed : may c) : Within may (Act.call c answer) :=
  Maintains.call allowed fun _ _ => trivial

theorem Within.zoom {get : τ → σ} {put : τ → σ → τ} (within : Within may act)
    (same : ∀ s, put s (get s) = s) : Within may (Act.zoom get put act) :=
  Maintains.zoom (fun _ _ => within) same

theorem Within.mono {wide : ι → Prop} (within : Within may act) (wider : ∀ c, may c → wide c) :
    Within wide act :=
  fun s holds => wp_calls (within s holds) fun _ c both => ⟨both.1, wider c both.2⟩

theorem Within.calls (within : Within may act) (s : σ) : ∀ e ∈ (act.run s).trace, may e.2 :=
  fun e member => ((within s trivial).1 e member).2

/-- An action that maintains one invariant or another, and so is within the calls of both. -/
theorem Within.of_maintains {inv : γ → σ → Prop} (maintains : ∀ v, Maintains (inv v) may act)
    (some_holds : ∀ s, ∃ v, inv v s) : Within may act := by
  intro s _
  obtain ⟨v, holds⟩ := some_holds s
  exact ⟨fun e member => ⟨trivial, ((maintains v s holds).1 e member).2⟩, trivial⟩

/-- A specification, with the set of calls instead of what it says of them. -/
theorem wp_within {Q : Option α → σ → Prop} (holds : wp R act Q s) (within : Within may act) :
    wp (fun _ c => may c) act Q s :=
  ⟨fun e member => within.calls s e member, holds.2⟩

theorem collects_mono {pick : ι → List κ} {P Q : Option α → σ → List κ → Prop}
    (holds : collects pick act P s) (weaker : ∀ v t picked, P v t picked → Q v t picked) :
    collects pick act Q s := weaker _ _ _ holds

/-- Sequencing through what the first action returns, leaves and picks. -/
theorem collects_after {pick : ι → List κ} {P W : α → σ → List κ → Prop}
    {Q : Option β → σ → List κ → Prop} (first : collects pick act (gives P) s)
    (rest : ∀ a t picked, P a t picked → W a t picked) : collects pick act (thenCollects W Q) s := by
  apply collects_mono first
  intro v t picked post
  cases v with
  | none => exact post.elim
  | some a => exact rest a t picked post

/-- Nothing is picked out of the calls of a set that the selection leaves out. -/
theorem collects_of_wp {pick : ι → List κ} {Q : Option α → σ → Prop}
    (holds : wp (fun _ c => may c) act Q s) (plain : ∀ c, may c → pick c = []) :
    collects pick act (fun v t picked => Q v t ∧ picked = []) s := by
  refine ⟨holds.2, ?_⟩
  rw [List.flatMap_eq_nil_iff]
  exact fun e member => plain _ (holds.1 e member)

/-- Sequencing behind an action out of which nothing is picked. -/
theorem collects_maintains {pick : ι → List κ} {inv : σ → Prop} {Q : Option β → σ → List κ → Prop}
    (maintains : Maintains inv may act) (holds : inv s) (plain : ∀ c, may c → pick c = [])
    (stops : ∀ t, Q none t []) (rest : ∀ a t, inv t → collects pick (next a) Q t) :
    collects pick (act >>= next) Q s := by
  rw [collects_bind]
  apply collects_mono (collects_of_wp (wp_calls (maintains s holds) fun _ _ both => both.2) plain)
  intro v t picked post
  obtain ⟨after, nothing⟩ := post
  subst nothing
  cases v with
  | none => exact stops t
  | some a => exact rest a t after

theorem collects_seq {pick : ι → List κ} {Q : Option β → σ → List κ → Prop} (within : Within may act)
    (plain : ∀ c, may c → pick c = []) (stops : ∀ t, Q none t [])
    (rest : ∀ a t, collects pick (next a) Q t) : collects pick (act >>= next) Q s :=
  collects_maintains within trivial plain stops fun a t _ => rest a t

/-- An action that returns b if it ends. -/
theorem collects_returns {pick : ι → List κ} {b : β} {Q : Option β → σ → List κ → Prop}
    (stops : ∀ t picked, Q none t picked) (ends : ∀ t picked, Q (some b) t picked) :
    collects pick (act >>= fun _ => Pure.pure b) Q s := by
  rw [collects_bind, collects]
  cases (act.run s).value with
  | none => exact stops _ _
  | some a =>
    rw [thenCollects_some, collects_pure]
    exact ends _ _

end

/-! Two runs of an action agree when related states give the same value and
related states. This is the step condition of a noninterference proof. -/

def Agrees (r : σ → σ → Prop) (act : Act σ ι α) : Prop :=
  ∀ s t, r s t → (act.run s).value = (act.run t).value ∧ r (act.run s).state (act.run t).state

theorem Agrees.pure (r : σ → σ → Prop) (a : α) : Agrees r (pure a : Act σ ι α) :=
  fun _ _ related => ⟨rfl, related⟩

theorem Agrees.fault (r : σ → σ → Prop) : Agrees r (fault : Act σ ι α) :=
  fun _ _ related => ⟨rfl, related⟩

theorem Agrees.read {r : σ → σ → Prop} {look : σ → α} (same : ∀ s t, r s t → look s = look t) :
    Agrees r (read look : Act σ ι α) :=
  fun s t related => ⟨congrArg some (same s t related), related⟩

theorem Agrees.update {r : σ → σ → Prop} {change : σ → σ}
    (kept : ∀ s t, r s t → r (change s) (change t)) : Agrees r (update change : Act σ ι Unit) :=
  fun s t related => ⟨rfl, kept s t related⟩

theorem Agrees.call {r : σ → σ → Prop} {c : ι} {answer : σ → α × σ}
    (same : ∀ s t, r s t → (answer s).1 = (answer t).1 ∧ r (answer s).2 (answer t).2) :
    Agrees r (call c answer) :=
  fun s t related => ⟨congrArg some (same s t related).1, (same s t related).2⟩

theorem Agrees.bind {r : σ → σ → Prop} (first : Agrees r act) (rest : ∀ a, Agrees r (next a)) :
    Agrees r (act >>= next) := by
  intro s t related
  obtain ⟨value, state⟩ := first s t related
  cases done : (act.run s).value with
  | none =>
    rw [run_bind_none next done, run_bind_none next (value ▸ done)]
    exact ⟨rfl, state⟩
  | some a =>
    rw [run_bind_some next done, run_bind_some next (value ▸ done)]
    exact rest a _ _ state

/-- Two runs, of one action each, give the same value, and Q holds of it and of the two
states they end in. -/
def both (Q : Option α → σ → σ → Prop) (act act' : Act σ ι α) (s t : σ) : Prop :=
  (act.run s).value = (act'.run t).value ∧
    Q (act.run s).value (act.run s).state (act'.run t).state

/-- What two sequences ask of their first actions, given what the second ones need. -/
def thenBoth (W : α → σ → σ → Prop) (Q : Option β → σ → σ → Prop) : Option α → σ → σ → Prop
  | none, s, t => Q none s t
  | some a, s, t => W a s t

section
variable {r : σ → σ → Prop} {act' : Act σ ι α} {next' : α → Act σ ι β} {t : σ}

@[simp] theorem thenBoth_some (W : α → σ → σ → Prop) (Q : Option β → σ → σ → Prop) (a : α) (s t : σ) :
    thenBoth W Q (some a) s t = W a s t := rfl

theorem both_mono {P Q : Option α → σ → σ → Prop} (holds : both P act act' s t)
    (weaker : ∀ v u u', P v u u' → Q v u u') : both Q act act' s t :=
  ⟨holds.1, weaker _ _ _ holds.2⟩

/-- Agreement is the comparison of the runs of one action. -/
theorem agrees_of_both (holds : ∀ u u', r u u' → both (fun _ => r) act act u u') : Agrees r act := holds

theorem Agrees.both (agrees : Agrees r act) (related : r s t) : both (fun _ => r) act act s t :=
  agrees s t related

theorem both_pure {Q : Option α → σ → σ → Prop} {a : α} :
    both Q (Pure.pure a : Act σ ι α) (Pure.pure a) s t ↔ Q (some a) s t := by
  simp [both]

theorem both_bind {Q : Option β → σ → σ → Prop}
    (first : both (thenBoth (fun a u u' => both Q (next a) (next' a) u u') Q) act act' s t) :
    both Q (act >>= next) (act' >>= next') s t := by
  obtain ⟨value, rest⟩ := first
  cases done : (act.run s).value with
  | none =>
    rw [done] at value rest
    rw [both, run_bind_none next done, run_bind_none next' value.symm]
    exact ⟨rfl, rest⟩
  | some a =>
    rw [done] at value rest
    rw [both, run_bind_some next done, run_bind_some next' value.symm]
    exact rest

/-- Sequencing through a relation that the first actions establish. -/
theorem both_seq {Q : Option β → σ → σ → Prop} (first : both (fun _ => r) act act' s t)
    (stops : ∀ u u', r u u' → Q none u u')
    (rest : ∀ a u u', r u u' → both Q (next a) (next' a) u u') :
    both Q (act >>= next) (act' >>= next') s t := by
  apply both_bind
  apply both_mono first
  intro v u u' related
  cases v with
  | none => exact stops u u' related
  | some a => exact rest a u u' related

/-- Sequencing behind reads, which may see different things. -/
theorem both_read {look look' : σ → α} {Q : Option β → σ → σ → Prop} :
    both Q (Act.read look >>= next) (Act.read look' >>= next') s t ↔
      both Q (next (look s)) (next' (look' t)) s t := by
  have first : (Act.read look >>= next).run s = (next (look s)).run s := rfl
  have second : (Act.read look' >>= next').run t = (next' (look' t)).run t := rfl
  rw [both, both, first, second]

theorem both_update {change change' : σ → σ} {next next' : Unit → Act σ ι β}
    {Q : Option β → σ → σ → Prop} :
    both Q (Act.update change >>= next) (Act.update change' >>= next') s t ↔
      both Q (next ()) (next' ()) (change s) (change' t) := by
  have first : (Act.update change >>= next).run s = (next ()).run (change s) := rfl
  have second : (Act.update change' >>= next').run t = (next' ()).run (change' t) := rfl
  rw [both, both, first, second]

/-- A specification of the first run holds beside the comparison. -/
theorem both_wp {P : Option α → σ → Prop} {Q : Option α → σ → σ → Prop}
    (holds : both Q act act' s t) (spec : wp R act P s) :
    both (fun v u u' => Q v u u' ∧ P v u) act act' s t :=
  ⟨holds.1, holds.2, spec.2⟩

end

end Act

end PcieUtil.Lib.Action
