import PcieUtil.Driver.Recovery
import PcieUtil.System.Hotplug

/-! A bound device in error recovery: the handlers and the remove in any order that the
kernel may call them in, and what they do to the enable count of the device. Only
the frozen state takes a count, only a slot reset gives one back, and a remove takes the
one of the probe, so the count is right when the device is not frozen twice without a
reset in between, and not removed before one. -/

namespace PcieUtil.System.ErrorRecovery
open Lib.Action Lib.Bytes Lib.Events
open Driver.State Driver.Kernel Driver.Devices Driver.Opening Driver.Interfaces Driver.Probe
  Driver.Probing Driver.Recovery
open Hotplug (Binding bindingAfterProbe)

/-- The device with the changes of its enable count so far, and with the frozen states and
the successful slot resets since its probe. -/
structure Sys where
  world : World
  binding : Binding
  awaitsReset : Bool
  changes : List Int
  frozen : Nat
  resets : Nat

inductive Event where
  | errorDetected (state : BitVec 32)
  | slotReset (errno : Nat)
  | resume
  | remove

section
variable (hw : Dev → PciDev) (walk : Walk) (pdev : Dev)

/-- The device after its probe. -/
def Sys.probed (env : Env) (w : World) : Sys :=
  let out := (probeOne hw tables walk env pdev).run w
  { world := out.state
    binding := bindingAfterProbe out.value
    awaitsReset := false
    changes := out.trace.flatMap fun e => countChanges (decide (env.errno .enableDevice = 0)) pdev e.2
    frozen := 0
    resets := 0 }

def step (s : Sys) : Event → Sys
  | .errorDetected state =>
      let out := (onDev pdev (xgpuErrorDetected hw pdev state)).run s.world
      { s with
        world := out.state
        awaitsReset := decide (out.value = some .needReset)
        changes := s.changes ++ out.trace.flatMap fun e => countChanges true pdev e.2
        frozen := if state = PCI_CHANNEL_IO_FROZEN then s.frozen + 1 else s.frozen }
  | .slotReset errno =>
      let out := (onDev pdev (xgpuSlotReset hw pdev errno)).run s.world
      { s with
        world := out.state
        awaitsReset := false
        changes := s.changes ++ out.trace.flatMap fun e => countChanges (decide (errno = 0)) pdev e.2
        resets := if errno = 0 then s.resets + 1 else s.resets }
  | .resume =>
      let out := (onDev pdev xgpuErrorResume).run s.world
      { s with
        world := out.state
        changes := s.changes ++ out.trace.flatMap fun e => countChanges true pdev e.2 }
  | .remove =>
      let out := (removeOne hw tables walk pdev).run s.world
      { s with
        world := out.state
        binding := if out.value.isSome then .unbound else .stuck
        changes := s.changes ++ out.trace.flatMap fun e => countChanges true pdev e.2 }

/-- The kernel resets the slot once after each answer that asks for it. -/
def Admits (s : Sys) : Event → Prop
  | .slotReset _ => s.binding = .bound ∧ s.awaitsReset = true
  | _ => s.binding = .bound

def machine : Machine Sys Event := ⟨Admits, step hw walk pdev⟩

end

instance (s : Sys) (e : Event) : Decidable (Admits s e) :=
  match e with
  | .slotReset _ => inferInstanceAs (Decidable (_ ∧ _))
  | .errorDetected _ | .resume | .remove => inferInstanceAs (Decidable (_ = _))

/-- The device is frozen only when each frozen state so far has been followed by a successful
reset, and removed only when there were as many resets as frozen states. -/
def Even (s : Sys) : Event → Prop
  | .errorDetected state => state = PCI_CHANNEL_IO_FROZEN → s.frozen ≤ s.resets
  | .remove => s.frozen = s.resets
  | .slotReset _ | .resume => True

def NeverNegative (changes : List Int) : Prop := ∀ p, p <+: changes → 0 ≤ p.sum

/-- The enable count is never negative, and zero behind a remove. -/
structure Balanced (s : Sys) : Prop where
  nonneg : NeverNegative s.changes
  removed : s.binding = .unbound → s.changes.sum = 0

theorem neverNegative_append_one {changes : List Int} {c : Int} :
    NeverNegative (changes ++ [c]) ↔ NeverNegative changes ∧ 0 ≤ changes.sum + c := by
  have whole : (changes ++ [c]).sum = changes.sum + c := by simp
  constructor
  · intro never
    refine ⟨fun p front => never p (front.trans (List.prefix_append _ _)), ?_⟩
    rw [← whole]
    exact never _ List.prefix_rfl
  · intro post p front
    obtain ⟨never, final⟩ := post
    rcases List.prefix_concat_iff.mp front with same | shorter
    · rw [same, whole]
      exact final
    · exact never p shorter

/-- What is known of the device, and its enable count. -/
structure Inv (hw : Dev → PciDev) (pdev : Dev) (s : Sys) : Prop where
  nonneg : NeverNegative s.changes
  bound : s.binding = .bound → (∃ x : XdevPtr, x.pdev = pdev ∧ Bound hw tables x s.world) ∧
    s.changes.sum = 1 + s.resets - s.frozen
  unbound : s.binding = .unbound → s.changes.sum = 0

section
variable {hw : Dev → PciDev} {walk : Walk} {pdev : Dev} {s : Sys} {env : Env}

theorem Inv.balanced (inv : Inv hw pdev s) : Balanced s := ⟨inv.nonneg, inv.unbound⟩

theorem step_errorDetected (hw : Dev → PciDev) (walk : Walk) (pdev : Dev) (s : Sys) (state : BitVec 32) :
    Touches pdev s.world (step hw walk pdev s (.errorDetected state)).world ∧
      (step hw walk pdev s (.errorDetected state)).changes =
        s.changes ++ if state = PCI_CHANNEL_IO_FROZEN then [-1] else [] := by
  obtain ⟨_, touches, picked⟩ := xgpuErrorDetected_changes hw pdev true state s.world
  exact ⟨touches, congrArg (s.changes ++ ·) picked⟩

theorem step_slotReset (hw : Dev → PciDev) (walk : Walk) (pdev : Dev) (s : Sys) (errno : Nat) :
    Touches pdev s.world (step hw walk pdev s (.slotReset errno)).world ∧
      (step hw walk pdev s (.slotReset errno)).changes = s.changes ++ if errno = 0 then [1] else [] := by
  obtain ⟨_, touches, picked⟩ := xgpuSlotReset_changes hw pdev errno s.world
  exact ⟨touches, congrArg (s.changes ++ ·) picked⟩

theorem step_resume (s : Sys) : step hw walk pdev s .resume = s := by
  have world : ((onDev pdev xgpuErrorResume).run s.world).state = s.world := setDev_self s.world pdev
  have nothing : ((onDev pdev xgpuErrorResume).run s.world).trace.flatMap
      (fun e => countChanges true pdev e.2) = [] := rfl
  simp only [step, world, nothing, List.append_nil]

theorem step_remove (walk : Walk) (inv : Inv hw pdev s) (bound : s.binding = .bound) :
    (step hw walk pdev s .remove).binding = .stuck ∧ (step hw walk pdev s .remove).changes = s.changes ∨
      (step hw walk pdev s .remove).binding = .unbound ∧
        (step hw walk pdev s .remove).changes = s.changes ++ [-1] := by
  obtain ⟨⟨x, rfl, device⟩, _⟩ := inv.bound bound
  have disabled : Disabled Unit _ _ := removeOne_changes true walk device
  unfold step
  dsimp only
  cases value : ((removeOne hw tables walk x.pdev).run s.world).value with
  | none =>
    rw [value] at disabled
    have nothing : _ = [] := disabled
    rw [nothing, List.append_nil]
    exact .inl ⟨rfl, rfl⟩
  | some _ =>
    rw [value] at disabled
    have once : _ = [-1] := disabled
    rw [once]
    exact .inr ⟨rfl, rfl⟩

/-- A handler that leaves the count, or changes it once. -/
theorem Inv.handled (inv : Inv hw pdev s) (bound : s.binding = .bound) {s' : Sys} {c : Int}
    (still : s'.binding = .bound) (touches : Touches pdev s.world s'.world)
    (count : (s'.resets : Int) - s'.frozen = s.resets - s.frozen + c)
    (changes : c = 0 ∧ s'.changes = s.changes ∨ 0 ≤ s.changes.sum + c ∧ s'.changes = s.changes ++ [c]) :
    Inv hw pdev s' := by
  obtain ⟨⟨x, rfl, device⟩, before⟩ := inv.bound bound
  have sum : s'.changes.sum = s.changes.sum + c := by
    rcases changes with ⟨zero, same⟩ | ⟨_, more⟩
    · rw [same, zero, Int.add_zero]
    · rw [more]
      simp
  constructor
  · rcases changes with ⟨_, same⟩ | ⟨enough, more⟩
    · rw [same]
      exact inv.nonneg
    · rw [more, neverNegative_append_one]
      exact ⟨inv.nonneg, enough⟩
  · intro _
    refine ⟨⟨x, rfl, touches.bound device⟩, ?_⟩
    omega
  · intro gone
    exact absurd (still.symm.trans gone) (by decide)

theorem inv_step (inv : Inv hw pdev s) {e : Event} (possible : Admits s e) (even : Even s e) :
    Inv hw pdev (step hw walk pdev s e) := by
  cases e with
  | errorDetected state =>
    have bound : s.binding = .bound := possible
    have still : (step hw walk pdev s (.errorDetected state)).binding = .bound := bound
    obtain ⟨touches, changes⟩ := step_errorDetected hw walk pdev s state
    have count := (inv.bound bound).2
    have resets : (step hw walk pdev s (.errorDetected state)).resets = s.resets := rfl
    by_cases frozen : state = PCI_CHANNEL_IO_FROZEN
    · have reset : s.frozen ≤ s.resets := even frozen
      have more : (step hw walk pdev s (.errorDetected state)).frozen = s.frozen + 1 := if_pos frozen
      rw [if_pos frozen] at changes
      exact inv.handled bound still touches (by omega) (.inr ⟨by omega, changes⟩)
    · have same : (step hw walk pdev s (.errorDetected state)).frozen = s.frozen := if_neg frozen
      rw [if_neg frozen, List.append_nil] at changes
      exact inv.handled bound still touches (by omega) (.inl ⟨rfl, changes⟩)
  | slotReset errno =>
    obtain ⟨bound, _⟩ : s.binding = .bound ∧ s.awaitsReset = true := possible
    have still : (step hw walk pdev s (.slotReset errno)).binding = .bound := bound
    obtain ⟨touches, changes⟩ := step_slotReset hw walk pdev s errno
    have nonneg := inv.nonneg _ List.prefix_rfl
    have frozen : (step hw walk pdev s (.slotReset errno)).frozen = s.frozen := rfl
    by_cases ok : errno = 0
    · have more : (step hw walk pdev s (.slotReset errno)).resets = s.resets + 1 := if_pos ok
      rw [if_pos ok] at changes
      exact inv.handled bound still touches (by omega) (.inr ⟨by omega, changes⟩)
    · have same : (step hw walk pdev s (.slotReset errno)).resets = s.resets := if_neg ok
      rw [if_neg ok, List.append_nil] at changes
      exact inv.handled bound still touches (by omega) (.inl ⟨rfl, changes⟩)
  | resume =>
    rw [step_resume]
    exact inv
  | remove =>
    have bound : s.binding = .bound := possible
    have paired : s.frozen = s.resets := even
    have count := (inv.bound bound).2
    rcases step_remove walk inv bound with ⟨stuck, same⟩ | ⟨gone, once⟩
    · constructor
      · rw [same]
        exact inv.nonneg
      · exact fun still => absurd (stuck.symm.trans still) (by decide)
      · exact fun still => absurd (stuck.symm.trans still) (by decide)
    · constructor
      · rw [once, neverNegative_append_one]
        exact ⟨inv.nonneg, by omega⟩
      · exact fun still => absurd (gone.symm.trans still) (by decide)
      · intro _
        rw [once]
        simp
        omega

/-- A step that keeps the balance is even, if it ends. -/
theorem even_of_balanced (inv : Inv hw pdev s) {e : Event} (possible : Admits s e)
    (ends : (step hw walk pdev s e).binding ≠ .stuck) (balanced : Balanced (step hw walk pdev s e)) :
    Even s e := by
  cases e with
  | errorDetected state =>
    intro frozen
    have count := (inv.bound possible).2
    have nonneg := balanced.nonneg
    rw [(step_errorDetected hw walk pdev s state).2, if_pos frozen, neverNegative_append_one] at nonneg
    omega
  | slotReset errno => trivial
  | resume => trivial
  | remove =>
    have bound : s.binding = .bound := possible
    have count := (inv.bound bound).2
    rcases step_remove walk inv bound with ⟨stuck, _⟩ | ⟨gone, once⟩
    · exact absurd stuck ends
    · have zero := balanced.removed gone
      rw [once] at zero
      simp at zero
      change s.frozen = s.resets
      omega

theorem inv_probed {history : Hotplug.Sys} (before : Hotplug.Inv hw history)
    (free : history.binding pdev = .unbound)
    (success : ((probeOne hw tables walk env pdev).run history.world).value = some 0) :
    Inv hw pdev (.probed hw walk pdev env history.world) := by
  have spec : Act.wp (LawfulOn hw True pdev history.world) (probeOne hw tables walk env pdev) _ history.world :=
    Hotplug.probe_spec before free fun _ => trivial
  obtain ⟨_, _, _, known⟩ := spec
  have once := probeOne_changes hw tables walk env pdev history.world success
  have changes : (Sys.probed hw walk pdev env history.world).changes = [1] := once
  have binding : (Sys.probed hw walk pdev env history.world).binding = .bound := by
    change bindingAfterProbe ((probeOne hw tables walk env pdev).run history.world).value = .bound
    rw [success]
    rfl
  constructor
  · have empty : NeverNegative [] := by
      intro p front
      rw [List.prefix_nil.mp front]
      exact Int.le_refl 0
    have one : NeverNegative ([] ++ [1]) := neverNegative_append_one.mpr ⟨empty, by decide⟩
    rw [changes]
    exact one
  · intro _
    rw [success] at known
    rw [changes]
    exact ⟨known, rfl⟩
  · exact fun gone => absurd (binding.symm.trans gone) (by decide)

/-- The enable count of a probed device is right in every run whose steps are even, and the
first step that ends and is not even makes it wrong. -/
theorem enables_balanced {bus : Bus} {config : Dev → Memory} {regs : Dev → Nat → Nat → BitVec 32}
    {history : Hotplug.Sys} {earlier : List Hotplug.Event} {es : List Event}
    (before : (Hotplug.machine hw walk).Run (fun _ _ => True) (.start bus config regs) earlier history)
    (free : history.binding pdev = .unbound)
    (success : ((probeOne hw tables walk env pdev).run history.world).value = some 0)
    (run : (machine hw walk pdev).Run Even (.probed hw walk pdev env history.world) es s) :
    Balanced s ∧ ∀ e, Admits s e → (step hw walk pdev s e).binding ≠ .stuck →
      (Balanced (step hw walk pdev s e) ↔ Even s e) := by
  have inv : Inv hw pdev s := by
    apply run.invariant (Inv hw pdev) (inv_probed (Hotplug.inv_run before) free success)
    intro u e inv possible even
    exact inv_step inv possible even
  refine ⟨inv.balanced, fun e possible ends => ⟨even_of_balanced inv possible ends, fun even => ?_⟩⟩
  exact (inv_step inv possible even).balanced

end

/-- The first device of the board, probed with the legacy line. -/
def probedFirst (walk : Walk) : Sys := .probed Hotplug.board walk 0 (.calm 2) Hotplug.idleStart.world

theorem no_history (walk : Walk) : (Hotplug.machine Hotplug.board walk).Run (fun _ _ => True)
    Hotplug.idleStart [] Hotplug.idleStart := .start

theorem probedFirst_success (walk : Walk) :
    ((probeOne Hotplug.board tables walk (.calm 2) 0).run Hotplug.idleStart.world).value = some 0 := by
  cases walk <;> decide +kernel

def freeze : Event := .errorDetected PCI_CHANNEL_IO_FROZEN

theorem run_next {walk : Walk} {cond : Sys → Event → Prop} {s : Sys} {es : List Event}
    (run : (machine Hotplug.board walk 0).Run cond (probedFirst walk) es s) (e : Event)
    (possible : Admits s e) (meets : cond s e) :
    (machine Hotplug.board walk 0).Run cond (probedFirst walk) (es ++ [e])
      (step Hotplug.board walk 0 s e) :=
  .next e run possible meets

theorem freeze_run {walk : Walk} {cond : Sys → Event → Prop} (meets : cond (probedFirst walk) freeze) :
    (machine Hotplug.board walk 0).Run cond (probedFirst walk) [freeze]
      (step Hotplug.board walk 0 (probedFirst walk) freeze) := by
  have possible : Admits (probedFirst walk) freeze := by cases walk <;> decide +kernel
  exact run_next .start freeze possible meets

/-- The device is frozen, reset and removed. -/
theorem enables_balanced_removed :
    let frozen := step Hotplug.board .every 0 (probedFirst .every) freeze
    let reset := step Hotplug.board .every 0 frozen (.slotReset 0)
    let removed := step Hotplug.board .every 0 reset .remove
    removed.binding = .unbound ∧ Balanced removed := by
  intro frozen reset removed
  have gone : removed.binding = .unbound := by decide +kernel
  have asked : Admits frozen (.slotReset 0) := by decide +kernel
  have back : Admits reset .remove := by decide +kernel
  have even : Even (probedFirst .every) freeze := fun _ => Nat.le_refl 0
  have level : Even reset .remove := by
    unfold Even
    decide +kernel
  have recovered := run_next (freeze_run even) (.slotReset 0) asked trivial
  have ended := run_next recovered .remove back level
  exact ⟨gone, (enables_balanced (no_history .every) rfl (probedFirst_success .every) ended).1⟩

/-- A device that is frozen again before its reset is disabled twice. -/
theorem frozen_twice :
    ¬ ∃ walk : Walk, ∀ (hw : Dev → PciDev) (pdev : Dev) (env : Env) (bus : Bus) (config : Dev → Memory)
      (regs : Dev → Nat → Nat → BitVec 32) (history : Hotplug.Sys) (earlier : List Hotplug.Event)
      (es : List Event) (s : Sys),
      (Hotplug.machine hw walk).Run (fun _ _ => True) (.start bus config regs) earlier history →
        history.binding pdev = .unbound →
          ((probeOne hw tables walk env pdev).run history.world).value = some 0 →
            (machine hw walk pdev).Run (fun _ _ => True) (.probed hw walk pdev env history.world) es s →
              Balanced s := by
  rintro ⟨walk, all⟩
  let frozen := step Hotplug.board walk 0 (probedFirst walk) freeze
  let again := step Hotplug.board walk 0 frozen freeze
  have possible : Admits frozen freeze := by cases walk <;> decide +kernel
  have first : (machine Hotplug.board walk 0).Run (fun _ _ => True) (probedFirst walk) [freeze] frozen :=
    freeze_run trivial
  have run := run_next first freeze possible trivial
  have balanced := all _ _ _ _ _ _ _ _ _ _ (no_history walk) rfl (probedFirst_success walk) run
  have nonneg := balanced.nonneg _ List.prefix_rfl
  revert nonneg
  change ¬ 0 ≤ again.changes.sum
  cases walk <;> decide +kernel

end PcieUtil.System.ErrorRecovery
