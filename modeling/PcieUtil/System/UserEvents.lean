import PcieUtil.Driver.Isr
import PcieUtil.Lib.Accounts
import PcieUtil.Lib.Events

/-! User interrupts over time: both handlers of libxgpu.c, in any order and on any contents of the
registers, with the event flag of each record and the calls that they make. -/

namespace PcieUtil.System.UserEvents
open Lib.Action Lib.Accounts Lib.Events
open Driver.State Driver.Isr

variable {η : Type}

/-- `xgpu_user_irq` -/
def xgpuUserIrq (invoke : η → BitVec 8 → Nat → IsrState η → Int × IsrState η) (devId : Option (Fin 16)) :
    IsrM η Int :=
  match devId with
  | none => return IRQ_NONE
  | some userIrq => userIrqService invoke (some userIrq)

/-- A registered handler leaves the user_irq records and irq_count alone. -/
def Restrained (invoke : η → BitVec 8 → Nat → IsrState η → Int × IsrState η) : Prop :=
  ∀ handler userIdx dev s, (invoke handler userIdx dev s).2.userIrq = s.userIrq ∧
    (invoke handler userIdx dev s).2.irqCount = s.irqCount

/-! What the calls of an interrupt amount to. -/

/-- The calls that concern the records. -/
def driverCall : IsrCall η → List (IsrCall η)
  | .kernel _ => []
  | call => [call]

def servicedOf : IsrCall η → Option (Fin 16)
  | .userIrqService i => i
  | _ => none

def wokenOf : IsrCall η → Option (Fin 16)
  | .wakeUpInterruptible i => some i
  | _ => none

def handledOf : IsrCall η → Option (η × BitVec 8 × Nat)
  | .handler handler userIdx dev => some (handler, userIdx, dev)
  | _ => none

/-- The call of the handler of a record. -/
def handling (record : UserIrq η) : Option (η × BitVec 8 × Nat) :=
  record.handler.map fun handler => (handler, record.userIdx, record.dev)

def pending (record : UserIrq η) : Nat := if record.eventsIrq = 0 then 0 else 1

/-- From the records and irq_count before to those behind: the flag of a record goes up once for each
time its waiters are woken, it is up behind each service of a record without a handler, and the
services of the others are the calls of their handlers, in their order. -/
structure Dispatches (s t : IsrState η) (calls : List (IsrCall η)) : Prop where
  handling : ∀ i, handling (t.userIrq i) = handling (s.userIrq i)
  woken : ∀ i, pending (s.userIrq i) + (calls.filterMap wokenOf).count i = pending (t.userIrq i)
  waiting : ∀ i ∈ calls.filterMap servicedOf, (s.userIrq i).handler = none → pending (t.userIrq i) = 1
  served : ∀ i ∈ calls.filterMap wokenOf, i ∈ calls.filterMap servicedOf ∧ (s.userIrq i).handler = none
  handled : calls.filterMap handledOf = (calls.filterMap servicedOf).filterMap fun i => UserEvents.handling (s.userIrq i)
  counted : t.irqCount = s.irqCount

theorem handler_of_handling {r r' : UserIrq η} (same : handling r = handling r') :
    r.handler = none ↔ r'.handler = none := by
  unfold handling at same
  rw [← Option.map_eq_none_iff, same, Option.map_eq_none_iff]

theorem pending_le (record : UserIrq η) : pending record ≤ 1 := by
  unfold pending
  split_ifs <;> omega

theorem dispatches_composes : Composes (Dispatches (η := η)) where
  refl s := by
    refine ⟨fun _ => rfl, fun _ => rfl, fun i among => ?_, fun i among => ?_, rfl, rfl⟩
    · exact absurd among List.not_mem_nil
    · exact absurd among List.not_mem_nil
  trans := by
    intro s t u p q first second
    have still (i : Fin 16) : (t.userIrq i).handler = none ↔ (s.userIrq i).handler = none :=
      handler_of_handling (first.handling i)
    refine ⟨fun i => ?_, fun i => ?_, fun i among unhandled => ?_, fun i among => ?_, ?_, ?_⟩
    · exact (second.handling i).trans (first.handling i)
    · rw [List.filterMap_append, List.count_append, ← Nat.add_assoc, first.woken, second.woken]
    · rw [List.filterMap_append, List.mem_append] at among
      obtain early | late := among
      · have up := first.waiting i early unhandled
        have grown := second.woken i
        have bound := pending_le (u.userIrq i)
        omega
      · exact second.waiting i late ((still i).mpr unhandled)
    · rw [List.filterMap_append, List.mem_append] at among
      rw [List.filterMap_append, List.mem_append]
      obtain early | late := among
      · obtain ⟨there, unhandled⟩ := first.served i early
        exact ⟨.inl there, unhandled⟩
      · obtain ⟨there, unhandled⟩ := second.served i late
        exact ⟨.inr there, (still i).mp unhandled⟩
    · have same : (fun i => UserEvents.handling (t.userIrq i)) = fun i => UserEvents.handling (s.userIrq i) :=
        funext first.handling
      rw [List.filterMap_append, List.filterMap_append, List.filterMap_append, first.handled, second.handled, same]
    · exact second.counted.trans first.counted

/-! The parts of the handlers. -/

section
variable {invoke : η → BitVec 8 → Nat → IsrState η → Int × IsrState η}

/-- Calls that serve and wake nobody. -/
theorem dispatches_silent {s t : IsrState η} {calls : List (IsrCall η)} (records : t.userIrq = s.userIrq)
    (counted : t.irqCount = s.irqCount) (services : calls.filterMap servicedOf = [])
    (wakes : calls.filterMap wokenOf = []) (handlers : calls.filterMap handledOf = []) : Dispatches s t calls := by
  refine ⟨fun i => ?_, fun i => ?_, fun i among => ?_, fun i among => ?_, ?_, counted⟩
  · rw [records]
  · rw [records, wakes]
    rfl
  · rw [services] at among
    exact absurd among List.not_mem_nil
  · rw [wakes] at among
    exact absurd among List.not_mem_nil
  · rw [handlers, services]
    rfl

/-- The service of a record whose handler is called. -/
theorem dispatches_handler {s t : IsrState η} {i : Fin 16} {handler : η} (records : t.userIrq = s.userIrq)
    (counted : t.irqCount = s.irqCount) (registered : (s.userIrq i).handler = some handler) :
    Dispatches s t [.userIrqService (some i), .handler handler (s.userIrq i).userIdx (s.userIrq i).dev] := by
  refine ⟨fun j => ?_, fun j => ?_, fun j among unhandled => ?_, fun j among => ?_, ?_, counted⟩
  · rw [records]
  · rw [records]
    rfl
  · rw [List.mem_singleton.mp among, registered] at unhandled
    exact nomatch unhandled
  · exact absurd among List.not_mem_nil
  · change [_] = [i].filterMap _
    rw [List.filterMap_cons, UserEvents.handling, registered]
    rfl

/-- The service of a record without a handler that has an event already. -/
theorem dispatches_again {s : IsrState η} {i : Fin 16} (unhandled : (s.userIrq i).handler = none)
    (busy : (s.userIrq i).eventsIrq ≠ 0) : Dispatches s s [.userIrqService (some i)] := by
  refine ⟨fun _ => rfl, fun _ => rfl, fun j among _ => ?_, fun j among => ?_, ?_, rfl⟩
  · rw [List.mem_singleton.mp among]
    exact if_neg busy
  · exact absurd among List.not_mem_nil
  · change [] = [i].filterMap _
    rw [List.filterMap_cons, UserEvents.handling, unhandled]
    rfl

/-- The first service of a record without a handler. -/
theorem dispatches_event {s : IsrState η} {i : Fin 16} (unhandled : (s.userIrq i).handler = none)
    (idle : (s.userIrq i).eventsIrq = 0) :
    Dispatches s (setUserIrq i { s.userIrq i with eventsIrq := 1 } s)
      [.userIrqService (some i), .wakeUpInterruptible i] := by
  have up (j : Fin 16) : pending ((setUserIrq i { s.userIrq i with eventsIrq := 1 } s).userIrq j) =
      if j = i then 1 else pending (s.userIrq j) := by
    by_cases here : j = i
    · subst here
      simp only [if_pos, setUserIrq, Function.update_self]
      exact if_neg (by decide : (1 : BitVec 8) ≠ 0)
    · simp only [if_neg here, setUserIrq, Function.update_of_ne here]
  refine ⟨fun j => ?_, fun j => ?_, fun j among _ => ?_, fun j among => ?_, ?_, rfl⟩
  · by_cases here : j = i
    · subst here
      simp only [setUserIrq, Function.update_self]
      rfl
    · simp only [setUserIrq, Function.update_of_ne here]
  · change pending (s.userIrq j) + [i].count j = _
    rw [up, List.count_singleton]
    by_cases here : j = i
    · subst here
      rw [if_pos rfl, if_pos (beq_self_eq_true j), pending, if_pos idle]
    · rw [if_neg here, if_neg (by simpa using Ne.symm here), Nat.add_zero]
  · rw [up, if_pos (List.mem_singleton.mp among)]
  · rw [List.mem_singleton.mp among]
    exact ⟨List.mem_singleton_self i, unhandled⟩
  · change [] = [i].filterMap _
    rw [List.filterMap_cons, UserEvents.handling, unhandled]
    rfl

/-! The handlers. -/

theorem onState_adds {α : Type} (act : DevM α) : Adds driverCall Dispatches (onState act : IsrM η α) := by
  intro s
  unfold onState
  rw [Act.collects_relabel, Act.collects_zoom, Act.collects]
  have nothing : ((act.run s.dev).trace.flatMap fun e => driverCall (.kernel e.2 : IsrCall η)) = [] :=
    List.flatMap_eq_nil_iff.mpr fun _ _ => rfl
  rw [nothing]
  exact dispatches_silent rfl rfl rfl rfl rfl

theorem userIrqService_adds (restrained : Restrained invoke) (userIrq : Option (Fin 16)) :
    Adds driverCall Dispatches (userIrqService invoke userIrq) := by
  intro s
  unfold userIrqService
  cases userIrq with
  | none =>
    simp only [Act.collects_bind, Act.collects_call, Act.thenCollects_some, Act.collects_pure]
    exact dispatches_silent rfl rfl rfl rfl rfl
  | some i =>
    simp only [Act.collects_bind, Act.collects_call, Act.thenCollects_some, Act.collects_read]
    cases registered : (s.userIrq i).handler with
    | some handler =>
      obtain ⟨records, counted⟩ := restrained handler (s.userIrq i).userIdx (s.userIrq i).dev s
      simp only [Act.collects_call]
      exact dispatches_handler records counted registered
    | none =>
      by_cases idle : (s.userIrq i).eventsIrq = 0
      · simp only [if_pos idle, Act.collects_bind, Act.collects_update, Act.collects_call, Act.thenCollects_some,
          Act.collects_pure]
        have event := dispatches_event registered idle
        simp only [registered] at event
        exact event
      · simp only [if_neg idle, Act.collects_pure]
        exact dispatches_again registered idle

theorem userIrqAt_adds (user : Nat) : Adds driverCall Dispatches (userIrqAt user : IsrM η (Fin 16)) := by
  unfold userIrqAt
  split_ifs
  · exact .pure dispatches_composes _
  · exact .fault dispatches_composes

theorem serveUsers_adds (restrained : Restrained invoke) (left user : Nat) (mask userIrq : BitVec 32) :
    Adds driverCall Dispatches (serveUsers invoke left user mask userIrq) := by
  induction left generalizing user mask userIrq with
  | zero => exact .pure dispatches_composes ()
  | succ left ih =>
    unfold serveUsers
    split_ifs
    · exact .pure dispatches_composes ()
    · refine .bind dispatches_composes (userIrqAt_adds user) fun i => ?_
      exact .bind dispatches_composes (userIrqService_adds restrained (some i)) fun _ => ih _ _ _
    · exact ih _ _ _

theorem xgpuUserIrq_adds (restrained : Restrained invoke) (devId : Option (Fin 16)) :
    Adds driverCall Dispatches (xgpuUserIrq invoke devId) := by
  cases devId with
  | none => exact .pure dispatches_composes _
  | some i => exact userIrqService_adds restrained (some i)

/-- A call of xgpu_isr is counted when it comes to its end. -/
def Counted (v : Option Int) (s t : IsrState η) (calls : List (IsrCall η)) : Prop :=
  Dispatches s { t with irqCount := s.irqCount } calls ∧
    t.irqCount = s.irqCount + BitVec.ofNat 32 (if v.isSome then 1 else 0)

theorem counted_cut {s t : IsrState η} {calls : List (IsrCall η)} (known : Dispatches s t calls) :
    Counted none s t calls := by
  have counted := known.counted
  refine ⟨?_, counted.trans (BitVec.add_zero _).symm⟩
  rw [← counted]
  exact known

theorem counted_add {v : Option Int} {s t u : IsrState η} {p q : List (IsrCall η)} (known : Dispatches s t p)
    (later : Counted v t u q) : Counted v s u (p ++ q) := by
  obtain ⟨rest, count⟩ := later
  rw [known.counted] at rest count
  exact ⟨dispatches_composes.trans known rest, count⟩

theorem Adds.thenCounted {α : Type} {act : IsrM η α} {next : α → IsrM η Int}
    (first : Adds driverCall Dispatches act) (rest : ∀ a, Yields driverCall Counted (next a)) :
    Yields driverCall Counted (act >>= next) :=
  first.then (fun _ _ _ known => counted_cut known) (fun _ _ _ _ _ _ known later => counted_add known later) rest

theorem xgpuIsr_counted (restrained : Restrained invoke) (xdev : XdevPtr) :
    Yields driverCall Counted (xgpuIsr invoke (some xdev)) := by
  unfold xgpuIsr
  refine Adds.thenCounted (onState_adds _) fun base => ?_
  refine Adds.thenCounted (onState_adds _) fun chIrq => ?_
  refine Adds.thenCounted ?_ fun _ => ?_
  · split_ifs
    · exact onState_adds _
    · exact .pure dispatches_composes ()
  refine Adds.thenCounted (onState_adds _) fun userIrq => ?_
  refine Adds.thenCounted ?_ fun _ => ?_
  · split_ifs
    · exact .bind dispatches_composes (onState_adds _) fun max => serveUsers_adds restrained _ _ _ _
    · exact .pure dispatches_composes ()
  intro s
  simp only [Act.collects_bind, Act.collects_update, Act.thenCollects_some, Act.collects_pure]
  exact ⟨dispatches_silent rfl rfl rfl rfl rfl, rfl⟩

end

/-! Interrupts one after the other. -/

/-- A handler is called on a line or on a vector, or the device is changed from elsewhere. -/
inductive Event where
  | isr (devId : Option XdevPtr)
  | userIrq (devId : Option (Fin 16))
  | device (dev : DevState)

/-- The state with the calls so far, and with the calls of xgpu_isr that have come to their end. -/
structure Sys (η : Type) where
  state : IsrState η
  calls : List (IsrCall η) := []
  returned : Nat := 0

section
variable (invoke : η → BitVec 8 → Nat → IsrState η → Int × IsrState η)

def step (s : Sys η) : Event → Sys η
  | .isr devId =>
      let out := (xgpuIsr invoke devId).run s.state
      { state := out.state
        calls := s.calls ++ out.trace.flatMap fun e => driverCall e.2
        returned := s.returned + if devId.isSome ∧ out.value.isSome then 1 else 0 }
  | .userIrq devId =>
      let out := (xgpuUserIrq invoke devId).run s.state
      { s with
        state := out.state
        calls := s.calls ++ out.trace.flatMap fun e => driverCall e.2 }
  | .device dev => { s with state := { s.state with dev := dev } }

def machine : Machine (Sys η) Event := ⟨fun _ _ => True, step invoke⟩

end

variable {invoke : η → BitVec 8 → Nat → IsrState η → Int × IsrState η} {start s : Sys η} {es : List Event}

/-- What the calls so far have made of the start. -/
structure Inv (start s : Sys η) : Prop where
  dispatches : Dispatches start.state { s.state with irqCount := start.state.irqCount } s.calls
  counted : s.state.irqCount = start.state.irqCount + BitVec.ofNat 32 s.returned

/-- More calls, with the same number of them counted. -/
theorem Inv.next (inv : Inv start s) {t : IsrState η} {more : List (IsrCall η)} {count : Nat}
    (later : Dispatches s.state { t with irqCount := s.state.irqCount } more)
    (counted : t.irqCount = s.state.irqCount + BitVec.ofNat 32 count) :
    Inv start { state := t, calls := s.calls ++ more, returned := s.returned + count } := by
  have rebased : Dispatches { s.state with irqCount := start.state.irqCount }
      { t with irqCount := start.state.irqCount } more :=
    ⟨later.handling, later.woken, later.waiting, later.served, later.handled, rfl⟩
  refine ⟨dispatches_composes.trans inv.dispatches rebased, ?_⟩
  rw [counted, inv.counted, BitVec.add_assoc, ← BitVec.ofNat_add]

theorem inv_step (restrained : Restrained invoke) (inv : Inv start s) (e : Event) :
    Inv start (step invoke s e) := by
  cases e with
  | isr devId =>
    cases devId with
    | none =>
      have silent : Dispatches s.state { s.state with irqCount := s.state.irqCount } [] :=
        dispatches_composes.refl s.state
      exact inv.next silent (BitVec.add_zero _).symm
    | some xdev =>
      obtain ⟨later, counted⟩ := xgpuIsr_counted restrained xdev s.state
      have made := inv.next later counted
      unfold step
      simpa using made
  | userIrq devId =>
    have later := xgpuUserIrq_adds restrained devId s.state
    have counted : ((xgpuUserIrq invoke devId).run s.state).state.irqCount =
        s.state.irqCount + BitVec.ofNat 32 0 :=
      later.counted.trans (BitVec.add_zero _).symm
    exact inv.next (counted_cut later).1 counted
  | device dev =>
    obtain ⟨handling, woken, waiting, served, handled, _⟩ := inv.dispatches
    exact ⟨⟨handling, woken, waiting, served, handled, rfl⟩, inv.counted⟩

/-- In any sequence of interrupts, on whatever the registers hold, from records without events: the
waiters of a record are woken once if it has no handler and has been served, and never else, however
often it is served; every service of a record with a handler is one call of that handler with the
index and the device of the record, and there is no other call of a handler; irq_count counts the
calls of xgpu_isr that have come to their end, modulo 2^32. -/
theorem user_events (restrained : Restrained invoke) (idle : ∀ i, (start.state.userIrq i).eventsIrq = 0)
    (fresh : start.calls = []) (zero : start.returned = 0)
    (run : (machine invoke).Run (fun _ _ => True) start es s) :
    (∀ i, (s.calls.filterMap wokenOf).count i ≤ 1) ∧
    (∀ i, i ∈ s.calls.filterMap wokenOf ↔
      (start.state.userIrq i).handler = none ∧ i ∈ s.calls.filterMap servicedOf) ∧
    (s.calls.filterMap handledOf =
      (s.calls.filterMap servicedOf).filterMap fun i => handling (start.state.userIrq i)) ∧
    s.state.irqCount = start.state.irqCount + BitVec.ofNat 32 s.returned := by
  have first : Inv start start := by
    refine ⟨?_, ?_⟩
    · rw [fresh]
      exact dispatches_composes.refl start.state
    · rw [zero]
      exact (BitVec.add_zero _).symm
  have inv := run.invariant (Inv start) first fun _ e inv _ _ => inv_step restrained inv e
  have down (i : Fin 16) : pending (start.state.userIrq i) = 0 := if_pos (idle i)
  have bound (i : Fin 16) := pending_le (s.state.userIrq i)
  refine ⟨fun i => ?_, fun i => ⟨fun among => ?_, fun known => ?_⟩, inv.dispatches.handled, inv.counted⟩
  · have woken := inv.dispatches.woken i
    rw [down, Nat.zero_add] at woken
    exact woken ▸ bound i
  · exact (inv.dispatches.served i among).symm
  · have woken := inv.dispatches.woken i
    have up := inv.dispatches.waiting i known.2 known.1
    rw [down, Nat.zero_add, up] at woken
    exact List.count_pos_iff.mp (Nat.lt_of_lt_of_eq Nat.zero_lt_one woken.symm)

/-- The device of an example requests its first interrupt, which then comes on its vector too. -/
theorem user_events_twice : ∃ s, (machine acknowledge).Run (fun _ _ => True) ⟨requesting 0, [], 0⟩
    [.isr (some ⟨0, 0⟩), .userIrq (some 0)] s ∧ (s.calls.filterMap wokenOf).count 0 ≤ 1 ∧
      0 ∈ s.calls.filterMap wokenOf ∧ s.state.irqCount = 1 := by
  have restrained : Restrained acknowledge := fun _ _ _ _ => ⟨rfl, rfl⟩
  have run : (machine acknowledge).Run (fun _ _ => True) ⟨requesting 0, [], 0⟩ _ _ :=
    .next (Event.userIrq (some 0)) (.next (Event.isr (some ⟨0, 0⟩)) .start trivial trivial) trivial trivial
  obtain ⟨once, woken, _, counted⟩ := user_events restrained (fun _ => rfl) rfl rfl run
  refine ⟨_, run, once 0, (woken 0).mpr ⟨rfl, ?_⟩, counted.trans ?_⟩
  · decide +kernel
  · decide +kernel

end PcieUtil.System.UserEvents
