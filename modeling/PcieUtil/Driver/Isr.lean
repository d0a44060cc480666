import PcieUtil.Driver.Irq
import PcieUtil.Driver.Transfers
import PcieUtil.Lib.BitScan

/-! The interrupt handler xgpu_isr of libxgpu.c, which serves the user interrupts that the
device requests. -/

namespace PcieUtil.Driver.Isr
open Lib.Action Lib.BitScan State Kernel Irq

/-- `struct xgpu_user_irq`, without its lock and the back pointer to the device. A handler gets
user_idx and dev. -/
structure UserIrq (η : Type) where
  userIdx : BitVec 8
  eventsIrq : BitVec 8
  handler : Option η
  dev : Nat

/-- What the handler works on: the device, the user_irq records and irq_count of its xgpu_dev. -/
structure IsrState (η : Type) where
  dev : DevState
  userIrq : Fin 16 → UserIrq η
  irqCount : BitVec 32 := 0

/-- Calls of the kernel, of user_irq_service and of registered handlers. -/
inductive IsrCall (η : Type) where
  | kernel (call : Call)
  | userIrqService (userIrq : Option (Fin 16))
  | handler (handler : η) (userIdx : BitVec 8) (dev : Nat)
  | wakeUpInterruptible (i : Fin 16)

def IRQ_NONE : Int := 0
def IRQ_HANDLED : Int := 1

abbrev IsrM (η : Type) := Act (IsrState η) (IsrCall η)

section
variable {η : Type}

/-- An action on the device. -/
def onState {α : Type} (act : DevM α) : IsrM η α :=
  Act.relabel .kernel (Act.zoom IsrState.dev (fun s dev => { s with dev := dev }) act)

def setUserIrq (i : Fin 16) (record : UserIrq η) (s : IsrState η) : IsrState η :=
  { s with userIrq := Function.update s.userIrq i record }

variable (invoke : η → BitVec 8 → Nat → IsrState η → Int × IsrState η)

def userIrqService (userIrq : Option (Fin 16)) : IsrM η Int := do
  Act.call (.userIrqService userIrq) fun s => ((), s)
  match userIrq with
  | none => return IRQ_NONE
  | some i =>
      let record ← Act.read fun s => s.userIrq i
      match record.handler with
      | some handler =>
          Act.call (.handler handler record.userIdx record.dev) (invoke handler record.userIdx record.dev)
      | none =>
          if record.eventsIrq = 0 then
            Act.update (setUserIrq i { record with eventsIrq := 1 })
            Act.call (.wakeUpInterruptible i) fun s => ((), s)
            return IRQ_HANDLED
          else return IRQ_HANDLED

/-- `&xdev->user_irq[user]` -/
def userIrqAt (user : Nat) : IsrM η (Fin 16) :=
  if bound : user < 16 then pure ⟨user, bound⟩ else Act.fault

/-- The loop over the user interrupts; the first argument is how many are left below max. -/
def serveUsers : Nat → Nat → BitVec 32 → BitVec 32 → IsrM η Unit
  | 0, _, _, _ => pure ()
  | left + 1, user, mask, userIrq =>
      if userIrq = 0 then pure ()
      else if userIrq &&& mask ≠ 0 then do
        let i ← userIrqAt user
        let _ ← userIrqService invoke (some i)
        serveUsers left (user + 1) (mask <<< 1) (userIrq &&& ~~~mask)
      else serveUsers left (user + 1) (mask <<< 1) userIrq

def xgpuIsr (devId : Option XdevPtr) : IsrM η Int := do
  match devId with
  | none => return -IRQ_NONE
  | some xdev =>
      let base ← onState (configBase xdev)
      let chIrq ← onState (ioread32 base (XDMA_OFS_INT_CTRL + channelIntRequest))
      (if chIrq ≠ 0 then onState (channelInterruptsDisable xdev chIrq) else pure ())
      let userIrq ← onState (ioread32 base (XDMA_OFS_INT_CTRL + userIntRequest))
      (if userIrq ≠ 0 then do
        let max ← onState (loadXdev xdev XgpuDev.userMax)
        serveUsers invoke max 0 1 userIrq
      else pure ())
      Act.update fun s => { s with irqCount := s.irqCount + 1 }
      return IRQ_HANDLED

end

section
variable {η : Type}

/-- The index that a call of user_irq_service is for. -/
def servedIndex : IsrCall η → List Nat
  | .userIrqService (some i) => [i.val]
  | _ => []

/-- The config BAR as xgpu_isr finds it. -/
def configMapping (s : IsrState η) (xdev : XdevPtr) : Option Mapping :=
  (s.dev.xdev xdev).bar (s.dev.xdev xdev).configBarIdx

/-- The registers once the channel interrupts that they request are disabled. -/
def quieted (s : DevState) (m : Mapping) : Regs :=
  let chIrq := s.regs m.bar (XDMA_OFS_INT_CTRL + channelIntRequest)
  if chIrq = 0 then s.regs else s.bus.regWrite s.regs m.bar (XDMA_OFS_INT_CTRL + channelIntEnableW1c) chIrq

/-- The value of user_int_request, when it is read. Without a mapping it is what an access through NULL
gives, and nothing is requested when that stops the kernel. -/
def requested (s : IsrState η) (xdev : XdevPtr) : BitVec 32 :=
  match configMapping s xdev with
  | none => s.dev.bus.nullRegister.getD 0
  | some m => quieted s.dev m m.bar (XDMA_OFS_INT_CTRL + userIntRequest)

/-- A user interrupt below user_max that the device requests. -/
def IsRequested (s : IsrState η) (xdev : XdevPtr) (i : Nat) : Prop :=
  i < (s.dev.xdev xdev).userMax ∧ (requested s xdev).getLsbD i = true

/-- A record after user_irq_service. The number of events stays when it is not zero. -/
def serviced (record : UserIrq η) : UserIrq η :=
  if record.handler.isNone ∧ record.eventsIrq = 0 then { record with eventsIrq := 1 } else record

/-- A registered handler leaves the user_irq records alone. -/
def KeepsRecords (invoke : η → BitVec 8 → Nat → IsrState η → Int × IsrState η) : Prop :=
  ∀ handler userIdx dev s, (invoke handler userIdx dev s).2.userIrq = s.userIrq

/-- The requested user interrupts are served, each once and in ascending order, and no other; the
other records stay, and a served record without a handler has an event. -/
structure Serves (s : IsrState η) (xdev : XdevPtr) (out : Outcome (IsrState η) (IsrCall η) Int) :
    Prop where
  calls : (out.trace.flatMap fun e => servedIndex e.2) =
    (List.range (s.dev.xdev xdev).userMax).filter fun i => (requested s xdev).getLsbD i
  kept : ∀ i : Fin 16, ¬ IsRequested s xdev i → out.state.userIrq i = s.userIrq i
  events : ∀ i : Fin 16, IsRequested s xdev i → (s.userIrq i).handler = none →
    (out.state.userIrq i).eventsIrq = if (s.userIrq i).eventsIrq = 0 then 1 else (s.userIrq i).eventsIrq

variable {invoke : η → BitVec 8 → Nat → IsrState η → Int × IsrState η} {s : IsrState η}

@[simp] theorem collects_onState {α : Type} {act : DevM α} {Q : Option α → IsrState η → List Nat → Prop} :
    Act.collects servedIndex (onState act) Q s ↔
      Act.collects (fun _ => []) act (fun v dev picked => Q v { s with dev := dev } picked) s.dev := by
  rw [onState, Act.collects_relabel, Act.collects_zoom]
  rfl

theorem userIrqService_collects (keeps : KeepsRecords invoke) (i : Fin 16) :
    Act.collects servedIndex (userIrqService invoke (some i)) (fun v t served => v.isSome ∧
      t.userIrq = Function.update s.userIrq i (serviced (s.userIrq i)) ∧ served = [i.val]) s := by
  unfold userIrqService serviced
  simp only [Act.collects_bind, Act.collects_call, Act.thenCollects_some, Act.collects_read]
  cases registered : (s.userIrq i).handler with
  | some handler => simp [servedIndex, keeps handler]
  | none =>
    by_cases idle : (s.userIrq i).eventsIrq = 0#8
    · simp [servedIndex, idle, setUserIrq]
    · simp [servedIndex, idle]

/-- Which records the loop serves: those of the pending bits between user and max. -/
theorem serveUsers_collects (keeps : KeepsRecords invoke) {value pending : BitVec 32} (left user : Nat)
    (from_user : PendingFrom value pending user) (few : user + left ≤ 16) :
    Act.collects servedIndex (serveUsers invoke left user (maskOf 32 user) pending)
      (fun v t served => v = some () ∧
        served = (List.range' user left).filter (fun i => value.getLsbD i) ∧
        ∀ i : Fin 16, t.userIrq i =
          if i.val ∈ served then serviced (s.userIrq i) else s.userIrq i) s := by
  induction left generalizing user pending s with
  | zero => simp [serveUsers]
  | succ left ih =>
    unfold serveUsers
    by_cases empty : pending = 0
    · have none_left : (List.range' user (left + 1)).filter (fun i => value.getLsbD i) = [] := by
        rw [List.filter_eq_nil_iff]
        intro i member
        have behind := (List.mem_range'_1.mp member).1
        subst empty
        simp [from_user.rest_clear behind]
      simp [empty, none_left]
    · rw [if_neg empty, maskOf_succ]
      have inside : user < 16 := by omega
      have hit := from_user.hit_iff (by omega)
      by_cases set : value.getLsbD user = true
      · rw [if_pos (hit.mpr set), userIrqAt, dif_pos inside, pure_bind, Act.collects_bind]
        obtain ⟨returned, records, served⟩ := userIrqService_collects (s := s) keeps ⟨user, inside⟩
        obtain ⟨ret, value_eq⟩ := Option.isSome_iff_exists.mp returned
        rw [Act.collects_value value_eq, Act.thenCollects_some, served]
        have rest := ih (s := ((userIrqService invoke (some ⟨user, inside⟩)).run s).state)
          (user + 1) (from_user.cleared (by omega)) (by omega)
        apply Act.collects_mono rest
        intro v t later both
        obtain ⟨done, indices, after⟩ := both
        have split : [user] ++ later = (List.range' user (left + 1)).filter fun i => value.getLsbD i := by
          rw [List.range'_succ, List.filter_cons_of_pos (by simpa using set), indices]
          rfl
        refine ⟨done, split, fun i => ?_⟩
        rw [after, records]
        have absent : user ∉ later := by
          rw [indices, List.mem_filter, List.mem_range'_1]
          omega
        by_cases here : i = ⟨user, inside⟩
        · subst here
          simp [absent]
        · have other : i.val ≠ user := fun same => here (Fin.ext same)
          simp [here, other]
      · have clear : value.getLsbD user = false := by simpa using set
        rw [if_neg fun found => set (hit.mp found)]
        have rest := ih (s := s) (user + 1) (from_user.skipped clear) (by omega)
        have skipped : (List.range' user (left + 1)).filter (fun i => value.getLsbD i) =
            (List.range' (user + 1) left).filter fun i => value.getLsbD i := by
          rw [List.range'_succ, List.filter_cons_of_neg (by simp [clear])]
        rw [skipped]
        exact rest

/-- The word that an interrupt register is read as, when the kernel goes on. -/
def wordIn (d : DevState) (offset : Nat) : Option Mapping → Option (BitVec 32)
  | none => d.bus.nullRegister
  | some m => some (d.regs m.bar offset)

theorem collects_ioread32 {κ : Type} {base : Option Mapping} {offset : Nat} {d : DevState}
    {Q : Option (BitVec 32) → DevState → List κ → Prop} :
    Act.collects (fun _ => []) (ioread32 base offset) Q d ↔
      Q (wordIn d offset base) d [] := by
  cases base with
  | none =>
    simp only [ioread32, nullAccess, Act.collects_bind, Act.collects_call, Act.thenCollects_some,
      Act.collects_read, List.nil_append, wordIn]
    cases d.bus.nullRegister <;> simp
  | some m => simp [ioread32, wordIn]

/-- Disabling the channel interrupts changes nothing but the registers of the config BAR. -/
theorem disable_collects {xdev : XdevPtr} {chIrq : BitVec 32}
    (carried : configMapping s xdev = none → s.dev.bus.nullRegister ≠ none) :
    Act.collects servedIndex
      (if chIrq ≠ 0 then onState (channelInterruptsDisable xdev chIrq) else pure ())
      (Act.gives fun _ t served => t.userIrq = s.userIrq ∧ t.dev.xdev = s.dev.xdev ∧
        t.dev.bus.nullRegister = s.dev.bus.nullRegister ∧
        (∀ m, configMapping s xdev = some m → t.dev.regs = if chIrq = 0 then s.dev.regs else
          s.dev.bus.regWrite s.dev.regs m.bar (XDMA_OFS_INT_CTRL + channelIntEnableW1c) chIrq) ∧
        served = []) s := by
  unfold configMapping at *
  by_cases idle : chIrq = 0
  · simp [idle]
  · rw [if_pos idle]
    cases mapped : (s.dev.xdev xdev).bar (s.dev.xdev xdev).configBarIdx with
    | none =>
      obtain ⟨word, goesOn⟩ := Option.ne_none_iff_exists'.mp (carried mapped)
      simp [channelInterruptsDisable, configBase, loadXdev, mapped, iowrite32, nullAccess, goesOn]
    | some m =>
      simp only [channelInterruptsDisable, configBase, loadXdev, iowrite32, collects_onState,
        Act.collects_bind, Act.collects_read, Act.thenCollects_some, mapped, Act.collects_call, if_neg idle]
      simp

/-- When the first read stops the kernel, nothing is requested. -/
theorem requested_stopped {xdev : XdevPtr} {offset : Nat}
    (stopped : wordIn s.dev offset (configMapping s xdev) = none) : requested s xdev = 0 := by
  unfold requested
  cases mapped : configMapping s xdev with
  | none =>
    rw [mapped, wordIn] at stopped
    rw [stopped]
    rfl
  | some m =>
    rw [mapped, wordIn] at stopped
    cases stopped

/-- What the second read finds behind the first one and the disabling. -/
theorem requested_read {xdev : XdevPtr} {chIrq : BitVec 32} {d : DevState}
    (first : wordIn s.dev (XDMA_OFS_INT_CTRL + channelIntRequest) (configMapping s xdev) = some chIrq)
    (null : d.bus.nullRegister = s.dev.bus.nullRegister)
    (register : ∀ m, configMapping s xdev = some m → d.regs = if chIrq = 0 then s.dev.regs else
      s.dev.bus.regWrite s.dev.regs m.bar (XDMA_OFS_INT_CTRL + channelIntEnableW1c) chIrq) :
    wordIn d (XDMA_OFS_INT_CTRL + userIntRequest) (configMapping s xdev) = some (requested s xdev) := by
  unfold requested
  cases mapped : configMapping s xdev with
  | none =>
    rw [mapped, wordIn] at first
    rw [wordIn, null, first]
    rfl
  | some m =>
    rw [mapped, wordIn, Option.some.injEq] at first
    simp only [wordIn, register m mapped, quieted, first]

/-- The requests as the loop finds them. -/
theorem serveRequests_collects (keeps : KeepsRecords invoke) {xdev : XdevPtr}
    (few : (s.dev.xdev xdev).userMax ≤ 16) (userIrq : BitVec 32) :
    Act.collects servedIndex
      (if userIrq ≠ 0 then do
        let max ← onState (loadXdev xdev XgpuDev.userMax)
        serveUsers invoke max 0 1 userIrq
      else pure ())
      (Act.gives fun _ t served =>
        served = ((List.range (s.dev.xdev xdev).userMax).filter fun i => userIrq.getLsbD i) ∧
          ∀ i : Fin 16, t.userIrq i =
            if i.val ∈ served then serviced (s.userIrq i) else s.userIrq i) s := by
  by_cases idle : userIrq = 0
  · simp [idle]
  · have loop := serveUsers_collects (s := s) keeps (s.dev.xdev xdev).userMax 0
      (PendingFrom.start userIrq) (by omega)
    have first_mask : maskOf 32 0 = 1 := by decide
    rw [first_mask] at loop
    rw [if_pos idle]
    simp only [Act.collects_bind, collects_onState, loadXdev, Act.collects_read, Act.thenCollects_some,
      List.nil_append]
    apply Act.collects_mono loop
    intro v t served post
    obtain ⟨done, indices, records⟩ := post
    subst done
    rw [List.range_eq_range']
    exact ⟨indices, records⟩

/-- The whole handler. -/
theorem xgpuIsr_collects (keeps : KeepsRecords invoke) {xdev : XdevPtr}
    (few : (s.dev.xdev xdev).userMax ≤ 16) :
    Act.collects servedIndex (xgpuIsr invoke (some xdev)) (fun _ t served =>
      served = ((List.range (s.dev.xdev xdev).userMax).filter fun i => (requested s xdev).getLsbD i) ∧
        ∀ i : Fin 16, t.userIrq i =
          if i.val ∈ served then serviced (s.userIrq i) else s.userIrq i) s := by
  unfold xgpuIsr
  simp only [Act.collects_bind, collects_onState, configBase, loadXdev, Act.collects_read,
    Act.thenCollects_some, List.nil_append, collects_ioread32]
  change Act.thenCollects _ _ (wordIn s.dev (XDMA_OFS_INT_CTRL + channelIntRequest) (configMapping s xdev)) s []
  cases first : wordIn s.dev (XDMA_OFS_INT_CTRL + channelIntRequest) (configMapping s xdev) with
  | none =>
    have nothing : requested s xdev = 0 := requested_stopped first
    simp [nothing]
  | some chIrq =>
    have carried : configMapping s xdev = none → s.dev.bus.nullRegister ≠ none := by
      intro unmapped stopped
      rw [unmapped, wordIn, stopped] at first
      cases first
    simp only [Act.thenCollects_some, List.nil_append]
    apply Act.collects_after (disable_collects carried)
    intro _ t nothing disabled
    obtain ⟨records, xdevs, null, register, rfl⟩ := disabled
    have second : wordIn t.dev (XDMA_OFS_INT_CTRL + userIntRequest)
        ((s.dev.xdev xdev).bar (s.dev.xdev xdev).configBarIdx) = some (requested s xdev) :=
      requested_read first null register
    simp only [second, Act.thenCollects_some, List.nil_append]
    have few_left : (t.dev.xdev xdev).userMax ≤ 16 := by
      rw [xdevs]
      exact few
    apply Act.collects_after (serveRequests_collects keeps few_left _)
    intro _ u served both
    rw [xdevs, records] at both
    simp only [Act.collects_update, Act.collects_pure, Act.thenCollects_some, List.append_nil]
    exact both

/-- For every value of user_int_request the handler serves the interrupts that it requests. -/
theorem xgpuIsr_serves (keeps : KeepsRecords invoke) (s : IsrState η) (xdev : XdevPtr)
    (few : (s.dev.xdev xdev).userMax ≤ 16) : Serves s xdev ((xgpuIsr invoke (some xdev)).run s) := by
  obtain ⟨calls, records⟩ := xgpuIsr_collects (s := s) keeps few
  have member (i : Fin 16) : i.val ∈ ((List.range (s.dev.xdev xdev).userMax).filter fun i =>
      (requested s xdev).getLsbD i) ↔ IsRequested s xdev i := by
    rw [List.mem_filter, List.mem_range, IsRequested]
  rw [calls] at records
  refine ⟨calls, fun i other => ?_, fun i wanted unhandled => ?_⟩
  · rw [records, if_neg fun inside => other ((member i).mp inside)]
  · rw [records, if_pos ((member i).mpr wanted), serviced]
    by_cases idle : (s.userIrq i).eventsIrq = 0#8
    · simp [idle, unhandled]
    · simp [idle]

end

/-- A handler that only acknowledges the interrupt. -/
def acknowledge : Unit → BitVec 8 → Nat → IsrState Unit → Int × IsrState Unit :=
  fun _ _ _ s => (IRQ_HANDLED, s)

theorem acknowledge_keeps : KeepsRecords acknowledge := fun _ _ _ _ => rfl

/-- A device with sixteen user interrupts that requests the first and the fourth of them. The
fourth has a handler, and each record has the given number of events. -/
def requesting (events : BitVec 8) : IsrState Unit where
  dev := {
    config := fun _ => 0
    regs := fun _ offset => if offset = 0x2040 then 9 else 0
    xdev := fun _ => { userMax := 16, configBarIdx := 1, bar := fun _ => some ⟨0, 1, 0, 0x8000⟩ } }
  userIrq := fun i => ⟨i.val, events, if i = 3 then some () else none, 0⟩

theorem xgpuIsr_serves_two :
    Serves (requesting 0) ⟨0, 0⟩ ((xgpuIsr acknowledge (some ⟨0, 0⟩)).run (requesting 0)) :=
  xgpuIsr_serves acknowledge_keeps (requesting 0) ⟨0, 0⟩ (by decide)

/-- A record that has two events keeps them, and does not end with one. -/
theorem events_kept :
    ¬ ∀ (η : Type) (invoke : η → BitVec 8 → Nat → IsrState η → Int × IsrState η) (s : IsrState η)
      (xdev : XdevPtr), KeepsRecords invoke → (s.dev.xdev xdev).userMax ≤ 16 →
        ∀ i : Fin 16, IsRequested s xdev i → (s.userIrq i).handler = none →
          (((xgpuIsr invoke (some xdev)).run s).state.userIrq i).eventsIrq = 1 := by
  intro all
  have event := all Unit acknowledge (requesting 2) ⟨0, 0⟩ acknowledge_keeps (by decide) 0
    ⟨by decide, by decide⟩ rfl
  revert event
  decide +kernel

end PcieUtil.Driver.Isr
