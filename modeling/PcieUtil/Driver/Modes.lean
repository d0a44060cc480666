import PcieUtil.Driver.Irq

/-! The three interrupt modes: what each one leaves enabled and registered, and
that the setup, teardown and unwinding code of libxgpu.c moves between exactly
these situations. -/

namespace PcieUtil.Driver.Modes
open Lib.Action Lib.Bytes State Kernel Discipline Irq

inductive Mode where
  | msix
  | msi
  | legacy
  deriving DecidableEq, Repr

/-- The mode that enable_msi_msix goes for. -/
def selectMode (hw : Dev → PciDev) (interruptMode : Nat) (pdev : Dev) : Mode :=
  if (interruptMode = 3 ∨ interruptMode = 0) ∧ msiMsixCapable hw pdev .msix then .msix
  else if (interruptMode = 1 ∨ interruptMode = 0) ∧ msiMsixCapable hw pdev .msi then .msi
  else .legacy

namespace Mode

/-- The error number of the kernel call that enables the mode. -/
def errno (env : Env) : Mode → Nat
  | msix => env.errno .allocIrqVectors
  | msi => env.errno .enableMsi
  | legacy => 0

def Enables (env : Env) (mode : Mode) : Prop := mode.errno env = 0

instance (env : Env) (mode : Mode) : Decidable (mode.Enables env) :=
  inferInstanceAs (Decidable (mode.errno env = 0))

def state (userMax : Nat) : Mode → MsiState
  | msix => .msix userMax
  | msi => .msi
  | legacy => .off

def mark (X : XgpuDev) : Mode → XgpuDev
  | msix => { X with msixEnabled := true }
  | msi => { X with msiEnabled := true }
  | legacy => X

/-- irq_line after the setup. -/
def line (hw : Dev → PciDev) (pdev : Dev) (before : Option Irq) : Mode → Option Irq
  | msix => before
  | msi => some (.msi pdev)
  | legacy => some (.line (hw pdev).irqLine)

def msixAction (x : XdevPtr) (i : Nat) : IrqAction := ⟨.msix x.pdev i, .xgpuUserIrq, .userIrq x i⟩

/-- The handlers that the setup registers, the latest one first. -/
def actions (hw : Dev → PciDev) (x : XdevPtr) (userMax : Nat) : Mode → List IrqAction
  | msix => (List.range userMax).reverse.map (msixAction x)
  | msi => [⟨.msi x.pdev, .xgpuIsr, .xdev x⟩]
  | legacy => [⟨.line (hw x.pdev).irqLine, .xgpuIsr, .xdev x⟩]

@[simp] theorem mark_bar (mode : Mode) (X : XgpuDev) : (mode.mark X).bar = X.bar := by
  cases mode <;> rfl

@[simp] theorem mark_configBarIdx (mode : Mode) (X : XgpuDev) :
    (mode.mark X).configBarIdx = X.configBarIdx := by
  cases mode <;> rfl

@[simp] theorem mark_userMax (mode : Mode) (X : XgpuDev) : (mode.mark X).userMax = X.userMax := by
  cases mode <;> rfl

@[simp] theorem mark_irqLine (mode : Mode) (X : XgpuDev) : (mode.mark X).irqLine = X.irqLine := by
  cases mode <;> rfl

@[simp] theorem mark_gotRegions (mode : Mode) (X : XgpuDev) :
    (mode.mark X).gotRegions = X.gotRegions := by
  cases mode <;> rfl

@[simp] theorem mark_regionsInUse (mode : Mode) (X : XgpuDev) :
    (mode.mark X).regionsInUse = X.regionsInUse := by
  cases mode <;> rfl

end Mode

section
variable {hw : Dev → PciDev} {env : Env} {x : XdevPtr} {pdev : Dev} {o s : DevState} {h : Held}
  {X : XgpuDev} {E : Prop}

/-! Enabling and disabling. -/

theorem pciAllocIrqVectors_step (now : Becomes x o s h X) (served : Served hw x o h X)
    (off : h.msi = .off) (n : Nat) :
    Act.wp (Lawful hw E x.pdev) (pciAllocIrqVectors hw env x.pdev n n) (Act.returns fun rv t =>
      if env.errno .allocIrqVectors = 0 then 0 ≤ rv ∧ Becomes x o t { h with msi := .msix n } X
      else rv < 0 ∧ Becomes x o t h X) s := by
  simp only [pciAllocIrqVectors, pciCall, Act.wp_call, now.held, off, ne_eq, not_true_eq_false,
    if_false]
  refine ⟨⟨trivial, served.attended now, .inl ⟨rfl, by rw [now.held, off]⟩⟩, ?_⟩
  by_cases ok : env.errno .allocIrqVectors = 0
  · simp only [if_pos ok, Act.returns_some]
    exact ⟨Int.natCast_nonneg n, (now.withHeld _).withConfig _⟩
  · simp only [if_neg ok, Act.returns_some]
    exact ⟨rv_neg ok, now.withConfig _⟩

theorem pciEnableMsi_step (now : Becomes x o s h X) (served : Served hw x o h X)
    (off : h.msi = .off) (site : Site) :
    Act.wp (Lawful hw E x.pdev) (pciEnableMsi hw env site x.pdev) (Act.returns fun rv t =>
      if env.errno site = 0 then rv = 0 ∧ Becomes x o t { h with msi := .msi } X
      else rv < 0 ∧ Becomes x o t h X) s := by
  simp only [pciEnableMsi, pciCall, Act.wp_call, now.held, off, ne_eq, not_true_eq_false, if_false]
  refine ⟨⟨trivial, served.attended now, .inl ⟨rfl, by rw [now.held, off]⟩⟩, ?_⟩
  by_cases ok : env.errno site = 0
  · simp only [if_pos ok, Act.returns_some]
    exact ⟨trivial, (now.withHeld _).withConfig _⟩
  · simp only [if_neg ok, Act.returns_some]
    exact ⟨rv_neg ok, now.withConfig _⟩

/-- Enabling a second mode is refused, and is one of the exceptions. -/
theorem pciEnableMsi_refused (now : Becomes x o s h X) (served : Served hw x o h X)
    (on : h.msi ≠ .off) (site : Site) (exception : E) :
    Act.wp (Lawful hw E x.pdev) (pciEnableMsi hw env site x.pdev) (Act.returns fun rv t =>
      rv = -EINVAL ∧ Becomes x o t h X) s := by
  simp only [pciEnableMsi, pciCall, Act.wp_call, now.held, if_pos on, Act.returns_some]
  exact ⟨⟨trivial, served.attended now, .inr exception⟩, trivial, now.withConfig _⟩

/-- The mode that pci_disable_msi is for is on, or nothing is and the call is
one of the exceptions. -/
theorem pciDisableMsi_step (now : Becomes x o s h X) (served : Served hw x o h X)
    (on : h.msi = .msi ∨ h.msi = .off ∧ E) :
    Act.wp (Lawful hw E x.pdev) (pciDisableMsi hw x.pdev) (Act.returns fun _ t =>
      Becomes x o t { h with msi := .off } X) s := by
  simp only [pciDisableMsi, pciCall, Act.wp_call, Act.returns_some, now.held]
  obtain on | ⟨off, exception⟩ := on
  · refine ⟨⟨trivial, served.attended now, .inl ⟨rfl, by rw [now.held, on]⟩⟩, ?_⟩
    rw [if_pos on]
    exact (now.withHeld _).withConfig _
  · refine ⟨⟨trivial, served.attended now, .inr exception⟩, ?_⟩
    rw [if_neg (by rw [off]; decide), ← off]
    exact now.withConfig _

theorem pciDisableMsix_step (now : Becomes x o s h X) (served : Served hw x o h X)
    (on : (∃ n, h.msi = .msix n) ∨ h.msi = .off ∧ E) :
    Act.wp (Lawful hw E x.pdev) (pciDisableMsix hw x.pdev) (Act.returns fun _ t =>
      Becomes x o t { h with msi := .off } X) s := by
  simp only [pciDisableMsix, pciCall, Act.wp_call, Act.returns_some, now.held]
  obtain ⟨n, on⟩ | ⟨off, exception⟩ := on
  · refine ⟨⟨trivial, served.attended now, .inl ⟨rfl, n, by rw [now.held, on]⟩⟩, ?_⟩
    simp only [on]
    exact (now.withHeld _).withConfig _
  · refine ⟨⟨trivial, served.attended now, .inr exception⟩, ?_⟩
    simp only [off]
    have same : { h with msi := .off } = h := by rw [← off]
    rw [same]
    exact now.withConfig _

/-- The flags of the structure tell which mode is on. -/
def FlagsFit (E : Prop) (X : XgpuDev) (state : MsiState) : Prop :=
  if X.msixEnabled then (∃ n, state = .msix n) ∨ state = .off ∧ E
  else if X.msiEnabled then state = .msi ∨ state = .off ∧ E
  else state = .off

theorem disableMsiMsix_step (now : Becomes x o s h X) (idle : h.actions = [])
    (fit : FlagsFit E X h.msi) :
    Act.wp (Lawful hw E x.pdev) (disableMsiMsix hw x x.pdev) (Act.returns fun _ t => ∃ one two,
      Becomes x o t { h with msi := .off } { X with msiEnabled := one, msixEnabled := two }) s := by
  unfold FlagsFit at fit
  refine Act.wp_seq (loadXdev_step now _) ?_
  rintro _ s ⟨now, rfl⟩
  by_cases msix : X.msixEnabled = true
  · rw [if_pos msix] at fit ⊢
    refine Act.wp_seq (pciDisableMsix_step now (.of_idle idle) fit) fun _ s now => ?_
    exact Act.wp_returns_mono (storeXdev_step now _) fun _ t now => ⟨_, _, now⟩
  · rw [if_neg msix] at fit ⊢
    refine Act.wp_seq (loadXdev_step now _) ?_
    rintro _ s ⟨now, rfl⟩
    by_cases msi : X.msiEnabled = true
    · rw [if_pos msi] at fit ⊢
      refine Act.wp_seq (pciDisableMsi_step now (.of_idle idle) fit) fun _ s now => ?_
      exact Act.wp_returns_mono (storeXdev_step now _) fun _ t now => ⟨_, _, now⟩
    · rw [if_neg msi] at fit ⊢
      have same : { h with msi := .off } = h := by rw [← fit]
      rw [Act.wp_pure, same]
      exact ⟨_, _, now⟩

/-- enable_msi_msix marks the structure with the mode it goes for, whether or not
the kernel enables it. -/
theorem enableMsiMsix_step (now : Becomes x o s h X) (idle : h.actions = []) (off : h.msi = .off) :
    let mode := selectMode hw env.interruptMode x.pdev
    Act.wp (Lawful hw E x.pdev) (enableMsiMsix hw env x x.pdev) (Act.returns fun rv t =>
      if mode.Enables env then
        0 ≤ rv ∧ Becomes x o t { h with msi := mode.state X.userMax } (mode.mark X)
      else rv < 0 ∧ Becomes x o t h (mode.mark X)) s := by
  unfold enableMsiMsix selectMode
  by_cases msix : (env.interruptMode = 3 ∨ env.interruptMode = 0) ∧ msiMsixCapable hw x.pdev .msix
  · simp only [if_pos msix]
    refine Act.wp_seq (loadXdev_step now _) ?_
    rintro _ s ⟨now, rfl⟩
    refine Act.wp_seq (pciAllocIrqVectors_step now (.of_idle idle) off _) fun rv s outcome => ?_
    by_cases ok : env.errno .allocIrqVectors = 0
    · rw [if_pos ok] at outcome
      refine Act.wp_seq (storeXdev_step outcome.2 _) fun _ s now => ?_
      rw [Act.wp_pure, Act.returns_some, if_pos (show Mode.msix.Enables env from ok)]
      exact ⟨outcome.1, now⟩
    · rw [if_neg ok] at outcome
      refine Act.wp_seq (storeXdev_step outcome.2 _) fun _ s now => ?_
      rw [Act.wp_pure, Act.returns_some, if_neg (show ¬ Mode.msix.Enables env from ok)]
      exact ⟨outcome.1, now⟩
  · simp only [if_neg msix]
    by_cases msi : (env.interruptMode = 1 ∨ env.interruptMode = 0) ∧ msiMsixCapable hw x.pdev .msi
    · simp only [if_pos msi]
      refine Act.wp_seq (pciEnableMsi_step now (.of_idle idle) off _) fun rv s outcome => ?_
      by_cases ok : env.errno .enableMsi = 0
      · rw [if_pos ok] at outcome
        refine Act.wp_seq (storeXdev_step outcome.2 _) fun _ s now => ?_
        rw [Act.wp_pure, Act.returns_some, if_pos (show Mode.msi.Enables env from ok)]
        exact ⟨Int.le_of_eq outcome.1.symm, now⟩
      · rw [if_neg ok] at outcome
        refine Act.wp_seq (storeXdev_step outcome.2 _) fun _ s now => ?_
        rw [Act.wp_pure, Act.returns_some, if_neg (show ¬ Mode.msi.Enables env from ok)]
        exact ⟨outcome.1, now⟩
    · have same : { h with msi := .off } = h := by rw [← off]
      simp only [if_neg msi]
      rw [Act.wp_pure, Act.returns_some, if_pos (show Mode.legacy.Enables env from rfl), Mode.state, same]
      exact ⟨Int.le_refl 0, now⟩

/-! The handlers. -/

theorem requestIrq_step (now : Becomes x o s h X) (served : Served hw x o h X) (site : Site)
    {irq : Irq} {handler : IrqHandler} {shared : Bool} (name : String) {devId : DevId}
    (unused : shared = false → irq.vectorOf = some x.pdev ∧ ∀ a ∈ h.actions, a.irq ≠ irq) :
    Act.wp (Lawful hw E x.pdev) (requestIrq env site irq handler shared name devId) (Act.returns fun rv t =>
      if env.errno site = 0 then
        rv = 0 ∧ Becomes x o t { h with actions := ⟨irq, handler, devId⟩ :: h.actions } X
      else rv < 0 ∧ Becomes x o t h X) s := by
  simp only [requestIrq, Act.wp_call]
  refine ⟨⟨trivial, served.attended now, .inl ?_⟩, ?_⟩
  · cases shared with
    | true => trivial
    | false =>
      change irq.vectorOf = some x.pdev ∧ ∀ a ∈ s.held.actions, a.irq ≠ irq
      rw [now.held]
      exact unused rfl
  · by_cases ok : env.errno site = 0
    · simp only [if_pos ok, Act.returns_some, now.held]
      exact ⟨trivial, now.withHeld _⟩
    · simp only [if_neg ok, Act.returns_some]
      exact ⟨rv_neg ok, now⟩

/-- Freeing a handler takes it out of the list. -/
theorem freeIrq_step (now : Becomes x o s h X) (served : Served hw x o h X) {a : IrqAction}
    (before after : List IrqAction) (split : h.actions = before ++ a :: after)
    (first : ∀ b ∈ before, b.irq ≠ a.irq) :
    Act.wp (Lawful hw E x.pdev) (freeIrq a.irq a.devId) (Act.returns fun _ t =>
      Becomes x o t { h with actions := before ++ after } X) s := by
  simp only [freeIrq, Act.wp_call, Act.returns_some, now.held]
  refine ⟨⟨⟨a, ?_, rfl, rfl⟩, served.attended now, .inl trivial⟩, ?_⟩
  · rw [now.held, split]
    simp
  · have erased : (before ++ a :: after).eraseP (fun b => b.irq = a.irq ∧ b.devId = a.devId) =
        before ++ after := by
      rw [List.eraseP_append_right _ (by simpa using fun b member same => absurd same (first b member)),
        List.eraseP_cons_of_pos (by simp)]
    rw [split, erased]
    exact now.withHeld _

theorem progVectorsFrom_step (now : Becomes x o s h X) (served : Served hw x o h X) {base : Option Mapping}
    (carried : Carried o.bus.nullRegister base) (vector max : Nat) (clear : Bool) (passes i j : Nat) :
    Act.wp (Lawful hw E x.pdev) (progVectorsFrom base vector max clear passes i j)
      (Act.returns fun _ t => Becomes x o t h X) s := by
  induction passes generalizing i j s with
  | zero =>
    rw [progVectorsFrom, Act.wp_pure]
    exact now
  | succ passes ih =>
    rw [progVectorsFrom]
    by_cases more : i < max
    · rw [if_pos more]
      generalize (if clear = true then (i + 4, 0) else packVectors max 4 i 0 0) = packed
      obtain ⟨i', val⟩ := packed
      exact Act.wp_seq (iowrite32_step now served carried _ _) fun _ s now => ih now _ _
    · rw [if_neg more, Act.wp_pure]
      exact now

/-- Programming or clearing the vectors changes registers only. -/
theorem progIrqMsixUser_step (now : Becomes x o s h X) (served : Served hw x o h X)
    (carried : Carried o.bus.nullRegister (X.bar X.configBarIdx)) (clear : Bool) :
    Act.wp (Lawful hw E x.pdev) (progIrqMsixUser x clear) (Act.returns fun _ t => Becomes x o t h X) s := by
  refine Act.wp_seq (loadXdev_step now _) ?_
  rintro _ s ⟨now, rfl⟩
  refine Act.wp_seq (loadXdev_step now _) ?_
  rintro _ s ⟨now, rfl⟩
  exact progVectorsFrom_step now served carried _ _ _ _ _ _

theorem progIrqMsixChannel_step (now : Becomes x o s h X) (clear : Bool) :
    Act.wp (Lawful hw E x.pdev) (progIrqMsixChannel x clear) (Act.returns fun _ t => Becomes x o t h X) s := by
  refine Act.wp_seq (loadXdev_step now _) ?_
  rintro _ s ⟨now, rfl⟩
  rw [progVectorsFrom, Act.wp_pure]
  exact now

/-! The MSI-X vectors from i up to i + count. -/

def msixFrom (x : XdevPtr) (i count : Nat) : List IrqAction :=
  (List.range' i count).reverse.map (Mode.msixAction x)

theorem mem_msixFrom {i count : Nat} {a : IrqAction} :
    a ∈ msixFrom x i count ↔ ∃ j, i ≤ j ∧ j < i + count ∧ a = Mode.msixAction x j := by
  simp only [msixFrom, List.mem_map, List.mem_reverse, List.mem_range'_1]
  constructor
  · rintro ⟨j, ⟨above, below⟩, rfl⟩
    exact ⟨j, above, below, rfl⟩
  · rintro ⟨j, above, below, rfl⟩
    exact ⟨j, ⟨above, below⟩, rfl⟩

/-- The lowest vector is the last of the list. -/
theorem msixFrom_low (i count : Nat) :
    msixFrom x i (count + 1) = msixFrom x (i + 1) count ++ [Mode.msixAction x i] := by
  simp [msixFrom, List.range'_succ]

/-- The highest vector is the first of the list. -/
theorem msixFrom_high (i : Nat) :
    msixFrom x 0 (i + 1) = Mode.msixAction x i :: msixFrom x 0 i := by
  simp [msixFrom, List.range'_concat]

theorem served_msixFrom (live : x ∈ o.xdevLive) {n : Nat} (i count : Nat) (below : i + count ≤ n)
    (on : h.msi = .msix n) (held : h.actions = msixFrom x i count) : Served hw x o h X := by
  intro a member
  rw [held] at member
  obtain ⟨j, above, upper, rfl⟩ := mem_msixFrom.mp member
  exact ⟨rfl, live, by simp [Mode.msixAction], n, on, by omega⟩

theorem irqMsixUserTeardownFrom_step (live : x ∈ o.xdevLive) {n : Nat} (count i : Nat)
    (now : Becomes x o s h X) (on : h.msi = .msix n) (below : i + count ≤ n)
    (held : h.actions = msixFrom x i count) :
    Act.wp (Lawful hw E x.pdev) (irqMsixUserTeardownFrom x count i) (Act.returns fun _ t =>
      Becomes x o t { h with actions := [] } X) s := by
  induction count generalizing i s h with
  | zero =>
    have empty : h.actions = [] := held
    rw [irqMsixUserTeardownFrom, Act.wp_pure, Act.returns_some, ← empty]
    exact now
  | succ count ih =>
    rw [irqMsixUserTeardownFrom]
    have split : h.actions = msixFrom x (i + 1) count ++ Mode.msixAction x i :: [] := by
      rw [held, msixFrom_low]
    have first : ∀ b ∈ msixFrom x (i + 1) count, b.irq ≠ (Mode.msixAction x i).irq := by
      intro b member same
      obtain ⟨j, above, _, rfl⟩ := mem_msixFrom.mp member
      simp only [Mode.msixAction, Irq.msix.injEq] at same
      omega
    have served : Served hw x o h X := served_msixFrom live i (count + 1) below on held
    refine Act.wp_seq (freeIrq_step now served _ _ split first) fun _ s now => ?_
    rw [List.append_nil] at now
    have rest := ih (i + 1) now on (by omega) rfl
    exact rest

theorem irqMsixUserRollback_step (live : x ∈ o.xdevLive) {n : Nat} (i : Nat)
    (now : Becomes x o s h X) (on : h.msi = .msix n) (below : i ≤ n)
    (held : h.actions = msixFrom x 0 i) :
    Act.wp (Lawful hw E x.pdev) (irqMsixUserRollback x i) (Act.returns fun _ t =>
      Becomes x o t { h with actions := [] } X) s := by
  induction i generalizing s h with
  | zero =>
    have empty : h.actions = [] := held
    rw [irqMsixUserRollback, Act.wp_pure, Act.returns_some, ← empty]
    exact now
  | succ i ih =>
    rw [irqMsixUserRollback]
    have split : h.actions = [] ++ Mode.msixAction x i :: msixFrom x 0 i := by
      rw [held, msixFrom_high, List.nil_append]
    have served : Served hw x o h X := served_msixFrom live 0 _ (by omega) on held
    refine Act.wp_seq (freeIrq_step now served _ _ split (by simp)) fun _ s now => ?_
    have rest := ih now on (by omega) rfl
    exact rest

/-- The vector loop registers every vector, or gives back those it had. -/
theorem irqMsixUserSetupFrom_step (live : x ∈ o.xdevLive) {n : Nat} (count i : Nat)
    (now : Becomes x o s h X) (on : h.msi = .msix n) (last : i + count = n)
    (held : h.actions = msixFrom x 0 i) :
    Act.wp (Lawful hw E x.pdev) (irqMsixUserSetupFrom env x count i) (Act.returns fun rv t =>
      rv = 0 ∧ Becomes x o t { h with actions := msixFrom x 0 n } X ∨
      rv < 0 ∧ 0 < n ∧ Becomes x o t { h with actions := [] } X) s := by
  induction count generalizing i s h with
  | zero =>
    have done : i = n := by omega
    subst done
    rw [irqMsixUserSetupFrom, Act.wp_pure, Act.returns_some, ← held]
    exact .inl ⟨rfl, now⟩
  | succ count ih =>
    rw [irqMsixUserSetupFrom]
    have served : Served hw x o h X := served_msixFrom live 0 _ (by omega) on held
    have unused : ∀ a ∈ h.actions, a.irq ≠ .msix x.pdev i := by
      intro a member same
      rw [held] at member
      obtain ⟨j, _, below, rfl⟩ := mem_msixFrom.mp member
      simp only [Mode.msixAction, Irq.msix.injEq] at same
      omega
    refine Act.wp_seq (loadXdev_step now _) ?_
    rintro _ s ⟨now, rfl⟩
    refine Act.wp_seq (requestIrq_step now served _ _ fun _ => ⟨rfl, unused⟩) fun rv s outcome => ?_
    by_cases ok : env.errno (.requestIrqMsix i) = 0
    · rw [if_pos ok] at outcome
      rw [if_neg (by simp [outcome.1])]
      have longer : msixFrom x 0 (i + 1) = ⟨.msix x.pdev i, .xgpuUserIrq, .userIrq x i⟩ :: h.actions := by
        rw [held]
        exact msixFrom_high i
      have rest := ih (i + 1) outcome.2 on (by omega) longer.symm
      exact rest
    · rw [if_neg ok] at outcome
      rw [if_pos (by omega)]
      refine Act.wp_seq (irqMsixUserRollback_step live i outcome.2 on (by omega) held) fun _ s now => ?_
      rw [Act.wp_pure, Act.returns_some]
      exact .inr ⟨outcome.1, by omega, now⟩

/-! The setup and the teardown of a whole mode. -/

/-- The flags of the structure name the mode. -/
structure Marked (mode : Mode) (X : XgpuDev) : Prop where
  msix : X.msixEnabled = decide (mode = .msix)
  msi : X.msiEnabled = decide (mode = .msi)

theorem Mode.marked_mark (mode : Mode) (fresh : X.msixEnabled = false) (second : X.msiEnabled = false) :
    Marked mode (mode.mark X) := by
  cases mode
  · exact ⟨rfl, second⟩
  · exact ⟨fresh, rfl⟩
  · exact ⟨fresh, second⟩

theorem pciKeepIntxEnabled_step (now : Becomes x o s h X) (served : Served hw x o h X) :
    Act.wp (Lawful hw E x.pdev) (pciKeepIntxEnabled hw pdev) (Act.returns fun _ t => Becomes x o t h X) s := by
  refine Act.wp_seq (pciReadConfig_step now served _ _) ?_
  rintro bytes s ⟨now, _⟩
  dsimp only
  split_ifs
  · exact pciWriteConfig_step now served _ _
  · rw [Act.wp_pure]
    exact now

theorem pdevIrq_step {R : DevState → Call → Prop} (now : Becomes x o s h X) :
    Act.wp R (pdevIrq hw pdev) (Act.returns fun irq t => Becomes x o t h X ∧
      irq = if h.msi = .msi then .msi pdev else .line (hw pdev).irqLine) s := by
  simp only [pdevIrq, Act.wp_read, Act.returns_some, now.held]
  exact ⟨now, trivial⟩

theorem irqMsiSetup_step (own : x.pdev = pdev) (now : Becomes x o s h X) (idle : h.actions = [])
    (on : h.msi = .msi) :
    Act.wp (Lawful hw E x.pdev) (irqMsiSetup hw env x pdev) (Act.returns fun rv t =>
      if env.errno .requestIrqMsi = 0 then
        rv = 0 ∧ Becomes x o t { h with actions := Mode.msi.actions hw x X.userMax }
          (X.withIrqLine (some (.msi pdev)))
      else rv < 0 ∧ Becomes x o t h (X.withIrqLine (some (.msi pdev)))) s := by
  refine Act.wp_seq (pdevIrq_step now) ?_
  rintro irq s ⟨now, rfl⟩
  rw [if_pos on]
  refine Act.wp_seq (storeXdev_step now _) fun _ s now => ?_
  refine Act.wp_seq (loadXdev_step now _) ?_
  rintro name s ⟨now, rfl⟩
  have registered : Act.wp (Lawful hw E x.pdev)
      (requestIrq env .requestIrqMsi (.msi pdev) .xgpuIsr false X.modName (.xdev x)) _ s :=
    requestIrq_step now (.of_idle idle) _ _ (by simp [idle, Irq.vectorOf, own])
  subst own
  rw [idle] at registered
  exact registered

theorem progLegacyPin_step (now : Becomes x o s h X) (served : Served hw x o h X)
    (carried : Carried o.bus.nullRegister (X.bar X.configBarIdx)) (val : Byte) :
    Act.wp (Lawful hw E x.pdev) (progLegacyPin x val) (Act.returns fun _ t => Becomes x o t h X) s := by
  refine Act.wp_seq (loadXdev_step now _) ?_
  rintro _ s ⟨now, rfl⟩
  refine Act.wp_seq (iowrite32_step now served carried _ _) fun _ s now => ?_
  refine Act.wp_seq (iowrite32_step now served carried _ _) fun _ s now => ?_
  refine Act.wp_seq (iowrite32_step now served carried _ _) fun _ s now => ?_
  refine Act.wp_seq (iowrite32_step now served carried _ _) fun _ s now => ?_
  refine Act.wp_seq (iowrite32_step now served carried _ _) fun _ s now => ?_
  exact iowrite32_step now served carried _ _

theorem irqLegacySetup_step (own : x.pdev = pdev) (now : Becomes x o s h X) (idle : h.actions = [])
    (off : h.msi = .off) (carried : Carried o.bus.nullRegister (X.bar X.configBarIdx)) :
    Act.wp (Lawful hw E x.pdev) (irqLegacySetup hw env x pdev) (Act.returns fun rv t =>
      rv = 0 ∧ Becomes x o t { h with actions := Mode.legacy.actions hw x X.userMax }
          (X.withIrqLine (some (.line (hw pdev).irqLine))) ∨
      rv < 0 ∧ ∃ line, Becomes x o t h (X.withIrqLine line)) s := by
  refine Act.wp_seq (pciReadConfig_step now (.of_idle idle) _ _) ?_
  rintro bytes s ⟨now, _⟩
  generalize BitVec.ofNat 8 (ofLE bytes) = val
  by_cases unsupported : val = 0
  · simp only [if_pos unsupported]
    rw [Act.wp_pure]
    exact .inr ⟨by decide, X.irqLine, now⟩
  · simp only [if_neg unsupported]
    have programmed : Act.wp (Lawful hw E x.pdev) (if 1 < val.toNat then progLegacyPin x val else pure ())
        (Act.returns fun _ t => Becomes x o t h X) s := by
      split_ifs
      · exact progLegacyPin_step now (.of_idle idle) carried val
      · rw [Act.wp_pure]
        exact now
    refine Act.wp_seq programmed fun _ s now => ?_
    refine Act.wp_seq (pdevIrq_step now) ?_
    rintro irq s ⟨now, rfl⟩
    rw [if_neg (by rw [off]; decide)]
    refine Act.wp_seq (storeXdev_step now _) fun _ s now => ?_
    refine Act.wp_seq (loadXdev_step now _) ?_
    rintro name s ⟨now, rfl⟩
    subst own
    refine Act.wp_returns_mono (requestIrq_step now (.of_idle idle) _ _ (by simp)) ?_
    intro rv t outcome
    split_ifs at outcome
    · rw [idle] at outcome
      exact .inl outcome
    · exact .inr ⟨outcome.1, _, outcome.2⟩

/-- The call through which the setup of the mode fails, when no vector is refused. -/
def Mode.Refused (env : Env) (userMax : Nat) : Mode → Prop
  | .msix => 0 < userMax
  | .msi => env.errno .requestIrqMsi ≠ 0
  | .legacy => True

/-- irq_setup registers the handlers of the mode, or none. -/
theorem irqSetup_step {mode : Mode} (own : x.pdev = pdev) (live : x ∈ o.xdevLive)
    (now : Becomes x o s h X) (idle : h.actions = []) (marked : Marked mode X)
    (on : h.msi = mode.state X.userMax) (carried : Carried o.bus.nullRegister (X.bar X.configBarIdx)) :
    Act.wp (Lawful hw E x.pdev) (irqSetup hw env x pdev) (Act.returns fun rv t =>
      rv = 0 ∧ (mode = .msi → env.errno .requestIrqMsi = 0) ∧
          Becomes x o t { h with actions := mode.actions hw x X.userMax }
            (X.withIrqLine (mode.line hw pdev X.irqLine)) ∨
      rv < 0 ∧ mode.Refused env X.userMax ∧ ∃ line, Becomes x o t h (X.withIrqLine line)) s := by
  refine Act.wp_seq (pciKeepIntxEnabled_step now (.of_idle idle)) fun _ s now => ?_
  refine Act.wp_seq (loadXdev_step now _) ?_
  rintro _ s ⟨now, rfl⟩
  cases mode with
  | msix =>
    have flag : X.msixEnabled = true := marked.msix
    rw [if_pos flag]
    have whole : msixFrom x 0 X.userMax = Mode.msix.actions hw x X.userMax := by
      rw [msixFrom, Mode.actions, List.range_eq_range']
    have loaded : Act.wp (Lawful hw E x.pdev) (irqMsixUserSetup env x) (Act.returns fun rv t =>
        rv = 0 ∧ Becomes x o t { h with actions := msixFrom x 0 X.userMax } X ∨
        rv < 0 ∧ 0 < X.userMax ∧ Becomes x o t { h with actions := [] } X) s := by
      refine Act.wp_seq (loadXdev_step now _) ?_
      rintro _ t ⟨now, rfl⟩
      exact irqMsixUserSetupFrom_step live X.userMax 0 now on (Nat.zero_add _) idle
    refine Act.wp_seq loaded ?_
    rintro rv s (⟨rfl, now⟩ | ⟨failed, some_vector, now⟩)
    · rw [if_neg (by simp)]
      have served : Served hw x o { h with actions := msixFrom x 0 X.userMax } X :=
        served_msixFrom live 0 _ (by omega) on rfl
      refine Act.wp_seq (progIrqMsixChannel_step now _) fun _ s now => ?_
      refine Act.wp_seq (progIrqMsixUser_step now served carried _) fun _ s now => ?_
      rw [Act.wp_pure, Act.returns_some]
      rw [whole] at now
      exact .inl ⟨rfl, by simp, now⟩
    · rw [if_pos (by omega), Act.wp_pure]
      rw [← idle] at now
      exact .inr ⟨failed, some_vector, X.irqLine, now⟩
  | msi =>
    have flag : ¬ X.msixEnabled = true := by simp [marked.msix]
    rw [if_neg flag]
    refine Act.wp_seq (loadXdev_step now _) ?_
    rintro _ s ⟨now, rfl⟩
    have second : X.msiEnabled = true := marked.msi
    rw [if_pos second]
    refine Act.wp_returns_mono (irqMsiSetup_step own now idle on) ?_
    intro rv t outcome
    split_ifs at outcome with ok
    · exact .inl ⟨outcome.1, fun _ => ok, outcome.2⟩
    · exact .inr ⟨outcome.1, ok, _, outcome.2⟩
  | legacy =>
    have flag : ¬ X.msixEnabled = true := by simp [marked.msix]
    rw [if_neg flag]
    refine Act.wp_seq (loadXdev_step now _) ?_
    rintro _ s ⟨now, rfl⟩
    have second : ¬ X.msiEnabled = true := by simp [marked.msi]
    rw [if_neg second]
    refine Act.wp_returns_mono (irqLegacySetup_step own now idle on carried) ?_
    rintro rv t (⟨rfl, now⟩ | ⟨failed, line, now⟩)
    · exact .inl ⟨rfl, by simp, now⟩
    · exact .inr ⟨failed, trivial, line, now⟩

/-- The handlers of a mode are served. -/
theorem served_actions {mode : Mode} (live : x ∈ o.xdevLive) (on : h.msi = mode.state X.userMax)
    (held : h.actions = mode.actions hw x X.userMax)
    (mapped : (hw x.pdev).resourceLen 1 ≠ 0 → ∃ m ∈ h.maps, X.bar X.configBarIdx = some m) :
    Served hw x o h X := by
  cases mode with
  | msix =>
    refine served_msixFrom live 0 X.userMax (by omega) on ?_
    rw [held, msixFrom, Mode.actions, List.range_eq_range']
  | msi =>
    intro a member
    rw [held] at member
    cases List.mem_singleton.mp member
    exact ⟨rfl, live, fun present _ => mapped present, on⟩
  | legacy =>
    intro a member
    rw [held] at member
    cases List.mem_singleton.mp member
    exact ⟨rfl, live, fun present _ => mapped present, trivial⟩

/-- irq_teardown frees all handlers of the mode. -/
theorem irqTeardown_step {mode : Mode} (own : x.pdev = pdev) (live : x ∈ o.xdevLive)
    (now : Becomes x o s h X) (marked : Marked mode X) (on : h.msi = mode.state X.userMax)
    (held : h.actions = mode.actions hw x X.userMax)
    (line : X.irqLine = mode.line hw pdev X.irqLine)
    (mapped : (hw x.pdev).resourceLen 1 ≠ 0 → ∃ m ∈ h.maps, X.bar X.configBarIdx = some m)
    (carried : Carried o.bus.nullRegister (X.bar X.configBarIdx)) :
    Act.wp (Lawful hw E x.pdev) (irqTeardown x) (Act.returns fun _ t =>
      Becomes x o t { h with actions := [] } X) s := by
  have served : Served hw x o h X := served_actions live on held mapped
  refine Act.wp_seq (loadXdev_step now _) ?_
  rintro _ s ⟨now, rfl⟩
  cases mode with
  | msix =>
    have flag : X.msixEnabled = true := marked.msix
    rw [if_pos flag]
    refine Act.wp_seq (loadXdev_step now _) ?_
    rintro _ s ⟨now, rfl⟩
    rw [if_pos flag]
    refine Act.wp_seq (progIrqMsixUser_step now served carried _) fun _ s now => ?_
    refine Act.wp_seq (loadXdev_step now _) ?_
    rintro _ s ⟨now, rfl⟩
    refine irqMsixUserTeardownFrom_step live X.userMax 0 now on (by omega) ?_
    rw [held, msixFrom, Mode.actions, List.range_eq_range']
  | msi =>
    have flag : ¬ X.msixEnabled = true := by simp [marked.msix]
    rw [if_neg flag]
    refine Act.wp_seq (loadXdev_step now _) ?_
    rintro _ s ⟨now, rfl⟩
    rw [line]
    subst own
    exact freeIrq_step now served [] [] held (by simp)
  | legacy =>
    have flag : ¬ X.msixEnabled = true := by simp [marked.msix]
    rw [if_neg flag]
    refine Act.wp_seq (loadXdev_step now _) ?_
    rintro _ s ⟨now, rfl⟩
    rw [line]
    subst own
    exact freeIrq_step now served [] [] held (by simp)

end

end PcieUtil.Driver.Modes
