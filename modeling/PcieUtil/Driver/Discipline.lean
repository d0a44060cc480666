import PcieUtil.Driver.Kernel

/-! How the code of libxgpu.c moves one device along. `Becomes` is the frame of
its functions: a run on the structure x changes the configuration space, the
registers, the resources held and x itself, and nothing else. `Lawful` is what
every one of its kernel calls satisfies in the state it is issued in. Each call
has one step lemma, which carries the frame from the start of the run along. -/

namespace PcieUtil.Driver.Discipline
open Lib.Action Lib.Bytes State Kernel

/-- The state o after a run that leaves h held and x as X. -/
def Becomes (x : XdevPtr) (o t : DevState) (h : Held) (X : XgpuDev) : Prop :=
  ∃ config regs new, t =
    { (o.withHeld h).withXdev x X with config := config, regs := regs, serial := o.serial + new }

section
variable {x : XdevPtr} {o s t : DevState} {h k : Held} {X Y : XgpuDev}

theorem Becomes.refl (x : XdevPtr) (s : DevState) : Becomes x s s s.held (s.xdev x) :=
  ⟨s.config, s.regs, 0, by simp [DevState.withHeld, DevState.withXdev]⟩

theorem Becomes.held (now : Becomes x o s h X) : s.held = h := by
  obtain ⟨config, regs, new, rfl⟩ := now
  rfl

theorem Becomes.xdev (now : Becomes x o s h X) : s.xdev x = X := by
  obtain ⟨config, regs, new, rfl⟩ := now
  simp [DevState.withXdev]

theorem Becomes.xdevLive (now : Becomes x o s h X) : s.xdevLive = o.xdevLive := by
  obtain ⟨config, regs, new, rfl⟩ := now
  rfl

theorem Becomes.bus (now : Becomes x o s h X) : s.bus = o.bus := by
  obtain ⟨config, regs, new, rfl⟩ := now
  rfl

theorem Becomes.xpdev (now : Becomes x o s h X) : s.xpdev = o.xpdev := by
  obtain ⟨config, regs, new, rfl⟩ := now
  rfl

theorem Becomes.withHeld (now : Becomes x o s h X) (k : Held) : Becomes x o (s.withHeld k) k X := by
  obtain ⟨config, regs, new, rfl⟩ := now
  exact ⟨config, regs, new, rfl⟩

theorem Becomes.withXdev (now : Becomes x o s h X) (Y : XgpuDev) : Becomes x o (s.withXdev x Y) h Y := by
  obtain ⟨config, regs, new, rfl⟩ := now
  exact ⟨config, regs, new, by simp [DevState.withXdev]⟩

theorem Becomes.withConfig (now : Becomes x o s h X) (config : Memory) :
    Becomes x o (s.withConfig config) h X := by
  obtain ⟨_, regs, new, rfl⟩ := now
  exact ⟨config, regs, new, rfl⟩

theorem Becomes.withRegs (now : Becomes x o s h X) (regs : Nat → Nat → BitVec 32) :
    Becomes x o { s with regs := regs } h X := by
  obtain ⟨config, _, new, rfl⟩ := now
  exact ⟨config, regs, new, rfl⟩

theorem Becomes.nextSerial (now : Becomes x o s h X) :
    Becomes x o (s.withSerial (s.serial + 1)) h X := by
  obtain ⟨config, regs, new, rfl⟩ := now
  exact ⟨config, regs, new + 1, rfl⟩

end

/-- An unmapped BAR is mapped, and a freed interrupt is held, at that moment. -/
def ReleasesHeld (s : DevState) : Call → Prop
  | .pciIounmap _ m => m ∈ s.held.maps
  | .freeIrq irq devId => ∃ a ∈ s.held.actions, a.irq = irq ∧ a.devId = devId
  | _ => True

/-- Message modes are enabled when none is, disabled when enabled, and a line is
requested for exclusive use only when it is a vector of the device itself and the
device has no handler on it. -/
def MsiOrdered (pdev : Dev) (s : DevState) : Call → Prop
  | .pciAllocIrqVectors d _ _ => d = pdev ∧ s.held.msi = .off
  | .pciEnableMsi d => d = pdev ∧ s.held.msi = .off
  | .pciDisableMsi d => d = pdev ∧ s.held.msi = .msi
  | .pciDisableMsix d => d = pdev ∧ ∃ nvec, s.held.msi = .msix nvec
  | .requestIrq irq _ false _ _ => irq.vectorOf = some pdev ∧ ∀ a ∈ s.held.actions, a.irq ≠ irq
  | _ => True

/-- Every registered handler finds its data: the xgpu_dev is allocated, the
interrupt registers that xgpu_isr reads are mapped, and the message mode of the
vector is on. -/
def Attended (s : DevState) : Prop :=
  ∀ a ∈ s.held.actions,
    a.devId.target ∈ s.xdevLive ∧
    (a.handler = .xgpuIsr → ∃ m ∈ s.held.maps,
      (s.xdev a.devId.target).bar (s.xdev a.devId.target).configBarIdx = some m) ∧
    match a.irq with
    | .line _ => True
    | .msi _ => s.held.msi = .msi
    | .msix _ entry => ∃ nvec, s.held.msi = .msix nvec ∧ entry < nvec

theorem attended_of_idle {s : DevState} (idle : s.held.actions = []) : Attended s := by
  intro a member
  rw [idle] at member
  cases member

/-- Without BAR 1 there are no interrupt registers for a handler to find. -/
abbrev AttendedIfPresent (hw : Dev → PciDev) (pdev : Dev) (s : DevState) : Prop :=
  (hw pdev).resourceLen 1 ≠ 0 → Attended s

/-- The exception is for the one place that disables a mode it failed to enable. -/
structure Lawful (hw : Dev → PciDev) (exception : Prop) (pdev : Dev) (s : DevState) (c : Call) : Prop where
  releases : ReleasesHeld s c
  attended : AttendedIfPresent hw pdev s
  ordered : MsiOrdered pdev s c ∨ exception

/-- `Attended` when all handlers work on the structure x, in terms of the frame. -/
def Served (hw : Dev → PciDev) (x : XdevPtr) (o : DevState) (h : Held) (X : XgpuDev) : Prop :=
  ∀ a ∈ h.actions,
    a.devId.target = x ∧ x ∈ o.xdevLive ∧
    ((hw x.pdev).resourceLen 1 ≠ 0 → a.handler = .xgpuIsr →
      ∃ m ∈ h.maps, X.bar X.configBarIdx = some m) ∧
    match a.irq with
    | .line _ => True
    | .msi _ => h.msi = .msi
    | .msix _ entry => ∃ nvec, h.msi = .msix nvec ∧ entry < nvec

section
variable {hw : Dev → PciDev} {x : XdevPtr} {o s : DevState} {h : Held} {X : XgpuDev}

theorem Served.attended (served : Served hw x o h X) (now : Becomes x o s h X)
    (present : (hw x.pdev).resourceLen 1 ≠ 0) : Attended s := by
  intro a member
  rw [now.held] at member
  obtain ⟨target, live, mapped, vector⟩ := served a member
  rw [target, now.held, now.xdevLive, now.xdev]
  exact ⟨live, mapped present, vector⟩

theorem Served.of_idle (idle : h.actions = []) : Served hw x o h X := by
  intro a member
  rw [idle] at member
  cases member

/-- Handlers may go, and what they do not use may change. -/
theorem Served.mono (served : Served hw x o h X) {k : Held} {Y : XgpuDev}
    (fewer : ∀ a ∈ k.actions, a ∈ h.actions) (maps : ∀ m ∈ h.maps, m ∈ k.maps) (msi : k.msi = h.msi)
    (base : Y.bar Y.configBarIdx = X.bar X.configBarIdx) : Served hw x o k Y := by
  intro a member
  obtain ⟨target, live, mapped, vector⟩ := served a (fewer a member)
  rw [msi, base]
  refine ⟨target, live, fun present isr => ?_, vector⟩
  obtain ⟨m, there, entry⟩ := mapped present isr
  exact ⟨m, maps m there, entry⟩

end

/-- Accesses through this base come to their end. -/
def Carried (nullRegister : Option (BitVec 32)) (base : Option Mapping) : Prop :=
  base = none → nullRegister ≠ none

/-- The calls that release nothing and leave the interrupt modes alone. -/
def Quiet : Call → Prop
  | .pciIounmap _ _ | .freeIrq _ _ | .pciAllocIrqVectors _ _ _ | .pciEnableMsi _ => False
  | .pciDisableMsi _ | .pciDisableMsix _ | .requestIrq _ _ false _ _ => False
  | _ => True

/-! The step lemmas of the calls that every part of the driver makes. -/

section
variable {hw : Dev → PciDev} {env : Env} {x : XdevPtr} {pdev : Dev} {o s : DevState} {h : Held}
  {X : XgpuDev} {E : Prop}

theorem Lawful.quiet {c : Call} (attended : AttendedIfPresent hw pdev s) (quiet : Quiet c) :
    Lawful hw E pdev s c := by
  refine ⟨?_, attended, .inl ?_⟩
  · cases c <;> first | exact quiet.elim | trivial
  · cases c with
    | requestIrq irq handler shared name devId =>
      cases shared with
      | false => exact quiet.elim
      | true => trivial
    | _ => first | exact quiet.elim | trivial

theorem Lawful.of_quiet {c : Call} (now : Becomes x o s h X) (served : Served hw x o h X)
    (quiet : Quiet c) : Lawful hw E x.pdev s c :=
  .quiet (served.attended now) quiet

theorem storeXdev_step {R : DevState → Call → Prop} (now : Becomes x o s h X)
    (change : XgpuDev → XgpuDev) :
    Act.wp R (storeXdev x change) (Act.returns fun _ t => Becomes x o t h (change X)) s := by
  simp only [storeXdev, Act.wp_update, Act.returns_some, now.xdev]
  exact now.withXdev _

theorem loadXdev_step {R : DevState → Call → Prop} {α : Type} (now : Becomes x o s h X)
    (field : XgpuDev → α) :
    Act.wp R (loadXdev x field) (Act.returns fun a t => Becomes x o t h X ∧ a = field X) s := by
  simp only [loadXdev, Act.wp_read, Act.returns_some, now.xdev]
  exact ⟨now, trivial⟩

theorem pciReadConfig_step (now : Becomes x o s h X) (served : Served hw x o h X) (offset width : Nat) :
    Act.wp (Lawful hw E x.pdev) (pciReadConfig pdev offset width)
      (Act.returns fun bytes t => Becomes x o t h X ∧ bytes.length = width) s := by
  simp only [pciReadConfig, Act.wp_call, Act.returns_some]
  exact ⟨.of_quiet now served trivial, now, load_length _ _ _⟩

theorem pciWriteConfig_step (now : Becomes x o s h X) (served : Served hw x o h X) (offset : Nat)
    (bytes : List Byte) :
    Act.wp (Lawful hw E x.pdev) (pciWriteConfig hw pdev offset bytes)
      (Act.returns fun _ t => Becomes x o t h X) s := by
  simp only [pciWriteConfig, Act.wp_call, Act.returns_some]
  exact ⟨.of_quiet now served trivial, now.withConfig _⟩

/-- An access through NULL goes on. -/
theorem nullAccess_step {c : Call} (now : Becomes x o s h X) (served : Served hw x o h X) (quiet : Quiet c)
    (goesOn : o.bus.nullRegister ≠ none) :
    Act.wp (Lawful hw E x.pdev) (nullAccess c (fun s => s.bus.nullRegister))
      (Act.returns fun _ t => Becomes x o t h X) s := by
  obtain ⟨word, outcome⟩ := Option.ne_none_iff_exists'.mp goesOn
  simp only [nullAccess, Act.wp_bind, Act.wp_call, Act.andThen_some, Act.wp_read, now.bus, outcome,
    Act.wp_pure, Act.returns_some]
  exact ⟨.of_quiet now served quiet, now⟩

/-- An access through NULL is cut off. -/
theorem nullAccess_cut {c : Call} {Q : Option (BitVec 32) → DevState → Prop} (now : Becomes x o s h X)
    (served : Served hw x o h X) (quiet : Quiet c) (stops : o.bus.nullRegister = none) (cut : Q none s) :
    Act.wp (Lawful hw E x.pdev) (nullAccess c (fun s => s.bus.nullRegister)) Q s := by
  simp only [nullAccess, Act.wp_bind, Act.wp_call, Act.andThen_some, Act.wp_read, now.bus, stops,
    Act.wp_fault]
  exact ⟨.of_quiet now served quiet, cut⟩

theorem ioread32_step (now : Becomes x o s h X) (served : Served hw x o h X) {base : Option Mapping}
    (carried : Carried o.bus.nullRegister base) (offset : Nat) :
    Act.wp (Lawful hw E x.pdev) (ioread32 base offset) (Act.returns fun _ t => Becomes x o t h X) s := by
  cases base with
  | none => exact nullAccess_step now served trivial (carried rfl)
  | some m =>
    simp only [ioread32, Act.wp_call, Act.returns_some]
    exact ⟨.of_quiet now served trivial, now⟩

theorem iowrite32_step (now : Becomes x o s h X) (served : Served hw x o h X) {base : Option Mapping}
    (carried : Carried o.bus.nullRegister base) (offset : Nat) (value : BitVec 32) :
    Act.wp (Lawful hw E x.pdev) (iowrite32 value base offset)
      (Act.returns fun _ t => Becomes x o t h X) s := by
  cases base with
  | none =>
    refine Act.wp_seq (nullAccess_step now served trivial (carried rfl)) fun _ s now => ?_
    rw [Act.wp_pure]
    exact now
  | some m =>
    simp only [iowrite32, Act.wp_call, Act.returns_some]
    exact ⟨.of_quiet now served trivial, now.withRegs _⟩

theorem pciIomap_becomes {R : DevState → Call → Prop} (now : Becomes x o s h X) (site : Site)
    (bar maxlen : Nat) (allowed : ∀ ok, R s (.pciIomap pdev bar maxlen ok)) :
    Act.wp R (pciIomap hw env site pdev bar maxlen) (Act.returns fun m t =>
      Becomes x o t { h with maps := m.toList ++ h.maps } X ∧
        if (hw pdev).resourceLen bar ≠ 0 ∧ env.errno site = 0 then
          ∃ serial, m = some ⟨pdev, bar, serial, iomapLen ((hw pdev).resourceLen bar).toNat maxlen⟩
        else m = none) s := by
  simp only [pciIomap, Act.wp_call]
  refine ⟨allowed _, ?_⟩
  by_cases ok : (hw pdev).resourceLen bar ≠ 0 ∧ env.errno site = 0
  · simp only [if_pos ok, Act.returns_some, now.held]
    exact ⟨(now.withHeld _).nextSerial, s.serial, rfl⟩
  · simp only [if_neg ok, Act.returns_some]
    exact ⟨now, trivial⟩

theorem pciIounmap_becomes {R : DevState → Call → Prop} (now : Becomes x o s h X) {m : Mapping}
    (allowed : R s (.pciIounmap pdev m)) :
    Act.wp R (pciIounmap pdev m) (Act.returns fun _ t =>
      Becomes x o t { h with maps := h.maps.erase m } X) s := by
  simp only [pciIounmap, Act.wp_call, Act.returns_some]
  refine ⟨allowed, ?_⟩
  rw [now.held]
  exact now.withHeld _

theorem Lawful.iounmap (now : Becomes x o s h X) (served : Served hw x o h X) {m : Mapping}
    (mapped : m ∈ h.maps) : Lawful hw E x.pdev s (.pciIounmap pdev m) := by
  refine ⟨?_, served.attended now, .inl trivial⟩
  change m ∈ s.held.maps
  rw [now.held]
  exact mapped

end

end PcieUtil.Driver.Discipline
