import PcieUtil.Driver.Modes
import PcieUtil.Driver.Vectors

/-! Where a user interrupt goes in the MSI-X mode: the device looks its vector up in the registers
that irq_setup has programmed, and the kernel calls the handler that irq_setup has requested for
that vector. -/

namespace PcieUtil.Driver.Routing
open Lib.Action Lib.Bytes State Kernel Discipline Irq Modes Vectors

/-- Where a vector register is. -/
def vectorOffset (j : Nat) : Nat := XDMA_OFS_INT_CTRL + userMsiVector + 4 * j

/-- The bytes of a vector register. -/
def vectorRegister (s : DevState) (m : Mapping) (j : Nat) : List Byte :=
  toLE 4 (s.regs m.bar (vectorOffset j)).toNat

/-- The four vector registers of a BAR hold what is written to them. -/
def PlainVectors (regWrite : Regs → Nat → Nat → BitVec 32 → Regs) (bar : Nat) : Prop :=
  ∀ regs value j k, j < 4 → k < 4 → regWrite regs bar (vectorOffset j) value bar (vectorOffset k) =
    if k = j then value else regs bar (vectorOffset k)

/-- The vector of a user interrupt is the byte with its number. -/
def vectorOf (s : DevState) (m : Mapping) (i : Nat) : Nat := ((vectorRegister s m (i / 4)).getD (i % 4) 0).toNat

/-- What the kernel calls on a vector of a device. -/
def handlerOn (s : DevState) (pdev : Dev) (vector : Nat) : Option (IrqHandler × DevId) :=
  (s.held.actions.find? fun a => a.irq = .msix pdev vector).map fun a => (a.handler, a.devId)

/-- What a user interrupt comes to. -/
def delivered (s : DevState) (x : XdevPtr) (m : Mapping) (i : Nat) : Option (IrqHandler × DevId) :=
  handlerOn s x.pdev (vectorOf s m i)

section
variable {s o : DevState} {x : XdevPtr} {m : Mapping} {n : Nat}

/-- The outer loop, which has come to register j, has no other effect than on the registers from j on. -/
theorem progVectorsFrom_regs (plain : PlainVectors s.bus.regWrite m.bar) (few : n ≤ 16) (passes : Nat) {i j : Nat}
    (here : CounterAt n i j) (enough : registers n ≤ j + passes) :
    Act.wp (fun _ _ => True) (progVectorsFrom (some m) userMsiVector n false passes i j) (Act.returns fun _ t =>
      t = { s with regs := t.regs } ∧
        (∀ k, j ≤ k → k < registers n → vectorRegister t m k = registerBytes n false k) ∧
        ∀ k < j, vectorRegister t m k = vectorRegister s m k) s := by
  induction passes generalizing i j s with
  | zero =>
    rw [progVectorsFrom, Act.wp_pure]
    refine ⟨rfl, fun k above below => ?_, fun k _ => rfl⟩
    omega
  | succ passes ih =>
    rw [progVectorsFrom]
    by_cases more : i < n
    · have counter : i = 4 * j := by
        unfold CounterAt at here
        omega
      subst counter
      obtain ⟨next, bytes⟩ := pass_spec false more
      rw [if_pos more]
      rw [if_neg Bool.false_ne_true] at next bytes
      rw [if_neg Bool.false_ne_true]
      generalize packVectors n 4 (4 * j) 0 0 = pass at next bytes
      obtain ⟨i', val⟩ := pass
      simp only [iowrite32, Act.wp_bind, Act.wp_call, Act.andThen_some]
      refine ⟨trivial, ?_⟩
      have stored (k : Nat) (below : k < 4) := plain s.regs val j k (by omega) below
      apply Act.wp_returns_mono (ih (s := { s with regs := s.bus.regWrite s.regs m.bar (vectorOffset j) val })
        plain next (by omega))
      intro _ t post
      obtain ⟨frame, later, earlier⟩ := post
      have written := earlier j (Nat.lt_succ_self j)
      refine ⟨frame, fun k above below => ?_, fun k below => ?_⟩
      · by_cases this : k = j
        · subst this
          rw [written, ← bytes, vectorRegister]
          exact congrArg (fun val : BitVec 32 => toLE 4 val.toNat) ((stored k (by omega)).trans (if_pos rfl))
        · exact later k (by omega) below
      · rw [earlier k (by omega), vectorRegister, vectorRegister]
        have other : k ≠ j := by omega
        exact congrArg (fun val : BitVec 32 => toLE 4 val.toNat) ((stored k (by omega)).trans (if_neg other))
    · rw [if_neg more, Act.wp_pure]
      refine ⟨rfl, fun k above below => ?_, fun k _ => rfl⟩
      unfold registers at below
      unfold CounterAt at here
      omega

/-- The registers after prog_irq_msix_user. -/
theorem progIrqMsixUser_regs {h : Held} {X : XgpuDev} (now : Becomes x o s h X)
    (plain : PlainVectors o.bus.regWrite m.bar) (few : X.userMax ≤ 16) (base : X.bar X.configBarIdx = some m) :
    Act.wp (fun _ _ => True) (progIrqMsixUser x false) (Act.returns fun _ t => Becomes x o t h X ∧
      ∀ k < registers X.userMax, vectorRegister t m k = registerBytes X.userMax false k) s := by
  refine Act.wp_seq (loadXdev_step now _) ?_
  rintro _ s ⟨now, rfl⟩
  refine Act.wp_seq (loadXdev_step now _) ?_
  rintro _ s ⟨now, rfl⟩
  rw [base]
  have enough : registers X.userMax ≤ 0 + X.userMax := by
    unfold registers
    omega
  apply Act.wp_returns_mono (progVectorsFrom_regs (now.bus.symm ▸ plain) few _ (.inl rfl) enough)
  intro _ t post
  obtain ⟨frame, written, _⟩ := post
  refine ⟨?_, fun k inside => written k (Nat.zero_le k) inside⟩
  rw [frame]
  exact now.withRegs _

theorem vectorOf_programmed {t : DevState} {i : Nat}
    (programmed : ∀ k < registers n, vectorRegister t m k = registerBytes n false k) (below : i < n) :
    vectorOf t m i = i % 32 := by
  have inside : i / 4 < registers n := by
    unfold registers
    omega
  have position : 4 * (i / 4) + i % 4 = i := Nat.div_add_mod i 4
  rw [vectorOf, programmed _ inside, registerBytes, List.getD_eq_getElem?_getD, List.getElem?_map,
    List.getElem?_range (Nat.mod_lt i (by decide)), Option.map_some, Option.getD_some, if_neg Bool.false_ne_true,
    position, vectorByte, if_pos below, BitVec.toNat_ofNat]
  omega

theorem find_msixFrom {i : Nat} (below : i < n) :
    (msixFrom x 0 n).find? (fun a => a.irq = .msix x.pdev i) = some (Mode.msixAction x i) := by
  induction n with
  | zero => omega
  | succ n ih =>
    rw [msixFrom_high]
    by_cases last : i = n
    · subst last
      exact List.find?_cons_of_pos (by simp [Mode.msixAction])
    · have other : (Mode.msixAction x n).irq ≠ .msix x.pdev i := by
        intro same
        simp only [Mode.msixAction, Irq.msix.injEq, true_and] at same
        exact last same.symm
      rw [List.find?_cons_of_neg (by simpa using other)]
      exact ih (by omega)

theorem handlerOn_msix (held : s.held.actions = msixFrom x 0 n) {i : Nat} (below : i < n) :
    handlerOn s x.pdev i = some (.xgpuUserIrq, .userIrq x i) := by
  rw [handlerOn, held, find_msixFrom below]
  rfl

theorem delivered_idle (idle : s.held.actions = []) (i : Nat) : delivered s x m i = none := by
  rw [delivered, handlerOn, idle]
  rfl

end

section
variable {hw : Dev → PciDev} {env : Env} {s : DevState} {x : XdevPtr} {m : Mapping}

/-- What irq_setup needs in the MSI-X mode: the vectors are allocated and none has a handler, there is a
record for each, and the config BAR is mapped and its vector registers hold what is written to them. -/
structure Ready (s : DevState) (x : XdevPtr) (m : Mapping) : Prop where
  live : x ∈ s.xdevLive
  idle : s.held.actions = []
  marked : Marked .msix (s.xdev x)
  vectors : s.held.msi = .msix (s.xdev x).userMax
  mapped : m ∈ s.held.maps
  base : (s.xdev x).bar (s.xdev x).configBarIdx = some m
  few : (s.xdev x).userMax ≤ 16
  plain : PlainVectors s.bus.regWrite m.bar

theorem irqTeardown_silences (hw : Dev → PciDev) {t : DevState} (ready : Ready s x m)
    (now : Becomes x s t { s.held with actions := msixFrom x 0 (s.xdev x).userMax } (s.xdev x)) :
    Act.wp (fun _ _ => True) (irqTeardown x) (Act.returns fun _ u => ∀ i, delivered u x m i = none) t := by
  have whole : msixFrom x 0 (s.xdev x).userMax = Mode.msix.actions hw x (s.xdev x).userMax := by
    rw [msixFrom, Mode.actions, List.range_eq_range']
  have freed := irqTeardown_step (E := False) rfl ready.live now ready.marked ready.vectors whole rfl
    (fun _ => ⟨m, ready.mapped, ready.base⟩) fun unset => by rw [ready.base] at unset; cases unset
  apply Act.wp_returns_mono (Act.wp_calls freed fun _ _ _ => trivial)
  intro _ u now i
  exact delivered_idle (congrArg Held.actions now.held) i

/-- Either the setup fails, and no user interrupt reaches anyone, or it sends each to xgpu_user_irq with
the record of its number, until irq_teardown. -/
theorem irqSetup_routes (ready : Ready s x m) :
    Act.wp (fun _ _ => True) (irqSetup hw env x x.pdev) (Act.returns fun rv t =>
      rv < 0 ∧ (∀ i, delivered t x m i = none) ∨
      rv = 0 ∧
        (∀ i < (s.xdev x).userMax, delivered t x m i = some (.xgpuUserIrq, .userIrq x i)) ∧
        Act.wp (fun _ _ => True) (irqTeardown x) (Act.returns fun _ u => ∀ i, delivered u x m i = none) t) s := by
  have start := Becomes.refl x s
  have served : Served hw x s s.held (s.xdev x) := .of_idle ready.idle
  refine Act.wp_seq (Act.wp_calls (pciKeepIntxEnabled_step (E := False) start served) fun _ _ _ => trivial) ?_
  intro _ t now
  refine Act.wp_seq (loadXdev_step now _) ?_
  rintro _ t ⟨now, rfl⟩
  rw [if_pos (show (s.xdev x).msixEnabled = true from ready.marked.msix)]
  have registered : Act.wp (fun _ _ => True) (irqMsixUserSetup env x) _ t :=
    Act.wp_seq (loadXdev_step now _) fun _ t now => by
      obtain ⟨now, rfl⟩ := now
      have vectors : Act.wp (Lawful hw False x.pdev) (irqMsixUserSetupFrom env x (s.xdev x).userMax 0) _ t :=
        irqMsixUserSetupFrom_step ready.live _ 0 now ready.vectors (Nat.zero_add _) ready.idle
      exact Act.wp_calls vectors fun _ _ _ => trivial
  refine Act.wp_seq registered ?_
  rintro rv t (⟨rfl, now⟩ | ⟨failed, _, now⟩)
  · rw [if_neg (by decide)]
    have channels : Act.wp (Lawful hw False x.pdev) (progIrqMsixChannel x false) _ t := progIrqMsixChannel_step now _
    refine Act.wp_seq (Act.wp_calls channels fun _ _ _ => trivial) ?_
    intro _ t now
    refine Act.wp_seq (progIrqMsixUser_regs now ready.plain ready.few ready.base) fun _ t post => ?_
    rw [Act.wp_pure]
    obtain ⟨now, written⟩ := post
    refine .inr ⟨rfl, fun i below => ?_, irqTeardown_silences hw ready now⟩
    have few := ready.few
    rw [delivered, vectorOf_programmed written below, Nat.mod_eq_of_lt (by omega)]
    exact handlerOn_msix (congrArg Held.actions now.held) below
  · rw [if_pos (by omega), Act.wp_pure]
    exact .inl ⟨failed, fun i => delivered_idle (congrArg Held.actions now.held) i⟩

theorem plainWrite_vectors (bar : Nat) : PlainVectors plainWrite bar := by
  intro regs value j k _ _
  unfold plainWrite vectorOffset
  congr 1
  simp only [true_and, eq_iff_iff]
  omega

/-- A device with six vectors, before irq_setup. -/
def sixAllocated : DevState where
  config := fun _ => 0
  regs := fun _ _ => 0
  held := { msi := .msix 6, maps := [⟨0, 1, 0, 0x8000⟩] }
  xdev := fun _ => { msixEnabled := true, userMax := 6, configBarIdx := 1, bar := fun _ => some ⟨0, 1, 0, 0x8000⟩ }
  xdevLive := [⟨0, 0⟩]

theorem irqSetup_routes_six :
    Act.wp (fun _ _ => True) (irqSetup (fun _ => plainDev (fun _ => 0x8000) false true) (Env.calm 3) ⟨0, 0⟩ 0)
      (Act.returns fun rv t =>
        rv < 0 ∧ (∀ i, delivered t ⟨0, 0⟩ ⟨0, 1, 0, 0x8000⟩ i = none) ∨
        rv = 0 ∧
          (∀ i < 6, delivered t ⟨0, 0⟩ ⟨0, 1, 0, 0x8000⟩ i = some (.xgpuUserIrq, .userIrq ⟨0, 0⟩ i)) ∧
          Act.wp (fun _ _ => True) (irqTeardown ⟨0, 0⟩) (Act.returns fun _ u =>
            ∀ i, delivered u ⟨0, 0⟩ ⟨0, 1, 0, 0x8000⟩ i = none) t) sixAllocated :=
  irqSetup_routes (s := sixAllocated) (x := ⟨0, 0⟩) ⟨by decide, rfl, ⟨rfl, rfl⟩, rfl, by decide, rfl, by decide,
    plainWrite_vectors _⟩

end

end PcieUtil.Driver.Routing
