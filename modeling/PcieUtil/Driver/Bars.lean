import PcieUtil.Driver.Discipline

/-! Mapping the BARs of a device: map_single_bar, identify_bars, map_bars and
unmap_bars of libxgpu.c. -/

namespace PcieUtil.Driver.Bars
open Lib.Action State Kernel Discipline

section
variable (hw : Dev → PciDev) (env : Env) (xdev : XdevPtr) (pdev : Dev)

def setBar (idx : Nat) (m : Option Mapping) : DevM Unit :=
  storeXdev xdev fun x => x.withBar (Function.update x.bar (idx : Int) m)

/-- The length that map_single_bar asks pci_iomap for. -/
def mapLen (idx : Nat) : Nat :=
  if ((hw pdev).resourceLen idx).toNat > INT_MAX then INT_MAX else ((hw pdev).resourceLen idx).toNat

def mapSingleBar (idx : Nat) : DevM Int := do
  setBar xdev idx none
  -- do not map BARs with length 0
  if (hw pdev).resourceLen idx = 0 then return 0
  else
    let m ← pciIomap hw env (.iomapBar idx) pdev idx (mapLen hw pdev idx)
    setBar xdev idx m
    if m.isNone then return -1 else return mapLen hw pdev idx

def unmapBarsFrom : Nat → Nat → DevM Unit
  | 0, _ => pure ()
  | count + 1, i => do
      match ← loadXdev xdev fun x => x.bar i with
      | some m =>
          pciIounmap pdev m
          setBar xdev i none
      | none => pure ()
      unmapBarsFrom count (i + 1)

def unmapBars : DevM Unit := unmapBarsFrom xdev pdev XGPU_BAR_NUM 0

def identifyBars (barIdList : List Nat) (numBars configBarPos : Nat) : DevM Int := do
  match numBars with
  | 2 =>
      if configBarPos = 0 then
        storeXdev xdev fun x => { x with bypassBarIdx := barIdList.getD 1 0 }
      else if configBarPos = 1 then
        storeXdev xdev fun x => { x with userBarIdx := barIdList.getD 0 0 }
      else pure ()
  | 3 | 4 =>
      if configBarPos = 1 ∨ configBarPos = 2 then
        storeXdev xdev fun x => { x with
          userBarIdx := barIdList.getD 0 0, bypassBarIdx := barIdList.getD (numBars - 1) 0 }
      else pure ()
  | _ => pure ()
  return 0

/-- The loop of map_bars: the numbers of the BARs that are present, or none when
one of them could not be mapped. -/
def mapBarsFrom : Nat → Nat → List Nat → DevM (Option (List Nat))
  | 0, _, barIdList => return some barIdList
  | count + 1, i, barIdList => do
      let barLen ← mapSingleBar hw env xdev pdev i
      if barLen = 0 then mapBarsFrom count (i + 1) barIdList
      else if barLen < 0 then return none
      else mapBarsFrom count (i + 1) (barIdList ++ [i])

def mapBars : DevM Int := do
  match ← mapBarsFrom hw env xdev pdev XGPU_BAR_NUM 0 [] with
  | none =>
      unmapBars xdev pdev
      return -EINVAL
  | some barIdList =>
      storeXdev xdev fun x => { x with configBarIdx := 1 }
      if (← loadXdev xdev XgpuDev.configBarIdx) < 0 then
        unmapBars xdev pdev
        return -EINVAL
      else
        let rv ← identifyBars xdev barIdList barIdList.length 0
        if rv < 0 then return rv else return 0

end

/-- The mappings of the BARs below n, the latest one first. -/
def mapsBelow (bar : Int → Option Mapping) : Nat → List Mapping
  | 0 => []
  | n + 1 => (bar n).toList ++ mapsBelow bar n

theorem mem_mapsBelow {bar : Int → Option Mapping} {n : Nat} {m : Mapping} :
    m ∈ mapsBelow bar n ↔ ∃ j < n, bar (j : Nat) = some m := by
  induction n with
  | zero => simp [mapsBelow]
  | succ n ih =>
    simp only [mapsBelow, List.mem_append, Option.mem_toList, ih]
    constructor
    · rintro (here | ⟨j, below, there⟩)
      · exact ⟨n, by omega, here⟩
      · exact ⟨j, by omega, there⟩
    · rintro ⟨j, below, entry⟩
      by_cases same : j = n
      · exact .inl (same ▸ entry)
      · exact .inr ⟨j, by omega, entry⟩

theorem mapsBelow_congr {bar other : Int → Option Mapping} {n : Nat}
    (same : ∀ j < n, bar (j : Nat) = other (j : Nat)) : mapsBelow bar n = mapsBelow other n := by
  induction n with
  | zero => rfl
  | succ n ih =>
    rw [mapsBelow, mapsBelow, same n (by omega), ih fun j below => same j (by omega)]

theorem mapsBelow_empty {bar : Int → Option Mapping} {n : Nat}
    (none_left : ∀ j < n, bar (j : Nat) = none) : mapsBelow bar n = [] := by
  rw [List.eq_nil_iff_forall_not_mem]
  intro m member
  obtain ⟨j, below, entry⟩ := mem_mapsBelow.mp member
  rw [none_left j below] at entry
  cases entry

/-- What map_single_bar leaves in the entry of a BAR when it does not fail. -/
def MapsBar (hw : Dev → PciDev) (pdev : Dev) (idx : Nat) (m : Option Mapping) : Prop :=
  if (hw pdev).resourceLen idx = 0 then m = none
  else ∃ serial, m = some ⟨pdev, idx, serial, mapLen hw pdev idx⟩

/-- Each entry holds a mapping of its own BAR. -/
def Tagged (bar : Int → Option Mapping) : Prop :=
  ∀ (j : Nat) (m : Mapping), bar j = some m → m.bar = j

theorem Tagged.update {bar : Int → Option Mapping} (tagged : Tagged bar) {i : Nat}
    {m : Option Mapping} (own : ∀ n, m = some n → n.bar = i) :
    Tagged (Function.update bar (i : Int) m) := by
  intro j n entry
  by_cases same : j = i
  · subst same
    rw [Function.update_self] at entry
    exact own n entry
  · rw [Function.update_of_ne (by omega)] at entry
    exact tagged j n entry

/-- Unmapping one BAR takes its mapping out of the list. -/
theorem mapsBelow_erase {bar : Int → Option Mapping} (tagged : Tagged bar) {n i : Nat} {m : Mapping}
    (entry : bar i = some m) (below : i < n) (old : List Mapping) :
    (mapsBelow bar n ++ old).erase m = mapsBelow (Function.update bar (i : Int) none) n ++ old := by
  induction n with
  | zero => omega
  | succ n ih =>
    by_cases same : i = n
    · subst same
      have rest : mapsBelow (Function.update bar (i : Int) none) i = mapsBelow bar i :=
        mapsBelow_congr fun j below => Function.update_of_ne (by omega) _ _
      simp [mapsBelow, entry, rest]
    · rw [mapsBelow, mapsBelow, Function.update_of_ne (by omega)]
      cases first : bar n with
      | none => simpa using ih (by omega)
      | some k =>
        have different : k ≠ m := by
          intro equal
          have one := tagged n k first
          have two := tagged i m entry
          rw [equal] at one
          omega
        rw [Option.toList_some, List.singleton_append, List.cons_append,
          List.erase_cons_tail (by simpa using different), ih (by omega)]
        rfl

/-- Mapping a BAR behind those mapped so far puts its mapping in front. -/
theorem mapsBelow_push {bar : Int → Option Mapping} {n i : Nat} (m : Option Mapping)
    (fresh : ∀ j : Nat, i ≤ j → bar j = none) (below : i < n) :
    mapsBelow (Function.update bar (i : Int) m) n = m.toList ++ mapsBelow bar n := by
  induction n with
  | zero => omega
  | succ n ih =>
    by_cases same : i = n
    · subst same
      have rest : mapsBelow (Function.update bar (i : Int) m) i = mapsBelow bar i :=
        mapsBelow_congr fun j below => Function.update_of_ne (by omega) _ _
      simp [mapsBelow, rest, fresh i]
    · have empty := fresh n (by omega)
      rw [mapsBelow, mapsBelow, Function.update_of_ne (by omega), empty, ih (by omega)]
      rfl

theorem MapsBar.tagged {hw : Dev → PciDev} {pdev : Dev} {idx : Nat} {m : Option Mapping}
    (maps : MapsBar hw pdev idx m) : ∀ n, m = some n → n.bar = idx := by
  rintro n rfl
  unfold MapsBar at maps
  split_ifs at maps with absent
  obtain ⟨serial, same⟩ := maps
  cases same
  rfl

/-- The numbers of the BARs that are present. -/
def presentBars (hw : Dev → PciDev) (pdev : Dev) (n : Nat) : List Nat :=
  (List.range n).filter fun j => (hw pdev).resourceLen j ≠ 0

/-- pci_iomap succeeds on every BAR that is present. -/
def BarsMap (hw : Dev → PciDev) (env : Env) (pdev : Dev) : Prop :=
  ∀ j < XGPU_BAR_NUM, (hw pdev).resourceLen j ≠ 0 → env.errno (.iomapBar j) = 0

theorem mapLen_pos {hw : Dev → PciDev} {pdev : Dev} {idx : Nat}
    (present : (hw pdev).resourceLen idx ≠ 0) : 0 < mapLen hw pdev idx := by
  have positive : ((hw pdev).resourceLen idx).toNat ≠ 0 := fun zero =>
    present (BitVec.eq_of_toNat_eq zero)
  unfold mapLen INT_MAX
  split_ifs <;> omega

theorem iomapLen_mapLen (hw : Dev → PciDev) (pdev : Dev) (idx : Nat) :
    iomapLen ((hw pdev).resourceLen idx).toNat (mapLen hw pdev idx) = mapLen hw pdev idx := by
  unfold iomapLen mapLen INT_MAX
  split_ifs <;> omega

/-- Mapping and unmapping BARs is allowed as long as these handlers are registered. -/
structure AllowsBars (R : DevState → Call → Prop) (xdev : XdevPtr) (pdev : Dev) (o : DevState)
    (actions : List IrqAction) : Prop where
  iomap : ∀ s h X bar maxlen ok, Becomes xdev o s h X → h.actions = actions →
    R s (.pciIomap pdev bar maxlen ok)
  iounmap : ∀ s h X m, Becomes xdev o s h X → h.actions = actions → m ∈ h.maps →
    R s (.pciIounmap pdev m)

theorem AllowsBars.of_idle {E : Prop} {xdev : XdevPtr} {pdev : Dev} {o : DevState} :
    AllowsBars (Lawful hw E xdev.pdev) xdev pdev o [] :=
  ⟨fun _ _ _ _ _ _ now idle => .of_quiet now (.of_idle idle) trivial,
    fun _ _ _ _ now idle mapped => .iounmap now (.of_idle idle) mapped⟩

section
variable {hw : Dev → PciDev} {env : Env} {xdev : XdevPtr} {pdev : Dev} {o s : DevState} {h : Held}
  {X : XgpuDev} {R : DevState → Call → Prop}

theorem mapSingleBar_step (now : Becomes xdev o s h X) (allows : AllowsBars R xdev pdev o h.actions) (idx : Nat) :
    Act.wp R (mapSingleBar hw env xdev pdev idx) (Act.returns fun rv t =>
      ∃ m, Becomes xdev o t { h with maps := m.toList ++ h.maps }
          (X.withBar (Function.update X.bar (idx : Int) m)) ∧
        (rv = 0 ∧ MapsBar hw pdev idx m ∧ (hw pdev).resourceLen idx = 0 ∨
          0 < rv ∧ MapsBar hw pdev idx m ∧ (hw pdev).resourceLen idx ≠ 0 ∧
            env.errno (.iomapBar idx) = 0 ∨
          rv < 0 ∧ m = none ∧ (hw pdev).resourceLen idx ≠ 0 ∧ env.errno (.iomapBar idx) ≠ 0)) s := by
  refine Act.wp_seq (storeXdev_step now _) fun _ s now => ?_
  by_cases absent : (hw pdev).resourceLen idx = 0
  · rw [if_pos absent, Act.wp_pure]
    exact ⟨none, now, .inl ⟨rfl, by simp [MapsBar, absent], absent⟩⟩
  · rw [if_neg absent]
    refine Act.wp_seq (pciIomap_becomes now _ _ _ fun ok => allows.iomap _ _ _ _ _ ok now rfl) fun m s ⟨now, mapped⟩ => ?_
    refine Act.wp_seq (storeXdev_step now _) fun _ s now => ?_
    simp only [XgpuDev.withBar_withBar, XgpuDev.withBar_bar, Function.update_idem] at now
    by_cases ok : env.errno (.iomapBar idx) = 0
    · rw [if_pos ⟨absent, ok⟩, iomapLen_mapLen] at mapped
      obtain ⟨serial, rfl⟩ := mapped
      have positive := mapLen_pos absent
      rw [Option.isNone_some, if_neg Bool.false_ne_true, Act.wp_pure]
      refine ⟨_, now, .inr (.inl ⟨by omega, ?_, absent, ok⟩)⟩
      rw [MapsBar, if_neg absent]
      exact ⟨serial, rfl⟩
    · rw [if_neg fun both => ok both.2] at mapped
      subst mapped
      rw [Option.isNone_none, if_pos rfl, Act.wp_pure]
      exact ⟨none, now, .inr (.inr ⟨by omega, rfl, absent, ok⟩)⟩

theorem unmapBarsFrom_step (count i : Nat) (now : Becomes xdev o s h X) (allows : AllowsBars R xdev pdev o h.actions)
    (tagged : Tagged X.bar) {old : List Mapping}
    (maps : h.maps.Perm (mapsBelow X.bar XGPU_BAR_NUM ++ old)) (last : i + count = XGPU_BAR_NUM) :
    Act.wp R (unmapBarsFrom xdev pdev count i) (Act.returns fun _ t =>
      ∃ bar left, left.Perm (mapsBelow bar XGPU_BAR_NUM ++ old) ∧
        Becomes xdev o t { h with maps := left } (X.withBar bar) ∧
        ∀ j : Nat, bar j = if i ≤ j ∧ j < XGPU_BAR_NUM then none else X.bar j) s := by
  induction count generalizing i s h X with
  | zero =>
    rw [unmapBarsFrom, Act.wp_pure]
    refine ⟨X.bar, h.maps, maps, now, fun j => ?_⟩
    rw [if_neg (by omega)]
  | succ count ih =>
    have below : i < XGPU_BAR_NUM := by omega
    simp only [unmapBarsFrom, loadXdev, Act.wp_bind, Act.wp_read, Act.andThen_some, now.xdev]
    have later (bar : Int → Option Mapping) (j : Nat) (kept : bar j = if i + 1 ≤ j ∧
        j < XGPU_BAR_NUM then none else Function.update X.bar (i : Int) none j) :
        bar j = if i ≤ j ∧ j < XGPU_BAR_NUM then none else X.bar j := by
      rw [kept]
      by_cases here : j = i
      · subst here
        rw [if_neg (by omega), if_pos ⟨Nat.le_refl _, below⟩, Function.update_self]
      · rw [Function.update_of_ne (by omega)]
        split_ifs <;> first | rfl | omega
    cases entry : X.bar i with
    | none =>
      have unchanged : Function.update X.bar (i : Int) none = X.bar := by rw [← entry]; simp
      refine Act.wp_returns_mono (ih (i + 1) now allows tagged maps (by omega)) ?_
      rintro _ t ⟨bar, left, perm, becomes, kept⟩
      refine ⟨bar, left, perm, becomes, fun j => later bar j ?_⟩
      rw [unchanged]
      exact kept j
    | some m =>
      have mapped : m ∈ h.maps := by
        rw [maps.mem_iff, List.mem_append]
        exact .inl (mem_mapsBelow.mpr ⟨i, below, entry⟩)
      have erased : (h.maps.erase m).Perm
          (mapsBelow (Function.update X.bar (i : Int) none) XGPU_BAR_NUM ++ old) := by
        rw [← mapsBelow_erase tagged entry below old]
        exact maps.erase m
      refine Act.wp_seq (pciIounmap_becomes now (allows.iounmap _ _ _ _ now rfl mapped)) fun _ s now => ?_
      refine Act.wp_seq (storeXdev_step now _) fun _ s now => ?_
      have cleared := tagged.update (i := i) (m := none) (by simp)
      refine Act.wp_returns_mono (ih (i + 1) now allows cleared erased (by omega)) ?_
      rintro _ t ⟨bar, left, perm, becomes, kept⟩
      exact ⟨bar, left, perm, becomes, fun j => later bar j (kept j)⟩

/-- unmap_bars leaves every BAR unmapped and the mappings of others alone. -/
theorem unmapBars_step (now : Becomes xdev o s h X) (allows : AllowsBars R xdev pdev o h.actions) (tagged : Tagged X.bar)
    {old : List Mapping} (maps : h.maps.Perm (mapsBelow X.bar XGPU_BAR_NUM ++ old)) :
    Act.wp R (unmapBars xdev pdev) (Act.returns fun _ t =>
      ∃ bar left, left.Perm old ∧ Becomes xdev o t { h with maps := left } (X.withBar bar) ∧
        ∀ j < XGPU_BAR_NUM, bar (j : Nat) = none) s := by
  refine Act.wp_returns_mono (unmapBarsFrom_step _ 0 now allows tagged maps rfl) ?_
  rintro _ t ⟨bar, left, perm, becomes, kept⟩
  have cleared : ∀ j < XGPU_BAR_NUM, bar (j : Nat) = none := fun j below => by
    rw [kept j, if_pos ⟨Nat.zero_le _, below⟩]
  rw [mapsBelow_empty cleared, List.nil_append] at perm
  exact ⟨bar, left, perm, becomes, cleared⟩

/-- The BARs below i are mapped and those from i on are not. -/
structure Mapped (hw : Dev → PciDev) (pdev : Dev) (bar : Int → Option Mapping) (i : Nat) : Prop where
  below : ∀ j < i, MapsBar hw pdev j (bar j)
  above : ∀ j : Nat, i ≤ j → bar j = none

/-- The BARs mapped below n, with the lengths mapped. -/
theorem mapsBelow_view {bar : Int → Option Mapping} {n : Nat}
    (mapped : ∀ j < n, MapsBar hw pdev j (bar j)) :
    (mapsBelow bar n).map (fun m => (m.bar, m.len)) =
      ((presentBars hw pdev n).map fun j => (j, mapLen hw pdev j)).reverse := by
  induction n with
  | zero => rfl
  | succ n ih =>
    have top := mapped n (by omega)
    have earlier := ih fun j below => mapped j (by omega)
    unfold MapsBar at top
    by_cases absent : (hw pdev).resourceLen n = 0
    · rw [if_pos absent] at top
      have same : presentBars hw pdev (n + 1) = presentBars hw pdev n := by
        simp [presentBars, List.range_succ, absent]
      rw [mapsBelow, top, same]
      exact earlier
    · rw [if_neg absent] at top
      obtain ⟨serial, top⟩ := top
      have longer : presentBars hw pdev (n + 1) = presentBars hw pdev n ++ [n] := by
        rw [presentBars, List.range_succ, List.filter_append, List.filter_singleton,
          decide_eq_true absent]
        rfl
      rw [mapsBelow, top, longer, List.map_append, earlier]
      simp

theorem Mapped.tagged {bar : Int → Option Mapping} {i : Nat} (mapped : Mapped hw pdev bar i) :
    Tagged bar := by
  intro j m entry
  by_cases below : j < i
  · exact (mapped.below j below).tagged m entry
  · rw [mapped.above j (by omega)] at entry
    cases entry

theorem Mapped.update {bar : Int → Option Mapping} {i : Nat} {m : Option Mapping}
    (mapped : Mapped hw pdev bar i) (next : MapsBar hw pdev i m) :
    Mapped hw pdev (Function.update bar (i : Int) m) (i + 1) := by
  constructor
  · intro j below
    by_cases same : j = i
    · subst same
      rw [Function.update_self]
      exact next
    · rw [Function.update_of_ne (by omega)]
      exact mapped.below j (by omega)
  · intro j above
    rw [Function.update_of_ne (by omega)]
    exact mapped.above j (by omega)

theorem mapBarsFrom_step (count i : Nat) (now : Becomes xdev o s h X) (allows : AllowsBars R xdev pdev o h.actions)
    (mapped : Mapped hw pdev X.bar i) {old : List Mapping}
    (maps : h.maps = mapsBelow X.bar XGPU_BAR_NUM ++ old)
    (ok : ∀ j < i, (hw pdev).resourceLen j ≠ 0 → env.errno (.iomapBar j) = 0)
    (last : i + count = XGPU_BAR_NUM) :
    Act.wp R (mapBarsFrom hw env xdev pdev count i (presentBars hw pdev i))
      (Act.returns fun v t =>
        ∃ bar, Becomes xdev o t { h with maps := mapsBelow bar XGPU_BAR_NUM ++ old } (X.withBar bar) ∧
          (v = some (presentBars hw pdev XGPU_BAR_NUM) ∧ Mapped hw pdev bar XGPU_BAR_NUM ∧
              BarsMap hw env pdev ∨
            v = none ∧ Tagged bar ∧ ¬ BarsMap hw env pdev)) s := by
  induction count generalizing i s h X with
  | zero =>
    have done : i = XGPU_BAR_NUM := by omega
    subst done
    rw [mapBarsFrom, Act.wp_pure]
    refine ⟨X.bar, ?_, .inl ⟨rfl, mapped, ok⟩⟩
    rw [← maps]
    exact now
  | succ count ih =>
    have below : i < XGPU_BAR_NUM := by omega
    rw [mapBarsFrom]
    refine Act.wp_seq (mapSingleBar_step now allows i) ?_
    rintro rv s ⟨m, now, outcome⟩
    have pushed : m.toList ++ h.maps =
        mapsBelow (Function.update X.bar (i : Int) m) XGPU_BAR_NUM ++ old := by
      rw [mapsBelow_push m mapped.above below, maps, List.append_assoc]
    obtain ⟨zero, next, absent⟩ | ⟨positive, next, present, success⟩ | ⟨negative, rfl, present, failure⟩ :=
      outcome
    · have same : presentBars hw pdev (i + 1) = presentBars hw pdev i := by
        simp [presentBars, List.range_succ, absent]
      rw [if_pos zero, ← same]
      have earlier : ∀ j < i + 1, (hw pdev).resourceLen j ≠ 0 → env.errno (.iomapBar j) = 0 := by
        intro j below present
        by_cases here : j = i
        · exact absurd (here ▸ absent) present
        · exact ok j (by omega) present
      have rest := ih (i + 1) now allows (mapped.update next) pushed earlier (by omega)
      exact rest
    · have longer : presentBars hw pdev (i + 1) = presentBars hw pdev i ++ [i] := by
        rw [presentBars, List.range_succ, List.filter_append, List.filter_singleton,
          decide_eq_true present]
        rfl
      rw [if_neg (by omega), if_neg (by omega), ← longer]
      have earlier : ∀ j < i + 1, (hw pdev).resourceLen j ≠ 0 → env.errno (.iomapBar j) = 0 := by
        intro j below present
        by_cases here : j = i
        · exact here ▸ success
        · exact ok j (by omega) present
      have rest := ih (i + 1) now allows (mapped.update next) pushed earlier (by omega)
      exact rest
    · rw [if_neg (by omega), if_pos negative, Act.wp_pure]
      rw [pushed] at now
      refine ⟨_, now, .inr ⟨rfl, mapped.tagged.update (by simp), fun all => ?_⟩⟩
      exact failure (all i below present)

/-- The structure of a device whose BARs are mapped. -/
def barsOf (hw : Dev → PciDev) (pdev : Dev) (X : XgpuDev) (bar : Int → Option Mapping) : XgpuDev :=
  let present := presentBars hw pdev XGPU_BAR_NUM
  { X with
    bar := bar, configBarIdx := 1
    bypassBarIdx := if present.length = 2 then present.getD 1 0 else X.bypassBarIdx }

theorem identifyBars_step (now : Becomes xdev o s h X)
    (barIdList : List Nat) :
    Act.wp R (identifyBars xdev barIdList barIdList.length 0) (Act.returns fun rv t =>
      rv = 0 ∧ Becomes xdev o t h { X with
        bypassBarIdx := if barIdList.length = 2 then barIdList.getD 1 0 else X.bypassBarIdx }) s := by
  unfold identifyBars
  split
  case h_1 two =>
    rw [if_pos two, if_pos rfl]
    refine Act.wp_seq (storeXdev_step now _) fun _ s now => ?_
    rw [Act.wp_pure]
    exact ⟨rfl, now⟩
  case h_2 three =>
    rw [if_neg (by omega), if_neg (by omega)]
    exact Act.wp_pure.mpr ⟨rfl, now⟩
  case h_3 four =>
    rw [if_neg (by omega), if_neg (by omega)]
    exact Act.wp_pure.mpr ⟨rfl, now⟩
  case h_4 two _ _ =>
    rw [if_neg two]
    exact Act.wp_pure.mpr ⟨rfl, now⟩

/-- map_bars maps every BAR that is present, or none. -/
theorem mapBars_step (now : Becomes xdev o s h X) (allows : AllowsBars R xdev pdev o h.actions)
    (fresh : ∀ j : Nat, X.bar j = none) :
    Act.wp R (mapBars hw env xdev pdev) (Act.returns fun rv t =>
      rv = 0 ∧ BarsMap hw env pdev ∧ (∃ bar, Mapped hw pdev bar XGPU_BAR_NUM ∧
        Becomes xdev o t { h with maps := mapsBelow bar XGPU_BAR_NUM ++ h.maps }
          (barsOf hw pdev X bar)) ∨
      rv ≠ 0 ∧ ¬ BarsMap hw env pdev ∧ ∃ bar left, left.Perm h.maps ∧
        Becomes xdev o t { h with maps := left } (X.withBar bar)) s := by
  have none_mapped : mapsBelow X.bar XGPU_BAR_NUM = [] := mapsBelow_empty fun j _ => fresh j
  have start : h.maps = mapsBelow X.bar XGPU_BAR_NUM ++ h.maps := by rw [none_mapped, List.nil_append]
  have loop : Act.wp R (mapBarsFrom hw env xdev pdev XGPU_BAR_NUM 0 []) _ s :=
    mapBarsFrom_step XGPU_BAR_NUM 0 now allows ⟨fun j below => by omega, fun j _ => fresh j⟩ start
      (fun j below => by omega) (Nat.zero_add _)
  refine Act.wp_seq loop ?_
  rintro v s ⟨bar, now, ⟨rfl, mapped, success⟩ | ⟨rfl, tagged, failure⟩⟩
  · refine Act.wp_seq (storeXdev_step now _) fun _ s now => ?_
    refine Act.wp_seq (loadXdev_step now _) ?_
    rintro index s ⟨now, rfl⟩
    rw [if_neg (Int.not_lt.mpr (Int.le_of_lt Int.one_pos))]
    refine Act.wp_seq (identifyBars_step now _) ?_
    rintro rv s ⟨rfl, now⟩
    rw [if_neg (by decide), Act.wp_pure]
    exact .inl ⟨rfl, success, bar, mapped, now⟩
  · refine Act.wp_seq (unmapBars_step now allows tagged (.refl _)) ?_
    rintro _ s ⟨rest, left, perm, now, cleared⟩
    rw [Act.wp_pure]
    exact .inr ⟨by decide, failure, rest, left, perm, now⟩

end

end PcieUtil.Driver.Bars
