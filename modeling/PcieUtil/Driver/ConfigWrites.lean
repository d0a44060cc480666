import PcieUtil.Driver.Snapshot

/-! Writing the file of the whole configuration space, at any position and with any
count. The code takes its bytes from behind the position in the user's buffer,
always as many as the file has, and takes them to the start of the space. -/

namespace PcieUtil.Driver.ConfigWrites
open Lib.Action Lib.Bytes State Kernel ConfigFile Transfers Snapshot

/-- A write changes no more bytes than it was given and the space has from the position
on, takes the bytes of the buffer there, and says how many they were. -/
def WritesExactly (hw : Dev → PciDev) (w : World) (x : XdevPtr) (file : XgpuCdev) (user : UserBuf)
    (count pos : Nat) : Prop :=
  let out := (charConfigWrite hw tables file user pos).run w
  ∀ n next, out.value = some (n, next) → 0 ≤ n →
    n ≤ min count (PCI_CONFIG_SIZE - pos) ∧
      ∀ k < PCI_CONFIG_SIZE, (out.state.dev x.pdev).config k =
        if pos ≤ k ∧ (k : Int) < pos + n then user.data (k - pos) else (w.dev x.pdev).config k

section
variable {hw : Dev → PciDev} {w : World} {x : XdevPtr} {file : XgpuCdev} {user : UserBuf} {pos : Nat}

theorem configItem (node : minorOf file.cdevno = 0) :
    tables.configItems[minorOf file.cdevno]? = some ⟨0, 0, PCI_CONFIG_SIZE, "xgpu%d/config"⟩ := by
  rw [node]
  rfl

/-- The copy fails when the buffer ends too early behind the position. -/
theorem write_short (hw : Dev → PciDev) (w : World) (owner : file.xdev = some x)
    (node : minorOf file.cdevno = 0) (inside : pos < PCI_CONFIG_SIZE) (short : user.avail < pos + PCI_CONFIG_SIZE) :
    Act.wp anyCall (charConfigWrite hw tables file user pos)
      (Act.returns fun ret _ => ret = (-(EINVAL : Int), pos)) w := by
  have long : ¬ PCI_CONFIG_SIZE ≤ 4 := by decide
  have missed : PCI_CONFIG_SIZE - min PCI_CONFIG_SIZE (user.avail - pos) ≠ 0 := by
    unfold PCI_CONFIG_SIZE at *
    omega
  unfold charConfigWrite
  rw [owner]
  simp only [configItem node, if_neg (Nat.not_le.mpr inside), if_neg long, Nat.lt_irrefl, if_false,
    copyFromUser, Act.wp_bind, Act.wp_call, Act.andThen_some, Act.wp_update, if_pos missed, Act.wp_pure,
    Act.returns_some]
  exact ⟨trivial, trivial⟩

/-- Otherwise the space holds the bytes of the buffer from the position on. -/
theorem write_shifted (w : World) (plain : PlainBelow (hw x.pdev) PCI_CONFIG_SIZE) (owner : file.xdev = some x)
    (node : minorOf file.cdevno = 0) (inside : pos < PCI_CONFIG_SIZE)
    (readable : pos + PCI_CONFIG_SIZE ≤ user.avail) :
    Act.wp anyCall (charConfigWrite hw tables file user pos) (Act.returns fun ret t =>
      ret = ((PCI_CONFIG_SIZE : Int), pos + PCI_CONFIG_SIZE) ∧
        ∀ k < PCI_CONFIG_SIZE, (t.dev x.pdev).config k = user.data (pos + k)) w := by
  have long : ¬ PCI_CONFIG_SIZE ≤ 4 := by decide
  have all : min PCI_CONFIG_SIZE (user.avail - pos) = PCI_CONFIG_SIZE := by omega
  unfold charConfigWrite
  rw [owner]
  simp only [configItem node, if_neg (Nat.not_le.mpr inside), if_neg long, Nat.lt_irrefl, if_false,
    copyFromUser, Act.wp_bind, Act.wp_call, Act.andThen_some, Act.wp_update, all, Nat.sub_self,
    List.replicate_zero, List.append_nil, ne_eq, not_true_eq_false]
  refine ⟨trivial, ?_⟩
  rw [← Act.wp_bind]
  generalize given : load user.data pos PCI_CONFIG_SIZE = bytes
  have size : bytes.length = PCI_CONFIG_SIZE := by rw [← given, load_length]
  generalize cached : { w with configData := store w.configData 0 bytes } = v
  have holds : Holds v x.pdev (store w.configData 0 bytes) (w.dev x.pdev).config := by
    rw [← cached]
    exact ⟨fun k _ => rfl, fun k _ => rfl⟩
  have snapshot : load (store w.configData 0 bytes) 0 PCI_CONFIG_SIZE = bytes := by
    rw [← size]
    exact load_store_self _ 0 bytes
  have written := writeSnapshot_holds plain PCI_CONFIG_SIZE 0 (by decide) holds
  rw [snapshot] at written
  apply Act.wp_seq written
  intro _ t after
  rw [Act.wp_pure]
  refine ⟨rfl, fun k below => ?_⟩
  have here : k < bytes.length := size ▸ below
  have byte := store_inside (w.dev x.pdev).config 0 here
  rw [Nat.zero_add] at byte
  have taken : bytes[k] = user.data (pos + k) := by
    subst given
    exact load_getElem _ _ _ _ _
  rw [after.2 k below, byte, taken]

/-- A write of the file changes exactly the bytes written when it fails, or when it is a
write of the whole space at position zero, and only then. -/
theorem writesExactly_iff {count : Nat} (plain : PlainBelow (hw x.pdev) PCI_CONFIG_SIZE)
    (owner : file.xdev = some x) (node : minorOf file.cdevno = 0) (inside : pos < PCI_CONFIG_SIZE) :
    WritesExactly hw w x file user count pos ↔
      user.avail < pos + PCI_CONFIG_SIZE ∨ pos = 0 ∧ PCI_CONFIG_SIZE ≤ count := by
  by_cases short : user.avail < pos + PCI_CONFIG_SIZE
  · have failed : WritesExactly hw w x file user count pos := by
      intro n next value sign
      obtain ⟨_, result, rfl⟩ := Act.wp_final (write_short hw w owner node inside short)
      rw [result, Option.some.injEq, Prod.mk.injEq] at value
      have negative : -(EINVAL : Int) < 0 := by decide
      omega
    exact ⟨fun _ => .inl short, fun _ => failed⟩
  · obtain ⟨_, result, rfl, bytes⟩ :=
      Act.wp_final (write_shifted w plain owner node inside (Nat.not_lt.mp short))
    constructor
    · intro exact
      have bound := (exact _ _ result (Int.natCast_nonneg _)).1
      omega
    · rintro (fails | ⟨rfl, large⟩)
      · exact absurd fails short
      · intro n next value _
        rw [result, Option.some.injEq, Prod.mk.injEq] at value
        obtain ⟨rfl, _⟩ := value
        refine ⟨by omega, fun k below => ?_⟩
        rw [bytes k below, Nat.zero_add, if_pos (by omega), Nat.sub_zero]

end

theorem writesExactly_iff_whole :
    WritesExactly plainBoard zeroWorld firstXdev (nodeFile 0 1) ample 128 0 ↔
      ample.avail < 0 + PCI_CONFIG_SIZE ∨ 0 = 0 ∧ PCI_CONFIG_SIZE ≤ 128 :=
  writesExactly_iff (fun _ _ _ _ _ => rfl) rfl (by decide) (by decide)

/-- A write of four bytes at the start of a large buffer changes all of the space. -/
theorem short_write_spills :
    ¬ ∀ (hw : Dev → PciDev) (w : World) (x : XdevPtr) (file : XgpuCdev) (user : UserBuf)
      (count pos : Nat), PlainBelow (hw x.pdev) PCI_CONFIG_SIZE → file.xdev = some x →
        minorOf file.cdevno = 0 → pos < PCI_CONFIG_SIZE → 0 < count → count ≤ user.avail →
          WritesExactly hw w x file user count pos := by
  intro all
  have exact := all plainBoard zeroWorld firstXdev (nodeFile 0 1) ample 4 0 (fun _ _ _ _ _ => rfl) rfl
    (by decide) (by decide) (by decide) (by decide)
  have value : ((charConfigWrite plainBoard tables (nodeFile 0 1) ample 0).run zeroWorld).value =
      some (128, 128) := by decide +kernel
  have bound := (exact 128 128 value (by decide)).1
  exact absurd bound (by decide)

end PcieUtil.Driver.ConfigWrites
