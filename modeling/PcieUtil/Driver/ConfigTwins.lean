import PcieUtil.Driver.Chunks
import PcieUtil.Driver.Requests
import PcieUtil.Driver.Twins

/-! The config files in two runs that show a device the same. A read of the file of the
whole space also depends on the snapshot, at the positions that it covers; a write
of that file makes the snapshot the same. -/

namespace PcieUtil.Driver.ConfigTwins
open Lib.Action Lib.Bytes State Kernel ConfigFile Interfaces Transfers Snapshot Chunks Requests Twins

section
variable {hw : Dev → PciDev} {t : Tables} {file : XgpuCdev} {x : XdevPtr} {user : UserBuf}
  {count pos : Nat} {pdev : Dev} {w u : World}

/-- The positions of the space that a read of it hands out: none when its piece is not longer
than what lies before it, and no more than the buffer has room for. -/
def Covers (user : UserBuf) (pos count k : Nat) : Prop :=
  pos < piece pos count ∧ pos ≤ k ∧ k < pos + min (piece pos count) user.room

/-- The file of a node that the snapshot is behind. -/
def isWhole (t : Tables) (file : XgpuCdev) : Bool :=
  match t.configItems[minorOf file.cdevno]? with
  | none => false
  | some item => 4 < item.length

theorem covers_inside {k : Nat} (covers : Covers user pos count k) : k < PCI_CONFIG_SIZE := by
  obtain ⟨fits, _, below⟩ := covers
  unfold piece at *
  omega

/-- A read gives the same in both, and changes nothing. -/
theorem charConfigRead_twin (owner : file.xdev = some x) (posSmall : pos < 2 ^ 63)
    (countSmall : count < 2 ^ 63) (config : (w.dev x.pdev).config = (u.dev x.pdev).config)
    (data : isWhole t file = true → ∀ k, Covers user pos count k → w.configData k = u.configData k)
    {Q : Option Ret → List Byte → Prop} :
    Act.collects handedOut (charConfigRead t file user count pos)
        (fun v w' bytes => w' = w ∧ Q v bytes) w ↔
      Act.collects handedOut (charConfigRead t file user count pos)
        (fun v u' bytes => u' = u ∧ Q v bytes) u := by
  unfold charConfigRead
  rw [owner]
  cases entry : t.configItems[minorOf file.cdevno]? with
  | none => simp
  | some item =>
    simp only [Act.collects_bind, collects_readField handedOut (fun _ _ _ => rfl),
      Act.thenCollects_some, config]
    by_cases short : item.length ≤ 4
    · simp only [if_pos short]
      by_cases first : 0 < pos
      · simp [first]
      · simp only [if_neg first, copyToUser, Act.collects_bind, Act.collects_call, Act.thenCollects_some]
        split <;> simp
    · simp only [if_neg short]
      generalize size : (if PCI_CONFIG_SIZE < (pos + count) % 2 ^ 64 then clampCount pos else count) = n
      by_cases idle : n = 0 ∨ n ≤ pos
      · simp [idle]
      · obtain ⟨rfl, fits⟩ := whole_piece posSmall countSmall size idle
        have whole : isWhole t file = true := by
          rw [isWhole, entry]
          exact decide_eq_true (Nat.lt_of_not_le short)
        have handed : load w.configData pos (min (piece pos count) user.room) =
            load u.configData pos (min (piece pos count) user.room) :=
          load_congr fun i below => data whole _ ⟨fits, by omega, by omega⟩
        simp only [if_neg idle, copyToUser, Act.collects_bind, Act.collects_read, Act.collects_call,
          Act.thenCollects_some, load_length, handedOut, load_take]
        split <;> simp [handed]

/-- Two worlds that show a device the same and hold these snapshots. -/
def TwinData (data data' : Memory) (pdev : Dev) (w u : World) : Prop :=
  Twin pdev w u ∧ w.configData = data ∧ u.configData = data'

variable {data data' : Memory}

theorem dataDev_agrees {α : Type} (act : DevM α) :
    Act.Agrees (TwinData data data' pdev) (onDev pdev act) := by
  intro w u related
  obtain ⟨twin, first, second⟩ := related
  obtain ⟨value, after⟩ := twin_agrees act w u twin
  exact ⟨value, after, first, second⟩

theorem writeField_agrees (item : Node) (val : BitVec 32) :
    Act.Agrees (TwinData data data' pdev) (writeField hw pdev item val) := by
  unfold writeField
  split
  · exact dataDev_agrees _
  · exact dataDev_agrees _
  · apply Act.Agrees.bind (dataDev_agrees _)
    intro _
    exact .bind (dataDev_agrees _) fun _ => dataDev_agrees _
  · exact .bind (.bind (dataDev_agrees _) fun _ => .pure _ _) fun _ => .pure _ _

theorem writeSnapshot_agrees (offset count ii : Nat) (same : ∀ k < ii + count, data k = data' k) :
    Act.Agrees (TwinData data data' pdev) (writeSnapshot hw pdev offset count ii) := by
  induction count generalizing ii with
  | zero => exact .pure _ _
  | succ count ih =>
    have byte : Act.Agrees (TwinData data data' pdev) (Act.read (fun w => w.configData ii) : M Byte) := by
      apply Act.Agrees.read
      intro w u related
      rw [related.2.1, related.2.2]
      exact same ii (by omega)
    unfold writeSnapshot
    apply Act.Agrees.bind byte
    intro val
    apply Act.Agrees.bind (dataDev_agrees _)
    exact fun _ => ih (ii + 1) fun k below => same k (by omega)

/-- A write that goes through the snapshot. -/
def renews (file : XgpuCdev) (pos : Nat) : Bool := isWhole tables file && decide (pos < PCI_CONFIG_SIZE)

/-- The snapshots after a write: the same up to the size of the space, or those of before. -/
def Renewed (file : XgpuCdev) (pos : Nat) (w u w' u' : World) : Prop :=
  if renews file pos then SameBelow PCI_CONFIG_SIZE w'.configData u'.configData
  else w'.configData = w.configData ∧ u'.configData = u.configData

theorem whole_length : ∀ item ∈ tables.configItems, 4 < item.length → item.length = PCI_CONFIG_SIZE := by
  decide

theorem copyFromUser_agrees {r : World → World → Prop} (start n : Nat) :
    Act.Agrees r (copyFromUser user start n) := .call fun _ _ related => ⟨rfl, related⟩

theorem charConfigWrite_agrees (owner : file.xdev = some x) (mine : x.pdev = pdev)
    (still : renews file pos = false) :
    Act.Agrees (TwinData data data' pdev) (charConfigWrite hw tables file user pos) := by
  unfold charConfigWrite
  rw [owner]
  cases entry : tables.configItems[minorOf file.cdevno]? with
  | none => exact .pure _ _
  | some item =>
    dsimp only
    split
    · exact .pure _ _
    · next inside =>
      split
      · apply Act.Agrees.bind (copyFromUser_agrees 0 item.length)
        intro copied
        split
        · exact .pure _ _
        · rw [mine]
          exact .bind (writeField_agrees item _) fun _ => .pure _ _
      · next long =>
        have size := whole_length item (List.mem_of_getElem? entry) (Nat.lt_of_not_le long)
        have renewing : renews file pos = true := by
          rw [renews, isWhole, entry, Bool.and_eq_true]
          exact ⟨decide_eq_true (Nat.lt_of_not_le long), decide_eq_true (by omega)⟩
        rw [still] at renewing
        cases renewing

/-- The destination is filled, whatever of it comes from the user. -/
theorem copyFromUser_both {Q : Option (List Byte × Nat) → World → World → Prop} (start n : Nat)
    (holds : ∀ bytes missed, bytes.length = n → Q (some (bytes, missed)) w u) :
    Act.both Q (copyFromUser user start n) (copyFromUser user start n) w u := by
  refine ⟨rfl, holds _ _ ?_⟩
  rw [List.length_append, load_length, List.length_replicate]
  omega

theorem charConfigWrite_renewing (owner : file.xdev = some x) (mine : x.pdev = pdev)
    (renewing : renews file pos = true) (twin : Twin pdev w u) :
    Act.both (fun _ w' u' => Twin pdev w' u' ∧ SameBelow PCI_CONFIG_SIZE w'.configData u'.configData)
      (charConfigWrite hw tables file user pos) (charConfigWrite hw tables file user pos) w u := by
  obtain ⟨whole, inside⟩ := Bool.and_eq_true_iff.mp renewing
  unfold charConfigWrite
  rw [owner]
  cases entry : tables.configItems[minorOf file.cdevno]? with
  | none =>
    rw [isWhole, entry] at whole
    cases whole
  | some item =>
    rw [isWhole, entry] at whole
    have long : 4 < item.length := of_decide_eq_true whole
    have size := whole_length item (List.mem_of_getElem? entry) long
    have below : pos < item.length := size ▸ of_decide_eq_true inside
    dsimp only
    rw [if_neg (Nat.not_le.mpr below), if_neg (Nat.not_le.mpr long), size, if_neg (Nat.lt_irrefl _)]
    apply Act.both_bind
    apply copyFromUser_both
    intro bytes missed full
    rw [Act.thenBoth_some]
    have covered : ∀ k < PCI_CONFIG_SIZE, store w.configData 0 bytes k = store u.configData 0 bytes k :=
      fun k small => store_covers (full ▸ small)
    have stored : TwinData (store w.configData 0 bytes) (store u.configData 0 bytes) pdev
        { w with configData := store w.configData 0 bytes }
        { u with configData := store u.configData 0 bytes } :=
      ⟨⟨twin.dev, twin.listed, twin.sysClass⟩, rfl, rfl⟩
    have rest : Act.Agrees
        (TwinData (store w.configData 0 bytes) (store u.configData 0 bytes) pdev)
        (if missed ≠ 0 then return (-(EINVAL : Int), pos)
        else do
          writeSnapshot hw x.pdev item.offset PCI_CONFIG_SIZE 0
          return ((PCI_CONFIG_SIZE : Int), pos + PCI_CONFIG_SIZE)) := by
      split
      · exact .pure _ _
      · rw [mine]
        apply Act.Agrees.bind (writeSnapshot_agrees _ _ _ fun k small => covered k (by omega))
        exact fun _ => .pure _ _
    apply Act.both_update.mpr
    apply Act.both_mono (rest.both stored)
    intro _ w' u' related
    obtain ⟨after, first, second⟩ := related
    refine ⟨after, ?_⟩
    rw [first, second]
    exact covered

/-- A write does the same in both; the snapshots are the same behind it, or those of before. -/
theorem charConfigWrite_both (owner : file.xdev = some x) (mine : x.pdev = pdev) (twin : Twin pdev w u) :
    Act.both (fun _ w' u' => Twin pdev w' u' ∧ Renewed file pos w u w' u')
      (charConfigWrite hw tables file user pos) (charConfigWrite hw tables file user pos) w u := by
  unfold Renewed
  cases renewing : renews file pos with
  | true => exact charConfigWrite_renewing owner mine renewing twin
  | false => exact (charConfigWrite_agrees owner mine renewing).both ⟨twin, rfl, rfl⟩

/-! Requests on the config files of other devices. -/

/-- A read changes nothing. -/
theorem charConfigRead_same (w : World) : Act.Maintains (fun u => u = w) (fun _ => True)
    (charConfigRead t file user count pos) := by
  apply charConfigRead_maintains
  · intro y _ offset width
    apply Act.Maintains.zoom
    · exact fun _ _ => .call trivial fun _ same => same
    · exact fun u => setDev_self u y.pdev
  · exact fun _ => .call trivial fun _ same => same

theorem onDev_aside {α : Type} {d : Dev} (act : DevM α) (other : pdev ≠ d) (w : World) :
    Act.Maintains (Twin pdev w) (fun _ => True) (onDev d act) := by
  intro u twin
  have aside : ∀ s, Twin pdev w (State.setDev u d s) := fun s =>
    ⟨twin.dev.trans (setDev_dev_other u s other).symm, twin.listed, twin.sysClass⟩
  rw [onDev, Act.wp_zoom]
  exact ⟨fun _ _ => ⟨aside _, trivial⟩, aside _⟩

/-- A write through the files of another device leaves the device alone. -/
theorem charConfigWrite_aside (owner : file.xdev = some x) (other : pdev ≠ x.pdev) (w : World) :
    Act.Maintains (Twin pdev w) (fun _ => True) (charConfigWrite hw t file user pos) := by
  have apart : ∀ y, file.xdev = some y → pdev ≠ y.pdev := by
    intro y set
    rw [owner, Option.some.injEq] at set
    exact set ▸ other
  apply charConfigWrite_maintains
  · exact fun y set _ _ => onDev_aside _ (apart y set) w
  · exact fun y set _ _ => onDev_aside _ (apart y set) w
  · exact fun _ _ => .call trivial fun _ twin => twin
  · exact fun _ _ twin => ⟨twin.dev, twin.listed, twin.sysClass⟩

end

end PcieUtil.Driver.ConfigTwins
