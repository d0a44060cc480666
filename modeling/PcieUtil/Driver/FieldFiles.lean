import PcieUtil.Driver.Snapshot

/-! A value that is written to the file of a field and read back from it. -/

namespace PcieUtil.Driver.FieldFiles
open Lib.Action Lib.Bytes State Kernel ConfigFile Transfers Snapshot

section
variable (hw : Dev → PciDev) (t : Tables)

/-- A config file of x whose node is a field of one to four bytes, inside the first n bytes of
the configuration space, which are plain memory. -/
structure FieldFile (n : Nat) (x : XdevPtr) (file : XgpuCdev) (item : Node) : Prop where
  plain : PlainBelow (hw x.pdev) n
  owner : file.xdev = some x
  node : t.configItems[minorOf file.cdevno]? = some item
  positive : 1 ≤ item.length
  field : item.length ≤ 4
  inside : item.offset + item.length ≤ n

/-- What is written to a field: as many bytes as it has. -/
def valueOf (item : Node) (source : UserBuf) : List Byte := load source.data 0 item.length

/-- A write at position zero. -/
def written (file : XgpuCdev) (source : UserBuf) (w : World) : Outcome World Call Ret :=
  (charConfigWrite hw t file source 0).run w

/-- A read at position zero behind the write. -/
def readBack (file : XgpuCdev) (source target : UserBuf) (count : Nat) (w : World) :
    Outcome World Call Ret :=
  (charConfigRead t file target count 0).run (written hw t file source w).state

/-- Both calls transfer the whole field, the read gives the bytes of the write, and the
other bytes of the space are those of before. -/
structure ReadsBack (n : Nat) (x : XdevPtr) (file : XgpuCdev) (item : Node) (source target : UserBuf)
    (count : Nat) (w : World) : Prop where
  written : (written hw t file source w).value = some ((item.length : Int), item.length)
  read : (readBack hw t file source target count w).value = some ((item.length : Int), item.length)
  bytes : ((readBack hw t file source target count w).trace.flatMap fun e => handedOut e.2) =
    valueOf item source
  kept : ∀ k < n, k < item.offset ∨ item.offset + item.length ≤ k →
    ((readBack hw t file source target count w).state.dev x.pdev).config k = (w.dev x.pdev).config k

/-- The configuration space after a write: the case of four bytes leaves it alone. -/
def leftBy (config : Memory) (item : Node) (bytes : List Byte) : Memory :=
  if item.length = 4 then config else store config item.offset bytes

end

section
variable {hw : Dev → PciDev} {t : Tables} {n : Nat} {x : XdevPtr} {file : XgpuCdev} {item : Node}
  {source target : UserBuf} {w : World}

/-- Reading a dword changes nothing, whatever is to be written. -/
theorem writeField_four {val : BitVec 32} {pdev : Dev} (four : item.length = 4) :
    Act.wp anyCall (writeField hw pdev item val) (Act.returns fun _ u => u = w) w := by
  unfold writeField
  rw [four]
  simp only [pciReadConfigDword, onDev, pciReadConfig, Act.wp_bind, Act.wp_zoom, Act.wp_call,
    Act.andThen_some, Act.wp_pure, Act.returns_some, setDev_self]
  exact ⟨trivial, trivial⟩

theorem write_leaves (opened : FieldFile hw t n x file item) (buffer : item.length ≤ source.avail) :
    Act.wp anyCall (charConfigWrite hw t file source 0) (Act.returns fun ret u =>
      ret = ((item.length : Int), item.length) ∧ SameBelow n (u.dev x.pdev).config
        (leftBy (w.dev x.pdev).config item (valueOf item source))) w := by
  have positive := opened.positive
  have field := opened.field
  apply charConfigWrite_field opened.owner opened.node positive field buffer
  unfold leftBy
  by_cases four : item.length = 4
  · rw [if_pos four]
    apply Act.wp_returns_mono (writeField_four four)
    intro _ u same k _
    rw [same]
  · rw [if_neg four]
    have same : SameBelow n (w.dev x.pdev).config (w.dev x.pdev).config := fun _ _ => rfl
    apply Act.wp_returns_mono
      (writeField_stores opened.plain rfl same (load_length _ _ _) (by omega))
    intro _ u both
    exact both.2

/-- Outside the field nothing changes. -/
theorem leftBy_outside {config : Memory} {bytes : List Byte} {k : Nat} (size : bytes.length = item.length)
    (outside : k < item.offset ∨ item.offset + item.length ≤ k) :
    leftBy config item bytes k = config k := by
  unfold leftBy
  split
  · rfl
  · obtain below | above := outside
    · exact store_below below
    · rw [← size] at above
      exact store_above above

/-- The bytes of the field afterwards are the new ones, unless it has four, which stay. -/
theorem load_leftBy {config : Memory} {bytes : List Byte} (size : bytes.length = item.length) :
    load (leftBy config item bytes) item.offset item.length = bytes ↔
      item.length ≠ 4 ∨ load config item.offset item.length = bytes := by
  unfold leftBy
  by_cases four : item.length = 4
  · simp [four]
  · have self := load_store_self config item.offset bytes
    rw [size] at self
    simp [four, self]

/-- A written value reads back exactly when the field does not have four bytes, or has that value
before. -/
theorem readsBack_iff (count : Nat) (opened : FieldFile hw t n x file item)
    (buffer : item.length ≤ source.avail) (room : item.length ≤ target.room) :
    ReadsBack hw t n x file item source target count w ↔
      item.length ≠ 4 ∨ load (w.dev x.pdev).config item.offset item.length = valueOf item source := by
  have size : (valueOf item source).length = item.length := load_length _ _ _
  obtain ⟨ret, value, result, left⟩ := Act.wp_final (write_leaves (w := w) opened buffer)
  rw [result] at value
  rw [← load_leftBy size]
  have read := read_field (w := (written hw t file source w).state) count opened.owner opened.node
    opened.field room
  obtain ⟨answer, state, bytes⟩ := read
  have field : load ((written hw t file source w).state.dev x.pdev).config item.offset item.length =
      load (leftBy (w.dev x.pdev).config item (valueOf item source)) item.offset item.length := by
    apply load_congr
    intro i bound
    have inside := opened.inside
    exact left (item.offset + i) (by omega)
  rw [field] at bytes
  constructor
  · intro back
    rw [← bytes]
    exact back.bytes
  · intro same
    refine ⟨value, answer, bytes.trans same, fun k below outside => ?_⟩
    have state : (readBack hw t file source target count w).state =
      (written hw t file source w).state := state
    rw [state]
    exact (left k below).trans (leftBy_outside size outside)

end

/-- A config table with one node. -/
def oneField (length : Nat) : Tables := ⟨[⟨0, 0x10, length, "xgpu%d/field"⟩], [], []⟩

theorem readsBack_iff_three :
    ReadsBack plainBoard (oneField 3) 256 firstXdev (nodeFile 0 1) ⟨0, 0x10, 3, "xgpu%d/field"⟩
      ⟨fun _ => 0xff, 4096, 4096⟩ ample 3 zeroWorld := by
  have opened : FieldFile plainBoard (oneField 3) 256 firstXdev (nodeFile 0 1)
      ⟨0, 0x10, 3, "xgpu%d/field"⟩ :=
    ⟨fun _ _ _ _ _ => rfl, rfl, rfl, by decide, by decide, by decide⟩
  exact (readsBack_iff 3 opened (by decide) (by decide)).mpr (.inl (by decide))

/-- Four bytes 0xff that are written over zeros read back as zeros. -/
theorem dword_not_written :
    ¬ ∀ (hw : Dev → PciDev) (t : Tables) (n : Nat) (x : XdevPtr) (file : XgpuCdev) (item : Node)
      (source target : UserBuf) (count : Nat) (w : World), FieldFile hw t n x file item →
        item.length ≤ source.avail → item.length ≤ target.room → item.length ≤ count →
          ReadsBack hw t n x file item source target count w := by
  intro all
  have opened : FieldFile plainBoard (oneField 4) 256 firstXdev (nodeFile 0 1)
      ⟨0, 0x10, 4, "xgpu%d/field"⟩ :=
    ⟨fun _ _ _ _ _ => rfl, rfl, rfl, by decide, by decide, by decide⟩
  have back := all plainBoard (oneField 4) 256 firstXdev (nodeFile 0 1) ⟨0, 0x10, 4, "xgpu%d/field"⟩
    ⟨fun _ => 0xff, 4096, 4096⟩ ample 4 zeroWorld opened (by decide) (by decide) (by decide)
  have bytes := back.bytes
  revert bytes
  decide +kernel

end PcieUtil.Driver.FieldFiles
