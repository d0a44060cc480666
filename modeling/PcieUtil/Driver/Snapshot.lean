import Mathlib.Data.List.Induction
import PcieUtil.Driver.Transfers

/-! The snapshot of the configuration space against the space itself, over any
sequence of writes through the config files of one device. -/

namespace PcieUtil.Driver.Snapshot
open Lib.Action Lib.Bytes State Kernel ConfigFile Transfers

/-- A configuration space whose first n bytes are plain memory. -/
def PlainBelow (dev : PciDev) (n : Nat) : Prop :=
  ∀ mem offset bytes k, k < n → dev.configWrite mem offset bytes k = store mem offset bytes k

/-- Two memories with the same bytes below n. -/
def SameBelow (n : Nat) (first second : Memory) : Prop := ∀ k < n, first k = second k

theorem SameBelow.trans {n : Nat} {first second third : Memory} (one : SameBelow n first second)
    (two : SameBelow n second third) : SameBelow n first third :=
  fun k below => (one k below).trans (two k below)

theorem SameBelow.store {n : Nat} {first second : Memory} (same : SameBelow n first second)
    (start : Nat) (bytes : List Byte) :
    SameBelow n (store first start bytes) (store second start bytes) :=
  fun k below => store_congr start bytes (same k below)

theorem PlainBelow.write {dev : PciDev} {n : Nat} (plain : PlainBelow dev n) {mem expected : Memory}
    (same : SameBelow n mem expected) (start : Nat) (bytes : List Byte) :
    SameBelow n (dev.configWrite mem start bytes) (Lib.Bytes.store expected start bytes) :=
  fun k below => (plain mem start bytes k below).trans (same.store start bytes k below)

/-- A write system call at position zero. -/
structure Write where
  file : XgpuCdev
  user : UserBuf

/-- The node of the file that is written. -/
def Write.item (write : Write) : Node := configItems.getD (minorOf write.file.cdevno) default

theorem Write.item_node (write : Write) (node : minorOf write.file.cdevno < configItems.length) :
    configItems[minorOf write.file.cdevno]? = some write.item := by
  rw [Write.item, List.getD_eq_getElem?_getD, List.getElem?_eq_getElem node, Option.getD_some]

/-- What is written: as many bytes as the node has. -/
def Write.bytes (write : Write) : List Byte := load write.user.data 0 write.item.length

def Write.isWhole (write : Write) : Prop := write.item.length = PCI_CONFIG_SIZE

instance (write : Write) : Decidable write.isWhole := inferInstanceAs (Decidable (_ = _))

/-- A write through a config file of x, of a buffer that covers the node. -/
structure Write.Full (x : XdevPtr) (write : Write) : Prop where
  owner : write.file.xdev = some x
  node : minorOf write.file.cdevno < configItems.length
  buffer : write.item.length ≤ write.user.avail

/-! What the sequence amounts to. -/

/-- What the last write of the whole space left, or what was there before. -/
def lastWhole (start : Memory) (writes : List Write) : Memory :=
  writes.foldl (fun mem write => if write.isWhole then store mem 0 write.bytes else mem) start

/-- The writes of fields that came after the last write of the whole space. -/
def fieldsSince (writes : List Write) : List Write :=
  writes.foldl (fun fields write => if write.isWhole then [] else fields ++ [write]) []

/-- A memory after the writes of some fields. -/
def stored (mem : Memory) (fields : List Write) : Memory :=
  fields.foldl (fun mem write => store mem write.item.offset write.bytes) mem

theorem lastWhole_snoc (start : Memory) (writes : List Write) (write : Write) :
    lastWhole start (writes ++ [write]) =
      if write.isWhole then store (lastWhole start writes) 0 write.bytes else lastWhole start writes := by
  simp [lastWhole]

theorem fieldsSince_snoc (writes : List Write) (write : Write) :
    fieldsSince (writes ++ [write]) =
      if write.isWhole then [] else fieldsSince writes ++ [write] := by
  simp [fieldsSince]

theorem stored_snoc (mem : Memory) (fields : List Write) (write : Write) :
    stored mem (fields ++ [write]) = store (stored mem fields) write.item.offset write.bytes := by
  simp [stored]

/-- The nodes of the table: the whole space first, then fields of one to three bytes. -/
theorem item_shape {item : Node} (member : item ∈ configItems) :
    item.offset + item.length ≤ PCI_CONFIG_SIZE ∧
      (item.length = 1 ∨ item.length = 2 ∨ item.length = 3 ∨
        item.length = PCI_CONFIG_SIZE ∧ item.offset = 0) := by
  revert item
  decide

theorem Write.Full.whole_offset {x : XdevPtr} {write : Write} (full : write.Full x)
    (whole : write.isWhole) : write.item.offset = 0 := by
  have shape := item_shape (List.mem_of_getElem? (write.item_node full.node))
  unfold Write.isWhole at whole
  unfold PCI_CONFIG_SIZE at *
  omega

section
variable {hw : Dev → PciDev} {pdev : Dev} {w : World}

/-- Any kernel call may be made. -/
def anyCall : World → Call → Prop := fun _ _ => True

/-- The snapshot and the first bytes of the configuration space of a device. -/
def Holds (w : World) (pdev : Dev) (snapshot config : Memory) : Prop :=
  SameBelow PCI_CONFIG_SIZE w.configData snapshot ∧
    SameBelow PCI_CONFIG_SIZE (w.dev pdev).config config

/-- One configuration write, on a space whose first n bytes are known and plain. -/
theorem pciWriteConfig_stores {n : Nat} {data config : Memory} (plain : PlainBelow (hw pdev) n)
    (cached : w.configData = data) (same : SameBelow n (w.dev pdev).config config)
    (offset : Nat) (bytes : List Byte) :
    Act.wp anyCall (onDev pdev (pciWriteConfig hw pdev offset bytes))
      (Act.returns fun _ t => t.configData = data ∧
        SameBelow n (t.dev pdev).config (store config offset bytes)) w := by
  rw [onDev, Act.wp_zoom]
  simp only [pciWriteConfig, Act.wp_call, Act.returns_some]
  refine ⟨trivial, cached, ?_⟩
  rw [setDev_dev_same]
  exact plain.write same offset bytes

theorem pciWriteConfig_holds {snapshot config : Memory}
    (plain : PlainBelow (hw pdev) PCI_CONFIG_SIZE) (holds : Holds w pdev snapshot config)
    (offset : Nat) (bytes : List Byte) :
    Act.wp anyCall (onDev pdev (pciWriteConfig hw pdev offset bytes))
      (Act.returns fun _ t => Holds t pdev snapshot (store config offset bytes)) w := by
  have stores := pciWriteConfig_stores plain rfl holds.2 offset bytes
  apply Act.wp_returns_mono stores
  intro _ t both
  obtain ⟨cached, same⟩ := both
  rw [Holds, cached]
  exact ⟨holds.1, same⟩

/-- The bytes of the variable that a field is copied to. -/
theorem variable_byte (bytes : List Byte) (short : bytes.length ≤ 3) :
    ((BitVec.ofNat 32 (ofLE bytes)).setWidth 8).toNat = ofLE bytes % 256 ∧
      ((BitVec.ofNat 32 (ofLE bytes)).setWidth 16).toNat = ofLE bytes % 65536 ∧
      ((BitVec.ofNat 32 (ofLE bytes) >>> 8).setWidth 8).toNat = ofLE bytes / 256 % 256 ∧
      ((BitVec.ofNat 32 (ofLE bytes) >>> 16).setWidth 8).toNat = ofLE bytes / 65536 % 256 := by
  have small : ofLE bytes < 256 ^ 3 :=
    Nat.lt_of_lt_of_le (ofLE_lt bytes) (Nat.pow_le_pow_right (by decide) short)
  simp only [BitVec.toNat_setWidth, BitVec.toNat_ushiftRight, BitVec.toNat_ofNat,
    Nat.shiftRight_eq_div_pow]
  omega

/-- The write of a field of one to three bytes stores them at its offset. -/
theorem writeField_stores {n : Nat} {data config : Memory} {item : Node} {bytes : List Byte}
    (plain : PlainBelow (hw pdev) n) (cached : w.configData = data)
    (same : SameBelow n (w.dev pdev).config config)
    (length : bytes.length = item.length) (field : item.length = 1 ∨ item.length = 2 ∨ item.length = 3) :
    Act.wp anyCall (writeField hw pdev item (BitVec.ofNat 32 (ofLE bytes)))
      (Act.returns fun _ t => t.configData = data ∧
        SameBelow n (t.dev pdev).config (store config item.offset bytes)) w := by
  obtain ⟨byte, word, second, third⟩ := variable_byte bytes (by omega)
  unfold writeField
  rcases field with one | two | three
  · obtain ⟨a, rfl⟩ := List.length_eq_one_iff.mp (length.trans one)
    have low : (BitVec.ofNat 32 (ofLE [a])).setWidth 8 = a := by
      have isLt := a.isLt
      apply BitVec.eq_of_toNat_eq
      rw [byte, ofLE, ofLE]
      omega
    rw [one]
    simp only [pciWriteConfigByte, low]
    exact pciWriteConfig_stores plain cached same _ _
  · have low : toLE 2 ((BitVec.ofNat 32 (ofLE bytes)).setWidth 16).toNat = bytes := by
      have size : bytes.length = 2 := length.trans two
      have small : ofLE bytes < 65536 := lt_of_lt_of_eq (ofLE_lt bytes) (by simp [size])
      rw [word, Nat.mod_eq_of_lt small]
      exact toLE_ofLE_of_length size
    rw [two]
    simp only [pciWriteConfigWord, low]
    exact pciWriteConfig_stores plain cached same _ _
  · obtain ⟨a, b, c, rfl⟩ := List.length_eq_three.mp (length.trans three)
    have isLt := a.isLt
    have isLt' := b.isLt
    have isLt'' := c.isLt
    have low : (BitVec.ofNat 32 (ofLE [a, b, c])).setWidth 8 = a := by
      apply BitVec.eq_of_toNat_eq
      rw [byte, ofLE, ofLE]
      omega
    have middle : (BitVec.ofNat 32 (ofLE [a, b, c]) >>> 8).setWidth 8 = b := by
      apply BitVec.eq_of_toNat_eq
      rw [second, ofLE, ofLE]
      omega
    have high : (BitVec.ofNat 32 (ofLE [a, b, c]) >>> 16).setWidth 8 = c := by
      apply BitVec.eq_of_toNat_eq
      rw [third, ofLE, ofLE, ofLE]
      omega
    have split : store config item.offset [a, b, c] =
        store (store (store config item.offset [a]) (item.offset + 1) [b]) (item.offset + 2) [c] := by
      rw [store_cons, store_cons _ (item.offset + 1)]
    rw [three, split]
    simp only [pciWriteConfigByte, low, middle, high]
    refine Act.wp_seq (pciWriteConfig_stores plain cached same _ _) fun _ t first => ?_
    refine Act.wp_seq (pciWriteConfig_stores plain first.1 first.2 _ _) fun _ t next => ?_
    exact pciWriteConfig_stores plain next.1 next.2 _ _

theorem writeField_holds {snapshot config : Memory} {item : Node} {bytes : List Byte}
    (plain : PlainBelow (hw pdev) PCI_CONFIG_SIZE) (holds : Holds w pdev snapshot config)
    (length : bytes.length = item.length) (field : item.length = 1 ∨ item.length = 2 ∨ item.length = 3) :
    Act.wp anyCall (writeField hw pdev item (BitVec.ofNat 32 (ofLE bytes)))
      (Act.returns fun _ t => Holds t pdev snapshot (store config item.offset bytes)) w := by
  have stores := writeField_stores plain rfl holds.2 length field
  apply Act.wp_returns_mono stores
  intro _ t both
  obtain ⟨cached, same⟩ := both
  rw [Holds, cached]
  exact ⟨holds.1, same⟩

/-- The loop that writes the snapshot to the device. -/
theorem writeSnapshot_holds {snapshot config : Memory} (plain : PlainBelow (hw pdev) PCI_CONFIG_SIZE)
    (count ii : Nat) (inside : ii + count ≤ PCI_CONFIG_SIZE) (holds : Holds w pdev snapshot config) :
    Act.wp anyCall (writeSnapshot hw pdev 0 count ii)
      (Act.returns fun _ t => Holds t pdev snapshot (store config ii (load snapshot ii count))) w := by
  induction count generalizing ii w config with
  | zero =>
    have nothing : store config ii (load snapshot ii 0) = config := store_nil config ii
    rw [nothing]
    exact Act.wp_pure.mpr holds
  | succ count ih =>
    have val : w.configData ii = snapshot ii := holds.1 ii (by omega)
    simp only [writeSnapshot, pciWriteConfigByte, Nat.zero_add]
    rw [Act.wp_bind, Act.wp_read, Act.andThen_some, val]
    refine Act.wp_seq (pciWriteConfig_holds plain holds _ _) fun _ t holds => ?_
    have rest := ih (ii + 1) (by omega) holds
    rw [load_succ, store_cons]
    exact rest

/-- A full write through the file of a field does what writing the field does. -/
theorem charConfigWrite_field {t : Tables} {x : XdevPtr} {file : XgpuCdev} {item : Node}
    {user : UserBuf} {P : World → Prop} (owner : file.xdev = some x)
    (node : t.configItems[minorOf file.cdevno]? = some item) (positive : 0 < item.length)
    (field : item.length ≤ 4) (buffer : item.length ≤ user.avail)
    (written : Act.wp anyCall
      (writeField hw x.pdev item (BitVec.ofNat 32 (ofLE (load user.data 0 item.length))))
      (Act.returns fun _ u => P u) w) :
    Act.wp anyCall (charConfigWrite hw t file user 0)
      (Act.returns fun ret u => ret = ((item.length : Int), item.length) ∧ P u) w := by
  have all : min item.length (user.avail - 0) = item.length := by omega
  have some_bytes : ¬ item.length ≤ 0 := by omega
  unfold charConfigWrite
  rw [owner]
  simp only [node, if_neg some_bytes, if_pos field, copyFromUser, Act.wp_bind, Act.wp_call, all,
    Nat.sub_self, List.replicate_zero, List.append_nil, Act.andThen_some, ne_eq, not_true_eq_false,
    if_false]
  refine ⟨trivial, ?_⟩
  rw [← Act.wp_bind]
  refine Act.wp_seq written fun _ u holds => ?_
  rw [Act.wp_pure, Nat.zero_add]
  exact ⟨rfl, holds⟩

/-- A full write through a config file succeeds. It takes the bytes to the device,
and to the snapshot when the file is that of the whole space. -/
theorem charConfigWrite_holds {x : XdevPtr} {write : Write} {snapshot config : Memory}
    (plain : PlainBelow (hw x.pdev) PCI_CONFIG_SIZE) (full : write.Full x)
    (holds : Holds w x.pdev snapshot config) :
    Act.wp anyCall (charConfigWrite hw tables write.file write.user 0) (Act.returns fun ret t =>
      ret = ((write.item.length : Int), write.item.length) ∧
        Holds t x.pdev (if write.isWhole then store snapshot 0 write.bytes else snapshot)
          (store config write.item.offset write.bytes)) w := by
  have node : tables.configItems[minorOf write.file.cdevno]? = some write.item := write.item_node full.node
  obtain ⟨inside, shape⟩ := item_shape (List.mem_of_getElem? node)
  have all : min write.item.length (write.user.avail - 0) = write.item.length := by
    have buffer := full.buffer
    omega
  have some_bytes : ¬ write.item.length ≤ 0 := by
    unfold PCI_CONFIG_SIZE at shape
    omega
  by_cases field : write.item.length ≤ 4
  · have part : ¬ write.isWhole := by
      unfold Write.isWhole PCI_CONFIG_SIZE
      omega
    have size : write.item.length = 1 ∨ write.item.length = 2 ∨ write.item.length = 3 := by
      unfold PCI_CONFIG_SIZE at shape
      omega
    rw [if_neg part]
    apply charConfigWrite_field full.owner node (by omega) field full.buffer
    exact writeField_holds plain holds (load_length _ _ _) size
  · obtain ⟨length, offset⟩ : write.item.length = PCI_CONFIG_SIZE ∧ write.item.offset = 0 := by
      unfold PCI_CONFIG_SIZE at *
      omega
    have whole : write.isWhole := length
    have size : write.bytes.length = PCI_CONFIG_SIZE := (load_length _ _ _).trans length
    rw [length] at all
    have taken : load write.user.data 0 PCI_CONFIG_SIZE = write.bytes := by rw [Write.bytes, length]
    unfold charConfigWrite
    rw [full.owner, if_pos whole]
    simp only [node, if_neg some_bytes, if_neg field]
    rw [length, offset]
    simp only [copyFromUser, Act.wp_bind, Act.wp_call, all, taken, Nat.sub_self, List.replicate_zero,
      List.append_nil, Act.andThen_some, ne_eq, not_true_eq_false, if_false, Act.wp_update,
      Nat.lt_irrefl]
    refine ⟨trivial, ?_⟩
    rw [← Act.wp_bind]
    generalize cached : { w with configData := store w.configData 0 write.bytes } = v
    have holds : Holds v x.pdev (store snapshot 0 write.bytes) config := by
      rw [← cached]
      exact ⟨holds.1.store 0 write.bytes, holds.2⟩
    have snapshot_bytes : load (store snapshot 0 write.bytes) 0 PCI_CONFIG_SIZE = write.bytes := by
      rw [← size]
      exact load_store_self snapshot 0 write.bytes
    have written := writeSnapshot_holds plain PCI_CONFIG_SIZE 0 (by decide) holds
    rw [snapshot_bytes] at written
    refine Act.wp_seq written fun _ t holds => ?_
    rw [Act.wp_pure, Nat.zero_add]
    exact ⟨rfl, holds⟩

/-- The state after a sequence of writes. -/
def afterWrites (hw : Dev → PciDev) (w : World) (writes : List Write) : World :=
  writes.foldl (fun w write => ((charConfigWrite hw tables write.file write.user 0).run w).state) w

theorem afterWrites_holds {x : XdevPtr} {start : Memory} {writes : List Write}
    (plain : PlainBelow (hw x.pdev) PCI_CONFIG_SIZE) (full : ∀ write ∈ writes, write.Full x)
    (holds : Holds w x.pdev start start) :
    Holds (afterWrites hw w writes) x.pdev (lastWhole start writes)
      (stored (lastWhole start writes) (fieldsSince writes)) := by
  induction writes using List.reverseRecOn with
  | nil => exact holds
  | append_singleton writes write ih =>
    have before := ih fun other member => full other (List.mem_append_left _ member)
    have last := full write (List.mem_append_right _ (List.mem_singleton.mpr rfl))
    obtain ⟨ret, _, _, after⟩ := Act.wp_final (charConfigWrite_holds plain last before)
    rw [afterWrites, List.foldl_append, List.foldl_cons, List.foldl_nil, lastWhole_snoc,
      fieldsSince_snoc]
    by_cases whole : write.isWhole
    · rw [if_pos whole] at after
      rw [if_pos whole, if_pos whole]
      refine ⟨after.1, after.2.trans fun k below => ?_⟩
      have size : write.bytes.length = PCI_CONFIG_SIZE := (load_length _ _ _).trans whole
      rw [last.whole_offset whole]
      exact store_covers (by omega)
    · rw [if_neg whole] at after
      rw [if_neg whole, if_neg whole, stored_snoc]
      exact after

/-- cdev_config_init changes the snapshot only: it holds the first bytes of the device. -/
theorem fillSnapshot_step {R : World → Call → Prop} (count ii : Nat)
    (calls : ∀ data offset width, R { w with configData := data } (.pciReadConfig pdev offset width))
    (filled : ∀ k < ii, w.configData k = (w.dev pdev).config k) :
    Act.wp R (fillSnapshot pdev count ii) (Act.returns fun _ t =>
      ∃ data, t = { w with configData := data } ∧ ∀ k < ii + count, data k = (w.dev pdev).config k) w := by
  induction count generalizing ii w with
  | zero => exact Act.wp_pure.mpr ⟨w.configData, rfl, filled⟩
  | succ count ih =>
    simp only [fillSnapshot, pciReadConfigByte, onDev, pciReadConfig, Act.wp_bind, Act.wp_zoom,
      Act.wp_call, Act.andThen_some, Act.wp_pure, Act.wp_update, setDev_self, load_one_value,
      BitVec.ofNat_toNat, BitVec.setWidth_eq]
    refine ⟨calls w.configData ii 1, ?_⟩
    generalize next : Function.update w.configData ii ((w.dev pdev).config ii) = data
    have filled : ∀ k < ii + 1, data k = (w.dev pdev).config k := by
      intro k below
      rw [← next]
      by_cases here : k = ii
      · rw [here, Function.update_self]
      · rw [Function.update_of_ne here, filled k (by omega)]
    have rest := ih (w := { w with configData := data }) (ii + 1) calls filled
    rw [Nat.succ_add_eq_add_succ] at rest
    exact rest

/-- The bytes that a call hands to the user. -/
def handedOut : Call → List Byte
  | .copyToUser bytes copied => bytes.take copied
  | _ => []

/-- What a read of a config file at position zero gives. -/
def readBytes (w : World) (file : XgpuCdev) (user : UserBuf) (count : Nat) : List Byte :=
  ((charConfigRead tables file user count 0).run w).trace.flatMap fun e => handedOut e.2

/-- A read of the whole space succeeds and gives the bytes of the device, and each
field file gives its part of them. -/
structure Consistent (w : World) (x : XdevPtr) (config : XgpuCdev) (user : UserBuf) : Prop where
  returns : ((charConfigRead tables config user PCI_CONFIG_SIZE 0).run w).value =
    some ((PCI_CONFIG_SIZE : Int), PCI_CONFIG_SIZE)
  space : readBytes w config user PCI_CONFIG_SIZE = load (w.dev x.pdev).config 0 PCI_CONFIG_SIZE
  fields : ∀ (file : XgpuCdev) (item : Node) (buffer : UserBuf) (count : Nat), file.xdev = some x →
    configItems[minorOf file.cdevno]? = some item → item.length ≤ 3 → item.length ≤ buffer.room →
      readBytes w file buffer count =
        ((readBytes w config user PCI_CONFIG_SIZE).drop item.offset).take item.length

/-- A read of the whole space gives the snapshot. -/
theorem read_whole {x : XdevPtr} {config : XgpuCdev} {user : UserBuf} (owner : config.xdev = some x)
    (node : minorOf config.cdevno = 0) (room : PCI_CONFIG_SIZE ≤ user.room) :
    Act.collects handedOut (charConfigRead tables config user PCI_CONFIG_SIZE 0) (fun v _ bytes =>
      v = some ((PCI_CONFIG_SIZE : Int), PCI_CONFIG_SIZE) ∧
        bytes = load w.configData 0 PCI_CONFIG_SIZE) w := by
  have item : tables.configItems[minorOf config.cdevno]? =
      some ⟨0, 0, PCI_CONFIG_SIZE, "xgpu%d/config"⟩ := by
    rw [node]
    rfl
  have long : ¬ PCI_CONFIG_SIZE ≤ 4 := by decide
  have inside : ¬ PCI_CONFIG_SIZE < PCI_CONFIG_SIZE % 2 ^ 64 := by decide
  have wanted : ¬ (PCI_CONFIG_SIZE = 0 ∨ PCI_CONFIG_SIZE ≤ 0) := by decide
  have copied : min PCI_CONFIG_SIZE user.room = PCI_CONFIG_SIZE := by omega
  have whole : (load w.configData 0 PCI_CONFIG_SIZE).take PCI_CONFIG_SIZE =
      load w.configData 0 PCI_CONFIG_SIZE := List.take_of_length_le (Nat.le_of_eq (load_length _ _ _))
  unfold charConfigRead
  rw [owner]
  simp only [item, Act.collects_bind, collects_readField handedOut (fun _ _ _ => rfl),
    Act.thenCollects_some, if_neg long, if_neg inside, if_neg wanted, Act.collects_read,
    collects_copyToUser, load_length, copied, Nat.sub_self, ne_eq, not_true_eq_false, if_false,
    Act.collects_pure, handedOut, whole, List.nil_append, List.append_nil, Nat.zero_add, and_self]

/-- A read of a field gives the bytes of the device. -/
theorem read_field {t : Tables} {x : XdevPtr} {file : XgpuCdev} {item : Node} {user : UserBuf}
    (count : Nat) (owner : file.xdev = some x)
    (node : t.configItems[minorOf file.cdevno]? = some item)
    (field : item.length ≤ 4) (room : item.length ≤ user.room) :
    Act.collects handedOut (charConfigRead t file user count 0) (fun v u bytes =>
      v = some ((item.length : Int), item.length) ∧ u = w ∧
        bytes = load (w.dev x.pdev).config item.offset item.length) w := by
  generalize mem : (w.dev x.pdev).config = config
  have value : (toLE 4 (fieldValue config item).toNat).take item.length =
      load config item.offset item.length := by
    have small := ofLE_lt (load config item.offset item.length)
    have fits : 256 ^ (load config item.offset item.length).length ≤ 2 ^ 32 := by
      rw [load_length]
      exact Nat.pow_le_pow_right (by decide) field
    rw [fieldValue, if_pos field, BitVec.toNat_ofNat, Nat.mod_eq_of_lt (Nat.lt_of_lt_of_le small fits),
      toLE_take field, toLE_ofLE_of_length (load_length _ _ _)]
  have copied : min item.length user.room = item.length := by omega
  have whole : (load config item.offset item.length).take item.length =
      load config item.offset item.length := List.take_of_length_le (Nat.le_of_eq (load_length _ _ _))
  unfold charConfigRead
  rw [owner]
  simp only [node, Act.collects_bind, collects_readField handedOut (fun _ _ _ => rfl),
    Act.thenCollects_some, if_pos field, Nat.lt_irrefl, if_false, mem, value, collects_copyToUser,
    load_length, copied, Nat.sub_self, ne_eq, not_true_eq_false, Act.collects_pure, handedOut, whole,
    List.nil_append, List.append_nil, Nat.zero_add, and_self]

/-- Where the snapshot is filled, the files agree with the device after a sequence of full
writes when its last fields have left the bytes as they were. -/
theorem filled_consistent {x : XdevPtr} {config : XgpuCdev} {user : UserBuf} {writes : List Write}
    {start : Memory} (filled : Holds w x.pdev start start) (plain : PlainBelow (hw x.pdev) PCI_CONFIG_SIZE)
    (full : ∀ write ∈ writes, write.Full x) (owner : config.xdev = some x)
    (node : minorOf config.cdevno = 0) (room : PCI_CONFIG_SIZE ≤ user.room) :
    Consistent (afterWrites hw w writes) x config user ↔
      SameBelow PCI_CONFIG_SIZE (stored (lastWhole start writes) (fieldsSince writes))
        (lastWhole start writes) := by
  have ends := afterWrites_holds plain full filled
  generalize afterWrites hw w writes = u at *
  obtain ⟨snapshot, current⟩ := ends
  obtain ⟨returns, space⟩ : _ ∧ readBytes u config user PCI_CONFIG_SIZE = _ :=
    read_whole (w := u) owner node room
  have consistent : Consistent u x config user ↔
      load u.configData 0 PCI_CONFIG_SIZE = load (u.dev x.pdev).config 0 PCI_CONFIG_SIZE := by
    constructor
    · intro agree
      rw [← space]
      exact agree.space
    · intro agree
      refine ⟨returns, space.trans agree, fun file item buffer count own field short fits => ?_⟩
      rw [space, agree, load_slice _ (item_shape (List.mem_of_getElem? field)).1]
      exact (read_field (t := tables) count own field (by omega) fits).2.2
  rw [consistent, load_eq_iff]
  constructor
  · intro agree k below
    have byte := agree k below
    rw [Nat.zero_add, snapshot k below, current k below] at byte
    exact byte.symm
  · intro agree k below
    rw [Nat.zero_add, snapshot k below, current k below]
    exact (agree k below).symm

/-- After cdev_config_init and any sequence of full writes, the files of the device
agree with it exactly when the fields written since the last write of the whole
space have left its bytes as they were. -/
theorem consistent_iff {x : XdevPtr} {config : XgpuCdev} {user : UserBuf} {writes : List Write}
    (plain : PlainBelow (hw x.pdev) PCI_CONFIG_SIZE) (full : ∀ write ∈ writes, write.Full x)
    (owner : config.xdev = some x) (node : minorOf config.cdevno = 0)
    (room : PCI_CONFIG_SIZE ≤ user.room) :
    Consistent (afterWrites hw ((fillSnapshot x.pdev PCI_CONFIG_SIZE 0).run w).state writes) x config
      user ↔
      SameBelow PCI_CONFIG_SIZE
        (stored (lastWhole (w.dev x.pdev).config writes) (fieldsSince writes))
        (lastWhole (w.dev x.pdev).config writes) := by
  have fill : Act.wp anyCall (fillSnapshot x.pdev PCI_CONFIG_SIZE 0) _ w :=
    fillSnapshot_step PCI_CONFIG_SIZE 0 (fun _ _ _ => trivial)
      fun k below => absurd below (Nat.not_lt_zero k)
  obtain ⟨_, _, data, probed, filled⟩ := Act.wp_final fill
  have start : Holds ((fillSnapshot x.pdev PCI_CONFIG_SIZE 0).run w).state x.pdev
      (w.dev x.pdev).config (w.dev x.pdev).config := by
    rw [probed]
    exact ⟨fun k below => filled k (by omega), fun k _ => rfl⟩
  exact filled_consistent start plain full owner node room

end

def plainBoard : Dev → PciDev := fun _ => plainDev (fun _ => 0) false false

def zeroWorld : World := .start .plain (fun _ _ => 0) fun _ _ _ => 0

/-- A write of bytes 0xff to the file of a node of the first device. -/
def onesTo (devId : Nat) : Write := ⟨nodeFile devId 1, ⟨fun _ => 0xff, 4096, 4096⟩⟩

theorem onesTo_full {devIds : List Nat} (nodes : ∀ devId ∈ devIds,
    minorOf (mkdev 240 devId) < configItems.length ∧ (onesTo devId).item.length ≤ 4096) :
    ∀ write ∈ devIds.map onesTo, write.Full ⟨0, 0⟩ := by
  intro write member
  obtain ⟨devId, among, rfl⟩ := List.mem_map.mp member
  exact ⟨rfl, (nodes devId among).1, (nodes devId among).2⟩

def firstXdev : XdevPtr := ⟨0, 0⟩

/-- A field, the whole space, and fields that are written with what they have. -/
def fieldsAgain : List Write := [1, 0, 2, 1].map onesTo

theorem consistent_iff_fields :
    Consistent (afterWrites plainBoard
      ((fillSnapshot firstXdev.pdev PCI_CONFIG_SIZE 0).run zeroWorld).state fieldsAgain)
      firstXdev (nodeFile 0 1) ample := by
  have plain : PlainBelow (plainBoard firstXdev.pdev) PCI_CONFIG_SIZE := fun _ _ _ _ _ => rfl
  have full : ∀ write ∈ fieldsAgain, write.Full firstXdev := onesTo_full (by decide)
  have again : ∀ k < PCI_CONFIG_SIZE,
      stored (lastWhole (zeroWorld.dev firstXdev.pdev).config fieldsAgain) (fieldsSince fieldsAgain) k =
        lastWhole (zeroWorld.dev firstXdev.pdev).config fieldsAgain k := by
    decide +kernel
  exact (consistent_iff plain full rfl (by decide) (by decide)).mpr again

/-- After a write of the vendor file the config file gives the bytes of before. -/
theorem vendor_write_unseen :
    ¬ ∀ (hw : Dev → PciDev) (w : World) (x : XdevPtr) (config : XgpuCdev) (user : UserBuf)
      (writes : List Write), PlainBelow (hw x.pdev) PCI_CONFIG_SIZE →
        (∀ write ∈ writes, write.Full x) → config.xdev = some x → minorOf config.cdevno = 0 →
          PCI_CONFIG_SIZE ≤ user.room →
            Consistent (afterWrites hw ((fillSnapshot x.pdev PCI_CONFIG_SIZE 0).run w).state writes) x
              config user := by
  intro all
  have agree := all plainBoard zeroWorld ⟨0, 0⟩ (nodeFile 0 1) ample ([1].map onesTo)
    (fun _ _ _ _ _ => rfl) (onesTo_full (by decide)) rfl (by decide) (by decide)
  have byte := congrArg (fun bytes => bytes[0]?) agree.space
  revert byte
  decide +kernel

end PcieUtil.Driver.Snapshot
