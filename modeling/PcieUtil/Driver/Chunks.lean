import PcieUtil.Driver.Snapshot

/-! Reading the file of the whole configuration space in pieces. -/

namespace PcieUtil.Driver.Chunks
open Lib.Action Lib.Bytes State Kernel ConfigFile Transfers Snapshot

/-- A read system call. -/
structure ReadCall where
  user : UserBuf
  count : Nat

/-- A reader on the way: where the file position is, and the bytes read so far. -/
structure Reader where
  world : World
  pos : Nat
  bytes : List Byte

def ReadCall.run (file : XgpuCdev) (r : Reader) (call : ReadCall) : Outcome World Call Ret :=
  (charConfigRead tables file call.user call.count r.pos).run r.world

def Reader.next (file : XgpuCdev) (r : Reader) (call : ReadCall) : Reader :=
  let out := call.run file r
  ⟨out.state, (out.value.map Prod.snd).getD r.pos, r.bytes ++ out.trace.flatMap fun e => handedOut e.2⟩

/-- A call with a positive count, which the system call keeps a signed 64-bit integer, and a
buffer that its bytes can be copied to. -/
structure ReadCall.Served (call : ReadCall) : Prop where
  positive : 0 < call.count
  signed : call.count < 2 ^ 63
  room : min call.count PCI_CONFIG_SIZE ≤ call.user.room

/-- What a call asks for and the rest of the space has. -/
def piece (pos count : Nat) : Nat := min count (PCI_CONFIG_SIZE - pos)

/-- A call returns its piece, goes on behind it, returns nothing at the end only, and
leaves the reader with the data up to its position. -/
def ReadsPiece (file : XgpuCdev) (data : Memory) (r : Reader) (call : ReadCall) : Prop :=
  ∃ n : Nat, (call.run file r).value = some ((n : Int), r.pos + n) ∧
    (r.pos < PCI_CONFIG_SIZE → n = piece r.pos call.count) ∧
    (n = 0 → r.pos = PCI_CONFIG_SIZE) ∧
    (r.next file call).bytes = load data 0 (r.next file call).pos

/-- Every call of a sequence does. -/
def LosesNothing (file : XgpuCdev) (data : Memory) : Reader → List ReadCall → Prop
  | _, [] => True
  | r, call :: rest => ReadsPiece file data r call ∧ LosesNothing file data (r.next file call) rest

/-- The end of the space is reached, or the position is smaller than the piece. -/
def CountFits (pos count : Nat) : Prop := pos = PCI_CONFIG_SIZE ∨ pos < piece pos count

/-- The position of a call when all calls before it have returned their pieces. -/
def positionAfter (counts : List Nat) : Nat := min counts.sum PCI_CONFIG_SIZE

theorem clamped_count {pos count : Nat} (inside : pos ≤ PCI_CONFIG_SIZE) (signed : count < 2 ^ 63) :
    (if PCI_CONFIG_SIZE < (pos + count) % 2 ^ 64 then clampCount pos else count) = piece pos count := by
  rw [clampCount_inside inside, piece]
  unfold PCI_CONFIG_SIZE at *
  split <;> omega

/-- A read that gets to its copy hands out its piece. -/
theorem whole_piece {pos count n : Nat} (posSmall : pos < 2 ^ 63) (signed : count < 2 ^ 63)
    (size : (if PCI_CONFIG_SIZE < (pos + count) % 2 ^ 64 then clampCount pos else count) = n)
    (wanted : ¬ (n = 0 ∨ n ≤ pos)) : n = piece pos count ∧ pos < piece pos count := by
  by_cases inside : pos ≤ PCI_CONFIG_SIZE
  · rw [clamped_count inside signed] at size
    omega
  · -- behind 2^31 the clamped count may be positive again, but then the position exceeds it
    have clamped := clampCount_le pos
    have whole : PCI_CONFIG_SIZE = 128 := rfl
    split at size <;> omega

section
variable {file : XgpuCdev} {w : World} {x : XdevPtr} {call : ReadCall}

/-- The bytes that a read returns: its piece, or none when the position is not smaller. -/
def returned (pos count : Nat) : Nat := if pos < piece pos count then piece pos count else 0

theorem read_piece {pos : Nat} (owner : file.xdev = some x) (node : minorOf file.cdevno = 0)
    (inside : pos ≤ PCI_CONFIG_SIZE) (served : call.Served) :
    Act.collects handedOut (charConfigRead tables file call.user call.count pos) (fun v u bytes =>
      v = some ((returned pos call.count : Int), pos + returned pos call.count) ∧ u = w ∧
        bytes = load w.configData pos (returned pos call.count)) w := by
  have item : tables.configItems[minorOf file.cdevno]? =
      some ⟨0, 0, PCI_CONFIG_SIZE, "xgpu%d/config"⟩ := by
    rw [node]
    rfl
  have long : ¬ PCI_CONFIG_SIZE ≤ 4 := by decide
  have part : piece pos call.count ≤ call.user.room := by
    have room := served.room
    unfold piece
    omega
  unfold charConfigRead returned
  rw [owner]
  simp only [item, Act.collects_bind, collects_readField handedOut (fun _ _ _ => rfl),
    Act.thenCollects_some, if_neg long, clamped_count inside served.signed]
  by_cases fits : pos < piece pos call.count
  · have wanted : ¬ (piece pos call.count = 0 ∨ piece pos call.count ≤ pos) := by omega
    have copied : min (piece pos call.count) call.user.room = piece pos call.count := by omega
    have whole : (load w.configData pos (piece pos call.count)).take (piece pos call.count) =
        load w.configData pos (piece pos call.count) :=
      List.take_of_length_le (Nat.le_of_eq (load_length _ _ _))
    simp only [if_neg wanted, if_pos fits, Act.collects_bind, Act.collects_read,
      Act.thenCollects_some, collects_copyToUser, load_length, copied, Nat.sub_self, ne_eq,
      not_true_eq_false, if_false, Act.collects_pure, handedOut, whole, List.nil_append,
      List.append_nil, and_self]
  · have idle : piece pos call.count = 0 ∨ piece pos call.count ≤ pos := by omega
    simp only [if_pos idle, if_neg fits, Act.collects_pure, List.nil_append, Nat.add_zero]
    exact ⟨rfl, trivial, rfl⟩

/-- A reader that has lost nothing so far. -/
structure Reader.Complete (w : World) (r : Reader) : Prop where
  world : r.world = w
  inside : r.pos ≤ PCI_CONFIG_SIZE
  bytes : r.bytes = load w.configData 0 r.pos

theorem next_eq {r : Reader} (owner : file.xdev = some x) (node : minorOf file.cdevno = 0)
    (complete : r.Complete w) (served : call.Served) :
    (call.run file r).value =
        some ((returned r.pos call.count : Int), r.pos + returned r.pos call.count) ∧
      r.next file call = ⟨w, r.pos + returned r.pos call.count,
        load w.configData 0 (r.pos + returned r.pos call.count)⟩ := by
  obtain ⟨value, state, bytes⟩ :=
    read_piece (w := r.world) owner node complete.inside served
  refine ⟨value, ?_⟩
  have handed : ((call.run file r).trace.flatMap fun e => handedOut e.2) =
      load r.world.configData r.pos (returned r.pos call.count) := bytes
  have value : (call.run file r).value =
      some ((returned r.pos call.count : Int), r.pos + returned r.pos call.count) := value
  have state : (call.run file r).state = r.world := state
  have joined := load_append w.configData 0 r.pos (returned r.pos call.count)
  rw [Nat.zero_add] at joined
  rw [Reader.next, handed, value, state, complete.world, complete.bytes, joined]
  rfl

theorem readsPiece_iff {r : Reader} (owner : file.xdev = some x) (node : minorOf file.cdevno = 0)
    (complete : r.Complete w) (served : call.Served) :
    ReadsPiece file w.configData r call ↔ CountFits r.pos call.count := by
  obtain ⟨value, next⟩ := next_eq owner node complete served
  have positive := served.positive
  have inside := complete.inside
  constructor
  · rintro ⟨n, result, part, ended, -⟩
    rw [value, Option.some.injEq, Prod.mk.injEq] at result
    have same : n = returned r.pos call.count := by omega
    unfold returned at same
    by_cases fits : r.pos < piece r.pos call.count
    · exact .inr fits
    · rw [if_neg fits] at same
      exact .inl (ended same)
  · intro fits
    refine ⟨returned r.pos call.count, value, fun before => ?_, fun nothing => ?_, ?_⟩
    · have smaller : r.pos < piece r.pos call.count := fits.resolve_left (Nat.ne_of_lt before)
      rw [returned, if_pos smaller]
    · obtain ended | smaller := fits
      · exact ended
      · rw [returned, if_pos smaller] at nothing
        omega
    · rw [next]

/-- A call that fits takes a complete reader to the position of the next call. -/
theorem next_complete {r : Reader} (owner : file.xdev = some x) (node : minorOf file.cdevno = 0)
    (complete : r.Complete w) (served : call.Served) (fits : CountFits r.pos call.count) :
    (r.next file call).Complete w ∧
      (r.next file call).pos = min (r.pos + call.count) PCI_CONFIG_SIZE := by
  obtain ⟨_, next⟩ := next_eq owner node complete served
  have inside := complete.inside
  have moved : r.pos + returned r.pos call.count = min (r.pos + call.count) PCI_CONFIG_SIZE := by
    unfold returned
    unfold CountFits at fits
    unfold piece at *
    split <;> omega
  rw [next, moved]
  exact ⟨⟨rfl, Nat.min_le_right _ _, rfl⟩, rfl⟩

theorem losesNothing_from {r : Reader} {calls : List ReadCall} (owner : file.xdev = some x)
    (node : minorOf file.cdevno = 0) (complete : r.Complete w) (served : ∀ call ∈ calls, call.Served) :
    LosesNothing file w.configData r calls ↔
      ∀ before count after, calls.map ReadCall.count = before ++ count :: after →
        CountFits (min (r.pos + before.sum) PCI_CONFIG_SIZE) count := by
  induction calls generalizing r with
  | nil => simp [LosesNothing]
  | cons call rest ih =>
    have first := served call List.mem_cons_self
    have others : ∀ call ∈ rest, call.Served := fun other member =>
      served other (List.mem_cons_of_mem _ member)
    have inside := complete.inside
    have here : min (r.pos + ([] : List Nat).sum) PCI_CONFIG_SIZE = r.pos := by
      rw [List.sum_nil]
      omega
    have step := readsPiece_iff owner node complete first
    constructor
    · rintro ⟨piece, later⟩ before count after split
      have fits := step.mp piece
      obtain ⟨next, pos⟩ := next_complete owner node complete first fits
      cases before with
      | nil =>
        obtain ⟨rfl, _⟩ := List.cons_eq_cons.mp split
        rw [here]
        exact fits
      | cons c before =>
        obtain ⟨rfl, tail⟩ := List.cons_eq_cons.mp split
        have behind := (ih next others).mp later before count after tail
        have same : min ((r.next file call).pos + before.sum) PCI_CONFIG_SIZE =
            min (r.pos + (call.count :: before).sum) PCI_CONFIG_SIZE := by
          rw [pos, List.sum_cons]
          omega
        rw [same] at behind
        exact behind
    · intro all
      have fits := all [] call.count (rest.map ReadCall.count) rfl
      rw [here] at fits
      obtain ⟨next, pos⟩ := next_complete owner node complete first fits
      refine ⟨step.mpr fits, (ih next others).mpr fun before count after split => ?_⟩
      have behind := all (call.count :: before) count after (congrArg (call.count :: ·) split)
      rw [List.sum_cons] at behind
      have same : min ((r.next file call).pos + before.sum) PCI_CONFIG_SIZE =
          min (r.pos + (call.count + before.sum)) PCI_CONFIG_SIZE := by
        rw [pos]
        omega
      rw [same]
      exact behind

/-- A sequence of reads from position zero on loses nothing exactly when every call
comes at the end of the space or at a position that is smaller than its piece. -/
theorem losesNothing_iff {calls : List ReadCall} (owner : file.xdev = some x)
    (node : minorOf file.cdevno = 0) (served : ∀ call ∈ calls, call.Served) :
    LosesNothing file w.configData ⟨w, 0, []⟩ calls ↔
      ∀ before count after, calls.map ReadCall.count = before ++ count :: after →
        CountFits (positionAfter before) count := by
  have start : (⟨w, 0, []⟩ : Reader).Complete w := ⟨rfl, Nat.zero_le _, rfl⟩
  rw [losesNothing_from owner node start served]
  simp only [positionAfter, Nat.zero_add]

end

/-! Wherever a read starts, it stays inside the space. -/

/-- The number of bytes that a call is to copy to the user. -/
def copyLength : Call → List Nat
  | .copyToUser bytes _ => [bytes.length]
  | _ => []

/-- The lengths that a read passes to copy_to_user. -/
def copyLengths (t : Tables) (file : XgpuCdev) (user : UserBuf) (count pos : Nat) (w : World) : List Nat :=
  ((charConfigRead t file user count pos).run w).trace.flatMap fun e => copyLength e.2

section
variable {t : Tables} {file : XgpuCdev} {item : Node} {x : XdevPtr} {user : UserBuf} {w : World}

/-- For every position and count, a read of the whole space copies bytes of the space only, and
nothing from its end on. -/
theorem read_stays_inside {pos count : Nat} (posSmall : pos < 2 ^ 63) (countSmall : count < 2 ^ 31)
    (owner : file.xdev = some x) (node : t.configItems[minorOf file.cdevno]? = some item)
    (whole : item.length = PCI_CONFIG_SIZE) :
    (∀ n ∈ copyLengths t file user count pos w, pos + n ≤ PCI_CONFIG_SIZE) ∧
      (PCI_CONFIG_SIZE ≤ pos → copyLengths t file user count pos w = [] ∧
        ((charConfigRead t file user count pos).run w).value = some (0, pos)) := by
  have long : ¬ item.length ≤ 4 := by
    rw [whole]
    decide
  have read : Act.collects copyLength (charConfigRead t file user count pos) (fun v _ lengths =>
      (∀ n ∈ lengths, pos + n ≤ PCI_CONFIG_SIZE) ∧
        (PCI_CONFIG_SIZE ≤ pos → lengths = [] ∧ v = some (0, pos))) w := by
    unfold charConfigRead
    rw [owner]
    simp only [node, Act.collects_bind, collects_readField copyLength (fun _ _ _ => rfl),
      Act.thenCollects_some, if_neg long, List.nil_append]
    generalize counted :
      (if PCI_CONFIG_SIZE < (pos + count) % 2 ^ 64 then clampCount pos else count) = n
    by_cases idle : n = 0 ∨ n ≤ pos
    · rw [if_pos idle, Act.collects_pure]
      simp
    · obtain ⟨rfl, fits⟩ := whole_piece posSmall (by omega) counted idle
      have inside : pos + piece pos count ≤ PCI_CONFIG_SIZE := by
        unfold piece at *
        omega
      have before : ¬ PCI_CONFIG_SIZE ≤ pos := by omega
      simp only [if_neg idle, Act.collects_bind, Act.collects_read, Act.thenCollects_some,
        collects_copyToUser, copyLength, load_length, List.nil_append, before, false_implies, and_true]
      split <;> simpa using inside
  exact read

end

theorem read_stays_inside_far :
    (∀ n ∈ copyLengths tables (nodeFile 0 1) ample 4096 (2 ^ 32 - 1) zeroWorld,
        2 ^ 32 - 1 + n ≤ PCI_CONFIG_SIZE) ∧
      (PCI_CONFIG_SIZE ≤ 2 ^ 32 - 1 →
        copyLengths tables (nodeFile 0 1) ample 4096 (2 ^ 32 - 1) zeroWorld = [] ∧
          ((charConfigRead tables (nodeFile 0 1) ample 4096 (2 ^ 32 - 1)).run zeroWorld).value =
            some (0, 2 ^ 32 - 1)) :=
  read_stays_inside (by decide) (by decide) rfl rfl rfl

/-- A read into a large buffer. -/
def readOf (count : Nat) : ReadCall := ⟨ample, count⟩

theorem readOf_served {count : Nat} (positive : 0 < count) (signed : count < 2 ^ 63) :
    (readOf count).Served := by
  have room : PCI_CONFIG_SIZE ≤ ample.room := by decide
  exact ⟨positive, signed, Nat.le_trans (Nat.min_le_right _ _) room⟩

theorem losesNothing_iff_once :
    LosesNothing (nodeFile 0 1) zeroWorld.configData ⟨zeroWorld, 0, []⟩ [readOf 128] ↔
      ∀ before count after, [readOf 128].map ReadCall.count = before ++ count :: after →
        CountFits (positionAfter before) count :=
  losesNothing_iff (x := ⟨0, 0⟩) rfl (by decide)
    fun _ member => List.mem_singleton.mp member ▸ readOf_served (by decide) (by decide)

/-- The reader that has read the first half of the space. -/
def halfway : Reader := Reader.next (nodeFile 0 1) ⟨zeroWorld, 0, []⟩ (readOf 64)

/-- The read of the second half returns nothing. -/
theorem half_reads_lose :
    ¬ ∀ (file : XgpuCdev) (w : World) (x : XdevPtr) (calls : List ReadCall), file.xdev = some x →
      minorOf file.cdevno = 0 → (∀ call ∈ calls, call.Served) →
        LosesNothing file w.configData ⟨w, 0, []⟩ calls := by
  intro all
  have served : ∀ call ∈ [readOf 64, readOf 64], call.Served := by
    intro call member
    have same : call = readOf 64 := by simpa using member
    rw [same]
    exact readOf_served (by decide) (by decide)
  obtain ⟨_, ⟨n, value, _, ended, _⟩, _⟩ :=
    all (nodeFile 0 1) zeroWorld ⟨0, 0⟩ [readOf 64, readOf 64] rfl (by decide) served
  have stopped : ((readOf 64).run (nodeFile 0 1) halfway).value = some (0, 64) := by decide +kernel
  have position : halfway.pos = 64 := by decide +kernel
  have result : some ((n : Int), halfway.pos + n) = some (0, 64) := value.symm.trans stopped
  rw [Option.some.injEq, Prod.mk.injEq] at result
  have here : halfway.pos = PCI_CONFIG_SIZE := ended (by omega)
  rw [position] at here
  exact absurd here (by decide)

end PcieUtil.Driver.Chunks
