import VirtioScsi.AtomicObject
import VirtioScsi.CellMemory
import VirtioScsi.DoioAttempts
import VirtioScsi.RequestFormat

/-!
# The block store

What the pipeline is for: the logical units of the device as arrays of bytes
that clients read and write.  An operation takes effect at once, or fails with
an error; a failed write may have changed bytes it was to write, nothing else.
Below it the device of the specification, which finds target, command and data
in bytes and answers in bytes.
-/

namespace VirtioScsi

/-! ## What clients see -/

structure Medium where
  blockSize : ℕ
  blocks : ℕ
  bytes : ℕ → BitVec 8

/-- The logical units, by target and LUN. -/
abbrev Media := BitVec 8 → BitVec 16 → Option Medium

structure BlockOp where
  target : BitVec 8
  lun : BitVec 16
  isWrite : Bool
  offset : ℕ
  length : ℕ
  data : List (BitVec 8)
deriving DecidableEq, Repr

/-- `io_Error`, `io_Actual` and the bytes a read delivers. -/
structure BlockResult where
  ioError : Int
  ioActual : BitVec 32
  data : List (BitVec 8)
deriving DecidableEq, Repr

inductive BlockFate where
  | done
  | failed (error : Int) (damage : List (BitVec 8))
deriving DecidableEq, Repr

def Medium.load (m : Medium) (offset length : ℕ) : List (BitVec 8) :=
  (List.range' offset length).map m.bytes

def Medium.store (m : Medium) (offset length : ℕ) (data : List (BitVec 8)) : Medium :=
  { m with bytes := CellMemory.write m.bytes (List.range' offset length) data }

def Media.store (media : Media) (target : BitVec 8) (lun : BitVec 16) (offset length : ℕ)
    (data : List (BitVec 8)) : Media :=
  match media target lun with
  | none => media
  | some m => Function.update media target
      (Function.update (media target) lun (some (m.store offset length data)))

/-- One operation.  A missing unit and a range that ends behind the last block
are errors of their own. -/
def applyBlock (media : Media) (op : BlockOp) : BlockFate → Media × BlockResult
  | .failed error damage =>
      (if op.isWrite then media.store op.target op.lun op.offset op.length damage else media,
        ⟨error, 0, []⟩)
  | .done =>
      match media op.target op.lun with
      | none => (media, ⟨tderrNotSpecified, 0, []⟩)
      | some m =>
          if m.blocks * m.blockSize < op.offset + op.length then (media, ⟨ioerrNoCmd, 0, []⟩)
          else if op.isWrite then
            (media.store op.target op.lun op.offset op.length op.data,
              ⟨0, BitVec.ofNat 32 op.length, []⟩)
          else (media, ⟨0, BitVec.ofNat 32 op.length, m.load op.offset op.length⟩)

/-! ## The device -/

namespace DeviceAnswer

def good (residual : ℕ) : DeviceAnswer :=
  ⟨0, BitVec.ofNat 32 residual, 0, 0, virtioScsiSOk, fun _ => 0⟩

def badTarget : DeviceAnswer :=
  ⟨0, 0, 0, 0, 3, fun _ => 0⟩

/-- CHECK CONDITION with sense key ILLEGAL REQUEST. -/
def illegalRequest : DeviceAnswer :=
  ⟨18, 0, 0, 2, virtioScsiSOk, fun i => if i.val = 0 then 0x70 else if i.val = 2 then 5 else 0⟩

end DeviceAnswer

/-- What a device does with the bytes it reads, and what it writes back;
`room` is the length of its buffers for read data. -/
def deviceExecute (media : Media) (out : List (BitVec 8)) (room : ℕ) :
    Media × DeviceAnswer × List (BitVec 8) :=
  match parseRequest out with
  | none => (media, .badTarget, [])
  | some r =>
      match media r.target r.lun with
      | none => (media, .badTarget, [])
      | some m =>
          match decodeCdb r.cdb with
          | none => (media, .illegalRequest, [])
          | some t =>
              if m.blocks < t.lba + t.blocks then (media, .illegalRequest, [])
              else if t.isWrite then
                let payload := out.drop reqCmdSize
                (media.store r.target r.lun (t.lba * m.blockSize) (t.blocks * m.blockSize) payload,
                  .good (payload.length - t.blocks * m.blockSize), [])
              else
                let data := (m.load (t.lba * m.blockSize) (t.blocks * m.blockSize)).take room
                (media, .good (room - data.length), data)

/-- A device that gives up: its answer, what it leaves in the blocks of a
write, and what it leaves in the buffers of a read. -/
structure Fault where
  answer : DeviceAnswer
  damage : List (BitVec 8)
  junk : List (BitVec 8)

def deviceFail (media : Media) (out : List (BitVec 8)) (fault : Fault) :
    Media × DeviceAnswer × List (BitVec 8) :=
  let media' := (parseRequest out).bind fun r => (media r.target r.lun).bind fun m =>
    (decodeCdb r.cdb).map fun t =>
      if t.isWrite then
        media.store r.target r.lun (t.lba * m.blockSize) (t.blocks * m.blockSize) fault.damage
      else media
  (media'.getD media, fault.answer, fault.junk)

def deviceDo (media : Media) (out : List (BitVec 8)) (room : ℕ) :
    Option Fault → Media × DeviceAnswer × List (BitVec 8)
  | none => deviceExecute media out room
  | some fault => deviceFail media out fault

/-! ## The device of a request -/

/-- The error the driver makes of an answer. -/
def DeviceAnswer.error (a : DeviceAnswer) : Int :=
  mapScsiError a.response a.status (a.sense ⟨2, by decide⟩ &&& 0x0F)

@[simp] theorem error_good (residual : ℕ) : (DeviceAnswer.good residual).error = 0 := by
  rfl

@[simp] theorem error_badTarget : DeviceAnswer.badTarget.error = tderrNotSpecified := by
  decide

@[simp] theorem error_illegalRequest : DeviceAnswer.illegalRequest.error = ioerrNoCmd := by
  decide

/-- A request in bytes for `op`, whole blocks of the unit, with the write data
behind it. -/
structure Requests (media : Media) (out : List (BitVec 8)) (room : ℕ) (op : BlockOp) :
    Prop where
  parsed : ∃ cdb t, parseRequest out = some ⟨op.target, op.lun, cdb⟩ ∧
    decodeCdb cdb = some t ∧ t.isWrite = op.isWrite ∧
      ∀ m, media op.target op.lun = some m →
        t.lba * m.blockSize = op.offset ∧ t.blocks * m.blockSize = op.length ∧ 0 < m.blockSize
  payload : op.isWrite = true → out.drop reqCmdSize = op.data
  length : op.isWrite = true → op.data.length = op.length
  room : op.isWrite = false → room = op.length

variable {media : Media} {out : List (BitVec 8)} {room : ℕ} {op : BlockOp}

theorem Medium.load_length (m : Medium) (offset length : ℕ) :
    (m.load offset length).length = length := by
  simp [Medium.load]

/-- The device does what the block store does, and its answer tells the driver
so. -/
theorem deviceExecute_applies (h : Requests media out room op) :
    let done := deviceExecute media out room
    let applied := applyBlock media op .done
    done.1 = applied.1 ∧ done.2.1.error = applied.2.ioError ∧
      (applied.2.ioError = 0 → done.2.1.residual = 0 ∧
        applied.2.ioActual = BitVec.ofNat 32 op.length ∧
        (op.isWrite = false → done.2.2 = applied.2.data ∧ done.2.2.length = op.length)) := by
  obtain ⟨cdb, t, hparse, hdecode, hkind, hrange⟩ := h.parsed
  unfold deviceExecute applyBlock
  rw [hparse]
  dsimp only
  cases hm : media op.target op.lun with
  | none =>
      dsimp only
      exact ⟨rfl, error_badTarget, fun hzero => absurd hzero (by simp [tderrNotSpecified])⟩
  | some m =>
      obtain ⟨hoffset, hlength, hpos⟩ := hrange m hm
      have hfits : m.blocks < t.lba + t.blocks ↔
          m.blocks * m.blockSize < op.offset + op.length := by
        rw [← hoffset, ← hlength, ← Nat.add_mul, Nat.mul_lt_mul_right hpos]
      dsimp only
      rw [hdecode]
      dsimp only
      by_cases hbeyond : m.blocks < t.lba + t.blocks
      · rw [if_pos hbeyond, if_pos (hfits.mp hbeyond)]
        exact ⟨rfl, error_illegalRequest, fun hzero => absurd hzero (by simp [ioerrNoCmd])⟩
      rw [if_neg hbeyond, if_neg (fun hlt => hbeyond (hfits.mpr hlt)), hkind, hoffset, hlength]
      cases hwrite : op.isWrite with
      | true =>
          rw [if_pos rfl, if_pos rfl, h.payload hwrite, h.length hwrite, Nat.sub_self]
          exact ⟨rfl, error_good 0, fun _ => ⟨rfl, rfl, fun hread => by cases hread⟩⟩
      | false =>
          have hdata : (m.load op.offset op.length).take room = m.load op.offset op.length := by
            rw [h.room hwrite]
            exact List.take_of_length_le (m.load_length _ _).le
          rw [if_neg (by decide), if_neg (by decide), hdata, m.load_length, h.room hwrite,
            Nat.sub_self]
          exact ⟨rfl, error_good 0, fun _ => ⟨rfl, rfl, fun _ => ⟨rfl, rfl⟩⟩⟩

/-- An error moves nothing, and only reads deliver bytes. -/
theorem applyBlock_result (media : Media) (op : BlockOp) (fate : BlockFate) :
    let result := (applyBlock media op fate).2
    (result.ioError ≠ 0 → result.ioActual = 0) ∧
      (result.ioError ≠ 0 ∨ op.isWrite = true → result.data = []) := by
  cases fate with
  | failed error damage => exact ⟨fun _ => rfl, fun _ => rfl⟩
  | done =>
      unfold applyBlock
      dsimp only
      split
      · exact ⟨fun _ => rfl, fun _ => rfl⟩
      · split_ifs with hbeyond hwrite
        · exact ⟨fun _ => rfl, fun _ => rfl⟩
        · exact ⟨fun herror => absurd rfl herror, fun _ => rfl⟩
        · exact ⟨fun herror => absurd rfl herror, fun h => by simp [hwrite] at h⟩

theorem deviceFail_applies (h : Requests media out room op) (fault : Fault) :
    (deviceFail media out fault).1 =
      (applyBlock media op (.failed fault.answer.error fault.damage)).1 := by
  obtain ⟨cdb, t, hparse, hdecode, hkind, hrange⟩ := h.parsed
  unfold deviceFail applyBlock
  rw [hparse, Option.bind_some]
  dsimp only
  cases hm : media op.target op.lun with
  | none =>
      have hsame : media.store op.target op.lun op.offset op.length fault.damage = media := by
        unfold Media.store
        rw [hm]
      rw [Option.bind_none, Option.getD_none, hsame, ite_self]
  | some m =>
      obtain ⟨hoffset, hlength, -⟩ := hrange m hm
      rw [Option.bind_some, hdecode, Option.map_some, Option.getD_some, hkind, hoffset, hlength]

/-! ## Block sizes stay -/

/-- The same units with the same block sizes. -/
def SameShape (media media' : Media) : Prop :=
  ∀ target lun, (media' target lun).map Medium.blockSize = (media target lun).map Medium.blockSize

theorem sameShape_store (media : Media) (target : BitVec 8) (lun : BitVec 16)
    (offset length : ℕ) (data : List (BitVec 8)) :
    SameShape media (media.store target lun offset length data) := by
  intro target' lun'
  unfold Media.store
  cases hm : media target lun with
  | none => rfl
  | some m =>
      dsimp only
      by_cases htarget : target' = target
      · subst htarget
        by_cases hlun : lun' = lun
        · subst hlun
          rw [Function.update_self, Function.update_self, hm]
          rfl
        · rw [Function.update_self, Function.update_of_ne hlun]
      · rw [Function.update_of_ne htarget]

theorem sameShape_applyBlock (media : Media) (op : BlockOp) (fate : BlockFate) :
    SameShape media (applyBlock media op fate).1 := by
  cases fate with
  | failed error damage =>
      unfold applyBlock
      dsimp only
      split_ifs
      · exact sameShape_store _ _ _ _ _ _
      · exact fun _ _ => rfl
  | done =>
      unfold applyBlock
      dsimp only
      split
      · exact fun _ _ => rfl
      · split_ifs
        · exact fun _ _ => rfl
        · exact sameShape_store _ _ _ _ _ _
        · exact fun _ _ => rfl

theorem Requests.of_sameShape {media' : Media} (h : Requests media out room op)
    (hshape : SameShape media media') : Requests media' out room op := by
  obtain ⟨cdb, t, hparse, hdecode, hkind, hrange⟩ := h.parsed
  refine ⟨⟨cdb, t, hparse, hdecode, hkind, ?_⟩, h.payload, h.length, h.room⟩
  intro m' hm'
  have hsize := hshape op.target op.lun
  rw [hm', Option.map_some] at hsize
  obtain ⟨m, hm, hsame⟩ := Option.map_eq_some_iff.mp hsize.symm
  rw [← hsame]
  exact hrange m hm

theorem store_nil (media : Media) (target : BitVec 8) (lun : BitVec 16) (offset length : ℕ) :
    media.store target lun offset length [] = media := by
  have hbytes : ∀ m : Medium, m.store offset length [] = m := by
    intro m
    unfold Medium.store
    cases List.range' offset length <;> rfl
  unfold Media.store
  cases hm : media target lun with
  | none => rfl
  | some m =>
      dsimp only
      rw [hbytes, ← hm, Function.update_eq_self, Function.update_eq_self]

/-- A failure that does no damage changes nothing. -/
theorem applyBlock_refused (media : Media) (op : BlockOp) (error : Int) :
    applyBlock media op (.failed error []) = (media, ⟨error, 0, []⟩) := by
  unfold applyBlock
  dsimp only
  rw [store_nil, ite_self]

end VirtioScsi
