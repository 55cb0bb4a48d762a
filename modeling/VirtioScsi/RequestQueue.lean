import VirtioScsi.Virtqueue
import VirtioScsi.GuardedRun

/-!
# The request queue and a conforming device

The driver half of the queue is the virtqueue; the other half is a device
that takes heads from the available ring in order and publishes each of them
once in the used ring, in any order it likes.  The device touches the rings as
bytes in the negotiated order.

The history records what each side did: the chains that were added, the heads
the device saw, the completions it published (naming a chain by its position
in `added`), and what `GetBuf` returned.  No operation reads it.
-/

namespace VirtioScsi

open ByteOrder

/-- A device load of a field: little-endian if modern, big-endian otherwise. -/
def deviceLoad (n : ℕ) (modern : Bool) (word : BitVec (8 * n)) :
    BitVec (8 * n) :=
  if modern then loadLE n (storeBE n word) else loadBE n (storeBE n word)

/-- The word the processor finds in a field after a device store. -/
def deviceStore (n : ℕ) (modern : Bool) (value : BitVec (8 * n)) :
    BitVec (8 * n) :=
  if modern then loadBE n (storeLE n value) else loadBE n (storeBE n value)

@[simp] theorem deviceLoad_two (modern : Bool) (word : BitVec 16) :
    deviceLoad 2 modern word = vr16 modern word := by
  cases modern
  · exact loadBE_storeBE 2 word
  · rfl

@[simp] theorem deviceLoad_four (modern : Bool) (word : BitVec 32) :
    deviceLoad 4 modern word = vr32 modern word := by
  cases modern
  · exact loadBE_storeBE 4 word
  · rfl

@[simp] theorem deviceLoad_eight (modern : Bool) (word : BitVec 64) :
    deviceLoad 8 modern word = vr64 modern word := by
  cases modern
  · exact loadBE_storeBE 8 word
  · rfl

@[simp] theorem deviceStore_two (modern : Bool) (value : BitVec 16) :
    deviceStore 2 modern value = vr16 modern value := by
  cases modern
  · exact loadBE_storeBE 2 value
  · rfl

@[simp] theorem deviceStore_four (modern : Bool) (value : BitVec 32) :
    deviceStore 4 modern value = vr32 modern value := by
  cases modern
  · exact loadBE_storeBE 4 value
  · rfl

/-- The device: its position in the available ring, the chains it is working
on (with their serial numbers), how many completions it published since its
last interrupt decision, the ISR bit, and whether it has been notified since
it last found the available ring empty.  How many chains had been added when
QUEUE_NOTIFY was last written is history. -/
structure Device where
  lastAvailIdx : BitVec 16
  pending : List (ℕ × BitVec 16)
  batch : ℕ
  isr : Bool
  notified : Bool
  noted : ℕ
deriving Repr

structure History (α : Type*) where
  added : List (BitVec 16 × α)
  seen : List (BitVec 16)
  published : List (ℕ × BitVec 32)
  returned : List (α × BitVec 32)

structure RequestQueue (α : Type*) where
  vq : Virtqueue α
  dev : Device
  hist : History α

variable {α : Type*}

namespace History

/-- Serial numbers of the chains whose completion `GetBuf` has consumed. -/
def consumed (hist : History α) : List ℕ :=
  (hist.published.take hist.returned.length).map Prod.fst

def live (hist : History α) : List ℕ :=
  (List.range hist.added.length).filter (· ∉ hist.consumed)

/-- The outstanding chains: added, and not yet returned by `GetBuf`. -/
def outstanding (hist : History α) : List (BitVec 16 × α) :=
  hist.live.filterMap (hist.added[·]?)

end History

namespace RequestQueue

def initial (queueSize : ℕ) (modern useEventIdx useIndirect : Bool) :
    RequestQueue α where
  vq := Virtqueue.allocate queueSize modern useEventIdx useIndirect
  dev :=
    { lastAvailIdx := 0, pending := [], batch := 0
      isr := false, notified := false, noted := 0 }
  hist := { added := [], seen := [], published := [], returned := [] }

/-! ## The driver's operations -/

/-- `VirtQueue_AddBuf`, recorded when it succeeds. -/
def addBuf (q : RequestQueue α) (sg : ℕ → VringSg) (outNum inNum : ℕ)
    (cookie : α) (env : Virtqueue.IndirectEnv) : Int × RequestQueue α :=
  let result := q.vq.addBuf sg outNum inNum cookie env
  (result.rc,
    { q with
      vq := result.vq
      hist := if result.rc = 0 then
          { q.hist with added := q.hist.added ++ [(q.vq.freeHead, cookie)] }
        else q.hist })

/-- `VirtQueue_GetBuf`, recorded when it returns a cookie. -/
def getBuf (q : RequestQueue α) : Option (Option α × RequestQueue α) :=
  q.vq.getBuf.map fun result =>
    (result.cookie,
      { q with
        vq := result.vq
        hist := match result.cookie, result.written with
          | some cookie, some written =>
              { q.hist with returned := q.hist.returned ++ [(cookie, written)] }
          | _, _ => q.hist })

/-- `VirtQueue_Kick`: the notify register is written unconditionally. -/
def kick (q : RequestQueue α) : RequestQueue α :=
  { q with dev := { q.dev with
    notified := true
    noted := q.hist.added.length } }

/-! ## The device's steps -/

/-- Take the next head from the available ring. -/
def fetch (q : RequestQueue α) : Option (RequestQueue α) :=
  if q.dev.lastAvailIdx = deviceLoad 2 q.vq.modern q.vq.avail.idx then none
  else
    let head := deviceLoad 2 q.vq.modern
      (q.vq.avail.ring (q.dev.lastAvailIdx.toNat % q.vq.num))
    some { q with
      dev := { q.dev with
        lastAvailIdx := q.dev.lastAvailIdx + 1
        pending := q.dev.pending ++ [(q.hist.seen.length, head)] }
      hist := { q.hist with seen := q.hist.seen ++ [head] } }

/-- Publish the `i`-th chain the device is working on, with the number of
bytes it wrote. -/
def complete (q : RequestQueue α) (i : ℕ) (len : BitVec 32) :
    Option (RequestQueue α) :=
  let usedIdx := deviceLoad 2 q.vq.modern q.vq.used.idx
  match q.dev.pending[i]? with
  | none => none
  | some (serial, head) =>
      some { q with
        vq := { q.vq with used := { q.vq.used with
          ring := Function.update q.vq.used.ring (usedIdx.toNat % q.vq.num)
            ⟨deviceStore 4 q.vq.modern (head.setWidth 32),
              deviceStore 4 q.vq.modern len⟩
          idx := deviceStore 2 q.vq.modern (usedIdx + 1) } }
        dev := { q.dev with
          pending := q.dev.pending.eraseIdx i
          batch := q.dev.batch + 1 }
        hist := { q.hist with
          published := q.hist.published ++ [(serial, len)] } }

/-- The EVENT_IDX test: the used index moved past `used_event` within the
batch. -/
def crossed (usedEvent new : BitVec 16) (batch : ℕ) : Bool :=
  decide ((new - usedEvent - 1).toNat < batch)

/-- Decide whether the batch published since the last decision raises the
interrupt.  Without EVENT_IDX it does: the driver never sets NO_INTERRUPT. -/
def signal (q : RequestQueue α) : Option (RequestQueue α) :=
  let raise := if q.vq.useEventIdx then
      crossed (deviceLoad 2 q.vq.modern (q.vq.avail.ring q.vq.num))
        (deviceLoad 2 q.vq.modern q.vq.used.idx) q.dev.batch
    else true
  if q.dev.batch = 0 then none
  else
    some { q with dev := { q.dev with
      batch := 0
      isr := q.dev.isr || raise } }

/-- Having found the available ring empty, wait for the next notify. -/
def rest (q : RequestQueue α) : Option (RequestQueue α) :=
  if q.dev.lastAvailIdx = deviceLoad 2 q.vq.modern q.vq.avail.idx then
    some { q with dev := { q.dev with notified := false } }
  else none

/-- The device owes no step: it was not notified since it last found the
available ring empty, works on nothing, and has decided on every interrupt. -/
def Quiet (q : RequestQueue α) : Prop :=
  q.dev.notified = false ∧ q.dev.pending = [] ∧ q.dev.batch = 0

/-! ## Runs of the queue on its own -/

inductive Event (α : Type*) where
  | addBuf (sg : ℕ → VringSg) (outNum inNum : ℕ) (cookie : α)
      (env : Virtqueue.IndirectEnv)
  | getBuf
  | kick
  | fetch
  | complete (i : ℕ) (len : BitVec 32)
  | signal
  | rest

def step (q : RequestQueue α) : Event α → Option (RequestQueue α)
  | .addBuf sg outNum inNum cookie env =>
      if 1 ≤ outNum + inNum ∧ outNum + inNum ≤ maxSgEntries then
        some (q.addBuf sg outNum inNum cookie env).2
      else none
  | .getBuf => q.getBuf.map Prod.snd
  | .kick => some q.kick
  | .fetch => q.fetch
  | .complete i len => q.complete i len
  | .signal => q.signal
  | .rest => q.rest

end RequestQueue

end VirtioScsi
