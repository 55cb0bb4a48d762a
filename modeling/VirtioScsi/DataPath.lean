import VirtioScsi.BlockStore
import VirtioScsi.ChainContents
import VirtioScsi.TransferPaths

/-!
# The data path

Block requests from `VirtIOSCSI_Submit` to the reply, with all their bytes:
the header goes through the request buffer of the slot, the chain through the
queue, the data through the bounce buffer or the client's memory, the answer
through the response buffer.  The device works on what it finds behind the
descriptors.
-/

namespace VirtioScsi

open CellMemory

/-- Where the header of a unit's requests is addressed, and the geometry that
is cached. -/
structure UnitAddress where
  targetId : BitVec 32
  lunId : BitVec 32
  geometry : UnitGeometry
deriving DecidableEq, Repr

def UnitAddress.target (u : UnitAddress) : BitVec 8 := u.targetId.setWidth 8

def UnitAddress.lun (u : UnitAddress) : BitVec 16 := u.lunId.setWidth 16

/-- A block request at the head of `Submit`, with its slot.  The layout gives
its memory; the queue in it is not read, since all requests share one.
`place` is where an indirect table would lie. -/
structure PipelinedRequest where
  unit : UnitNum
  slot : Slot
  req : IOStdReq
  isWrite : Bool
  layout : TransferLayout
  place : ℕ → BitVec 64
  dispatched : req.ioCommand.dispatch = .block isWrite
  ioData : layout.ioData = req.ioData
  ioLength : layout.ioLength = req.ioLength

/-- `inflight[slot]`.  The number of the chain and the operation are history. -/
structure Flight where
  request : PipelinedRequest
  data : DataSegments
  serial : ℕ
  op : BlockOp

abbrev FlightKey := UnitNum × Slot

structure DataPath where
  units : UnitNum → UnitAddress
  shared : SharedQueue ReqBuf
  mem : ℕ → BitVec 8
  media : Media
  flight : FlightKey → Option Flight
  replies : List (FlightKey × BlockOp × BlockResult)

namespace PipelinedRequest

def key (r : PipelinedRequest) : FlightKey := (r.unit, r.slot)

def reqCells (r : PipelinedRequest) : List ℕ := segmentCells r.layout.slot.reqDma

def respCells (r : PipelinedRequest) : List ℕ := segmentCells r.layout.slot.respDma

/-- The memory that belongs to the request until it is replied. -/
def footprint (r : PipelinedRequest) : List ℕ :=
  r.reqCells ++ r.respCells ++ r.layout.userCells r.req.ioLength.toNat ++
    r.layout.bounceCells bounceBufSize

def sgList (r : PipelinedRequest) (data : DataSegments) : SgList :=
  (submitSg r.isWrite r.layout.slot.reqDma r.layout.slot.respDma data).array

end PipelinedRequest

namespace Flight

def sgList (f : Flight) : SgList := f.request.sgList f.data

def dataCells (f : Flight) : List ℕ := segmentCells f.data.toList

def outCells (f : Flight) : List ℕ :=
  f.request.reqCells ++ if f.request.isWrite then f.dataCells else []

def inCells (f : Flight) : List ℕ :=
  f.request.respCells ++ if f.request.isWrite then [] else f.dataCells

/-- What the device finds behind the descriptors. -/
def segments (f : Flight) : List Segment :=
  (List.range (f.sgList.outNum + f.sgList.inNum)).map (segment f.sgList.get f.sgList.outNum)

end Flight

def Segment.cells (seg : Segment) : List ℕ :=
  List.range' seg.addr.toNat seg.len.toNat

def segmentsCells (writable : Bool) (segments : List Segment) : List ℕ :=
  (segments.filter fun seg => seg.writable == writable).flatMap Segment.cells

namespace DataPath

/-! ## The driver -/

/-- What the client asks for. -/
def op (s : DataPath) (r : PipelinedRequest) : BlockOp where
  target := (s.units r.unit).target
  lun := (s.units r.unit).lun
  isWrite := r.isWrite
  offset := r.req.offset64.toNat
  length := r.req.ioLength.toNat
  data := if r.isWrite then (r.layout.userCells r.req.ioLength.toNat).map s.mem else []

/-- The response fields that are cleared: `response`, `status`, `residual`. -/
def resetCells (respCells : List ℕ) : List ℕ :=
  (respCells.drop 11).take 1 ++ (respCells.drop 10).take 1 ++ (respCells.drop 4).take 4

/-- The CDB of `submit_block_io`. -/
def cdb (s : DataPath) (r : PipelinedRequest) : Cdb :=
  submitBlockIoCdb (s.units r.unit).geometry r.req.offset64 r.req.ioLength r.isWrite

def header (s : DataPath) (r : PipelinedRequest) : List (BitVec 8) :=
  requestBytes (s.units r.unit).target (s.units r.unit).lun (requestId r.unit r.slot) (s.cdb r)

/-- Memory after the response is cleared and the header filled. -/
def prepare (s : DataPath) (r : PipelinedRequest) : ℕ → BitVec 8 :=
  write (write s.mem (resetCells r.respCells) (List.replicate 6 0)) r.reqCells (s.header r)

/-- Memory after write data are copied to the bounce buffer. -/
def bounce (s : DataPath) (r : PipelinedRequest) (data : DataSegments) : ℕ → BitVec 8 :=
  if data.usingBounce && r.isWrite then
    copy (s.prepare r) (r.layout.userCells r.req.ioLength.toNat)
      (r.layout.bounceCells r.req.ioLength.toNat)
  else s.prepare r

/-- A hard failure is replied at once. -/
def refuse (s : DataPath) (r : PipelinedRequest) (mem : ℕ → BitVec 8) (rc : Int) : DataPath :=
  { s with mem := mem, replies := s.replies ++ [(r.key, s.op r, ⟨rc, 0, []⟩)] }

/-- `submit_block_io` and `VirtIOSCSI_Submit` with a free slot. -/
def submit (s : DataPath) (r : PipelinedRequest) : Option DataPath :=
  match s.flight r.key with
  | some _ => none
  | none =>
      match submitData r.layout.ioData r.layout.ioLength r.layout.slot.data with
      | none => some (s.refuse r (s.prepare r) hferrDma)
      | some data =>
          let sg := r.sgList data
          if maxSgEntries < sg.outNum + sg.inNum then
            some (s.refuse r (s.bounce r data) hferrDma)
          else
            let added := s.shared.addBuf sg.get sg.outNum sg.inNum (.slot r.unit r.slot)
              r.layout.slot.exec r.place
            if added.1 ≠ 0 then some (s.refuse r (s.bounce r data) tderrNotSpecified)
            else
              some { s with
                shared := added.2
                mem := s.bounce r data
                flight := Function.update s.flight r.key
                  (some ⟨r, data, s.shared.queue.hist.added.length, s.op r⟩) }

/-- `complete_inflight_slot`. -/
def completeInflightSlot (s : DataPath) (key : FlightKey) (f : Flight) : DataPath :=
  let t := f.request.layout
  let status := completionStatus s.shared.queue.vq.modern
    (readResponse (f.request.respCells.map s.mem)) t.ioLength
  let mem :=
    if f.data.usingBounce && !f.request.isWrite && decide (status.1 = 0) &&
        decide (0 < status.2.toNat) then
      copy s.mem (t.bounceCells status.2.toNat) (t.userCells status.2.toNat)
    else s.mem
  let data :=
    if !f.request.isWrite && decide (status.1 = 0) then
      (t.userCells status.2.toNat).map mem
    else []
  { s with
    mem := mem
    flight := Function.update s.flight key none
    replies := s.replies ++ [(key, f.op, ⟨status.1, status.2, data⟩)] }

/-- One turn of the loop of `VirtIOSCSI_Harvest`. -/
def harvest (s : DataPath) : Option DataPath :=
  s.shared.queue.getBuf.map fun (cookie, queue) =>
    let s' := { s with shared := { s.shared with queue := queue } }
    match cookie with
    | some (.slot unit slot) =>
        match s.flight (unit, slot) with
        | some f => s'.completeInflightSlot (unit, slot) f
        | none => s'
    | _ => s'

/-! ## The device -/

/-- The device takes up the `i`-th chain it works on: it reads the device-readable
segments, executes the request or gives up, and writes answer and data. -/
def execute (s : DataPath) (i : ℕ) (fault : Option Fault) : Option DataPath :=
  let vq := s.shared.queue.vq
  match s.shared.queue.dev.pending[i]? with
  | none => none
  | some (_, head) =>
      match readBuffers vq.modern vq.desc vq.num s.shared.memory head with
      | none => none
      | some segments =>
          let out := (segmentsCells false segments).map s.mem
          let ins := segmentsCells true segments
          let done := deviceDo s.media out (ins.length - respCmdSize) fault
          let bytes := answerBytes vq.modern done.2.1 ++ done.2.2
          (s.shared.step (.queue (.complete i (BitVec.ofNat 32 bytes.length)) fun _ => 0)).map
            fun shared => { s with
              shared := shared
              mem := write s.mem ins bytes
              media := done.1 }

/-! ## Steps -/

/-- `client` and `table` are stores of everybody else, to the memory of data and
to that of indirect tables; `learn` caches a geometry. -/
inductive Event where
  | submit (r : PipelinedRequest)
  | kick
  | fetch
  | execute (i : ℕ) (fault : Option Fault)
  | signal
  | rest
  | harvest
  | client (cell : ℕ) (value : BitVec 8)
  | table (cell : BitVec 64) (value : VringDesc)
  | learn (unit : UnitNum) (geometry : UnitGeometry)

def onQueue (s : DataPath) (e : RequestQueue.Event ReqBuf) : Option DataPath :=
  (s.shared.step (.queue e fun _ => 0)).map fun shared => { s with shared := shared }

def step (s : DataPath) : Event → Option DataPath
  | .submit r => s.submit r
  | .kick => s.onQueue .kick
  | .fetch => s.onQueue .fetch
  | .execute i fault => s.execute i fault
  | .signal => s.onQueue .signal
  | .rest => s.onQueue .rest
  | .harvest => s.harvest
  | .client cell value => some { s with mem := Function.update s.mem cell value }
  | .table cell value =>
      (s.shared.step (.outside cell value)).map fun shared => { s with shared := shared }
  | .learn unit geometry =>
      let address : UnitAddress := { s.units unit with geometry := geometry }
      some { s with units := Function.update s.units unit address }

def initial (queueSize : ℕ) (modern useEventIdx useIndirect : Bool)
    (units : UnitNum → UnitAddress) (tables : BitVec 64 → VringDesc) (mem : ℕ → BitVec 8)
    (media : Media) : DataPath where
  units := units
  shared := SharedQueue.initial queueSize modern useEventIdx useIndirect tables
  mem := mem
  media := media
  flight := fun _ => none
  replies := []

/-! ## What the driver relies on -/

/-- A request for whole blocks of a unit the driver addresses with its own
block size, in memory that nobody else uses. -/
structure Admissible (s : DataPath) (r : PipelinedRequest) : Prop where
  lun : (s.units r.unit).lun < 0x4000
  buffer : r.req.ioData ≠ 0
  nonempty : 0 < r.req.ioLength.toNat
  offset : (s.units r.unit).geometry.blksz.toNat ∣ r.req.offset64.toNat
  length : (s.units r.unit).geometry.blksz.toNat ∣ r.req.ioLength.toNat
  blockSize : ∀ m, s.media (s.units r.unit).target (s.units r.unit).lun = some m →
    m.blockSize = (s.units r.unit).geometry.blksz.toNat
  nodup : r.footprint.Nodup
  apart : ∀ key f, s.flight key = some f → List.Disjoint r.footprint f.request.footprint
  tables : ∀ data, s.shared.Exclusive (.queue (.addBuf (r.sgList data).get
    (r.sgList data).outNum (r.sgList data).inNum (.slot r.unit r.slot) r.layout.slot.exec)
      r.place)

/-- The contract: clients keep to it, memory is exclusive, and a device that
gives up says so. -/
def Contract (s : DataPath) : Event → Prop
  | .submit r => s.Admissible r
  | .execute _ (some fault) => fault.answer.error ≠ 0
  | .client cell _ => ∀ key f, s.flight key = some f → cell ∉ f.request.footprint
  | .table cell _ => ¬ s.shared.InUse cell
  | _ => True

end DataPath

end VirtioScsi
