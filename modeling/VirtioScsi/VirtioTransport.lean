import Mathlib.Tactic

/-!
# The device side of a virtio transport

The registers of a device as the accesses of a driver change them, and which
accesses the device's protocol allows in a state: status bits are set in order
and taken back by a reset only, features are chosen among those offered before
they are fixed, rings are registered between the negotiation and `DRIVER_OK`,
and nothing but the status is touched before a reset is done.  A device gives
each read one value.
-/

namespace VirtioTransport

inductive Area where
  | desc
  | avail
  | used
deriving DecidableEq, Repr

/-- What a driver does, with the value it reads or writes. -/
inductive Access where
  | config
  | setStatus (v : BitVec 8)
  | status (v : BitVec 8)
  | isr (v : BitVec 8)
  | selectOffered (word : BitVec 32)
  | offered (v : BitVec 32)
  | selectAccepted (word : BitVec 32)
  | accept (v : BitVec 32)
  | selectQueue (q : BitVec 16)
  | queueSize (v : BitVec 16)
  | setLow (a : Area) (v : BitVec 32)
  | setHigh (a : Area) (v : BitVec 32)
  | setPage (v : BitVec 32)
  | enable (v : BitVec 16)
  | notifyOff (v : BitVec 16)
  | unknown
deriving DecidableEq, Repr

def acknowledge : BitVec 8 := 1
def driver : BitVec 8 := 2
def driverOk : BitVec 8 := 4
def featuresOk : BitVec 8 := 8

/-- Where a device looks for the rings of a queue. -/
@[ext] structure Rings where
  area : Area → BitVec 64
  enabled : Bool

/-- What distinguishes one device from another.  A reset is seen to be done
after `resetReads` reads of the status, which give `resetting` until then. -/
structure Endpoint where
  features : BitVec 64
  takes : BitVec 64 → Bool
  size : BitVec 16 → BitVec 16
  notifyOff : BitVec 16 → BitVec 16
  resetReads : ℕ
  resetting : BitVec 8
  resetting_ne : resetting ≠ 0

@[ext] structure Regs where
  status : BitVec 8
  resetLeft : ℕ
  offeredSel : BitVec 32
  acceptedSel : BitVec 32
  acceptedLow : BitVec 32
  acceptedHigh : BitVec 32
  queueSel : BitVec 16
  queue : BitVec 16 → Rings

def setLowHalf (x : BitVec 64) (v : BitVec 32) : BitVec 64 := x.extractLsb' 32 32 ++ v

def setHighHalf (x : BitVec 64) (v : BitVec 32) : BitVec 64 := v ++ x.extractLsb' 0 32

@[simp] theorem setHighHalf_setLowHalf (x : BitVec 64) (v : BitVec 32) :
    setHighHalf (setLowHalf x v) 0#32 = v.setWidth 64 := by
  unfold setHighHalf setLowHalf
  rw [BitVec.extractLsb'_append_eq_right]
  apply BitVec.eq_of_toNat_eq
  rw [BitVec.toNat_append, BitVec.toNat_setWidth, Nat.mod_eq_of_lt (by omega)]
  simp

namespace Rings

def none : Rings := ⟨fun _ => 0, false⟩

def set (g : Rings) (a : Area) (v : BitVec 64) : Rings :=
  { g with area := Function.update g.area a v }

/-- The layout that a legacy device derives from one page number. -/
def ofPage (size : BitVec 16) (page : BitVec 32) : Rings where
  area
    | .desc => page.setWidth 64 * 4096
    | .avail => page.setWidth 64 * 4096 + 16 * size.setWidth 64
    | .used =>
        page.setWidth 64 * 4096 +
          ((16 * size.setWidth 64 + 2 * (3 + size.setWidth 64) + 4095) &&& ~~~4095)
  enabled := page ≠ 0

end Rings

namespace Regs

/-- The registers after a reset. -/
def fresh : Regs := ⟨0, 0, 0, 0, 0, 0, 0, fun _ => .none⟩

def has (r : Regs) (bit : BitVec 8) : Prop := r.status &&& bit = bit

instance (r : Regs) (bit : BitVec 8) : Decidable (r.has bit) :=
  inferInstanceAs (Decidable (_ = _))

def accepted (r : Regs) : BitVec 64 := r.acceptedHigh ++ r.acceptedLow

/-- The device may use the rings. -/
def Live (r : Regs) : Prop := r.resetLeft = 0 ∧ r.has driverOk

def setQueue (r : Regs) (g : Rings) : Regs :=
  { r with queue := Function.update r.queue r.queueSel g }

variable {r : Regs} {g g' : Rings}

@[simp] theorem setQueue_status : (r.setQueue g).status = r.status := rfl

@[simp] theorem setQueue_resetLeft : (r.setQueue g).resetLeft = r.resetLeft := rfl

@[simp] theorem setQueue_queueSel : (r.setQueue g).queueSel = r.queueSel := rfl

@[simp] theorem setQueue_queue : (r.setQueue g).queue r.queueSel = g := by
  simp [setQueue]

@[simp] theorem setQueue_setQueue : (r.setQueue g).setQueue g' = r.setQueue g' := by
  unfold setQueue
  rw [Function.update_idem]

end Regs

namespace Endpoint

variable (dev : Endpoint) (modern : Bool)

def word (sel : BitVec 32) : BitVec 32 :=
  if sel = 0 then dev.features.extractLsb' 0 32
  else if sel = 1 then dev.features.extractLsb' 32 32
  else 0

/-- A device that does not take the features does not keep `FEATURES_OK`. -/
def keptStatus (r : Regs) (v : BitVec 8) : BitVec 8 :=
  if v &&& featuresOk = featuresOk ∧ ¬ r.has featuresOk ∧ dev.takes r.accepted = false then
    v &&& ~~~featuresOk
  else v

def next (r : Regs) : Access → Regs
  | .setStatus v =>
      if v = 0 then
        if dev.resetReads = 0 then .fresh else { r with resetLeft := dev.resetReads }
      else { r with status := dev.keptStatus r v }
  | .status _ =>
      if r.resetLeft = 1 then .fresh else { r with resetLeft := r.resetLeft - 1 }
  | .selectOffered sel => { r with offeredSel := sel }
  | .selectAccepted sel => { r with acceptedSel := sel }
  | .accept v =>
      if r.acceptedSel = 0 then { r with acceptedLow := v }
      else if r.acceptedSel = 1 then { r with acceptedHigh := v }
      else r
  | .selectQueue q => { r with queueSel := q }
  | .setLow a v =>
      r.setQueue ((r.queue r.queueSel).set a (setLowHalf ((r.queue r.queueSel).area a) v))
  | .setHigh a v =>
      r.setQueue ((r.queue r.queueSel).set a (setHighHalf ((r.queue r.queueSel).area a) v))
  | .setPage v => r.setQueue (.ofPage (dev.size r.queueSel) v)
  | .enable v => r.setQueue { r.queue r.queueSel with enabled := v = 1 }
  | .config | .isr _ | .offered _ | .queueSize _ | .notifyOff _ | .unknown => r

/-- The status `v` is one that the driver may set: it keeps what was set, and a
bit comes after those it follows. -/
def StatusLegal (r : Regs) (v : BitVec 8) : Prop :=
  v &&& r.status = r.status ∧
    (v &&& driver = driver → v &&& acknowledge = acknowledge) ∧
    (v &&& featuresOk = featuresOk → modern = true ∧ r.has driver) ∧
    (v &&& driverOk = driverOk → r.has driver ∧ (modern = true → r.has featuresOk))

/-- Features may still be chosen. -/
def Negotiating (r : Regs) : Prop := r.has driver ∧ ¬ r.has featuresOk ∧ ¬ r.has driverOk

/-- The rings of the selected queue may be registered. -/
def Configuring (r : Regs) : Prop :=
  r.has driver ∧ (modern = true → r.has featuresOk) ∧ ¬ r.has driverOk ∧
    dev.size r.queueSel ≠ 0 ∧ (r.queue r.queueSel).enabled = false

/-- What the protocol allows; a read gives the value the device has there. -/
def Legal (r : Regs) : Access → Prop
  | .config => True
  | .status v => v = if r.resetLeft = 0 then r.status else dev.resetting
  | .setStatus v => v = 0 ∨ r.resetLeft = 0 ∧ StatusLegal modern r v
  | .isr _ | .selectQueue _ => r.resetLeft = 0
  | .selectOffered _ | .selectAccepted _ => r.resetLeft = 0
  | .offered v => r.resetLeft = 0 ∧ v = dev.word r.offeredSel
  | .accept v =>
      r.resetLeft = 0 ∧ Negotiating r ∧ v &&& dev.word r.acceptedSel = v
  | .queueSize v => r.resetLeft = 0 ∧ v = dev.size r.queueSel
  | .setLow _ _ | .setHigh _ _ =>
      r.resetLeft = 0 ∧ modern = true ∧ dev.Configuring modern r
  | .enable v => r.resetLeft = 0 ∧ modern = true ∧ dev.Configuring modern r ∧ v = 1
  | .setPage _ => r.resetLeft = 0 ∧ modern = false ∧ dev.Configuring modern r
  | .notifyOff v => r.resetLeft = 0 ∧ modern = true ∧ v = dev.notifyOff r.queueSel
  | .unknown => False

def final (r : Regs) (accesses : List Access) : Regs := accesses.foldl dev.next r

/-- Every access of the driver is legal where it happens. -/
def Conforms (r : Regs) : List Access → Prop
  | [] => True
  | a :: rest => dev.Legal modern r a ∧ Conforms (dev.next r a) rest

variable {dev modern} {r : Regs} {a : Access} {accesses accesses' : List Access}

@[simp] theorem final_nil : dev.final r [] = r := rfl

@[simp] theorem final_cons : dev.final r (a :: accesses) = dev.final (dev.next r a) accesses := rfl

theorem final_append :
    dev.final r (accesses ++ accesses') = dev.final (dev.final r accesses) accesses' :=
  List.foldl_append

@[simp] theorem conforms_nil : dev.Conforms modern r [] := trivial

theorem conforms_cons :
    dev.Conforms modern r (a :: accesses) ↔
      dev.Legal modern r a ∧ dev.Conforms modern (dev.next r a) accesses := Iff.rfl

theorem conforms_append :
    dev.Conforms modern r (accesses ++ accesses') ↔
      dev.Conforms modern r accesses ∧
        dev.Conforms modern (dev.final r accesses) accesses' := by
  induction accesses generalizing r with
  | nil => exact (iff_of_eq (true_and _)).symm
  | cons a accesses ih =>
      rw [List.cons_append, conforms_cons, conforms_cons, ih, and_assoc]
      rfl

theorem Conforms.of_isPrefix (hpre : accesses <+: accesses')
    (h : dev.Conforms modern r accesses') : dev.Conforms modern r accesses := by
  obtain ⟨rest, rfl⟩ := hpre
  exact (conforms_append.mp h).1

/-! ## Registering the rings -/

theorem Configuring.setQueue {g : Rings} (h : dev.Configuring modern r)
    (henabled : g.enabled = false) : dev.Configuring modern (r.setQueue g) := by
  obtain ⟨hdriver, hfeatures, hok, hsize, -⟩ := h
  refine ⟨hdriver, hfeatures, hok, hsize, ?_⟩
  rw [Regs.setQueue_queueSel, Regs.setQueue_queue, henabled]

/-- Three addresses and the enable register a queue. -/
theorem rings_conform (hleft : r.resetLeft = 0) (h : dev.Configuring true r)
    (desc avail used : BitVec 32) :
    dev.Conforms true r
        [.setLow .desc desc, .setHigh .desc 0, .setLow .avail avail, .setHigh .avail 0,
          .setLow .used used, .setHigh .used 0, .enable 1] ∧
      dev.final r
        [.setLow .desc desc, .setHigh .desc 0, .setLow .avail avail, .setHigh .avail 0,
          .setLow .used used, .setHigh .used 0, .enable 1] =
        r.setQueue
          { area := fun
              | .desc => desc.setWidth 64
              | .avail => avail.setWidth 64
              | .used => used.setWidth 64
            enabled := true } := by
  have henabled := h.2.2.2.2
  constructor
  · have hset (g : Rings) (hg : g.enabled = false) := Configuring.setQueue h hg
    simp [conforms_cons, Legal, next, Rings.set, hleft, h, hset, henabled]
  · have hareas (area : Area → BitVec 64) :
        Function.update (Function.update (Function.update area .desc (desc.setWidth 64)) .avail
          (avail.setWidth 64)) .used (used.setWidth 64) = fun
            | .desc => desc.setWidth 64
            | .avail => avail.setWidth 64
            | .used => used.setWidth 64 := by
      funext a
      cases a <;> rfl
    simp [next, Rings.set, hareas]

end Endpoint

end VirtioTransport
