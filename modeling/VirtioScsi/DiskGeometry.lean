import VirtioScsi.BlockAddressing

/-!
# The size of a disk

Capacity discovery with the commands it sends, on a device that answers READ
CAPACITY (10) and (16), and the two commands that report the size:
`Handle_TD_GetGeometry` in 32-bit fields, with a cylinder shape made up for
it, and `Handle_NS_TD_GetGeometry64` as it is.
-/

namespace VirtioScsi

/-! ## Capacity discovery -/

/-- READ CAPACITY (10). -/
def readCapacity10Cdb : Cdb := [0x25, 0, 0, 0, 0, 0, 0, 0, 0, 0]

def makeReadCapacity16Cdb : Cdb :=
  [0x9E, 0x10, 0, 0, 0, 0, 0, 0, 0, 0, 0, 0, 0, 32, 0, 0]

def DoioReply.Failed (reply : DoioReply) : Prop :=
  reply.rc ≠ 0 ∨ reply.scsiStatus ≠ 0

instance (reply : DoioReply) : Decidable reply.Failed :=
  inferInstanceAs (Decidable (_ ∨ _))

/-- What `VirtIOSCSI_DoIO` does with the commands of one caller. -/
abbrev Doio := Cdb → DoioReply

namespace UnitGeometry

/-- `ensure_geometry_cached`. -/
def ensure (g : UnitGeometry) (doio : Doio) : Int × UnitGeometry :=
  ensureGeometryCached g (doio readCapacity10Cdb) (doio makeReadCapacity16Cdb)

def issued (g : UnitGeometry) (doio : Doio) : List Cdb :=
  let cap10 := doio readCapacity10Cdb
  if g.geometryValid then []
  else if cap10.Failed then [readCapacity10Cdb]
  else if loadWord 4 cap10.data 0 = 0xFFFFFFFF then
    [readCapacity10Cdb, makeReadCapacity16Cdb]
  else [readCapacity10Cdb]

def ensureAll (g : UnitGeometry) (calls : List Doio) : UnitGeometry :=
  calls.foldl (fun g doio => (g.ensure doio).2) g

end UnitGeometry

namespace Capacity

/-- The data the device returns for the CDB it finds in a request. -/
def respond (cap : Capacity) : Cdb → Option (List (BitVec 8))
  | 0x25 :: _ => some cap.answer10
  | 0x9E :: action :: fields =>
      if action &&& 0x1F = 0x10 then
        some (cap.answer16.take (bigEndian ((fields.drop 8).take 4)))
      else none
  | _ => none

/-- Commands may fail, but those that succeed return the device's data. -/
def Conforms (cap : Capacity) (doio : Doio) : Prop :=
  ∀ cdb data, cap.respond (requestCdb cdb) = some data →
    (doio cdb).rc = 0 → (doio cdb).scsiStatus = 0 → (doio cdb).data = data

variable {cap : Capacity} {doio : Doio} {g : UnitGeometry}

theorem respond_readCapacity10 :
    cap.respond (requestCdb readCapacity10Cdb) = some cap.answer10 := rfl

theorem respond_readCapacity16 :
    cap.respond (requestCdb makeReadCapacity16Cdb) = some cap.answer16 := rfl

theorem loadWord_answer10_lba : loadWord 4 cap.answer10 0 =
    if cap.lastLba < 0xFFFFFFFF then cap.lastLba.setWidth 32
      else 0xFFFFFFFF := by
  unfold loadWord answer10
  dsimp only
  generalize (if cap.lastLba < 0xFFFFFFFF then cap.lastLba.setWidth 32
    else (0xFFFFFFFF : BitVec 32)) = lba
  simp [bigEndian_four]

theorem loadWord_answer16_lba : loadWord 8 cap.answer16 0 = cap.lastLba := by
  unfold loadWord answer16
  simp [bigEndian_eight]

end Capacity

namespace UnitGeometry

variable {g : UnitGeometry} {doio : Doio}

theorem ensure_of_valid (doio : Doio) (hvalid : g.geometryValid = true) :
    g.ensure doio = (0, g) ∧ g.issued doio = [] := by
  unfold ensure ensureGeometryCached issued
  simp only [hvalid, if_true, and_self]

theorem ensure_of_failed (hvalid : g.geometryValid = false)
    {cdb : Cdb} (hcdb : cdb ∈ g.issued doio) (hfailed : (doio cdb).Failed) :
    (g.ensure doio).1 ≠ 0 ∧ (g.ensure doio).2 = g := by
  have hbad : hferrBadStatus ≠ 0 := by decide
  unfold issued at hcdb
  unfold ensure ensureGeometryCached
  simp only [hvalid, Bool.false_eq_true, if_false] at hcdb ⊢
  by_cases hrc : (doio readCapacity10Cdb).rc = 0
  case neg =>
    rw [if_pos hrc]
    exact ⟨hrc, rfl⟩
  by_cases hstatus : (doio readCapacity10Cdb).scsiStatus = 0
  case neg =>
    rw [if_neg (not_not.mpr hrc), if_pos hstatus]
    exact ⟨hbad, rfl⟩
  have hgood : ¬ (doio readCapacity10Cdb).Failed := by
    simp [DoioReply.Failed, hrc, hstatus]
  rw [if_neg (not_not.mpr hrc), if_neg (not_not.mpr hstatus)]
  rw [if_neg hgood] at hcdb
  by_cases hlba : loadWord 4 (doio readCapacity10Cdb).data 0 = 0xFFFFFFFF
  · rw [if_pos hlba] at hcdb ⊢
    -- The first command succeeded, so the second one failed.
    have hsecond : (doio makeReadCapacity16Cdb).Failed := by
      rcases List.mem_cons.mp hcdb with rfl | hcdb
      · exact absurd hfailed hgood
      · rwa [List.mem_singleton.mp hcdb] at hfailed
    by_cases hrc16 : (doio makeReadCapacity16Cdb).rc = 0
    · rw [if_neg (not_not.mpr hrc16),
        if_pos (hsecond.resolve_left (not_not.mpr hrc16))]
      exact ⟨hbad, rfl⟩
    · rw [if_pos hrc16]
      exact ⟨hrc16, rfl⟩
  · rw [if_neg hlba, List.mem_singleton] at hcdb
    rw [hcdb] at hfailed
    exact absurd hfailed hgood

theorem ensure_of_succeeded {cap : Capacity} (hconforms : cap.Conforms doio)
    (hvalid : g.geometryValid = false)
    (hgood : ∀ cdb ∈ g.issued doio, ¬ (doio cdb).Failed) :
    g.ensure doio = (0, cap.geometry) := by
  unfold issued at hgood
  unfold ensure ensureGeometryCached
  simp only [hvalid, Bool.false_eq_true, if_false] at hgood ⊢
  have hfirst : ¬ (doio readCapacity10Cdb).Failed := by
    apply hgood
    split_ifs <;> simp
  rw [if_neg hfirst] at hgood
  obtain ⟨hrc, hstatus⟩ := not_or.mp hfirst
  rw [if_neg hrc, if_neg hstatus]
  have hdata := hconforms _ _ Capacity.respond_readCapacity10
    (not_not.mp hrc) (not_not.mp hstatus)
  rw [hdata, Capacity.loadWord_answer10_lba] at hgood ⊢
  by_cases hsmall : cap.lastLba < 0xFFFFFFFF
  · have hnat : cap.lastLba.toNat < 0xFFFFFFFF := hsmall
    have hfits : (cap.lastLba.setWidth 32).setWidth 64 = cap.lastLba := by
      apply BitVec.eq_of_toNat_eq
      rw [BitVec.toNat_setWidth, BitVec.toNat_setWidth]
      omega
    have hsentinel : cap.lastLba.setWidth 32 ≠ 0xFFFFFFFF := by
      intro heq
      have hlba := congrArg BitVec.toNat heq
      rw [BitVec.toNat_setWidth] at hlba
      simp only [BitVec.reduceToNat] at hlba
      omega
    rw [if_pos hsmall, if_neg hsentinel, hfits, Capacity.loadWord_answer10]
    rfl
  · rw [if_neg hsmall, if_pos rfl] at hgood
    rw [if_neg hsmall, if_pos rfl]
    obtain ⟨hrc16, hstatus16⟩ := not_or.mp (hgood makeReadCapacity16Cdb (by simp))
    have hdata16 := hconforms _ _ Capacity.respond_readCapacity16
      (not_not.mp hrc16) (not_not.mp hstatus16)
    rw [if_neg hrc16, if_neg hstatus16, hdata16, Capacity.loadWord_answer16_lba,
      Capacity.loadWord_answer16]
    rfl

end UnitGeometry

/-- What a call of `ensure_geometry_cached` has to do on a disk. -/
structure CapacityDiscovered (cap : Capacity) (g : UnitGeometry) (doio : Doio) :
    Prop where
  discovered : (g.ensure doio).1 = 0 →
    (g.ensure doio).2.totalBlocks.toNat = cap.lastLba.toNat + 1 ∧
      (g.ensure doio).2.blockSize = cap.blockSize ∧
      (g.ensure doio).2.geometryValid = true
  succeeds : (∀ cdb ∈ g.issued doio, ¬ (doio cdb).Failed) →
    (g.ensure doio).1 = 0
  failed : (∃ cdb ∈ g.issued doio, (doio cdb).Failed) →
    (g.ensure doio).1 ≠ 0 ∧ (g.ensure doio).2 = g
  cached : g.geometryValid = true → ∀ calls next,
    g.ensureAll calls = g ∧ (g.ensureAll calls).issued next = []

namespace UnitGeometry

variable {cap : Capacity} {g : UnitGeometry} {doio : Doio}

theorem ensureAll_of_valid (hvalid : g.geometryValid = true)
    (calls : List Doio) : g.ensureAll calls = g := by
  induction calls with
  | nil => rfl
  | cons doio calls ih =>
      unfold ensureAll at ih ⊢
      rw [List.foldl_cons, (ensure_of_valid doio hvalid).1]
      exact ih

theorem ensure_cases (hconforms : cap.Conforms doio)
    (hvalid : g.geometryValid = false) :
    ((∃ cdb ∈ g.issued doio, (doio cdb).Failed) ∧
        (g.ensure doio).1 ≠ 0 ∧ (g.ensure doio).2 = g) ∨
      ((∀ cdb ∈ g.issued doio, ¬ (doio cdb).Failed) ∧
        g.ensure doio = (0, cap.geometry)) := by
  by_cases hfailed : ∃ cdb ∈ g.issued doio, (doio cdb).Failed
  · obtain ⟨cdb, hcdb, hfail⟩ := hfailed
    exact .inl ⟨⟨cdb, hcdb, hfail⟩, ensure_of_failed hvalid hcdb hfail⟩
  · have hgood : ∀ cdb ∈ g.issued doio, ¬ (doio cdb).Failed := by
      intro cdb hcdb hfail
      exact hfailed ⟨cdb, hcdb, hfail⟩
    exact .inr ⟨hgood, ensure_of_succeeded hconforms hvalid hgood⟩

theorem ensureAll_cases (hvalid : g.geometryValid = false) (calls : List Doio)
    (hcalls : ∀ doio ∈ calls, cap.Conforms doio) :
    g.ensureAll calls = g ∨ g.ensureAll calls = cap.geometry := by
  induction calls with
  | nil => exact .inl rfl
  | cons doio calls ih =>
      rw [List.forall_mem_cons] at hcalls
      unfold ensureAll at ih ⊢
      rw [List.foldl_cons]
      rcases ensure_cases hcalls.1 hvalid with ⟨-, -, hsame⟩ | ⟨-, hdone⟩
      · rw [hsame]
        exact ih hcalls.2
      · rw [hdone]
        exact .inr (ensureAll_of_valid rfl calls)

end UnitGeometry

/-- Whatever calls came before, capacity discovery is right for every disk and
leaves the unit alone when a command fails. -/
theorem capacity_discovered (cap : Capacity)
    (hcap : cap.lastLba.toNat ≤ 2 ^ 64 - 2) (g : UnitGeometry)
    (hfresh : g.geometryValid = false) (past : List Doio)
    (hpast : ∀ doio ∈ past, cap.Conforms doio) (doio : Doio)
    (hconforms : cap.Conforms doio) :
    CapacityDiscovered cap (g.ensureAll past) doio := by
  have hcount : cap.geometry.totalBlocks.toNat = cap.lastLba.toNat + 1 := by
    unfold Capacity.geometry
    rw [BitVec.toNat_add]
    simp only [BitVec.reduceToNat]
    omega
  have hcached : ∀ g : UnitGeometry, g.geometryValid = true →
      ∀ calls next, g.ensureAll calls = g ∧ (g.ensureAll calls).issued next = [] := by
    intro g hvalid calls next
    have hsame := UnitGeometry.ensureAll_of_valid hvalid calls
    rw [hsame]
    exact ⟨rfl, (UnitGeometry.ensure_of_valid _ hvalid).2⟩
  by_cases hvalid : (g.ensureAll past).geometryValid = true
  · obtain ⟨hensure, hissued⟩ := UnitGeometry.ensure_of_valid doio hvalid
    have hgeometry : g.ensureAll past = cap.geometry := by
      apply (UnitGeometry.ensureAll_cases hfresh past hpast).resolve_left
      intro hsame
      rw [hsame, hfresh] at hvalid
      cases hvalid
    constructor
    · intro _
      rw [hensure, hgeometry]
      exact ⟨hcount, rfl, rfl⟩
    · intro _
      rw [hensure]
    · rintro ⟨cdb, hcdb, -⟩
      rw [hissued] at hcdb
      cases hcdb
    · exact hcached _
  · have hinvalid : (g.ensureAll past).geometryValid = false :=
      Bool.eq_false_iff.mpr hvalid
    rcases UnitGeometry.ensure_cases hconforms hinvalid with
      ⟨⟨cdb, hcdb, hfailed⟩, hrc, hsame⟩ | ⟨hgood, hdone⟩
    · constructor
      · intro hok
        exact absurd hok hrc
      · intro hgood
        exact absurd hfailed (hgood cdb hcdb)
      · intro _
        exact ⟨hrc, hsame⟩
      · exact hcached _
    · constructor
      · intro _
        rw [hdone]
        exact ⟨hcount, rfl, rfl⟩
      · intro _
        rw [hdone]
      · rintro ⟨cdb, hcdb, hfailed⟩
        exact absurd hfailed (hgood cdb hcdb)
      · exact hcached _

section Sample

/-- A disk whose last block address is the sentinel of READ CAPACITY (10). -/
def sampleLargeCapacity : Capacity := ⟨0xFFFFFFFF, 512⟩

def sampleDoio : Doio :=
  fun cdb => ⟨0, 0, (sampleLargeCapacity.respond (requestCdb cdb)).getD []⟩

def sampleTimedOutDoio : Doio := fun _ => ⟨ioerrSelfTest, 0, []⟩

theorem capacity_discovered_sampleDoio :
    CapacityDiscovered sampleLargeCapacity
      (UnitGeometry.fresh.ensureAll [sampleTimedOutDoio]) sampleDoio := by
  have htimedOut : sampleLargeCapacity.Conforms sampleTimedOutDoio := by
    intro cdb data _ hrc
    exact absurd hrc (show ioerrSelfTest ≠ 0 by decide)
  have hconforms : sampleLargeCapacity.Conforms sampleDoio := by
    intro cdb data hdata _ _
    simp only [sampleDoio, hdata, Option.getD_some]
  exact capacity_discovered sampleLargeCapacity (by decide) .fresh rfl
    [sampleTimedOutDoio] (by simpa using htimedOut) sampleDoio hconforms

end Sample

/-! ## Reporting the size -/

/-- `struct DriveGeometry`. -/
structure DriveGeometry where
  sectorSize : BitVec 32
  totalSectors : BitVec 32
  cylinders : BitVec 32
  cylSectors : BitVec 32
  heads : BitVec 32
  trackSectors : BitVec 32
  bufMemType : BitVec 32
  deviceType : BitVec 8
  flags : BitVec 8
  reserved : BitVec 16
deriving DecidableEq, Repr

/-- `struct DriveGeometry64`. -/
structure DriveGeometry64 where
  sectorSize : BitVec 32
  reserved1 : BitVec 32
  totalSectors : BitVec 64
  bufMemTags : BitVec 32
  deviceType : BitVec 8
  flags : BitVec 8
  reserved2 : BitVec 16
deriving DecidableEq, Repr

def DriveGeometry.zero : DriveGeometry := ⟨0, 0, 0, 0, 0, 0, 0, 0, 0, 0⟩

def DriveGeometry64.zero : DriveGeometry64 := ⟨0, 0, 0, 0, 0, 0, 0⟩

/-- What a handler leaves behind: the unit, the caller's structure, `io_Error`
and `io_Actual`. -/
structure GeometryReply (δ : Type) where
  unit : UnitGeometry
  geom : δ
  ioError : BitVec 8
  ioActual : BitVec 32
deriving DecidableEq, Repr

/-- `MEMF_PUBLIC | MEMF_LOCAL`. -/
def memfPublicLocal : BitVec 32 := 0x101

/-- The loop that halves the block count and doubles `cyl_sectors`; from 1 it
turns at most eight times. -/
def halve : ℕ → BitVec 64 → BitVec 32 → BitVec 64 × BitVec 32
  | 0, t, cylSectors => (t, cylSectors)
  | turns + 1, t, cylSectors =>
      if t &&& 1 = 0 ∧ cylSectors < 256 then
        halve turns (t >>> 1) (cylSectors <<< 1)
      else (t, cylSectors)

def fillDriveGeometry (g : UnitGeometry) : DriveGeometry :=
  let (t, cylSectors) := halve 8 g.totalBlocks 1
  let cylinders : BitVec 32 :=
    if 0xFFFFFFFF#64 < t then 0xFFFFFFFF else t.setWidth 32
  { sectorSize := g.blockSize
    totalSectors := if 0xFFFFFFFF#64 < g.totalBlocks then 0xFFFFFFFF
      else g.totalBlocks.setWidth 32
    cylinders := if cylinders = 0 then 1 else cylinders
    cylSectors := cylSectors
    heads := cylSectors
    trackSectors := 1
    bufMemType := memfPublicLocal
    deviceType := 0
    flags := 0
    reserved := 0 }

def fillDriveGeometry64 (g : UnitGeometry) : DriveGeometry64 :=
  { sectorSize := g.blockSize
    reserved1 := 0
    totalSectors := g.totalBlocks
    bufMemTags := 0
    deviceType := 0
    flags := 0
    reserved2 := 0 }

/-- The common part of the two handlers: `geom` is what is in the caller's
structure, and only a structure that is large enough is cleared. -/
def handleGetGeometry {δ : Type} (size : ℕ) (zero : δ) (fill : UnitGeometry → δ)
    (unreported : BitVec 32 → BitVec 32) (g : UnitGeometry) (geom : δ)
    (req : IOStdReq) (doio : Doio) : GeometryReply δ :=
  if req.ioLength.toNat < size then
    ⟨g, geom, BitVec.ofInt 8 ioerrBadLength, req.ioActual⟩
  else
    let (rc, unit) := g.ensure doio
    if rc ≠ 0 then ⟨unit, zero, BitVec.ofInt 8 rc, 0⟩
    else if unit.geometryValid then
      ⟨unit, fill unit, 0, BitVec.ofNat 32 size⟩
    else ⟨unit, zero, BitVec.ofInt 8 hferrBadStatus, unreported req.ioActual⟩

/-- Without a geometry, `io_Actual` stays as it was. -/
def handleTdGetGeometry (sizes : SdkSizes) (g : UnitGeometry)
    (geom : DriveGeometry) (req : IOStdReq) (doio : Doio) :
    GeometryReply DriveGeometry :=
  handleGetGeometry sizes.driveGeometry .zero fillDriveGeometry id g geom req doio

/-- Without a geometry, `io_Actual` is 0. -/
def handleNsTdGetGeometry64 (sizes : SdkSizes) (g : UnitGeometry)
    (geom : DriveGeometry64) (req : IOStdReq) (doio : Doio) :
    GeometryReply DriveGeometry64 :=
  handleGetGeometry sizes.driveGeometry64 .zero fillDriveGeometry64 (fun _ => 0)
    g geom req doio

theorem handleGetGeometry_of_valid {δ : Type} {size : ℕ} {zero geom : δ}
    {fill : UnitGeometry → δ} {unreported : BitVec 32 → BitVec 32}
    {g : UnitGeometry} {req : IOStdReq} {doio : Doio}
    (hvalid : g.geometryValid = true) (hlength : size ≤ req.ioLength.toNat) :
    handleGetGeometry size zero fill unreported g geom req doio =
      ⟨g, fill g, 0, BitVec.ofNat 32 size⟩ := by
  unfold handleGetGeometry
  rw [if_neg (Nat.not_lt.mpr hlength), (UnitGeometry.ensure_of_valid doio hvalid).1]
  simp [hvalid]

theorem handleGetGeometry_of_short {δ : Type} {size : ℕ} {zero geom : δ}
    {fill : UnitGeometry → δ} {unreported : BitVec 32 → BitVec 32}
    {g : UnitGeometry} {req : IOStdReq} {doio : Doio}
    (hshort : ¬ size ≤ req.ioLength.toNat) :
    handleGetGeometry size zero fill unreported g geom req doio =
      ⟨g, geom, BitVec.ofInt 8 ioerrBadLength, req.ioActual⟩ :=
  if_pos (Nat.lt_of_not_le hshort)

/-! ## The cylinder shape -/

theorem gcd_double (t turns : ℕ) :
    (2 * t).gcd (2 ^ (turns + 1)) = 2 * t.gcd (2 ^ turns) := by
  rw [pow_succ, Nat.mul_comm (2 ^ turns) 2]
  exact Nat.gcd_mul_left 2 t (2 ^ turns)

theorem gcd_of_odd {t : ℕ} (hodd : t % 2 = 1) (turns : ℕ) :
    t.gcd (2 ^ turns) = 1 := by
  have hcoprime : t.Coprime 2 :=
    Nat.coprime_two_right.mpr (Nat.odd_iff.mpr hodd)
  exact hcoprime.pow_right turns

theorem and_one_eq_zero_iff (t : BitVec 64) : t &&& 1 = 0 ↔ t.toNat % 2 = 0 := by
  rw [← BitVec.toNat_inj, BitVec.toNat_and]
  simp

/-- The loop takes the common power of two out of the block count.  The
induction is on the turns left; a turn is taken exactly for an even count. -/
theorem halve_spec (turns : ℕ) (t : BitVec 64) (cylSectors : BitVec 32)
    (hturns : cylSectors.toNat * 2 ^ turns = 256) :
    (halve turns t cylSectors).1.toNat = t.toNat / t.toNat.gcd (2 ^ turns) ∧
      (halve turns t cylSectors).2.toNat =
        cylSectors.toNat * t.toNat.gcd (2 ^ turns) := by
  induction turns generalizing t cylSectors with
  | zero => simp [halve]
  | succ turns ih =>
      have hsmall : cylSectors.toNat * 2 = 256 / 2 ^ turns := by
        rw [← hturns, pow_succ, Nat.mul_comm (2 ^ turns) 2, ← Nat.mul_assoc]
        exact (Nat.mul_div_cancel _ (by positivity)).symm
      have hbound : cylSectors.toNat * 2 ≤ 256 := by
        rw [hsmall]
        exact Nat.div_le_self _ _
      have hlt : cylSectors < 256 := by
        rw [BitVec.lt_def]
        simp only [BitVec.reduceToNat]
        omega
      simp only [halve, hlt, and_true]
      by_cases heven : t.toNat % 2 = 0
      · rw [if_pos ((and_one_eq_zero_iff t).mpr heven)]
        have hhalf : (t >>> 1).toNat = t.toNat / 2 := by
          rw [BitVec.toNat_ushiftRight, Nat.shiftRight_eq_div_pow]
        have hdouble : (cylSectors <<< 1).toNat = 2 * cylSectors.toNat := by
          rw [BitVec.toNat_shiftLeft, Nat.shiftLeft_eq]
          omega
        obtain ⟨hcount, hsectors⟩ := ih (t >>> 1) (cylSectors <<< 1) (by
          rw [hdouble, ← hturns, pow_succ]
          ring)
        rw [hcount, hsectors, hhalf, hdouble]
        obtain ⟨half, ht⟩ : ∃ half, t.toNat = 2 * half :=
          ⟨t.toNat / 2, by omega⟩
        rw [ht, gcd_double, Nat.mul_div_cancel_left half (by norm_num),
          Nat.mul_div_mul_left _ _ (by norm_num)]
        refine ⟨rfl, ?_⟩
        ring
      · rw [if_neg (fun hzero => heven ((and_one_eq_zero_iff t).mp hzero)),
          gcd_of_odd (by omega), Nat.div_one, Nat.mul_one]
        exact ⟨rfl, rfl⟩

/-- What the two replies have to say about a unit with a cached size. -/
structure EncodesSize (g : UnitGeometry) (r : GeometryReply DriveGeometry)
    (r64 : GeometryReply DriveGeometry64) : Prop where
  answered : r.ioError = 0 ∧ r64.ioError = 0
  powerOfTwo : ∃ k ≤ 8, r.geom.cylSectors.toNat = 2 ^ k
  divides : r.geom.cylSectors.toNat ∣ g.totalBlocks.toNat
  shape : r.geom.heads.toNat * r.geom.trackSectors.toNat =
    r.geom.cylSectors.toNat
  cylinders : r.geom.cylinders.toNat * r.geom.cylSectors.toNat =
    g.totalBlocks.toNat
  totalSectors : r.geom.totalSectors.toNat =
    min g.totalBlocks.toNat (2 ^ 32 - 1)
  sectorSize : r.geom.sectorSize = r64.geom.sectorSize
  blocks : r64.geom.totalSectors = g.totalBlocks

theorem clamp_toNat (t : BitVec 64) :
    (if 0xFFFFFFFF#64 < t then (0xFFFFFFFF : BitVec 32)
      else t.setWidth 32).toNat = min t.toNat (2 ^ 32 - 1) := by
  by_cases hlarge : 0xFFFFFFFF#64 < t
  · rw [if_pos hlarge]
    rw [BitVec.lt_def] at hlarge
    simp only [BitVec.reduceToNat] at hlarge ⊢
    omega
  · rw [if_neg hlarge, BitVec.toNat_setWidth]
    rw [BitVec.lt_def] at hlarge
    simp only [BitVec.reduceToNat] at hlarge
    omega

theorem fillDriveGeometry_cylSectors (g : UnitGeometry) :
    (fillDriveGeometry g).cylSectors.toNat = g.totalBlocks.toNat.gcd 256 := by
  obtain ⟨-, hsectors⟩ := halve_spec 8 g.totalBlocks 1 (by decide)
  unfold fillDriveGeometry
  dsimp only
  rw [hsectors]
  simp

theorem fillDriveGeometry_cylinders {g : UnitGeometry}
    (hpos : 1 ≤ g.totalBlocks.toNat) :
    (fillDriveGeometry g).cylinders.toNat =
      min (g.totalBlocks.toNat / g.totalBlocks.toNat.gcd 256) (2 ^ 32 - 1) := by
  obtain ⟨hcount, -⟩ := halve_spec 8 g.totalBlocks 1 (by decide)
  have hquotient : 0 < g.totalBlocks.toNat / g.totalBlocks.toNat.gcd 256 :=
    Nat.div_pos (Nat.le_of_dvd hpos (Nat.gcd_dvd_left _ _))
      (Nat.gcd_pos_of_pos_left _ hpos)
  have hclamped := clamp_toNat (halve 8 g.totalBlocks 1).1
  rw [hcount] at hclamped
  unfold fillDriveGeometry
  dsimp only
  rw [if_neg]
  · exact hclamped
  · intro hzero
    have hnat : min (g.totalBlocks.toNat / g.totalBlocks.toNat.gcd 256)
        (2 ^ 32 - 1) = 0 := by
      rw [hzero] at hclamped
      exact hclamped.symm
    omega

/-- TD_GETGEOMETRY encodes the size exactly if and only if the cylinder count
fits its 32 bits. -/
theorem encodesSize_iff (sizes : SdkSizes) (g : UnitGeometry)
    (hvalid : g.geometryValid = true) (hpos : 1 ≤ g.totalBlocks.toNat)
    (geom : DriveGeometry) (geom64 : DriveGeometry64) (req req64 : IOStdReq)
    (hlength : sizes.driveGeometry ≤ req.ioLength.toNat)
    (hlength64 : sizes.driveGeometry64 ≤ req64.ioLength.toNat)
    (doio doio64 : Doio) :
    EncodesSize g (handleTdGetGeometry sizes g geom req doio)
        (handleNsTdGetGeometry64 sizes g geom64 req64 doio64) ↔
      g.totalBlocks.toNat / g.totalBlocks.toNat.gcd 256 < 2 ^ 32 := by
  unfold handleTdGetGeometry handleNsTdGetGeometry64
  rw [handleGetGeometry_of_valid hvalid hlength,
    handleGetGeometry_of_valid hvalid hlength64]
  have hsectors := fillDriveGeometry_cylSectors g
  have hcylinders := fillDriveGeometry_cylinders hpos
  have hdvd : g.totalBlocks.toNat.gcd 256 ∣ g.totalBlocks.toNat :=
    Nat.gcd_dvd_left _ _
  have hgcd : 0 < g.totalBlocks.toNat.gcd 256 := Nat.gcd_pos_of_pos_left _ hpos
  constructor
  · intro hencodes
    have hexact := hencodes.cylinders
    dsimp only at hexact
    rw [hsectors, hcylinders] at hexact
    have hfits : min (g.totalBlocks.toNat / g.totalBlocks.toNat.gcd 256)
        (2 ^ 32 - 1) = g.totalBlocks.toNat / g.totalBlocks.toNat.gcd 256 :=
      Nat.eq_div_of_mul_eq_left hgcd.ne' hexact
    have hle := min_eq_left_iff.mp hfits
    omega
  · intro hfits
    constructor
    · exact ⟨rfl, rfl⟩
    · rw [hsectors]
      have hright : g.totalBlocks.toNat.gcd 256 ∣ 2 ^ 8 :=
        Nat.gcd_dvd_right _ _
      exact (Nat.dvd_prime_pow Nat.prime_two).mp hright
    · rw [hsectors]
      exact hdvd
    · exact Nat.mul_one _
    · rw [hsectors, hcylinders, min_eq_left (by omega)]
      exact Nat.div_mul_cancel hdvd
    · exact clamp_toNat g.totalBlocks
    · rfl
    · rfl

section Sample

/-- 4 TiB in blocks of 512 bytes. -/
def sampleFourTebibytes : UnitGeometry := ⟨0x200000000, 512, true⟩

/-- One block more than 2 TiB. -/
def sampleOddGeometry : UnitGeometry := ⟨0x100000001, 512, true⟩

def sampleSizeRequest (command : IoCommand) (length : BitVec 32) : IOStdReq :=
  ⟨command, 0, 0, length, 4096⟩

theorem encodesSize_iff_sampleFourTebibytes :
    EncodesSize sampleFourTebibytes
        (handleTdGetGeometry ⟨32, 40⟩ sampleFourTebibytes .zero
          (sampleSizeRequest .tdGetGeometry 32) sampleDoio)
        (handleNsTdGetGeometry64 ⟨32, 40⟩ sampleFourTebibytes .zero
          (sampleSizeRequest .nscmdTdGetGeometry64 40) sampleDoio) ↔
      sampleFourTebibytes.totalBlocks.toNat /
        sampleFourTebibytes.totalBlocks.toNat.gcd 256 < 2 ^ 32 :=
  encodesSize_iff ⟨32, 40⟩ sampleFourTebibytes rfl (by decide) .zero .zero _ _
    (by decide) (by decide) sampleDoio sampleDoio

/-- The reply describes a disk that is two blocks smaller. -/
theorem encodesSize_fails_sampleOddGeometry :
    ¬ EncodesSize sampleOddGeometry
      (handleTdGetGeometry ⟨32, 40⟩ sampleOddGeometry .zero
        (sampleSizeRequest .tdGetGeometry 32) sampleDoio)
      (handleNsTdGetGeometry64 ⟨32, 40⟩ sampleOddGeometry .zero
        (sampleSizeRequest .nscmdTdGetGeometry64 40) sampleDoio) := by
  intro hencodes
  have hexact := hencodes.cylinders
  have hreply : (handleTdGetGeometry ⟨32, 40⟩ sampleOddGeometry .zero
      (sampleSizeRequest .tdGetGeometry 32) sampleDoio).geom.cylinders =
        0xFFFFFFFF ∧
      (handleTdGetGeometry ⟨32, 40⟩ sampleOddGeometry .zero
        (sampleSizeRequest .tdGetGeometry 32) sampleDoio).geom.cylSectors =
        1 := by
    decide
  rw [hreply.1, hreply.2] at hexact
  exact absurd hexact (by decide)

end Sample

end VirtioScsi
