import VirtioScsi.RigidDiskBlock

/-!
# Cylinder counts

`Handle_TD_GetNumTracks` takes the cylinder count from block 0 or, without a
rigid disk block, from the block count; `Handle_TD_GetGeometry` makes one up
from the block count.  Both commands are followed over runs in which they come
in any order, with whatever the disk holds each time.
-/

namespace VirtioScsi

open ReadTrace

/-! ## TD_GETNUMTRACKS -/

structure TracksReply where
  unit : RdbUnit
  ioError : BitVec 8
  ioActual : BitVec 32
deriving DecidableEq, Repr

/-- heads=1 x spt=1 -> cyl == LBA. -/
def linearCylinders (g : UnitGeometry) : BitVec 32 :=
  let cylinders : BitVec 32 :=
    if 0xFFFFFFFF#64 < g.totalBlocks then 0xFFFFFFFF
      else g.totalBlocks.setWidth 32
  if cylinders = 0 then 1 else cylinders

def handleTdGetNumTracks (u : RdbUnit) (env : RdbEnv) :
    RdbReading TracksReply :=
  let u := if u.geometry.geometryValid then u
    else { u with geometry := (u.geometry.ensure env.capacity).2 }
  if u.geometry.geometryValid then do
    let probed ← ensureRdbGeometryCached u env
    let cylinders := if probed.2.rdbGeometryValid then probed.2.rdbPhysCyls
      else linearCylinders probed.2.geometry
    pure ⟨probed.2, 0, cylinders⟩
  else pure ⟨u, 0, 32768⟩

theorem handleTdGetNumTracks_geometry (u : RdbUnit) (env : RdbEnv)
    (req : IOStdReq) :
    (handleTdGetNumTracks u env).value.unit.geometry =
      (UnitCommand.getNumTracks u.geometry ⟨req, env.capacity readCapacity10Cdb,
        env.capacity makeReadCapacity16Cdb⟩).2 := by
  have hprobe : ∀ v : RdbUnit, v.geometry.geometryValid = true →
      (ensureRdbGeometryCached v env).value.2.geometry = v.geometry := by
    intro v hvalid
    rw [ensureRdb_unit]
    unfold RdbUnit.discover
    rw [if_pos hvalid]
    dsimp only
    split_ifs <;> rfl
  unfold handleTdGetNumTracks UnitCommand.getNumTracks
  dsimp only
  by_cases hvalid : u.geometry.geometryValid = true
  · simp only [hvalid, if_true]
    exact hprobe u hvalid
  · simp only [hvalid, if_false, Bool.false_eq_true]
    split_ifs with hfound
    · exact hprobe _ hfound
    · rfl

section

variable {u : RdbUnit} {env : RdbEnv}

theorem handleTdGetNumTracks_of_valid (hvalid : u.geometry.geometryValid = true) :
    (handleTdGetNumTracks u env).value.ioActual =
      if env.Accepts u.geometry then (chsAt env.block0.mem).cyls
      else linearCylinders u.geometry := by
  have hdiscover : u.discover env = (0, u.geometry) := by
    rw [RdbUnit.discover, if_pos hvalid]
  have hunit := @ensureRdb_unit u env
  rw [hdiscover] at hunit
  dsimp only at hunit
  unfold handleTdGetNumTracks
  simp only [hvalid, if_true, value_bind, value_pure]
  rw [hunit]
  by_cases haccepts : env.Accepts u.geometry
  · simp only [haccepts, and_self, if_true]
    exact RdbEnv.reported_cyls
  · simp only [haccepts, and_false, if_false]
    rfl

end

/-! ## The two counts -/

theorem max_one_toNat (w : BitVec 32) :
    (if w = 0 then (1 : BitVec 32) else w).toNat = max 1 w.toNat := by
  by_cases hzero : w = 0
  · rw [if_pos hzero, hzero]
    rfl
  · have hpos : w.toNat ≠ 0 := fun h => hzero (BitVec.eq_of_toNat_eq h)
    rw [if_neg hzero]
    omega

theorem linearCylinders_toNat (g : UnitGeometry) :
    (linearCylinders g).toNat = max 1 (min g.totalBlocks.toNat (2 ^ 32 - 1)) := by
  unfold linearCylinders
  rw [max_one_toNat, clamp_toNat]

theorem shapeCylinders_toNat (g : UnitGeometry) :
    (fillDriveGeometry g).cylinders.toNat =
      max 1 (min (g.totalBlocks.toNat / g.totalBlocks.toNat.gcd 256)
        (2 ^ 32 - 1)) := by
  obtain ⟨hcount, -⟩ := halve_spec 8 g.totalBlocks 1 (by decide)
  unfold fillDriveGeometry
  dsimp only
  rw [max_one_toNat, clamp_toNat, hcount]
  rfl

theorem clamped_eq_halved_iff (t bound : ℕ) (hbound : 1 ≤ bound) :
    max 1 (min t bound) = max 1 (min (t / t.gcd 256) bound) ↔
      t = 0 ∨ t % 2 = 1 ∨ bound ≤ t / t.gcd 256 := by
  rcases Nat.eq_zero_or_pos t with rfl | hpos
  · simp
  have hdvd : t.gcd 256 ∣ t := Nat.gcd_dvd_left t 256
  have hquotient : 1 ≤ t / t.gcd 256 :=
    Nat.div_pos (Nat.le_of_dvd hpos hdvd) (Nat.gcd_pos_of_pos_left _ hpos)
  by_cases hodd : t % 2 = 1
  · have hone : t.gcd 256 = 1 := gcd_of_odd hodd 8
    simp only [hone, Nat.div_one, hodd, true_or, or_true]
  · have htwo : 2 ∣ t.gcd 256 :=
      Nat.dvd_gcd (Nat.dvd_of_mod_eq_zero (by omega)) (by norm_num)
    have hhalf : t / t.gcd 256 ≤ t / 2 :=
      Nat.div_le_div_left (Nat.le_of_dvd (Nat.gcd_pos_of_pos_left _ hpos) htwo)
        (by norm_num)
    omega

/-- What the disk holds makes both handlers report one cylinder count. -/
def CylindersMatch (g : UnitGeometry) (env : RdbEnv) : Prop :=
  if env.Accepts g then
    (chsAt env.block0.mem).cyls.toNat =
      max 1 (min (g.totalBlocks.toNat / g.totalBlocks.toNat.gcd 256) (2 ^ 32 - 1))
  else
    g.totalBlocks.toNat = 0 ∨ g.totalBlocks.toNat % 2 = 1 ∨
      2 ^ 32 - 1 ≤ g.totalBlocks.toNat / g.totalBlocks.toNat.gcd 256

theorem numTracks_eq_cylinders_iff {u : RdbUnit} {env : RdbEnv}
    (hvalid : u.geometry.geometryValid = true) :
    (handleTdGetNumTracks u env).value.ioActual =
        (fillDriveGeometry u.geometry).cylinders ↔
      CylindersMatch u.geometry env := by
  rw [handleTdGetNumTracks_of_valid hvalid, ← BitVec.toNat_inj,
    shapeCylinders_toNat]
  unfold CylindersMatch
  by_cases haccepts : env.Accepts u.geometry
  · rw [if_pos haccepts, if_pos haccepts]
  · rw [if_neg haccepts, if_neg haccepts, linearCylinders_toNat]
    exact clamped_eq_halved_iff _ _ (by norm_num)

/-! ## Runs of the two commands -/

inductive ShapeCommand where
  | numTracks (env : RdbEnv)
  | getGeometry (req : IOStdReq) (geom : DriveGeometry) (doio : Doio)

inductive ShapeReply where
  | tracks (reply : TracksReply)
  | geometry (reply : GeometryReply DriveGeometry)

namespace ShapeCommand

variable {sizes : SdkSizes} {u v : RdbUnit}

def reply (sizes : SdkSizes) (u : RdbUnit) : ShapeCommand → ShapeReply
  | numTracks env => .tracks (handleTdGetNumTracks u env).value
  | getGeometry req geom doio =>
      .geometry (handleTdGetGeometry sizes u.geometry geom req doio)

def after (sizes : SdkSizes) (u : RdbUnit) (c : ShapeCommand) : RdbUnit :=
  match c.reply sizes u with
  | .tracks r => r.unit
  | .geometry r => { u with geometry := r.unit }

def tracksOf : ShapeReply → Option (BitVec 32)
  | .tracks r => some r.ioActual
  | .geometry _ => none

/-- The count reported in `dg_Cylinders`, if the command succeeded. -/
def cylindersOf : ShapeReply → Option (BitVec 32)
  | .tracks _ => none
  | .geometry r => if r.ioError = 0 then some r.geom.cylinders else none

/-- The caller's structure is large enough to be filled. -/
def Fills (sizes : SdkSizes) : ShapeCommand → Prop
  | numTracks _ => False
  | getGeometry req _ _ => sizes.driveGeometry ≤ req.ioLength.toNat

theorem after_geometry (sizes : SdkSizes) (c : ShapeCommand)
    (hvalid : u.geometry.geometryValid = true) :
    (c.after sizes u).geometry = u.geometry := by
  cases c with
  | numTracks env =>
      have hkept := handleTdGetNumTracks_geometry u env ⟨.tdGetNumTracks, 0, 0, 0, 0⟩
      unfold UnitCommand.getNumTracks at hkept
      rw [if_pos hvalid] at hkept
      exact hkept
  | getGeometry req geom doio =>
      show (handleTdGetGeometry sizes u.geometry geom req doio).unit = u.geometry
      unfold handleTdGetGeometry
      by_cases hlength : sizes.driveGeometry ≤ req.ioLength.toNat
      · rw [handleGetGeometry_of_valid hvalid hlength]
      · rw [handleGetGeometry_of_short hlength]

theorem cylindersOf_getGeometry {req : IOStdReq} {geom : DriveGeometry}
    {doio : Doio} (hvalid : u.geometry.geometryValid = true) :
    cylindersOf ((getGeometry req geom doio).reply sizes u) =
      if sizes.driveGeometry ≤ req.ioLength.toNat then
        some (fillDriveGeometry u.geometry).cylinders else none := by
  unfold reply cylindersOf handleTdGetGeometry
  dsimp only
  by_cases hlength : sizes.driveGeometry ≤ req.ioLength.toNat
  · rw [handleGetGeometry_of_valid hvalid hlength, if_pos hlength]
    rfl
  · rw [handleGetGeometry_of_short hlength, if_neg hlength]
    rfl

def replies (sizes : SdkSizes) : RdbUnit → List ShapeCommand → List ShapeReply
  | _, [] => []
  | u, c :: commands => c.reply sizes u :: replies sizes (c.after sizes u) commands

/-- Every count reported in `dg_Cylinders` is the one made up from the block
count.  The induction carries the cached size along the run. -/
theorem mem_cylinders_iff {commands : List ShapeCommand} {n : BitVec 32}
    (hvalid : u.geometry.geometryValid = true) :
    n ∈ (replies sizes u commands).filterMap cylindersOf ↔
      (∃ c ∈ commands, c.Fills sizes) ∧ n = (fillDriveGeometry u.geometry).cylinders := by
  induction commands generalizing u with
  | nil => simp [replies]
  | cons c commands ih =>
      have hkept := after_geometry sizes c hvalid
      have hrest := ih (u := c.after sizes u) (by rw [hkept]; exact hvalid)
      rw [hkept] at hrest
      simp only [List.mem_filterMap] at hrest ⊢
      simp only [replies, List.mem_cons, exists_eq_or_imp, hrest]
      cases c with
      | numTracks env => simp [reply, cylindersOf, Fills]
      | getGeometry req geom doio =>
          rw [cylindersOf_getGeometry hvalid]
          by_cases hlength : sizes.driveGeometry ≤ req.ioLength.toNat
          · simp [Fills, hlength, eq_comm]
          · simp [Fills, hlength]

/-- The counts TD_GETNUMTRACKS reports: those of the RDB where it is accepted, else
those of the linear shape. -/
theorem mem_tracks_iff {commands : List ShapeCommand} {n : BitVec 32}
    (hvalid : u.geometry.geometryValid = true) :
    n ∈ (replies sizes u commands).filterMap tracksOf ↔
      ∃ env, numTracks env ∈ commands ∧
        n = (if env.Accepts u.geometry then (chsAt env.block0.mem).cyls
          else linearCylinders u.geometry) := by
  induction commands generalizing u with
  | nil => simp [replies]
  | cons c commands ih =>
      have hkept := after_geometry sizes c hvalid
      have hrest := ih (u := c.after sizes u) (by rw [hkept]; exact hvalid)
      rw [hkept] at hrest
      simp only [List.mem_filterMap] at hrest ⊢
      simp only [replies, List.mem_cons, exists_eq_or_imp, hrest]
      cases c with
      | numTracks env =>
          simp [reply, tracksOf, handleTdGetNumTracks_of_valid hvalid,
            or_and_right, exists_or, eq_comm]
      | getGeometry req geom doio => simp [reply, tracksOf]

end ShapeCommand

def SameCylinders (replies : List ShapeReply) : Prop :=
  ∀ tracks ∈ replies.filterMap ShapeCommand.tracksOf,
    ∀ cylinders ∈ replies.filterMap ShapeCommand.cylindersOf, tracks = cylinders

instance (replies : List ShapeReply) : Decidable (SameCylinders replies) :=
  inferInstanceAs (Decidable (∀ tracks ∈ _, ∀ cylinders ∈ _, tracks = cylinders))

/-- In whatever order the two commands come on a unit whose capacity is known,
they report one cylinder count exactly if, as far as the shape is asked for,
what each TD_GETNUMTRACKS finds on the disk matches. -/
theorem sameCylinders_iff (sizes : SdkSizes) (u : RdbUnit)
    (hvalid : u.geometry.geometryValid = true) (commands : List ShapeCommand) :
    SameCylinders (ShapeCommand.replies sizes u commands) ↔
      ((∃ c ∈ commands, c.Fills sizes) →
        ∀ env, ShapeCommand.numTracks env ∈ commands →
          CylindersMatch u.geometry env) := by
  unfold SameCylinders
  constructor
  · intro hsame hfills env henv
    rw [← numTracks_eq_cylinders_iff hvalid]
    apply hsame
    · rw [ShapeCommand.mem_tracks_iff hvalid]
      exact ⟨env, henv, handleTdGetNumTracks_of_valid hvalid⟩
    · rw [ShapeCommand.mem_cylinders_iff hvalid]
      exact ⟨hfills, rfl⟩
  · intro hmatch tracks htracks cylinders hcylinders
    rw [ShapeCommand.mem_tracks_iff hvalid] at htracks
    rw [ShapeCommand.mem_cylinders_iff hvalid] at hcylinders
    obtain ⟨env, henv, htracks⟩ := htracks
    rw [htracks, hcylinders.2, ← handleTdGetNumTracks_of_valid hvalid]
    exact (numTracks_eq_cylinders_iff hvalid).mpr (hmatch hcylinders.1 env henv)

section Sample

/-- Both commands, in both orders, on a disk without a rigid disk block. -/
def sampleShapeCommands : List ShapeCommand :=
  [.numTracks (sampleRdbEnv []),
    .getGeometry (sampleSizeRequest .tdGetGeometry 32) .zero sampleDoio,
    .numTracks (sampleRdbEnv [])]

theorem sameCylinders_iff_sampleShapeCommands :
    SameCylinders (ShapeCommand.replies ⟨32, 40⟩ (sampleRdbUnit 512)
        sampleShapeCommands) ↔
      ((∃ c ∈ sampleShapeCommands, c.Fills ⟨32, 40⟩) →
        ∀ env, ShapeCommand.numTracks env ∈ sampleShapeCommands →
          CylindersMatch (sampleRdbUnit 512).geometry env) :=
  sameCylinders_iff ⟨32, 40⟩ (sampleRdbUnit 512) rfl sampleShapeCommands

/-- 4096 tracks, but 16 cylinders of 256 blocks. -/
theorem sameCylinders_fails_sampleShapeCommands :
    ¬ SameCylinders (ShapeCommand.replies ⟨32, 40⟩ (sampleRdbUnit 512)
      sampleShapeCommands) := by
  have hvalid : (sampleRdbUnit 512).geometry.geometryValid = true := rfl
  have hblank : ¬ (sampleRdbEnv []).Accepts (sampleRdbUnit 512).geometry :=
    fun haccepts => absurd haccepts.2.1 (by decide)
  have hcounts : linearCylinders (sampleRdbUnit 512).geometry = 4096 ∧
      (fillDriveGeometry (sampleRdbUnit 512).geometry).cylinders = 16 := by
    decide
  intro hsame
  have heq := hsame 4096
    ((ShapeCommand.mem_tracks_iff hvalid).mpr ⟨sampleRdbEnv [], .head _, by
      rw [if_neg hblank, hcounts.1]⟩)
    16 ((ShapeCommand.mem_cylinders_iff hvalid).mpr
      ⟨⟨_, .tail _ (.head _), Nat.le_refl 32⟩, hcounts.2.symm⟩)
  exact absurd heq (by decide)

end Sample

end VirtioScsi
