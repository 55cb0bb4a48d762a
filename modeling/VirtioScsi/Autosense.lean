import VirtioScsi.ScsiBuffers

/-!
# Sense data of SCSI direct commands

A command that ends in CHECK CONDITION should come back with sense data if the
caller asked for them.  Only an unknown opcode and an unknown VPD page fill the
caller's sense buffer; the sense data of the device are never passed on.
-/

namespace VirtioScsi

theorem good_ne_checkCondition : (0 : BitVec 8) ≠ checkCondition := by decide

namespace ScsiRun

variable {u : ScsiUnit} {cdb : ℕ → BitVec 8} {r : ScsiRun}

/-- The sense buffer after a run, from what it held before. -/
def senseAfter (r : ScsiRun) (sense : ℕ → BitVec 8) : ℕ → BitVec 8 :=
  CellMemory.write sense (r.senseStores.map Prod.fst) (r.senseStores.map Prod.snd)

/-- ILLEGAL REQUEST with an additional sense code, in fixed format. -/
structure FixedSense (asc : BitVec 8) (sense : ℕ → BitVec 8) : Prop where
  format : sense 0 = 0x70
  senseKey : sense 2 = illegalRequest
  length : sense 7 = 10
  asc : sense 12 = asc
  ascq : sense 13 = 0

/-- The buffer tells what went wrong: what the device said about a command it
got, or ILLEGAL REQUEST. -/
def Describes (u : ScsiUnit) (asc : BitVec 8) (r : ScsiRun) (sense : ℕ → BitVec 8) :
    Prop :=
  match r.sent with
  | some (header, _) => ∀ i < r.cmd.senseActual.toNat, sense i = u.sense header i
  | none => FixedSense asc sense

/-- `wants` is the wish of the caller. -/
structure Honours (u : ScsiUnit) (asc : BitVec 8) (sense : ℕ → BitVec 8) (wants : Prop)
    (r : ScsiRun) : Prop where
  given : r.cmd.status = checkCondition → wants →
    18 ≤ r.cmd.senseActual.toNat ∧ r.Describes u asc (r.senseAfter sense)
  withheld : ¬ (r.cmd.status = checkCondition ∧ wants) →
    r.senseStores = [] ∧ r.cmd.senseActual = 0

def NoSense (r : ScsiRun) : Prop := r.senseStores = [] ∧ r.cmd.senseActual = 0

section

variable {asc : BitVec 8} {sense : ℕ → BitVec 8} {wants : Prop}

theorem honours_iff_of_noSense (h : r.NoSense) :
    r.Honours u asc sense wants ↔ (wants → r.cmd.status ≠ checkCondition) := by
  constructor
  · intro hhonours hwants hcheck
    have hlength := (hhonours.given hcheck hwants).1
    rw [h.2] at hlength
    exact absurd hlength (by decide)
  · intro hgood
    constructor
    · intro hcheck hwants
      exact absurd hcheck (hgood hwants)
    · intro _
      exact h

theorem senseAfter_fixedSense (sense : ℕ → BitVec 8) (senseKey asc : BitVec 8)
    (h : r.senseStores = []) :
    (r.storeSense senseKey asc 0).senseAfter sense 0 = 0x70 ∧
      (r.storeSense senseKey asc 0).senseAfter sense 2 = senseKey ∧
      (r.storeSense senseKey asc 0).senseAfter sense 7 = 10 ∧
      (r.storeSense senseKey asc 0).senseAfter sense 12 = asc ∧
      (r.storeSense senseKey asc 0).senseAfter sense 13 = 0 := by
  unfold senseAfter storeSense
  dsimp only
  rw [h]
  exact ⟨rfl, rfl, rfl, rfl, rfl⟩

theorem honours_fill (u : ScsiUnit) (asc : BitVec 8) (sense : ℕ → BitVec 8)
    (hnone : r.NoSense) (hsent : r.sent = none) (hcheck : r.cmd.status = checkCondition) :
    (if r.cmd.WantsSense then r.storeSense illegalRequest asc 0 else r).Honours u asc
      sense r.cmd.WantsSense := by
  by_cases hwants : r.cmd.WantsSense
  · rw [if_pos hwants]
    have hlength : (r.storeSense illegalRequest asc 0).cmd.senseActual.toNat = 18 := rfl
    have hsent' : (r.storeSense illegalRequest asc 0).sent = none := hsent
    obtain ⟨hformat, hkey, hadditional, hasc, hascq⟩ :=
      senseAfter_fixedSense sense illegalRequest asc hnone.1
    constructor
    · intro _ _
      constructor
      · rw [hlength]
      · unfold Describes
        rw [hsent']
        exact ⟨hformat, hkey, hadditional, hasc, hascq⟩
    · intro hwithheld
      exact absurd ⟨hcheck, hwants⟩ hwithheld
  · rw [if_neg hwants, honours_iff_of_noSense hnone]
    intro h
    exact absurd h hwants

end

/-! ## How the handlers end -/

def transferStatus (u : ScsiUnit) (cdb : ℕ → BitVec 8) (isWrite : Bool) (r : ScsiRun) :
    BitVec 8 :=
  let call : DoioCall := ⟨u.buf, some u.bufs, r.cmd.data, r.cmd.length, isWrite⟩
  (call.told (u.doio (r.headerCdb cdb))).status

theorem transfer_noSense (u : ScsiUnit) (cdb : ℕ → BitVec 8) (isWrite : Bool)
    (h : r.NoSense) :
    (r.transfer u cdb isWrite).NoSense ∧
      (r.transfer u cdb isWrite).cmd.status = r.transferStatus u cdb isWrite := by
  unfold transfer
  rw [passThrough_eq]
  exact ⟨h, rfl⟩

theorem testUnitReady_noSense (h : r.NoSense) :
    (r.handleScsiTestUnitReady u cdb).NoSense ∧
      (r.handleScsiTestUnitReady u cdb).cmd.status =
        (DoioCall.told ⟨u.buf, some u.bufs, 0, 0, false⟩
          (u.doio (r.headerCdb cdb))).status := by
  unfold handleScsiTestUnitReady
  rw [passThrough_eq]
  exact ⟨h, rfl⟩

theorem readCapacity10_noSense (h : r.NoSense) :
    (r.handleScsiReadCapacity10 u cdb).NoSense ∧
      ((r.handleScsiReadCapacity10 u cdb).cmd.status = checkCondition ↔
        r.cmd.length.toNat < 8 ∨ r.transferStatus u cdb false = checkCondition) := by
  unfold handleScsiReadCapacity10
  by_cases hshort : r.cmd.length.toNat < 8
  · rw [if_pos hshort]
    exact ⟨h, iff_of_true rfl (.inl hshort)⟩
  · obtain ⟨hnone, hstatus⟩ := transfer_noSense u cdb false h
    rw [if_neg hshort, hstatus, or_iff_right hshort]
    exact ⟨hnone, Iff.rfl⟩

def IllegalPage (u : ScsiUnit) (cdb : ℕ → BitVec 8) (r : ScsiRun) : Prop :=
  5 ≤ r.cmd.length.toNat ∧ r.evpd cdb = true ∧
    vpdPageOf u.targetId (r.pageCode cdb) = none

/-- INQUIRY without room for the answer, or refused by the device. -/
def InquiryFails (u : ScsiUnit) (cdb : ℕ → BitVec 8) (r : ScsiRun) : Prop :=
  r.cmd.length.toNat < 5 ∨
    (if r.evpd cdb = false then r.transferStatus u cdb false = checkCondition
    else ∃ page, vpdPageOf u.targetId (r.pageCode cdb) = some page ∧
      (r.cmd.length.toNat < 3 + page.length ∨ r.cmd.data = 0))

theorem inquiry_noSense (h : r.NoSense) (hpage : ¬ r.IllegalPage u cdb) :
    (r.handleScsiInquiry u cdb).NoSense ∧
      ((r.handleScsiInquiry u cdb).cmd.status = checkCondition ↔
        r.InquiryFails u cdb) := by
  unfold handleScsiInquiry InquiryFails
  by_cases hshort : r.cmd.length.toNat < 5
  · rw [if_pos hshort]
    exact ⟨h, iff_of_true rfl (.inl hshort)⟩
  rw [if_neg hshort, or_iff_right hshort]
  by_cases hevpd : r.evpd cdb = false
  · obtain ⟨hnone, hstatus⟩ := transfer_noSense u cdb false h
    rw [if_pos hevpd, if_pos hevpd, hstatus]
    exact ⟨hnone, Iff.rfl⟩
  rw [if_neg hevpd, if_neg hevpd]
  cases hfound : vpdPageOf u.targetId (r.pageCode cdb) with
  | none =>
      exact absurd ⟨Nat.le_of_not_lt hshort, Bool.eq_true_of_not_eq_false hevpd, hfound⟩ hpage
  | some page =>
      dsimp only
      rw [vpdPage_eq]
      by_cases hroom : r.cmd.length.toNat < 3 + page.length ∨ r.cmd.data = 0
      · rw [if_pos hroom]
        exact ⟨h, iff_of_true rfl ⟨page, rfl, hroom⟩⟩
      · rw [if_neg hroom]
        refine ⟨h, iff_of_false good_ne_checkCondition ?_⟩
        rintro ⟨page', hpage', hroom'⟩
        cases hpage'
        exact hroom hroom'

theorem inquiry_honours {sense : ℕ → BitVec 8} (h : r.NoSense) (hsent : r.sent = none)
    (hpage : r.IllegalPage u cdb) :
    (r.handleScsiInquiry u cdb).Honours u 0x24 sense r.cmd.WantsSense := by
  obtain ⟨hlength, hevpd, hnone⟩ := hpage
  unfold handleScsiInquiry vpdIllegalPage
  rw [if_neg (Nat.not_lt.mpr hlength), hevpd, if_neg (Bool.true_eq_false ▸ not_false), hnone]
  have hfill := honours_fill u 0x24 sense
    (r := ((r.setStatus checkCondition).setActual 0).setIoActual 0) h hsent rfl
  exact ⟨hfill.given, hfill.withheld⟩

theorem logSense_noSense (h : r.NoSense) (hstatus : r.cmd.status = 0) :
    (r.handleScsiLogSense cdb).NoSense ∧
      ((r.handleScsiLogSense cdb).cmd.status = checkCondition ↔
        r.cmd.data ≠ 0 ∧ (allocationLength cdb).toNat ≠ 0 ∧
          logPageOf (logPageCode cdb) = none) := by
  have hgood : r.cmd.status ≠ checkCondition := hstatus ▸ good_ne_checkCondition
  rw [handleScsiLogSense_eq hstatus]
  by_cases hnone : r.cmd.data = 0 ∨ (allocationLength cdb).toNat = 0
  · rw [if_pos hnone]
    refine ⟨h, iff_of_false hgood ?_⟩
    rintro ⟨hdata, halloc, -⟩
    exact hnone.elim hdata halloc
  rw [if_neg hnone]
  obtain ⟨hdata, halloc⟩ := not_or.mp hnone
  cases hpage : logPageOf (logPageCode cdb) with
  | none => exact ⟨h, iff_of_true rfl ⟨hdata, halloc, rfl⟩⟩
  | some page =>
      refine ⟨h, iff_of_false hgood ?_⟩
      rintro ⟨-, -, hsome⟩
      cases hsome

theorem ataPassthrough_noSense (h : r.NoSense) :
    (r.handleScsiAtaPassthrough cdb).NoSense ∧
      ((r.handleScsiAtaPassthrough cdb).cmd.status = checkCondition ↔
        ataCommand cdb ≠ 0xB0 ∨ r.cmd.data = 0 ∨ r.cmd.length.toNat < 512) := by
  unfold handleScsiAtaPassthrough
  by_cases hcommand : ataCommand cdb ≠ 0xB0
  · rw [if_pos hcommand]
    exact ⟨h, iff_of_true rfl (.inl hcommand)⟩
  rw [if_neg hcommand, or_iff_right hcommand]
  by_cases hroom : r.cmd.data = 0 ∨ r.cmd.length.toNat < 512
  · rw [if_pos hroom]
    exact ⟨h, iff_of_true rfl hroom⟩
  · rw [if_neg hroom]
    exact ⟨h, iff_of_false good_ne_checkCondition hroom⟩

end ScsiRun

/-! ## Every command -/

namespace ScsiRequest

/-- The additional sense code of a local error. -/
def asc (q : ScsiRequest) : BitVec 8 :=
  if q.opcode = .unsupported then 0x20 else 0x24

def Unexplained (q : ScsiRequest) (u : ScsiUnit) : Prop :=
  match q.opcode with
  | .testUnitReady =>
      (DoioCall.told ⟨u.buf, some u.bufs, 0, 0, false⟩
        (u.doio (q.begin.headerCdb q.cdb))).status = checkCondition
  | .inquiry => ¬ q.begin.IllegalPage u q.cdb ∧ q.begin.InquiryFails u q.cdb
  | .readCapacity10 => q.cmd.length.toNat < 8 ∨
      q.begin.transferStatus u q.cdb false = checkCondition
  | .read10 => q.begin.transferStatus u q.cdb false = checkCondition
  | .write10 => q.begin.transferStatus u q.cdb true = checkCondition
  | .logSense => q.cmd.data ≠ 0 ∧ (ScsiRun.allocationLength q.cdb).toNat ≠ 0 ∧
      ScsiRun.logPageOf (ScsiRun.logPageCode q.cdb) = none
  | .ataPassthrough => ScsiRun.ataCommand q.cdb ≠ 0xB0 ∨ q.cmd.data = 0 ∨
      q.cmd.length.toNat < 512
  | .unsupported => False

/-- What the caller of a refused request finds is what was there before. -/
def Stale (q : ScsiRequest) (u : ScsiUnit) (sense : ℕ → BitVec 8) : Prop :=
  (ScsiRun.start q.cmd q.req).Honours u q.asc sense q.cmd.WantsSense

theorem honours_of_noSense {q : ScsiRequest} {u : ScsiUnit} {sense : ℕ → BitVec 8}
    {asc : BitVec 8} {r : ScsiRun} {fails : Prop}
    (h : r.NoSense ∧ (r.cmd.status = checkCondition ↔ fails)) :
    r.Honours u asc sense q.cmd.WantsSense ↔ (q.cmd.WantsSense → ¬ fails) := by
  rw [ScsiRun.honours_iff_of_noSense h.1, ne_eq, h.2]

/-- Sense data are given and withheld as asked for exactly if a refused request
looked so before, and no error of an accepted one is left unexplained. -/
theorem honours_iff (q : ScsiRequest) (u : ScsiUnit) (sense : ℕ → BitVec 8) :
    (q.parseScsiCommand u).Honours u q.asc sense q.cmd.WantsSense ↔
      (q.Refused → q.Stale u sense) ∧
        (¬ q.Refused → q.cmd.WantsSense → ¬ q.Unexplained u) := by
  by_cases hrefused : q.Refused
  · obtain ⟨error, -, hparse⟩ := parse_of_refused (u := u) hrefused
    rw [hparse]
    simp only [hrefused, true_implies, not_true_eq_false, false_implies, and_true]
    unfold Stale
    constructor
    · intro h
      exact ⟨h.given, h.withheld⟩
    · intro h
      exact ⟨h.given, h.withheld⟩
  simp only [hrefused, false_implies, true_and, not_false_eq_true, true_implies]
  rw [parse_of_accepted hrefused]
  have hnone : q.begin.NoSense := ⟨rfl, rfl⟩
  unfold Unexplained
  cases hopcode : q.opcode with
  | testUnitReady =>
      have h : (q.begin.handleScsiTestUnitReady u q.cdb).NoSense ∧ _ :=
        ScsiRun.testUnitReady_noSense hnone
      exact honours_of_noSense ⟨h.1, by rw [← h.2]; rfl⟩
  | inquiry =>
      have hasc : q.asc = 0x24 := if_neg (by rw [hopcode]; exact ScsiOpcode.noConfusion)
      by_cases hpage : q.begin.IllegalPage u q.cdb
      · apply iff_of_true
        · rw [hasc]
          exact ScsiRun.inquiry_honours hnone rfl hpage
        · intro _ hfails
          exact hfails.1 hpage
      · have h := @honours_of_noSense q u sense q.asc _ _
          (ScsiRun.inquiry_noSense hnone hpage)
        simp only [hpage, not_false_eq_true, true_and]
        exact h
  | readCapacity10 => exact honours_of_noSense (ScsiRun.readCapacity10_noSense hnone)
  | read10 =>
      have h := ScsiRun.transfer_noSense u q.cdb false hnone
      exact honours_of_noSense ⟨h.1, by rw [← h.2]; rfl⟩
  | write10 =>
      have h := ScsiRun.transfer_noSense u q.cdb true hnone
      exact honours_of_noSense ⟨h.1, by rw [← h.2]; rfl⟩
  | logSense => exact honours_of_noSense (ScsiRun.logSense_noSense hnone rfl)
  | ataPassthrough => exact honours_of_noSense (ScsiRun.ataPassthrough_noSense hnone)
  | unsupported =>
      have hasc : q.asc = 0x20 := if_pos hopcode
      apply iff_of_true
      · rw [hasc]
        have hfill := ScsiRun.honours_fill u 0x20 sense
          (r := q.begin.setStatus checkCondition) hnone rfl rfl
        exact ⟨hfill.given, hfill.withheld⟩
      · intro _
        exact not_false

end ScsiRequest

section Sample

/-- LOG SENSE for page 0x10 with room for the sense data at 0x6000. -/
def sampleAutosense : ScsiRequest :=
  let q := sampleScsiRequest 64 [0x4D, 0, 0x10, 0, 0, 0, 0, 0, 64, 0]
  { q with cmd := { q.cmd with
      flags := scsifAutosense, senseData := 0x6000, senseLength := 32 } }

/-- The page is refused with CHECK CONDITION and no sense data. -/
theorem honours_fails_sampleAutosense :
    ¬ (sampleAutosense.parseScsiCommand sampleScsiUnit).Honours sampleScsiUnit
      sampleAutosense.asc (fun _ => 0) sampleAutosense.cmd.WantsSense := by
  intro hhonours
  have hlength := (hhonours.given (by decide) (by decide)).1
  exact absurd hlength (by decide)

end Sample

end VirtioScsi
