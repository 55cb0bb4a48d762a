import VirtioScsi.ScsiBuffers

/-!
# The CDB of a SCSI direct command

Which bytes of the caller's CDB have an influence: two memories that agree on
the CDB are compared by what becomes of the request, and by the request header
the device gets.  LOG SENSE and ATA PASS-THROUGH take fields from where a long
CDB would have them, also out of a short one.
-/

namespace VirtioScsi

def SameCdb (cmd : ScsiCmd) (cdb cdb' : ℕ → BitVec 8) : Prop :=
  ∀ i < cmd.cmdLength.toNat, cdb' i = cdb i

def padded (cmd : ScsiCmd) (cdb : ℕ → BitVec 8) (byte : BitVec 8) : ℕ → BitVec 8 :=
  fun i => if i < cmd.cmdLength.toNat then cdb i else byte

theorem sameCdb_padded (cmd : ScsiCmd) (cdb : ℕ → BitVec 8) (byte : BitVec 8) :
    SameCdb cmd cdb (padded cmd cdb byte) := by
  intro i hi
  exact if_pos hi

namespace ScsiRun

variable {u : ScsiUnit} {cdb cdb' : ℕ → BitVec 8} {r : ScsiRun}

/-! ## Handlers that look at the length -/

theorem headerCdb_congr (h : SameCdb r.cmd cdb cdb') :
    r.headerCdb cdb' = r.headerCdb cdb := by
  unfold headerCdb
  congr 1
  apply List.map_congr_left
  intro i hi
  exact h i (List.mem_range.mp hi)

theorem passThrough_congr {data : ℕ} {length : BitVec 32} {isWrite : Bool}
    {actual : BitVec 32 → BitVec 32} (h : SameCdb r.cmd cdb cdb') :
    r.passThrough u cdb' data length isWrite actual =
      r.passThrough u cdb data length isWrite actual := by
  unfold passThrough
  rw [headerCdb_congr h]

theorem handleScsiInquiry_congr (h : SameCdb r.cmd cdb cdb') :
    r.handleScsiInquiry u cdb' = r.handleScsiInquiry u cdb := by
  have hevpd : r.evpd cdb' = r.evpd cdb := by
    unfold evpd
    by_cases hlength : 2 ≤ r.cmd.cmdLength.toNat
    · rw [h 1 (by omega)]
    · simp [hlength]
  have hpage : r.pageCode cdb' = r.pageCode cdb := by
    unfold pageCode
    by_cases hlength : 3 ≤ r.cmd.cmdLength.toNat
    · rw [h 2 (by omega)]
    · rw [if_neg hlength, if_neg hlength]
  unfold handleScsiInquiry transfer
  rw [hevpd, hpage, passThrough_congr h]

/-! ## LOG SENSE -/

theorem logPageOf_length {pageCode : BitVec 8} {page : List (BitVec 8)}
    (h : logPageOf pageCode = some page) : 0 < page.length ∧ page.length ≤ 31 := by
  unfold logPageOf at h
  split_ifs at h
  · cases h
    decide
  · cases h
    decide

theorem allocationLength_toNat (cdb : ℕ → BitVec 8) :
    (allocationLength cdb).toNat = 256 * (cdb 7).toNat + (cdb 8).toNat := by
  have hhigh : ((cdb 7).setWidth 16 <<< 8 : BitVec 16) = BitVec.ofNat 16 (256 * (cdb 7).toNat) := by
    apply BitVec.eq_of_toNat_eq
    have hlt := (cdb 7).isLt
    rw [BitVec.toNat_shiftLeft, BitVec.toNat_setWidth, BitVec.toNat_ofNat,
      Nat.shiftLeft_eq, Nat.mod_eq_of_lt (by omega : (cdb 7).toNat < 2 ^ 16),
      Nat.mul_comm]
  have h7 := (cdb 7).isLt
  have h8 := (cdb 8).isLt
  unfold allocationLength
  rw [hhigh, BitVec.toNat_or, BitVec.toNat_ofNat, BitVec.toNat_setWidth,
    Nat.mod_eq_of_lt (by omega), Nat.mod_eq_of_lt (by omega),
    show 256 * (cdb 7).toNat = 2 ^ 8 * (cdb 7).toNat from rfl]
  exact (Nat.two_pow_add_eq_or_of_lt h8 _).symm

/-- All of a page is asked for as soon as the allocation length has a high
byte. -/
theorem handleScsiLogSense_of_long (hstatus : r.cmd.status = 0)
    (hcode : logPageCode cdb' = logPageCode cdb) (hhigh : cdb 7 ≠ 0)
    (hsame : cdb' 7 = cdb 7) :
    r.handleScsiLogSense cdb' = r.handleScsiLogSense cdb := by
  have hpositive : 0 < (cdb 7).toNat := by
    apply Nat.pos_of_ne_zero
    exact fun hzero => hhigh (BitVec.eq_of_toNat_eq hzero)
  have halloc := allocationLength_toNat cdb
  have halloc' := allocationLength_toNat cdb'
  rw [hsame] at halloc'
  rw [handleScsiLogSense_eq hstatus, handleScsiLogSense_eq hstatus, hcode]
  by_cases hdata : r.cmd.data = 0
  · rw [if_pos (.inl hdata), if_pos (.inl hdata)]
  rw [if_neg (not_or.mpr ⟨hdata, by omega⟩), if_neg (not_or.mpr ⟨hdata, by omega⟩)]
  cases hpage : logPageOf (logPageCode cdb) with
  | none => rfl
  | some page =>
      have hlength := logPageOf_length hpage
      dsimp only
      rw [min_eq_right (by omega), min_eq_right (by omega)]

theorem handleScsiLogSense_ne (hstatus : r.cmd.status = 0) (hdata : r.cmd.data ≠ 0)
    (hzero : (allocationLength cdb).toNat = 0)
    (hpositive : (allocationLength cdb').toNat ≠ 0) :
    r.handleScsiLogSense cdb ≠ r.handleScsiLogSense cdb' := by
  rw [handleScsiLogSense_eq hstatus, handleScsiLogSense_eq hstatus,
    if_pos (.inr hzero), if_neg (not_or.mpr ⟨hdata, hpositive⟩)]
  intro heq
  cases hpage : logPageOf (logPageCode cdb') with
  | none =>
      rw [hpage] at heq
      have herror : (0 : BitVec 8) = BitVec.ofInt 8 hferrBadStatus :=
        congrArg ScsiRun.ioError heq
      exact absurd herror (by decide)
  | some page =>
      rw [hpage] at heq
      have hlength := logPageOf_length hpage
      have hactual := congrArg (fun r => r.cmd.actual.toNat) heq
      have hcount : (0 : ℕ) =
        (BitVec.ofNat 32 (min (allocationLength cdb').toNat page.length)).toNat := hactual
      rw [BitVec.toNat_ofNat] at hcount
      omega

/-! ## ATA PASS-THROUGH -/

def ataIndex (cdb : ℕ → BitVec 8) : ℕ := if cdb 0 = 0x85 then 14 else 9

theorem ataCommand_eq (cdb : ℕ → BitVec 8) : ataCommand cdb = cdb (ataIndex cdb) := by
  unfold ataCommand ataIndex
  split_ifs
  · rfl
  · rfl

theorem handleScsiAtaPassthrough_congr (h : ataCommand cdb' = ataCommand cdb) :
    r.handleScsiAtaPassthrough cdb' = r.handleScsiAtaPassthrough cdb := by
  unfold handleScsiAtaPassthrough
  rw [h]

theorem handleScsiAtaPassthrough_of_short
    (hshort : r.cmd.data = 0 ∨ r.cmd.length.toNat < 512) :
    r.handleScsiAtaPassthrough cdb' = r.handleScsiAtaPassthrough cdb := by
  unfold handleScsiAtaPassthrough
  rw [if_pos hshort]
  simp only [ite_self]

theorem handleScsiAtaPassthrough_ne
    (hroom : ¬ (r.cmd.data = 0 ∨ r.cmd.length.toNat < 512))
    (hsmart : ataCommand cdb = 0xB0) (hother : ataCommand cdb' ≠ 0xB0) :
    r.handleScsiAtaPassthrough cdb ≠ r.handleScsiAtaPassthrough cdb' := by
  unfold handleScsiAtaPassthrough
  rw [if_neg (not_not.mpr hsmart), if_neg hroom, if_pos hother]
  intro heq
  have herror : (0 : BitVec 8) = BitVec.ofInt 8 hferrBadStatus :=
    congrArg ScsiRun.ioError heq
  exact absurd herror (by decide)

end ScsiRun

/-! ## Every command -/

namespace ScsiRequest

/-- What becomes of a request depends on its CDB alone. -/
def CdbConfined (q : ScsiRequest) (u : ScsiUnit) : Prop :=
  ∀ cdb', SameCdb q.cmd q.cdb cdb' →
    ({ q with cdb := cdb' } : ScsiRequest).parseScsiCommand u = q.parseScsiCommand u

/-- A handler needs a byte the CDB does not have. -/
def Overreads (q : ScsiRequest) : Prop :=
  match q.opcode with
  | .logSense => q.cmd.data ≠ 0 ∧
      (q.cmd.cmdLength.toNat < 8 ∨ q.cmd.cmdLength.toNat = 8 ∧ q.cdb 7 = 0)
  | .ataPassthrough => ¬ (q.cmd.data = 0 ∨ q.cmd.length.toNat < 512) ∧
      q.cmd.cmdLength.toNat ≤ ScsiRun.ataIndex q.cdb
  | _ => False

variable {q : ScsiRequest} {u : ScsiUnit}

theorem cmdLength_pos (h : ¬ q.Refused) : 0 < q.cmd.cmdLength.toNat := by
  apply Nat.pos_of_ne_zero
  intro hzero
  exact h (.inr (.inr (BitVec.eq_of_toNat_eq hzero)))

theorem parse_replaced {cdb' : ℕ → BitVec 8} (h : ¬ q.Refused)
    (hsame : SameCdb q.cmd q.cdb cdb') :
    ({ q with cdb := cdb' } : ScsiRequest).parseScsiCommand u =
      q.opcode.handle u cdb' q.begin := by
  have hopcode : ({ q with cdb := cdb' } : ScsiRequest).opcode = q.opcode :=
    congrArg ScsiOpcode.ofByte (hsame 0 (cmdLength_pos h))
  rw [parse_of_accepted (q := { q with cdb := cdb' }) h, hopcode]
  rfl

theorem handle_congr {cdb' : ℕ → BitVec 8} (hlog : q.opcode ≠ .logSense)
    (hata : q.opcode ≠ .ataPassthrough) (hsame : SameCdb q.cmd q.cdb cdb') :
    q.opcode.handle u cdb' q.begin = q.opcode.handle u q.cdb q.begin := by
  have hbegin : SameCdb q.begin.cmd q.cdb cdb' := hsame
  revert hlog hata
  cases q.opcode with
  | logSense =>
      intro hlog
      exact absurd rfl hlog
  | ataPassthrough =>
      intro _ hata
      exact absurd rfl hata
  | testUnitReady =>
      intro _ _
      unfold ScsiOpcode.handle ScsiRun.handleScsiTestUnitReady
      exact ScsiRun.passThrough_congr hbegin
  | inquiry =>
      intro _ _
      exact ScsiRun.handleScsiInquiry_congr hbegin
  | readCapacity10 =>
      intro _ _
      unfold ScsiOpcode.handle ScsiRun.handleScsiReadCapacity10 ScsiRun.transfer
      rw [ScsiRun.passThrough_congr hbegin]
  | read10 =>
      intro _ _
      exact ScsiRun.passThrough_congr hbegin
  | write10 =>
      intro _ _
      exact ScsiRun.passThrough_congr hbegin
  | unsupported =>
      intro _ _
      rfl

theorem logSense_confined {cdb' : ℕ → BitVec 8} (hsame : SameCdb q.cmd q.cdb cdb')
    (hreads : q.cmd.data = 0 ∨
      8 ≤ q.cmd.cmdLength.toNat ∧ (q.cmd.cmdLength.toNat = 8 → q.cdb 7 ≠ 0)) :
    q.begin.handleScsiLogSense cdb' = q.begin.handleScsiLogSense q.cdb := by
  rcases hreads with hdata | ⟨hlong, hhigh⟩
  · rw [ScsiRun.handleScsiLogSense_eq rfl, ScsiRun.handleScsiLogSense_eq rfl,
      if_pos (.inl hdata), if_pos (.inl hdata)]
  · have hcode : ScsiRun.logPageCode cdb' = ScsiRun.logPageCode q.cdb :=
      congrArg (· &&& 0x3F) (hsame 2 (by omega))
    have hseven : cdb' 7 = q.cdb 7 := hsame 7 (by omega)
    rcases Nat.eq_or_lt_of_le hlong with height | hmore
    · exact ScsiRun.handleScsiLogSense_of_long rfl hcode (hhigh height.symm) hseven
    · have halloc : ScsiRun.allocationLength cdb' = ScsiRun.allocationLength q.cdb := by
        unfold ScsiRun.allocationLength
        rw [hseven, hsame 8 (by omega)]
      unfold ScsiRun.handleScsiLogSense
      rw [hcode, halloc]

/-- LOG SENSE decodes two bytes a shorter command block does not have. -/
theorem logSense_overreads (hdata : q.cmd.data ≠ 0)
    (hshort : q.cmd.cmdLength.toNat < 8 ∨
      q.cmd.cmdLength.toNat = 8 ∧ q.cdb 7 = 0) :
    q.begin.handleScsiLogSense (padded q.cmd q.cdb 0) ≠
      q.begin.handleScsiLogSense (padded q.cmd q.cdb 0xFF) := by
  have hlength : ¬ 8 < q.cmd.cmdLength.toNat := by omega
  have hnine : ∀ byte, padded q.cmd q.cdb byte 8 = byte := by
    intro byte
    exact if_neg hlength
  have hseven : padded q.cmd q.cdb 0 7 = 0 := by
    unfold padded
    split_ifs with hinside
    · exact (hshort.resolve_left (by omega)).2
    · rfl
  apply ScsiRun.handleScsiLogSense_ne rfl hdata
  · rw [ScsiRun.allocationLength_toNat, hseven, hnine]
    rfl
  · rw [ScsiRun.allocationLength_toNat, hnine]
    have hbyte : (0xFF : BitVec 8).toNat = 255 := rfl
    omega

/-- ATA PASS-THROUGH decodes a byte a shorter command block does not have. -/
theorem ata_overreads (hroom : ¬ (q.cmd.data = 0 ∨ q.cmd.length.toNat < 512))
    (haccepted : ¬ q.Refused)
    (hshort : q.cmd.cmdLength.toNat ≤ ScsiRun.ataIndex q.cdb) :
    q.begin.handleScsiAtaPassthrough (padded q.cmd q.cdb 0xB0) ≠
      q.begin.handleScsiAtaPassthrough (padded q.cmd q.cdb 0) := by
  have hindex : ∀ byte, ScsiRun.ataIndex (padded q.cmd q.cdb byte) =
      ScsiRun.ataIndex q.cdb := by
    intro byte
    unfold ScsiRun.ataIndex
    rw [sameCdb_padded q.cmd q.cdb byte 0 (cmdLength_pos haccepted)]
  have hcommand : ∀ byte, ScsiRun.ataCommand (padded q.cmd q.cdb byte) = byte := by
    intro byte
    rw [ScsiRun.ataCommand_eq, hindex]
    exact if_neg (Nat.not_lt.mpr hshort)
  apply ScsiRun.handleScsiAtaPassthrough_ne hroom (hcommand 0xB0)
  rw [hcommand]
  decide

/-- No byte behind the CDB has an influence exactly if the request is refused
at once or no handler needs a byte that is missing. -/
theorem cdbConfined_iff (q : ScsiRequest) (u : ScsiUnit) :
    q.CdbConfined u ↔ q.Refused ∨ ¬ q.Overreads := by
  by_cases hrefused : q.Refused
  · apply iff_of_true
    · intro cdb' _
      unfold parseScsiCommand
      by_cases hlength : q.BadLength
      · rw [if_pos hlength]
        exact if_pos hlength
      · have hnone := hrefused.resolve_left hlength
        rw [if_neg hlength, if_pos hnone]
        exact (if_neg hlength).trans (if_pos hnone)
    · exact .inl hrefused
  rw [or_iff_right hrefused]
  have hconfined : q.CdbConfined u ↔ ∀ cdb', SameCdb q.cmd q.cdb cdb' →
      q.opcode.handle u cdb' q.begin = q.opcode.handle u q.cdb q.begin := by
    unfold CdbConfined
    apply forall_congr'
    intro cdb'
    apply forall_congr'
    intro hsame
    rw [parse_replaced hrefused hsame, parse_of_accepted hrefused]
  have hpadded : ∀ byte byte', q.CdbConfined u →
      q.opcode.handle u (padded q.cmd q.cdb byte) q.begin =
        q.opcode.handle u (padded q.cmd q.cdb byte') q.begin := by
    intro byte byte' h
    rw [hconfined] at h
    rw [h _ (sameCdb_padded q.cmd q.cdb byte), h _ (sameCdb_padded q.cmd q.cdb byte')]
  unfold Overreads
  cases hopcode : q.opcode with
  | logSense =>
      rw [hopcode] at hconfined hpadded
      constructor
      · rintro hall ⟨hdata, hshort⟩
        exact logSense_overreads hdata hshort (hpadded 0 0xFF hall)
      · intro hreads
        rw [hconfined]
        intro cdb' hsame
        apply logSense_confined hsame
        by_cases hdata : q.cmd.data = 0
        · exact .inl hdata
        · have hlong := not_or.mp fun hshort => hreads ⟨hdata, hshort⟩
          exact .inr ⟨Nat.le_of_not_lt hlong.1, fun height hzero => hlong.2 ⟨height, hzero⟩⟩
  | ataPassthrough =>
      rw [hopcode] at hconfined hpadded
      constructor
      · rintro hall ⟨hroom, hshort⟩
        exact ata_overreads hroom hrefused hshort (hpadded 0xB0 0 hall)
      · intro hreads
        rw [hconfined]
        intro cdb' hsame
        by_cases hroom : q.cmd.data = 0 ∨ q.cmd.length.toNat < 512
        · exact ScsiRun.handleScsiAtaPassthrough_of_short hroom
        · have hlong : ScsiRun.ataIndex q.cdb < q.cmd.cmdLength.toNat :=
            Nat.lt_of_not_le fun hshort => hreads ⟨hroom, hshort⟩
          have hindex : ScsiRun.ataIndex cdb' = ScsiRun.ataIndex q.cdb := by
            unfold ScsiRun.ataIndex
            rw [hsame 0 (cmdLength_pos hrefused)]
          apply ScsiRun.handleScsiAtaPassthrough_congr
          rw [ScsiRun.ataCommand_eq, ScsiRun.ataCommand_eq, hindex]
          exact hsame _ hlong
  | _ =>
      apply iff_of_true
      · rw [hconfined]
        intro cdb' hsame
        apply handle_congr _ _ hsame
        · rw [hopcode]
          exact ScsiOpcode.noConfusion
        · rw [hopcode]
          exact ScsiOpcode.noConfusion
      · exact not_false

end ScsiRequest

section Sample

def sampleShortLogSense : List (BitVec 8) := [0x4D, 0, 0x2F, 0, 0, 0]

/-- What is behind the CDB decides whether the page is returned. -/
theorem cdbConfined_fails_sampleShortLogSense :
    ¬ (sampleScsiRequest 64 sampleShortLogSense).CdbConfined sampleScsiUnit := by
  intro hconfined
  have hsame : SameCdb (sampleScsiRequest 64 sampleShortLogSense).cmd
      (sampleScsiRequest 64 sampleShortLogSense).cdb
      fun i => sampleShortLogSense.getD i 1 := by
    intro i hi
    have hsix : i < 6 := hi
    interval_cases i <;> rfl
  have hactual := congrArg (fun r => r.cmd.actual) (hconfined _ hsame)
  exact absurd hactual (by decide)

end Sample

end VirtioScsi
