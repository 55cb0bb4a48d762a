import VirtioScsi.ManagerRuns
import VirtioScsi.RequestFormat

/-!
# The units that discovery registers

`DiscoverUnits` fills `units[]` without gaps, in the order of the scan and with at
most eight LUNs.  The buffer of the INQUIRY is not cleared between two probes, so
what decides is the first byte of the last answer that had one.
-/

namespace VirtioScsi

namespace UnitScan

variable {ready : Bool} {addr : ℕ} {probes : ℕ → ℕ → ProbeEnv} {scan : UnitScan}
  {found order : List (ℕ × ℕ)} {tl : ℕ × ℕ}

/-- The INQUIRY ends with GOOD. -/
def Answers (ready : Bool) (addr : ℕ) (penv : ProbeEnv) : Prop :=
  (inquiryRun ready addr penv).result = 0 ∧ (inquiryRun ready addr penv).scsiStatus.getD 0 = 0

instance (ready : Bool) (addr : ℕ) (penv : ProbeEnv) : Decidable (Answers ready addr penv) :=
  inferInstanceAs (Decidable (_ ∧ _))

/-- A disk or a CD-ROM, at a LUN that the target supports. -/
def IsDrive (byte : BitVec 8) : Prop :=
  byte.ushiftRight 5 ≠ 3 ∧ (byte &&& 0x1F = 0 ∨ byte &&& 0x1F = 5)

instance (byte : BitVec 8) : Decidable (IsDrive byte) := inferInstanceAs (Decidable (_ ∧ _))

def received (penv : ProbeEnv) (inqData : List (BitVec 8)) : List (BitVec 8) :=
  penv.written.take 36 ++ inqData.drop (penv.written.take 36).length

/-- The LUNs that a scan without a limit registers. -/
def admitted (ready : Bool) (addr : ℕ) (probes : ℕ → ℕ → ProbeEnv) :
    List (BitVec 8) → List (ℕ × ℕ) → List (ℕ × ℕ)
  | _, [] => []
  | inqData, tl :: order =>
      let inqData := received (probes tl.1 tl.2) inqData
      if Answers ready addr (probes tl.1 tl.2) ∧ IsDrive (inqData.headD 0) ∧
          (probes tl.1 tl.2).unit = true then
        tl :: admitted ready addr probes inqData order
      else admitted ready addr probes inqData order

def entry (i : ℕ) (tl : ℕ × ℕ) : UnitEntry :=
  ⟨BitVec.ofNat 32 i, BitVec.ofNat 32 tl.1, BitVec.ofNat 32 tl.2⟩

theorem probe_of_lt (hlt : scan.unitsFound < 8) :
    probe ready addr probes scan tl =
      if Answers ready addr (probes tl.1 tl.2) ∧
          IsDrive ((received (probes tl.1 tl.2) scan.inqData).headD 0) ∧
          (probes tl.1 tl.2).unit = true then
        (scan.inquire ready addr (probes tl.1 tl.2)).register tl
      else scan.inquire ready addr (probes tl.1 tl.2) := by
  have hdata : (scan.inquire ready addr (probes tl.1 tl.2)).inqData =
      received (probes tl.1 tl.2) scan.inqData := rfl
  unfold probe Answers IsDrive
  rw [if_neg (not_le.mpr hlt)]
  dsimp only
  rw [hdata]
  generalize (received (probes tl.1 tl.2) scan.inqData).headD 0 = byte
  by_cases hanswers : (inquiryRun ready addr (probes tl.1 tl.2)).result = 0 ∧
      (inquiryRun ready addr (probes tl.1 tl.2)).scsiStatus.getD 0 = 0
  · rw [if_pos hanswers]
    by_cases hqual : byte.ushiftRight 5 = 3
    · rw [if_pos hqual, if_neg fun h => h.2.1.1 hqual]
    rw [if_neg hqual]
    by_cases hother : byte &&& 0x1F ≠ 0 ∧ byte &&& 0x1F ≠ 5
    · rw [if_pos hother, if_neg fun h => h.2.1.2.elim hother.1 hother.2]
    have htype : byte &&& 0x1F = 0 ∨ byte &&& 0x1F = 5 := by
      by_contra h
      rw [not_or] at h
      exact hother h
    rw [if_neg hother]
    by_cases hunit : (probes tl.1 tl.2).unit = true
    · rw [if_pos hunit, if_pos ⟨hanswers, ⟨hqual, htype⟩, hunit⟩]
    · rw [if_neg hunit, if_neg fun h => hunit h.2.2]
  · rw [if_neg hanswers, if_neg fun h => hanswers h.1]

/-- The table holds the LUNs found so far, in their order. -/
structure Filled (scan : UnitScan) (found : List (ℕ × ℕ)) : Prop where
  count : scan.unitsFound = found.length
  units : ∀ i, scan.units i = found[i]?.map (entry i)

theorem filled_start : Filled .start [] :=
  ⟨rfl, fun _ => rfl⟩

theorem Filled.register (h : Filled scan found) (tl : ℕ × ℕ) :
    Filled (scan.register tl) (found ++ [tl]) := by
  unfold UnitScan.register
  constructor
  · rw [List.length_append, ← h.count]
    rfl
  · intro i
    dsimp only
    by_cases hi : i = scan.unitsFound
    · rw [hi, Function.update_self, h.count, List.getElem?_concat_length, Option.map_some]
      rfl
    · rw [Function.update_of_ne hi, h.units]
      rw [h.count] at hi
      rcases lt_or_gt_of_ne hi with hlt | hgt
      · rw [List.getElem?_append_left hlt]
      · rw [List.getElem?_eq_none (by omega), List.getElem?_eq_none (by simp; omega)]

/-- The induction is on the LUNs that are left; a full table stays as it is. -/
theorem Filled.foldl (h : Filled scan found) (hle : found.length ≤ 8) (order : List (ℕ × ℕ)) :
    Filled (order.foldl (probe ready addr probes) scan)
      (found ++ (admitted ready addr probes scan.inqData order).take (8 - found.length)) := by
  induction order generalizing scan found with
  | nil =>
      rw [admitted, List.take_nil, List.append_nil]
      exact h
  | cons tl order ih =>
      rw [List.foldl_cons]
      by_cases hfull : 8 ≤ scan.unitsFound
      · have hzero : 8 - found.length = 0 := by
          rw [← h.count]
          omega
        have hrest := ih h hle
        rw [hzero, List.take_zero] at hrest ⊢
        rw [probe, if_pos hfull]
        exact hrest
      rw [not_le] at hfull
      have hinquired : Filled (scan.inquire ready addr (probes tl.1 tl.2)) found :=
        ⟨h.count, h.units⟩
      rw [probe_of_lt hfull, admitted]
      by_cases hadmitted : Answers ready addr (probes tl.1 tl.2) ∧
          IsDrive ((received (probes tl.1 tl.2) scan.inqData).headD 0) ∧
          (probes tl.1 tl.2).unit = true
      · rw [if_pos hadmitted, if_pos hadmitted]
        have hlen : 8 - found.length = 8 - (found ++ [tl]).length + 1 := by
          rw [List.length_append, List.length_singleton, ← h.count]
          omega
        have hregistered := hinquired.register tl
        have hrest := ih hregistered (by
          rw [List.length_append, List.length_singleton, ← h.count]
          exact hfull)
        rw [hlen, List.take_succ_cons, List.append_cons]
        exact hrest
      · rw [if_neg hadmitted, if_neg hadmitted]
        exact ih hinquired hle

theorem filled_scan (ready : Bool) (addr : ℕ) (probes : ℕ → ℕ → ProbeEnv)
    (order : List (ℕ × ℕ)) :
    Filled (order.foldl (probe ready addr probes) .start)
      ((admitted ready addr probes (List.replicate 36 0) order).take 8) := by
  have hfilled : Filled (order.foldl (probe ready addr probes) .start)
      ([] ++ (admitted ready addr probes (List.replicate 36 0) order).take (8 - 0)) :=
    filled_start.foldl (Nat.zero_le 8) order
  rwa [List.nil_append, Nat.sub_zero] at hfilled

theorem admitted_sublist (inqData : List (BitVec 8)) (order : List (ℕ × ℕ)) :
    (admitted ready addr probes inqData order).Sublist order := by
  induction order generalizing inqData with
  | nil => exact List.Sublist.slnil
  | cons tl order ih =>
      rw [admitted]
      split_ifs
      · exact (ih _).cons_cons tl
      · exact (ih _).cons tl

/-- The LUN itself says that it is a drive. -/
def Accepted (ready : Bool) (addr : ℕ) (penv : ProbeEnv) : Prop :=
  Answers ready addr penv ∧ IsDrive (penv.written.headD 0) ∧ penv.unit = true

instance (ready : Bool) (addr : ℕ) (penv : ProbeEnv) : Decidable (Accepted ready addr penv) :=
  inferInstanceAs (Decidable (_ ∧ _))

/-- Where every answer has a first byte, no byte of an earlier one decides. -/
theorem admitted_eq_filter
    (hwritten : ∀ tl ∈ order, Answers ready addr (probes tl.1 tl.2) →
      (probes tl.1 tl.2).written ≠ []) (inqData : List (BitVec 8)) :
    admitted ready addr probes inqData order =
      order.filter fun tl => Accepted ready addr (probes tl.1 tl.2) := by
  induction order generalizing inqData with
  | nil => rfl
  | cons tl order ih =>
      rw [List.forall_mem_cons] at hwritten
      have hrest := ih hwritten.2 (received (probes tl.1 tl.2) inqData)
      have hiff : (Answers ready addr (probes tl.1 tl.2) ∧
          IsDrive ((received (probes tl.1 tl.2) inqData).headD 0) ∧
          (probes tl.1 tl.2).unit = true) ↔ Accepted ready addr (probes tl.1 tl.2) := by
        apply and_congr_right
        intro hanswers
        obtain ⟨byte, rest, hbyte⟩ := List.exists_cons_of_ne_nil (hwritten.1 hanswers)
        rw [received, hbyte]
        rfl
      rw [admitted]
      rw [hrest]
      by_cases haccepted : Accepted ready addr (probes tl.1 tl.2)
      · rw [if_pos (hiff.mpr haccepted), List.filter_cons_of_pos (by simpa using haccepted)]
      · rw [if_neg (mt hiff.mp haccepted), List.filter_cons_of_neg (by simpa using haccepted)]

/-- The scan goes through the targets, and at each of them through the LUNs. -/
theorem scanOrder_sorted : scanOrder.Pairwise (Prod.Lex (· < ·) (· < ·)) := by
  decide +kernel

theorem scanOrder_small (htl : tl ∈ scanOrder) : tl.1 < 8 ∧ tl.2 < 8 := by
  have hmem : tl.1 ∈ List.range 8 ∧ tl.2 ∈ List.range 8 := List.pair_mem_product.mp htl
  rwa [List.mem_range, List.mem_range] at hmem

end UnitScan

open UnitScan

/-- The LUNs that `DiscoverUnits` registers. -/
def unitsOf (ready : Bool) (inqData : Option ℕ) (probes : ℕ → ℕ → ProbeEnv) : List (ℕ × ℕ) :=
  match inqData with
  | none => []
  | some addr => (admitted ready addr probes (List.replicate 36 0) scanOrder).take 8

/-- What `units[]` is for: unit `i` is the `i`-th LUN, no LUN comes twice, and what is
sent to a unit is read as sent to its LUN. -/
structure TableOf (units : ℕ → Option UnitEntry) (found : List (ℕ × ℕ)) : Prop where
  entries : ∀ i, units i = found[i]?.map (entry i)
  few : found.length ≤ 8
  sorted : found.Pairwise (Prod.Lex (· < ·) (· < ·))
  routed : ∀ i unit, units i = some unit → ∃ tl, found[i]? = some tl ∧
    ∀ id cdb payload, parseRequest (requestBytes (unit.targetId.setWidth 8)
      (unit.lunId.setWidth 16) id cdb ++ payload) =
        some ⟨BitVec.ofNat 8 tl.1, BitVec.ofNat 16 tl.2, requestCdb cdb⟩

theorem routed_entry {tl : ℕ × ℕ} (htl : tl.1 < 8 ∧ tl.2 < 8) (i : ℕ) (id : BitVec 64)
    (cdb : Cdb) (payload : List (BitVec 8)) :
    parseRequest (requestBytes ((entry i tl).targetId.setWidth 8)
      ((entry i tl).lunId.setWidth 16) id cdb ++ payload) =
        some ⟨BitVec.ofNat 8 tl.1, BitVec.ofNat 16 tl.2, requestCdb cdb⟩ := by
  have hlun : (entry i tl).lunId.setWidth 16 < (0x4000 : BitVec 16) := by
    have hformat : (0x4000 : BitVec 16).toNat = 16384 := rfl
    unfold entry
    rw [BitVec.lt_def, hformat, BitVec.setWidth_ofNat_of_le (by decide), BitVec.toNat_ofNat]
    omega
  rw [parseRequest_requestBytes hlun]
  unfold entry
  dsimp only
  rw [BitVec.setWidth_ofNat_of_le (by decide), BitVec.setWidth_ofNat_of_le (by decide)]

theorem discoverUnits_table (ready : Bool) (inqData : Option ℕ) (probes : ℕ → ℕ → ProbeEnv) :
    TableOf (discoverUnits ready inqData probes).1 (unitsOf ready inqData probes) := by
  have hentries : ∀ i, (discoverUnits ready inqData probes).1 i =
      (unitsOf ready inqData probes)[i]?.map (entry i) := by
    cases inqData with
    | none => exact fun _ => rfl
    | some addr =>
        intro i
        unfold discoverUnits unitsOf
        dsimp only
        rw [(filled_scan ready addr probes scanOrder).units]
  have hsub : (unitsOf ready inqData probes).Sublist scanOrder := by
    cases inqData with
    | none => exact List.nil_sublist _
    | some addr => exact (List.take_sublist 8 _).trans (admitted_sublist _ _)
  constructor
  case entries => exact hentries
  case few =>
    cases inqData with
    | none => exact Nat.zero_le 8
    | some addr => exact List.length_take_le 8 _
  case sorted => exact scanOrder_sorted.sublist hsub
  case routed =>
    intro i unit hunit
    rw [hentries] at hunit
    obtain ⟨tl, htl, hentry⟩ := Option.map_eq_some_iff.mp hunit
    refine ⟨tl, htl, fun id cdb payload => ?_⟩
    rw [← hentry]
    exact routed_entry (scanOrder_small (hsub.mem (List.mem_of_getElem? htl))) i id cdb payload

/-- A boot that succeeds keeps what discovery has found. -/
theorem managerInit_units {env : BootEnv} {b : VirtIOSCSIBase}
    (hb : (managerInit env).base = some b) :
    b.units = (discoverUnits (b.vqs 2).isSome env.inqData env.probe).1 := by
  unfold managerInit at hb
  cases hdev : env.device with
  | none =>
      rw [hdev] at hb
      split_ifs at hb
  | some dev =>
      rw [hdev] at hb
      dsimp only at hb
      split_ifs at hb
      all_goals cases hb
      dsimp only [BootEnv.installVirtIOInterrupt]
      split_ifs <;> rfl

/-- The table after a boot.  If each GOOD answer to an INQUIRY has a first byte,
the units are the LUNs that call themselves a drive, up to the eighth. -/
theorem managerInit_table (env : BootEnv) {b : VirtIOSCSIBase}
    (hb : (managerInit env).base = some b) :
    TableOf b.units (unitsOf (b.vqs 2).isSome env.inqData env.probe) ∧
      ∀ addr, env.inqData = some addr →
        (∀ tl ∈ scanOrder, Answers (b.vqs 2).isSome addr (env.probe tl.1 tl.2) →
          (env.probe tl.1 tl.2).written ≠ []) →
        unitsOf (b.vqs 2).isSome env.inqData env.probe =
          (scanOrder.filter fun tl =>
            Accepted (b.vqs 2).isSome addr (env.probe tl.1 tl.2)).take 8 := by
  constructor
  · rw [managerInit_units hb]
    exact discoverUnits_table _ _ _
  · intro addr haddr hwritten
    rw [haddr, unitsOf, admitted_eq_filter hwritten]

theorem managerInit_table_sampleBoot :
    ∃ b, (managerInit SampleBoot.system).base = some b ∧ TableOf b.units [(0, 0)] := by
  have hbooted : (managerInit SampleBoot.system).base.any fun b => (b.vqs 2).isSome := by
    decide +kernel
  have hdrives : (scanOrder.filter fun tl =>
      Accepted true 0x34000 (SampleBoot.probe tl.1 tl.2)).take 8 = [(0, 0)] := by
    decide +kernel
  obtain ⟨b, hb, hready⟩ := (Option.any_eq_true _ _).mp hbooted
  obtain ⟨htable, hfilter⟩ := managerInit_table SampleBoot.system hb
  rw [hfilter 0x34000 rfl fun _ _ _ h => List.cons_ne_nil _ _ h, hready] at htable
  have htable' : TableOf b.units [(0, 0)] := by
    rwa [← hdrives]
  exact ⟨b, hb, htable'⟩

end VirtioScsi
