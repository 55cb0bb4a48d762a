import VirtioScsi.DeviceOpens

/-!
# Counts and tasks of an open device

Three counters are kept for every open: one in the library base and two in the
unit.  They agree after every call, and a unit has a task exactly while it is
open, so an expunge that finds the count at zero finds no task.
-/

namespace VirtioScsi

/-! ## Counts -/

theorem sum_update_add {ι : Type*} [Fintype ι] [DecidableEq ι] (f : ι → ℕ) (i : ι) (x : ℕ) :
    ∑ j, Function.update f i x j + f i = ∑ j, f j + x := by
  rw [Finset.sum_update_of_mem (Finset.mem_univ i), Finset.sdiff_singleton_eq_erase,
    ← Finset.add_sum_erase Finset.univ f (Finset.mem_univ i)]
  omega

namespace OpenUnit

def opened (unit : OpenUnit) : OpenUnit :=
  ⟨unit.openCount + 1, unit.unitOpenCnt + 1, true⟩

def closed (unit : OpenUnit) : OpenUnit :=
  ⟨unit.openCount - 1, unit.unitOpenCnt - 1, decide (unit.openCount ≠ 1)⟩

/-- With the counts in balance a close lowers them by one, and the last one stops the
task. -/
theorem close_eq {unit : OpenUnit} (hpos : 0 < unit.openCount.toNat)
    (hcnt : unit.unitOpenCnt.toNat = unit.openCount.toNat) (htask : unit.task = true) :
    unit.close = unit.closed := by
  have hopen : 0 < unit.openCount := by
    rw [BitVec.lt_def]
    exact hpos
  have hunit : 0 < unit.unitOpenCnt := by
    rw [BitVec.lt_def, hcnt]
    exact hpos
  simp only [close, closed, if_pos hopen, if_pos hunit]
  by_cases hlast : unit.openCount = 1
  · simp [hlast, unitTaskShutdown, htask]
  · have hmore : unit.openCount - 1 ≠ 0 := by
      intro hzero
      exact hlast (by bv_omega)
    rw [if_neg hmore, htask]
    simp only [ne_eq, hlast, not_false_eq_true, decide_true]

theorem toNat_closed {unit : OpenUnit} (hpos : 0 < unit.openCount.toNat) :
    unit.closed.openCount.toNat + 1 = unit.openCount.toNat := by
  unfold closed
  bv_omega

end OpenUnit

namespace DeviceBase

variable {b b' : DeviceBase} {u v : UnitNum} {unit unit' : OpenUnit} {q : OpenRequest}
  {unitNum : BitVec 32} {start : StartAnswer}

def openCount (b : DeviceBase) (u : UnitNum) : ℕ :=
  match b.units u with
  | some unit => unit.openCount.toNat
  | none => 0

/-- The counters agree, and the open units are those with a task. -/
structure Balanced (b : DeviceBase) : Prop where
  lib : b.libOpenCnt.toNat = ∑ u, b.openCount u
  unit : ∀ u unit, b.units u = some unit → unit.unitOpenCnt.toNat = unit.openCount.toNat
  task : ∀ u unit, b.units u = some unit → (unit.task = true ↔ 0 < unit.openCount.toNat)

def Idle (b : DeviceBase) : Prop :=
  ∀ u unit, b.units u = some unit → unit.task = false

def present (b : DeviceBase) : List UnitNum :=
  (List.finRange 8).filter fun u => (b.units u).isSome

/-- The queues are cleaned up and then every unit is freed, with no task
running at any of these moments. -/
structure TornDown (b b' : DeviceBase) : Prop where
  history : b'.history =
    b.history ++ (.cleanupVirtIOSCSI, []) :: b.present.map fun u => (.freeVec u, [])
  units : ∀ u, b'.units u = none
  deleted : b'.deleted = true

@[simp] theorem setUnit_self (b : DeviceBase) (u : UnitNum) (o : Option OpenUnit) :
    (b.setUnit u o).units u = o := by
  simp only [setUnit, Function.update_self]

@[simp] theorem setUnit_of_ne {o : Option OpenUnit} (hv : v ≠ u) :
    (b.setUnit u o).units v = b.units v := by
  simp only [setUnit, Function.update_of_ne hv]

theorem openCount_eq (hunit : b.units u = some unit) :
    b.openCount u = unit.openCount.toNat := by
  simp only [openCount, hunit]

theorem openCount_setUnit (b : DeviceBase) (u : UnitNum) (unit : OpenUnit) :
    (b.setUnit u (some unit)).openCount =
      Function.update b.openCount u unit.openCount.toNat := by
  funext v
  by_cases hv : v = u
  · subst v
    simp [openCount]
  · simp [openCount, hv]

theorem sum_openCount_setUnit (hunit : b.units u = some unit) (unit' : OpenUnit) :
    ∑ v, (b.setUnit u (some unit')).openCount v + unit.openCount.toNat =
      ∑ v, b.openCount v + unit'.openCount.toNat := by
  rw [openCount_setUnit, ← openCount_eq hunit]
  exact sum_update_add b.openCount u unit'.openCount.toNat

theorem openCount_le_sum (b : DeviceBase) (u : UnitNum) :
    b.openCount u ≤ ∑ v, b.openCount v :=
  Finset.single_le_sum (fun v _ => Nat.zero_le (b.openCount v)) (Finset.mem_univ u)

theorem present_setUnit (hunit : b.units u = some unit) (unit' : OpenUnit) :
    (b.setUnit u (some unit')).present = b.present := by
  apply List.filter_congr
  intro v _
  by_cases hv : v = u
  · subst v
    simp [hunit]
  · simp [hv]

/-! ## Tearing the device down -/

/-- With no opener left no unit task runs. -/
theorem Balanced.idle (h : b.Balanced) (hzero : b.libOpenCnt = 0) : b.Idle := by
  intro u unit hunit
  have hsum : ∑ v, b.openCount v = 0 := by
    rw [← h.lib, hzero]
    rfl
  have hle := b.openCount_le_sum u
  rw [openCount_eq hunit] at hle
  have htask : ¬ unit.task = true := by
    rw [h.task u unit hunit]
    omega
  exact Bool.eq_false_of_not_eq_true htask

theorem Idle.running (h : b.Idle) : b.running = [] := by
  apply List.filter_eq_nil_iff.mpr
  intro u _
  unfold runs
  cases hunit : b.units u with
  | none => simp
  | some unit => simp [h u unit hunit]

theorem Idle.setUnit (h : b.Idle) {o : Option OpenUnit}
    (hidle : ∀ unit, o = some unit → unit.task = false) : (b.setUnit u o).Idle := by
  intro v unit hunit
  by_cases hv : v = u
  · subst v
    rw [setUnit_self] at hunit
    exact hidle unit hunit
  · rw [setUnit_of_ne hv] at hunit
    exact h v unit hunit

theorem Idle.expungeUnit (h : b.Idle) (hunit : b.units u = some unit) :
    b.expungeUnit u =
      { b.setUnit u none with history := b.history ++ [(.freeVec u, [])] } := by
  have hstill : unit.unitTaskShutdown = unit := by
    unfold OpenUnit.unitTaskShutdown
    rw [if_neg (by simp [h u unit hunit])]
  have hidle : (b.setUnit u (some unit)).Idle :=
    h.setUnit fun unit' h' => by rw [← Option.some.inj h']; exact h u unit hunit
  simp only [DeviceBase.expungeUnit, hunit, hstill, record, hidle.running]
  simp [DeviceBase.setUnit]

theorem Idle.foldl_expungeUnit {l : List UnitNum} (h : b.Idle) (hl : l.Nodup) :
    l.foldl DeviceBase.expungeUnit b =
      { b with
        units := fun u => if u ∈ l then none else b.units u
        history := b.history ++
          (l.filter fun u => (b.units u).isSome).map fun u => (.freeVec u, []) } := by
  induction l generalizing b with
  | nil => simp
  | cons u l ih =>
      obtain ⟨hu, hl⟩ := List.nodup_cons.mp hl
      rw [List.foldl_cons]
      cases hunit : b.units u with
      | none =>
          have hsame : b.expungeUnit u = b := by simp only [DeviceBase.expungeUnit, hunit]
          rw [hsame, ih h hl]
          congr 1
          · funext v
            by_cases hv : v = u
            · subst v
              simp [hunit]
            · simp [hv]
          · simp [hunit]
      | some unit =>
          have hidle : ({ b.setUnit u none with
              history := b.history ++ [(.freeVec u, [])] } : DeviceBase).Idle :=
            h.setUnit fun unit h' => by cases h'
          rw [h.expungeUnit hunit, ih hidle hl]
          congr 1
          · funext v
            by_cases hv : v = u
            · subst v
              simp [hu]
            · simp [hv]
          · have hrest : (l.filter fun v => ((b.setUnit u none).units v).isSome) =
                l.filter fun v => (b.units v).isSome := by
              apply List.filter_congr
              intro v hv
              have hne : v ≠ u := fun heq => hu (heq ▸ hv)
              simp [hne]
            rw [hrest]
            simp [hunit]

/-- With no opener left `_manager_Expunge` frees every unit and leaves nothing behind. -/
theorem Balanced.tornDown (h : b.Balanced) (hzero : b.libOpenCnt = 0) :
    b.TornDown b.managerExpunge ∧ b.managerExpunge.libOpenCnt = 0 := by
  have hidle : (b.record .cleanupVirtIOSCSI).Idle := h.idle hzero
  have hloop := hidle.foldl_expungeUnit (List.nodup_finRange 8)
  unfold managerExpunge
  rw [if_pos hzero, hloop]
  refine ⟨⟨?_, ?_, rfl⟩, hzero⟩
  · simp [record, (h.idle hzero).running, present]
  · intro u
    simp

theorem TornDown.balanced (h : b.TornDown b') (hlib : b'.libOpenCnt = 0) : b'.Balanced where
  lib := by
    have hnone (u : UnitNum) : b'.openCount u = 0 := by
      simp only [openCount, h.units u]
    simp [hlib, hnone]
  unit := by
    intro u unit hunit
    rw [h.units u] at hunit
    cases hunit
  task := by
    intro u unit hunit
    rw [h.units u] at hunit
    cases hunit

/-! ## Opening -/

theorem bailout_openFail (b : DeviceBase) (q : OpenRequest) :
    bailout { b with libOpenCnt := b.libOpenCnt + 1 } { q with ioError := ioerrOpenFail } =
      (b, ⟨.minusOne, ioerrOpenFail⟩, false) := by
  have herror : ioerrOpenFail ≠ 0 := by decide
  simp only [bailout, herror, ne_eq, not_false_eq_true, if_true, BitVec.add_sub_cancel]

theorem Balanced.managerOpen_cases (h : b.Balanced) (hstart : start.returned = start.running)
    (q : OpenRequest) (unitNum : BitVec 32) :
    b.managerOpen q unitNum start = (b, ⟨.minusOne, ioerrOpenFail⟩, false) ∨
      ∃ u unit, b.units u = some unit ∧
        b.managerOpen q unitNum start =
          ({ b.setUnit u (some unit.opened) with
              libOpenCnt := b.libOpenCnt + 1
              delexp := false }, ⟨.entry u, 0⟩, true) := by
  unfold managerOpen
  dsimp only
  split
  · next hnum =>
    split
    · exact .inl (b.bailout_openFail q)
    · next unit hunit =>
      by_cases hzero : unit.openCount = 0
      · -- The first open: the task runs as `UnitTask_Start` says.
        have htask : unit.task = false := by
          have hnot : ¬ unit.task = true := by
            rw [h.task _ _ hunit, hzero]
            simp
          exact Bool.eq_false_of_not_eq_true hnot
        rw [if_pos hzero]
        cases hreturned : start.returned with
        | false =>
            left
            have hsame : ({ unit with task := start.running } : OpenUnit) = unit := by
              rw [← hstart, hreturned, ← htask]
            have hunits : ({ b with libOpenCnt := b.libOpenCnt + 1 } : DeviceBase).setUnit
                ⟨unitNum.toNat, hnum⟩ (some unit) = { b with libOpenCnt := b.libOpenCnt + 1 } := by
              simp only [setUnit, ← hunit, Function.update_eq_self]
            simp only [OpenUnit.unitTaskStart, hreturned, hsame, hunits, Bool.false_eq_true,
              if_false]
            exact b.bailout_openFail q
        | true =>
            right
            refine ⟨⟨unitNum.toNat, hnum⟩, unit, hunit, ?_⟩
            simp only [OpenUnit.unitTaskStart, hreturned, ← hstart, if_true]
            rfl
      · right
        have htask : unit.task = true := by
          rw [h.task _ _ hunit]
          exact Nat.pos_of_ne_zero fun h0 => hzero (BitVec.eq_of_toNat_eq h0)
        refine ⟨⟨unitNum.toNat, hnum⟩, unit, hunit, ?_⟩
        rw [if_neg hzero]
        simp only [if_true, OpenUnit.opened, htask]
        rfl
  · exact .inl (b.bailout_openFail q)

theorem Balanced.setUnit (h : b.Balanced) (hunit : b.units u = some unit)
    {lib : BitVec 16} {delexp : Bool}
    (hlib : lib.toNat + unit.openCount.toNat = b.libOpenCnt.toNat + unit'.openCount.toNat)
    (hcnt : unit'.unitOpenCnt.toNat = unit'.openCount.toNat)
    (htask : unit'.task = true ↔ 0 < unit'.openCount.toNat) :
    ({ b.setUnit u (some unit') with libOpenCnt := lib, delexp := delexp } :
      DeviceBase).Balanced where
  lib := by
    have hsum := sum_openCount_setUnit hunit unit'
    have hold := h.lib
    change lib.toNat = ∑ v, (b.setUnit u (some unit')).openCount v
    omega
  unit := by
    intro v w hw
    change (b.setUnit u (some unit')).units v = some w at hw
    by_cases hv : v = u
    · subst v
      rw [setUnit_self, Option.some.injEq] at hw
      rw [← hw]
      exact hcnt
    · rw [setUnit_of_ne hv] at hw
      exact h.unit v w hw
  task := by
    intro v w hw
    change (b.setUnit u (some unit')).units v = some w at hw
    by_cases hv : v = u
    · subst v
      rw [setUnit_self, Option.some.injEq] at hw
      rw [← hw]
      exact htask
    · rw [setUnit_of_ne hv] at hw
      exact h.task v w hw

theorem Balanced.opened (h : b.Balanced) (hunit : b.units u = some unit)
    (hfew : ∑ v, b.openCount v + 1 < 65536) :
    ({ b.setUnit u (some unit.opened) with
        libOpenCnt := b.libOpenCnt + 1
        delexp := false } : DeviceBase).Balanced := by
  have hle := b.openCount_le_sum u
  rw [openCount_eq hunit] at hle
  have hlib := h.lib
  have hcnt := h.unit u unit hunit
  apply h.setUnit hunit
  · unfold OpenUnit.opened
    bv_omega
  · unfold OpenUnit.opened
    bv_omega
  · simp only [OpenUnit.opened, true_iff]
    bv_omega

/-! ## Closing -/

/-- The base before a close looks for a delayed expunge. -/
def afterClose (b : DeviceBase) (u : UnitNum) (unit : OpenUnit) : DeviceBase :=
  { b.setUnit u (some unit.closed) with libOpenCnt := b.libOpenCnt - 1 }

theorem Balanced.afterClose (h : b.Balanced) (hunit : b.units u = some unit)
    (hpos : 0 < unit.openCount.toNat) (hfew : ∑ v, b.openCount v < 65536) :
    (b.afterClose u unit).Balanced := by
  have hle := b.openCount_le_sum u
  rw [openCount_eq hunit] at hle
  have hlib := h.lib
  have hcnt := h.unit u unit hunit
  apply h.setUnit hunit
  · unfold OpenUnit.closed
    bv_omega
  · unfold OpenUnit.closed
    bv_omega
  · simp only [OpenUnit.closed, decide_eq_true_eq]
    bv_omega

theorem Balanced.managerClose_eq (h : b.Balanced) (hq : q.ioUnit = .entry u)
    (hunit : b.units u = some unit) (hpos : 0 < unit.openCount.toNat) :
    b.managerClose q = some
      (if (b.afterClose u unit).libOpenCnt = 0 ∧ b.delexp = true then
          (b.afterClose u unit).managerExpunge
        else b.afterClose u unit, { q with ioUnit := .minusOne }) := by
  have hclose := OpenUnit.close_eq hpos (h.unit u unit hunit) ((h.task u unit hunit).mpr hpos)
  simp only [managerClose, hq, hunit, Option.map_some, hclose]
  rw [ite_and]
  rfl

theorem afterClose_tornDown (hunit : b.units u = some unit)
    (h : (b.afterClose u unit).TornDown b') : b.TornDown b' := by
  refine ⟨?_, h.units, h.deleted⟩
  have hpresent : (b.afterClose u unit).present = b.present :=
    present_setUnit hunit unit.closed
  rw [h.history, hpresent]
  rfl

end DeviceBase

/-! ## Runs -/

namespace DeviceOpens

variable {α : Type*} {s s' : DeviceOpens α} {e : ManagerCall α} {r : α} {u v : UnitNum}
  {unit : OpenUnit} {q : OpenRequest} {present : UnitNum → Bool} {calls : List (ManagerCall α)}

/-- Those of some requests that point to a unit. -/
def holders (ioreq : α → OpenRequest) (requests : Finset α) (u : UnitNum) : Finset α :=
  requests.filter fun r => (ioreq r).ioUnit = .entry u

/-- The counts cover the requests that are open, and nothing was torn down
next to a task. -/
structure Inv (s : DeviceOpens α) : Prop where
  balanced : s.base.Balanced
  opened : s.opened = ∑ u, s.base.openCount u
  few : s.opened < 65536
  held : ∀ requests u, (holders s.ioreq requests u).card ≤ s.base.openCount u
  history : ∀ t ∈ s.base.history, t.2 = []
  gone : s.base.deleted = true → ∀ u, s.base.units u = none
  pending : s.base.deleted = false → s.base.delexp = true → s.base.libOpenCnt ≠ 0

/-- What a call does to the counts, to a delayed expunge and to the device. -/
def Answers (s : DeviceOpens α) : ManagerCall α → DeviceOpens α → Prop
  | .managerOpen r _ _, s' =>
      s'.base.history = s.base.history ∧ s'.base.deleted = false ∧
        if (s'.ioreq r).ioError = 0 then
          s'.base.delexp = false ∧ s'.opened = s.opened + 1
        else s'.base = s.base ∧ s'.opened = s.opened
  | .managerClose _, s' =>
      if s'.base.libOpenCnt = 0 ∧ s.base.delexp = true then s.base.TornDown s'.base
      else
        s'.base.history = s.base.history ∧ s'.base.deleted = false ∧
          s'.base.delexp = s.base.delexp
  | .managerExpunge, s' =>
      if s.base.libOpenCnt = 0 then s.base.TornDown s'.base
      else s'.base = { s.base with delexp := true }

theorem initial_inv (present : UnitNum → Bool) : (initial (α := α) present).Inv := by
  have hunit : ∀ u unit, (initial (α := α) present).base.units u = some unit →
      unit = ⟨0, 0, false⟩ := by
    intro u unit hunit
    simp only [initial] at hunit
    split at hunit
    · exact (Option.some.inj hunit).symm
    · cases hunit
  have hcount (u : UnitNum) : (initial (α := α) present).base.openCount u = 0 := by
    unfold DeviceBase.openCount
    split
    · next unit hu => rw [hunit u unit hu]; rfl
    · rfl
  refine ⟨⟨?_, ?_, ?_⟩, ?_, ?_, ?_, ?_, ?_, ?_⟩
  · simp only [hcount, Finset.sum_const_zero]
    rfl
  · intro u unit hu
    rw [hunit u unit hu]
    rfl
  · intro u unit hu
    rw [hunit u unit hu]
    simp
  · simp only [hcount, Finset.sum_const_zero]
    rfl
  · change 0 < 65536
    omega
  · intro requests u
    simp [holders, initial]
  · intro t ht
    cases ht
  · intro hdeleted
    cases hdeleted
  · intro _ hdelexp
    cases hdelexp

theorem IsOpen.entry (hopen : s.IsOpen r) : ∃ u, (s.ioreq r).ioUnit = .entry u := by
  unfold IsOpen at hopen
  cases hr : (s.ioreq r).ioUnit with
  | null | minusOne =>
      rw [hr] at hopen
      cases hopen
  | entry u => exact ⟨u, rfl⟩

theorem Inv.unit_of_open (h : s.Inv) (hr : (s.ioreq r).ioUnit = .entry u) :
    ∃ unit, s.base.units u = some unit ∧ 0 < unit.openCount.toNat := by
  have hmem : r ∈ holders s.ioreq {r} u :=
    Finset.mem_filter.mpr ⟨Finset.mem_singleton_self r, hr⟩
  have hpos : 0 < s.base.openCount u :=
    (Finset.card_pos.mpr ⟨r, hmem⟩).trans_le (h.held {r} u)
  unfold DeviceBase.openCount at hpos
  split at hpos
  · next unit hunit => exact ⟨unit, hunit, hpos⟩
  · exact absurd hpos (Nat.lt_irrefl 0)

theorem Inv.deleted_of_open (h : s.Inv) (hr : (s.ioreq r).ioUnit = .entry u) :
    s.base.deleted = false := by
  obtain ⟨unit, hunit, -⟩ := h.unit_of_open hr
  apply Bool.eq_false_of_not_eq_true
  intro hdeleted
  rw [h.gone hdeleted u] at hunit
  cases hunit

theorem Inv.tornDown (h : s.Inv) {b : DeviceBase} {ioreq : α → OpenRequest}
    (hdown : s.base.TornDown b) (hlib : b.libOpenCnt = 0) {opened : ℕ} (hopened : opened = 0)
    (hheld : ∀ requests u, holders ioreq requests u = ∅) :
    Inv { base := b, ioreq := ioreq, opened := opened } := by
  have hbalanced := hdown.balanced hlib
  have hnone (u : UnitNum) : b.openCount u = 0 := by
    simp only [DeviceBase.openCount, hdown.units u]
  refine ⟨hbalanced, ?_, ?_, ?_, ?_, fun _ => hdown.units, ?_⟩
  · simp only [hnone, Finset.sum_const_zero]
    exact hopened
  · change opened < 65536
    omega
  · intro requests u
    simp [hheld requests u]
  · intro t ht
    change t ∈ b.history at ht
    rw [hdown.history, List.mem_append, List.mem_cons, List.mem_map] at ht
    rcases ht with hold | rfl | ⟨u, -, rfl⟩
    · exact h.history t hold
    · rfl
    · rfl
  · intro hlive
    change b.deleted = false at hlive
    rw [hdown.deleted] at hlive
    cases hlive

theorem Inv.holders_eq_empty (h : s.Inv) (hzero : s.base.libOpenCnt = 0) (requests : Finset α)
    (u : UnitNum) : holders s.ioreq requests u = ∅ := by
  have hsum : ∑ v, s.base.openCount v = 0 := by
    rw [← h.balanced.lib, hzero]
    rfl
  have hle := s.base.openCount_le_sum u
  have hheld := h.held requests u
  exact Finset.card_eq_zero.mp (by omega)

theorem Inv.toNat_opened (h : s.Inv) (hunit : s.base.units u = some unit)
    (hfew : s.opened + 1 < 65536) :
    unit.opened.openCount.toNat = unit.openCount.toNat + 1 := by
  have hle := s.base.openCount_le_sum u
  rw [DeviceBase.openCount_eq hunit, ← h.opened] at hle
  unfold OpenUnit.opened
  bv_omega

theorem Inv.opened_afterClose (h : s.Inv) (hunit : s.base.units u = some unit)
    (hpos : 0 < unit.openCount.toNat) :
    s.opened - 1 = ∑ v, (s.base.afterClose u unit).openCount v := by
  have hcount := OpenUnit.toNat_closed hpos
  have hsum := DeviceBase.sum_openCount_setUnit hunit unit.closed
  have hold := h.opened
  change s.opened - 1 = ∑ v, (s.base.setUnit u (some unit.closed)).openCount v
  omega

/-! ### Steps -/

variable [DecidableEq α]

theorem holders_update_subset {ioreq : α → OpenRequest} {requests : Finset α}
    (hq : q.ioUnit ≠ .entry v) :
    holders (Function.update ioreq r q) requests v ⊆ holders ioreq requests v := by
  intro r' hr'
  obtain ⟨hmem, hold⟩ := Finset.mem_filter.mp hr'
  by_cases heq : r' = r
  · subst r'
    rw [Function.update_self] at hold
    exact absurd hold hq
  · rw [Function.update_of_ne heq] at hold
    exact Finset.mem_filter.mpr ⟨hmem, hold⟩

theorem holders_opened_subset (ioreq : α → OpenRequest) (requests : Finset α) (r : α)
    (q : OpenRequest) (u : UnitNum) :
    holders (Function.update ioreq r q) requests u ⊆ insert r (holders ioreq requests u) := by
  intro r' hr'
  obtain ⟨hmem, hold⟩ := Finset.mem_filter.mp hr'
  by_cases heq : r' = r
  · rw [heq]
    exact Finset.mem_insert_self r _
  · rw [Function.update_of_ne heq] at hold
    exact Finset.mem_insert_of_mem (Finset.mem_filter.mpr ⟨hmem, hold⟩)

theorem holders_closed_lt {ioreq : α → OpenRequest} (requests : Finset α)
    (hr : (ioreq r).ioUnit = .entry u) (hq : q.ioUnit ≠ .entry u) :
    (holders (Function.update ioreq r q) requests u).card <
      (holders ioreq (insert r requests) u).card := by
  apply Finset.card_lt_card
  refine Finset.ssubset_iff_subset_ne.mpr ⟨?_, ?_⟩
  · refine (holders_update_subset hq).trans ?_
    exact Finset.filter_subset_filter _ (Finset.subset_insert r requests)
  · intro heq
    have hmem : r ∈ holders ioreq (insert r requests) u :=
      Finset.mem_filter.mpr ⟨Finset.mem_insert_self r requests, hr⟩
    rw [← heq] at hmem
    have hnew := (Finset.mem_filter.mp hmem).2
    rw [Function.update_self] at hnew
    exact hq hnew

theorem Inv.managerExpunge (h : s.Inv) (hstep : s.step .managerExpunge = some s') :
    s'.Inv ∧ s.Answers .managerExpunge s' := by
  simp only [step] at hstep
  split at hstep
  · cases hstep
  · next hlive =>
    rw [Option.some.injEq] at hstep
    subst hstep
    simp only [Answers]
    by_cases hzero : s.base.libOpenCnt = 0
    · obtain ⟨hdown, hlib⟩ := h.balanced.tornDown hzero
      rw [if_pos hzero]
      have hopened : s.opened = 0 := by
        rw [h.opened, ← h.balanced.lib, hzero]
        rfl
      exact ⟨h.tornDown hdown hlib hopened (h.holders_eq_empty hzero), hdown⟩
    · have hbase : s.base.managerExpunge = { s.base with delexp := true } := if_neg hzero
      rw [if_neg hzero, hbase]
      refine ⟨⟨?_, h.opened, h.few, h.held, h.history, h.gone, fun _ _ => hzero⟩, rfl⟩
      exact ⟨h.balanced.lib, h.balanced.unit, h.balanced.task⟩

theorem Inv.holders_opened (h : s.Inv) (hunit : s.base.units u = some unit)
    (hfew : s.opened + 1 < 65536) (requests : Finset α) (v : UnitNum) :
    (holders (Function.update s.ioreq r ⟨.entry u, 0⟩) requests v).card ≤
      (s.base.setUnit u (some unit.opened)).openCount v := by
  have hheld := h.held requests v
  rw [DeviceBase.openCount_setUnit]
  by_cases hv : v = u
  · subst v
    have hcard := Finset.card_le_card (holders_opened_subset s.ioreq requests r ⟨.entry u, 0⟩ u)
    have hinsert := Finset.card_insert_le r (holders s.ioreq requests u)
    rw [DeviceBase.openCount_eq hunit] at hheld
    rw [Function.update_self, h.toNat_opened hunit hfew]
    omega
  · rw [Function.update_of_ne hv]
    refine le_trans (Finset.card_le_card ?_) hheld
    apply holders_update_subset
    simp only [ne_eq, UnitPtr.entry.injEq]
    exact fun heq => hv heq.symm

theorem Inv.managerOpen (h : s.Inv) {unitNum : BitVec 32} {start : StartAnswer}
    (htrusted : s.Trusted (.managerOpen r unitNum start))
    (hstep : s.step (.managerOpen r unitNum start) = some s') :
    s'.Inv ∧ s.Answers (.managerOpen r unitNum start) s' := by
  obtain ⟨hstart, hfew⟩ := htrusted
  have hfew := hfew s' hstep
  simp only [step] at hstep
  split at hstep
  · cases hstep
  · next hlive =>
    rw [Bool.not_eq_true] at hlive
    have hcases := h.balanced.managerOpen_cases hstart (s.ioreq r) unitNum
    obtain hfail | ⟨u, unit, hunit, hopen⟩ := hcases
    · simp only [hfail, Bool.false_eq_true, if_false, Option.some.injEq] at hstep
      subst hstep
      refine ⟨⟨h.balanced, h.opened, h.few, ?_, h.history, h.gone, h.pending⟩, ?_⟩
      · intro requests v
        refine le_trans (Finset.card_le_card ?_) (h.held requests v)
        exact holders_update_subset (by simp)
      · refine ⟨rfl, hlive, ?_⟩
        have herror : ioerrOpenFail ≠ 0 := by decide
        simp only [Function.update_self, if_neg herror, and_self]
    · simp only [hopen, if_true, Option.some.injEq] at hstep
      subst hstep
      change s.opened + 1 < 65536 at hfew
      have hbalanced := h.balanced.opened hunit (by rw [← h.opened]; exact hfew)
      have hcount := h.toNat_opened hunit hfew
      refine ⟨⟨hbalanced, ?_, hfew, ?_, h.history, ?_, fun _ hdelexp => by cases hdelexp⟩, ?_⟩
      · have hsum := DeviceBase.sum_openCount_setUnit hunit unit.opened
        change s.opened + 1 = ∑ v, (s.base.setUnit u (some unit.opened)).openCount v
        have hold := h.opened
        omega
      · exact h.holders_opened hunit hfew
      · intro hdeleted
        change s.base.deleted = true at hdeleted
        rw [hlive] at hdeleted
        cases hdeleted
      · refine ⟨rfl, hlive, ?_⟩
        simp only [Function.update_self, if_true, and_self]

theorem Inv.holders_afterClose (h : s.Inv) (hr : (s.ioreq r).ioUnit = .entry u)
    (hunit : s.base.units u = some unit) (hq : q.ioUnit = .minusOne) (requests : Finset α)
    (v : UnitNum) :
    (holders (Function.update s.ioreq r q) requests v).card ≤
      (s.base.afterClose u unit).openCount v := by
  have hother (w : UnitNum) : q.ioUnit ≠ .entry w := by
    rw [hq]
    exact fun heq => by cases heq
  change _ ≤ (s.base.setUnit u (some unit.closed)).openCount v
  rw [DeviceBase.openCount_setUnit]
  by_cases hv : v = u
  · subst v
    have hlt := holders_closed_lt requests hr (hother u)
    have hold := h.held (insert r requests) u
    rw [DeviceBase.openCount_eq hunit] at hold
    have hcount := OpenUnit.toNat_closed (Nat.zero_lt_of_lt (hlt.trans_le hold))
    rw [Function.update_self]
    omega
  · rw [Function.update_of_ne hv]
    refine le_trans (Finset.card_le_card ?_) (h.held requests v)
    exact holders_update_subset (hother v)

theorem Inv.managerClose (h : s.Inv) (hr : (s.ioreq r).ioUnit = .entry u) :
    ∃ s', s.step (.managerClose r) = some s' ∧ s'.Inv ∧ s.Answers (.managerClose r) s' := by
  obtain ⟨unit, hunit, hpos⟩ := h.unit_of_open hr
  have hlive := h.deleted_of_open hr
  have hopen : s.IsOpen r := by simp [IsOpen, hr, UnitPtr.isEntry]
  have hclose := h.balanced.managerClose_eq hr hunit hpos
  have hbalanced := h.balanced.afterClose hunit hpos (h.opened ▸ h.few)
  have hopened := h.opened_afterClose hunit hpos
  have hheld := h.holders_afterClose (q := { s.ioreq r with ioUnit := .minusOne }) hr hunit rfl
  by_cases hlast : (s.base.afterClose u unit).libOpenCnt = 0 ∧ s.base.delexp = true
  · obtain ⟨hdown, hlib⟩ := hbalanced.tornDown hlast.1
    have hdown := DeviceBase.afterClose_tornDown hunit hdown
    have hzero : ∑ v, (s.base.afterClose u unit).openCount v = 0 := by
      rw [← hbalanced.lib, hlast.1]
      rfl
    have hnone : ∀ requests v, holders (Function.update s.ioreq r
        { s.ioreq r with ioUnit := .minusOne }) requests v = ∅ := by
      intro requests v
      have hle := (s.base.afterClose u unit).openCount_le_sum v
      have hcard := hheld requests v
      exact Finset.card_eq_zero.mp (by omega)
    refine ⟨⟨(s.base.afterClose u unit).managerExpunge, _, s.opened - 1⟩, ?_,
      h.tornDown hdown hlib (hopened.trans hzero) hnone, ?_⟩
    · simp only [step, hlive, hopen, hclose, if_pos hlast]
      rfl
    · simp only [Answers]
      rw [if_pos ⟨hlib, hlast.2⟩]
      exact hdown
  · refine ⟨⟨s.base.afterClose u unit, _, s.opened - 1⟩, ?_,
      ⟨hbalanced, hopened, ?_, hheld, h.history, ?_, ?_⟩, ?_⟩
    · simp only [step, hlive, hopen, hclose, if_neg hlast]
      rfl
    · have hfew := h.few
      change s.opened - 1 < 65536
      omega
    · intro hdeleted
      change s.base.deleted = true at hdeleted
      rw [hlive] at hdeleted
      cases hdeleted
    · intro _ hdelexp hzero
      exact hlast ⟨hzero, hdelexp⟩
    · simp only [Answers]
      rw [if_neg hlast]
      exact ⟨rfl, hlive, rfl⟩

/-- Every trusted call keeps the invariant and answers as it should. -/
theorem Inv.step (h : s.Inv) (htrusted : s.Trusted e) (hstep : s.step e = some s') :
    s'.Inv ∧ s.Answers e s' := by
  cases e with
  | managerOpen r unitNum start => exact h.managerOpen htrusted hstep
  | managerClose r =>
      have hopen : s.IsOpen r := by
        by_contra hclosed
        simp [DeviceOpens.step, hclosed] at hstep
      obtain ⟨u, hr⟩ := hopen.entry
      obtain ⟨s₁, hs₁, hinv, hanswers⟩ := h.managerClose hr
      rw [hs₁, Option.some.injEq] at hstep
      exact hstep ▸ ⟨hinv, hanswers⟩
  | managerExpunge => exact h.managerExpunge hstep

/-- The counts are in balance after every sequence of trusted calls. -/
theorem inv_of_run (hobeys : GuardedRun.Obeys step Trusted (initial present) calls)
    (hrun : GuardedRun.run step (initial present) calls = some s) : s.Inv :=
  GuardedRun.invariant (fun _ _ _ h htrusted hstep => (h.step htrusted hstep).1) hobeys
    (initial_inv present) hrun

/-- In every run the counters agree, the tasks are those of the open units and
nothing was torn down next to a task; an opened request can be closed, no
expunge is pending at a count of zero, and every call answers as it should. -/
theorem opens_balanced (hobeys : GuardedRun.Obeys step Trusted (initial present) calls)
    (hrun : GuardedRun.run step (initial present) calls = some s) :
    s.base.Balanced ∧ (∀ t ∈ s.base.history, t.2 = []) ∧
      (∀ r, s.IsOpen r → (s.step (.managerClose r)).isSome) ∧
      (s.base.deleted = false → s.base.delexp = true → s.base.libOpenCnt ≠ 0) ∧
      ∀ e s', s.Trusted e → s.step e = some s' → s.Answers e s' := by
  have h := inv_of_run hobeys hrun
  refine ⟨h.balanced, h.history, ?_, h.pending,
    fun e s' htrusted hstep => (h.step htrusted hstep).2⟩
  intro r hopen
  obtain ⟨u, hr⟩ := hopen.entry
  obtain ⟨s', hs', -⟩ := h.managerClose hr
  rw [hs']
  rfl

/-- Two openers of one unit, two failed opens and an expunge that has to wait;
the second opener stays. -/
def sampleCalls : List (ManagerCall (Fin 2)) :=
  [.managerOpen 0 0 ⟨true, true⟩, .managerOpen 1 1 ⟨false, false⟩, .managerOpen 1 9 ⟨true, true⟩,
    .managerOpen 1 0 ⟨true, true⟩, .managerExpunge, .managerClose 0]

/-- The close that is left tears the device down. -/
theorem opens_balanced_sampleCalls :
    ∃ s s', GuardedRun.run step (initial fun u => decide (u < 2)) sampleCalls = some s ∧
      s.base.Balanced ∧ s.step (.managerClose 1) = some s' ∧ s.base.TornDown s'.base := by
  have hobeys : GuardedRun.Obeys step Trusted (initial fun u => decide (u < 2)) sampleCalls := by
    decide
  have h := opens_balanced hobeys rfl
  refine ⟨_, _, rfl, h.1, rfl, ?_⟩
  have hanswers := h.2.2.2.2 (.managerClose 1) _ (by decide) rfl
  simp only [Answers] at hanswers
  rwa [if_pos (by decide)] at hanswers

end DeviceOpens
end VirtioScsi
