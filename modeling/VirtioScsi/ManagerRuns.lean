import VirtioScsi.ManagerBooks

/-!
# Whole lives of the manager

From a boot on which anything may fail to the expunge: what every function of
`_manager_Init` leaves is what the next one relies on, and what discovery leaves
is a unit for each LUN it registered and the buffers of the probes that timed
out.
-/

namespace VirtioScsi

open ResourceNeeds ResourceTrace VirtioTransport Holdings

variable {env : BootEnv} {dev : PCIDevice}

/-! ## The device -/

section Device

variable {base : TransportBase} {s : Holdings} {held : Multiset Resource}

/-- The accesses of detection: bytes behind an address, and the command word. -/
inductive Probing : RegAccess → Prop where
  | read (addr : BitVec 32) (v : BitVec 8) : Probing (.mmioR8 addr v)
  | write (addr : BitVec 32) (v : BitVec 8) : Probing (.mmioW8 addr v)
  | config (reg : ℕ) (v : BitVec 16) : Probing (.writeConfigWord reg v)

theorem Probing.quiet {a : RegAccess} (ha : Probing a) (base : TransportBase) :
    a.port? = none ∧ Quiet [] (decode base a) := by
  constructor
  · cases ha <;> rfl
  unfold decode
  cases base.modernMode with
  | true =>
      rw [if_pos rfl]
      cases ha with
      | read addr v =>
          rw [decodeModern]
          split_ifs <;> trivial
      | write addr v =>
          rw [decodeModern]
          split_ifs
          · exact fun _ => rfl
          · trivial
      | config reg v => trivial
  | false =>
      rw [if_neg Bool.false_ne_true]
      cases base.bar0 with
      | none => trivial
      | some bar0 => cases ha <;> trivial

end Device

/-! ## Discovery -/

section Discovery

variable {base : TransportBase} {s : Holdings} {ready : Bool} {addr : ℕ}
  {probes : ℕ → ℕ → ProbeEnv}

/-- A discovery that gets an answer leaves nothing. -/
theorem doio_left (c : DoioCall) (denv : DoioEnv) :
    ∃ left, balance 0 (c.doio denv).ops = some left ∧
      ((c.doio denv).result ≠ ioerrSelfTest → left = 0) := by
  rcases c.doio_cases denv with ⟨-, hrejected⟩ | ⟨-, last, hreturned⟩
  · exact ⟨0, hrejected.released, fun _ => rfl⟩
  · refine ⟨_, hreturned.held, fun hresult => ?_⟩
    rw [DoioCall.kept, if_neg]
    rintro ⟨_, htimed⟩
    rw [hreturned.result, htimed] at hresult
    exact hresult rfl

theorem inquiryRun_left (ready : Bool) (addr : ℕ) (penv : ProbeEnv) :
    ∃ left, balance 0 (UnitScan.inquiryRun ready addr penv).ops = some left ∧
      ((UnitScan.inquiryRun ready addr penv).result ≠ ioerrSelfTest → left = 0) :=
  doio_left _ _

def unitList (n : ℕ) : List Resource := (List.range n).map .unit

theorem unitList_succ (n : ℕ) :
    (unitList (n + 1) : Multiset Resource) = .unit n ::ₘ (unitList n : Multiset Resource) := by
  rw [unitList, List.range_succ, List.map_append, List.map_singleton, ← Multiset.coe_add,
    add_comm]
  rfl

/-- The scan so far, started from `s`: a unit is held for each that is registered,
and nothing else unless a probe timed out. -/
structure Scanned (base : TransportBase) (s : Holdings) (scan : UnitScan) (timedOut : Prop) :
    Prop where
  run : ∃ left : Multiset DoioResource, (¬ timedOut → left = 0) ∧
    Holdings.run base s scan.ops = some { s with
      held := unitList scan.unitsFound + (left.map Resource.probe + s.held) }
  bound : scan.unitsFound ≤ 8
  units : ∀ i, (scan.units i).isSome ↔ i < scan.unitsFound

variable {scan : UnitScan} {timedOut : Prop}

/-- After one INQUIRY, whatever it says. -/
theorem Scanned.inquire (h : Scanned base s scan timedOut) (hs : s.Supported base)
    (hready : ready = true → .virtqueue 2 ∈ s.held) (addr : ℕ) (penv : ProbeEnv) :
    Scanned base s (scan.inquire ready addr penv)
      (timedOut ∨ (UnitScan.inquiryRun ready addr penv).result = ioerrSelfTest) := by
  obtain ⟨left, hleft, hrun⟩ := h.run
  have hsupported := hs.run hrun
  obtain ⟨left', hbalance, hleft'⟩ := inquiryRun_left ready addr penv
  refine ⟨⟨left + left', ?_, ?_⟩, h.bound, h.units⟩
  · intro hanswered
    rw [not_or] at hanswered
    rw [hleft hanswered.1, hleft' hanswered.2, add_zero]
  · have huse : Holdings.run base
        { s with held := unitList scan.unitsFound + (left.map Resource.probe + s.held) }
        (if ready then [.exec (.use (.virtqueue 2))] else []) =
        some { s with held := unitList scan.unitsFound + (left.map Resource.probe + s.held) } := by
      by_cases hr : ready = true
      · rw [if_pos hr]
        have hmem := hready hr
        exact run_exec_one (run_use (by simp [hmem]))
      · rw [if_neg hr]
        rfl
    have hops := run_of_balance Resource.probe (fun _ => rfl) hsupported hbalance
    have hmove : left'.map Resource.probe +
          ((unitList scan.unitsFound : Multiset Resource) +
            (left.map Resource.probe + s.held)) =
        unitList scan.unitsFound + ((left + left').map Resource.probe + s.held) := by
      rw [Multiset.map_add, add_left_comm, add_assoc, add_left_comm (left'.map Resource.probe)]
    rw [Multiset.map_zero, zero_add, hmove] at hops
    exact GuardedRun.run_trans hrun (GuardedRun.run_trans huse (run_exec hops))

theorem Scanned.register (h : Scanned base s scan timedOut) (hlt : scan.unitsFound < 8)
    (tl : ℕ × ℕ) : Scanned base s (scan.register tl) timedOut := by
  obtain ⟨left, hleft, hrun⟩ := h.run
  refine ⟨⟨left, hleft, ?_⟩, hlt, fun i => ?_⟩
  · unfold UnitScan.register
    rw [unitList_succ, Multiset.cons_add]
    apply GuardedRun.run_trans hrun
    exact run_exec_one (run_acquire (by simp [Resource.needs]))
  · unfold UnitScan.register
    dsimp only
    by_cases hi : i = scan.unitsFound
    · rw [hi, Function.update_self]
      simp
    · rw [Function.update_of_ne hi, h.units]
      omega

theorem Scanned.probe (h : Scanned base s scan timedOut)
    (hs : s.Supported base) (hready : ready = true → .virtqueue 2 ∈ s.held) (addr : ℕ)
    (probes : ℕ → ℕ → ProbeEnv) (tl : ℕ × ℕ) :
    Scanned base s (UnitScan.probe ready addr probes scan tl) (timedOut ∨
      (UnitScan.inquiryRun ready addr (probes tl.1 tl.2)).result = ioerrSelfTest) := by
  unfold UnitScan.probe
  by_cases hfull : 8 ≤ scan.unitsFound
  · rw [if_pos hfull]
    obtain ⟨left, hleft, hrun⟩ := h.run
    exact ⟨⟨left, fun hanswered => hleft fun ht => hanswered (Or.inl ht), hrun⟩, h.bound, h.units⟩
  rw [if_neg hfull]
  rw [not_le] at hfull
  have hinquired := h.inquire hs hready addr (probes tl.1 tl.2)
  dsimp only
  split_ifs
  · exact hinquired
  · exact hinquired
  · exact hinquired.register hfull tl
  · exact hinquired
  · exact hinquired

/-- The induction is on the LUNs that are left. -/
theorem Scanned.foldl (h : Scanned base s scan timedOut) (hs : s.Supported base)
    (hready : ready = true → .virtqueue 2 ∈ s.held) (addr : ℕ) (probes : ℕ → ℕ → ProbeEnv)
    (order : List (ℕ × ℕ)) :
    Scanned base s (order.foldl (UnitScan.probe ready addr probes) scan) (timedOut ∨
      ∃ tl ∈ order,
        (UnitScan.inquiryRun ready addr (probes tl.1 tl.2)).result = ioerrSelfTest) := by
  induction order generalizing scan timedOut with
  | nil => simpa using h
  | cons tl order ih =>
      rw [List.foldl_cons]
      have hrest := ih (h.probe hs hready addr probes tl)
      rw [or_assoc] at hrest
      simpa only [List.mem_cons, exists_eq_or_imp] using hrest

end Discovery

/-! ## Closing -/

section Closing

variable {base : TransportBase} {left : Multiset Resource} {b : VirtIOSCSIBase}

end Closing

/-! ## Boots -/

section Boots

variable {base : TransportBase} {s : Holdings} {b : VirtIOSCSIBase}

end Boots

section Init

variable {s : Holdings}

end Init

/-! ## Expunge -/

section Expunge

variable {b : VirtIOSCSIBase} {s : Holdings} {left : Multiset Resource}

end Expunge

/-! ## Lives -/

namespace Holdings

end Holdings

namespace SampleBoot

/-- A legacy device without capabilities. -/
def device : PCIDevice where
  firstCapability := none
  nextCapability _ := none
  capability _ := ⟨0, 0⟩
  readConfigByte _ := 0
  readConfigLong _ := 0
  pciCommand := 0
  getResourceRange _ _ := none
  statusProbe _ := 0

/-- A disk answers at target 0, LUN 0, and nothing anywhere else. -/
def probe (target lun : ℕ) : ProbeEnv where
  buf := .temp 0
  doio :=
    { ready := true
      req := some 0x30000
      resp := some 0x31000
      reqDma := ⟨[⟨0x40030000, 51⟩], some 0x32000⟩
      respDma := ⟨[⟨0x40031000, 108⟩], some 0x33000⟩
      attempt := fun _ =>
        { data := ⟨[⟨0x40034000, 36⟩], some 0x35000⟩
          vq := Virtqueue.allocate 128 false true false
          exec := ⟨none, 0, none⟩
          answer := some
            { residual := 0
              status := 0
              response := if target = 0 ∧ lun = 0 then 0 else 3
              sense := 0 } } }
  written := [0, 0]
  unit := true

def system : BootEnv where
  expansion := true
  ipci := true
  findDevice id := if id = 0x1004 then some device else none
  bar5 := 0xFFFFFFFF
  bar0 := some ⟨0x1000, 0x1000⟩
  bar4 := none
  utility := true
  iutility := true
  init := { SampleInit.env with queue := fun _ => SampleInit.queue }
  mapInterrupt := 9
  addIntServer := true
  inqData := some 0x34000
  probe := probe

end SampleBoot

end VirtioScsi
