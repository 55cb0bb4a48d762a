import VirtioScsi.UnitRuns
import VirtioScsi.BlockRequests

/-!
# A failed submission

`VirtIOSCSI_Submit` takes a slot, maps the data, marks the slot and adds the
chain, and other tasks run in between.  The system is extended by the Exec
calls made for the data and for indirect tables, each under the number of the
call of `Submit` it belongs to.  A call that fails has released what it
acquired and has given its slot back.
-/

namespace VirtioScsi

open ResourceTrace Virtqueue

/-! ## The system with its mappings -/

structure DmaCall where
  unit : UnitNum
  call : ℕ
  op : Op ExecResource
deriving DecidableEq, Repr

/-- `dma_list` of a slot, with the buffer it belongs to, when not NULL. -/
structure UserMapping where
  call : ℕ
  resource : ExecResource
deriving DecidableEq, Repr

/-- The calls of `Submit` are numbered for each unit; numbers and Exec calls
are history. -/
structure DmaConfig where
  config : Config
  calls : UnitNum → ℕ
  mapping : UnitNum → Slot → Option UserMapping
  dma : List DmaCall

/-- A step, with the data buffer the request has if it is mapped in it. -/
structure DmaEvent where
  event : Event
  ioData : ℕ := 0
  data : DataEnv := ⟨[], true, 0, true⟩

namespace DmaConfig

def initial (setup : Setup) : DmaConfig where
  config := Config.initial setup
  calls := fun _ => 0
  mapping := fun _ _ => none
  dma := []

def record (s : DmaConfig) (u : UnitNum) (n : ℕ) (ops : List (Op ExecResource)) :
    DmaConfig :=
  { s with dma := s.dma ++ ops.map (DmaCall.mk u n) }

def setMapping (s : DmaConfig) (u : UnitNum) (sl : Slot)
    (m : Option UserMapping) : DmaConfig :=
  { s with mapping :=
      Function.update s.mapping u (Function.update (s.mapping u) sl m) }

/-- `EndDMA` of a slot that has a `dma_list`. -/
def endMapping (s : DmaConfig) (u : UnitNum) (sl : Slot) : DmaConfig :=
  match s.mapping u sl with
  | none => s
  | some m => (s.record u m.call [.release m.resource]).setMapping u sl none

/-- The data of a request is mapped when its slot is filled. -/
def choice (s : DmaConfig) (u : UnitNum) (ch : Choice) (x : DmaEvent) : Choice :=
  match s.config.pc u with
  | .submit (.fill r _) =>
      { ch with data := (mapUserData x.ioData r.ioLength x.data).2.map Mapped.segments }
  | _ => ch

def event (s : DmaConfig) (x : DmaEvent) : Event :=
  match x.event with
  | .task u ch => .task u (s.choice u ch x)
  | e => e

/-- The Exec calls of a step of task `u`, told by where the task was and
where it is in `c`, after the step. -/
def trackTask (s : DmaConfig) (u : UnitNum) (ch : Choice) (x : DmaEvent)
    (c : Config) : DmaConfig :=
  match s.config.pc u with
  | .submit (.pop _) =>
      { s with calls := Function.update s.calls u (s.calls u + 1) }
  | .submit (.fill r sl) =>
      let mapped := mapUserData x.ioData r.ioLength x.data
      let s := s.record u (s.calls u) (resources mapped.1)
      match mapped.2 with
      | none => s
      | some m =>
          let s := s.setMapping u sl (m.mapping.map (UserMapping.mk (s.calls u)))
          match c.pc u with
          | .submit (.add _ _ _) => s
          | _ => s.endMapping u sl
  | .submit (.add _ sl sg) =>
      let added := s.config.queue.vq.addBuf sg.get sg.outNum sg.inNum (.slot u sl) ch.env
      let s := s.record u (s.calls u) (resources added.ops)
      match c.pc u with
      | .submit (.account _ _) => s
      | _ => s.endMapping u sl
  | .handle _ _ .route =>
      match c.pc u with
      | .handle _ _ (.release cu cs _ _ _) => s.endMapping cu cs
      | _ => s
  | _ => s

def track (s : DmaConfig) (x : DmaEvent) (c : Config) : DmaConfig :=
  match x.event with
  | .task u ch => { s.trackTask u ch x c with config := c }
  | _ => { s with config := c }

def step (s : DmaConfig) (x : DmaEvent) : Option DmaConfig :=
  (s.config.step (s.event x)).map (s.track x)

/-! ## Calls -/

/-- The result of a call that returns in a step between these two places. -/
def submitReturn : Pc → Pc → Option Int
  | .submit (.pop _), .sync _ _ => some (-1)
  | .submit (.account _ _), .dispatch => some 0
  | .submit (.giveBack _ _ err), .finish _ _ _ => some err
  | _, _ => none

/-- How a call ended: its slot, its result and the state it returned in. -/
structure SubmitEnd where
  slot : Option Slot
  rc : Int
  state : DmaConfig

end DmaConfig

def Pc.submitSlot : Pc → Option Slot
  | .submit (.fill _ sl) => some sl
  | .submit (.add _ sl _) => some sl
  | .submit (.account _ sl) => some sl
  | .submit (.giveBack _ sl _) => some sl
  | _ => none

namespace DmaConfig

/-- A run from inside a call of `Submit` by task `u` to its return. -/
def submitCall (u : UnitNum) : DmaConfig → List DmaEvent → Option SubmitEnd
  | _, [] => none
  | s, x :: xs =>
      match s.step x with
      | none => none
      | some s' =>
          match submitReturn (s.config.pc u) (s'.config.pc u), xs with
          | some rc, [] => some ⟨(s.config.pc u).submitSlot, rc, s'⟩
          | some _, _ :: _ => none
          | none, xs => submitCall u s' xs

/-- The Exec calls of one call of `Submit`. -/
def callOps (s : DmaConfig) (u : UnitNum) (n : ℕ) : List (Op ExecResource) :=
  (s.dma.filter fun d => d.unit = u ∧ d.call = n).map DmaCall.op

/-- Task `u` has the request, and nothing else has it. -/
structure HandedOver (s : Config) (u : UnitNum) (r : IORequest) : Prop where
  slots : ∀ v sl, ((s.unit v).inflight sl).ioreq ≠ some r
  ports : ∀ v, r ∉ s.port v
  tasks : ∀ v, v ≠ u → (s.pc v).request ≠ some r

/-- A step in a call with this slot: its own steps leave the queue, the
counters and the mask alone. -/
def CallLeaves (u : UnitNum) (slot : Option Slot) (s : DmaConfig)
    (x : DmaEvent) : Prop :=
  ((s.config.pc u).submitSlot = none ∨ (s.config.pc u).submitSlot = slot) ∧
    ∀ ch s', x.event = .task u ch → s.step x = some s' →
      s'.config.queue = s.config.queue ∧
        s'.config.occupiedCount = s.config.occupiedCount ∧
        (∀ v, (s'.config.unit v).inflightCount = (s.config.unit v).inflightCount) ∧
        s'.config.activeUnitsMask = s.config.activeUnitsMask

/-! ## Records -/

variable {s s' : DmaConfig} {u v : UnitNum} {sl sl' : Slot} {n n' : ℕ}
  {x : DmaEvent} {ops : List (Op ExecResource)}

def current (s : DmaConfig) (u : UnitNum) (n : ℕ) (sl : Slot) :
    Option ExecResource :=
  match s.mapping u sl with
  | none => none
  | some m => if m.call = n then some m.resource else none

theorem callOps_record :
    (s.record v n' ops).callOps u n =
      s.callOps u n ++ if v = u ∧ n' = n then ops else [] := by
  unfold callOps record
  rw [List.filter_append, List.map_append]
  congr 1
  rw [List.filter_map, List.map_map]
  split
  · next h =>
    simp [Function.comp_def, h.1, h.2]
  · next h =>
    simp [Function.comp_def, h]

theorem current_setMapping {m : Option UserMapping} :
    (s.setMapping v sl m).current u n sl' =
      if v = u ∧ sl = sl' then
        m.bind fun m => if m.call = n then some m.resource else none
      else s.current u n sl' := by
  unfold current setMapping
  by_cases hv : v = u
  · subst hv
    by_cases hsl : sl = sl'
    · subst hsl
      cases m <;> simp
    · simp [hsl, Ne.symm hsl]
  · simp [hv, Ne.symm hv]

@[simp] theorem endMapping_calls : (s.endMapping v sl).calls = s.calls := by
  unfold endMapping
  split <;> rfl

theorem callOps_endMapping :
    (s.endMapping v sl).callOps u n = s.callOps u n ++
      if v = u then ((s.current u n sl).map Op.release).toList else [] := by
  unfold endMapping current
  cases hm : s.mapping v sl with
  | none =>
      by_cases hv : v = u
      · simp [← hv, hm]
      · simp [hv]
  | some m =>
      have hops : ((s.record v m.call [.release m.resource]).setMapping v sl none).callOps
          u n = (s.record v m.call [.release m.resource]).callOps u n := rfl
      simp only [hops, callOps_record]
      by_cases hv : v = u
      · rw [← hv, hm]
        by_cases hn : m.call = n <;> simp [hn]
      · simp [hv]

theorem current_endMapping :
    (s.endMapping v sl).current u n sl' =
      if v = u ∧ sl = sl' then none else s.current u n sl' := by
  unfold endMapping
  cases hm : s.mapping v sl with
  | none =>
      by_cases h : v = u ∧ sl = sl'
      · obtain ⟨rfl, rfl⟩ := h
        simp [current, hm]
      · simp [h]
  | some m =>
      have hkept : (s.record v m.call [.release m.resource]).current u n sl' =
          s.current u n sl' := rfl
      simp only [current_setMapping, hkept, Option.bind_none]

/-! ## Numbers -/

/-- The calls that have acquired something have begun. -/
structure Numbered (s : DmaConfig) : Prop where
  mapping : ∀ u sl m, s.mapping u sl = some m → m.call ≤ s.calls u
  dma : ∀ d ∈ s.dma, d.call ≤ s.calls d.unit

theorem Numbered.record (h : s.Numbered) (hn : n ≤ s.calls v) :
    (s.record v n ops).Numbered where
  mapping := h.mapping
  dma := by
    intro d hd
    rcases List.mem_append.mp hd with hold | hnew
    · exact h.dma d hold
    · obtain ⟨op, -, rfl⟩ := List.mem_map.mp hnew
      exact hn

theorem Numbered.setMapping (h : s.Numbered) {m : Option UserMapping}
    (hm : ∀ m', m = some m' → m'.call ≤ s.calls v) :
    (s.setMapping v sl m).Numbered where
  mapping := by
    intro w sl' m' hrecorded
    by_cases hw : w = v
    · subst hw
      by_cases hsl : sl' = sl
      · exact hm m' (by simpa [DmaConfig.setMapping, hsl] using hrecorded)
      · exact h.mapping w sl' m'
          (by simpa [DmaConfig.setMapping, hsl] using hrecorded)
    · exact h.mapping w sl' m' (by simpa [DmaConfig.setMapping, hw] using hrecorded)
  dma := h.dma

theorem Numbered.endMapping (h : s.Numbered) : (s.endMapping v sl).Numbered := by
  unfold DmaConfig.endMapping
  split
  · exact h
  · next m hm =>
    exact (h.record (h.mapping v sl m hm)).setMapping (by simp)

theorem Numbered.config (h : s.Numbered) (c : Config) :
    ({ s with config := c } : DmaConfig).Numbered :=
  ⟨h.mapping, h.dma⟩

theorem Numbered.trackTask (h : s.Numbered) (ch : Choice) (c : Config) :
    (s.trackTask u ch x c).Numbered := by
  unfold DmaConfig.trackTask
  split
  · have hle : ∀ w, s.calls w ≤ Function.update s.calls u (s.calls u + 1) w := by
      intro w
      simp only [Function.update_apply]
      split
      · next hw =>
        rw [hw]
        exact Nat.le_succ _
      · exact le_rfl
    exact ⟨fun w sl m hm => (h.mapping w sl m hm).trans (hle w),
      fun d hd => (h.dma d hd).trans (hle _)⟩
  · next r sl hpc =>
    have hrecord : ∀ ops, (s.record u (s.calls u) ops).Numbered :=
      fun ops => h.record le_rfl
    dsimp only
    split
    · exact hrecord _
    · next m hm =>
      have hmapping : ∀ m', m.mapping.map (UserMapping.mk (s.calls u)) = some m' →
          m'.call ≤ s.calls u := by
        intro m' hm'
        obtain ⟨a, -, rfl⟩ := Option.map_eq_some_iff.mp hm'
        exact le_rfl
      have hrecorded := hrecord (resources (mapUserData x.ioData r.ioLength x.data).1)
      have hset := @Numbered.setMapping _ u sl hrecorded _ hmapping
      split
      · exact hset
      · exact hset.endMapping
  · next r sl sg hpc =>
    dsimp only
    split
    · exact h.record le_rfl
    · exact (h.record le_rfl).endMapping
  · split
    · exact h.endMapping
    · exact h
  · exact h

theorem Numbered.track (h : s.Numbered) (c : Config) : (s.track x c).Numbered := by
  unfold DmaConfig.track
  split
  · exact (h.trackTask _ c).config c
  · exact h.config c

/-! ## Stages of a call -/

structure SameCalls (u : UnitNum) (s t : DmaConfig) : Prop where
  calls : t.calls u = s.calls u
  ops : ∀ n, t.callOps u n = s.callOps u n
  current : ∀ n sl, t.current u n sl = s.current u n sl

/-- A call holds what it recorded in its slot, and nothing else. -/
def Keeps (s : DmaConfig) (u : UnitNum) (sl : Slot) : Prop :=
  replay [] (s.callOps u (s.calls u)) =
      some (s.current u (s.calls u) sl).toList ∧
    ∀ sl', sl ≠ sl' → s.current u (s.calls u) sl' = none

/-- What a call has acquired at each place, with nothing said once its chain
is added. -/
def Stage (s : DmaConfig) (u : UnitNum) : SubmitAt → Prop
  | .pop _ => True
  | .fill _ _ =>
      s.callOps u (s.calls u) = [] ∧ ∀ sl, s.current u (s.calls u) sl = none
  | .add _ sl _ => s.Keeps u sl
  | .account _ _ => True
  | .giveBack _ _ err =>
      Settled (s.callOps u (s.calls u)) ∧
        (∀ sl, s.current u (s.calls u) sl = none) ∧
        (err = hferrDma ∨ err = tderrNotSpecified)

variable {at_ : SubmitAt} {t : DmaConfig} {ch : Choice}

theorem Stage.same (h : s.Stage u at_) (hs : SameCalls u s t) : t.Stage u at_ := by
  cases at_ with
  | pop r => trivial
  | fill r sl => simpa only [Stage, hs.calls, hs.ops, hs.current] using h
  | add r sl sg => simpa only [Stage, Keeps, hs.calls, hs.ops, hs.current] using h
  | account r sl => trivial
  | giveBack r sl err => simpa only [Stage, hs.calls, hs.ops, hs.current] using h

theorem settled_endMapping {r : Option ExecResource}
    (h : replay [] ops = some r.toList) :
    Settled (ops ++ (r.map Op.release).toList) := by
  cases r with
  | none => simpa [Settled] using h
  | some r => exact Settled.of_append h (by simp)

theorem current_endMapping_none (h : ∀ sl', sl ≠ sl' → s.current u n sl' = none) :
    ∀ sl', (s.endMapping u sl).current u n sl' = none := by
  intro sl'
  rw [current_endMapping]
  by_cases hsl : sl = sl'
  · simp [hsl]
  · simp [hsl, h sl' hsl]

/-- Another task may end the mapping of a slot in the middle of the call. -/
theorem Stage.endMapping (h : s.Stage u at_) : (s.endMapping v sl).Stage u at_ := by
  by_cases hv : v = u
  · subst hv
    have hkept : ∀ sl', s.current v (s.calls v) sl' = none →
        (s.endMapping v sl).current v (s.calls v) sl' = none := by
      intro sl' hnone
      rw [current_endMapping, hnone, ite_self]
    cases at_ with
    | pop r => trivial
    | fill r sl₀ =>
        simp only [Stage, endMapping_calls, callOps_endMapping]
        exact ⟨by simp [h.1, h.2 sl], fun sl' => hkept sl' (h.2 sl')⟩
    | add r sl₀ sg =>
        simp only [Stage, Keeps, endMapping_calls, callOps_endMapping, if_true]
        refine ⟨?_, fun sl' hne => hkept sl' (h.2 sl' hne)⟩
        by_cases hsl : sl₀ = sl
        · subst hsl
          rw [settled_endMapping h.1, current_endMapping]
          simp
        · rw [h.2 sl hsl, current_endMapping]
          simpa [Ne.symm hsl] using h.1
    | account r sl₀ => trivial
    | giveBack r sl₀ err =>
        simp only [Stage, endMapping_calls, callOps_endMapping]
        obtain ⟨hsettled, hnone, herr⟩ := h
        exact ⟨by simpa [hnone sl] using hsettled, fun sl' => hkept sl' (hnone sl'), herr⟩
  · refine h.same ⟨by rw [endMapping_calls], fun n => ?_, fun n sl' => ?_⟩
    · simp [callOps_endMapping, hv]
    · simp [current_endMapping, hv]

theorem SameCalls.record (h : SameCalls u s t) (hv : v ≠ u) :
    SameCalls u s (t.record v n ops) where
  calls := h.calls
  ops := by simp [callOps_record, hv, h.ops]
  current := h.current

theorem SameCalls.setMapping (h : SameCalls u s t) (hv : v ≠ u)
    (m : Option UserMapping) : SameCalls u s (t.setMapping v sl m) where
  calls := h.calls
  ops := h.ops
  current := by simp [current_setMapping, hv, h.current]

theorem SameCalls.endMapping (h : SameCalls u s t) (hv : v ≠ u) :
    SameCalls u s (t.endMapping v sl) where
  calls := by rw [endMapping_calls, h.calls]
  ops := by simp [callOps_endMapping, hv, h.ops]
  current := by simp [current_endMapping, hv, h.current]

theorem SameCalls.refl (s : DmaConfig) : SameCalls u s s :=
  ⟨rfl, fun _ => rfl, fun _ _ => rfl⟩

theorem Stage.config (h : s.Stage u at_) (c : Config) :
    ({ s with config := c } : DmaConfig).Stage u at_ :=
  h.same ⟨rfl, fun _ => rfl, fun _ _ => rfl⟩

theorem Stage.trackTask (h : s.Stage u at_) (hv : v ≠ u) (c : Config) :
    (s.trackTask v ch x c).Stage u at_ := by
  have hrecord : ∀ n ops, SameCalls u s (s.record v n ops) :=
    fun n ops => (SameCalls.refl s).record hv
  unfold DmaConfig.trackTask
  split
  · refine h.same ⟨?_, fun _ => rfl, fun _ _ => rfl⟩
    simp [Ne.symm hv]
  · dsimp only
    split
    · exact h.same (hrecord _ _)
    · split
      · exact h.same ((hrecord _ _).setMapping hv _)
      · exact h.same (((hrecord _ _).setMapping hv _).endMapping hv)
  · dsimp only
    split
    · exact h.same (hrecord _ _)
    · exact h.same ((hrecord _ _).endMapping hv)
  · split
    · exact h.endMapping
    · exact h
  · exact h

theorem Stage.track (h : s.Stage u at_) (hx : ∀ ch, x.event ≠ .task u ch)
    (c : Config) : (s.track x c).Stage u at_ := by
  unfold DmaConfig.track
  split
  · next v ch hevent =>
    have hv : v ≠ u := by
      rintro rfl
      exact hx ch hevent
    exact (h.trackTask hv c).config c
  · exact h.config c

/-! ## Steps of the call -/

/-- What a failing call must not change. -/
structure SharedKept (c c' : Config) : Prop where
  queue : c'.queue = c.queue
  occupiedCount : c'.occupiedCount = c.occupiedCount
  inflightCount : ∀ v, (c'.unit v).inflightCount = (c.unit v).inflightCount
  activeUnitsMask : c'.activeUnitsMask = c.activeUnitsMask

variable {c : Config} {r : IORequest} {sg : SgList} {err : Int}

theorem step_config (h : s.step x = some s') :
    s.config.step (s.event x) = some s'.config ∧ s' = s.track x s'.config := by
  obtain ⟨c, hc, rfl⟩ := Option.map_eq_some_iff.mp h
  have hconfig : (s.track x c).config = c := by
    unfold track
    split <;> rfl
  rw [hconfig]
  exact ⟨hc, rfl⟩

theorem submit_step (hpc : s.config.pc u = .submit at_)
    (hevent : x.event = .task u ch) (h : s.step x = some s') :
    s.config.submitStep u (s.choice u ch x) at_ = some s'.config ∧
      s' = { s.trackTask u ch x s'.config with config := s'.config } := by
  obtain ⟨hstep, htrack⟩ := step_config h
  refine ⟨?_, ?_⟩
  · simp only [event, hevent, Config.step, Config.taskStep, hpc] at hstep
    split at hstep
    · exact hstep
    · cases hstep
  · simpa only [track, hevent] using htrack

theorem setUnit_inflightCount {c : Config} {d : DevUnit}
    (h : d.inflightCount = (c.unit u).inflightCount) :
    ∀ v, ((c.setUnit u d).unit v).inflightCount = (c.unit v).inflightCount := by
  intro v
  simp only [Config.setUnit, Function.update_apply]
  split
  · next hv => rw [h, hv]
  · rfl

/-- Taking the free slot changes nothing the units share. -/
theorem pop_step (hnum : s.Numbered) (hpc : s.config.pc u = .submit (.pop r))
    (hevent : x.event = .task u ch) (h : s.step x = some s') :
    SharedKept s.config s'.config ∧
      ((∃ call, s'.config.pc u = .sync call .fill) ∧
          (s'.config.unit u).freeHead = none ∧
          Settled (s'.callOps u (s'.calls u)) ∨
        ∃ sl, s'.config.pc u = .submit (.fill r sl) ∧ s'.Stage u (.fill r sl)) := by
  obtain ⟨hsub, htrack⟩ := submit_step hpc hevent h
  have hfresh : s'.callOps u (s'.calls u) = [] ∧
      ∀ sl, s'.current u (s'.calls u) sl = none := by
    rw [htrack]
    simp only [trackTask, hpc, Function.update_self]
    constructor
    · unfold callOps
      rw [List.map_eq_nil_iff, List.filter_eq_nil_iff]
      intro d hd
      simp only [decide_eq_true_eq, not_and]
      rintro rfl hcall
      exact absurd (hnum.dma d hd) (by omega)
    · intro sl
      unfold current
      dsimp only
      split
      · rfl
      · next m hm =>
        rw [if_neg]
        have := hnum.mapping u sl m hm
        omega
  simp only [Config.submitStep, Config.submitPop] at hsub
  split at hsub
  · split at hsub
    · next hfree =>
      have hc := (Option.some.inj hsub).symm
      refine ⟨⟨by rw [hc]; rfl, by rw [hc]; rfl, by rw [hc]; exact fun _ => rfl,
        by rw [hc]; rfl⟩, .inl ⟨⟨_, by rw [hc, Config.goto_pc_self]⟩, ?_, ?_⟩⟩
      · rw [hc]
        exact hfree
      · rw [hfresh.1]
        exact settled_nil
    · next sl hfree =>
      have hc := (Option.some.inj hsub).symm
      refine ⟨⟨by rw [hc]; rfl, by rw [hc]; rfl, ?_, by rw [hc]; rfl⟩,
        .inr ⟨sl, by rw [hc, Config.goto_pc_self], hfresh⟩⟩
      rw [hc]
      exact setUnit_inflightCount rfl
  · cases hsub

theorem callOps_fill (hstage : s.Stage u (.fill r sl)) :
    (s.record u (s.calls u) ops).callOps u (s.calls u) = ops := by
  rw [callOps_record, hstage.1]
  simp

theorem Stage.unmapped (hstage : s.Stage u (.fill r sl)) (hops : Settled ops) :
    (s.record u (s.calls u) ops).Stage u (.giveBack r sl hferrDma) := by
  refine ⟨?_, hstage.2, .inl rfl⟩
  show Settled ((s.record u (s.calls u) ops).callOps u (s.calls u))
  rwa [callOps_fill hstage]

theorem Stage.mapped (hstage : s.Stage u (.fill r sl)) {held : Option ExecResource}
    (hops : replay [] ops = some held.toList) :
    ((s.record u (s.calls u) ops).setMapping u sl
      (held.map (UserMapping.mk (s.calls u)))).Keeps u sl := by
  refine ⟨?_, fun sl' hne => ?_⟩
  · show replay [] ((s.record u (s.calls u) ops).callOps u (s.calls u)) = _
    rw [callOps_fill hstage, hops]
    congr 2
    show held = current _ u (s.calls u) sl
    rw [current_setMapping]
    cases held <;> simp
  · show current _ u (s.calls u) sl' = none
    rw [current_setMapping, if_neg (by simp [hne])]
    exact hstage.2 sl'

/-- Undoing a mapping settles every Exec call the attempt has made. -/
theorem Keeps.rolledBack (h : s.Keeps u sl)
    (herr : err = hferrDma ∨ err = tderrNotSpecified) :
    (s.endMapping u sl).Stage u (.giveBack r sl err) := by
  simp only [Stage, endMapping_calls, callOps_endMapping, if_true]
  exact ⟨settled_endMapping h.1, current_endMapping_none h.2, herr⟩

theorem Keeps.record (h : s.Keeps u sl) (hops : Settled ops) :
    (s.record u (s.calls u) ops).Keeps u sl := by
  refine ⟨?_, h.2⟩
  show replay [] ((s.record u (s.calls u) ops).callOps u (s.calls u)) = _
  rw [callOps_record, if_pos ⟨rfl, rfl⟩, replay_append, h.1, Option.bind_some]
  exact replay_base (s.current u (s.calls u) sl).toList hops

/-- Filling the slot either maps the data, or fails with all that was acquired released. -/
theorem fill_step (hpc : s.config.pc u = .submit (.fill r sl))
    (hstage : s.Stage u (.fill r sl))
    (hevent : x.event = .task u ch) (h : s.step x = some s') :
    SharedKept s.config s'.config ∧
      ∃ at', s'.config.pc u = .submit at' ∧
        (Pc.submit at').submitSlot = some sl ∧ s'.Stage u at' := by
  obtain ⟨hsub, htrack⟩ := submit_step hpc hevent h
  have hheld := mapUserData_held x.ioData r.ioLength x.data
  simp only [trackTask, hpc] at htrack
  simp only [choice, hpc, Config.submitStep, Config.submitFill, Option.some.injEq] at hsub
  cases hm : (mapUserData x.ioData r.ioLength x.data).2 with
  | none =>
      simp only [hm, Option.map_none, Option.bind_none] at hsub htrack hheld
      rw [← hsub] at htrack
      rw [htrack]
      exact ⟨⟨rfl, rfl, fun _ => rfl, rfl⟩, _, Config.goto_pc_self, rfl,
        (hstage.unmapped hheld).config _⟩
  | some m =>
      simp only [hm, Option.map_some, Option.bind_some] at hsub htrack hheld
      split_ifs at hsub with hlong
      · rw [← hsub] at htrack
        simp only [Config.goto_pc_self] at htrack
        rw [htrack]
        exact ⟨⟨rfl, rfl, fun _ => rfl, rfl⟩, _, Config.goto_pc_self, rfl,
          ((hstage.mapped hheld).rolledBack (.inl rfl)).config _⟩
      · rw [← hsub] at htrack
        simp only [Config.goto_pc_self] at htrack
        rw [htrack]
        exact ⟨⟨rfl, rfl, setUnit_inflightCount rfl, rfl⟩, _, Config.goto_pc_self, rfl,
          (show DmaConfig.Stage _ u (.add r sl _) from hstage.mapped hheld).config _⟩

/-- A full ring sends the attempt back with its mapping undone. -/
theorem add_step (hfit : s.config.Fit) (hpc : s.config.pc u = .submit (.add r sl sg))
    (hstage : s.Stage u (.add r sl sg))
    (hevent : x.event = .task u ch) (h : s.step x = some s') :
    s'.config.pc u = .submit (.account r sl) ∨
      SharedKept s.config s'.config ∧
        s'.config.pc u = .submit (.giveBack r sl tderrNotSpecified) ∧
        s'.Stage u (.giveBack r sl tderrNotSpecified) ∧
        ((s'.config.unit u).inflight sl).ioreq = none := by
  obtain ⟨hsub, htrack⟩ := submit_step hpc hevent h
  have hfilled := hfit.filled u
  rw [hpc] at hfilled
  simp only [trackTask, hpc] at htrack
  simp only [choice, hpc, Config.submitStep, Config.submitAdd] at hsub
  split at hsub
  · rcases Config.addBuf_cases hfit.queue sg (.slot u sl) ch.env hfilled with
      ⟨hrc, hsame⟩ | ⟨hrc, q', hq', -, -⟩
    · rw [if_pos hrc, hsame, Option.some.injEq] at hsub
      rw [← hsub] at htrack
      simp only [Config.goto_pc_self] at htrack
      rw [htrack]
      refine .inr ⟨⟨rfl, rfl, setUnit_inflightCount rfl, rfl⟩, Config.goto_pc_self, ?_,
        by simp [Config.setInflight, Config.setUnit, Config.goto]⟩
      have hadded : Settled (resources
          (s.config.queue.vq.addBuf sg.get sg.outNum sg.inNum (.slot u sl) ch.env).ops) := by
        have hout : AddBufOutcome s.config.queue.vq (sg.outNum + sg.inNum) _
            (s.config.queue.vq.addBuf sg.get sg.outNum sg.inNum (.slot u sl) ch.env) :=
          addBuf_outcome
        have hfail : (s.config.queue.vq.addBuf sg.get sg.outNum sg.inNum (.slot u sl)
            ch.env).rc ≠ 0 := hrc
        have hheld := hout.held
        rw [if_neg hfail] at hheld
        exact hheld
      exact ((hstage.record hadded).rolledBack (.inr rfl)).config _
    · rw [if_neg (not_not.mpr hrc), hq', Option.some.injEq] at hsub
      rw [← hsub]
      exact .inl Config.goto_pc_self
  · cases hsub

/-- Giving the slot back leaves the books of the unit as they were before the pop. -/
theorem giveBack_step (hpc : s.config.pc u = .submit (.giveBack r sl err))
    (hstage : s.Stage u (.giveBack r sl err))
    (hevent : x.event = .task u ch) (h : s.step x = some s') :
    SharedKept s.config s'.config ∧ s'.config.pc u = .finish r err 0 ∧
      (s'.config.unit u).freeHead = some sl ∧
      Settled (s'.callOps u (s'.calls u)) := by
  obtain ⟨hsub, htrack⟩ := submit_step hpc hevent h
  simp only [trackTask, hpc] at htrack
  simp only [Config.submitStep, Config.submitReleaseSlot] at hsub
  split at hsub
  · rw [Option.some.injEq] at hsub
    rw [← hsub] at htrack
    rw [htrack]
    refine ⟨⟨rfl, rfl, setUnit_inflightCount rfl, rfl⟩, Config.goto_pc_self, ?_, hstage.1⟩
    simp [Config.setUnit, Config.goto]
  · cases hsub

theorem account_step (hpc : s.config.pc u = .submit (.account r sl))
    (hevent : x.event = .task u ch) (h : s.step x = some s') :
    s'.config.pc u = .dispatch := by
  obtain ⟨hsub, -⟩ := submit_step hpc hevent h
  simp only [Config.submitStep, Option.some.injEq] at hsub
  rw [← hsub]
  exact Config.goto_pc_self

/-! ## The request -/

/-- Only the call of task `u` has the request, and only the slot it is adding
refers to it. -/
structure InHand (s : Config) (u : UnitNum) (r : IORequest) : Prop where
  slots : ∀ v sl, ((s.unit v).inflight sl).ioreq = some r →
    v = u ∧ ∃ sg, s.pc u = .submit (.add r sl sg)
  ports : ∀ v, r ∉ s.port v
  tasks : ∀ v, v ≠ u → (s.pc v).request ≠ some r

theorem HandedOver.inHand {c : Config} (h : HandedOver c u r) : InHand c u r :=
  ⟨fun v sl hr => absurd hr (h.slots v sl), h.ports, h.tasks⟩

theorem InHand.move {c c' : Config} {e : Event} (h : InHand c u r)
    (hm : c.Move e c') (hput : ∀ v, e ≠ .putMsg v r)
    (hslots : ∀ sl sg, c.pc u = .submit (.add r sl sg) →
      c'.pc u = .submit (.add r sl sg) ∨ ((c'.unit u).inflight sl).ioreq = none) :
    InHand c' u r where
  slots := by
    intro v sl hr
    rcases hm.ioreq_of hr with hold | ⟨sg, hfill, hadd⟩
    · obtain ⟨rfl, sg, hpc⟩ := h.slots v sl hold
      rcases hslots sl sg hpc with hkept | hnone
      · exact ⟨rfl, sg, hkept⟩
      · rw [hnone] at hr
        cases hr
    · have hv : v = u := by
        by_contra hne
        exact h.tasks v hne (by rw [hfill]; rfl)
      subst hv
      exact ⟨rfl, sg, hadd⟩
  ports := by
    intro v hr
    exact (hm.port_of hr).elim (h.ports v) (hput v)
  tasks := by
    intro v hv hr
    rcases hm.request_of with hkept | hnone | ⟨r', hport, hr'⟩
    · exact h.tasks v hv (hkept ▸ hr)
    · rw [hnone] at hr
      cases hr
    · obtain rfl := Option.some.inj (hr'.symm.trans hr)
      exact h.ports v hport

theorem event_putMsg {v : UnitNum} (h : x.event ≠ .putMsg v r) :
    s.event x ≠ .putMsg v r := by
  unfold event
  split
  · simp
  · exact h

theorem event_task (h : ∀ ch, x.event ≠ .task u ch) (ch : Choice) :
    s.event x ≠ .task u ch := by
  unfold event
  split
  · next v ch' hevent =>
    rintro hsame
    cases hsame
    exact h ch' hevent
  · exact h ch

/-! ## A failing call -/

/-- A call that failed: what it acquired is released, and its slot is on the
free list again, or there was none. -/
structure RolledBack (u : UnitNum) (e : SubmitEnd) : Prop where
  settled : Settled (e.state.callOps u (e.state.calls u))
  noSlot : e.slot = none → e.rc = -1 ∧ (e.state.config.unit u).freeHead = none
  slot : ∀ sl, e.slot = some sl →
    (e.rc = hferrDma ∨ e.rc = tderrNotSpecified) ∧
      (e.state.config.unit u).freeHead = some sl

theorem SharedKept.leaves {slot : Option Slot} (h : SharedKept s.config s'.config)
    (hstep : s.step x = some s')
    (hslot : (s.config.pc u).submitSlot = none ∨ (s.config.pc u).submitSlot = slot) :
    CallLeaves u slot s x := by
  refine ⟨hslot, fun ch s₁ _ hs₁ => ?_⟩
  obtain rfl := Option.some.inj (hstep.symm.trans hs₁)
  exact ⟨h.queue, h.occupiedCount, h.inflightCount, h.activeUnitsMask⟩

theorem submitReturn_self (p : Pc) : submitReturn p p = none := by
  cases p with
  | submit at_ => cases at_ <;> rfl
  | _ => rfl

theorem submitCall_cons {xs : List DmaEvent} {e : SubmitEnd}
    (h : submitCall u s (x :: xs) = some e) :
    ∃ s₁, s.step x = some s₁ ∧
      ((∃ rc, submitReturn (s.config.pc u) (s₁.config.pc u) = some rc ∧ xs = [] ∧
          e = ⟨(s.config.pc u).submitSlot, rc, s₁⟩) ∨
        submitReturn (s.config.pc u) (s₁.config.pc u) = none ∧
          submitCall u s₁ xs = some e) := by
  unfold submitCall at h
  split at h
  · cases h
  · next s₁ hstep =>
    refine ⟨s₁, hstep, ?_⟩
    split at h
    · next rc hreturn => exact .inl ⟨rc, hreturn, rfl, (Option.some.inj h).symm⟩
    · cases h
    · next hinside => exact .inr ⟨hinside, h⟩

/-- The state of a call, as far as every step keeps it. -/
structure Inside (s : DmaConfig) (u : UnitNum) (at_ : SubmitAt) : Prop where
  fit : s.config.Fit
  numbered : s.Numbered
  pc : s.config.pc u = .submit at_
  stage : s.Stage u at_

theorem Inside.move (h : s.Inside u at_) (hstep : s.step x = some s') :
    s.config.Move (s.event x) s'.config :=
  h.fit.move_of_step (step_config hstep).1

theorem Inside.next {at' : SubmitAt} (h : s.Inside u at_) (hstep : s.step x = some s')
    (hpc : s'.config.pc u = .submit at') (hstage : s'.Stage u at') :
    s'.Inside u at' where
  fit := h.fit.step (step_config hstep).1
  numbered := by
    rw [(step_config hstep).2]
    exact h.numbered.track _
  pc := hpc
  stage := hstage

/-- Steps of other parties do not touch the attempt of this task. -/
theorem Inside.other (h : s.Inside u at_) (hstep : s.step x = some s')
    (hx : ∀ ch, x.event ≠ .task u ch) : s'.Inside u at_ := by
  refine h.next hstep ?_ ?_
  · rw [(h.move hstep).pc (event_task hx), h.pc]
  · rw [(step_config hstep).2]
    exact h.stage.track hx _

theorem Inside.submitted {xs : List DmaEvent} {e : SubmitEnd}
    (h : s.Inside u (.account r sl)) (hcall : submitCall u s xs = some e) :
    e.rc = 0 := by
  induction xs generalizing s with
  | nil => cases hcall
  | cons x xs ih =>
      obtain ⟨s₁, hstep, hnext⟩ := submitCall_cons hcall
      by_cases hx : ∃ ch, x.event = .task u ch
      · obtain ⟨ch, hevent⟩ := hx
        have hpc := account_step h.pc hevent hstep
        rw [h.pc, hpc] at hnext
        rcases hnext with ⟨rc, hreturn, -, rfl⟩ | ⟨hinside, -⟩
        · exact (Option.some.inj hreturn).symm
        · cases hinside
      · have hother := h.other hstep (not_exists.mp hx)
        rw [h.pc, hother.pc, submitReturn_self] at hnext
        rcases hnext with ⟨_, hreturn, -⟩ | ⟨-, hrest⟩
        · cases hreturn
        · exact ih hother hrest

/-- What holds of a call that failed, seen from a state inside it. -/
structure FailedFrom (u : UnitNum) (s : DmaConfig) (xs : List DmaEvent)
    (e : SubmitEnd) : Prop where
  leaves : GuardedRun.Obeys step (CallLeaves u e.slot) s xs
  rolledBack : RolledBack u e
  slot : (s.config.pc u).submitSlot = none ∨ (s.config.pc u).submitSlot = e.slot
  request : ∀ r, InHand s.config u r → (∀ x ∈ xs, ∀ v, x.event ≠ .putMsg v r) →
    ∀ v sl, ((e.state.config.unit v).inflight sl).ioreq ≠ some r

theorem FailedFrom.cons {xs : List DmaEvent} {e : SubmitEnd}
    (h : FailedFrom u s' xs e) (hstep : s.step x = some s')
    (hslot : (s.config.pc u).submitSlot = none ∨
      (s.config.pc u).submitSlot = (s'.config.pc u).submitSlot)
    (hleaves : ∀ slot, ((s.config.pc u).submitSlot = none ∨
      (s.config.pc u).submitSlot = slot) → CallLeaves u slot s x)
    (hrequest : ∀ r, InHand s.config u r → (∀ v, x.event ≠ .putMsg v r) →
      InHand s'.config u r) : FailedFrom u s (x :: xs) e where
  slot := by
    rcases hslot with hnone | hsame
    · exact .inl hnone
    · rw [hsame]
      exact h.slot
  leaves := by
    have hslot' : (s.config.pc u).submitSlot = none ∨
        (s.config.pc u).submitSlot = e.slot := by
      rcases hslot with hnone | hsame
      · exact .inl hnone
      · rw [hsame]
        exact h.slot
    refine ⟨hleaves e.slot hslot', ?_⟩
    rw [hstep]
    exact h.leaves
  rolledBack := h.rolledBack
  request := by
    intro r hr hput
    refine h.request r (hrequest r hr (hput x (by simp))) fun y hy => hput y ?_
    exact List.mem_cons_of_mem x hy

theorem FailedFrom.returned {rc : Int} (hstep : s.step x = some s')
    (hkept : SharedKept s.config s'.config)
    (hback : RolledBack u ⟨(s.config.pc u).submitSlot, rc, s'⟩)
    (hrequest : ∀ r, InHand s.config u r → (∀ v, x.event ≠ .putMsg v r) →
      InHand s'.config u r)
    (hpc : ∀ r sl sg, s'.config.pc u ≠ .submit (.add r sl sg)) :
    FailedFrom u s [x] ⟨(s.config.pc u).submitSlot, rc, s'⟩ where
  leaves := by
    refine ⟨hkept.leaves hstep (.inr rfl), ?_⟩
    rw [hstep]
    trivial
  rolledBack := hback
  slot := .inr rfl
  request := by
    intro r hr hput v sl hioreq
    obtain ⟨-, sg, hadd⟩ := (hrequest r hr (hput x (by simp))).slots v sl hioreq
    exact hpc r sl sg hadd

/-- From any stage inside the call, a failing return has rolled back everything. -/
theorem Inside.failed {xs : List DmaEvent} {e : SubmitEnd} (h : s.Inside u at_)
    (hcall : submitCall u s xs = some e) (hrc : e.rc ≠ 0) :
    FailedFrom u s xs e := by
  induction xs generalizing s at_ with
  | nil => cases hcall
  | cons x xs ih =>
      obtain ⟨s₁, hstep, hnext⟩ := submitCall_cons hcall
      have hmove := h.move hstep
      by_cases hx : ∃ ch, x.event = .task u ch
      case neg =>
        have hother := h.other hstep (not_exists.mp hx)
        rw [h.pc, hother.pc, submitReturn_self] at hnext
        rcases hnext with ⟨_, hreturn, -⟩ | ⟨-, hrest⟩
        · cases hreturn
        · refine (ih hother hrest).cons hstep (.inr (by rw [h.pc, hother.pc])) ?_ ?_
          · exact fun slot hslot => ⟨hslot, fun ch _ hevent => absurd ⟨ch, hevent⟩ hx⟩
          · intro r hr hput
            refine hr.move hmove (fun v => event_putMsg (hput v)) fun sl sg hpc => .inl ?_
            rw [hother.pc, ← h.pc, hpc]
      obtain ⟨ch, hevent⟩ := hx
      -- outside `add` no slot refers to the request yet, or any more
      have hrequest : (∀ r sl sg, at_ ≠ .add r sl sg) → ∀ r, InHand s.config u r →
          (∀ v, x.event ≠ .putMsg v r) → InHand s₁.config u r := by
        intro hat r hr hput
        refine hr.move hmove (fun v => event_putMsg (hput v)) fun sl sg hpc => ?_
        rw [h.pc] at hpc
        exact absurd (Pc.submit.inj hpc) (hat r sl sg)
      cases at_ with
      | pop r =>
          have hslot : (s.config.pc u).submitSlot = none := by rw [h.pc]; rfl
          obtain ⟨hkept, ⟨⟨call, hpc⟩, hfree, hsettled⟩ | ⟨sl, hpc, hstage⟩⟩ :=
            pop_step h.numbered h.pc hevent hstep
          · rw [h.pc, hpc] at hnext
            rcases hnext with ⟨rc, hreturn, rfl, rfl⟩ | ⟨hinside, -⟩
            · obtain rfl := Option.some.inj hreturn
              have hback : RolledBack u ⟨(s.config.pc u).submitSlot, -1, s₁⟩ :=
                ⟨hsettled, fun _ => ⟨rfl, hfree⟩, fun sl hsome => by
                  rw [hslot] at hsome
                  cases hsome⟩
              exact h.pc ▸ .returned hstep hkept hback (hrequest (by simp))
                fun r sl sg => by simp [hpc]
            · cases hinside
          · have hinside := h.next hstep hpc hstage
            rw [h.pc, hpc] at hnext
            rcases hnext with ⟨_, hreturn, -⟩ | ⟨-, hrest⟩
            · cases hreturn
            · exact (ih hinside hrest).cons hstep (.inl hslot)
                (fun slot => hkept.leaves hstep) (hrequest (by simp))
      | fill r sl =>
          obtain ⟨hkept, at', hpc, hslot, hstage⟩ := fill_step h.pc h.stage hevent hstep
          have hinside := h.next hstep hpc hstage
          have hnone : submitReturn (s.config.pc u) (s₁.config.pc u) = none := by
            rw [h.pc]
            rfl
          rcases hnext with ⟨_, hreturn, -⟩ | ⟨-, hrest⟩
          · rw [hnone] at hreturn
            cases hreturn
          · exact (ih hinside hrest).cons hstep (.inr (by rw [h.pc, hpc, hslot]; rfl))
              (fun slot => hkept.leaves hstep) (hrequest (by simp))
      | add r sl sg =>
          have hnone : submitReturn (s.config.pc u) (s₁.config.pc u) = none := by
            rw [h.pc]
            rfl
          rcases hnext with ⟨_, hreturn, -⟩ | ⟨-, hrest⟩
          · rw [hnone] at hreturn
            cases hreturn
          · rcases add_step h.fit h.pc h.stage hevent hstep with
              hpc | ⟨hkept, hpc, hstage, hcleared⟩
            · exact absurd ((h.next hstep hpc trivial).submitted hrest) hrc
            · refine (ih (h.next hstep hpc hstage) hrest).cons hstep
                (.inr (by rw [h.pc, hpc]; rfl)) (fun slot => hkept.leaves hstep) ?_
              intro r' hr hput
              refine hr.move hmove (fun v => event_putMsg (hput v)) fun sl' sg' hpc' => ?_
              rw [h.pc] at hpc'
              cases hpc'
              exact .inr hcleared
      | account r sl => exact absurd (h.submitted hcall) hrc
      | giveBack r sl err =>
          obtain ⟨hkept, hpc, hfree, hsettled⟩ :=
            giveBack_step h.pc h.stage hevent hstep
          have hslot : (s.config.pc u).submitSlot = some sl := by rw [h.pc]; rfl
          rw [h.pc, hpc] at hnext
          rcases hnext with ⟨rc, hreturn, rfl, rfl⟩ | ⟨hinside, -⟩
          · obtain rfl := Option.some.inj hreturn
            have hback : RolledBack u ⟨(s.config.pc u).submitSlot, err, s₁⟩ := by
              refine ⟨hsettled, fun hnone => ?_, fun sl' hsome => ?_⟩
              · rw [hslot] at hnone
                cases hnone
              · obtain rfl := Option.some.inj (hslot.symm.trans hsome)
                exact ⟨h.stage.2.2, hfree⟩
            exact h.pc ▸ .returned hstep hkept hback (hrequest (by simp))
              fun r sl sg => by simp [hpc]
          · cases hinside

theorem fit_run {setup : Setup} {events : List DmaEvent}
    (hrun : GuardedRun.run step (initial setup) events = some s) :
    s.config.Fit ∧ s.Numbered := by
  refine GuardedRun.invariant_of_step
    (P := fun s : DmaConfig => s.config.Fit ∧ s.Numbered) ?_ ?_ hrun
  · rintro s x s' ⟨hfit, hnum⟩ hstep
    obtain ⟨hconfig, htrack⟩ := step_config hstep
    refine ⟨hfit.step hconfig, ?_⟩
    rw [htrack]
    exact hnum.track _
  · exact ⟨Config.fit_initial setup, ⟨by simp [initial], by simp [initial]⟩⟩

/-- A call of `Submit` that fails leaves nothing behind, whatever runs in
between: its own steps keep the queue, the counters and the mask, what it
acquired is released, its slot heads the free list again, and no slot refers
to a request that only this call had.  Only a call without a slot returns -1. -/
theorem submit_fails_without_trace (setup : Setup) (before : List DmaEvent)
    (s : DmaConfig) (hrun : GuardedRun.run step (initial setup) before = some s)
    (u : UnitNum) (r : IORequest) (hpc : s.config.pc u = .submit (.pop r))
    (during : List DmaEvent) (e : SubmitEnd)
    (hcall : submitCall u s during = some e) (hrc : e.rc ≠ 0) :
    GuardedRun.Obeys step (CallLeaves u e.slot) s during ∧ RolledBack u e ∧
      (HandedOver s.config u r → (∀ x ∈ during, ∀ v, x.event ≠ .putMsg v r) →
        ∀ v sl, ((e.state.config.unit v).inflight sl).ioreq ≠ some r) := by
  obtain ⟨hfit, hnum⟩ := fit_run hrun
  have hfailed := Inside.failed ⟨hfit, hnum, hpc, trivial⟩ hcall hrc
  exact ⟨hfailed.leaves, hfailed.rolledBack,
    fun hhanded => hfailed.request r hhanded.inHand⟩

/-- A read too long for the bounce buffer. -/
def sampleLongRead : IORequest := ⟨1, .block false, 131072, 0⟩

/-- The read at the point where its slot is taken. -/
def sampleBeforeSubmit : List DmaEvent :=
  [{ event := .start }, { event := .putMsg 0 sampleLongRead },
    { event := .task 0 {} }, { event := .task 0 {} }]

/-- Its slot has no array of DMA entries, so the mapping is ended at once. -/
def sampleFailingSubmit : List DmaEvent :=
  [{ event := .task 0 {} },
    { event := .task 0 {}, ioData := 0x5000, data := ⟨[⟨0x9000, 131072⟩], false, 0, true⟩ },
    { event := .task 0 {} }]

theorem submit_fails_without_trace_sampleFailingSubmit :
    ∃ s e, GuardedRun.run step (initial (sampleSetup true true)) sampleBeforeSubmit =
        some s ∧
      submitCall 0 s sampleFailingSubmit = some e ∧ e.rc = hferrDma ∧
      GuardedRun.Obeys step (CallLeaves 0 e.slot) s sampleFailingSubmit ∧
      RolledBack 0 e ∧
      ∀ v sl, ((e.state.config.unit v).inflight sl).ioreq ≠ some sampleLongRead := by
  have hend : (GuardedRun.run step (initial (sampleSetup true true))
      sampleBeforeSubmit).map (fun s => decide (
        s.config.pc 0 = .submit (.pop sampleLongRead) ∧
        (submitCall 0 s sampleFailingSubmit).map SubmitEnd.rc = some hferrDma ∧
        (∀ v sl, ((s.config.unit v).inflight sl).ioreq ≠ some sampleLongRead) ∧
        (∀ v, sampleLongRead ∉ s.config.port v) ∧
        ∀ v, v ≠ 0 → (s.config.pc v).request ≠ some sampleLongRead)) = some true := by
    decide +kernel
  obtain ⟨s, hrun, hs⟩ := Option.map_eq_some_iff.mp hend
  obtain ⟨hpc, hcalled, hslots, hports, htasks⟩ := of_decide_eq_true hs
  obtain ⟨e, hcall, hrc⟩ := Option.map_eq_some_iff.mp hcalled
  have hfail : e.rc ≠ 0 := by
    rw [hrc]
    decide
  obtain ⟨hleaves, hback, hrequest⟩ :=
    submit_fails_without_trace _ _ s hrun 0 _ hpc _ e hcall hfail
  exact ⟨s, e, hrun, hcall, hrc, hleaves, hback,
    hrequest ⟨hslots, hports, htasks⟩ (by simp [sampleFailingSubmit])⟩

end DmaConfig
end VirtioScsi
