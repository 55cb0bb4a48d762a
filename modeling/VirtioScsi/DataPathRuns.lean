import VirtioScsi.DataPathSteps
import VirtioScsi.Simulation

/-!
# The data path is a block store

Every run that keeps to the contract is a run of the block store in which a
request takes effect when the device executes it.  The relation between the
two says, for each request in flight, what its memory holds: the header and
the write data until the device executes it, then the answer and the data
read.
-/

namespace VirtioScsi
namespace DataPath

open CellMemory

abbrev Store := AtomicObject.State FlightKey BlockOp BlockFate BlockResult Media

variable {s s' : DataPath} {a a' : Store} {r : PipelinedRequest} {f : Flight}
  {key : FlightKey}

/-! ## The events of the block store -/

def fateOf : Option Fault → BlockFate
  | none => .done
  | some fault => .failed fault.answer.error fault.damage

def keyOf : ReqBuf → Option FlightKey
  | .slot unit slot => some (unit, slot)
  | .temp _ => none

/-- The slot of the `i`-th chain the device works on. -/
def executing (s : DataPath) (i : ℕ) : Option FlightKey :=
  (s.shared.queue.dev.pending[i]?).bind fun p =>
    (s.shared.queue.hist.added[p.1]?).bind fun x => keyOf x.2

/-- The slot whose completion the next `GetBuf` takes. -/
def harvested (s : DataPath) : Option FlightKey :=
  s.shared.queue.getBuf.bind fun result => result.1.bind keyOf

/-- A request is invoked by `Submit`, takes effect when the device executes it,
and returns with its reply. -/
def label (s : DataPath) : Event → List (AtomicObject.Action FlightKey BlockOp BlockFate)
  | .submit r =>
      if s.submitCode r = 0 then [.invoke r.key (s.op r)]
      else [.invoke r.key (s.op r), .commit r.key (.failed (s.submitCode r) []), .ret r.key]
  | .execute i fault => (s.executing i).toList.map fun key => .commit key (fateOf fault)
  | .harvest => s.harvested.toList.map .ret
  | _ => []

/-! ## The relation -/

/-- A request in flight, and its call in the block store. -/
structure Flying (s : DataPath) (a : Store) (key : FlightKey) (f : Flight) : Prop where
  fits : f.Fits
  kind : f.op.isWrite = f.request.isWrite
  length : f.op.length = f.request.req.ioLength.toNat
  live : f.serial ∈ s.shared.queue.hist.live
  added : ∃ head, s.shared.queue.hist.added[f.serial]? = some (head, .slot key.1 key.2)
  segments : s.shared.lists[f.serial]? = some f.segments
  waiting : f.serial ∉ s.shared.queue.hist.published.map Prod.fst →
    a.calls key = some ⟨f.op, none⟩ ∧
      Requests s.media (f.outCells.map s.mem) (f.inCells.length - respCmdSize) f.op
  answered : f.serial ∈ s.shared.queue.hist.published.map Prod.fst →
    ∃ res, a.calls key = some ⟨f.op, some res⟩ ∧ f.Holds s.shared.queue.vq.modern s.mem res

structure Related (s : DataPath) (a : Store) : Prop where
  object : a.object = s.media
  returned : a.returned = s.replies
  legible : s.shared.Legible
  idle : ∀ key, s.flight key = none → a.calls key = none
  flying : ∀ key f, s.flight key = some f → s.Flying a key f
  owned : ∀ serial ∈ s.shared.queue.hist.live, ∀ x,
    s.shared.queue.hist.added[serial]? = some x →
      ∃ key f, x.2 = .slot key.1 key.2 ∧ s.flight key = some f ∧ f.serial = serial
  apart : ∀ key key' f f', key ≠ key' → s.flight key = some f → s.flight key' = some f' →
    List.Disjoint f.request.footprint f'.request.footprint

/-- What a request in flight depends on. -/
theorem Flying.congr (h : s.Flying a key f) (hcalls : a'.calls key = a.calls key)
    (hmem : ∀ cell ∈ f.request.footprint, s'.mem cell = s.mem cell)
    (hshape : SameShape s.media s'.media)
    (hmodern : s'.shared.queue.vq.modern = s.shared.queue.vq.modern)
    (hlive : f.serial ∈ s'.shared.queue.hist.live)
    (hadded : s'.shared.queue.hist.added[f.serial]? = s.shared.queue.hist.added[f.serial]?)
    (hlists : s'.shared.lists[f.serial]? = s.shared.lists[f.serial]?)
    (hpublished : f.serial ∈ s'.shared.queue.hist.published.map Prod.fst ↔
      f.serial ∈ s.shared.queue.hist.published.map Prod.fst) : s'.Flying a' key f := by
  refine ⟨h.fits, h.kind, h.length, hlive, ?_, ?_, ?_, ?_⟩
  · rw [hadded]
    exact h.added
  · rw [hlists]
    exact h.segments
  · intro hnot
    obtain ⟨hcall, hrequests⟩ := h.waiting fun hmem' => hnot (hpublished.mpr hmem')
    rw [hcalls, h.fits.outCells_congr hmem]
    exact ⟨hcall, hrequests.of_sameShape hshape⟩
  · intro hin
    obtain ⟨res, hcall, hholds⟩ := h.answered (hpublished.mp hin)
    rw [hcalls, hmodern]
    exact ⟨res, hcall, hholds.congr h.fits hmem⟩

/-- A chain has one request, and a request one chain. -/
theorem Related.serial_ne (h : Related s a) {key' : FlightKey} {f' : Flight} (hne : key ≠ key')
    (hf : s.flight key = some f) (hf' : s.flight key' = some f') : f.serial ≠ f'.serial := by
  intro hserial
  obtain ⟨head, hadded⟩ := (h.flying key f hf).added
  obtain ⟨head', hadded'⟩ := (h.flying key' f' hf').added
  rw [hserial, hadded', Option.some.injEq, Prod.mk.injEq, ReqBuf.slot.injEq] at hadded
  exact hne (Prod.ext hadded.2.1.symm hadded.2.2.symm)

/-! ## Steps that leave the chains alone -/

/-- The same chains, with the same completions published. -/
structure SameChains (shared shared' : SharedQueue ReqBuf) : Prop where
  lists : shared'.lists = shared.lists
  added : shared'.queue.hist.added = shared.queue.hist.added
  live : shared'.queue.hist.live = shared.queue.hist.live
  published : shared'.queue.hist.published = shared.queue.hist.published
  modern : shared'.queue.vq.modern = shared.queue.vq.modern

/-- The four steps that only move the device or tell it something. -/
theorem sameChains_onQueue {e : RequestQueue.Event ReqBuf} (hs : s.shared.Legible)
    (hquiet : e = .kick ∨ e = .fetch ∨ e = .signal ∨ e = .rest)
    (hstep : s.onQueue e = some s') :
    s'.shared.Legible ∧ SameChains s.shared s'.shared ∧
      s' = { s with shared := s'.shared } := by
  obtain ⟨shared, hshared, rfl⟩ := Option.map_eq_some_iff.mp hstep
  obtain ⟨free, chain, hi⟩ := hs.inv
  have hexclusive : s.shared.Exclusive (.queue e fun _ => 0) := by
    rcases hquiet with rfl | rfl | rfl | rfl <;> trivial
  refine ⟨hs.step hexclusive hshared, ?_, rfl⟩
  rcases hquiet with rfl | rfl | rfl | rfl
  · cases hshared
    exact ⟨rfl, rfl, rfl, rfl, rfl⟩
  · obtain ⟨q', hq, rfl⟩ := Option.map_eq_some_iff.mp hshared
    obtain ⟨head, -, heq, -⟩ := hi.fetch hq
    subst heq
    exact ⟨rfl, rfl, rfl, rfl, rfl⟩
  · obtain ⟨q', hq, rfl⟩ := Option.map_eq_some_iff.mp hshared
    obtain ⟨-, raise, heq, -⟩ := RequestQueue.signal_cases hq
    subst heq
    exact ⟨rfl, rfl, rfl, rfl, rfl⟩
  · obtain ⟨q', hq, rfl⟩ := Option.map_eq_some_iff.mp hshared
    obtain ⟨-, -, heq⟩ := hi.rest hq
    subst heq
    exact ⟨rfl, rfl, rfl, rfl, rfl⟩

/-- The block store does not see a step that leaves alone the chains and the
memory of the requests. -/
theorem Related.of_sameChains (h : Related s a) (hlegible : s'.shared.Legible)
    (hsame : SameChains s.shared s'.shared) (hflight : s'.flight = s.flight)
    (hmedia : s'.media = s.media) (hreplies : s'.replies = s.replies)
    (hmem : ∀ key f, s.flight key = some f →
      ∀ cell ∈ f.request.footprint, s'.mem cell = s.mem cell) : Related s' a := by
  refine ⟨?_, ?_, hlegible, ?_, ?_, ?_, ?_⟩
  · rw [hmedia]
    exact h.object
  · rw [hreplies]
    exact h.returned
  · rw [hflight]
    exact h.idle
  · intro key f hf
    rw [hflight] at hf
    have hfly := h.flying key f hf
    apply hfly.congr rfl (hmem key f hf)
    · rw [hmedia]
      exact fun _ _ => rfl
    · exact hsame.modern
    · rw [hsame.live]
      exact hfly.live
    · rw [hsame.added]
    · rw [hsame.lists]
    · rw [hsame.published]
  · rw [hsame.live, hsame.added, hflight]
    exact h.owned
  · rw [hflight]
    exact h.apart

/-! ## `Submit` -/

/-- A refused request is one that failed without an effect. -/
theorem Related.refuse (h : Related s a) {mem : ℕ → BitVec 8} {rc : Int}
    (hidle : s.flight r.key = none)
    (hapart : ∀ key f, s.flight key = some f → List.Disjoint r.footprint f.request.footprint)
    (hmem : ∀ cell, cell ∉ r.footprint → mem cell = s.mem cell) :
    ∃ a', GuardedRun.run (AtomicObject.step applyBlock) a
      [.invoke r.key (s.op r), .commit r.key (.failed rc []), .ret r.key] = some a' ∧
        Related (s.refuse r mem rc) a' := by
  have hcall := h.idle r.key hidle
  set a₁ : Store :=
    { a with calls := Function.update a.calls r.key (some ⟨s.op r, none⟩) } with ha₁
  have hcall₁ : a₁.calls r.key = some ⟨s.op r, none⟩ := Function.update_self _ _ _
  have happly : applyBlock a₁.object (s.op r) (.failed rc []) = (a.object, ⟨rc, 0, []⟩) :=
    applyBlock_refused _ _ _
  set a₂ : Store := { a₁ with
    object := a.object
    calls := Function.update a₁.calls r.key (some ⟨s.op r, some ⟨rc, 0, []⟩⟩)
    log := a₁.log ++ [⟨s.op r, .failed rc [], ⟨rc, 0, []⟩⟩] } with ha₂
  have hcommit : AtomicObject.step applyBlock a₁ (.commit r.key (.failed rc [])) = some a₂ := by
    rw [AtomicObject.step_commit hcall₁, happly]
  have hcall₂ : a₂.calls r.key = some ⟨s.op r, some ⟨rc, 0, []⟩⟩ := Function.update_self _ _ _
  refine ⟨{ a₂ with
    calls := Function.update a₂.calls r.key none
    returned := a₂.returned ++ [(r.key, s.op r, ⟨rc, 0, []⟩)] }, ?_, ?_⟩
  · simp only [GuardedRun.run, AtomicObject.step_invoke hcall]
    rw [← ha₁, hcommit]
    dsimp only
    rw [AtomicObject.step_ret hcall₂]
  have hcalls : Function.update a₂.calls r.key none = a.calls := by
    rw [ha₂, ha₁]
    dsimp only
    rw [Function.update_idem, Function.update_idem, ← hcall, Function.update_eq_self]
  rw [hcalls]
  refine ⟨h.object, ?_, h.legible, h.idle, ?_, h.owned, h.apart⟩
  · show a.returned ++ _ = s.replies ++ _
    rw [h.returned]
  · intro key f hf
    have hfly := h.flying key f hf
    have hkept : ∀ cell ∈ f.request.footprint, mem cell = s.mem cell := fun cell hcell =>
      hmem cell fun hown => hapart key f hf hown hcell
    exact hfly.congr rfl hkept (fun _ _ => rfl) rfl hfly.live rfl rfl Iff.rfl

/-- What `AddBuf` does to the chains. -/
theorem addBuf_chains {shared : SharedQueue ReqBuf} {sg : ℕ → VringSg} {outNum inNum : ℕ}
    {cookie : ReqBuf} {env : Virtqueue.IndirectEnv} {place : ℕ → BitVec 64}
    (hs : shared.Legible) (hpos : 1 ≤ outNum + inNum)
    (hrc : (shared.addBuf sg outNum inNum cookie env place).1 = 0) :
    let shared' := (shared.addBuf sg outNum inNum cookie env place).2
    shared'.lists = shared.lists ++ [(List.range (outNum + inNum)).map (segment sg outNum)] ∧
      shared'.queue.hist.added = shared.queue.hist.added ++
        [(shared.queue.vq.freeHead, cookie)] ∧
      shared'.queue.hist.live = shared.queue.hist.live ++ [shared.queue.hist.added.length] ∧
      shared'.queue.hist.published = shared.queue.hist.published ∧
      shared'.queue.vq.modern = shared.queue.vq.modern := by
  obtain ⟨free, chain, hi⟩ := hs.inv
  have hrc' : (shared.queue.addBuf sg outNum inNum cookie env).1 = 0 := hrc
  obtain ⟨hadded, -, -⟩ := hi.addBuf hpos hrc'
  have hstate : (shared.addBuf sg outNum inNum cookie env place).2 =
      { queue := (shared.queue.addBuf sg outNum inNum cookie env).2
        memory := SharedQueue.fill shared.memory
          (shared.queue.addBuf sg outNum inNum cookie env).2.vq shared.queue.vq.freeHead place
        lists := shared.lists ++ [(List.range (outNum + inNum)).map (segment sg outNum)] } :=
    if_pos hrc
  intro shared'
  have hshared : shared' = _ := hstate
  rw [hshared]
  refine ⟨rfl, hadded.added_eq, ?_, hadded.published_eq, hadded.vring.setup.modern⟩
  show (shared.queue.addBuf sg outNum inNum cookie env).2.hist.live = _
  rw [hadded.hist]
  exact History.live_addBuf hi.ledger _

/-- An accepted request is in flight, with header and write data in place. -/
theorem Related.accept (h : Related s a) {data : DataSegments} (hadm : s.Admissible r)
    (hidle : s.flight r.key = none)
    (hdata : submitData r.layout.ioData r.layout.ioLength r.layout.slot.data = some data)
    (hmax : (r.sgList data).outNum + (r.sgList data).inNum ≤ maxSgEntries)
    (hrc : (s.shared.addBuf (r.sgList data).get (r.sgList data).outNum (r.sgList data).inNum
      (.slot r.unit r.slot) r.layout.slot.exec r.place).1 = 0) :
    ∃ a', GuardedRun.run (AtomicObject.step applyBlock) a [.invoke r.key (s.op r)] = some a' ∧
      Related { s with
        shared := (s.shared.addBuf (r.sgList data).get (r.sgList data).outNum
          (r.sgList data).inNum (.slot r.unit r.slot) r.layout.slot.exec r.place).2
        mem := s.bounce r data
        flight := Function.update s.flight r.key
          (some ⟨r, data, s.shared.queue.hist.added.length, s.op r⟩) } a' := by
  have hcall := h.idle r.key hidle
  obtain ⟨free, chain, hi⟩ := h.legible.inv
  have hlegible := h.legible.addBuf (r.sgList_pos data) hmax (hadm.tables data) hrc
  obtain ⟨hlists, hadded, hlive, hpublished, hmodern⟩ :=
    addBuf_chains h.legible (r.sgList_pos data) hrc
  set shared := (s.shared.addBuf (r.sgList data).get (r.sgList data).outNum
    (r.sgList data).inNum (.slot r.unit r.slot) r.layout.slot.exec r.place).2
  set serial := s.shared.queue.hist.added.length with hserial
  set new : Flight := ⟨r, data, serial, s.op r⟩ with hnew
  refine ⟨{ a with calls := Function.update a.calls r.key (some ⟨s.op r, none⟩) }, ?_, ?_⟩
  · simp only [GuardedRun.run, AtomicObject.step_invoke hcall]
  have hold : ∀ key f, Function.update s.flight r.key (some new) key = some f →
      (key = r.key ∧ f = new) ∨ (key ≠ r.key ∧ s.flight key = some f) := by
    intro key f hf
    by_cases hkey : key = r.key
    · subst hkey
      rw [Function.update_self, Option.some.injEq] at hf
      exact .inl ⟨rfl, hf.symm⟩
    · rw [Function.update_of_ne hkey] at hf
      exact .inr ⟨hkey, hf⟩
  have hfresh : serial ∉ s.shared.queue.hist.published.map Prod.fst := by
    intro hmem
    obtain ⟨p, hp, heq⟩ := List.mem_map.mp hmem
    have hlt := (hi.ledger.published_lt hp).trans_le hi.ledger.seen_le
    omega
  refine ⟨h.object, h.returned, hlegible, ?_, ?_, ?_, ?_⟩
  · intro key hf
    dsimp only at hf ⊢
    have hkey : key ≠ r.key := by
      intro hkey
      rw [hkey, Function.update_self] at hf
      cases hf
    rw [Function.update_of_ne hkey] at hf ⊢
    exact h.idle key hf
  · intro key f hf
    rcases hold key f hf with ⟨rfl, rfl⟩ | ⟨hkey, hf'⟩
    · refine ⟨fits_of_submitData hadm hdata _ _, rfl, rfl, ?_, ?_, ?_, ?_, ?_⟩
      · show serial ∈ shared.queue.hist.live
        rw [hlive]
        exact List.mem_append_right _ (List.mem_singleton_self _)
      · refine ⟨s.shared.queue.vq.freeHead, ?_⟩
        show shared.queue.hist.added[serial]? = _
        rw [hadded, hserial, List.getElem?_concat_length]
        rfl
      · show shared.lists[serial]? = _
        rw [hlists, hserial, ← h.legible.lengths, List.getElem?_concat_length]
        rfl
      · intro _
        exact ⟨Function.update_self _ _ _, requests_submit hadm hdata serial⟩
      · intro hmem
        have hmem' : serial ∈ shared.queue.hist.published.map Prod.fst := hmem
        rw [hpublished] at hmem'
        exact absurd hmem' hfresh
    · have hfly := h.flying key f hf'
      have hlt := (History.mem_live.mp hfly.live).1
      have hkept : ∀ cell ∈ f.request.footprint, s.bounce r data cell = s.mem cell :=
        fun cell hcell => bounce_mem hadm hdata fun hown => hadm.apart key f hf' hown hcell
      refine hfly.congr (Function.update_of_ne hkey _ _) hkept (fun _ _ => rfl) hmodern
        ?_ ?_ ?_ ?_
      · show f.serial ∈ shared.queue.hist.live
        rw [hlive]
        exact List.mem_append_left _ hfly.live
      · show shared.queue.hist.added[f.serial]? = _
        rw [hadded, List.getElem?_append_left hlt]
      · show shared.lists[f.serial]? = _
        rw [hlists, List.getElem?_append_left (by rw [h.legible.lengths]; exact hlt)]
      · show f.serial ∈ shared.queue.hist.published.map Prod.fst ↔ _
        rw [hpublished]
  · intro other hmem x hx
    have hmem' : other ∈ shared.queue.hist.live := hmem
    have hx' : shared.queue.hist.added[other]? = some x := hx
    rw [hlive, List.mem_append, List.mem_singleton] at hmem'
    rw [hadded] at hx'
    rcases hmem' with hkept | rfl
    · rw [List.getElem?_append_left (History.mem_live.mp hkept).1] at hx'
      obtain ⟨key, f, hcookie, hf, heq⟩ := h.owned other hkept x hx'
      have hkey : key ≠ r.key := by
        intro hkey
        rw [hkey, hidle] at hf
        cases hf
      exact ⟨key, f, hcookie, (Function.update_of_ne hkey _ _).trans hf, heq⟩
    · rw [hserial, List.getElem?_concat_length, Option.some.injEq] at hx'
      rw [← hx']
      exact ⟨r.key, new, rfl, Function.update_self _ _ _, rfl⟩
  · intro key key' f f' hne hf hf'
    rcases hold key f hf with ⟨rfl, rfl⟩ | ⟨hkey, hf₁⟩
    · rcases hold key' f' hf' with ⟨rfl, rfl⟩ | ⟨-, hf₂⟩
      · exact absurd rfl hne
      · exact hadm.apart key' f' hf₂
    · rcases hold key' f' hf' with ⟨rfl, rfl⟩ | ⟨-, hf₂⟩
      · exact (hadm.apart key f hf₁).symm
      · exact h.apart key key' f f' hne hf₁ hf₂

/-! ## The device -/

/-- The device leaves behind what the reply needs, and has done what the block
store does. -/
theorem Flying.done (hfly : s.Flying a key f) {fault : Option Fault}
    (hfault : ∀ fault', fault = some fault' → fault'.answer.error ≠ 0)
    (hrequests : Requests s.media (f.outCells.map s.mem) (f.inCells.length - respCmdSize) f.op) :
    let done := deviceDo s.media (f.outCells.map s.mem) (f.inCells.length - respCmdSize) fault
    let applied := applyBlock s.media f.op (fateOf fault)
    done.1 = applied.1 ∧
      f.Holds s.shared.queue.vq.modern (write s.mem f.inCells
        (answerBytes s.shared.queue.vq.modern done.2.1 ++ done.2.2)) applied.2 := by
  obtain ⟨hfail, hsilent⟩ := applyBlock_result s.media f.op (fateOf fault)
  rw [hfly.kind] at hsilent
  cases fault with
  | none =>
      obtain ⟨hmedia, herror, hok⟩ := deviceExecute_applies hrequests
      refine ⟨hmedia, hfly.fits.holds_answer herror ?_ hfail hsilent⟩
      intro hzero
      obtain ⟨hresidual, hactual, hdata⟩ := hok hzero
      rw [hfly.length, BitVec.ofNat_toNat, BitVec.setWidth_eq] at hactual
      refine ⟨hresidual, hactual, ?_⟩
      intro hread
      obtain ⟨hbytes, hlength⟩ := hdata (hfly.kind.trans hread)
      rw [hfly.length, ← hfly.fits.dataCells_length] at hlength
      exact ⟨hbytes, hlength⟩
  | some fault =>
      refine ⟨deviceFail_applies hrequests fault, hfly.fits.holds_answer rfl ?_ hfail hsilent⟩
      intro hzero
      exact absurd hzero (hfault fault rfl)

/-- The chains are the same but for one more completion. -/
structure Publishes (shared shared' : SharedQueue ReqBuf) (serial : ℕ) : Prop where
  legible : shared'.Legible
  lists : shared'.lists = shared.lists
  added : shared'.queue.hist.added = shared.queue.hist.added
  live : shared'.queue.hist.live = shared.queue.hist.live
  modern : shared'.queue.vq.modern = shared.queue.vq.modern
  published : ∀ other, other ∈ shared'.queue.hist.published.map Prod.fst ↔
    other ∈ shared.queue.hist.published.map Prod.fst ∨ other = serial

theorem publishes_complete {shared shared' : SharedQueue ReqBuf} (hs : shared.Legible) {i : ℕ}
    {len : BitVec 32} {serial : ℕ} {head : BitVec 16}
    (hpending : shared.queue.dev.pending[i]? = some (serial, head))
    (hstep : shared.step (.queue (.complete i len) fun _ => 0) = some shared') :
    Publishes shared shared' serial := by
  have hexclusive : shared.Exclusive (.queue (.complete i len) fun _ => 0) := trivial
  have hlegible := hs.step hexclusive hstep
  obtain ⟨free, chain, hi⟩ := hs.inv
  obtain ⟨q', hq, rfl⟩ := Option.map_eq_some_iff.mp hstep
  obtain ⟨serial', head', hpending', hhist, -, hvq, -, -⟩ := hi.complete hq
  rw [hpending, Option.some.injEq, Prod.mk.injEq] at hpending'
  obtain ⟨rfl, rfl⟩ := hpending'
  refine ⟨hlegible, rfl, ?_, ?_, ?_, ?_⟩
  · show q'.hist.added = _
    rw [hhist]
  · show q'.hist.live = _
    rw [hhist]
    exact History.live_complete hi.ledger _
  · show q'.vq.modern = _
    rw [hvq]
  · intro other
    dsimp only
    rw [hhist]
    simp only [List.map_append, List.map_cons, List.map_nil, List.mem_append,
      List.mem_singleton]

/-- The device works on a request in flight, and reads its cells. -/
theorem Related.execute_cases (h : Related s a) {i : ℕ} {fault : Option Fault}
    (hstep : s.execute i fault = some s') :
    ∃ key f shared', s.executing i = some key ∧ s.flight key = some f ∧
      f.serial ∉ s.shared.queue.hist.published.map Prod.fst ∧
      Publishes s.shared shared' f.serial ∧
      let done := deviceDo s.media (f.outCells.map s.mem) (f.inCells.length - respCmdSize) fault
      s' = { s with
        shared := shared'
        mem := write s.mem f.inCells
          (answerBytes s.shared.queue.vq.modern done.2.1 ++ done.2.2)
        media := done.1 } := by
  obtain ⟨free, chain, hi⟩ := h.legible.inv
  unfold DataPath.execute at hstep
  cases hpending : s.shared.queue.dev.pending[i]? with
  | none => simp [hpending] at hstep
  | some p =>
      obtain ⟨serial, head⟩ := p
      have hmem : (serial, head) ∈ s.shared.queue.dev.pending := by
        obtain ⟨hlt, heq⟩ := List.getElem?_eq_some_iff.mp hpending
        exact heq ▸ List.getElem_mem hlt
      have hlive := hi.ledger.pending_live hmem
      obtain ⟨cookie, hadded⟩ := hi.ledger.added_of_pending hmem
      obtain ⟨key, f, hcookie, hf, hserial⟩ := h.owned serial hlive _ hadded
      dsimp only at hadded hcookie hserial hlive
      subst hserial
      have hread := h.legible.reads f.serial hlive _ hadded
      rw [(h.flying key f hf).segments] at hread
      have hexecuting : s.executing i = some key := by
        unfold executing
        rw [hpending, Option.bind_some, hadded, Option.bind_some, hcookie]
        rfl
      have hnew : f.serial ∉ s.shared.queue.hist.published.map Prod.fst := by
        intro hpublished
        have hnodup := hi.ledger.fetched.nodup_iff.mpr List.nodup_range
        exact (List.nodup_append.mp hnodup).2.2 _ hpublished _
          (List.mem_map_of_mem hmem) rfl
      rw [hpending] at hstep
      dsimp only at hstep hread
      rw [hread] at hstep
      dsimp only at hstep
      rw [f.outCells_eq, f.inCells_eq] at hstep
      obtain ⟨shared', hshared, rfl⟩ := Option.map_eq_some_iff.mp hstep
      exact ⟨key, f, shared', hexecuting, hf, hnew,
        publishes_complete h.legible hpending hshared, rfl⟩

theorem Related.execute (h : Related s a) {i : ℕ} {fault : Option Fault}
    (hfault : ∀ fault', fault = some fault' → fault'.answer.error ≠ 0)
    (hstep : s.execute i fault = some s') :
    ∃ a', GuardedRun.run (AtomicObject.step applyBlock) a (s.label (.execute i fault)) =
      some a' ∧ Related s' a' := by
  obtain ⟨key, f, shared', hexecuting, hf, hnew, hpublish, hs'⟩ := h.execute_cases hstep
  have hfly := h.flying key f hf
  obtain ⟨hcall, hrequests⟩ := hfly.waiting hnew
  obtain ⟨hmedia, hholds⟩ := hfly.done hfault hrequests
  set done := deviceDo s.media (f.outCells.map s.mem) (f.inCells.length - respCmdSize) fault
  have hlabel : s.label (.execute i fault) = [.commit key (fateOf fault)] := by
    unfold label
    dsimp only
    rw [hexecuting]
    rfl
  rw [hlabel]
  refine ⟨{ a with
    object := (applyBlock a.object f.op (fateOf fault)).1
    calls := Function.update a.calls key
      (some ⟨f.op, some (applyBlock a.object f.op (fateOf fault)).2⟩)
    log := a.log ++ [⟨f.op, fateOf fault, (applyBlock a.object f.op (fateOf fault)).2⟩] },
    ?_, ?_⟩
  · simp only [GuardedRun.run, AtomicObject.step_commit hcall]
  rw [hs', h.object]
  refine ⟨hmedia.symm, h.returned, hpublish.legible, ?_, ?_, ?_, h.apart⟩
  · intro other hother
    have hne : other ≠ key := by
      intro hsame
      rw [hsame] at hother
      exact absurd (hother.symm.trans hf) (by simp)
    exact (Function.update_of_ne hne _ _).trans (h.idle other hother)
  · intro other g hg
    have hg' : s.flight other = some g := hg
    by_cases hsame : other = key
    · subst hsame
      rw [hf, Option.some.injEq] at hg'
      subst hg'
      refine ⟨hfly.fits, hfly.kind, hfly.length, hpublish.live ▸ hfly.live,
        hpublish.added ▸ hfly.added, hpublish.lists ▸ hfly.segments, ?_, ?_⟩
      · intro hnot
        exact absurd ((hpublish.published f.serial).mpr (.inr rfl)) hnot
      · intro _
        refine ⟨_, Function.update_self _ _ _, ?_⟩
        dsimp only
        rw [hpublish.modern]
        exact hholds
    · have hgfly := h.flying other g hg'
      have hkept : ∀ cell ∈ g.request.footprint, write s.mem f.inCells
          (answerBytes s.shared.queue.vq.modern done.2.1 ++ done.2.2) cell = s.mem cell := by
        intro cell hcell
        apply write_of_notMem
        intro hin
        exact h.apart other key g f hsame hg' hf hcell (hfly.fits.inCells_mem hin)
      have hshape : SameShape s.media done.1 := by
        rw [hmedia]
        exact sameShape_applyBlock _ _ _
      refine hgfly.congr (Function.update_of_ne hsame _ _) hkept hshape hpublish.modern
        (hpublish.live ▸ hgfly.live) (by dsimp only; rw [hpublish.added])
        (by dsimp only; rw [hpublish.lists]) ?_
      dsimp only
      rw [hpublish.published, or_iff_left (h.serial_ne hsame hg' hf)]
  · intro other hother x hx
    dsimp only at hother hx ⊢
    rw [hpublish.live] at hother
    rw [hpublish.added] at hx
    exact h.owned other hother x hx

/-! ## `Harvest` -/

/-- The chains are the same but for the one that was taken back. -/
structure Takes (shared shared' : SharedQueue ReqBuf) (serial : ℕ) : Prop where
  legible : shared'.Legible
  lists : shared'.lists = shared.lists
  added : shared'.queue.hist.added = shared.queue.hist.added
  live : ∀ other, other ∈ shared'.queue.hist.live ↔
    other ∈ shared.queue.hist.live ∧ other ≠ serial
  modern : shared'.queue.vq.modern = shared.queue.vq.modern
  published : shared'.queue.hist.published = shared.queue.hist.published

/-- `Harvest` finds nothing, or completes a request that the device has
executed. -/
theorem Related.harvest_cases (h : Related s a) (hstep : s.harvest = some s') :
    (s.harvested = none ∧ s' = s) ∨
      ∃ key f shared', s.harvested = some key ∧ s.flight key = some f ∧
        f.serial ∈ s.shared.queue.hist.published.map Prod.fst ∧
        Takes s.shared shared' f.serial ∧
        s' = { s with shared := shared' }.completeInflightSlot key f := by
  obtain ⟨free, chain, hi⟩ := h.legible.inv
  unfold harvest at hstep
  rcases hi.getBuf with ⟨hempty, -⟩ | ⟨serial, x, len, q', htake, htaken, -⟩
  · rw [hempty, Option.map_some, Option.some.injEq] at hstep
    refine .inl ⟨?_, hstep.symm⟩
    unfold harvested
    rw [hempty]
    rfl
  · have hserial := hi.ledger.next_live htaken.published
    obtain ⟨key, f, hcookie, hf, hsame⟩ := h.owned serial hserial x htaken.added
    subst hsame
    have hflight : s.flight (key.1, key.2) = some f := hf
    rw [htake, Option.map_some, hcookie, Option.some.injEq] at hstep
    dsimp only at hstep
    rw [hflight] at hstep
    refine .inr ⟨key, f, { s.shared with queue := q' }, ?_, hf, ?_, ?_, hstep.symm⟩
    · unfold harvested
      rw [htake, Option.bind_some, Option.bind_some, hcookie]
      rfl
    · exact List.mem_map_of_mem (List.mem_of_getElem? htaken.published)
    · refine ⟨h.legible.getBuf htake, rfl, htaken.added_eq, ?_, htaken.vring.setup.modern,
        htaken.published_eq⟩
      intro other
      dsimp only
      rw [htaken.hist, History.live_getBuf htaken.published, List.mem_filter,
        decide_eq_true_iff]

theorem Related.harvest (h : Related s a) (hstep : s.harvest = some s') :
    ∃ a', GuardedRun.run (AtomicObject.step applyBlock) a (s.label .harvest) = some a' ∧
      Related s' a' := by
  rcases h.harvest_cases hstep with ⟨hnone, rfl⟩ | ⟨key, f, shared', hkey, hf, hin, htakes, hs'⟩
  · refine ⟨a, ?_, h⟩
    unfold label
    dsimp only
    rw [hnone]
    rfl
  have hfly := h.flying key f hf
  obtain ⟨res, hcall, hholds⟩ := hfly.answered hin
  have hlabel : s.label .harvest = [.ret key] := by
    unfold label
    dsimp only
    rw [hkey]
    rfl
  set s₁ : DataPath := { s with shared := shared' } with hs₁
  have hholds₁ : f.Holds s₁.shared.queue.vq.modern s₁.mem res := by
    show f.Holds shared'.queue.vq.modern s.mem res
    rw [htakes.modern]
    exact hholds
  have hreplies : (s₁.completeInflightSlot key f).replies = s₁.replies ++ [(key, f.op, res)] :=
    completeInflightSlot_replies hfly.fits hholds₁
  rw [hlabel]
  refine ⟨{ a with
    calls := Function.update a.calls key none
    returned := a.returned ++ [(key, f.op, res)] }, ?_, ?_⟩
  · simp only [GuardedRun.run, AtomicObject.step_ret hcall]
  rw [hs']
  have hold : ∀ other g, (s₁.completeInflightSlot key f).flight other = some g →
      other ≠ key ∧ s.flight other = some g := by
    intro other g hg
    have hg' : Function.update s.flight key none other = some g := hg
    by_cases hsame : other = key
    · rw [hsame, Function.update_self] at hg'
      cases hg'
    · rw [Function.update_of_ne hsame] at hg'
      exact ⟨hsame, hg'⟩
  refine ⟨h.object, ?_, htakes.legible, ?_, ?_, ?_, ?_⟩
  · rw [hreplies]
    show a.returned ++ _ = s.replies ++ _
    rw [h.returned]
  · intro other hother
    have hother' : Function.update s.flight key none other = none := hother
    by_cases hsame : other = key
    · subst hsame
      exact Function.update_self _ _ _
    · rw [Function.update_of_ne hsame] at hother'
      exact (Function.update_of_ne hsame _ _).trans (h.idle other hother')
  · intro other g hg
    obtain ⟨hne, hg'⟩ := hold other g hg
    have hgfly := h.flying other g hg'
    have hkept : ∀ cell ∈ g.request.footprint,
        (s₁.completeInflightSlot key f).mem cell = s.mem cell := fun cell hcell =>
      completeInflightSlot_mem fun hown => h.apart other key g f hne hg' hf hcell hown
    have hlive : g.serial ∈ shared'.queue.hist.live :=
      (htakes.live g.serial).mpr ⟨hgfly.live, h.serial_ne hne hg' hf⟩
    have hadded : shared'.queue.hist.added[g.serial]? = s.shared.queue.hist.added[g.serial]? := by
      rw [htakes.added]
    have hpublished : g.serial ∈ shared'.queue.hist.published.map Prod.fst ↔
        g.serial ∈ s.shared.queue.hist.published.map Prod.fst := by
      rw [htakes.published]
    exact hgfly.congr (Function.update_of_ne hne _ _) hkept (fun _ _ => rfl) htakes.modern hlive
      hadded (by rw [← htakes.lists]; rfl) hpublished
  · intro other hother x hx
    have hother' := (htakes.live other).mp hother
    have hx' : shared'.queue.hist.added[other]? = some x := hx
    rw [htakes.added] at hx'
    obtain ⟨key', g, hcookie, hg, hserial⟩ := h.owned other hother'.1 x hx'
    have hne : key' ≠ key := by
      intro hsame
      rw [hsame, hf, Option.some.injEq] at hg
      rw [← hg] at hserial
      exact hother'.2 hserial.symm
    exact ⟨key', g, hcookie, (Function.update_of_ne hne _ _).trans hg, hserial⟩
  · intro other other' g g' hne hg hg'
    exact h.apart other other' g g' hne (hold other g hg).2 (hold other' g' hg').2

/-! ## Runs -/

theorem Related.step {e : Event} (h : Related s a) (hcontract : s.Contract e)
    (hstep : s.step e = some s') :
    ∃ a', GuardedRun.run (AtomicObject.step applyBlock) a (s.label e) = some a' ∧
      Related s' a' := by
  cases e with
  | submit r =>
      obtain ⟨hidle, hcases⟩ := submit_cases hcontract hstep
      unfold label
      dsimp only
      rcases hcases with ⟨hcode, mem, rfl, hmem⟩ | ⟨hcode, data, hdata, hmax, hrc, rfl⟩
      · rw [if_neg hcode]
        exact h.refuse hidle hcontract.apart hmem
      · rw [if_pos hcode]
        exact h.accept hcontract hidle hdata hmax hrc
  | execute i fault =>
      apply h.execute _ hstep
      rintro fault' rfl
      exact hcontract
  | harvest => exact h.harvest hstep
  | kick =>
      obtain ⟨hlegible, hsame, hs'⟩ := sameChains_onQueue h.legible (.inl rfl) hstep
      rw [hs']
      exact ⟨a, rfl, h.of_sameChains hlegible hsame rfl rfl rfl fun _ _ _ _ _ => rfl⟩
  | fetch =>
      obtain ⟨hlegible, hsame, hs'⟩ := sameChains_onQueue h.legible (.inr (.inl rfl)) hstep
      rw [hs']
      exact ⟨a, rfl, h.of_sameChains hlegible hsame rfl rfl rfl fun _ _ _ _ _ => rfl⟩
  | signal =>
      obtain ⟨hlegible, hsame, hs'⟩ :=
        sameChains_onQueue h.legible (.inr (.inr (.inl rfl))) hstep
      rw [hs']
      exact ⟨a, rfl, h.of_sameChains hlegible hsame rfl rfl rfl fun _ _ _ _ _ => rfl⟩
  | rest =>
      obtain ⟨hlegible, hsame, hs'⟩ :=
        sameChains_onQueue h.legible (.inr (.inr (.inr rfl))) hstep
      rw [hs']
      exact ⟨a, rfl, h.of_sameChains hlegible hsame rfl rfl rfl fun _ _ _ _ _ => rfl⟩
  | client cell value =>
      cases hstep
      refine ⟨a, rfl, h.of_sameChains h.legible ⟨rfl, rfl, rfl, rfl, rfl⟩ rfl rfl rfl ?_⟩
      intro key f hf cell' hcell'
      apply Function.update_of_ne
      rintro rfl
      exact hcontract key f hf hcell'
  | table cell value =>
      rw [← Option.some.inj hstep]
      have hexclusive : s.shared.Exclusive (.outside cell value) := hcontract
      have hlegible := h.legible.step hexclusive rfl
      exact ⟨a, rfl, h.of_sameChains hlegible ⟨rfl, rfl, rfl, rfl, rfl⟩ rfl rfl rfl
        fun _ _ _ _ _ => rfl⟩
  | learn unit geometry =>
      cases hstep
      exact ⟨a, rfl, h.of_sameChains h.legible ⟨rfl, rfl, rfl, rfl, rfl⟩ rfl rfl rfl
        fun _ _ _ _ _ => rfl⟩

variable {j : ℕ} {modern useEventIdx useIndirect : Bool} {units : UnitNum → UnitAddress}
  {tables : BitVec 64 → VringDesc} {mem : ℕ → BitVec 8} {media : Media} {events : List Event}

section Sample

/-- A read of block 2. -/
def sampleRequest : PipelinedRequest where
  unit := 0
  slot := 1
  req := ⟨.cmdRead, 0, 8, 4, 0x4000⟩
  isWrite := false
  layout := TransferLayout.sampleLayout
  place := fun _ => 0
  dispatched := rfl
  ioData := rfl
  ioLength := rfl

def sampleRead : List Event :=
  [.submit sampleRequest, .kick, .fetch, .execute 0 none, .signal, .harvest]

end Sample

end DataPath
end VirtioScsi
