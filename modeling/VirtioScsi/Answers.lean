import VirtioScsi.BufferExclusion
import VirtioScsi.Completions

/-!
# Answers

What the device answered to a chain stays in the response buffer of the chain's
user until the user is done with it.  So what `VirtIOSCSI_DoIO` reads is the
answer to its own request, as long as its buffer is its own.
-/

namespace VirtioScsi

/-- The chain a `DoIO` call added, and the completion it takes for it. -/
def Pc.accepting : Pc → Option (ℕ × Completion)
  | .sync call (.clear (some c)) => some (call.mine, c)
  | .sync call (.check (some c)) => some (call.mine, c)
  | _ => none

theorem accepting_standing {p : Pc} {mine : ℕ} {c : Completion}
    (h : p.accepting = some (mine, c)) :
    p.standing = { held := some (.done, c), reserved := true } := by
  unfold Pc.accepting at h
  split at h
  · obtain ⟨-, rfl⟩ := Prod.mk.inj (Option.some.inj h)
    rfl
  · obtain ⟨-, rfl⟩ := Prod.mk.inj (Option.some.inj h)
    rfl
  · cases h

namespace Config

open RequestQueue

variable {s s' : Config} {u : UnitNum} {e : Event} {ch : Choice} {b : ReqBuf}
  {i mine serial : ℕ} {r : Response} {c : Completion} {p : Pc} {sl : Slot}
  {x : BitVec 16 × ReqBuf} {len : BitVec 32} {q' : RequestQueue ReqBuf}

/-! ## Chains the device answered -/

def AnswersRecorded (s : Config) : Prop :=
  ∀ i, s.journal.answer i ≠ none ↔ i ∈ s.queue.hist.published.map Prod.fst

structure Answers (s s' : Config) (serial : ℕ) (b : ReqBuf) (r : Response) : Prop where
  fresh : serial ∉ s.queue.hist.published.map Prod.fst
  live : s.custody.live serial
  cookie : s.custody.cookie serial = some b
  published : s'.queue.hist.published.map Prod.fst =
    s.queue.hist.published.map Prod.fst ++ [serial]
  answer : s'.journal.answer = Function.update s.journal.answer serial (some r)
  resp : s'.resp = Function.update s.resp b r
  pc : s'.pc = s.pc
  accepted : s'.journal.accepted = s.journal.accepted
  chain : s'.custody.chain = s.custody.chain

/-- Only a completion of the device publishes an answer, and only one. -/
theorem Fit.answers (h : s.Fit) (hm : s.Move e s') :
    ((∀ i len r, e ≠ .complete i len r) ∧
      s'.queue.hist.published = s.queue.hist.published ∧
      s'.journal.answer = s.journal.answer) ∨
      ∃ serial b r, s.Answers s' serial b r := by
  obtain ⟨free, chain, hi⟩ := h.queue
  cases hm with
  | complete i len r serial x q' hpending hcomplete hadded =>
      right
      obtain ⟨serial', head', hpending', hhist, -⟩ := hi.complete hcomplete
      obtain ⟨rfl, -⟩ := Prod.mk.inj (Option.some.inj (hpending.symm.trans hpending'))
      obtain ⟨hlt, heq⟩ := List.getElem?_eq_some_iff.mp hpending
      have hmem : (serial, x.1) ∈ s.queue.dev.pending := heq ▸ List.getElem_mem hlt
      refine ⟨serial, x.2, r,
        { fresh := ?_, live := hi.ledger.pending_live hmem, cookie := by simp [custody, hadded]
          published := ?_, answer := rfl, resp := rfl, pc := rfl, accepted := rfl
          chain := rfl }⟩
      · intro hpublished
        have hnodup := hi.ledger.fetched.nodup_iff.mpr List.nodup_range
        exact (List.nodup_append.mp hnodup).2.2 _ hpublished _ (List.mem_map_of_mem hmem) rfl
      · dsimp only
        rw [hhist, List.map_append]
        rfl
  | quiet u ch s' hq => cases hq <;> exact .inl ⟨by simp, rfl, rfl⟩
  | take u ch caller serial x len q' hpc hlock htake =>
      exact .inl ⟨by simp, htake.published_eq, rfl⟩
  | takeOwn u ch call serial x len q' hpc hlock htake =>
      exact .inl ⟨by simp, htake.published_eq, rfl⟩
  | pollTake u ch call left serial x len q' hpc htake =>
      exact .inl ⟨by simp, htake.published_eq, rfl⟩
  | probeTake ch call serial x len q' p hrun hprobe htake =>
      exact .inl ⟨by simp, htake.published_eq, rfl⟩
  | stash u ch caller c hpc =>
      left
      unfold stashCookie
      split <;> exact ⟨by simp, rfl, rfl⟩
  | release u ch caller c cu cs r err actual hpc hlock =>
      left
      unfold releaseSlot
      dsimp only
      split <;> exact ⟨by simp, rfl, rfl⟩
  | leave u ch call result hpc hlock =>
      left
      split <;> exact ⟨by simp, rfl, rfl⟩
  | add u ch r sl sg q' hpc hlock hadd =>
      exact .inl ⟨by simp, hadd.published_eq, rfl⟩
  | sync u ch call sg q' hpc hlock hadd =>
      exact .inl ⟨by simp, hadd.published_eq, rfl⟩
  | probeAdd ch n tries q' hrun hprobe hadd =>
      exact .inl ⟨by simp, hadd.published_eq, rfl⟩
  | fetch q' hfetch =>
      obtain ⟨head, -, rfl, -⟩ := hi.fetch hfetch
      exact .inl ⟨by simp, rfl, rfl⟩
  | signal q' hsignal =>
      obtain ⟨-, raise, rfl, -⟩ := signal_cases hsignal
      exact .inl ⟨by simp, rfl, rfl⟩
  | rest q' hrest =>
      obtain ⟨-, -, rfl⟩ := hi.rest hrest
      exact .inl ⟨by simp, rfl, rfl⟩
  | _ => exact .inl ⟨by simp, rfl, rfl⟩

theorem AnswersRecorded.move (h : s.AnswersRecorded) (hfit : s.Fit) (hm : s.Move e s') :
    s'.AnswersRecorded := by
  intro i
  rcases hfit.answers hm with ⟨-, hpublished, hanswer⟩ | ⟨serial, b, r, ha⟩
  · rw [hpublished, hanswer]
    exact h i
  · rw [ha.published, ha.answer]
    by_cases hi : i = serial
    · simp [hi]
    · simpa [hi] using h i

theorem AnswersRecorded.of_taken (h : s.AnswersRecorded)
    (htake : s.queue.TakenFrom q' serial x len) :
    ∃ r, s.journal.answer serial = some r := by
  refine Option.ne_none_iff_exists'.mp ((h serial).mpr ?_)
  exact List.mem_map_of_mem (List.mem_of_getElem? htake.published)

theorem AnswersRecorded.cookie (h : s.AnswersRecorded) (hq : s.queue.Ok)
    (hi : s.journal.answer i ≠ none) :
    s.custody.cookie i ≠ none := by
  obtain ⟨free, chain, hinv⟩ := hq
  obtain ⟨p, hp, rfl⟩ := List.mem_map.mp ((h i).mp hi)
  have hlt := (hinv.ledger.published_lt hp).trans_le hinv.ledger.seen_le
  simpa [custody] using hlt

theorem AnswersRecorded.of_consumed (h : s.AnswersRecorded)
    (hcookie : s.custody.cookie i = some b) (hlive : ¬ s.custody.live i) :
    ∃ r, s.journal.answer i = some r := by
  refine Option.ne_none_iff_exists'.mp ((h i).mpr ?_)
  obtain ⟨x, hx, -⟩ := Option.map_eq_some_iff.mp hcookie
  have hlt : i < s.queue.hist.added.length := (List.getElem?_eq_some_iff.mp hx).1
  have hconsumed : i ∈ s.queue.hist.consumed := by
    by_contra hne
    exact hlive (History.mem_live.mpr ⟨hlt, hne⟩)
  unfold History.consumed at hconsumed
  rw [List.map_take] at hconsumed
  exact List.mem_of_mem_take hconsumed

theorem AnswersRecorded.answer_move (h : s.AnswersRecorded) (hfit : s.Fit) (hm : s.Move e s')
    (hr : s.journal.answer i = some r) : s'.journal.answer i = some r := by
  rcases hfit.answers hm with ⟨-, -, hanswer⟩ | ⟨serial, b, r', ha⟩
  · rw [hanswer, hr]
  · have hne : i ≠ serial := by
      rintro rfl
      exact ha.fresh ((h i).mp (by simp [hr]))
    rw [ha.answer, Function.update_of_ne hne, hr]

/-! ## Buffers of synchronous requests -/

inductive Finds (s : Config) (u : UnitNum) (mine : ℕ) (c : Completion) : Prop
  | own (call : SyncCall) (x : BitVec 16 × ReqBuf) (len : BitVec 32)
      (q' : RequestQueue ReqBuf) (hpc : s.Draining u (some call))
      (htake : s.queue.TakenFrom q' c.serial x len) (hown : x.2 = reqBuf u)
      (hmine : call.mine = mine)
  | picked (call : SyncCall) (hpc : s.pc u = .sync call .enter)
      (hpending : (s.unit u).doioPending = some c) (hmine : call.mine = mine)
  | polled (call : SyncCall) (left : ℕ) (x : BitVec 16 × ReqBuf) (len : BitVec 32)
      (q' : RequestQueue ReqBuf) (hpc : s.pc u = .sync call (.poll left))
      (htake : s.queue.TakenFrom q' c.serial x len) (hmine : call.mine = mine)

theorem accepting_goto {s₁ : Config} {P : Prop} (hp : p.standing.held = none)
    (h : ((s₁.goto u p).pc u).accepting = some (mine, c)) : P := by
  rw [goto_pc_self] at h
  rw [accepting_standing h] at hp
  cases hp

theorem Quiet.accepting (hq : s.Quiet u s') (h : (s'.pc u).accepting = some (mine, c)) :
    (s.pc u).accepting = some (mine, c) := by
  cases hq with
  | clear call taken hpc =>
      rw [goto_pc_self] at h
      cases taken with
      | none => cases h
      | some c' =>
          rw [hpc]
          exact h
  | message r rest hpc hport => exact accepting_goto (by rw [commandPc_standing]) h
  | handler r p hpc hp =>
      refine accepting_goto ?_ h
      rcases hp with ⟨_, _, rfl⟩ | ⟨_, _, rfl⟩ <;> rfl
  | woken call at_ hpc hsig hat =>
      refine accepting_goto ?_ h
      rw [hat]
      split <;> rfl
  | _ =>
      refine accepting_goto ?_ h
      first | rfl | (split <;> rfl)

/-- A completion that is accepted was found in one of three places. -/
theorem Move.accepting (hm : s.Move e s') (h : (s'.pc u).accepting = some (mine, c)) :
    (s.pc u).accepting = some (mine, c) ∨ ∃ ch, e = .task u ch ∧ s.Finds u mine c := by
  by_cases hother : ∃ ch, e = .task u ch
  case neg => exact .inl (by rwa [hm.pc (not_exists.mp hother)] at h)
  obtain ⟨ch, rfl⟩ := hother
  cases hm with
  | quiet _ _ _ hq => exact .inl (hq.accepting h)
  | takeOwn _ _ call serial x len q' hpc hlock htake hq hown =>
      rw [goto_pc_self] at h
      obtain ⟨hmine, rfl⟩ := Prod.mk.inj (Option.some.inj h)
      exact .inr ⟨ch, rfl, .own call x len q' hpc htake hown hmine⟩
  | pick _ _ call c' hpc hlock hpending hown =>
      rw [goto_pc_self] at h
      obtain ⟨hmine, rfl⟩ := Prod.mk.inj (Option.some.inj h)
      exact .inr ⟨ch, rfl, .picked call hpc hpending hmine⟩
  | pollTake _ _ call left serial x len q' hpc htake =>
      rw [goto_pc_self] at h
      obtain ⟨hmine, rfl⟩ := Prod.mk.inj (Option.some.inj h)
      exact .inr ⟨ch, rfl, .polled call left x len q' hpc htake hmine⟩
  | accept _ _ call c' hpc => exact accepting_goto (by rw [doioOutcome_standing]) h
  | leave _ _ call result hpc => exact accepting_goto (by rw [returnPc_standing]) h
  | take _ _ caller serial x len q' hpc =>
      rw [goto_pc_self] at h
      cases h
  | found _ _ caller c' cu cs r hpc =>
      rw [goto_pc_self] at h
      cases h
  | foreign _ _ call c' hpc =>
      rw [goto_pc_self] at h
      cases h
  | release _ _ caller c' cu cs r err actual hpc =>
      rw [goto_pc_self] at h
      cases h
  | _ =>
      refine accepting_goto ?_ h
      first | rfl | (split <;> rfl)

theorem Finds.awaiting (h : s.Finds u mine c) : (s.standing u).awaiting = some mine := by
  cases h with
  | own call x len q' hpc htake hown hmine =>
      rw [hpc.standing]
      exact congrArg some hmine
  | picked call hpc hpending hmine =>
      rw [standing_of hpc]
      exact congrArg some hmine
  | polled call left x len q' hpc htake hmine =>
      rw [standing_of hpc]
      exact congrArg some hmine

/-- The completion that ends the poll of `DoIO` is the completion of its own request. -/
theorem Core.serial_of_finds (h : s.Core) (hanswered : s.AnswersRecorded)
    (hguard : s.SyncExclusive (.task u ch)) (hfinds : s.Finds u mine c) :
    c.serial = mine ∧ ∃ r, s.journal.answer mine = some r := by
  have hmine := chain_awaiting hfinds.awaiting
  have hserial : c.serial = mine ∧ ∃ r, s.journal.answer c.serial = some r := by
    cases hfinds with
    | own call x len q' hpc htake hown =>
        exact ⟨h.own_serial hmine htake hown, hanswered.of_taken htake⟩
    | picked call hpc hpending =>
        have howned := h.custody.pending_owned u c hpending
        rw [hmine, Option.some.injEq] at howned
        obtain ⟨hcookie, hlive⟩ := h.custody.pending_taken u c hpending
        exact ⟨howned.symm, hanswered.of_consumed hcookie hlive⟩
    | polled call left x len q' hpc htake hcall =>
        have hnext : s.nextSerial = none ∨ s.nextSerial = some call.mine := by
          simpa [SyncExclusive, PcExclusive, hpc] using hguard
        have hserial : s.nextSerial = some c.serial := by simp [nextSerial, htake.published]
        rw [hserial, hcall] at hnext
        exact ⟨by simpa using hnext, hanswered.of_taken htake⟩
  exact ⟨hserial.1, hserial.1 ▸ hserial.2⟩

/-- A task that has or waits for a completion writes no buffer. -/
theorem writesBuffer_reqBuf
    (hbusy : (s.standing u).held ≠ none ∨ (s.standing u).awaiting ≠ none) :
    s.writesBuffer e ≠ some (reqBuf u) := by
  intro hwrite
  cases e with
  | task v ch =>
      simp only [writesBuffer] at hwrite
      split at hwrite
      · next r sl hpc =>
        cases hwrite
        simp [standing_of hpc, Pc.standing] at hbusy
      · next call hpc =>
        cases hwrite
        simp [standing_of hpc, Pc.standing] at hbusy
      · cases hwrite
  | probe ch =>
      simp only [writesBuffer] at hwrite
      split at hwrite <;> cases hwrite
  | _ => cases hwrite

/-! ## The invariant -/

structure AnswersKept (s : Config) : Prop where
  core : s.Core
  answered : s.AnswersRecorded
  stored : ∀ x i r, s.custody.chain x = some i → s.journal.answer i = some r →
    s.resp x.buffer = r
  taken : ∀ u mine c, (s.pc u).accepting = some (mine, c) →
    c.serial = mine ∧ s.journal.answer mine = some (s.resp (reqBuf u))
  accepted : ∀ a ∈ s.journal.accepted, a.taken.serial = a.mine ∧
    s.journal.answer a.mine = some a.response

theorem AnswersKept.stored_move (h : s.AnswersKept) (hguard : s.SyncExclusive e)
    (hm : s.Move e s') {x : User} (hx : s'.custody.chain x = some i)
    (hr : s'.journal.answer i = some r) : s'.resp x.buffer = r := by
  rcases h.core.fit.answers hm with ⟨hdevice, -, hanswer⟩ | ⟨serial, b, r', ha⟩
  · rw [hanswer] at hr
    rcases (h.core.custody_step hguard hm).chain hx with hold | hfresh
    · have hb : s.writesBuffer e ≠ some x.buffer := by
        intro hwrite
        rw [h.core.chain_of_written hguard hwrite rfl] at hold
        cases hold
      rw [(hm.same_buffer hb hdevice).2]
      exact h.stored x i r hold hr
    · exact absurd hfresh (h.answered.cookie h.core.queue (by simp [hr]))
  · rw [ha.chain] at hx
    obtain ⟨y, hy⟩ := h.core.custody.live_owned serial ha.live
    have hbuffer := h.core.custody.chain_cookie y serial hy
    rw [ha.cookie, Option.some.injEq] at hbuffer
    rw [ha.resp, ha.answer] at *
    by_cases hxy : x = y
    · subst hxy
      obtain rfl : i = serial := Option.some.inj (hx.symm.trans hy)
      simpa [hbuffer] using hr
    · have hne : x.buffer ≠ b := fun hb =>
        hxy (h.core.custody.exclusive x y i serial hx hy (hb.trans hbuffer))
      have hi : i ≠ serial := by
        rintro rfl
        exact hxy (h.core.custody.chain_inj hx hy)
      rw [Function.update_of_ne hi] at hr
      rw [Function.update_of_ne hne]
      exact h.stored x i r hx hr

/-- Nobody has a chain with the buffer of a task that has its completion. -/
theorem Core.accepting_free (h : s.Core) (hacc : (s.pc u).accepting = some (mine, c))
    {x : User} (hx : x.buffer = reqBuf u) : s.custody.chain x = none := by
  have hst : s.standing u = { held := some (.done, c), reserved := true } :=
    accepting_standing hacc
  obtain ⟨hzero, hgave⟩ := h.exclusive_of_standing (.inl (by rw [hst]))
  cases x with
  | slot v sl =>
      cases hx
      exact if_pos (.inl hzero)
  | sync v =>
      cases hx
      simp [Config.custody, chainOf, UnitView.syncChain, view, hst, hgave]
  | probe n => cases hx

theorem AnswersKept.taken_move (h : s.AnswersKept) (hguard : s.SyncExclusive e)
    (hm : s.Move e s') (hacc : (s'.pc u).accepting = some (mine, c)) :
    c.serial = mine ∧ s'.journal.answer mine = some (s'.resp (reqBuf u)) := by
  -- What was found before the step is what the buffer holds.
  have hfound : (c.serial = mine ∧ s.journal.answer mine = some (s.resp (reqBuf u))) ∧
      ((s.standing u).held ≠ none ∨ (s.standing u).awaiting ≠ none) := by
    rcases hm.accepting hacc with hkept | ⟨ch, rfl, hfinds⟩
    · refine ⟨h.taken u mine c hkept, .inl ?_⟩
      rw [standing, accepting_standing hkept]
      simp
    · obtain ⟨hserial, r, hr⟩ := h.core.serial_of_finds h.answered hguard hfinds
      have hstored := h.stored (.sync u) mine r (chain_awaiting hfinds.awaiting) hr
      exact ⟨⟨hserial, hr.trans (congrArg some hstored.symm)⟩,
        .inr (by simp [hfinds.awaiting])⟩
  obtain ⟨⟨hserial, hr⟩, hbusy⟩ := hfound
  refine ⟨hserial, ?_⟩
  rw [h.answered.answer_move h.core.fit hm hr]
  rcases h.core.fit.answers hm with ⟨hdevice, -, -⟩ | ⟨serial, b, r', ha⟩
  · rw [(hm.same_buffer (writesBuffer_reqBuf hbusy) hdevice).2]
  · rw [ha.pc] at hacc
    have hne : reqBuf u ≠ b := by
      rintro rfl
      obtain ⟨y, hy⟩ := h.core.custody.live_owned serial ha.live
      have hbuffer := h.core.custody.chain_cookie y serial hy
      rw [ha.cookie, Option.some.injEq] at hbuffer
      rw [h.core.accepting_free hacc hbuffer.symm] at hy
      cases hy
    rw [ha.resp, Function.update_of_ne hne]

theorem Move.accepted_of (hm : s.Move e s') :
    s'.journal.accepted = s.journal.accepted ∨
      (∃ u mine c, (s.pc u).accepting = some (mine, c) ∧
        s'.journal.accepted = s.journal.accepted ++ [⟨mine, c, s.resp (reqBuf u)⟩]) ∨
      ∃ ch call serial x len q', e = .probe ch ∧ s.probe = .polling call ∧
        s.queue.TakenFrom q' serial x len ∧ s'.journal.accepted =
          s.journal.accepted ++ [⟨call.mine, ⟨x.2, serial⟩, s.resp (.temp call.buf)⟩] := by
  cases hm with
  | quiet u ch s' hq => cases hq <;> exact .inl rfl
  | stash u ch caller c hpc =>
      left
      unfold stashCookie
      split <;> rfl
  | release u ch caller c cu cs r err actual hpc hlock =>
      left
      unfold releaseSlot
      dsimp only
      split <;> rfl
  | leave u ch call result hpc hlock =>
      left
      split <;> rfl
  | accept u ch call c hpc => exact .inr (.inl ⟨u, call.mine, c, by rw [hpc]; rfl, rfl⟩)
  | probeTake ch call serial x len q' p hrun hprobe htake =>
      exact .inr (.inr ⟨ch, call, serial, x, len, q', rfl, hprobe, htake, rfl⟩)
  | _ => exact .inl rfl

theorem AnswersKept.probe_own (h : s.AnswersKept) (hguard : s.SyncExclusive (.probe ch))
    {call : ProbeCall} (hprobe : s.probe = .polling call)
    (htake : s.queue.TakenFrom q' serial x len) :
    serial = call.mine ∧
      s.journal.answer call.mine = some (s.resp (.temp call.buf)) := by
  have hnext : s.nextSerial = none ∨ s.nextSerial = some call.mine := by
    simpa [SyncExclusive, ProbeExclusive, hprobe] using hguard
  have hserial : s.nextSerial = some serial := by simp [nextSerial, htake.published]
  rw [hserial] at hnext
  obtain rfl : serial = call.mine := by simpa using hnext
  obtain ⟨r, hr⟩ := h.answered.of_taken htake
  have hprobes := h.core.probes.2
  rw [hprobe] at hprobes
  have hstored := h.stored (.probe call.buf) call.mine r hprobes.2 hr
  exact ⟨rfl, hr.trans (congrArg some hstored.symm)⟩

theorem AnswersKept.accepted_move (h : s.AnswersKept) (hguard : s.SyncExclusive e)
    (hm : s.Move e s') {a : Acceptance} (ha : a ∈ s'.journal.accepted) :
    a.taken.serial = a.mine ∧ s.journal.answer a.mine = some a.response := by
  rcases hm.accepted_of with hsame | ⟨u, mine, c, hacc, hsame⟩ |
    ⟨ch, call, serial, x, len, q', rfl, hprobe, htake, hsame⟩
  · exact h.accepted a (hsame ▸ ha)
  · rw [hsame, List.mem_append, List.mem_singleton] at ha
    rcases ha with hold | rfl
    · exact h.accepted a hold
    · exact h.taken u mine c hacc
  · rw [hsame, List.mem_append, List.mem_singleton] at ha
    rcases ha with hold | rfl
    · exact h.accepted a hold
    · exact h.probe_own hguard hprobe htake

theorem AnswersKept.move (h : s.AnswersKept) (hguard : s.SyncExclusive e)
    (hm : s.Move e s') : s'.AnswersKept where
  core := h.core.move hguard hm
  answered := h.answered.move h.core.fit hm
  stored := fun x i r => h.stored_move hguard hm
  taken := fun u mine c => h.taken_move hguard hm
  accepted := by
    intro a ha
    obtain ⟨hserial, hanswer⟩ := h.accepted_move hguard hm ha
    exact ⟨hserial, h.answered.answer_move h.core.fit hm hanswer⟩

theorem AnswersKept.step (h : s.AnswersKept) (hguard : s.SyncExclusive e)
    (hstep : s.step e = some s') : s'.AnswersKept :=
  h.move hguard (h.core.move_of_step hstep)

theorem answersKept_initial (setup : Setup) : (initial setup).AnswersKept where
  core := core_initial setup
  answered := by simp [AnswersRecorded, initial, RequestQueue.initial]
  stored := by
    intro x i r hx
    rw [show (initial setup).custody.chain x = none from initial_chainOf setup x] at hx
    cases hx
  taken := by simp [initial, Pc.accepting]
  accepted := by simp [initial]

def deviceAnswers : List Event :=
  [.fetch, .complete 0 620 goodResponse, .signal, .interrupt]

end Config
end VirtioScsi
