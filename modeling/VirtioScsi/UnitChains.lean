import VirtioScsi.OwnershipMoves

/-!
# The chains with the buffers of one unit

Which chains with a buffer of a given unit the driver still has to do with:
those the device owns, those in the hands of a task that is not done with them,
and the one stashed for the unit.  Only the unit's own task adds one.
-/

namespace VirtioScsi

def ReqBuf.ofUnit (u : UnitNum) : ReqBuf → Bool
  | .slot v _ => decide (v = u)
  | .temp _ => false

theorem ofUnit_reqBuf {u v : UnitNum} (h : (reqBuf v).ofUnit u = true) : v = u :=
  of_decide_eq_true h

namespace Custody

variable {k k' : Custody} {t u v : UnitNum} {i n : ℕ} {x : User} {P Q : ℕ → Prop}

/-- The chains with buffers of unit `u` that are not done with all satisfy
`P`.  The unit's own task is not done with a completion it took for itself. -/
structure Only (k : Custody) (u : UnitNum) (P : ℕ → Prop) : Prop where
  outstanding : ∀ i b, k.live i → k.cookie i = some b → b.ofUnit u = true → P i
  inHand : ∀ t st c, k.held t = some (st, c) → st ≠ .done ∨ t = u →
    c.cookie.ofUnit u = true → P c.serial
  stashed : ∀ c, k.pending u = some c → P c.serial

theorem Only.mono (h : k.Only u P) (hPQ : ∀ i, P i → Q i) : k.Only u Q where
  outstanding := fun i b hl hc hb => hPQ i (h.outstanding i b hl hc hb)
  inHand := fun t st c hc ht hb => hPQ _ (h.inHand t st c hc ht hb)
  stashed := fun c hc => hPQ _ (h.stashed c hc)

theorem Only.congr (h : k.Only u P) (hcookie : k'.cookie = k.cookie)
    (hlive : k'.live = k.live) (hheld : k'.held = k.held)
    (hpending : k'.pending u = k.pending u) : k'.Only u P where
  outstanding := by
    rw [hlive, hcookie]
    exact h.outstanding
  inHand := by
    rw [hheld]
    exact h.inHand
  stashed := by
    rw [hpending]
    exact h.stashed

theorem Only.setHeld (h : k.Only u P) {o : Option (Hold × Completion)}
    (hnew : ∀ st c, o = some (st, c) → st ≠ .done ∨ t = u →
      c.cookie.ofUnit u = true → P c.serial) : (k.setHeld t o).Only u P where
  outstanding := h.outstanding
  inHand := by
    intro t' st c hc
    by_cases ht : t' = t
    · subst ht
      exact hnew st c (by simpa [Custody.setHeld] using hc)
    · exact h.inHand t' st c (by simpa [Custody.setHeld, ht] using hc)
  stashed := h.stashed

theorem Only.retire (h : k.Only u P) (i : ℕ) : (k.retire i).Only u P where
  outstanding := fun j b hj => h.outstanding j b hj.2
  inHand := h.inHand
  stashed := h.stashed

theorem Only.setPending (h : k.Only u P) {o : Option Completion}
    (hnew : v = u → ∀ c, o = some c → P c.serial) : (k.setPending v o).Only u P where
  outstanding := h.outstanding
  inHand := h.inHand
  stashed := by
    intro c hc
    by_cases hv : u = v
    · subst hv
      exact hnew rfl c (by simpa [Custody.setPending] using hc)
    · exact h.stashed c (by simpa [Custody.setPending, hv] using hc)

theorem Only.issue (h : k.Only u P) (hnew : x.buffer.ofUnit u = true → P n) :
    (k.issue x n).Only u P where
  outstanding := by
    intro i b hl hc hb
    by_cases hi : i = n
    · subst hi
      obtain rfl : x.buffer = b := by simpa [Custody.issue] using hc
      exact hnew hb
    · have hl' : k.live i := by simpa [Custody.issue, hi] using hl
      exact h.outstanding i b hl' (by simpa [Custody.issue, hi] using hc) hb
  inHand := h.inHand
  stashed := h.stashed

end Custody

namespace Config

open RequestQueue

variable {s s₁ s' : Config} {t u : UnitNum} {e : Event} {p : Pc} {P : ℕ → Prop}
  {q' : RequestQueue ReqBuf} {serial : ℕ} {x : BitVec 16 × ReqBuf} {len : BitVec 32}

theorem only_goto (h : s₁.custody.Only u P)
    (hnew : ∀ st c, p.standing.held = some (st, c) → st ≠ .done ∨ t = u →
      c.cookie.ofUnit u = true → P c.serial) : (s₁.goto t p).custody.Only u P := by
  rw [custody_goto]
  exact (h.setHeld hnew).congr rfl rfl rfl rfl

theorem only_idle (h : s₁.custody.Only u P) (hp : p.standing.held = none) :
    (s₁.goto t p).custody.Only u P := by
  refine only_goto h fun st c hc => ?_
  rw [hp] at hc
  cases hc

theorem only_keep (h : s₁.custody.Only u P) {st st' : Hold} {c : Completion}
    (hst : (s₁.standing t).held = some (st, c)) (hp : p.standing.held = some (st', c))
    (hne : st ≠ .done) : (s₁.goto t p).custody.Only u P := by
  refine only_goto h fun st'' c' hc _ hb => ?_
  obtain ⟨rfl, rfl⟩ : st' = st'' ∧ c = c' := by simpa [hp] using hc
  exact h.inHand t st c hst (.inl hne) hb

theorem only_take (hq : s.queue.Ok) (h : s.custody.Only u P)
    (htake : s.queue.TakenFrom q' serial x len)
    (hp : ∀ st c, p.standing.held = some (st, c) → c = ⟨x.2, serial⟩) :
    ({ s with queue := q' }.goto t p).custody.Only u P := by
  obtain ⟨hcustody, hlive, hcookie⟩ := custody_take hq htake
  have htaken : { s with queue := q' }.custody.Only u P := by
    rw [hcustody]
    exact h.retire serial
  refine only_goto htaken fun st c hc _ hb => ?_
  rw [hp st c hc] at hb ⊢
  exact h.outstanding serial x.2 hlive hcookie hb

theorem only_add (hq : s.queue.Ok) (h : s.custody.Only u P) {y : User}
    (hadd : s.queue.AddedTo q' y.buffer)
    (hnew : y.buffer.ofUnit u = true → P s.queue.hist.added.length) :
    { s with queue := q' }.custody.Only u P := by
  rw [custody_added hq hadd]
  exact (h.issue hnew).congr rfl rfl rfl rfl

theorem only_same (h : s.custody.Only u P) (hhist : s₁.queue.hist = s.queue.hist)
    (hstanding : s₁.standing = s.standing)
    (hpending : ∀ v, (s₁.unit v).doioPending = (s.unit v).doioPending) :
    s₁.custody.Only u P := by
  refine h.congr ?_ ?_ ?_ (hpending u)
  · simp only [custody, hhist]
  · simp only [custody, hhist]
  · simp only [custody, hstanding]

theorem pending_setUnit {d : DevUnit} {v : UnitNum}
    (hd : d.doioPending = (s.unit t).doioPending) :
    ((s.setUnit t d).unit v).doioPending = (s.unit v).doioPending := by
  by_cases hv : v = t
  · subst hv
    simpa [setUnit] using hd
  · simp [setUnit, hv]

theorem only_setPending (h : s.custody.Only u P) {o : Option Completion}
    (hnew : t = u → ∀ c, o = some c → P c.serial) :
    (s.setUnit t { s.unit t with doioPending := o }).custody.Only u P := by
  refine (h.setPending hnew).congr rfl rfl rfl ?_
  by_cases hu : u = t
  · subst hu
    simp [custody, setUnit, Custody.setPending]
  · simp [custody, setUnit, Custody.setPending, hu]

theorem Move.custody_device (hq : s.queue.Ok) (hm : s.Move e s')
    (htask : ∀ u ch, e ≠ .task u ch) (hprobe : ∀ ch, e ≠ .probe ch) :
    s'.custody.cookie = s.custody.cookie ∧ s'.custody.live = s.custody.live ∧
      s'.custody.held = s.custody.held ∧ s'.custody.pending = s.custody.pending := by
  obtain ⟨free, chain, hi⟩ := hq
  cases hm with
  | fetch q' hfetch =>
      obtain ⟨head, -, rfl, -⟩ := hi.fetch hfetch
      exact ⟨rfl, rfl, rfl, rfl⟩
  | complete i len r serial x q' hpending hcomplete hadded =>
      obtain ⟨_, _, -, hhist, -⟩ := hi.complete hcomplete
      refine ⟨?_, ?_, rfl, rfl⟩
      · unfold Config.custody
        rw [hhist]
      · unfold Config.custody
        rw [hhist, History.live_complete hi.ledger]
  | signal q' hsignal =>
      obtain ⟨-, raise, rfl, -⟩ := signal_cases hsignal
      exact ⟨rfl, rfl, rfl, rfl⟩
  | rest q' hrest =>
      obtain ⟨-, -, rfl⟩ := hi.rest hrest
      exact ⟨rfl, rfl, rfl, rfl⟩
  | interrupt => exact ⟨rfl, rfl, rfl, rfl⟩
  | putMsg => exact ⟨rfl, rfl, rfl, rfl⟩
  | start => exact ⟨rfl, rfl, rfl, rfl⟩
  | probeBegin ch => exact absurd rfl (hprobe ch)
  | probeFailed ch => exact absurd rfl (hprobe ch)
  | probeAdd ch => exact absurd rfl (hprobe ch)
  | probePolled ch => exact absurd rfl (hprobe ch)
  | probeTake ch => exact absurd rfl (hprobe ch)
  | _ => exact absurd rfl (htask _ _)

theorem only_task (hq : s.queue.Ok) (h : s.custody.Only u P) {ch : Choice}
    (hm : s.Move (.task t ch) s') (hnew : t = u → P s.queue.hist.added.length) :
    s'.custody.Only u P := by
  cases hm with
  | quiet _ _ s' hquiet =>
      rw [hquiet.same.1.custody]
      exact h
  | take _ _ caller serial x len q' hpc hlock htake =>
      exact only_take hq h htake fun st c hc => (Prod.mk.inj (Option.some.inj hc)).2.symm
  | takeOwn _ _ call serial x len q' hpc hlock htake =>
      exact only_take hq h htake fun st c hc => (Prod.mk.inj (Option.some.inj hc)).2.symm
  | pollTake _ _ call left serial x len q' hpc htake =>
      exact only_take hq h htake fun st c hc => (Prod.mk.inj (Option.some.inj hc)).2.symm
  | pick _ _ call c hpc hlock hpending hown =>
      have hpicked := only_setPending (t := t) (o := none) h (by simp)
      refine only_goto hpicked fun st c' hc hst hb => ?_
      obtain ⟨rfl, rfl⟩ := Prod.mk.inj (Option.some.inj hc)
      rw [hown] at hb
      obtain rfl := ofUnit_reqBuf hb
      exact h.stashed c hpending
  | found _ _ caller c cu cs r hpc hlookup =>
      exact only_keep h (congrArg Standing.held (standing_of hpc)) rfl (by simp)
  | foreign _ _ call c hpc hlookup =>
      exact only_keep h (congrArg Standing.held (standing_of hpc)) rfl (by simp)
  | stash _ _ caller c hpc =>
      have hheld : ∃ st, (s.standing t).held = some (st, c) ∧ st ≠ .done := by
        rcases hpc with ⟨rfl, hpc, -⟩ | hpc
        · exact ⟨.routing, congrArg Standing.held (standing_of hpc), by simp⟩
        · exact ⟨.stashing, congrArg Standing.held (standing_of hpc), by simp⟩
      obtain ⟨st, hst, hne⟩ := hheld
      refine only_idle ?_ rfl
      unfold stashCookie
      split
      · exact h
      · next w hw =>
        have hcookie : reqBuf w = c.cookie :=
          of_decide_eq_true (List.find?_some (p := fun w => reqBuf w = c.cookie) hw)
        have hpending : (s.setUnit w { s.unit w with doioPending := some c }).custody.Only
            u P := only_setPending h ?_
        · exact only_same hpending rfl rfl fun _ => rfl
        rintro rfl c' hc'
        obtain rfl := Option.some.inj hc'
        refine h.inHand t st c hst (.inl hne) ?_
        rw [← hcookie]
        simp [reqBuf, ReqBuf.ofUnit]
  | release _ _ caller c cu cs r err actual hpc hlock =>
      have hreleased : (s.releaseSlot cu cs).custody.Only u P := by
        unfold releaseSlot
        dsimp only
        split
        · exact only_same h rfl rfl fun v => pending_setUnit (s := s) (by rfl)
        · exact only_same h rfl rfl fun v => pending_setUnit (s := s) (by rfl)
      have hst : ((s.releaseSlot cu cs).standing t).held = some (.releasing cu cs, c) := by
        rw [standing, releaseSlot_pc, hpc]
        rfl
      exact only_keep hreleased hst rfl (by simp)
  | reply _ _ caller c r err actual hpc =>
      exact only_idle (only_same h rfl rfl fun _ => rfl) rfl
  | coalesce _ _ hpc =>
      refine only_idle (only_same h rfl rfl fun _ => rfl) ?_
      split <;> rfl
  | add _ _ r sl sg q' hpc hlock hadd =>
      have hadded := only_add (y := .slot t sl) hq h hadd
        (fun hb => hnew (of_decide_eq_true hb))
      refine only_idle (only_same hadded rfl rfl fun v => ?_) rfl
      exact pending_setUnit (s := { s with queue := q' }) (by rfl)
  | sync _ _ call sg q' hpc hlock hadd =>
      have hadded := only_add (y := .sync t) hq h hadd (fun hb => hnew (ofUnit_reqBuf hb))
      exact only_idle (only_same hadded rfl rfl fun _ => rfl) rfl
  | mark _ _ call hpc =>
      refine only_idle (only_same h rfl rfl fun _ => rfl) ?_
      split <;> rfl
  | accept _ _ call c hpc =>
      refine only_idle (only_same h rfl rfl fun _ => rfl) ?_
      rw [doioOutcome_standing]
  | leave _ _ call result hpc hlock =>
      refine only_idle ?_ (by rw [returnPc_standing])
      split <;> exact only_same h rfl rfl fun _ => rfl
  | pop _ _ r sl hpc hlock hfree =>
      exact only_idle (only_same h rfl rfl fun v => pending_setUnit (by rfl)) rfl
  | fill _ _ r sl sg hpc hsg =>
      refine only_idle (only_same h rfl rfl fun v => ?_) rfl
      exact pending_setUnit (s := s.prepare (.slot t sl) (requestId t sl)) (by rfl)
  | addFailed _ _ r sl sg hpc hlock =>
      exact only_idle (only_same h rfl rfl fun v => pending_setUnit (by rfl)) rfl
  | account _ _ r sl hpc =>
      exact only_idle (only_same h rfl rfl fun v => pending_setUnit (s := s) (by rfl)) rfl
  | giveBack _ _ r sl err hpc hlock =>
      exact only_idle (only_same h rfl rfl fun v => pending_setUnit (by rfl)) rfl
  | _ => exact only_idle (only_same h rfl rfl fun _ => rfl) rfl

/-- Chains of a unit are begun by the task of that unit alone. -/
theorem only_move (hq : s.queue.Ok) (h : s.custody.Only u P) (hm : s.Move e s')
    (hnew : ∀ ch, e = .task u ch → P s.queue.hist.added.length) :
    s'.custody.Only u P := by
  cases he : e with
  | task t ch =>
      subst he
      refine only_task hq h hm ?_
      rintro rfl
      exact hnew ch rfl
  | probe ch =>
      subst he
      cases hm with
      | probeAdd _ n tries q' hrun hprobe hadd =>
          have hadded := only_add (y := .probe n) hq h hadd (by simp [User.buffer, ReqBuf.ofUnit])
          exact only_same hadded rfl rfl fun _ => rfl
      | probeTake _ call serial x len q' p hrun hprobe htake =>
          obtain ⟨hcustody, -, -⟩ := custody_take hq htake
          have htaken : { s with queue := q' }.custody.Only u P := by
            rw [hcustody]
            exact h.retire serial
          exact only_same htaken rfl rfl fun _ => rfl
      | _ => exact only_same h rfl rfl fun _ => rfl
  | _ =>
      obtain ⟨hcookie, hlive, hheld, hpending⟩ :=
        hm.custody_device hq (by simp [he]) (by simp [he])
      exact h.congr hcookie hlive hheld (congrFun hpending u)

end Config
end VirtioScsi
