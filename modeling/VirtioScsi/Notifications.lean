import VirtioScsi.UnitRuns

/-!
# Notifications owed to the device

`VirtIOSCSI_Submit` adds chains without a notify and leaves the kick to the
end of the batch; `VirtIOSCSI_DoIO` kicks on its own, in the middle of it.  A
task that blocks owes no notify: every chain it added was in the available
ring when some task last wrote QUEUE_NOTIFY.
-/

namespace VirtioScsi
namespace Config

open RequestQueue

variable {s s' : Config} {u v : UnitNum} {ch : Choice} {e : Event}

/-- QUEUE_NOTIFY was written when every chain had been added. -/
def Kicked (s : Config) : Prop :=
  s.queue.dev.notified = true ∧ s.queue.dev.noted = s.queue.hist.added.length

/-- A task inside a batch that still has to kick, or about to do so. -/
def PcOwes (needKick : Bool) : Pc → Prop
  | .wait => False
  | .drain _ => False
  | .handle _ _ _ => False
  | .coalesce => False
  | .dispatch => needKick = true
  | .submit (.account _ _) => True
  | .submit _ => needKick = true
  | .handler _ => needKick = true
  | .sync _ .mark => True
  | .sync _ .fill => needKick = true
  | .sync _ (.add _) => needKick = true
  | .sync _ (.leave _) => needKick = true
  | .sync _ _ => False
  | .finish _ _ _ => needKick = true
  | .kick => needKick = true

def Owes (s : Config) (u : UnitNum) : Prop :=
  PcOwes (s.needKick u) (s.pc u)

theorem Move.needKick (hm : s.Move e s') (hother : ∀ ch, e ≠ .task v ch) :
    s'.needKick v = s.needKick v := by
  have hne : ∀ u ch, e = .task u ch → v ≠ u := by
    rintro u ch rfl rfl
    exact hother ch rfl
  cases hm with
  | quiet u ch s' hq => cases hq <;> rfl
  | stash u ch caller c hpc =>
      unfold stashCookie
      split <;> rfl
  | release u ch caller c cu cs r err actual hpc hlock =>
      unfold releaseSlot
      dsimp only
      split <;> rfl
  | account u ch r sl hpc =>
      simp [submitAccount, setActive, setUnit, goto, hne u ch rfl]
  | leave u ch call result hpc hlock =>
      split <;> rfl
  | kick u ch hpc hlock => simp [goto, hne u ch rfl]
  | _ => rfl

theorem Owes.of_other (h : s.Owes v) (hm : s.Move e s')
    (hother : ∀ ch, e ≠ .task v ch) : s'.Owes v := by
  unfold Owes at h ⊢
  rwa [hm.pc hother, hm.needKick hother]

theorem owes_goto {s₁ : Config} {p : Pc} :
    (s₁.goto u p).Owes u ↔ PcOwes (s₁.needKick u) p := by
  simp [Owes, goto]

theorem Quiet.owes (h : s.Quiet u s') (howes : s.Owes u) : s'.Owes u := by
  unfold Owes at howes
  cases h with
  | wakeUp hpc hsig => simp [hpc, PcOwes] at howes
  | drained call hpc hlock hempty =>
      rcases hpc with hpc | ⟨_, -, hpc⟩ <;> simp [hpc, PcOwes] at howes
  | noMessage hpc hport =>
      rw [hpc] at howes
      rw [owes_goto, if_pos (show s.needKick u = true from howes)]
      exact howes
  | message r rest hpc hport =>
      rw [hpc] at howes
      rw [owes_goto]
      unfold commandPc
      split <;> exact howes
  | noSlot r hpc hlock hfree =>
      rw [hpc] at howes
      exact owes_goto.mpr howes
  | handler r p hpc hp =>
      rw [hpc] at howes
      rw [owes_goto]
      rcases hp with ⟨_, _, rfl⟩ | ⟨_, _, rfl⟩ <;> exact howes
  | woken call at_ hpc hsig hat => simp [hpc, PcOwes] at howes
  | polled call left hpc hempty => simp [hpc, PcOwes] at howes
  | clear call taken hpc => simp [hpc, PcOwes] at howes
  | finish r err actual hpc =>
      rw [hpc] at howes
      exact owes_goto.mpr howes

/-- A task that owes a notify goes on owing it until it writes one. -/
theorem Move.owes (hm : s.Move (.task u ch) s') (howes : s.Owes u) :
    s'.Owes u ∨ s'.Kicked := by
  have hkept := howes
  unfold Owes at howes
  cases hm with
  | quiet _ _ _ hq => exact .inl (hq.owes hkept)
  | harvested _ _ hpc => simp [hpc, PcOwes] at howes
  | take _ _ caller serial x len q' hpc =>
      rcases hpc with hpc | ⟨_, -, hpc⟩ <;> simp [hpc, PcOwes] at howes
  | takeOwn _ _ call serial x len q' hpc =>
      rcases hpc with hpc | ⟨_, -, hpc⟩ <;> simp [hpc, PcOwes] at howes
  | stash _ _ caller c hpc =>
      rcases hpc with ⟨-, hpc, -⟩ | hpc <;> simp [hpc, PcOwes] at howes
  | account _ _ r sl hpc =>
      left
      simp [submitAccount, setActive, setUnit, goto, Owes, PcOwes]
  | kick _ _ hpc => exact .inr ⟨rfl, rfl⟩
  | mark _ _ call hpc => exact .inr ⟨rfl, rfl⟩
  | add _ _ r sl sg q' hpc => exact .inl (owes_goto.mpr trivial)
  | sync _ _ call sg q' hpc => exact .inl (owes_goto.mpr trivial)
  | leave _ _ call result hpc hlock =>
      left
      rw [hpc] at howes
      rw [owes_goto]
      have hneed : (if (s.unit u).inflightCount = 0 then s.clearActive u
          else s).needKick u = true := by
        split <;> exact howes
      rw [hneed]
      unfold returnPc
      split_ifs <;> rfl
  | pick _ _ call c hpc => simp [hpc, PcOwes] at howes
  | found _ _ caller c cu cs r hpc => simp [hpc, PcOwes] at howes
  | foreign _ _ call c hpc => simp [hpc, PcOwes] at howes
  | release _ _ caller c cu cs r err actual hpc => simp [hpc, PcOwes] at howes
  | reply _ _ caller c r err actual hpc => simp [hpc, PcOwes] at howes
  | coalesce _ _ hpc => simp [hpc, PcOwes] at howes
  | pollTake _ _ call left serial x len q' hpc => simp [hpc, PcOwes] at howes
  | giveUp _ _ call hpc => simp [hpc, PcOwes] at howes
  | accept _ _ call c hpc => simp [hpc, PcOwes] at howes
  | pop _ _ r sl hpc =>
      rw [hpc] at howes
      exact .inl (owes_goto.mpr howes)
  | fillFailed _ _ r sl hpc =>
      rw [hpc] at howes
      exact .inl (owes_goto.mpr howes)
  | fill _ _ r sl sg hpc =>
      rw [hpc] at howes
      exact .inl (owes_goto.mpr howes)
  | addFailed _ _ r sl sg hpc =>
      rw [hpc] at howes
      exact .inl (owes_goto.mpr howes)
  | giveBack _ _ r sl err hpc =>
      rw [hpc] at howes
      exact .inl (owes_goto.mpr howes)
  | prepareFailed _ _ call hpc =>
      rw [hpc] at howes
      exact .inl (owes_goto.mpr howes)
  | prepare _ _ call sg hpc =>
      rw [hpc] at howes
      exact .inl (owes_goto.mpr howes)
  | syncFailed _ _ call sg hpc =>
      rw [hpc] at howes
      exact .inl (owes_goto.mpr howes)

theorem Owes.step (h : s.Owes u) (hm : s.Move e s') : s'.Owes u ∨ s'.Kicked := by
  by_cases hown : ∃ ch, e = .task u ch
  · obtain ⟨ch, rfl⟩ := hown
    exact hm.owes h
  · exact .inl (h.of_other hm (not_exists.mp hown))

/-! ## The register -/

/-- A chain is added by a task, which then owes a notify, or by discovery, which
writes it in the same step; nothing but that write changes what was noted. -/
theorem Fit.noted (h : s.Fit) (hm : s.Move e s') :
    (s'.queue.hist.added = s.queue.hist.added ∧
      (s'.queue.dev.noted = s.queue.dev.noted ∨ s'.Kicked)) ∨
      (∃ u ch head sl, e = .task u ch ∧ s'.Owes u ∧
        s'.queue.hist.added = s.queue.hist.added ++ [(head, .slot u sl)] ∧
        s'.queue.dev.noted = s.queue.dev.noted) ∨
      s'.Kicked ∧ ∃ x, s'.queue.hist.added = s.queue.hist.added ++ [x] := by
  obtain ⟨free, chain, hi⟩ := h.queue
  have htaken : ∀ {q' : RequestQueue ReqBuf} {serial x len},
      s.queue.TakenFrom q' serial x len →
      q'.hist.added = s.queue.hist.added ∧ q'.dev.noted = s.queue.dev.noted := by
    intro q' serial x len htake
    exact ⟨htake.added_eq, congrArg Device.noted htake.dev⟩
  cases hm with
  | quiet u ch s' hq => exact .inl (by rw [hq.queue]; exact ⟨rfl, .inl rfl⟩)
  | take u ch caller serial x len q' hpc hlock htake =>
      exact .inl ((htaken htake).imp_right .inl)
  | takeOwn u ch call serial x len q' hpc hlock htake =>
      exact .inl ((htaken htake).imp_right .inl)
  | pollTake u ch call left serial x len q' hpc htake =>
      exact .inl ((htaken htake).imp_right .inl)
  | probeTake ch call serial x len q' p hrun hprobe htake =>
      exact .inl ((htaken htake).imp_right .inl)
  | stash u ch caller c hpc =>
      refine .inl ?_
      unfold stashCookie
      split <;> exact ⟨rfl, .inl rfl⟩
  | release u ch caller c cu cs r err actual hpc hlock =>
      refine .inl ?_
      unfold releaseSlot
      dsimp only
      split <;> exact ⟨rfl, .inl rfl⟩
  | add u ch r sl sg q' hpc hlock hadd =>
      exact .inr (.inl ⟨u, ch, _, sl, rfl, owes_goto.mpr trivial, hadd.added_eq,
        congrArg Device.noted hadd.dev⟩)
  | sync u ch call sg q' hpc hlock hadd =>
      exact .inr (.inl ⟨u, ch, _, 0, rfl, owes_goto.mpr trivial, hadd.added_eq,
        congrArg Device.noted hadd.dev⟩)
  | probeAdd ch n tries q' hrun hprobe hadd =>
      exact .inr (.inr ⟨⟨rfl, rfl⟩, _, hadd.added_eq⟩)
  | mark u ch call hpc => exact .inl ⟨rfl, .inr ⟨rfl, rfl⟩⟩
  | kick u ch hpc hlock => exact .inl ⟨rfl, .inr ⟨rfl, rfl⟩⟩
  | leave u ch call result hpc hlock =>
      refine .inl ?_
      split <;> exact ⟨rfl, .inl rfl⟩
  | fetch q' hfetch =>
      obtain ⟨head, -, rfl, -⟩ := hi.fetch hfetch
      exact .inl ⟨rfl, .inl rfl⟩
  | complete i len r serial x q' hpending hcomplete =>
      obtain ⟨_, _, -, hhist, hdev, -⟩ := hi.complete hcomplete
      exact .inl ⟨by rw [hhist], .inl (by rw [hdev])⟩
  | signal q' hsignal =>
      obtain ⟨-, raise, rfl, -⟩ := signal_cases hsignal
      exact .inl ⟨rfl, .inl rfl⟩
  | rest q' hrest =>
      obtain ⟨-, -, rfl⟩ := hi.rest hrest
      exact .inl ⟨rfl, .inl rfl⟩
  | _ => exact .inl ⟨rfl, .inl rfl⟩

theorem Fit.added_le (h : s.Fit) (hm : s.Move e s') :
    s.queue.hist.added.length ≤ s'.queue.hist.added.length := by
  rcases h.noted hm with ⟨hsame, -⟩ | ⟨u, ch, head, sl, -, -, happend, -⟩ | ⟨-, x, happend⟩
  · exact (congrArg List.length hsame).ge
  · rw [happend]
    exact (List.sublist_append_left _ _).length_le
  · rw [happend]
    exact (List.sublist_append_left _ _).length_le

/-! ## Runs -/

/-- Every chain of a task had been added when QUEUE_NOTIFY was last written. -/
def Noted (s : Config) (u : UnitNum) : Prop :=
  ∀ i head sl, s.queue.hist.added[i]? = some (head, .slot u sl) → i < s.queue.dev.noted

def Blocked (s : Config) (u : UnitNum) : Prop :=
  s.pc u = .wait ∨ ∃ call, s.pc u = .sync call .wait

theorem Kicked.noted (h : s.Kicked) (u : UnitNum) : s.Noted u := by
  intro i head sl hi
  rw [h.2]
  exact (List.getElem?_eq_some_iff.mp hi).1

/-- The chains of a task are noted, or the task owes a notify. -/
structure Notified (s : Config) : Prop where
  fit : s.Fit
  noted : ∀ u, s.Noted u ∨ s.Owes u

theorem Notified.blocked (h : s.Notified) (hblocked : s.Blocked u) : s.Noted u := by
  refine (h.noted u).resolve_right ?_
  unfold Owes
  rcases hblocked with hpc | ⟨call, hpc⟩ <;> simp [hpc, PcOwes]

theorem Notified.step (h : s.Notified) (hstep : s.step e = some s') : s'.Notified := by
  have hm := h.fit.move_of_step hstep
  refine ⟨h.fit.move hm, ?_⟩
  intro v
  rcases h.noted v with hnoted | howes
  case inr =>
    rcases howes.step hm with hstill | hkicked
    · exact .inr hstill
    · exact .inl (hkicked.noted v)
  rcases h.fit.noted hm with ⟨hadded, hsame | hkicked⟩ |
    ⟨u, ch, head, sl, rfl, hnew, hadded, hsame⟩ | ⟨hkicked, -⟩
  · left
    intro i head sl hi
    rw [hsame]
    exact hnoted i head sl (hadded ▸ hi)
  · exact .inl (hkicked.noted v)
  · by_cases hv : v = u
    · exact .inr (hv ▸ hnew)
    · left
      intro i head' sl' hi
      rw [hadded] at hi
      rw [hsame]
      rcases lt_or_ge i s.queue.hist.added.length with hlt | hge
      · rw [List.getElem?_append_left hlt] at hi
        exact hnoted i head' sl' hi
      · rw [List.getElem?_append_right hge, List.getElem?_singleton] at hi
        split_ifs at hi
        simp only [Option.some.injEq, Prod.mk.injEq, ReqBuf.slot.injEq] at hi
        exact absurd hi.2.1.symm hv
  · exact .inl (hkicked.noted v)

theorem notified_initial (setup : Setup) : (initial setup).Notified where
  fit := fit_initial setup
  noted := by
    intro u
    left
    intro i head sl hi
    simp [initial, RequestQueue.initial] at hi

/-- A task that is blocked, in the event loop or in `DoIO`, has added no chain
since QUEUE_NOTIFY was last written. -/
theorem blocked_noted (setup : Setup) (events : List Event) (s : Config)
    (hrun : GuardedRun.run Config.step (initial setup) events = some s)
    (u : UnitNum) (hblocked : s.Blocked u) : s.Noted u := by
  have hnotified : s.Notified := GuardedRun.invariant_of_step
    (fun _ _ _ h hstep => h.step hstep) (notified_initial setup) hrun
  exact hnotified.blocked hblocked

/-- One request, up to the `Wait` of the event loop. -/
def sampleEvents : List Event :=
  [.start, .putMsg 0 (sampleRead 1)] ++ taskSteps 0 8

/-- A read is added and announced before its task blocks. -/
theorem blocked_noted_sampleEvents :
    ∃ s, GuardedRun.run Config.step (initial (sampleSetup true true)) sampleEvents =
      some s ∧ s.queue.hist.added.length = 1 ∧ s.Noted 0 := by
  have hblocked : (GuardedRun.run Config.step (initial (sampleSetup true true))
      sampleEvents).map (fun s => (s.pc 0, s.queue.hist.added.length)) = some (.wait, 1) := by
    decide +kernel
  obtain ⟨s, hrun, hs⟩ := Option.map_eq_some_iff.mp hblocked
  exact ⟨s, hrun, congrArg Prod.snd hs,
    blocked_noted _ _ s hrun 0 (.inl (congrArg Prod.fst hs))⟩

end Config
end VirtioScsi
