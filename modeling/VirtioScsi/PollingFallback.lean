import VirtioScsi.UnitRuns

/-!
# The driver without its interrupt

`_manager_Init` goes on when the interrupt handler cannot be installed, and
`VirtIOSCSI_DoIO` then polls.  The pipeline has no such fallback: nothing
signals a task, so nothing harvests, and a request that `VirtIOSCSI_Submit`
accepted is never replied.
-/

namespace VirtioScsi
namespace Config

open RequestQueue

variable {s s' : Config} {u v : UnitNum} {ch : Choice} {e : Event}

/-- Where a task can be that is never signalled for a completion. -/
def PcPolled : Pc → Bool
  | .wait => true
  | .dispatch => true
  | .submit _ => true
  | .handler _ => true
  | .sync _ .fill => true
  | .sync _ (.add _) => true
  | .sync _ .mark => true
  | .sync _ (.poll _) => true
  | .sync _ (.check _) => true
  | .sync _ (.leave _) => true
  | .finish _ _ _ => true
  | .kick => true
  | _ => false

/-- Past the messages of a batch. -/
def PcIdle : Pc → Bool
  | .wait => true
  | .kick => true
  | _ => false

structure Polled (s : Config) : Prop where
  fit : s.Fit
  irq : s.setup.irqInstalled = false
  silent : ∀ u, s.ioSig u = false
  polled : ∀ u, PcPolled (s.pc u) = true
  unharvested : ∀ m ∈ s.journal.replied, m.serial = none
  drained : ∀ u, s.portSig u = false → PcIdle (s.pc u) = true → s.port u = []

/-- What `Polled` reads besides program counter and port of one task. -/
structure SamePolled (s s₁ : Config) : Prop where
  setup : s₁.setup = s.setup
  ioSig : s₁.ioSig = s.ioSig
  pc : s₁.pc = s.pc
  replied : s₁.journal.replied = s.journal.replied
  portSig : s₁.portSig = s.portSig
  port : s₁.port = s.port

theorem Polled.of_same (h : s.Polled) (hs : SamePolled s s') (hfit : s'.Fit) :
    s'.Polled where
  fit := hfit
  irq := hs.setup ▸ h.irq
  silent := hs.ioSig ▸ h.silent
  polled := hs.pc ▸ h.polled
  unharvested := hs.replied ▸ h.unharvested
  drained := by
    rw [hs.portSig, hs.pc, hs.port]
    exact h.drained

theorem Polled.goto (h : s.Polled) {s₁ : Config} {p : Pc}
    (hs : SamePolled s s₁) (hfit : (s₁.goto u p).Fit)
    (hp : PcPolled p = true) (hidle : PcIdle p = false) :
    (s₁.goto u p).Polled where
  fit := hfit
  irq := hs.setup ▸ h.irq
  silent := hs.ioSig ▸ h.silent
  polled := by
    intro v
    by_cases hv : v = u
    · rw [hv, goto_pc_self]
      exact hp
    · rw [goto_pc_of_ne hv, hs.pc]
      exact h.polled v
  unharvested := hs.replied ▸ h.unharvested
  drained := by
    intro v hsig hv
    by_cases hvu : v = u
    · rw [hvu, goto_pc_self, hidle] at hv
      exact absurd hv (by decide)
    · rw [goto_pc_of_ne hvu, hs.pc] at hv
      have hsame : (s₁.goto u p).port v = s.port v := congrFun hs.port v
      rw [hsame]
      refine h.drained v ?_ hv
      have hsig' : (s₁.goto u p).portSig v = s.portSig v := congrFun hs.portSig v
      rwa [← hsig']

theorem SamePolled.refl (s : Config) : SamePolled s s :=
  ⟨rfl, rfl, rfl, rfl, rfl, rfl⟩

theorem Polled.quiet (h : s.Polled) (hq : s.Quiet u s') (hfit : s'.Fit) :
    s'.Polled := by
  have hpolled := h.polled u
  cases hq with
  | wakeUp hpc hsig =>
      have hport : s.portSig u = true := by
        rwa [h.silent u, Bool.false_or] at hsig
      refine
        { fit := hfit, irq := h.irq, silent := ?_, polled := ?_
          unharvested := h.unharvested, drained := ?_ }
      · intro v
        by_cases hv : v = u
        · simp [Config.goto, hv]
        · simpa [Config.goto, hv] using h.silent v
      · intro v
        by_cases hv : v = u
        · simp [hv, h.silent, PcPolled]
        · rw [goto_pc_of_ne hv]
          exact h.polled v
      · intro v hsig' hidle
        by_cases hv : v = u
        · simp [hv, h.silent, PcIdle] at hidle
        · rw [goto_pc_of_ne hv] at hidle
          have hkept : s.portSig v = false := by
            simpa [Config.goto, hv] using hsig'
          exact h.drained v hkept hidle
  | drained call hpc hlock hempty =>
      rcases hpc with hpc | ⟨_, -, hpc⟩ <;> simp [hpc, PcPolled] at hpolled
  | noMessage hpc hport =>
      refine
        { fit := hfit, irq := h.irq, silent := h.silent, polled := ?_
          unharvested := h.unharvested, drained := ?_ }
      · intro v
        by_cases hv : v = u
        · rw [hv, goto_pc_self]
          split <;> rfl
        · rw [goto_pc_of_ne hv]
          exact h.polled v
      · intro v hsig hidle
        by_cases hv : v = u
        · rw [hv]
          exact hport
        · rw [goto_pc_of_ne hv] at hidle
          exact h.drained v hsig hidle
  | message r rest hpc hport =>
      have hcommand : PcPolled (commandPc r) = true ∧
          PcIdle (commandPc r) = false := by
        unfold commandPc
        split <;> exact ⟨rfl, rfl⟩
      refine
        { fit := hfit, irq := h.irq, silent := h.silent, polled := ?_
          unharvested := h.unharvested, drained := ?_ }
      · intro v
        by_cases hv : v = u
        · rw [hv, goto_pc_self]
          exact hcommand.1
        · rw [goto_pc_of_ne hv]
          exact h.polled v
      · intro v hsig hidle
        by_cases hv : v = u
        · rw [hv, goto_pc_self, hcommand.2] at hidle
          exact absurd hidle (by decide)
        · rw [goto_pc_of_ne hv] at hidle
          have hkept : s.port v = [] := h.drained v hsig hidle
          simpa [Config.goto, hv] using hkept
  | noSlot r hpc hlock hfree => exact h.goto (.refl s) hfit rfl rfl
  | handler r p hpc hp =>
      rcases hp with ⟨_, _, rfl⟩ | ⟨_, _, rfl⟩ <;>
        exact h.goto (.refl s) hfit rfl rfl
  | woken call at_ hpc hsig hat => simp [hpc, PcPolled] at hpolled
  | polled call left hpc hempty =>
      refine h.goto (.refl s) hfit ?_ ?_ <;> split <;> rfl
  | clear call taken hpc => simp [hpc, PcPolled] at hpolled
  | finish r err actual hpc =>
      have hbase : (s.goto u .dispatch).Polled :=
        h.goto (.refl s) ⟨h.fit.queue, hfit.filled⟩ rfl rfl
      refine { hbase with fit := hfit, unharvested := ?_ }
      intro m hm
      rcases List.mem_append.mp hm with hold | hnew
      · exact h.unharvested m hold
      · rw [List.mem_singleton.mp hnew]

/-- Without an interrupt no task is signalled for a completion, and none is harvested. -/
theorem Polled.move (h : s.Polled) (hm : s.Move e s') : s'.Polled := by
  have hfit := h.fit.move hm
  cases hm with
  | quiet u ch s' hq => exact h.quiet hq hfit
  | harvested u ch hpc hlock hempty =>
      have hpolled := h.polled u
      simp [hpc, PcPolled] at hpolled
  | take u ch caller serial x len q' hpc =>
      have hpolled := h.polled u
      rcases hpc with hpc | ⟨_, -, hpc⟩ <;> simp [hpc, PcPolled] at hpolled
  | takeOwn u ch call serial x len q' hpc =>
      have hpolled := h.polled u
      rcases hpc with hpc | ⟨_, -, hpc⟩ <;> simp [hpc, PcPolled] at hpolled
  | pick u ch call c hpc =>
      have hpolled := h.polled u
      simp [hpc, PcPolled] at hpolled
  | found u ch caller c cu cs r hpc =>
      have hpolled := h.polled u
      simp [hpc, PcPolled] at hpolled
  | foreign u ch call c hpc =>
      have hpolled := h.polled u
      simp [hpc, PcPolled] at hpolled
  | stash u ch caller c hpc =>
      have hpolled := h.polled u
      rcases hpc with ⟨-, hpc, -⟩ | hpc <;> simp [hpc, PcPolled] at hpolled
  | release u ch caller c cu cs r err actual hpc =>
      have hpolled := h.polled u
      simp [hpc, PcPolled] at hpolled
  | reply u ch caller c r err actual hpc =>
      have hpolled := h.polled u
      simp [hpc, PcPolled] at hpolled
  | coalesce u ch hpc =>
      have hpolled := h.polled u
      simp [hpc, PcPolled] at hpolled
  | mark u ch call hpc =>
      refine h.goto ⟨rfl, rfl, rfl, rfl, rfl, rfl⟩ hfit ?_ ?_ <;>
        rw [if_neg (by simp [h.irq])] <;> rfl
  | accept u ch call c hpc =>
      refine h.goto ⟨rfl, rfl, rfl, rfl, rfl, rfl⟩ hfit ?_ ?_ <;>
        · unfold doioOutcome
          dsimp only
          split_ifs <;> rfl
  | leave u ch call result hpc hlock =>
      refine h.goto ?_ hfit ?_ ?_
      · split <;> exact ⟨rfl, rfl, rfl, rfl, rfl, rfl⟩
      · unfold returnPc
        split_ifs <;> rfl
      · unfold returnPc
        split_ifs <;> rfl
  | kick u ch hpc hlock =>
      refine
        { fit := hfit, irq := h.irq, silent := h.silent, polled := ?_
          unharvested := h.unharvested, drained := ?_ }
      · intro v
        by_cases hv : v = u
        · rw [hv, goto_pc_self]
          rfl
        · rw [goto_pc_of_ne hv]
          exact h.polled v
      · intro v hsig hidle
        by_cases hv : v = u
        · rw [hv]
          exact h.drained u (hv ▸ hsig) (by rw [hpc]; rfl)
        · rw [goto_pc_of_ne hv] at hidle
          exact h.drained v hsig hidle
  | interrupt hirq hisr => simp [h.irq] at hirq
  | putMsg u r hrun =>
      refine { h with fit := hfit, drained := ?_ }
      intro v hsig hidle
      by_cases hv : v = u
      · simp [hv] at hsig
      · simp only [Function.update_apply, hv, if_false] at hsig ⊢
        exact h.drained v hsig hidle
  | _ =>
      first
        | exact h.of_same ⟨rfl, rfl, rfl, rfl, rfl, rfl⟩ hfit
        | exact h.goto ⟨rfl, rfl, rfl, rfl, rfl, rfl⟩ hfit rfl rfl

theorem polled_initial {setup : Setup} (hirq : setup.irqInstalled = false) :
    (initial setup).Polled where
  fit := fit_initial setup
  irq := hirq
  silent := fun _ => rfl
  polled := fun _ => rfl
  unharvested := by simp [initial]
  drained := fun _ _ _ => rfl

/-- This holds in every state reached after a boot that installed no interrupt. -/
theorem polled_run {setup : Setup} {events : List Event}
    (hirq : setup.irqInstalled = false)
    (hrun : GuardedRun.run Config.step (initial setup) events = some s) :
    s.Polled :=
  GuardedRun.invariant_of_step (P := Polled)
    (fun _ _ _ h hstep => h.move (h.fit.move_of_step hstep))
    (polled_initial hirq) hrun

/-- Every task is blocked in the event loop with no pending signal. -/
def AllBlocked (s : Config) : Prop :=
  ∀ u, s.pc u = .wait ∧ s.ioSig u = false ∧ s.portSig u = false

instance (s : Config) : Decidable s.AllBlocked :=
  inferInstanceAs (Decidable (∀ _, _))

/-- Every request handed in was replied or submitted, and every submitted one
was replied with its completion. -/
def Answered (s : Config) (events : List Event) : Prop :=
  (∀ u r, .putMsg u r ∈ events → s.Replied r ∨ s.Submitted r) ∧
    ∀ m ∈ s.journal.submitted, ∃ a ∈ s.journal.replied, a.serial = some m.serial

/-- Without the interrupt, blocked tasks have answered every request exactly
if `Submit` accepted none. -/
theorem answered_iff_none_submitted (setup : Setup)
    (hirq : setup.irqInstalled = false) (events : List Event) (s : Config)
    (hrun : GuardedRun.run Config.step (initial setup) events = some s)
    (hblocked : s.AllBlocked) :
    s.Answered events ↔ s.journal.submitted = [] := by
  have hpolled := polled_run hirq hrun
  have hknown : ∀ u r, .putMsg u r ∈ events → s.Replied r ∨ s.Submitted r := by
    intro u r hput
    rcases (fit_initial setup).known hrun hput with ⟨v, hport⟩ | ⟨v, hpc⟩ | hdone
    · obtain ⟨hpc, -, hsig⟩ := hblocked v
      rw [hpolled.drained v hsig (by rw [hpc]; rfl)] at hport
      exact absurd hport List.not_mem_nil
    · rw [(hblocked v).1] at hpc
      exact absurd hpc (by simp [Pc.request])
    · exact hdone
  constructor
  · rintro ⟨-, hanswered⟩
    cases hsubmitted : s.journal.submitted with
    | nil => rfl
    | cons m rest =>
        obtain ⟨a, ha, hserial⟩ := hanswered m (by simp [hsubmitted])
        rw [hpolled.unharvested a ha] at hserial
        exact absurd hserial (by simp)
  · intro hnone
    exact ⟨hknown, by simp [hnone]⟩

/-- A geometry request, answered on the spot by its handler. -/
def polledEvents : List Event :=
  [Event.start, .putMsg 0 (sampleGeometryRequest 1)] ++ taskSteps 0 5

/-- Synchronous commands alone are answered by polling. -/
theorem answered_iff_none_submitted_polledEvents :
    ∃ s, GuardedRun.run Config.step (initial (sampleSetup true false))
        polledEvents = some s ∧
      (s.Answered polledEvents ↔ s.journal.submitted = []) := by
  have hblocked : (GuardedRun.run Config.step (initial (sampleSetup true false))
      polledEvents).map (fun s => decide s.AllBlocked) = some true := by
    decide +kernel
  obtain ⟨s, hrun, hs⟩ := Option.map_eq_some_iff.mp hblocked
  exact ⟨s, hrun, answered_iff_none_submitted _ rfl _ s hrun
    (of_decide_eq_true hs)⟩

/-- A read, completed by the device. -/
def unansweredEvents : List Event :=
  [Event.start, .putMsg 0 (sampleRead 1)] ++ taskSteps 0 8 ++
    [Event.fetch, .complete 0 620 goodResponse, .signal, .rest]

/-- A submitted read stays on the used ring with all tasks blocked. -/
theorem unansweredEvents_not_answered :
    ∃ s, GuardedRun.run Config.step (initial (sampleSetup true false))
        unansweredEvents = some s ∧
      s.AllBlocked ∧ s.queue.Quiet ∧ ¬ s.Answered unansweredEvents := by
  have hend : (GuardedRun.run Config.step (initial (sampleSetup true false))
      unansweredEvents).map (fun s => decide (s.AllBlocked ∧
        (s.queue.dev.notified = false ∧ s.queue.dev.pending = [] ∧
          s.queue.dev.batch = 0) ∧
        s.journal.submitted = [⟨0, 0, 0, sampleRead 1⟩] ∧
        s.journal.replied = [])) = some true := by
    decide +kernel
  obtain ⟨s, hrun, hs⟩ := Option.map_eq_some_iff.mp hend
  obtain ⟨hblocked, ⟨hnotified, hpending, hbatch⟩, hsubmitted, hreplied⟩ :=
    of_decide_eq_true hs
  refine ⟨s, hrun, hblocked, ⟨hnotified, hpending, hbatch⟩, ?_⟩
  rintro ⟨-, hanswered⟩
  obtain ⟨a, ha, -⟩ := hanswered ⟨0, 0, 0, sampleRead 1⟩ (by simp [hsubmitted])
  rw [hreplied] at ha
  exact absurd ha List.not_mem_nil

end Config
end VirtioScsi
