import VirtioScsi.UnitService
import VirtioScsi.Placement

/-!
# Requests are answered once

Every request a unit was given is in one place until it is answered: in the
hands of a client's call, held, at the port, with the unit task, in a slot, or
with the task that completes it.  This needs the tasks to keep out of each
other's way: the driver does not protect the held fields, the last steps of
the shutdown drain, and a slot whose completion was already taken.
-/

namespace VirtioScsi

open Placement

/-! ## Places -/

def ClientAt.request : ClientAt → Option ℕ
  | .begin_ r _ _ _ => some r
  | .hold _ r => some r
  | .retire r _ => some r
  | .put r => some r
  | .abort r => some r
  | _ => none

def TaskAt.request : TaskAt → Option ℕ
  | .dispatch r => some r
  | .submit r _ => some r
  | _ => none

def TaskAt.slot : TaskAt → Option Slot
  | .submit _ sl => some sl
  | .clearSlot sl => some sl
  | _ => none

/-- The shutdown drain has found the port empty. -/
def TaskAt.pastPort : TaskAt → Bool
  | .replyHeld _ => true
  | .clearHeld _ => true
  | .close => true
  | _ => false

/-- `Reply_Held_Async_Reqs` is done with a field. -/
def TaskAt.pastHeld (f : HeldField) : TaskAt → Bool
  | .replyHeld .remove => f = .changeint
  | .clearHeld .remove => f = .changeint
  | .close => true
  | _ => false

def HelperAt.request : HelperAt → Option ℕ
  | .reply r => some r
  | _ => none

def HelperAt.slot : HelperAt → Option Slot
  | .complete sl _ => some sl
  | _ => none

inductive Place where
  | held (field : HeldField)
  | port
  | task
  | slot (slot : Slot)
  | helper (helper : UnitNum)
  | client (client : ℕ)
deriving DecidableEq, Repr

/-- Places that a request reaches before it is dispatched. -/
def Place.front : Place → Bool
  | .port => true
  | .client _ => true
  | _ => false

namespace Service

/-- The requests in a place.  What was replied and not yet taken out of a
field or a slot is not there any more. -/
def contents (s : Service) : Place → List ℕ
  | .held f => if s.heldReplied f then [] else (s.held f).toList
  | .port => s.port.getD []
  | .task => s.task.request.toList
  | .slot sl => if s.task.slot = some sl then [] else (s.inflight sl).toList
  | .helper h => (s.helper h).request.toList
  | .client k => (s.client k).request.toList

def Settable (s : Service) (f : HeldField) : Prop :=
  s.held f = none ∨ s.heldReplied f = true

instance (s : Service) (f : HeldField) : Decidable (s.Settable f) :=
  inferInstanceAs (Decidable (_ ∨ _))

/-- No request is retired with itself, no two tasks use a held field between a
reply and the store after it, nothing is held or queued after the drain went
past it, and a slot is left to the task that works on it. -/
def Undisturbed (s : Service) : ServiceEvent → Prop
  | .beginIo _ r _ _ _ => ¬ s.pending r
  | .client k =>
      match s.client k with
      | .begin_ _ cmd _ _ =>
          match cmd.beginIo with
          | .hold f => s.heldReplied f = false
          | .retire => s.heldReplied .changeint = false
          | _ => True
      | .hold f _ => s.Settable f ∧ s.task.pastHeld f = false
      | .retire _ _ => s.Settable .changeint
      | .put _ => s.port ≠ none ∧ s.task.pastPort = false
      | _ => True
  | .task ch =>
      match s.task with
      | .dispatch _ => ∀ sl, ch.slot = some sl → s.inflight sl = none
      | .drainSlots n => ∀ sl : Slot, sl.val = n → ∀ h, (s.helper h).slot ≠ some sl
      | .replyHeld f => s.heldReplied f = false
      | .clearHeld f => s.Settable f
      | _ => True
  | .harvest _ sl => s.task.slot ≠ some sl ∧ ∀ h, (s.helper h).slot ≠ some sl
  | _ => True

instance (s : Service) (e : ServiceEvent) : Decidable (s.Undisturbed e) := by
  unfold Undisturbed
  split
  · infer_instance
  · split
    · split <;> infer_instance
    all_goals infer_instance
  · split <;> infer_instance
  · infer_instance
  · infer_instance

/-! ## Control -/

/-- What the places of the tasks say about slots, port and held fields. -/
structure Control (s : Service) : Prop where
  completing : ∀ h sl r, s.helper h = .complete sl r →
    s.inflight sl = some r ∧ s.task.slot ≠ some sl
  alone : ∀ h h' sl, (s.helper h).slot = some sl → (s.helper h').slot = some sl →
    h = h'
  submitting : ∀ r sl, s.task = .submit r sl → s.inflight sl = some r
  drained : s.task.pastPort = true → s.port = some []
  exited : s.task = .exited → s.port = none
  answered : ∀ f, s.task.pastHeld f = true → s.held f = none

variable {s s' : Service} {e : ServiceEvent}

theorem control_initial : initial.Control where
  completing := by simp [initial]
  alone := by simp [initial, HelperAt.slot]
  submitting := by simp [initial]
  drained := by simp [initial, TaskAt.pastPort]
  exited := fun _ => rfl
  answered := fun _ _ => rfl

theorem Control.of_same (h : s.Control) (hhelper : s'.helper = s.helper)
    (hinflight : s'.inflight = s.inflight) (htask : s'.task = s.task)
    (hport : s'.port = s.port)
    (hheld : ∀ f, s.task.pastHeld f = true → s.held f = none → s'.held f = none) :
    s'.Control where
  completing := by
    rw [hhelper, hinflight, htask]
    exact h.completing
  alone := hhelper ▸ h.alone
  submitting := by
    rw [htask, hinflight]
    exact h.submitting
  drained := by
    rw [htask, hport]
    exact h.drained
  exited := by
    rw [htask, hport]
    exact h.exited
  answered := by
    rw [htask]
    exact fun f hf => hheld f hf (h.answered f hf)

theorem finishIo_same (s : Service) (r : ℕ) (err : Int) (quick : Bool) :
    s.finishIo r err quick = { s with round := (s.finishIo r err quick).round } := by
  unfold finishIo
  split <;> rfl

theorem Control.client {k : ℕ} (h : s.Control) (hu : s.Undisturbed (.client k))
    (hstep : s.clientStep k = some s') : s'.Control := by
  unfold clientStep at hstep
  simp only [Undisturbed] at hu
  split at hstep
  · cases hstep
  · next r cmd ioLength quick hk =>
    obtain rfl := Option.some.inj hstep
    unfold beginSwitch
    split
    · next f hcmd =>
      split
      · next p hp =>
        refine h.of_same rfl rfl rfl rfl fun g hg hnone => ?_
        by_cases hf : g = f
        · rw [hf, hp] at hnone
          cases hnone
        · simpa [setClient, replyHeld, reply, setHeld, hf] using hnone
      · exact h.of_same rfl rfl rfl rfl fun _ _ hnone => hnone
    · split
      · next p hp =>
        refine h.of_same rfl rfl rfl rfl fun g hg hnone => ?_
        by_cases hf : g = .changeint
        · rw [hf, hp] at hnone
          cases hnone
        · simpa [setClient, replyHeld, reply, setHeld, hf] using hnone
      · rw [finishIo_same]
        exact h.of_same rfl rfl rfl rfl fun _ _ hnone => hnone
    · rw [finishIo_same]
      exact h.of_same rfl rfl rfl rfl fun _ _ hnone => hnone
    · split
      · rw [finishIo_same]
        exact h.of_same rfl rfl rfl rfl fun _ _ hnone => hnone
      · exact h.of_same rfl rfl rfl rfl fun _ _ hnone => hnone
  · next f r hk =>
    obtain rfl := Option.some.inj hstep
    simp only [hk] at hu
    refine h.of_same rfl rfl rfl rfl fun g hg hnone => ?_
    by_cases hf : g = f
    · rw [hf, hu.2] at hg
      cases hg
    · simpa [setClient, setHeld, hf] using hnone
  · next r quick hk =>
    obtain rfl := Option.some.inj hstep
    rw [finishIo_same]
    refine h.of_same rfl rfl rfl rfl fun g hg hnone => ?_
    by_cases hf : g = .changeint
    · simp [setClient, setHeld, hf]
    · simpa [setClient, setHeld, hf] using hnone
  · next r hk =>
    obtain rfl := Option.some.inj hstep
    simp only [hk] at hu
    refine
      { completing := h.completing, alone := h.alone, submitting := h.submitting
        drained := ?_, exited := ?_, answered := h.answered }
    · intro hpast
      change s.task.pastPort = true at hpast
      rw [hu.2] at hpast
      cases hpast
    · intro htask
      exact absurd (h.exited htask) hu.1
  · next r hk =>
    unfold abortScan at hstep
    split at hstep
    · cases hstep
    · next l hport =>
      split at hstep
      · next hmem =>
        obtain rfl := Option.some.inj hstep
        refine
          { completing := h.completing, alone := h.alone, submitting := h.submitting
            drained := ?_, exited := ?_, answered := h.answered }
        · intro hpast
          have hempty := h.drained hpast
          rw [hport, Option.some.injEq] at hempty
          rw [hempty] at hmem
          exact absurd hmem List.not_mem_nil
        · intro htask
          have hnone := h.exited htask
          rw [hport] at hnone
          cases hnone
      · obtain rfl := Option.some.inj hstep
        exact h.of_same rfl rfl rfl rfl fun _ _ hnone => hnone
  · obtain rfl := Option.some.inj hstep
    exact h.of_same rfl rfl rfl rfl fun _ _ hnone => hnone

theorem Control.goto {t : TaskAt} (h : s.Control) (hhelper : s'.helper = s.helper)
    (htask : s'.task = t)
    (hkept : ∀ k sl r, s.helper k = .complete sl r →
      s'.inflight sl = some r ∧ t.slot ≠ some sl)
    (hsubmit : ∀ r sl, t = .submit r sl → s'.inflight sl = some r)
    (hdrained : t.pastPort = true → s'.port = some [])
    (hexited : t = .exited → s'.port = none)
    (hanswered : ∀ f, t.pastHeld f = true → s'.held f = none) : s'.Control where
  completing := by
    rw [hhelper, htask]
    exact hkept
  alone := hhelper ▸ h.alone
  submitting := htask ▸ hsubmit
  drained := htask ▸ hdrained
  exited := htask ▸ hexited
  answered := htask ▸ hanswered

theorem afterHeld_past {f g : HeldField}
    (h : (afterHeld f).pastHeld g = true) : g = f ∨ (TaskAt.replyHeld f).pastHeld g = true := by
  cases f <;> cases g <;> simp [afterHeld, TaskAt.pastHeld] at h ⊢

theorem Control.task {ch : ServiceChoice} (h : s.Control)
    (hu : s.Undisturbed (.task ch)) (hstep : s.taskStep ch = some s') :
    s'.Control := by
  have hcomplete : ∀ k sl r, s.helper k = .complete sl r → (s.helper k).slot = some sl := by
    intro k sl r hk
    rw [hk]
    rfl
  -- the unit task leaves the slots alone
  have hkept : ∀ {t : TaskAt}, t.slot = none → ∀ k sl r, s.helper k = .complete sl r →
      s.inflight sl = some r ∧ t.slot ≠ some sl := by
    intro t ht k sl r hk
    rw [ht]
    exact ⟨(h.completing k sl r hk).1, by simp⟩
  -- the unit task empties the slot it works on
  have hother : ∀ {t : TaskAt} {sl : Slot}, t.slot = none → s.task.slot = some sl →
      ∀ k sl' r, s.helper k = .complete sl' r →
        Function.update s.inflight sl none sl' = some r ∧ t.slot ≠ some sl' := by
    intro t sl ht hsl k sl' r hk
    obtain ⟨hin, hne⟩ := h.completing k sl' r hk
    rw [hsl] at hne
    refine ⟨?_, by simp [ht]⟩
    rwa [Function.update_of_ne (by simpa [eq_comm] using hne)]
  unfold taskStep at hstep
  simp only [Undisturbed] at hu
  cases ht : s.task with
  | wait => simp [ht] at hstep
  | batch =>
      simp only [ht] at hstep
      split at hstep
      · cases hstep
      · obtain rfl := Option.some.inj hstep
        exact h.goto rfl rfl (hkept rfl) (by simp) (by simp [TaskAt.pastPort]) (by simp)
          (by simp [TaskAt.pastHeld])
      · obtain rfl := Option.some.inj hstep
        exact h.goto rfl rfl (hkept rfl) (by simp) (by simp [TaskAt.pastPort]) (by simp)
          (by simp [TaskAt.pastHeld])
  | dispatch r =>
      simp only [ht] at hstep hu
      split at hstep
      · next sl hsl =>
        obtain rfl := Option.some.inj hstep
        have hfree := hu sl hsl
        refine h.goto rfl rfl ?_ ?_ (by simp [TaskAt.pastPort]) (by simp)
          (by simp [TaskAt.pastHeld])
        · intro k sl' r' hk
          have hin := (h.completing k sl' r' hk).1
          have hne : sl' ≠ sl := by
            rintro rfl
            rw [hfree] at hin
            cases hin
          refine ⟨?_, by simp [TaskAt.slot, Ne.symm hne]⟩
          simpa [setInflight, hne] using hin
        · intro r' sl' hsubmit
          cases hsubmit
          simp [setInflight]
      · obtain rfl := Option.some.inj hstep
        exact h.goto rfl rfl (hkept rfl) (by simp) (by simp [TaskAt.pastPort]) (by simp)
          (by simp [TaskAt.pastHeld])
  | submit r sl =>
      simp only [ht] at hstep
      split at hstep
      · obtain rfl := Option.some.inj hstep
        exact h.goto rfl rfl (hkept rfl) (by simp) (by simp [TaskAt.pastPort]) (by simp)
          (by simp [TaskAt.pastHeld])
      · obtain rfl := Option.some.inj hstep
        exact h.goto rfl rfl (hother rfl (by rw [ht]; rfl)) (by simp)
          (by simp [TaskAt.pastPort]) (by simp) (by simp [TaskAt.pastHeld])
  | drainSlots n =>
      simp only [ht] at hstep hu
      split at hstep
      · next hn =>
        split at hstep
        · obtain rfl := Option.some.inj hstep
          refine h.goto rfl rfl ?_ (by simp) (by simp [TaskAt.pastPort]) (by simp)
            (by simp [TaskAt.pastHeld])
          intro k sl r hk
          refine ⟨(h.completing k sl r hk).1, ?_⟩
          intro hsl
          obtain rfl := Option.some.inj hsl
          exact hu ⟨n, hn⟩ rfl k (hcomplete k _ r hk)
        · obtain rfl := Option.some.inj hstep
          exact h.goto rfl rfl (hkept rfl) (by simp) (by simp [TaskAt.pastPort]) (by simp)
            (by simp [TaskAt.pastHeld])
      · obtain rfl := Option.some.inj hstep
        exact h.goto rfl rfl (hkept rfl) (by simp) (by simp [TaskAt.pastPort]) (by simp)
          (by simp [TaskAt.pastHeld])
  | clearSlot sl =>
      simp only [ht, Option.some.injEq] at hstep
      subst hstep
      exact h.goto rfl rfl (hother rfl (by rw [ht]; rfl)) (by simp)
        (by simp [TaskAt.pastPort]) (by simp) (by simp [TaskAt.pastHeld])
  | drainPort =>
      simp only [ht] at hstep
      split at hstep
      · cases hstep
      · next hport =>
        obtain rfl := Option.some.inj hstep
        exact h.goto rfl rfl (hkept rfl) (by simp) (fun _ => hport) (by simp)
          (by simp [TaskAt.pastHeld])
      · next r rest hport =>
        obtain rfl := Option.some.inj hstep
        exact h.goto rfl ht (hkept rfl) (by simp) (by simp [TaskAt.pastPort]) (by simp)
          (by simp [TaskAt.pastHeld])
  | replyHeld f =>
      simp only [ht] at hstep
      have hport := h.drained (by rw [ht]; rfl)
      have hpast := h.answered
      rw [ht] at hpast
      split at hstep
      · next p hp =>
        obtain rfl := Option.some.inj hstep
        refine h.goto rfl rfl (hkept rfl) (by simp) (fun _ => hport) (by simp) ?_
        intro g hg
        have hnone := hpast g (by cases f <;> exact hg)
        have hne : g ≠ f := by
          rintro rfl
          rw [hp] at hnone
          cases hnone
        simpa [replyHeld, reply, setHeld, hne] using hnone
      · next hnone =>
        obtain rfl := Option.some.inj hstep
        refine h.goto rfl rfl (hkept (by cases f <;> rfl)) (by cases f <;> simp [afterHeld])
          (fun _ => hport) (by cases f <;> simp [afterHeld]) ?_
        intro g hg
        rcases afterHeld_past hg with rfl | hold
        · exact hnone
        · exact hpast g hold
  | clearHeld f =>
      simp only [ht, Option.some.injEq] at hstep
      subst hstep
      have hport := h.drained (by rw [ht]; rfl)
      have hpast := h.answered
      rw [ht] at hpast
      refine h.goto rfl rfl (hkept (by cases f <;> rfl)) (by cases f <;> simp [afterHeld])
        (fun _ => hport) (by cases f <;> simp [afterHeld]) ?_
      intro g hg
      by_cases hgf : g = f
      · simp [setHeld, hgf]
      · have hold := (afterHeld_past hg).resolve_left hgf
        have hnone := hpast g (by cases f <;> exact hold)
        simpa [setHeld, hgf] using hnone
  | close =>
      simp only [ht, Option.some.injEq] at hstep
      subst hstep
      exact h.goto rfl rfl (hkept rfl) (by simp) (by simp [TaskAt.pastPort]) (fun _ => rfl)
        (by simp [TaskAt.pastHeld])
  | exited => simp [ht] at hstep

/-- A task that lets go of its slot leaves the others alone. -/
theorem Control.alone_update (h : s.Control) {k : UnitNum} {c : HelperAt} (hslot : c.slot = none)
    (k₁ k₂ : UnitNum) (sl : Slot) (h₁ : (Function.update s.helper k c k₁).slot = some sl)
    (h₂ : (Function.update s.helper k c k₂).slot = some sl) : k₁ = k₂ := by
  have hold : ∀ k', (Function.update s.helper k c k').slot = some sl →
      (s.helper k').slot = some sl := by
    intro k' hk'
    by_cases hk : k' = k
    · subst hk
      rw [Function.update_self, hslot] at hk'
      cases hk'
    · rwa [Function.update_of_ne hk] at hk'
  exact h.alone k₁ k₂ sl (hold k₁ h₁) (hold k₂ h₂)

theorem Control.harvest {k : UnitNum} {sl : Slot} (h : s.Control)
    (hu : s.Undisturbed (.harvest k sl)) (hstep : s.harvest k sl = some s') : s'.Control := by
  unfold Service.harvest at hstep
  split at hstep
  · obtain ⟨r, hr, rfl⟩ := Option.map_eq_some_iff.mp hstep
    refine
      { completing := ?_, alone := ?_, submitting := h.submitting
        drained := h.drained, exited := h.exited, answered := h.answered }
    · intro k' sl' r' hk'
      by_cases hk : k' = k
      · have hsame : HelperAt.complete sl r = .complete sl' r' := by
          simpa [setHelper, hk] using hk'
        cases hsame
        exact ⟨hr, hu.1⟩
      · exact h.completing k' sl' r' (by simpa [setHelper, hk] using hk')
    · intro k₁ k₂ sl' h₁ h₂
      simp only [setHelper, Function.update_apply] at h₁ h₂
      by_cases hk₁ : k₁ = k <;> by_cases hk₂ : k₂ = k <;>
        simp only [hk₁, hk₂, if_true, if_false] at h₁ h₂ ⊢
      · obtain rfl := Option.some.inj h₁
        exact absurd h₂ (hu.2 k₂)
      · obtain rfl := Option.some.inj h₂
        exact absurd h₁ (hu.2 k₁)
      · exact h.alone k₁ k₂ sl' h₁ h₂
  · cases hstep

theorem Control.helperStep {k : UnitNum} {err : Int} (h : s.Control)
    (hstep : s.helperStep k err = some s') : s'.Control := by
  unfold Service.helperStep at hstep
  split at hstep
  · cases hstep
  · next sl r hk =>
    obtain rfl := Option.some.inj hstep
    have hslot : (s.helper k).slot = some sl := by rw [hk]; rfl
    refine
      { completing := ?_, alone := h.alone_update rfl, submitting := ?_
        drained := h.drained, exited := h.exited, answered := h.answered }
    · intro k' sl' r' hk'
      have hne : k' ≠ k := by
        rintro rfl
        simp [setHelper] at hk'
      have hold : s.helper k' = .complete sl' r' := by
        simpa [setHelper, hne, setInflight] using hk'
      obtain ⟨hin, htask⟩ := h.completing k' sl' r' hold
      refine ⟨?_, htask⟩
      have hsl : sl' ≠ sl := by
        rintro rfl
        exact hne (h.alone k' k sl' (by rw [hold]; rfl) hslot)
      simpa [setHelper, setInflight, hsl] using hin
    · intro r' sl' htask
      have hin := h.submitting r' sl' htask
      have hsl : sl' ≠ sl := by
        rintro rfl
        exact (h.completing k sl' r hk).2 (by
          change s.task = _ at htask
          rw [htask]
          rfl)
      simpa [setHelper, setInflight, hsl] using hin
  · obtain rfl := Option.some.inj hstep
    refine
      { completing := ?_, alone := h.alone_update rfl, submitting := h.submitting
        drained := h.drained, exited := h.exited, answered := h.answered }
    intro k' sl' r' hk'
    by_cases hk₁ : k' = k
    · simp [setHelper, hk₁] at hk'
    · exact h.completing k' sl' r' (by simpa [setHelper, hk₁, reply] using hk')

/-- One step of any party keeps the facts about control flow. -/
theorem Control.step (h : s.Control) (hu : s.Undisturbed e)
    (hstep : s.step e = some s') : s'.Control := by
  have hgoto : ∀ {t : TaskAt} {l : Option (List ℕ)}, t.slot = none →
      (t.pastPort = true → l = some []) → (t = .exited → l = none) →
      (∀ f, t.pastHeld f = false) → (∀ r sl, t ≠ .submit r sl) →
      ({ s with task := t, port := l } : Service).Control := by
    intro t l hslot hport hexit hheld hsubmit
    refine h.goto rfl rfl ?_ ?_ hport hexit ?_
    · intro k sl r hk
      exact ⟨(h.completing k sl r hk).1, by simp [hslot]⟩
    · exact fun r sl hat => absurd hat (hsubmit r sl)
    · intro f hf
      rw [hheld f] at hf
      cases hf
  cases e with
  | beginIo k r cmd ioLength quick =>
      simp only [Service.step, Service.beginIo] at hstep
      split at hstep
      · obtain rfl := Option.some.inj hstep
        exact h.of_same rfl rfl rfl rfl fun _ _ hnone => hnone
      · cases hstep
  | abortIo k r =>
      simp only [Service.step, Service.abortIo] at hstep
      split at hstep
      · split at hstep <;> obtain rfl := Option.some.inj hstep <;>
          exact h.of_same rfl rfl rfl rfl fun _ _ hnone => hnone
      · cases hstep
  | client k => exact h.client hu hstep
  | open_ =>
      simp only [Service.step] at hstep
      split at hstep
      · obtain rfl := Option.some.inj hstep
        exact hgoto rfl (by simp) (by simp) (by simp [TaskAt.pastHeld]) (by simp)
      · cases hstep
  | wake =>
      simp only [Service.step] at hstep
      split at hstep
      · obtain rfl := Option.some.inj hstep
        exact hgoto (l := s.port) rfl (by simp [TaskAt.pastPort]) (by simp)
          (by simp [TaskAt.pastHeld]) (by simp)
      · cases hstep
  | shutdown =>
      simp only [Service.step] at hstep
      split at hstep
      · obtain rfl := Option.some.inj hstep
        exact hgoto (l := s.port) rfl (by simp [TaskAt.pastPort]) (by simp)
          (by simp [TaskAt.pastHeld]) (by simp)
      · cases hstep
  | task ch => exact h.task hu hstep
  | harvest k sl => exact h.harvest hu hstep
  | helper k err => exact h.helperStep hstep

/-! ## Contents -/

variable {k r : ℕ} {f : HeldField} {sl : Slot}

theorem contents_setClient (c : ClientAt) :
    (s.setClient k c).contents =
      Function.update s.contents (.client k) c.request.toList := by
  funext p
  cases p with
  | client k' => by_cases hk : k' = k <;> simp [contents, setClient, hk]
  | _ => rfl

theorem contents_setHelper (h : UnitNum) (c : HelperAt) :
    (s.setHelper h c).contents =
      Function.update s.contents (.helper h) c.request.toList := by
  funext p
  cases p with
  | helper h' => by_cases hk : h' = h <;> simp [contents, setHelper, hk]
  | _ => rfl

theorem contents_setHeld (v : Option ℕ) (replied : Bool) :
    (s.setHeld f v replied).contents =
      Function.update s.contents (.held f) (if replied then [] else v.toList) := by
  funext p
  cases p with
  | held f' => by_cases hf : f' = f <;> simp [contents, setHeld, hf]
  | _ => rfl

theorem contents_port (l : Option (List ℕ)) :
    ({ s with port := l } : Service).contents =
      Function.update s.contents .port (l.getD []) := by
  funext p
  cases p <;> rfl

theorem contents_setInflight (v : Option ℕ) :
    (s.setInflight sl v).contents = Function.update s.contents (.slot sl)
      (if s.task.slot = some sl then [] else v.toList) := by
  funext p
  cases p with
  | slot sl' => by_cases hsl : sl' = sl <;> simp [contents, setInflight, hsl]
  | _ => rfl

theorem contents_task {t : TaskAt} (hslot : t.slot = s.task.slot) :
    ({ s with task := t } : Service).contents =
      Function.update s.contents .task t.request.toList := by
  funext p
  cases p with
  | slot sl => simp [contents, hslot]
  | _ => rfl

theorem contents_takeSlot {t : TaskAt} (hslot : t.slot = some sl)
    (hold : s.task.slot = none) :
    ({ s with task := t } : Service).contents =
      Function.update (Function.update s.contents (.slot sl) []) .task
        t.request.toList := by
  funext p
  cases p with
  | slot sl' =>
      by_cases hsl : sl' = sl
      · simp [contents, hslot, hsl]
      · simp [contents, hslot, hold, hsl, Ne.symm hsl]
  | _ => rfl

theorem contents_leaveSlot {t : TaskAt} (hslot : t.slot = none)
    (hold : s.task.slot = some sl) :
    ({ s with task := t } : Service).contents =
      Function.update (Function.update s.contents (.slot sl) (s.inflight sl).toList)
        .task t.request.toList := by
  funext p
  cases p with
  | slot sl' =>
      by_cases hsl : sl' = sl
      · simp [contents, hslot, hsl]
      · simp [contents, hslot, hold, hsl, Ne.symm hsl]
  | _ => rfl

/-! ## Answers -/

theorem pending_reply (err : Int) (j : ℕ) :
    (s.reply r err).pending j ↔ s.pending j ∧ j ≠ r := by
  unfold pending reply
  by_cases hj : j = r <;> simp [hj]

theorem pending_finishIo (err : Int) (quick : Bool) (j : ℕ) :
    (s.finishIo r err quick).pending j ↔ s.pending j ∧ j ≠ r := by
  unfold finishIo
  split
  · unfold pending
    by_cases hj : j = r <;> simp [hj]
  · exact pending_reply err j

/-- Every pending request is in one place, every round has at most one answer,
a request on its way to the port was not dispatched, and an `AbortIO` that
returned 0 answered its request. -/
structure Accounted (s : Service) : Prop where
  placed : Placed s.contents s.pending
  answers : ∀ r, (s.round r).replies.length + (s.round r).quick.toNat ≤ 1
  front : ∀ p r, p.front = true → r ∈ s.contents p → (s.round r).dispatched = false
  aborted : ∀ a ∈ s.aborts, a.rc = 0 →
    a.round.dispatched = false ∧ a.round.replies = [ioerrAborted] ∧
      a.round.quick = false

theorem accounted_initial : initial.Accounted where
  placed := by
    have hempty : initial.contents = fun _ => [] := by
      funext p
      cases p <;> rfl
    rw [hempty]
    exact placed_nil.of_known fun r => by simp [pending, initial]
  answers := by simp [initial]
  front := by simp [initial]
  aborted := by simp [initial]

/-! ## How requests move -/

variable {p q : Place} {l m : List ℕ} {err : Int} {quick : Bool}

theorem Accounted.of_same (h : s.Accounted) (hcontents : s'.contents = s.contents)
    (hround : s'.round = s.round)
    (haborts : ∀ a ∈ s'.aborts, a.rc = 0 → a ∈ s.aborts) : s'.Accounted where
  placed := by
    rw [hcontents]
    exact h.placed.of_known fun j => by rw [pending, pending, hround]
  answers := hround ▸ h.answers
  front := by
    rw [hcontents, hround]
    exact h.front
  aborted := fun a ha hrc => h.aborted a (haborts a ha hrc) hrc

/-- Handing a request from one place to another keeps the accounts. -/
theorem Accounted.move (h : s.Accounted) (hpq : q ≠ p)
    (hl : (s.contents p).Perm (r :: l)) (hm : m.Perm (r :: s.contents q))
    (hfront : q.front = true → p.front = true)
    (hcontents : s'.contents = Function.update (Function.update s.contents p l) q m)
    (hround : s'.round = s.round) (haborts : s'.aborts = s.aborts) :
    s'.Accounted where
  placed := by
    rw [hcontents]
    exact (h.placed.move hpq hl hm).of_known fun j => by rw [pending, pending, hround]
  answers := hround ▸ h.answers
  front := by
    rw [hcontents, hround]
    intro p' j hp' hj
    by_cases hq : p' = q
    · subst hq
      rw [Function.update_self, hm.mem_iff, List.mem_cons] at hj
      rcases hj with rfl | hold
      · exact h.front p j (hfront hp') (hl.mem_iff.mpr List.mem_cons_self)
      · exact h.front p' j hp' hold
    · rw [Function.update_of_ne hq] at hj
      by_cases hp : p' = p
      · subst hp
        rw [Function.update_self] at hj
        exact h.front p' j hp' (hl.mem_iff.mpr (List.mem_cons_of_mem _ hj))
      · rw [Function.update_of_ne hp] at hj
        exact h.front p' j hp' hj
  aborted := haborts ▸ h.aborted

theorem Accounted.pending_of_mem (h : s.Accounted) (hl : (s.contents p).Perm (r :: l)) :
    s.pending r :=
  (h.placed.known_iff r).mpr ⟨p, hl.mem_iff.mpr List.mem_cons_self⟩

theorem finishIo_answers (h : s.Accounted) (hr : s.pending r) (j : ℕ) :
    ((s.finishIo r err quick).round j).replies.length +
      ((s.finishIo r err quick).round j).quick.toNat ≤ 1 := by
  obtain ⟨-, hreplies, hquick⟩ := hr
  unfold finishIo
  by_cases hj : j = r
  · subst hj
    split <;> simp [reply, hreplies, hquick]
  · have hold := h.answers j
    split <;> simpa [reply, hj] using hold

theorem finishIo_dispatched (j : ℕ) :
    ((s.finishIo r err quick).round j).dispatched = (s.round j).dispatched := by
  unfold finishIo
  by_cases hj : j = r
  · subst hj
    split <;> simp [reply]
  · split <;> simp [reply, hj]

/-- Answering a request takes it out of the place it was in, once. -/
theorem Accounted.answer (h : s.Accounted) (err : Int) (quick : Bool)
    (hl : (s.contents p).Perm (r :: l))
    (hcontents : s'.contents = Function.update s.contents p l)
    (hround : s'.round = (s.finishIo r err quick).round)
    (haborts : ∀ a ∈ s'.aborts, a.rc = 0 → a ∈ s.aborts ∨
      a.round.dispatched = false ∧ a.round.replies = [ioerrAborted] ∧
        a.round.quick = false) : s'.Accounted where
  placed := by
    rw [hcontents]
    refine h.placed.remove hl fun j => ?_
    rw [← pending_finishIo err quick, pending, pending, hround]
  answers := by
    rw [hround]
    exact finishIo_answers h (h.pending_of_mem hl)
  front := by
    rw [hcontents, hround]
    intro p' j hp' hj
    rw [finishIo_dispatched]
    by_cases hp : p' = p
    · subst hp
      rw [Function.update_self] at hj
      exact h.front p' j hp' (hl.mem_iff.mpr (List.mem_cons_of_mem _ hj))
    · rw [Function.update_of_ne hp] at hj
      exact h.front p' j hp' hj
  aborted := by
    intro a ha hrc
    rcases haborts a ha hrc with hold | hnew
    · exact h.aborted a hold hrc
    · exact hnew

theorem Accounted.setClient (h : s.Accounted) {c : ClientAt}
    (hc : c.request = (s.client k).request) : (s.setClient k c).Accounted := by
  refine h.of_same ?_ rfl fun a ha _ => ha
  rw [contents_setClient, hc]
  exact Function.update_eq_self _ _

theorem Accounted.finishClient (h : s.Accounted) (hk : (s.client k).request = some r) :
    ((s.finishIo r err quick).setClient k .idle).Accounted := by
  have hl : (s.contents (.client k)).Perm [r] := by
    rw [contents, hk]
    rfl
  refine h.answer err quick hl ?_ rfl fun a ha _ => .inl ?_
  · rw [contents_setClient, finishIo_same]
    rfl
  · rw [finishIo_same] at ha
    exact ha

theorem Accounted.replyHeld (h : s.Accounted) {p : ℕ} (hp : s.held f = some p)
    (hf : s.heldReplied f = false) : (s.replyHeld f p err).Accounted := by
  have hl : (s.contents (.held f)).Perm [p] := by
    rw [contents, hf, hp]
    rfl
  refine h.answer err false hl ?_ rfl fun a ha _ => .inl ha
  rw [Service.replyHeld, contents_setHeld]
  rfl

theorem Settable.contents (h : s.Settable f) : s.contents (.held f) = [] := by
  rcases h with hnone | hreplied
  · simp [Service.contents, hnone]
  · simp [Service.contents, hreplied]

theorem Accounted.clearHeld (h : s.Accounted) (hf : s.Settable f) :
    (s.setHeld f none false).Accounted := by
  refine h.of_same ?_ rfl fun a ha _ => ha
  rw [contents_setHeld]
  exact (congrArg _ hf.contents.symm).trans (Function.update_eq_self _ _)

/-! ## Steps -/

theorem Accounted.handOver (h : s.Accounted) (hk : (s.client k).request = some r)
    {q : Place} (hq : q ≠ .client k) {s₁ : Service} (hm : m.Perm (r :: s.contents q))
    (hcontents : s₁.contents = Function.update s.contents q m)
    (hround : s₁.round = s.round) (haborts : s₁.aborts = s.aborts) :
    (s₁.setClient k .idle).Accounted := by
  have hl : (s.contents (.client k)).Perm [r] := by
    rw [contents, hk]
    rfl
  refine h.move hq hl hm (fun _ => rfl) ?_ hround haborts
  rw [contents_setClient, hcontents, Function.update_comm hq.symm]
  rfl

theorem Accounted.client (h : s.Accounted) (hu : s.Undisturbed (.client k))
    (hstep : s.clientStep k = some s') : s'.Accounted := by
  unfold clientStep at hstep
  simp only [Undisturbed] at hu
  split at hstep
  · cases hstep
  · next r cmd ioLength quick hk =>
    obtain rfl := Option.some.inj hstep
    simp only [hk] at hu
    have hreq : (s.client k).request = some r := by rw [hk]; rfl
    unfold beginSwitch
    split
    · next f hcmd =>
      simp only [hcmd] at hu
      split
      · next p hp =>
        exact (h.replyHeld hp hu).setClient (by exact hreq.symm)
      · exact h.setClient hreq.symm
    · next hcmd =>
      simp only [hcmd] at hu
      split
      · next p hp =>
        exact (h.replyHeld hp hu).setClient (by exact hreq.symm)
      · exact h.finishClient hreq
    · exact h.finishClient hreq
    · split
      · exact h.finishClient hreq
      · exact h.setClient hreq.symm
  · next f r hk =>
    obtain rfl := Option.some.inj hstep
    simp only [hk] at hu
    have hreq : (s.client k).request = some r := by rw [hk]; rfl
    refine h.handOver hreq (q := .held f) (by simp) (m := [r]) ?_ ?_ rfl rfl
    · rw [hu.1.contents]
    · rw [contents_setHeld]
      rfl
  · next r quick hk =>
    obtain rfl := Option.some.inj hstep
    simp only [hk] at hu
    have hreq : (s.client k).request = some r := by rw [hk]; rfl
    exact (h.clearHeld hu).finishClient hreq
  · next r hk =>
    obtain rfl := Option.some.inj hstep
    simp only [hk] at hu
    have hreq : (s.client k).request = some r := by rw [hk]; rfl
    obtain ⟨l, hl⟩ := Option.ne_none_iff_exists'.mp hu.1
    refine h.handOver hreq (q := .port) (by simp) (m := l ++ [r]) ?_ ?_ rfl rfl
    · simp only [contents, hl, Option.getD_some]
      exact List.perm_append_singleton r l
    · rw [contents_port, hl]
      rfl
  · next r hk =>
    unfold abortScan at hstep
    split at hstep
    · cases hstep
    · next l hport =>
      split at hstep
      · next hmem =>
        obtain rfl := Option.some.inj hstep
        refine h.move (p := .port) (q := .client k) (by simp) (r := r) (l := l.erase r)
          (m := [r]) ?_ ?_ (fun _ => rfl) ?_ rfl rfl
        · simp only [contents, hport, Option.getD_some]
          exact List.perm_cons_erase hmem
        · simp [contents, hk, ClientAt.request]
        · rw [contents_setClient, contents_port]
          rfl
      · obtain rfl := Option.some.inj hstep
        refine h.of_same ?_ rfl ?_
        · rw [contents_setClient]
          have hnone : (ClientAt.idle).request.toList = s.contents (.client k) := by
            simp [contents, hk, ClientAt.request]
          rw [hnone]
          exact Function.update_eq_self _ _
        · intro a ha hrc
          rcases List.mem_append.mp ha with hold | hnew
          · exact hold
          · rw [List.mem_singleton.mp hnew] at hrc
            have hfailed : ioerrNoCmd ≠ 0 := by decide
            exact absurd hrc hfailed
  · next r hk =>
    obtain rfl := Option.some.inj hstep
    have hl : (s.contents (.client k)).Perm [r] := by
      rw [contents, hk]
      rfl
    have hpending := h.pending_of_mem hl
    have hfront := h.front (.client k) r rfl (hl.mem_iff.mpr List.mem_cons_self)
    refine h.answer ioerrAborted false hl ?_ rfl ?_
    · rw [abortReply, contents_setClient]
      rfl
    · intro a ha hrc
      rcases List.mem_append.mp ha with hold | hnew
      · exact .inl hold
      · rw [List.mem_singleton.mp hnew]
        obtain ⟨-, hreplies, hquick⟩ := hpending
        simp [reply, hreplies, hquick, hfront]

theorem Accounted.goto (h : s.Accounted) {t : TaskAt} (hslot : t.slot = s.task.slot)
    (hreq : t.request = s.task.request) : ({ s with task := t } : Service).Accounted := by
  refine h.of_same ?_ rfl fun a ha _ => ha
  rw [contents_task hslot, hreq]
  exact Function.update_eq_self Place.task s.contents

theorem Accounted.getMsg {rest : List ℕ} (h : s.Accounted) (ht : s.task = .batch)
    (hport : s.port = some (r :: rest)) :
    ({ s with
      port := some rest
      round := Function.update s.round r { s.round r with dispatched := true }
      task := .dispatch r } : Service).Accounted := by
  have hcontents : ({ s with port := some rest, task := .dispatch r } : Service).contents =
      Function.update (Function.update s.contents .port rest) .task [r] := by
    funext p
    cases p <;> simp [contents, ht, TaskAt.slot, TaskAt.request]
  have hplaced := h.placed.move (p := .port) (q := .task) (i := r) (l := rest) (by simp)
    (by simp [contents, hport]) (m := [r]) (by simp [contents, ht, TaskAt.request])
  rw [← hcontents] at hplaced
  refine
    { placed := hplaced.of_known fun j => ?_, answers := fun j => ?_
      front := fun p j hp hj => ?_, aborted := h.aborted }
  · unfold pending
    by_cases hj : j = r <;> simp [hj]
  · have hold := h.answers j
    by_cases hj : j = r
    · subst hj
      simpa using hold
    · simpa [hj] using hold
  · have hne : j ≠ r := by
      rintro rfl
      have hp' := hplaced.unique p .task j hj (by simp [contents, TaskAt.request])
      rw [hp'] at hp
      cases hp
    simp only [Function.update_of_ne hne]
    refine h.front p j hp ?_
    change j ∈ ({ s with port := some rest, task := .dispatch r } : Service).contents p at hj
    rw [hcontents] at hj
    cases p with
    | port =>
        simp only [contents, hport, Option.getD_some]
        exact List.mem_cons_of_mem _ (by simpa using hj)
    | client k => simpa using hj
    | _ => cases hp

theorem Accounted.task {ch : ServiceChoice} (h : s.Accounted) (hc : s.Control)
    (hu : s.Undisturbed (.task ch)) (hstep : s.taskStep ch = some s') :
    s'.Accounted := by
  unfold taskStep at hstep
  simp only [Undisturbed] at hu
  cases ht : s.task with
  | wait => simp [ht] at hstep
  | batch =>
      simp only [ht] at hstep
      split at hstep
      · cases hstep
      · obtain rfl := Option.some.inj hstep
        exact h.goto (by rw [ht]; rfl) (by rw [ht]; rfl)
      · next r rest hport =>
        obtain rfl := Option.some.inj hstep
        exact h.getMsg ht hport
  | dispatch r =>
      simp only [ht] at hstep hu
      have hl : (s.contents .task).Perm [r] := by simp [contents, ht, TaskAt.request]
      split at hstep
      · next sl hsl =>
        obtain rfl := Option.some.inj hstep
        -- the request stays with the task until the submission is over
        refine h.of_same ?_ rfl fun a ha _ => ha
        funext p
        cases p with
        | slot sl' =>
            by_cases hsame : sl' = sl
            · subst hsame
              simp [contents, TaskAt.slot, ht, hu sl' hsl]
            · simp [contents, setInflight, TaskAt.slot, ht, hsame, Ne.symm hsame]
        | task => simp [contents, ht, TaskAt.request]
        | _ => rfl
      · obtain rfl := Option.some.inj hstep
        refine h.answer ch.err false hl ?_ rfl fun a ha _ => .inl ha
        exact contents_task (by show _ = s.task.slot; rw [ht]; rfl)
  | submit r sl =>
      simp only [ht] at hstep
      have hslot : s.task.slot = some sl := by rw [ht]; rfl
      have hin := hc.submitting r sl ht
      have hl : (s.contents .task).Perm [r] := by simp [contents, ht, TaskAt.request]
      have hbusy : s.contents (.slot sl) = [] := by simp [contents, hslot]
      split at hstep
      · obtain rfl := Option.some.inj hstep
        refine h.move (p := .task) (q := .slot sl) (by simp) hl (m := [r])
          (by rw [hbusy]) (by simp [Place.front]) ?_ rfl rfl
        rw [contents_leaveSlot rfl hslot, hin, Function.update_comm (by simp)]
        rfl
      · obtain rfl := Option.some.inj hstep
        refine h.answer ch.err false hl ?_ rfl fun a ha _ => .inl ha
        rw [contents_leaveSlot rfl (by exact hslot)]
        have hsame : ((s.setInflight sl none).reply r ch.err).contents =
            Function.update s.contents (.slot sl) [] := by
          rw [show ((s.setInflight sl none).reply r ch.err).contents =
            (s.setInflight sl none).contents from rfl, contents_setInflight, hslot]
          simp
        rw [hsame, ← hbusy, Function.update_eq_self]
        simp [reply, setInflight, ← hbusy, TaskAt.request]
  | drainSlots n =>
      simp only [ht] at hstep
      have hnone : s.task.slot = none := by rw [ht]; rfl
      have hidle : s.contents .task = [] := by simp [contents, ht, TaskAt.request]
      split at hstep
      · next hn =>
        split at hstep
        · next r hr =>
          obtain rfl := Option.some.inj hstep
          have hl : (s.contents (.slot ⟨n, hn⟩)).Perm [r] := by
            simp [contents, hnone, hr]
          refine h.answer ioerrAborted false hl ?_ rfl fun a ha _ => .inl ha
          rw [contents_takeSlot rfl (by exact hnone)]
          have hsame : Function.update s.contents (.slot ⟨n, hn⟩) [] .task = [] := by
            simp [hidle]
          exact (congrArg _ hsame.symm).trans (Function.update_eq_self _ _)
        · obtain rfl := Option.some.inj hstep
          exact h.goto (by rw [ht]; rfl) (by rw [ht]; rfl)
      · obtain rfl := Option.some.inj hstep
        exact h.goto (by rw [ht]; rfl) (by rw [ht]; rfl)
  | clearSlot sl =>
      simp only [ht, Option.some.injEq] at hstep
      subst hstep
      have hslot : s.task.slot = some sl := by rw [ht]; rfl
      refine h.of_same ?_ rfl fun a ha _ => ha
      funext p
      cases p with
      | slot sl' =>
          by_cases hsame : sl' = sl
          · simp [contents, setInflight, TaskAt.slot, ht, hsame]
          · simp [contents, setInflight, TaskAt.slot, ht, hsame, Ne.symm hsame]
      | task => simp [contents, ht, TaskAt.request]
      | _ => rfl
  | drainPort =>
      simp only [ht] at hstep
      split at hstep
      · cases hstep
      · obtain rfl := Option.some.inj hstep
        exact h.goto (by rw [ht]; rfl) (by rw [ht]; rfl)
      · next r rest hport =>
        obtain rfl := Option.some.inj hstep
        have hl : (s.contents .port).Perm (r :: rest) := by simp [contents, hport]
        refine h.answer ioerrAborted false hl ?_ rfl fun a ha _ => .inl ha
        rw [contents_port]
        rfl
  | replyHeld f =>
      simp only [ht] at hstep hu
      split at hstep
      · next p hp =>
        obtain rfl := Option.some.inj hstep
        exact (h.replyHeld hp hu).goto (by show _ = s.task.slot; rw [ht]; rfl)
          (by show _ = s.task.request; rw [ht]; rfl)
      · obtain rfl := Option.some.inj hstep
        exact h.goto (by rw [ht]; cases f <;> rfl) (by rw [ht]; cases f <;> rfl)
  | clearHeld f =>
      simp only [ht, Option.some.injEq] at hstep hu
      subst hstep
      exact (h.clearHeld hu).goto (by show _ = s.task.slot; rw [ht]; cases f <;> rfl)
        (by show _ = s.task.request; rw [ht]; cases f <;> rfl)
  | close =>
      simp only [ht, Option.some.injEq] at hstep
      subst hstep
      have hport := hc.drained (by rw [ht]; rfl)
      refine h.of_same ?_ rfl fun a ha _ => ha
      funext p
      cases p with
      | port => simp [contents, hport]
      | slot sl' => simp [contents, TaskAt.slot, ht]
      | task => simp [contents, ht, TaskAt.request]
      | _ => rfl
  | exited => simp [ht] at hstep

theorem Accounted.beginIo {cmd : IoCommand} {ioLength : BitVec 32} (h : s.Accounted)
    (hu : ¬ s.pending r) (hstep : s.beginIo k r cmd ioLength quick = some s') :
    s'.Accounted := by
  unfold Service.beginIo at hstep
  split at hstep
  · next hbegin =>
    obtain rfl := Option.some.inj hstep
    have hempty : s.contents (.client k) = [] := by
      simp [contents, hbegin.1, ClientAt.request]
    have hcontents : ({ s with
          round := Function.update s.round r ⟨true, false, [], false⟩ }.setClient k
            (.begin_ r cmd ioLength quick)).contents =
        Function.update s.contents (.client k) [r] := by
      rw [contents_setClient]
      rfl
    refine
      { placed := ?_, answers := fun j => ?_, front := fun p j hp hj => ?_
        aborted := h.aborted }
    · rw [hcontents]
      refine h.placed.add hu (by rw [hempty]) fun j => ?_
      unfold pending
      by_cases hj : j = r <;> simp [Service.setClient, hj]
    · have hold := h.answers j
      by_cases hj : j = r
      · simp [Service.setClient, hj]
      · simpa [Service.setClient, hj] using hold
    · by_cases hjr : j = r
      · simp [Service.setClient, hjr]
      · have hold : j ∈ s.contents p := by
          rw [hcontents] at hj
          by_cases hpk : p = .client k
          · subst hpk
            simp [hjr] at hj
          · rwa [Function.update_of_ne hpk] at hj
        simpa [Service.setClient, hjr] using h.front p j hp hold
  · cases hstep

/-- One step of any party loses no request and answers none twice. -/
theorem Accounted.step (h : s.Accounted) (hc : s.Control) (hu : s.Undisturbed e)
    (hstep : s.step e = some s') : s'.Accounted := by
  have hgoto : ∀ {t : TaskAt} {l : Option (List ℕ)}, t.slot = s.task.slot →
      t.request = s.task.request → l.getD [] = s.port.getD [] →
      ({ s with task := t, port := l } : Service).Accounted := by
    intro t l hslot hreq hport
    refine h.of_same ?_ rfl fun a ha _ => ha
    funext p
    cases p with
    | port => exact hport
    | task => simp [contents, hreq]
    | slot sl => simp [contents, hslot]
    | _ => rfl
  cases e with
  | beginIo k r cmd ioLength quick => exact h.beginIo hu hstep
  | abortIo k r =>
      simp only [Service.step, Service.abortIo] at hstep
      split at hstep
      · next hidle =>
        split at hstep
        · obtain rfl := Option.some.inj hstep
          refine h.of_same rfl rfl fun a ha hrc => ?_
          rcases List.mem_append.mp ha with hold | hnew
          · exact hold
          · rw [List.mem_singleton.mp hnew] at hrc
            have hfailed : ioerrNoCmd ≠ 0 := by decide
            exact absurd hrc hfailed
        · obtain rfl := Option.some.inj hstep
          exact h.setClient (by rw [hidle]; rfl)
      · cases hstep
  | client k => exact h.client hu hstep
  | open_ =>
      simp only [Service.step] at hstep
      split at hstep
      · next ht =>
        obtain rfl := Option.some.inj hstep
        exact hgoto (by rw [ht]; rfl) (by rw [ht]; rfl) (by rw [hc.exited ht]; rfl)
      · cases hstep
  | wake =>
      simp only [Service.step] at hstep
      split at hstep
      · next ht =>
        obtain rfl := Option.some.inj hstep
        exact hgoto (by rw [ht]; rfl) (by rw [ht]; rfl) rfl
      · cases hstep
  | shutdown =>
      simp only [Service.step] at hstep
      split at hstep
      · next ht =>
        obtain rfl := Option.some.inj hstep
        exact hgoto (by rw [ht]; rfl) (by rw [ht]; rfl) rfl
      · cases hstep
  | task ch => exact h.task hc hu hstep
  | harvest k sl =>
      simp only [Service.step, Service.harvest] at hstep
      split at hstep
      · next hidle =>
        obtain ⟨r, -, rfl⟩ := Option.map_eq_some_iff.mp hstep
        refine h.of_same ?_ rfl fun a ha _ => ha
        rw [contents_setHelper]
        have hempty : (HelperAt.complete sl r).request.toList = s.contents (.helper k) := by
          simp [contents, hidle, HelperAt.request]
        rw [hempty]
        exact Function.update_eq_self _ _
      · cases hstep
  | helper k err =>
      simp only [Service.step, Service.helperStep] at hstep
      split at hstep
      · cases hstep
      · next sl r hk =>
        obtain rfl := Option.some.inj hstep
        obtain ⟨hin, hslot⟩ := hc.completing k sl r hk
        refine h.move (p := .slot sl) (q := .helper k) (by simp) (r := r) (l := [])
          (m := [r]) ?_ ?_ (by simp [Place.front]) ?_ rfl rfl
        · simp [contents, hslot, hin]
        · simp [contents, hk, HelperAt.request]
        · rw [contents_setHelper, contents_setInflight]
          simp [HelperAt.request]
      · next r hk =>
        obtain rfl := Option.some.inj hstep
        have hl : (s.contents (.helper k)).Perm [r] := by
          simp [contents, hk, HelperAt.request]
        refine h.answer err false hl ?_ rfl fun a ha _ => .inl ha
        rw [contents_setHelper]
        rfl

/-! ## Runs -/

/-- In a run left undisturbed every request dispatched is answered once or still lies in
one place. -/
theorem accounted_run {events : List ServiceEvent}
    (hobeys : GuardedRun.Obeys Service.step Undisturbed initial events)
    (hrun : GuardedRun.run Service.step initial events = some s) :
    s.Control ∧ s.Accounted :=
  GuardedRun.invariant (P := fun s : Service => s.Control ∧ s.Accounted)
    (fun _ _ _ h hu hstep => ⟨h.1.step hu hstep, h.2.step h.1 hu hstep⟩)
    hobeys ⟨control_initial, accounted_initial⟩ hrun

structure SameUnit (s s' : Service) : Prop where
  held : s'.held = s.held
  heldReplied : s'.heldReplied = s.heldReplied
  port : s'.port = s.port
  task : s'.task = s.task
  inflight : s'.inflight = s.inflight
  helper : s'.helper = s.helper
  round : s'.round = s.round

/-- `AbortIO` changes nothing unless it finds the request at the port; then it
goes on to reply it and to return 0. -/
def AbortHarmless (s : Service) (e : ServiceEvent) : Prop :=
  ∀ k r s', (e = .abortIo k r ∨ e = .client k ∧ s.client k = .scan r) →
    s.step e = some s' → s'.client k = .abort r ∨ s.SameUnit s'

/-- Nothing is held when `Reply_Held_Async_Reqs` returns. -/
def HeldAnswered (s : Service) (e : ServiceEvent) : Prop :=
  ∀ ch s', e = .task ch → s.step e = some s' → s'.task = .close →
    ∀ f, s'.held f = none

theorem abortHarmless (s : Service) (e : ServiceEvent) : s.AbortHarmless e := by
  rintro k r s' (rfl | ⟨rfl, hk⟩) hstep
  · right
    simp only [Service.step, Service.abortIo] at hstep
    split at hstep
    · split at hstep <;> obtain rfl := Option.some.inj hstep <;>
        exact ⟨rfl, rfl, rfl, rfl, rfl, rfl, rfl⟩
    · cases hstep
  · simp only [Service.step, clientStep, hk, abortScan] at hstep
    split at hstep
    · cases hstep
    · split at hstep
      · obtain rfl := Option.some.inj hstep
        exact .inl (by simp [setClient])
      · obtain rfl := Option.some.inj hstep
        exact .inr ⟨rfl, rfl, rfl, rfl, rfl, rfl, rfl⟩

/-- In a run without disturbance every request is in one place until it is
answered once, `AbortIO` answers exactly what it takes off the port and else
changes nothing, and the drain leaves no held request. -/
theorem requests_accounted (events : List ServiceEvent) (s : Service)
    (hrun : GuardedRun.run Service.step initial events = some s)
    (hobeys : GuardedRun.Obeys Service.step Undisturbed initial events) :
    s.Accounted ∧
      GuardedRun.Obeys Service.step (fun s e => s.AbortHarmless e ∧ s.HeldAnswered e)
        initial events := by
  refine ⟨(accounted_run hobeys hrun).2, ?_⟩
  refine GuardedRun.Obeys.of_invariant (P := Control)
    (fun _ _ _ h hu hstep => h.step hu hstep) ?_ control_initial hobeys
  intro s e h hu
  refine ⟨s.abortHarmless e, ?_⟩
  rintro ch s' rfl hstep hclose f
  exact (h.step hu hstep).answered f (by rw [hclose]; rfl)

/-- A held request, an aborted one, a submitted one, and the drain. -/
def sampleService : List ServiceEvent :=
  [ServiceEvent.open_, .beginIo 0 1 .tdAddChangeInt 0 false, .client 0, .client 0,
    .beginIo 0 2 .cmdRead 512 false, .client 0, .client 0,
    .abortIo 0 2, .client 0, .client 0,
    .beginIo 1 3 .cmdRead 512 false, .client 1, .client 1,
    .wake, .task {}, .task { slot := some 0 }, .task {}, .task {},
    .harvest 1 0, .helper 1 0, .helper 1 0, .shutdown] ++
    List.replicate 22 (ServiceEvent.task {})

/-- One request held, one aborted, one submitted: the task exits with its accounts kept. -/
theorem requests_accounted_sampleService :
    ∃ s, GuardedRun.run Service.step initial sampleService = some s ∧
      s.task = .exited ∧ s.Accounted ∧
      GuardedRun.Obeys Service.step (fun s e => s.AbortHarmless e ∧ s.HeldAnswered e)
        initial sampleService := by
  have hend : (GuardedRun.run Service.step initial sampleService).map
      Service.task = some .exited := by
    decide +kernel
  have hobeys : GuardedRun.Obeys Service.step Undisturbed initial sampleService := by
    decide +kernel
  obtain ⟨s, hrun, hs⟩ := Option.map_eq_some_iff.mp hend
  exact ⟨s, hrun, hs, requests_accounted _ s hrun hobeys⟩

/-- The held request retires itself. -/
def selfRetireEvents : List ServiceEvent :=
  [.open_, .beginIo 0 1 .tdAddChangeInt 0 false, .client 0, .client 0,
    .beginIo 0 1 .tdRemChangeInt 0 false, .client 0, .client 0]

/-- A held request that retires itself is replied to twice. -/
theorem selfRetireEvents_not_accounted :
    ∃ s, GuardedRun.run Service.step initial selfRetireEvents = some s ∧
      (s.round 1).replies = [0, 0] ∧ ¬ s.Accounted := by
  have hend : (GuardedRun.run Service.step initial selfRetireEvents).map
      (fun s => (s.round 1).replies) = some [0, 0] := by
    decide +kernel
  obtain ⟨s, hrun, hs⟩ := Option.map_eq_some_iff.mp hend
  refine ⟨s, hrun, hs, fun h => ?_⟩
  have hone := h.answers 1
  rw [hs, List.length_cons, List.length_singleton] at hone
  omega

/-- A request put on the port after the drain found it empty is lost. -/
example : (GuardedRun.run Service.step initial
    (.open_ :: .beginIo 0 1 .cmdRead 512 false :: .client 0 :: .shutdown ::
      (List.replicate 20 (.task {}) ++ [.client 0, .task {}]))).map
      (fun s => decide (s.pending 1 ∧ s.task = .exited ∧ s.port = none ∧
        ∀ sl, s.inflight sl = none)) = some true := by
  decide +kernel

end Service
end VirtioScsi
