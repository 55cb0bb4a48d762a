import VirtioScsi.ScsiCommand

/-!
# Custody of chains

An abstract view of the request queue.  A user of a request buffer (a pipeline
slot, the synchronous request of a unit, a buffer of discovery) has at most one
chain.  A chain the device gave back is in the hands of one task, or in the
stash of one unit, until its user is done with it.  `Sound` ties the two
together; every movement of a chain keeps it.
-/

namespace VirtioScsi

inductive User where
  | slot (unit : UnitNum) (slot : Slot)
  | sync (unit : UnitNum)
  | probe (n : ℕ)
deriving DecidableEq, Repr

def User.buffer : User → ReqBuf
  | .slot u sl => .slot u sl
  | .sync u => reqBuf u
  | .probe n => .temp n

/-- How far a task is with a completion in hand. -/
inductive Hold where
  | routing
  | stashing
  | releasing (unit : UnitNum) (slot : Slot)
  | done
deriving DecidableEq, Repr

structure Custody where
  cookie : ℕ → Option ReqBuf
  live : ℕ → Prop
  held : UnitNum → Option (Hold × Completion)
  pending : UnitNum → Option Completion
  chain : User → Option ℕ

namespace Custody

variable {k : Custody} {t u v : UnitNum} {sl : Slot} {i j n : ℕ} {b : ReqBuf}
  {c c' : Completion} {st : Hold} {x y : User}

structure Sound (k : Custody) : Prop where
  held_taken : ∀ t st c, k.held t = some (st, c) →
    k.cookie c.serial = some c.cookie ∧ ¬ k.live c.serial
  pending_taken : ∀ u c, k.pending u = some c →
    k.cookie c.serial = some c.cookie ∧ ¬ k.live c.serial
  held_inj : ∀ t t' st st' c c', k.held t = some (st, c) →
    k.held t' = some (st', c') → c.serial = c'.serial → t = t'
  held_pending : ∀ t u st c c', k.held t = some (st, c) →
    k.pending u = some c' → c.serial ≠ c'.serial
  chain_cookie : ∀ x i, k.chain x = some i → k.cookie i = some x.buffer
  exclusive : ∀ x y i j, k.chain x = some i → k.chain y = some j →
    x.buffer = y.buffer → x = y
  live_owned : ∀ i, k.live i → ∃ x, k.chain x = some i
  routing_owned : ∀ t c, k.held t = some (.routing, c) →
    ∃ x, k.chain x = some c.serial
  releasing_owned : ∀ t u sl c, k.held t = some (.releasing u sl, c) →
    k.chain (.slot u sl) = some c.serial
  stashing_owned : ∀ t c, k.held t = some (.stashing, c) →
    ∃ x, k.chain x = some c.serial ∧ ∀ u sl, x ≠ .slot u sl
  pending_owned : ∀ u c, k.pending u = some c →
    k.chain (.sync u) = some c.serial
  slot_chain : ∀ u sl i, k.chain (.slot u sl) = some i → k.live i ∨
    ∃ t st c, k.held t = some (st, c) ∧ c.serial = i ∧
      (st = .routing ∨ st = .releasing u sl)

/-- A chain has one user. -/
theorem Sound.chain_inj (h : k.Sound) (hx : k.chain x = some i)
    (hy : k.chain y = some i) : x = y := by
  have hcookie := h.chain_cookie x i hx
  rw [h.chain_cookie y i hy, Option.some.injEq] at hcookie
  exact h.exclusive x y i i hx hy hcookie.symm

def issue (k : Custody) (x : User) (n : ℕ) : Custody :=
  { k with
    cookie := Function.update k.cookie n (some x.buffer)
    live := fun i => i = n ∨ k.live i
    chain := Function.update k.chain x (some n) }

def setHeld (k : Custody) (t : UnitNum) (o : Option (Hold × Completion)) :
    Custody :=
  { k with held := Function.update k.held t o }

def retire (k : Custody) (i : ℕ) : Custody :=
  { k with live := fun j => j ≠ i ∧ k.live j }

def finish (k : Custody) (x : User) : Custody :=
  { k with chain := Function.update k.chain x none }

def setPending (k : Custody) (u : UnitNum) (o : Option Completion) : Custody :=
  { k with pending := Function.update k.pending u o }

theorem Sound.issue (h : k.Sound) (hfresh : k.cookie n = none)
    (hfree : ∀ y, y.buffer = x.buffer → k.chain y = none) :
    (k.issue x n).Sound := by
  have hcookie : ∀ i b, k.cookie i = some b → i ≠ n := by
    rintro i b hi rfl
    rw [hfresh] at hi
    exact absurd hi (by simp)
  have hheld : ∀ t st c, k.held t = some (st, c) → c.serial ≠ n :=
    fun t st c hc => hcookie _ _ (h.held_taken t st c hc).1
  have hpending : ∀ u c, k.pending u = some c → c.serial ≠ n :=
    fun u c hc => hcookie _ _ (h.pending_taken u c hc).1
  -- Every other user keeps its chain.
  have hchain : ∀ y i, k.chain y = some i → (k.issue x n).chain y = some i := by
    intro y i hy
    have hne : y ≠ x := by
      rintro rfl
      rw [hfree y rfl] at hy
      exact absurd hy (by simp)
    simpa [Custody.issue, hne] using hy
  refine
    { held_taken := ?_, pending_taken := ?_, held_inj := h.held_inj
      held_pending := h.held_pending, chain_cookie := ?_, exclusive := ?_
      live_owned := ?_, routing_owned := ?_, releasing_owned := ?_
      stashing_owned := ?_, pending_owned := ?_, slot_chain := ?_ }
  · intro t st c hc
    have := h.held_taken t st c hc
    have := hheld t st c hc
    simp only [Custody.issue, Function.update_apply]
    grind only
  · intro u c hc
    have := h.pending_taken u c hc
    have := hpending u c hc
    simp only [Custody.issue, Function.update_apply]
    grind only
  · intro y i
    have := h.chain_cookie y i
    simp only [Custody.issue, Function.update_apply]
    grind only
  · intro y z i j
    have := h.exclusive y z i j
    simp only [Custody.issue, Function.update_apply]
    grind only
  · rintro i (rfl | hi)
    · exact ⟨x, by simp [Custody.issue]⟩
    · exact (h.live_owned i hi).imp fun y hy => hchain y i hy
  · exact fun t c hc => (h.routing_owned t c hc).imp fun y hy => hchain y _ hy
  · exact fun t u sl c hc => hchain _ _ (h.releasing_owned t u sl c hc)
  · intro t c hc
    exact (h.stashing_owned t c hc).imp fun y hy => ⟨hchain y _ hy.1, hy.2⟩
  · exact fun u c hc => hchain _ _ (h.pending_owned u c hc)
  · intro u sl i hi
    by_cases hx : User.slot u sl = x
    · subst hx
      simp only [Custody.issue, Function.update_self, Option.some.injEq] at hi
      exact .inl (.inl hi.symm)
    · simp only [Custody.issue, Function.update_of_ne hx] at hi
      exact (h.slot_chain u sl i hi).imp .inr id

theorem Sound.take (h : k.Sound) (hidle : k.held t = none) (hlive : k.live i)
    (hcookie : k.cookie i = some b) :
    ((k.retire i).setHeld t (some (.routing, ⟨b, i⟩))).Sound := by
  have howner := h.live_owned i hlive
  refine { h with
    held_taken := ?_, pending_taken := ?_, held_inj := ?_, held_pending := ?_
    live_owned := ?_, routing_owned := ?_, releasing_owned := ?_
    stashing_owned := ?_, slot_chain := ?_ }
  all_goals simp only [retire, setHeld, Function.update_apply]
  · grind only [h.held_taken]
  · grind only [h.pending_taken]
  · grind only [h.held_taken, h.held_inj]
  · grind only [h.pending_taken, h.held_pending]
  · grind only [h.live_owned]
  · grind only [h.routing_owned]
  · grind only [h.releasing_owned]
  · grind only [h.stashing_owned]
  · intro u sl j hj
    rcases h.slot_chain u sl j hj with hlive' | ⟨t', st, c, hc, hrest⟩
    · by_cases hji : j = i
      · exact .inr ⟨t, .routing, ⟨b, i⟩, by simp [hji]⟩
      · exact .inl ⟨hji, hlive'⟩
    · refine .inr ⟨t', st, c, ?_, hrest⟩
      grind only

theorem Sound.advance (h : k.Sound) {st' : Hold}
    (hheld : k.held t = some (st, c)) (hrouting : st' ≠ .routing)
    (hreleasing : ∀ u sl, st' = .releasing u sl →
      k.chain (.slot u sl) = some c.serial)
    (hstashing : st' = .stashing →
      ∃ x, k.chain x = some c.serial ∧ ∀ u sl, x ≠ .slot u sl)
    (hslot : ∀ u sl, k.chain (.slot u sl) = some c.serial →
      st' = .releasing u sl) :
    (k.setHeld t (some (st', c))).Sound := by
  have htaken := h.held_taken t st c hheld
  refine { h with
    held_taken := ?_, held_inj := ?_, held_pending := ?_, routing_owned := ?_
    releasing_owned := ?_, stashing_owned := ?_, slot_chain := ?_ }
  all_goals simp only [setHeld, Function.update_apply]
  · grind only [h.held_taken]
  · grind only [h.held_inj]
  · grind only [h.held_pending]
  · grind only [h.routing_owned]
  · grind only [h.releasing_owned]
  · grind only [h.stashing_owned]
  · intro u sl i hi
    rcases h.slot_chain u sl i hi with hlive | ⟨t', st₁, c₁, hc, hserial, hst⟩
    · exact .inl hlive
    · by_cases ht : t' = t
      · subst ht
        rw [hheld, Option.some.injEq, Prod.mk.injEq] at hc
        rw [← hc.2] at hserial
        exact .inr ⟨t', st', c, by simp, hserial,
          .inr (hslot u sl (hserial ▸ hi))⟩
      · exact .inr ⟨t', st₁, c₁, by simpa [ht] using hc, hserial, hst⟩

theorem Sound.letGo (h : k.Sound) (hheld : k.held t = some (st, c))
    (hslot : ∀ u sl, k.chain (.slot u sl) ≠ some c.serial) :
    (k.setHeld t none).Sound := by
  refine { h with
    held_taken := ?_, held_inj := ?_, held_pending := ?_, routing_owned := ?_
    releasing_owned := ?_, stashing_owned := ?_, slot_chain := ?_ }
  all_goals simp only [setHeld, Function.update_apply]
  · grind only [h.held_taken]
  · grind only [h.held_inj]
  · grind only [h.held_pending]
  · grind only [h.routing_owned]
  · grind only [h.releasing_owned]
  · grind only [h.stashing_owned]
  · intro u sl i hi
    rcases h.slot_chain u sl i hi with hlive | ⟨t', st', c', hc, hserial, hst⟩
    · exact .inl hlive
    · have ht : t' ≠ t := by
        rintro rfl
        rw [hheld, Option.some.injEq, Prod.mk.injEq] at hc
        rw [← hc.2] at hserial
        exact hslot u sl (hserial ▸ hi)
      exact .inr ⟨t', st', c', by simpa [ht] using hc, hserial, hst⟩

/-- A slot in flight is served by the device, or by the task that routes or
releases its completion. -/
theorem Sound.held_slot (h : k.Sound) (hheld : k.held t = some (st, c))
    (hchain : k.chain (.slot u sl) = some c.serial) :
    st = .routing ∨ st = .releasing u sl := by
  rcases h.slot_chain u sl _ hchain with hlive | ⟨t', st', c', hc, hserial, hst⟩
  · exact absurd hlive (h.held_taken t st c hheld).2
  · have ht := h.held_inj t' t st' st c' c hc hheld hserial
    rw [ht, hheld, Option.some.injEq, Prod.mk.injEq] at hc
    rwa [← hc.1] at hst

/-- A completion stashed for a synchronous caller passes to that caller. -/
theorem Sound.stash (h : k.Sound) (hheld : k.held t = some (st, c))
    (hsync : k.chain (.sync v) = some c.serial) :
    ((k.setHeld t none).setPending v (some c)).Sound := by
  have htaken := h.held_taken t st c hheld
  have hinj := h.held_inj t
  have hgone := h.letGo hheld (fun u sl hchain =>
    absurd (h.chain_inj hsync hchain) (by simp))
  refine { hgone with
    pending_taken := ?_, held_pending := ?_, pending_owned := ?_ }
  all_goals simp only [setPending, setHeld, Function.update_apply]
  · grind only [h.pending_taken]
  · grind only [h.held_pending]
  · grind only [h.pending_owned]

theorem Sound.settle (h : k.Sound) (hheld : k.held t = some (st, c))
    (hchain : k.chain x = some c.serial) :
    ((k.setHeld t (some (.done, c))).finish x).Sound := by
  have htaken := h.held_taken t st c hheld
  have hinj := h.held_inj t
  -- The chain had no other user.
  have huser : ∀ y i, k.chain y = some i → i ≠ c.serial → y ≠ x := by
    rintro y i hy hi rfl
    rw [hchain, Option.some.injEq] at hy
    exact hi hy.symm
  refine { h with
    held_taken := ?_, held_inj := ?_, held_pending := ?_, chain_cookie := ?_
    exclusive := ?_, live_owned := ?_, routing_owned := ?_
    releasing_owned := ?_, stashing_owned := ?_, pending_owned := ?_
    slot_chain := ?_ }
  all_goals simp only [setHeld, Custody.finish, Function.update_apply]
  · grind only [h.held_taken]
  · grind only [h.held_inj]
  · grind only [h.held_pending]
  · grind only [h.chain_cookie]
  · grind only [h.exclusive]
  · grind only [h.live_owned]
  · grind only [h.routing_owned]
  · grind only [h.releasing_owned]
  · grind only [h.stashing_owned]
  · grind only [h.pending_owned, h.held_pending]
  · intro v sl' i hi
    have hne : User.slot v sl' ≠ x := by
      rintro rfl
      simp at hi
    rw [if_neg hne] at hi
    rcases h.slot_chain v sl' i hi with hlive | ⟨t', st', c', hc, hserial, hst⟩
    · exact .inl hlive
    · have ht : t' ≠ t := by
        rintro rfl
        rw [hheld, Option.some.injEq, Prod.mk.injEq] at hc
        rw [← hc.2] at hserial
        exact hne (h.chain_inj hi (hserial ▸ hchain))
      exact .inr ⟨t', st', c', by simpa [ht] using hc, hserial, hst⟩

@[simp] theorem setHeld_setHeld (k : Custody) (o o' : Option (Hold × Completion)) :
    (k.setHeld t o).setHeld t o' = k.setHeld t o' := by
  simp [setHeld]

theorem Sound.own (h : k.Sound) (hidle : k.held t = none) (hlive : k.live i)
    (hsync : k.chain (.sync u) = some i) :
    (((k.retire i).setHeld t (some (.done, ⟨reqBuf u, i⟩))).finish
      (.sync u)).Sound := by
  have htaken := h.take hidle hlive (h.chain_cookie _ _ hsync)
  have hheld : (((k.retire i).setHeld t (some (.routing, ⟨reqBuf u, i⟩)))).held t =
      some (.routing, ⟨reqBuf u, i⟩) := by
    simp [setHeld]
  have hsettled := htaken.settle hheld (by simpa [setHeld, retire] using hsync)
  simpa using hsettled

theorem Sound.pick (h : k.Sound) (hidle : k.held t = none)
    (hpending : k.pending u = some c) :
    (((k.setPending u none).setHeld t (some (.done, c))).finish
      (.sync u)).Sound := by
  have htaken := h.pending_taken u c hpending
  have howned := h.pending_owned u c hpending
  have hothers : ∀ v c', k.pending v = some c' → c'.serial = c.serial → v = u := by
    intro v c' hc hserial
    have hv := h.pending_owned v c' hc
    rw [hserial] at hv
    exact User.sync.inj (h.chain_inj hv howned)
  have hunstash : ((k.setPending u none).setHeld t (some (.routing, c))).Sound := by
    refine { h with
      held_taken := ?_, pending_taken := ?_, held_inj := ?_, held_pending := ?_
      routing_owned := ?_, releasing_owned := ?_, stashing_owned := ?_
      pending_owned := ?_, slot_chain := ?_ }
    all_goals simp only [setPending, setHeld, Function.update_apply]
    · grind only [h.held_taken]
    · grind only [h.pending_taken]
    · grind only [h.held_inj, h.held_pending]
    · grind only [h.held_pending]
    · grind only [h.routing_owned]
    · grind only [h.releasing_owned]
    · grind only [h.stashing_owned]
    · grind only [h.pending_owned]
    · intro v sl i hi
      refine (h.slot_chain v sl i hi).imp id ?_
      rintro ⟨t', st, c', hc, hrest⟩
      have ht : t' ≠ t := by
        rintro rfl
        rw [hidle] at hc
        exact absurd hc (by simp)
      exact ⟨t', st, c', by simpa [ht] using hc, hrest⟩
  have hheld : (((k.setPending u none).setHeld t (some (.routing, c)))).held t =
      some (.routing, c) := by
    simp [setHeld]
  have hsettled := hunstash.settle hheld (by simpa [setHeld, setPending] using howned)
  simpa using hsettled

theorem Sound.probeTake (h : k.Sound) (hlive : k.live i)
    (hchain : k.chain (.probe n) = some i) :
    ((k.retire i).finish (.probe n)).Sound := by
  have huser : ∀ y, k.chain y = some i → y = .probe n :=
    fun y hy => h.chain_inj hy hchain
  -- A completion in a task's hands is of another chain.
  have hother : ∀ t st c y, k.held t = some (st, c) →
      k.chain y = some c.serial → y ≠ .probe n := by
    rintro t st c y hc hy rfl
    rw [hchain, Option.some.injEq] at hy
    exact (h.held_taken t st c hc).2 (hy ▸ hlive)
  refine { h with
    held_taken := ?_, pending_taken := ?_, chain_cookie := ?_, exclusive := ?_
    live_owned := ?_, routing_owned := ?_, releasing_owned := ?_
    stashing_owned := ?_, pending_owned := ?_, slot_chain := ?_ }
  all_goals simp only [retire, Custody.finish, Function.update_apply]
  · grind only [h.held_taken]
  · grind only [h.pending_taken]
  · grind only [h.chain_cookie]
  · grind only [h.exclusive]
  · grind only [h.live_owned]
  · intro t c hc
    obtain ⟨y, hy⟩ := h.routing_owned t c hc
    exact ⟨y, by rwa [if_neg (hother t _ c y hc hy)]⟩
  · grind only [h.releasing_owned]
  · intro t c hc
    obtain ⟨y, hy, hslot⟩ := h.stashing_owned t c hc
    exact ⟨y, by rwa [if_neg (hother t _ c y hc hy)], hslot⟩
  · grind only [h.pending_owned]
  · grind only [h.slot_chain]

inductive Step (k : Custody) : Custody → Prop
  | stay : Step k k
  | issue (x : User) (n : ℕ) (hfresh : k.cookie n = none)
      (hfree : ∀ y, y.buffer = x.buffer → k.chain y = none) :
      Step k (k.issue x n)
  | take (t : UnitNum) (i : ℕ) (b : ReqBuf) (hidle : k.held t = none)
      (hlive : k.live i) (hcookie : k.cookie i = some b) :
      Step k ((k.retire i).setHeld t (some (.routing, ⟨b, i⟩)))
  | advance (t : UnitNum) (st st' : Hold) (c : Completion)
      (hheld : k.held t = some (st, c)) (hrouting : st' ≠ .routing)
      (hreleasing : ∀ u sl, st' = .releasing u sl →
        k.chain (.slot u sl) = some c.serial)
      (hstashing : st' = .stashing →
        ∃ x, k.chain x = some c.serial ∧ ∀ u sl, x ≠ .slot u sl)
      (hslot : ∀ u sl, k.chain (.slot u sl) = some c.serial →
        st' = .releasing u sl) : Step k (k.setHeld t (some (st', c)))
  | letGo (t : UnitNum) (st : Hold) (c : Completion)
      (hheld : k.held t = some (st, c))
      (hslot : ∀ u sl, k.chain (.slot u sl) ≠ some c.serial) :
      Step k (k.setHeld t none)
  | stash (t v : UnitNum) (st : Hold) (c : Completion)
      (hheld : k.held t = some (st, c)) (hsync : k.chain (.sync v) = some c.serial) :
      Step k ((k.setHeld t none).setPending v (some c))
  | settle (t : UnitNum) (st : Hold) (c : Completion) (x : User)
      (hheld : k.held t = some (st, c)) (hchain : k.chain x = some c.serial) :
      Step k ((k.setHeld t (some (.done, c))).finish x)
  | own (t u : UnitNum) (i : ℕ) (hidle : k.held t = none) (hlive : k.live i)
      (hsync : k.chain (.sync u) = some i) :
      Step k (((k.retire i).setHeld t (some (.done, ⟨reqBuf u, i⟩))).finish
        (.sync u))
  | pick (t u : UnitNum) (c : Completion) (hidle : k.held t = none)
      (hpending : k.pending u = some c) :
      Step k (((k.setPending u none).setHeld t (some (.done, c))).finish
        (.sync u))
  | probeTake (i n : ℕ) (hlive : k.live i) (hchain : k.chain (.probe n) = some i) :
      Step k ((k.retire i).finish (.probe n))

/-- Every abstract step keeps each chain with exactly one holder. -/
theorem Sound.step {k' : Custody} (h : k.Sound) (hs : k.Step k') : k'.Sound := by
  cases hs with
  | stay => exact h
  | issue x n hfresh hfree => exact h.issue hfresh hfree
  | take t i b hidle hlive hcookie => exact h.take hidle hlive hcookie
  | advance t st st' c hheld hrouting hreleasing hstashing hslot =>
      exact h.advance hheld hrouting hreleasing hstashing hslot
  | letGo t st c hheld hslot => exact h.letGo hheld hslot
  | stash t v st c hheld hsync => exact h.stash hheld hsync
  | settle t st c x hheld hchain => exact h.settle hheld hchain
  | own t u i hidle hlive hsync => exact h.own hidle hlive hsync
  | pick t u c hidle hpending => exact h.pick hidle hpending
  | probeTake i n hlive hchain => exact h.probeTake hlive hchain

theorem finish_chain (h : (k.finish y).chain x = some i) : k.chain x = some i := by
  simp only [Custody.finish, Function.update_apply] at h
  split at h
  · cases h
  · exact h

theorem Step.chain {k' : Custody} (hs : k.Step k') (hx : k'.chain x = some i) :
    k.chain x = some i ∨ k.cookie i = none := by
  cases hs with
  | issue y n hfresh hfree =>
      simp only [Custody.issue, Function.update_apply] at hx
      split at hx
      · cases hx
        exact .inr hfresh
      · exact .inl hx
  | settle t st c y hheld hchain => exact .inl (finish_chain hx)
  | own t u i hidle hlive hsync => exact .inl (finish_chain hx)
  | pick t u c hidle hpending => exact .inl (finish_chain hx)
  | probeTake i n hlive hchain => exact .inl (finish_chain hx)
  | _ => exact .inl hx

theorem Step.cookie {k' : Custody} (hs : k.Step k') (hi : k.cookie i = some b) :
    k'.cookie i = some b := by
  cases hs with
  | issue y n hfresh hfree =>
      have hne : i ≠ n := by
        rintro rfl
        rw [hfresh] at hi
        cases hi
      simpa [Custody.issue, hne] using hi
  | _ => exact hi

end Custody

end VirtioScsi
