import VirtioScsi.UnitRuns

/-!
# How completions are handled

What a step can make of the completion a task has in its hands, and which
requests are replied.
-/

namespace VirtioScsi

/-- The completion a task is handling, and how far it is. -/
def Pc.handling : Pc → Option (Completion × Handling)
  | .handle _ c what => some (c, what)
  | _ => none

def Pc.completing : Pc → Option IORequest
  | .handle _ _ (.release _ _ r _ _) => some r
  | .handle _ _ (.reply r _ _) => some r
  | _ => none

@[simp] theorem commandPc_handling (r : IORequest) : (commandPc r).handling = none := by
  unfold commandPc
  cases r.command <;> rfl

@[simp] theorem returnPc_handling (call : SyncCall) (result : Int) :
    (returnPc call result).handling = none := by
  unfold returnPc
  split_ifs <;> rfl

namespace Config

variable {s s' : Config} {u v : UnitNum} {e : Event} {p : Pc} {r : IORequest}
  {o : Option (Completion × Handling)}

inductive NextHandling (s : Config) :
    Option (Completion × Handling) → Option (Completion × Handling) → Prop
  | keep (o : Option (Completion × Handling)) : NextHandling s o o
  | idle (o : Option (Completion × Handling)) : NextHandling s o none
  | route (o : Option (Completion × Handling)) (c : Completion) :
      NextHandling s o (some (c, .route))
  | stash (c : Completion) :
      NextHandling s (some (c, .route)) (some (c, .stash))
  | release (c : Completion) (cu : UnitNum) (cs : Slot) (r : IORequest) (err : Int)
      (actual : BitVec 32) (hlookup : s.lookup c.cookie = some (cu, cs, r))
      (hstatus : (err, actual) =
        completionStatus s.setup.modern (s.resp (.slot cu cs)) r.ioLength) :
      NextHandling s (some (c, .route)) (some (c, .release cu cs r err actual))
  | reply (c : Completion) (cu : UnitNum) (cs : Slot) (r : IORequest) (err : Int)
      (actual : BitVec 32) :
      NextHandling s (some (c, .release cu cs r err actual))
        (some (c, .reply r err actual))

theorem NextHandling.of_none (h : p.handling = none) :
    NextHandling s o p.handling := by
  rw [h]
  exact .idle o

theorem Quiet.handling (h : s.Quiet u s') :
    NextHandling s (s.pc u).handling (s'.pc u).handling := by
  cases h with
  | wakeUp hpc hsig =>
      rw [goto_pc_self]
      exact .of_none (by split <;> rfl)
  | noMessage hpc hport =>
      rw [goto_pc_self]
      exact .of_none (by split <;> rfl)
  | message r rest hpc hport =>
      rw [goto_pc_self]
      exact .of_none (commandPc_handling r)
  | handler r p hpc hp =>
      rw [goto_pc_self]
      rcases hp with ⟨_, _, rfl⟩ | ⟨_, _, rfl⟩ <;> exact .idle _
  | _ =>
      rw [goto_pc_self]
      exact .idle _

theorem Move.handling (hm : s.Move e s') (v : UnitNum) :
    NextHandling s (s.pc v).handling (s'.pc v).handling := by
  by_cases hother : ∃ ch, e = .task v ch
  case neg =>
    rw [hm.pc (not_exists.mp hother)]
    exact .keep _
  obtain ⟨ch, rfl⟩ := hother
  cases hm with
  | quiet _ _ _ hq => exact hq.handling
  | take _ _ caller serial x len q' hpc =>
      rw [goto_pc_self]
      exact .route _ _
  | found _ _ caller c cu cs r hpc hlookup =>
      rw [goto_pc_self, hpc]
      exact .release c cu cs r _ _ hlookup rfl
  | foreign _ _ call c hpc hlookup =>
      rw [goto_pc_self, hpc]
      exact .stash c
  | release _ _ caller c cu cs r err actual hpc hlock =>
      rw [goto_pc_self, hpc]
      exact .reply c cu cs r err actual
  | coalesce _ _ hpc =>
      rw [Config.coalesce, goto_pc_self]
      exact .of_none (by split <;> rfl)
  | accept _ _ call c hpc =>
      simp only [doioCheck, goto_pc_self]
      exact .idle _
  | leave _ _ call result hpc hlock =>
      rw [goto_pc_self]
      exact .of_none (returnPc_handling call result)
  | account _ _ r sl hpc =>
      rw [submitAccount, goto_pc_self]
      exact .idle _
  | mark _ _ call hpc =>
      rw [doioMark, goto_pc_self]
      exact .idle _
  | giveUp _ _ call hpc =>
      rw [doioCheck, goto_pc_self]
      exact .idle _
  | _ =>
      rw [goto_pc_self]
      exact .idle _

theorem handling_of_completing (h : p.completing = some r) :
    ∃ c what, p.handling = some (c, what) ∧
      ((∃ cu cs err actual, what = .release cu cs r err actual) ∨
        ∃ err actual, what = .reply r err actual) := by
  cases p with
  | handle caller c what =>
      cases what with
      | release cu cs r' err actual =>
          obtain rfl := Option.some.inj h
          exact ⟨c, _, rfl, .inl ⟨cu, cs, err, actual, rfl⟩⟩
      | reply r' err actual =>
          obtain rfl := Option.some.inj h
          exact ⟨c, _, rfl, .inr ⟨err, actual, rfl⟩⟩
      | _ => cases h
  | _ => cases h

theorem completing_of_handling {c : Completion} {what : Handling}
    (h : p.handling = some (c, what)) : ∃ caller, p = .handle caller c what := by
  cases p with
  | handle caller c' what' =>
      cases h
      exact ⟨caller, rfl⟩
  | _ => cases h

/-- A task completes a request only after looking it up by the cookie it took. -/
theorem Move.completing_of (hm : s.Move e s') (h : (s'.pc v).completing = some r) :
    (s.pc v).completing = some r ∨ ∃ caller c cu cs,
      s.pc v = .handle caller c .route ∧ s.lookup c.cookie = some (cu, cs, r) := by
  obtain ⟨c, what, hhandling, hwhat⟩ := handling_of_completing h
  have hnext := hm.handling v
  rw [hhandling] at hnext
  generalize hold : (s.pc v).handling = old at hnext
  cases hnext with
  | keep =>
      obtain ⟨caller, hpc⟩ := completing_of_handling hold
      left
      rw [hpc]
      rcases hwhat with ⟨_, _, _, _, rfl⟩ | ⟨_, _, rfl⟩ <;> rfl
  | route => rcases hwhat with ⟨_, _, _, _, hw⟩ | ⟨_, _, hw⟩ <;> cases hw
  | stash => rcases hwhat with ⟨_, _, _, _, hw⟩ | ⟨_, _, hw⟩ <;> cases hw
  | release _ cu cs r' err actual hlookup hstatus =>
      obtain ⟨caller, hpc⟩ := completing_of_handling hold
      rcases hwhat with ⟨_, _, _, _, hw⟩ | ⟨_, _, hw⟩
      · cases hw
        exact .inr ⟨caller, c, cu, cs, hpc, hlookup⟩
      · cases hw
  | reply _ cu cs r' err actual =>
      obtain ⟨caller, hpc⟩ := completing_of_handling hold
      left
      rw [hpc]
      rcases hwhat with ⟨_, _, _, _, hw⟩ | ⟨_, _, hw⟩
      · cases hw
      · cases hw
        rfl

theorem Move.status_of {caller : Option SyncCall} {c : Completion} {cu : UnitNum}
    {cs : Slot} {err : Int} {actual : BitVec 32} (hm : s.Move e s')
    (h : s'.pc v = .handle caller c (.release cu cs r err actual)) :
    (∃ caller, s.pc v = .handle caller c (.release cu cs r err actual)) ∨
      (∃ caller, s.pc v = .handle caller c .route) ∧
        s.lookup c.cookie = some (cu, cs, r) ∧
        (err, actual) = completionStatus s.setup.modern (s.resp (.slot cu cs)) r.ioLength := by
  have hnext := hm.handling v
  rw [h] at hnext
  generalize hold : (s.pc v).handling = old at hnext
  cases hnext with
  | keep => exact .inl (completing_of_handling hold)
  | release _ _ _ _ _ _ hlookup hstatus =>
      exact .inr ⟨completing_of_handling hold, hlookup, hstatus⟩

theorem Move.release_of {caller : Option SyncCall} {c : Completion} {cu : UnitNum}
    {cs : Slot} {err : Int} {actual : BitVec 32} (hm : s.Move e s')
    (h : s'.pc v = .handle caller c (.release cu cs r err actual)) :
    s.lookup c.cookie = some (cu, cs, r) ∨
      ∃ caller, s.pc v = .handle caller c (.release cu cs r err actual) := by
  rcases hm.status_of h with hold | ⟨-, hlookup, -⟩
  · exact .inr hold
  · exact .inl hlookup

theorem Move.reply_of (hm : s.Move e s') :
    s'.journal.replied = s.journal.replied ∨
      (∃ v r err actual, s.pc v = .finish r err actual ∧
        s'.journal.replied = s.journal.replied ++ [⟨none, r, err, actual⟩]) ∨
      ∃ v caller c r err actual, s.pc v = .handle caller c (.reply r err actual) ∧
        s'.journal.replied = s.journal.replied ++ [⟨some c.serial, r, err, actual⟩] := by
  cases hm with
  | quiet u ch s' hq =>
      cases hq with
      | finish r err actual hpc => exact .inr (.inl ⟨u, r, err, actual, hpc, rfl⟩)
      | _ => exact .inl rfl
  | reply u ch caller c r err actual hpc =>
      exact .inr (.inr ⟨u, caller, c, r, err, actual, hpc, rfl⟩)
  | stash u ch caller c hpc =>
      left
      unfold stashCookie
      split <;> rfl
  | release u ch caller c cu cs r err actual hpc hlock =>
      left
      unfold releaseSlot
      dsimp only
      split <;> rfl
  | leave u ch call result hpc hlock =>
      left
      split <;> rfl
  | _ => exact .inl rfl

theorem Move.replied_of (hm : s.Move e s') :
    s'.journal.replied = s.journal.replied ∨
      ∃ v m, s'.journal.replied = s.journal.replied ++ [m] ∧
        ((s.pc v).request = some m.ioreq ∨ (s.pc v).completing = some m.ioreq) := by
  rcases hm.reply_of with hsame | ⟨v, r, err, actual, hpc, happend⟩ |
    ⟨v, caller, c, r, err, actual, hpc, happend⟩
  · exact .inl hsame
  · exact .inr ⟨v, _, happend, .inl (by rw [hpc]; rfl)⟩
  · exact .inr ⟨v, _, happend, .inr (by rw [hpc]; rfl)⟩

/-! ## Lookups -/

theorem lookup_eq_some {b : ReqBuf} {cu : UnitNum} {cs : Slot}
    (h : s.lookup b = some (cu, cs, r)) :
    ((s.unit cu).inflight cs).cookie = some b ∧
      ((s.unit cu).inflight cs).ioreq = some r := by
  unfold lookup at h
  split at h
  · cases h
  · next cu' cs' _ =>
    dsimp only at h
    split at h
    · next hcookie =>
      obtain ⟨r', hr', heq⟩ := Option.map_eq_some_iff.mp h
      cases heq
      exact ⟨hcookie, hr'⟩
    · cases h

/-- A slot in flight carries its own buffer, and a task releases the slot its
completion belongs to. -/
structure Routed (s : Config) : Prop where
  cookie : ∀ u sl b, ((s.unit u).inflight sl).cookie = some b → b = .slot u sl
  release : ∀ t caller c cu cs r err actual,
    s.pc t = .handle caller c (.release cu cs r err actual) → c.cookie = .slot cu cs

/-- An entry names its own slot, and a completion is released to the slot its cookie names. -/
theorem Routed.move (h : s.Routed) (hm : s.Move e s') : s'.Routed where
  cookie := by
    intro u sl b hb
    have hslot := hm.slot u sl
    generalize (s'.unit u).inflight sl = a at hslot hb
    cases hslot with
    | keep => exact h.cookie u sl b hb
    | marked => exact (Option.some.inj hb).symm
    | unmarked => cases hb
    | numbered => exact h.cookie u sl b hb
    | released => cases hb
  release := by
    intro t caller c cu cs r err actual hpc
    rcases hm.release_of hpc with hlookup | ⟨caller', hold⟩
    · exact h.cookie cu cs _ (lookup_eq_some hlookup).1
    · exact h.release t caller' c cu cs r err actual hold

theorem routed_initial (setup : Setup) : (initial setup).Routed where
  cookie := by simp [initial, freshUnit]
  release := by simp [initial]

/-! ## A request in one slot -/

/-- The driver has request `r` nowhere, unless in slot `sl` of unit `u`. -/
structure OnlyIn (s : Config) (u : UnitNum) (sl : Slot) (r : IORequest) : Prop where
  ports : ∀ v, r ∉ s.port v
  tasks : ∀ v, (s.pc v).request ≠ some r
  completing : ∀ v, (s.pc v).completing ≠ some r
  slots : ∀ v sl', ((s.unit v).inflight sl').ioreq = some r → v = u ∧ sl' = sl

variable {sl : Slot}

/-- A request that sits in one slot and nowhere else stays there while nobody looks it
up. -/
theorem OnlyIn.move (h : s.OnlyIn u sl r) (hm : s.Move e s')
    (hlookup : ∀ t caller c cs, s.pc t = .handle caller c .route →
      s.lookup c.cookie ≠ some (u, cs, r)) (hput : ∀ v, e ≠ .putMsg v r) :
    s'.OnlyIn u sl r where
  ports := by
    intro v hr
    exact (hm.port_of hr).elim (h.ports v) (hput v)
  tasks := by
    intro v hr
    rcases hm.request_of with hkept | hnone | ⟨r', hport, hr'⟩
    · exact h.tasks v (hkept ▸ hr)
    · rw [hnone] at hr
      cases hr
    · obtain rfl := Option.some.inj (hr'.symm.trans hr)
      exact h.ports v hport
  completing := by
    intro v hr
    rcases hm.completing_of hr with hold | ⟨caller, c, cu, cs, hpc, hfound⟩
    · exact h.completing v hold
    · obtain ⟨rfl, -⟩ := h.slots cu cs (lookup_eq_some hfound).2
      exact hlookup v caller c cs hpc hfound
  slots := by
    intro v sl' hr
    rcases hm.ioreq_of hr with hold | ⟨sg, hpc, -⟩
    · exact h.slots v sl' hold
    · exact absurd (by rw [hpc]; rfl) (h.tasks v)

def replies (s : Config) (r : IORequest) : ℕ :=
  s.journal.replied.countP fun m => decide (m.ioreq = r)

theorem replies_reply (s : Config) (serial : Option ℕ) (r r' : IORequest) (err : Int)
    (actual : BitVec 32) :
    (s.reply serial r' err actual).replies r =
      s.replies r + if r' = r then 1 else 0 := by
  simp [replies, reply, List.countP_append, List.countP_cons]

theorem OnlyIn.replies_move (h : s.OnlyIn u sl r) (hm : s.Move e s') :
    s'.replies r = s.replies r := by
  unfold replies
  rcases hm.replied_of with hsame | ⟨v, m, happend, hhands⟩
  · rw [hsame]
  · have hne : m.ioreq ≠ r := by
      rintro rfl
      exact hhands.elim (h.tasks v) (h.completing v)
    rw [happend, List.countP_append, List.countP_singleton]
    simp [hne]

end Config
end VirtioScsi
