import VirtioScsi.UnitMoves
import VirtioScsi.LinkWalk

/-!
# The slots of a unit

What the state of one unit says about its slots and about the buffer that slot
0 shares with the synchronous requests: the free list holds the slots that are
neither in flight nor being filled, a slot in flight carries its own buffer
and the tag of its buffer, the counter counts, and a synchronous request has
the buffer of slot 0 for itself.
-/

namespace VirtioScsi

open LinkWalk

structure UnitView where
  st : Standing
  dev : DevUnit
  tag : Slot → BitVec 64
  gaveUp : Option ℕ

namespace UnitView

variable {w : UnitView} {u : UnitNum} {sl sl' : Slot} {r : IORequest}
  {st : Standing} {i : ℕ}

/-- A synchronous request uses the buffer of slot 0. -/
def Syncing (w : UnitView) : Prop :=
  w.st.reserved = true ∨ w.st.awaiting ≠ none ∨ w.gaveUp ≠ none

def Free (w : UnitView) (sl : Slot) : Prop :=
  (w.dev.inflight sl).cookie = none ∧ w.st.filling ≠ some sl

def Counted (w : UnitView) (sl : Slot) : Prop :=
  (w.dev.inflight sl).cookie ≠ none ∧ w.st.filling ≠ some sl ∧
    w.st.counting ≠ some sl

instance : DecidablePred w.Counted := fun _ => inferInstanceAs (Decidable (_ ∧ _))

def counted (w : UnitView) : Finset Slot :=
  Finset.univ.filter w.Counted

theorem mem_counted : sl ∈ w.counted ↔ w.Counted sl := by
  simp [counted]

structure Ok (w : UnitView) (u : UnitNum) : Prop where
  free : ∃ l, Walk w.dev.inflightNext some w.dev.freeHead l none ∧ l.Nodup ∧
    ∀ sl, sl ∈ l ↔ w.Free sl
  cookie : ∀ sl c, (w.dev.inflight sl).cookie = some c →
    c = .slot u sl ∧ w.tag sl = requestId u sl
  request : ∀ sl, (w.dev.inflight sl).ioreq = none ↔
    (w.dev.inflight sl).cookie = none
  marked : ∀ sl, w.st.filling = some sl →
    (w.dev.inflight sl).ioreq = w.st.marked
  counting : ∀ sl, w.st.counting = some sl →
    (w.dev.inflight sl).cookie ≠ none ∧ w.st.filling = none
  count : w.dev.inflightCount = w.counted.card
  exclusive : w.Syncing → (w.dev.inflight 0).cookie = none ∧
    w.st.filling ≠ some 0 ∧ w.tag 0 = 1
  once : w.gaveUp ≠ none → w.st.reserved = false ∧ w.st.awaiting = none

theorem Ok.head_free (h : w.Ok u) (hhead : w.dev.freeHead = some sl) : w.Free sl := by
  obtain ⟨l, hwalk, -, hmem⟩ := h.free
  cases l with
  | nil =>
      rw [walk_nil, hhead] at hwalk
      cases hwalk
  | cons a l =>
      rw [walk_cons, hhead, Option.some.injEq] at hwalk
      exact (hmem sl).mp (hwalk.1 ▸ List.mem_cons_self)

theorem Ok.entry_of_marked (h : w.Ok u) {r : IORequest}
    (hfilling : w.st.filling = some sl) (hmarked : w.st.marked = some r) :
    (w.dev.inflight sl).ioreq = some r ∧ (w.dev.inflight sl).cookie ≠ none := by
  have hioreq := (h.marked sl hfilling).trans hmarked
  refine ⟨hioreq, fun hnone => ?_⟩
  rw [(h.request sl).mpr hnone] at hioreq
  cases hioreq

/-- The completion in hand and the lock do not matter here, nor how far a
synchronous request is. -/
theorem Ok.restand (h : w.Ok u) (hfilling : st.filling = w.st.filling)
    (hmarked : st.marked = w.st.marked) (hcounting : st.counting = w.st.counting)
    (hsync : st.reserved = true ∨ st.awaiting ≠ none → w.Syncing)
    (honce : w.gaveUp ≠ none → st.reserved = false ∧ st.awaiting = none) :
    Ok { w with st := st } u := by
  have hfree : ∀ sl, Free { w with st := st } sl ↔ w.Free sl := by
    intro sl
    simp only [Free, hfilling]
  have hcounted : counted { w with st := st } = w.counted := by
    ext sl
    simp only [mem_counted, Counted, hfilling, hcounting]
  refine
    { free := ?_, cookie := h.cookie, request := h.request, marked := ?_
      counting := ?_, count := h.count.trans (by rw [hcounted])
      exclusive := ?_, once := honce }
  · simpa only [hfree] using h.free
  · simpa only [hfilling, hmarked] using h.marked
  · simpa only [hcounting, hfilling] using h.counting
  · intro hs
    have hs' : w.Syncing := by
      rcases hs with hs | hs | hs
      · exact hsync (.inl hs)
      · exact hsync (.inr hs)
      · exact .inr (.inr hs)
    simpa only [hfilling] using h.exclusive hs'

/-- Popping the free stack takes a slot that is neither free nor counted afterwards. -/
theorem Ok.pop (h : w.Ok u) (hst : w.st = {}) (hhead : w.dev.freeHead = some sl)
    (hgave : sl = 0 → w.gaveUp = none) :
    Ok { w with
      st := { filling := some sl }
      dev := { w.dev with freeHead := w.dev.inflightNext sl } } u := by
  obtain ⟨l, hwalk, hnodup, hmem⟩ := h.free
  cases l with
  | nil =>
      rw [walk_nil, hhead] at hwalk
      cases hwalk
  | cons a l =>
      rw [walk_cons, hhead, Option.some.injEq] at hwalk
      obtain ⟨rfl, hwalk⟩ := hwalk
      have hfree := (hmem sl).mp List.mem_cons_self
      rw [List.nodup_cons] at hnodup
      have hcounted : counted { w with
          st := { filling := some sl }
          dev := { w.dev with freeHead := w.dev.inflightNext sl } } = w.counted := by
        ext sl'
        simp only [mem_counted, Counted, hst]
        have := hfree.1
        grind
      refine
        { free := ⟨l, hwalk, hnodup.2, ?_⟩, cookie := h.cookie
          request := h.request, marked := ?_, counting := ?_
          count := h.count.trans (by rw [hcounted]), exclusive := ?_, once := ?_ }
      · intro sl'
        have := hmem sl'
        simp only [Free, hst, List.mem_cons] at this ⊢
        grind
      · intro sl' hsl
        rw [Option.some.injEq] at hsl
        subst hsl
        exact (h.request sl).mpr hfree.1
      · simp
      · have := h.exclusive
        simp only [Syncing, hst] at this ⊢
        grind
      · intro hg
        exact ⟨rfl, rfl⟩

theorem Ok.retag (h : w.Ok u) (hfilling : w.st.filling = some sl) :
    Ok { w with tag := Function.update w.tag sl (requestId u sl) } u := by
  refine { h with cookie := ?_, exclusive := ?_ }
  · intro sl' c hc
    obtain ⟨hcookie, htag⟩ := h.cookie sl' c hc
    refine ⟨hcookie, ?_⟩
    by_cases hsl : sl' = sl
    · subst hsl
      simp
    · simpa [hsl] using htag
  · intro hs
    obtain ⟨hzero, hne, htag⟩ := h.exclusive hs
    have hsl : (0 : Slot) ≠ sl := by
      rintro rfl
      exact hne hfilling
    exact ⟨hzero, hne, by simpa [hsl] using htag⟩

theorem Ok.retagSync (h : w.Ok u) (hzero : (w.dev.inflight 0).cookie = none) :
    Ok { w with tag := Function.update w.tag 0 1 } u := by
  refine { h with cookie := ?_, exclusive := ?_ }
  · intro sl c hc
    obtain ⟨hcookie, htag⟩ := h.cookie sl c hc
    have hsl : sl ≠ 0 := by
      rintro rfl
      rw [hzero] at hc
      cases hc
    exact ⟨hcookie, by simpa [hsl] using htag⟩
  · intro hs
    obtain ⟨hcookie, hne, -⟩ := h.exclusive hs
    exact ⟨hcookie, hne, by simp⟩

theorem Ok.reserve (h : w.Ok u) (hst : w.st = {})
    (hzero : (w.dev.inflight 0).cookie = none) (htag : w.tag 0 = 1)
    (hgave : w.gaveUp = none) : Ok { w with st := { reserved := true } } u := by
  refine
    { free := ?_, cookie := h.cookie, request := h.request, marked := by simp
      counting := by simp, count := h.count.trans ?_
      exclusive := fun _ => ⟨hzero, by simp, htag⟩
      once := fun hne => absurd hgave hne }
  · simpa [Free, hst] using h.free
  · congr 1
    ext sl
    simp [mem_counted, Counted, hst]

def setEntry (w : UnitView) (sl : Slot) (e : Inflight) : UnitView :=
  { w with dev := { w.dev with inflight := Function.update w.dev.inflight sl e } }

theorem Ok.entry (h : w.Ok u) {e : Inflight} (hfilling : w.st.filling = some sl)
    (hidle : st.reserved = false ∧ st.awaiting = none)
    (hcookie : ∀ c, e.cookie = some c → c = .slot u sl ∧ w.tag sl = requestId u sl)
    (hrequest : e.ioreq = none ↔ e.cookie = none)
    (hst : st.filling = some sl ∧ st.counting = none ∧ e.ioreq = st.marked ∨
      st.filling = none ∧ st.counting = some sl ∧ e.cookie ≠ none) :
    Ok { w.setEntry sl e with st := st } u := by
  have hcounting : w.st.counting = none := by
    by_contra hne
    obtain ⟨sl', hsl'⟩ := Option.ne_none_iff_exists'.mp hne
    rw [(h.counting sl' hsl').2] at hfilling
    cases hfilling
  have hcounted : counted { w.setEntry sl e with st := st } = w.counted := by
    ext sl'
    simp only [mem_counted, Counted, setEntry, Function.update_apply]
    grind
  obtain ⟨l, hwalk, hnodup, hmem⟩ := h.free
  refine
    { free := ⟨l, hwalk, hnodup, ?_⟩, cookie := ?_, request := ?_, marked := ?_
      counting := ?_, count := h.count.trans (by rw [hcounted]), exclusive := ?_
      once := fun _ => hidle }
  · intro sl'
    have := hmem sl'
    simp only [Free, setEntry, Function.update_apply] at this ⊢
    grind
  · intro sl' c
    have := h.cookie sl' c
    simp only [setEntry, Function.update_apply]
    grind
  · intro sl'
    have := h.request sl'
    simp only [setEntry, Function.update_apply]
    grind
  · intro sl'
    simp only [setEntry, Function.update_apply]
    grind
  · intro sl'
    simp only [setEntry, Function.update_apply]
    grind
  · rintro (hs | hs | hs)
    · exact absurd hs (by simp [hidle.1])
    · exact absurd hidle.2 hs
    · obtain ⟨hzero, hne, htag⟩ := h.exclusive (.inr (.inr hs))
      have hsl : (0 : Slot) ≠ sl := by
        rintro rfl
        exact hne hfilling
      refine ⟨by simpa [setEntry, hsl] using hzero, ?_, htag⟩
      grind

theorem Ok.account (h : w.Ok u) (hst : w.st.counting = some sl)
    (hidle : w.st.reserved = false ∧ w.st.awaiting = none) :
    Ok { w with
      st := {}
      dev := { w.dev with inflightCount := w.dev.inflightCount + 1 } } u := by
  obtain ⟨hcookie, hfilling⟩ := h.counting sl hst
  have hcounted : counted { w with
      st := {}
      dev := { w.dev with inflightCount := w.dev.inflightCount + 1 } } =
        insert sl w.counted := by
    ext sl'
    simp only [mem_counted, Counted, Finset.mem_insert]
    grind
  have hnew : sl ∉ w.counted := by
    rw [mem_counted]
    exact fun hc => hc.2.2 hst
  refine
    { free := ?_, cookie := h.cookie, request := h.request, marked := by simp
      counting := by simp, count := ?_, exclusive := ?_
      once := fun _ => ⟨rfl, rfl⟩ }
  · simpa [Free, hfilling] using h.free
  · rw [hcounted, Finset.card_insert_of_notMem hnew, ← h.count]
  · have := h.exclusive
    simp only [Syncing] at this ⊢
    grind

theorem Ok.giveBack (h : w.Ok u) (hfilling : w.st.filling = some sl)
    (hmarked : w.st.marked = none) :
    Ok { w with
      st := {}
      dev := { w.dev with
        inflightNext := Function.update w.dev.inflightNext sl w.dev.freeHead
        freeHead := some sl } } u := by
  obtain ⟨l, hwalk, hnodup, hmem⟩ := h.free
  have hcookie : (w.dev.inflight sl).cookie = none :=
    (h.request sl).mp ((h.marked sl hfilling).trans hmarked)
  have hnew : sl ∉ l := fun hl => ((hmem sl).mp hl).2 hfilling
  have hcounting : w.st.counting = none := by
    by_contra hne
    obtain ⟨sl', hsl'⟩ := Option.ne_none_iff_exists'.mp hne
    rw [(h.counting sl' hsl').2] at hfilling
    cases hfilling
  refine
    { free := ⟨sl :: l, hwalk.push hnew, List.nodup_cons.mpr ⟨hnew, hnodup⟩, ?_⟩
      cookie := h.cookie, request := h.request, marked := by simp
      counting := by simp, count := h.count.trans ?_, exclusive := ?_
      once := fun _ => ⟨rfl, rfl⟩ }
  · intro sl'
    have := hmem sl'
    simp only [Free, List.mem_cons] at this ⊢
    grind
  · congr 1
    ext sl'
    simp only [mem_counted, Counted]
    grind
  · have := h.exclusive
    simp only [Syncing] at this ⊢
    grind

/-- Releasing a counted slot returns it to the stack and lowers the count by one. -/
theorem Ok.release (h : w.Ok u) (hsl : w.Counted sl) :
    Ok { w with
      dev := { w.dev with
        inflight := Function.update w.dev.inflight sl
          { w.dev.inflight sl with ioreq := none, cookie := none }
        inflightNext := Function.update w.dev.inflightNext sl w.dev.freeHead
        freeHead := some sl
        inflightCount := w.dev.inflightCount - 1 } } u := by
  obtain ⟨l, hwalk, hnodup, hmem⟩ := h.free
  have hnew : sl ∉ l := fun hl => hsl.1 ((hmem sl).mp hl).1
  refine
    { free := ⟨sl :: l, hwalk.push hnew, List.nodup_cons.mpr ⟨hnew, hnodup⟩, ?_⟩
      cookie := ?_, request := ?_, marked := ?_, counting := ?_, count := ?_
      exclusive := ?_, once := h.once }
  · intro sl'
    have hmem' := hmem sl'
    have hne := hsl.2.1
    simp only [Free, List.mem_cons, Function.update_apply] at hmem' ⊢
    grind
  · intro sl' c
    have := h.cookie sl' c
    simp only [Function.update_apply]
    grind
  · intro sl'
    have := h.request sl'
    simp only [Function.update_apply]
    grind
  · intro sl' hfilling
    have hne : sl' ≠ sl := by
      rintro rfl
      exact hsl.2.1 hfilling
    simpa [hne] using h.marked sl' hfilling
  · intro sl' hcounting
    have hne : sl' ≠ sl := by
      rintro rfl
      exact hsl.2.2 hcounting
    simpa [hne] using h.counting sl' hcounting
  · have hcounted : counted { w with
        dev := { w.dev with
          inflight := Function.update w.dev.inflight sl
            { w.dev.inflight sl with ioreq := none, cookie := none }
          inflightNext := Function.update w.dev.inflightNext sl w.dev.freeHead
          freeHead := some sl
          inflightCount := w.dev.inflightCount - 1 } } = w.counted.erase sl := by
      ext sl'
      simp only [mem_counted, Counted, Finset.mem_erase, Function.update_apply]
      grind
    rw [hcounted, Finset.card_erase_of_mem (mem_counted.mpr hsl), ← h.count]
  · intro hs
    obtain ⟨hzero, hne, htag⟩ := h.exclusive hs
    refine ⟨?_, hne, htag⟩
    simp only [Function.update_apply]
    grind

theorem Ok.inflightCount_pos (h : w.Ok u) (hsl : w.Counted sl) :
    0 < w.dev.inflightCount := by
  rw [h.count]
  exact Finset.card_pos.mpr ⟨sl, mem_counted.mpr hsl⟩

theorem Ok.giveUp (h : w.Ok u) (hst : w.st = { awaiting := some i }) :
    Ok { w with st := {}, gaveUp := some i } u := by
  have hsync : w.Syncing := .inr (.inl (by simp [hst]))
  obtain ⟨hzero, hne, htag⟩ := h.exclusive hsync
  refine
    { free := ?_, cookie := h.cookie, request := h.request, marked := by simp
      counting := by simp, count := h.count.trans ?_
      exclusive := fun _ => ⟨hzero, by simp, htag⟩, once := fun _ => ⟨rfl, rfl⟩ }
  · simpa [Free, hst] using h.free
  · congr 1
    ext sl
    simp [mem_counted, Counted, hst]

theorem walk_fresh : Walk Config.freshUnit.inflightNext some Config.freshUnit.freeHead
    (List.finRange 16) none := by
  unfold Config.freshUnit
  decide

theorem Ok.relink (h : w.Ok u) (hfree : ∀ sl, w.Free sl) :
    Ok { w with
      dev := { w.dev with
        freeHead := Config.freshUnit.freeHead
        inflightNext := Config.freshUnit.inflightNext } } u := by
  have hmem : ∀ sl, sl ∈ List.finRange 16 ↔ w.Free sl :=
    fun sl => iff_of_true (List.mem_finRange sl) (hfree sl)
  exact
    { free := ⟨List.finRange 16, walk_fresh, List.nodup_finRange 16, hmem⟩
      cookie := h.cookie, request := h.request, marked := h.marked
      counting := h.counting, count := h.count, exclusive := h.exclusive
      once := h.once }

/-- A unit that has just been set up has all sixteen slots on its stack. -/
theorem ok_fresh (u : UnitNum) :
    Ok ⟨{}, Config.freshUnit, fun _ => 0, none⟩ u := by
  refine
    { free := ⟨List.finRange 16, walk_fresh, List.nodup_finRange 16, ?_⟩
      cookie := ?_, request := ?_, marked := ?_, counting := ?_, count := ?_
      exclusive := ?_, once := ?_ }
  · intro sl
    simp [Free, Config.freshUnit]
  · simp [Config.freshUnit]
  · simp [Config.freshUnit]
  · simp
  · simp
  · refine (Finset.card_eq_zero.mpr ?_).symm
    rw [Finset.eq_empty_iff_forall_notMem]
    intro sl hsl
    exact (mem_counted.mp hsl).1 rfl
  · rintro (hs | hs | hs) <;> simp at hs
  · simp

end UnitView
end VirtioScsi
