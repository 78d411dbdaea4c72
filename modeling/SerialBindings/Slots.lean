-- The slots of the handle states, in every interleaving of the calls: a slot
-- never refers to a request that is over.
import SerialBindings.InFlight

open programs

namespace cpp_bindings_windows

/-! ## What one step does to the slots -/

/-- The action neither registers nor finishes a request. -/
def Action.KeepsRequests : Action → Prop
  | .startPendingIo .. => False
  | .finishPendingIo .. => False
  | _ => True

theorem Frame.after_keeps {e : Action} (he : e.KeepsRequests) (f : Frame) (r : Answer e) :
    (f.after e r).registered = f.registered ∧
      ((f.after e r).outstanding ≠ none → f.outstanding ≠ none) := by
  cases e with
  | startPendingIo s o request => exact he.elim
  | finishPendingIo s o => exact he.elim
  | waitForSingleObject event milliseconds =>
    simp only [Frame.after]
    split
    · exact ⟨rfl, fun h => absurd rfl h⟩
    · exact ⟨rfl, id⟩
  | cancelIoEx handle =>
    simp only [Frame.after]
    split <;> exact ⟨rfl, id⟩
  | getOverlappedResult handle wait =>
    simp only [Frame.after]
    split
    · exact ⟨rfl, fun h => absurd rfl h⟩
    · exact ⟨rfl, id⟩
  | _ => exact ⟨rfl, id⟩

/-- The slots stay as they are, but for those of a state that is new. -/
def World.KeepsSlots (w w' : World) : Prop :=
  w.registry.next ≤ w'.registry.next ∧
    ∀ s o, w'.slot s o = w.slot s o ∨ (w.registry.next ≤ s ∧ w'.slot s o = none)

theorem World.Untouched.keepsSlots {w w' : World} (h : w.Untouched w') : w.KeepsSlots w' :=
  ⟨Nat.le_of_eq h.next.symm, fun s o => Or.inl (h.slot s o)⟩

theorem World.perform_keepsSlots {t : ThreadId} {w w' : World} {e : Action} {r : Answer e}
    (he : e.KeepsRequests) (h : w.perform t e r = some w') : w.KeepsSlots w' := by
  by_cases hun : e.Unwatched
  · exact (World.perform_unwatched hun h).keepsSlots
  cases e using Action.byWatch with
  | unwatched e he => exact absurd he hun
  | ensureHandleState handle =>
    rcases World.perform_ensure h with ⟨-, rfl⟩ | ⟨-, hs, -, hstates, hnext, -, -⟩
    · exact ⟨Nat.le_refl _, fun _ _ => Or.inl rfl⟩
    · refine ⟨by rw [hnext, hs]; exact Nat.le_succ _, fun s' o => ?_⟩
      rw [World.slot, World.slot, hstates]
      by_cases hne : s' = r
      · rw [hne, Function.update_self]
        exact Or.inr ⟨by rw [hs], by cases o <;> rfl⟩
      · rw [Function.update_of_ne hne]
        exact Or.inl rfl
  | removeHandleState handle =>
    cases h
    exact ⟨Nat.le_refl _, fun _ _ => Or.inl rfl⟩
  | storeAbort s o =>
    obtain ⟨hsame, -, -, hslot⟩ := World.perform_store h
    exact ⟨Nat.le_of_eq hsame.next.symm, fun s' o' => Or.inl (hslot s' o')⟩
  | cancelPending handle s o =>
    have hregistry := (World.perform_cancel h).1
    refine ⟨by rw [hregistry], fun s' o' => Or.inl ?_⟩
    rw [World.slot, World.slot, hregistry]
  | startPendingIo s o request => exact he.elim
  | finishPendingIo s o => exact he.elim
  | cancelIoEx handle =>
    cases h
    exact ⟨Nat.le_refl _, fun _ _ => Or.inl rfl⟩
  | getOverlappedResult handle wait =>
    rw [(World.perform_result h).1]
    exact ⟨Nat.le_refl _, fun _ _ => Or.inl rfl⟩

/-! ## The invariant -/

/-- The slot of a handle state refers to the request that was registered there last, as long as
that one is in flight, and is null otherwise. -/
structure FlightInv (ls : List ApiLabel) (gs : ThreadId → Option (ApiCall × Flight)) (w : World) :
    Prop where
  inside : ∀ t c g, gs t = some (c, g) → running ls t = some c ∧ g.call = c ∧
    g.frame = frames ls t ∧ ∀ s, g.state = some s → s < w.registry.next
  outside : ∀ t, gs t = none → (frames ls t).Settled
  known : ∀ t s o, InFlight ls t s o → s < w.registry.next ∧
    ∃ c, running ls t = some c ∧ c.transfers = some o
  waited : ∀ t, Outstanding ls t → ∃ s o, InFlight ls t s o
  slot : ∀ s o t, w.slot s o = some t ↔ lastRegistered ls s o = some t ∧ InFlight ls t s o

section Steps

variable {ls : List ApiLabel} {gs : ThreadId → Option (ApiCall × Flight)} {w w' : World}
  {t : ThreadId} {c : ApiCall} {g g' : Flight}

theorem frames_other {t' : ThreadId} {e : Action} {r : Answer e} (h : t' ≠ t) :
    frames (ls ++ [.did t e r]) t' = frames ls t' := by
  rw [frames_did, Function.update_of_ne h]

theorem frames_self {e : Action} {r : Answer e} :
    frames (ls ++ [.did t e r]) t = (frames ls t).after e r := by
  rw [frames_did, Function.update_self]

/-- The rule for an action of a thread: what it says about the requests of the thread, and
about the slots. -/
theorem FlightInv.did {e : Action} {r : Answer e} (h : FlightInv ls gs w)
    (hg : gs t = some (c, g)) (hnext : w.registry.next ≤ w'.registry.next)
    (hcall : g'.call = g.call) (hframe : g'.frame = g.frame.after e r)
    (hstate : ∀ s, g'.state = some s → s < w'.registry.next)
    (hreg : ∀ s o, g'.frame.registered = some (s, o) →
      s < w'.registry.next ∧ g.call.transfers = some o)
    (hout : g'.frame.outstanding ≠ none → g'.frame.registered ≠ none)
    (hslot : ∀ s o t', w'.slot s o = some t' ↔
      lastRegistered (ls ++ [.did t e r]) s o = some t' ∧ InFlight (ls ++ [.did t e r]) t' s o) :
    FlightInv (ls ++ [.did t e r]) (Function.update gs t (some (c, g'))) w' := by
  obtain ⟨hrun, hc, hf, -⟩ := h.inside t c g hg
  have hself : frames (ls ++ [.did t e r]) t = g'.frame := by rw [frames_self, hframe, hf]
  refine ⟨?_, ?_, ?_, ?_, hslot⟩
  · rw [running_did]
    refine forall_inside (fun t' c' g0 ht hg0 => ?_) ⟨hrun, hcall.trans hc, hself.symm, hstate⟩
    obtain ⟨hrun', hc', hf', hs'⟩ := h.inside t' c' g0 hg0
    exact ⟨hrun', hc', by rw [frames_other ht]; exact hf',
      fun s hs => Nat.lt_of_lt_of_le (hs' s hs) hnext⟩
  · intro t' hg0
    have ht : t' ≠ t := by
      intro ht
      rw [ht, Function.update_self] at hg0
      cases hg0
    rw [Function.update_of_ne ht] at hg0
    rw [frames_other ht]
    exact h.outside t' hg0
  · intro t' s o hfl
    rw [running_did]
    by_cases ht : t' = t
    · subst ht
      rw [InFlight, hself] at hfl
      obtain ⟨hs, ho⟩ := hreg s o hfl
      exact ⟨hs, c, hrun, hc ▸ ho⟩
    · rw [InFlight, frames_other ht] at hfl
      obtain ⟨hs, hrun'⟩ := h.known t' s o hfl
      exact ⟨Nat.lt_of_lt_of_le hs hnext, hrun'⟩
  · intro t' ho
    by_cases ht : t' = t
    · subst ht
      rw [Outstanding, hself] at ho
      obtain ⟨⟨s, o⟩, hso⟩ := Option.ne_none_iff_exists'.mp (hout ho)
      exact ⟨s, o, by rw [InFlight, hself]; exact hso⟩
    · rw [Outstanding, frames_other ht] at ho
      obtain ⟨s, o, hfl⟩ := h.waited t' ho
      exact ⟨s, o, by rw [InFlight, frames_other ht]; exact hfl⟩

variable (h : FlightInv ls gs w) (hg : gs t = some (c, g))

include h hg

/-- What the protocol state of a thread says about its requests. -/
theorem FlightInv.of_thread {s : StateRef} {o : Operation} :
    g.frame.registered = some (s, o) ↔ InFlight ls t s o := by
  rw [InFlight, (h.inside t c g hg).2.2.1]

/-- An action that keeps the requests keeps the invariant. -/
theorem FlightInv.keeps {e : Action} {r : Answer e} (he : e.KeepsRequests)
    (hw : w.perform t e r = some w') (hcall : g'.call = g.call)
    (hframe : g'.frame = g.frame.after e r)
    (hstate : ∀ s, g'.state = some s → s < w'.registry.next) :
    FlightInv (ls ++ [.did t e r]) (Function.update gs t (some (c, g'))) w' := by
  obtain ⟨hnext, hslots⟩ := World.perform_keepsSlots he hw
  obtain ⟨hreg, hout⟩ := Frame.after_keeps he g.frame r
  rw [← hframe] at hreg hout
  have hsame : ∀ t' s o, InFlight (ls ++ [.did t e r]) t' s o ↔ InFlight ls t' s o := by
    intro t' s o
    by_cases ht : t' = t
    · subst ht
      rw [InFlight, InFlight, frames_self, (Frame.after_keeps he (frames ls t') r).1]
    · rw [InFlight, InFlight, frames_other ht]
  refine h.did hg hnext hcall hframe hstate ?_ ?_ ?_
  · intro s o hso
    rw [hreg] at hso
    obtain ⟨hs, c', hrun, ho⟩ := h.known t s o ((h.of_thread hg).mp hso)
    rw [(h.inside t c g hg).1] at hrun
    cases hrun
    exact ⟨Nat.lt_of_lt_of_le hs hnext, (h.inside t c g hg).2.1 ▸ ho⟩
  · intro ho
    have ho' : Outstanding ls t := by
      rw [Outstanding, ← (h.inside t c g hg).2.2.1]
      exact hout ho
    obtain ⟨s, o, hfl⟩ := h.waited t ho'
    rw [hreg, (h.of_thread hg).mpr hfl]
    exact Option.some_ne_none _
  · intro s o t'
    rw [hsame, lastRegistered_did ls t r fun s' o' request heq => by rw [heq] at he; exact he]
    rcases hslots s o with heq | ⟨hnew, heq⟩
    · rw [heq]
      exact h.slot s o t'
    · rw [heq]
      refine ⟨nofun, fun hx => ?_⟩
      exact absurd (h.known t' s o hx.2).1 (Nat.not_lt.mpr hnew)

theorem FlightInv.startPendingIo {s : StateRef} {o : Operation} {request : Request}
    {start : PendingIoStart} {transferred : DWORD}
    (hallows : flying.allows g (.startPendingIo s o request))
    (hw : w.perform t (.startPendingIo s o request) (start, transferred) = some w') :
    FlightInv (ls ++ [.did t (.startPendingIo s o request) (start, transferred)])
      (Function.update gs t (some (c, { g with
        frame := g.frame.after (.startPendingIo s o request) (start, transferred) }))) w' := by
  obtain ⟨ho, hs, hreg, hout⟩ := hallows
  obtain ⟨hsame, -, haborted, -, hslot⟩ := World.perform_start hw
  obtain ⟨-, -, hf, hknown⟩ := h.inside t c g hg
  have hnext := Nat.le_of_eq hsame.next.symm
  have hlt : ∀ s', g.state = some s' → s' < w'.registry.next := fun s' hs' => by
    rw [hsame.next]
    exact hknown s' hs'
  -- the thread had no request before
  have hnone : ∀ s' o', ¬ InFlight ls t s' o' := fun s' o' hfl => by
    rw [← h.of_thread hg, hreg] at hfl
    cases hfl
  cases hstart : start.aborted
  · have hafter : (g.frame.after (.startPendingIo s o request) (start, transferred)).registered =
        some (s, o) := by
      simp only [Frame.after, hstart, Bool.false_eq_true, if_false]
    have hself : ∀ s' o', InFlight
        (ls ++ [.did t (.startPendingIo s o request) (start, transferred)])
        t s' o' ↔ s' = s ∧ o = o' := by
      intro s' o'
      rw [InFlight, frames_self, ← hf, hafter, Option.some_inj, Prod.mk.injEq]
      exact and_congr_left fun _ => eq_comm
    refine h.did hg hnext rfl rfl hlt ?_ ?_ ?_
    · intro s' o' hso
      dsimp only at hso
      rw [hafter] at hso
      cases hso
      exact ⟨hlt s hs, ho⟩
    · intro _
      dsimp only
      rw [hafter]
      exact Option.some_ne_none _
    · intro s' o' t'
      rw [hslot, lastRegistered_start ls t s s' o o' request start transferred hstart, ← haborted,
        hstart]
      by_cases ht : t' = t
      · subst ht
        rw [hself]
        by_cases hx : s' = s ∧ o = o'
        · rw [if_pos ⟨hx.1, hx.2, rfl⟩, if_pos hx]
          exact ⟨fun _ => ⟨rfl, hx⟩, fun _ => rfl⟩
        · rw [if_neg fun hy => hx ⟨hy.1, hy.2.1⟩, if_neg hx, h.slot]
          exact ⟨fun hy => absurd hy.2 (hnone s' o'), fun hy => absurd hy.2 hx⟩
      · rw [InFlight, frames_other ht]
        by_cases hx : s' = s ∧ o = o'
        · rw [if_pos ⟨hx.1, hx.2, rfl⟩, if_pos hx]
          have hne : some t ≠ some t' := fun heq => ht (Option.some_inj.mp heq).symm
          exact ⟨fun hy => absurd hy hne, fun hy => absurd hy.1 hne⟩
        · rw [if_neg fun hy => hx ⟨hy.1, hy.2.1⟩, if_neg hx]
          exact h.slot s' o' t'
  · have hafter : g.frame.after (.startPendingIo s o request) (start, transferred) = g.frame := by
      simp only [Frame.after, hstart, if_true]
    have hsettled : ∀ t',
        frames (ls ++ [.did t (.startPendingIo s o request) (start, transferred)]) t' =
        frames ls t' := by
      intro t'
      by_cases ht : t' = t
      · subst ht
        rw [frames_self, ← hf, hafter]
      · exact frames_other ht
    refine h.did hg hnext rfl rfl hlt ?_ ?_ ?_
    · intro s' o' hso
      dsimp only at hso
      rw [hafter, hreg] at hso
      cases hso
    · intro hx
      dsimp only at hx
      rw [hafter, hout] at hx
      exact absurd rfl hx
    · intro s' o' t'
      rw [hslot, InFlight, hsettled, lastRegistered_snoc]
      simp only [hstart, if_true]
      rw [if_neg fun hx => by rw [← haborted, hstart] at hx; cases hx.2.2]
      exact h.slot s' o' t'

theorem FlightInv.finishPendingIo {s : StateRef} {o : Operation} {aborted : Bool}
    (hallows : flying.allows g (.finishPendingIo s o))
    (hw : w.perform t (.finishPendingIo s o) aborted = some w') :
    FlightInv (ls ++ [.did t (.finishPendingIo s o) aborted])
      (Function.update gs t (some (c, { g with
        frame := g.frame.after (.finishPendingIo s o) aborted }))) w' := by
  obtain ⟨hreg, hout⟩ := hallows
  obtain ⟨hsame, -, -, -, hslot⟩ := World.perform_finish hw
  obtain ⟨-, -, -, hknown⟩ := h.inside t c g hg
  have hnext := Nat.le_of_eq hsame.next.symm
  have hself : ∀ s' o', ¬ InFlight (ls ++ [.did t (.finishPendingIo s o) aborted]) t s' o' := by
    intro s' o' hfl
    rw [InFlight, frames_self] at hfl
    cases hfl
  -- the only request of the thread is the one that finishes
  have honly : ∀ s' o', InFlight ls t s' o' ↔ s' = s ∧ o = o' := by
    intro s' o'
    rw [← h.of_thread hg, hreg, Option.some_inj, Prod.mk.injEq]
    exact and_congr_left fun _ => eq_comm
  refine h.did hg hnext rfl rfl (fun s' hs' => ?_) nofun (fun hx => absurd hout hx) ?_
  · rw [hsame.next]
    exact hknown s' hs'
  · intro s' o' t'
    rw [hslot, lastRegistered_did ls t (e := .finishPendingIo s o) aborted nofun]
    by_cases ht : t' = t
    · subst ht
      refine ⟨fun hx => ?_, fun hx => absurd hx.2 (hself s' o')⟩
      split at hx
      · cases hx
      · rename_i hne
        have hown := (honly s' o').mp ((h.slot s' o' t').mp hx).2
        obtain ⟨rfl, rfl⟩ := hown
        exact absurd ⟨rfl, rfl, hx⟩ hne
    · rw [InFlight, frames_other ht]
      split
      · rename_i hx
        obtain ⟨rfl, rfl, hown⟩ := hx
        have hlast := ((h.slot s' o t).mp hown).1
        rw [hlast]
        exact ⟨nofun, fun hy => absurd (Option.some_inj.mp hy.1).symm ht⟩
      · exact h.slot s' o' t'

/-- One action of a thread keeps the invariant. -/
theorem FlightInv.perform {e : Action} {r : Answer e} (hallows : flying.allows g e)
    (hw : w.perform t e r = some w') :
    ∃ g', flying.next g e r = some g' ∧
      FlightInv (ls ++ [.did t e r]) (Function.update gs t (some (c, g'))) w' := by
  have hknown := (h.inside t c g hg).2.2.2
  have hkeeps : e.KeepsRequests →
      FlightInv (ls ++ [.did t e r])
        (Function.update gs t (some (c, { g with frame := g.frame.after e r }))) w' := by
    intro he
    exact h.keeps hg he hw rfl rfl fun s hs =>
      Nat.lt_of_lt_of_le (hknown s hs) (World.perform_keepsSlots he hw).1
  cases e with
  | ensureHandleState handle =>
    refine ⟨_, rfl, h.keeps hg trivial hw rfl rfl fun s hs => ?_⟩
    cases hs
    exact w'.registry.made handle r (World.perform_ensure_registers hw)
  | startPendingIo s o request =>
    obtain ⟨start, transferred⟩ := r
    exact ⟨_, rfl, h.startPendingIo hg hallows hw⟩
  | finishPendingIo s o => exact ⟨_, rfl, h.finishPendingIo hg hallows hw⟩
  | _ => exact ⟨_, rfl, hkeeps trivial⟩

end Steps

theorem FlightInv.enter {ls : List ApiLabel} {gs : ThreadId → Option (ApiCall × Flight)} {w : World}
    {t : ThreadId} (h : FlightInv ls gs w) (hg : gs t = none) (c : ApiCall) :
    FlightInv (ls ++ [.enter t c]) (Function.update gs t (some (c, { call := c }))) w := by
  -- the thread has no request, before its call and after its entry
  have hnone : ∀ s o, ¬ InFlight ls t s o := by
    intro s o hfl
    rw [InFlight, (h.outside t hg).1] at hfl
    cases hfl
  have hnew : frames (ls ++ [.enter t c]) t = {} := by rw [frames_enter, Function.update_self]
  have hother : ∀ t', t' ≠ t → frames (ls ++ [.enter t c]) t' = frames ls t' := fun t' ht => by
    rw [frames_enter, Function.update_of_ne ht]
  have hsame : ∀ t' s o, InFlight (ls ++ [.enter t c]) t' s o ↔ InFlight ls t' s o := by
    intro t' s o
    by_cases ht : t' = t
    · subst ht
      refine ⟨fun hfl => ?_, fun hfl => absurd hfl (hnone s o)⟩
      rw [InFlight, hnew] at hfl
      cases hfl
    · rw [InFlight, InFlight, hother t' ht]
  refine ⟨?_, ?_, ?_, ?_, ?_⟩
  · intro t' c' g0 hg0
    by_cases ht : t' = t
    · subst ht
      rw [Function.update_self] at hg0
      cases hg0
      exact ⟨by rw [running_enter, Function.update_self], rfl, hnew.symm, nofun⟩
    · rw [Function.update_of_ne ht] at hg0
      obtain ⟨hrun, hrest⟩ := h.inside t' c' g0 hg0
      rw [running_enter, Function.update_of_ne ht, hother t' ht]
      exact ⟨hrun, hrest⟩
  · intro t' hg0
    have ht : t' ≠ t := by
      intro ht
      rw [ht, Function.update_self] at hg0
      cases hg0
    rw [Function.update_of_ne ht] at hg0
    rw [hother t' ht]
    exact h.outside t' hg0
  · intro t' s o hfl
    have hfl := (hsame t' s o).mp hfl
    have ht : t' ≠ t := fun ht => hnone s o (ht ▸ hfl)
    rw [running_enter, Function.update_of_ne ht]
    exact h.known t' s o hfl
  · intro t' ho
    by_cases ht : t' = t
    · rw [Outstanding, ht, hnew] at ho
      exact absurd rfl ho
    · rw [Outstanding, hother t' ht] at ho
      obtain ⟨s, o, hfl⟩ := h.waited t' ho
      exact ⟨s, o, (hsame t' s o).mpr hfl⟩
  · intro s o t'
    rw [lastRegistered_enter, hsame]
    exact h.slot s o t'

theorem FlightInv.leave {ls : List ApiLabel} {gs : ThreadId → Option (ApiCall × Flight)} {w : World}
    {t : ThreadId} {c : ApiCall} {g : Flight} {a : Int} (h : FlightInv ls gs w)
    (hg : gs t = some (c, g)) (hsettled : g.frame.Settled) :
    FlightInv (ls ++ [.leave t c a]) (Function.update gs t none) w := by
  rw [(h.inside t c g hg).2.2.1] at hsettled
  refine ⟨?_, ?_, ?_, ?_, ?_⟩
  · intro t' c' g0 hg0
    obtain ⟨ht, hg0⟩ := stays_inside hg0
    rw [running_leave, Function.update_of_ne ht, frames_leave]
    exact h.inside t' c' g0 hg0
  · intro t' hg0
    rw [frames_leave]
    by_cases ht : t' = t
    · rw [ht]
      exact hsettled
    · rw [Function.update_of_ne ht] at hg0
      exact h.outside t' hg0
  · intro t' s o hfl
    rw [InFlight, frames_leave] at hfl
    have ht : t' ≠ t := by
      intro ht
      rw [ht, hsettled.1] at hfl
      cases hfl
    rw [running_leave, Function.update_of_ne ht]
    exact h.known t' s o hfl
  · intro t' ho
    rw [Outstanding, frames_leave] at ho
    obtain ⟨s, o, hfl⟩ := h.waited t' ho
    exact ⟨s, o, by rw [InFlight, frames_leave]; exact hfl⟩
  · intro s o t'
    rw [lastRegistered_leave, InFlight, frames_leave]
    exact h.slot s o t'

/-- The invariant holds in every interleaving of the calls. -/
def flightOutline (core : CppCore) (ok : List ApiLabel → World → ApiLabel → Prop) :
    Outline (process core) ok World.start flying where
  start c := { call := c }
  post _ g _ := g.frame.Settled
  inv := FlightInv
  follows := program_flies core
  init :=
    { inside := fun t c g hg => by cases hg
      outside := fun _ _ => ⟨rfl, rfl⟩
      known := fun t s o hfl => by cases hfl
      waited := fun t ho => absurd rfl ho
      slot := fun s o t =>
        ⟨fun hs => by (cases o <;> cases hs), fun hx => by cases hx.1⟩ }
  enter h hg hw _ := by
    cases hw
    exact h.enter hg _
  did h hg hallows hw _ := h.perform hg hallows hw
  leave h hg hsettled hw _ := by
    cases hw
    exact h.leave hg hsettled

/-! ## A chunk does not return before its request is over -/

/-- Whatever the operating system answers, no request is outstanding when the chunk returns. -/
def WaitsForItsRequest (chunk : Api IoResult) : Prop :=
  ∀ (f : Frame) tr result, f.Settled → Traces chunk tr (.ret result) →
    (f.afterAll tr).outstanding = none

theorem transferChunk_waits (core : CppCore) (context : HandleContext) (o : Operation)
    (offset size timeout_ms : Int) :
    WaitsForItsRequest (transferChunk core o context offset size timeout_ms) := by
  intro f tr result hf htr
  -- a call that transfers `o`
  obtain ⟨c, hc⟩ : ∃ c : ApiCall, c.transfers = some o := by
    cases o
    · exact ⟨.transfer 0 none none (.serialRead none 0), rfl⟩
    · exact ⟨.transfer 0 none none (.serialWrite none 0), rfl⟩
  have hstep : ∀ {tr : List (Σ e, Answer e)} {g : Flight} {e : Action} (r : Answer e),
      g.frame = f.afterAll tr → flying.allows g e →
      ∃ g', flying.next g e r = some g' ∧ g'.frame = f.afterAll (tr ++ [⟨e, r⟩]) := by
    intro tr g e r hg _
    have hsnoc : f.afterAll (tr ++ [⟨e, r⟩]) = (f.afterAll tr).after e r := by
      unfold Frame.afterAll
      rw [List.foldl_append]
      rfl
    rw [hsnoc, ← hg]
    cases e <;> exact ⟨_, rfl, rfl⟩
  obtain ⟨g, hg, hend⟩ := follows_traces (I := fun tr g => g.frame = f.afterAll tr) hstep
    (transferChunk_flies core context o offset size timeout_ms
      (g := { call := c, state := some context.state, frame := f }) ⟨hc, rfl, hf⟩) rfl htr
  rw [← hg]
  exact hend.2.2.2

/-! ## The slots in every run -/

/-- In every reachable state a slot is null, or it refers to a request that was registered
there and is not finished, of a transfer of that operation. So the locked section of an abort
cancels such requests only. A request that is outstanding is still registered, and no chunk
and no call returns before its request is over. -/
theorem a_slot_never_dangles (core : CppCore) {ls : List ApiLabel}
    {s : Sys ThreadId Action Answer ApiCall Int World}
    (h : Runs (process core) always World.start ls s) :
    (∀ state o t, s.shared.slot state o = some t →
      InFlight ls t state o ∧ ∃ c, running ls t = some c ∧ c.transfers = some o) ∧
    (∀ u handle state o s', Step (process core) s (.did u (.cancelPending handle state o) ()) s' →
      ∀ t, s'.shared.cancelled t = true → s.shared.cancelled t = true ∨ InFlight ls t state o) ∧
    (∀ t, Outstanding ls t → ∃ state o, InFlight ls t state o) ∧
    (∀ l1 l2 t event closed, ls = l1 ++ .did t (.closeHandle event) closed :: l2 →
      ¬ Outstanding l1 t) ∧
    (∀ l1 l2 t c a, ls = l1 ++ .leave t c a :: l2 → ¬ Outstanding l1 t) ∧
    ∀ context offset size timeout_ms,
      WaitsForItsRequest (readChunk core context offset size timeout_ms) ∧
        WaitsForItsRequest (writeChunk core context offset size timeout_ms) := by
  obtain ⟨gs, hi, hm⟩ := (flightOutline core always).runs h
  refine ⟨fun state o t hslot => ?_, fun u handle state o s' hstep t hc => ?_, hi.waited,
    fun l1 l2 t event closed hl => ?_, fun l1 l2 t c a hl => ?_,
    fun context offset size timeout_ms =>
      ⟨transferChunk_waits core context .kRead offset size timeout_ms,
        transferChunk_waits core context .kWrite offset size timeout_ms⟩⟩
  · have hfl := ((hi.slot state o t).mp hslot).2
    exact ⟨hfl, (hi.known t state o hfl).2⟩
  · cases hstep with
    | did _ hw =>
      have hw : s.shared.perform u (.cancelPending handle state o) () = some _ := hw
      exact ((World.perform_cancel hw).2 t hc).imp_right fun hslot =>
        ((hi.slot state o t).mp hslot).2
  · obtain ⟨s1, s2, hr, -, hstep⟩ := h.split hl
    obtain ⟨gs1, hi1, hm1⟩ := (flightOutline core always).runs hr
    cases hstep with
    | did hthread _ =>
      obtain ⟨g, hg, hallows, -⟩ := Outline.some_of_some hm1 hthread
      rw [Outstanding, ← (hi1.inside t _ g hg).2.2.1]
      exact fun ho => ho hallows.2
  · obtain ⟨s1, s2, hr, -, hstep⟩ := h.split hl
    obtain ⟨gs1, hi1, hm1⟩ := (flightOutline core always).runs hr
    cases hstep with
    | leave hthread _ =>
      obtain ⟨g, hg, hsettled⟩ := Outline.some_of_some hm1 hthread
      rw [Outstanding, ← (hi1.inside t _ g hg).2.2.1]
      exact fun ho => ho hsettled.2

/-- Thread 0 reads from the handle 5 and waits, and then thread 1 aborts the read. -/
def abortDuringWait : List ApiMove :=
  [.enter 0 (.transfer 5 (some ⟨100, 1⟩) none (.serialRead (some 1) 1))] ++ ApiMove.acts 0 6 ++
  [.enter 1 (.serialAbortRead 5 none)] ++ ApiMove.acts 1 4

/-- The slot refers to the request of thread 0, and the abort has canceled it. -/
theorem a_waiting_read_is_in_its_slot :
    ∃ ls s, Runs (process sampleCore) always World.start ls s ∧
      (s.shared.slot 0 .kRead = some 0 ∧ s.shared.cancelled 0 = true) ∧
      (∀ state o t, s.shared.slot state o = some t →
        InFlight ls t state o ∧ ∃ c, running ls t = some c ∧ c.transfers = some o) ∧
      (∀ u handle state o s',
        Step (process sampleCore) s (.did u (.cancelPending handle state o) ()) s' →
        ∀ t, s'.shared.cancelled t = true → s.shared.cancelled t = true ∨ InFlight ls t state o) ∧
      (∀ t, Outstanding ls t → ∃ state o, InFlight ls t state o) ∧
      (∀ l1 l2 t event closed, ls = l1 ++ .did t (.closeHandle event) closed :: l2 →
        ¬ Outstanding l1 t) ∧
      (∀ l1 l2 t c a, ls = l1 ++ .leave t c a :: l2 → ¬ Outstanding l1 t) ∧
      ∀ context offset size timeout_ms,
        WaitsForItsRequest (readChunk sampleCore context offset size timeout_ms) ∧
          WaitsForItsRequest (writeChunk sampleCore context offset size timeout_ms) := by
  obtain ⟨ls, s, hr, hx⟩ :=
    Sys.moves_exists (process sampleCore) always World.start abortDuringWait
      (fun _ s => (s.shared.slot 0 .kRead, s.shared.cancelled 0)) (x := (some 0, true)) rfl
  rw [Prod.mk.injEq] at hx
  exact ⟨ls, s, hr, hx, a_slot_never_dangles sampleCore hr⟩

end cpp_bindings_windows
