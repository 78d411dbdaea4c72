-- No abort is lost, and reads and writes do not abort each other: what an
-- abort that was requested on a handle state leads to, in every interleaving
-- of the calls of any number of threads.
import SerialBindings.Pursuit

open programs

namespace cpp_bindings_windows

/-! ## What happens to a flag -/

/-- The step in which the thread takes the abort flag of `o` from the handle state `s`. -/
def Takes (t : ThreadId) (s : StateRef) (o : Operation) : ApiLabel → Prop
  | .did t' (.startPendingIo s' o' _) (start, _) =>
    t' = t ∧ s' = s ∧ o' = o ∧ start.aborted = true
  | .did t' (.finishPendingIo s' o') aborted => t' = t ∧ s' = s ∧ o' = o ∧ aborted = true
  | _ => False

/-- In the steps `l2` after `l1`, a transfer of `o` took the flag of `s`. If that call has
returned since, it returned the code of an aborted transfer. -/
def Taken (core : CppCore) (l1 l2 : List ApiLabel) (s : StateRef) (o : Operation) : Prop :=
  ∃ l3 l l4 t c, l2 = l3 ++ l :: l4 ∧ running (l1 ++ l3) t = some c ∧ c.transfers = some o ∧
    Takes t s o l ∧ ∀ c' a, firstLeave t l4 = some (c', a) → c' = c ∧ a = core.value (abortCode o)

/-- The same, with the call still doomed as long as it has not returned. -/
def Hunted (core : CppCore) (gs : ThreadId → Option (ApiCall × Pursuit)) (l1 l2 : List ApiLabel)
    (s : StateRef) (o : Operation) : Prop :=
  ∃ l3 l l4 t c, l2 = l3 ++ l :: l4 ∧ running (l1 ++ l3) t = some c ∧ c.transfers = some o ∧
    Takes t s o l ∧ match firstLeave t l4 with
      | some (c', a) => c' = c ∧ a = core.value (abortCode o)
      | none => ∃ g, gs t = some (c, g) ∧ g.doomed = true

theorem Hunted.taken {core : CppCore} {gs : ThreadId → Option (ApiCall × Pursuit)}
    {l1 l2 : List ApiLabel} {s : StateRef} {o : Operation} (h : Hunted core gs l1 l2 s o) :
    Taken core l1 l2 s o := by
  obtain ⟨l3, l, l4, t, c, hl, hc, ho, ht, hleave⟩ := h
  refine ⟨l3, l, l4, t, c, hl, hc, ho, ht, fun c' a hf => ?_⟩
  rw [hf] at hleave
  exact hleave

/-! ## The invariant -/

/-- The abort of the operation of the call was requested on the state that the call works on. -/
def Pursued (ls : List ApiLabel) (g : Pursuit) : Prop := ∃ o s, g.On o s ∧ Requested ls s o

theorem Pursued.mono {ls : List ApiLabel} {g : Pursuit} (h : Pursued ls g) (l : ApiLabel) :
    Pursued (ls ++ [l]) g := by
  obtain ⟨o, s, hon, hr⟩ := h
  exact ⟨o, s, hon, hr.mono [l]⟩

/-- What holds of the call `c` of the thread `t`, with the protocol state `g`. -/
structure Traced (ls : List ApiLabel) (w : World) (t : ThreadId) (c : ApiCall) (g : Pursuit) :
    Prop where
  inside : running ls t = some c
  call : g.call = c
  state : g.state = acquired ls t
  known : ∀ s, g.state = some s → s < w.registry.next
  requested : g.requested = true → ∃ o s, g.call.aborts = some o ∧ g.state = some s ∧
    Requested ls s o
  cancelled : g.registered = true → w.cancelled t = true → g.self_cancelled = true ∨ Pursued ls g
  doomed : g.doomed = true → Pursued ls g

structure AbortInv (core : CppCore) (ls : List ApiLabel)
    (gs : ThreadId → Option (ApiCall × Pursuit)) (w : World) : Prop where
  traced : ∀ t c g, gs t = some (c, g) → Traced ls w t c g
  slot : ∀ s o t, w.slot s o = some t →
    ∃ c g, gs t = some (c, g) ∧ g.registered = true ∧ g.On o s
  flag : ∀ s o, w.flag s o = true → Requested ls s o
  kept : ∀ l1 l2 t s o, ls = l1 ++ .did t (.storeAbort s o) () :: l2 → s < w.registry.next ∧
    (w.flag s o = true ∨ Hunted core gs (l1 ++ [.did t (.storeAbort s o) ()]) l2 s o)

/-! ## One step -/

variable {core : CppCore} {ls : List ApiLabel} {gs : ThreadId → Option (ApiCall × Pursuit)}
  {w w' : World} {t : ThreadId} {c : ApiCall} {g g' : Pursuit}

theorem Traced.step {l : ApiLabel} (h : Traced ls w t c g)
    (hrun : running (ls ++ [l]) t = running ls t) (hacq : acquired (ls ++ [l]) t = acquired ls t)
    (hnext : w.registry.next ≤ w'.registry.next)
    (hcancelled : g.registered = true → w'.cancelled t = true →
      w.cancelled t = true ∨ Pursued ls g) : Traced (ls ++ [l]) w' t c g where
  inside := hrun.trans h.inside
  call := h.call
  state := h.state.trans hacq.symm
  known s hs := Nat.lt_of_lt_of_le (h.known s hs) hnext
  requested hr := by
    obtain ⟨o, s, ho, hs, hreq⟩ := h.requested hr
    exact ⟨o, s, ho, hs, hreq.mono _⟩
  cancelled hreg hc := by
    rcases hcancelled hreg hc with hc | hp
    · exact (h.cancelled hreg hc).imp_right fun hp => hp.mono _
    · exact Or.inr (hp.mono _)
  doomed hd := (h.doomed hd).mono _

/-- A doomed call stays doomed in a step of a thread, and the taken flag stays taken. -/
theorem Hunted.did {l1 l2 : List ApiLabel} {s : StateRef} {o : Operation} {e : Action}
    {r : Answer e} (h : Hunted core gs l1 l2 s o) (hg : gs t = some (c, g))
    (hd : g.doomed = true → g'.doomed = true) :
    Hunted core (Function.update gs t (some (c, g'))) l1 (l2 ++ [.did t e r]) s o := by
  obtain ⟨l3, l, l4, t', c', rfl, hc, ho, ht, hleave⟩ := h
  refine ⟨l3, l, l4 ++ [.did t e r], t', c', by simp, hc, ho, ht, ?_⟩
  rw [firstLeave_append]
  cases hf : firstLeave t' l4 with
  | some x =>
    rw [hf] at hleave
    exact hleave
  | none =>
    rw [hf] at hleave
    obtain ⟨g0, hg0, hd0⟩ := hleave
    by_cases htt : t' = t
    · subst htt
      rw [hg] at hg0
      cases hg0
      exact ⟨g', Function.update_self _ _ _, hd hd0⟩
    · exact ⟨g0, by rw [Function.update_of_ne htt]; exact hg0, hd0⟩

/-- The rule for an action of a thread. It says what the action may do to the flags, to the
registered requests and to the cancellations. -/
theorem AbortInv.did {e : Action} {r : Answer e} (h : AbortInv core ls gs w)
    (hg : gs t = some (c, g)) (hlocal : Traced (ls ++ [.did t e r]) w' t c g')
    (hdoomed : g.doomed = true → g'.doomed = true)
    (hnext : w.registry.next ≤ w'.registry.next)
    (hcancelled : ∀ t' c' g0, t' ≠ t → gs t' = some (c', g0) → g0.registered = true →
      w'.cancelled t' = true → w.cancelled t' = true ∨ Pursued ls g0)
    (hslot : ∀ s o t', w'.slot s o = some t' →
      if t' = t then g'.registered = true ∧ g'.On o s else w.slot s o = some t')
    (hflag : ∀ s o, w'.flag s o = true →
      w.flag s o = true ∨ Requested (ls ++ [.did t e r]) s o)
    (hkept : ∀ s o, s < w.registry.next → w.flag s o = true → w'.flag s o = true ∨
      (c.transfers = some o ∧ Takes t s o (.did t e r) ∧ g'.doomed = true))
    (hstore : ∀ s o, e = .storeAbort s o → s < w.registry.next ∧ w'.flag s o = true) :
    AbortInv core (ls ++ [.did t e r]) (Function.update gs t (some (c, g'))) w' where
  traced := by
    refine forall_inside (fun t' c' g0 ht hg0 => ?_) hlocal
    exact (h.traced t' c' g0 hg0).step (running_other ls trivial) (acquired_other ls r ht) hnext
      (hcancelled t' c' g0 ht hg0)
  slot s o t' hs := by
    have hs' := hslot s o t' hs
    split at hs'
    · rename_i ht
      subst ht
      exact ⟨c, g', Function.update_self _ _ _, hs'⟩
    · rename_i ht
      rw [Function.update_of_ne ht]
      exact h.slot s o t' hs'
  flag s o hf := (hflag s o hf).elim (fun hf => (h.flag s o hf).mono _) id
  kept l1 l2 t' s o hl := by
    rcases snoc_split hl with ⟨rfl, rfl, hx⟩ | ⟨l3, rfl, rfl⟩
    · cases hx
      obtain ⟨hs, hf⟩ := hstore s o rfl
      exact ⟨Nat.lt_of_lt_of_le hs hnext, Or.inl hf⟩
    · obtain ⟨hs, hk⟩ := h.kept l1 l3 t' s o rfl
      refine ⟨Nat.lt_of_lt_of_le hs hnext, ?_⟩
      rcases hk with hf | hk
      · rcases hkept s o hs hf with hf | ⟨hc, htakes, hd⟩
        · exact Or.inl hf
        · refine Or.inr ⟨l3, _, [], t, c, rfl, ?_, hc, htakes, g', Function.update_self _ _ _, hd⟩
          rw [List.append_assoc]
          exact (h.traced t c g hg).inside
      · exact Or.inr (hk.did hg hdoomed)

/-- The world `w'` has the flags, the registered requests and the cancellations of `w`. -/
structure World.Undisturbed (w w' : World) : Prop where
  next : w.registry.next ≤ w'.registry.next
  cancelled : w'.cancelled = w.cancelled
  slot : ∀ s o t, w'.slot s o = some t → w.slot s o = some t
  flag : ∀ s o, w'.flag s o = true → w.flag s o = true
  kept : ∀ s o, s < w.registry.next → w.flag s o = true → w'.flag s o = true

theorem World.Undisturbed.refl (w : World) : w.Undisturbed w :=
  ⟨Nat.le_refl _, rfl, fun _ _ _ h => h, fun _ _ h => h, fun _ _ _ h => h⟩

/-- A request that is registered is one of a call that knows it. -/
theorem AbortInv.slot_of {s : StateRef} {o : Operation} {t' : ThreadId}
    (h : AbortInv core ls gs w) (hg : gs t = some (c, g)) (hs : w.slot s o = some t') :
    if t' = t then g.registered = true ∧ g.On o s else w.slot s o = some t' := by
  split
  · rename_i heq
    subst heq
    obtain ⟨c0, g0, hg0, hr, hon⟩ := h.slot s o t' hs
    rw [hg] at hg0
    cases hg0
    exact ⟨hr, hon⟩
  · exact hs

/-- The rule for an action that leaves the flags and the requests alone. -/
theorem AbortInv.undisturbed {e : Action} {r : Answer e} (h : AbortInv core ls gs w)
    (hg : gs t = some (c, g)) (hw : w.Undisturbed w')
    (hlocal : Traced (ls ++ [.did t e r]) w' t c g')
    (hdoomed : g.doomed = true → g'.doomed = true)
    (hreg : g.registered = true → g'.registered = true ∧ ∀ o s, g.On o s → g'.On o s)
    (hstore : ∀ s o, e ≠ .storeAbort s o) :
    AbortInv core (ls ++ [.did t e r]) (Function.update gs t (some (c, g'))) w' := by
  refine h.did hg hlocal hdoomed hw.next ?_ ?_ (fun s o hf => Or.inl (hw.flag s o hf))
    (fun s o hs hf => Or.inl (hw.kept s o hs hf)) (fun s o he => absurd he (hstore s o))
  · intro t' c' g0 _ _ _ hc
    rw [hw.cancelled] at hc
    exact Or.inl hc
  · intro s o t' hs
    have hs := hw.slot s o t' hs
    have hs' := h.slot_of hg hs
    split
    · rename_i ht
      rw [if_pos ht] at hs'
      exact ⟨(hreg hs'.1).1, (hreg hs'.1).2 o s hs'.2⟩
    · exact hs

/-! ## What each action does -/

/-- The world `w'` also has the handles of `w`. -/
structure World.Untouched (w w' : World) : Prop extends w.SameHandles w' where
  cancelled : w'.cancelled = w.cancelled
  slot : ∀ s o, w'.slot s o = w.slot s o
  flag : ∀ s o, w'.flag s o = w.flag s o

theorem World.Untouched.refl (w : World) : w.Untouched w :=
  ⟨⟨rfl, rfl⟩, rfl, fun _ _ => rfl, fun _ _ => rfl⟩

theorem World.Untouched.undisturbed (h : w.Untouched w') : w.Undisturbed w' :=
  ⟨Nat.le_of_eq h.next.symm, h.cancelled, fun s o t hs => by rw [← h.slot s o]; exact hs,
    fun s o hf => by rw [← h.flag s o]; exact hf, fun s o _ hf => by rw [h.flag s o]; exact hf⟩

/-- Only the counters and the handle table change, and no abort depends on them. -/
theorem World.perform_unwatched {e : Action} {r : Answer e} (he : e.Unwatched)
    (h : w.perform t e r = some w') : w.Untouched w' := by
  induction e using Action.byKind with
  | quiet e hq =>
    rw [World.perform_quiet hq h]
    exact .refl w
  | removeHandleState handle => exact (he.elim id (Or.elim · id id)).elim
  | loadTotal s o =>
    simp only [World.perform] at h
    split at h
    · cases h
      exact .refl w
    · cases h
  | addTotal s o n =>
    cases h
    refine ⟨⟨rfl, rfl⟩, rfl, fun s' o' => ?_, fun s' o' => ?_⟩
    · simp only [World.slot, Registry.modify_states]
      split
      · rename_i hs
        rw [HandleState.pendingOperation_addTotal, hs]
      · rfl
    · simp only [World.flag, Registry.modify_states]
      split
      · rename_i hs
        rw [HandleState.abortFlag_addTotal, hs]
      · rfl
  | createFile path =>
    simp only [World.perform] at h
    split at h
    · cases h
      exact .refl w
    · split at h
      · cases h
      · cases h
        exact ⟨⟨rfl, rfl⟩, rfl, fun _ _ => rfl, fun _ _ => rfl⟩
  | createEvent =>
    cases r with
    | none =>
      cases h
      exact .refl w
    | some event =>
      simp only [World.perform] at h
      split at h
      · cases h
      · cases h
        exact ⟨⟨rfl, rfl⟩, rfl, fun _ _ => rfl, fun _ _ => rfl⟩
  | closeHandle handle =>
    simp only [World.perform] at h
    split at h
    · cases h
      exact .refl w
    · split at h
      · cases h
        exact ⟨⟨rfl, rfl⟩, rfl, fun _ _ => rfl, fun _ _ => rfl⟩
      · cases h
  | waitForSingleObject event milliseconds =>
    cases h
    exact .refl w
  | ensureHandleState handle => exact (he.elim id (Or.elim · id id)).elim
  | storeAbort s o => exact (he.elim id (Or.elim · id id)).elim
  | cancelPending handle s o => exact (he.elim id (Or.elim · id id)).elim
  | startPendingIo s o request => exact (he.elim id (Or.elim · id id)).elim
  | finishPendingIo s o => exact (he.elim id (Or.elim · id id)).elim
  | cancelIoEx handle => exact (he.elim id (Or.elim · id id)).elim
  | getOverlappedResult handle wait => exact (he.elim id (Or.elim · id id)).elim

theorem World.perform_remove {handle : HANDLE}
    (h : w.perform t (.removeHandleState handle) () = some w') : w.Undisturbed w' := by
  cases h
  exact ⟨Nat.le_refl _, rfl, fun _ _ _ h => h, fun _ _ h => h, fun _ _ _ h => h⟩

/-- A new handle state has no flag and no request. -/
theorem World.ensure_undisturbed {handle : HANDLE} {s : StateRef}
    (h : w.perform t (.ensureHandleState handle) s = some w') : w.Undisturbed w' := by
  rcases World.perform_ensure h with ⟨-, rfl⟩ | ⟨-, hs, -, hstates, hnext, hcancelled, -⟩
  · exact .refl _
  have hnew : ∀ o, w'.flag s o = false ∧ w'.slot s o = none := by
    intro o
    rw [World.flag, World.slot, hstates, Function.update_self]
    cases o <;> exact ⟨rfl, rfl⟩
  have hold : ∀ s', s' ≠ s → w'.registry.states s' = w.registry.states s' := by
    intro s' hne
    rw [hstates, Function.update_of_ne hne]
  refine ⟨by rw [hnext, hs]; exact Nat.le_succ _, hcancelled, fun s' o t hp => ?_,
    fun s' o hf => ?_, fun s' o hlt hf => ?_⟩
  · by_cases hne : s' = s
    · subst hne
      rw [(hnew o).2] at hp
      cases hp
    · rw [World.slot, ← hold s' hne]
      exact hp
  · by_cases hne : s' = s
    · subst hne
      rw [(hnew o).1] at hf
      cases hf
    · rw [World.flag, ← hold s' hne]
      exact hf
  · rw [World.flag, hold s' (Nat.ne_of_lt (hs ▸ hlt))]
    exact hf

/-- A call that keeps its protocol state in an action is still traced. -/
theorem Traced.did {e : Action} (h : Traced ls w t c g) (r : Answer e)
    (he : ∀ handle, e ≠ .ensureHandleState handle) (hnext : w.registry.next ≤ w'.registry.next)
    (hcancelled : g.registered = true → w'.cancelled t = true →
      w.cancelled t = true ∨ Pursued ls g) : Traced (ls ++ [.did t e r]) w' t c g :=
  h.step (by rw [running_did]) (by rw [acquired_did ls t r he]) hnext hcancelled

section Actions

variable (h : AbortInv core ls gs w) (hg : gs t = some (c, g))

include h hg

theorem AbortInv.ensureHandleState {handle : HANDLE} {s : StateRef} (hstate : g.state = none)
    (hw : w.perform t (.ensureHandleState handle) s = some w') :
    AbortInv core (ls ++ [.did t (.ensureHandleState handle) s])
      (Function.update gs t (some (c, { g with state := some s }))) w' := by
  have ht := h.traced t c g hg
  have hu := World.ensure_undisturbed hw
  -- the call has no state yet, so it is not pursued
  have hnot : ¬ Pursued ls g := by
    rintro ⟨o, s', hon, -⟩
    rw [Pursuit.On, hstate] at hon
    cases hon.2
  refine h.undisturbed hg hu ?_ id (fun hr => ⟨hr, fun o s' hon => ?_⟩) nofun
  · exact
      { inside := by rw [running_did]; exact ht.inside
        call := ht.call
        state := by rw [acquired_ensure, Function.update_self]
        known := by
          intro s' hs'
          cases hs'
          exact w'.registry.made handle s (World.perform_ensure_registers hw)
        requested := by
          intro hr
          obtain ⟨o, s', -, hs', -⟩ := ht.requested hr
          rw [hstate] at hs'
          cases hs'
        cancelled := by
          intro hr hc
          rw [hu.cancelled] at hc
          exact (ht.cancelled hr hc).imp_right fun hp => absurd hp hnot
        doomed := fun hd => absurd (ht.doomed hd) hnot }
  · rw [Pursuit.On, hstate] at hon
    cases hon.2

theorem AbortInv.storeAbort {s : StateRef} {o : Operation} (haborts : g.call.aborts = some o)
    (hstate : g.state = some s) (hw : w.perform t (.storeAbort s o) () = some w') :
    AbortInv core (ls ++ [.did t (.storeAbort s o) ()])
      (Function.update gs t (some (c, { g with requested := true }))) w' := by
  have ht := h.traced t c g hg
  obtain ⟨hsame, hcancelled, hflag, hslot⟩ := World.perform_store hw
  have hnext := Nat.le_of_eq hsame.next.symm
  have hreq : Requested (ls ++ [.did t (.storeAbort s o) ()]) s o :=
    requested_of_store ht.inside (ht.call ▸ haborts)
  refine h.did hg ?_ id hnext (fun _ _ _ _ _ _ hc => Or.inl (hcancelled ▸ hc)) ?_ ?_ ?_ ?_
  · have hl := ht.did (e := .storeAbort s o) () nofun hnext fun _ hc => Or.inl (hcancelled ▸ hc)
    exact { hl with requested := fun _ => ⟨o, s, haborts, hstate, hreq⟩ }
  · intro s' o' t' hs
    rw [hslot] at hs
    have hs := h.slot_of hg hs
    exact hs
  · intro s' o' hf
    rw [hflag] at hf
    split at hf
    · rename_i heq
      obtain ⟨rfl, rfl⟩ := heq
      exact Or.inr hreq
    · exact Or.inl hf
  · intro s' o' _ hf
    rw [hflag, hf, ite_self]
    exact Or.inl rfl
  · intro s' o' heq
    cases heq
    exact ⟨ht.known s hstate, by rw [hflag, if_pos ⟨rfl, rfl⟩]⟩

theorem AbortInv.cancelPending {handle : HANDLE} {s : StateRef} {o : Operation}
    (haborts : g.call.aborts = some o) (hstate : g.state = some s) (hrequested : g.requested = true)
    (hw : w.perform t (.cancelPending handle s o) () = some w') :
    AbortInv core (ls ++ [.did t (.cancelPending handle s o) ()])
      (Function.update gs t (some (c, g))) w' := by
  have ht := h.traced t c g hg
  obtain ⟨hregistry, hcancel⟩ := World.perform_cancel hw
  -- the abort was requested before, so the request that it cancels is pursued
  have hreq : Requested ls s o := by
    obtain ⟨o', s', ho, hs, hr⟩ := ht.requested hrequested
    rw [haborts] at ho
    rw [hstate] at hs
    cases ho
    cases hs
    exact hr
  have hcancelled : ∀ t' c' g0, gs t' = some (c', g0) → w'.cancelled t' = true →
      w.cancelled t' = true ∨ Pursued ls g0 := by
    intro t' c' g0 hg0 hc
    refine (hcancel t' hc).imp_right fun hslot => ?_
    obtain ⟨c1, g1, hg1, -, hon⟩ := h.slot s o t' hslot
    rw [hg0] at hg1
    cases hg1
    exact ⟨o, s, hon, hreq⟩
  refine h.did hg ?_ id (by rw [hregistry]) (fun t' c' g0 _ hg0 _ => hcancelled t' c' g0 hg0)
    ?_ ?_ ?_ nofun
  · exact ht.did (e := .cancelPending handle s o) () nofun (by rw [hregistry])
      fun _ => hcancelled t c g hg
  · intro s' o' t' hs
    rw [World.slot, hregistry] at hs
    exact h.slot_of hg hs
  · intro s' o' hf
    rw [World.flag, hregistry] at hf
    exact Or.inl hf
  · intro s' o' _ hf
    rw [World.flag, hregistry]
    exact Or.inl hf

/-- The rule for the two actions that take a flag. -/
theorem AbortInv.took {e : Action} {r : Answer e} {s : StateRef} {o : Operation} (hon : g.On o s)
    (hsame : w.SameHandles w') (hcancelled : ∀ t', t' ≠ t → w'.cancelled t' = w.cancelled t')
    (hlocal : Traced (ls ++ [.did t e r]) w' t c g') (hdoomed : g.doomed = true → g'.doomed = true)
    (hflag : ∀ s' o', w'.flag s' o' = if s' = s ∧ o = o' then false else w.flag s' o')
    (hslot : ∀ s' o' t', w'.slot s' o' = some t' →
      if t' = t then g'.registered = true ∧ g'.On o' s' else w.slot s' o' = some t')
    (htakes : w.flag s o = true → Takes t s o (.did t e r) ∧ g'.doomed = true)
    (hstore : ∀ s o, e ≠ .storeAbort s o) :
    AbortInv core (ls ++ [.did t e r]) (Function.update gs t (some (c, g'))) w' := by
  have ht := h.traced t c g hg
  refine h.did hg hlocal hdoomed (Nat.le_of_eq hsame.next.symm) ?_ hslot ?_ ?_
    (fun s o he => absurd he (hstore s o))
  · intro t' c' g0 hne _ _ hc
    rw [hcancelled t' hne] at hc
    exact Or.inl hc
  · intro s' o' hf
    rw [hflag] at hf
    split at hf
    · cases hf
    · exact Or.inl hf
  · intro s' o' _ hf
    rw [hflag]
    split
    · rename_i heq
      obtain ⟨rfl, rfl⟩ := heq
      exact Or.inr ⟨ht.call ▸ hon.1, htakes hf⟩
    · exact Or.inl hf

theorem AbortInv.startPendingIo {s : StateRef} {o : Operation} {request : Request}
    {start : PendingIoStart} {transferred : DWORD} (hon : g.On o s) (hreg : g.registered = false)
    (hdoomed : g.doomed = false)
    (hw : w.perform t (.startPendingIo s o request) (start, transferred) = some w') :
    AbortInv core (ls ++ [.did t (.startPendingIo s o request) (start, transferred)])
      (Function.update gs t (some (c, if start.aborted then { g with doomed := true }
        else { g with registered := true, self_cancelled := false }))) w' := by
  have ht := h.traced t c g hg
  obtain ⟨hsame, hcancelled, haborted, hflag, hslot⟩ := World.perform_start hw
  have hl : Traced _ w' t c g :=
    ht.did (e := .startPendingIo s o request) (start, transferred) nofun
    (Nat.le_of_eq hsame.next.symm) fun hr => by rw [hreg] at hr; cases hr
  -- no request of the thread was registered before
  have hfree : ∀ {s' o'}, w.slot s' o' ≠ some t := by
    intro s' o' hs
    have hs' := h.slot_of hg hs
    rw [if_pos rfl, hreg] at hs'
    cases hs'.1
  refine h.took hg hon hsame (fun t' hne => by rw [hcancelled, Function.update_of_ne hne])
    ?_ ?_ hflag ?_ ?_ nofun
  · split
    · rename_i ha
      rw [haborted] at ha
      exact { hl with
        cancelled := fun hr => by rw [hreg] at hr; cases hr
        doomed := fun _ => ⟨o, s, hon, (h.flag s o ha).mono _⟩ }
    · exact { hl with
        cancelled := fun _ hc => by rw [hcancelled, Function.update_self] at hc; cases hc
        doomed := fun hd => by rw [hdoomed] at hd; cases hd }
  · intro hd
    rw [hdoomed] at hd
    cases hd
  · intro s' o' t' hs
    rw [hslot] at hs
    split at hs
    · rename_i heq
      obtain ⟨rfl, rfl, hf⟩ := heq
      cases hs
      rw [if_pos rfl, haborted, hf]
      exact ⟨rfl, hon⟩
    · rw [if_neg fun htt => hfree (htt ▸ hs)]
      exact hs
  · intro hf
    rw [hf] at haborted
    rw [if_pos haborted]
    exact ⟨⟨rfl, rfl, rfl, haborted⟩, rfl⟩

theorem AbortInv.finishPendingIo {s : StateRef} {o : Operation} {aborted : Bool}
    (hon : g.On o s) (hw : w.perform t (.finishPendingIo s o) aborted = some w') :
    AbortInv core (ls ++ [.did t (.finishPendingIo s o) aborted])
      (Function.update gs t
        (some (c, { g with registered := false, doomed := g.doomed || aborted }))) w' := by
  have ht := h.traced t c g hg
  obtain ⟨hsame, hcancelled, haborted, hflag, hslot⟩ := World.perform_finish hw
  have hl : Traced _ w' t c g := ht.did (e := .finishPendingIo s o) aborted nofun
    (Nat.le_of_eq hsame.next.symm) fun _ hc => Or.inl (hcancelled ▸ hc)
  refine h.took hg hon hsame (fun t' _ => by rw [hcancelled]) ?_ (fun hd => by rw [hd]; rfl)
    hflag ?_ ?_ nofun
  · refine { hl with cancelled := nofun, doomed := fun hd => ?_ }
    rcases Bool.or_eq_true_iff.mp hd with hd | ha
    · exact (ht.doomed hd).mono _
    · rw [haborted] at ha
      exact ⟨o, s, hon, (h.flag s o ha).mono _⟩
  · intro s' o' t' hs
    rw [hslot] at hs
    split at hs
    · cases hs
    · rename_i hother
      have hs' := h.slot_of hg hs
      split
      · rename_i htt
        subst htt
        rw [if_pos rfl] at hs'
        -- the only request of the thread is the one that finishes
        obtain ⟨-, ho, hstate⟩ := hs'
        rw [hon.1] at ho
        rw [hon.2] at hstate
        cases ho
        cases hstate
        exact absurd ⟨rfl, rfl, hs⟩ hother
      · exact hs
  · intro hf
    rw [hf] at haborted
    subst haborted
    exact ⟨⟨rfl, rfl, rfl, rfl⟩, Bool.or_true _⟩

theorem AbortInv.cancelIoEx {handle : HANDLE}
    (hw : w.perform t (.cancelIoEx handle) () = some w') :
    AbortInv core (ls ++ [.did t (.cancelIoEx handle) ()])
      (Function.update gs t (some (c, { g with self_cancelled := true }))) w' := by
  have ht := h.traced t c g hg
  cases hw
  refine h.did hg ?_ id (Nat.le_refl _) ?_ (fun s o t' hs => ?_) (fun s o hf => Or.inl hf)
    (fun s o _ hf => Or.inl hf) nofun
  · exact
      { inside := by rw [running_did]; exact ht.inside
        call := ht.call
        state := by rw [acquired_did ls t (e := .cancelIoEx handle) () nofun]; exact ht.state
        known := ht.known
        requested := fun hr => by
          obtain ⟨o, s, ho, hs, hreq⟩ := ht.requested hr
          exact ⟨o, s, ho, hs, hreq.mono _⟩
        cancelled := fun _ _ => Or.inl rfl
        doomed := fun hd => (ht.doomed hd).mono _ }
  · intro t' c' g0 hne _ _ hc
    dsimp only at hc
    rw [Function.update_of_ne hne] at hc
    exact Or.inl hc
  · have hs := h.slot_of hg hs
    exact hs

/-- Windows reports a canceled request only when somebody canceled it. -/
theorem AbortInv.getOverlappedResult {handle : HANDLE} {wait : Bool} {result : OverlappedResult}
    (hreg : g.registered = true)
    (hw : w.perform t (.getOverlappedResult handle wait) result = some w') :
    AbortInv core (ls ++ [.did t (.getOverlappedResult handle wait) result])
      (Function.update gs t (some (c, if result.completed = false ∧
        result.error = ERROR_OPERATION_ABORTED ∧ g.self_cancelled = false
        then { g with doomed := true } else g))) w' := by
  have ht := h.traced t c g hg
  obtain ⟨rfl, hreported⟩ := World.perform_result hw
  have hl := ht.did (e := .getOverlappedResult handle wait) result nofun (Nat.le_refl _)
    fun _ hc => Or.inl hc
  split
  · rename_i hresult
    refine h.undisturbed hg (.refl _) { hl with doomed := fun _ => ?_ } (fun _ => rfl)
      (fun hr => ⟨hr, fun _ _ ho => ho⟩) nofun
    rcases ht.cancelled hreg (hreported hresult.1 hresult.2.1) with hself | hp
    · rw [hresult.2.2] at hself
      cases hself
    · exact hp.mono _
  · exact h.undisturbed hg (.refl _) hl id (fun hr => ⟨hr, fun _ _ ho => ho⟩) nofun

/-- One action of a thread keeps the invariant. -/
theorem AbortInv.perform {e : Action} {r : Answer e} (hallows : pursuit.allows g e)
    (hw : w.perform t e r = some w') :
    ∃ g', pursuit.next g e r = some g' ∧
      AbortInv core (ls ++ [.did t e r]) (Function.update gs t (some (c, g'))) w' := by
  have ht := h.traced t c g hg
  by_cases hun : e.Unwatched
  · have hu := (World.perform_unwatched hun hw).undisturbed
    refine ⟨g, (pursuit_unwatched hun g r).2, h.undisturbed hg hu ?_ id
      (fun hr => ⟨hr, fun _ _ ho => ho⟩) ?_⟩
    · refine ht.did r (fun handle he => ?_) hu.next fun _ hc => Or.inl (hu.cancelled ▸ hc)
      subst he
      exact (hun.elim id (Or.elim · id id)).elim
    · intro s o he
      subst he
      exact (hun.elim id (Or.elim · id id)).elim
  cases e using Action.byWatch with
  | unwatched e he => exact absurd he hun
  | ensureHandleState handle => exact ⟨_, rfl, h.ensureHandleState hg (by rw [hallows.1]; rfl) hw⟩
  | storeAbort s o => exact ⟨_, rfl, h.storeAbort hg hallows.1 hallows.2.1 hw⟩
  | cancelPending handle s o =>
    exact ⟨_, rfl, h.cancelPending hg hallows.1 hallows.2.1 hallows.2.2 hw⟩
  | startPendingIo s o request =>
    obtain ⟨start, transferred⟩ := r
    exact ⟨_, rfl, h.startPendingIo hg ⟨hallows.1, hallows.2.1⟩ hallows.2.2.1 hallows.2.2.2 hw⟩
  | finishPendingIo s o =>
    exact ⟨_, rfl, h.finishPendingIo hg ⟨hallows.1, hallows.2.1⟩ hw⟩
  | cancelIoEx handle => exact ⟨_, rfl, h.cancelIoEx hg hw⟩
  | getOverlappedResult handle wait => exact ⟨_, rfl, h.getOverlappedResult hg hallows hw⟩
  | removeHandleState handle =>
    have hu := World.perform_remove hw
    refine ⟨g, rfl, h.undisturbed hg hu ?_ id (fun hr => ⟨hr, fun _ _ ho => ho⟩) nofun⟩
    exact ht.did r nofun hu.next fun _ hc => Or.inl (hu.cancelled ▸ hc)

end Actions

theorem AbortInv.enter (h : AbortInv core ls gs w) (hg : gs t = none) (c : ApiCall) :
    AbortInv core (ls ++ [.enter t c]) (Function.update gs t (some (c, .start c))) w where
  traced := by
    refine forall_inside (fun t' c' g0 ht hg0 => ?_)
      { inside := by rw [running_enter, Function.update_self]
        call := rfl
        state := by rw [acquired_enter, Function.update_self]; rfl
        known := nofun
        requested := nofun
        cancelled := nofun
        doomed := nofun }
    refine (h.traced t' c' g0 hg0).step (running_other ls ht) ?_ (Nat.le_refl _)
      fun _ hc => Or.inl hc
    rw [acquired_enter, Function.update_of_ne ht]
  slot s o t' hs := by
    obtain ⟨c', g0, hg0, hr, hon⟩ := h.slot s o t' hs
    have ht : t' ≠ t := by
      intro ht
      rw [ht, hg] at hg0
      cases hg0
    exact ⟨c', g0, by rw [Function.update_of_ne ht]; exact hg0, hr, hon⟩
  flag s o hf := (h.flag s o hf).mono _
  kept l1 l2 t' s o hl := by
    rcases snoc_split hl with ⟨-, -, hx⟩ | ⟨l3, rfl, rfl⟩
    · cases hx
    obtain ⟨hs, hk⟩ := h.kept l1 l3 t' s o rfl
    refine ⟨hs, hk.imp_right fun hk => ?_⟩
    obtain ⟨l4, l, l5, u, c', rfl, hc, ho, htakes, hleave⟩ := hk
    refine ⟨l4, l, l5 ++ [.enter t c], u, c', by simp, hc, ho, htakes, ?_⟩
    rw [firstLeave_append]
    cases hf : firstLeave u l5 with
    | some x =>
      rw [hf] at hleave
      exact hleave
    | none =>
      rw [hf] at hleave
      obtain ⟨g0, hg0, hd⟩ := hleave
      have hu : u ≠ t := by
        intro hu
        rw [hu, hg] at hg0
        cases hg0
      exact ⟨g0, by rw [Function.update_of_ne hu]; exact hg0, hd⟩

/-- A call that returns while it is doomed returns the code of an aborted transfer. -/
theorem AbortInv.leave {a : Int} (h : AbortInv core ls gs w) (hg : gs t = some (c, g))
    (hover : Pursuit.Over core c g a) :
    AbortInv core (ls ++ [.leave t c a]) (Function.update gs t none) w where
  traced t' c' g0 hg0 := by
    obtain ⟨ht, hg0⟩ := stays_inside hg0
    refine (h.traced t' c' g0 hg0).step (running_other ls ht) ?_ (Nat.le_refl _)
      fun _ hc => Or.inl hc
    rw [acquired_leave]
  slot s o t' hs := by
    obtain ⟨c', g0, hg0, hr, hon⟩ := h.slot s o t' hs
    have ht : t' ≠ t := by
      intro ht
      rw [ht, hg] at hg0
      cases hg0
      rw [hover.1] at hr
      cases hr
    exact ⟨c', g0, by rw [Function.update_of_ne ht]; exact hg0, hr, hon⟩
  flag s o hf := (h.flag s o hf).mono _
  kept l1 l2 t' s o hl := by
    rcases snoc_split hl with ⟨-, -, hx⟩ | ⟨l3, rfl, rfl⟩
    · cases hx
    obtain ⟨hs, hk⟩ := h.kept l1 l3 t' s o rfl
    refine ⟨hs, hk.imp_right fun hk => ?_⟩
    obtain ⟨l4, l, l5, u, c', rfl, hc, ho, htakes, hleave⟩ := hk
    refine ⟨l4, l, l5 ++ [.leave t c a], u, c', by simp, hc, ho, htakes, ?_⟩
    rw [firstLeave_append]
    cases hf : firstLeave u l5 with
    | some x =>
      rw [hf] at hleave
      exact hleave
    | none =>
      rw [hf] at hleave
      obtain ⟨g0, hg0, hd⟩ := hleave
      by_cases hu : t = u
      · subst hu
        rw [hg] at hg0
        cases hg0
        simp only [firstLeave, if_true, Option.none_or]
        exact ⟨trivial, (hover.2 o ho).mpr hd⟩
      · simp only [firstLeave, if_neg hu, Option.none_or]
        exact ⟨g0, by rw [Function.update_of_ne (Ne.symm hu)]; exact hg0, hd⟩

/-! ## Every run -/

/-- The invariant holds in every interleaving of the calls. -/
def abortOutline (core : CppCore) (ok : List ApiLabel → World → ApiLabel → Prop) :
    Outline (process core) ok World.start pursuit where
  start := Pursuit.start
  post := Pursuit.Over core
  inv := AbortInv core
  follows := program_pursued core
  init :=
    { traced := fun t c g hg => by cases hg
      slot := fun s o t hs => by cases o <;> cases hs
      flag := fun s o hf => by cases o <;> cases hf
      kept := fun l1 l2 t s o hl => by cases l1 <;> cases hl }
  enter h hg hw _ := by
    cases hw
    exact h.enter hg _
  did h hg hallows hw _ := h.perform hg hallows hw
  leave h hg hover hw _ := by
    cases hw
    exact h.leave hg hover

/-- After the flag of an abort is stored, at every later point the flag is set, or a transfer
of the same operation took it and returns the code of an aborted transfer. And a transfer
returns that code only if the abort of its own operation was requested on its state. -/
theorem no_abort_is_lost_and_none_strays (core : CppCore) {ls : List ApiLabel}
    {s : Sys ThreadId Action Answer ApiCall Int World}
    (h : Runs (process core) always World.start ls s) :
    (∀ l1 l2 t state o, ls = l1 ++ .did t (.storeAbort state o) () :: l2 →
      s.shared.flag state o = true ∨
        Taken core (l1 ++ [.did t (.storeAbort state o) ()]) l2 state o) ∧
    (∀ l1 l2 t c a o, ls = l1 ++ .leave t c a :: l2 → c.transfers = some o →
      a = core.value (abortCode o) →
        ∃ state, acquired l1 t = some state ∧ Requested l1 state o) := by
  refine ⟨fun l1 l2 t state o hl => ?_, fun l1 l2 t c a o hl ho ha => ?_⟩
  · obtain ⟨gs, hi, -⟩ := (abortOutline core always).runs h
    exact (hi.kept l1 l2 t state o hl).2.imp_right Hunted.taken
  · obtain ⟨s1, s2, hr, -, hstep⟩ := h.split hl
    obtain ⟨gs, hi, hm⟩ := (abortOutline core always).runs hr
    cases hstep with
    | leave hthread _ =>
      obtain ⟨g, hg, hover⟩ := Outline.some_of_some hm hthread
      have ht := hi.traced t c g hg
      obtain ⟨o', state, hon, hreq⟩ := ht.doomed ((hover.2 o ho).mp ha)
      rw [Pursuit.On, ht.call, ho] at hon
      cases hon.1
      exact ⟨state, by rw [← ht.state, hon.2], hreq⟩

/-- One thread aborts the reads of the handle 5, and then another one reads from it. -/
def abortThenRead : List ApiMove :=
  [.enter 1 (.serialAbortRead 5 none)] ++ ApiMove.acts 1 4 ++ [.leave 1] ++
  [.enter 0 (.transfer 5 (some ⟨100, 1⟩) none (.serialRead (some 1) 1))] ++ ApiMove.acts 0 8 ++
  [.leave 0]

/-- The abort came before the read, and the read returns `kAbortReadError`. -/
theorem an_abort_before_a_read_is_kept :
    ∃ ls s, Runs (process sampleCore) always World.start ls s ∧
      returns ls = [(1, kSuccess), (0, sampleCore.value .kAbortReadError)] ∧
      (∀ l1 l2 t state o, ls = l1 ++ .did t (.storeAbort state o) () :: l2 →
        s.shared.flag state o = true ∨
          Taken sampleCore (l1 ++ [.did t (.storeAbort state o) ()]) l2 state o) ∧
      ∀ l1 l2 t c a o, ls = l1 ++ .leave t c a :: l2 → c.transfers = some o →
        a = sampleCore.value (abortCode o) →
          ∃ state, acquired l1 t = some state ∧ Requested l1 state o := by
  obtain ⟨ls, s, hr, hx⟩ :=
    Sys.moves_exists (process sampleCore) always World.start abortThenRead
      (fun ls _ => returns ls) rfl
  exact ⟨ls, s, hr, hx, no_abort_is_lost_and_none_strays sampleCore hr⟩

end cpp_bindings_windows
