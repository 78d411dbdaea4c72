-- The state of an open session: which handle state the calls on a handle get
-- between the open that returned it and its close, in every interleaving of
-- opens, closes and uses, while Windows may give a closed value again.
import SerialBindings.Tenancy

open programs

namespace cpp_bindings_windows

/-! ## Sessions -/

/-- The handle value that the call closes. -/
def ApiCall.closing : ApiCall → Option HANDLE
  | .serialClose handle _ => some handle.toInt
  | _ => none

/-- The last state that each thread got, and the open sessions with their states. -/
def ledger : List ApiLabel → (ThreadId → Option StateRef) × (HANDLE → Option StateRef) :=
  List.foldl (fun (acquired, sessions) l => match l with
    | .enter t c => (Function.update acquired t none, match c.closing with
      | some h => Function.update sessions h none
      | none => sessions)
    | .did t (.ensureHandleState _) s => (Function.update acquired t (some s), sessions)
    | .leave t c a => (acquired, if c.opens = true ∧ 0 < a then
        Function.update sessions a (acquired t) else sessions)
    | _ => (acquired, sessions)) (fun _ => none, fun _ => none)

/-- The sessions after the steps: the handle values that an open returned and that nobody has
called `serialClose` on since. Each has the state that its open got. -/
def sessions (ls : List ApiLabel) : HANDLE → Option StateRef := (ledger ls).2

theorem ledger_fst (ls : List ApiLabel) : (ledger ls).1 = acquired ls := by
  induction ls using List.reverseRecOn with
  | nil => rfl
  | append_singleton ls l ih =>
    rw [acquired_snoc, ← ih]
    unfold ledger
    rw [List.foldl_append, List.foldl_cons, List.foldl_nil]
    cases l with
    | did t e r => cases e <;> rfl
    | _ => rfl

theorem sessions_enter (ls : List ApiLabel) (t : ThreadId) (c : ApiCall) :
    sessions (ls ++ [.enter t c]) = match c.closing with
      | some h => Function.update (sessions ls) h none
      | none => sessions ls := by
  unfold sessions ledger
  rw [List.foldl_append]
  rfl

@[simp] theorem sessions_did (ls : List ApiLabel) (t : ThreadId) (e : Action) (r : Answer e) :
    sessions (ls ++ [.did t e r]) = sessions ls := by
  unfold sessions ledger
  rw [List.foldl_append]
  cases e <;> rfl

theorem sessions_leave (ls : List ApiLabel) (t : ThreadId) (c : ApiCall) (a : Int) :
    sessions (ls ++ [.leave t c a]) =
      if c.opens = true ∧ 0 < a then Function.update (sessions ls) a (acquired ls t)
      else sessions ls := by
  rw [← ledger_fst]
  unfold sessions ledger
  rw [List.foldl_append]
  rfl

/-! ## The runs -/

/-- The threads use a handle value only in a session: its owner closes it once, and the other
calls get its state only before that. -/
def UsesSessions (ls : List ApiLabel) : ApiLabel → Prop
  | .enter _ c => match c.closing with
    | some h => 0 < h → sessions ls h ≠ none
    | none => True
  | .did t (.ensureHandleState h) _ =>
    (running ls t).map ApiCall.opens = some true ∨ sessions ls h ≠ none
  | _ => True

/-- The calls of the threads, and the threads that have closed the handle value `h` in a
`serialClose` and have its entry still to remove. -/
def removals (h : HANDLE) :
    List ApiLabel → (ThreadId → Option ApiCall) × List ThreadId :=
  List.foldl (fun (calls, removers) l => match l with
    | .enter t c => (Function.update calls t (some c), removers)
    | .leave t _ _ => (Function.update calls t none, removers)
    | .did t (.closeHandle h') true =>
      (calls, if h' = h ∧ (calls t).map ApiCall.closes = some true then t :: removers
        else removers)
    | .did t (.removeHandleState h') _ =>
      (calls, if h' = h then removers.filter (· ≠ t) else removers)
    | _ => (calls, removers)) (fun _ => none, [])

/-- The threads whose `serialClose` is between the `CloseHandle` and the `removeHandleState` of
the handle value. -/
def removers (ls : List ApiLabel) (h : HANDLE) : List ThreadId := (removals h ls).2

/-- An open registers its handle value only when no close of the same value is between its
`CloseHandle` and its `removeHandleState`. -/
def RegistersAfterRemoval (ls : List ApiLabel) : ApiLabel → Prop
  | .did t (.ensureHandleState h) _ =>
    (running ls t).map ApiCall.opens = some true → removers ls h = []
  | _ => True

theorem removals_fst (h : HANDLE) (ls : List ApiLabel) : (removals h ls).1 = running ls := by
  induction ls using List.reverseRecOn with
  | nil => rfl
  | append_singleton ls l ih =>
    rw [running_snoc, ← ih]
    unfold removals
    rw [List.foldl_append, List.foldl_cons, List.foldl_nil]
    cases l with
    | did t e r =>
      cases e with
      | closeHandle h' => cases r <;> rfl
      | _ => rfl
    | _ => rfl

theorem removers_close (ls : List ApiLabel) (t : ThreadId) (h : HANDLE)
    (hcloses : (running ls t).map ApiCall.closes = some true) :
    t ∈ removers (ls ++ [.did t (.closeHandle h) true]) h := by
  have hstep : removers (ls ++ [.did t (.closeHandle h) true]) h =
      if h = h ∧ ((removals h ls).1 t).map ApiCall.closes = some true then t :: removers ls h
        else removers ls h := by
    unfold removers removals
    rw [List.foldl_append]
    rfl
  rw [hstep, removals_fst, if_pos ⟨rfl, hcloses⟩]
  exact List.mem_cons_self

/-- A thread that has the entry still to remove has it until it removes it. -/
theorem removers_snoc {ls : List ApiLabel} {t : ThreadId} {h : HANDLE} (ht : t ∈ removers ls h)
    {l : ApiLabel} (hl : l ≠ .did t (.removeHandleState h) ()) : t ∈ removers (ls ++ [l]) h := by
  unfold removers removals at ht ⊢
  rw [List.foldl_append, List.foldl_cons, List.foldl_nil]
  cases l with
  | did u e r =>
    cases e with
    | closeHandle h' =>
      cases r with
      | false => exact ht
      | true =>
        dsimp only
        split
        · exact List.mem_cons_of_mem _ ht
        · exact ht
    | removeHandleState h' =>
      dsimp only
      split
      · rename_i hh
        refine List.mem_filter.mpr ⟨ht, ?_⟩
        rw [decide_eq_true_iff]
        rintro rfl
        exact hl (by rw [hh])
      · exact ht
    | _ => exact ht
  | _ => exact ht

/-- The sessions keep their states: an open that returns a handle got a state in this call,
nobody ever got that state before, the registry has it as long as the session is open, and
every call on the handle gets it. -/
structure SessionsKeepStates (ls : List ApiLabel) (w : World) : Prop where
  opened : ∀ l1 t c h l2, ls = l1 ++ .leave t c h :: l2 → c.opens = true → 0 < h →
    ∃ s, acquired l1 t = some s
  created : ∀ l1 t h s l2, ls = l1 ++ .did t (.ensureHandleState h) s :: l2 →
    (running l1 t).map ApiCall.opens = some true →
      ∀ t' h', .did t' (.ensureHandleState h') s ∉ l1
  kept : ∀ h s, sessions ls h = some s → w.registry.g_handle_states h = some s
  given : ∀ l1 t h s s' l2, ls = l1 ++ .did t (.ensureHandleState h) s' :: l2 →
    sessions l1 h = some s → s' = s

/-! ## The invariant -/

/-- What a holding says about the tables, when the thread `t` has it. -/
structure Held (ls : List ApiLabel) (w : World) (t : ThreadId) (x : Holding) : Prop where
  registered : ∀ h s, x = .registered h s →
    acquired ls t = some s ∧ w.registry.g_handle_states h = some s
  object : ∀ h, x.object = some h → h ∈ w.openHandles ∧ sessions ls h = none
  removing : ∀ h, x = .removing h → t ∈ removers ls h ∧ sessions ls h = none

/-- Two threads never hold one open handle value. A value whose entry is still to go is in
nobody's hands as a registered port. -/
structure Apart (x y : Holding) : Prop where
  object : ∀ h, x.object = some h → y.object ≠ some h
  removing : ∀ h s, x = .removing h → y ≠ .registered h s

/-- What the threads hold, and what the sessions and the entries of the registry are. -/
structure Possession (ls : List ApiLabel) (H : ThreadId → Holding) (w : World) : Prop where
  held : ∀ t, Held ls w t (H t)
  apart : ∀ t u, t ≠ u → Apart (H t) (H u)
  live : ∀ h s, sessions ls h = some s →
    h ∈ w.openHandles ∧ w.registry.g_handle_states h = some s
  entries : ∀ h s, w.registry.g_handle_states h = some s →
    (∃ t, H t = .removing h) ∨ (h ∈ w.openHandles ∧ ∀ t, H t ≠ .raw h ∧ H t ≠ .event h)
  made : ∀ t h s, .did t (.ensureHandleState h) s ∈ ls → s < w.registry.next

theorem Held.nothing (ls : List ApiLabel) (w : World) (t : ThreadId) : Held ls w t .nothing :=
  ⟨nofun, nofun, nofun⟩

theorem Apart.nothing (x : Holding) : Apart .nothing x ∧ Apart x .nothing :=
  ⟨⟨nofun, nofun⟩, ⟨nofun, nofun⟩⟩

variable {ls : List ApiLabel} {H : ThreadId → Holding} {w w' : World} {t : ThreadId}
  {l : ApiLabel} {x : Holding}

/-- A holding stays right in a step that keeps the facts that it needs. -/
theorem Held.step (hheld : Held ls w t x) (hacq : acquired (ls ++ [l]) t = acquired ls t)
    (hl : ∀ h, l ≠ .did t (.removeHandleState h) ())
    (hentry : ∀ h s, x = .registered h s →
      w'.registry.g_handle_states h = w.registry.g_handle_states h)
    (hopen : ∀ h, x.object = some h → h ∈ w.openHandles → h ∈ w'.openHandles)
    (hsessions : ∀ h, x.object = some h ∨ x = .removing h → sessions ls h = none →
      sessions (ls ++ [l]) h = none) : Held (ls ++ [l]) w' t x where
  registered h s hx := by
    rw [hacq, hentry h s hx]
    exact hheld.registered h s hx
  object h hx := by
    obtain ⟨ho, hs⟩ := hheld.object h hx
    exact ⟨hopen h hx ho, hsessions h (Or.inl hx) hs⟩
  removing h hx := by
    obtain ⟨hr, hs⟩ := hheld.removing h hx
    exact ⟨removers_snoc hr (hl h), hsessions h (Or.inr hx) hs⟩

/-- The rule for a step of the thread `t`: what it holds after the step, and that the others
hold what they held. -/
theorem Possession.step (hp : Possession ls H w) (hx : Held (ls ++ [l]) w' t x)
    (hothers : ∀ u, u ≠ t → Held (ls ++ [l]) w' u (H u))
    (hapart : ∀ u, u ≠ t → Apart x (H u) ∧ Apart (H u) x)
    (hlive : ∀ h s, sessions (ls ++ [l]) h = some s →
      h ∈ w'.openHandles ∧ w'.registry.g_handle_states h = some s)
    (hentries : ∀ h s, w'.registry.g_handle_states h = some s →
      (x = .removing h ∨ ∃ u, u ≠ t ∧ H u = .removing h) ∨
        (h ∈ w'.openHandles ∧ (x ≠ .raw h ∧ x ≠ .event h) ∧
          ∀ u, u ≠ t → H u ≠ .raw h ∧ H u ≠ .event h))
    (hmade : ∀ u h s, .did u (.ensureHandleState h) s ∈ ls ++ [l] → s < w'.registry.next) :
    Possession (ls ++ [l]) (Function.update H t x) w' where
  held u := by
    by_cases hu : u = t
    · subst hu
      rw [Function.update_self]
      exact hx
    · rw [Function.update_of_ne hu]
      exact hothers u hu
  apart u v huv := by
    by_cases hu : u = t
    · subst hu
      rw [Function.update_self, Function.update_of_ne (Ne.symm huv)]
      exact (hapart v (Ne.symm huv)).1
    · rw [Function.update_of_ne hu]
      by_cases hv : v = t
      · subst hv
        rw [Function.update_self]
        exact (hapart u hu).2
      · rw [Function.update_of_ne hv]
        exact hp.apart u v huv
  live := hlive
  entries h s hs := by
    rcases hentries h s hs with (hr | ⟨u, hu, hr⟩) | ⟨ho, hxn, hn⟩
    · exact Or.inl ⟨t, by rw [Function.update_self]; exact hr⟩
    · exact Or.inl ⟨u, by rw [Function.update_of_ne hu]; exact hr⟩
    · refine Or.inr ⟨ho, fun u => ?_⟩
      by_cases hu : u = t
      · subst hu
        rw [Function.update_self]
        exact hxn
      · rw [Function.update_of_ne hu]
        exact hn u hu
  made := hmade

/-- Nobody else holds the open handle value that the thread holds. -/
theorem Possession.object_ne (hp : Possession ls H w) {u : ThreadId} (hu : u ≠ t) {h h' : HANDLE}
    (ht : (H t).object = some h) (hh : (H u).object = some h') : h' ≠ h := by
  rintro rfl
  exact (hp.apart t u (Ne.symm hu)).object h' ht hh

theorem Possession.made_snoc (hp : Possession ls H w)
    (hl : ∀ u h s, l ≠ .did u (.ensureHandleState h) s)
    (hnext : w.registry.next ≤ w'.registry.next) (u : ThreadId) (h : HANDLE) (s : StateRef)
    (hm : .did u (.ensureHandleState h) s ∈ ls ++ [l]) : s < w'.registry.next := by
  rw [List.mem_append, List.mem_singleton] at hm
  rcases hm with hm | hm
  · exact Nat.lt_of_lt_of_le (hp.made u h s hm) hnext
  · exact absurd hm.symm (hl u h s)

/-! ## One step -/

/-- An action that has nothing to do with handle values leaves the tables as they were. -/
theorem World.perform_homely {e : Action} {r : Answer e} (he : e.Homely)
    (hw : w.perform t e r = some w') : w.SameHandles w' ∧ w'.openHandles = w.openHandles := by
  cases e with
  | ensureHandleState | removeHandleState | createFile | createEvent | closeHandle =>
    exact (he.elim id (Or.elim · id id)).elim
  | cancelPending handle state o =>
    simp only [World.perform] at hw
    split at hw <;> (cases hw; exact ⟨⟨rfl, rfl⟩, rfl⟩)
  | loadTotal | startPendingIo | finishPendingIo | getOverlappedResult =>
    simp only [World.perform] at hw
    split at hw <;> (cases hw; try exact ⟨⟨rfl, rfl⟩, rfl⟩)
  | _ => cases hw; exact ⟨⟨rfl, rfl⟩, rfl⟩

/-- The tables stay, and so does what the threads hold. -/
theorem Possession.stay (hp : Possession ls H w)
    (hl : ∀ u h s, l ≠ .did u (.ensureHandleState h) s)
    (hr : ∀ u h, l ≠ .did u (.removeHandleState h) ())
    (hacq : ∀ u, acquired (ls ++ [l]) u = acquired ls u ∨ H u = .nothing)
    (hsessions : sessions (ls ++ [l]) = sessions ls) (hsame : w.SameHandles w')
    (hopen : w'.openHandles = w.openHandles) : Possession (ls ++ [l]) H w' where
  held u := by
    rcases hacq u with hu | hu
    · refine (hp.held u).step hu (hr u) (fun h _ _ => by rw [hsame.handles])
        (fun h _ ho => by rw [hopen]; exact ho) (fun h _ hs => by rw [hsessions]; exact hs)
    · rw [hu]
      exact Held.nothing _ _ _
  apart := hp.apart
  live h s hs := by
    rw [hsessions] at hs
    rw [hopen, hsame.handles]
    exact hp.live h s hs
  entries h s hs := by
    rw [hsame.handles] at hs
    rw [hopen]
    exact hp.entries h s hs
  made := hp.made_snoc hl (Nat.le_of_eq hsame.next.symm)

/-- Windows gives the thread a handle value that is not open. -/
theorem Possession.got (hp : Possession ls H w) {e : Action} {r : Answer e} {h : HANDLE}
    (hne : ∀ h, e ≠ .ensureHandleState h) (hnr : ∀ h, e ≠ .removeHandleState h)
    (ht : H t = .nothing) (hx : x = .raw h ∨ x = .event h) (hnew : h ∉ w.openHandles)
    (hw : w' = { w with openHandles := insert h w.openHandles }) :
    Possession (ls ++ [.did t e r]) (Function.update H t x) w' := by
  subst hw
  have hobject : x.object = some h := by rcases hx with rfl | rfl <;> rfl
  have hnot : ∀ u, (H u).object ≠ some h := fun u hu => hnew ((hp.held u).object h hu).1
  refine hp.step ?_ (fun u hu => ?_) (fun u _ => ⟨⟨?_, ?_⟩, ⟨?_, ?_⟩⟩) (fun h' s hs => ?_)
    (fun h' s hs => ?_) (hp.made_snoc (fun u h' s heq => by cases heq; exact hne h' rfl)
      (Nat.le_refl _))
  · refine ⟨?_, fun h' hh => ?_, ?_⟩
    · rcases hx with rfl | rfl <;> exact nofun
    · rw [hobject] at hh
      cases hh
      refine ⟨Finset.mem_insert_self _ _, ?_⟩
      rw [sessions_did]
      cases hs : sessions ls h with
      | none => rfl
      | some s => exact absurd (hp.live h s hs).1 hnew
    · rcases hx with rfl | rfl <;> exact nofun
  · refine (hp.held u).step (acquired_other ls r hu) (fun h' heq => by cases heq; exact hu rfl)
      (fun _ _ _ => rfl) (fun h' _ ho => Finset.mem_insert_of_mem ho) (fun h' _ hs => ?_)
    rw [sessions_did]
    exact hs
  · intro h' hh
    rw [hobject] at hh
    cases hh
    exact hnot u
  · rcases hx with rfl | rfl <;> exact nofun
  · intro h' hh heq
    rw [hobject] at heq
    cases heq
    exact hnot u hh
  · rcases hx with rfl | rfl <;> exact nofun
  · rw [sessions_did] at hs
    obtain ⟨ho, hreg⟩ := hp.live h' s hs
    exact ⟨Finset.mem_insert_of_mem ho, hreg⟩
  · rcases hp.entries h' s hs with ⟨u, hu⟩ | ⟨ho, hn⟩
    · refine Or.inl (Or.inr ⟨u, ?_, hu⟩)
      rintro rfl
      rw [ht] at hu
      cases hu
    · refine Or.inr ⟨Finset.mem_insert_of_mem ho, ?_, fun u _ => hn u⟩
      have hne : h ≠ h' := fun heq => hnew (by rw [heq]; exact ho)
      rcases hx with rfl | rfl <;> exact ⟨by simp [hne], by simp [hne]⟩

/-- The thread gives up what it holds, and the handle value stays open. -/
theorem Possession.leaked (hp : Possession ls H w) {e : Action} {r : Answer e}
    (hne : ∀ h, e ≠ .ensureHandleState h) (hnr : ∀ h, e ≠ .removeHandleState h)
    (ht : ∀ h, H t ≠ .removing h) :
    Possession (ls ++ [.did t e r]) (Function.update H t .nothing) w := by
  have hothers : ∀ u, u ≠ t → Held (ls ++ [.did t e r]) w u (H u) := by
    intro u hu
    refine (hp.held u).step (acquired_other ls r hu) (fun h heq => by cases heq; exact hu rfl)
      (fun _ _ _ => rfl) (fun _ _ ho => ho) (fun h _ hs => ?_)
    rw [sessions_did]
    exact hs
  refine hp.step (Held.nothing _ _ _) hothers (fun u _ => Apart.nothing _) (fun h s hs => ?_)
    (fun h s hs => ?_) (hp.made_snoc (fun u h s heq => by cases heq; exact hne h rfl)
      (Nat.le_refl _))
  · rw [sessions_did] at hs
    exact hp.live h s hs
  · rcases hp.entries h s hs with ⟨u, hu⟩ | ⟨ho, hn⟩
    · refine Or.inl (Or.inr ⟨u, ?_, hu⟩)
      rintro rfl
      exact ht h hu
    · exact Or.inr ⟨ho, ⟨nofun, nofun⟩, fun u _ => hn u⟩

/-- The thread closes the handle value that it holds. After a `serialClose` the entry is still
to go, and otherwise there is none. -/
theorem Possession.closed (hp : Possession ls H w) {h : HANDLE} (ht : (H t).object = some h)
    (hw : w' = { w with openHandles := w.openHandles.erase h })
    (hx : (x = .nothing ∧ (H t = .raw h ∨ H t = .event h)) ∨
      (x = .removing h ∧ t ∈ removers (ls ++ [.did t (.closeHandle h) true]) h)) :
    Possession (ls ++ [.did t (.closeHandle h) true]) (Function.update H t x) w' := by
  subst hw
  have hsession : sessions ls h = none := ((hp.held t).object h ht).2
  have hobject : x.object = none := by rcases hx with ⟨rfl, -⟩ | ⟨rfl, -⟩ <;> rfl
  have hremoving : ∀ u, H u = .removing h → u ≠ t := by
    rintro u hu rfl
    rw [hu] at ht
    cases ht
  have hothers : ∀ u, u ≠ t → Held (ls ++ [.did t (.closeHandle h) true])
      { w with openHandles := w.openHandles.erase h } u (H u) := by
    intro u hu
    refine (hp.held u).step (acquired_other ls _ hu) (fun h' heq => by cases heq)
      (fun _ _ _ => rfl) (fun h' hh ho => ?_) (fun h' _ hs => ?_)
    · exact Finset.mem_erase.mpr ⟨hp.object_ne hu ht hh, ho⟩
    · rw [sessions_did]
      exact hs
  refine hp.step ?_ hothers (fun u hu => ⟨⟨?_, ?_⟩, ⟨?_, ?_⟩⟩) (fun h' s hs => ?_)
    (fun h' s hs => ?_) (hp.made_snoc nofun (Nat.le_refl _))
  · rcases hx with ⟨rfl, -⟩ | ⟨rfl, hr⟩
    · exact Held.nothing _ _ _
    · refine ⟨nofun, nofun, fun h' heq => ?_⟩
      cases heq
      rw [sessions_did]
      exact ⟨hr, hsession⟩
  · intro h' hh
    rw [hobject] at hh
    cases hh
  · intro h' s heq hreg
    have hh : (H u).object = some h' := by rw [hreg]; rfl
    rcases hx with ⟨rfl, -⟩ | ⟨rfl, -⟩
    · cases heq
    · cases heq
      exact hp.object_ne hu ht hh rfl
  · intro h' _ hh
    rw [hobject] at hh
    cases hh
  · rcases hx with ⟨rfl, -⟩ | ⟨rfl, -⟩ <;> exact nofun
  · rw [sessions_did] at hs
    obtain ⟨ho, hreg⟩ := hp.live h' s hs
    refine ⟨Finset.mem_erase.mpr ⟨?_, ho⟩, hreg⟩
    rintro rfl
    rw [hsession] at hs
    cases hs
  · by_cases hh : h' = h
    · subst hh
      rcases hx with ⟨-, hraw⟩ | ⟨rfl, -⟩
      · rcases hp.entries h' s hs with ⟨u, hu⟩ | ⟨-, hn⟩
        · exact Or.inl (Or.inr ⟨u, hremoving u hu, hu⟩)
        · rcases hraw with hraw | hraw
          · exact absurd hraw (hn t).1
          · exact absurd hraw (hn t).2
      · exact Or.inl (Or.inl rfl)
    · rcases hp.entries h' s hs with ⟨u, hu⟩ | ⟨ho, hn⟩
      · refine Or.inl (Or.inr ⟨u, ?_, hu⟩)
        rintro rfl
        rw [hu] at ht
        cases ht
      · refine Or.inr ⟨Finset.mem_erase.mpr ⟨hh, ho⟩, ?_, fun u _ => hn u⟩
        rcases hx with ⟨rfl, -⟩ | ⟨rfl, -⟩ <;> exact ⟨nofun, nofun⟩

/-- The close takes its entry out of the registry. -/
theorem Possession.removed (hp : Possession ls H w) {h : HANDLE} (ht : H t = .removing h)
    (hw : w' = { w with registry := w.registry.removeHandleState h }) :
    Possession (ls ++ [.did t (.removeHandleState h) ()]) (Function.update H t .nothing) w' := by
  subst hw
  have hsession : sessions ls h = none := ((hp.held t).removing h ht).2
  have hothers : ∀ u, u ≠ t → Held (ls ++ [.did t (.removeHandleState h) ()])
      { w with registry := w.registry.removeHandleState h } u (H u) := by
    intro u hu
    refine (hp.held u).step (acquired_other ls _ hu) (fun h' heq => by cases heq; exact hu rfl)
      (fun h' s hh => ?_) (fun _ _ ho => ho) (fun h' _ hs => ?_)
    · refine Registry.removeHandleState_of_ne _ ?_
      rintro rfl
      exact (hp.apart t u (Ne.symm hu)).removing h' s ht hh
    · rw [sessions_did]
      exact hs
  refine hp.step (Held.nothing _ _ _) hothers (fun u _ => Apart.nothing _) (fun h' s hs => ?_)
    (fun h' s hs => ?_) (hp.made_snoc nofun (Nat.le_refl _))
  · rw [sessions_did] at hs
    obtain ⟨ho, hreg⟩ := hp.live h' s hs
    refine ⟨ho, ?_⟩
    rw [← hreg]
    refine Registry.removeHandleState_of_ne _ ?_
    rintro rfl
    rw [hsession] at hs
    cases hs
  · have hh : h' ≠ h := by
      rintro rfl
      rw [show (w.registry.removeHandleState h').g_handle_states h' = none from
        Registry.removeHandleState_self _ _] at hs
      cases hs
    have hs : w.registry.g_handle_states h' = some s := by
      rw [← hs]
      exact (Registry.removeHandleState_of_ne _ hh).symm
    rcases hp.entries h' s hs with ⟨u, hu⟩ | ⟨ho, hn⟩
    · refine Or.inl (Or.inr ⟨u, ?_, hu⟩)
      rintro rfl
      rw [ht] at hu
      cases hu
      exact hh rfl
    · exact Or.inr ⟨ho, ⟨nofun, nofun⟩, fun u _ => hn u⟩

/-- A call on a handle value of a session gets the state of the session. -/
theorem Possession.used (hp : Possession ls H w) {h : HANDLE} {s : StateRef}
    (ht : H t = .nothing) (hsession : sessions ls h ≠ none)
    (hw : w.perform t (.ensureHandleState h) s = some w') :
    w' = w ∧ Possession (ls ++ [.did t (.ensureHandleState h) s]) H w := by
  obtain ⟨s0, hs0⟩ := Option.ne_none_iff_exists'.mp hsession
  obtain ⟨-, hreg⟩ := hp.live h s0 hs0
  rcases World.perform_ensure hw with ⟨hs, rfl⟩ | ⟨hnone, -⟩
  · refine ⟨rfl, ?_⟩
    have hupdate : Function.update H t .nothing = H := by rw [← ht, Function.update_eq_self]
    rw [← hupdate]
    refine hp.step (Held.nothing _ _ _) (fun u hu => ?_) (fun u _ => Apart.nothing _)
      (fun h' s' hs' => ?_) (fun h' s' hs' => ?_) (fun u h' s' hm => ?_)
    · refine (hp.held u).step (acquired_other ls _ hu) nofun (fun _ _ _ => rfl)
        (fun _ _ ho => ho) (fun h' _ hs => ?_)
      rw [sessions_did]
      exact hs
    · rw [sessions_did] at hs'
      exact hp.live h' s' hs'
    · rcases hp.entries h' s' hs' with ⟨u, hu⟩ | ⟨ho, hn⟩
      · refine Or.inl (Or.inr ⟨u, ?_, hu⟩)
        rintro rfl
        rw [ht] at hu
        cases hu
      · exact Or.inr ⟨ho, ⟨nofun, nofun⟩, fun u _ => hn u⟩
    · rw [List.mem_append, List.mem_singleton] at hm
      rcases hm with hm | hm
      · exact hp.made u h' s' hm
      · cases hm
        exact w'.registry.made h s hs
  · rw [hreg] at hnone
    cases hnone

/-- An open registers its handle value when no entry of the value is left, and gets a new
state. -/
theorem Possession.opened (hp : Possession ls H w) {h : HANDLE} {s : StateRef}
    (ht : H t = .raw h) (hnone : removers ls h = [])
    (hw : w.perform t (.ensureHandleState h) s = some w') :
    s = w.registry.next ∧ Possession (ls ++ [.did t (.ensureHandleState h) s])
      (Function.update H t (.registered h s)) w' := by
  have hobject : (H t).object = some h := by rw [ht]; rfl
  obtain ⟨hopen, hsession⟩ := (hp.held t).object h hobject
  have hfree : w.registry.g_handle_states h = none := by
    cases hreg : w.registry.g_handle_states h with
    | none => rfl
    | some s0 =>
      rcases hp.entries h s0 hreg with ⟨u, hu⟩ | ⟨-, hn⟩
      · have hm := ((hp.held u).removing h hu).1
        rw [hnone] at hm
        cases hm
      · exact absurd ht (hn t).1
  rcases World.perform_ensure hw with ⟨hs, rfl⟩ | ⟨-, hs, hhandles, -, hnext, -, hopens⟩
  · rw [hfree] at hs
    cases hs
  have hkeep : ∀ h', h' ≠ h → w'.registry.g_handle_states h' = w.registry.g_handle_states h' := by
    intro h' hh
    rw [hhandles, Function.update_of_ne hh]
  refine ⟨hs, hp.step ?_ (fun u hu => ?_) (fun u hu => ⟨⟨?_, nofun⟩, ⟨?_, ?_⟩⟩)
    (fun h' s' hs' => ?_) (fun h' s' hs' => ?_) (fun u h' s' hm => ?_)⟩
  · refine ⟨?_, ?_, nofun⟩
    · rintro h' s' ⟨⟩
      rw [acquired_ensure, Function.update_self, hhandles, Function.update_self]
      exact ⟨rfl, rfl⟩
    · rintro h' ⟨⟩
      rw [sessions_did, hopens]
      exact ⟨hopen, hsession⟩
  · refine (hp.held u).step (acquired_other ls _ hu) nofun (fun h' s' hh => ?_)
      (fun h' _ ho => by rw [hopens]; exact ho) (fun h' _ hs => by rw [sessions_did]; exact hs)
    exact hkeep h' (hp.object_ne hu hobject (by rw [hh]; rfl))
  · rintro h' ⟨⟩ hh
    exact hp.object_ne hu hobject hh rfl
  · rintro h' hh ⟨⟩
    exact hp.object_ne hu hobject hh rfl
  · rintro h' s' hh ⟨⟩
    have hm := ((hp.held u).removing h hh).1
    rw [hnone] at hm
    cases hm
  · rw [sessions_did] at hs'
    obtain ⟨ho, hreg⟩ := hp.live h' s' hs'
    rw [hopens, hkeep h' ?_]
    · exact ⟨ho, hreg⟩
    · rintro rfl
      rw [hsession] at hs'
      cases hs'
  · by_cases hh : h' = h
    · subst hh
      refine Or.inr ⟨by rw [hopens]; exact hopen, ⟨nofun, nofun⟩, fun u hu => ⟨?_, ?_⟩⟩ <;>
        exact fun heq => hp.object_ne hu hobject (by rw [heq]; rfl) rfl
    · rw [hkeep h' hh] at hs'
      rw [hopens]
      rcases hp.entries h' s' hs' with ⟨u, hu⟩ | ⟨ho, hn⟩
      · refine Or.inl (Or.inr ⟨u, ?_, hu⟩)
        rintro rfl
        rw [ht] at hu
        cases hu
      · exact Or.inr ⟨ho, ⟨nofun, nofun⟩, fun u _ => hn u⟩
  · rw [hnext, hs]
    rw [List.mem_append, List.mem_singleton] at hm
    rcases hm with hm | hm
    · exact Nat.lt_succ_of_lt (hp.made u h' s' hm)
    · cases hm
      rw [hs]
      exact Nat.lt_succ_self _

theorem acquired_enter_other (ls : List ApiLabel) (t : ThreadId) (c : ApiCall) {u : ThreadId}
    (hu : u ≠ t) : acquired (ls ++ [.enter t c]) u = acquired ls u := by
  rw [acquired_enter, Function.update_of_ne hu]

/-- A `serialClose` takes over its handle value from the session. -/
theorem Possession.closes (hp : Possession ls H w) {handle : Int64} {callback : Callback}
    (ht : H t = .nothing) (hsession : sessions ls handle.toInt ≠ none) :
    Possession (ls ++ [.enter t (.serialClose handle callback)])
      (Function.update H t (.closing handle.toInt)) w := by
  obtain ⟨s0, hs0⟩ := Option.ne_none_iff_exists'.mp hsession
  obtain ⟨hopen, -⟩ := hp.live _ s0 hs0
  have hsessions : sessions (ls ++ [.enter t (.serialClose handle callback)]) =
      Function.update (sessions ls) handle.toInt none := sessions_enter _ _ _
  have hnot : ∀ u, (H u).object ≠ some handle.toInt := by
    intro u hu
    have hnone := ((hp.held u).object _ hu).2
    rw [hs0] at hnone
    cases hnone
  refine hp.step ?_ (fun u hu => ?_) (fun u _ => ⟨⟨?_, nofun⟩, ⟨?_, nofun⟩⟩) (fun h s hs => ?_)
    (fun h s hs => ?_) (hp.made_snoc nofun (Nat.le_refl _))
  · refine ⟨nofun, ?_, nofun⟩
    rintro h ⟨⟩
    rw [hsessions, Function.update_self]
    exact ⟨hopen, rfl⟩
  · refine (hp.held u).step (acquired_enter_other ls t _ hu) nofun (fun _ _ _ => rfl)
      (fun _ _ ho => ho) (fun h _ hs => ?_)
    rw [hsessions, Function.update_apply]
    split
    · rfl
    · exact hs
  · rintro h ⟨⟩
    exact hnot u
  · rintro h hh ⟨⟩
    exact hnot u hh
  · rw [hsessions, Function.update_apply] at hs
    split at hs
    · cases hs
    · exact hp.live h s hs
  · rcases hp.entries h s hs with ⟨u, hu⟩ | ⟨ho, hn⟩
    · refine Or.inl (Or.inr ⟨u, ?_, hu⟩)
      rintro rfl
      rw [ht] at hu
      cases hu
    · exact Or.inr ⟨ho, ⟨nofun, nofun⟩, fun u _ => hn u⟩

/-- A call that takes over no handle value starts with nothing. -/
theorem Possession.entered (hp : Possession ls H w) (c : ApiCall) (ht : H t = .nothing) :
    Possession (ls ++ [.enter t c]) H w := by
  have hnone : ∀ h s, sessions (ls ++ [.enter t c]) h = some s → sessions ls h = some s := by
    intro h s hs
    rw [sessions_enter] at hs
    cases hc : c.closing with
    | none =>
      rw [hc] at hs
      exact hs
    | some h' =>
      simp only [hc, Function.update_apply] at hs
      split at hs
      · cases hs
      · exact hs
  have hupdate : Function.update H t .nothing = H := by rw [← ht, Function.update_eq_self]
  rw [← hupdate]
  refine hp.step (Held.nothing _ _ _) (fun u hu => ?_) (fun u _ => Apart.nothing _)
    (fun h s hs => hp.live h s (hnone h s hs)) (fun h s hs => ?_)
    (hp.made_snoc nofun (Nat.le_refl _))
  · refine (hp.held u).step (acquired_enter_other ls t c hu) nofun (fun _ _ _ => rfl)
      (fun _ _ ho => ho) (fun h _ hs => ?_)
    cases hnew : sessions (ls ++ [.enter t c]) h with
    | none => rfl
    | some s =>
      rw [hnone h s hnew] at hs
      cases hs
  · rcases hp.entries h s hs with ⟨u, hu⟩ | ⟨ho, hn⟩
    · refine Or.inl (Or.inr ⟨u, ?_, hu⟩)
      rintro rfl
      rw [ht] at hu
      cases hu
    · exact Or.inr ⟨ho, ⟨nofun, nofun⟩, fun u _ => hn u⟩

/-- An open that returns a handle value starts a session. -/
theorem Possession.returned (hp : Possession ls H w) {c : ApiCall} {h : HANDLE} {s : StateRef}
    (hc : c.opens = true) (hpos : 0 < h) (ht : H t = .registered h s) :
    Possession (ls ++ [.leave t c h]) (Function.update H t .nothing) w := by
  have hobject : (H t).object = some h := by rw [ht]; rfl
  obtain ⟨hacquired, hreg⟩ := (hp.held t).registered h s ht
  obtain ⟨hopen, -⟩ := (hp.held t).object h hobject
  have hsessions : sessions (ls ++ [.leave t c h]) = Function.update (sessions ls) h (some s) := by
    rw [sessions_leave, if_pos ⟨hc, hpos⟩, hacquired]
  refine hp.step (Held.nothing _ _ _) (fun u hu => ?_) (fun u _ => Apart.nothing _)
    (fun h' s' hs => ?_) (fun h' s' hs => ?_) (hp.made_snoc nofun (Nat.le_refl _))
  · refine (hp.held u).step (by rw [acquired_leave]) nofun (fun _ _ _ => rfl)
      (fun _ _ ho => ho) (fun h' hh hs => ?_)
    rw [hsessions, Function.update_of_ne, hs]
    rcases hh with hh | hh
    · exact hp.object_ne hu hobject hh
    · rintro rfl
      exact (hp.apart u t hu).removing h' s hh ht
  · rw [hsessions, Function.update_apply] at hs
    split at hs
    · rename_i hh
      cases hs
      rw [hh]
      exact ⟨hopen, hreg⟩
    · exact hp.live h' s' hs
  · rcases hp.entries h' s' hs with ⟨u, hu⟩ | ⟨ho, hn⟩
    · refine Or.inl (Or.inr ⟨u, ?_, hu⟩)
      rintro rfl
      rw [ht] at hu
      cases hu
    · exact Or.inr ⟨ho, ⟨nofun, nofun⟩, fun u _ => hn u⟩

/-! ## The outline -/

/-- What the threads hold in the states of their calls. -/
def holdings (gs : ThreadId → Option (ApiCall × Tenant)) (t : ThreadId) : Holding :=
  match gs t with
  | some (_, g) => g.holds
  | none => .nothing

theorem holdings_update (gs : ThreadId → Option (ApiCall × Tenant)) (t : ThreadId)
    (y : Option (ApiCall × Tenant)) :
    holdings (Function.update gs t y) = Function.update (holdings gs) t
      (match y with | some (_, g) => g.holds | none => .nothing) := by
  funext u
  unfold holdings
  by_cases hu : u = t
  · subst hu
    rw [Function.update_self, Function.update_self]
  · rw [Function.update_of_ne hu, Function.update_of_ne hu]

/-- One more step keeps what the sessions were promised before it. -/
theorem SessionsKeepStates.snoc {w' : World} (hk : SessionsKeepStates ls w)
    (hopened : ∀ t c h, l = .leave t c h → c.opens = true → 0 < h → ∃ s, acquired ls t = some s)
    (hcreated : ∀ t h s, l = .did t (.ensureHandleState h) s →
      (running ls t).map ApiCall.opens = some true →
        ∀ t' h', .did t' (.ensureHandleState h') s ∉ ls)
    (hkept : ∀ h s, sessions (ls ++ [l]) h = some s → w'.registry.g_handle_states h = some s)
    (hgiven : ∀ t h s s', l = .did t (.ensureHandleState h) s' → sessions ls h = some s → s' = s) :
    SessionsKeepStates (ls ++ [l]) w' where
  opened l1 t c h l2 hl hc hpos := by
    rcases snoc_split hl with ⟨-, rfl, rfl⟩ | ⟨l3, -, rfl⟩
    · exact hopened t c h rfl hc hpos
    · exact hk.opened l1 t c h l3 rfl hc hpos
  created l1 t h s l2 hl hc := by
    rcases snoc_split hl with ⟨-, rfl, rfl⟩ | ⟨l3, -, rfl⟩
    · exact hcreated t h s rfl hc
    · exact hk.created l1 t h s l3 rfl hc
  kept := hkept
  given l1 t h s s' l2 hl hs := by
    rcases snoc_split hl with ⟨-, rfl, rfl⟩ | ⟨l3, -, rfl⟩
    · exact hgiven t h s s' rfl hs
    · exact hk.given l1 t h s s' l3 rfl hs

structure SessionInv (ls : List ApiLabel) (gs : ThreadId → Option (ApiCall × Tenant))
    (w : World) : Prop where
  inside : ∀ t c g, gs t = some (c, g) → running ls t = some c ∧ g.call = c
  possession : Possession ls (holdings gs) w
  keeps : SessionsKeepStates ls w

variable {gs : ThreadId → Option (ApiCall × Tenant)} {c : ApiCall} {g : Tenant}

theorem holdings_of_some (hg : gs t = some (c, g)) : holdings gs t = g.holds := by
  unfold holdings
  rw [hg]

theorem holdings_of_none (hg : gs t = none) : holdings gs t = .nothing := by
  unfold holdings
  rw [hg]

/-- The rule for an action of a thread. -/
theorem SessionInv.did {e : Action} {r : Answer e} {g' : Tenant} (h : SessionInv ls gs w)
    (hg : gs t = some (c, g)) (hcall : g'.call = g.call)
    (hp : Possession (ls ++ [.did t e r]) (Function.update (holdings gs) t g'.holds) w')
    (hensure : ∀ u handle s, (.did t e r : ApiLabel) = .did u (.ensureHandleState handle) s →
      ((running ls u).map ApiCall.opens = some true →
        ∀ t' h', .did t' (.ensureHandleState h') s ∉ ls) ∧
      ∀ s0, sessions ls handle = some s0 → s = s0) :
    SessionInv (ls ++ [.did t e r]) (Function.update gs t (some (c, g'))) w' where
  inside := by
    obtain ⟨hrun, hc⟩ := h.inside t c g hg
    rw [running_did]
    exact forall_inside (fun u c' g0 _ => h.inside u c' g0) ⟨hrun, hcall.trans hc⟩
  possession := by
    rw [holdings_update]
    exact hp
  keeps := h.keeps.snoc (fun _ _ _ hl => by cases hl)
    (fun u handle s hl => (hensure u handle s hl).1) (fun handle s hs => (hp.live handle s hs).2)
    (fun u handle s0 s hl => (hensure u handle s hl).2 s0)

/-- An action that leaves the tables as they were. -/
theorem SessionInv.stay {e : Action} {r : Answer e} (h : SessionInv ls gs w)
    (hg : gs t = some (c, g)) (hne : ∀ handle, e ≠ .ensureHandleState handle)
    (hnr : ∀ handle, e ≠ .removeHandleState handle) (hsame : w.SameHandles w')
    (hopen : w'.openHandles = w.openHandles) :
    SessionInv (ls ++ [.did t e r]) (Function.update gs t (some (c, g))) w' := by
  refine h.did hg rfl ?_ ?_
  · rw [← holdings_of_some hg, Function.update_eq_self]
    refine h.possession.stay (fun u handle s hl => ?_) (fun u handle hl => ?_)
      (fun u => Or.inl (by rw [acquired_did ls t r hne])) (sessions_did ..) hsame hopen
    · cases hl
      exact hne handle rfl
    · cases hl
      exact hnr handle rfl
  · rintro u handle s ⟨⟩
    exact absurd rfl (hne handle)

/-- Every step of the process keeps the invariant, when an open registers its handle value only
after the entry of the session before is gone. -/
theorem SessionInv.perform {e : Action} {r : Answer e} (h : SessionInv ls gs w)
    (hg : gs t = some (c, g)) (hallows : tenancy.allows g e) (hw : w.perform t e r = some w')
    (huses : UsesSessions ls (.did t e r)) (hafter : RegistersAfterRemoval ls (.did t e r)) :
    ∃ g', tenancy.next g e r = some g' ∧
      SessionInv (ls ++ [.did t e r]) (Function.update gs t (some (c, g'))) w' := by
  obtain ⟨hrun, hcall⟩ := h.inside t c g hg
  have hp := h.possession
  have hholds := holdings_of_some hg
  have hhome : e.Homely → ∃ g', tenancy.next g e r = some g' ∧
      SessionInv (ls ++ [.did t e r]) (Function.update gs t (some (c, g'))) w' := by
    intro hhomely
    obtain ⟨hsame, hopen⟩ := World.perform_homely hhomely hw
    refine ⟨g, (tenancy_homely hhomely g r).2, h.stay hg ?_ ?_ hsame hopen⟩
    · rintro handle rfl
      exact hhomely.elim id (Or.elim · id id)
    · rintro handle rfl
      exact hhomely.elim id (Or.elim · id id)
  cases e with
  | ensureHandleState handle =>
    rcases hallows with ⟨hopens, hraw⟩ | ⟨hopens, hnothing⟩
    · have hopener : (running ls t).map ApiCall.opens = some true := by
        rw [hrun, Option.map_some, ← hcall, hopens]
      obtain ⟨hs, hp'⟩ := hp.opened (hholds.trans hraw) (hafter hopener) hw
      refine ⟨{ g with holds := .registered handle r }, ?_, h.did hg rfl hp' ?_⟩
      · simp only [tenancy, Tenant.next, hopens, if_true]
      · rintro u h' s' ⟨⟩
        refine ⟨fun _ t' h' hm => ?_, fun s0 hs0 => ?_⟩
        · exact Nat.lt_irrefl _ (hs ▸ hp.made t' h' _ hm)
        · have hobject : (holdings gs t).object = some handle := by rw [hholds, hraw]; rfl
          rw [((hp.held t).object handle hobject).2] at hs0
          cases hs0
    · have hclosed : (running ls t).map ApiCall.opens ≠ some true := by
        rw [hrun, Option.map_some, ← hcall, hopens]
        simp
      have hsession := huses.resolve_left hclosed
      obtain ⟨rfl, hp'⟩ := hp.used (hholds.trans hnothing) hsession hw
      refine ⟨g, ?_, h.did hg rfl ?_ ?_⟩
      · simp only [tenancy, Tenant.next, hopens, Bool.false_eq_true, if_false]
      · rw [← hholds, Function.update_eq_self]
        exact hp'
      · rintro u h' s' ⟨⟩
        refine ⟨fun hopener => absurd hopener hclosed, fun s0 hs0 => ?_⟩
        have hreg := (hp.live handle s0 hs0).2
        rw [World.perform_ensure_registers hw] at hreg
        cases hreg
        rfl
  | removeHandleState handle =>
    cases hw
    exact ⟨_, rfl, h.did hg rfl (hp.removed (hholds.trans hallows) rfl) (by simp)⟩
  | createFile path =>
    simp only [World.perform] at hw
    split at hw
    · rename_i hinvalid
      cases hw
      refine ⟨g, ?_, h.stay hg (by simp) (by simp) ⟨rfl, rfl⟩ rfl⟩
      simp only [tenancy, Tenant.next, if_pos hinvalid]
    · rename_i hvalid
      split at hw
      · cases hw
      · rename_i hnew
        cases hw
        refine ⟨{ g with holds := .raw r }, by simp only [tenancy, Tenant.next, if_neg hvalid],
          h.did hg rfl ?_ (by simp)⟩
        exact hp.got (by simp) (by simp) (hholds.trans hallows.2) (Or.inl rfl) hnew rfl
  | createEvent =>
    cases r with
    | none =>
      cases hw
      exact ⟨g, rfl, h.stay hg (by simp) (by simp) ⟨rfl, rfl⟩ rfl⟩
    | some event =>
      simp only [World.perform] at hw
      split at hw
      · cases hw
      · rename_i hnew
        cases hw
        refine ⟨{ g with holds := .event event }, rfl, h.did hg rfl ?_ (by simp)⟩
        exact hp.got (by simp) (by simp) (hholds.trans hallows) (Or.inr rfl) hnew rfl
  | closeHandle handle =>
    have hnot : ∀ h', holdings gs t ≠ .removing h' := by
      intro h' heq
      rw [hholds] at heq
      rcases hallows with hh | hh | ⟨hh, -⟩ <;> (rw [hh] at heq; cases heq)
    cases r with
    | false =>
      cases hw
      refine ⟨{ g with holds := .nothing }, ?_, h.did hg rfl ?_ (by simp)⟩
      · simp only [tenancy, Tenant.next, Bool.false_eq_true, false_and, if_false]
      · exact hp.leaked (by simp) (by simp) hnot
    | true =>
      simp only [World.perform, Bool.true_eq_false, if_false] at hw
      split at hw
      · cases hw
        rcases hallows with hh | hh | ⟨hh, hcloses⟩
        · refine ⟨{ g with holds := .nothing }, ?_, h.did hg rfl ?_ (by simp)⟩
          · simp only [tenancy, Tenant.next, hh, reduceCtorEq, and_false, if_false]
          · exact hp.closed (by rw [hholds, hh]; rfl) rfl (Or.inl ⟨rfl, Or.inl (hholds.trans hh)⟩)
        · refine ⟨{ g with holds := .nothing }, ?_, h.did hg rfl ?_ (by simp)⟩
          · simp only [tenancy, Tenant.next, hh, reduceCtorEq, and_false, if_false]
          · exact hp.closed (by rw [hholds, hh]; rfl) rfl (Or.inl ⟨rfl, Or.inr (hholds.trans hh)⟩)
        · refine ⟨{ g with holds := .removing handle }, ?_, h.did hg rfl ?_ (by simp)⟩
          · simp only [tenancy, Tenant.next, hh, and_self, if_true]
          · refine hp.closed (by rw [hholds, hh]; rfl) rfl (Or.inr ⟨rfl, ?_⟩)
            refine removers_close ls t handle ?_
            rw [hrun, Option.map_some, ← hcall, hcloses]
      · cases hw
  | storeAbort | cancelPending | startPendingIo | finishPendingIo | waitForSingleObject |
      cancelIoEx | getOverlappedResult => exact hhome (Or.inr (Or.inr trivial))
  | loadTotal | addTotal => exact hhome (Or.inr (Or.inl trivial))
  | _ => exact hhome (Or.inl trivial)

theorem SessionInv.enter (h : SessionInv ls gs w) (hg : gs t = none)
    (huses : UsesSessions ls (.enter t c)) :
    SessionInv (ls ++ [.enter t c]) (Function.update gs t (some (c, .start c))) w := by
  have hnothing := holdings_of_none hg
  have hp : Possession (ls ++ [.enter t c])
      (Function.update (holdings gs) t (Tenant.start c).holds) w := by
    by_cases hstart : (Tenant.start c).holds = .nothing
    · rw [hstart, ← hnothing, Function.update_eq_self]
      exact h.possession.entered c hnothing
    · cases c with
      | serialClose handle callback =>
        have hpos : 0 < handle.toInt := by
          by_contra hneg
          exact hstart (if_neg hneg)
        have hholds : (Tenant.start (.serialClose handle callback)).holds =
            .closing handle.toInt := if_pos hpos
        rw [hholds]
        exact h.possession.closes hnothing (huses hpos)
      | _ => exact absurd rfl hstart
  refine ⟨fun u c' g0 hg0 => ?_, ?_, h.keeps.snoc nofun nofun (fun handle s hs => ?_) nofun⟩
  · by_cases hu : u = t
    · subst hu
      rw [Function.update_self] at hg0
      cases hg0
      rw [running_enter, Function.update_self]
      exact ⟨rfl, rfl⟩
    · rw [Function.update_of_ne hu] at hg0
      rw [running_enter, Function.update_of_ne hu]
      exact h.inside u c' g0 hg0
  · rw [holdings_update]
    exact hp
  · exact (hp.live handle s hs).2

theorem SessionInv.leave {a : Int} (h : SessionInv ls gs w) (hg : gs t = some (c, g))
    (hover : Tenant.Over c g a) :
    SessionInv (ls ++ [.leave t c a]) (Function.update gs t none) w := by
  have hholds := holdings_of_some hg
  have hopened : c.opens = true → 0 < a → ∃ s, holdings gs t = .registered a s := by
    intro hc hpos
    rw [Tenant.Over, if_pos ⟨hc, hpos⟩] at hover
    rw [hholds]
    exact hover
  have hp : Possession (ls ++ [.leave t c a]) (Function.update (holdings gs) t .nothing) w := by
    by_cases hopen : c.opens = true ∧ 0 < a
    · obtain ⟨s, hs⟩ := hopened hopen.1 hopen.2
      exact h.possession.returned hopen.1 hopen.2 hs
    · rw [Tenant.Over, if_neg hopen] at hover
      rw [← hover, ← hholds, Function.update_eq_self]
      refine h.possession.stay nofun nofun (fun u => Or.inl (by rw [acquired_leave])) ?_
        ⟨rfl, rfl⟩ rfl
      rw [sessions_leave, if_neg hopen]
  refine ⟨fun u c' g0 hg0 => ?_, ?_, h.keeps.snoc (fun u c' a' hl hc hpos => ?_) nofun
    (fun handle s hs => ?_) nofun⟩
  · obtain ⟨hu, hg0⟩ := stays_inside hg0
    rw [running_leave, Function.update_of_ne hu]
    exact h.inside u c' g0 hg0
  · rw [holdings_update]
    exact hp
  · cases hl
    obtain ⟨s, hs⟩ := hopened hc hpos
    exact ⟨s, ((h.possession.held t).registered a s hs).1⟩
  · exact (hp.live handle s hs).2

def sessionOutline (core : CppCore) :
    Outline (process core) (fun ls _ l => UsesSessions ls l ∧ RegistersAfterRemoval ls l)
      World.start tenancy where
  start := Tenant.start
  post := Tenant.Over
  inv := SessionInv
  follows := program_tenancy core
  init :=
    { inside := fun t c g hg => by cases hg
      possession :=
        { held := fun t => Held.nothing _ _ _
          apart := fun t u _ => (Apart.nothing _).1
          live := nofun
          entries := nofun
          made := nofun }
      keeps :=
        { opened := fun l1 t c h l2 hl => by cases l1 <;> cases hl
          created := fun l1 t h s l2 hl => by cases l1 <;> cases hl
          kept := fun h s hs => by cases hs
          given := fun l1 t h s s' l2 hl => by cases l1 <;> cases hl } }
  enter h hg hw hok := by
    cases hw
    exact h.enter hg hok.1
  did h hg hallows hw hok := h.perform hg hallows hw hok.1 hok.2
  leave h hg hover hw _ := by
    cases hw
    exact h.leave hg hover

/-- In every run that uses handle values only in sessions, and in which no open registers a
value that a close has still to remove, the sessions keep their states. -/
theorem sessions_keep_their_states (core : CppCore) {ls : List ApiLabel}
    {s : Sys ThreadId Action Answer ApiCall Int World}
    (h : Runs (process core) (fun ls _ l => UsesSessions ls l ∧ RegistersAfterRemoval ls l)
      World.start ls s) : SessionsKeepStates ls s.shared := by
  obtain ⟨gs, hi, -⟩ := (sessionOutline core).runs h
  exact hi.keeps

instance (ls : List ApiLabel) (l : ApiLabel) : Decidable (UsesSessions ls l) := by
  cases l with
  | enter t c => cases c <;> unfold UsesSessions ApiCall.closing <;> infer_instance
  | did t e r => cases e <;> unfold UsesSessions <;> infer_instance
  | leave t c a => exact isTrue trivial

instance (ls : List ApiLabel) (l : ApiLabel) : Decidable (RegistersAfterRemoval ls l) := by
  cases l with
  | did t e r => cases e <;> unfold RegistersAfterRemoval <;> infer_instance
  | _ => exact isTrue trivial

/-- The line settings of the calls below. -/
def sampleConfig : SerialConfig := ⟨9600, 8, 0, 0, 0⟩

def openCall : ApiCall := .serialOpen (some [67, 79, 77, 51]) (some sampleConfig) none

/-- One thread opens the port and closes it, and then another one opens it. -/
def openAfterClose : List ApiMove :=
  [.enter 0 openCall] ++ ApiMove.acts 0 9 ++ [.leave 0, .enter 0 (.serialClose 5 none)] ++
  ApiMove.acts 0 3 ++ [.leave 0, .enter 1 openCall] ++ ApiMove.acts 1 9 ++ [.leave 1]

/-- The second session has a state of its own. -/
theorem an_open_after_a_close_gets_its_own_state :
    ∃ ls s, Runs (process sampleCore)
        (fun ls _ l => UsesSessions ls l ∧ RegistersAfterRemoval ls l) World.start ls s ∧
      (returns ls, sessions ls 5) = ([(0, 5), (0, kSuccess), (1, 5)], some 1) ∧
      SessionsKeepStates ls s.shared := by
  obtain ⟨ls, s, hr, hx⟩ := Sys.moves_exists (process sampleCore)
    (fun ls _ l => UsesSessions ls l ∧ RegistersAfterRemoval ls l) World.start openAfterClose
    (fun ls _ => (returns ls, sessions ls 5)) rfl
  exact ⟨ls, s, hr, hx, sessions_keep_their_states sampleCore hr⟩

/-! ## A run with a late removal -/

/-- The close has closed the handle 5 and the second open gets it again. It finds the entry of
the session before, and then the close removes that entry. -/
def openBeforeRemoval : List ApiMove :=
  [.enter 0 openCall] ++ ApiMove.acts 0 9 ++ [.leave 0, .enter 0 (.serialClose 5 none)] ++
  ApiMove.acts 0 2 ++ [.enter 1 openCall] ++ ApiMove.acts 1 9 ++ [.leave 1] ++
  ApiMove.acts 0 1 ++ [.leave 0]

/-- The second session has the state of the first one, and its entry is gone. -/
theorem a_late_removal_takes_the_next_session :
    ¬ ∀ (core : CppCore) (ls : List ApiLabel) (s : Sys ThreadId Action Answer ApiCall Int World),
      Runs (process core) (fun ls _ l => UsesSessions ls l) World.start ls s →
        SessionsKeepStates ls s.shared := by
  intro h
  obtain ⟨ls, s, hr, hx⟩ := Sys.moves_exists (process sampleCore)
    (fun ls _ l => UsesSessions ls l) World.start openBeforeRemoval
    (fun ls s => (sessions ls 5, s.shared.registry.g_handle_states 5)) rfl
  have hx : (sessions ls 5, s.shared.registry.g_handle_states 5) = (some 0, none) := hx
  rw [Prod.mk.injEq] at hx
  have hkept := (h sampleCore ls s hr).kept 5 0 hx.1
  rw [hx.2] at hkept
  cases hkept

end cpp_bindings_windows
