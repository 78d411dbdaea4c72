-- Nobody waits for ever in the module of the event callback. A call that cannot
-- go on waits for another thread, no chain of waits closes to a circle, and each
-- chain comes to a thread that can go on. A dispatcher that sleeps over work counts
-- as one: that it is notified is proved for the condition variable, in `Wakeups`.
import Mathlib.Data.Prod.Lex
import SerialBindings.Ownership

open programs

namespace cpp_bindings_windows

/-! ## Waits -/

/-- The thread waits for another one: for a mutex, for a call that was made inside its callback,
for a notification that it ends, for a dispatcher that it joins. -/
inductive WaitsFor (ls : List ModuleLabel) (s : ModuleSys) (t : Thread) : Thread → Prop
  | mutex {c : ModuleCall} {m : Mutex} {k : Unit → Listening (Option Int)} {u : Thread} :
      s.threads t = some (c, .act (.lock m) k) → s.shared.holder m = some u → WaitsFor ls s t u
  | wakeup {c : ModuleCall} {l : ListenerId} {k : Unit → Listening (Option Int)} {u : Thread} :
      s.threads t = some (c, .act (.wake l) k) → s.shared.holder (.mutex_ l) = some u →
      WaitsFor ls s t u
  | callback {c : ModuleCall} {e : ListenerAction} {k : ListenerAnswer e → Listening (Option Int)} :
      s.threads t = some (c, .act e k) → e.ReturnsFromUser = true →
      s.shared.busy t.inner = true → WaitsFor ls s t t.inner
  | notification {c c' : ModuleCall} {l : ListenerId} {k : Unit → Listening (Option Int)}
      {u : Thread} : s.threads t = some (c, .act (.unregister l) k) →
      running ls u = some c' → c'.role = .notifies l → WaitsFor ls s t u
  | dispatcher {c : ModuleCall} {l : ListenerId} {k : Unit → Listening (Option Int)} :
      s.threads t = some (c, .act (.join l) k) → (s.shared.listeners l).finished = false →
      WaitsFor ls s t ⟨.dispatcher l, 0⟩

/-- The dispatcher sleeps, and there is nothing to do for it. -/
def Idle (s : ModuleSys) (t : Thread) : Prop :=
  ∃ c l k, s.threads t = some (c, .act (.wake l) k) ∧
    (s.shared.listeners l).state.ready = false

/-- The thread can do its next action, or return, or it is the thread of a listener and can start.
A call that is not followed further goes on as well. -/
inductive GoesOn (core : CppCore) (chars : CharUpper) (ls : List ModuleLabel) (s : ModuleSys)
    (t : Thread) : Prop
  | acts {e : ListenerAction} {r : ListenerAnswer e} {s' : ModuleSys} :
      Step (eventModule core chars) s (.did t e r) s' →
      UnregisterWaits ls s.shared (.did t e r) → GoesOn core chars ls s t
  | returns {c : ModuleCall} {returned : Option Int} {s' : ModuleSys} :
      Step (eventModule core chars) s (.leave t c returned) s' → GoesOn core chars ls s t
  | starts {l : ListenerId} {turns : Nat} {s' : ModuleSys} :
      Step (eventModule core chars) s (.enter t (.dispatch l turns)) s' → GoesOn core chars ls s t
  | further {c : ModuleCall} : s.threads t = some (c, .ret none) → GoesOn core chars ls s t

/-! ## Actions that wait -/

/-- The actions that another thread can hold up. -/
def ListenerAction.Waits : ListenerAction → Bool
  | .lock _ | .wake _ | .unregister _ | .join _ => true
  | e => e.ReturnsFromUser

section Actions

variable {ls : List ModuleLabel} {gs : Custodies} {w : EventModule} {t : Thread} {c : ModuleCall}
  {g : Custody}

/-- What a thread does, when no other thread can hold it up. -/
theorem Keeping.performs (h : Keeping ls gs w) (ht : gs t = some (c, g)) {e : ListenerAction}
    (ha : custody.allows g e) (hfree : e.Waits = false) :
    ∃ r w', EventModule.perform t w e r = some w' := by
  cases e with
  | lock | wake | unregister | join | callbackReturned | reportReturned | errorReturned =>
    cases hfree
  | unlock m =>
    have hmem : m ∈ g.locks := by
      cases m with
      | g_event_listener_mutex =>
        have hlocks : g.locks = [.g_event_listener_mutex] := ha
        simp [hlocks]
      | mutex_ l => exact List.mem_of_mem_head? ha.1
    exact ⟨(), _, if_pos ((h.holds ht m).mpr hmem)⟩
  | check l => exact ⟨_, _, if_pos rfl⟩
  | capturedPorts l =>
    have hports := ((h.knows t c g ht).dispatches l ha).2
    obtain ⟨ports, hports⟩ := Option.isSome_iff_exists.mp hports
    refine ⟨ports, w, if_pos ?_⟩
    rw [hports]
    rfl
  | makeListener => exact ⟨.error "", w, rfl⟩
  | moveListener => exact ⟨_, _, if_pos rfl⟩
  | hasNotification l => exact ⟨_, w, if_pos rfl⟩
  | joinable l => exact ⟨_, w, if_pos rfl⟩
  | isCurrentThread l => exact ⟨_, w, if_pos rfl⟩
  | enqueue | registerNotification | startThread => exact ⟨none, _, rfl⟩
  | portName path => exact ⟨.ok "", w, rfl⟩
  | loadErrorCallback => exact ⟨none, w, rfl⟩
  | interfaceListSize => exact ⟨.ok 0, w, rfl⟩
  | interfaceList size => exact ⟨.bufferSmall, w, rfl⟩
  | reportQueueFailure | activate | stop | callback | reportError | invokeError =>
    exact ⟨(), _, rfl⟩
  | storeListener | detach => exact ⟨(), _, rfl⟩

variable {e : ListenerAction} {l : ListenerId}

/-- A thread that holds a `mutex_` is held up by nobody. -/
theorem unlocked_of_waits (ha : custody.allows g e) (hwaits : e.Waits = true) :
    .mutex_ l ∉ g.locks := by
  cases e with
  | lock m =>
    cases m with
    | g_event_listener_mutex => simp [ha.2.1]
    | mutex_ l' => rcases ha.1 with hlocks | hlocks <;> simp [hlocks]
  | wake | callbackReturned | reportReturned | errorReturned | unregister => simp [ha.2]
  | join => simp [ha.2.2]
  | _ => cases hwaits

/-- Under `g_event_listener_mutex` a thread waits for a `mutex_` only. -/
theorem locks_of_waits (ha : custody.allows g e) (hwaits : e.Waits = true)
    (hmem : .g_event_listener_mutex ∈ g.locks) : ∃ l, e = .lock (.mutex_ l) := by
  cases e with
  | lock m =>
    cases m with
    | g_event_listener_mutex => simp [ha.2.1] at hmem
    | mutex_ l => exact ⟨l, rfl⟩
  | wake | callbackReturned | reportReturned | errorReturned | unregister => simp [ha.2] at hmem
  | join => simp [ha.2.2] at hmem
  | _ => cases hwaits

/-- A notification waits for a `mutex_` only. -/
theorem locks_of_notifies (ha : custody.allows g e) (hwaits : e.Waits = true)
    (hrole : g.role = .notifies l) (hnot : ∀ l, ¬ g.Has l) : ∃ l, e = .lock (.mutex_ l) := by
  cases e with
  | lock m =>
    cases m with
    | g_event_listener_mutex => cases hrole.symm.trans ha.1
    | mutex_ l => exact ⟨l, rfl⟩
  | wake | callbackReturned | reportReturned | errorReturned => cases hrole.symm.trans ha.1
  | unregister l' | join l' => exact absurd ha.1 (hnot l')
  | _ => cases hwaits

end Actions

/-! ## Dispatchers -/

/-- A dispatcher that has started has returned, or is inside its call. -/
theorem started_dispatcher {core : CppCore} {chars : CharUpper} {ls : List ModuleLabel}
    {s : ModuleSys} (h : Runs (eventModule core chars) always {} ls s) {l : ListenerId}
    (hentered : (s.shared.listeners l).entered = true) :
    (s.shared.listeners l).finished = true ∨ (s.threads ⟨.dispatcher l, 0⟩).isSome = true := by
  induction h with
  | nil => cases hentered
  | @snoc ls label s s' hr _ hstep ih =>
    obtain ⟨gs, life, hi, hm⟩ := tended hr
    cases hstep with
    | @enter t c w' ht he =>
      obtain ⟨hmay, _, _, _, hlisteners⟩ := Stacked.enter_cases he
      obtain ⟨hfinished, hstarts⟩ := hlisteners l
      dsimp only at hentered ⊢
      by_cases hthread : (⟨.dispatcher l, 0⟩ : Thread) = t
      · rw [hthread, Function.update_self]
        exact Or.inr rfl
      · rw [Function.update_of_ne hthread, hfinished]
        rcases hstarts.mp hentered with hbefore | ⟨turns, rfl⟩
        · exact ih hbefore
        · exact absurd (Stacked.mayEnter_dispatch hmay).1.symm hthread
    | @did t c e k r w' ht hp =>
      obtain ⟨g, hg, hf⟩ := Outline.some_of_some hm ht
      obtain ⟨_, _, hd, _⟩ := hi.did hg hf.1 hp
      dsimp only at hentered ⊢
      rw [(hd.entered l).1] at hentered
      rw [(hd.entered l).2]
      refine (ih hentered).imp_right fun hthread => ?_
      by_cases ht' : (⟨.dispatcher l, 0⟩ : Thread) = t
      · rw [ht', Function.update_self]
        rfl
      · rw [Function.update_of_ne ht']
        exact hthread
    | @leave t c a w' ht hl =>
      obtain ⟨g, hg, _⟩ := Outline.some_of_some hm ht
      obtain ⟨_, _, _, hlisteners⟩ := Stacked.leave_cases hl
      obtain ⟨hsame, hfinished⟩ := hlisteners l
      dsimp only at hentered ⊢
      rw [hsame] at hentered
      by_cases ht' : (⟨.dispatcher l, 0⟩ : Thread) = t
      · have hhas := hi.stacked.has t c g hg
        rw [← ht'] at hhas
        exact Or.inl (hfinished.mpr (Or.inr hhas.dispatch))
      · rw [Function.update_of_ne ht', hfinished]
        exact (ih hentered).imp_left Or.inl

/-! ## What the two protocols tell together -/

/-- A state with what its calls have, under both protocols. -/
structure Overseen (core : CppCore) (chars : CharUpper) (ls : List ModuleLabel) (s : ModuleSys)
    (gs : Custodies) (parts : Parts) (life : ListenerId → Life) : Prop where
  keeping : Keeping ls gs s.shared
  keeps : (keepingOutline core chars).Matches s.threads gs
  tended : Tended ls parts s.shared life
  tends : (tendingOutline core chars).Matches s.threads parts
  started : ∀ l, (s.shared.listeners l).entered = true →
    (s.shared.listeners l).finished = true ∨ (s.threads ⟨.dispatcher l, 0⟩).isSome = true

theorem overseen {core : CppCore} {chars : CharUpper} {ls : List ModuleLabel} {s : ModuleSys}
    (h : Runs (eventModule core chars) UnregisterWaits {} ls s) :
    ∃ gs parts life, Overseen core chars ls s gs parts life := by
  have halways : Runs (eventModule core chars) always {} ls s := h.mono fun _ _ _ _ => trivial
  obtain ⟨gs, hi, hm⟩ := kept h
  obtain ⟨parts, life, hi', hm'⟩ := tended halways
  exact ⟨gs, parts, life, hi, hm, hi', hm', fun l => started_dispatcher halways⟩

namespace Overseen

variable {core : CppCore} {chars : CharUpper} {ls : List ModuleLabel} {s : ModuleSys}
  {gs : Custodies} {parts : Parts} {life : ListenerId → Life} {t u : Thread} {c : ModuleCall}
  {e : ListenerAction} {k : ListenerAnswer e → Listening (Option Int)} {l : ListenerId}

/-- What a call has before its next action. -/
theorem before (h : Overseen core chars ls s gs parts life)
    (ht : s.threads t = some (c, .act e k)) :
    ∃ g, gs t = some (c, g) ∧ custody.allows g e := by
  obtain ⟨g, hg, hf⟩ := Outline.some_of_some h.keeps ht
  exact ⟨g, hg, hf.1⟩

/-- A call is running when its thread is inside it. -/
theorem running_iff (h : Overseen core chars ls s gs parts life) :
    running ls t = some c ↔ ∃ p, s.threads t = some (c, p) := by
  rw [h.keeping.running t]
  constructor
  · intro hrunning
    obtain ⟨⟨c', g⟩, hg, rfl⟩ := Option.map_eq_some_iff.mp hrunning
    obtain ⟨p, ht, _⟩ := Outline.some_thread h.keeps hg
    exact ⟨p, ht⟩
  · rintro ⟨p, ht⟩
    obtain ⟨g, hg, _⟩ := Outline.some_of_some h.keeps ht
    rw [hg]
    rfl

theorem waits_of (hwaits : WaitsFor ls s t u) :
    ∃ c e k, s.threads t = some (c, .act e k) ∧ e.Waits = true := by
  cases hwaits with
  | mutex ht => exact ⟨_, _, _, ht, rfl⟩
  | wakeup ht => exact ⟨_, _, _, ht, rfl⟩
  | callback ht hreturns =>
    refine ⟨_, _, _, ht, ?_⟩
    unfold ListenerAction.Waits
    split
    · rfl
    · rfl
    · rfl
    · rfl
    · exact hreturns
  | notification ht => exact ⟨_, _, _, ht, rfl⟩
  | dispatcher ht => exact ⟨_, _, _, ht, rfl⟩

/-- A holder of a `mutex_` waits for nobody. -/
theorem holder_of_mutex (h : Overseen core chars ls s gs parts life)
    (hholder : s.shared.holder (.mutex_ l) = some u) (v : Thread) : ¬ WaitsFor ls s u v := by
  intro hwaits
  obtain ⟨c, e, k, hu, he⟩ := waits_of hwaits
  obtain ⟨g, hg, ha⟩ := h.before hu
  exact unlocked_of_waits ha he ((h.keeping.holds hg _).mp hholder)

/-- A holder of `g_event_listener_mutex`, and a notification, wait for a holder of a `mutex_`. -/
theorem waits_for_mutex (h : Overseen core chars ls s gs parts life)
    (hu : s.shared.holder .g_event_listener_mutex = some u ∨
      ∃ c l, running ls u = some c ∧ c.role = .notifies l)
    {v : Thread} (hwaits : WaitsFor ls s u v) :
    ∃ l, s.shared.holder (.mutex_ l) = some v := by
  obtain ⟨c, e, k, ht, he⟩ := waits_of hwaits
  obtain ⟨g, hg, ha⟩ := h.before ht
  have hlocks : ∃ l, e = .lock (.mutex_ l) := by
    rcases hu with hholder | ⟨c', l, hrunning, hrole⟩
    · exact locks_of_waits ha he ((h.keeping.holds hg _).mp hholder)
    · obtain ⟨p, ht'⟩ := h.running_iff.mp hrunning
      rw [ht] at ht'
      cases ht'
      have hrole' := (h.keeping.role u c g hg).trans hrole
      refine locks_of_notifies ha he hrole' ((h.keeping.knows u c g hg).without ?_)
      rw [hrole']
      nofun
  obtain ⟨l, rfl⟩ := hlocks
  cases hwaits with
  | mutex ht' hholder =>
    rw [ht] at ht'
    cases ht'
    exact ⟨l, hholder⟩
  | callback ht' hreturns =>
    rw [ht] at ht'
    cases ht'
    cases hreturns
  | wakeup ht' | notification ht' | dispatcher ht' =>
    rw [ht] at ht'
    cases ht'

/-- A call that joins a dispatcher displaced its listener, which is stopped, and which is younger
than the one whose dispatcher the call runs on. -/
theorem joins (h : Overseen core chars ls s gs parts life) {k : Unit → Listening (Option Int)}
    (ht : s.threads t = some (c, .act (.join l) k)) :
    l ∈ installations ls ∧ life l = .stopped t ∧
      ∀ l', t.os = .dispatcher l' → Older (installations ls) l' l := by
  obtain ⟨g, hg, hf⟩ := Outline.some_of_some h.tends ht
  obtain ⟨_, hstage, hold, _⟩ := hf.1
  have hsuccession := h.tended.succession
  refine ⟨hsuccession.old_installed hg hold, ?_, fun l' hos => ?_⟩
  · rw [(hsuccession.owned.owns t c g hg).old l hold, hstage]
    rfl
  · apply hsuccession.older t c g l l' hg hold hos
    rintro rfl
    exact (hsuccession.retires t c g hg).another (Or.inl hstage) l' hold hos

end Overseen

/-! ## No circle -/

/-- How late the listener of a thread was installed; the threads of the application come first. -/
def age (order : List ListenerId) : OsThread → Nat
  | .app _ => 0
  | .dispatcher l => order.idxOf l + 1

/-- What gets less where a thread waits for a call inside its callback, or for a dispatcher. -/
def rank (order : List ListenerId) (depths : Nat) (t : Thread) : Nat ×ₗ Nat :=
  toLex (order.length + 1 - age order t.os, depths - t.depth)

/-- The calls of a run are nested to some depth only. -/
theorem depths_bounded (ls : List ModuleLabel) :
    ∃ depths, ∀ t c, running ls t = some c → t.depth < depths := by
  have hlist : ∀ ts : List Thread, ∃ depths, ∀ t ∈ ts, t.depth < depths := by
    intro ts
    induction ts with
    | nil => exact ⟨0, nofun⟩
    | cons t ts ih =>
      obtain ⟨depths, hdepths⟩ := ih
      refine ⟨max depths (t.depth + 1), fun u hu => ?_⟩
      rcases List.mem_cons.mp hu with rfl | hu
      · omega
      · have hlt := hdepths u hu
        omega
  obtain ⟨depths, hdepths⟩ := hlist (callers ls)
  exact ⟨depths, fun t c hc => hdepths t (mem_callers hc)⟩

namespace Overseen

variable {core : CppCore} {chars : CharUpper} {ls : List ModuleLabel} {s : ModuleSys}
  {gs : Custodies} {parts : Parts} {life : ListenerId → Life} {t u : Thread}

/-- A wait is a wait for a holder of a mutex or for a notification, or the rank gets less. -/
theorem rank_of_waits (h : Overseen core chars ls s gs parts life) {depths : Nat}
    (hdepths : ∀ t c, running ls t = some c → t.depth < depths) (hwaits : WaitsFor ls s t u) :
    (∃ m, s.shared.holder m = some u) ∨ (∃ c l, running ls u = some c ∧ c.role = .notifies l) ∨
      rank (installations ls) depths u < rank (installations ls) depths t := by
  cases hwaits with
  | mutex _ hholder => exact Or.inl ⟨_, hholder⟩
  | wakeup _ hholder => exact Or.inl ⟨_, hholder⟩
  | notification _ hrunning hrole => exact Or.inr (Or.inl ⟨_, _, hrunning, hrole⟩)
  | callback ht =>
    have hlt := hdepths t _ (h.running_iff.mpr ⟨_, ht⟩)
    refine Or.inr (Or.inr (Prod.Lex.toLex_lt_toLex.mpr (Or.inr ⟨rfl, ?_⟩)))
    change depths - (t.depth + 1) < depths - t.depth
    omega
  | @dispatcher c l k ht =>
    obtain ⟨hmem, _, holder⟩ := h.joins ht
    have hlast := List.idxOf_lt_length_of_mem hmem
    refine Or.inr (Or.inr (Prod.Lex.toLex_lt_toLex.mpr (Or.inl ?_)))
    change (installations ls).length + 1 - ((installations ls).idxOf l + 1) <
      (installations ls).length + 1 - age (installations ls) t.os
    cases hos : t.os with
    | app n =>
      simp only [age]
      omega
    | dispatcher l' =>
      have hlt := (holder l' hos).2
      simp only [age]
      omega

/-- No chain of waits is endless. -/
theorem waits_wf (h : Overseen core chars ls s gs parts life) :
    WellFounded fun u t => WaitsFor ls s t u := by
  obtain ⟨depths, hdepths⟩ := depths_bounded ls
  have hmutex : ∀ {u l}, s.shared.holder (.mutex_ l) = some u →
      Acc (fun u t => WaitsFor ls s t u) u :=
    fun hholder => ⟨_, fun v hwaits => absurd hwaits (h.holder_of_mutex hholder v)⟩
  have hshort : ∀ {u}, (s.shared.holder .g_event_listener_mutex = some u ∨
      ∃ c l, running ls u = some c ∧ c.role = .notifies l) →
      Acc (fun u t => WaitsFor ls s t u) u := by
    refine fun hu => ⟨_, fun v hwaits => ?_⟩
    obtain ⟨l, hholder⟩ := h.waits_for_mutex hu hwaits
    exact hmutex hholder
  refine ⟨fun t => ?_⟩
  induction hrank : rank (installations ls) depths t using WellFoundedLT.induction
    generalizing t with
  | _ x ih =>
    refine ⟨_, fun u hwaits => ?_⟩
    rcases h.rank_of_waits hdepths hwaits with ⟨m, hholder⟩ | hnotifies | hlt
    · cases m with
      | g_event_listener_mutex => exact hshort (Or.inl hholder)
      | mutex_ l => exact hmutex hholder
    · exact hshort (Or.inr hnotifies)
    · exact ih _ (hrank ▸ hlt) u rfl

end Overseen

/-! ## Somebody goes on -/

/-- The thread is inside a call, or can start one, and does not sleep without work. -/
def Wakeful (core : CppCore) (chars : CharUpper) (ls : List ModuleLabel) (s : ModuleSys)
    (t : Thread) : Prop :=
  ¬ Idle s t ∧ ((∃ c, running ls t = some c) ∨ GoesOn core chars ls s t)

/-- Only a call of Windows that ends a notification has to wait for one. -/
theorem waits_free {ls : List ModuleLabel} {w : EventModule} {t : Thread} {e : ListenerAction}
    {r : ListenerAnswer e} (he : ∀ l, e ≠ .unregister l) : UnregisterWaits ls w (.did t e r) := by
  intro l hl
  cases e with
  | unregister l' => exact absurd rfl (he l')
  | _ => cases hl

namespace Overseen

variable {core : CppCore} {chars : CharUpper} {ls : List ModuleLabel} {s : ModuleSys}
  {gs : Custodies} {parts : Parts} {life : ListenerId → Life} {t u : Thread} {c : ModuleCall}
  {l : ListenerId}

/-- A thread that sleeps is a dispatcher outside its callbacks, and holds no mutex. -/
theorem sleeping (h : Overseen core chars ls s gs parts life) {k : Unit → Listening (Option Int)}
    (ht : s.threads t = some (c, .act (.wake l) k)) :
    t = ⟨.dispatcher l, 0⟩ ∧ running ls t = some c ∧ c.role = .dispatches l ∧
      ∀ m, s.shared.holder m ≠ some t := by
  obtain ⟨g, hg, ha⟩ := h.before ht
  refine ⟨((h.keeping.knows t c g hg).dispatches l ha.1).1, h.keeping.running_of hg,
    (h.keeping.role t c g hg).symm.trans ha.1, fun m hholder => ?_⟩
  have hmem := (h.keeping.holds hg m).mp hholder
  rw [ha.2] at hmem
  cases hmem

theorem wakeful_holder (h : Overseen core chars ls s gs parts life) {m : Mutex}
    (hholder : s.shared.holder m = some u) : Wakeful core chars ls s u := by
  obtain ⟨c, g, hg, _⟩ := (h.keeping.holder m u).mp hholder
  refine ⟨?_, Or.inl ⟨c, h.keeping.running_of hg⟩⟩
  rintro ⟨c', l, k, hu, _⟩
  exact (h.sleeping hu).2.2.2 m hholder

theorem wakeful_notification (h : Overseen core chars ls s gs parts life)
    (hrunning : running ls u = some c) (hrole : c.role = .notifies l) :
    Wakeful core chars ls s u := by
  refine ⟨?_, Or.inl ⟨c, hrunning⟩⟩
  rintro ⟨c', l', k, hu, _⟩
  obtain ⟨_, hrunning', hrole', _⟩ := h.sleeping hu
  rw [hrunning] at hrunning'
  cases hrunning'
  cases hrole.symm.trans hrole'

theorem wakeful_inner (h : Overseen core chars ls s gs parts life)
    (hbusy : s.shared.busy t.inner = true) : Wakeful core chars ls s t.inner := by
  rw [h.tended.stacked.busy, Option.isSome_iff_exists] at hbusy
  obtain ⟨⟨c, g⟩, hg⟩ := hbusy
  obtain ⟨p, ht, _⟩ := Outline.some_thread h.tends hg
  refine ⟨?_, Or.inl ⟨c, h.running_iff.mpr ⟨p, ht⟩⟩⟩
  rintro ⟨c', l, k, hu, _⟩
  have hdepth := congrArg Thread.depth (h.sleeping hu).1
  cases hdepth

/-- The dispatcher of a stopped listener runs, or can start, or has returned. -/
theorem wakeful_dispatcher (h : Overseen core chars ls s gs parts life)
    (hlife : life l = .stopped t) (hfinished : (s.shared.listeners l).finished = false) :
    Wakeful core chars ls s ⟨.dispatcher l, 0⟩ := by
  have hin := h.tended.succession.tenure.isIn l
  rw [hlife] at hin
  constructor
  · rintro ⟨c, l', k, hu, hready⟩
    cases (h.sleeping hu).1
    have hstopped : (s.shared.listeners l).state.stopped_ = true := hin.halted
    simp [EventListenerState.ready, hstopped] at hready
  · cases hentered : (s.shared.listeners l).entered with
    | true =>
      rcases h.started l hentered with hdone | hthread
      · rw [hfinished] at hdone
        cases hdone
      · obtain ⟨⟨c, p⟩, ht⟩ := Option.isSome_iff_exists.mp hthread
        exact Or.inl ⟨c, h.running_iff.mpr ⟨p, ht⟩⟩
    | false =>
      have hnone : s.threads ⟨.dispatcher l, 0⟩ = none := by
        cases ht : s.threads ⟨.dispatcher l, 0⟩ with
        | none => rfl
        | some x =>
          obtain ⟨g, hg, _⟩ := Outline.some_of_some h.tends (p := x.2) ht
          rw [h.tended.stacked.entered l (by rw [hg]; rfl)] at hentered
          cases hentered
      have hmay : s.shared.mayEnter ⟨.dispatcher l, 0⟩ (.dispatch l 0) = true := by
        have hports : (s.shared.listeners l).ports.isSome = true := hin.started
        simp [EventModule.mayEnter, hports, hentered]
      exact Or.inr (.starts (.enter hnone (if_pos hmay)))

/-- A thread inside a call that does not sleep goes on, or waits for another one. -/
theorem goes_or_waits (h : Overseen core chars ls s gs parts life)
    (ht : Wakeful core chars ls s t) :
    (GoesOn core chars ls s t ∧ ¬ Idle s t) ∨
      ∃ u, WaitsFor ls s t u ∧ Wakeful core chars ls s u := by
  obtain ⟨hidle, ⟨c, hrunning⟩ | hgoes⟩ := ht
  rotate_left
  · exact Or.inl ⟨hgoes, hidle⟩
  obtain ⟨p, ht⟩ := h.running_iff.mp hrunning
  cases p with
  | ret returned =>
    cases returned with
    | none => exact Or.inl ⟨.further ht, hidle⟩
    | some code =>
      have hleave : ∃ w', EventModule.leave t s.shared c (some code) = some w' := ⟨_, if_pos rfl⟩
      obtain ⟨w', hleave⟩ := hleave
      exact Or.inl ⟨.returns (.leave ht hleave), hidle⟩
  | act e k =>
    have hacts : ∀ (r : ListenerAnswer e) {w' : EventModule},
        EventModule.perform t s.shared e r = some w' →
        UnregisterWaits ls s.shared (.did t e r) → GoesOn core chars ls s t ∧ ¬ Idle s t :=
      fun _ _ hp hguard => ⟨.acts (.did ht hp) hguard, hidle⟩
    have huser : e.ReturnsFromUser = true → (∀ r, EventModule.perform t s.shared e r =
        s.shared.fromUser t) → (∀ l, e ≠ .unregister l) → ListenerAnswer e →
        (GoesOn core chars ls s t ∧ ¬ Idle s t) ∨
          ∃ u, WaitsFor ls s t u ∧ Wakeful core chars ls s u := by
      intro hreturns hp hnot r
      cases hbusy : s.shared.busy t.inner with
      | true => exact Or.inr ⟨t.inner, .callback ht hreturns hbusy, h.wakeful_inner hbusy⟩
      | false =>
        have hreturn : EventModule.perform t s.shared e r =
            some (s.shared.withUser t false) := by
          rw [hp, EventModule.fromUser, hbusy]
          rfl
        exact Or.inl (hacts r hreturn (waits_free hnot))
    cases he : e.Waits with
    | false =>
      obtain ⟨g, hg, ha⟩ := h.before ht
      obtain ⟨r, w', hp⟩ := h.keeping.performs hg ha he
      refine Or.inl (hacts r hp (waits_free ?_))
      rintro l rfl
      cases he
    | true =>
      cases e with
      | lock m =>
        cases hholder : s.shared.holder m with
        | none => exact Or.inl (hacts () (if_pos hholder) (waits_free nofun))
        | some u => exact Or.inr ⟨u, .mutex ht hholder, h.wakeful_holder hholder⟩
      | wake l =>
        cases hholder : s.shared.holder (.mutex_ l) with
        | none => exact Or.inl (hacts () (if_pos hholder) (waits_free nofun))
        | some u => exact Or.inr ⟨u, .wakeup ht hholder, h.wakeful_holder hholder⟩
      | unregister l =>
        by_cases hnotifies : ∃ u c', running ls u = some c' ∧ c'.role = .notifies l
        · obtain ⟨u, c', hrunning', hrole⟩ := hnotifies
          exact Or.inr ⟨u, .notification ht hrunning' hrole, h.wakeful_notification hrunning' hrole⟩
        · refine Or.inl (hacts () rfl ?_)
          rintro l' ⟨⟩ u c' hrunning' hrole
          exact hnotifies ⟨u, c', hrunning', hrole⟩
      | join l =>
        cases hfinished : (s.shared.listeners l).finished with
        | true => exact Or.inl (hacts () (if_pos hfinished) (waits_free nofun))
        | false =>
          exact Or.inr ⟨_, .dispatcher ht hfinished,
            h.wakeful_dispatcher (h.joins ht).2.1 hfinished⟩
      | callbackReturned l => exact huser rfl (fun _ => rfl) nofun none
      | reportReturned l about => exact huser rfl (fun _ => rfl) nofun ()
      | errorReturned => exact huser rfl (fun _ => rfl) nofun ()
      | _ => cases he

end Overseen

/-- In every run in which Windows ends no notification that runs, the threads do not wait in a
circle, and each call that does not sleep without work waits, if at all, through a chain that ends
with a thread that goes on. -/
theorem somebody_always_goes_on (core : CppCore) (chars : CharUpper) {ls : List ModuleLabel}
    {s : ModuleSys} (h : Runs (eventModule core chars) UnregisterWaits {} ls s) :
    (∀ t, ¬ Relation.TransGen (WaitsFor ls s) t t) ∧
      ∀ t c, running ls t = some c → Idle s t ∨
        ∃ u, Relation.ReflTransGen (WaitsFor ls s) t u ∧ GoesOn core chars ls s u ∧ ¬ Idle s u := by
  obtain ⟨gs, parts, life, hw⟩ := overseen h
  constructor
  · intro t hcircle
    exact hw.waits_wf.transGen.asymmetric t t (Relation.transGen_swap.mpr hcircle)
      (Relation.transGen_swap.mpr hcircle)
  · intro t c hrunning
    by_cases hidle : Idle s t
    · exact Or.inl hidle
    · exact Or.inr (waits_end hw.waits_wf (fun u => hw.goes_or_waits) ⟨hidle, Or.inl ⟨c, hrunning⟩⟩)

/-- The callback of the listener 0 joins the listener 1, whose dispatcher can start. -/
theorem a_join_waits_for_a_thread_that_goes_on :
    ∃ ls s, Runs (eventModule sampleCore plainUnits) UnregisterWaits {} ls s ∧
      joining s innerCall = some 1 ∧ running ls innerCall ≠ none ∧
      (∀ t, ¬ Relation.TransGen (WaitsFor ls s) t t) ∧
      ∀ t c, running ls t = some c → Idle s t ∨
        ∃ u, Relation.ReflTransGen (WaitsFor ls s) t u ∧
          GoesOn sampleCore plainUnits ls s u ∧ ¬ Idle s u := by
  obtain ⟨ls, s, hr, hx⟩ := Sys.moves_exists (eventModule sampleCore plainUnits) UnregisterWaits {}
    replacements (fun ls s => (joining s innerCall, (running ls innerCall).isSome))
    (x := (some 1, true)) rfl
  simp only [Prod.mk.injEq, Option.isSome_iff_ne_none] at hx
  exact ⟨ls, s, hr, hx.1, hx.2, somebody_always_goes_on sampleCore plainUnits hr⟩

end cpp_bindings_windows
