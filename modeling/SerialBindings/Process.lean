-- The process around the C API: the handle table of Windows, the registry of
-- the handle states, and the cancellation of requests. Threads run the calls
-- of the C API in it, and their actions interleave in every order.
import Mathlib.Data.Finset.Basic
import SerialBindings.Quiet
import SerialBindings.Threads

open programs

namespace cpp_bindings_windows

/-- What the threads share. `openHandles` is the handle table, for ports and for events.
`cancelled t` says that `CancelIoEx` was called on the last request of the thread `t`. -/
structure World where
  registry : Registry
  openHandles : Finset HANDLE
  cancelled : ThreadId → Bool

/-- The actions that may change the registry or a state in it. -/
def Action.TouchesRegistry : Action → Prop
  | .ensureHandleState _ | .removeHandleState _ | .addTotal .. => True
  | .storeAbort .. | .startPendingIo .. | .finishPendingIo .. => True
  | _ => False

namespace World

/-- No handle is open and no call was made. -/
def start : World := ⟨.empty, ∅, fun _ => false⟩

/-- The world after an answer, or none for an answer that cannot come. A handle value that
Windows gives is one that is not open, so it may have been open before. Only a request on
which `CancelIoEx` was called ends with `ERROR_OPERATION_ABORTED`. -/
def perform (thread : ThreadId) (w : World) : (action : Action) → Answer action → Option World
  | .ensureHandleState handle, state =>
    if (w.registry.ensureHandleState handle).1 = state then
      some { w with registry := (w.registry.ensureHandleState handle).2 }
    else none
  | .removeHandleState handle, _ =>
    some { w with registry := w.registry.removeHandleState handle }
  | .loadTotal state operation, total =>
    if (w.registry.states state).total operation = total then some w else none
  | .addTotal state operation bytes, _ =>
    some { w with registry := w.registry.modify state (·.addTotal operation bytes) }
  | .storeAbort state operation, _ =>
    some { w with registry := w.registry.modify state (·.storeAbortFlag operation true) }
  | .cancelPending _ state operation, _ =>
    match (w.registry.states state).pendingOperation operation with
    | some overlapped => some { w with cancelled := Function.update w.cancelled overlapped true }
    | none => some w
  | .startPendingIo state operation _, (start, _) =>
    let started := (w.registry.states state).startPendingIo operation thread start.completed
      start.error
    if started.1 = start then
      some { w with
        registry := w.registry.modify state fun _ => started.2
        cancelled := Function.update w.cancelled thread false }
    else none
  | .finishPendingIo state operation, aborted =>
    let finished := (w.registry.states state).finishPendingIo operation thread
    if finished.1 = aborted then
      some { w with registry := w.registry.modify state fun _ => finished.2 }
    else none
  | .createFile _, handle =>
    if handle = INVALID_HANDLE_VALUE ∨ handle = nullHandle then some w
    else if handle ∈ w.openHandles then none
    else some { w with openHandles := insert handle w.openHandles }
  | .createEvent, none => some w
  | .createEvent, some event =>
    if event ∈ w.openHandles then none
    else some { w with openHandles := insert event w.openHandles }
  | .closeHandle handle, closed =>
    if closed = false then some w
    else if handle ∈ w.openHandles then some { w with openHandles := w.openHandles.erase handle }
    else none
  | .cancelIoEx _, _ => some { w with cancelled := Function.update w.cancelled thread true }
  | .getOverlappedResult _ _, result =>
    if result.completed = false ∧ result.error = ERROR_OPERATION_ABORTED ∧
        w.cancelled thread = false then none
    else some w
  | _, _ => some w

/-- The answer that the state decides, on a machine with the one port `COM3` that gets the
handle value 5, and on which nothing else happens. -/
def answer (thread : ThreadId) (w : World) : (action : Action) → Answer action
  | .ensureHandleState handle => (w.registry.ensureHandleState handle).1
  | .loadTotal state operation => (w.registry.states state).total operation
  | .startPendingIo state operation _ =>
    (((w.registry.states state).startPendingIo operation thread false ERROR_IO_PENDING).1, 0)
  | .finishPendingIo state operation =>
    ((w.registry.states state).finishPendingIo operation thread).1
  | .closeHandle handle => decide (handle ∈ w.openHandles)
  | .createFile _ => 5
  | .createEvent => some (1000 + thread)
  | .multiByteToWideChar _ => some [67, 79, 77, 51, 0]
  | action => idleAnswer action

theorem perform_quiet {t : ThreadId} {w w' : World} {e : Action} {r : Answer e} (he : e.Quiet)
    (h : w.perform t e r = some w') : w' = w := by
  cases e <;> first | exact he.elim | (cases h; rfl)

/-- The abort flag of `o` on the handle state `s`. -/
abbrev flag (w : World) (s : StateRef) (o : Operation) : Bool := (w.registry.states s).abortFlag o

/-- The request of `o` that is registered on the handle state `s`. -/
abbrev slot (w : World) (s : StateRef) (o : Operation) : Option ThreadId :=
  (w.registry.states s).pendingOperation o

/-- The registry has the same handles and the same number of states. -/
structure SameHandles (w w' : World) : Prop where
  handles : w'.registry.g_handle_states = w.registry.g_handle_states
  next : w'.registry.next = w.registry.next

section Specs

variable {t : ThreadId} {w w' : World} {s : StateRef} {o : Operation}

theorem flag_modify (f : HandleState → HandleState) (openHandles : Finset HANDLE)
    (cancelled : ThreadId → Bool) (s' : StateRef) (o' : Operation) :
    flag ⟨w.registry.modify s f, openHandles, cancelled⟩ s' o' =
      if s' = s then (f (w.registry.states s)).abortFlag o' else w.flag s' o' := by
  simp only [flag, Registry.modify_states]
  split <;> rfl

theorem slot_modify (f : HandleState → HandleState) (openHandles : Finset HANDLE)
    (cancelled : ThreadId → Bool) (s' : StateRef) (o' : Operation) :
    slot ⟨w.registry.modify s f, openHandles, cancelled⟩ s' o' =
      if s' = s then (f (w.registry.states s)).pendingOperation o' else w.slot s' o' := by
  simp only [slot, Registry.modify_states]
  split <;> rfl

theorem perform_store (h : w.perform t (.storeAbort s o) () = some w') :
    w.SameHandles w' ∧ w'.cancelled = w.cancelled ∧
      (∀ s' o', w'.flag s' o' = if s' = s ∧ o = o' then true else w.flag s' o') ∧
      ∀ s' o', w'.slot s' o' = w.slot s' o' := by
  cases h
  refine ⟨⟨rfl, rfl⟩, rfl, fun s' o' => ?_, fun s' o' => ?_⟩
  · rw [flag_modify, HandleState.abortFlag_storeAbortFlag]
    by_cases hs : s' = s
    · subst hs
      simp only [if_true, true_and]
    · simp only [hs, if_false, false_and]
  · rw [slot_modify, HandleState.pendingOperation_storeAbortFlag]
    split
    · rename_i hs
      rw [hs]
    · rfl

theorem perform_cancel {handle : HANDLE}
    (h : w.perform t (.cancelPending handle s o) () = some w') :
    w'.registry = w.registry ∧ ∀ t', w'.cancelled t' = true →
      w.cancelled t' = true ∨ w.slot s o = some t' := by
  simp only [perform] at h
  split at h
  · rename_i overlapped hs
    cases h
    refine ⟨rfl, fun t' hc => ?_⟩
    by_cases ht : t' = overlapped
    · exact Or.inr (by rw [ht]; exact hs)
    · dsimp only at hc
      rw [Function.update_of_ne ht] at hc
      exact Or.inl hc
  · cases h
    exact ⟨rfl, fun t' hc => Or.inl hc⟩

/-- A start takes the flag, and registers the request only when the flag was clear. -/
theorem perform_start {request : Request} {start : PendingIoStart} {transferred : DWORD}
    (h : w.perform t (.startPendingIo s o request) (start, transferred) = some w') :
    w.SameHandles w' ∧ w'.cancelled = Function.update w.cancelled t false ∧
      start.aborted = w.flag s o ∧
      (∀ s' o', w'.flag s' o' = if s' = s ∧ o = o' then false else w.flag s' o') ∧
      ∀ s' o', w'.slot s' o' =
        if s' = s ∧ o = o' ∧ w.flag s o = false then some t else w.slot s' o' := by
  simp only [perform] at h
  split at h
  · rename_i hstart
    cases h
    cases hf : (w.registry.states s).abortFlag o
    · rw [HandleState.startPendingIo_registered _ _ _ _ _ hf] at hstart ⊢
      refine ⟨⟨rfl, rfl⟩, rfl, by rw [← hstart, flag, hf], fun s' o' => ?_, fun s' o' => ?_⟩
      · rw [flag_modify, HandleState.abortFlag_storePending, HandleState.abortFlag_storeAbortFlag]
        by_cases hs : s' = s
        · subst hs
          simp only [if_true, true_and]
        · simp only [hs, if_false, false_and]
      · rw [slot_modify, HandleState.pendingOperation_storePending,
          HandleState.pendingOperation_storeAbortFlag]
        by_cases hs : s' = s
        · subst hs
          simp only [if_true, true_and, flag, hf, and_true]
        · simp only [hs, if_false, false_and]
    · rw [HandleState.startPendingIo_aborted _ _ _ _ _ hf] at hstart ⊢
      refine ⟨⟨rfl, rfl⟩, rfl, by rw [← hstart, flag, hf], fun s' o' => ?_, fun s' o' => ?_⟩
      · rw [flag_modify, HandleState.abortFlag_storeAbortFlag]
        by_cases hs : s' = s
        · subst hs
          simp only [if_true, true_and]
        · simp only [hs, if_false, false_and]
      · rw [slot_modify, HandleState.pendingOperation_storeAbortFlag, flag, hf]
        simp only [Bool.true_eq_false, and_false, if_false]
        split
        · rename_i hs
          rw [hs]
        · rfl
  · cases h

/-- A finish takes the flag, and unregisters the request if it is the one of the thread. -/
theorem perform_finish {aborted : Bool}
    (h : w.perform t (.finishPendingIo s o) aborted = some w') :
    w.SameHandles w' ∧ w'.cancelled = w.cancelled ∧ aborted = w.flag s o ∧
      (∀ s' o', w'.flag s' o' = if s' = s ∧ o = o' then false else w.flag s' o') ∧
      ∀ s' o', w'.slot s' o' =
        if s' = s ∧ o = o' ∧ w.slot s o = some t then none else w.slot s' o' := by
  simp only [perform] at h
  split at h
  · rename_i haborted
    cases h
    rw [HandleState.finishPendingIo_fst] at haborted
    refine ⟨⟨rfl, rfl⟩, rfl, haborted.symm, fun s' o' => ?_, fun s' o' => ?_⟩
    · rw [flag_modify, HandleState.finishPendingIo_flag]
      by_cases hs : s' = s
      · subst hs
        simp only [if_true, true_and]
      · simp only [hs, if_false, false_and]
    · rw [slot_modify, HandleState.finishPendingIo_pending]
      by_cases hs : s' = s
      · subst hs
        by_cases ho : o = o'
        · subst ho
          simp only [if_true, true_and, slot]
        · simp only [ho, if_true, false_and, and_false, if_false, slot]
      · simp only [hs, if_false, false_and]
  · cases h

theorem perform_result {handle : HANDLE} {wait : Bool} {result : OverlappedResult}
    (h : w.perform t (.getOverlappedResult handle wait) result = some w') :
    w' = w ∧ (result.completed = false → result.error = ERROR_OPERATION_ABORTED →
      w.cancelled t = true) := by
  simp only [perform] at h
  split at h
  · cases h
  · rename_i hno
    cases h
    refine ⟨rfl, fun hc he => ?_⟩
    rw [← Bool.not_eq_false]
    exact fun hcancelled => hno ⟨hc, he, hcancelled⟩

/-- The thread gets the state of the handle. A handle without one is registered with a new one. -/
theorem perform_ensure {handle : HANDLE}
    (h : w.perform t (.ensureHandleState handle) s = some w') :
    (w.registry.g_handle_states handle = some s ∧ w' = w) ∨
      (w.registry.g_handle_states handle = none ∧ s = w.registry.next ∧
        w'.registry.g_handle_states = Function.update w.registry.g_handle_states handle (some s) ∧
        w'.registry.states = Function.update w.registry.states s {} ∧
        w'.registry.next = s + 1 ∧ w'.cancelled = w.cancelled ∧
        w'.openHandles = w.openHandles) := by
  simp only [perform] at h
  split at h
  · rename_i hs
    cases h
    cases hh : w.registry.g_handle_states handle with
    | some state =>
      rw [w.registry.ensureHandleState_of_some handle hh] at hs ⊢
      cases hs
      exact Or.inl ⟨rfl, rfl⟩
    | none =>
      obtain ⟨h1, h2, h3, h4⟩ := w.registry.ensureHandleState_of_none handle hh
      have hs : s = w.registry.next := by rw [← hs, h1]
      subst hs
      exact Or.inr ⟨rfl, rfl, h2, h3, h4, rfl, rfl⟩
  · cases h

/-- Every other action leaves the registry, with the states in it. -/
theorem perform_registry {e : Action} {r : Answer e} (he : ¬ e.TouchesRegistry)
    (h : w.perform t e r = some w') : w'.registry = w.registry := by
  cases e using Action.byKind with
  | quiet e hquiet => rw [perform_quiet hquiet h]
  | ensureHandleState handle => exact absurd trivial he
  | removeHandleState handle => exact absurd trivial he
  | addTotal state operation bytes => exact absurd trivial he
  | storeAbort state operation => exact absurd trivial he
  | startPendingIo state operation request => exact absurd trivial he
  | finishPendingIo state operation => exact absurd trivial he
  | cancelPending handle state operation => exact (perform_cancel h).1
  | getOverlappedResult handle wait => rw [(perform_result h).1]
  | loadTotal state operation =>
    simp only [perform] at h
    split at h
    · cases h
      rfl
    · cases h
  | createFile path =>
    simp only [perform] at h
    split at h
    · cases h
      rfl
    split at h
    · cases h
    · cases h
      rfl
  | createEvent =>
    cases r with
    | none =>
      cases h
      rfl
    | some event =>
      simp only [perform] at h
      split at h
      · cases h
      · cases h
        rfl
  | closeHandle handle =>
    simp only [perform] at h
    split at h
    · cases h
      rfl
    split at h
    · cases h
      rfl
    · cases h
  | waitForSingleObject event milliseconds =>
    cases h
    rfl
  | cancelIoEx handle =>
    cases h
    rfl

/-- After `ensureHandleState` the handle is registered with the state that it gave. -/
theorem perform_ensure_registers {handle : HANDLE}
    (h : w.perform t (.ensureHandleState handle) s = some w') :
    w'.registry.g_handle_states handle = some s := by
  rcases perform_ensure h with ⟨hs, rfl⟩ | ⟨-, -, hhandles, -⟩
  · exact hs
  · rw [hhandles, Function.update_self]

end Specs

end World

/-- The calls of the C API on one process. Every thread may make every call at every time. -/
def process (core : CppCore) : Machine ThreadId Action Answer ApiCall Int World where
  body := ApiCall.program core
  enter _ w _ := some w
  perform := World.perform
  leave _ w _ _ := some w

/-! ## The history of a process -/

/-- One step of the process. -/
abbrev ApiLabel := Label ThreadId Action Answer ApiCall Int

/-- A thread with the value that a call of it returned, for each return. -/
def returns : List ApiLabel → List (ThreadId × Int) :=
  List.filterMap fun l => match l with
    | .leave t _ a => some (t, a)
    | _ => none

/-- What a scheduler picks in the process. -/
abbrev ApiMove := Move ThreadId Action Answer ApiCall World

/-- A thread does the next `n` actions of its call. -/
def ApiMove.acts (t : ThreadId) (n : Nat) : List ApiMove := List.replicate n (.act t World.answer)

/-- The handle state that each thread got last, in the call that it is inside. -/
def acquired : List ApiLabel → ThreadId → Option StateRef :=
  List.foldl (fun f l => match l with
    | .enter t _ => Function.update f t none
    | .did t (.ensureHandleState _) state => Function.update f t (some state)
    | _ => f) (fun _ => none)

theorem acquired_snoc (ls : List ApiLabel) (l : ApiLabel) :
    acquired (ls ++ [l]) = match l with
      | .enter t _ => Function.update (acquired ls) t none
      | .did t (.ensureHandleState _) state => Function.update (acquired ls) t (some state)
      | _ => acquired ls := by
  unfold acquired
  rw [List.foldl_append]
  rfl

@[simp] theorem acquired_enter (ls : List ApiLabel) (t : ThreadId) (c : ApiCall) :
    acquired (ls ++ [.enter t c]) = Function.update (acquired ls) t none := acquired_snoc _ _

@[simp] theorem acquired_ensure (ls : List ApiLabel) (t : ThreadId) (handle : HANDLE)
    (state : StateRef) :
    acquired (ls ++ [.did t (.ensureHandleState handle) state]) =
      Function.update (acquired ls) t (some state) := acquired_snoc _ _

@[simp] theorem acquired_leave (ls : List ApiLabel) (t : ThreadId) (c : ApiCall) (a : Int) :
    acquired (ls ++ [.leave t c a]) = acquired ls := acquired_snoc _ _

theorem acquired_did (ls : List ApiLabel) (t : ThreadId) {e : Action} (r : Answer e)
    (he : ∀ handle, e ≠ .ensureHandleState handle) :
    acquired (ls ++ [.did t e r]) = acquired ls := by
  rw [acquired_snoc]
  split
  · rename_i h
    cases h
  · rename_i h
    cases h
    exact absurd rfl (he _)
  · rfl

theorem running_other {t' : ThreadId} (ls : List ApiLabel) {l : ApiLabel}
    (h : match l with | .enter u _ => t' ≠ u | .did _ _ _ => True | .leave u _ _ => t' ≠ u) :
    running (ls ++ [l]) t' = running ls t' := by
  cases l with
  | enter u c => rw [running_enter, Function.update_of_ne h]
  | did u e r => rw [running_did]
  | leave u c a => rw [running_leave, Function.update_of_ne h]

theorem acquired_other {t t' : ThreadId} (ls : List ApiLabel) {e : Action} (r : Answer e)
    (h : t' ≠ t) : acquired (ls ++ [.did t e r]) t' = acquired ls t' := by
  by_cases he : ∃ handle, e = .ensureHandleState handle
  · obtain ⟨handle, rfl⟩ := he
    rw [acquired_ensure, Function.update_of_ne h]
  · rw [acquired_did ls t r fun handle heq => he ⟨handle, heq⟩]

/-- The abort of `o` was requested on the handle state `s`: a call that aborts `o` has stored
the flag. -/
def Requested (ls : List ApiLabel) (s : StateRef) (o : Operation) : Prop :=
  ∃ l1 l2 t c, ls = l1 ++ .did t (.storeAbort s o) () :: l2 ∧ running l1 t = some c ∧
    c.aborts = some o

theorem Requested.mono {ls : List ApiLabel} {s : StateRef} {o : Operation}
    (h : Requested ls s o) (ls' : List ApiLabel) : Requested (ls ++ ls') s o := by
  obtain ⟨l1, l2, t, c, rfl, hc, ho⟩ := h
  exact ⟨l1, l2 ++ ls', t, c, by simp, hc, ho⟩

theorem requested_of_store {ls : List ApiLabel} {t : ThreadId} {c : ApiCall} {s : StateRef}
    {o : Operation} (hc : running ls t = some c) (ho : c.aborts = some o) :
    Requested (ls ++ [.did t (.storeAbort s o) ()]) s o := ⟨ls, [], t, c, rfl, hc, ho⟩

end cpp_bindings_windows
