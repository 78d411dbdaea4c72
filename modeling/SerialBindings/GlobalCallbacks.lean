-- The global callbacks: the three atomic variables, the calls that set them, and
-- which callback the calls on handles invoke while any thread may set another one.
-- The listener of `serialSetEventCallback` is not here. It keeps the error callback
-- that was effective when it was made, also after another one was set.
import SerialBindings.Process
import SerialBindings.Registers
import SerialBindings.ReportRules

open programs registers

namespace cpp_bindings_windows

/-! ## The variables and the calls that set them -/

/-- The atomic variables with the callbacks of the application. -/
inductive GlobalCallback
  | g_error_callback
  | g_read_callback
  | g_write_callback
  deriving DecidableEq

/-- The variable that a transfer loads. -/
def Operation.ioCallback : Operation → GlobalCallback
  | .kRead => .g_read_callback
  | .kWrite => .g_write_callback

/-- What an answer tells of a variable. -/
def callbackReads : (e : Action) → Answer e → Option (GlobalCallback × Callback)
  | .loadErrorCallback, callback => some (.g_error_callback, callback)
  | .loadIoCallback operation, callback => some (operation.ioCallback, callback)
  | _, _ => none

/-- A call of the library: one that takes or gives a handle, or one that sets a callback. -/
abbrev LibraryCall := RegisterCall ApiCall GlobalCallback Callback

def serialSetErrorCallback (error_callback : Callback) : LibraryCall :=
  .set .g_error_callback error_callback

def serialSetReadCallback (callback_function : Callback) : LibraryCall :=
  .set .g_read_callback callback_function

def serialSetWriteCallback (callback_function : Callback) : LibraryCall :=
  .set .g_write_callback callback_function

/-- The process with the global callbacks. -/
def library (core : CppCore) :=
  withRegisters (process core) callbackReads

/-- At the start all callbacks are null. -/
def library.start : World × (GlobalCallback → Callback) := (.start, fun _ => none)

/-! ## What a call needs to invoke a callback -/

/-- The callback that is told of errors: the argument of the call, and when that is null a global
one that the call has loaded. -/
def ApiCall.Reaches (c : ApiCall) (xs : List (GlobalCallback × Callback)) (callback : Callback) :
    Prop :=
  if c.callback ≠ none then callback = c.callback else (.g_error_callback, callback) ∈ xs

def callbackNeeds (c : ApiCall) (e : Action) (xs : List (GlobalCallback × Callback)) : Prop :=
  match e with
  | .invokeError callback _ _ => c.Reaches xs callback
  | .invokeIoCallback callback _ =>
    callback ≠ none ∧ ∃ o ∈ c.transfers, (o.ioCallback, callback) ∈ xs
  | _ => True

/-- The argument of the call, or a callback that may be told of errors. -/
def ApiCall.Trusts (c : ApiCall) (xs : List (GlobalCallback × Callback)) (callback : Callback) :
    Prop :=
  callback = c.callback ∨ c.Reaches xs callback

theorem ApiCall.Reaches.mono {c : ApiCall} {xs ys : List (GlobalCallback × Callback)}
    {callback : Callback} (h : c.Reaches xs callback) (hxs : xs ⊆ ys) :
    c.Reaches ys callback := by
  unfold Reaches at h ⊢
  split
  · rename_i hc
    rwa [if_pos hc] at h
  · rename_i hc
    rw [if_neg hc] at h
    exact hxs h

/-- A call that reports to its argument, or to what it has loaded since its start. -/
def sourcing (c : ApiCall) : ReportOutline
    (sourcedIn (C := ApiCall) callbackReads callbackNeeds) (List (GlobalCallback × Callback)) where
  clear xs g := ∃ ys, xs ⊆ ys ∧ g = (.call c, ys)
  told _ g := ∃ ys, g = (.call c, ys)
  result _ _ := True
  later xs ys := xs ⊆ ys
  trusted xs argument := c.Trusts xs argument
  reached xs callback := c.Reaches xs callback
  noted xs o callback := (o.ioCallback, callback) ∈ xs
  operations o := o ∈ c.transfers
  clear_of_later := by
    rintro xs ys _ hxs ⟨zs, hzs, rfl⟩
    exact ⟨zs, fun _ hx => hzs (hxs hx), rfl⟩
  reached_of_trusted := by
    rintro xs callback (rfl | h) hcallback
    · unfold ApiCall.Reaches
      rw [if_pos hcallback]
    · exact h
  trusted_of_reached := Or.inr
  beside := by
    rintro xs _ e ⟨ys, hys, rfl⟩ he
    have hneeds : callbackNeeds c e ys := by
      cases e <;> first | exact he.elim | trivial
    refine ⟨hneeds, fun r g' hn => ?_⟩
    cases hn
    exact ⟨_, fun _ hx => List.mem_append_left _ (hys hx), rfl⟩
  loads := by
    rintro xs _ ⟨ys, hys, rfl⟩ htrusts
    have hnull : ¬ c.callback ≠ none := by
      rcases htrusts with hargument | hreaches
      · exact not_not.mpr hargument.symm
      · intro hc
        unfold ApiCall.Reaches at hreaches
        rw [if_pos hc] at hreaches
        exact hc hreaches.symm
    refine ⟨trivial, fun loaded g' hn => ?_⟩
    cases hn
    refine ⟨ys ++ [(.g_error_callback, loaded)], fun _ hx => List.mem_append_left _ (hys hx),
      ⟨_, List.Subset.refl _, rfl⟩, ?_⟩
    unfold ApiCall.Reaches
    rw [if_neg hnull]
    simp
  invokes := by
    rintro xs _ callback code message ⟨ys, hys, rfl⟩ hreaches _
    refine ⟨hreaches.mono hys, fun g' hn => ?_⟩
    cases hn
    exact ⟨_, rfl⟩
  closes := by
    rintro _ code handle ⟨ys, rfl⟩
    refine ⟨trivial, fun closed g' hn => ?_⟩
    cases hn
    exact ⟨_, rfl⟩
  returns _ := trivial
  ends _ _ := trivial
  counts := by
    rintro xs _ state o ⟨ys, hys, rfl⟩
    exact ⟨trivial, fun _ _ _ => trivial⟩
  asks := by
    rintro xs _ o ⟨ys, hys, rfl⟩ _
    refine ⟨trivial, fun callback g' hn => ?_⟩
    cases hn
    exact ⟨ys ++ [(o.ioCallback, callback)], fun _ hx => List.mem_append_left _ (hys hx),
      ⟨_, List.Subset.refl _, rfl⟩, List.mem_append_right _ List.mem_cons_self⟩
  notes := by
    rintro xs _ o callback n ⟨ys, hys, rfl⟩ ho hnoted hnull
    refine ⟨⟨hnull, o, ho, hys hnoted⟩, fun g' hn => ?_⟩
    cases hn
    exact ⟨_, fun _ hx => List.mem_append_left _ (hys hx), rfl⟩

/-- Every call invokes only callbacks that it reaches. -/
theorem ApiCall.program_sourced (core : CppCore) (c : ApiCall) :
    Follows (sourcedIn callbackReads callbackNeeds) (fun _ _ => True) (c.program core)
      (.call c, []) := by
  have hreports : (sourcing c).Reports [] (c.program core) :=
    (sourcing c).program_reports core c (Or.inl rfl) (fun _ ho => ho)
      fun _ _ _ _ => trivial
  exact hreports _ ⟨[], List.Subset.refl _, rfl⟩

/-! ## The runs -/

/-- One step of the library. -/
abbrev LibraryLabel := RegisterLabel ThreadId Action Answer ApiCall Int GlobalCallback Callback

/-- The value was the global callback at a moment of the call that the thread is inside. -/
abbrev WasGlobal (ls : List LibraryLabel) (t : ThreadId) (k : GlobalCallback)
    (callback : Callback) : Prop := HeldDuring library.start.2 ls t k callback

/-- The value is not the global callback after the steps `l0`, and nobody sets it in `l1`. -/
def Replaced (l0 l1 : List LibraryLabel) (k : GlobalCallback) (callback : Callback) : Prop :=
  contents library.start.2 l0 k ≠ callback ∧ ∀ u, .did u (.store k callback) () ∉ l1

/-- Which callbacks the calls on handles invoke: the argument, or a global callback of a moment of
the call. One that was replaced is invoked only by those of these calls that were running then. -/
structure InvokesRightCallbacks (ls : List LibraryLabel) : Prop where
  error : ∀ l1 l2 t callback code message r,
    ls = l1 ++ .did t (.inner (.invokeError callback code message)) r :: l2 →
    ∃ c, running l1 t = some (.call c) ∧
      if c.callback ≠ none then callback = c.callback
      else WasGlobal l1 t .g_error_callback callback
  bytes : ∀ l1 l2 t callback n r,
    ls = l1 ++ .did t (.inner (.invokeIoCallback callback n)) r :: l2 →
    callback ≠ none ∧ ∃ c, running l1 t = some (.call c) ∧
      ∃ o ∈ c.transfers, WasGlobal l1 t o.ioCallback callback
  errorReplaced : ∀ l0 l1 l2 t callback code message r,
    ls = (l0 ++ l1) ++ .did t (.inner (.invokeError callback code message)) r :: l2 →
    Replaced l0 l1 .g_error_callback callback →
    (∃ c, running (l0 ++ l1) t = some (.call c) ∧ c.callback ≠ none ∧ callback = c.callback) ∨
      running l0 t ≠ none ∧ Stays t l1
  bytesReplaced : ∀ l0 l1 l2 t callback n r,
    ls = (l0 ++ l1) ++ .did t (.inner (.invokeIoCallback callback n)) r :: l2 →
    (∀ o : Operation, Replaced l0 l1 o.ioCallback callback) → running l0 t ≠ none ∧ Stays t l1

/-- In every interleaving of the calls on handles and of the calls that set the global callbacks,
the process does what it does without the latter, and the former invoke the right callbacks. -/
theorem a_global_callback_was_set_during_the_call (core : CppCore) {ls : List LibraryLabel}
    {s : RegisterSys ThreadId Action Answer ApiCall Int World GlobalCallback Callback}
    (h : Runs (library core) always library.start ls s) :
    (∃ b, Runs (process core) always World.start (base ls) b ∧ b.shared = s.shared.1) ∧
      InvokesRightCallbacks ls := by
  have hneeds : ∀ {l1 l2 t e} {r : Answer e}, ls = l1 ++ .did t (.inner e) r :: l2 →
      ∃ c xs, running l1 t = some (.call c) ∧ callbackNeeds c e xs ∧
        ∀ x ∈ xs, WasGlobal l1 t x.1 x.2 := by
    intro l1 l2 t e r hl
    exact what_is_needed_was_held (fun c => c.program_sourced core) h hl
  have herror : ∀ {l1 l2 t callback code message r},
      ls = l1 ++ .did t (.inner (.invokeError callback code message)) r :: l2 →
      ∃ c, running l1 t = some (.call c) ∧
        if c.callback ≠ none then callback = c.callback
        else WasGlobal l1 t .g_error_callback callback := by
    intro l1 l2 t callback code message r hl
    obtain ⟨c, xs, hrun, hreaches, hxs⟩ := hneeds hl
    refine ⟨c, hrun, ?_⟩
    change c.Reaches xs callback at hreaches
    unfold ApiCall.Reaches at hreaches
    split
    · rename_i hc
      rwa [if_pos hc] at hreaches
    · rename_i hc
      rw [if_neg hc] at hreaches
      exact hxs _ hreaches
  have hbytes : ∀ {l1 l2 t callback n r},
      ls = l1 ++ .did t (.inner (.invokeIoCallback callback n)) r :: l2 →
      callback ≠ none ∧ ∃ c, running l1 t = some (.call c) ∧
        ∃ o ∈ c.transfers, WasGlobal l1 t o.ioCallback callback := by
    intro l1 l2 t callback n r hl
    obtain ⟨c, xs, hrun, ⟨hnull, o, ho, hmem⟩, hxs⟩ := hneeds hl
    exact ⟨hnull, c, hrun, o, ho, hxs _ hmem⟩
  refine ⟨?_, fun _ _ _ _ _ _ _ => herror, fun _ _ _ _ _ _ => hbytes, ?_, ?_⟩
  · have hbase : ∃ b, Runs (process core) always World.start (base ls) b ∧
        b.shared = s.shared.1 ∧ ∀ t, Embeds (s.threads t) (b.threads t) :=
      base_runs (fun _ _ _ _ _ _ => trivial) h
    obtain ⟨b, hr, hshared, -⟩ := hbase
    exact ⟨b, hr, hshared⟩
  · intro l0 l1 l2 t callback code message r hl hreplaced
    obtain ⟨c, hrun, hc⟩ := herror hl
    split at hc
    · rename_i hargument
      exact Or.inl ⟨c, hrun, hargument, hc⟩
    · exact Or.inr (hc.since hreplaced.1 hreplaced.2)
  · intro l0 l1 l2 t callback n r hl hreplaced
    obtain ⟨-, c, -, o, -, hheld⟩ := hbytes hl
    exact hheld.since (hreplaced o).1 (hreplaced o).2

/-- The answer that the variables decide, and that of the process. -/
def library.answer (t : ThreadId) (w : World × (GlobalCallback → Callback)) :
    (e : RegisterAction Action GlobalCallback Callback) → RegisterAction.Answer Answer e
  | .inner .loadErrorCallback => w.2 .g_error_callback
  | .inner (.loadIoCallback operation) => w.2 operation.ioCallback
  | .inner e => w.1.answer t e
  | .store _ _ => ()

/-- The error callbacks that the calls invoked. -/
def invoked : List LibraryLabel → List (ThreadId × Callback) :=
  List.filterMap fun
    | .did t (.inner (.invokeError callback _ _)) _ => some (t, callback)
    | _ => none

/-- The thread 0 loads the callback 7 and invokes it after the thread 1 has set the callback 8. Its
next call invokes that one. -/
def replacedInTheCall : List (Move ThreadId (RegisterAction Action GlobalCallback Callback)
    (RegisterAction.Answer Answer) LibraryCall (World × (GlobalCallback → Callback))) :=
  let call : LibraryCall := .call (.onState 0 none .serialInBytesTotal)
  let act (t : ThreadId) := .act t library.answer
  [.enter 1 (serialSetErrorCallback (some 7)), act 1, .leave 1, .enter 0 call, act 0,
    .enter 1 (serialSetErrorCallback (some 8)), act 1, .leave 1, act 0, .leave 0,
    .enter 0 call, act 0, act 0, .leave 0]

theorem a_replaced_callback_is_invoked_by_a_running_call :
    ∃ ls s, Runs (library sampleCore) always library.start ls s ∧
      invoked ls = [(0, some 7), (0, some 8)] ∧ InvokesRightCallbacks ls := by
  obtain ⟨ls, s, hr, hx⟩ := Sys.moves_exists (library sampleCore) always library.start
    replacedInTheCall (fun ls _ => invoked ls) (x := [(0, some 7), (0, some 8)]) rfl
  exact ⟨ls, s, hr, hx, (a_global_callback_was_set_during_the_call sampleCore hr).2⟩

end cpp_bindings_windows
