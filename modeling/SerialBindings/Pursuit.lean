-- The protocol of aborts for one call: which handle state the call works on,
-- whether its request is registered there, and whether the call is doomed to
-- return the code of an aborted transfer.
import SerialBindings.Process
import SerialBindings.TransferOutline

open programs

namespace cpp_bindings_windows

/-- What one call has done about aborts so far. `self_cancelled` says that the call has
canceled its own request, and `doomed` that it has taken a flag, or has seen its request
canceled by somebody else. -/
structure Pursuit where
  call : ApiCall
  state : Option StateRef := none
  requested : Bool := false
  registered : Bool := false
  self_cancelled : Bool := false
  doomed : Bool := false

namespace Pursuit

/-- The start of a call. -/
def start (c : ApiCall) : Pursuit := { call := c }

/-- The actions on a handle state that the call may do now. -/
def allows (g : Pursuit) : Action → Prop
  | .ensureHandleState native_handle =>
    g = start g.call ∧ ∀ handle, g.call.handle = some handle → native_handle = handle.toInt
  | .removeHandleState native_handle =>
    g.call.closes = true ∧ ∃ handle, g.call.handle = some handle ∧ native_handle = handle.toInt
  | .storeAbort state operation =>
    g.call.aborts = some operation ∧ g.state = some state ∧ g.requested = false
  | .cancelPending _ state operation =>
    g.call.aborts = some operation ∧ g.state = some state ∧ g.requested = true
  | .startPendingIo state operation _ =>
    g.call.transfers = some operation ∧ g.state = some state ∧ g.registered = false ∧
      g.doomed = false
  | .finishPendingIo state operation =>
    g.call.transfers = some operation ∧ g.state = some state ∧ g.registered = true
  | .cancelIoEx _ => g.registered = true
  | .getOverlappedResult _ _ => g.registered = true
  | _ => True

def next (g : Pursuit) : (action : Action) → Answer action → Option Pursuit
  | .ensureHandleState _, state => some { g with state := some state }
  | .storeAbort _ _, _ => some { g with requested := true }
  | .startPendingIo _ _ _, (start, _) =>
    some (if start.aborted then { g with doomed := true }
      else { g with registered := true, self_cancelled := false })
  | .finishPendingIo _ _, aborted =>
    some { g with registered := false, doomed := g.doomed || aborted }
  | .cancelIoEx _, _ => some { g with self_cancelled := true }
  | .getOverlappedResult _ _, result =>
    some (if result.completed = false ∧ result.error = ERROR_OPERATION_ABORTED ∧
        g.self_cancelled = false then { g with doomed := true } else g)
  | _, _ => some g

/-- The call is over: its request is not registered, and a transfer returns the code of an
aborted transfer exactly when it is doomed. -/
def Over (core : CppCore) (c : ApiCall) (g : Pursuit) (a : Int) : Prop :=
  g.registered = false ∧
    ∀ o, c.transfers = some o → (a = core.value (abortCode o) ↔ g.doomed = true)

end Pursuit

def pursuit : Protocol Action Answer Pursuit := ⟨Pursuit.allows, Pursuit.next⟩

/-- The actions that the protocol of aborts does not watch. -/
def Action.Unwatched (e : Action) : Prop :=
  e.Quiet ∨ e.Counts ∨ match e with
    | .createFile _ => True
    | .createEvent => True
    | .closeHandle _ => True
    | .waitForSingleObject _ _ => True
    | _ => False

/-- The cases of a proof about actions: those that are not watched together, and the others one by
one. -/
@[elab_as_elim]
theorem Action.byWatch {motive : Action → Prop}
    (unwatched : ∀ e : Action, e.Unwatched → motive e)
    (ensureHandleState : ∀ handle, motive (.ensureHandleState handle))
    (removeHandleState : ∀ handle, motive (.removeHandleState handle))
    (storeAbort : ∀ state operation, motive (.storeAbort state operation))
    (cancelPending : ∀ handle state operation, motive (.cancelPending handle state operation))
    (startPendingIo : ∀ state operation request, motive (.startPendingIo state operation request))
    (finishPendingIo : ∀ state operation, motive (.finishPendingIo state operation))
    (cancelIoEx : ∀ handle, motive (.cancelIoEx handle))
    (getOverlappedResult : ∀ handle wait, motive (.getOverlappedResult handle wait))
    (e : Action) : motive e := by
  cases e using Action.byKind with
  | quiet e he => exact unwatched e (Or.inl he)
  | loadTotal state operation => exact unwatched _ (Or.inr (Or.inl trivial))
  | addTotal state operation bytes => exact unwatched _ (Or.inr (Or.inl trivial))
  | createFile path => exact unwatched _ (Or.inr (Or.inr trivial))
  | createEvent => exact unwatched _ (Or.inr (Or.inr trivial))
  | closeHandle handle => exact unwatched _ (Or.inr (Or.inr trivial))
  | waitForSingleObject event milliseconds => exact unwatched _ (Or.inr (Or.inr trivial))
  | ensureHandleState handle => exact ensureHandleState handle
  | removeHandleState handle => exact removeHandleState handle
  | storeAbort state operation => exact storeAbort state operation
  | cancelPending handle state operation => exact cancelPending handle state operation
  | startPendingIo state operation request => exact startPendingIo state operation request
  | finishPendingIo state operation => exact finishPendingIo state operation
  | cancelIoEx handle => exact cancelIoEx handle
  | getOverlappedResult handle wait => exact getOverlappedResult handle wait

theorem pursuit_unwatched {e : Action} (h : e.Unwatched) (g : Pursuit) (r : Answer e) :
    pursuit.allows g e ∧ pursuit.next g e r = some g := by
  cases e <;> first | exact (h.elim id (Or.elim · id id)).elim | exact ⟨trivial, rfl⟩

theorem pursuit_ignores {e : Action} (h : e.Unwatched) : pursuit.Ignores e := by
  intro g
  have hg := pursuit_unwatched h g
  refine ⟨?_, fun r g' hn => ?_⟩
  · cases e <;> first | exact (h.elim id (Or.elim · id id)).elim | trivial
  · rw [(hg r).2] at hn
    cases hn
    rfl

theorem pursuit_quiet (e : Action) (h : e.Quiet) : pursuit.Ignores e := pursuit_ignores (Or.inl h)

/-- The rule for one action that the protocol of aborts does not watch. -/
theorem pursuit_skip {α : Type} {Q : Pursuit → α → Prop} {e : Action} {k : Answer e → Api α}
    {g : Pursuit} (he : e.Unwatched) (h : ∀ r, Follows pursuit Q (k r) g) :
    Follows pursuit Q (.act e k) g := by
  refine ⟨(pursuit_ignores he g).1, fun r g' hn => ?_⟩
  rw [(pursuit_ignores he g).2 r g' hn]
  exact h r

/-! ## One request -/

/-- The transfer of the operation `o` works on the handle state `s`. -/
def Pursuit.On (o : Operation) (s : StateRef) (g : Pursuit) : Prop :=
  g.call.transfers = some o ∧ g.state = some s

/-- The end of a chunk: the chunk was aborted exactly when the call is doomed. -/
def Pursuit.Ended (o : Operation) (s : StateRef) (g : Pursuit) (result : IoResult) : Prop :=
  g.On o s ∧ g.registered = false ∧ (result.outcome = .kAborted ↔ g.doomed = true)

theorem finish_pursued {Q : Pursuit → IoResult → Prop} {s : StateRef} {o : Operation}
    {k : Bool → Api IoResult} {g : Pursuit} (h : g.On o s) (hreg : g.registered = true)
    (hk : ∀ aborted, Follows pursuit Q (k aborted)
      { g with registered := false, doomed := g.doomed || aborted }) :
    Follows pursuit Q (.act (.finishPendingIo s o) k) g := by
  refine ⟨⟨h.1, h.2, hreg⟩, fun aborted g' hn => ?_⟩
  cases hn
  exact hk aborted

/-- A request that the call canceled itself is aborted by a flag only. -/
theorem cancelled_follows {s : StateRef} {o : Operation} {handle : HANDLE}
    {k : Bool → Api IoResult} {g : Pursuit} (h : g.On o s) (hreg : g.registered = true)
    (hdoomed : g.doomed = false)
    (hk : ∀ aborted g', g'.On o s → g'.registered = false → g'.doomed = aborted →
      Follows pursuit (Pursuit.Ended o s) (k aborted) g') :
    Follows pursuit (Pursuit.Ended o s) (.act (.cancelIoEx handle) fun _ =>
      .act (.getOverlappedResult handle true) fun _ => .act (.finishPendingIo s o) k) g := by
  refine ⟨hreg, fun _ g1 h1 => ?_⟩
  cases h1
  refine ⟨hreg, fun result g2 h2 => ?_⟩
  simp only [pursuit, Pursuit.next, Bool.true_eq_false, and_false, if_false] at h2
  cases h2
  refine finish_pursued h hreg fun aborted => hk aborted _ h rfl ?_
  simp only [hdoomed, Bool.false_or]

theorem waitForPendingIo_pursued (core : CppCore) (context : HandleContext) (o : Operation)
    (event : HANDLE) (timeout_ms : Int) {g : Pursuit} (h : g.On o context.state)
    (hreg : g.registered = true) (hself : g.self_cancelled = false) (hdoomed : g.doomed = false) :
    Follows pursuit (Pursuit.Ended o context.state)
      (waitForPendingIo core context o event timeout_ms) g := by
  unfold waitForPendingIo
  simp only [Prog.perform_bind, Prog.pure_eq]
  refine pursuit_skip (Or.inr (Or.inr trivial)) fun wait_result => ?_
  by_cases htimeout : wait_result = WAIT_TIMEOUT
  · rw [if_pos htimeout]
    refine cancelled_follows h hreg hdoomed fun aborted g' h' hreg' hd => ?_
    cases aborted
    · exact ⟨h', hreg', by simp [hd]⟩
    · exact ⟨h', hreg', by simp [hd]⟩
  rw [if_neg htimeout]
  by_cases hobject : wait_result = WAIT_OBJECT_0
  · rw [if_neg (not_not.mpr hobject)]
    refine ⟨hreg, fun result g1 h1 => ?_⟩
    -- an abort that Windows reports here dooms the call, and no other result does
    have hg1 : g1.On o context.state ∧ g1.registered = true ∧
        (g1.doomed = true ↔
          result.completed = false ∧ result.error = ERROR_OPERATION_ABORTED) := by
      simp only [pursuit, Pursuit.next, hself, and_true] at h1
      split at h1
      · cases h1
        exact ⟨h, hreg, by simp [*]⟩
      · cases h1
        exact ⟨h, hreg, by simp [*]⟩
    obtain ⟨hon, hreg1, hd⟩ := hg1
    refine finish_pursued hon hreg1 fun aborted => ?_
    cases aborted
    · cases hcompleted : result.completed
      · by_cases herror : result.error = ERROR_OPERATION_ABORTED
        · have hdoom := hd.mpr ⟨hcompleted, herror⟩
          simp only [herror, Bool.false_eq_true, if_false, or_true, if_true]
          exact ⟨hon, rfl, by simp [hdoom]⟩
        · have hfine : g1.doomed = false := by simp [← Bool.not_eq_true, hd, herror]
          simp only [herror, Bool.false_eq_true, if_false, or_self, if_true]
          exact ⟨hon, rfl, by simp [hfine]⟩
      · have hfine : g1.doomed = false := by simp [← Bool.not_eq_true, hd, hcompleted]
        have hne : ERROR_SUCCESS ≠ ERROR_OPERATION_ABORTED := by decide
        simp only [hne, if_true, Bool.false_eq_true, or_self, if_false, Bool.true_eq_false]
        exact ⟨hon, rfl, by simp [hfine]⟩
    · simp only [true_or, if_true]
      exact ⟨hon, rfl, by simp⟩
  · rw [if_pos hobject]
    refine pursuit_skip (Or.inl trivial) fun error => ?_
    refine cancelled_follows h hreg hdoomed fun aborted g' h' hreg' hd => ?_
    cases aborted
    · exact ⟨h', hreg', by simp [hd]⟩
    · exact ⟨h', hreg', by simp [hd]⟩

theorem requestChunk_pursued (core : CppCore) (context : HandleContext) (o : Operation)
    (offset size timeout_ms : Int) (event : HANDLE) {g : Pursuit} (h : g.On o context.state)
    (hreg : g.registered = false) (hdoomed : g.doomed = false) :
    Follows pursuit (Pursuit.Ended o context.state)
      (requestChunk core context o offset size timeout_ms event) g := by
  unfold requestChunk
  simp only [Prog.perform_bind, Prog.pure_eq]
  refine ⟨⟨h.1, h.2, hreg, hdoomed⟩, ?_⟩
  rintro ⟨⟨completed, error, aborted⟩, transferred⟩ g1 h1
  simp only [pursuit, Pursuit.next] at h1
  cases aborted
  · simp only [Bool.false_eq_true, if_false] at h1 ⊢
    cases h1
    cases completed
    · simp only [Bool.false_eq_true, if_false]
      by_cases hpending : error = ERROR_IO_PENDING
      · rw [if_neg (not_not.mpr hpending)]
        exact waitForPendingIo_pursued core context o event timeout_ms h rfl rfl hdoomed
      · rw [if_pos hpending]
        refine finish_pursued h rfl fun aborted => ?_
        cases aborted
        · exact ⟨h, rfl, by simp [hdoomed]⟩
        · exact ⟨h, rfl, by simp⟩
    · simp only [if_true]
      refine finish_pursued h rfl fun aborted => ?_
      cases aborted
      · exact ⟨h, rfl, by simp [hdoomed]⟩
      · exact ⟨h, rfl, by simp⟩
  · simp only [if_true] at h1 ⊢
    cases h1
    exact ⟨h, hreg, by simp⟩

theorem transferChunk_pursued (core : CppCore) (context : HandleContext) (o : Operation)
    (offset size timeout_ms : Int) {g : Pursuit} (h : g.On o context.state)
    (hreg : g.registered = false) (hdoomed : g.doomed = false) :
    Follows pursuit (Pursuit.Ended o context.state)
      (transferChunk core o context offset size timeout_ms) g := by
  unfold transferChunk
  simp only [Prog.perform_bind, Prog.pure_eq]
  refine pursuit_skip (Or.inr (Or.inr trivial)) fun event => ?_
  cases event with
  | none =>
    refine pursuit_skip (Or.inl trivial) fun error => ?_
    exact ⟨h, hreg, by simp [hdoomed]⟩
  | some event =>
    refine follows_seq (requestChunk_pursued core context o offset size timeout_ms event h hreg
      hdoomed) fun g' result hresult => ?_
    exact pursuit_skip (Or.inr (Or.inr trivial)) fun _ => hresult

/-! ## The calls -/

/-- A call that is not doomed may return every other value. -/
theorem Pursuit.undoomed {core : CppCore} {o : Operation} {g : Pursuit} {a : Int}
    (hreg : g.registered = false) (hd : g.doomed = false) (ha : a ≠ core.value (abortCode o)) :
    g.registered = false ∧ (a = core.value (abortCode o) ↔ g.doomed = true) := by
  refine ⟨hreg, fun h => absurd h ha, fun h => ?_⟩
  rw [hd] at h
  cases h

/-- Between two chunks no request of the call is registered, and the call is not doomed. -/
def pursued (core : CppCore) (o : Operation) : TransferOutline core pursuit o where
  entry handle g :=
    g = .start g.call ∧ g.call.transfers = some o ∧ g.call.handle = some handle
  ready context total g :=
    0 ≤ total ∧ g.On o context.state ∧ g.registered = false ∧ g.doomed = false
  counted context total _ g :=
    0 ≤ total ∧ g.On o context.state ∧ g.registered = false ∧ g.doomed = false
  result g a := g.registered = false ∧ (a = core.value (abortCode o) ↔ g.doomed = true)
  silent := silent_of_quiet pursuit_quiet
  refuses hcode h :=
    Pursuit.undoomed (by rw [h.1]; rfl) (by rw [h.1]; rfl) fun heq =>
      hcode (core.value_injective heq)
  acquires := by
    intro handle g h _
    obtain ⟨hstart, ho, hhandle⟩ := h
    refine ⟨⟨hstart, fun handle' hh => ?_⟩, fun state g' hn => ?_⟩
    · rw [hhandle] at hh
      cases hh
      rfl
    · cases hn
      exact ⟨Int.le_refl 0, ⟨ho, rfl⟩, by rw [hstart]; rfl, by rw [hstart]; rfl⟩
  stops := by
    intro context total g h
    have hneg := core.value_neg (abortCode o)
    exact Pursuit.undoomed h.2.2.1 h.2.2.2 (by have := h.1; omega)
  fails hcode h := Pursuit.undoomed h.2.2.1 h.2.2.2 fun heq => hcode (core.value_injective heq)
  chunk := by
    intro context total size timeout_ms g h _ _
    obtain ⟨htotal, hon, hreg, hd⟩ := h
    refine follows_mono (transferChunk_pursued core context o total size timeout_ms hon hreg hd)
      fun g' result hresult => ?_
    obtain ⟨hon', hreg', hd'⟩ := hresult
    have hneg := core.value_neg (abortCode o)
    cases houtcome : result.outcome with
    | kTimedOut =>
      simp only [houtcome, reduceCtorEq, false_iff, Bool.not_eq_true] at hd' ⊢
      exact Pursuit.undoomed hreg' hd' (by omega)
    | kAborted =>
      simp only [houtcome, true_iff] at hd' ⊢
      exact ⟨hreg', hd'⟩
    | kError =>
      simp only [houtcome, reduceCtorEq, false_iff, Bool.not_eq_true] at hd' ⊢
      exact fun code hcode =>
        Pursuit.undoomed hreg' hd' fun heq => hcode (core.value_injective heq)
    | kCompleted =>
      simp only [houtcome, reduceCtorEq, false_iff, Bool.not_eq_true] at hd' ⊢
      exact ⟨fun _ => Pursuit.undoomed hreg' hd' (by omega), fun _ => ⟨htotal, hon', hreg', hd'⟩⟩
  notes := by
    intro context total n g h hn
    refine follows_of_within (noteBytesTransferred_within context.state o n)
      (fun _ he => pursuit_ignores (he.elim Or.inl fun hc => Or.inr (Or.inl hc))) fun _ _ => ?_
    exact ⟨by have := h.1; omega, h.2⟩

theorem abort_pursued (core : CppCore) (o : Operation) (handle : Int64) (callback : Callback)
    {c : ApiCall} (htransfers : c.transfers = none) (haborts : c.aborts = some o)
    (hhandle : c.handle = some handle) :
    Follows pursuit (Pursuit.Over core c) (abortCall core o handle callback) (Pursuit.start c) := by
  have hover : ∀ g : Pursuit, g.registered = false → ∀ a, Pursuit.Over core c g a := by
    intro g hg a
    refine ⟨hg, fun o' ho => ?_⟩
    rw [htransfers] at ho
    cases ho
  refine abortCall_follows (silent_of_quiet pursuit_quiet) (hover _ rfl _)
    (fun _ => ⟨rfl, fun handle' hh => ?_⟩) fun state g1 h1 => ?_
  · rw [show (Pursuit.start c).call = c from rfl, hhandle] at hh
    cases hh
    rfl
  cases h1
  refine ⟨⟨haborts, rfl, rfl⟩, fun g2 h2 => ?_⟩
  cases h2
  refine ⟨⟨haborts, rfl, rfl⟩, fun g3 h3 => ?_⟩
  cases h3
  exact hover _ rfl _

/-- Every call follows the protocol of aborts. -/
theorem program_pursued (core : CppCore) (c : ApiCall) :
    Follows pursuit (Pursuit.Over core c) (c.program core) (Pursuit.start c) := by
  cases c with
  | serialOpen port config callback =>
    have hover : ∀ g : Pursuit, g.registered = false → ∀ a,
        Pursuit.Over core (.serialOpen port config callback) g a := fun g hg a => ⟨hg, nofun⟩
    refine serialOpen_follows (silent_of_quiet pursuit_quiet) (fun _ => hover _ rfl _)
      (fun _ => trivial) ?_ ?_ ?_
    · intro path h g' hn _ code
      cases hn
      exact hover _ rfl _
    · intro path h g' hn _ _
      cases hn
      refine ⟨trivial, fun closed g'' hn' code => ?_⟩
      cases hn'
      exact hover _ rfl _
    · intro path h g' hn _
      cases hn
      refine ⟨⟨rfl, nofun⟩, fun state g'' hn' => ?_⟩
      cases hn'
      exact hover _ rfl _
  | serialClose handle callback =>
    have hover : ∀ g : Pursuit, g.registered = false → ∀ a,
        Pursuit.Over core (.serialClose handle callback) g a := fun g hg a => ⟨hg, nofun⟩
    refine serialClose_follows (silent_of_quiet pursuit_quiet) (fun _ => hover _ rfl _)
      (fun _ => trivial) ?_ ?_
    · intro _ g' hn
      cases hn
      exact hover _ rfl _
    · intro _ g' hn
      cases hn
      refine ⟨⟨rfl, handle, rfl, rfl⟩, fun g'' hn' => ?_⟩
      cases hn'
      exact hover _ rfl _
  | transfer handle timeout_config callback call =>
    refine follows_mono (TransferOutline.program_follows (pursued core) handle timeout_config
      callback call ⟨rfl, rfl, rfl⟩) fun g' a h => ⟨h.1, fun o ho => ?_⟩
    cases ho
    exact h.2
  | serialAbortRead handle callback => exact abort_pursued core .kRead handle callback rfl rfl rfl
  | serialAbortWrite handle callback => exact abort_pursued core .kWrite handle callback rfl rfl rfl
  | onState handle callback call =>
    refine call.program_follows (fun e he => ?_) ⟨rfl, nofun⟩
      (fun _ => ⟨rfl, fun handle' hh => by cases hh; rfl⟩) ?_
    · rcases he with he | ⟨state, operation, rfl⟩
      · exact pursuit_quiet e he.quiet
      · exact pursuit_ignores (Or.inr (Or.inl trivial))
    · intro state g' hn a
      cases hn
      exact ⟨rfl, nofun⟩
  | onLine handle callback call =>
    exact call.program_follows (silent_of_quiet pursuit_quiet) fun a => ⟨rfl, nofun⟩

end cpp_bindings_windows
