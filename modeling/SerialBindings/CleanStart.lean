-- What a port finds when it is opened: the calls that came before it, one after
-- the other and with any handle values, and what they can leave behind in the
-- registry for the handle value that the open returns.
import Mathlib.Data.Fintype.EquivFin
import SerialBindings.Aborts
import SerialBindings.Sessions

open programs

namespace cpp_bindings_windows

/-! ## Histories -/

/-- A call that is over, with the thread that made it and the value that it returned. -/
structure PastCall where
  thread : ThreadId
  call : ApiCall
  result : Int

/-- Calls executed one after the other, from one world to another. -/
inductive History (core : CppCore) (w : World) : List PastCall → World → Prop
  | nil : History core w [] w
  | snoc {past : List PastCall} {x : PastCall} {w1 w2 : World} :
      History core w past w1 →
      Exec (World.perform x.thread) w1 (x.call.program core) w2 x.result →
      History core w (past ++ [x]) w2

/-- The registry has an entry for the handle value, with an abort flag set or with bytes
counted. -/
def Stale (w : World) (h : HANDLE) : Prop :=
  ∃ s, w.registry.g_handle_states h = some s ∧
    ∃ o, w.flag s o = true ∨ (w.registry.states s).total o ≠ 0

/-- The handle starts clean in the world `w`: its totals are 0, and its first transfer is not
aborted before somebody aborts it. -/
structure StartsClean (core : CppCore) (handle : Int64) (w : World) : Prop where
  in_total : ∀ t callback w' a,
    Exec (World.perform t) w (serialInBytesTotal core handle callback) w' a → a = 0
  out_total : ∀ t callback w' a,
    Exec (World.perform t) w (serialOutBytesTotal core handle callback) w' a → a = 0
  first_transfer : ∀ o later w1, History core w later w1 →
    (∀ x ∈ later, x.call.handle = some handle →
      x.call.closes = false ∧ x.call.transfers = none ∧ x.call.aborts ≠ some o) →
    ∀ t (c : ApiCall) w2 a, c.handle = some handle → c.transfers = some o →
      Exec (World.perform t) w1 (c.program core) w2 a → a ≠ core.value (abortCode o)

/-! ## Two handle values never have one state -/

def World.Separate (w : World) : Prop :=
  ∀ h h' s, w.registry.g_handle_states h = some s → w.registry.g_handle_states h' = some s → h = h'

variable {t : ThreadId} {w w' : World} {e : Action} {r : Answer e}

/-- Only two actions change the entries of the registry. -/
theorem World.perform_entries (hne : ∀ h, e ≠ .ensureHandleState h)
    (hnr : ∀ h, e ≠ .removeHandleState h) (hw : w.perform t e r = some w') :
    w'.registry.g_handle_states = w.registry.g_handle_states := by
  by_cases he : e.TouchesRegistry
  · cases e with
    | ensureHandleState h => exact absurd rfl (hne h)
    | removeHandleState h => exact absurd rfl (hnr h)
    | addTotal s o n | storeAbort s o =>
      cases hw
      rfl
    | startPendingIo s o request =>
      obtain ⟨start, transferred⟩ := r
      exact (World.perform_start hw).1.handles
    | finishPendingIo s o => exact (World.perform_finish hw).1.handles
    | _ => exact he.elim
  · rw [World.perform_registry he hw]

theorem World.perform_separate (hs : w.Separate) (hw : w.perform t e r = some w') :
    w'.Separate := by
  by_cases hensure : ∃ h, e = .ensureHandleState h
  · obtain ⟨h, rfl⟩ := hensure
    rcases World.perform_ensure hw with ⟨-, rfl⟩ | ⟨-, hnew, hhandles, -⟩
    · exact hs
    have hlt : ∀ h1, w.registry.g_handle_states h1 ≠ some r := by
      intro h1 h2
      exact Nat.lt_irrefl _ (hnew ▸ w.registry.made h1 r h2)
    intro h1 h2 s hs1 hs2
    rw [hhandles, Function.update_apply] at hs1 hs2
    split at hs1
    · rename_i heq1
      cases hs1
      split at hs2
      · rename_i heq2
        rw [heq1, heq2]
      · exact absurd hs2 (hlt h2)
    · split at hs2
      · cases hs2
        exact absurd hs1 (hlt h1)
      · exact hs h1 h2 s hs1 hs2
  by_cases hremove : ∃ h, e = .removeHandleState h
  · obtain ⟨h, rfl⟩ := hremove
    cases hw
    intro h1 h2 s hs1 hs2
    dsimp only [Registry.removeHandleState] at hs1 hs2
    rw [Function.update_apply] at hs1 hs2
    split at hs1
    · cases hs1
    · split at hs2
      · cases hs2
      · exact hs h1 h2 s hs1 hs2
  · have hsame := World.perform_entries (fun h heq => hensure ⟨h, heq⟩)
      (fun h heq => hremove ⟨h, heq⟩) hw
    intro h1 h2 s hs1 hs2
    rw [hsame] at hs1 hs2
    exact hs h1 h2 s hs1 hs2

theorem History.separate {core : CppCore} {past : List PastCall}
    (h : History core .start past w) : w.Separate := by
  induction h with
  | nil => exact fun h h' s hs => by cases hs
  | snoc _ hx ih => exact exec_keeps World.perform_separate ih hx

/-! ## What an open leaves -/

/-- The protocol of one thread alone on the process. -/
def alone (t : ThreadId) : Protocol Action Answer World := ⟨fun _ _ => True, World.perform t⟩

theorem alone_quiet (e : Action) (he : e.Quiet) : (alone t).Ignores e :=
  fun _ => ⟨trivial, fun _ _ hw => World.perform_quiet he hw⟩

/-- The last thing that an open does to the registry is to register the handle that it returns. -/
theorem serialOpen_registers {core : CppCore} {port : Option (List UInt8)}
    {config : Option SerialConfig} {callback : Callback} {h : Int}
    (hopen : Exec (World.perform t) w (serialOpen core port config callback) w' h) (hpos : 0 < h) :
    ∃ (w1 : World) (s : StateRef), w1.registry = w.registry ∧
      w1.perform t (.ensureHandleState h) s = some w' := by
  have hfails : ∀ (w2 : World) code, 0 < core.value code →
      ∃ (w1 : World) (s : StateRef), w1.registry = w.registry ∧
        w1.perform t (.ensureHandleState (core.value code)) s = some w2 := by
    intro w2 code hcode
    have hneg := core.value_neg code
    omega
  have hcreated : ∀ {path h w1}, w.perform t (.createFile path) h = some w1 →
      w1.registry = w.registry := by
    intro path h w1 hw
    simp only [World.perform] at hw
    repeat' split at hw
    all_goals cases hw <;> rfl
  have hf : Follows (alone t) (fun w2 a => 0 < a → ∃ (w1 : World) (s : StateRef),
      w1.registry = w.registry ∧ w1.perform t (.ensureHandleState a) s = some w2)
      (serialOpen core port config callback) w := by
    refine serialOpen_follows (silent_of_quiet alone_quiet) (hfails w) (fun _ => trivial) ?_ ?_ ?_
    · intro path h w1 _ _ code
      exact hfails w1 code
    · intro path h w1 _ _ _
      exact ⟨trivial, fun _ w2 _ code => hfails w2 code⟩
    · intro path h w1 hw _
      exact ⟨trivial, fun s w2 hs _ => ⟨w1, s, hcreated hw, hs⟩⟩
  exact follows_exec hf hopen hpos

/-- An open finds the entry of its handle value as it was, or makes a new one. -/
theorem serialOpen_entry {core : CppCore} {port : Option (List UInt8)}
    {config : Option SerialConfig} {callback : Callback} {h : Int}
    (hopen : Exec (World.perform t) w (serialOpen core port config callback) w' h) (hpos : 0 < h) :
    ∃ s, w'.registry.g_handle_states h = some s ∧
      ((w.registry.g_handle_states h = some s ∧ w'.registry = w.registry) ∨
        (w.registry.g_handle_states h = none ∧ w'.registry.states s = {})) := by
  obtain ⟨w1, s, hsame, hensure⟩ := serialOpen_registers hopen hpos
  refine ⟨s, World.perform_ensure_registers hensure, ?_⟩
  rcases World.perform_ensure hensure with ⟨hs, rfl⟩ | ⟨hnone, -, -, hstates, -⟩
  · rw [hsame] at hs
    exact Or.inl ⟨hs, hsame⟩
  · rw [hsame] at hnone
    refine Or.inr ⟨hnone, ?_⟩
    rw [hstates, Function.update_self]

/-- What an open finds is what was stale before it. -/
theorem serialOpen_stale {core : CppCore} {port : Option (List UInt8)}
    {config : Option SerialConfig} {callback : Callback} {h : Int}
    (hopen : Exec (World.perform t) w (serialOpen core port config callback) w' h) (hpos : 0 < h) :
    Stale w' h ↔ Stale w h := by
  obtain ⟨s, hs, hold⟩ := serialOpen_entry hopen hpos
  unfold Stale World.flag
  rcases hold with ⟨hs0, hsame⟩ | ⟨hnone, hnew⟩
  · rw [hsame]
  constructor
  · rintro ⟨s', hs', o, ho⟩
    rw [hs] at hs'
    cases hs'
    rw [hnew] at ho
    cases o <;> simp [HandleState.abortFlag, HandleState.total] at ho
  · rintro ⟨s', hs', -⟩
    rw [hnone] at hs'
    cases hs'

/-! ## A clear flag stays clear -/

/-- The handle has the state `s`, and the abort flag of `o` on it is clear. -/
structure Clear (handle : Int64) (o : Operation) (s : StateRef) (w : World) : Prop where
  entry : w.registry.g_handle_states handle.toInt = some s
  separate : w.Separate
  flag : w.flag s o = false

/-- A call that neither closes the handle nor aborts `o` on it. -/
def Spares (handle : Int64) (o : Operation) (c : ApiCall) : Prop :=
  c.handle = some handle → c.closes = false ∧ c.aborts ≠ some o

/-- What holds inside a call that spares the flag. -/
structure Guarded (handle : Int64) (o : Operation) (s : StateRef) (t : ThreadId) (c : ApiCall)
    (g : Pursuit) (w : World) : Prop extends Clear handle o s w where
  call : g.call = c
  state : ∀ handle' s', c.handle = some handle' → g.state = some s' → (s' = s ↔ handle' = handle)
  registered : g.registered = true → c.transfers ≠ none
  cancelled : g.registered = true → w.cancelled t = true → g.self_cancelled = true
  doomed : c.handle = some handle → c.transfers = some o → g.doomed = false

theorem ApiCall.handle_of_aborts {c : ApiCall} {o : Operation} (h : c.aborts = some o) :
    ∃ handle, c.handle = some handle := by
  cases c with
  | serialAbortRead handle callback => exact ⟨handle, rfl⟩
  | serialAbortWrite handle callback => exact ⟨handle, rfl⟩
  | _ => cases h

section Steps

variable {handle : Int64} {o : Operation} {s : StateRef} {c : ApiCall} {g g' : Pursuit}

/-- A world with the same entries and the same flag is clear as well. -/
theorem Clear.step (h : Clear handle o s w) (hw : w.perform t e r = some w')
    (hentries : w'.registry.g_handle_states = w.registry.g_handle_states)
    (hflag : w'.flag s o = w.flag s o) : Clear handle o s w' := by
  refine ⟨?_, World.perform_separate h.separate hw, hflag.trans h.flag⟩
  rw [hentries]
  exact h.entry

/-- The call gets the state of its handle. -/
theorem Guarded.ensureHandleState (h : Guarded handle o s t c g w) {native_handle : HANDLE}
    {s' : StateRef} (hallows : pursuit.allows g (.ensureHandleState native_handle))
    (hw : w.perform t (.ensureHandleState native_handle) s' = some w') :
    Guarded handle o s t c { g with state := some s' } w' := by
  obtain ⟨hstart, hnative⟩ := hallows
  have hregistered : g.registered = false := by rw [hstart]; rfl
  have hdoomed : g.doomed = false := by rw [hstart]; rfl
  have hseparate := World.perform_separate h.separate hw
  have hgot := World.perform_ensure_registers hw
  have hkept : w'.registry.g_handle_states handle.toInt = some s ∧ w'.flag s o = w.flag s o := by
    rcases World.perform_ensure hw with ⟨-, rfl⟩ | ⟨hnone, hnew, hhandles, hstates, -⟩
    · exact ⟨h.entry, rfl⟩
    have hne : handle.toInt ≠ native_handle := by
      rintro heq
      rw [← heq, h.entry] at hnone
      cases hnone
    have hs : s ≠ s' := by
      have hlt := w.registry.made _ s h.entry
      rintro rfl
      exact Nat.lt_irrefl _ (hnew ▸ hlt)
    rw [hhandles, Function.update_of_ne hne, World.flag, hstates, Function.update_of_ne hs]
    exact ⟨h.entry, rfl⟩
  refine ⟨⟨hkept.1, hseparate, hkept.2.trans h.flag⟩, h.call, fun handle' s1 hc hs1 => ?_,
    fun hr => ?_, fun hr => ?_, fun _ _ => hdoomed⟩
  · cases hs1
    rw [hnative handle' (h.call ▸ hc)] at hgot
    constructor
    · rintro rfl
      exact Int64.toInt_inj.mp (hseparate _ _ s' hgot hkept.1)
    · rintro rfl
      rw [hkept.1] at hgot
      cases hgot
      rfl
  · rw [hregistered] at hr
    cases hr
  · rw [hregistered] at hr
    cases hr

/-- Every action of a call that spares the flag keeps the flag clear, and a transfer of the
handle does not see it. -/
theorem Guarded.perform (hspares : Spares handle o c) (h : Guarded handle o s t c g w)
    (hallows : pursuit.allows g e) (hw : w.perform t e r = some w') :
    ∃ g', pursuit.next g e r = some g' ∧ Guarded handle o s t c g' w' := by
  have hcall := h.call
  by_cases hun : e.Unwatched
  · have hu := World.perform_unwatched hun hw
    refine ⟨g, (pursuit_unwatched hun g r).2, h.toClear.step hw hu.handles (hu.flag s o), hcall,
      h.state, h.registered, fun hr hc => h.cancelled hr ?_, h.doomed⟩
    rw [← hu.cancelled]
    exact hc
  cases e using Action.byWatch with
  | unwatched e he => exact absurd he hun
  | ensureHandleState native_handle => exact ⟨_, rfl, h.ensureHandleState hallows hw⟩
  | removeHandleState native_handle =>
    obtain ⟨hcloses, handle', hhandle, rfl⟩ := hallows
    have hne : handle.toInt ≠ handle'.toInt := by
      intro heq
      rw [← Int64.toInt_inj.mp heq, hcall] at hhandle
      have hopen := (hspares hhandle).1
      rw [← hcall, hcloses] at hopen
      cases hopen
    have hseparate := World.perform_separate h.separate hw
    cases hw
    refine ⟨g, rfl, ⟨?_, hseparate, h.flag⟩, hcall, h.state, h.registered, h.cancelled, h.doomed⟩
    exact (Registry.removeHandleState_of_ne _ hne).trans h.entry
  | storeAbort s' o' =>
    obtain ⟨haborts, hstate, -⟩ := hallows
    obtain ⟨hsame, hcancelled, hflag, -⟩ := World.perform_store hw
    have hother : ¬ (s = s' ∧ o' = o) := by
      rintro ⟨rfl, rfl⟩
      rw [hcall] at haborts
      obtain ⟨handle', hhandle⟩ := ApiCall.handle_of_aborts haborts
      obtain rfl := (h.state handle' s hhandle hstate).mp rfl
      exact (hspares hhandle).2 haborts
    refine ⟨_, rfl, h.toClear.step hw hsame.handles ?_, hcall, h.state, h.registered, ?_, h.doomed⟩
    · rw [hflag, if_neg hother]
    · rw [hcancelled]
      exact h.cancelled
  | cancelPending native_handle s' o' =>
    obtain ⟨haborts, -, -⟩ := hallows
    obtain ⟨hregistry, -⟩ := World.perform_cancel hw
    refine ⟨g, rfl, h.toClear.step hw (by rw [hregistry]) (by rw [World.flag, hregistry]), hcall,
      h.state, h.registered, fun hr => ?_, h.doomed⟩
    rw [hcall] at haborts
    exact absurd (ApiCall.transfers_of_aborts haborts) (h.registered hr)
  | startPendingIo s' o' request =>
    obtain ⟨htransfers, hstate, -, -⟩ := hallows
    obtain ⟨start, transferred⟩ := r
    obtain ⟨hsame, hcancelled, haborted, hflag, -⟩ := World.perform_start hw
    rw [hcall] at htransfers
    have hclear : Clear handle o s w' := by
      refine h.toClear.step hw hsame.handles ?_
      rw [hflag]
      split
      · exact h.flag.symm
      · rfl
    refine ⟨_, rfl, ?_⟩
    split
    · rename_i ha
      refine ⟨hclear, hcall, h.state, h.registered, fun hr hc => ?_, fun hhandle ho => ?_⟩
      · rw [hcancelled, Function.update_self] at hc
        cases hc
      · rw [htransfers] at ho
        cases ho
        obtain rfl := (h.state handle s' hhandle hstate).mpr rfl
        rw [haborted, h.flag] at ha
        cases ha
    · refine ⟨hclear, hcall, h.state, fun _ => ?_, fun hr hc => ?_, h.doomed⟩
      · rw [htransfers]
        simp
      · rw [hcancelled, Function.update_self] at hc
        cases hc
  | finishPendingIo s' o' =>
    obtain ⟨htransfers, hstate, -⟩ := hallows
    obtain ⟨hsame, hcancelled, haborted, hflag, -⟩ := World.perform_finish hw
    rw [hcall] at htransfers
    have hclear : Clear handle o s w' := by
      refine h.toClear.step hw hsame.handles ?_
      rw [hflag]
      split
      · exact h.flag.symm
      · rfl
    refine ⟨_, rfl, hclear, hcall, h.state, by simp, by simp, fun hhandle ho => ?_⟩
    have hdoomed := h.doomed hhandle ho
    rw [htransfers] at ho
    cases ho
    obtain rfl := (h.state handle s' hhandle hstate).mpr rfl
    rw [hdoomed, haborted, h.flag]
    rfl
  | cancelIoEx native_handle =>
    have hclear := h.toClear.step hw (by cases hw; rfl) (by cases hw; rfl)
    exact ⟨_, rfl, hclear, hcall, h.state, h.registered, fun _ _ => rfl, h.doomed⟩
  | getOverlappedResult native_handle wait =>
    obtain ⟨rfl, hreported⟩ := World.perform_result hw
    have hnot : ¬ (r.completed = false ∧ r.error = ERROR_OPERATION_ABORTED ∧
        g.self_cancelled = false) := by
      rintro ⟨hc, he, hself⟩
      rw [h.cancelled hallows (hreported hc he)] at hself
      cases hself
    refine ⟨g, ?_, h⟩
    simp only [pursuit, Pursuit.next, if_neg hnot]

/-- A call that spares the flag leaves it clear, and is not aborted when it is a transfer of
the handle. -/
theorem Clear.call {core : CppCore} {a : Int} (hspares : Spares handle o c)
    (h : Clear handle o s w) (hx : Exec (World.perform t) w (c.program core) w' a) :
    Clear handle o s w' ∧
      (c.handle = some handle → c.transfers = some o → a ≠ core.value (abortCode o)) := by
  have hguarded : Guarded handle o s t c (.start c) w :=
    ⟨h, rfl, nofun, nofun, nofun, fun _ _ => rfl⟩
  obtain ⟨g, hover, hg⟩ := follows_exec_with (fun hi => hi.perform hspares)
    (program_pursued core c) hguarded hx
  refine ⟨hg.toClear, fun hhandle ho ha => ?_⟩
  have hdoomed := (hover.2 o ho).mp ha
  rw [hg.doomed hhandle ho] at hdoomed
  cases hdoomed

theorem Clear.history {core : CppCore} {later : List PastCall} (h : Clear handle o s w)
    (hlater : History core w later w') (hspares : ∀ x ∈ later, Spares handle o x.call) :
    Clear handle o s w' := by
  induction hlater with
  | nil => exact h
  | @snoc past x w1 w2 _ hx ih =>
    have hpast := ih fun y hy => hspares y (List.mem_append_left _ hy)
    exact (hpast.call (hspares x (List.mem_append_right _ (List.mem_singleton_self x))) hx).1

end Steps

/-! ## Runs on a handle with an entry -/

section Runs

variable {core : CppCore} {handle : Int64} {s : StateRef} {o : Operation}

theorem callback_run (t : ThreadId) (w : World) :
    Exec (World.perform t) w (effectiveErrorCallback none) w none :=
  .act (r := none) rfl .ret

theorem failMsg_run (core : CppCore) (t : ThreadId) (w : World) (callback : Callback)
    (code : StatusCode) (message : String) :
    Exec (World.perform t) w (failMsg core callback code message) w (core.value code) :=
  .act (r := ()) rfl .ret

/-- The context of a handle that has an entry. -/
theorem context_run (hpos : 0 < handle.toInt)
    (hentry : w.registry.g_handle_states handle.toInt = some s) :
    Exec (World.perform t) w (acquireHandleContext core handle none) w
      (.ok ⟨handle.toInt, s⟩) := by
  have hnull : ¬ (handle.toInt = nullHandle ∨ handle.toInt = INVALID_HANDLE_VALUE) := by
    unfold nullHandle INVALID_HANDLE_VALUE
    omega
  have hvalid : Exec (World.perform t) w (validateWin32Handle core handle none) w
      (.ok handle.toInt) := by
    refine exec_seq (callback_run t w) ?_
    rw [if_neg (Int.not_le.mpr hpos)]
    simp only [Prog.pure_eq, if_neg hnull]
    exact .ret
  refine exec_seq hvalid (.act (r := s) ?_ .ret)
  simp only [World.perform, w.registry.ensureHandleState_of_some _ hentry, if_true]

/-- The call of a total returns the counter of the state. -/
theorem loadTotal_exec {callback : Callback} {a : Int} (hpos : 0 < handle.toInt)
    (hentry : w.registry.g_handle_states handle.toInt = some s)
    (hx : Exec (World.perform t) w (withHandleContext core handle callback fun context =>
      perform (.loadTotal context.state o)) w' a) :
    a = (w.registry.states s).total o := by
  have hf : Follows (alone t) (fun _ a => a = (w.registry.states s).total o)
      (withHandleContext core handle callback fun context =>
        perform (.loadTotal context.state o)) w := by
    refine withHandleContext_follows (silent_of_quiet alone_quiet)
      (fun hneg => absurd hpos (Int.not_lt.mpr hneg))
      fun _ => ⟨trivial, fun state w1 hw => ⟨trivial, fun total w2 htotal => ?_⟩⟩
    rcases World.perform_ensure (t := t) hw with ⟨hs, rfl⟩ | ⟨hnone, -⟩
    · rw [hentry] at hs
      cases hs
      simp only [alone, World.perform] at htotal
      split at htotal
      · rename_i heq
        exact heq.symm
      · cases htotal
    · rw [hentry] at hnone
      cases hnone
  exact follows_exec (P := alone t) hf hx

theorem loadTotal_run (core : CppCore) (t : ThreadId) (o : Operation) (hpos : 0 < handle.toInt)
    (hentry : w.registry.g_handle_states handle.toInt = some s) :
    Exec (World.perform t) w (withHandleContext core handle none fun context =>
      perform (.loadTotal context.state o)) w ((w.registry.states s).total o) := by
  refine exec_seq (context_run hpos hentry) (.act (r := (w.registry.states s).total o) ?_ .ret)
  simp only [World.perform, if_true]

/-- A chunk that finds the flag set is aborted. -/
theorem transferChunk_run (core : CppCore) (t : ThreadId) (context : HandleContext)
    (offset size timeout_ms : Int)
    (hflag : w.flag context.state o = true) :
    ∃ w', Exec (World.perform t) w (transferChunk core o context offset size timeout_ms) w'
      { outcome := .kAborted } := by
  obtain ⟨event, hevent⟩ := Infinite.exists_notMem_finset w.openHandles
  have hcreate : w.perform t .createEvent (some event) =
      some { w with openHandles := insert event w.openHandles } := if_neg hevent
  have hstart := HandleState.startPendingIo_aborted (w.registry.states context.state) o t false
    ERROR_SUCCESS hflag
  obtain ⟨w2, hw2⟩ : ∃ w2, World.perform t { w with openHandles := insert event w.openHandles }
      (.startPendingIo context.state o ⟨context.handle, offset, dwordOfInt size⟩)
      ({ aborted := true }, 0) = some w2 := by
    simp only [World.perform, hstart, if_true]
    exact ⟨_, rfl⟩
  have hrequest : Exec (World.perform t) { w with openHandles := insert event w.openHandles }
      (requestChunk core context o offset size timeout_ms event) w2 { outcome := .kAborted } :=
    .act (r := ({ aborted := true }, 0)) hw2 .ret
  refine ⟨w2, exec_seq (.act hcreate .ret) ?_⟩
  exact exec_seq hrequest (.act (r := false) rfl .ret)

/-- The transfer of one byte. -/
def oneByteCall (handle : Int64) : Operation → ApiCall
  | .kRead => .transfer handle (some ⟨100, 1⟩) none (.serialRead (some 1) 1)
  | .kWrite => .transfer handle (some ⟨100, 1⟩) none (.serialWrite (some 1) 1)

/-- A transfer that finds the flag of its operation set can be aborted by it. -/
theorem oneByteCall_run (core : CppCore) (t : ThreadId) (hpos : 0 < handle.toInt)
    (hentry : w.registry.g_handle_states handle.toInt = some s) (hflag : w.flag s o = true) :
    ∃ w', Exec (World.perform t) w ((oneByteCall handle o).program core) w'
      (core.value (abortCode o)) := by
  have htimeout : core.validateTimeoutConfig (some ⟨100, 1⟩) = none :=
    (core.timeout_accepts _).mpr ⟨_, rfl, by decide⟩
  have hbuffer : core.validateBuffer (some 1) (1 : Int32).toInt = none :=
    (core.buffer_accepts _ _).mpr ⟨nofun, by decide⟩
  cases o with
  | kRead =>
    obtain ⟨w', hchunk⟩ := transferChunk_run core t ⟨handle.toInt, s⟩ 0 1
      (currentTimeout core ⟨100, 1⟩ 0) hflag
    refine ⟨w', ?_⟩
    show Exec _ w (readImpl core handle (some 1) 1 (some ⟨100, 1⟩) none 0 none) _ _
    unfold readImpl
    rw [htimeout, hbuffer]
    refine exec_seq (callback_run t w) (exec_seq .ret ?_)
    rw [if_neg (by decide)]
    refine exec_seq .ret ?_
    rw [if_neg (by decide), if_neg (by decide)]
    refine exec_seq (context_run hpos hentry) ?_
    show Exec _ w (readLoop core ⟨1, ⟨100, 1⟩, [], 0, none⟩ ⟨handle.toInt, s⟩ 1 0) _ _
    unfold readLoop
    rw [if_neg (by decide)]
    have hsize : Exec (World.perform t) w (nextReadSize handle.toInt 1 0) w (some 1) :=
      .act (r := some {}) rfl .ret
    have hmessage := failMsg_run core t w' none .kAbortReadError "Read aborted"
    exact exec_seq hsize (exec_seq hchunk hmessage)
  | kWrite =>
    obtain ⟨w', hchunk⟩ := transferChunk_run core t ⟨handle.toInt, s⟩ 0 1
      (currentTimeout core ⟨100, 1⟩ 0) hflag
    refine ⟨w', ?_⟩
    show Exec _ w (writeImpl core handle (some 1) 1 (some ⟨100, 1⟩) none) _ _
    unfold writeImpl
    rw [htimeout, hbuffer]
    refine exec_seq (callback_run t w) (exec_seq .ret ?_)
    rw [if_neg (by decide)]
    refine exec_seq .ret ?_
    rw [if_neg (by decide)]
    refine exec_seq (context_run hpos hentry) ?_
    show Exec _ w (writeLoop core 1 ⟨100, 1⟩ none ⟨handle.toInt, s⟩ 1 0) _ _
    unfold writeLoop
    rw [if_neg (by decide)]
    have hmessage := failMsg_run core t w' none .kAbortWriteError "Write aborted"
    exact exec_seq hchunk hmessage
/-- A handle with an entry starts clean exactly when the entry is not stale. -/
theorem startsClean_iff (hpos : 0 < handle.toInt) (hseparate : w.Separate)
    (hentry : w.registry.g_handle_states handle.toInt = some s) :
    StartsClean core handle w ↔ ¬ Stale w handle.toInt := by
  constructor
  · rintro hclean ⟨s', hs', o, ho⟩
    rw [hentry] at hs'
    cases hs'
    rcases ho with hflag | htotal
    · obtain ⟨w', hrun⟩ := oneByteCall_run core 0 hpos hentry hflag
      refine hclean.first_transfer o [] w .nil nofun 0 (oneByteCall handle o) w' _ ?_ ?_ hrun rfl
      · cases o <;> rfl
      · cases o <;> rfl
    · have hrun := loadTotal_run core 0 o hpos hentry
      cases o with
      | kRead => exact htotal (hclean.in_total 0 none w _ hrun)
      | kWrite => exact htotal (hclean.out_total 0 none w _ hrun)
  · intro hstale
    have hflag : ∀ o, w.flag s o = false := by
      intro o
      rw [← Bool.not_eq_true]
      exact fun hf => hstale ⟨s, hentry, o, Or.inl hf⟩
    have htotal : ∀ o, (w.registry.states s).total o = 0 := by
      intro o
      by_contra hne
      exact hstale ⟨s, hentry, o, Or.inr hne⟩
    refine ⟨fun t callback w' a hx => ?_, fun t callback w' a hx => ?_, ?_⟩
    · exact (loadTotal_exec hpos hentry hx).trans (htotal .kRead)
    · exact (loadTotal_exec hpos hentry hx).trans (htotal .kWrite)
    · intro o later w1 hlater hspares t c w2 a hhandle htransfers hx
      have hclear : Clear handle o s w1 := by
        refine Clear.history ⟨hentry, hseparate, hflag o⟩ hlater fun x hx hh => ?_
        obtain ⟨hcloses, -, haborts⟩ := hspares x hx hh
        exact ⟨hcloses, haborts⟩
      have hspared : Spares handle o c := by
        obtain ⟨handle', timeout_config, callback, call, rfl⟩ :
            ∃ handle' timeout_config callback call,
              c = .transfer handle' timeout_config callback call := by
          cases c with
          | transfer handle' timeout_config callback call => exact ⟨_, _, _, _, rfl⟩
          | _ => cases htransfers
        exact fun _ => ⟨rfl, nofun⟩
      exact (hclear.call hspared hx).2 hhandle htransfers

end Runs

/-- After every history, a port that is opened starts clean exactly when the registry had no
stale entry for the handle value that the open returns. -/
theorem an_open_starts_clean_iff_nothing_is_stale (core : CppCore) {past : List PastCall}
    {port : Option (List UInt8)} {config : Option SerialConfig} {callback : Callback}
    {handle : Int64} (hpast : History core .start past w)
    (hopen : Exec (World.perform t) w (serialOpen core port config callback) w' handle.toInt)
    (hpos : 0 < handle.toInt) : StartsClean core handle w' ↔ ¬ Stale w handle.toInt := by
  obtain ⟨s, hentry, -⟩ := serialOpen_entry hopen hpos
  have hseparate : w'.Separate := exec_keeps World.perform_separate hpast.separate hopen
  rw [startsClean_iff hpos hseparate hentry, serialOpen_stale hopen hpos]

/-! ## Histories that can be computed -/

/-- The history of the calls with the answers of `World.answer`, after the history `past`. -/
def runCalls (core : CppCore) (past : List PastCall) (w : World) :
    List (ThreadId × ApiCall) → Option (List PastCall × World)
  | [] => some (past, w)
  | (t, c) :: calls =>
    match (c.program core).run (World.perform t) (World.answer t) w with
    | some (w', a) => runCalls core (past ++ [⟨t, c, a⟩]) w' calls
    | none => none

theorem runCalls_history {core : CppCore} {w₀ : World} {past past' : List PastCall}
    {calls : List (ThreadId × ApiCall)} (hpast : History core w₀ past w)
    (h : runCalls core past w calls = some (past', w')) : History core w₀ past' w' := by
  induction calls generalizing past w with
  | nil =>
    cases h
    exact hpast
  | cons x calls ih =>
    obtain ⟨t, c⟩ := x
    simp only [runCalls] at h
    split at h
    · rename_i w1 a hrun
      exact ih (.snoc hpast (run_exec (World.answer t) hrun)) h
    · cases h

/-- The history of the calls, and then the open of the sample port, with what `f` tells about
the worlds before and after the open. -/
theorem runCalls_open (calls : List (ThreadId × ApiCall)) {β : Type} (f : World → World → β)
    {x : β} {h : Int} (hrun : (runCalls sampleCore [] .start calls).bind (fun p =>
      ((serialOpen sampleCore (some [67, 79, 77, 51]) (some sampleConfig) none).run
        (World.perform 0) (World.answer 0) p.2).map fun q => (f p.2 q.1, q.2)) = some (x, h)) :
    ∃ past w w', History sampleCore .start past w ∧
      Exec (World.perform 0) w
        (serialOpen sampleCore (some [67, 79, 77, 51]) (some sampleConfig) none) w' h ∧
      f w w' = x := by
  obtain ⟨⟨past, w⟩, hpast, hrun⟩ := Option.bind_eq_some_iff.mp hrun
  obtain ⟨⟨w', a⟩, hopen, hx⟩ := Option.map_eq_some_iff.mp hrun
  rw [Prod.mk.injEq] at hx
  obtain ⟨hx, rfl⟩ := hx
  exact ⟨past, w, w', runCalls_history .nil hpast, run_exec _ hopen, hx⟩

/-- A port that was opened, aborted and closed starts clean when it is opened again. -/
theorem an_open_after_a_close_starts_clean :
    ∃ past w w', History sampleCore .start past w ∧
      Exec (World.perform 0) w
        (serialOpen sampleCore (some [67, 79, 77, 51]) (some sampleConfig) none) w'
        (5 : Int64).toInt ∧
      StartsClean sampleCore 5 w' := by
  obtain ⟨past, w, w', hpast, hopen, hnone⟩ := runCalls_open
    [(0, openCall), (1, .serialAbortRead 5 none), (0, .serialClose 5 none)]
    (fun w _ => w.registry.g_handle_states 5) (h := (5 : Int64).toInt) rfl
  have hstale : ¬ Stale w (5 : Int64).toInt := by
    rintro ⟨s, hs, -⟩
    cases hnone.symm.trans hs
  exact ⟨past, w, w', hpast, hopen,
    (an_open_starts_clean_iff_nothing_is_stale sampleCore hpast hopen (by decide)).mpr hstale⟩

/-- An abort on a handle value that was never opened waits for the first read after an open
that returns this value. -/
theorem an_abort_before_the_open_is_kept :
    ¬ ∀ (core : CppCore) (past : List PastCall) (w w' : World) (t : ThreadId)
      (port : Option (List UInt8)) (config : Option SerialConfig) (callback : Callback)
      (handle : Int64), History core .start past w →
        Exec (World.perform t) w (serialOpen core port config callback) w' handle.toInt →
          0 < handle.toInt → StartsClean core handle w' := by
  intro h
  obtain ⟨past, w, w', hpast, hopen, hx⟩ := runCalls_open [(1, .serialAbortRead 5 none)]
    (fun w w' => (w'.registry.g_handle_states 5, w'.flag 0 .kRead)) (h := (5 : Int64).toInt) rfl
  obtain ⟨hentry, hflag⟩ := Prod.mk.inj hx
  obtain ⟨w2, hrun⟩ := oneByteCall_run sampleCore 0
    (show 0 < (5 : Int64).toInt by decide) hentry hflag
  have hclean := h sampleCore past w w' 0 _ _ none 5 hpast hopen (by decide)
  exact hclean.first_transfer .kRead [] w' .nil nofun 0 (oneByteCall 5 .kRead) w2 _ rfl rfl hrun rfl

end cpp_bindings_windows
