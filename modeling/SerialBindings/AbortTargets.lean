-- What an abort cancels when several threads read or write on one handle: the
-- handle state of the abort has one slot for all of them.
import SerialBindings.Slots

open programs

namespace cpp_bindings_windows

/-! ## The requests on a handle -/

/-- The handle of the request that each thread registered last. -/
def requestHandle : List ApiLabel → ThreadId → Option HANDLE :=
  List.foldl (fun f l => match l with
    | .did t (.startPendingIo _ _ request) (start, _) =>
      if start.aborted then f else Function.update f t (some request.handle)
    | _ => f) (fun _ => none)

/-- The thread has registered a request of `o` on the handle, and has not finished it. -/
def InFlightOn (ls : List ApiLabel) (t : ThreadId) (handle : HANDLE) (o : Operation) : Prop :=
  (∃ state, InFlight ls t state o) ∧ requestHandle ls t = some handle

theorem requestHandle_snoc (ls : List ApiLabel) (l : ApiLabel) :
    requestHandle (ls ++ [l]) = match l with
      | .did t (.startPendingIo _ _ request) (start, _) =>
        if start.aborted then requestHandle ls
        else Function.update (requestHandle ls) t (some request.handle)
      | _ => requestHandle ls := by
  unfold requestHandle
  rw [List.foldl_append]
  rfl

theorem requestHandle_did (ls : List ApiLabel) (t : ThreadId) {e : Action} (r : Answer e)
    (he : ∀ state o request, e ≠ .startPendingIo state o request) :
    requestHandle (ls ++ [.did t e r]) = requestHandle ls := by
  rw [requestHandle_snoc]
  split
  · rename_i h
    cases h
    exact absurd rfl (he _ _ _)
  · rfl

theorem requestHandle_other {t t' : ThreadId} (ls : List ApiLabel) {e : Action} (r : Answer e)
    (h : t' ≠ t) : requestHandle (ls ++ [.did t e r]) t' = requestHandle ls t' := by
  by_cases he : ∃ state o request, e = .startPendingIo state o request
  · obtain ⟨state, o, request, rfl⟩ := he
    rw [requestHandle_snoc]
    dsimp only
    split
    · rfl
    · rw [Function.update_of_ne h]
  · rw [requestHandle_did ls t r fun state o request heq => he ⟨state, o, request, heq⟩]

/-! ## The protocol of a call -/

/-- A call with the context that it acquired. -/
structure Addressed where
  call : ApiCall
  context : Option HandleContext := none

namespace Addressed

/-- A request and an abort are on the handle and on the state of the same context, and the
handle of an abort is the argument of its call. -/
def allows (g : Addressed) : Action → Prop
  | .startPendingIo state _ request => g.context = some ⟨request.handle, state⟩
  | .cancelPending handle state operation =>
    g.context = some ⟨handle, state⟩ ∧ g.call.aborts = some operation ∧
      g.call.handle.map Int64.toInt = some handle
  | _ => True

def next (g : Addressed) : (action : Action) → Answer action → Option Addressed
  | .ensureHandleState handle, state => some { g with context := some ⟨handle, state⟩ }
  | _, _ => some g

end Addressed

def addressing : Protocol Action Answer Addressed := ⟨Addressed.allows, Addressed.next⟩

/-- The actions that name no context. -/
def Action.Unaddressed : Action → Prop
  | .startPendingIo .. => False
  | .cancelPending .. => False
  | .ensureHandleState _ => False
  | _ => True

theorem Action.Quiet.unaddressed {e : Action} (h : e.Quiet) : e.Unaddressed := by
  cases e <;> trivial

theorem addressing_unaddressed {e : Action} (h : e.Unaddressed) (g : Addressed) (r : Answer e) :
    addressing.allows g e ∧ addressing.next g e r = some g := by
  cases e <;> first | exact h.elim | exact ⟨trivial, rfl⟩

theorem addressing_ignores {e : Action} (h : e.Unaddressed) : addressing.Ignores e := by
  intro g
  refine ⟨?_, fun r g' hn => ?_⟩
  · cases e <;> first | exact h.elim | trivial
  · rw [(addressing_unaddressed h g r).2] at hn
    cases hn
    rfl

theorem addressing_silent (e : Action) (h : e.Silent) : addressing.Ignores e :=
  addressing_ignores h.quiet.unaddressed

/-- The request of a chunk is on the context of the chunk. -/
theorem addressing_chunk {context : HandleContext} {o : Operation} {g : Addressed}
    (hg : g.context = some context) (e : Action) (he : e.OfChunk context o) :
    addressing.Passes g e := by
  by_cases hun : e.Unaddressed
  · exact addressing_ignores hun g
  · cases e with
    | startPendingIo state operation request =>
      obtain ⟨hstate, -, hhandle⟩ := he
      refine ⟨?_, fun r g' hn => ?_⟩
      · simp only [addressing, Addressed.allows]
        rw [hg, hstate, hhandle]
      · cases hn
        rfl
    | cancelPending handle state operation => exact he.elim
    | ensureHandleState handle => exact he.elim
    | _ => exact absurd trivial hun

def addressed (core : CppCore) (o : Operation) : TransferOutline core addressing o where
  entry _ _ := True
  ready context _ g := g.context = some context
  counted context _ _ g := g.context = some context
  result _ _ := True
  silent := addressing_silent
  refuses _ _ := trivial
  acquires := by
    intro handle g _ _
    refine ⟨trivial, fun state g' hn => ?_⟩
    cases hn
    rfl
  stops _ := trivial
  fails _ _ := trivial
  chunk := by
    intro context total size timeout_ms g h _ _
    refine follows_of_passes (transferChunk_within core context o total size timeout_ms)
      (addressing_chunk h) fun result _ => ?_
    cases result.outcome with
    | kCompleted => exact ⟨fun _ => trivial, fun _ => h⟩
    | kError => exact fun _ _ => trivial
    | _ => trivial
  notes := by
    intro context total n g h _
    refine follows_of_within (noteBytesTransferred_within context.state o n)
      (fun e he => ?_) fun _ _ => h
    apply addressing_ignores
    rcases he with he | he
    · exact he.unaddressed
    · cases e <;> trivial

/-- Every call follows the protocol. -/
theorem program_addressed (core : CppCore) (c : ApiCall) :
    Follows addressing (fun _ _ => True) (c.program core) { call := c } := by
  have habort : ∀ o handle callback, c.aborts = some o → c.handle = some handle →
      Follows addressing (fun _ _ => True) (abortCall core o handle callback) { call := c } := by
    intro o handle callback ho hhandle
    refine abortCall_follows addressing_silent trivial (fun _ => trivial) fun state g1 h1 => ?_
    cases h1
    refine ⟨trivial, fun g2 h2 => ?_⟩
    cases h2
    refine ⟨⟨rfl, ho, ?_⟩, fun g3 _ => trivial⟩
    rw [hhandle]
    rfl
  cases c with
  | serialOpen port config callback =>
    refine serialOpen_follows addressing_silent (fun _ => trivial) (fun _ => trivial)
      (fun _ _ _ _ _ _ => trivial) (fun _ _ _ _ _ _ => ?_) fun _ _ _ _ _ => ?_
    · exact ⟨trivial, fun _ _ _ _ => trivial⟩
    · exact ⟨trivial, fun _ _ _ => trivial⟩
  | serialClose handle callback =>
    refine serialClose_follows addressing_silent (fun _ => trivial) (fun _ => trivial)
      (fun _ _ _ => trivial) fun _ _ _ => ?_
    exact ⟨trivial, fun _ _ => trivial⟩
  | transfer handle timeout_config callback call =>
    exact TransferOutline.program_follows (addressed core) handle timeout_config callback call
      trivial
  | serialAbortRead handle callback => exact habort .kRead handle callback rfl rfl
  | serialAbortWrite handle callback => exact habort .kWrite handle callback rfl rfl
  | onState handle callback call =>
    refine call.program_follows (fun e he => ?_) trivial (fun _ => trivial)
      fun _ _ _ _ => trivial
    rcases he with he | ⟨state, operation, rfl⟩
    · exact addressing_silent e he
    · exact addressing_ignores trivial
  | onLine handle callback call =>
    exact call.program_follows addressing_silent fun _ => trivial

/-! ## Every state belongs to one handle -/

/-- A handle state belongs to one handle: to the one under which it is registered, and to the
one of every call that works on it. -/
structure Belongs (ls : List ApiLabel) (gs : ThreadId → Option (ApiCall × Addressed)) (w : World)
    (owner : StateRef → HANDLE) : Prop where
  registered : ∀ handle s, w.registry.g_handle_states handle = some s → owner s = handle
  inside : ∀ t c g, gs t = some (c, g) → running ls t = some c ∧ g.call = c ∧
    acquired ls t = g.context.map HandleContext.state ∧ ∀ context, g.context = some context →
      owner context.state = context.handle ∧ context.state < w.registry.next
  requests : ∀ t s o, InFlight ls t s o →
    requestHandle ls t = some (owner s) ∧ s < w.registry.next

section Steps

variable {ls : List ApiLabel} {gs : ThreadId → Option (ApiCall × Addressed)} {w w' : World}
  {owner owner' : StateRef → HANDLE} {t : ThreadId} {c : ApiCall} {g g' : Addressed}

/-- The rule for an action of a thread, when the states that were there keep their owners. -/
theorem Belongs.did {e : Action} {r : Answer e} (h : Belongs ls gs w owner)
    (hg : gs t = some (c, g)) (hnext : w.registry.next ≤ w'.registry.next)
    (howner : ∀ s, s < w.registry.next → owner' s = owner s)
    (hregistered : ∀ handle s, w'.registry.g_handle_states handle = some s → owner' s = handle)
    (hcall : g'.call = g.call)
    (hacquired : acquired (ls ++ [.did t e r]) t = g'.context.map HandleContext.state)
    (hcontext : ∀ context, g'.context = some context →
      owner' context.state = context.handle ∧ context.state < w'.registry.next)
    (hrequests : ∀ s o, InFlight (ls ++ [.did t e r]) t s o →
      requestHandle (ls ++ [.did t e r]) t = some (owner' s) ∧ s < w'.registry.next) :
    Belongs (ls ++ [.did t e r]) (Function.update gs t (some (c, g'))) w' owner' := by
  obtain ⟨hrun, hc, -⟩ := h.inside t c g hg
  refine ⟨hregistered, ?_, fun t' s o hfl => ?_⟩
  · rw [running_did]
    refine forall_inside (fun t' c' g0 ht hg0 => ?_) ⟨hrun, hcall.trans hc, hacquired, hcontext⟩
    obtain ⟨hrun', hc', hacquired', hcontext'⟩ := h.inside t' c' g0 hg0
    refine ⟨hrun', hc', by rw [acquired_other ls r ht, hacquired'], fun context hx => ?_⟩
    obtain ⟨hown, hlt⟩ := hcontext' context hx
    exact ⟨by rw [howner _ hlt, hown], Nat.lt_of_lt_of_le hlt hnext⟩
  · by_cases ht : t' = t
    · subst ht
      exact hrequests s o hfl
    · rw [InFlight, frames_other ht] at hfl
      obtain ⟨hrequest, hlt⟩ := h.requests t' s o hfl
      rw [requestHandle_other ls r ht, howner s hlt]
      exact ⟨hrequest, Nat.lt_of_lt_of_le hlt hnext⟩

/-- No action but a start registers a request. -/
theorem inFlight_of_did {e : Action} {r : Answer e} {s : StateRef} {o : Operation}
    (he : ∀ state operation request, e ≠ .startPendingIo state operation request)
    (h : InFlight (ls ++ [.did t e r]) t s o) : InFlight ls t s o := by
  rw [InFlight, frames_self] at h
  by_cases hk : e.KeepsRequests
  · rw [(Frame.after_keeps hk _ r).1] at h
    exact h
  · cases e with
    | startPendingIo state operation request => exact absurd rfl (he _ _ _)
    | finishPendingIo state operation => cases h
    | _ => exact absurd trivial hk

/-- A call gets the state of a handle. A new state belongs to that handle. -/
theorem Belongs.ensureHandleState {handle : HANDLE} {s : StateRef} (h : Belongs ls gs w owner)
    (hg : gs t = some (c, g)) (hw : w.perform t (.ensureHandleState handle) s = some w') :
    ∃ owner', Belongs (ls ++ [.did t (.ensureHandleState handle) s])
      (Function.update gs t (some (c, { g with context := some ⟨handle, s⟩ }))) w' owner' := by
  have hstart : ∀ state o request,
      Action.ensureHandleState handle ≠ .startPendingIo state o request := fun _ _ _ => by simp
  have hacquired : acquired (ls ++ [.did t (.ensureHandleState handle) s]) t =
      (some (⟨handle, s⟩ : HandleContext)).map HandleContext.state := by
    rw [acquired_ensure, Function.update_self]
    rfl
  have hreg := World.perform_ensure_registers hw
  rcases World.perform_ensure hw with ⟨hs, rfl⟩ | ⟨-, hs, hhandles, -, hnext, -⟩
  · refine ⟨owner, h.did hg (Nat.le_refl _) (fun _ _ => rfl) h.registered rfl hacquired ?_ ?_⟩
    · intro context hx
      cases hx
      exact ⟨h.registered _ _ hs, w'.registry.made _ _ hs⟩
    · intro s' o hfl
      rw [requestHandle_did ls t s hstart]
      exact h.requests t s' o (inFlight_of_did hstart hfl)
  · have hlt : ∀ {s'}, s' < w.registry.next → s' ≠ s := fun h' => hs ▸ Nat.ne_of_lt h'
    have hs' : s < w'.registry.next := by
      rw [hnext]
      exact Nat.lt_succ_self s
    have hle : w.registry.next ≤ w'.registry.next := hs ▸ Nat.le_of_lt hs'
    refine ⟨Function.update owner s handle, h.did hg hle
      (fun s' h' => Function.update_of_ne (hlt h') _ _) (fun handle' s' hx => ?_) rfl hacquired
      (fun context hx => ?_) fun s' o hfl => ?_⟩
    · rw [hhandles] at hx
      by_cases hh : handle' = handle
      · rw [hh, Function.update_self] at hx
        cases hx
        rw [Function.update_self, hh]
      · rw [Function.update_of_ne hh] at hx
        rw [Function.update_of_ne (hlt (w.registry.made _ _ hx))]
        exact h.registered _ _ hx
    · cases hx
      exact ⟨Function.update_self .., hs'⟩
    · obtain ⟨hrequest, hlt'⟩ := h.requests t s' o (inFlight_of_did hstart hfl)
      rw [requestHandle_did ls t s hstart, Function.update_of_ne (hlt hlt')]
      exact ⟨hrequest, Nat.lt_of_lt_of_le hlt' hle⟩

/-- Any other action takes an entry away at most. -/
theorem Belongs.keep {e : Action} {r : Answer e} (h : Belongs ls gs w owner)
    (hg : gs t = some (c, g)) (he : ∀ handle, e ≠ .ensureHandleState handle)
    (hnext : w'.registry.next = w.registry.next)
    (hentries : ∀ handle s, w'.registry.g_handle_states handle = some s →
      w.registry.g_handle_states handle = some s)
    (hrequests : ∀ s o, InFlight (ls ++ [.did t e r]) t s o →
      requestHandle (ls ++ [.did t e r]) t = some (owner s) ∧ s < w.registry.next) :
    Belongs (ls ++ [.did t e r]) (Function.update gs t (some (c, g))) w' owner := by
  obtain ⟨-, -, hacquired, hcontext⟩ := h.inside t c g hg
  refine h.did hg (Nat.le_of_eq hnext.symm) (fun _ _ => rfl)
    (fun handle s hs => h.registered handle s (hentries handle s hs)) rfl ?_ ?_ ?_
  · rw [acquired_did ls t r he, hacquired]
  · rw [hnext]
    exact hcontext
  · rw [hnext]
    exact hrequests

/-- A call registers a request on its context. -/
theorem Belongs.startPendingIo {s : StateRef} {o : Operation} {request : Request}
    {start : PendingIoStart} {transferred : DWORD} (h : Belongs ls gs w owner)
    (hg : gs t = some (c, g)) (hcontext : g.context = some ⟨request.handle, s⟩)
    (hw : w.perform t (.startPendingIo s o request) (start, transferred) = some w') :
    Belongs (ls ++ [.did t (.startPendingIo s o request) (start, transferred)])
      (Function.update gs t (some (c, g))) w' owner := by
  obtain ⟨hsame, -⟩ := World.perform_start hw
  obtain ⟨-, -, -, hcontext'⟩ := h.inside t c g hg
  obtain ⟨hown, hlt⟩ := hcontext' _ hcontext
  refine h.keep hg (fun _ => by simp) hsame.next (fun _ _ hs => by rwa [hsame.handles] at hs) ?_
  intro s' o' hfl
  rw [InFlight, frames_self] at hfl
  rw [requestHandle_snoc]
  simp only [Frame.after] at hfl ⊢
  split at hfl
  · rename_i haborted
    rw [if_pos haborted]
    exact h.requests t s' o' hfl
  · rename_i haborted
    cases hfl
    rw [if_neg haborted, Function.update_self, hown]
    exact ⟨rfl, hlt⟩

/-- One action of a thread. -/
theorem Belongs.perform {e : Action} {r : Answer e} (h : Belongs ls gs w owner)
    (hg : gs t = some (c, g)) (hallows : addressing.allows g e) (hw : w.perform t e r = some w') :
    ∃ g', addressing.next g e r = some g' ∧ ∃ owner',
      Belongs (ls ++ [.did t e r]) (Function.update gs t (some (c, g'))) w' owner' := by
  have hkeep : (∀ handle, e ≠ .ensureHandleState handle) →
      (∀ state o request, e ≠ .startPendingIo state o request) →
      w'.registry.next = w.registry.next →
      (∀ handle s, w'.registry.g_handle_states handle = some s →
        w.registry.g_handle_states handle = some s) →
      Belongs (ls ++ [.did t e r]) (Function.update gs t (some (c, g))) w' owner := by
    intro hensure hstart hnext hentries
    refine h.keep hg hensure hnext hentries fun s o hfl => ?_
    rw [requestHandle_did ls t r hstart]
    exact h.requests t s o (inFlight_of_did hstart hfl)
  have hsame : w.SameHandles w' → (∀ handle, e ≠ .ensureHandleState handle) →
      (∀ state o request, e ≠ .startPendingIo state o request) →
      Belongs (ls ++ [.did t e r]) (Function.update gs t (some (c, g))) w' owner :=
    fun hs hensure hstart => hkeep hensure hstart hs.next fun _ _ hx => by rwa [hs.handles] at hx
  cases e using Action.byWatch with
  | unwatched e hun =>
    have hu := (World.perform_unwatched hun hw).toSameHandles
    have hensure : ∀ handle, e ≠ .ensureHandleState handle := by
      rintro handle rfl
      exact (hun.elim id (Or.elim · id id)).elim
    have hstart : ∀ state o request, e ≠ .startPendingIo state o request := by
      rintro state o request rfl
      exact (hun.elim id (Or.elim · id id)).elim
    refine ⟨g, ?_, owner, hsame hu hensure hstart⟩
    cases e <;> first | rfl | exact (hun.elim id (Or.elim · id id)).elim
  | ensureHandleState handle => exact ⟨_, rfl, h.ensureHandleState hg hw⟩
  | removeHandleState handle =>
    cases hw
    refine ⟨g, rfl, owner, hkeep (fun _ => by simp) (fun _ _ _ => by simp) rfl fun h' s hs => ?_⟩
    by_cases hh : h' = handle
    · rw [hh] at hs
      rw [Registry.removeHandleState_self] at hs
      cases hs
    · rwa [Registry.removeHandleState_of_ne _ hh] at hs
  | storeAbort s o =>
    exact ⟨g, rfl, owner, hsame (World.perform_store hw).1 (fun _ => by simp)
      fun _ _ _ => by simp⟩
  | cancelPending handle s o =>
    have hregistry := (World.perform_cancel hw).1
    exact ⟨g, rfl, owner, hsame ⟨by rw [hregistry], by rw [hregistry]⟩ (fun _ => by simp)
      fun _ _ _ => by simp⟩
  | startPendingIo s o request => exact ⟨g, rfl, owner, h.startPendingIo hg hallows hw⟩
  | finishPendingIo s o =>
    exact ⟨g, rfl, owner, hsame (World.perform_finish hw).1 (fun _ => by simp)
      fun _ _ _ => by simp⟩
  | cancelIoEx handle =>
    cases hw
    exact ⟨g, rfl, owner, hsame ⟨rfl, rfl⟩ (fun _ => by simp) fun _ _ _ => by simp⟩
  | getOverlappedResult handle wait =>
    rw [(World.perform_result hw).1] at hsame hkeep ⊢
    exact ⟨g, rfl, owner, hsame ⟨rfl, rfl⟩ (fun _ => by simp) fun _ _ _ => by simp⟩

theorem Belongs.enter (h : Belongs ls gs w owner) (c : ApiCall) :
    Belongs (ls ++ [.enter t c]) (Function.update gs t (some (c, { call := c }))) w owner := by
  refine ⟨h.registered, ?_, fun t' s o hfl => ?_⟩
  · refine forall_inside (fun t' c' g0 ht hg0 => ?_) ?_
    · rw [running_enter, acquired_enter, Function.update_of_ne ht, Function.update_of_ne ht]
      exact h.inside t' c' g0 hg0
    · rw [running_enter, acquired_enter, Function.update_self, Function.update_self]
      exact ⟨rfl, rfl, rfl, fun context hx => by cases hx⟩
  · rw [requestHandle_snoc]
    rw [InFlight, frames_enter] at hfl
    by_cases ht : t' = t
    · rw [ht, Function.update_self] at hfl
      cases hfl
    · rw [Function.update_of_ne ht] at hfl
      exact h.requests t' s o hfl

theorem Belongs.leave {a : Int} (h : Belongs ls gs w owner) :
    Belongs (ls ++ [.leave t c a]) (Function.update gs t none) w owner := by
  refine ⟨h.registered, fun t' c' g0 hg0 => ?_, fun t' s o hfl => ?_⟩
  · obtain ⟨ht, hg0⟩ := stays_inside hg0
    rw [running_leave, acquired_leave, Function.update_of_ne ht]
    exact h.inside t' c' g0 hg0
  · rw [requestHandle_snoc]
    rw [InFlight, frames_leave] at hfl
    exact h.requests t' s o hfl

end Steps

def addressedOutline (core : CppCore) (ok : List ApiLabel → World → ApiLabel → Prop) :
    Outline (process core) ok World.start addressing where
  start c := { call := c }
  post _ _ _ := True
  inv ls gs w := ∃ owner, Belongs ls gs w owner
  follows := program_addressed core
  init := by
    refine ⟨fun _ => 0, fun handle s hs => ?_, fun t c g hg => ?_, fun t s o hfl => ?_⟩
    · cases hs
    · cases hg
    · cases hfl
  enter := by
    rintro ls gs w t c w' ⟨owner, h⟩ hg hw -
    cases hw
    exact ⟨owner, h.enter c⟩
  did := by
    rintro ls gs w t c g e r w' ⟨owner, h⟩ hg hallows hw -
    exact h.perform hg hallows hw
  leave := by
    rintro ls gs w t c g a w' ⟨owner, h⟩ hg - hw -
    cases hw
    exact ⟨owner, h.leave⟩

/-! ## What an abort cancels -/

/-- The request on which the locked section of `requestAbort` calls `CancelIoEx`. -/
def World.canceledBy (w : World) : Action → Option ThreadId
  | .cancelPending _ state operation => w.slot state operation
  | _ => none

/-- From `w` to `w'` only `CancelIoEx` was called, on the request `target` if there is one. -/
def World.CancelsOnly (w w' : World) (target : Option ThreadId) : Prop :=
  w'.registry = w.registry ∧ w'.cancelled = match target with
    | some overlapped => Function.update w.cancelled overlapped true
    | none => w.cancelled

theorem World.perform_cancelPending {t : ThreadId} {w w' : World} {handle : HANDLE}
    {state : StateRef} {o : Operation}
    (h : w.perform t (.cancelPending handle state o) () = some w') :
    w.CancelsOnly w' (w.canceledBy (.cancelPending handle state o)) := by
  have htarget : w.canceledBy (.cancelPending handle state o) =
      (w.registry.states state).pendingOperation o := rfl
  simp only [World.perform] at h
  rw [htarget]
  split at h
  · rename_i overlapped hs
    cases h
    rw [hs]
    exact ⟨rfl, rfl⟩
  · rename_i hs
    cases h
    rw [hs]
    exact ⟨rfl, rfl⟩

/-- What the locked section of an abort finds: it is inside a call that aborts `o` on the
handle, with the state that this call acquired, and all requests on that state are on the
handle. -/
theorem abort_addressed (core : CppCore) {ls : List ApiLabel}
    {s s' : Sys ThreadId Action Answer ApiCall Int World}
    (h : Runs (process core) always World.start ls s) {u : ThreadId} {handle : HANDLE}
    {state : StateRef} {o : Operation}
    (hstep : Step (process core) s (.did u (.cancelPending handle state o) ()) s') :
    (∃ c, running ls u = some c ∧ c.aborts = some o ∧ c.handle.map Int64.toInt = some handle) ∧
      acquired ls u = some state ∧
      ∀ t, InFlight ls t state o → InFlightOn ls t handle o := by
  obtain ⟨gs, ⟨owner, hb⟩, hm⟩ := (addressedOutline core always).runs h
  cases hstep with
  | did hthread _ =>
    obtain ⟨g, hg, hallows, -⟩ := Outline.some_of_some hm hthread
    obtain ⟨hcontext, haborts, hhandle⟩ := hallows
    obtain ⟨hrun, hcall, hacquired, hcontexts⟩ := hb.inside u _ g hg
    rw [hcall] at haborts hhandle
    rw [hcontext] at hacquired
    refine ⟨⟨_, hrun, haborts, hhandle⟩, hacquired, fun t hfl => ⟨⟨state, hfl⟩, ?_⟩⟩
    rw [(hb.requests t state o hfl).1, (hcontexts _ hcontext).1]

/-- The locked section of an abort on a handle cancels the request that was registered last on
the state that the abort acquired, if that one is in flight, and nothing otherwise. So it
cancels a request on the handle whenever one is in flight there, exactly if that last one is
in flight then. -/
theorem an_abort_cancels_iff_the_last_is_in_flight (core : CppCore) {ls : List ApiLabel}
    {s s' : Sys ThreadId Action Answer ApiCall Int World}
    (h : Runs (process core) always World.start ls s) {u : ThreadId} {handle : HANDLE}
    {state : StateRef} {o : Operation}
    (hstep : Step (process core) s (.did u (.cancelPending handle state o) ()) s') :
    ((∃ c, running ls u = some c ∧ c.aborts = some o ∧
        c.handle.map Int64.toInt = some handle) ∧ acquired ls u = some state) ∧
      s.shared.CancelsOnly s'.shared (s.shared.canceledBy (.cancelPending handle state o)) ∧
      (((∃ t, InFlightOn ls t handle o) → ∃ t, InFlightOn ls t handle o ∧
          s.shared.canceledBy (.cancelPending handle state o) = some t) ↔
        ((∃ t, InFlightOn ls t handle o) → ∃ t, InFlight ls t state o ∧
          lastRegistered ls state o = some t)) := by
  obtain ⟨hcall, hacquired, hon⟩ := abort_addressed core h hstep
  obtain ⟨gs, hi, -⟩ := (flightOutline core always).runs h
  refine ⟨⟨hcall, hacquired⟩, ?_, imp_congr_right fun _ => exists_congr fun t => ?_⟩
  · cases hstep with
    | @did _ _ _ _ _ w' _ hw =>
      have hw : s.shared.perform u (.cancelPending handle state o) () = some w' := hw
      exact World.perform_cancelPending hw
  have hslot : s.shared.canceledBy (.cancelPending handle state o) = some t ↔
      lastRegistered ls state o = some t ∧ InFlight ls t state o := hi.slot state o t
  rw [hslot]
  constructor
  · rintro ⟨-, hlast, hfl⟩
    exact ⟨hfl, hlast⟩
  · rintro ⟨hfl, hlast⟩
    exact ⟨hon t hfl, hlast, hfl⟩

/-- Thread 0 reads from the handle 5 and waits, and thread 1 is about to enter the locked
section of `serialAbortRead`. -/
def abortOfOneReader : List ApiMove :=
  [.enter 0 (.transfer 5 (some ⟨100, 1⟩) none (.serialRead (some 1) 1))] ++ ApiMove.acts 0 6 ++
  [.enter 1 (.serialAbortRead 5 none)] ++ ApiMove.acts 1 3

/-- The only read is the last one, and the abort cancels it. -/
theorem an_abort_cancels_the_only_read :
    ∃ ls s s', Runs (process sampleCore) always World.start ls s ∧
      Step (process sampleCore) s (.did 1 (.cancelPending 5 0 .kRead) ()) s' ∧
      s.shared.canceledBy (.cancelPending 5 0 .kRead) = some 0 ∧ InFlightOn ls 0 5 .kRead ∧
      ((∃ c, running ls 1 = some c ∧ c.aborts = some .kRead ∧
        c.handle.map Int64.toInt = some 5) ∧ acquired ls 1 = some 0) ∧
      s.shared.CancelsOnly s'.shared (s.shared.canceledBy (.cancelPending 5 0 .kRead)) ∧
      (((∃ t, InFlightOn ls t 5 .kRead) → ∃ t, InFlightOn ls t 5 .kRead ∧
          s.shared.canceledBy (.cancelPending 5 0 .kRead) = some t) ↔
        ((∃ t, InFlightOn ls t 5 .kRead) → ∃ t, InFlight ls t 0 .kRead ∧
          lastRegistered ls 0 .kRead = some t)) := by
  obtain ⟨ls, s, hr, hx⟩ :=
    Sys.moves_exists (process sampleCore) always World.start abortOfOneReader
      (fun ls s => (s.shared.canceledBy (.cancelPending 5 0 .kRead),
        ((frames ls 0).registered, requestHandle ls 0),
        (s.move (process sampleCore) (.act 1 World.answer)).map Prod.fst))
      (x := (some 0, (some (0, .kRead), some 5), some (.did 1 (.cancelPending 5 0 .kRead) ()))) rfl
  obtain ⟨hslot, hx⟩ := Prod.mk.inj hx
  obtain ⟨hflight, hmove⟩ := Prod.mk.inj hx
  obtain ⟨hregistered, hhandle⟩ := Prod.mk.inj hflight
  obtain ⟨⟨l, s'⟩, hmove, rfl⟩ := Option.map_eq_some_iff.mp hmove
  have hstep := Sys.move_step hmove
  exact ⟨ls, s, s', hr, hstep, hslot, ⟨⟨0, hregistered⟩, hhandle⟩,
    an_abort_cancels_iff_the_last_is_in_flight sampleCore hr hstep⟩

/-- Thread 0 reads from the handle 5 and waits. Thread 1 reads too, and its wait ends with a
timeout. Then thread 2 is about to enter the locked section of `serialAbortRead`. -/
def abortAfterASecondReader : List ApiMove :=
  [.enter 0 (.transfer 5 (some ⟨100, 1⟩) none (.serialRead (some 1) 1))] ++ ApiMove.acts 0 6 ++
  [.enter 1 (.transfer 5 (some ⟨100, 1⟩) none (.serialRead (some 1) 1))] ++ ApiMove.acts 1 10 ++
  [.enter 2 (.serialAbortRead 5 none)] ++ ApiMove.acts 2 3

/-- The finish of the second read has cleared the slot, so the abort cancels nothing while the
first read still waits. -/
theorem an_abort_misses_the_first_of_two_reads :
    ¬ ∀ core ls s s' u handle state o, Runs (process core) always World.start ls s →
      Step (process core) s (.did u (.cancelPending handle state o) ()) s' →
      (∃ t, InFlightOn ls t handle o) → ∃ t, InFlightOn ls t handle o ∧
        s.shared.canceledBy (.cancelPending handle state o) = some t := by
  intro hall
  obtain ⟨ls, s, hr, hx⟩ :=
    Sys.moves_exists (process sampleCore) always World.start abortAfterASecondReader
      (fun ls s => (((frames ls 0).registered, requestHandle ls 0),
        s.shared.canceledBy (.cancelPending 5 0 .kRead),
        (s.move (process sampleCore) (.act 2 World.answer)).map Prod.fst))
      (x := ((some (0, .kRead), some 5), none,
        some (.did 2 (.cancelPending 5 0 .kRead) ()))) rfl
  obtain ⟨hflight, hx⟩ := Prod.mk.inj hx
  obtain ⟨hregistered, hhandle⟩ := Prod.mk.inj hflight
  obtain ⟨hnone, hmove⟩ := Prod.mk.inj hx
  obtain ⟨⟨l, s'⟩, hmove, rfl⟩ := Option.map_eq_some_iff.mp hmove
  obtain ⟨t, -, ht⟩ := hall _ ls s s' _ _ _ _ hr (Sys.move_step hmove)
    ⟨0, ⟨0, hregistered⟩, hhandle⟩
  rw [hnone] at ht
  cases ht

end cpp_bindings_windows
