-- The protocol of handle values for one call: which handle value the call
-- holds, from the moment Windows gives it until the call hands it on, closes
-- it, or takes its entry out of the registry.
import SerialBindings.Process
import SerialBindings.TransferOutline

open programs

namespace cpp_bindings_windows

/-- What a call holds. A `raw` port is not registered yet, and `removing` is a port that is
closed with its entry still to go. -/
inductive Holding
  | nothing
  | event (h : HANDLE)
  | raw (h : HANDLE)
  | registered (h : HANDLE) (s : StateRef)
  | closing (h : HANDLE)
  | removing (h : HANDLE)
  deriving DecidableEq

namespace Holding

/-- The handle value that is open and in the hands of the call. -/
def object : Holding → Option HANDLE
  | .event h | .raw h | .registered h _ | .closing h => some h
  | .nothing | .removing _ => none

end Holding

structure Tenant where
  call : ApiCall
  holds : Holding := .nothing

namespace Tenant

/-- The start of a call. A close takes over the handle that it closes. -/
def start (c : ApiCall) : Tenant where
  call := c
  holds := match c with
    | .serialClose handle _ => if 0 < handle.toInt then .closing handle.toInt else .nothing
    | _ => .nothing

def allows (g : Tenant) : Action → Prop
  | .createFile _ => g.call.opens = true ∧ g.holds = .nothing
  | .createEvent => g.holds = .nothing
  | .ensureHandleState h =>
    (g.call.opens = true ∧ g.holds = .raw h) ∨ (g.call.opens = false ∧ g.holds = .nothing)
  | .closeHandle h =>
    g.holds = .raw h ∨ g.holds = .event h ∨ (g.holds = .closing h ∧ g.call.closes = true)
  | .removeHandleState h => g.holds = .removing h
  | _ => True

def next (g : Tenant) : (action : Action) → Answer action → Option Tenant
  | .createFile _, h =>
    some (if h = INVALID_HANDLE_VALUE ∨ h = nullHandle then g else { g with holds := .raw h })
  | .createEvent, event =>
    some (match event with | some h => { g with holds := .event h } | none => g)
  | .ensureHandleState h, s =>
    some (if g.call.opens then { g with holds := .registered h s } else g)
  | .closeHandle h, closed =>
    some { g with holds := if closed ∧ g.holds = .closing h then .removing h else .nothing }
  | .removeHandleState _, _ => some { g with holds := .nothing }
  | _, _ => some g

/-- A call hands on nothing, but an open that returns a handle hands on that handle. -/
def Over (c : ApiCall) (g : Tenant) (a : Int) : Prop :=
  if c.opens = true ∧ 0 < a then ∃ s, g.holds = .registered a s else g.holds = .nothing

end Tenant

def tenancy : Protocol Action Answer Tenant := ⟨Tenant.allows, Tenant.next⟩

/-- The actions that have nothing to do with handle values. -/
def Action.Homely (e : Action) : Prop :=
  e.Quiet ∨ e.Counts ∨ match e with
    | .storeAbort _ _ => True
    | .cancelPending _ _ _ => True
    | .startPendingIo _ _ _ => True
    | .finishPendingIo _ _ => True
    | .waitForSingleObject _ _ => True
    | .cancelIoEx _ => True
    | .getOverlappedResult _ _ => True
    | _ => False

theorem tenancy_homely {e : Action} (h : e.Homely) (g : Tenant) (r : Answer e) :
    tenancy.allows g e ∧ tenancy.next g e r = some g := by
  cases e <;> first | exact (h.elim id (Or.elim · id id)).elim | exact ⟨trivial, rfl⟩

theorem tenancy_ignores {e : Action} (h : e.Homely) : tenancy.Ignores e := by
  intro g
  have hg := tenancy_homely h g
  refine ⟨?_, fun r g' hn => ?_⟩
  · cases e <;> first | exact (h.elim id (Or.elim · id id)).elim | trivial
  · rw [(hg r).2] at hn
    cases hn
    rfl

theorem tenancy_quiet (e : Action) (h : e.Quiet) : tenancy.Ignores e := tenancy_ignores (Or.inl h)

/-! ## The transfers -/

theorem Action.OfRequest.homely {context : HandleContext} {o : Operation} {e : Action}
    (h : e.OfRequest context o) : e.Homely := by
  cases e <;> first | exact h.elim | exact Or.inl trivial | exact Or.inr (Or.inr trivial)

/-- A chunk closes its event. -/
theorem transferChunk_tenancy (core : CppCore) (context : HandleContext) (o : Operation)
    (offset size timeout_ms : Int) {g : Tenant} (hg : g.holds = .nothing) :
    Follows tenancy (fun g' _ => g'.call = g.call ∧ g'.holds = .nothing)
      (transferChunk core o context offset size timeout_ms) g := by
  unfold transferChunk
  refine ⟨hg, fun event g1 h1 => ?_⟩
  cases event with
  | none =>
    cases h1
    exact silent_follows (silent_of_quiet tenancy_quiet) trivial fun _ => ⟨rfl, hg⟩
  | some event =>
    cases h1
    dsimp only [Prog.bind]
    refine follows_within_seq (requestChunk_within core context o offset size timeout_ms event)
      (fun _ he => tenancy_ignores he.homely) fun result _ => ?_
    refine ⟨Or.inr (Or.inl rfl), fun closed g2 h2 => ?_⟩
    cases h2
    exact ⟨rfl, if_neg fun h => by cases h.2⟩

/-- A transfer holds nothing but the event of its chunk. -/
def housed (core : CppCore) (o : Operation) : TransferOutline core tenancy o where
  entry _ g := g.call.opens = false ∧ g.holds = .nothing
  ready _ _ g := g.call.opens = false ∧ g.holds = .nothing
  counted _ _ _ g := g.call.opens = false ∧ g.holds = .nothing
  result g _ := g.holds = .nothing
  silent := silent_of_quiet tenancy_quiet
  refuses _ h := h.2
  acquires := by
    intro handle g h _
    refine ⟨Or.inr h, fun state g' hn => ?_⟩
    simp only [tenancy, Tenant.next, h.1, Bool.false_eq_true, if_false] at hn
    cases hn
    exact h
  stops h := h.2
  fails _ h := h.2
  chunk := by
    intro context total size timeout_ms g h _ _
    refine follows_mono (transferChunk_tenancy core context o total size timeout_ms h.2)
      fun g' result hresult => ?_
    obtain ⟨hcall, hholds⟩ := hresult
    cases houtcome : result.outcome with
    | kTimedOut => exact hholds
    | kAborted => exact hholds
    | kError => exact fun _ _ => hholds
    | kCompleted => exact ⟨fun _ => hholds, fun _ => ⟨by rw [hcall]; exact h.1, hholds⟩⟩
  notes := by
    intro context total n g h _
    exact follows_of_within (noteBytesTransferred_within context.state o n)
      (fun _ he => tenancy_ignores (he.elim Or.inl fun hc => Or.inr (Or.inl hc))) fun _ _ => h

/-! ## The other calls -/

theorem Tenant.over_nothing {c : ApiCall} {g : Tenant} {a : Int} (hc : c.opens = false)
    (hg : g.holds = .nothing) : Tenant.Over c g a := by
  unfold Tenant.Over
  rw [if_neg fun h => by rw [hc] at h; cases h.1]
  exact hg

theorem Tenant.over_error {core : CppCore} {c : ApiCall} {g : Tenant} {code : StatusCode}
    (hg : g.holds = .nothing) : Tenant.Over c g (core.value code) := by
  unfold Tenant.Over
  have hneg := core.value_neg code
  rw [if_neg fun h => by omega]
  exact hg

theorem serialOpen_tenancy (core : CppCore) (port : Option (List UInt8))
    (config : Option SerialConfig) (callback : Callback) :
    Follows tenancy (Tenant.Over (.serialOpen port config callback))
      (serialOpen core port config callback) (.start (.serialOpen port config callback)) := by
  refine serialOpen_follows (silent_of_quiet tenancy_quiet) (fun _ => Tenant.over_error rfl)
    (fun _ => ⟨rfl, rfl⟩) ?_ ?_ ?_
  · intro path h g' hn hinvalid code
    simp only [tenancy, Tenant.next, if_pos hinvalid] at hn
    cases hn
    exact Tenant.over_error rfl
  · intro path h g' hn h1 h2
    simp only [tenancy, Tenant.next, if_neg (not_or.mpr ⟨h1, h2⟩)] at hn
    cases hn
    refine ⟨Or.inl rfl, fun closed g'' hn' code => ?_⟩
    cases hn'
    refine Tenant.over_error ?_
    exact if_neg fun h => by cases h.2
  · intro path h g' hn hpos
    have hvalid : ¬ (h = INVALID_HANDLE_VALUE ∨ h = nullHandle) := by
      rintro (rfl | rfl)
      · exact absurd (show (0 : Int) < -1 from hpos) (by decide)
      · exact absurd (show (0 : Int) < 0 from hpos) (by decide)
    simp only [tenancy, Tenant.next, if_neg hvalid] at hn
    cases hn
    refine ⟨Or.inl ⟨rfl, rfl⟩, fun state g'' hn' => ?_⟩
    cases hn'
    unfold Tenant.Over
    rw [if_pos ⟨rfl, hpos⟩]
    exact ⟨state, rfl⟩

theorem serialClose_tenancy (core : CppCore) (handle : Int64) (callback : Callback) :
    Follows tenancy (Tenant.Over (.serialClose handle callback))
      (serialClose core handle callback) (.start (.serialClose handle callback)) := by
  have hstart : 0 < handle.toInt →
      (Tenant.start (.serialClose handle callback)).holds = .closing handle.toInt :=
    fun hpos => if_pos hpos
  refine serialClose_follows (silent_of_quiet tenancy_quiet)
    (fun hneg => Tenant.over_nothing rfl (if_neg (Int.not_lt.mpr hneg)))
    (fun hpos => Or.inr (Or.inr ⟨hstart hpos, rfl⟩)) ?_ ?_
  · intro _ g' hn
    cases hn
    refine Tenant.over_error ?_
    simp only [Bool.false_eq_true, false_and, if_false]
  · intro hpos g' hn
    simp only [tenancy, Tenant.next, hstart hpos, and_self, if_true] at hn
    cases hn
    refine ⟨rfl, fun g'' hn' => ?_⟩
    cases hn'
    exact Tenant.over_nothing rfl rfl

theorem abort_tenancy (core : CppCore) (o : Operation) (handle : Int64) (callback : Callback)
    {c : ApiCall} (hopens : c.opens = false) (hstart : (Tenant.start c).holds = .nothing) :
    Follows tenancy (Tenant.Over c) (abortCall core o handle callback) (.start c) := by
  have hc : (Tenant.start c).call.opens = false := hopens
  refine abortCall_follows (silent_of_quiet tenancy_quiet) (Tenant.over_error hstart)
    (fun _ => Or.inr ⟨hopens, hstart⟩) fun state g1 h1 => ?_
  simp only [tenancy, Tenant.next, hc, Bool.false_eq_true, if_false] at h1
  cases h1
  refine ⟨trivial, fun g2 h2 => ?_⟩
  cases h2
  refine ⟨trivial, fun g3 h3 => ?_⟩
  cases h3
  exact Tenant.over_nothing hopens hstart

/-- Every call follows the protocol of handle values. -/
theorem program_tenancy (core : CppCore) (c : ApiCall) :
    Follows tenancy (Tenant.Over c) (c.program core) (.start c) := by
  cases c with
  | serialOpen port config callback => exact serialOpen_tenancy core port config callback
  | serialClose handle callback => exact serialClose_tenancy core handle callback
  | transfer handle timeout_config callback call =>
    exact follows_mono (TransferOutline.program_follows (housed core) handle timeout_config
      callback call ⟨rfl, rfl⟩) fun g' a h => Tenant.over_nothing rfl h
  | serialAbortRead handle callback => exact abort_tenancy core .kRead handle callback rfl rfl
  | serialAbortWrite handle callback => exact abort_tenancy core .kWrite handle callback rfl rfl
  | onState handle callback call =>
    refine call.program_follows (fun e he => ?_) (Tenant.over_error rfl)
      (fun _ => Or.inr ⟨rfl, rfl⟩) ?_
    · rcases he with he | ⟨state, operation, rfl⟩
      · exact tenancy_quiet e he.quiet
      · exact tenancy_ignores (Or.inr (Or.inl trivial))
    · intro state g' hn a
      cases hn
      exact Tenant.over_nothing rfl rfl
  | onLine handle callback call =>
    exact call.program_follows (silent_of_quiet tenancy_quiet) fun a => Tenant.over_nothing rfl rfl

end cpp_bindings_windows
