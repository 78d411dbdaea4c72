-- The rules for the calls that move no bytes. Each rule says what a protocol
-- has to allow, and what the call returns after each answer.
import SerialBindings.Quiet

open programs

namespace cpp_bindings_windows

variable {G : Type} {P : Protocol Action Answer G} {Q : G → Int → Prop} {core : CppCore} {g : G}

/-- A protocol that ignores the quiet actions ignores the silent ones. -/
theorem silent_of_quiet (h : ∀ e : Action, e.Quiet → P.Ignores e) :
    ∀ e : Action, e.Silent → P.Ignores e := fun e he => h e he.quiet

/-- A report of an error, at the end of a call that returns its code. -/
theorem report_follows {p : Api Int} {code : StatusCode}
    (hsilent : ∀ e : Action, e.Silent → P.Ignores e)
    (hp : Within Action.Reports (· = core.value code) p) (h : Q g (core.value code)) :
    Follows P Q p g :=
  follows_of_within hp (fun e he => hsilent e he.silent) fun _ ha => ha ▸ h

/-- The rule for one silent action. -/
theorem silent_follows {α : Type} {V : G → α → Prop} {e : Action} {k : Answer e → Api α}
    (hsilent : ∀ e : Action, e.Silent → P.Ignores e) (he : e.Silent)
    (h : ∀ r, Follows P V (k r) g) : Follows P V (.act e k) g := by
  refine ⟨(hsilent e he g).1, fun r g' hn => ?_⟩
  rw [(hsilent e he g).2 r g' hn]
  exact h r

/-- The rule for a call that first gets the state of its handle. -/
theorem withHandleContext_follows {handle : Int64} {callback : Callback}
    {body : HandleContext → Api Int} (hsilent : ∀ e : Action, e.Silent → P.Ignores e)
    (hinvalid : handle.toInt ≤ 0 → Q g (core.value .kInvalidHandleError))
    (hbody : 0 < handle.toInt → P.allows g (.ensureHandleState handle.toInt) ∧
      ∀ state g', P.next g (.ensureHandleState handle.toInt) state = some g' →
        Follows P Q (body ⟨handle.toInt, state⟩) g') :
    Follows P Q (withHandleContext core handle callback body) g := by
  unfold withHandleContext acquireHandleContext
  rw [follows_bind]
  refine follows_within_seq (validateWin32Handle_within core callback handle)
    (fun e he => hsilent e he.silent) fun r hr => ?_
  cases r with
  | error status =>
    obtain ⟨rfl, hneg⟩ := hr
    exact hinvalid hneg
  | ok native_handle =>
    obtain ⟨rfl, hpos⟩ := hr
    exact hbody hpos

/-- The rule for an abort: the flag, and then the cancellation of the request. -/
theorem abortCall_follows {o : Operation} {handle : Int64} {callback : Callback}
    (hsilent : ∀ e : Action, e.Silent → P.Ignores e)
    (hinvalid : Q g (core.value .kInvalidHandleError))
    (hensure : 0 < handle.toInt → P.allows g (.ensureHandleState handle.toInt))
    (habort : ∀ state g1, P.next g (.ensureHandleState handle.toInt) state = some g1 →
      P.allows g1 (.storeAbort state o) ∧ ∀ g2, P.next g1 (.storeAbort state o) () = some g2 →
        P.allows g2 (.cancelPending handle.toInt state o) ∧
        ∀ g3, P.next g2 (.cancelPending handle.toInt state o) () = some g3 → Q g3 kSuccess) :
    Follows P Q (abortCall core o handle callback) g := by
  refine withHandleContext_follows hsilent (fun _ => hinvalid) fun hpos => ⟨hensure hpos, ?_⟩
  intro state g1 h1
  obtain ⟨hstore, hcancel⟩ := habort state g1 h1
  refine ⟨hstore, fun _ g2 h2 => ?_⟩
  obtain ⟨hallows, hdone⟩ := hcancel g2 h2
  exact ⟨hallows, fun _ g3 h3 => hdone g3 h3⟩

/-- The actions of the body of a call on the state of its handle. -/
def Action.Looks (e : Action) : Prop := e.Silent ∨ ∃ state operation, e = .loadTotal state operation

theorem failEffective_looks (core : CppCore) (callback : Callback) (code : StatusCode) :
    Within Action.Looks (fun _ => True) (failEffective core callback code) :=
  within_mono (failEffective_within core callback code) (fun _ he => Or.inl he.silent)
    fun _ _ => trivial

/-- The rule for a call on the state of its handle: what it returns is open. -/
theorem StateCall.program_follows {handle : Int64} {callback : Callback} (call : StateCall)
    (hlooks : ∀ e : Action, e.Looks → P.Ignores e)
    (hinvalid : Q g (core.value .kInvalidHandleError))
    (hensure : 0 < handle.toInt → P.allows g (.ensureHandleState handle.toInt))
    (hresult : ∀ state g', P.next g (.ensureHandleState handle.toInt) state = some g' →
      ∀ a, Q g' a) :
    Follows P Q (call.program core handle callback) g := by
  have hbody : ∀ body : HandleContext → Api Int,
      (∀ context, Within Action.Looks (fun _ => True) (body context)) →
      Follows P Q (withHandleContext core handle callback body) g := by
    intro body hb
    refine withHandleContext_follows (fun e he => hlooks e (Or.inl he)) (fun _ => hinvalid)
      fun hpos =>
      ⟨hensure hpos, fun state g' hn => ?_⟩
    exact follows_of_within (hb _) hlooks fun a _ => hresult state g' hn a
  have hfail := failEffective_looks core callback
  cases call with
  | serialInBytesTotal =>
    exact hbody _ fun context => ⟨Or.inr ⟨_, _, rfl⟩, fun _ => trivial⟩
  | serialOutBytesTotal =>
    exact hbody _ fun context => ⟨Or.inr ⟨_, _, rfl⟩, fun _ => trivial⟩
  | serialInBytesWaiting =>
    refine hbody _ fun context => within_seq (within_mono (bytesWaiting_within context.handle)
      (fun _ he => Or.inl he.silent) fun _ hv => hv) fun waiting _ => ?_
    cases waiting with
    | none => exact hfail _
    | some waiting => trivial
  | serialOutBytesWaiting =>
    refine hbody _ fun context => ⟨Or.inl trivial, fun status => ?_⟩
    cases status with
    | none => exact hfail _
    | some status => trivial
  | serialWaitForDrain =>
    refine hbody _ fun context => ⟨Or.inl trivial, fun flushed => ?_⟩
    cases flushed
    · exact hfail _
    · trivial
  | serialClearBufferIn =>
    refine hbody _ fun context => ⟨Or.inl trivial, fun purged => ?_⟩
    cases purged
    · exact hfail _
    · trivial
  | serialClearBufferOut =>
    refine hbody _ fun context => ⟨Or.inl trivial, fun flushed => ?_⟩
    cases flushed
    · exact hfail _
    · refine ⟨Or.inl trivial, fun purged => ?_⟩
      cases purged
      · exact hfail _
      · trivial

/-- The rule for an open. A handle that Windows gave is closed again, or registered and
returned. -/
theorem serialOpen_follows {port : Option (List UInt8)} {config : Option SerialConfig}
    {callback : Callback} (hsilent : ∀ e : Action, e.Silent → P.Ignores e)
    (hfails : ∀ code, Q g (core.value code))
    (hcreate : ∀ path, P.allows g (.createFile path))
    (hnone : ∀ path h g', P.next g (.createFile path) h = some g' →
      h = INVALID_HANDLE_VALUE ∨ h = nullHandle → ∀ code, Q g' (core.value code))
    (hclose : ∀ path h g', P.next g (.createFile path) h = some g' →
      h ≠ INVALID_HANDLE_VALUE → h ≠ nullHandle → P.allows g' (.closeHandle h) ∧
      ∀ closed g'', P.next g' (.closeHandle h) closed = some g'' → ∀ code, Q g'' (core.value code))
    (hensure : ∀ path h g', P.next g (.createFile path) h = some g' → 0 < h →
      P.allows g' (.ensureHandleState h) ∧
      ∀ state g'', P.next g' (.ensureHandleState h) state = some g'' → Q g'' h) :
    Follows P Q (serialOpen core port config callback) g := by
  unfold serialOpen
  refine follows_within_seq (effectiveErrorCallback_within callback)
    (fun e he => hsilent e he.silent) fun callback _ => ?_
  refine follows_within_seq (validate_within core callback _)
    (fun e he => hsilent e he.silent) fun status hstatus => ?_
  split
  · rename_i hneg
    subst hstatus
    split at hneg
    · exact hfails _
    · exact absurd hneg (by decide)
  refine follows_within_seq (utf8ToWide_within port)
    (fun e he => hsilent e (by obtain ⟨bytes, rfl⟩ := he; trivial)) fun port_wide _ => ?_
  split
  · exact report_follows hsilent (failMsg_within core callback _ _) (hfails _)
  refine ⟨hcreate _, fun raw_handle g1 h1 => ?_⟩
  dsimp only [Prog.bind]
  by_cases hraw : raw_handle = INVALID_HANDLE_VALUE ∨ raw_handle = nullHandle
  · rw [if_pos (by rcases hraw with rfl | rfl <;> rfl)]
    exact report_follows hsilent (failWin32_within core callback _) (hnone _ _ _ h1 hraw _)
  obtain ⟨hinv, hnull⟩ := not_or.mp hraw
  rw [if_neg hinv, if_neg hnull]
  obtain ⟨hallows, hclosed⟩ := hclose _ _ _ h1 hinv hnull
  -- a failure after the creation: its code, after the close of the handle
  have hfail : ∀ code message, Follows P Q (do
      let status ← failMsg core callback code message
      let _ ← perform (.closeHandle raw_handle)
      return status) g1 := by
    intro code message
    refine follows_within_seq (failMsg_within core callback code message)
      (fun e he => hsilent e he.silent) fun status hs => ?_
    subst hs
    exact ⟨hallows, fun closed g2 h2 => hclosed closed g2 h2 code⟩
  refine follows_within_seq (applyLineSettings_within raw_handle _)
    (fun e he => hsilent e he.silent) fun failure _ => ?_
  cases failure with
  | some failure => exact hfail _ _
  | none =>
    refine silent_follows hsilent trivial fun _ => ?_
    dsimp only [Prog.bind]
    split
    · exact hfail _ _
    · rename_i hpos
      obtain ⟨hens, hdone⟩ := hensure _ _ _ h1 (Int.not_le.mp hpos)
      exact ⟨hens, fun state g2 h2 => hdone state g2 h2⟩

/-- The rule for a close: the entry of the registry goes after the handle is closed. -/
theorem serialClose_follows {handle : Int64} {callback : Callback}
    (hsilent : ∀ e : Action, e.Silent → P.Ignores e) (hnothing : handle.toInt ≤ 0 → Q g 0)
    (hclose : 0 < handle.toInt → P.allows g (.closeHandle handle.toInt))
    (hfail : 0 < handle.toInt → ∀ g', P.next g (.closeHandle handle.toInt) false = some g' →
      Q g' (core.value .kCloseHandleError))
    (hremove : 0 < handle.toInt → ∀ g', P.next g (.closeHandle handle.toInt) true = some g' →
      P.allows g' (.removeHandleState handle.toInt) ∧
      ∀ g'', P.next g' (.removeHandleState handle.toInt) () = some g'' → Q g'' kSuccess) :
    Follows P Q (serialClose core handle callback) g := by
  unfold serialClose
  split
  · rename_i hneg
    exact hnothing hneg
  rename_i hpos
  refine follows_within_seq (validateWin32Handle_within core callback handle)
    (fun e he => hsilent e he.silent) fun r hr => ?_
  cases r with
  | error status => exact absurd hr.2 hpos
  | ok native_handle =>
    obtain ⟨rfl, hpos⟩ := hr
    refine ⟨hclose hpos, fun closed g1 h1 => ?_⟩
    cases closed
    · dsimp only [Prog.bind]
      refine follows_within_seq (effectiveErrorCallback_within callback)
        (fun e he => hsilent e he.silent) fun callback _ => ?_
      exact report_follows hsilent (failWin32_within core callback _) (hfail hpos g1 h1)
    · obtain ⟨hallows, hdone⟩ := hremove hpos g1 h1
      exact ⟨hallows, fun _ g2 h2 => hdone g2 h2⟩

/-- The rule for a call that only needs a valid handle. -/
theorem LineCall.program_follows {handle : Int64} {callback : Callback} (call : LineCall)
    (hsilent : ∀ e : Action, e.Silent → P.Ignores e) (hresult : ∀ a, Q g a) :
    Follows P Q (call.program core handle callback) g :=
  follows_of_within (LineCall.program_within core handle callback call) hsilent
    fun a _ => hresult a

end cpp_bindings_windows
