-- The parts of the C API that only report errors or talk to the device: what
-- each of them can return, whatever the operating system answers.
import SerialBindings.Api

open programs

namespace cpp_bindings_windows

/-- The actions that report an error, or read the last one. -/
def Action.Reports : Action → Prop
  | .loadErrorCallback => True
  | .invokeError .. => True
  | .getLastError => True
  | .setLastError _ => True
  | .formatMessage _ => True
  | _ => False

/-- The actions that find the last error and its text. -/
def Action.Explains : Action → Prop
  | .getLastError => True
  | .formatMessage _ => True
  | _ => False

/-- The actions that neither touch a handle state, nor the registry, nor a kernel object, nor
a request of a transfer. -/
def Action.Quiet : Action → Prop
  | .loadIoCallback _ => True
  | .invokeIoCallback .. => True
  | .loadBuffer _ => True
  | .multiByteToWideChar _ => True
  | .clearCommError _ => True
  | .getCommState _ => True
  | .setCommState .. => True
  | .setCommTimeouts .. => True
  | .purgeComm .. => True
  | .flushFileBuffers _ => True
  | .getCommModemStatus _ => True
  | .escapeCommFunction .. => True
  | .setCommBreak _ => True
  | .clearCommBreak _ => True
  | .sleep _ => True
  | e => e.Reports

/-- The quiet actions, without the two that call the application about bytes. -/
def Action.Silent : Action → Prop
  | .loadIoCallback _ => False
  | .invokeIoCallback .. => False
  | e => e.Quiet

/-- The silent actions that do not call the application about errors. -/
def Action.Mute : Action → Prop
  | .loadErrorCallback => False
  | .invokeError .. => False
  | e => e.Silent

/-- The actions on the byte counters of a handle state. -/
def Action.Counts : Action → Prop
  | .loadTotal .. => True
  | .addTotal .. => True
  | _ => False

theorem Action.Reports.silent {e : Action} (h : e.Reports) : e.Silent := by
  cases e <;> trivial

theorem Action.Silent.quiet {e : Action} (h : e.Silent) : e.Quiet := by
  cases e <;> first | exact h.elim | trivial

theorem Action.Reports.quiet {e : Action} (h : e.Reports) : e.Quiet := h.silent.quiet

theorem Action.Explains.reports {e : Action} (h : e.Explains) : e.Reports := by
  cases e <;> first | exact h.elim | trivial

theorem Action.Explains.mute {e : Action} (h : e.Explains) : e.Mute := by
  cases e <;> first | exact h.elim | trivial

theorem Action.Mute.silent {e : Action} (h : e.Mute) : e.Silent := by
  cases e <;> first | exact h.elim | trivial

/-- The cases of a proof about actions: the quiet ones together, and the others one by one. -/
@[elab_as_elim]
theorem Action.byKind {motive : Action → Prop} (quiet : ∀ e : Action, e.Quiet → motive e)
    (ensureHandleState : ∀ handle, motive (.ensureHandleState handle))
    (removeHandleState : ∀ handle, motive (.removeHandleState handle))
    (loadTotal : ∀ state operation, motive (.loadTotal state operation))
    (addTotal : ∀ state operation bytes, motive (.addTotal state operation bytes))
    (storeAbort : ∀ state operation, motive (.storeAbort state operation))
    (cancelPending : ∀ handle state operation, motive (.cancelPending handle state operation))
    (startPendingIo : ∀ state operation request, motive (.startPendingIo state operation request))
    (finishPendingIo : ∀ state operation, motive (.finishPendingIo state operation))
    (createFile : ∀ path, motive (.createFile path))
    (createEvent : motive .createEvent)
    (closeHandle : ∀ handle, motive (.closeHandle handle))
    (waitForSingleObject : ∀ event milliseconds, motive (.waitForSingleObject event milliseconds))
    (cancelIoEx : ∀ handle, motive (.cancelIoEx handle))
    (getOverlappedResult : ∀ handle wait, motive (.getOverlappedResult handle wait))
    (e : Action) : motive e := by
  cases e with
  | ensureHandleState handle => exact ensureHandleState handle
  | removeHandleState handle => exact removeHandleState handle
  | loadTotal state operation => exact loadTotal state operation
  | addTotal state operation bytes => exact addTotal state operation bytes
  | storeAbort state operation => exact storeAbort state operation
  | cancelPending handle state operation => exact cancelPending handle state operation
  | startPendingIo state operation request => exact startPendingIo state operation request
  | finishPendingIo state operation => exact finishPendingIo state operation
  | createFile path => exact createFile path
  | createEvent => exact createEvent
  | closeHandle handle => exact closeHandle handle
  | waitForSingleObject event milliseconds => exact waitForSingleObject event milliseconds
  | cancelIoEx handle => exact cancelIoEx handle
  | getOverlappedResult handle wait => exact getOverlappedResult handle wait
  | _ => exact quiet _ trivial

section Reports

variable (core : CppCore) (callback : Callback)

theorem effectiveErrorCallback_within :
    Within Action.Reports (fun _ => True) (effectiveErrorCallback callback) := by
  unfold effectiveErrorCallback
  split
  · trivial
  · exact ⟨trivial, fun _ => trivial⟩

theorem failMsg_within (code : StatusCode) (message : String) :
    Within Action.Reports (· = core.value code) (failMsg core callback code message) :=
  ⟨trivial, fun _ => rfl⟩

theorem win32ErrorToString_within (error : DWORD) :
    Within Action.Explains (fun _ => True) (win32ErrorToString error) := by
  refine ⟨trivial, fun r => ?_⟩
  cases r <;> trivial

theorem failWin32_within (code : StatusCode) :
    Within Action.Reports (· = core.value code) (failWin32 core callback code) := by
  unfold failWin32
  simp only [Prog.perform_bind, within_act]
  refine ⟨trivial, fun error => ?_⟩
  refine within_seq (within_mono (win32ErrorToString_within error) (fun _ he => he.reports)
    fun _ hv => hv) fun message _ => ?_
  refine within_seq (effectiveErrorCallback_within callback) fun _ _ => ?_
  exact ⟨trivial, fun _ => rfl⟩

theorem failEffective_within (code : StatusCode) :
    Within Action.Reports (· = core.value code) (failEffective core callback code) :=
  within_seq (effectiveErrorCallback_within callback) fun _ _ => failWin32_within core _ code

/-- A check of cpp-core returns the code of its failure, and `kSuccess` without one. -/
theorem validate_within (verdict : Option Failure) :
    Within Action.Reports
      (· = match verdict with | some failure => core.value failure.code | none => kSuccess)
      (validate core callback verdict) := by
  cases verdict with
  | none => rfl
  | some failure => exact failMsg_within core callback failure.code failure.message

/-- The handles that pass the check are the positive ones, and are the native handles. -/
theorem validateWin32Handle_within (handle : Int64) :
    Within Action.Reports
      (fun r => match r with
        | .error status => status = core.value .kInvalidHandleError ∧ handle.toInt ≤ 0
        | .ok native_handle => native_handle = handle.toInt ∧ 0 < native_handle)
      (validateWin32Handle core handle callback) := by
  refine within_seq (effectiveErrorCallback_within callback) fun _ _ => ?_
  split
  · rename_i hneg
    exact within_seq (failMsg_within core _ _ _) fun _ h => ⟨h, hneg⟩
  · rename_i hpos
    have hpos := Int.not_le.mp hpos
    have hvalid : ¬ (handle.toInt = nullHandle ∨ handle.toInt = INVALID_HANDLE_VALUE) := by
      unfold nullHandle INVALID_HANDLE_VALUE
      omega
    simp only
    rw [if_neg hvalid]
    exact ⟨rfl, hpos⟩

end Reports

/-! ## The parts of an open -/

theorem utf8ToWide_within (utf8 : Option (List UInt8)) :
    Within (fun e => ∃ bytes, e = .multiByteToWideChar bytes) (fun _ => True)
      (utf8ToWide utf8) := by
  rcases utf8 with _ | _ | ⟨byte, bytes⟩
  · trivial
  · trivial
  · refine ⟨⟨_, rfl⟩, fun length => ?_⟩
    cases length with
    | none => trivial
    | some length =>
      refine ⟨⟨_, rfl⟩, fun wide => ?_⟩
      cases wide <;> trivial

theorem failWithLastError_within (code : StatusCode) (text : String) :
    Within Action.Mute (fun _ => True) (failWithLastError code text) := by
  refine ⟨trivial, fun error => ?_⟩
  dsimp only [Prog.bind]
  exact within_seq (within_mono (win32ErrorToString_within error) (fun _ he => he.mute)
    fun _ hv => hv) fun _ _ => trivial

theorem applyLineSettings_within (handle : HANDLE) (config : SerialConfig) :
    Within Action.Mute (fun _ => True) (applyLineSettings handle config) := by
  refine ⟨trivial, fun settings => ?_⟩
  cases settings with
  | none => exact failWithLastError_within _ _
  | some settings =>
    dsimp only [Prog.bind]
    split
    · trivial
    · refine ⟨trivial, fun installed => ?_⟩
      cases installed
      · exact failWithLastError_within _ _
      · refine ⟨trivial, fun timed => ?_⟩
        cases timed
        · exact failWithLastError_within _ _
        · trivial

/-! ## The calls on a line -/

section LineActions

variable {A : Action → Prop} {core : CppCore} {handle : Int64} {callback : Callback}
  (hA : ∀ e : Action, e.Reports → A e)

include hA

theorem withNativeHandle_acts {body : HANDLE → Api Int}
    (h : ∀ n, Within A (fun _ => True) (body n)) :
    Within A (fun _ => True) (withNativeHandle core handle callback body) := by
  unfold withNativeHandle
  refine within_seq (within_mono (validateWin32Handle_within core callback handle) hA
    fun _ hr => hr) fun r _ => ?_
  cases r with
  | error status => trivial
  | ok native_handle => exact h native_handle

theorem failWin32_acts (code : StatusCode) :
    Within A (fun _ => True) (failWin32 core callback code) :=
  within_mono (failWin32_within core callback code) hA fun _ _ => trivial

/-- A report of an argument that does not pass its check. -/
theorem failMsg_acts (code : StatusCode) (message : String) :
    Within A (fun _ => True) (do
      let callback ← effectiveErrorCallback callback
      failMsg core callback code message) :=
  within_seq (within_mono (effectiveErrorCallback_within callback) hA fun _ h => h) fun _ _ =>
    within_mono (failMsg_within core _ _ _) hA fun _ _ => trivial

theorem setLineSetting_acts (hget : ∀ n, A (.getCommState n))
    (hset : ∀ n settings, A (.setCommState n settings)) (check : Option Failure)
    (update : DCB → DCB) (code : StatusCode) :
    Within A (fun _ => True) (setLineSetting core handle callback check update code) := by
  apply withNativeHandle_acts hA
  intro native_handle
  cases check with
  | some failure => exact failMsg_acts hA _ _
  | none =>
    refine ⟨hget _, fun settings => ?_⟩
    cases settings with
    | none => exact failWin32_acts hA _
    | some settings =>
      refine ⟨hset _ _, fun installed => ?_⟩
      cases installed
      · exact failWin32_acts hA _
      · trivial

theorem getLineSetting_acts (hget : ∀ n, A (.getCommState n)) (read : DCB → Int) :
    Within A (fun _ => True) (getLineSetting core handle callback read) := by
  apply withNativeHandle_acts hA
  intro native_handle
  refine ⟨hget _, fun settings => ?_⟩
  cases settings with
  | none => exact failWin32_acts hA _
  | some settings => trivial

theorem modemLine_acts (hstatus : ∀ n, A (.getCommModemStatus n)) (mask : DWORD) :
    Within A (fun _ => True) (modemLine core handle callback mask) := by
  apply withNativeHandle_acts hA
  intro native_handle
  refine ⟨hstatus _, fun status => ?_⟩
  cases status with
  | none => exact failWin32_acts hA _
  | some status => trivial

theorem escapeLine_acts (hescape : ∀ n function, A (.escapeCommFunction n function))
    (function : DWORD) (code : StatusCode) :
    Within A (fun _ => True) (escapeLine core handle callback function code) := by
  apply withNativeHandle_acts hA
  intro native_handle
  refine ⟨hescape _ _, fun done => ?_⟩
  cases done
  · exact failWin32_acts hA _
  · trivial

theorem serialSendBreak_acts (hset : ∀ n, A (.setCommBreak n)) (hsleep : ∀ ms, A (.sleep ms))
    (hclear : ∀ n, A (.clearCommBreak n)) (duration_ms : Int32) :
    Within A (fun _ => True) (serialSendBreak core handle duration_ms callback) := by
  apply withNativeHandle_acts hA
  intro native_handle
  split
  · exact failMsg_acts hA _ _
  · refine ⟨hset _, fun set => ?_⟩
    cases set
    · exact failWin32_acts hA _
    · refine ⟨hsleep _, fun _ => ⟨hclear _, fun cleared => ?_⟩⟩
      cases cleared
      · exact failWin32_acts hA _
      · trivial

end LineActions

/-- A call that only needs a valid handle does silent actions only. -/
theorem LineCall.program_within (core : CppCore) (handle : Int64) (callback : Callback)
    (call : LineCall) :
    Within Action.Silent (fun _ => True) (call.program core handle callback) := by
  have hreports : ∀ e : Action, e.Reports → e.Silent := fun _ he => he.silent
  cases call with
  | serialSetBaudrate | serialSetDataBits | serialSetParity | serialSetStopBits |
      serialSetFlowControl =>
    exact setLineSetting_acts hreports (fun _ => trivial) (fun _ _ => trivial) _ _ _
  | serialGetBaudrate | serialGetDataBits | serialGetParity | serialGetStopBits |
      serialGetFlowControl =>
    exact getLineSetting_acts hreports (fun _ => trivial) _
  | serialGetCts | serialGetDsr | serialGetDcd | serialGetRi =>
    exact modemLine_acts hreports (fun _ => trivial) _
  | serialSetDtr | serialSetRts => exact escapeLine_acts hreports (fun _ _ => trivial) _ _
  | serialSendBreak =>
    exact serialSendBreak_acts hreports (fun _ => trivial) (fun _ => trivial) (fun _ => trivial) _

/-! ## The parts of the transfers -/

/-- The queue length is never negative and fits in an `int`. -/
theorem bytesWaiting_within (handle : HANDLE) :
    Within Action.Mute (fun r => ∀ n, r = some n → 0 ≤ n ∧ n ≤ INT_MAX)
      (bytesWaiting handle) := by
  refine ⟨trivial, fun status => ?_⟩
  cases status with
  | none => intro n hn; cases hn
  | some status =>
    intro n hn
    cases hn
    split
    · exact ⟨by decide, Int.le_refl _⟩
    · rename_i h
      rw [intOfDword_of_lt (by omega)]
      omega

theorem noteBytesTransferred_within (state : StateRef) (o : Operation) (n : Int) :
    Within (fun e => e.Quiet ∨ e.Counts) (fun _ => True) (noteBytesTransferred state o n) := by
  unfold noteBytesTransferred
  simp only [Prog.perform_bind, within_act]
  refine ⟨Or.inr trivial, fun _ => ⟨Or.inl trivial, fun callback => ?_⟩⟩
  split
  · exact ⟨Or.inl trivial, fun _ => trivial⟩
  · trivial

/-- A read asks for one byte or more, and for no more than the rest of the buffer. -/
theorem nextReadSize_within (handle : HANDLE) {remaining : Int} (terminator_size : Int)
    (h : 0 < remaining) :
    Within Action.Mute (fun r => ∀ n, r = some n → 0 < n ∧ n ≤ remaining)
      (nextReadSize handle remaining terminator_size) := by
  unfold nextReadSize
  split
  · refine within_seq (bytesWaiting_within handle) fun r hr => ?_
    cases r with
    | none => intro n hn; cases hn
    | some waiting =>
      intro n hn
      cases hn
      split <;> omega
  · intro n hn
    cases hn
    omega

/-! ## One chunk -/

/-- The actions of a request of `o` on the handle of a context. -/
def Action.OfRequest (context : HandleContext) (o : Operation) : Action → Prop
  | .startPendingIo state operation request =>
    state = context.state ∧ operation = o ∧ request.handle = context.handle
  | .finishPendingIo state operation => state = context.state ∧ operation = o
  | .cancelIoEx handle => handle = context.handle
  | .getOverlappedResult handle _ => handle = context.handle
  | .waitForSingleObject _ _ => True
  | .getLastError => True
  | _ => False

/-- The actions of a chunk: those of its request, and those on its event. -/
def Action.OfChunk (context : HandleContext) (o : Operation) : Action → Prop
  | .createEvent => True
  | .closeHandle _ => True
  | e => e.OfRequest context o

theorem Action.OfRequest.chunk {context : HandleContext} {o : Operation} {e : Action}
    (h : e.OfRequest context o) : e.OfChunk context o := by
  cases e <;> first | exact h | exact h.elim

section Chunk

variable (core : CppCore) (context : HandleContext) (o : Operation) (offset size timeout_ms : Int)

theorem waitForPendingIo_within (event : HANDLE) :
    Within (Action.OfRequest context o) (fun _ => True)
      (waitForPendingIo core context o event timeout_ms) := by
  have hfinish : (Action.finishPendingIo context.state o).OfRequest context o := ⟨rfl, rfl⟩
  refine ⟨trivial, fun wait_result => ?_⟩
  dsimp only [Prog.bind]
  apply within_ite
  · -- the wait has timed out
    exact ⟨rfl, fun _ => ⟨rfl, fun _ => ⟨hfinish, fun _ => within_ite trivial trivial⟩⟩⟩
  · apply within_ite
    · exact ⟨trivial, fun _ => ⟨rfl, fun _ => ⟨rfl, fun _ => ⟨hfinish, fun _ => trivial⟩⟩⟩⟩
    · refine ⟨rfl, fun result => ⟨hfinish, fun aborted => ?_⟩⟩
      exact within_ite trivial (within_ite trivial trivial)

theorem requestChunk_within (event : HANDLE) :
    Within (Action.OfRequest context o) (fun _ => True)
      (requestChunk core context o offset size timeout_ms event) := by
  have hfinish : (Action.finishPendingIo context.state o).OfRequest context o := ⟨rfl, rfl⟩
  refine ⟨⟨rfl, rfl, rfl⟩, fun answer => ?_⟩
  obtain ⟨start, transferred⟩ := answer
  dsimp only [Prog.bind]
  refine within_ite trivial ?_
  refine within_ite ⟨hfinish, fun _ => trivial⟩ ?_
  refine within_ite ⟨hfinish, fun _ => trivial⟩ ?_
  exact waitForPendingIo_within core context o timeout_ms event

theorem transferChunk_within :
    Within (Action.OfChunk context o) (fun _ => True)
      (transferChunk core o context offset size timeout_ms) := by
  unfold transferChunk
  rw [Prog.perform_bind]
  refine ⟨trivial, fun event => ?_⟩
  cases event with
  | none => exact ⟨trivial, fun _ => trivial⟩
  | some event =>
    refine within_seq (within_mono (requestChunk_within core context o offset size timeout_ms event)
      (fun _ he => he.chunk) fun _ h => h) fun result _ => ?_
    exact ⟨trivial, fun _ => trivial⟩

end Chunk

/-! ## One turn of a loop -/

/-- What the loops of `readImpl` and `writeImpl` have in common: a chunk ends the call, or it moved
bytes and the rest of the turn follows. -/
abbrev loopTurn (core : CppCore) (o : Operation) (context : HandleContext)
    (total size timeout_ms : Int) (callback : Callback) (code : StatusCode) (message : String)
    (rest : IoResult → Api Int) : Api Int :=
  transferChunk core o context total size timeout_ms >>= fun result =>
    match result.outcome with
    | .kTimedOut => pure total
    | .kAborted => failMsg core callback (abortCode o) message
    | .kError => do
      perform (.setLastError result.error)
      failWin32 core callback code
    | .kCompleted =>
      if result.bytes_transferred ≤ 0 then pure total
      else do
        noteBytesTransferred context.state o result.bytes_transferred
        rest result

end cpp_bindings_windows
