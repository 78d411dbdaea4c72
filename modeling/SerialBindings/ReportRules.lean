-- The rule for the reports of errors. Whatever a protocol watches of them, a proof about all
-- calls on handles only has to say what the actions beside a report keep, which callback a
-- call may tell, and what holds after a report.
import SerialBindings.Quiet

open programs

namespace cpp_bindings_windows

/-- The actions that call nothing back, and give neither a callback nor a number to return. -/
def Action.Beside : Action → Prop
  | .loadErrorCallback => False
  | .invokeError .. => False
  | .loadIoCallback _ => False
  | .invokeIoCallback .. => False
  | .loadTotal .. => False
  | _ => True

theorem Action.Mute.beside {e : Action} (h : e.Mute) : e.Beside := by
  cases e <;> first | exact h.elim | trivial

theorem Action.OfChunk.beside {context : HandleContext} {o : Operation} {e : Action}
    (h : e.OfChunk context o) : e.Beside := by
  cases e <;> first | exact h.elim | trivial

/-- The callback argument of a call. -/
def ApiCall.callback : ApiCall → Callback
  | .serialOpen _ _ callback => callback
  | .serialClose _ callback => callback
  | .transfer _ _ callback _ => callback
  | .serialAbortRead _ callback => callback
  | .serialAbortWrite _ callback => callback
  | .onState _ callback _ => callback
  | .onLine _ callback _ => callback

/-- The call reads the baud rate of a device. -/
def ApiCall.readsRate : ApiCall → Bool
  | .onLine _ _ .serialGetBaudrate => true
  | _ => false

theorem ApiCall.eq_of_readsRate {c : ApiCall} (h : c.readsRate = true) :
    ∃ handle callback, c = .onLine handle callback .serialGetBaudrate := by
  unfold readsRate at h
  split at h
  · exact ⟨_, _, rfl⟩
  · cases h

variable {G : Type}

/-- What a protocol has to say about the reports of a call with transfers of `operations`. `clear`
holds before a report, where `i` is what the call has loaded by then, and `told` after the report
of a code. `result` holds of what the call returns. A callback that is `trusted` may be told of an
error when it is not null, and one that is `reached` may be told in any case. One that is `noted`
may be told of bytes. -/
structure ReportOutline (P : Protocol Action Answer G) (I : Type) where
  clear : I → G → Prop
  told : Int → G → Prop
  result : G → Int → Prop
  later : I → I → Prop
  trusted : I → Callback → Prop
  reached : I → Callback → Prop
  noted : I → Operation → Callback → Prop
  operations : Operation → Prop
  clear_of_later : ∀ {i j g}, later i j → clear j g → clear i g
  reached_of_trusted : ∀ {i callback}, trusted i callback → callback ≠ none → reached i callback
  trusted_of_reached : ∀ {i callback}, reached i callback → trusted i callback
  beside : ∀ {i g} {e : Action}, clear i g → e.Beside →
    P.allows g e ∧ ∀ r g', P.next g e r = some g' → clear i g'
  loads : ∀ {i g}, clear i g → trusted i none → P.allows g .loadErrorCallback ∧
    ∀ callback g', P.next g .loadErrorCallback callback = some g' →
      ∃ j, later i j ∧ clear j g' ∧ reached j callback
  invokes : ∀ {i g callback code message}, clear i g → reached i callback → code < 0 →
    P.allows g (.invokeError callback code message) ∧
      ∀ g', P.next g (.invokeError callback code message) () = some g' → told code g'
  closes : ∀ {g code handle}, told code g → P.allows g (.closeHandle handle) ∧
    ∀ closed g', P.next g (.closeHandle handle) closed = some g' → told code g'
  returns : ∀ {g code}, told code g → result g code
  ends : ∀ {i g value}, clear i g → 0 ≤ value → result g value
  counts : ∀ {i g state o}, clear i g → P.allows g (.loadTotal state o) ∧
    ∀ total g', P.next g (.loadTotal state o) total = some g' → result g' total
  asks : ∀ {i g o}, clear i g → operations o → P.allows g (.loadIoCallback o) ∧
    ∀ callback g', P.next g (.loadIoCallback o) callback = some g' →
      ∃ j, later i j ∧ clear j g' ∧ noted j o callback
  notes : ∀ {i g o callback n}, clear i g → operations o → noted i o callback → callback ≠ none →
    P.allows g (.invokeIoCallback callback n) ∧
      ∀ g', P.next g (.invokeIoCallback callback n) () = some g' → clear i g'

namespace ReportOutline

variable {P : Protocol Action Answer G} {I : Type}

/-- The program reports as the outline says, when nothing was reported before it. -/
def Reports (T : ReportOutline P I) (i : I) (p : Api Int) : Prop :=
  ∀ g, T.clear i g → Follows P T.result p g

section Rules

variable (T : ReportOutline P I) {α : Type} {i j : I} {core : CppCore}
  {callback argument : Callback} {handle : Int64}

theorem reports_ret {value : Int} (h : 0 ≤ value) : T.Reports i (.ret value) :=
  fun _ hg => T.ends hg h

theorem reports_act {e : Action} {k : Answer e → Api Int} (he : e.Beside)
    (h : ∀ r, T.Reports i (k r)) : T.Reports i (.act e k) := by
  intro g hg
  obtain ⟨hallows, hnext⟩ := T.beside hg he
  exact ⟨hallows, fun r g' hn => h r g' (hnext r g' hn)⟩

theorem reports_within {A : Action → Prop} {V : α → Prop} {p : Api α} {f : α → Api Int}
    (hp : Within A V p) (hA : ∀ e, A e → e.Beside) (h : ∀ a, V a → T.Reports i (f a)) :
    T.Reports i (p >>= f) := by
  induction p with
  | ret a => exact h a hp
  | act e k ih => exact T.reports_act (hA e hp.1) fun r => ih r (hp.2 r)

theorem reports_later {p : Api Int} (hij : T.later i j) (h : T.Reports i p) : T.Reports j p :=
  fun g hg => h g (T.clear_of_later hij hg)

/-- The callback for the errors: the argument, or one that is loaded. -/
theorem reports_effective {f : Callback → Api Int} (ht : T.trusted i argument)
    (h : ∀ j callback, T.reached j callback → (∀ p, T.Reports i p → T.Reports j p) →
      T.Reports j (f callback)) :
    T.Reports i (effectiveErrorCallback argument >>= f) := by
  unfold effectiveErrorCallback
  split
  · rename_i hargument
    exact h i argument (T.reached_of_trusted ht hargument) fun _ hp => hp
  · rename_i hargument
    rw [not_not.mp hargument] at ht
    intro g hg
    obtain ⟨hallows, hnext⟩ := T.loads hg ht
    refine ⟨hallows, fun loaded g' hn => ?_⟩
    obtain ⟨j, hij, hg', hreached⟩ := hnext loaded g' hn
    exact h j loaded hreached (fun _ hp => T.reports_later hij hp) g' hg'

/-- A report, and then what the call does with its code. -/
theorem reports_failMsg {code : StatusCode} {message : String} {f : Int → Api Int}
    (hc : T.reached i callback) (h : ∀ g, T.told (core.value code) g →
      Follows P T.result (f (core.value code)) g) :
    T.Reports i (failMsg core callback code message >>= f) := by
  intro g hg
  obtain ⟨hallows, hnext⟩ := T.invokes hg hc (core.value_neg code)
  exact ⟨hallows, fun _ g' hn => h g' (hnext g' hn)⟩

theorem reports_failMsg_ret {code : StatusCode} {message : String} (hc : T.reached i callback) :
    T.Reports i (failMsg core callback code message) := by
  rw [← Prog.bind_ret (failMsg core callback code message)]
  exact T.reports_failMsg hc fun _ hg => T.returns hg

theorem reports_failMsg_close {code : StatusCode} {message : String} {opened : HANDLE}
    (hc : T.reached i callback) : T.Reports i (do
      let status ← failMsg core callback code message
      let _ ← perform (.closeHandle opened)
      return status) := by
  refine T.reports_failMsg hc fun g hg => ?_
  obtain ⟨hallows, hnext⟩ := T.closes hg
  exact ⟨hallows, fun closed g' hn => T.returns (hnext closed g' hn)⟩

theorem reports_failWin32 {code : StatusCode} (ht : T.trusted i argument) :
    T.Reports i (failWin32 core argument code) := by
  unfold failWin32
  rw [Prog.perform_bind]
  refine T.reports_act trivial fun error => ?_
  refine T.reports_within (win32ErrorToString_within error) (fun _ he => he.mute.beside)
    fun message _ => ?_
  exact T.reports_effective ht fun _ _ hc _ => T.reports_failMsg_ret hc

theorem reports_failEffective {code : StatusCode} (ht : T.trusted i argument) :
    T.Reports i (failEffective core argument code) :=
  T.reports_effective ht fun _ _ hc _ => T.reports_failWin32 (T.trusted_of_reached hc)

/-- A check of an argument of the call. -/
theorem reports_validate {verdict : Option Failure} {rest : Api Int} (hc : T.reached i callback)
    (h : T.Reports i rest) :
    T.Reports i (validate core callback verdict >>= fun status =>
      if status < 0 then pure status else rest) := by
  cases verdict with
  | none => exact h
  | some failure =>
    refine T.reports_failMsg hc fun g hg => ?_
    rw [if_pos (core.value_neg _)]
    exact T.returns hg

/-- The check of a handle ends the call, or the call goes on with the native handle. -/
theorem reports_validateWin32Handle {f : Except Int HANDLE → Api Int}
    (ht : T.trusted i argument) (herror : ∀ status, f (.error status) = .ret status)
    (h : ∀ native_handle, T.Reports i (f (.ok native_handle))) :
    T.Reports i (validateWin32Handle core handle argument >>= f) := by
  unfold validateWin32Handle
  rw [Prog.bind_assoc]
  refine T.reports_effective ht fun j callback hc hlater => ?_
  have hfail : ∀ code message, T.Reports j (failMsg core callback code message >>= fun status =>
      f (.error status)) := by
    intro code message
    refine T.reports_failMsg hc fun g hg => ?_
    rw [herror]
    exact T.returns hg
  split
  · rw [Prog.bind_assoc]
    exact hfail _ _
  · dsimp only
    split
    · rw [Prog.bind_assoc]
      exact hfail _ _
    · exact hlater _ (h _)

theorem reports_withNativeHandle {body : HANDLE → Api Int} (ht : T.trusted i argument)
    (h : ∀ native_handle, T.Reports i (body native_handle)) :
    T.Reports i (withNativeHandle core handle argument body) :=
  T.reports_validateWin32Handle ht (fun _ => rfl) h

theorem reports_withHandleContext {body : HandleContext → Api Int} (ht : T.trusted i argument)
    (h : ∀ context, T.Reports i (body context)) :
    T.Reports i (withHandleContext core handle argument body) := by
  unfold withHandleContext acquireHandleContext
  rw [Prog.bind_assoc]
  refine T.reports_validateWin32Handle ht (fun _ => rfl) fun native_handle => ?_
  exact T.reports_act trivial fun state => h ⟨native_handle, state⟩

end Rules

/-! ## The calls on a line -/

section Calls

variable (T : ReportOutline P I) {i : I} (core : CppCore) (handle : Int64) {argument : Callback}

theorem setLineSetting_reports (check : Option Failure) (update : DCB → DCB) (code : StatusCode)
    (ht : T.trusted i argument) :
    T.Reports i (setLineSetting core handle argument check update code) := by
  refine T.reports_withNativeHandle ht fun native_handle => ?_
  cases check with
  | some failure => exact T.reports_effective ht fun _ _ hc _ => T.reports_failMsg_ret hc
  | none =>
    refine T.reports_act trivial fun settings => ?_
    cases settings with
    | none => exact T.reports_failWin32 ht
    | some settings =>
      refine T.reports_act trivial fun installed => ?_
      cases installed
      · exact T.reports_failWin32 ht
      · exact T.reports_ret (Int.le_refl 0)

theorem getLineSetting_reports {read : DCB → Int} (ht : T.trusted i argument)
    (h : ∀ settings, T.Reports i (.ret (read settings))) :
    T.Reports i (getLineSetting core handle argument read) := by
  refine T.reports_withNativeHandle ht fun native_handle => ?_
  refine T.reports_act trivial fun settings => ?_
  cases settings with
  | none => exact T.reports_failWin32 ht
  | some settings => exact h settings

theorem modemLine_reports (mask : DWORD) (ht : T.trusted i argument) :
    T.Reports i (modemLine core handle argument mask) := by
  refine T.reports_withNativeHandle ht fun native_handle => ?_
  refine T.reports_act trivial fun status => ?_
  cases status with
  | none => exact T.reports_failWin32 ht
  | some status =>
    apply T.reports_ret
    split <;> decide

theorem escapeLine_reports (function : DWORD) (code : StatusCode) (ht : T.trusted i argument) :
    T.Reports i (escapeLine core handle argument function code) := by
  refine T.reports_withNativeHandle ht fun native_handle => ?_
  refine T.reports_act trivial fun done => ?_
  cases done
  · exact T.reports_failWin32 ht
  · exact T.reports_ret (Int.le_refl 0)

theorem serialSendBreak_reports (duration_ms : Int32) (ht : T.trusted i argument) :
    T.Reports i (serialSendBreak core handle duration_ms argument) := by
  refine T.reports_withNativeHandle ht fun native_handle => ?_
  split
  · exact T.reports_effective ht fun _ _ hc _ => T.reports_failMsg_ret hc
  · refine T.reports_act trivial fun set => ?_
    cases set
    · exact T.reports_failWin32 ht
    · refine T.reports_act trivial fun _ => T.reports_act trivial fun cleared => ?_
      cases cleared
      · exact T.reports_failWin32 ht
      · exact T.reports_ret (Int.le_refl 0)

/-- The baud rate of a device is the one value that may be negative. -/
theorem line_reports (call : LineCall) (ht : T.trusted i argument)
    (hrate : call = .serialGetBaudrate → ∀ rate, T.Reports i (.ret (intOfDword rate))) :
    T.Reports i (call.program core handle argument) := by
  cases call with
  | serialSetBaudrate | serialSetDataBits | serialSetParity | serialSetStopBits |
      serialSetFlowControl => exact T.setLineSetting_reports core handle _ _ _ ht
  | serialGetBaudrate =>
    exact T.getLineSetting_reports core handle ht fun settings => hrate rfl settings.BaudRate
  | serialGetDataBits =>
    exact T.getLineSetting_reports core handle ht fun settings =>
      T.reports_ret (Int.natCast_nonneg settings.ByteSize.toNat)
  | serialGetParity =>
    refine T.getLineSetting_reports core handle ht fun settings => T.reports_ret ?_
    split
    · decide
    · split <;> decide
  | serialGetStopBits =>
    refine T.getLineSetting_reports core handle ht fun settings => T.reports_ret ?_
    split <;> decide
  | serialGetFlowControl =>
    refine T.getLineSetting_reports core handle ht fun settings => T.reports_ret ?_
    split
    · decide
    · split <;> decide
  | serialGetCts | serialGetDsr | serialGetDcd | serialGetRi =>
    exact T.modemLine_reports core handle _ ht
  | serialSetDtr | serialSetRts => exact T.escapeLine_reports core handle _ _ ht
  | serialSendBreak duration_ms => exact T.serialSendBreak_reports core handle duration_ms ht

/-! ## The calls on a state -/

/-- The end of a call on a state: a flag tells whether it ends with `kSuccess` or a report. -/
theorem decided_reports {code : StatusCode} (ht : T.trusted i argument) (done : Bool) :
    T.Reports i (if done = true then pure kSuccess else failEffective core argument code) := by
  cases done
  · exact T.reports_failEffective ht
  · exact T.reports_ret (Int.le_refl 0)

theorem loadTotal_reports (state : StateRef) (o : Operation) :
    T.Reports i (perform (.loadTotal state o)) := by
  intro g hg
  obtain ⟨hallows, hnext⟩ := T.counts hg
  exact ⟨hallows, fun total g' hn => hnext total g' hn⟩

theorem state_reports (call : StateCall) (ht : T.trusted i argument) :
    T.Reports i (call.program core handle argument) := by
  cases call with
  | serialInBytesTotal | serialOutBytesTotal =>
    exact T.reports_withHandleContext ht fun context => T.loadTotal_reports context.state _
  | serialInBytesWaiting =>
    refine T.reports_withHandleContext ht fun context => ?_
    refine T.reports_within (bytesWaiting_within context.handle) (fun _ he => he.beside)
      fun waiting hwaiting => ?_
    cases waiting with
    | none => exact T.reports_failEffective ht
    | some waiting => exact T.reports_ret (hwaiting waiting rfl).1
  | serialOutBytesWaiting =>
    refine T.reports_withHandleContext ht fun context => ?_
    refine T.reports_act trivial fun status => ?_
    cases status with
    | none => exact T.reports_failEffective ht
    | some status =>
      apply T.reports_ret
      split
      · decide
      · rename_i hfits
        rw [intOfDword_of_lt (Int.not_lt.mp hfits)]
        exact Int.natCast_nonneg _
  | serialWaitForDrain =>
    refine T.reports_withHandleContext ht fun context => ?_
    exact T.reports_act trivial (T.decided_reports core ht)
  | serialClearBufferIn =>
    refine T.reports_withHandleContext ht fun context => ?_
    exact T.reports_act trivial (T.decided_reports core ht)
  | serialClearBufferOut =>
    refine T.reports_withHandleContext ht fun context => ?_
    refine T.reports_act trivial fun flushed => ?_
    cases flushed
    · exact T.reports_failEffective ht
    · exact T.reports_act trivial (T.decided_reports core ht)

theorem abortCall_reports (o : Operation) (ht : T.trusted i argument) :
    T.Reports i (abortCall core o handle argument) := by
  refine T.reports_withHandleContext ht fun context => ?_
  refine T.reports_act trivial fun _ => T.reports_act trivial fun _ => ?_
  exact T.reports_ret (Int.le_refl 0)

/-! ## The life of a handle -/

theorem serialClose_reports (ht : T.trusted i argument) :
    T.Reports i (serialClose core handle argument) := by
  unfold serialClose
  split
  · exact T.reports_ret (Int.le_refl 0)
  · refine T.reports_withNativeHandle ht fun native_handle => ?_
    refine T.reports_act trivial fun closed => ?_
    cases closed
    · exact T.reports_failEffective ht
    · exact T.reports_act trivial fun _ => T.reports_ret (Int.le_refl 0)

theorem serialOpen_reports (port : Option (List UInt8)) (config : Option SerialConfig)
    (ht : T.trusted i argument) : T.Reports i (serialOpen core port config argument) := by
  refine T.reports_effective ht fun j callback hc _ => T.reports_validate hc ?_
  have hwide : ∀ e : Action, (∃ bytes, e = .multiByteToWideChar bytes) → e.Beside := by
    rintro _ ⟨bytes, rfl⟩
    trivial
  refine T.reports_within (utf8ToWide_within port) hwide fun port_wide _ => ?_
  split
  · exact T.reports_failMsg_ret hc
  refine T.reports_act trivial fun raw_handle => ?_
  dsimp only [Prog.bind]
  generalize (if raw_handle = INVALID_HANDLE_VALUE then nullHandle else raw_handle) = opened
  split
  · exact T.reports_failWin32 (T.trusted_of_reached hc)
  refine T.reports_within (applyLineSettings_within _ _) (fun _ he => he.beside)
    fun failure _ => ?_
  cases failure with
  | some failure => exact T.reports_failMsg_close hc
  | none =>
    refine T.reports_act trivial fun _ => ?_
    dsimp only [Prog.bind]
    split
    · exact T.reports_failMsg_close hc
    · rename_i hpos
      refine T.reports_act trivial fun _ => ?_
      exact T.reports_ret (Int.le_of_lt (Int.not_le.mp hpos))

/-! ## The transfers -/

/-- A chunk that moved bytes is announced to the callback of its operation. -/
theorem noteBytesTransferred_reports {f : Unit → Api Int} (state : StateRef) {o : Operation}
    (n : Int) (ho : T.operations o) (h : T.Reports i (f ())) :
    T.Reports i (noteBytesTransferred state o n >>= f) := by
  refine T.reports_act trivial fun _ g hg => ?_
  obtain ⟨hasks, hnext⟩ := T.asks hg ho
  refine ⟨hasks, fun callback g' hn => ?_⟩
  obtain ⟨j, hij, hg', hnoted⟩ := hnext callback g' hn
  have hrest : T.Reports j (f ()) := T.reports_later hij h
  dsimp only [Prog.bind]
  split
  · rename_i hnull
    obtain ⟨hallows, hkeeps⟩ := T.notes hg' ho hnoted hnull
    exact ⟨hallows, fun _ g'' hn' => hrest g'' (hkeeps g'' hn')⟩
  · exact hrest g' hg'

theorem loopTurn_reports {callback : Callback} {o : Operation} {context : HandleContext}
    {total size timeout_ms : Int} {code : StatusCode} {message : String}
    {rest : IoResult → Api Int} (hc : T.reached i callback) (ho : T.operations o)
    (htotal : 0 ≤ total)
    (h : ∀ result : IoResult, 0 < result.bytes_transferred → T.Reports i (rest result)) :
    T.Reports i
      (loopTurn core o context total size timeout_ms callback code message rest) := by
  refine T.reports_within (transferChunk_within core context o total size timeout_ms)
    (fun _ he => he.beside) fun result _ => ?_
  cases result.outcome with
  | kTimedOut => exact T.reports_ret htotal
  | kAborted => exact T.reports_failMsg_ret hc
  | kError => exact T.reports_act trivial fun _ => T.reports_failWin32 (T.trusted_of_reached hc)
  | kCompleted =>
    dsimp only
    split
    · exact T.reports_ret htotal
    · rename_i hpos
      exact T.noteBytesTransferred_reports _ _ ho (h result (Int.not_le.mp hpos))

theorem readLoop_reports (args : ReadArgs) (context : HandleContext)
    (hc : T.reached i args.callback) (ho : T.operations .kRead) (turns : Nat) :
    ∀ total : Int, 0 ≤ total → T.Reports i (readLoop core args context turns total) := by
  induction turns with
  | zero =>
    intro total htotal
    exact T.reports_ret htotal
  | succ turns ih =>
    intro total htotal
    unfold readLoop
    split
    · exact T.reports_ret htotal
    rename_i hmore
    have hrest : 0 < args.buffer_size - total := by omega
    refine T.reports_within (nextReadSize_within context.handle args.terminator_size hrest)
      (fun _ he => he.beside) fun size _ => ?_
    cases size with
    | none => exact T.reports_failWin32 (T.trusted_of_reached hc)
    | some size =>
      refine T.loopTurn_reports core hc ho htotal fun result hpos => ?_
      refine T.reports_act trivial fun bytes => ?_
      dsimp only [Prog.bind]
      split
      · exact T.reports_ret (by omega)
      · exact ih _ (by omega)

theorem writeLoop_reports {callback : Callback} (buffer_size : Int) (config : SerialTimeoutConfig)
    (context : HandleContext) (hc : T.reached i callback) (ho : T.operations .kWrite)
    (turns : Nat) :
    ∀ total : Int, 0 ≤ total →
      T.Reports i (writeLoop core buffer_size config callback context turns total) := by
  induction turns with
  | zero =>
    intro total htotal
    exact T.reports_ret htotal
  | succ turns ih =>
    intro total htotal
    unfold writeLoop
    split
    · exact T.reports_ret htotal
    refine T.loopTurn_reports core hc ho htotal fun result hpos => ?_
    exact ih _ (by omega)

theorem readImpl_reports (buffer : Pointer) (buffer_size : Int32)
    (timeout_config : Option SerialTimeoutConfig) (terminator : Option (List UInt8))
    (terminator_size : Int32) (ht : T.trusted i argument) (ho : T.operations .kRead) :
    T.Reports i (readImpl core handle buffer buffer_size timeout_config terminator
      terminator_size argument) := by
  refine T.reports_effective ht fun j callback hc _ => ?_
  refine T.reports_validate hc (T.reports_validate hc ?_)
  split
  · exact T.reports_failMsg_ret hc
  · refine T.reports_withHandleContext (T.trusted_of_reached hc) fun context => ?_
    exact T.readLoop_reports core _ context hc ho _ 0 (Int.le_refl 0)

theorem writeImpl_reports (buffer : Pointer) (buffer_size : Int32)
    (timeout_config : Option SerialTimeoutConfig) (ht : T.trusted i argument)
    (ho : T.operations .kWrite) :
    T.Reports i (writeImpl core handle buffer buffer_size timeout_config argument) := by
  refine T.reports_effective ht fun j callback hc _ => ?_
  refine T.reports_validate hc (T.reports_validate hc ?_)
  refine T.reports_withHandleContext (T.trusted_of_reached hc) fun context => ?_
  exact T.writeLoop_reports core _ _ context hc ho _ 0 (Int.le_refl 0)

theorem transfer_reports (timeout_config : Option SerialTimeoutConfig) (call : TransferCall)
    (ht : T.trusted i argument) (ho : T.operations call.operation) :
    T.Reports i (call.program core handle timeout_config argument) := by
  cases call with
  | serialRead buffer buffer_size => exact T.readImpl_reports core handle _ _ _ _ _ ht ho
  | serialReadUntilSequence buffer buffer_size sequence sequence_size =>
    refine T.reports_effective ht fun j callback hc _ => ?_
    split
    · exact T.reports_failMsg_ret hc
    · exact T.readImpl_reports core handle _ _ _ _ _ (T.trusted_of_reached hc) ho
  | serialWrite buffer buffer_size => exact T.writeImpl_reports core handle _ _ _ ht ho

/-- Every call reports as the outline says. -/
theorem program_reports (c : ApiCall) (ht : T.trusted i c.callback)
    (ho : ∀ o ∈ c.transfers, T.operations o)
    (hrate : c.readsRate = true → ∀ rate, T.Reports i (.ret (intOfDword rate))) :
    T.Reports i (c.program core) := by
  cases c with
  | serialOpen port config callback => exact T.serialOpen_reports core port config ht
  | serialClose handle callback => exact T.serialClose_reports core handle ht
  | transfer handle timeout_config callback call =>
    exact T.transfer_reports core handle timeout_config call ht (ho _ rfl)
  | serialAbortRead handle callback => exact T.abortCall_reports core handle .kRead ht
  | serialAbortWrite handle callback => exact T.abortCall_reports core handle .kWrite ht
  | onState handle callback call => exact T.state_reports core handle call ht
  | onLine handle callback call =>
    refine T.line_reports core handle call ht fun hcall => hrate ?_
    rw [hcall]
    rfl

end Calls

end ReportOutline

end cpp_bindings_windows
