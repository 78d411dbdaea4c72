-- The words of the bindings: handles, status codes, the settings of a line,
-- and the atomic actions that the C API does on the operating system, on the
-- handle registry and on the state of one handle.
import Mathlib.Data.UInt
import SerialBindings.Programs

open programs

namespace cpp_bindings_windows

/-! ## The types of Windows -/

/-- A `HANDLE`, as its `intptr_t` value. -/
abbrev HANDLE := Int

abbrev DWORD := UInt32

/-- `nullptr` as a handle. -/
def nullHandle : HANDLE := 0

def INVALID_HANDLE_VALUE : HANDLE := -1

def INT_MAX : Int := 2147483647

def ERROR_SUCCESS : DWORD := 0
def ERROR_IO_PENDING : DWORD := 997
def ERROR_OPERATION_ABORTED : DWORD := 995

def WAIT_OBJECT_0 : DWORD := 0
def WAIT_TIMEOUT : DWORD := 258

/-- `static_cast<int>` of a `DWORD`. -/
def intOfDword (d : DWORD) : Int :=
  if d.toNat < 2147483648 then d.toNat else (d.toNat : Int) - 4294967296

/-- `static_cast<DWORD>` of an `int`. -/
def dwordOfInt (i : Int) : DWORD := UInt32.ofNat (i % 4294967296).toNat

theorem intOfDword_of_lt {d : DWORD} (h : (d.toNat : Int) ≤ INT_MAX) : intOfDword d = d.toNat := by
  unfold INT_MAX at h
  unfold intOfDword
  rw [if_pos (by omega)]

theorem dwordOfInt_toNat {i : Int} (h1 : 0 ≤ i) (h2 : i ≤ INT_MAX) :
    ((dwordOfInt i).toNat : Int) = i := by
  unfold INT_MAX at h2
  unfold dwordOfInt
  rw [UInt32.toNat_ofNat']
  omega

/-- One UTF-16 unit of a `std::wstring`. -/
abbrev WString := List UInt16

/-- The fields of `DCB` that the bindings read or write. `rest` stands for all the others. -/
structure DCB where
  BaudRate : DWORD := 0
  fBinary : Bool := false
  fParity : Bool := false
  fOutxCtsFlow : Bool := false
  fOutxDsrFlow : Bool := false
  fDtrControl : Nat := 0
  fDsrSensitivity : Bool := false
  fTXContinueOnXoff : Bool := false
  fOutX : Bool := false
  fInX : Bool := false
  fRtsControl : Nat := 0
  XonLim : UInt16 := 0
  XoffLim : UInt16 := 0
  ByteSize : UInt8 := 0
  Parity : UInt8 := 0
  StopBits : UInt8 := 0
  XonChar : UInt8 := 0
  XoffChar : UInt8 := 0
  rest : Nat := 0
  deriving DecidableEq, Inhabited

/-- The two queue lengths of `COMSTAT`. -/
structure COMSTAT where
  cbInQue : DWORD := 0
  cbOutQue : DWORD := 0
  deriving DecidableEq, Inhabited

/-- The timeouts of a device, in milliseconds. The initializer `{}` makes all of them zero. -/
structure COMMTIMEOUTS where
  ReadIntervalTimeout : DWORD := 0
  ReadTotalTimeoutMultiplier : DWORD := 0
  ReadTotalTimeoutConstant : DWORD := 0
  WriteTotalTimeoutMultiplier : DWORD := 0
  WriteTotalTimeoutConstant : DWORD := 0
  deriving DecidableEq, Inhabited

/-! ## The library cpp-core -/

/-- The error codes of `cpp_core::StatusCode` that the bindings use. -/
inductive StatusCode
  | kNotFoundError
  | kInvalidHandleError
  | kCloseHandleError
  | kSetBaudrateError
  | kSetDataBitsError
  | kSetParityError
  | kSetStopBitsError
  | kSetFlowControlError
  | kSetTimeoutError
  | kGetStateError
  | kSetStateError
  | kGetModemStatusError
  | kSendBreakError
  | kSetDtrError
  | kSetRtsError
  | kReadError
  | kWriteError
  | kAbortReadError
  | kAbortWriteError
  | kBufferError
  | kClearBufferInError
  | kClearBufferOutError
  | kMonitorError
  deriving DecidableEq, Inhabited

/-- `StatusCode::kSuccess`. -/
def kSuccess : Int := 0

/-- A C++ enumeration holds any value of its underlying type, so the settings are numbers. -/
abbrev DataBits := Int
abbrev Parity := Int
abbrev StopBits := Int
abbrev FlowControl := Int

def Parity.kNone : Parity := 0
def Parity.kEven : Parity := 1
def Parity.kOdd : Parity := 2

def StopBits.kOne : StopBits := 0
def StopBits.kTwo : StopBits := 2

def FlowControl.kNone : FlowControl := 0
def FlowControl.kRtsCts : FlowControl := 1
def FlowControl.kXonXoff : FlowControl := 2

structure SerialConfig where
  baudrate : Int32
  data_bits : DataBits
  parity : Parity
  stop_bits : StopBits
  flow_mode : FlowControl
  deriving DecidableEq

structure SerialTimeoutConfig where
  timeout_ms : Int32
  multiplier : Int32
  deriving DecidableEq

/-- A code with the message that goes with it. -/
structure Failure where
  code : StatusCode
  message : String
  deriving DecidableEq

/-- A pointer to bytes of the caller: an address, or none for `nullptr`. -/
abbrev Pointer := Option Nat

/-- What the bindings use of cpp-core: the numbers of the codes, and the checks of the
arguments, with the failure that each check reports. -/
structure CppCore where
  value : StatusCode → Int
  value_neg : ∀ code, value code < 0
  value_injective : Function.Injective value
  clampTimeout : Int → Int
  clampTimeout_eq : ∀ t, clampTimeout t = max 0 t
  validateTimeoutConfig : Option SerialTimeoutConfig → Option Failure
  timeout_code : ∀ c f, validateTimeoutConfig c = some f → f.code = .kSetTimeoutError
  timeout_accepts : ∀ c, validateTimeoutConfig c = none ↔ ∃ t, c = some t ∧
    0 ≤ t.timeout_ms.toInt ∧ 0 ≤ t.multiplier.toInt ∧
    t.timeout_ms.toInt * t.multiplier.toInt ≤ INT_MAX
  validateBuffer : Pointer → Int → Option Failure
  buffer_code : ∀ p n f, validateBuffer p n = some f → f.code = .kBufferError
  buffer_accepts : ∀ p n, validateBuffer p n = none ↔ p ≠ none ∧ 0 < n
  validateOpenParams : Option (List UInt8) → Option SerialConfig → Option Failure
  open_rejects_null : ∀ p c, validateOpenParams p c = none → p ≠ none ∧ c ≠ none

/-- A cpp-core with small codes. -/
def sampleCore : CppCore where
  value code := -1 - (code.ctorIdx : Int)
  value_neg code := by cases code <;> decide
  value_injective a b h := by cases a <;> cases b <;> first | rfl | cases h
  clampTimeout t := max 0 t
  clampTimeout_eq _ := rfl
  validateTimeoutConfig
    | none => some ⟨.kSetTimeoutError, "Timeout configuration must not be null"⟩
    | some t =>
      if 0 ≤ t.timeout_ms.toInt ∧ 0 ≤ t.multiplier.toInt ∧
          t.timeout_ms.toInt * t.multiplier.toInt ≤ INT_MAX then none
      else some ⟨.kSetTimeoutError, "Invalid timeout configuration"⟩
  timeout_code c f h := by
    rcases c with _ | t
    · cases h; rfl
    · simp only at h
      split at h
      · cases h
      · cases h; rfl
  timeout_accepts c := by
    rcases c with _ | t
    · simp
    · simp
  validateBuffer p n :=
    if p ≠ none ∧ 0 < n then none else some ⟨.kBufferError, "Invalid buffer or buffer_size"⟩
  buffer_code p n f h := by
    split at h
    · cases h
    · cases h; rfl
  buffer_accepts p n := by simp
  validateOpenParams p c :=
    if p ≠ none ∧ c ≠ none then none else some ⟨.kNotFoundError, "Invalid open parameters"⟩
  open_rejects_null p c := by simp

/-! ## The actions -/

/-- `Operation` of `handle_types.hpp`. -/
inductive Operation
  | kRead
  | kWrite
  deriving DecidableEq, Inhabited

/-- A `std::shared_ptr<HandleState>`, as the number of the state that it points to. -/
abbrev StateRef := Nat

/-- A callback of the application, as an address. `none` is `nullptr`. -/
abbrev Callback := Option Nat

/-- One `ReadFile` or `WriteFile`: the part of the buffer from `offset` on. -/
structure Request where
  handle : HANDLE
  offset : Int
  size : DWORD
  deriving DecidableEq, Inhabited

structure PendingIoStart where
  completed : Bool := false
  error : DWORD := ERROR_SUCCESS
  aborted : Bool := false
  deriving DecidableEq, Inhabited

/-- What `GetOverlappedResult` gives: its `BOOL`, the count, and the last error after `FALSE`. -/
structure OverlappedResult where
  completed : Bool := false
  transferred : DWORD := 0
  error : DWORD := ERROR_SUCCESS
  deriving DecidableEq, Inhabited

/-- The atomic actions. The `OVERLAPPED` of a request is a local variable of the thread that
does it, so an action names it by its thread. -/
inductive Action
  | loadErrorCallback
  | invokeError (callback : Callback) (code : Int) (message : String)
  | getLastError
  | setLastError (error : DWORD)
  | formatMessage (error : DWORD)
  | ensureHandleState (handle : HANDLE)
  | removeHandleState (handle : HANDLE)
  | loadTotal (state : StateRef) (operation : Operation)
  | addTotal (state : StateRef) (operation : Operation) (bytes : Int)
  | loadIoCallback (operation : Operation)
  | invokeIoCallback (callback : Callback) (bytes : Int)
  | storeAbort (state : StateRef) (operation : Operation)
  | cancelPending (handle : HANDLE) (state : StateRef) (operation : Operation)
  | startPendingIo (state : StateRef) (operation : Operation) (request : Request)
  | finishPendingIo (state : StateRef) (operation : Operation)
  | createFile (path : WString)
  | createEvent
  | closeHandle (handle : HANDLE)
  | waitForSingleObject (event : HANDLE) (milliseconds : DWORD)
  | cancelIoEx (handle : HANDLE)
  | getOverlappedResult (handle : HANDLE) (wait : Bool)
  | loadBuffer (size : Int)
  | multiByteToWideChar (utf8 : List UInt8)
  | clearCommError (handle : HANDLE)
  | getCommState (handle : HANDLE)
  | setCommState (handle : HANDLE) (settings : DCB)
  | setCommTimeouts (handle : HANDLE) (timeouts : COMMTIMEOUTS)
  | purgeComm (handle : HANDLE) (flags : DWORD)
  | flushFileBuffers (handle : HANDLE)
  | getCommModemStatus (handle : HANDLE)
  | escapeCommFunction (handle : HANDLE) (function : DWORD)
  | setCommBreak (handle : HANDLE)
  | clearCommBreak (handle : HANDLE)
  | sleep (milliseconds : DWORD)
  deriving DecidableEq

/-- The answers. A call of Windows that can fail answers `none` or `false` when it does. -/
@[reducible] def Answer : Action → Type
  | .loadErrorCallback => Callback
  | .invokeError .. => Unit
  | .getLastError => DWORD
  | .setLastError _ => Unit
  | .formatMessage _ => Option String
  | .ensureHandleState _ => StateRef
  | .removeHandleState _ => Unit
  | .loadTotal .. => Int
  | .addTotal .. => Unit
  | .loadIoCallback _ => Callback
  | .invokeIoCallback .. => Unit
  | .storeAbort .. => Unit
  | .cancelPending .. => Unit
  | .startPendingIo .. => PendingIoStart × DWORD
  | .finishPendingIo .. => Bool
  | .createFile _ => HANDLE
  | .createEvent => Option HANDLE
  | .closeHandle _ => Bool
  | .waitForSingleObject .. => DWORD
  | .cancelIoEx _ => Unit
  | .getOverlappedResult .. => OverlappedResult
  | .loadBuffer _ => List UInt8
  | .multiByteToWideChar _ => Option WString
  | .clearCommError _ => Option COMSTAT
  | .getCommState _ => Option DCB
  | .setCommState .. => Bool
  | .setCommTimeouts .. => Bool
  | .purgeComm .. => Bool
  | .flushFileBuffers _ => Bool
  | .getCommModemStatus _ => Option DWORD
  | .escapeCommFunction .. => Bool
  | .setCommBreak _ => Bool
  | .clearCommBreak _ => Bool
  | .sleep _ => Unit

/-- An answer for each action of a device on which nothing happens. -/
def idleAnswer : (action : Action) → Answer action
  | .loadErrorCallback | .loadIoCallback _ => none
  | .invokeError .. | .setLastError _ | .removeHandleState _ | .addTotal .. => ()
  | .invokeIoCallback .. | .storeAbort .. | .cancelPending .. | .cancelIoEx _ | .sleep _ => ()
  | .getLastError => ERROR_SUCCESS
  | .formatMessage _ => none
  | .ensureHandleState _ => 0
  | .loadTotal .. => 0
  | .startPendingIo .. => ({ error := ERROR_IO_PENDING }, 0)
  | .finishPendingIo .. => false
  | .createFile _ => INVALID_HANDLE_VALUE
  | .createEvent => none
  | .closeHandle _ | .setCommState .. | .setCommTimeouts .. | .purgeComm .. => true
  | .flushFileBuffers _ | .escapeCommFunction .. | .setCommBreak _ | .clearCommBreak _ => true
  | .waitForSingleObject .. => WAIT_TIMEOUT
  | .getOverlappedResult .. => {}
  | .loadBuffer _ => []
  | .multiByteToWideChar _ => none
  | .clearCommError _ => some {}
  | .getCommState _ => some {}
  | .getCommModemStatus _ => some 0

/-- A program of the C API. -/
abbrev Api := Prog Action Answer

/-- The program of one action. -/
abbrev perform (action : Action) : Api (Answer action) := Prog.perform action

/-! ## The reports of errors -/

/-- `effectiveErrorCallback`: the argument, or the global callback when it is null. -/
def effectiveErrorCallback (error_callback : Callback) : Api Callback :=
  if error_callback ≠ none then return error_callback
  else perform .loadErrorCallback

/-- `cpp_core::failMsg`: it reports the code and returns it. -/
def failMsg (core : CppCore) (callback : Callback) (code : StatusCode) (message : String) :
    Api Int := do
  perform (.invokeError callback (core.value code) message)
  return core.value code

/-- A check of cpp-core: it reports its failure, and returns `kSuccess` when there is none. -/
def validate (core : CppCore) (callback : Callback) : Option Failure → Api Int
  | some failure => failMsg core callback failure.code failure.message
  | none => return kSuccess

/-- The text without the line ends at its end. -/
def trimLineEnd (message : String) : String :=
  String.ofList (message.toList.reverse.dropWhile (fun c => c == '\r' || c == '\n')).reverse

def win32ErrorToString (error : DWORD) : Api String := do
  match ← perform (.formatMessage error) with
  | none => return "Unknown Win32 error (" ++ toString error.toNat ++ ")"
  | some message => return trimLineEnd message

def failWin32 (core : CppCore) (error_callback : Callback) (code : StatusCode) : Api Int := do
  let error ← perform .getLastError
  let message ← win32ErrorToString error
  let callback ← effectiveErrorCallback error_callback
  perform (.invokeError callback (core.value code) message)
  return core.value code

/-! ## The check of a handle -/

/-- `validateWin32Handle`. On the 64-bit target `intptr_t` holds every `int64_t`, so its
second range check is not compiled. -/
def validateWin32Handle (core : CppCore) (handle : Int64) (error_callback : Callback) :
    Api (Except Int HANDLE) := do
  let callback ← effectiveErrorCallback error_callback
  if handle.toInt ≤ 0 then
    return .error (← failMsg core callback .kInvalidHandleError "Invalid handle")
  let native_handle : HANDLE := handle.toInt
  if native_handle = nullHandle ∨ native_handle = INVALID_HANDLE_VALUE then
    return .error (← failMsg core callback .kInvalidHandleError "Invalid handle")
  return .ok native_handle

structure HandleContext where
  handle : HANDLE
  state : StateRef

def acquireHandleContext (core : CppCore) (handle : Int64) (error_callback : Callback) :
    Api (Except Int HandleContext) := do
  match ← validateWin32Handle core handle error_callback with
  | .error status => return .error status
  | .ok native_handle =>
    let state ← perform (.ensureHandleState native_handle)
    return .ok ⟨native_handle, state⟩

end cpp_bindings_windows
