-- The C API on handles: opening, closing, the counters and the queues, and
-- one type for every call with the program that the call runs.
import SerialBindings.Settings
import SerialBindings.Transfer

open programs

namespace cpp_bindings_windows

/-! ## Opening and closing -/

/-- `utf8ToWide`: empty for null, for the empty string and for a text that is not UTF-8. -/
def utf8ToWide (utf8 : Option (List UInt8)) : Api WString := do
  match utf8 with
  | none | some [] => return []
  | some bytes =>
    -- the first call asks for the length, the second converts with the end mark
    match ← perform (.multiByteToWideChar bytes) with
    | none => return []
    | some _ =>
      match ← perform (.multiByteToWideChar bytes) with
      | none => return []
      | some wide => return wide.dropLast

/-- `L"\\\\.\\"`, `L"COM"` and `L"com"`. -/
def devicePrefix : WString := [92, 92, 46, 92]
def upperCom : WString := [67, 79, 77]
def lowerCom : WString := [99, 111, 109]

def normalizePortPath (port : WString) : WString :=
  if devicePrefix.isPrefixOf port then port
  else if upperCom.isPrefixOf port ∨ lowerCom.isPrefixOf port then devicePrefix ++ port
  else port

def serialOpen (core : CppCore) (port : Option (List UInt8)) (config : Option SerialConfig)
    (error_callback : Callback) : Api Int := do
  let callback ← effectiveErrorCallback error_callback
  let parameter_status ← validate core callback (core.validateOpenParams port config)
  if parameter_status < 0 then return parameter_status
  else
    let port_wide ← utf8ToWide port
    if port_wide = [] then
      failMsg core callback .kNotFoundError "Port string is invalid or not valid UTF-8"
    else
      let raw_handle ← perform (.createFile (normalizePortPath port_wide))
      let handle := if raw_handle = INVALID_HANDLE_VALUE then nullHandle else raw_handle
      if handle = nullHandle then failWin32 core callback .kNotFoundError
      else
        match ← applyLineSettings handle (config.getD ⟨0, 0, 0, 0, 0⟩) with
        | some failure =>
          -- `toCStatus` reports the failure, and then the owner of the handle closes it
          let status ← failMsg core callback failure.code failure.message
          let _ ← perform (.closeHandle handle)
          return status
        | none =>
          let _ ← perform (.purgeComm handle 0xF)
          if handle ≤ 0 then
            let status ← failMsg core callback .kInvalidHandleError "Invalid handle generated"
            let _ ← perform (.closeHandle handle)
            return status
          else
            let _ ← perform (.ensureHandleState handle)
            return handle

def serialClose (core : CppCore) (handle : Int64) (error_callback : Callback) : Api Int := do
  if handle.toInt ≤ 0 then return 0
  else
    match ← validateWin32Handle core handle error_callback with
    | .error status => return status
    | .ok native_handle =>
      if ← perform (.closeHandle native_handle) then
        perform (.removeHandleState native_handle)
        return kSuccess
      else
        let callback ← effectiveErrorCallback error_callback
        failWin32 core callback .kCloseHandleError

/-! ## The counters and the queues -/

/-- The start of the calls that keep the state of a handle. -/
def withHandleContext (core : CppCore) (handle : Int64) (error_callback : Callback)
    (body : HandleContext → Api Int) : Api Int := do
  match ← acquireHandleContext core handle error_callback with
  | .error status => return status
  | .ok context => body context

def serialInBytesTotal (core : CppCore) (handle : Int64) (error_callback : Callback) : Api Int :=
  withHandleContext core handle error_callback fun context =>
    perform (.loadTotal context.state .kRead)

def serialOutBytesTotal (core : CppCore) (handle : Int64) (error_callback : Callback) : Api Int :=
  withHandleContext core handle error_callback fun context =>
    perform (.loadTotal context.state .kWrite)

/-- `failWin32` with the effective callback, as the calls with a state do it. -/
def failEffective (core : CppCore) (error_callback : Callback) (code : StatusCode) : Api Int := do
  let callback ← effectiveErrorCallback error_callback
  failWin32 core callback code

def serialInBytesWaiting (core : CppCore) (handle : Int64) (error_callback : Callback) : Api Int :=
  withHandleContext core handle error_callback fun context => do
    match ← bytesWaiting context.handle with
    | none => failEffective core error_callback .kGetStateError
    | some waiting => return waiting

def serialOutBytesWaiting (core : CppCore) (handle : Int64) (error_callback : Callback) : Api Int :=
  withHandleContext core handle error_callback fun context => do
    match ← perform (.clearCommError context.handle) with
    | none => failEffective core error_callback .kGetStateError
    | some status =>
      return if (status.cbOutQue.toNat : Int) > INT_MAX then INT_MAX else intOfDword status.cbOutQue

def serialWaitForDrain (core : CppCore) (handle : Int64) (error_callback : Callback) : Api Int :=
  withHandleContext core handle error_callback fun context => do
    if ← perform (.flushFileBuffers context.handle) then return kSuccess
    else failEffective core error_callback .kWriteError

def serialClearBufferIn (core : CppCore) (handle : Int64) (error_callback : Callback) : Api Int :=
  withHandleContext core handle error_callback fun context => do
    if ← perform (.purgeComm context.handle 0x8) then return kSuccess
    else failEffective core error_callback .kClearBufferInError

def serialClearBufferOut (core : CppCore) (handle : Int64) (error_callback : Callback) : Api Int :=
  withHandleContext core handle error_callback fun context => do
    if ← perform (.flushFileBuffers context.handle) then
      if ← perform (.purgeComm context.handle 0x4) then return kSuccess
      else failEffective core error_callback .kClearBufferOutError
    else failEffective core error_callback .kClearBufferOutError

/-! ## Every call -/

/-- A call that moves bytes. -/
inductive TransferCall
  | serialRead (buffer : Pointer) (buffer_size : Int32)
  | serialReadUntilSequence (buffer : Pointer) (buffer_size : Int32)
      (sequence : Option (List UInt8)) (sequence_size : Int32)
  | serialWrite (buffer : Pointer) (buffer_size : Int32)

/-- The operation of the requests that the call makes. -/
def TransferCall.operation : TransferCall → Operation
  | .serialRead .. => .kRead
  | .serialReadUntilSequence .. => .kRead
  | .serialWrite .. => .kWrite

def TransferCall.program (core : CppCore) (handle : Int64)
    (timeout_config : Option SerialTimeoutConfig) (error_callback : Callback) :
    TransferCall → Api Int
  | .serialRead buffer buffer_size =>
    cpp_bindings_windows.serialRead core handle buffer buffer_size timeout_config error_callback
  | .serialReadUntilSequence buffer buffer_size sequence sequence_size =>
    cpp_bindings_windows.serialReadUntilSequence core handle buffer buffer_size timeout_config
      sequence sequence_size error_callback
  | .serialWrite buffer buffer_size =>
    cpp_bindings_windows.serialWrite core handle buffer buffer_size timeout_config error_callback

/-- A call that acts on the state of its handle without a request or an abort. -/
inductive StateCall
  | serialInBytesTotal
  | serialOutBytesTotal
  | serialInBytesWaiting
  | serialOutBytesWaiting
  | serialWaitForDrain
  | serialClearBufferIn
  | serialClearBufferOut

def StateCall.program (core : CppCore) (handle : Int64) (error_callback : Callback) :
    StateCall → Api Int
  | .serialInBytesTotal => cpp_bindings_windows.serialInBytesTotal core handle error_callback
  | .serialOutBytesTotal => cpp_bindings_windows.serialOutBytesTotal core handle error_callback
  | .serialInBytesWaiting => cpp_bindings_windows.serialInBytesWaiting core handle error_callback
  | .serialOutBytesWaiting => cpp_bindings_windows.serialOutBytesWaiting core handle error_callback
  | .serialWaitForDrain => cpp_bindings_windows.serialWaitForDrain core handle error_callback
  | .serialClearBufferIn => cpp_bindings_windows.serialClearBufferIn core handle error_callback
  | .serialClearBufferOut => cpp_bindings_windows.serialClearBufferOut core handle error_callback

/-- A call that only needs a valid handle. -/
inductive LineCall
  | serialSetBaudrate (baudrate : Int32)
  | serialSetDataBits (data_bits : DataBits)
  | serialSetParity (parity : Parity)
  | serialSetStopBits (stop_bits : StopBits)
  | serialSetFlowControl (mode : FlowControl)
  | serialGetBaudrate
  | serialGetDataBits
  | serialGetParity
  | serialGetStopBits
  | serialGetFlowControl
  | serialGetCts
  | serialGetDsr
  | serialGetDcd
  | serialGetRi
  | serialSetDtr (state : Int32)
  | serialSetRts (state : Int32)
  | serialSendBreak (duration_ms : Int32)

def LineCall.program (core : CppCore) (handle : Int64) (error_callback : Callback) :
    LineCall → Api Int
  | .serialSetBaudrate baudrate =>
    cpp_bindings_windows.serialSetBaudrate core handle baudrate error_callback
  | .serialSetDataBits data_bits =>
    cpp_bindings_windows.serialSetDataBits core handle data_bits error_callback
  | .serialSetParity parity =>
    cpp_bindings_windows.serialSetParity core handle parity error_callback
  | .serialSetStopBits stop_bits =>
    cpp_bindings_windows.serialSetStopBits core handle stop_bits error_callback
  | .serialSetFlowControl mode =>
    cpp_bindings_windows.serialSetFlowControl core handle mode error_callback
  | .serialGetBaudrate => cpp_bindings_windows.serialGetBaudrate core handle error_callback
  | .serialGetDataBits => cpp_bindings_windows.serialGetDataBits core handle error_callback
  | .serialGetParity => cpp_bindings_windows.serialGetParity core handle error_callback
  | .serialGetStopBits => cpp_bindings_windows.serialGetStopBits core handle error_callback
  | .serialGetFlowControl => cpp_bindings_windows.serialGetFlowControl core handle error_callback
  | .serialGetCts => cpp_bindings_windows.serialGetCts core handle error_callback
  | .serialGetDsr => cpp_bindings_windows.serialGetDsr core handle error_callback
  | .serialGetDcd => cpp_bindings_windows.serialGetDcd core handle error_callback
  | .serialGetRi => cpp_bindings_windows.serialGetRi core handle error_callback
  | .serialSetDtr state => cpp_bindings_windows.serialSetDtr core handle state error_callback
  | .serialSetRts state => cpp_bindings_windows.serialSetRts core handle state error_callback
  | .serialSendBreak duration_ms =>
    cpp_bindings_windows.serialSendBreak core handle duration_ms error_callback

/-- The calls of the C API that take or give a handle. -/
inductive ApiCall
  | serialOpen (port : Option (List UInt8)) (config : Option SerialConfig) (callback : Callback)
  | serialClose (handle : Int64) (callback : Callback)
  | transfer (handle : Int64) (timeout_config : Option SerialTimeoutConfig) (callback : Callback)
      (call : TransferCall)
  | serialAbortRead (handle : Int64) (callback : Callback)
  | serialAbortWrite (handle : Int64) (callback : Callback)
  | onState (handle : Int64) (callback : Callback) (call : StateCall)
  | onLine (handle : Int64) (callback : Callback) (call : LineCall)

/-- The program of a call. -/
def ApiCall.program (core : CppCore) : ApiCall → Api Int
  | .serialOpen port config callback => cpp_bindings_windows.serialOpen core port config callback
  | .serialClose handle callback => cpp_bindings_windows.serialClose core handle callback
  | .transfer handle timeout_config callback call =>
    call.program core handle timeout_config callback
  | .serialAbortRead handle callback => cpp_bindings_windows.serialAbortRead core handle callback
  | .serialAbortWrite handle callback => cpp_bindings_windows.serialAbortWrite core handle callback
  | .onState handle callback call => call.program core handle callback
  | .onLine handle callback call => call.program core handle callback

/-- The operation of a transfer, and none for the other calls. -/
def ApiCall.transfers : ApiCall → Option Operation
  | .transfer _ _ _ call => some call.operation
  | _ => none

/-- The operation that the call aborts, and none for the other calls. -/
def ApiCall.aborts : ApiCall → Option Operation
  | .serialAbortRead .. => some .kRead
  | .serialAbortWrite .. => some .kWrite
  | _ => none

/-- No call both transfers and aborts. -/
theorem ApiCall.transfers_of_aborts {c : ApiCall} {o : Operation} (h : c.aborts = some o) :
    c.transfers = none := by
  cases c <;> first | rfl | cases h

/-- The call opens a port. -/
def ApiCall.opens : ApiCall → Bool
  | .serialOpen .. => true
  | _ => false

/-- The call closes a handle. -/
def ApiCall.closes : ApiCall → Bool
  | .serialClose .. => true
  | _ => false

/-- The code of an aborted transfer. -/
def abortCode : Operation → StatusCode
  | .kRead => .kAbortReadError
  | .kWrite => .kAbortWriteError

/-- The handle argument of a call, and none for `serialOpen`. -/
def ApiCall.handle : ApiCall → Option Int64
  | .serialOpen .. => none
  | .serialClose handle _ => some handle
  | .transfer handle _ _ _ => some handle
  | .serialAbortRead handle _ => some handle
  | .serialAbortWrite handle _ => some handle
  | .onState handle _ _ => some handle
  | .onLine handle _ _ => some handle

end cpp_bindings_windows
