-- The transfers: one request with its wait and its abort, the loops of
-- `read_impl.hpp` and `write_impl.hpp`, and the calls of the C API on them.
import SerialBindings.HandleState

open programs

namespace cpp_bindings_windows

inductive IoOutcome
  | kCompleted
  | kTimedOut
  | kAborted
  | kError
  deriving DecidableEq, Inhabited

structure IoResult where
  outcome : IoOutcome := .kError
  bytes_transferred : Int := 0
  error : DWORD := ERROR_SUCCESS
  deriving DecidableEq, Inhabited

/-! ## One request -/

/-- `waitForPendingIo`. The `OVERLAPPED` is the one of the calling thread, and `event` is its
`hEvent`. -/
def waitForPendingIo (core : CppCore) (context : HandleContext) (operation : Operation)
    (event : HANDLE) (timeout_ms : Int) : Api IoResult := do
  let wait_result ← perform (.waitForSingleObject event (dwordOfInt (core.clampTimeout timeout_ms)))
  if wait_result = WAIT_TIMEOUT then
    perform (.cancelIoEx context.handle)
    -- the count of this result is ignored
    let _ignored ← perform (.getOverlappedResult context.handle true)
    let aborted ← perform (.finishPendingIo context.state operation)
    if aborted then return { outcome := .kAborted }
    else return { outcome := .kTimedOut }
  else if wait_result ≠ WAIT_OBJECT_0 then
    let error ← perform .getLastError
    perform (.cancelIoEx context.handle)
    let _ignored ← perform (.getOverlappedResult context.handle true)
    let aborted ← perform (.finishPendingIo context.state operation)
    return { outcome := if aborted then .kAborted else .kError, error }
  else
    let result ← perform (.getOverlappedResult context.handle false)
    let error := if result.completed then ERROR_SUCCESS else result.error
    let aborted ← perform (.finishPendingIo context.state operation)
    if aborted ∨ error = ERROR_OPERATION_ABORTED then return { outcome := .kAborted }
    else if result.completed = false then return { outcome := .kError, error }
    else return { outcome := .kCompleted, bytes_transferred := intOfDword result.transferred }

/-- The part of `readChunk` and `writeChunk` between the creation of the event and its end. -/
def requestChunk (core : CppCore) (context : HandleContext) (operation : Operation)
    (offset buffer_size : Int) (timeout_ms : Int) (event : HANDLE) : Api IoResult := do
  let (start, transferred) ← perform (.startPendingIo context.state operation
    { handle := context.handle, offset, size := dwordOfInt buffer_size })
  if start.aborted then return { outcome := .kAborted }
  else if start.completed then
    let aborted ← perform (.finishPendingIo context.state operation)
    return { outcome := if aborted then .kAborted else .kCompleted
             bytes_transferred := intOfDword transferred }
  else if start.error ≠ ERROR_IO_PENDING then
    let aborted ← perform (.finishPendingIo context.state operation)
    return { outcome := if aborted then .kAborted else .kError, error := start.error }
  else waitForPendingIo core context operation event timeout_ms

/-- The common text of `readChunk` and `writeChunk`. The event is closed when the chunk
returns. -/
def transferChunk (core : CppCore) (operation : Operation) (context : HandleContext)
    (offset buffer_size : Int) (timeout_ms : Int) : Api IoResult := do
  match ← perform .createEvent with
  | none =>
    let error ← perform .getLastError
    return { outcome := .kError, error }
  | some event =>
    let result ← requestChunk core context operation offset buffer_size timeout_ms event
    let _ ← perform (.closeHandle event)
    return result

def readChunk (core : CppCore) (context : HandleContext) (offset buffer_size timeout_ms : Int) :
    Api IoResult :=
  transferChunk core .kRead context offset buffer_size timeout_ms

def writeChunk (core : CppCore) (context : HandleContext) (offset buffer_size timeout_ms : Int) :
    Api IoResult :=
  transferChunk core .kWrite context offset buffer_size timeout_ms

/-! ## What the loops use -/

def multiplierTimeout (core : CppCore) (timeout_ms multiplier : Int) : Int :=
  if multiplier ≤ 0 then 0
  else
    let timeout := core.clampTimeout timeout_ms * multiplier
    if timeout > INT_MAX then INT_MAX else timeout

/-- The timeout of the next chunk, after `total` bytes. -/
def currentTimeout (core : CppCore) (config : SerialTimeoutConfig) (total : Int) : Int :=
  if total = 0 then core.clampTimeout config.timeout_ms.toInt
  else multiplierTimeout core config.timeout_ms.toInt config.multiplier.toInt

/-- `matchesSuffix` on the first `buffer_size` bytes of a buffer. -/
def matchesSuffix (buffer : List UInt8) (buffer_size : Int) (terminator : List UInt8)
    (terminator_size : Int) : Bool :=
  decide (terminator_size > 0) && decide (buffer_size ≥ terminator_size) &&
    ((buffer.drop (buffer_size - terminator_size).toNat).take terminator_size.toNat ==
      terminator.take terminator_size.toNat)

/-- `bytesWaiting`, whose pointer is never null here: the clamped count, or none for `false`. -/
def bytesWaiting (handle : HANDLE) : Api (Option Int) := do
  match ← perform (.clearCommError handle) with
  | none => return none
  | some status =>
    return some (if (status.cbInQue.toNat : Int) > INT_MAX then INT_MAX
      else intOfDword status.cbInQue)

def noteBytesTransferred (state : StateRef) (operation : Operation) (transferred_bytes : Int) :
    Api Unit := do
  perform (.addTotal state operation transferred_bytes)
  let callback ← perform (.loadIoCallback operation)
  if callback ≠ none then perform (.invokeIoCallback callback transferred_bytes)
  else return ()

/-! ## The loops -/

/-- The size of the next read: as many bytes as wait, but 1 with a terminator. -/
def nextReadSize (handle : HANDLE) (remaining terminator_size : Int) : Api (Option Int) := do
  if terminator_size ≤ 0 then
    match ← bytesWaiting handle with
    | none => return none
    | some waiting => return some (if waiting > 0 then min waiting remaining else 1)
  else return some 1

/-- The arguments of `readImpl` that its loop reads. -/
structure ReadArgs where
  buffer_size : Int
  timeout_config : SerialTimeoutConfig
  terminator : List UInt8
  terminator_size : Int
  callback : Callback

/-- The loop of `readImpl`. Every turn that goes on adds a byte or more to `total_read`, so
`buffer_size` turns are enough. -/
def readLoop (core : CppCore) (args : ReadArgs) (context : HandleContext) : Nat → Int → Api Int
  | 0, total_read => return total_read
  | turns + 1, total_read => do
    if ¬ total_read < args.buffer_size then return total_read
    else
      match ← nextReadSize context.handle (args.buffer_size - total_read) args.terminator_size with
      | none => failWin32 core args.callback .kGetStateError
      | some chunk_size =>
        let result ← readChunk core context total_read chunk_size
          (currentTimeout core args.timeout_config total_read)
        match result.outcome with
        | .kTimedOut => return total_read
        | .kAborted => failMsg core args.callback .kAbortReadError "Read aborted"
        | .kError =>
          perform (.setLastError result.error)
          failWin32 core args.callback .kReadError
        | .kCompleted =>
          if result.bytes_transferred ≤ 0 then return total_read
          else
            noteBytesTransferred context.state .kRead result.bytes_transferred
            let total_read := total_read + result.bytes_transferred
            let bytes ← perform (.loadBuffer total_read)
            if matchesSuffix bytes total_read args.terminator args.terminator_size then
              return total_read
            else readLoop core args context turns total_read

def readImpl (core : CppCore) (handle : Int64) (buffer : Pointer) (buffer_size : Int32)
    (timeout_config : Option SerialTimeoutConfig) (terminator : Option (List UInt8))
    (terminator_size : Int32) (error_callback : Callback) : Api Int := do
  let callback ← effectiveErrorCallback error_callback
  let timeout_status ← validate core callback (core.validateTimeoutConfig timeout_config)
  if timeout_status < 0 then return timeout_status
  else
    let buffer_status ← validate core callback (core.validateBuffer buffer buffer_size.toInt)
    if buffer_status < 0 then return buffer_status
    else if terminator_size.toInt > 0 ∧ terminator = none then
      failMsg core callback .kBufferError "Invalid terminator"
    else
      match ← acquireHandleContext core handle callback with
      | .error handle_status => return handle_status
      | .ok context =>
        readLoop core
          { buffer_size := buffer_size.toInt
            timeout_config := timeout_config.getD ⟨0, 0⟩
            terminator := terminator.getD []
            terminator_size := terminator_size.toInt
            callback } context buffer_size.toInt.toNat 0

/-- The loop of `writeImpl`, with one turn for each byte at most. -/
def writeLoop (core : CppCore) (buffer_size : Int) (timeout_config : SerialTimeoutConfig)
    (callback : Callback) (context : HandleContext) : Nat → Int → Api Int
  | 0, total_written => return total_written
  | turns + 1, total_written => do
    if ¬ total_written < buffer_size then return total_written
    else
      let result ← writeChunk core context total_written (buffer_size - total_written)
        (currentTimeout core timeout_config total_written)
      match result.outcome with
      | .kTimedOut => return total_written
      | .kAborted => failMsg core callback .kAbortWriteError "Write aborted"
      | .kError =>
        perform (.setLastError result.error)
        failWin32 core callback .kWriteError
      | .kCompleted =>
        if result.bytes_transferred ≤ 0 then return total_written
        else
          noteBytesTransferred context.state .kWrite result.bytes_transferred
          writeLoop core buffer_size timeout_config callback context turns
            (total_written + result.bytes_transferred)

def writeImpl (core : CppCore) (handle : Int64) (buffer : Pointer) (buffer_size : Int32)
    (timeout_config : Option SerialTimeoutConfig) (error_callback : Callback) : Api Int := do
  let callback ← effectiveErrorCallback error_callback
  let timeout_status ← validate core callback (core.validateTimeoutConfig timeout_config)
  if timeout_status < 0 then return timeout_status
  else
    let buffer_status ← validate core callback (core.validateBuffer buffer buffer_size.toInt)
    if buffer_status < 0 then return buffer_status
    else
      match ← acquireHandleContext core handle callback with
      | .error handle_status => return handle_status
      | .ok context =>
        writeLoop core buffer_size.toInt (timeout_config.getD ⟨0, 0⟩) callback context
          buffer_size.toInt.toNat 0

/-! ## The calls -/

def serialRead (core : CppCore) (handle : Int64) (buffer : Pointer) (buffer_size : Int32)
    (timeout_config : Option SerialTimeoutConfig) (error_callback : Callback) : Api Int :=
  readImpl core handle buffer buffer_size timeout_config none 0 error_callback

def serialReadUntilSequence (core : CppCore) (handle : Int64) (buffer : Pointer)
    (buffer_size : Int32) (timeout_config : Option SerialTimeoutConfig)
    (sequence : Option (List UInt8)) (sequence_size : Int32) (error_callback : Callback) :
    Api Int := do
  let callback ← effectiveErrorCallback error_callback
  if sequence = none ∨ sequence_size.toInt ≤ 0 then
    failMsg core callback .kBufferError
      "Sequence must not be null and sequence_size must be positive"
  else
    readImpl core handle buffer buffer_size timeout_config sequence sequence_size callback

def serialWrite (core : CppCore) (handle : Int64) (buffer : Pointer) (buffer_size : Int32)
    (timeout_config : Option SerialTimeoutConfig) (error_callback : Callback) : Api Int :=
  writeImpl core handle buffer buffer_size timeout_config error_callback

/-! ## The aborts -/

/-- `requestAbort`: the flag is stored outside the mutex, and the request is canceled under it. -/
def requestAbort (context : HandleContext) (operation : Operation) : Api Unit := do
  perform (.storeAbort context.state operation)
  perform (.cancelPending context.handle context.state operation)

def abortCall (core : CppCore) (operation : Operation) (handle : Int64)
    (error_callback : Callback) : Api Int := do
  match ← acquireHandleContext core handle error_callback with
  | .error status => return status
  | .ok context =>
    requestAbort context operation
    return kSuccess

def serialAbortRead (core : CppCore) (handle : Int64) (error_callback : Callback) : Api Int :=
  abortCall core .kRead handle error_callback

def serialAbortWrite (core : CppCore) (handle : Int64) (error_callback : Callback) : Api Int :=
  abortCall core .kWrite handle error_callback

end cpp_bindings_windows
