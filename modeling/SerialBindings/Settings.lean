-- The line settings: the flow control and line settings of `src/detail`, the
-- five setters and getters, and the other calls that need only a valid handle.
import SerialBindings.Win32

open programs

namespace cpp_bindings_windows

def NOPARITY : UInt8 := 0
def ODDPARITY : UInt8 := 1
def EVENPARITY : UInt8 := 2
def ONESTOPBIT : UInt8 := 0
def TWOSTOPBITS : UInt8 := 2
def DTR_CONTROL_ENABLE : Nat := 1
def RTS_CONTROL_ENABLE : Nat := 1
def RTS_CONTROL_HANDSHAKE : Nat := 2
def CLRDTR : DWORD := 6
def SETDTR : DWORD := 5
def CLRRTS : DWORD := 4
def SETRTS : DWORD := 3
def MS_CTS_ON : DWORD := 0x10
def MS_DSR_ON : DWORD := 0x20
def MS_RING_ON : DWORD := 0x40
def MS_RLSD_ON : DWORD := 0x80

def applyFlowControl (settings : DCB) (mode : FlowControl) : DCB :=
  let settings := { settings with
    fOutxCtsFlow := false
    fRtsControl := RTS_CONTROL_ENABLE
    fOutX := false
    fInX := false }
  if mode = FlowControl.kRtsCts then
    { settings with fOutxCtsFlow := true, fRtsControl := RTS_CONTROL_HANDSHAKE }
  else if mode = FlowControl.kXonXoff then
    { settings with
      fOutX := true
      fInX := true
      XonChar := 0x11
      XoffChar := 0x13
      XonLim := 2048
      XoffLim := 512 }
  else settings

/-- The settings that `applyLineSettings` installs over `settings`, or none for a parity that
it refuses. -/
def lineSettings (settings : DCB) (config : SerialConfig) : Option DCB :=
  let settings := { settings with
    BaudRate := dwordOfInt config.baudrate.toInt
    ByteSize := UInt8.ofNat (config.data_bits % 256).toNat
    fBinary := true
    fParity := config.parity ≠ Parity.kNone
    fOutxDsrFlow := false
    fDtrControl := DTR_CONTROL_ENABLE
    fDsrSensitivity := false
    fTXContinueOnXoff := true }
  let settings := applyFlowControl settings config.flow_mode
  let stopBits (settings : DCB) : DCB :=
    if config.stop_bits = StopBits.kOne then { settings with StopBits := ONESTOPBIT }
    else if config.stop_bits = StopBits.kTwo then { settings with StopBits := TWOSTOPBITS }
    else settings
  if config.parity = Parity.kNone then some (stopBits { settings with Parity := NOPARITY })
  else if config.parity = Parity.kEven then some (stopBits { settings with Parity := EVENPARITY })
  else if config.parity = Parity.kOdd then some (stopBits { settings with Parity := ODDPARITY })
  else none

/-- `cpp_core::fail` with the text of the last error. -/
def failWithLastError (code : StatusCode) (text : String) : Api (Option Failure) := do
  let error ← perform .getLastError
  let message ← win32ErrorToString error
  return some ⟨code, text ++ message⟩

/-- `applyLineSettings`: none when the settings and the timeouts are installed. -/
def applyLineSettings (handle : HANDLE) (config : SerialConfig) : Api (Option Failure) := do
  match ← perform (.getCommState handle) with
  | none => failWithLastError .kGetStateError "GetCommState failed: "
  | some settings =>
    match lineSettings settings config with
    | none => return some ⟨.kSetStateError, "Invalid parity"⟩
    | some settings =>
      if ← perform (.setCommState handle settings) then
        if ← perform (.setCommTimeouts handle {}) then return none
        else failWithLastError .kSetTimeoutError "SetCommTimeouts failed: "
      else failWithLastError .kSetStateError "SetCommState failed: "

/-! ## Calls with a valid handle -/

/-- The start of the calls that keep no state of a handle. -/
def withNativeHandle (core : CppCore) (handle : Int64) (error_callback : Callback)
    (body : HANDLE → Api Int) : Api Int := do
  match ← validateWin32Handle core handle error_callback with
  | .error status => return status
  | .ok native_handle => body native_handle

/-- The common text of the five setters: the check of the argument, and then the
read-modify-write of the settings of the device. -/
def setLineSetting (core : CppCore) (handle : Int64) (error_callback : Callback)
    (check : Option Failure) (update : DCB → DCB) (code : StatusCode) : Api Int :=
  withNativeHandle core handle error_callback fun native_handle => do
    match check with
    | some failure =>
      let callback ← effectiveErrorCallback error_callback
      failMsg core callback failure.code failure.message
    | none =>
      match ← perform (.getCommState native_handle) with
      | none => failWin32 core error_callback .kGetStateError
      | some settings =>
        if ← perform (.setCommState native_handle (update settings)) then return 0
        else failWin32 core error_callback code

def serialSetBaudrate (core : CppCore) (handle : Int64) (baudrate : Int32)
    (error_callback : Callback) : Api Int :=
  setLineSetting core handle error_callback
    (if baudrate.toInt < 300
      then some ⟨.kSetBaudrateError, "Invalid baudrate: must be >= 300"⟩ else none)
    (fun settings => { settings with BaudRate := dwordOfInt baudrate.toInt })
    .kSetBaudrateError

def serialSetDataBits (core : CppCore) (handle : Int64) (data_bits : DataBits)
    (error_callback : Callback) : Api Int :=
  setLineSetting core handle error_callback
    (if data_bits < 5 ∨ data_bits > 8
      then some ⟨.kSetDataBitsError, "Invalid data bits: must be 5-8"⟩ else none)
    (fun settings => { settings with ByteSize := UInt8.ofNat (data_bits % 256).toNat })
    .kSetDataBitsError

/-- The `switch` of `serialSetParity`. -/
def windowsParity (parity : Parity) : Option UInt8 :=
  if parity = 0 then some NOPARITY
  else if parity = 1 then some EVENPARITY
  else if parity = 2 then some ODDPARITY
  else none

def serialSetParity (core : CppCore) (handle : Int64) (parity : Parity)
    (error_callback : Callback) : Api Int :=
  setLineSetting core handle error_callback
    (if windowsParity parity = none
      then some ⟨.kSetParityError, "Invalid parity: must be 0, 1, or 2"⟩ else none)
    (fun settings => { settings with
      Parity := (windowsParity parity).getD NOPARITY
      fParity := parity ≠ Parity.kNone })
    .kSetParityError

def serialSetStopBits (core : CppCore) (handle : Int64) (stop_bits : StopBits)
    (error_callback : Callback) : Api Int :=
  setLineSetting core handle error_callback
    (if stop_bits ≠ StopBits.kOne ∧ stop_bits ≠ StopBits.kTwo
      then some ⟨.kSetStopBitsError, "Invalid stop bits: must be 0 or 2"⟩ else none)
    (fun settings => { settings with
      StopBits := if stop_bits = StopBits.kTwo then TWOSTOPBITS else ONESTOPBIT })
    .kSetStopBitsError

def serialSetFlowControl (core : CppCore) (handle : Int64) (mode : FlowControl)
    (error_callback : Callback) : Api Int :=
  setLineSetting core handle error_callback
    (if mode < 0 ∨ mode > 2
      then some ⟨.kSetFlowControlError, "Invalid flow control mode: must be 0, 1, or 2"⟩ else none)
    (fun settings => applyFlowControl settings mode)
    .kSetFlowControlError

/-- The common text of the five getters. -/
def getLineSetting (core : CppCore) (handle : Int64) (error_callback : Callback)
    (read : DCB → Int) : Api Int :=
  withNativeHandle core handle error_callback fun native_handle => do
    match ← perform (.getCommState native_handle) with
    | none => failWin32 core error_callback .kGetStateError
    | some settings => return read settings

def serialGetBaudrate (core : CppCore) (handle : Int64) (error_callback : Callback) : Api Int :=
  getLineSetting core handle error_callback fun settings => intOfDword settings.BaudRate

def serialGetDataBits (core : CppCore) (handle : Int64) (error_callback : Callback) : Api Int :=
  getLineSetting core handle error_callback fun settings => settings.ByteSize.toNat

def serialGetParity (core : CppCore) (handle : Int64) (error_callback : Callback) : Api Int :=
  getLineSetting core handle error_callback fun settings =>
    if settings.Parity = EVENPARITY then 1 else if settings.Parity = ODDPARITY then 2 else 0

def serialGetStopBits (core : CppCore) (handle : Int64) (error_callback : Callback) : Api Int :=
  getLineSetting core handle error_callback fun settings =>
    if settings.StopBits = TWOSTOPBITS then 2 else 0

def serialGetFlowControl (core : CppCore) (handle : Int64) (error_callback : Callback) : Api Int :=
  getLineSetting core handle error_callback fun settings =>
    if settings.fOutxCtsFlow ∧ settings.fRtsControl = RTS_CONTROL_HANDSHAKE then 1
    else if settings.fOutX ∧ settings.fInX then 2
    else 0

/-- The common text of the four calls that read one line of the modem status. -/
def modemLine (core : CppCore) (handle : Int64) (error_callback : Callback) (mask : DWORD) :
    Api Int :=
  withNativeHandle core handle error_callback fun native_handle => do
    match ← perform (.getCommModemStatus native_handle) with
    | none => failWin32 core error_callback .kGetModemStatusError
    | some modem_status => return if modem_status &&& mask ≠ 0 then 1 else 0

def serialGetCts (core : CppCore) (handle : Int64) (error_callback : Callback) : Api Int :=
  modemLine core handle error_callback MS_CTS_ON

def serialGetDsr (core : CppCore) (handle : Int64) (error_callback : Callback) : Api Int :=
  modemLine core handle error_callback MS_DSR_ON

def serialGetDcd (core : CppCore) (handle : Int64) (error_callback : Callback) : Api Int :=
  modemLine core handle error_callback MS_RLSD_ON

def serialGetRi (core : CppCore) (handle : Int64) (error_callback : Callback) : Api Int :=
  modemLine core handle error_callback MS_RING_ON

/-- The common text of `serialSetDtr` and `serialSetRts`. -/
def escapeLine (core : CppCore) (handle : Int64) (error_callback : Callback) (function : DWORD)
    (code : StatusCode) : Api Int :=
  withNativeHandle core handle error_callback fun native_handle => do
    if ← perform (.escapeCommFunction native_handle function) then return 0
    else failWin32 core error_callback code

def serialSetDtr (core : CppCore) (handle : Int64) (state : Int32) (error_callback : Callback) :
    Api Int :=
  escapeLine core handle error_callback (if state ≠ 0 then SETDTR else CLRDTR) .kSetDtrError

def serialSetRts (core : CppCore) (handle : Int64) (state : Int32) (error_callback : Callback) :
    Api Int :=
  escapeLine core handle error_callback (if state ≠ 0 then SETRTS else CLRRTS) .kSetRtsError

def serialSendBreak (core : CppCore) (handle : Int64) (duration_ms : Int32)
    (error_callback : Callback) : Api Int :=
  withNativeHandle core handle error_callback fun native_handle => do
    if duration_ms.toInt ≤ 0 then
      let callback ← effectiveErrorCallback error_callback
      failMsg core callback .kSendBreakError "Break duration must be > 0"
    else if ← perform (.setCommBreak native_handle) then
      perform (.sleep (dwordOfInt duration_ms.toInt))
      if ← perform (.clearCommBreak native_handle) then return 0
      else failWin32 core error_callback .kSendBreakError
    else failWin32 core error_callback .kSendBreakError

end cpp_bindings_windows
