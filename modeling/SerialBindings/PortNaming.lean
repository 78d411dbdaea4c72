-- The name of a port behind a device interface, as the listener of port events finds
-- it: the device of the interface, its key, and the `PortName` in it.
import SerialBindings.DeviceStrings
import SerialBindings.PortEvents

open programs

namespace cpp_bindings_windows

open listing

/-! ## The actions -/

/-- `SP_DEVICE_INTERFACE_DATA`, as the number of the interface that it stands for. -/
abbrev SP_DEVICE_INTERFACE_DATA := Nat

/-- The actions of `portName` of `serial_set_event_callback.cpp`. What it shares with the listing
is an action of the listing. -/
inductive NamingAction
  | listing (action : ListingAction)
  | setupDiCreateDeviceInfoList
  | setupDiOpenDeviceInterface (devices : HDEVINFO) (path : WString)
  | setupDiGetDeviceInterfaceDetail (devices : HDEVINFO)
      (device_interface : SP_DEVICE_INTERFACE_DATA)
  | regGetValueSize (key : HKEY) (value_name : String)
  | regGetValue (key : HKEY) (value_name : String) (room : Nat) (bytes : DWORD)
  | systemMessage (error : DWORD)

/-- The answers. The query for the detail answers its `BOOL` and the device. A query of the
registry that fails answers its code. -/
@[reducible] def NamingAnswer : NamingAction → Type
  | .listing action => ListingAnswer action
  | .setupDiCreateDeviceInfoList => HDEVINFO
  | .setupDiOpenDeviceInterface .. => Option SP_DEVICE_INTERFACE_DATA
  | .setupDiGetDeviceInterfaceDetail .. => Bool × SP_DEVINFO_DATA
  | .regGetValueSize .. => Except DWORD DWORD
  | .regGetValue _ _ _ bytes => Except DWORD (Written UInt8 bytes)
  | .systemMessage _ => String

abbrev Naming := Prog NamingAction NamingAnswer

namespace naming

abbrev perform (action : NamingAction) : Naming (NamingAnswer action) := Prog.perform action

/-- A program of the listing as a part of this one. -/
abbrev lift {α : Type} (p : Listing α) : Naming α := Prog.lift NamingAction.listing p

/-! ## The exceptions -/

/-- A `std::system_error` of the system category. -/
def throwSystemError {α : Type} (error : DWORD) : Naming (Option (Except PortError α)) := do
  let what ← perform (.systemMessage error)
  return some (.error ⟨some error, what⟩)

def throwLastError {α : Type} : Naming (Option (Except PortError α)) := do
  let error ← perform (.listing (.api .getLastError))
  throwSystemError error

/-! ## The name -/

/-- The `PortName` under the key, in UTF-8. It ends with none when the scan for the end of the
string leaves the buffer. -/
def registryPort (key : HKEY) : Naming (Option (Except PortError Utf8)) := do
  match ← perform (.regGetValueSize key "PortName") with
  | .error error => throwSystemError error
  | .ok bytes =>
    -- the buffer has a unit more than the announced bytes
    let room := 2 * (bytes.toNat / 2 + 1)
    match ← perform (.regGetValue key "PortName" room bytes) with
    | .error error => throwSystemError error
    | .ok written =>
      match wstring (units (filled room written.data)) with
      | none => return none
      | some wide =>
        let port ← lift (wideToUtf8 wide)
        if port = [] then return some (.error ⟨none, "Serial device has no COM port name"⟩)
        else return some (.ok port)

/-- The condition behind the query for the detail, which is expected to be short of room. -/
def detailFailed (detailed : Bool) : Naming Bool := do
  if detailed then return false
  else
    let error ← perform (.listing (.api .getLastError))
    return error ≠ ERROR_INSUFFICIENT_BUFFER

/-- The part of `portName` while it has its list of devices. -/
def interfacePort (devices : HDEVINFO) (path : WString) :
    Naming (Option (Except PortError Utf8)) := do
  match ← perform (.setupDiOpenDeviceInterface devices path) with
  | none => throwLastError
  | some device_interface =>
    let (detailed, device) ← perform (.setupDiGetDeviceInterfaceDetail devices device_interface)
    if ← detailFailed detailed then throwLastError
    else
      let key ← perform (.listing (.setupDiOpenDevRegKey devices device))
      if key = INVALID_HANDLE_VALUE then throwLastError
      else
        let port ← registryPort key
        perform (.listing (.regCloseKey key))
        return port

def portName (path : WString) : Naming (Option (Except PortError Utf8)) := do
  let devices ← perform .setupDiCreateDeviceInfoList
  if devices = INVALID_HANDLE_VALUE then throwLastError
  else
    let port ← interfacePort devices path
    perform (.listing (.setupDiDestroyDeviceInfoList devices))
    return port

end naming

end cpp_bindings_windows
