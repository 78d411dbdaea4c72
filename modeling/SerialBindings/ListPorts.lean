-- The call that lists the ports: the strings of a device from the registry, what the
-- bindings read out of them, and the walk over the devices of the class of ports.
import SerialBindings.Memory
import SerialBindings.Win32

open programs memory

namespace cpp_bindings_windows

/-! ## The words of Windows -/

def ERROR_INSUFFICIENT_BUFFER : DWORD := 122
def ERROR_NO_MORE_ITEMS : DWORD := 259

def REG_SZ : DWORD := 1
def REG_EXPAND_SZ : DWORD := 2

def SPDRP_MFG : DWORD := 11
def SPDRP_LOCATION_INFORMATION : DWORD := 13

abbrev HKEY := HANDLE
abbrev HDEVINFO := HANDLE

/-- `SP_DEVINFO_DATA`, as the number of the device that it stands for. -/
abbrev SP_DEVINFO_DATA := Nat

/-- The elements that Windows writes into a buffer that was told to hold `size` of them. -/
structure Written (α : Type) (size : DWORD) where
  data : List α
  length_le : data.length ≤ size.toNat

/-- The bytes of a `std::string`. -/
abbrev Utf8 := List UInt8

/-- The strings that the callback of `serialListPorts` gets, with none for `nullptr`. -/
structure ReportedPort where
  port : Option Utf8
  path : Option Utf8
  manufacturer : Option Utf8
  serial_number : Option Utf8
  pnp_id : Option Utf8
  location_id : Option Utf8
  product_id : Option Utf8
  vendor_id : Option Utf8

/-! ## The actions -/

/-- The actions of the listing. A query with a buffer names the elements that the buffer holds,
and the size that Windows is told. -/
inductive ListingAction
  | api (action : Action)
  | setupDiGetClassDevs
  | setupDiEnumDeviceInfo (device_information_set : HDEVINFO) (index : DWORD)
  | setupDiOpenDevRegKey (device_information_set : HDEVINFO) (device_information : SP_DEVINFO_DATA)
  | regQueryValueSize (key : HKEY) (value_name : String)
  | regQueryValue (key : HKEY) (value_name : String) (room : Nat) (size : DWORD)
  | regCloseKey (key : HKEY)
  | propertySize (device_information_set : HDEVINFO) (device_information : SP_DEVINFO_DATA)
      (property : DWORD)
  | property (device_information_set : HDEVINFO) (device_information : SP_DEVINFO_DATA)
      (property : DWORD) (room : Nat) (size : DWORD)
  | instanceIdSize (device_information_set : HDEVINFO) (device_information : SP_DEVINFO_DATA)
  | instanceId (device_information_set : HDEVINFO) (device_information : SP_DEVINFO_DATA)
      (room : Nat) (required : DWORD)
  | setupDiDestroyDeviceInfoList (device_information_set : HDEVINFO)
  | wideCharToMultiByte (wide : WString)
  | portCallback (callback_function : Callback) (port : ReportedPort)

/-- The answers. A call of Windows that can fail answers `none` when it does. The query for the
size of a value answers its type and its length in bytes. -/
@[reducible] def ListingAnswer : ListingAction → Type
  | .api action => Answer action
  | .setupDiGetClassDevs => HDEVINFO
  | .setupDiEnumDeviceInfo .. => Option SP_DEVINFO_DATA
  | .setupDiOpenDevRegKey .. => HKEY
  | .regQueryValueSize .. => Option (DWORD × DWORD)
  | .regQueryValue _ _ _ size => Option (Written UInt8 size)
  | .regCloseKey _ => Unit
  | .propertySize .. => DWORD
  | .property _ _ _ _ size => Option (Written UInt8 size)
  | .instanceIdSize .. => DWORD
  | .instanceId _ _ _ required => Option (Written UInt16 required)
  | .setupDiDestroyDeviceInfoList _ => Unit
  | .wideCharToMultiByte _ => Option Utf8
  | .portCallback .. => Unit

abbrev Listing := Prog ListingAction ListingAnswer

namespace listing

abbrev perform (action : ListingAction) : Listing (ListingAnswer action) := Prog.perform action

/-- A program of the C API as a part of the listing. -/
abbrev lift {α : Type} (p : Api α) : Listing α := Prog.lift ListingAction.api p

/-! ## Strings in buffers -/

/-- A `std::vector` of `room` zeros, after data was written from its start on. What is written
past its end is not in it. -/
def filled {α : Type} [Zero α] (room : Nat) (data : List α) : List α :=
  cells (store (fun _ => 0) 0 data) 0 room

/-- The UTF-16 units of bytes, without a single byte at the end. -/
def units : List UInt8 → WString
  | low :: high :: bytes => (low.toUInt16 ||| (high.toUInt16 <<< 8)) :: units bytes
  | _ => []

/-- `std::wstring(const wchar_t *)`: the units up to the first NUL. It is none when the scan for
the NUL leaves the buffer. -/
def wstring : WString → Option WString
  | [] => none
  | unit :: buffer => if unit = 0 then some [] else (wstring buffer).map (unit :: ·)

/-- It ends with none when the scan leaves the buffer, and with `some none` for `nullopt`. -/
def registryString (key : HKEY) (value_name : String) : Listing (Option (Option WString)) := do
  match ← perform (.regQueryValueSize key value_name) with
  | none => return some none
  | some (type, size) =>
    if (type ≠ REG_SZ ∧ type ≠ REG_EXPAND_SZ) ∨ size.toNat < 2 then return some none
    else
      -- the buffer has `size / sizeof(wchar_t)` units, and Windows is told `size` bytes
      let room := 2 * (size.toNat / 2)
      match ← perform (.regQueryValue key value_name room size) with
      | none => return some none
      | some written => return (wstring (units (filled room written.data))).map some

def portName (device_information_set : HDEVINFO) (device_information : SP_DEVINFO_DATA) :
    Listing (Option (Option WString)) := do
  let key ← perform (.setupDiOpenDevRegKey device_information_set device_information)
  if key = INVALID_HANDLE_VALUE then return some none
  else
    match ← registryString key "PortName" with
    | none => return none
    | some value =>
      perform (.regCloseKey key)
      return some value

def deviceProperty (device_information_set : HDEVINFO) (device_information : SP_DEVINFO_DATA)
    (property : DWORD) : Listing (Option (Option WString)) := do
  let size ← perform (.propertySize device_information_set device_information property)
  let error ← perform (.api .getLastError)
  if error ≠ ERROR_INSUFFICIENT_BUFFER ∨ size.toNat < 2 then return some none
  else
    match ← perform
        (.property device_information_set device_information property size.toNat size) with
    | none => return some none
    | some written => return (wstring (units (filled size.toNat written.data))).map some

def instanceId (device_information_set : HDEVINFO) (device_information : SP_DEVINFO_DATA) :
    Listing (Option (Option WString)) := do
  let required ← perform (.instanceIdSize device_information_set device_information)
  let error ← perform (.api .getLastError)
  if error ≠ ERROR_INSUFFICIENT_BUFFER ∨ required = 0 then return some none
  else
    match ← perform
        (.instanceId device_information_set device_information required.toNat required) with
    | none => return some none
    | some written => return (wstring (filled required.toNat written.data)).map some

/-! ## What the bindings read out of the strings -/

/-- `wideToUtf8`: empty for the empty string and for a text that is not UTF-16. -/
def wideToUtf8 (wide : WString) : Listing Utf8 := do
  if wide = [] then return []
  else
    -- the first call asks for the length, the second converts
    match ← perform (.wideCharToMultiByte wide) with
    | none => return []
    | some _ =>
      match ← perform (.wideCharToMultiByte wide) with
      | none => return []
      | some utf8 => return utf8

def asciiUpper (value : Utf8) : Utf8 :=
  value.map fun character => if 97 ≤ character ∧ character ≤ 122 then character - 32 else character

/-- `std::string::find`. -/
def find (text : Utf8) : Utf8 → Option Nat
  | [] => if text = [] then some 0 else none
  | character :: value =>
    if text.isPrefixOf (character :: value) then some 0 else (find text value).map (· + 1)

/-- The four characters after the first `prefix` in the identifier of the device. -/
def hardwareId (pnp_id marker : Utf8) : Utf8 :=
  let upper := asciiUpper pnp_id
  match find marker upper with
  | none => []
  | some position =>
    if position + marker.length + 4 > upper.length then []
    else (upper.drop (position + marker.length)).take 4

/-- The part after the last backslash, when it has no `&`. -/
def serialNumber (pnp_id : Utf8) : Utf8 :=
  if 92 ∉ pnp_id then []
  else
    let candidate := (pnp_id.reverse.takeWhile (· ≠ 92)).reverse
    if 38 ∈ candidate then [] else candidate

def optionalCString (value : Utf8) : Option Utf8 := if value = [] then none else some value

/-! ## The walk over the devices -/

structure PortInformation where
  port : Utf8
  path : Utf8
  manufacturer : Utf8 := []
  serial_number : Utf8 := []
  pnp_id : Utf8 := []
  location_id : Utf8 := []
  product_id : Utf8 := []
  vendor_id : Utf8 := []

def PortInformation.reported (port_information : PortInformation) : ReportedPort where
  port := optionalCString port_information.port
  path := optionalCString port_information.path
  manufacturer := optionalCString port_information.manufacturer
  serial_number := optionalCString port_information.serial_number
  pnp_id := optionalCString port_information.pnp_id
  location_id := optionalCString port_information.location_id
  product_id := optionalCString port_information.product_id
  vendor_id := optionalCString port_information.vendor_id

/-- `"\\\\.\\"`, `"VID_"` and `"PID_"`. -/
def devicePath : Utf8 := [92, 92, 46, 92]
def vendorMarker : Utf8 := [86, 73, 68, 95]
def productMarker : Utf8 := [80, 73, 68, 95]

/-- `L"COM"` and `L"com"` at the start of a name with a number. -/
def isComName (port_name : WString) : Bool :=
  4 ≤ port_name.length && (([67, 79, 77] : WString).isPrefixOf port_name ||
    ([99, 111, 109] : WString).isPrefixOf port_name)

/-- A string of a device in UTF-8, and the empty string when the device has none. -/
def optionalUtf8 (value : Option (Option WString)) : Listing (Option Utf8) := do
  match value with
  | none => return none
  | some none => return some []
  | some (some wide) => return some (← wideToUtf8 wide)

/-- One turn of the loop: `some none` for a device that is not listed. -/
def portInformation (device_information_set : HDEVINFO) (device_information : SP_DEVINFO_DATA) :
    Listing (Option (Option PortInformation)) := do
  match ← portName device_information_set device_information with
  | none => return none
  | some none => return some none
  | some (some port_name) =>
    if !isComName port_name then return some none
    else
      let port ← wideToUtf8 port_name
      match ← optionalUtf8
          (← deviceProperty device_information_set device_information SPDRP_MFG) with
      | none => return none
      | some manufacturer =>
        match ← optionalUtf8
            (← deviceProperty device_information_set device_information
              SPDRP_LOCATION_INFORMATION) with
        | none => return none
        | some location_id =>
          match ← instanceId device_information_set device_information with
          | none => return none
          | some none =>
            return some (some { port, path := devicePath ++ port, manufacturer, location_id })
          | some (some wide) =>
            let pnp_id ← wideToUtf8 wide
            return some (some {
              port, path := devicePath ++ port, manufacturer, location_id, pnp_id
              serial_number := serialNumber pnp_id
              vendor_id := hardwareId pnp_id vendorMarker
              product_id := hardwareId pnp_id productMarker })

/-- The loop, followed for so many turns. It ends with the code of an error that it reported, or
with the ports, and with none where it is not followed further. -/
def enumerate (core : CppCore) (callback : Callback) (device_information_set : HDEVINFO) :
    Nat → DWORD → List PortInformation → Listing (Option (Except Int (List PortInformation)))
  | 0, _, _ => return none
  | turns + 1, index, ports => do
    match ← perform (.setupDiEnumDeviceInfo device_information_set index) with
    | none =>
      let error ← perform (.api .getLastError)
      if error = ERROR_NO_MORE_ITEMS then return some (.ok ports)
      else
        let status ← lift (failWin32 core callback .kMonitorError)
        return some (.error status)
    | some device_information =>
      match ← portInformation device_information_set device_information with
      | none => return none
      | some none => enumerate core callback device_information_set turns (index + 1) ports
      | some (some port_information) =>
        enumerate core callback device_information_set turns (index + 1)
          (ports ++ [port_information])

/-- The calls of the callback, one for each port. -/
def reportPorts (callback_function : Callback) : List PortInformation → Listing Unit
  | [] => return ()
  | port_information :: ports => do
    perform (.portCallback callback_function port_information.reported)
    reportPorts callback_function ports

/-- `static_cast<int>` of a `std::size_t`. -/
def intOfSize (n : Nat) : Int := (n : Int).bmod 4294967296

end listing

/-- It ends with none where it is not followed further. -/
def serialListPorts (core : CppCore) (turns : Nat) (callback_function error_callback : Callback) :
    Listing (Option Int) := do
  let callback ← listing.lift (effectiveErrorCallback error_callback)
  if callback_function = none then
    let status ← listing.lift (failMsg core callback .kBufferError "Port callback must not be null")
    return some status
  else
    let device_information_set ← listing.perform .setupDiGetClassDevs
    if device_information_set = INVALID_HANDLE_VALUE then
      let status ← listing.lift (failWin32 core callback .kMonitorError)
      return some status
    else
      match ← listing.enumerate core callback device_information_set turns 0 [] with
      | none => return none
      | some (.error status) =>
        listing.perform (.setupDiDestroyDeviceInfoList device_information_set)
        return some status
      | some (.ok ports) =>
        -- the order that `std::ranges::sort` gives equal names is not modelled: this sort is stable
        let ports := ports.mergeSort fun one other => decide (one.port ≤ other.port)
        listing.reportPorts callback_function ports
        listing.perform (.setupDiDestroyDeviceInfoList device_information_set)
        return some (listing.intOfSize ports.length)

end cpp_bindings_windows
