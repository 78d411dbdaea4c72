-- The instance ID of a USB device: where the searches of the bindings stop in it, and
-- what the callback of `serialListPorts` is told of its vendor, its product and its
-- serial number.
import SerialBindings.DeviceStrings
import SerialBindings.ListingRules

open programs

namespace cpp_bindings_windows

open listing

/-! ## The searches -/

@[simp] theorem asciiUpper_nil : asciiUpper [] = [] := rfl

@[simp] theorem asciiUpper_append (text more : Utf8) :
    asciiUpper (text ++ more) = asciiUpper text ++ asciiUpper more := by
  simp [asciiUpper]

@[simp] theorem asciiUpper_length (text : Utf8) : (asciiUpper text).length = text.length := by
  simp [asciiUpper]

/-- The first occurrence of a marker is not before its first character. -/
theorem find_behind {m : UInt8} {marker before : Utf8} (rest : Utf8) (h : m ∉ before) :
    find (m :: marker) (before ++ (m :: marker ++ rest)) = some before.length := by
  induction before with
  | nil => simp [find]
  | cons c before ih =>
    have hc : m ≠ c := fun heq => h (heq ▸ List.mem_cons_self)
    have hbefore : m ∉ before := fun hmem => h (List.mem_cons_of_mem c hmem)
    have hnot : (m :: marker).isPrefixOf (c :: (before ++ (m :: marker ++ rest))) = false := by
      rw [List.isPrefixOf_cons_cons, beq_false_of_ne hc, Bool.false_and]
    rw [List.cons_append, find, hnot, ih hbefore]
    simp

/-- The four characters behind the first marker. -/
theorem hardwareId_behind {m : UInt8} {pnp_id marker before digits rest : Utf8}
    (hupper : asciiUpper pnp_id = before ++ (m :: marker ++ (digits ++ rest)))
    (hbefore : m ∉ before) (hdigits : digits.length = 4) :
    hardwareId pnp_id (m :: marker) = digits := by
  have hfind : find (m :: marker) (asciiUpper pnp_id) = some before.length := by
    rw [hupper]
    exact find_behind _ hbefore
  have hroom : ¬ before.length + (m :: marker).length + 4 > (asciiUpper pnp_id).length := by
    rw [hupper]
    simp [hdigits]
    omega
  have hdrop : (asciiUpper pnp_id).drop (before.length + (m :: marker).length) =
      digits ++ rest := by
    rw [hupper, ← List.append_assoc, ← List.length_append, List.drop_left]
  unfold hardwareId
  simp only [hfind]
  rw [if_neg hroom, hdrop, ← hdigits, List.take_left]

/-- The text behind the last backslash. -/
theorem serialNumber_behind {before after : Utf8} (h : 92 ∉ after) :
    serialNumber (before ++ 92 :: after) = if 38 ∈ after then [] else after := by
  have hall : ∀ c ∈ after.reverse, decide (c ≠ 92) = true := by
    intro c hc
    have hne : c ≠ 92 := fun heq => h (heq ▸ List.mem_reverse.mp hc)
    exact decide_eq_true hne
  have htake : ((before ++ 92 :: after).reverse.takeWhile (· ≠ 92)).reverse = after := by
    rw [List.reverse_append, List.reverse_cons, List.append_assoc,
      List.takeWhile_append_of_pos hall]
    simp
  unfold serialNumber
  rw [if_neg (by simp)]
  simp only [htake]

/-! ## The instance ID -/

/-- `0` to `9`, `A` to `F` and `a` to `f`. -/
def IsHexDigit (c : UInt8) : Prop :=
  (48 ≤ c ∧ c ≤ 57) ∨ (65 ≤ c ∧ c ≤ 70) ∨ (97 ≤ c ∧ c ≤ 102)

/-- `USB\VID_vvvv&PID_pppp<suffix>\<instance>` in any letter case. -/
structure UsbId where
  bus : Utf8
  vendorLabel : Utf8
  vendor : Utf8
  productLabel : Utf8
  product : Utf8
  suffix : Utf8
  deviceInstance : Utf8
  bus_upper : asciiUpper bus = [85, 83, 66]
  vendorLabel_upper : asciiUpper vendorLabel = vendorMarker
  vendor_length : vendor.length = 4
  vendor_hex : ∀ c ∈ vendor, IsHexDigit c
  productLabel_upper : asciiUpper productLabel = productMarker
  product_length : product.length = 4
  product_hex : ∀ c ∈ product, IsHexDigit c
  suffix_start : suffix = [] ∨ suffix.head? = some 38
  suffix_plain : 92 ∉ suffix
  instance_some : deviceInstance ≠ []
  instance_plain : 92 ∉ deviceInstance

namespace UsbId

variable (id : UsbId)

def text : Utf8 :=
  id.bus ++ 92 :: id.vendorLabel ++ id.vendor ++ 38 :: id.productLabel ++ id.product ++ id.suffix ++
    92 :: id.deviceInstance

theorem upper_text : asciiUpper id.text =
    [85, 83, 66, 92] ++ (vendorMarker ++ (asciiUpper id.vendor ++ (38 :: productMarker ++
      (asciiUpper id.product ++ asciiUpper (id.suffix ++ 92 :: id.deviceInstance))))) := by
  have hslash : ∀ more, asciiUpper (92 :: more) = 92 :: asciiUpper more := fun _ => rfl
  have hand : ∀ more, asciiUpper (38 :: more) = 38 :: asciiUpper more := fun _ => rfl
  unfold text
  simp [id.bus_upper, id.vendorLabel_upper, id.productLabel_upper, hslash, hand]

/-- No digit of the vendor looks like the start of the marker of the product. -/
theorem no_marker_in_vendor : (80 : UInt8) ∉ asciiUpper id.vendor := by
  intro hmem
  obtain ⟨c, hc, hupper⟩ := List.mem_map.mp hmem
  have hhex := id.vendor_hex c hc
  unfold IsHexDigit at hhex
  simp only [UInt8.le_iff_toNat_le] at hhex hupper
  split at hupper
  · rename_i hlower
    have hnat := congrArg UInt8.toNat hupper
    rw [UInt8.toNat_sub_of_le _ _ (UInt8.le_iff_toNat_le.mpr (by simp at hlower ⊢; omega))] at hnat
    simp at hnat hhex
    omega
  · rw [hupper] at hhex
    simp at hhex

theorem vendor_found : hardwareId id.text vendorMarker = asciiUpper id.vendor := by
  apply hardwareId_behind id.upper_text
  · decide
  · rw [asciiUpper_length, id.vendor_length]

theorem product_found : hardwareId id.text productMarker = asciiUpper id.product := by
  have hupper : asciiUpper id.text =
      ([85, 83, 66, 92] ++ vendorMarker ++ asciiUpper id.vendor ++ [38]) ++ (productMarker ++
        (asciiUpper id.product ++ asciiUpper (id.suffix ++ 92 :: id.deviceInstance))) := by
    rw [id.upper_text]
    simp
  apply hardwareId_behind hupper
  · have hvendor := id.no_marker_in_vendor
    simp only [List.mem_append, not_or]
    exact ⟨⟨⟨by decide, by decide⟩, hvendor⟩, by decide⟩
  · rw [asciiUpper_length, id.product_length]

theorem serial_found : serialNumber id.text =
    if 38 ∈ id.deviceInstance then [] else id.deviceInstance :=
  serialNumber_behind id.instance_plain

end UsbId

/-! ## What the callback is told -/

/-- What the listing tells the callback of a port satisfies `D`. -/
def ListingAction.Tells (D : ReportedPort → Prop) : ListingAction → Prop
  | .portCallback _ port => D port
  | _ => True

/-! ## The decoded fields -/

/-- For each USB ID that the callback is told, it is told what stands in it. -/
def ReportedPort.Decoded (port : ReportedPort) : Prop :=
  ∀ id : UsbId, port.pnp_id = some id.text →
    port.vendor_id = some (asciiUpper id.vendor) ∧
      port.product_id = some (asciiUpper id.product) ∧
      port.serial_number = if 38 ∈ id.deviceInstance then none else some id.deviceInstance

theorem optionalCString_of_ne {value : Utf8} (h : value ≠ []) :
    optionalCString value = some value :=
  if_neg h

theorem listing.PortInformation.Decoded.reported {port : PortInformation} (h : port.Decoded) :
    port.reported.Decoded := by
  intro id hid
  have htext : port.pnp_id = id.text := by
    unfold PortInformation.reported optionalCString at hid
    simp only at hid
    split at hid
    · cases hid
    · exact Option.some.inj hid
  obtain ⟨hvendor, hproduct, hserial⟩ := h
  rw [htext] at hvendor hproduct hserial
  unfold PortInformation.reported
  simp only [hvendor, hproduct, hserial, id.vendor_found, id.product_found, id.serial_found]
  refine ⟨optionalCString_of_ne ?_, optionalCString_of_ne ?_, ?_⟩
  · rw [← List.length_pos_iff_ne_nil, asciiUpper_length, id.vendor_length]
    decide
  · rw [← List.length_pos_iff_ne_nil, asciiUpper_length, id.product_length]
    decide
  · split
    · rfl
    · exact optionalCString_of_ne id.instance_some

section Tells

variable {D : ReportedPort → Prop}

theorem portName_tells (set : HDEVINFO) (device : SP_DEVINFO_DATA) :
    Within (ListingAction.Tells D) (fun _ => True) (portName set device) :=
  portName_acts trivial (fun _ => trivial) (fun _ _ _ => trivial) fun _ => trivial

theorem describes_tells {set : HDEVINFO} {device : SP_DEVINFO_DATA} {e : ListingAction}
    (h : e.Describes set device) : e.Tells D := by
  cases e <;> first | exact h.elim | trivial

theorem portInformation_decodes (set : HDEVINFO) (device : SP_DEVINFO_DATA) :
    Within (ListingAction.Tells D)
      (fun result => ∀ port, result = some (some port) → port.Decoded)
      (portInformation set device) := by
  have hturn : Follows (only (ListingAction.Tells D))
      (fun _ result => ∀ found : Option PortInformation, result = some found →
        ∀ port, found = some port → port.Decoded) (portInformation set device) () := by
    apply portInformation_follows (N := fun _ _ => True)
    · exact follows_of_passes (portName_tells set device) (fun _ he => only_passes he)
        fun _ _ _ _ => trivial
    · intro _ _ e _ he
      exact only_passes (describes_tells he)
    · exact fun _ _ => nofun
    · rintro _ _ port _ _ hdecoded _ ⟨⟩
      exact hdecoded
  exact within_mono (within_of_follows hturn) (fun _ he => he) fun _ h port hport =>
    h (some port) hport port rfl

/-- A program of the C API inside the listing tells the callback of the ports nothing. -/
theorem lift_tells {α : Type} (p : Api α) {Q : Unit → α → Prop} (hQ : ∀ a, Q () a) :
    Follows (only (ListingAction.Tells D)) Q (listing.lift p) () := by
  have hlift : Within (ListingAction.Tells D) (fun _ => True) (listing.lift p) :=
    within_lift (within_trivial p)
  exact follows_of_passes hlift (fun _ he => only_passes he) fun a _ => hQ a

end Tells

/-- The ports that a walk has collected are decoded. -/
def decoding (core : CppCore) (callback_function error_callback : Callback) :
    ListingOutline core (only (ListingAction.Tells ReportedPort.Decoded)) callback_function
      error_callback where
  start _ := True
  ready _ _ := True
  walking _ _ ports _ := ∀ port ∈ ports, port.Decoded
  named _ _ ports _ _ := ∀ port ∈ ports, port.Decoded
  failed _ _ _ := True
  listed _ ports _ := ∀ port ∈ ports, port.Decoded
  result _ _ := True
  effective _ := lift_tells _ fun _ => trivial
  refuses _ := lift_tells _ fun _ => trivial
  opens _ := ⟨trivial, fun _ _ _ => ⟨fun _ => lift_tells _ fun _ => trivial, fun _ => by simp⟩⟩
  asks _ _ := trivial
  names h _ device _ _ := follows_of_passes (portName_tells _ device)
    (fun _ he => only_passes he) fun _ _ _ _ => h
  describes _ he := only_passes (describes_tells he)
  skips h _ := h
  finds := by
    intro callback set ports name g port h _ hdecoded port' hmem
    rcases List.mem_append.mp hmem with hmem | hmem
    · exact h port' hmem
    · rw [List.mem_singleton.mp hmem]
      exact hdecoded
  ends h _ _ _ :=
    ⟨trivial, fun _ _ _ => ⟨fun _ => h, fun _ => lift_tells _ fun _ => trivial⟩⟩
  reports h hport := only_passes (h _ hport).reported
  closesFailed _ := ⟨trivial, fun _ _ => trivial⟩
  closesListed _ := ⟨trivial, fun _ _ => trivial⟩

/-- What each turn of the walk makes sure of, the callback is told. -/
theorem serialListPorts_tells (core : CppCore) (turns : Nat)
    (callback_function error_callback : Callback) :
    Within (ListingAction.Tells ReportedPort.Decoded) (fun _ => True)
      (serialListPorts core turns callback_function error_callback) := by
  have hfollows := (decoding core callback_function error_callback).serialListPorts_follows turns
    (g := ()) trivial
  exact within_of_follows (follows_mono hfollows fun _ _ _ => trivial)

/-- Whatever ports there are, the callback of `serialListPorts` is told the vendor, the product and
the serial number that stand in the instance ID of a USB device. -/
theorem usb_ids_are_decoded (core : CppCore) (turns : Nat)
    (callback_function error_callback callback : Callback)
    {tr : List (Σ action, ListingAnswer action)} {q : Listing (Option Int)}
    (h : Traces (serialListPorts core turns callback_function error_callback) tr q)
    {port : ReportedPort} (hport : ⟨.portCallback callback port, ()⟩ ∈ tr) : port.Decoded :=
  (traces_within (serialListPorts_tells core turns callback_function error_callback) h).1 _ hport

instance (c : UInt8) : Decidable (IsHexDigit c) :=
  inferInstanceAs (Decidable ((48 ≤ c ∧ c ≤ 57) ∨ (65 ≤ c ∧ c ≤ 70) ∨ (97 ≤ c ∧ c ≤ 102)))

/-- `usb\Vid_04d8&pid_000a&MI_00\VID_1`. -/
def sampleUsbId : UsbId where
  bus := [117, 115, 98]
  vendorLabel := [86, 105, 100, 95]
  vendor := [48, 52, 100, 56]
  productLabel := [112, 105, 100, 95]
  product := [48, 48, 48, 97]
  suffix := [38, 77, 73, 95, 48, 48]
  deviceInstance := [86, 73, 68, 95, 49]
  bus_upper := by decide
  vendorLabel_upper := by decide
  vendor_length := by decide
  vendor_hex := by simp [IsHexDigit]
  productLabel_upper := by decide
  product_length := by decide
  product_hex := by simp [IsHexDigit]
  suffix_start := by decide
  suffix_plain := by decide
  instance_some := by decide
  instance_plain := by decide

/-- The answers for one device with the name `COM7` and that instance ID. -/
def usbDevice (tr : List Answered) : (action : ListingAction) → ListingAnswer action
  | .setupDiEnumDeviceInfo _ index => if index = 0 then some 0 else none
  | .api .getLastError =>
    match tr.getLast? with
    | some ⟨.instanceIdSize .., _⟩ => ERROR_INSUFFICIENT_BUFFER
    | _ => ERROR_NO_MORE_ITEMS
  | .instanceIdSize .. => 34
  | .instanceId _ _ _ required =>
    let wide : WString := sampleUsbId.text.map (·.toUInt16) ++ [0]
    if h : wide.length ≤ required.toNat then some ⟨wide, h⟩ else none
  | .wideCharToMultiByte wide => some (wide.map (·.toUInt8))
  | action => storedString terminatedName action

/-- What the walk over the one device finds. -/
def usbPort : PortInformation where
  port := [67, 79, 77, 55]
  path := devicePath ++ [67, 79, 77, 55]
  pnp_id := sampleUsbId.text
  serial_number := [86, 73, 68, 95, 49]
  vendor_id := [48, 52, 68, 56]
  product_id := [48, 48, 48, 65]

/-- The marker in the instance and the small letters are not in the way. -/
theorem a_usb_id_in_small_letters_is_decoded :
    usbPort.reported.vendor_id = some (asciiUpper sampleUsbId.vendor) ∧
      usbPort.reported.product_id = some (asciiUpper sampleUsbId.product) ∧
      usbPort.reported.serial_number = some sampleUsbId.deviceInstance := by
  obtain ⟨walk, hwalk⟩ : ∃ walk, Traces (enumerate sampleCore (some 1) 1 2 0 []) walk
      (.ret (some (.ok [usbPort]))) := ⟨_, trace_traces usbDevice .nil⟩
  have hreport : Traces (reportPorts (some 0) [usbPort])
      [⟨.portCallback (some 0) usbPort.reported, ()⟩] (.ret ()) := traces_cons .nil
  have hrun : Traces (serialListPorts sampleCore 2 (some 0) (some 1))
      (⟨.setupDiGetClassDevs, 1⟩ :: (walk ++ ([⟨.portCallback (some 0) usbPort.reported, ()⟩] ++
        [⟨.setupDiDestroyDeviceInfoList 1, ()⟩]))) (.ret (some 1)) := by
    apply traces_cons
    change Traces (enumerate sampleCore (some 1) 1 2 0 [] >>= _) _ _
    apply traces_seq hwalk
    change Traces (reportPorts (some 0) (List.mergeSort [usbPort] _) >>= fun _ => .act _ fun _ =>
      .ret (some (intOfSize (List.mergeSort [usbPort] _).length))) _ _
    rw [List.mergeSort_singleton]
    exact traces_seq hreport (traces_cons .nil)
  exact usb_ids_are_decoded sampleCore 2 (some 0) (some 1) (some 0) hrun (by simp) sampleUsbId rfl

end cpp_bindings_windows
