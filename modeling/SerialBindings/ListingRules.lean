-- The rules for the listing of the ports. Each function that asks about a device has one lemma
-- about its actions. A proof about a whole listing only has to say what holds between two turns
-- of the walk, what the name of a device does to that, and what holds at the ends of the walk.
import SerialBindings.ListPorts

open programs

namespace cpp_bindings_windows

namespace listing

/-! ## The actions -/

section Actions

variable {A : ListingAction → Prop} {set : HDEVINFO} {device : SP_DEVINFO_DATA}

theorem registryString_acts {key : HKEY} {value_name : String}
    (hsize : A (.regQueryValueSize key value_name))
    (hread : ∀ room size, A (.regQueryValue key value_name room size)) :
    Within A (fun _ => True) (registryString key value_name) := by
  refine ⟨hsize, fun answer => ?_⟩
  rcases answer with _ | ⟨type, size⟩
  · trivial
  · refine within_ite trivial ⟨hread _ _, fun written => ?_⟩
    cases written <;> trivial

theorem portName_acts (hopen : A (.setupDiOpenDevRegKey set device))
    (hsize : ∀ key, A (.regQueryValueSize key "PortName"))
    (hread : ∀ key room size, A (.regQueryValue key "PortName" room size))
    (hclose : ∀ key, A (.regCloseKey key)) :
    Within A (fun _ => True) (portName set device) := by
  refine ⟨hopen, fun key => within_ite trivial ?_⟩
  refine within_seq (registryString_acts (hsize key) (hread key)) fun value _ => ?_
  cases value
  · trivial
  · exact ⟨hclose key, fun _ => trivial⟩

theorem deviceProperty_acts {property : DWORD} (hsize : A (.propertySize set device property))
    (hlast : A (.api .getLastError))
    (hread : ∀ room size, A (.property set device property room size)) :
    Within A (fun _ => True) (deviceProperty set device property) := by
  refine ⟨hsize, fun size => ⟨hlast, fun error => ?_⟩⟩
  refine within_ite trivial ⟨hread _ _, fun written => ?_⟩
  cases written <;> trivial

theorem instanceId_acts (hsize : A (.instanceIdSize set device)) (hlast : A (.api .getLastError))
    (hread : ∀ room required, A (.instanceId set device room required)) :
    Within A (fun _ => True) (instanceId set device) := by
  refine ⟨hsize, fun required => ⟨hlast, fun error => ?_⟩⟩
  refine within_ite trivial ⟨hread _ _, fun written => ?_⟩
  cases written <;> trivial

theorem wideToUtf8_acts (hconvert : ∀ wide, A (.wideCharToMultiByte wide)) (wide : WString) :
    Within A (fun _ => True) (wideToUtf8 wide) := by
  refine within_ite trivial ⟨hconvert wide, fun length => ?_⟩
  cases length with
  | none => trivial
  | some length =>
    refine ⟨hconvert wide, fun utf8 => ?_⟩
    cases utf8 <;> trivial

theorem optionalUtf8_acts (hconvert : ∀ wide, A (.wideCharToMultiByte wide))
    (value : Option (Option WString)) : Within A (fun _ => True) (optionalUtf8 value) := by
  rcases value with _ | _ | wide
  · trivial
  · trivial
  · exact within_seq (wideToUtf8_acts hconvert wide) fun _ _ => trivial

theorem reportPorts_acts {callback_function : Callback} {ports : List PortInformation}
    (h : ∀ port ∈ ports, A (.portCallback callback_function port.reported)) :
    Within A (fun _ => True) (reportPorts callback_function ports) := by
  induction ports with
  | nil => trivial
  | cons port ports ih =>
    rw [List.forall_mem_cons] at h
    exact ⟨h.1, fun _ => ih h.2⟩

end Actions

/-! ## One turn of the walk -/

/-- The fields that come from the instance ID. -/
def PortInformation.Decoded (port : PortInformation) : Prop :=
  port.vendor_id = hardwareId port.pnp_id vendorMarker ∧
    port.product_id = hardwareId port.pnp_id productMarker ∧
    port.serial_number = serialNumber port.pnp_id

end listing

/-- The actions of a turn after the name of the device is known. -/
def ListingAction.Describes (set : HDEVINFO) (device : SP_DEVINFO_DATA) : ListingAction → Prop
  | .api .getLastError => True
  | .propertySize set' device' _ => set' = set ∧ device' = device
  | .property set' device' .. => set' = set ∧ device' = device
  | .instanceIdSize set' device' => set' = set ∧ device' = device
  | .instanceId set' device' .. => set' = set ∧ device' = device
  | .wideCharToMultiByte _ => True
  | _ => False

variable {G : Type} {P : Protocol ListingAction ListingAnswer G} {g : G} {core : CppCore}

namespace listing

/-- A turn of the walk: a device with the name of a COM port is listed, and no other. -/
theorem portInformation_follows {set : HDEVINFO} {device : SP_DEVINFO_DATA}
    {N : Option WString → G → Prop} {Q : G → Option PortInformation → Prop}
    (hname : Follows P (fun g' result => ∀ name, result = some name → N name g')
      (portName set device) g)
    (hpasses : ∀ {name g'} {e : ListingAction}, N name g' → e.Describes set device → P.Passes g' e)
    (hskips : ∀ {name g'}, N name g' → name.any isComName = false → Q g' none)
    (hfinds : ∀ {name g' port}, N name g' → name.any isComName = true → port.Decoded →
      Q g' (some port)) :
    Follows P (fun g' result => ∀ port, result = some port → Q g' port)
      (portInformation set device) g := by
  refine follows_seq hname fun g' name hn => ?_
  rcases name with _ | _ | name
  · rintro _ ⟨⟩
  · rintro _ ⟨⟩
    exact hskips (hn none rfl) rfl
  have hnamed := hn (some name) rfl
  dsimp only
  split
  · rename_i hother
    rintro _ ⟨⟩
    exact hskips hnamed ((Bool.not_eq_true' _).mp hother)
  rename_i hcom
  have hcom : isComName name = true := by simpa using hcom
  have hconvert : ∀ wide, (ListingAction.wideCharToMultiByte wide).Describes set device :=
    fun _ => trivial
  have hproperty : ∀ property, Within (ListingAction.Describes set device) (fun _ => True)
      (deviceProperty set device property) := fun _ =>
    deviceProperty_acts ⟨rfl, rfl⟩ trivial fun _ _ => ⟨rfl, rfl⟩
  refine follows_of_passes (A := ListingAction.Describes set device)
    (V := fun result => ∀ port, result = some port → ∃ p : PortInformation, port = some p ∧
      p.Decoded) ?_ (fun _ he => hpasses hnamed he) ?_
  · refine within_seq (wideToUtf8_acts hconvert name) fun port _ => ?_
    refine within_seq (hproperty _) fun value _ => ?_
    refine within_seq (optionalUtf8_acts hconvert value) fun manufacturer _ => ?_
    cases manufacturer with
    | none => nofun
    | some manufacturer =>
      refine within_seq (hproperty _) fun value _ => ?_
      refine within_seq (optionalUtf8_acts hconvert value) fun location_id _ => ?_
      cases location_id with
      | none => nofun
      | some location_id =>
        refine within_seq (instanceId_acts ⟨rfl, rfl⟩ trivial fun _ _ => ⟨rfl, rfl⟩)
          fun wide _ => ?_
        rcases wide with _ | _ | wide
        · nofun
        · rintro _ ⟨⟩
          exact ⟨_, rfl, rfl, rfl, rfl⟩
        · refine within_seq (wideToUtf8_acts hconvert wide) fun pnp_id _ => ?_
          rintro _ ⟨⟩
          exact ⟨_, rfl, rfl, rfl, rfl⟩
  · intro result hresult port hport
    obtain ⟨p, rfl, hdecoded⟩ := hresult port hport
    exact hfinds hnamed hcom hdecoded

end listing

open listing

/-! ## The walk and the whole call -/

/-- What a protocol has to say about a listing. `ready` holds when the effective callback is known,
`walking` between two turns, with the ports so far, and `named` in a turn when the name of the
device is known. `failed` holds after the report of an error of the walk, and `listed` at the end of
the devices. `result` holds of what the call returns. -/
structure ListingOutline (core : CppCore) (P : Protocol ListingAction ListingAnswer G)
    (callback_function error_callback : Callback) where
  start : G → Prop
  ready : Callback → G → Prop
  walking : Callback → HDEVINFO → List PortInformation → G → Prop
  named : Callback → HDEVINFO → List PortInformation → Option WString → G → Prop
  failed : HDEVINFO → Int → G → Prop
  listed : HDEVINFO → List PortInformation → G → Prop
  result : G → Int → Prop
  effective : ∀ {g}, start g → Follows P (fun g' callback => ready callback g')
    (listing.lift (effectiveErrorCallback error_callback)) g
  refuses : ∀ {callback g}, ready callback g → Follows P result
    (listing.lift (failMsg core callback .kBufferError "Port callback must not be null")) g
  opens : ∀ {callback g}, ready callback g → P.allows g .setupDiGetClassDevs ∧
    ∀ set g', P.next g .setupDiGetClassDevs set = some g' →
      (set = INVALID_HANDLE_VALUE →
        Follows P result (listing.lift (failWin32 core callback .kMonitorError)) g') ∧
      (set ≠ INVALID_HANDLE_VALUE → walking callback set [] g')
  asks : ∀ {callback set ports g}, walking callback set ports g → ∀ index,
    P.allows g (.setupDiEnumDeviceInfo set index)
  names : ∀ {callback set ports g}, walking callback set ports g → ∀ index device g',
    P.next g (.setupDiEnumDeviceInfo set index) (some device) = some g' →
      Follows P (fun g'' r => ∀ name, r = some name → named callback set ports name g'')
        (portName set device) g'
  describes : ∀ {callback set ports name g device} {e : ListingAction},
    named callback set ports name g → e.Describes set device → P.Passes g e
  skips : ∀ {callback set ports name g}, named callback set ports name g →
    name.any isComName = false → walking callback set ports g
  finds : ∀ {callback set ports name g port}, named callback set ports name g →
    name.any isComName = true → port.Decoded → walking callback set (ports ++ [port]) g
  ends : ∀ {callback set ports g}, walking callback set ports g → ∀ index g1,
    P.next g (.setupDiEnumDeviceInfo set index) none = some g1 →
      P.allows g1 (.api .getLastError) ∧
      ∀ error g2, P.next g1 (.api .getLastError) error = some g2 →
        (error = ERROR_NO_MORE_ITEMS → listed set ports g2) ∧
        (error ≠ ERROR_NO_MORE_ITEMS → Follows P (fun g' status => failed set status g')
          (listing.lift (failWin32 core callback .kMonitorError)) g2)
  reports : ∀ {set ports port g}, listed set ports g → port ∈ ports →
    P.Passes g (.portCallback callback_function port.reported)
  closesFailed : ∀ {set status g}, failed set status g →
    P.allows g (.setupDiDestroyDeviceInfoList set) ∧
    ∀ g', P.next g (.setupDiDestroyDeviceInfoList set) () = some g' → result g' status
  closesListed : ∀ {set ports g}, listed set ports g →
    P.allows g (.setupDiDestroyDeviceInfoList set) ∧
    ∀ g', P.next g (.setupDiDestroyDeviceInfoList set) () = some g' →
      result g' (intOfSize ports.length)

namespace ListingOutline

variable {callback_function error_callback : Callback}

/-- The walk keeps what holds between two turns, and ends with an error or at the last device. -/
theorem enumerate_follows (T : ListingOutline core P callback_function error_callback)
    {callback : Callback} {set : HDEVINFO} (turns : Nat) :
    ∀ (index : DWORD) (ports : List PortInformation) (g : G), T.walking callback set ports g →
      Follows P (fun g' result => match result with
        | none => True
        | some (.error status) => T.failed set status g'
        | some (.ok ports) => T.listed set ports g')
      (enumerate core callback set turns index ports) g := by
  induction turns with
  | zero =>
    intro index ports g _
    trivial
  | succ turns ih =>
    intro index ports g h
    refine ⟨T.asks h index, fun device g1 h1 => ?_⟩
    cases device with
    | none =>
      obtain ⟨hallows, hlast⟩ := T.ends h index g1 h1
      refine ⟨hallows, fun error g2 h2 => ?_⟩
      obtain ⟨hend, herror⟩ := hlast error g2 h2
      dsimp only [Prog.bind]
      split
      · rename_i hitems
        exact hend hitems
      · rename_i hitems
        exact follows_seq (herror hitems) fun _ _ hfailed => hfailed
    | some device =>
      dsimp only [Prog.bind]
      have hturn : Follows P (fun g' result => ∀ port : Option PortInformation,
          result = some port → T.walking callback set (ports ++ port.toList) g')
          (portInformation set device) g1 := by
        refine portInformation_follows (T.names h index device g1 h1) T.describes ?_ T.finds
        intro name g' hnamed hother
        have hwalking := T.skips hnamed hother
        simpa using hwalking
      refine follows_seq hturn fun g2 port hport => ?_
      rcases port with _ | _ | port
      · trivial
      · have hwalking := hport none rfl
        rw [Option.toList_none, List.append_nil] at hwalking
        exact ih _ ports g2 hwalking
      · exact ih _ _ g2 (hport (some port) rfl)

/-- A listing does what the outline says. -/
theorem serialListPorts_follows (T : ListingOutline core P callback_function error_callback)
    (turns : Nat) (h : T.start g) :
    Follows P (fun g' result => ∀ value, result = some value → T.result g' value)
      (serialListPorts core turns callback_function error_callback) g := by
  have hcode : ∀ {p : Api Int} {g : G}, Follows P T.result (listing.lift p) g →
      Follows P (fun g' result => ∀ value, result = some value → T.result g' value)
        (listing.lift p >>= fun status => pure (some status)) g := by
    intro p g hp
    refine follows_seq hp fun g' status hstatus => ?_
    rintro _ ⟨⟩
    exact hstatus
  refine follows_seq (T.effective h) fun g1 callback hready => ?_
  split
  · exact hcode (T.refuses hready)
  obtain ⟨hopen, hset⟩ := T.opens hready
  refine ⟨hopen, fun set g2 h2 => ?_⟩
  obtain ⟨hinvalid, hwalking⟩ := hset set g2 h2
  dsimp only [Prog.bind]
  split
  · rename_i hnone
    exact hcode (hinvalid hnone)
  rename_i hvalid
  refine follows_seq (T.enumerate_follows turns 0 [] g2 (hwalking hvalid)) fun g3 result h3 => ?_
  rcases result with _ | status | ports
  · rintro _ ⟨⟩
  · obtain ⟨hallows, hclosed⟩ := T.closesFailed h3
    refine ⟨hallows, fun _ g4 h4 => ?_⟩
    rintro _ ⟨⟩
    exact hclosed g4 h4
  · have hreports : Within (P.Passes g3) (fun _ => True) (reportPorts callback_function
        (ports.mergeSort fun one other => decide (one.port ≤ other.port))) :=
      reportPorts_acts fun port hport => T.reports h3 (List.mem_mergeSort.mp hport)
    refine follows_seq (follows_of_passes (Q := fun g' _ => g' = g3) hreports (fun _ he => he)
      fun _ _ => rfl) fun g4 _ h4 => ?_
    subst h4
    obtain ⟨hallows, hclosed⟩ := T.closesListed h3
    refine ⟨hallows, fun _ g5 h5 => ?_⟩
    intro value hvalue
    rw [← Option.some.inj hvalue, List.length_mergeSort]
    exact hclosed g5 h5

end ListingOutline

end cpp_bindings_windows
