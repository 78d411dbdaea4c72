-- The device lists and the registry keys: the listing of the ports and the listener's
-- search for a port name release each one once, on every path, exceptions included.
import SerialBindings.ListingRules
import SerialBindings.PortNaming
import SerialBindings.Scopes

open programs scopes

namespace cpp_bindings_windows

open listing

/-! ## What the actions do with device lists and keys -/

inductive DeviceResource
  | devices (set : HDEVINFO)
  | key (key : HKEY)
  deriving DecidableEq

/-- `INVALID_HANDLE_VALUE` is no resource. -/
def opensDevices (set : HDEVINFO) : Option DeviceResource :=
  if set = INVALID_HANDLE_VALUE then none else some (.devices set)

def opensKey (key : HKEY) : Option DeviceResource :=
  if key = INVALID_HANDLE_VALUE then none else some (.key key)

def listingScopes : Scoping ListingAction ListingAnswer DeviceResource where
  uses
    | .setupDiEnumDeviceInfo set _ => [.devices set]
    | .setupDiOpenDevRegKey set _ => [.devices set]
    | .regQueryValueSize key _ => [.key key]
    | .regQueryValue key .. => [.key key]
    | .propertySize set .. => [.devices set]
    | .property set .. => [.devices set]
    | .instanceIdSize set _ => [.devices set]
    | .instanceId set .. => [.devices set]
    | _ => []
  opens
    | .setupDiGetClassDevs, set => opensDevices set
    | .setupDiOpenDevRegKey .., key => opensKey key
    | _, _ => none
  closes
    | .regCloseKey key => some (.key key)
    | .setupDiDestroyDeviceInfoList set => some (.devices set)
    | _ => none

def namingScopes : Scoping NamingAction NamingAnswer DeviceResource where
  uses
    | .listing action => listingScopes.uses action
    | .setupDiOpenDeviceInterface set _ => [.devices set]
    | .setupDiGetDeviceInterfaceDetail set _ => [.devices set]
    | .regGetValueSize key _ => [.key key]
    | .regGetValue key .. => [.key key]
    | _ => []
  opens
    | .listing action, r => listingScopes.opens action r
    | .setupDiCreateDeviceInfoList, set => opensDevices set
    | _, _ => none
  closes
    | .listing action => listingScopes.closes action
    | _ => none

theorem listingScopes_api (action : Action) : listingScopes.Free (.api action) :=
  ⟨rfl, fun _ => rfl, rfl⟩

theorem listingScopes_convert (wide : WString) :
    listingScopes.Free (.wideCharToMultiByte wide) := ⟨rfl, fun _ => rfl, rfl⟩

theorem namingScopes_listing {action : ListingAction} (h : listingScopes.Free action) :
    namingScopes.Free (.listing action) := ⟨h.uses, h.opens, h.closes⟩

/-! ## The listing -/

section Listing

variable {set : HDEVINFO} {device : SP_DEVINFO_DATA} {o : List DeviceResource}

/-- A program of the C API holds no device list and no key. -/
theorem lift_scoped {α : Type} (p : Api α) {Q : List DeviceResource → α → Prop}
    (hQ : ∀ a, Q o a) : Follows (scoping listingScopes) Q (listing.lift p) o := by
  have hlift : Within listingScopes.Free (fun _ => True) (listing.lift p) :=
    within_lift (within_mono (within_trivial p) (fun e _ => listingScopes_api e) fun _ h => h)
  exact follows_of_passes hlift (fun _ he => he.passes) fun a _ => hQ a

/-- The fields of a device are read while its device list is open. -/
theorem describes_in_scope {e : ListingAction} (he : e.Describes set device)
    (ho : .devices set ∈ o) : (scoping listingScopes).Passes o e := by
  have hset : ∀ set', set' = set → ∀ h ∈ [DeviceResource.devices set'], h ∈ o := by
    rintro _ rfl h hmem
    rwa [List.mem_singleton.mp hmem]
  cases e with
  | api action => exact (listingScopes_api action).passes
  | wideCharToMultiByte wide => exact (listingScopes_convert wide).passes
  | propertySize set' device' property =>
    exact scoping_passes (hset set' he.1) (fun _ => rfl) rfl
  | property set' device' property room size =>
    exact scoping_passes (hset set' he.1) (fun _ => rfl) rfl
  | instanceIdSize set' device' => exact scoping_passes (hset set' he.1) (fun _ => rfl) rfl
  | instanceId set' device' room required =>
    exact scoping_passes (hset set' he.1) (fun _ => rfl) rfl
  | _ => exact he.elim

/-- The scan for a NUL that leaves its buffer ends what the model follows. -/
abbrev Followed {β : Type} (result : Option β) : Prop := result ≠ none

theorem portName_scoped (set : HDEVINFO) (device : SP_DEVINFO_DATA)
    (ho : .devices set ∈ o) : Leaves listingScopes Followed (portName set device) o o := by
  refine leaves_open (by simpa [listingScopes] using ho) rfl fun key => ?_
  dsimp only [Prog.bind]
  split
  · rename_i hinvalid
    have hnone : listingScopes.opens (.setupDiOpenDevRegKey set device) key = none :=
      if_pos hinvalid
    rw [hnone]
    exact leaves_ret fun _ => rfl
  · rename_i hvalid
    have hopens : listingScopes.opens (.setupDiOpenDevRegKey set device) key = some (.key key) :=
      if_neg hvalid
    rw [hopens]
    have hread : Within ((scoping listingScopes).Passes (.key key :: o)) (fun _ => True)
        (registryString key "PortName") := by
      apply registryString_acts
      · exact scoping_passes (by simp [listingScopes]) (fun _ => rfl) rfl
      · exact fun _ _ => scoping_passes (by simp [listingScopes]) (fun _ => rfl) rfl
    refine leaves_within hread (fun _ he => he) fun value _ => ?_
    cases value with
    | none => exact fun hfollowed => absurd rfl hfollowed
    | some value =>
      exact leaves_close (by simp [listingScopes]) rfl (fun _ => rfl) fun _ =>
        leaves_ret fun _ => rfl

/-- A walk holds the device list, and nothing else between two turns. -/
def holding (core : CppCore) (callback_function error_callback : Callback) :
    ListingOutline core (scoping listingScopes) callback_function error_callback where
  start o := o = []
  ready _ o := o = []
  walking _ set _ o := o = [.devices set]
  named _ set _ _ o := o = [.devices set]
  failed set _ o := o = [.devices set]
  listed set _ o := o = [.devices set]
  result o _ := o = []
  effective h := lift_scoped _ fun _ => h
  refuses h := lift_scoped _ fun _ => h
  opens := by
    rintro callback o rfl
    refine ⟨⟨by simp [listingScopes], by simp [listingScopes]⟩, fun set o' hn => ?_⟩
    cases hn
    refine ⟨fun hinvalid => lift_scoped _ fun _ => ?_, fun hvalid => ?_⟩
    · simp [Scoping.step, listingScopes, opensDevices, hinvalid]
    · simp [Scoping.step, listingScopes, opensDevices, hvalid]
  asks := by
    rintro callback set ports o rfl index
    exact ⟨by simp [listingScopes], by simp [listingScopes]⟩
  names := by
    rintro callback set ports o rfl index device o' hn
    cases hn
    exact follows_mono (portName_scoped set device List.mem_cons_self)
      fun o' result h name hname => h (by simp [hname])
  describes := by
    rintro callback set ports name o device e rfl he
    exact describes_in_scope he List.mem_cons_self
  skips h _ := h
  finds h _ _ := h
  ends := by
    rintro callback set ports o rfl index o1 h1
    cases h1
    refine ⟨⟨by simp [listingScopes], by simp [listingScopes]⟩, fun error o2 h2 => ?_⟩
    cases h2
    exact ⟨fun _ => rfl, fun _ => lift_scoped _ fun _ => rfl⟩
  reports _ _ := scoping_passes (by simp [listingScopes]) (fun _ => rfl) rfl
  closesFailed := by
    rintro set status o rfl
    refine ⟨⟨by simp [listingScopes], by simp [listingScopes]⟩, fun o' hn => ?_⟩
    cases hn
    rfl
  closesListed := by
    rintro set ports o rfl
    refine ⟨⟨by simp [listingScopes], by simp [listingScopes]⟩, fun o' hn => ?_⟩
    cases hn
    rfl

theorem serialListPorts_scoped (core : CppCore) (turns : Nat)
    (callback_function error_callback : Callback) :
    Leaves listingScopes Followed (serialListPorts core turns callback_function error_callback)
      [] [] := by
  have hfollows := (holding core callback_function error_callback).serialListPorts_follows turns
    (g := []) rfl
  refine follows_mono hfollows fun o result h hfollowed => ?_
  obtain ⟨value, hvalue⟩ := Option.ne_none_iff_exists'.mp hfollowed
  exact h value hvalue

end Listing

/-- A listing, at whatever action it is, has used its device list and its keys only while they were
open. When it returns, it has released each one once, the last opened first. -/
theorem a_listing_releases_its_handles (core : CppCore) (turns : Nat)
    (callback_function error_callback : Callback)
    {tr : List (Σ action, ListingAnswer action)} {q : Listing (Option Int)}
    (h : Traces (serialListPorts core turns callback_function error_callback) tr q) :
    listingScopes.InScope tr ∧ ∀ n, q = .ret (some n) → listingScopes.Tidy tr := by
  have hscoped := serialListPorts_scoped core turns callback_function error_callback
  refine ⟨hscoped.inScope h, ?_⟩
  rintro n rfl
  exact hscoped.tidy h (by simp)

/-- A device with the port `COM7`, and then an error of the walk. -/
def brokenWalk : (action : ListingAction) → ListingAnswer action
  | .api .getLastError => 5
  | .setupDiEnumDeviceInfo _ index => if index = 0 then some 0 else none
  | .wideCharToMultiByte _ => some [67, 79, 77, 55]
  | action => storedString terminatedName action

def brokenRun : List (Σ action, ListingAnswer action) × Option Int :=
  (serialListPorts sampleCore 2 (some 1) none).trace (fun _ => brokenWalk) []

theorem a_listing_that_fails_releases_its_handles :
    ∃ tr, Traces (serialListPorts sampleCore 2 (some 1) none) tr
        (.ret (some (sampleCore.value .kMonitorError))) ∧
      listingScopes.opened tr = [.devices 1, .key 1] ∧
      listingScopes.closed tr = [.key 1, .devices 1] ∧ listingScopes.Tidy tr := by
  have hrun : Traces (serialListPorts sampleCore 2 (some 1) none) brokenRun.1
      (.ret (some (sampleCore.value .kMonitorError))) :=
    trace_traces (fun _ => brokenWalk) .nil
  exact ⟨brokenRun.1, hrun, by decide, by decide,
    (a_listing_releases_its_handles sampleCore 2 (some 1) none hrun).2 _ rfl⟩

/-! ## The name of a port behind an interface -/

namespace naming

section Naming

variable {α : Type} {o : List DeviceResource}

/-- Whatever the program ends with. -/
abbrev Always {β : Type} (_ : β) : Prop := True

theorem throwSystemError_scoped (error : DWORD) :
    Leaves namingScopes Always (throwSystemError error : Naming (Option (Except PortError α)))
      o o :=
  leaves_act (by simp [namingScopes]) rfl (fun _ => rfl) fun _ => leaves_ret fun _ => rfl

theorem throwLastError_scoped :
    Leaves namingScopes Always (throwLastError : Naming (Option (Except PortError α))) o o :=
  leaves_act (by simp [namingScopes, listingScopes]) rfl (fun _ => rfl) fun error =>
    throwSystemError_scoped error

theorem registryPort_scoped (key : HKEY) :
    Leaves namingScopes Always (registryPort key) (.key key :: o) (.key key :: o) := by
  refine leaves_act (by simp [namingScopes]) rfl (fun _ => rfl) fun size => ?_
  cases size with
  | error error => exact throwSystemError_scoped error
  | ok bytes =>
    refine leaves_act (by simp [namingScopes]) rfl (fun _ => rfl) fun written => ?_
    cases written with
    | error error => exact throwSystemError_scoped error
    | ok written =>
      dsimp only [Prog.bind]
      split
      · exact leaves_ret fun _ => rfl
      · rename_i wide _
        have hfree : Within namingScopes.Free (fun _ => True) (naming.lift (wideToUtf8 wide)) :=
          within_lift (wideToUtf8_acts (fun wide => namingScopes_listing
            (listingScopes_convert wide)) wide)
        refine leaves_within hfree (fun _ he => he.passes) fun port _ => ?_
        split
        · exact leaves_ret fun _ => rfl
        · exact leaves_ret fun _ => rfl

theorem detailFailed_free (detailed : Bool) :
    Within namingScopes.Free (fun _ => True) (detailFailed detailed) := by
  unfold detailFailed
  apply within_ite
  · trivial
  · exact ⟨namingScopes_listing (listingScopes_api _), fun _ => trivial⟩

theorem interfacePort_scoped (set : HDEVINFO) (path : WString) (ho : .devices set ∈ o) :
    Leaves namingScopes Always (interfacePort set path) o o := by
  refine leaves_act (by simpa [namingScopes] using ho) rfl (fun _ => rfl) fun device_interface => ?_
  cases device_interface with
  | none => exact throwLastError_scoped
  | some device_interface =>
    refine leaves_act (by simpa [namingScopes] using ho) rfl (fun _ => rfl) fun detail => ?_
    obtain ⟨detailed, device⟩ := detail
    dsimp only [Prog.bind]
    refine leaves_within (detailFailed_free detailed) (fun _ he => he.passes) fun failed _ => ?_
    split
    · exact throwLastError_scoped
    · refine leaves_open (by simpa [namingScopes, listingScopes] using ho) rfl fun key => ?_
      dsimp only [Prog.bind]
      split
      · rename_i hinvalid
        have hnone : namingScopes.opens (.listing (.setupDiOpenDevRegKey set device)) key = none :=
          if_pos hinvalid
        rw [hnone]
        exact throwLastError_scoped
      · rename_i hvalid
        have hopens : namingScopes.opens (.listing (.setupDiOpenDevRegKey set device)) key =
            some (.key key) := if_neg hvalid
        rw [hopens]
        refine leaves_seq (registryPort_scoped key) (fun port hport => ?_) ?_
        · exact leaves_close (by simp [namingScopes, listingScopes]) rfl (fun _ => rfl) fun _ =>
            leaves_ret fun _ => rfl
        · exact fun port hport => absurd trivial hport

theorem portName_scoped (path : WString) :
    Leaves namingScopes Always (naming.portName path) [] [] := by
  refine leaves_open (by simp [namingScopes]) rfl fun set => ?_
  dsimp only [Prog.bind]
  split
  · rename_i hinvalid
    have hnone : namingScopes.opens .setupDiCreateDeviceInfoList set = none := if_pos hinvalid
    rw [hnone]
    exact throwLastError_scoped
  · rename_i hvalid
    have hopens : namingScopes.opens .setupDiCreateDeviceInfoList set = some (.devices set) :=
      if_neg hvalid
    rw [hopens]
    refine leaves_seq (interfacePort_scoped set path List.mem_cons_self) (fun port _ => ?_) ?_
    · exact leaves_close (by simp [namingScopes, listingScopes]) rfl (fun _ => rfl) fun _ =>
        leaves_ret fun _ => rfl
    · exact fun port hport => absurd trivial hport

end Naming

end naming

/-- The search for the name of a port, at whatever action it is, has used its device list and its
key only while they were open. When it ends with a name or an exception, it has released each one
once, the last opened first. -/
theorem a_port_name_releases_its_handles (path : WString)
    {tr : List (Σ action, NamingAnswer action)} {q : Naming (Option (Except PortError Utf8))}
    (h : Traces (naming.portName path) tr q) :
    namingScopes.InScope tr ∧ ∀ result, q = .ret result → namingScopes.Tidy tr := by
  have hscoped := naming.portName_scoped path
  refine ⟨hscoped.inScope h, ?_⟩
  rintro result rfl
  exact hscoped.tidy h trivial

/-- The device has no `PortName`. -/
def namelessDevice : (action : NamingAction) → NamingAnswer action
  | .listing action => storedString [] action
  | .setupDiCreateDeviceInfoList => 1
  | .setupDiOpenDeviceInterface .. => some 0
  | .setupDiGetDeviceInterfaceDetail .. => (true, 0)
  | .regGetValueSize .. => .error 2
  | .regGetValue .. => .error 2
  | .systemMessage _ => "The system cannot find the file specified."

def namelessRun :
    List (Σ action, NamingAnswer action) × Option (Except PortError Utf8) :=
  (naming.portName [92]).trace (fun _ => namelessDevice) []

theorem an_exception_releases_the_handles :
    ∃ tr what, Traces (naming.portName [92]) tr (.ret (some (.error ⟨some 2, what⟩))) ∧
      namingScopes.opened tr = [.devices 1, .key 1] ∧
      namingScopes.closed tr = [.key 1, .devices 1] ∧ namingScopes.Tidy tr := by
  have hrun : Traces (naming.portName [92]) namelessRun.1
      (.ret (some (.error ⟨some 2, "The system cannot find the file specified."⟩))) :=
    trace_traces (fun _ => namelessDevice) .nil
  exact ⟨namelessRun.1, _, hrun, by decide, by decide,
    (a_port_name_releases_its_handles [92] hrun).2 _ rfl⟩

end cpp_bindings_windows
