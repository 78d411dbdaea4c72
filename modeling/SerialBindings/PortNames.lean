-- The names of ports: what `serialListPorts` and the listener of port events call a
-- device, and which device `serialOpen` opens under that name.
import SerialBindings.Api
import SerialBindings.CallRules
import SerialBindings.PortNaming
import SerialBindings.TextEncodings

open programs

namespace cpp_bindings_windows

open text_encodings

/-! ## The conversions of Windows -/

/-- `WideCharToMultiByte` for UTF-8, with `WC_ERR_INVALID_CHARS`: it gives the same text, and
fails for units that are no text. -/
def WideConverted (wide : WString) : Option Utf8 → Prop
  | some utf8 => SameText wide utf8
  | none => ¬ WellFormed wide

/-- `MultiByteToWideChar` for UTF-8, with `MB_ERR_INVALID_CHARS`: it gives the same text with its
NUL, and fails for bytes that are no text. -/
def Utf8Converted (utf8 : Utf8) : Option WString → Prop
  | some wide => ∃ text, wide = text ++ [0] ∧ SameText text utf8
  | none => ∀ text, ¬ SameText text utf8

def Action.Converts : (action : Action) → Answer action → Prop
  | .multiByteToWideChar utf8, answer => Utf8Converted utf8 answer
  | _, _ => True

def ListingAction.Converts : (action : ListingAction) → ListingAnswer action → Prop
  | .api action, answer => action.Converts answer
  | .wideCharToMultiByte wide, answer => WideConverted wide answer
  | _, _ => True

def NamingAction.Converts : (action : NamingAction) → NamingAnswer action → Prop
  | .listing action, answer => action.Converts answer
  | _, _ => True

theorem utf8Converted_some {text : WString} {utf8 : Utf8} (h : SameText text utf8)
    {answer : Option WString} (hanswer : Utf8Converted utf8 answer) :
    answer = some (text ++ [0]) := by
  cases answer with
  | none => exact absurd h (hanswer text)
  | some wide =>
    obtain ⟨text', rfl, htext'⟩ := hanswer
    rw [h.units_unique htext']

/-- Every action of the C API has an answer that converts. -/
theorem Action.converts_answers (action : Action) : ∃ answer, action.Converts answer := by
  cases action with
  | multiByteToWideChar utf8 =>
    by_cases h : ∃ text, SameText text utf8
    · obtain ⟨text, htext⟩ := h
      exact ⟨some (text ++ [0]), text, rfl, htext⟩
    · exact ⟨none, fun text htext => h ⟨text, htext⟩⟩
  | _ => exact ⟨idleAnswer _, trivial⟩

/-! ## The device that a name opens -/

def createdPath : (Σ action, Answer action) → Option WString
  | ⟨.createFile path, _⟩ => some path
  | _ => none

/-- The paths that the trace gave to `CreateFileW`. -/
def createdPaths (tr : List (Σ action, Answer action)) : List WString := tr.filterMap createdPath

@[simp] theorem createdPaths_append (tr tr' : List (Σ action, Answer action)) :
    createdPaths (tr ++ tr') = createdPaths tr ++ createdPaths tr' := List.filterMap_append

/-- With this name, `serialOpen` gives this path to `CreateFileW`, in every run in which it
accepts its arguments. -/
def OpensAs (name : Utf8) (path : WString) : Prop :=
  ∀ (core : CppCore) (config : Option SerialConfig) (callback : Callback)
    (tr : List (Σ action, Answer action)) (r : Int),
    Traces (serialOpen core (some name) config callback) tr (.ret r) →
    core.validateOpenParams (some name) config = none → (∀ x ∈ tr, x.1.Converts x.2) →
    createdPaths tr = [path]

/-- The action opens no file. -/
def Action.NoFile (e : Action) : Prop := ∀ path, e ≠ .createFile path

theorem Action.Silent.noFile {e : Action} (h : e.Silent) : e.NoFile := by
  rintro path rfl
  exact h

theorem createdPaths_nil_of_within {α : Type} {A : Action → Prop} {V : α → Prop} {p q : Api α}
    {tr : List (Σ action, Answer action)} (hA : ∀ e, A e → e.NoFile) (hp : Within A V p)
    (h : Traces p tr q) : createdPaths tr = [] := by
  unfold createdPaths
  rw [List.filterMap_eq_nil_iff]
  rintro ⟨e, r⟩ hx
  have hno := hA e ((traces_within hp h).1 _ hx)
  cases e with
  | createFile path => exact absurd rfl (hno path)
  | _ => rfl

variable {name : Utf8} {text : WString}

/-- `utf8ToWide` gives the text of its argument. -/
theorem utf8ToWide_converts {tr : List (Σ action, Answer action)} {wide : WString}
    (hname : name ≠ []) (htext : SameText text name)
    (h : Traces (utf8ToWide (some name)) tr (.ret wide)) (hall : ∀ x ∈ tr, x.1.Converts x.2) :
    wide = text := by
  cases name with
  | nil => exact absurd rfl hname
  | cons byte name =>
    obtain ⟨length, tr1, rfl, h1⟩ := traces_act_ret h
    obtain ⟨hlength, hrest⟩ := List.forall_mem_cons.mp hall
    have hlength : length = some (text ++ [0]) := utf8Converted_some htext hlength
    subst hlength
    obtain ⟨answer, tr2, rfl, h2⟩ := traces_act_ret h1
    have hanswer : Utf8Converted (byte :: name) answer := hrest _ List.mem_cons_self
    have hanswer : answer = some (text ++ [0]) := utf8Converted_some htext hanswer
    subst hanswer
    obtain ⟨-, hwide⟩ := traces_ret h2
    cases hwide
    exact List.dropLast_concat

/-- Behind `CreateFileW`, `serialOpen` opens no further file. -/
theorem opened_creates_nothing (core : CppCore) (callback : Callback) (config : SerialConfig)
    (handle : HANDLE) :
    Within Action.NoFile (fun _ => True) (do
      match ← applyLineSettings handle config with
      | some failure =>
        let status ← failMsg core callback failure.code failure.message
        let _ ← perform (.closeHandle handle)
        return status
      | none =>
        let _ ← perform (.purgeComm handle 0xF)
        if handle ≤ 0 then
          let status ← failMsg core callback .kInvalidHandleError "Invalid handle generated"
          let _ ← perform (.closeHandle handle)
          return status
        else
          let _ ← perform (.ensureHandleState handle)
          return handle : Api Int) := by
  have hfail : ∀ (code : StatusCode) (message : String), Within Action.NoFile (fun _ => True) (do
      let status ← failMsg core callback code message
      let _ ← perform (.closeHandle handle)
      return status : Api Int) := by
    intro code message
    refine within_seq (within_mono (failMsg_within core callback code message)
      (fun _ he => he.silent.noFile) fun _ _ => trivial) fun status _ => ?_
    exact ⟨nofun, fun _ => trivial⟩
  refine within_seq (within_mono (applyLineSettings_within handle config)
    (fun _ he => he.silent.noFile) fun _ hv => hv) fun failure _ => ?_
  cases failure with
  | some failure => exact hfail _ _
  | none =>
    refine ⟨nofun, fun _ => ?_⟩
    dsimp only [Prog.bind]
    split
    · exact hfail _ _
    · exact ⟨nofun, fun _ => trivial⟩

/-- `serialOpen` gives the normalized text of the name to `CreateFileW`. -/
theorem serialOpen_creates {core : CppCore} {config : Option SerialConfig} {callback : Callback}
    {tr : List (Σ action, Answer action)} {r : Int} (hname : name ≠ []) (hempty : text ≠ [])
    (htext : SameText text name)
    (h : Traces (serialOpen core (some name) config callback) tr (.ret r))
    (haccepted : core.validateOpenParams (some name) config = none)
    (hall : ∀ x ∈ tr, x.1.Converts x.2) : createdPaths tr = [normalizePortPath text] := by
  unfold serialOpen at h
  obtain ⟨callback, tr1, tr2, rfl, h1, h2⟩ := traces_bind_ret h
  have hnone := createdPaths_nil_of_within (fun _ he => he.silent.noFile)
    (effectiveErrorCallback_within _) h1
  rw [createdPaths_append, hnone, List.nil_append]
  rw [haccepted] at h2
  change Traces (utf8ToWide (some name) >>= _) tr2 _ at h2
  obtain ⟨wide, tr3, tr4, rfl, h3, h4⟩ := traces_bind_ret h2
  have hwide := utf8ToWide_converts hname htext h3 fun x hx =>
    hall x (List.mem_append_right tr1 (List.mem_append_left tr4 hx))
  subst hwide
  have hnone := createdPaths_nil_of_within (fun _ he => by obtain ⟨bytes, rfl⟩ := he; nofun)
    (utf8ToWide_within (some name)) h3
  rw [createdPaths_append, hnone, List.nil_append]
  rw [if_neg hempty] at h4
  obtain ⟨raw_handle, tr5, rfl, h5⟩ := traces_act_ret h4
  have hrest : createdPaths tr5 = [] := by
    dsimp only [Prog.bind] at h5
    generalize (if raw_handle = INVALID_HANDLE_VALUE then nullHandle else raw_handle) = handle at h5
    split at h5
    · exact createdPaths_nil_of_within (fun _ he => he.silent.noFile)
        (failWin32_within core callback _) h5
    · exact createdPaths_nil_of_within (fun _ he => he)
        (opened_creates_nothing core callback _ _) h5
  have hfirst : createdPath ⟨.createFile (normalizePortPath wide), raw_handle⟩ =
      some (normalizePortPath wide) := rfl
  unfold createdPaths at hrest ⊢
  rw [List.filterMap_cons_some hfirst, hrest]

/-- The run that shows what a name opens. -/
theorem serialOpen_runs (name : Utf8) :
    ∃ (config : Option SerialConfig) (tr : List (Σ action, Answer action)) (r : Int),
      Traces (serialOpen sampleCore (some name) config none) tr (.ret r) ∧
      sampleCore.validateOpenParams (some name) config = none ∧ ∀ x ∈ tr, x.1.Converts x.2 := by
  obtain ⟨tr, r, htr, hall⟩ := traces_answered Action.converts_answers
    (serialOpen sampleCore (some name) (some ⟨9600, 8, 0, 0, 0⟩) none)
  exact ⟨_, tr, r, htr, rfl, hall⟩

/-- A name opens the normalized path of its text, and no other one. -/
theorem opensAs_iff (hname : name ≠ []) (hempty : text ≠ []) (htext : SameText text name)
    (path : WString) : OpensAs name path ↔ normalizePortPath text = path := by
  constructor
  · intro hopens
    obtain ⟨config, tr, r, htr, haccepted, hall⟩ := serialOpen_runs name
    have hpath := hopens sampleCore config none tr r htr haccepted hall
    rw [serialOpen_creates hname hempty htext htr haccepted hall] at hpath
    exact List.singleton_inj.mp hpath
  · rintro rfl core config callback tr r htr haccepted hall
    exact serialOpen_creates hname hempty htext htr haccepted hall

/-! ## The names of COM ports -/

/-- `L"COM"` or `L"com"` at the start. -/
def startsWithCom (name : WString) : Bool := upperCom.isPrefixOf name || lowerCom.isPrefixOf name

theorem startsWithCom_of_isComName {name : WString} (h : listing.isComName name = true) :
    startsWithCom name = true := by
  unfold listing.isComName at h
  rw [Bool.and_eq_true] at h
  exact h.2

theorem normalizePortPath_com {name : WString} (h : startsWithCom name = true) :
    normalizePortPath name = devicePrefix ++ name := by
  have hstart : upperCom.isPrefixOf name = true ∨ lowerCom.isPrefixOf name = true := by
    unfold startsWithCom at h
    rw [Bool.or_eq_true] at h
    exact h
  have hplain : devicePrefix.isPrefixOf name = false := by
    cases name with
    | nil => rfl
    | cons unit name =>
      have hunit : unit = 67 ∨ unit = 99 := by
        simp [upperCom, lowerCom] at hstart
        tauto
      rcases hunit with rfl | rfl <;> rfl
  unfold normalizePortPath
  rw [hplain, if_neg Bool.false_ne_true, if_pos hstart]

theorem normalizePortPath_device (name : WString) :
    normalizePortPath (devicePrefix ++ name) = devicePrefix ++ name := by
  have hprefix : devicePrefix.isPrefixOf (devicePrefix ++ name) = true :=
    List.isPrefixOf_iff_prefix.mpr (List.prefix_append _ _)
  unfold normalizePortPath
  rw [if_pos hprefix]

/-- Any other name stays as it is. -/
theorem normalizePortPath_other {name : WString} (h : startsWithCom name = false) :
    normalizePortPath name = name := by
  have hstart : ¬ (upperCom.isPrefixOf name = true ∨ lowerCom.isPrefixOf name = true) := by
    unfold startsWithCom at h
    rw [← Bool.or_eq_true, h]
    exact Bool.false_ne_true
  unfold normalizePortPath
  rw [if_neg hstart, ite_self]

theorem devicePath_text : SameText devicePrefix listing.devicePath :=
  ⟨['\\', '\\', '.', '\\'], by decide, by decide⟩

theorem devicePrefix_append_ne (name : WString) : devicePrefix ++ name ≠ name := by
  intro h
  have hlength := congrArg List.length h
  rw [List.length_append] at hlength
  have hfour : devicePrefix.length = 4 := rfl
  omega

/-! ## The name of a listed device -/

/-- A run of `serialListPorts` reports the device with this `PortName` as `port`: it reads the name
in the turn for the device, and calls the callback with what it found in that turn. The name is
the text that `RegQueryValueExW` gave, with the variables of a `REG_EXPAND_SZ` not expanded. -/
def ListsAs (name : WString) (port : ReportedPort) : Prop :=
  ∃ (core : CppCore) (turns : Nat) (callback_function error_callback : Callback)
    (tr : List Answered) (q : Listing (Option Int)),
    Traces (serialListPorts core turns callback_function error_callback) tr q ∧
    (∀ x ∈ tr, x.1.Converts x.2) ∧
    ∃ (device_information_set : HDEVINFO) (device_information : SP_DEVINFO_DATA)
      (before reading rest after : List Answered) (port_information : listing.PortInformation),
      tr = before ++ (reading ++ rest) ++ after ∧
      Traces (listing.portName device_information_set device_information) reading
        (.ret (some (some name))) ∧
      Traces (listing.portInformation device_information_set device_information)
        (reading ++ rest) (.ret (some (some port_information))) ∧
      port = port_information.reported ∧
      ⟨.portCallback callback_function port, ()⟩ ∈ after

section Listed

open listing

/-- `wideToUtf8` gives the text of its argument, or nothing. -/
theorem wideToUtf8_converts {wide : WString} {tr : List Answered} {utf8 : Utf8}
    (h : Traces (wideToUtf8 wide) tr (.ret utf8)) (hall : ∀ x ∈ tr, x.1.Converts x.2) :
    (wide ≠ [] ∧ SameText wide utf8) ∨ (utf8 = [] ∧ (wide = [] ∨ ¬ WellFormed wide)) := by
  unfold wideToUtf8 at h
  by_cases hwide : wide = []
  · rw [if_pos hwide] at h
    obtain ⟨-, hret⟩ := traces_ret h
    cases hret
    exact Or.inr ⟨rfl, Or.inl hwide⟩
  rw [if_neg hwide] at h
  obtain ⟨length, tr1, rfl, h1⟩ := traces_act_ret h
  obtain ⟨hlength, hrest⟩ := List.forall_mem_cons.mp hall
  cases length with
  | none =>
    obtain ⟨-, hret⟩ := traces_ret h1
    cases hret
    exact Or.inr ⟨rfl, Or.inr hlength⟩
  | some length =>
    obtain ⟨answer, tr2, rfl, h2⟩ := traces_act_ret h1
    have hanswer : WideConverted wide answer := hrest _ List.mem_cons_self
    cases answer with
    | none =>
      obtain ⟨-, hret⟩ := traces_ret h2
      cases hret
      exact Or.inr ⟨rfl, Or.inr hanswer⟩
    | some bytes =>
      obtain ⟨-, hret⟩ := traces_ret h2
      cases hret
      exact Or.inl ⟨hwide, hanswer⟩

/-- A turn for a listed device: its name is a COM name, and the port and the path are the name
in UTF-8, without and with the prefix of devices. -/
theorem portInformation_names {set : HDEVINFO} {device : SP_DEVINFO_DATA} {name : WString}
    {reading rest : List Answered} {port : PortInformation}
    (hname : Traces (portName set device) reading (.ret (some (some name))))
    (h : Traces (portInformation set device) (reading ++ rest) (.ret (some (some port)))) :
    isComName name = true ∧ ∃ tr1 tr2 utf8, rest = tr1 ++ tr2 ∧
      Traces (wideToUtf8 name) tr1 (.ret utf8) ∧ port.port = utf8 ∧
      port.path = devicePath ++ utf8 := by
  unfold portInformation at h
  obtain ⟨value, reading', rest', heq, h1, h2⟩ := traces_bind_ret h
  obtain ⟨rfl, hvalue, rfl⟩ := traces_ret_unique hname h1 heq
  subst hvalue
  dsimp only at h2
  split at h2
  · obtain ⟨-, hret⟩ := traces_ret h2
    cases hret
  rename_i hcom
  rw [Bool.not_eq_true, Bool.not_eq_false'] at hcom
  obtain ⟨utf8, tr1, tr2, rfl, h3, h4⟩ := traces_bind_ret h2
  refine ⟨hcom, tr1, tr2, utf8, rfl, h3, ?_⟩
  -- whatever else the device tells, the port and the path are these
  refine (traces_within (A := fun _ => True) (V := fun result => ∀ port,
    result = some (some port) → port.port = utf8 ∧ port.path = devicePath ++ utf8) ?_ h4).2 port rfl
  refine within_seq (within_trivial _) fun wide _ => ?_
  refine within_seq (within_trivial _) fun manufacturer _ => ?_
  cases manufacturer with
  | none => nofun
  | some manufacturer =>
    refine within_seq (within_trivial _) fun wide _ => ?_
    refine within_seq (within_trivial _) fun location_id _ => ?_
    cases location_id with
    | none => nofun
    | some location_id =>
      refine within_seq (within_trivial _) fun wide _ => ?_
      rcases wide with _ | _ | wide
      · nofun
      · rintro _ hport
        cases hport
        exact ⟨rfl, rfl⟩
      · refine within_seq (within_trivial _) fun pnp_id _ => ?_
        rintro _ hport
        cases hport
        exact ⟨rfl, rfl⟩

/-- A COM name that is a text is listed as its text, and both the port and the path open the
device of that name. -/
theorem listed_opens {name : WString} {port : ReportedPort} (hlists : ListsAs name port)
    (hwell : isComName name = true → WellFormed name) :
    ∃ port_name path, port.port = some port_name ∧ port.path = some path ∧
      OpensAs port_name (devicePrefix ++ name) ∧ OpensAs path (devicePrefix ++ name) := by
  obtain ⟨core, turns, callback_function, error_callback, tr, q, -, hall, set, device, before,
    reading, rest, after, info, rfl, hname, hturn, rfl, -⟩ := hlists
  obtain ⟨hcom, tr1, tr2, utf8, rfl, hutf8, hport, hpath⟩ := portInformation_names hname hturn
  have hempty : name ≠ [] := by
    rintro rfl
    cases hcom
  have htext : SameText name utf8 := by
    rcases wideToUtf8_converts hutf8 (fun x hx => hall x (by simp [hx])) with
      ⟨-, htext⟩ | ⟨-, hnil | hill⟩
    · exact htext
    · exact absurd hnil hempty
    · exact absurd (hwell hcom) hill
  have hsome : utf8 ≠ [] := htext.bytes_ne_nil hempty
  have hdevice : SameText (devicePrefix ++ name) (devicePath ++ utf8) :=
    devicePath_text.append htext
  have hlong : devicePath ++ utf8 ≠ [] := by simp [devicePath]
  refine ⟨utf8, devicePath ++ utf8, ?_, ?_, ?_, ?_⟩
  · unfold PortInformation.reported
    dsimp only
    rw [hport]
    exact if_neg hsome
  · unfold PortInformation.reported
    dsimp only
    rw [hpath]
    exact if_neg hlong
  · rw [opensAs_iff hsome hempty htext]
    exact normalizePortPath_com (startsWithCom_of_isComName hcom)
  · rw [opensAs_iff hlong (by simp [devicePrefix]) hdevice]
    exact normalizePortPath_device name

end Listed

/-! ## The name of an attached device -/

/-- A run of `portName` for an interface reads this `PortName`. The name is the text that
`RegGetValueW` gave, which has expanded a `REG_EXPAND_SZ` and added a NUL where there was none. -/
def ReadsName (tr : List (Σ action, NamingAnswer action)) (name : WString) : Prop :=
  ∃ key room bytes written,
    (⟨.regGetValue key "PortName" room bytes, .ok written⟩ : Σ action, NamingAnswer action) ∈ tr ∧
      listing.wstring (listing.units (listing.filled room written.data)) = some name

/-- A run of the dispatcher reports the device with this `PortName` as attached under the name
`port`: `portName` gives it, and the callback is called with it. -/
def AttachesAs (name : WString) (port : String) : Prop :=
  ∃ (l : ListenerId) (turns : Nat) (ports : PortMap)
    (before after : List (Σ action, ListenerAnswer action)) (q : Listening (Option PortMap))
    (path : WString),
    Traces (listener.run l turns ports)
      (before ++ [⟨.portName path, .ok port⟩, ⟨.callback l path .kAttached port, ()⟩] ++ after) q ∧
    ∃ tr : List (Σ action, NamingAnswer action),
      Traces (naming.portName path) tr (.ret (some (.ok (utf8 port.toList)))) ∧
      (∀ x ∈ tr, x.1.Converts x.2) ∧ ReadsName tr name

section Attached

open naming

theorem ReadsName.of_append {tr tr' : List (Σ action, NamingAnswer action)} {name : WString}
    (h : ReadsName (tr ++ tr') name) : ReadsName tr name ∨ ReadsName tr' name := by
  obtain ⟨key, room, bytes, written, hmem, hname⟩ := h
  rcases List.mem_append.mp hmem with hmem | hmem
  · exact Or.inl ⟨key, room, bytes, written, hmem, hname⟩
  · exact Or.inr ⟨key, room, bytes, written, hmem, hname⟩

/-- An action that is no query of a value reads no name. -/
theorem ReadsName.of_cons {x : Σ action, NamingAnswer action}
    {tr : List (Σ action, NamingAnswer action)} {name : WString}
    (hx : ∀ key value room bytes, x.1 ≠ .regGetValue key value room bytes)
    (h : ReadsName (x :: tr) name) : ReadsName tr name := by
  obtain ⟨key, room, bytes, written, hmem, hname⟩ := h
  rcases List.mem_cons.mp hmem with heq | hmem
  · exact absurd (congrArg Sigma.fst heq).symm (hx _ _ _ _)
  · exact ⟨key, room, bytes, written, hmem, hname⟩

theorem not_readsName_nil {name : WString} : ¬ ReadsName [] name := by
  rintro ⟨key, room, bytes, written, hmem, -⟩
  cases hmem

theorem not_readsName_lift {tr : List Answered} {name : WString} :
    ¬ ReadsName (tr.map fun x => ⟨.listing x.1, x.2⟩) name := by
  rintro ⟨key, room, bytes, written, hmem, -⟩
  obtain ⟨x, -, hx⟩ := List.mem_map.mp hmem
  cases hx

theorem throwSystemError_throws {error : DWORD} {port : Utf8}
    {tr : List (Σ action, NamingAnswer action)} :
    ¬ Traces (throwSystemError error) tr (.ret (some (.ok port))) := by
  intro h
  obtain ⟨what, tr1, rfl, h1⟩ := traces_act_ret h
  obtain ⟨-, hret⟩ := traces_ret h1
  cases hret

theorem throwLastError_throws {port : Utf8} {tr : List (Σ action, NamingAnswer action)} :
    ¬ Traces throwLastError tr (.ret (some (.ok port))) := by
  intro h
  obtain ⟨error, tr1, rfl, h1⟩ := traces_act_ret h
  exact throwSystemError_throws h1

/-- The name under the key, in UTF-8. -/
theorem registryPort_reads {key : HKEY} {tr : List (Σ action, NamingAnswer action)} {port : Utf8}
    (h : Traces (registryPort key) tr (.ret (some (.ok port)))) (hall : ∀ x ∈ tr, x.1.Converts x.2)
    {name : WString} (hreads : ReadsName tr name) : name ≠ [] ∧ SameText name port := by
  obtain ⟨bytes, tr1, rfl, h1⟩ := traces_act_ret h
  cases bytes with
  | error error => exact absurd h1 throwSystemError_throws
  | ok bytes =>
    obtain ⟨written, tr2, rfl, h2⟩ := traces_act_ret h1
    cases written with
    | error error => exact absurd h2 throwSystemError_throws
    | ok written =>
      dsimp only [Prog.bind] at h2
      cases hwide : listing.wstring (listing.units
          (listing.filled (2 * (bytes.toNat / 2 + 1)) written.data)) with
      | none =>
        rw [hwide] at h2
        obtain ⟨-, hret⟩ := traces_ret h2
        cases hret
      | some wide =>
        rw [hwide] at h2
        obtain ⟨utf8, tr3, tr4, rfl, h3, h4⟩ := traces_bind_ret h2
        obtain ⟨tr5, rfl, h5⟩ := traces_lift_ret h3
        split at h4
        · obtain ⟨-, hret⟩ := traces_ret h4
          cases hret
        rename_i hsome
        obtain ⟨rfl, hret⟩ := traces_ret h4
        cases hret
        have hname : name = wide := by
          obtain ⟨key', room, bytes', written', hmem, hread⟩ :=
            hreads.of_cons fun _ _ _ _ h => by cases h
          rcases List.mem_cons.mp hmem with heq | hmem
          · cases heq
            exact Option.some.inj (hread.symm.trans hwide)
          · rw [List.append_nil] at hmem
            exact absurd ⟨_, _, _, _, hmem, hread⟩ not_readsName_lift
        subst hname
        have hconverts : ∀ x ∈ tr5, x.1.Converts x.2 := fun x hx =>
          hall ⟨.listing x.1, x.2⟩ (by simp [List.mem_map_of_mem hx])
        rcases wideToUtf8_converts h5 hconverts with htext | ⟨hnil, -⟩
        · exact htext
        · exact absurd hnil hsome

/-- Only the query of the value reads the name, so the trace around it does not matter. -/
theorem interfacePort_reads {devices : HDEVINFO} {path : WString}
    {tr : List (Σ action, NamingAnswer action)} {port : Utf8}
    (h : Traces (interfacePort devices path) tr (.ret (some (.ok port))))
    (hall : ∀ x ∈ tr, x.1.Converts x.2) {name : WString} (hreads : ReadsName tr name) :
    name ≠ [] ∧ SameText name port := by
  obtain ⟨device_interface, tr1, rfl, h1⟩ := traces_act_ret h
  cases device_interface with
  | none => exact absurd h1 throwLastError_throws
  | some device_interface =>
    obtain ⟨⟨detailed, device⟩, tr2, rfl, h2⟩ := traces_act_ret h1
    change Traces (detailFailed detailed >>= _) tr2 _ at h2
    obtain ⟨failed, tr3, tr4, rfl, h3, h4⟩ := traces_bind_ret h2
    have hreads := (hreads.of_cons fun _ _ _ _ h => by cases h).of_cons fun _ _ _ _ h => by cases h
    have hquery : ¬ ReadsName tr3 name := by
      unfold detailFailed at h3
      split at h3
      · obtain ⟨rfl, -⟩ := traces_ret h3
        exact not_readsName_nil
      · obtain ⟨error, tr5, rfl, h5⟩ := traces_act_ret h3
        obtain ⟨rfl, -⟩ := traces_ret h5
        exact fun hread => not_readsName_nil (hread.of_cons fun _ _ _ _ h => by cases h)
    have hreads := hreads.of_append.resolve_left hquery
    split at h4
    · exact absurd h4 throwLastError_throws
    obtain ⟨key, tr5, rfl, h5⟩ := traces_act_ret h4
    dsimp only [Prog.bind] at h5
    split at h5
    · exact absurd h5 throwLastError_throws
    obtain ⟨found, tr6, tr7, rfl, h6, h7⟩ := traces_bind_ret h5
    obtain ⟨closed, tr8, rfl, h8⟩ := traces_act_ret h7
    obtain ⟨rfl, hret⟩ := traces_ret h8
    cases hret
    have hreads := hreads.of_cons fun _ _ _ _ h => by cases h
    have hclose : ¬ ReadsName [⟨.listing (.regCloseKey key), closed⟩] name :=
      fun hread => not_readsName_nil (hread.of_cons fun _ _ _ _ h => by cases h)
    exact registryPort_reads h6 (fun x hx => hall x (by simp [hx]))
      (hreads.of_append.resolve_right hclose)

theorem portName_reads {path : WString} {tr : List (Σ action, NamingAnswer action)} {port : Utf8}
    (h : Traces (naming.portName path) tr (.ret (some (.ok port))))
    (hall : ∀ x ∈ tr, x.1.Converts x.2) {name : WString} (hreads : ReadsName tr name) :
    name ≠ [] ∧ SameText name port := by
  obtain ⟨devices, tr1, rfl, h1⟩ := traces_act_ret h
  dsimp only [Prog.bind] at h1
  split at h1
  · exact absurd h1 throwLastError_throws
  obtain ⟨found, tr2, tr3, rfl, h2, h3⟩ := traces_bind_ret h1
  obtain ⟨destroyed, tr4, rfl, h4⟩ := traces_act_ret h3
  obtain ⟨rfl, hret⟩ := traces_ret h4
  cases hret
  have hreads := hreads.of_cons fun _ _ _ _ h => by cases h
  have hdestroy : ¬ ReadsName [⟨.listing (.setupDiDestroyDeviceInfoList devices), destroyed⟩]
      name := fun hread => not_readsName_nil (hread.of_cons fun _ _ _ _ h => by cases h)
  exact interfacePort_reads h2 (fun x hx => hall x (by simp [hx]))
    (hreads.of_append.resolve_right hdestroy)

/-- A name that begins as a COM name opens the device of that name. -/
theorem attached_opens {name : WString} {port : String} (hattaches : AttachesAs name port)
    (hcom : WellFormed name → name ≠ [] → startsWithCom name = true) :
    OpensAs (utf8 port.toList) (devicePrefix ++ name) := by
  obtain ⟨-, -, -, -, -, -, path, -, tr, hrun, hall, hreads⟩ := hattaches
  obtain ⟨hempty, htext⟩ := portName_reads hrun hall hreads
  rw [opensAs_iff (htext.bytes_ne_nil hempty) hempty htext]
  exact normalizePortPath_com (hcom ((wellFormed_iff_sameText name).mpr ⟨_, htext⟩) hempty)

end Attached

/-! ## A registry with a name -/

/-- The bytes of units, with the low byte first. -/
def bytesOf (wide : WString) : List UInt8 :=
  wide.flatMap fun u : UInt16 => [u.toUInt8, (u >>> 8).toUInt8]

theorem unit_of_bytes (u : UInt16) :
    u.toUInt8.toUInt16 ||| ((u >>> 8).toUInt8.toUInt16 <<< 8) = u := by
  have hu := u.toNat_lt
  have hlow : u.toNat % 256 < 2 ^ 8 := Nat.mod_lt _ (by decide)
  have hsplit := Nat.shiftLeft_add_eq_or_of_lt hlow (u.toNat / 256)
  rw [Nat.shiftLeft_eq] at hsplit
  have hbytes : (u.toUInt8.toUInt16 ||| ((u >>> 8).toUInt8.toUInt16 <<< 8)).toNat =
      u.toNat % 256 ||| u.toNat / 256 % 256 * 2 ^ 8 % 65536 := by
    simp [Nat.shiftRight_eq_div_pow, Nat.shiftLeft_eq]
  have hhigh : u.toNat / 256 % 256 * 2 ^ 8 % 65536 = u.toNat / 256 * 2 ^ 8 := by omega
  apply UInt16.toNat_inj.mp
  rw [hbytes, hhigh, Nat.or_comm, ← hsplit]
  omega

theorem units_bytesOf (wide : WString) : listing.units (bytesOf wide) = wide := by
  induction wide with
  | nil => rfl
  | cons u wide ih =>
    have hcons : bytesOf (u :: wide) = u.toUInt8 :: (u >>> 8).toUInt8 :: bytesOf wide := rfl
    rw [hcons, listing.units, unit_of_bytes, ih]

theorem bytesOf_length (wide : WString) : (bytesOf wide).length = 2 * wide.length := by
  induction wide with
  | nil => rfl
  | cons u wide ih =>
    have hcons : bytesOf (u :: wide) = u.toUInt8 :: (u >>> 8).toUInt8 :: bytesOf wide := rfl
    rw [hcons, List.length_cons, List.length_cons, List.length_cons, ih]
    omega

/-- What the `PortName` of a device can be: a `REG_SZ` string without a NUL in it, whose bytes a
`DWORD` counts together with the NUL behind them. Both functions read the same text of such a
value. A `REG_EXPAND_SZ` with variables and a value without its NUL are outside. -/
structure PortName where
  units : WString
  no_nul : 0 ∉ units
  countable : 2 * (units.length + 1) < 4294967296

namespace PortName

/-- The value of the registry, with its NUL. -/
def value (name : PortName) : List UInt8 := bytesOf (name.units ++ [0])

def size (name : PortName) : DWORD := UInt32.ofNat (2 * (name.units.length + 1))

theorem size_toNat (name : PortName) : name.size.toNat = name.value.length := by
  have hcount := name.countable
  unfold size value
  rw [UInt32.toNat_ofNat', bytesOf_length, List.length_append, List.length_singleton]
  omega

/-- A buffer with room for the value reads as the name. -/
theorem read (name : PortName) {room : Nat} (h : name.value.length ≤ room) :
    listing.wstring (listing.units (listing.filled room name.value)) = some name.units := by
  have hunits : listing.units name.value = name.units ++ [0] := units_bytesOf _
  have hterminated : Terminated room name.value := by
    refine Or.inl ?_
    rw [hunits]
    exact List.mem_append_right _ List.mem_cons_self
  have htext : valueText name.value = name.units := by
    unfold valueText
    rw [hunits, textOf_append_of_not_mem name.no_nul]
    exact List.append_nil _
  rw [(scan_iff_terminated h).mpr hterminated, htext]

def written (name : PortName) : Written UInt8 name.size :=
  ⟨name.value, Nat.le_of_eq name.size_toNat.symm⟩

/-! ### The listing -/

section Listed

open listing

/-- The reading of the name, for the one device of a machine. -/
def reading (name : PortName) : List Answered :=
  [⟨.setupDiOpenDevRegKey 1 0, 1⟩, ⟨.regQueryValueSize 1 "PortName", some (REG_SZ, name.size)⟩,
    ⟨.regQueryValue 1 "PortName" (2 * (name.size.toNat / 2)) name.size, some name.written⟩,
    ⟨.regCloseKey 1, ()⟩]

theorem portName_run (name : PortName) :
    Traces (portName 1 0) name.reading (.ret (some (some name.units))) := by
  have hsize := name.size_toNat
  have hlength : name.value.length = 2 * (name.units.length + 1) := by
    unfold value
    rw [bytesOf_length, List.length_append, List.length_singleton]
  have hread : Traces (registryString 1 "PortName")
      [⟨.regQueryValueSize 1 "PortName", some (REG_SZ, name.size)⟩,
        ⟨.regQueryValue 1 "PortName" (2 * (name.size.toNat / 2)) name.size, some name.written⟩]
      (.ret (some (some name.units))) := by
    unfold registryString
    rw [Prog.perform_bind]
    apply traces_cons
    have hstring : ¬ ((REG_SZ ≠ REG_SZ ∧ REG_SZ ≠ REG_EXPAND_SZ) ∨ name.size.toNat < 2) := by
      rw [not_or]
      exact ⟨fun h => h.1 rfl, by omega⟩
    dsimp only
    rw [if_neg hstring, Prog.perform_bind]
    apply traces_cons
    have hroom : name.value.length ≤ 2 * (name.size.toNat / 2) := by omega
    have hscan := name.read hroom
    have hdata : name.written.data = name.value := rfl
    dsimp only
    rw [hdata, hscan]
    exact .nil
  unfold portName reading
  rw [Prog.perform_bind]
  apply traces_cons
  rw [if_neg (by decide)]
  exact traces_seq hread (traces_cons .nil)

/-- What follows in the turn, when the name is no text and the device tells nothing else. -/
def refusal (name : PortName) : List Answered :=
  [⟨.wideCharToMultiByte name.units, none⟩,
    ⟨.propertySize 1 0 SPDRP_MFG, 0⟩, ⟨.api .getLastError, ERROR_NO_MORE_ITEMS⟩,
    ⟨.propertySize 1 0 SPDRP_LOCATION_INFORMATION, 0⟩, ⟨.api .getLastError, ERROR_NO_MORE_ITEMS⟩,
    ⟨.instanceIdSize 1 0, 0⟩, ⟨.api .getLastError, ERROR_NO_MORE_ITEMS⟩]

/-- The port of a device without a name. -/
def nameless : PortInformation := { port := [], path := devicePath }

theorem portInformation_run (name : PortName) (hcom : isComName name.units = true) :
    Traces (portInformation 1 0) (name.reading ++ name.refusal) (.ret (some (some nameless))) := by
  have hempty : name.units ≠ [] := by
    intro hnil
    rw [hnil] at hcom
    cases hcom
  have hproperty : ∀ property, Traces (deviceProperty 1 0 property)
      [⟨.propertySize 1 0 property, 0⟩, ⟨.api .getLastError, ERROR_NO_MORE_ITEMS⟩]
      (.ret (some none)) := fun property => traces_cons (traces_cons .nil)
  have hinstance : Traces (instanceId 1 0)
      [⟨.instanceIdSize 1 0, 0⟩, ⟨.api .getLastError, ERROR_NO_MORE_ITEMS⟩]
      (.ret (some none)) := traces_cons (traces_cons .nil)
  have hwide : Traces (wideToUtf8 name.units) [⟨.wideCharToMultiByte name.units, none⟩]
      (.ret []) := by
    unfold wideToUtf8
    rw [if_neg hempty]
    exact traces_cons .nil
  unfold portInformation
  refine traces_seq name.portName_run ?_
  dsimp only
  rw [hcom]
  exact traces_seq hwide (traces_seq (hproperty _) (traces_seq (hproperty _)
    (traces_seq hinstance .nil)))

/-- A COM name that is no text is listed, without a port. -/
theorem nameless_listed (name : PortName) (hcom : isComName name.units = true)
    (hill : ¬ WellFormed name.units) : ListsAs name.units nameless.reported := by
  have hturn := name.portInformation_run hcom
  have hwalk : Traces (enumerate sampleCore (some 1) 1 2 0 [])
      (⟨.setupDiEnumDeviceInfo 1 0, some 0⟩ :: ((name.reading ++ name.refusal) ++
        [⟨.setupDiEnumDeviceInfo 1 1, none⟩, ⟨.api .getLastError, ERROR_NO_MORE_ITEMS⟩]))
      (.ret (some (.ok [nameless]))) := by
    apply traces_cons
    change Traces (portInformation 1 0 >>= _) _ _
    exact traces_seq hturn (traces_cons (traces_cons .nil))
  have hreport : Traces (reportPorts (some 0) [nameless])
      [⟨.portCallback (some 0) nameless.reported, ()⟩] (.ret ()) := traces_cons .nil
  have hrun : Traces (serialListPorts sampleCore 2 (some 0) (some 1))
      (⟨.setupDiGetClassDevs, 1⟩ :: ((⟨.setupDiEnumDeviceInfo 1 0, some 0⟩ ::
        ((name.reading ++ name.refusal) ++ [⟨.setupDiEnumDeviceInfo 1 1, none⟩,
          ⟨.api .getLastError, ERROR_NO_MORE_ITEMS⟩])) ++
        ([⟨.portCallback (some 0) nameless.reported, ()⟩] ++
          [⟨.setupDiDestroyDeviceInfoList 1, ()⟩]))) (.ret (some 1)) := by
    apply traces_cons
    change Traces (enumerate sampleCore (some 1) 1 2 0 [] >>= _) _ _
    apply traces_seq hwalk
    change Traces (reportPorts (some 0) (List.mergeSort [nameless] _) >>= fun _ => .act _ fun _ =>
      .ret (some (intOfSize (List.mergeSort [nameless] _).length))) _ _
    rw [List.mergeSort_singleton]
    exact traces_seq hreport (traces_cons .nil)
  refine ⟨sampleCore, 2, some 0, some 1, _, _, hrun, ?_, 1, 0,
    [⟨.setupDiGetClassDevs, 1⟩, ⟨.setupDiEnumDeviceInfo 1 0, some 0⟩], name.reading, name.refusal,
    [⟨.setupDiEnumDeviceInfo 1 1, none⟩, ⟨.api .getLastError, ERROR_NO_MORE_ITEMS⟩,
      ⟨.portCallback (some 0) nameless.reported, ()⟩, ⟨.setupDiDestroyDeviceInfoList 1, ()⟩],
    nameless, by simp, name.portName_run, hturn, rfl, by simp⟩
  simp [reading, refusal, ListingAction.Converts, Action.Converts, WideConverted, hill]

end Listed

/-! ### The listener -/

section Attached

open naming

/-- The run of `portName` of the listener, for the one device of a machine. -/
def resolving (name : PortName) (path : WString) (utf8 : Utf8) :
    List (Σ action, NamingAnswer action) :=
  [⟨.setupDiCreateDeviceInfoList, 1⟩, ⟨.setupDiOpenDeviceInterface 1 path, some 0⟩,
    ⟨.setupDiGetDeviceInterfaceDetail 1 0, (true, 0)⟩,
    ⟨.listing (.setupDiOpenDevRegKey 1 0), 1⟩,
    ⟨.regGetValueSize 1 "PortName", .ok name.size⟩,
    ⟨.regGetValue 1 "PortName" (2 * (name.size.toNat / 2 + 1)) name.size, .ok name.written⟩,
    ⟨.listing (.wideCharToMultiByte name.units), some utf8⟩,
    ⟨.listing (.wideCharToMultiByte name.units), some utf8⟩,
    ⟨.listing (.regCloseKey 1), ()⟩, ⟨.listing (.setupDiDestroyDeviceInfoList 1), ()⟩]

theorem resolving_run (name : PortName) (path : WString) {utf8 : Utf8} (hempty : name.units ≠ [])
    (hutf8 : utf8 ≠ []) :
    Traces (naming.portName path) (name.resolving path utf8) (.ret (some (.ok utf8))) := by
  have hsize := name.size_toNat
  have hroom : name.value.length ≤ 2 * (name.size.toNat / 2 + 1) := by omega
  have hscan := name.read hroom
  have hwide : Traces (lift (listing.wideToUtf8 name.units))
      [⟨.listing (.wideCharToMultiByte name.units), some utf8⟩,
        ⟨.listing (.wideCharToMultiByte name.units), some utf8⟩] (.ret utf8) := by
    unfold listing.wideToUtf8
    rw [if_neg hempty]
    exact traces_cons (traces_cons .nil)
  have hport : Traces (registryPort 1)
      [⟨.regGetValueSize 1 "PortName", .ok name.size⟩,
        ⟨.regGetValue 1 "PortName" (2 * (name.size.toNat / 2 + 1)) name.size, .ok name.written⟩,
        ⟨.listing (.wideCharToMultiByte name.units), some utf8⟩,
        ⟨.listing (.wideCharToMultiByte name.units), some utf8⟩] (.ret (some (.ok utf8))) := by
    unfold registryPort
    rw [Prog.perform_bind]
    apply traces_cons
    dsimp only
    rw [Prog.perform_bind]
    apply traces_cons
    have hdata : name.written.data = name.value := rfl
    dsimp only
    rw [hdata, hscan]
    dsimp only
    rw [← List.append_nil [_, _]]
    refine traces_seq hwide ?_
    rw [if_neg hutf8]
    exact .nil
  have hinterface : Traces (interfacePort 1 path)
      (⟨.setupDiOpenDeviceInterface 1 path, some 0⟩ ::
        ⟨.setupDiGetDeviceInterfaceDetail 1 0, (true, 0)⟩ ::
        ⟨.listing (.setupDiOpenDevRegKey 1 0), 1⟩ ::
        ([⟨.regGetValueSize 1 "PortName", .ok name.size⟩,
          ⟨.regGetValue 1 "PortName" (2 * (name.size.toNat / 2 + 1)) name.size, .ok name.written⟩,
          ⟨.listing (.wideCharToMultiByte name.units), some utf8⟩,
          ⟨.listing (.wideCharToMultiByte name.units), some utf8⟩] ++
        [⟨.listing (.regCloseKey 1), ()⟩])) (.ret (some (.ok utf8))) := by
    apply traces_cons
    apply traces_cons
    apply traces_cons
    change Traces (registryPort 1 >>= _) _ _
    exact traces_seq hport (traces_cons .nil)
  apply traces_cons
  change Traces (interfacePort 1 path >>= _) _ _
  exact traces_seq hinterface (traces_cons .nil)

/-- A name that is a text is what the listener calls the device. -/
theorem attaches (name : PortName) {text : List Char} (htext : utf16 text = name.units)
    (hempty : name.units ≠ []) : AttachesAs name.units (String.ofList text) := by
  have hsome : text ≠ [] := by
    rintro rfl
    exact hempty htext.symm
  have hbytes : utf8 (String.ofList text).toList = utf8 text := by rw [String.toList_ofList]
  have hsame : SameText name.units (utf8 text) := ⟨text, htext, rfl⟩
  have hrun := name.resolving_run [67] hempty (utf8_ne_nil hsome)
  -- the dispatcher takes an arrival, asks for the name and calls the callback
  have hattached : Traces (listener.run 0 2 ∅)
      [⟨.lock (.mutex_ 0), ()⟩, ⟨.check 0, .taken ⟨.kAttached, [67]⟩⟩, ⟨.unlock (.mutex_ 0), ()⟩,
        ⟨.portName [67], .ok (String.ofList text)⟩,
        ⟨.callback 0 [67] .kAttached (String.ofList text), ()⟩, ⟨.callbackReturned 0, none⟩,
        ⟨.lock (.mutex_ 0), ()⟩]
      (.ret (some (PortMap.emplace ∅ [67] (String.ofList text)))) := by
    apply traces_cons
    apply traces_cons
    apply traces_cons
    apply traces_cons
    apply traces_cons
    apply traces_cons
    apply traces_cons
    exact .nil
  refine ⟨0, 2, ∅, [⟨.lock (.mutex_ 0), ()⟩, ⟨.check 0, .taken ⟨.kAttached, [67]⟩⟩,
    ⟨.unlock (.mutex_ 0), ()⟩], [⟨.callbackReturned 0, none⟩, ⟨.lock (.mutex_ 0), ()⟩], _, [67],
    hattached, name.resolving [67] (utf8 text), ?_, ?_, ?_⟩
  · rw [hbytes]
    exact hrun
  · simp [resolving, NamingAction.Converts, ListingAction.Converts, WideConverted, hsame]
  · refine ⟨1, 2 * (name.size.toNat / 2 + 1), name.size, name.written, by simp [resolving], ?_⟩
    refine name.read ?_
    have hsize := name.size_toNat
    omega

end Attached

end PortName

/-! ## One name in three places -/

/-- Whatever runs report the device with this `PortName`, the listing gives it a port, and
`serialOpen` opens the device of exactly this name, with the port and with the path that are
listed, and with the name under which the listener reports it as attached. -/
structure PortNamesAgree (name : WString) : Prop where
  listed : ∀ port, ListsAs name port → ∃ port_name path, port.port = some port_name ∧
    port.path = some path ∧ OpensAs port_name (devicePrefix ++ name) ∧
      OpensAs path (devicePrefix ++ name)
  attached : ∀ port : String, AttachesAs name port →
    OpensAs (utf8 port.toList) (devicePrefix ++ name)

namespace PortName

/-- A COM name that is no text has no port in the listing. -/
theorem nameless_disagrees (name : PortName) (hcom : listing.isComName name.units = true)
    (hill : ¬ WellFormed name.units) : ¬ PortNamesAgree name.units := by
  intro h
  obtain ⟨port_name, path, hport, -⟩ := h.listed _ (name.nameless_listed hcom hill)
  cases hport

/-- A name that does not begin as a COM name is reported as attached, and opened without the
prefix of devices. -/
theorem other_disagrees (name : PortName) (hwell : WellFormed name.units)
    (hempty : name.units ≠ []) (hother : startsWithCom name.units = false) :
    ¬ PortNamesAgree name.units := by
  intro h
  obtain ⟨text, htext⟩ := hwell
  have hsame : SameText name.units (utf8 text) := ⟨text, htext, rfl⟩
  have hopens := h.attached _ (name.attaches htext hempty)
  rw [String.toList_ofList, opensAs_iff (hsame.bytes_ne_nil hempty) hempty hsame,
    normalizePortPath_other hother] at hopens
  exact devicePrefix_append_ne name.units hopens.symm

end PortName

/-- The name `CNCA0` of a virtual port. -/
def virtualName : PortName where
  units := [67, 78, 67, 65, 48]
  no_nul := by decide
  countable := by decide

/-- The listener reports the port `CNCA0`, and `serialOpen` does not find it under that name. -/
theorem a_virtual_port_disagrees : ¬ PortNamesAgree virtualName.units :=
  virtualName.other_disagrees (by decide) (by decide) (by decide)

/-- The listing, the listener and `serialOpen` agree on a port exactly when a name that the
listing takes for a COM name is a text, and a text in the registry begins as a COM name. -/
theorem port_names_agree_iff (name : PortName) :
    PortNamesAgree name.units ↔
      (listing.isComName name.units = true → WellFormed name.units) ∧
      (WellFormed name.units → name.units ≠ [] → startsWithCom name.units = true) := by
  constructor
  · intro h
    refine ⟨fun hcom => ?_, fun hwell hempty => ?_⟩
    · by_contra hill
      exact name.nameless_disagrees hcom hill h
    · by_contra hother
      rw [Bool.not_eq_true] at hother
      exact name.other_disagrees hwell hempty hother h
  · rintro ⟨hwell, hcom⟩
    exact ⟨fun port hlists => listed_opens hlists hwell,
      fun port hattaches => attached_opens hattaches hcom⟩

/-- The name `COM3`. -/
def comName : PortName where
  units := [67, 79, 77, 51]
  no_nul := by decide
  countable := by decide

/-- Everything agrees on the port `COM3`. -/
theorem com3_agrees : PortNamesAgree comName.units :=
  (port_names_agree_iff comName).mpr ⟨fun _ => by decide, fun _ _ => by decide⟩

end cpp_bindings_windows
