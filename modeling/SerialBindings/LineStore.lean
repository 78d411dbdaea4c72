-- The line settings of one device as a store of five independent attributes:
-- opening the port fills it, the setters overwrite one attribute each, and
-- the getters read what was written last.
import SerialBindings.CallRules

open programs

namespace cpp_bindings_windows

/-! ## The device -/

/-- The settings of the device behind the handle `device`, after one action. `SetCommState`
installs the settings or changes nothing, and `GetCommState` fails or gives the ones installed. -/
def commNext (device : HANDLE) (settings : DCB) : (action : Action) → Answer action → Option DCB
  | .getCommState handle, some answer =>
    if handle = device ∧ answer ≠ settings then none else some settings
  | .setCommState handle settings', installed =>
    some (if handle = device ∧ installed = true then settings' else settings)
  | _, _ => some settings

def comm (device : HANDLE) : Protocol Action Answer DCB := ⟨fun _ _ => True, commNext device⟩

/-- Only `SetCommState` changes the settings. -/
theorem comm_ignores {device : HANDLE} {e : Action}
    (he : ∀ handle settings, e ≠ .setCommState handle settings) :
    (comm device).Ignores e := by
  refine fun g => ⟨trivial, fun r g' hn => ?_⟩
  cases e with
  | getCommState handle =>
    cases r with
    | none =>
      cases hn
      rfl
    | some answer =>
      simp only [comm, commNext] at hn
      split at hn
      · cases hn
      · cases hn
        rfl
  | setCommState handle settings => exact absurd rfl (he handle settings)
  | _ =>
    cases hn
    rfl

theorem comm_reports {device : HANDLE} (e : Action) (he : e.Reports) : (comm device).Ignores e :=
  comm_ignores fun handle settings heq => by rw [heq] at he; exact he

/-- The rule for one action that does not change the settings. -/
theorem comm_skip {device : HANDLE} {α : Type} {Q : DCB → α → Prop} {e : Action}
    {k : Answer e → Api α} {settings : DCB}
    (he : ∀ handle settings, e ≠ .setCommState handle settings)
    (h : ∀ r, Follows (comm device) Q (k r) settings) :
    Follows (comm device) Q (.act e k) settings := by
  refine ⟨trivial, fun r g' hn => ?_⟩
  rw [(comm_ignores he settings).2 r g' hn]
  exact h r

/-- A report of an error returns a negative code and leaves the settings alone. -/
theorem comm_report {device : HANDLE} {core : CppCore} {Q : DCB → Int → Prop} {p : Api Int}
    {code : StatusCode} {settings : DCB} (hp : Within Action.Reports (· = core.value code) p)
    (h : Q settings (core.value code)) : Follows (comm device) Q p settings :=
  follows_of_within hp comm_reports fun _ ha => ha ▸ h

/-- What `GetCommState` has given for the handle, after one more action. -/
def hears (handle : HANDLE) (answers : List (Option DCB)) :
    (action : Action) → Answer action → List (Option DCB)
  | .getCommState handle', answer => if handle' = handle then answers ++ [answer] else answers
  | _, _ => answers

/-- The device and what `GetCommState` has given for its handle so far. -/
def askedNext (device : HANDLE) (g : DCB × List (Option DCB)) (e : Action) (r : Answer e) :
    Option (DCB × List (Option DCB)) :=
  (commNext device g.1 e r).map fun settings => (settings, hears device g.2 e r)

def asking (device : HANDLE) : Protocol Action Answer (DCB × List (Option DCB)) :=
  ⟨fun _ _ => True, askedNext device⟩

theorem asking_reports {device : HANDLE} (e : Action) (he : e.Reports) :
    (asking device).Ignores e := by
  refine fun g => ⟨trivial, fun r g' hn => ?_⟩
  cases e <;> first | exact he.elim | (cases hn; rfl)

/-! ## The fields of the line -/

/-- The fields of `DCB` that the five attributes decide. The characters and the limits of
Xon/Xoff count only in that mode. -/
structure LineFields where
  BaudRate : DWORD
  ByteSize : UInt8
  Parity : UInt8
  fParity : Bool
  StopBits : UInt8
  fOutxCtsFlow : Bool
  fRtsControl : Nat
  fOutX : Bool
  fInX : Bool
  xonXoff : Option (UInt8 × UInt8 × UInt16 × UInt16)
  deriving DecidableEq

def DCB.lineFields (settings : DCB) (mode : FlowControl) : LineFields where
  BaudRate := settings.BaudRate
  ByteSize := settings.ByteSize
  Parity := settings.Parity
  fParity := settings.fParity
  StopBits := settings.StopBits
  fOutxCtsFlow := settings.fOutxCtsFlow
  fRtsControl := settings.fRtsControl
  fOutX := settings.fOutX
  fInX := settings.fInX
  xonXoff :=
    if mode = FlowControl.kXonXoff then
      some (settings.XonChar, settings.XoffChar, settings.XonLim, settings.XoffLim)
    else none

/-- Each enumeration of the configuration holds one of its values. -/
structure SerialConfig.Valid (config : SerialConfig) : Prop where
  data_bits : 5 ≤ config.data_bits ∧ config.data_bits ≤ 8
  parity : config.parity = Parity.kNone ∨ config.parity = Parity.kEven ∨ config.parity = Parity.kOdd
  stop_bits : config.stop_bits = StopBits.kOne ∨ config.stop_bits = StopBits.kTwo
  flow_mode : config.flow_mode = FlowControl.kNone ∨ config.flow_mode = FlowControl.kRtsCts ∨
    config.flow_mode = FlowControl.kXonXoff

/-- The device shows the configuration: over any settings, `applyLineSettings` would install
the same line fields. -/
def Shows (settings : DCB) (config : SerialConfig) : Prop :=
  ∀ before, ∃ installed, lineSettings before config = some installed ∧
    settings.lineFields config.flow_mode = installed.lineFields config.flow_mode

/-- The line fields of a configuration. -/
def SerialConfig.fields (config : SerialConfig) : LineFields where
  BaudRate := dwordOfInt config.baudrate.toInt
  ByteSize := UInt8.ofNat (config.data_bits % 256).toNat
  Parity := (windowsParity config.parity).getD NOPARITY
  fParity := config.parity ≠ Parity.kNone
  StopBits := if config.stop_bits = StopBits.kTwo then TWOSTOPBITS else ONESTOPBIT
  fOutxCtsFlow := config.flow_mode = FlowControl.kRtsCts
  fRtsControl :=
    if config.flow_mode = FlowControl.kRtsCts then RTS_CONTROL_HANDSHAKE else RTS_CONTROL_ENABLE
  fOutX := config.flow_mode = FlowControl.kXonXoff
  fInX := config.flow_mode = FlowControl.kXonXoff
  xonXoff := if config.flow_mode = FlowControl.kXonXoff then some (0x11, 0x13, 2048, 512) else none

/-- Over any settings, `applyLineSettings` installs the line fields of a valid configuration. -/
theorem lineSettings_fields {config : SerialConfig} (h : config.Valid) (before : DCB) :
    ∃ installed, lineSettings before config = some installed ∧
      installed.lineFields config.flow_mode = config.fields := by
  obtain ⟨baudrate, data_bits, parity, stop_bits, flow_mode⟩ := config
  obtain ⟨-, hparity, hstop, hflow⟩ := h
  dsimp only at hparity hstop hflow
  rcases hparity with rfl | rfl | rfl <;> rcases hstop with rfl | rfl <;>
    rcases hflow with rfl | rfl | rfl <;> exact ⟨_, rfl, rfl⟩

/-- A device shows a valid configuration when it has the line fields of it. -/
theorem shows_iff {config : SerialConfig} (h : config.Valid) (settings : DCB) :
    Shows settings config ↔ settings.lineFields config.flow_mode = config.fields := by
  constructor
  · intro hs
    obtain ⟨installed, hi, heq⟩ := hs settings
    obtain ⟨installed', hi', hfields⟩ := lineSettings_fields h settings
    rw [hi] at hi'
    cases hi'
    rw [heq, hfields]
  · intro hs before
    obtain ⟨installed, hi, hfields⟩ := lineSettings_fields h before
    exact ⟨installed, hi, by rw [hs, hfields]⟩

/-! ## The attributes -/

/-- What a setter checks, what it writes, and the code of its failure. -/
structure Setter where
  check : Option Failure
  update : DCB → DCB
  code : StatusCode

/-- The setter that a call is, and none for the other calls. -/
def LineCall.setter : LineCall → Option Setter
  | .serialSetBaudrate baudrate => some
    { check := if baudrate.toInt < 300
        then some ⟨.kSetBaudrateError, "Invalid baudrate: must be >= 300"⟩ else none
      update := fun settings => { settings with BaudRate := dwordOfInt baudrate.toInt }
      code := .kSetBaudrateError }
  | .serialSetDataBits data_bits => some
    { check := if data_bits < 5 ∨ data_bits > 8
        then some ⟨.kSetDataBitsError, "Invalid data bits: must be 5-8"⟩ else none
      update := fun settings => { settings with ByteSize := UInt8.ofNat (data_bits % 256).toNat }
      code := .kSetDataBitsError }
  | .serialSetParity parity => some
    { check := if windowsParity parity = none
        then some ⟨.kSetParityError, "Invalid parity: must be 0, 1, or 2"⟩ else none
      update := fun settings => { settings with
        Parity := (windowsParity parity).getD NOPARITY
        fParity := parity ≠ Parity.kNone }
      code := .kSetParityError }
  | .serialSetStopBits stop_bits => some
    { check := if stop_bits ≠ StopBits.kOne ∧ stop_bits ≠ StopBits.kTwo
        then some ⟨.kSetStopBitsError, "Invalid stop bits: must be 0 or 2"⟩ else none
      update := fun settings => { settings with
        StopBits := if stop_bits = StopBits.kTwo then TWOSTOPBITS else ONESTOPBIT }
      code := .kSetStopBitsError }
  | .serialSetFlowControl mode => some
    { check := if mode < 0 ∨ mode > 2
        then some ⟨.kSetFlowControlError, "Invalid flow control mode: must be 0, 1, or 2"⟩ else none
      update := fun settings => applyFlowControl settings mode
      code := .kSetFlowControlError }
  | _ => none

/-- The program of a setter is the common text with its values. -/
theorem LineCall.program_setter {call : LineCall} {x : Setter} (h : call.setter = some x)
    (core : CppCore) (handle : Int64) (callback : Callback) :
    call.program core handle callback =
      setLineSetting core handle callback x.check x.update x.code := by
  cases call <;> cases h <;> rfl

/-- The configuration with the attribute that the call sets. -/
def LineCall.override (config : SerialConfig) : LineCall → SerialConfig
  | .serialSetBaudrate baudrate => { config with baudrate }
  | .serialSetDataBits data_bits => { config with data_bits }
  | .serialSetParity parity => { config with parity }
  | .serialSetStopBits stop_bits => { config with stop_bits }
  | .serialSetFlowControl mode => { config with flow_mode := mode }
  | _ => config

/-- The settings without the fields of the attribute that the call sets. -/
def LineCall.others (settings : DCB) : LineCall → DCB
  | .serialSetBaudrate _ => { settings with BaudRate := 0 }
  | .serialSetDataBits _ => { settings with ByteSize := 0 }
  | .serialSetParity _ => { settings with Parity := 0, fParity := false }
  | .serialSetStopBits _ => { settings with StopBits := 0 }
  | .serialSetFlowControl _ => { settings with
      fOutxCtsFlow := false, fRtsControl := 0, fOutX := false, fInX := false
      XonChar := 0, XoffChar := 0, XonLim := 0, XoffLim := 0 }
  | _ => settings

theorem applyFlowControl_others (settings : DCB) (mode : FlowControl) :
    (LineCall.serialSetFlowControl mode).others (applyFlowControl settings mode) =
      (LineCall.serialSetFlowControl mode).others settings := by
  unfold applyFlowControl
  split
  · rfl
  · split <;> rfl

/-- A setter writes the fields of its own attribute only. -/
theorem LineCall.update_others {call : LineCall} {x : Setter} (h : call.setter = some x)
    (settings : DCB) : call.others (x.update settings) = call.others settings := by
  cases call <;> cases h <;> first | rfl | exact applyFlowControl_others settings _

theorem windowsParity_some {parity : Parity} (h : windowsParity parity ≠ none) :
    parity = Parity.kNone ∨ parity = Parity.kEven ∨ parity = Parity.kOdd := by
  unfold windowsParity at h
  by_cases h0 : parity = 0
  · exact Or.inl h0
  by_cases h1 : parity = 1
  · exact Or.inr (Or.inl h1)
  by_cases h2 : parity = 2
  · exact Or.inr (Or.inr h2)
  · simp [h0, h1, h2] at h

/-- An argument that passes the check of its setter keeps the configuration valid. -/
theorem LineCall.override_valid {call : LineCall} {x : Setter} {config : SerialConfig}
    (h : call.setter = some x) (hcheck : x.check = none) (hv : config.Valid) :
    (call.override config).Valid := by
  cases call with
  | serialSetBaudrate baudrate => exact ⟨hv.data_bits, hv.parity, hv.stop_bits, hv.flow_mode⟩
  | serialSetDataBits data_bits =>
    cases h
    simp only [ite_eq_right_iff, reduceCtorEq, imp_false] at hcheck
    refine ⟨?_, hv.parity, hv.stop_bits, hv.flow_mode⟩
    obtain ⟨hlow, hhigh⟩ := not_or.mp hcheck
    exact ⟨Int.not_lt.mp hlow, Int.not_lt.mp hhigh⟩
  | serialSetParity parity =>
    cases h
    simp only [ite_eq_right_iff, reduceCtorEq, imp_false] at hcheck
    exact ⟨hv.data_bits, windowsParity_some hcheck, hv.stop_bits, hv.flow_mode⟩
  | serialSetStopBits stop_bits =>
    cases h
    simp only [ite_eq_right_iff, reduceCtorEq, imp_false] at hcheck
    refine ⟨hv.data_bits, hv.parity, ?_, hv.flow_mode⟩
    show stop_bits = StopBits.kOne ∨ stop_bits = StopBits.kTwo
    by_contra hno
    exact hcheck (not_or.mp hno)
  | serialSetFlowControl mode =>
    cases h
    simp only [ite_eq_right_iff, reduceCtorEq, imp_false] at hcheck
    refine ⟨hv.data_bits, hv.parity, hv.stop_bits, ?_⟩
    have hmode : ∀ m : Int, ¬ (m < 0 ∨ m > 2) → m = 0 ∨ m = 1 ∨ m = 2 := by
      intro m hm
      omega
    exact hmode mode hcheck
  | _ => cases h

theorem applyFlowControl_fields (settings : DCB) {mode : FlowControl} {config : SerialConfig}
    (hmode : mode = FlowControl.kNone ∨ mode = FlowControl.kRtsCts ∨ mode = FlowControl.kXonXoff)
    (h : settings.lineFields config.flow_mode = config.fields) :
    (applyFlowControl settings mode).lineFields mode =
      { config with flow_mode := mode }.fields := by
  have h1 := congrArg LineFields.BaudRate h
  have h2 := congrArg LineFields.ByteSize h
  have h3 := congrArg LineFields.Parity h
  have h4 := congrArg LineFields.fParity h
  have h5 := congrArg LineFields.StopBits h
  simp only [DCB.lineFields, SerialConfig.fields] at h1 h2 h3 h4 h5
  rcases hmode with rfl | rfl | rfl <;>
    simp [applyFlowControl, DCB.lineFields, SerialConfig.fields, FlowControl.kNone,
      FlowControl.kRtsCts, FlowControl.kXonXoff, h1, h2, h3, h4, h5]

/-- A setter turns the line fields of a configuration into those with its attribute replaced. -/
theorem LineCall.update_fields {call : LineCall} {x : Setter} {config : SerialConfig}
    (h : call.setter = some x) (hcheck : x.check = none) (hv : config.Valid) {settings : DCB}
    (hs : settings.lineFields config.flow_mode = config.fields) :
    (x.update settings).lineFields (call.override config).flow_mode =
      (call.override config).fields := by
  cases call with
  | serialSetBaudrate baudrate =>
    cases h
    exact congrArg (fun f : LineFields => { f with BaudRate := dwordOfInt baudrate.toInt }) hs
  | serialSetDataBits data_bits =>
    cases h
    exact congrArg (fun f : LineFields =>
      { f with ByteSize := UInt8.ofNat (data_bits % 256).toNat }) hs
  | serialSetParity parity =>
    cases h
    exact congrArg (fun f : LineFields => { f with
      Parity := (windowsParity parity).getD NOPARITY, fParity := parity ≠ Parity.kNone }) hs
  | serialSetStopBits stop_bits =>
    cases h
    exact congrArg (fun f : LineFields => { f with
      StopBits := if stop_bits = StopBits.kTwo then TWOSTOPBITS else ONESTOPBIT }) hs
  | serialSetFlowControl mode =>
    have hmode := (LineCall.override_valid h hcheck hv).flow_mode
    cases h
    exact applyFlowControl_fields settings hmode hs
  | _ => cases h

/-! ## The calls on the device -/

/-- A setter that fails returns a negative code and changes nothing. One that succeeds returns
0, and has written its attribute when the handle is the one of the device. -/
theorem setLineSetting_stores (core : CppCore) (device : HANDLE) (handle : Int64)
    (callback : Callback) (x : Setter) (settings : DCB) :
    Follows (comm device)
      (fun settings' a => (a < 0 ∧ settings' = settings) ∨ (a = 0 ∧ x.check = none ∧
        settings' = if handle.toInt = device then x.update settings else settings))
      (setLineSetting core handle callback x.check x.update x.code) settings := by
  unfold setLineSetting withNativeHandle
  have hneg := fun code => core.value_neg code
  refine follows_within_seq (validateWin32Handle_within core callback handle) comm_reports
    fun r hr => ?_
  cases r with
  | error status => exact Or.inl ⟨hr.1 ▸ hneg _, rfl⟩
  | ok native_handle =>
    obtain ⟨rfl, -⟩ := hr
    cases hcheck : x.check with
    | some failure =>
      refine follows_within_seq (effectiveErrorCallback_within callback) comm_reports
        fun callback _ => ?_
      exact comm_report (failMsg_within core callback _ _) (Or.inl ⟨hneg _, rfl⟩)
    | none =>
      refine ⟨trivial, fun answer g1 h1 => ?_⟩
      cases answer with
      | none =>
        cases h1
        exact comm_report (failWin32_within core callback _) (Or.inl ⟨hneg _, rfl⟩)
      | some answer =>
        simp only [comm, commNext] at h1
        split at h1
        · cases h1
        · rename_i hsame
          cases h1
          refine ⟨trivial, fun installed g2 h2 => ?_⟩
          cases installed
          · simp only [comm, commNext, Bool.false_eq_true, and_false, if_false] at h2
            cases h2
            exact comm_report (failWin32_within core callback _) (Or.inl ⟨hneg _, rfl⟩)
          · simp only [comm, commNext, and_true] at h2
            cases h2
            refine Or.inr ⟨rfl, rfl, ?_⟩
            split
            · rename_i hdevice
              rw [not_not.mp fun hne => hsame ⟨hdevice, hne⟩]
            · rfl

/-- A getter asks for the settings of the device once and changes nothing. It reads them, and
returns the error when `GetCommState` fails. -/
theorem getLineSetting_reads (core : CppCore) {device : HANDLE} (hdevice : 0 < device)
    {handle : Int64} (hhandle : handle.toInt = device) (callback : Callback) (read : DCB → Int)
    (settings : DCB) :
    Follows (asking device)
      (fun g a => g.1 = settings ∧ (g.2 = [some settings] ∧ a = read settings ∨
        g.2 = [none] ∧ a = core.value .kGetStateError))
      (getLineSetting core handle callback read) (settings, []) := by
  unfold getLineSetting withNativeHandle
  refine follows_within_seq (validateWin32Handle_within core callback handle) asking_reports
    fun r hr => ?_
  cases r with
  | error status => exact absurd (hhandle ▸ hr.2) (Int.not_le.mpr hdevice)
  | ok native_handle =>
    obtain ⟨rfl, -⟩ := hr
    refine ⟨trivial, fun answer g1 h1 => ?_⟩
    simp only [asking, askedNext, hears, hhandle, if_true, List.nil_append] at h1
    cases answer with
    | none =>
      cases h1
      exact follows_of_within (failWin32_within core callback _) asking_reports
        fun _ ha => ⟨rfl, Or.inr ⟨rfl, ha⟩⟩
    | some answer =>
      simp only [commNext] at h1
      split at h1
      · cases h1
      · rename_i hsame
        cases h1
        rw [not_not.mp fun hne => hsame ⟨hhandle, hne⟩]
        exact ⟨rfl, Or.inl ⟨rfl, rfl⟩⟩

/-- An `applyLineSettings` that succeeds has installed the settings of the configuration. -/
theorem applyLineSettings_installs (device handle : HANDLE) (config : SerialConfig)
    (settings : DCB) :
    Follows (comm device)
      (fun settings' failure => failure = none → handle = device →
        lineSettings settings config = some settings')
      (applyLineSettings handle config) settings := by
  have hfail : ∀ code text settings', Follows (comm device)
      (fun settings' failure => failure = none → handle = device →
        lineSettings settings config = some settings')
      (failWithLastError code text) settings' := by
    intro code text settings'
    refine comm_skip (fun _ _ heq => by cases heq) fun error => ?_
    dsimp only [Prog.bind]
    exact follows_within_seq (win32ErrorToString_within error)
      (fun e he => comm_reports e he.reports) fun _ _ => nofun
  unfold applyLineSettings
  refine ⟨trivial, fun answer g1 h1 => ?_⟩
  cases answer with
  | none => exact hfail _ _ _
  | some answer =>
    simp only [comm, commNext] at h1
    split at h1
    · cases h1
    · rename_i hsame
      cases h1
      dsimp only [Prog.bind]
      split
      · exact nofun
      · rename_i installed hinstalled
        refine ⟨trivial, fun done g2 h2 => ?_⟩
        cases done
        · exact hfail _ _ _
        · simp only [comm, commNext, and_true] at h2
          cases h2
          refine comm_skip (fun _ _ heq => by cases heq) fun timed => ?_
          cases timed
          · exact hfail _ _ _
          · intro _ hdevice
            rw [if_pos hdevice, ← hinstalled, not_not.mp fun hne => hsame ⟨hdevice, hne⟩]

/-- A port that was opened has the settings of its configuration. -/
theorem serialOpen_installs (core : CppCore) (device : HANDLE) (port : Option (List UInt8))
    (config : SerialConfig) (callback : Callback) (settings : DCB) :
    Follows (comm device)
      (fun settings' a => 0 < a → a = device → lineSettings settings config = some settings')
      (serialOpen core port (some config) callback) settings := by
  have hneg : ∀ code settings', 0 < core.value code → core.value code = device →
      lineSettings settings config = some settings' := fun code _ hpos _ =>
    absurd (core.value_neg code) (Int.not_lt.mpr (Int.le_of_lt hpos))
  unfold serialOpen
  refine follows_within_seq (effectiveErrorCallback_within callback) comm_reports
    fun callback _ => ?_
  refine follows_within_seq (validate_within core callback _) comm_reports fun status hstatus => ?_
  split
  · rename_i hlt
    exact fun hpos _ => absurd hlt (Int.not_lt.mpr (Int.le_of_lt hpos))
  refine follows_within_seq (utf8ToWide_within port)
    (fun e he => comm_ignores fun handle settings heq => ?_) fun port_wide _ => ?_
  · obtain ⟨bytes, rfl⟩ := he
    cases heq
  split
  · exact comm_report (failMsg_within core callback _ _) (hneg _ _)
  refine comm_skip (fun _ _ heq => by cases heq) fun raw_handle => ?_
  dsimp only [Prog.bind]
  by_cases hraw : raw_handle = INVALID_HANDLE_VALUE ∨ raw_handle = nullHandle
  · rw [if_pos (by rcases hraw with rfl | rfl <;> rfl)]
    exact comm_report (failWin32_within core callback _) (hneg _ _)
  obtain ⟨hinv, hnull⟩ := not_or.mp hraw
  rw [if_neg hinv, if_neg hnull]
  refine follows_seq (applyLineSettings_installs device raw_handle config settings)
    fun settings' failure hinstalls => ?_
  have hclose : ∀ code message, Follows (comm device)
      (fun settings' a => 0 < a → a = device → lineSettings settings config = some settings')
      (do
        let status ← failMsg core callback code message
        let _ ← perform (.closeHandle raw_handle)
        return status) settings' := by
    intro code message
    refine follows_within_seq (failMsg_within core callback code message) comm_reports
      fun status hs => ?_
    subst hs
    exact comm_skip (fun _ _ heq => by cases heq) fun _ => hneg _ _
  cases failure with
  | some failure => exact hclose _ _
  | none =>
    refine comm_skip (fun _ _ heq => by cases heq) fun _ => ?_
    dsimp only [Prog.bind]
    split
    · exact hclose _ _
    · exact comm_skip (fun _ _ heq => by cases heq) fun _ _ heq => hinstalls rfl heq

/-! ## What the getters read -/

/-- The getter that a call is, and none for the other calls. -/
def LineCall.getter : LineCall → Option (DCB → Int)
  | .serialGetBaudrate => some fun settings => intOfDword settings.BaudRate
  | .serialGetDataBits => some fun settings => settings.ByteSize.toNat
  | .serialGetParity => some fun settings =>
    if settings.Parity = EVENPARITY then 1 else if settings.Parity = ODDPARITY then 2 else 0
  | .serialGetStopBits => some fun settings => if settings.StopBits = TWOSTOPBITS then 2 else 0
  | .serialGetFlowControl => some fun settings =>
    if settings.fOutxCtsFlow ∧ settings.fRtsControl = RTS_CONTROL_HANDSHAKE then 1
    else if settings.fOutX ∧ settings.fInX then 2
    else 0
  | _ => none

/-- The program of a getter is the common text with what it reads. -/
theorem LineCall.program_getter {call : LineCall} {read : DCB → Int} (h : call.getter = some read)
    (core : CppCore) (handle : Int64) (callback : Callback) :
    call.program core handle callback = getLineSetting core handle callback read := by
  cases call <;> cases h <;> rfl

/-- The attribute of the configuration that the call gets. -/
def LineCall.attribute (config : SerialConfig) : LineCall → Int
  | .serialGetBaudrate => config.baudrate.toInt
  | .serialGetDataBits => config.data_bits
  | .serialGetParity => config.parity
  | .serialGetStopBits => config.stop_bits
  | .serialGetFlowControl => config.flow_mode
  | _ => 0

/-- A baud rate survives the way through `DWORD`. -/
theorem intOfDword_dwordOfInt (n : Int32) : intOfDword (dwordOfInt n.toInt) = n.toInt := by
  have h1 : -2147483648 ≤ n.toInt := Int32.le_toInt n
  have h2 : n.toInt ≤ 2147483647 := Int32.toInt_le n
  unfold intOfDword dwordOfInt
  rw [UInt32.toNat_ofNat']
  split <;> omega

/-- A getter reads the attribute of the configuration whose line fields the device has. -/
theorem LineCall.getter_reads {call : LineCall} {read : DCB → Int} (h : call.getter = some read)
    {config : SerialConfig} (hv : config.Valid) {settings : DCB}
    (hs : settings.lineFields config.flow_mode = config.fields) :
    read settings = call.attribute config := by
  cases call with
  | serialGetBaudrate =>
    cases h
    have hbaud : settings.BaudRate = _ := congrArg LineFields.BaudRate hs
    dsimp only
    rw [hbaud]
    exact intOfDword_dwordOfInt config.baudrate
  | serialGetDataBits =>
    cases h
    have hsize : settings.ByteSize = _ := congrArg LineFields.ByteSize hs
    have hbits : ∀ n : Int, 5 ≤ n → n ≤ 8 → ((UInt8.ofNat (n % 256).toNat).toNat : Int) = n := by
      intro n h1 h2
      rw [UInt8.toNat_ofNat']
      omega
    dsimp only
    rw [hsize]
    exact hbits config.data_bits hv.data_bits.1 hv.data_bits.2
  | serialGetParity =>
    cases h
    have hparity : settings.Parity = _ := congrArg LineFields.Parity hs
    dsimp only [SerialConfig.fields, LineCall.attribute] at hparity ⊢
    rw [hparity]
    rcases hv.parity with hp | hp | hp <;> rw [hp] <;> rfl
  | serialGetStopBits =>
    cases h
    have hstop : settings.StopBits = _ := congrArg LineFields.StopBits hs
    dsimp only [SerialConfig.fields, LineCall.attribute] at hstop ⊢
    rw [hstop]
    rcases hv.stop_bits with hp | hp <;> rw [hp] <;> rfl
  | serialGetFlowControl =>
    cases h
    have hcts : settings.fOutxCtsFlow = _ := congrArg LineFields.fOutxCtsFlow hs
    have hrts : settings.fRtsControl = _ := congrArg LineFields.fRtsControl hs
    have hout : settings.fOutX = _ := congrArg LineFields.fOutX hs
    have hin : settings.fInX = _ := congrArg LineFields.fInX hs
    dsimp only [SerialConfig.fields, LineCall.attribute] at hcts hrts hout hin ⊢
    rw [hcts, hrts, hout, hin]
    rcases hv.flow_mode with hp | hp | hp <;> rw [hp] <;> rfl
  | _ => cases h

/-! ## Sessions -/

/-- One call of a setter with what it returned. -/
structure SetCall where
  handle : Int64
  callback : Callback
  call : LineCall
  result : Int

/-- The setters run one after the other on the device, with every answer that can come. -/
inductive Session (core : CppCore) (device : HANDLE) : DCB → List SetCall → DCB → Prop
  | nil {settings : DCB} : Session core device settings [] settings
  | snoc {settings settings1 settings2 : DCB} {calls : List SetCall} {x : SetCall} :
      Session core device settings calls settings1 → x.call.setter ≠ none →
      Exec (commNext device) settings1
        (x.call.program core x.handle x.callback) settings2 x.result →
      Session core device settings (calls ++ [x]) settings2

theorem session_nil {core : CppCore} {device : HANDLE} {settings settings' : DCB}
    (h : Session core device settings [] settings') : settings' = settings := by
  generalize hcalls : ([] : List SetCall) = all at h
  cases h with
  | nil => rfl
  | snoc => simp at hcalls

/-- The last call of a session. -/
theorem session_last {core : CppCore} {device : HANDLE} {settings settings2 : DCB}
    {calls : List SetCall} {x : SetCall}
    (h : Session core device settings (calls ++ [x]) settings2) :
    ∃ settings1, Session core device settings calls settings1 ∧
      Exec (commNext device) settings1 (x.call.program core x.handle x.callback) settings2
        x.result := by
  generalize hcalls : calls ++ [x] = all at h
  cases h with
  | nil => simp at hcalls
  | snoc hsession _ hexec =>
    obtain ⟨rfl, hx⟩ := List.append_inj' hcalls rfl
    cases hx
    exact ⟨_, hsession, hexec⟩

/-- The configuration overridden by the successful calls on the device. -/
def effectiveConfig (device : HANDLE) (config : SerialConfig) (calls : List SetCall) :
    SerialConfig :=
  calls.foldl (fun config x =>
    if x.handle.toInt = device ∧ x.result = 0 then x.call.override config else config) config

theorem effectiveConfig_snoc (device : HANDLE) (config : SerialConfig) (calls : List SetCall)
    (x : SetCall) :
    effectiveConfig device config (calls ++ [x]) =
      if x.handle.toInt = device ∧ x.result = 0 then
        x.call.override (effectiveConfig device config calls)
      else effectiveConfig device config calls := by
  unfold effectiveConfig
  rw [List.foldl_append]
  rfl

/-- One run of a setter. -/
theorem LineCall.setter_exec {core : CppCore} {device : HANDLE} {handle : Int64}
    {callback : Callback} {call : LineCall} {x : Setter} (hx : call.setter = some x)
    {settings settings' : DCB} {a : Int}
    (h : Exec (commNext device) settings (call.program core handle callback) settings' a) :
    (a < 0 ∧ settings' = settings) ∨ (a = 0 ∧ x.check = none ∧
      settings' = if handle.toInt = device then x.update settings else settings) := by
  rw [LineCall.program_setter hx] at h
  have hpost := follows_exec (setLineSetting_stores core device handle callback x settings) h
  exact hpost

/-- A session keeps the device at its effective configuration, which stays valid. -/
theorem session_keeps {core : CppCore} {device : HANDLE} {config : SerialConfig}
    {settings settings' : DCB} {calls : List SetCall} (hv : config.Valid)
    (hs : settings.lineFields config.flow_mode = config.fields)
    (h : Session core device settings calls settings') :
    (effectiveConfig device config calls).Valid ∧
      settings'.lineFields (effectiveConfig device config calls).flow_mode =
        (effectiveConfig device config calls).fields := by
  induction h with
  | nil => exact ⟨hv, hs⟩
  | @snoc settings1 settings2 calls x _ hset hexec ih =>
    obtain ⟨hvalid, hfields⟩ := ih
    obtain ⟨setter, hx⟩ := Option.ne_none_iff_exists'.mp hset
    rw [effectiveConfig_snoc]
    rcases LineCall.setter_exec hx hexec with ⟨hneg, rfl⟩ | ⟨ha, hcheck, rfl⟩
    · rw [if_neg fun hboth => by omega]
      exact ⟨hvalid, hfields⟩
    · by_cases hdevice : x.handle.toInt = device
      · rw [if_pos ⟨hdevice, ha⟩, if_pos hdevice]
        exact ⟨LineCall.override_valid hx hcheck hvalid,
          LineCall.update_fields hx hcheck hvalid hfields⟩
      · rw [if_neg fun hboth => hdevice hboth.1, if_neg hdevice]
        exact ⟨hvalid, hfields⟩

/-- After an open with a valid configuration and any setters, the device shows the effective
configuration and the getters read it: a getter asks `GetCommState` once, and fails only when
that fails. A setter that fails changes nothing, and none changes a field that is not of its
attribute. -/
theorem the_settings_are_a_store (core : CppCore) {device : HANDLE} {port : Option (List UInt8)}
    {config : SerialConfig} {callback : Callback} {settings settings1 settings2 : DCB}
    {calls : List SetCall} (hvalid : config.Valid) (hpos : 0 < device)
    (hopen : Exec (commNext device) settings (serialOpen core port (some config) callback)
      settings1 device)
    (hcalls : Session core device settings1 calls settings2) :
    Shows settings2 (effectiveConfig device config calls) ∧
    (∀ (handle : Int64) callback (call : LineCall) settings3 answers a, handle.toInt = device →
      call.getter ≠ none →
      Exec (askedNext device) (settings2, []) (call.program core handle callback)
        (settings3, answers) a →
      settings3 = settings2 ∧
        (answers = [some settings2] ∧ a = call.attribute (effectiveConfig device config calls) ∨
          answers = [none] ∧ a = core.value .kGetStateError)) ∧
    ∀ handle callback (call : LineCall) settings3 a, call.setter ≠ none →
      Exec (commNext device) settings2 (call.program core handle callback) settings3 a →
      (a < 0 → settings3 = settings2) ∧ call.others settings3 = call.others settings2 := by
  have hinstalled := follows_exec
    (serialOpen_installs core device port config callback settings) hopen hpos rfl
  obtain ⟨installed, hinstalled', hfields⟩ := lineSettings_fields hvalid settings
  rw [hinstalled] at hinstalled'
  cases hinstalled'
  obtain ⟨hv, hs⟩ := session_keeps hvalid hfields hcalls
  refine ⟨(shows_iff hv settings2).mpr hs, ?_, ?_⟩
  · intro handle callback call settings3 answers a hhandle hget hexec
    obtain ⟨read, hread⟩ := Option.ne_none_iff_exists'.mp hget
    rw [LineCall.program_getter hread] at hexec
    have hresult := follows_exec
      (getLineSetting_reads core hpos hhandle callback read settings2) hexec
    rw [LineCall.getter_reads hread hv hs] at hresult
    exact hresult
  · intro handle callback call settings3 a hset hexec
    obtain ⟨x, hx⟩ := Option.ne_none_iff_exists'.mp hset
    rcases LineCall.setter_exec hx hexec with ⟨-, rfl⟩ | ⟨ha, -, rfl⟩
    · exact ⟨fun _ => rfl, rfl⟩
    · refine ⟨fun hneg => by omega, ?_⟩
      split
      · exact LineCall.update_others hx settings2
      · rfl

/-- The answers of a device with the handle 5 on which every call of Windows succeeds. -/
def obedientAnswer (settings : DCB) : (action : Action) → Answer action
  | .createFile _ => 5
  | .getCommState _ => some settings
  | .multiByteToWideChar _ => some [67, 79, 77, 51, 0]
  | action => idleAnswer action

/-- A device with all settings 0, after an open with 9600 baud, 8 data bits and no parity. -/
def openedSettings : DCB :=
  { BaudRate := 9600, ByteSize := 8, fBinary := true, fDtrControl := DTR_CONTROL_ENABLE
    fRtsControl := RTS_CONTROL_ENABLE, fTXContinueOnXoff := true }

/-- `COM3` is opened so, and then gets an even parity and 115200 baud. -/
theorem an_open_port_takes_its_settings :
    ∃ settings1 settings2 calls, Session sampleCore 5 settings1 calls settings2 ∧
      effectiveConfig 5 ⟨9600, 8, 0, 0, 0⟩ calls = ⟨115200, 8, 1, 0, 0⟩ ∧
      Shows settings2 (effectiveConfig 5 ⟨9600, 8, 0, 0, 0⟩ calls) ∧
      (∀ (handle : Int64) callback (call : LineCall) settings3 answers a, handle.toInt = 5 →
        call.getter ≠ none →
        Exec (askedNext 5) (settings2, []) (call.program sampleCore handle callback)
          (settings3, answers) a →
        settings3 = settings2 ∧
          (answers = [some settings2] ∧
              a = call.attribute (effectiveConfig 5 ⟨9600, 8, 0, 0, 0⟩ calls) ∨
            answers = [none] ∧ a = sampleCore.value .kGetStateError)) ∧
      ∀ handle callback (call : LineCall) settings3 a, call.setter ≠ none →
        Exec (commNext 5) settings2 (call.program sampleCore handle callback) settings3 a →
        (a < 0 → settings3 = settings2) ∧ call.others settings3 = call.others settings2 := by
  have hopen : Exec (commNext 5) {} (serialOpen sampleCore (some [67, 79, 77, 51])
      (some ⟨9600, 8, 0, 0, 0⟩) none) openedSettings 5 := run_exec obedientAnswer rfl
  have hparity : Exec (commNext 5) openedSettings
      ((LineCall.serialSetParity 1).program sampleCore 5 none)
      { openedSettings with Parity := EVENPARITY, fParity := true } 0 :=
    run_exec obedientAnswer rfl
  have hbaudrate : Exec (commNext 5) { openedSettings with Parity := EVENPARITY, fParity := true }
      ((LineCall.serialSetBaudrate 115200).program sampleCore 5 none)
      { openedSettings with Parity := EVENPARITY, fParity := true, BaudRate := 115200 } 0 :=
    run_exec obedientAnswer rfl
  have hcalls : Session sampleCore 5 openedSettings [⟨5, none, .serialSetParity 1, 0⟩,
      ⟨5, none, .serialSetBaudrate 115200, 0⟩] _ :=
    .snoc (x := ⟨5, none, .serialSetBaudrate 115200, 0⟩)
      (.snoc (x := ⟨5, none, .serialSetParity 1, 0⟩) .nil nofun hparity) nofun hbaudrate
  have hvalid : SerialConfig.Valid ⟨9600, 8, 0, 0, 0⟩ :=
    ⟨by decide, Or.inl rfl, Or.inl rfl, Or.inl rfl⟩
  exact ⟨_, _, _, hcalls, rfl,
    the_settings_are_a_store sampleCore hvalid (by decide) hopen hcalls⟩

end cpp_bindings_windows
