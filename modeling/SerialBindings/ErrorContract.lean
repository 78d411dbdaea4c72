-- The contract of the C API about errors: over every exported call that returns a
-- status, a count, a handle or a setting. A negative value is reported once to the
-- effective callback, but for a baud rate or a number of ports that no int holds.
import SerialBindings.ErrorReports
import SerialBindings.ListingRules
import SerialBindings.SetEventCallback

open programs

namespace cpp_bindings_windows

variable {global : Callback} {g g' : Ledger} {core : CppCore}

/-! ## The listing of the ports -/

theorem onListing_next {e : ListingAction} {r : ListingAnswer e}
    (h : (onListing global).next g e r = some g') : g' = g.nextListing e r := by
  unfold onListing Protocol.along reporting at h
  dsimp only at h
  split at h
  · cases h
    rfl
  · cases h

/-- Outside of an enumeration that failed, the fields of a device change no report and not the
walk. -/
theorem describes_passes {set : HDEVINFO} {device : SP_DEVINFO_DATA} {e : ListingAction}
    (hcalm : g.tally.failing = false) (he : e.Describes set device) :
    (onListing global).Passes g e := by
  refine ⟨trivial, fun r g' hn => ?_⟩
  rw [onListing_next hn]
  cases e with
  | api action =>
    cases action with
    | getLastError => exact Ledger.lastError_calm hcalm r
    | _ => exact he.elim
  | regQueryValue => exact he.elim
  | setupDiEnumDeviceInfo => exact he.elim
  | _ => rfl

section Rules

variable {callback : Callback} {code : StatusCode} {message : String} {Q : Ledger → Int → Prop}

/-- The rule for a program of the C API inside the listing. -/
theorem effective_lift {Q : Ledger → Callback → Prop} (h : Q g (effective callback global)) :
    Follows (onListing global) Q (listing.lift (effectiveErrorCallback callback)) g := by
  apply follows_lift.mpr
  rw [← Prog.bind_ret (effectiveErrorCallback callback)]
  exact effective_follows h

theorem failMsg_lift (h : Q (g.report callback (core.value code)) (core.value code)) :
    Follows (onListing global) Q (listing.lift (failMsg core callback code message)) g := by
  apply follows_lift.mpr
  rw [← Prog.bind_ret (failMsg core callback code message)]
  exact failMsg_follows h

/-- A report of the last error in the listing. -/
theorem failWin32_lift (hcalm : g.tally.failing = false)
    (h : ∀ g', g'.reports = g.reports ++ [(effective callback global, core.value code)] →
      g'.tally = g.tally → Q g' (core.value code)) :
    Follows (onListing global) Q (listing.lift (failWin32 core callback code)) g := by
  apply follows_lift.mpr
  rw [← Prog.bind_ret (failWin32 core callback code)]
  apply failWin32_follows
  intro g' hreports _ htally
  exact h g' hreports (htally hcalm)

end Rules

namespace listing

/-! ## The walk over the devices -/

/-- The walk goes on: nothing is reported, and so many devices with a port name were found. -/
structure Walking (g : Ledger) (found : Nat) : Prop where
  reports : g.reports = []
  tally : g.tally = { found }

theorem Walking.calm {n : Nat} (h : Walking g n) : g.tally.failing = false := by
  rw [h.tally]

/-- The name of a device is counted when it is the name of a port. -/
theorem registryString_walks {n : Nat} (key : HKEY) (value_name : String) (h : Walking g n) :
    Follows (onListing global) (fun g' result => ∀ name, result = some name →
      Walking g' (if name.any isComName then n + 1 else n)) (registryString key value_name) g := by
  refine ⟨trivial, fun answer g1 h1 => ?_⟩
  cases h1
  rcases answer with _ | ⟨type, size⟩
  · rintro _ ⟨⟩
    exact h
  · dsimp only [Prog.bind]
    split
    · rintro _ ⟨⟩
      exact h
    · refine ⟨trivial, fun written g2 h2 => ?_⟩
      cases h2
      rcases written with _ | written
      · rintro _ ⟨⟩
        exact h
      · intro name hname
        obtain ⟨text, htext, rfl⟩ := Option.map_eq_some_iff.mp hname
        have hport : Ledger.isPortName (2 * (size.toNat / 2)) written.data = isComName text := by
          unfold Ledger.isPortName
          rw [htext]
          rfl
        change Walking (g.nextListing (.regQueryValue key value_name _ size) (some written)) _
        unfold Ledger.nextListing
        dsimp only
        rw [hport, Option.any_some]
        split
        · exact ⟨h.reports, by rw [h.tally]⟩
        · exact h

theorem portName_walks {n : Nat} (set : HDEVINFO) (device : SP_DEVINFO_DATA) (h : Walking g n) :
    Follows (onListing global) (fun g' result => ∀ name, result = some name →
      Walking g' (if name.any isComName then n + 1 else n)) (portName set device) g := by
  refine ⟨trivial, fun key g1 h1 => ?_⟩
  cases h1
  dsimp only [Prog.bind]
  split
  · rintro _ ⟨⟩
    exact h
  · refine follows_seq (registryString_walks key "PortName" h) fun g2 value hvalue => ?_
    cases value with
    | none => rintro _ ⟨⟩
    | some name =>
      refine ⟨trivial, fun _ g3 h3 => ?_⟩
      cases h3
      rintro _ ⟨⟩
      exact hvalue name rfl

/-- The contract of a listing with an effective callback. Its walk counts the ports, and ends with
one report of an error, or without a report at the end of the devices. -/
def counting (core : CppCore) (global callback_function argument : Callback) :
    ListingOutline core (onListing global) callback_function argument where
  start g := g.reports = [] ∧ g.tally = {}
  ready callback g := callback = effective argument global ∧ g.reports = [] ∧ g.tally = {}
  walking callback _ ports g := callback = effective argument global ∧ Walking g ports.length
  named callback _ ports name g := callback = effective argument global ∧
    Walking g (if name.any isComName then ports.length + 1 else ports.length)
  failed _ status g := g.tally.failing = false ∧ g.tally.exhausted = false ∧
    Contract (effective argument global) g.reports status
  listed _ ports g := g.reports = [] ∧ g.tally = ⟨ports.length, false, true⟩
  result g value :=
    (g.tally.exhausted = false ∧ Contract (effective argument global) g.reports value) ∨
    (g.tally.exhausted = true ∧ g.reports = [] ∧ value = intOfSize g.tally.found)
  effective h := effective_lift ⟨rfl, h⟩
  refuses := by
    rintro _ g ⟨rfl, hreports, htally⟩
    apply failMsg_lift
    refine Or.inl ⟨?_, ?_⟩
    · change g.tally.exhausted = false
      rw [htally]
    · change Contract _ (g.reports ++ _) _
      rw [hreports]
      exact contract_of_report (core.value_neg _)
  opens := by
    rintro _ g ⟨rfl, hreports, htally⟩
    refine ⟨trivial, fun set g' hn => ?_⟩
    cases hn
    refine ⟨fun _ => ?_, fun _ => ⟨rfl, hreports, htally⟩⟩
    apply failWin32_lift
    · change g.tally.failing = false
      rw [htally]
    · intro g2 hreports2 htally2
      refine Or.inl ⟨?_, ?_⟩
      · rw [htally2]
        change g.tally.exhausted = false
        rw [htally]
      · rw [hreports2, effective_effective]
        change Contract _ (g.reports ++ _) _
        rw [hreports]
        exact contract_of_report (core.value_neg _)
  asks _ _ := trivial
  names := by
    rintro _ set ports g ⟨rfl, hwalk⟩ index device g' hn
    cases hn
    have hwalk' : Walking (g.nextListing (.setupDiEnumDeviceInfo set index) (some device))
        ports.length := by
      refine ⟨hwalk.reports, ?_⟩
      change { g.tally with failing := false } = ({ found := ports.length } : Tally)
      rw [hwalk.tally]
    exact follows_mono (portName_walks set device hwalk') fun g'' r h name hname =>
      ⟨rfl, h name hname⟩
  describes h he := describes_passes h.2.calm he
  skips := by
    rintro callback set ports name g ⟨hcallback, hwalk⟩ hother
    rw [hother] at hwalk
    exact ⟨hcallback, hwalk⟩
  finds := by
    rintro callback set ports name g port ⟨hcallback, hwalk⟩ hcom _
    rw [if_pos hcom] at hwalk
    refine ⟨hcallback, ?_⟩
    rwa [List.length_append]
  ends := by
    rintro _ set ports g ⟨rfl, hwalk⟩ index g1 h1
    cases h1
    refine ⟨trivial, fun error g2 h2 => ?_⟩
    cases h2
    refine ⟨fun hend => ⟨hwalk.reports, ?_⟩, fun herror => ?_⟩
    · change Ledger.tally (Ledger.lastError _ error) = _
      simp [Ledger.lastError, hwalk.tally, Ledger.next, Ledger.nextListing, hend]
    · have htally0 : (Ledger.lastError (g.nextListing (.setupDiEnumDeviceInfo set index) none)
          error).tally = { found := ports.length } := by
        simp [Ledger.lastError, hwalk.tally, Ledger.nextListing, herror]
      refine failWin32_lift rfl fun g3 hreports htally => ?_
      have htally3 : g3.tally = { found := ports.length } := htally.trans htally0
      have hreports3 : g3.reports = g.reports ++ [(cpp_bindings_windows.effective
          (cpp_bindings_windows.effective argument global) global, core.value .kMonitorError)] :=
        hreports
      rw [hwalk.reports, effective_effective] at hreports3
      refine ⟨?_, ?_, ?_⟩
      · rw [htally3]
      · rw [htally3]
      · rw [hreports3]
        exact contract_of_report (core.value_neg _)
  reports _ _ := ⟨trivial, fun r g' hn => onListing_next hn⟩
  closesFailed := by
    rintro set status g ⟨-, hexhausted, hcontract⟩
    refine ⟨trivial, fun g' hn => ?_⟩
    rw [onListing_next hn]
    exact Or.inl ⟨hexhausted, hcontract⟩
  closesListed := by
    rintro set ports g ⟨hreports, htally⟩
    refine ⟨trivial, fun g' hn => ?_⟩
    rw [onListing_next hn]
    refine Or.inr ⟨?_, hreports, ?_⟩
    · change g.tally.exhausted = true
      rw [htally]
    · change _ = intOfSize g.tally.found
      rw [htally]

end listing

/-- The call that lists the ports keeps the contract, but for its number of ports, when the walk
comes to the end of the devices. -/
theorem serialListPorts_follows (turns : Nat) (callback_function argument : Callback) :
    Follows (onListing global) (fun g' result => ∀ value, result = some value →
      (g'.tally.exhausted = false ∧ Contract (effective argument global) g'.reports value) ∨
      (g'.tally.exhausted = true ∧ g'.reports = [] ∧ value = listing.intOfSize g'.tally.found))
      (serialListPorts core turns callback_function argument) {} :=
  (listing.counting core global callback_function argument).serialListPorts_follows turns
    ⟨rfl, rfl⟩

/-! ## The event callback -/

/-- The actions of the listener module that have no part in a report of the call. -/
def ListenerAction.Mute : ListenerAction → Prop
  | .loadErrorCallback => False
  | .invokeError .. => False
  | _ => True

theorem ListenerAction.Lists.mute {e : ListenerAction} (h : e.Lists) : e.Mute := by
  cases e <;> first | exact h.elim | trivial

theorem mute_ignored {e : ListenerAction} (he : e.Mute) : (onListener global).Ignores e := by
  intro g
  refine ⟨trivial, fun r g' hn => ?_⟩
  unfold onListener Protocol.along reporting at hn
  dsimp only at hn
  split at hn
  · cases hn
    cases e with
    | loadErrorCallback => exact he.elim
    | invokeError => exact he.elim
    | _ => rfl
  · cases hn

namespace listener

theorem guarded_mute {α : Type} {mutex : Mutex} {body : Listening α}
    (h : Within ListenerAction.Mute (fun _ => True) body) :
    Within ListenerAction.Mute (fun _ => True) (guarded mutex body) := by
  unfold guarded
  rw [Prog.perform_bind]
  refine ⟨trivial, fun _ => ?_⟩
  exact within_seq h fun _ _ => ⟨trivial, fun _ => trivial⟩

theorem stop_mute (l : ListenerId) : Within ListenerAction.Mute (fun _ => True) (stop l) :=
  guarded_mute ⟨trivial, fun _ => trivial⟩

theorem activate_mute (l : ListenerId) : Within ListenerAction.Mute (fun _ => True) (activate l) :=
  guarded_mute ⟨trivial, fun _ => trivial⟩

theorem makeReplacement_mute (chars : CharUpper) (attempts : Nat) (callback_function : Callback) :
    Within ListenerAction.Mute (fun _ => True)
      (makeReplacement chars attempts callback_function) := by
  refine within_ite trivial ⟨trivial, fun made => ?_⟩
  cases made with
  | error what => trivial
  | ok l =>
    refine ⟨trivial, fun thrown => ?_⟩
    cases thrown with
    | some what => trivial
    | none =>
      dsimp only [Prog.bind]
      refine within_seq (within_mono (existingPorts_within chars attempts) (fun _ he => he.mute)
        fun _ h => h) fun ports _ => ?_
      rcases ports with _ | error | ports
      · trivial
      · trivial
      · refine ⟨trivial, fun thrown => ?_⟩
        cases thrown <;> trivial

theorem destroy_mute (l : ListenerId) : Within ListenerAction.Mute (fun _ => True) (destroy l) := by
  have hthread : Within ListenerAction.Mute (fun _ => True) (do
      if ← perform (.joinable l) then
        if ← perform (.isCurrentThread l) then perform (.detach l)
        else perform (.join l)) := by
    refine ⟨trivial, fun joinable => within_ite ⟨trivial, fun current => ?_⟩ trivial⟩
    exact within_ite ⟨trivial, fun _ => trivial⟩ ⟨trivial, fun _ => trivial⟩
  refine within_seq (stop_mute l) fun _ _ => ⟨trivial, fun registered => ?_⟩
  exact within_ite ⟨trivial, fun _ => hthread⟩ hthread

theorem reset_mute (listener : Option ListenerId) :
    Within ListenerAction.Mute (fun _ => True) (reset listener) := by
  cases listener with
  | none => trivial
  | some l => exact destroy_mute l

theorem store_mute (replacement previous : Option ListenerId) :
    Within ListenerAction.Mute (fun _ => True) (do
      perform (.storeListener replacement)
      match replacement with
      | some l => activate l
      | none => pure ()
      return previous) := by
  cases replacement with
  | none => exact ⟨trivial, fun _ => trivial⟩
  | some l =>
    refine ⟨trivial, fun _ => ?_⟩
    dsimp only [Prog.bind]
    exact within_seq (activate_mute l) fun _ _ => trivial

theorem install_mute (replacement : Option ListenerId) :
    Within ListenerAction.Mute (fun _ => True) (install replacement) := by
  refine guarded_mute ⟨trivial, fun previous => ?_⟩
  dsimp only [Prog.bind]
  cases previous with
  | none => exact store_mute replacement none
  | some l => exact within_seq (stop_mute l) fun _ _ => store_mute replacement (some l)

theorem effectiveErrorCallback_follows {α : Type} {Q : Ledger → α → Prop} {callback : Callback}
    {f : Callback → Listening α}
    (h : Follows (onListener global) Q (f (effective callback global)) g) :
    Follows (onListener global) Q (effectiveErrorCallback callback >>= f) g := by
  unfold effectiveErrorCallback
  unfold effective at h
  split
  · rename_i hcallback
    rw [if_pos hcallback] at h
    exact h
  · rename_i hcallback
    rw [if_neg hcallback] at h
    refine ⟨trivial, fun loaded g' hn => ?_⟩
    unfold onListener Protocol.along reporting at hn
    dsimp only at hn
    split at hn
    · rename_i hfair
      have hloaded : loaded = global := eq_of_beq hfair
      cases hn
      rw [hloaded]
      exact h
    · cases hn

end listener

theorem serialSetEventCallback_follows (chars : CharUpper) (attempts : Nat)
    (callback_function argument : Callback) :
    Follows (onListener global) (fun g' result => ∀ value, result = some value →
      Contract (effective argument global) g'.reports value)
      (serialSetEventCallback core chars attempts callback_function argument) {} := by
  have hmute : ∀ e : ListenerAction, e.Mute → (onListener global).Ignores e :=
    fun _ he => mute_ignored he
  apply listener.effectiveErrorCallback_follows
  refine follows_within_seq (listener.makeReplacement_mute chars attempts callback_function) hmute
    fun result _ => ?_
  rcases result with _ | ⟨replacement, what⟩ | replacement
  · rintro _ ⟨⟩
  · refine follows_within_seq (listener.reset_mute replacement) hmute fun _ _ => ?_
    refine ⟨trivial, fun _ g1 h1 => ?_⟩
    cases h1
    refine ⟨trivial, fun _ g2 h2 => ?_⟩
    cases h2
    rintro _ ⟨⟩
    exact contract_of_report (core.value_neg _)
  · refine follows_within_seq (listener.install_mute replacement) hmute fun previous _ => ?_
    refine follows_within_seq (listener.reset_mute previous) hmute fun _ _ => ?_
    rintro _ ⟨⟩
    exact contract_of_silence _ (Int.le_refl 0)

/-! ## Every exported call -/

/-- The exported calls that return a status, a count, a handle or a setting. -/
inductive ExportedCall
  | api (call : ApiCall)
  | serialListPorts (callback_function error_callback : Callback)
  | serialSetEventCallback (callback_function error_callback : Callback)

namespace ExportedCall

/-- The callback argument of a call. -/
def callback : ExportedCall → Callback
  | .api call => call.callback
  | .serialListPorts _ error_callback => error_callback
  | .serialSetEventCallback _ error_callback => error_callback

/-- The program of a call, with none where it is not followed further. -/
def program (core : CppCore) (chars : CharUpper) (turns : Nat) :
    ExportedCall → Prog ExportedAction ExportedAnswer (Option Int)
  | .api call => Prog.lift ExportedAction.listing do
    let result ← listing.lift (call.program core)
    return some result
  | .serialListPorts callback_function error_callback =>
    Prog.lift ExportedAction.listing
      (cpp_bindings_windows.serialListPorts core turns callback_function error_callback)
  | .serialSetEventCallback callback_function error_callback =>
    Prog.lift ExportedAction.listener
      (cpp_bindings_windows.serialSetEventCallback core chars turns callback_function
        error_callback)

/-- The value that the call has to return fits in an `int`: the baud rates that the device gave,
and the number of ports when the walk over the devices came to their end. -/
def Fits (g : Ledger) : ExportedCall → Prop
  | .api call => call.readsRate = true → ∀ rate ∈ g.rates, rate.toNat < 2147483648
  | .serialListPorts .. =>
    g.tally.exhausted = true → g.tally.found % 4294967296 < 2147483648
  | .serialSetEventCallback .. => True

end ExportedCall

theorem intOfDword_nonneg_iff (d : DWORD) : 0 ≤ intOfDword d ↔ d.toNat < 2147483648 := by
  have hlt : d.toNat < 4294967296 := d.toNat_lt
  unfold intOfDword
  split
  · omega
  · omega

theorem intOfSize_nonneg_iff (n : Nat) :
    0 ≤ listing.intOfSize n ↔ n % 4294967296 < 2147483648 := by
  unfold listing.intOfSize
  rw [Int.bmod_def]
  split
  · omega
  · omega

/-- What a call returns keeps the contract exactly when its value fits. -/
theorem ExportedCall.program_follows (core : CppCore) (chars : CharUpper) (turns : Nat)
    (call : ExportedCall) :
    Follows (reporting global) (fun g' result => ∀ value, result = some value →
      (Contract (effective call.callback global) g'.reports value ↔ call.Fits g'))
      (call.program core chars turns) {} := by
  cases call with
  | api call =>
    refine follows_lift.mpr ((follows_bind _ _ _).mpr (follows_lift.mpr ?_))
    cases hrate : call.readsRate with
    | false =>
      refine follows_mono (call.program_contracted core hrate {} rfl) fun g' result h => ?_
      rintro _ ⟨⟩
      refine iff_of_true h fun htrue => ?_
      rw [hrate] at htrue
      cases htrue
    | true =>
      obtain ⟨handle, callback, hcall⟩ := call.eq_of_readsRate hrate
      subst hcall
      refine follows_mono (serialGetBaudrate_follows core handle callback) fun g' result h => ?_
      rintro _ ⟨⟩
      rcases h with ⟨hrates, hcontract⟩ | ⟨rate, hrates, hreports, hvalue⟩
      · refine iff_of_true hcontract fun _ rate hmem => ?_
        rw [hrates] at hmem
        cases hmem
      · change Contract (effective callback global) g'.reports result ↔
          (_ → ∀ rate ∈ g'.rates, rate.toNat < 2147483648)
        rw [hreports, contract_nil_iff, hvalue, intOfDword_nonneg_iff, hrates]
        exact ⟨fun h _ r hr => List.mem_singleton.mp hr ▸ h,
          fun h => h rfl rate (List.mem_singleton.mpr rfl)⟩
  | serialListPorts callback_function error_callback =>
    refine follows_lift.mpr (follows_mono
      (serialListPorts_follows turns callback_function error_callback) fun g' result h => ?_)
    intro value hvalue
    rcases h value hvalue with ⟨hend, hcontract⟩ | ⟨hend, hreports, hsize⟩
    · refine iff_of_true hcontract fun htrue => ?_
      rw [hend] at htrue
      cases htrue
    · rw [hreports, contract_nil_iff, hsize, intOfSize_nonneg_iff]
      exact ⟨fun h _ => h, fun h => h hend⟩
  | serialSetEventCallback callback_function error_callback =>
    refine follows_lift.mpr (follows_mono (serialSetEventCallback_follows chars turns
      callback_function error_callback) fun g' result h => ?_)
    intro value hvalue
    exact iff_of_true (h value hvalue) trivial

/-! ## The contract over every run -/

/-- What stands in the answers of a run. -/
def ledgerOf (tr : List (Σ action, ExportedAnswer action)) : Ledger :=
  tr.foldl (fun g x => g.next x.1 x.2) {}

theorem after_reporting {tr : List (Σ action, ExportedAnswer action)}
    (hfair : ∀ x ∈ tr, x.1.fair global x.2 = true) (g : Ledger) :
    after (reporting global).next g tr = some (tr.foldl (fun g x => g.next x.1 x.2) g) := by
  induction tr generalizing g with
  | nil => rfl
  | cons x tr ih =>
    rw [List.forall_mem_cons] at hfair
    have hnext : (reporting global).next g x.1 x.2 = some (g.next x.1 x.2) := if_pos hfair.1
    unfold after
    rw [hnext]
    exact ih hfair.2 _

/-- Over every run of every exported call, with one global callback and with byte counters in
range: the negative values are the ones that are reported, each once, with its code, and to the
effective callback, exactly when the value of the call fits in an `int`. -/
theorem an_error_is_reported_once_when_the_value_fits (core : CppCore) (chars : CharUpper)
    (turns : Nat) (global : Callback) (call : ExportedCall)
    {tr : List (Σ action, ExportedAnswer action)} {result : Int}
    (h : Traces (call.program core chars turns) tr (.ret (some result)))
    (hfair : ∀ x ∈ tr, x.1.fair global x.2 = true) :
    Contract (effective call.callback global) (ledgerOf tr).reports result ↔
      call.Fits (ledgerOf tr) := by
  have hkeep : ∀ {g : Ledger} {e : ExportedAction} {r : ExportedAnswer e} {g' : Ledger}, True →
      (reporting global).allows g e → (reporting global).next g e r = some g' → True :=
    fun _ _ _ => trivial
  obtain ⟨-, hend⟩ := follows_after hkeep (call.program_follows core chars turns) trivial h
    (after_reporting hfair {})
  exact hend result rfl

/-- The answers of a device with a baud rate, and of a process without a global callback. -/
def rateAnswer (rate : DWORD) : (action : ExportedAction) → ExportedAnswer action
  | .listing (.api (.getCommState _)) => some { BaudRate := rate }
  | .listing action => storedString [] action
  | .listener action => quietAnswer action

/-- `serialGetBaudrate` on the handle 1. -/
def rateCall : ExportedCall := .api (.onLine 1 none .serialGetBaudrate)

/-- The run of `serialGetBaudrate` on a device with the baud rate. -/
def rateRun (rate : DWORD) : List (Σ action, ExportedAnswer action) × Option Int :=
  (rateCall.program sampleCore plainUnits 0).trace (fun _ => rateAnswer rate) []

theorem a_rate_of_9600_keeps_the_contract :
    Contract none (ledgerOf (rateRun 9600).1).reports 9600 := by
  have hrun : Traces (rateCall.program sampleCore plainUnits 0) (rateRun 9600).1
      (.ret (some 9600)) := trace_traces (fun _ => rateAnswer 9600) .nil
  have hfits : rateCall.Fits (ledgerOf (rateRun 9600).1) := by
    intro _ rate hrate
    have hone : (ledgerOf (rateRun 9600).1).rates = [9600] := rfl
    rw [hone, List.mem_singleton] at hrate
    rw [hrate]
    decide
  exact (an_error_is_reported_once_when_the_value_fits sampleCore plainUnits 0 none rateCall hrun
    (by decide)).mpr hfits

/-- A device with the baud rate `2^31`: a negative value, and no report. -/
theorem a_rate_of_two_to_the_31_looks_like_an_error :
    ¬ ∀ (core : CppCore) (chars : CharUpper) (turns : Nat) (global : Callback)
      (call : ExportedCall) (tr : List (Σ action, ExportedAnswer action)) (result : Int),
      Traces (call.program core chars turns) tr (.ret (some result)) →
      (∀ x ∈ tr, x.1.fair global x.2 = true) →
      Contract (effective call.callback global) (ledgerOf tr).reports result := by
  intro hall
  have hrun : Traces (rateCall.program sampleCore plainUnits 0) (rateRun 2147483648).1
      (.ret (some (-2147483648))) := trace_traces (fun _ => rateAnswer 2147483648) .nil
  have hcontract := hall sampleCore plainUnits 0 none rateCall _ _ hrun (by decide)
  exact hcontract.negative_iff.mp (by decide) rfl

end cpp_bindings_windows
