-- The reports of errors: which callback a call tells of an error, how often, and with
-- which code. Every call on handles returns what it reported, and nothing negative
-- otherwise, but for the baud rate of a device that does not fit in an int.
import SerialBindings.DeviceStrings
import SerialBindings.PortEvents
import SerialBindings.ReportRules

open programs

namespace cpp_bindings_windows

/-! ## The exported calls, in one system -/

/-- The actions of all exported calls. -/
inductive ExportedAction
  | listing (action : ListingAction)
  | listener (action : ListenerAction)

@[reducible] def ExportedAnswer : ExportedAction → Type
  | .listing action => ListingAnswer action
  | .listener action => ListenerAnswer action

/-- The callback that is told of an error: the argument, or the global one when it is null. -/
def effective (callback global : Callback) : Callback :=
  if callback ≠ none then callback else global

@[simp] theorem effective_effective (callback global : Callback) :
    effective (effective callback global) global = effective callback global := by
  unfold effective
  by_cases h : callback = none
  · rw [if_neg (not_not.mpr h)]
    split
    · rfl
    · rfl
  · rw [if_pos h, if_pos h]

/-! ## What a call reported -/

/-- The walk over the devices. `found` counts the devices with the name of a COM port, and
`exhausted` says that the walk came to their end. -/
structure Tally where
  found : Nat := 0
  failing : Bool := false
  exhausted : Bool := false

/-- What stands in the answers to a call: the reports that it made, with their callbacks and
codes, the baud rates that devices gave, and the walk over the devices. -/
structure Ledger where
  reports : List (Callback × Int) := []
  rates : List DWORD := []
  tally : Tally := {}

namespace Ledger

def report (g : Ledger) (callback : Callback) (code : Int) : Ledger :=
  { g with reports := g.reports ++ [(callback, code)] }

/-- The last error after an enumeration that gave no device says whether the walk is at its
end. -/
def lastError (g : Ledger) (error : DWORD) : Ledger :=
  { g with tally := { g.tally with
      failing := false
      exhausted := g.tally.exhausted || (g.tally.failing && error == ERROR_NO_MORE_ITEMS) } }

theorem lastError_calm {g : Ledger} (h : g.tally.failing = false) (error : DWORD) :
    g.lastError error = g := by
  obtain ⟨reports, rates, found, failing, exhausted⟩ := g
  cases h
  simp [lastError]

def nextApi (g : Ledger) : (action : Action) → Answer action → Ledger
  | .invokeError callback code _, _ => g.report callback code
  | .getCommState _, some settings => { g with rates := g.rates ++ [settings.BaudRate] }
  | .getLastError, error => g.lastError error
  | _, _ => g

/-- The value is the name of a COM port. -/
def isPortName (room : Nat) (value : List UInt8) : Bool :=
  (listing.wstring (listing.units (listing.filled room value))).any listing.isComName

def nextListing (g : Ledger) : (action : ListingAction) → ListingAnswer action → Ledger
  | .api action, answer => g.nextApi action answer
  | .setupDiEnumDeviceInfo .., device =>
    { g with tally := { g.tally with failing := device.isNone } }
  | .regQueryValue _ _ room _, some written =>
    if isPortName room written.data then
      { g with tally := { g.tally with found := g.tally.found + 1 } }
    else g
  | _, _ => g

def nextListener (g : Ledger) : (action : ListenerAction) → ListenerAnswer action → Ledger
  | .invokeError callback code _, _ => g.report callback code
  | _, _ => g

def next (g : Ledger) : (action : ExportedAction) → ExportedAnswer action → Ledger
  | .listing action, answer => g.nextListing action answer
  | .listener action, answer => g.nextListener action answer

end Ledger

/-! ## The assumptions about the answers -/

/-- The global callback stays the same during the call, and the byte counters are in range. -/
def Action.fair (global : Callback) : (action : Action) → Answer action → Bool
  | .loadErrorCallback, loaded => loaded == global
  | .loadTotal .., total => decide (0 ≤ total ∧ total < 9223372036854775808)
  | _, _ => true

def ListingAction.fair (global : Callback) :
    (action : ListingAction) → ListingAnswer action → Bool
  | .api action, answer => action.fair global answer
  | _, _ => true

def ListenerAction.fair (global : Callback) :
    (action : ListenerAction) → ListenerAnswer action → Bool
  | .loadErrorCallback, loaded => loaded == global
  | _, _ => true

def ExportedAction.fair (global : Callback) :
    (action : ExportedAction) → ExportedAnswer action → Bool
  | .listing action, answer => action.fair global answer
  | .listener action, answer => action.fair global answer

/-- The ledger as the state of a protocol that allows everything. -/
def reporting (global : Callback) : Protocol ExportedAction ExportedAnswer Ledger where
  allows _ _ := True
  next g action answer := if action.fair global answer then some (g.next action answer) else none

/-- The protocol for the calls that list the ports. -/
abbrev onListing (global : Callback) : Protocol ListingAction ListingAnswer Ledger :=
  (reporting global).along ExportedAction.listing

/-- The protocol for the calls on handles. -/
abbrev onApi (global : Callback) : Protocol Action Answer Ledger :=
  (onListing global).along ListingAction.api

/-- The protocol for the call that replaces the event listener. -/
abbrev onListener (global : Callback) : Protocol ListenerAction ListenerAnswer Ledger :=
  (reporting global).along ExportedAction.listener

/-- The contract of an exported call: it reports exactly the negative value that it returns, to
the effective callback and once, and it reports nothing when it returns anything else. -/
structure Contract (callback : Callback) (reports : List (Callback × Int)) (result : Int) :
    Prop where
  negative_iff : result < 0 ↔ reports ≠ []
  once : reports ≠ [] → reports = [(callback, result)]

theorem contract_of_report {callback : Callback} {code : Int} (h : code < 0) :
    Contract callback [(callback, code)] code :=
  ⟨iff_of_true h nofun, fun _ => rfl⟩

theorem contract_of_silence (callback : Callback) {result : Int} (h : 0 ≤ result) :
    Contract callback [] result :=
  ⟨iff_of_false (Int.not_lt.mpr h) (· rfl), fun h => absurd rfl h⟩

/-- Without a report the contract asks for a value that is not negative. -/
theorem contract_nil_iff {callback : Callback} {result : Int} :
    Contract callback [] result ↔ 0 ≤ result :=
  ⟨fun h => Int.not_lt.mp fun hneg => h.negative_iff.mp hneg rfl, contract_of_silence callback⟩

/-! ## Actions beside a report -/

variable {global : Callback} {g g' : Ledger}

theorem onApi_next {e : Action} {r : Answer e} (h : (onApi global).next g e r = some g') :
    e.fair global r = true ∧ g' = g.nextApi e r := by
  unfold onApi onListing Protocol.along reporting at h
  dsimp only at h
  split at h
  · rename_i hfair
    cases h
    exact ⟨hfair, rfl⟩
  · cases h

theorem beside_next {e : Action} {r : Answer e} (he : e.Beside)
    (h : (onApi global).next g e r = some g') : g'.reports = g.reports := by
  rw [(onApi_next h).2]
  cases e with
  | loadErrorCallback => exact he.elim
  | invokeError => exact he.elim
  | getCommState handle => cases r <;> rfl
  | _ => rfl

/-! ## The parts of a report -/

section Rules

variable {α : Type} {Q : Ledger → α → Prop} {core : CppCore} {callback : Callback}

theorem effective_follows {f : Callback → Api α}
    (h : Follows (onApi global) Q (f (effective callback global)) g) :
    Follows (onApi global) Q (effectiveErrorCallback callback >>= f) g := by
  unfold effectiveErrorCallback
  unfold effective at h
  split
  · rename_i hcallback
    rw [if_pos hcallback] at h
    exact h
  · rename_i hcallback
    rw [if_neg hcallback] at h
    refine ⟨trivial, fun loaded g' hn => ?_⟩
    obtain ⟨hfair, rfl⟩ := onApi_next hn
    have hloaded : loaded = global := eq_of_beq hfair
    rw [hloaded]
    exact h

theorem failMsg_follows {code : StatusCode} {message : String} {f : Int → Api α}
    (h : Follows (onApi global) Q (f (core.value code)) (g.report callback (core.value code))) :
    Follows (onApi global) Q (failMsg core callback code message >>= f) g := by
  refine ⟨trivial, fun _ g' hn => ?_⟩
  cases hn
  exact h

/-- A report of the last error. It leaves the walk as it is, but while the last error is to say
whether the walk is at its end. -/
theorem failWin32_follows {code : StatusCode} {f : Int → Api α}
    (h : ∀ g', g'.reports = g.reports ++ [(effective callback global, core.value code)] →
      g'.rates = g.rates → (g.tally.failing = false → g'.tally = g.tally) →
      Follows (onApi global) Q (f (core.value code)) g') :
    Follows (onApi global) Q (failWin32 core callback code >>= f) g := by
  unfold failWin32
  simp only [Prog.perform_bind, Prog.act_bind, Prog.bind_assoc, Prog.pure_eq, Prog.ret_bind]
  refine ⟨trivial, fun error g1 h1 => ?_⟩
  cases h1
  refine ⟨trivial, fun text g2 h2 => ?_⟩
  cases h2
  have hreport : ∀ message : String, Follows (onApi global) Q (do
      let callback ← effectiveErrorCallback callback
      perform (.invokeError callback (core.value code) message)
      f (core.value code)) (g.lastError error) := by
    intro message
    apply effective_follows
    refine ⟨trivial, fun _ g3 h3 => ?_⟩
    cases h3
    apply h
    · rfl
    · rfl
    · intro hfailing
      change (g.lastError error).tally = g.tally
      rw [Ledger.lastError_calm hfailing]
  cases text with
  | none => exact hreport _
  | some text => exact hreport _

end Rules

/-! ## The calls that keep the contract -/

/-- The program keeps the contract with the callback when nothing was reported before it. -/
def Contracted (global callback : Callback) (p : Api Int) : Prop :=
  ∀ g : Ledger, g.reports = [] →
    Follows (onApi global) (fun g' result => Contract callback g'.reports result) p g

/-- The contract with an effective callback. -/
def contracting {callback : Callback} (hcallback : effective callback global = callback) :
    ReportOutline (onApi global) Unit where
  clear _ g := g.reports = []
  told code g := g.reports = [(callback, code)] ∧ code < 0
  result g value := Contract callback g.reports value
  later _ _ := True
  trusted _ argument := effective argument global = callback
  reached _ argument := argument = callback
  noted _ _ _ := True
  operations _ := True
  clear_of_later _ h := h
  reached_of_trusted := by
    intro _ argument h hargument
    unfold effective at h
    rwa [if_pos hargument] at h
  trusted_of_reached := by
    rintro _ _ rfl
    exact hcallback
  beside hg he := ⟨trivial, fun r g' hn => (beside_next he hn).trans hg⟩
  loads := by
    intro _ g hg h
    refine ⟨trivial, fun loaded g' hn => ⟨(), trivial, ?_⟩⟩
    obtain ⟨hfair, rfl⟩ := onApi_next hn
    exact ⟨hg, (eq_of_beq hfair).trans h⟩
  invokes := by
    rintro _ g _ code message hg rfl hcode
    refine ⟨trivial, fun g' hn => ⟨?_, hcode⟩⟩
    rw [(onApi_next hn).2]
    change g.reports ++ _ = _
    rw [hg]
    rfl
  closes := by
    rintro g code handle ⟨hreports, hcode⟩
    have hbeside : (Action.closeHandle handle).Beside := trivial
    exact ⟨trivial, fun closed g' hn => ⟨(beside_next hbeside hn).trans hreports, hcode⟩⟩
  returns := by
    rintro g code ⟨hreports, hcode⟩
    rw [hreports]
    exact contract_of_report hcode
  ends := by
    intro _ g value hg h
    rw [hg]
    exact contract_of_silence _ h
  counts := by
    intro _ g state o hg
    refine ⟨trivial, fun total g' hn => ?_⟩
    obtain ⟨hfair, hnext⟩ := onApi_next hn
    have htotal : 0 ≤ total ∧ total < 9223372036854775808 := of_decide_eq_true hfair
    rw [hnext]
    change Contract callback g.reports total
    rw [hg]
    exact contract_of_silence _ htotal.1
  asks hg _ := by
    refine ⟨trivial, fun loaded g' hn => ⟨(), trivial, ?_, trivial⟩⟩
    rw [(onApi_next hn).2]
    exact hg
  notes hg _ _ _ := by
    refine ⟨trivial, fun g' hn => ?_⟩
    rw [(onApi_next hn).2]
    exact hg

theorem ApiCall.program_contracted (core : CppCore) {c : ApiCall} (h : c.readsRate = false) :
    Contracted global (effective c.callback global) (c.program core) := by
  have hreports : (contracting (effective_effective c.callback global)).Reports ()
      (c.program core) := by
    apply ReportOutline.program_reports
    · rfl
    · exact fun _ _ => trivial
    · intro hrate
      rw [h] at hrate
      cases hrate
  exact hreports

/-! ## The baud rate of a device -/

/-- The check of a handle: it reports the handle and ends the call, or it reports nothing. -/
theorem validateWin32Handle_follows {core : CppCore} {argument : Callback} {handle : Int64}
    {f : Except Int HANDLE → Api Int} {Q : Ledger → Int → Prop}
    (hinvalid : Follows (onApi global) Q (f (.error (core.value .kInvalidHandleError)))
      (g.report (effective argument global) (core.value .kInvalidHandleError)))
    (hvalid : ∀ native_handle, 0 < native_handle →
      Follows (onApi global) Q (f (.ok native_handle)) g) :
    Follows (onApi global) Q (validateWin32Handle core handle argument >>= f) g := by
  unfold validateWin32Handle
  rw [Prog.bind_assoc]
  apply effective_follows
  by_cases hneg : handle.toInt ≤ 0
  · rw [if_pos hneg, Prog.bind_assoc]
    apply failMsg_follows
    exact hinvalid
  · have hvalidHandle : ¬ (handle.toInt = nullHandle ∨ handle.toInt = INVALID_HANDLE_VALUE) := by
      unfold nullHandle INVALID_HANDLE_VALUE
      omega
    rw [if_neg hneg]
    dsimp only
    rw [if_neg hvalidHandle]
    exact hvalid handle.toInt (Int.not_le.mp hneg)

/-- The baud rate of a device: a report, or the rate as an int and no report. -/
theorem serialGetBaudrate_follows (core : CppCore) (handle : Int64) (callback : Callback) :
    Follows (onApi global) (fun g' result =>
      (g'.rates = [] ∧ Contract (effective callback global) g'.reports result) ∨
      ∃ rate, g'.rates = [rate] ∧ g'.reports = [] ∧ result = intOfDword rate)
      (serialGetBaudrate core handle callback) {} := by
  apply validateWin32Handle_follows
  · exact Or.inl ⟨rfl, contract_of_report (core.value_neg _)⟩
  · intro native_handle _
    refine ⟨trivial, fun settings g' hn => ?_⟩
    cases settings with
    | none =>
      cases hn
      have hfail : Follows (onApi global) (fun g' result =>
          (g'.rates = [] ∧ Contract (effective callback global) g'.reports result) ∨
          ∃ rate, g'.rates = [rate] ∧ g'.reports = [] ∧ result = intOfDword rate)
          (failWin32 core callback .kGetStateError >>= fun status => .ret status) {} := by
        apply failWin32_follows
        intro g' hreports hrates _
        refine Or.inl ⟨hrates, ?_⟩
        rw [hreports]
        exact contract_of_report (core.value_neg _)
      rw [Prog.bind_ret] at hfail
      exact hfail
    | some settings =>
      cases hn
      exact Or.inr ⟨settings.BaudRate, rfl, rfl, rfl⟩

end cpp_bindings_windows
