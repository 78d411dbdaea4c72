-- Opening a port: what `serialOpen` does about native handles, about the
-- settings of the device and about the registry, for every outcome of every
-- call to Windows. It gives away a handle that is set up, or it gives back
-- all that it had.
import SerialBindings.CallRules
import SerialBindings.Process

open programs

namespace cpp_bindings_windows

/-! ## What a trace does about handles -/

/-- The actions that change the registry or a handle state in it. -/
def Action.registers : Action → Bool
  | .ensureHandleState _ | .removeHandleState _ | .addTotal .. | .storeAbort .. => true
  | .startPendingIo .. | .finishPendingIo .. => true
  | _ => false

/-- The actions on the settings and on the timeouts of a device. -/
def Action.adjusts : Action → Bool
  | .getCommState _ | .setCommState .. | .setCommTimeouts .. => true
  | _ => false

/-- The handle that Windows gave. `CreateFileW` gives `INVALID_HANDLE_VALUE` when it fails, and a
null handle never. -/
def obtainedHandle : (Σ action, Answer action) → Option HANDLE
  | ⟨.createFile _, handle⟩ =>
    if handle = INVALID_HANDLE_VALUE ∨ handle = nullHandle then none else some handle
  | ⟨.createEvent, event⟩ => event
  | _ => none

def closedHandle : (Σ action, Answer action) → Option HANDLE
  | ⟨.closeHandle handle, _⟩ => some handle
  | _ => none

/-- The actions that open or close a handle, or change what belongs to one. -/
def Action.opens : Action → Bool
  | .createFile _ | .createEvent | .closeHandle _ => true
  | e => e.registers || e.adjusts

variable {tr tr' : List (Σ action, Answer action)} {config : SerialConfig} {h : HANDLE} {r : Int}

/-- The handles that Windows gave in the trace, in their order. -/
def obtainedHandles (tr : List (Σ action, Answer action)) : List HANDLE :=
  tr.filterMap obtainedHandle

/-- The handles that the trace closed, one for each call of `CloseHandle`. -/
def closedHandles (tr : List (Σ action, Answer action)) : List HANDLE := tr.filterMap closedHandle

def registryActions (tr : List (Σ action, Answer action)) : List (Σ action, Answer action) :=
  tr.filter (·.1.registers)

def lineActions (tr : List (Σ action, Answer action)) : List (Σ action, Answer action) :=
  tr.filter (·.1.adjusts)

/-- What stays of a trace when only the actions about handles are kept. -/
def handleActions (tr : List (Σ action, Answer action)) : List (Σ action, Answer action) :=
  tr.filter (·.1.opens)

theorem obtainedHandle_of_not {x : Σ action, Answer action} (hx : x.1.opens = false) :
    obtainedHandle x = none := by
  obtain ⟨e, r⟩ := x
  cases e <;> first | rfl | cases hx

theorem closedHandle_of_not {x : Σ action, Answer action} (hx : x.1.opens = false) :
    closedHandle x = none := by
  obtain ⟨e, r⟩ := x
  cases e <;> first | rfl | cases hx

theorem obtainedHandle_of_adjusts {x : Σ action, Answer action} (hx : x.1.adjusts = true) :
    obtainedHandle x = none := by
  obtain ⟨e, r⟩ := x
  cases e <;> first | rfl | cases hx

theorem closedHandle_of_adjusts {x : Σ action, Answer action} (hx : x.1.adjusts = true) :
    closedHandle x = none := by
  obtain ⟨e, r⟩ := x
  cases e <;> first | rfl | cases hx

theorem Action.opens_of_registers {e : Action} (he : e.registers = true) : e.opens = true := by
  cases e <;> first | rfl | cases he

theorem Action.opens_of_adjusts {e : Action} (he : e.adjusts = true) : e.opens = true := by
  cases e <;> first | rfl | cases he

/-- A map that gives nothing for the other actions sees only the actions about handles. -/
theorem filterMap_handleActions {α : Type} {f : (Σ action, Answer action) → Option α}
    (hf : ∀ {x}, x.1.opens = false → f x = none) (tr : List (Σ action, Answer action)) :
    (handleActions tr).filterMap f = tr.filterMap f := by
  unfold handleActions
  rw [List.filterMap_filter]
  congr 1
  funext x
  split
  · rfl
  · rename_i hx
    rw [Bool.not_eq_true] at hx
    exact (hf hx).symm

theorem filter_handleActions {p : (Σ action, Answer action) → Bool}
    (hp : ∀ {x : Σ action, Answer action}, p x = true → x.1.opens = true)
    (tr : List (Σ action, Answer action)) : (handleActions tr).filter p = tr.filter p := by
  unfold handleActions
  rw [List.filter_filter]
  congr 1
  funext x
  cases hx : p x with
  | true => rw [hp hx, Bool.and_self]
  | false => rw [Bool.false_and]

/-! ## The two ends of an open -/

/-- The call gives away the handle `h`: it is the one handle that Windows gave, the call closed
nothing, registered the handle, and installed the line settings of `config` and timeouts that are
all zero. -/
structure Opened (config : SerialConfig) (tr : List (Σ action, Answer action)) (h : HANDLE) :
    Prop where
  positive : 0 < h
  obtained : obtainedHandles tr = [h]
  kept : closedHandles tr = []
  registered : ∃ state, registryActions tr = [⟨.ensureHandleState h, state⟩]
  installed : ∃ settings line, lineSettings settings config = some line ∧
    lineActions tr = [⟨.getCommState h, some settings⟩, ⟨.setCommState h line, true⟩,
      ⟨.setCommTimeouts h {}, true⟩]

/-- The call fails: each handle that Windows gave is closed once, and the registry is left
alone. -/
structure Refused (tr : List (Σ action, Answer action)) (r : Int) : Prop where
  negative : r < 0
  closed : closedHandles tr = obtainedHandles tr
  registered : registryActions tr = []

/-- The actions on the line of one handle. -/
def OnLine (h : HANDLE) (line : List (Σ action, Answer action)) : Prop :=
  ∀ x ∈ line, x.1 = .getCommState h ∨ (∃ settings, x.1 = .setCommState h settings) ∨
    x.1 = .setCommTimeouts h {}

/-- The ways of an open through the actions about handles, with what it returns. -/
inductive OpenWay (config : SerialConfig) : List (Σ action, Answer action) → Int → Prop
  | nothing {r : Int} : r < 0 → OpenWay config [] r
  | absent {path : WString} {h : HANDLE} {r : Int} :
      h = INVALID_HANDLE_VALUE ∨ h = nullHandle → r < 0 → OpenWay config [⟨.createFile path, h⟩] r
  | closed {path : WString} {h : HANDLE} {line : List (Σ action, Answer action)} {done : Bool}
      {r : Int} : ¬ (h = INVALID_HANDLE_VALUE ∨ h = nullHandle) → OnLine h line → r < 0 →
      OpenWay config (⟨.createFile path, h⟩ :: line ++ [⟨.closeHandle h, done⟩]) r
  | opened {path : WString} {h : HANDLE} {settings line : DCB} {state : StateRef} :
      0 < h → lineSettings settings config = some line →
      OpenWay config [⟨.createFile path, h⟩, ⟨.getCommState h, some settings⟩,
        ⟨.setCommState h line, true⟩, ⟨.setCommTimeouts h {}, true⟩,
        ⟨.ensureHandleState h, state⟩] h

theorem OnLine.filterMap {α : Type} {f : (Σ action, Answer action) → Option α}
    (hf : ∀ {x}, x.1.adjusts = true → f x = none) {line : List (Σ action, Answer action)}
    (hline : OnLine h line) : line.filterMap f = [] := by
  rw [List.filterMap_eq_nil_iff]
  intro x hx
  apply hf
  rcases hline x hx with hx | ⟨settings, hx⟩ | hx <;> rw [hx] <;> rfl

theorem OnLine.registry {line : List (Σ action, Answer action)} (hline : OnLine h line) :
    registryActions line = [] := by
  unfold registryActions
  rw [List.filter_eq_nil_iff]
  intro x hx
  rcases hline x hx with hx | ⟨settings, hx⟩ | hx <;> rw [hx] <;> exact Bool.false_ne_true

/-- The actions of `applyLineSettings`, whatever the answers. -/
theorem onLine_adjusts (h : HANDLE) (read : Option DCB) (line : DCB) (set timed : Bool) :
    OnLine h [⟨.getCommState h, read⟩, ⟨.setCommState h line, set⟩,
      ⟨.setCommTimeouts h {}, timed⟩] := by
  intro x hx
  rcases List.mem_cons.mp hx with rfl | hx
  · exact Or.inl rfl
  rcases List.mem_pair.mp hx with rfl | rfl
  · exact Or.inr (Or.inl ⟨line, rfl⟩)
  · exact Or.inr (Or.inr rfl)

theorem OnLine.of_append {line more : List (Σ action, Answer action)}
    (hline : OnLine h (line ++ more)) : OnLine h line :=
  fun x hx => hline x (List.mem_append_left more hx)

theorem positive_is_native (hpos : 0 < h) : ¬ (h = INVALID_HANDLE_VALUE ∨ h = nullHandle) := by
  rintro (rfl | rfl)
  · exact absurd hpos (by decide)
  · exact absurd hpos (by decide)

/-- The ways end as an open that gives its handle away, or as one that is refused. -/
theorem OpenWay.ends (hway : OpenWay config (handleActions tr) r) :
    Opened config tr r ∨ Refused tr r := by
  have hobtained : obtainedHandles tr = obtainedHandles (handleActions tr) :=
    (filterMap_handleActions obtainedHandle_of_not tr).symm
  have hclosed : closedHandles tr = closedHandles (handleActions tr) :=
    (filterMap_handleActions closedHandle_of_not tr).symm
  have hregistry : registryActions tr = registryActions (handleActions tr) :=
    (filter_handleActions Action.opens_of_registers tr).symm
  have hline : lineActions tr = lineActions (handleActions tr) :=
    (filter_handleActions Action.opens_of_adjusts tr).symm
  generalize handleActions tr = kept at *
  cases hway with
  | nothing hneg => exact Or.inr ⟨hneg, by rw [hclosed, hobtained]; rfl, by rw [hregistry]; rfl⟩
  | @absent path h r hno hneg =>
    refine Or.inr ⟨hneg, ?_, by rw [hregistry]; rfl⟩
    rw [hclosed, hobtained]
    simp [obtainedHandles, closedHandles, obtainedHandle, closedHandle, hno]
  | @closed path h line done r hnative hon hneg =>
    refine Or.inr ⟨hneg, ?_, ?_⟩
    · have hgave : line.filterMap obtainedHandle = [] := hon.filterMap fun hx =>
        obtainedHandle_of_adjusts hx
      have hclose : line.filterMap closedHandle = [] := hon.filterMap fun hx =>
        closedHandle_of_adjusts hx
      have hfirst : obtainedHandle ⟨.createFile path, h⟩ = some h := by
        simp [obtainedHandle, hnative]
      rw [hclosed, hobtained]
      unfold obtainedHandles closedHandles
      rw [List.filterMap_append, List.filterMap_append, List.filterMap_cons_some hfirst, hgave,
        List.filterMap_cons_none rfl, hclose]
      rfl
    · have hnone := hon.registry
      rw [hregistry]
      unfold registryActions at hnone ⊢
      rw [List.cons_append, List.filter_cons_of_neg (by exact Bool.false_ne_true),
        List.filter_append, hnone]
      rfl
  | @opened path h settings line state hpos hsettings =>
    have hnative := positive_is_native hpos
    refine Or.inl ⟨hpos, ?_, by rw [hclosed]; rfl, ⟨state, by rw [hregistry]; rfl⟩,
      ⟨settings, line, hsettings, by rw [hline]; rfl⟩⟩
    rw [hobtained]
    simp [obtainedHandles, obtainedHandle, hnative]

/-! ## The ways of the program -/

/-- The protocol that keeps the actions about handles. -/
def handling : Protocol Action Answer (List (Σ action, Answer action)) where
  allows _ e := e.Quiet ∨ e.opens = true
  next tr e r := some (if e.opens then tr ++ [⟨e, r⟩] else tr)

theorem handling_some {e : Action} {a : Answer e} (hn : handling.next tr e a = some tr') :
    tr' = if e.opens then tr ++ [⟨e, a⟩] else tr := (Option.some.inj hn).symm

theorem handling_ignores {e : Action} (hquiet : e.Quiet) (he : e.opens = false) :
    handling.Ignores e := by
  intro tr
  refine ⟨Or.inl hquiet, fun a tr' hn => ?_⟩
  rw [handling_some hn, he]
  rfl

theorem handling_reports (e : Action) (he : e.Reports) : handling.Ignores e := by
  refine handling_ignores he.silent.quiet ?_
  cases e <;> first | rfl | cases he

/-- The rule for an action about handles. -/
theorem kept_follows {α : Type} {Q : List (Σ action, Answer action) → α → Prop} {e : Action}
    {k : Answer e → Api α} (he : e.opens = true)
    (hk : ∀ a, Follows handling Q (k a) (tr ++ [⟨e, a⟩])) : Follows handling Q (.act e k) tr := by
  refine ⟨Or.inr he, fun a tr' hn => ?_⟩
  rw [handling_some hn, if_pos he]
  exact hk a

/-- The line actions of `applyLineSettings`, with their answers. -/
def LineEnd (config : SerialConfig) (h : HANDLE) (tr : List (Σ action, Answer action))
    (tr' : List (Σ action, Answer action)) : Option Failure → Prop
  | some _ => ∃ line, OnLine h line ∧ tr' = tr ++ line
  | none => ∃ settings line, lineSettings settings config = some line ∧
      tr' = tr ++ [⟨.getCommState h, some settings⟩, ⟨.setCommState h line, true⟩,
        ⟨.setCommTimeouts h {}, true⟩]

theorem failWithLastError_handles {code : StatusCode} {text : String}
    {Q : List (Σ action, Answer action) → Option Failure → Prop}
    (hQ : ∀ failure, Q tr (some failure)) :
    Follows handling Q (failWithLastError code text) tr := by
  unfold failWithLastError
  simp only [Prog.perform_bind, Prog.pure_eq]
  have hlast := handling_reports .getLastError trivial tr
  refine ⟨hlast.1, fun error tr' hn => ?_⟩
  rw [hlast.2 error tr' hn]
  exact follows_within_seq (win32ErrorToString_within error)
    (fun e he => handling_reports e he.reports) fun _ _ => hQ _

theorem applyLineSettings_handles (config : SerialConfig) (h : HANDLE)
    (tr : List (Σ action, Answer action)) :
    Follows handling (LineEnd config h tr) (applyLineSettings h config) tr := by
  unfold applyLineSettings
  simp only [Prog.perform_bind, Prog.pure_eq]
  refine kept_follows rfl fun read => ?_
  have hget : OnLine h [⟨.getCommState h, read⟩] :=
    (onLine_adjusts h read default false false).of_append
  cases read with
  | none => exact failWithLastError_handles fun _ => ⟨_, hget, rfl⟩
  | some settings =>
    dsimp only
    cases hsettings : lineSettings settings config with
    | none => exact ⟨_, hget, rfl⟩
    | some line =>
      refine kept_follows rfl fun set => ?_
      have hset : OnLine h [⟨.getCommState h, some settings⟩, ⟨.setCommState h line, set⟩] :=
        (onLine_adjusts h (some settings) line set false).of_append
      cases set with
      | false =>
        refine failWithLastError_handles fun _ => ⟨_, hset, ?_⟩
        rw [List.append_assoc]
        rfl
      | true =>
        refine kept_follows rfl fun timed => ?_
        have hall : tr ++ [⟨.getCommState h, some settings⟩] ++ [⟨.setCommState h line, true⟩] ++
            [⟨.setCommTimeouts h {}, timed⟩] = tr ++ [⟨.getCommState h, some settings⟩,
              ⟨.setCommState h line, true⟩, ⟨.setCommTimeouts h {}, timed⟩] := by simp
        cases timed with
        | false => exact failWithLastError_handles fun _ => ⟨_, onLine_adjusts h _ line _ _, hall⟩
        | true => exact ⟨settings, line, hsettings, hall⟩

theorem serialOpen_handles (core : CppCore) (port : Option (List UInt8))
    (config : Option SerialConfig) (callback : Callback) :
    Follows handling (fun tr r => OpenWay (config.getD ⟨0, 0, 0, 0, 0⟩) tr r ∧
        (core.validateOpenParams port config ≠ none → tr = []))
      (serialOpen core port config callback) [] := by
  unfold serialOpen
  refine follows_within_seq (effectiveErrorCallback_within callback) handling_reports
    fun callback _ => ?_
  refine follows_within_seq (validate_within core callback _) handling_reports
    fun status hstatus => ?_
  split
  · rename_i hneg
    exact ⟨.nothing hneg, fun _ => rfl⟩
  rename_i haccepted
  have hverdict : core.validateOpenParams port config = none := by
    cases hverdict : core.validateOpenParams port config with
    | none => rfl
    | some failure =>
      rw [hverdict] at hstatus
      subst hstatus
      exact absurd (core.value_neg _) haccepted
  have hanswer : ∀ tr r, OpenWay (config.getD ⟨0, 0, 0, 0, 0⟩) tr r →
      OpenWay (config.getD ⟨0, 0, 0, 0, 0⟩) tr r ∧
        (core.validateOpenParams port config ≠ none → tr = []) :=
    fun _ _ hway => ⟨hway, fun hno => absurd hverdict hno⟩
  refine follows_mono ?_ hanswer
  refine follows_within_seq (utf8ToWide_within port)
    (fun e he => handling_ignores (by obtain ⟨bytes, rfl⟩ := he; trivial)
      (by obtain ⟨bytes, rfl⟩ := he; rfl)) fun port_wide _ => ?_
  split
  · exact follows_of_within (failMsg_within core callback _ _) handling_reports
      fun _ hr => .nothing (hr ▸ core.value_neg _)
  refine kept_follows rfl fun raw_handle => ?_
  dsimp only [Prog.bind]
  by_cases hraw : raw_handle = INVALID_HANDLE_VALUE ∨ raw_handle = nullHandle
  · rw [if_pos (by rcases hraw with rfl | rfl <;> rfl)]
    exact follows_of_within (failWin32_within core callback _) handling_reports
      fun _ hr => .absent hraw (hr ▸ core.value_neg _)
  have hnative := not_or.mp hraw
  rw [if_neg hnative.1, if_neg hnative.2]
  -- a failure on the way gives the handle back
  have hfail : ∀ line code message, OnLine raw_handle line →
      Follows handling (OpenWay (config.getD ⟨0, 0, 0, 0, 0⟩)) (do
        let status ← failMsg core callback code message
        let _ ← perform (.closeHandle raw_handle)
        return status) (⟨.createFile _, raw_handle⟩ :: line) := by
    intro line code message hline
    refine follows_within_seq (failMsg_within core callback code message) handling_reports
      fun status hs => ?_
    exact kept_follows rfl fun done => .closed hraw hline (hs ▸ core.value_neg _)
  refine follows_seq (applyLineSettings_handles _ raw_handle _) fun tr failure hend => ?_
  cases failure with
  | some failure =>
    obtain ⟨line, hline, rfl⟩ := hend
    exact hfail line _ _ hline
  | none =>
    obtain ⟨settings, line, hsettings, rfl⟩ := hend
    have hpurge : handling.Ignores (.purgeComm raw_handle 0xF) := handling_ignores trivial rfl
    refine ⟨(hpurge _).1, fun purged tr hn => ?_⟩
    rw [(hpurge _).2 purged tr hn]
    dsimp only [Prog.bind]
    split
    · exact hfail _ _ _ (onLine_adjusts raw_handle _ line _ _)
    · rename_i hpos
      exact kept_follows rfl fun state => .opened (Int.not_le.mp hpos) hsettings

/-- The protocol has kept the actions about handles, and the others were quiet. -/
structure Kept (tr kept : List (Σ action, Answer action)) : Prop where
  same : kept = handleActions tr
  quiet : ∀ x ∈ tr, x.1.Quiet ∨ x.1.opens = true

theorem Kept.step {kept : List (Σ action, Answer action)} {e : Action} (a : Answer e)
    (hkept : Kept tr kept) (he : handling.allows kept e) :
    ∃ kept', handling.next kept e a = some kept' ∧ Kept (tr ++ [⟨e, a⟩]) kept' := by
  refine ⟨_, rfl, ?_, fun x hx => ?_⟩
  · rw [hkept.same]
    unfold handleActions
    rw [List.filter_append]
    cases hopens : e.opens <;> simp [hopens]
  · rcases List.mem_append.mp hx with hx | hx
    · exact hkept.quiet x hx
    · rw [List.mem_singleton.mp hx]
      exact he

theorem kept_nil : Kept [] [] := ⟨rfl, fun _ hx => absurd hx List.not_mem_nil⟩

/-! ## The process around an open -/

namespace World

variable {t : ThreadId} {w w' : World}

/-- The other actions leave the process as it is. -/
theorem after_handleActions (hall : ∀ x ∈ tr, x.1.Quiet ∨ x.1.opens = true)
    (hw : after (perform t) w tr = some w') :
    after (perform t) w (handleActions tr) = some w' := by
  induction tr generalizing w with
  | nil => exact hw
  | cons x tr ih =>
    obtain ⟨hx, hall⟩ := List.forall_mem_cons.mp hall
    simp only [after] at hw
    split at hw
    · rename_i w1 hn
      have hrest := ih hall hw
      unfold handleActions at hrest ⊢
      cases hopens : x.1.opens with
      | true =>
        rw [List.filter_cons, if_pos hopens]
        simp only [after, hn]
        exact hrest
      | false =>
        have hquiet : x.1.Quiet := hx.resolve_right (by rw [hopens]; exact Bool.false_ne_true)
        rw [List.filter_cons, hopens, if_neg Bool.false_ne_true]
        rw [perform_quiet hquiet hn] at hrest
        exact hrest
    · cases hw

/-- The actions on a line leave the process as it is. -/
theorem after_onLine {line : List (Σ action, Answer action)} (hline : OnLine h line)
    (tr : List (Σ action, Answer action)) :
    after (perform t) w (line ++ tr) = after (perform t) w tr := by
  induction line with
  | nil => rfl
  | cons x line ih =>
    obtain ⟨e, a⟩ := x
    obtain ⟨hx, hline⟩ := List.forall_mem_cons.mp hline
    have hsame : perform t w e a = some w := by
      rcases hx with hx | ⟨settings, hx⟩ | hx <;> dsimp only at hx <;> subst hx <;> rfl
    simp only [List.cons_append, after, hsame]
    exact ih hline

/-- What an open does to the process: a handle that is given away is open and registered, and an
open that fails leaves the registry alone and closes what it opened. -/
structure AfterOpen (tr : List (Σ action, Answer action)) (r : Int) (w w' : World) : Prop where
  opened : 0 < r → r ∉ w.openHandles ∧ w'.openHandles = insert r w.openHandles ∧
    ∃ state, w'.registry.g_handle_states r = some state
  refused : r < 0 → w'.registry = w.registry ∧
    ((∀ h, ⟨.closeHandle h, false⟩ ∉ tr) → w'.openHandles = w.openHandles)

theorem afterOpen (hway : OpenWay config (handleActions tr) r)
    (hw : after (perform t) w (handleActions tr) = some w') : AfterOpen tr r w w' := by
  have hmem : ∀ x, x ∈ handleActions tr → x ∈ tr := fun x hx => (List.mem_filter.mp hx).1
  generalize handleActions tr = kept at *
  cases hway with
  | nothing hneg =>
    cases hw
    exact ⟨fun hpos => absurd hpos (by omega), fun _ => ⟨rfl, fun _ => rfl⟩⟩
  | absent hno hneg =>
    simp only [after, perform, if_pos hno] at hw
    cases hw
    exact ⟨fun hpos => absurd hpos (by omega), fun _ => ⟨rfl, fun _ => rfl⟩⟩
  | @closed path h line done r hnative hon hneg =>
    refine ⟨fun hpos => absurd hpos (by omega), fun _ => ?_⟩
    rw [List.cons_append] at hw
    simp only [after, perform, if_neg hnative] at hw
    split at hw
    · rename_i w1 hn
      split at hn
      · cases hn
      rename_i hnew
      cases hn
      rw [after_onLine hon] at hw
      simp only [after, perform] at hw
      cases done with
      | false =>
        cases hw
        exact ⟨rfl, fun hdone => absurd (hmem _ (by simp)) (hdone h)⟩
      | true =>
        simp only [Bool.true_eq_false, if_false, Finset.mem_insert_self, if_true] at hw
        cases hw
        exact ⟨rfl, fun _ => Finset.erase_insert hnew⟩
    · cases hw
  | @opened path h settings line state hpos hsettings =>
    refine ⟨fun _ => ?_, fun hneg => absurd hneg (Int.not_lt.mpr (Int.le_of_lt hpos))⟩
    simp only [after, perform, if_neg (positive_is_native hpos)] at hw
    split at hw
    · rename_i w1 hn
      split at hn
      · cases hn
      rename_i hnew
      cases hn
      split at hw
      · rename_i w2 hensure
        cases hw
        have hregistered := perform_ensure_registers (t := t) hensure
        have hopen : w'.openHandles = insert r w.openHandles := by
          rcases perform_ensure (t := t) hensure with ⟨-, rfl⟩ | ⟨-, -, -, -, -, -, hsame⟩
          · rfl
          · exact hsame
        exact ⟨hnew, hopen, state, hregistered⟩
      · cases hw
    · cases hw

end World

/-- `validateWin32Handle` accepts every positive handle, as it is. -/
theorem validateWin32Handle_accepts (core : CppCore) (callback : Callback) {handle : Int64}
    (hhandle : handle.toInt = r) (hpos : 0 < r) :
    Within Action.Reports (· = .ok r) (validateWin32Handle core handle callback) := by
  refine within_mono (validateWin32Handle_within core callback handle) (fun _ he => he)
    fun a ha => ?_
  cases a with
  | error status =>
    have hneg := ha.2
    omega
  | ok native_handle => rw [ha.1, hhandle]

/-- An open is all or nothing, for every port, every configuration and every outcome of every
call. It returns a positive handle, which is the one handle that Windows gave: the call has not
closed it, has registered it and has set it up, and `validateWin32Handle` accepts it as this
handle. Or it returns a negative code, after it closed each handle that Windows gave once, and
did nothing to the registry. Parameters that are refused never reach `CreateFileW`. In a process
the handle that is returned is open and registered, and after a failure the registry is the one
before. -/
theorem serialOpen_is_all_or_nothing {core : CppCore} {port : Option (List UInt8)}
    {config : Option SerialConfig} {callback : Callback}
    {tr : List (Σ action, Answer action)} {r : Int}
    (htrace : Traces (serialOpen core port config callback) tr (.ret r)) :
    ((∃ c, config = some c ∧ Opened c tr r ∧ ∀ (handle : Int64) (callback : Callback),
        handle.toInt = r →
        Within Action.Reports (· = .ok r) (validateWin32Handle core handle callback)) ∨
      Refused tr r) ∧
    (core.validateOpenParams port config ≠ none → ∀ path h, ⟨.createFile path, h⟩ ∉ tr) ∧
    ∀ t w w', after (World.perform t) w tr = some w' → World.AfterOpen tr r w w' := by
  obtain ⟨g, ⟨rfl, hall⟩, hend⟩ := follows_traces (I := Kept) (fun a hkept he => hkept.step a he)
    (serialOpen_handles core port config callback) kept_nil htrace
  obtain ⟨hway, hrejected⟩ := hend
  refine ⟨?_, fun hno path h hmem => ?_, fun t w w' hw =>
    World.afterOpen hway (World.after_handleActions hall hw)⟩
  · rcases hway.ends with hopened | hrefused
    · refine Or.inl ?_
      have hasked : config ≠ none := by
        intro hnull
        have hverdict : core.validateOpenParams port config ≠ none := fun hno =>
          (core.open_rejects_null port config hno).2 hnull
        have hnone := hopened.obtained
        unfold obtainedHandles at hnone
        rw [← filterMap_handleActions obtainedHandle_of_not, hrejected hverdict] at hnone
        cases hnone
      obtain ⟨c, rfl⟩ := Option.ne_none_iff_exists'.mp hasked
      exact ⟨c, rfl, hopened, fun handle callback hhandle =>
        validateWin32Handle_accepts core callback hhandle hopened.positive⟩
    · exact Or.inr hrefused
  · have hkept : (⟨.createFile path, h⟩ : Σ action, Answer action) ∈ handleActions tr :=
      List.mem_filter.mpr ⟨hmem, rfl⟩
    rw [hrejected hno] at hkept
    cases hkept

/-- A machine with the one port `COM3`, which gets the handle value 5. -/
def onePort : (action : Action) → Answer action
  | .multiByteToWideChar _ => some [67, 79, 77, 51, 0]
  | .createFile _ => 5
  | action => idleAnswer action

/-- An open of that port gives the handle 5 away. -/
theorem com3_is_opened : ∃ tr, Traces (serialOpen sampleCore (some [67, 79, 77, 51])
      (some ⟨9600, 8, 0, 0, 0⟩) none) tr (.ret 5) ∧ Opened ⟨9600, 8, 0, 0, 0⟩ tr 5 := by
  have htrace := trace_traces (fun _ => onePort) (.nil (p := serialOpen sampleCore
    (some [67, 79, 77, 51]) (some ⟨9600, 8, 0, 0, 0⟩) none))
  refine ⟨_, htrace, ?_⟩
  rcases (serialOpen_is_all_or_nothing htrace).1 with ⟨c, hc, hopened, -⟩ | hrefused
  · cases hc
    exact hopened
  · exact absurd hrefused.negative (by decide)

end cpp_bindings_windows
