-- Two setters at the same time on one device. Each one reads all the settings
-- and writes them all back, and no lock holds the two steps together.
import SerialBindings.LineStore
import SerialBindings.ReadModifyWrite
import SerialBindings.Threads

open programs

namespace cpp_bindings_windows

/-! ## Independent attributes -/

inductive Attribute
  | baudrate
  | data_bits
  | parity
  | stop_bits
  | flow_mode
  deriving DecidableEq

/-- The attribute that the call sets, and none for the other calls. -/
def LineCall.sets : LineCall → Option Attribute
  | .serialSetBaudrate _ => some .baudrate
  | .serialSetDataBits _ => some .data_bits
  | .serialSetParity _ => some .parity
  | .serialSetStopBits _ => some .stop_bits
  | .serialSetFlowControl _ => some .flow_mode
  | _ => none

theorem applyFlowControl_twice (settings : DCB) (mode : FlowControl) :
    applyFlowControl (applyFlowControl settings mode) mode = applyFlowControl settings mode := by
  unfold applyFlowControl
  split
  · rfl
  · split <;> rfl

/-- Setting an attribute twice is setting it once. -/
theorem update_twice {call : LineCall} {x : Setter} (h : call.setter = some x) (settings : DCB) :
    x.update (x.update settings) = x.update settings := by
  cases call <;> cases h <;> first | rfl | exact applyFlowControl_twice settings _

/-- Setters of different attributes do not see each other. -/
theorem updates_commute {call call' : LineCall} {x x' : Setter} (h : call.setter = some x)
    (h' : call'.setter = some x') (hne : call.sets ≠ call'.sets) (settings : DCB) :
    x.update (x'.update settings) = x'.update (x.update settings) := by
  cases call <;> cases h <;> cases call' <;> cases h' <;>
    first | exact absurd rfl hne | rfl | (dsimp only [applyFlowControl]; split_ifs <;> rfl)

/-- Settings are equal when they are so outside of two different attributes. -/
theorem eq_of_others {call call' : LineCall} {x x' : Setter} (h : call.setter = some x)
    (h' : call'.setter = some x') (hne : call.sets ≠ call'.sets) {d d' : DCB}
    (h1 : call.others d = call.others d') (h2 : call'.others d = call'.others d') : d = d' := by
  obtain ⟨⟩ := d
  obtain ⟨⟩ := d'
  cases call <;> cases h <;> cases call' <;> cases h' <;>
    first | exact absurd rfl hne | simp_all [LineCall.others]

/-- A change that does not show under another attribute is none. -/
theorem update_recover {call call' : LineCall} {x x' : Setter} (h : call.setter = some x)
    (h' : call'.setter = some x') (hne : call.sets ≠ call'.sets) (settings : DCB)
    (heq : x'.update (x.update settings) = x'.update settings) :
    x.update settings = settings := by
  refine eq_of_others h h' hne (LineCall.update_others h settings) ?_
  rw [← LineCall.update_others h' (x.update settings), heq, LineCall.update_others h' settings]

/-! ## The threads on one device -/

deriving instance DecidableEq for LineCall

/-- A call on the line with its handle and its callback. -/
structure LineRequest where
  handle : Int64
  callback : Callback
  call : LineCall
  deriving DecidableEq

/-- The call after it returned 0. -/
def LineRequest.succeeded (c : LineRequest) : SetCall := ⟨c.handle, c.callback, c.call, 0⟩

/-- Threads that make calls on the line of one device. -/
def lines (core : CppCore) (device : HANDLE) :
    Machine ThreadId Action Answer LineRequest Int DCB where
  body c := c.call.program core c.handle c.callback
  enter _ settings _ := some settings
  perform _ settings e r := commNext device settings e r
  leave _ settings _ _ := some settings

abbrev LineLabel := Label ThreadId Action Answer LineRequest Int

/-- The settings that the threads have read and written. -/
def accesses : List LineLabel → List (Access ThreadId) :=
  List.filterMap fun l => match l with
    | .did t (.getCommState _) (some _) => some (.read t)
    | .did t (.setCommState _ _) true => some (.write t)
    | _ => none

theorem accesses_snoc (ls : List LineLabel) (l : LineLabel) :
    accesses (ls ++ [l]) = accesses ls ++ accesses [l] := by
  unfold accesses
  rw [List.filterMap_append]

/-- The thread has entered a call. -/
def entered (t : ThreadId) (ls : List LineLabel) : Bool :=
  ls.any fun l => match l with
    | .enter t' _ => t' = t
    | _ => false

theorem entered_snoc (t : ThreadId) (ls : List LineLabel) (l : LineLabel) :
    entered t (ls ++ [l]) = (entered t ls || entered t [l]) := by
  unfold entered
  rw [List.any_append]

/-- Two threads that each call a setter once, on one device and for different attributes. -/
structure Race (device : HANDLE) where
  a : ThreadId
  b : ThreadId
  ca : LineRequest
  cb : LineRequest
  xa : Setter
  xb : Setter
  distinct : a ≠ b
  setter_a : ca.call.setter = some xa
  setter_b : cb.call.setter = some xb
  handle_a : ca.handle.toInt = device
  handle_b : cb.handle.toInt = device
  attributes : ca.call.sets ≠ cb.call.sets

namespace Race

variable {device : HANDLE} (r : Race device)

def request (t : ThreadId) : LineRequest := if t = r.a then r.ca else r.cb

def setter (t : ThreadId) : Setter := if t = r.a then r.xa else r.xb

/-- What the setter of the thread makes of the settings. -/
def change (t : ThreadId) : DCB → DCB := (r.setter t).update

/-- The run consists of the two calls. -/
def onlyThese (ls : List LineLabel) (_ : DCB) : LineLabel → Prop
  | .enter t c => (t = r.a ∨ t = r.b) ∧ c = r.request t ∧ entered t ls = false
  | _ => True

theorem setter_request (t : ThreadId) : (r.request t).call.setter = some (r.setter t) := by
  unfold request setter
  split
  · exact r.setter_a
  · exact r.setter_b

theorem handle_request (t : ThreadId) : (r.request t).handle.toInt = device := by
  unfold request
  split
  · exact r.handle_a
  · exact r.handle_b

@[simp] theorem request_a : r.request r.a = r.ca := if_pos rfl

@[simp] theorem request_b : r.request r.b = r.cb := if_neg (Ne.symm r.distinct)

@[simp] theorem setter_of_a : r.setter r.a = r.xa := if_pos rfl

@[simp] theorem setter_of_b : r.setter r.b = r.xb := if_neg (Ne.symm r.distinct)

end Race

/-! ## The protocol of a setter -/

/-- A setter with the settings that it has read, and whether it has written. -/
structure Racer where
  request : LineRequest
  held : Option DCB := none
  wrote : Bool := false

namespace Racer

/-- A setter reads once, and writes once what it makes of that. -/
def races (g : Racer) (x : Setter) : Action → Prop
  | .getCommState handle => handle = g.request.handle.toInt ∧ g.held = none ∧ g.wrote = false
  | .setCommState handle settings => handle = g.request.handle.toInt ∧ g.wrote = false ∧
    x.check = none ∧ ∃ read, g.held = some read ∧ settings = x.update read
  | _ => True

/-- The protocol is about setters, and the other calls may do everything. -/
def allows (g : Racer) (e : Action) : Prop := ∀ x, g.request.call.setter = some x → g.races x e

def next (g : Racer) : (action : Action) → Answer action → Option Racer
  | .getCommState _, some settings => some { g with held := some settings }
  | .setCommState _ _, true => some { g with wrote := true }
  | _, _ => some g

/-- The accesses of the setter so far, on the thread `t`. -/
def trail (g : Racer) (t : ThreadId) : List (Access ThreadId) :=
  (if g.held = none then [] else [.read t]) ++ if g.wrote then [.write t] else []

end Racer

def racing : Protocol Action Answer Racer := ⟨Racer.allows, Racer.next⟩

theorem racing_reports (e : Action) (he : e.Reports) : racing.Ignores e := by
  refine fun g => ⟨fun x _ => ?_, fun r g' hn => ?_⟩
  · cases e <;> trivial
  · cases e <;> first | exact he.elim | (cases hn; rfl)

/-- A setter that returns 0 has written. -/
def Racer.Over (c : LineRequest) (g : Racer) (a : Int) : Prop :=
  c.call.setter ≠ none → a = 0 → g.wrote = true

theorem Racer.over_fails (core : CppCore) (c : LineRequest) (g : Racer) (code : StatusCode) :
    Racer.Over c g (core.value code) := fun _ h => absurd h (Int.ne_of_lt (core.value_neg code))

theorem setLineSetting_races (core : CppCore) {c : LineRequest} {x : Setter}
    (hx : c.call.setter = some x) :
    Follows racing (Racer.Over c)
      (setLineSetting core c.handle c.callback x.check x.update x.code) { request := c } := by
  have honly : ∀ {y}, c.call.setter = some y → y = x := fun hy => by
    rw [hx] at hy
    exact (Option.some_inj.mp hy).symm
  have hfail : ∀ callback code g,
      Follows racing (Racer.Over c) (failWin32 core callback code) g := fun callback code g =>
    follows_of_within (failWin32_within core callback code) racing_reports
      fun _ ha => ha ▸ Racer.over_fails core c g code
  unfold setLineSetting withNativeHandle
  refine follows_within_seq (validateWin32Handle_within core c.callback c.handle) racing_reports
    fun r hr => ?_
  cases r with
  | error status =>
    rw [hr.1]
    exact Racer.over_fails core c _ _
  | ok native_handle =>
    obtain ⟨rfl, -⟩ := hr
    cases hcheck : x.check with
    | some failure =>
      refine follows_within_seq (effectiveErrorCallback_within c.callback) racing_reports
        fun callback _ => ?_
      exact follows_of_within (failMsg_within core callback _ _) racing_reports
        fun _ ha => ha ▸ Racer.over_fails core c _ _
    | none =>
      refine ⟨fun y hy => ⟨rfl, rfl, rfl⟩, fun answer g1 h1 => ?_⟩
      cases answer with
      | none => exact hfail _ _ _
      | some settings =>
        cases h1
        refine ⟨fun y hy => ?_, fun installed g2 h2 => ?_⟩
        · rw [honly hy]
          exact ⟨rfl, rfl, hcheck, settings, rfl, rfl⟩
        · cases installed
          · exact hfail _ _ _
          · cases h2
            exact fun _ _ => rfl

/-- The calls that set nothing follow the protocol as they are. -/
theorem racing_free {p : Api Int} {c : LineRequest} (hc : c.call.setter = none) {g : Racer}
    (hg : g.request = c) : Follows racing (Racer.Over c) p g := by
  induction p generalizing g with
  | ret a => exact fun hne => absurd hc hne
  | act e k ih =>
    refine ⟨fun x hx => ?_, fun r g' hn => ih r ?_⟩
    · rw [hg, hc] at hx
      cases hx
    · rw [← hg]
      simp only [racing, Racer.next] at hn
      split at hn <;> cases hn <;> rfl

theorem program_races (core : CppCore) (c : LineRequest) :
    Follows racing (Racer.Over c) (c.call.program core c.handle c.callback) { request := c } := by
  cases hx : c.call.setter with
  | none => exact racing_free hx rfl
  | some x =>
    rw [LineCall.program_setter hx]
    exact setLineSetting_races core hx

/-! ## The invariant -/

/-- The accesses of one thread. -/
def accessesOf (t : ThreadId) (ls : List LineLabel) : List (Access ThreadId) :=
  (accesses ls).filter fun access => access.thread = t

theorem accessesOf_snoc (t : ThreadId) (ls : List LineLabel) (l : LineLabel) :
    accessesOf t (ls ++ [l]) = accessesOf t ls ++ accessesOf t [l] := by
  unfold accessesOf
  rw [accesses_snoc, List.filter_append]

/-- The device has the settings that the accesses leave, and each thread has read what it
holds. -/
structure RaceInv {device : HANDLE} (r : Race device) (settings₀ : DCB) (ls : List LineLabel)
    (gs : ThreadId → Option (LineRequest × Racer)) (settings : DCB) : Prop where
  shared : settings = (replay r.change settings₀ (accesses ls)).1
  known : ∀ t, entered t ls = true → t = r.a ∨ t = r.b
  fresh : ∀ t, entered t ls = false → accessesOf t ls = []
  inside : ∀ t c g, gs t = some (c, g) → entered t ls = true ∧ c = r.request t ∧ g.request = c ∧
    accessesOf t ls = g.trail t ∧
    (∀ read, g.held = some read → read = (replay r.change settings₀ (accesses ls)).2 t) ∧
    (g.wrote = true → g.held ≠ none ∧ (r.setter t).check = none)
  left : ∀ t c, .leave t c 0 ∈ ls → entered t ls = true ∧ gs t = none ∧
    accessesOf t ls = [.read t, .write t] ∧ (r.setter t).check = none

section Steps

variable {device : HANDLE} {r : Race device} {settings₀ settings settings' : DCB}
  {ls : List LineLabel} {gs : ThreadId → Option (LineRequest × Racer)} {t : ThreadId}
  {c : LineRequest} {g g' : Racer}

/-- The rule for an action of a thread, by the accesses that it is. -/
theorem RaceInv.did {e : Action} {answer : Answer e} (h : RaceInv r settings₀ ls gs settings)
    (hg : gs t = some (c, g)) (hrequest : g'.request = g.request)
    (hother : ∀ t', t' ≠ t → accessesOf t' [.did t e answer] = [] ∧
      (replay r.change settings₀ (accesses (ls ++ [.did t e answer]))).2 t' =
        (replay r.change settings₀ (accesses ls)).2 t')
    (hshared : settings' = (replay r.change settings₀ (accesses (ls ++ [.did t e answer]))).1)
    (htrail : g'.trail t = g.trail t ++ accessesOf t [.did t e answer])
    (hheld : ∀ read, g'.held = some read →
      read = (replay r.change settings₀ (accesses (ls ++ [.did t e answer]))).2 t)
    (hwrote : g'.wrote = true → g'.held ≠ none ∧ (r.setter t).check = none) :
    RaceInv r settings₀ (ls ++ [.did t e answer])
      (Function.update gs t (some (c, g'))) settings' := by
  have hentered : ∀ t', entered t' (ls ++ [.did t e answer]) = entered t' ls := fun t' => by
    rw [entered_snoc]
    exact Bool.or_false _
  obtain ⟨hent, hc, hreq, htr, -, -⟩ := h.inside t c g hg
  refine ⟨hshared, fun t' ht' => ?_, fun t' ht' => ?_, fun t' c' g0 hg0 => ?_, fun t' c' hl => ?_⟩
  · rw [hentered] at ht'
    exact h.known t' ht'
  · rw [hentered] at ht'
    have hne : t' ≠ t := fun heq => by rw [heq, hent] at ht'; cases ht'
    rw [accessesOf_snoc, h.fresh t' ht', (hother t' hne).1]
    rfl
  · rw [hentered]
    by_cases ht : t' = t
    · subst ht
      rw [Function.update_self] at hg0
      cases hg0
      exact ⟨hent, hc, hrequest.trans hreq, by rw [accessesOf_snoc, htr, htrail], hheld, hwrote⟩
    · rw [Function.update_of_ne ht] at hg0
      obtain ⟨hent', hc', hreq', htr', hheld', hwrote'⟩ := h.inside t' c' g0 hg0
      obtain ⟨hnone, hsame⟩ := hother t' ht
      refine ⟨hent', hc', hreq', ?_, fun read hr => ?_, hwrote'⟩
      · rw [accessesOf_snoc, htr', hnone, List.append_nil]
      · rw [hsame]
        exact hheld' read hr
  · rw [List.mem_append, List.mem_singleton] at hl
    rcases hl with hl | hl
    · obtain ⟨hent', hnone, htr', hcheck⟩ := h.left t' c' hl
      have hne : t' ≠ t := fun heq => by
        rw [heq, hg] at hnone
        cases hnone
      refine ⟨by rw [hentered]; exact hent', by rw [Function.update_of_ne hne]; exact hnone, ?_,
        hcheck⟩
      rw [accessesOf_snoc, htr', (hother t' hne).1, List.append_nil]
    · cases hl

/-- The rule for an action that is no access. -/
theorem RaceInv.keeps {e : Action} {answer : Answer e} (h : RaceInv r settings₀ ls gs settings)
    (hg : gs t = some (c, g)) (hnone : accesses [.did t e answer] = []) :
    RaceInv r settings₀ (ls ++ [.did t e answer])
      (Function.update gs t (some (c, g))) settings := by
  have hsame : accesses (ls ++ [.did t e answer]) = accesses ls := by
    rw [accesses_snoc, hnone, List.append_nil]
  have hof : ∀ t', accessesOf t' [.did t e answer] = [] := fun t' => by
    unfold accessesOf
    rw [hnone]
    rfl
  obtain ⟨-, -, -, -, hheld, hwrote⟩ := h.inside t c g hg
  refine h.did hg rfl (fun t' _ => ⟨hof t', by rw [hsame]⟩) (by rw [hsame]; exact h.shared) ?_
    (by rw [hsame]; exact hheld) hwrote
  rw [hof, List.append_nil]

theorem RaceInv.read {handle : HANDLE} {answer : DCB} (h : RaceInv r settings₀ ls gs settings)
    (hg : gs t = some (c, g)) (hallows : racing.allows g (.getCommState handle))
    (hw : commNext device settings (.getCommState handle) (some answer) = some settings') :
    RaceInv r settings₀ (ls ++ [.did t (.getCommState handle) (some answer)])
      (Function.update gs t (some (c, { g with held := some answer }))) settings' := by
  obtain ⟨-, hc, hreq, -, -, -⟩ := h.inside t c g hg
  obtain ⟨hhandle, hheld, hwrote⟩ :=
    hallows (r.setter t) (by rw [hreq, hc]; exact r.setter_request t)
  have hdevice : handle = device := by rw [hhandle, hreq, hc, r.handle_request]
  obtain ⟨rfl, rfl⟩ : settings = answer ∧ settings' = answer := by
    simp only [commNext, hdevice, true_and] at hw
    split at hw
    · cases hw
    · rename_i hne
      cases hw
      have heq := not_not.mp hne
      exact ⟨heq.symm, heq.symm⟩
  have hreplay : replay r.change settings₀
      (accesses (ls ++ [.did t (.getCommState handle) (some settings')])) =
      (settings', Function.update (replay r.change settings₀ (accesses ls)).2 t settings') := by
    rw [accesses_snoc]
    refine (replay_read _ _ _ t).trans ?_
    rw [← h.shared]
  refine h.did hg rfl (fun t' hne => ⟨?_, ?_⟩) (by rw [hreplay]) ?_ (fun read hr => ?_) ?_
  · exact List.filter_cons_of_neg fun hx => hne (of_decide_eq_true hx).symm
  · rw [hreplay]
    exact Function.update_of_ne hne _ _
  · have hof : accessesOf t [.did t (.getCommState handle) (some settings')] = [.read t] :=
      List.filter_cons_of_pos (decide_eq_true rfl)
    rw [hof]
    simp [Racer.trail, hheld, hwrote]
  · cases hr
    rw [hreplay]
    dsimp only
    rw [Function.update_self]
  · intro hw'
    rw [hwrote] at hw'
    cases hw'

theorem RaceInv.write {handle : HANDLE} {written : DCB} (h : RaceInv r settings₀ ls gs settings)
    (hg : gs t = some (c, g)) (hallows : racing.allows g (.setCommState handle written))
    (hw : commNext device settings (.setCommState handle written) true = some settings') :
    RaceInv r settings₀ (ls ++ [.did t (.setCommState handle written) true])
      (Function.update gs t (some (c, { g with wrote := true }))) settings' := by
  obtain ⟨-, hc, hreq, -, hheld, -⟩ := h.inside t c g hg
  obtain ⟨hhandle, hwrote, hcheck, read, hread, rfl⟩ :=
    hallows (r.setter t) (by rw [hreq, hc]; exact r.setter_request t)
  have hdevice : handle = device := by rw [hhandle, hreq, hc, r.handle_request]
  simp only [commNext, hdevice, and_true] at hw
  cases hw
  have hreplay : replay r.change settings₀
      (accesses (ls ++ [.did t (.setCommState handle ((r.setter t).update read)) true])) =
      ((r.setter t).update read, (replay r.change settings₀ (accesses ls)).2) := by
    rw [accesses_snoc]
    refine (replay_write _ _ _ t).trans ?_
    rw [← hheld read hread]
    rfl
  refine h.did hg rfl (fun t' hne => ⟨?_, by rw [hreplay]⟩) (by rw [hreplay, if_true]) ?_
    (fun read' hr => by rw [hreplay]; exact hheld read' hr) fun _ => ⟨?_, hcheck⟩
  · exact List.filter_cons_of_neg fun hx => hne (of_decide_eq_true hx).symm
  · have hof : accessesOf t [.did t (.setCommState handle ((r.setter t).update read)) true] =
        [.write t] := List.filter_cons_of_pos (decide_eq_true rfl)
    rw [hof]
    simp [Racer.trail, hread, hwrote]
  · dsimp only
    rw [hread]
    exact Option.some_ne_none _

theorem RaceInv.perform {e : Action} {answer : Answer e} (h : RaceInv r settings₀ ls gs settings)
    (hg : gs t = some (c, g)) (hallows : racing.allows g e)
    (hw : commNext device settings e answer = some settings') :
    ∃ g', racing.next g e answer = some g' ∧
      RaceInv r settings₀ (ls ++ [.did t e answer])
        (Function.update gs t (some (c, g'))) settings' := by
  cases e with
  | getCommState handle =>
    cases answer with
    | none =>
      cases hw
      exact ⟨g, rfl, h.keeps hg rfl⟩
    | some answer => exact ⟨_, rfl, h.read hg hallows hw⟩
  | setCommState handle written =>
    cases answer
    · have hsame : settings' = settings := by
        simp only [commNext, Bool.false_eq_true, and_false, if_false] at hw
        cases hw
        rfl
      subst hsame
      exact ⟨g, rfl, h.keeps hg rfl⟩
    · exact ⟨_, rfl, h.write hg hallows hw⟩
  | _ =>
    cases hw
    exact ⟨g, rfl, h.keeps hg rfl⟩

theorem RaceInv.enter (h : RaceInv r settings₀ ls gs settings) (hg : gs t = none)
    (hok : r.onlyThese ls settings (.enter t c)) :
    RaceInv r settings₀ (ls ++ [.enter t c]) (Function.update gs t (some (c, { request := c })))
      settings := by
  obtain ⟨hthread, hc, hfresh⟩ := hok
  have hsame : accesses (ls ++ [.enter t c]) = accesses ls := by
    rw [accesses_snoc]
    exact List.append_nil _
  have hof : ∀ t', accessesOf t' (ls ++ [.enter t c]) = accessesOf t' ls := fun t' => by
    unfold accessesOf
    rw [hsame]
  have hentered : ∀ t', t' ≠ t → entered t' (ls ++ [.enter t c]) = entered t' ls := fun t' hne => by
    rw [entered_snoc]
    simp [entered, Ne.symm hne]
  have hself : entered t (ls ++ [.enter t c]) = true := by
    rw [entered_snoc]
    simp [entered]
  refine ⟨by rw [hsame]; exact h.shared, fun t' ht' => ?_, fun t' ht' => ?_, fun t' c' g0 hg0 => ?_,
    fun t' c' hl => ?_⟩
  · by_cases hne : t' = t
    · rw [hne]
      exact hthread
    · rw [hentered t' hne] at ht'
      exact h.known t' ht'
  · have hne : t' ≠ t := fun heq => by rw [heq, hself] at ht'; cases ht'
    rw [hentered t' hne] at ht'
    rw [hof]
    exact h.fresh t' ht'
  · rw [hof, hsame]
    by_cases hne : t' = t
    · subst hne
      rw [Function.update_self] at hg0
      cases hg0
      exact ⟨hself, hc, rfl, h.fresh t' hfresh, fun read hr => (by cases hr),
        fun hw => (by cases hw)⟩
    · rw [Function.update_of_ne hne] at hg0
      rw [hentered t' hne]
      exact h.inside t' c' g0 hg0
  · rw [List.mem_append, List.mem_singleton] at hl
    rcases hl with hl | hl
    · obtain ⟨hent, hnone, htr, hcheck⟩ := h.left t' c' hl
      have hne : t' ≠ t := fun heq => by rw [heq, hfresh] at hent; cases hent
      rw [hentered t' hne, Function.update_of_ne hne, hof]
      exact ⟨hent, hnone, htr, hcheck⟩
    · cases hl

/-- A setter that returns 0 has read and written. -/
theorem RaceInv.leave {a : Int} (h : RaceInv r settings₀ ls gs settings) (hg : gs t = some (c, g))
    (hover : Racer.Over c g a) :
    RaceInv r settings₀ (ls ++ [.leave t c a]) (Function.update gs t none) settings := by
  have hsame : accesses (ls ++ [.leave t c a]) = accesses ls := by
    rw [accesses_snoc]
    exact List.append_nil _
  have hof : ∀ t', accessesOf t' (ls ++ [.leave t c a]) = accessesOf t' ls := fun t' => by
    unfold accessesOf
    rw [hsame]
  have hentered : ∀ t', entered t' (ls ++ [.leave t c a]) = entered t' ls := fun t' => by
    rw [entered_snoc]
    exact Bool.or_false _
  obtain ⟨hent, hc, -, htr, -, hwrote⟩ := h.inside t c g hg
  refine ⟨by rw [hsame]; exact h.shared, fun t' ht' => ?_, fun t' ht' => ?_, fun t' c' g0 hg0 => ?_,
    fun t' c' hl => ?_⟩
  · rw [hentered] at ht'
    exact h.known t' ht'
  · rw [hentered] at ht'
    rw [hof]
    exact h.fresh t' ht'
  · rw [hentered, hof, hsame]
    exact h.inside t' c' g0 (stays_inside hg0).2
  · rw [hentered, hof]
    rw [List.mem_append, List.mem_singleton] at hl
    rcases hl with hl | hl
    · obtain ⟨hent', hnone, htr', hcheck⟩ := h.left t' c' hl
      have hne : t' ≠ t := fun heq => by
        rw [heq, hg] at hnone
        cases hnone
      rw [Function.update_of_ne hne]
      exact ⟨hent', hnone, htr', hcheck⟩
    · cases hl
      have hset : c.call.setter ≠ none := by
        rw [hc, r.setter_request t]
        exact Option.some_ne_none _
      have hw := hover hset rfl
      obtain ⟨hheld, hcheck⟩ := hwrote hw
      refine ⟨hent, Function.update_self .., ?_, hcheck⟩
      rw [htr]
      simp [Racer.trail, hheld, hw]

end Steps

/-- The invariant holds in every interleaving of the two calls. -/
def raceOutline (core : CppCore) {device : HANDLE} (r : Race device) (settings₀ : DCB) :
    Outline (lines core device) r.onlyThese settings₀ racing where
  start c := { request := c }
  post := Racer.Over
  inv := RaceInv r settings₀
  follows := program_races core
  init :=
    { shared := rfl
      known := fun t ht => by cases ht
      fresh := fun _ _ => rfl
      inside := fun t c g hg => by cases hg
      left := fun t c hl => by cases hl }
  enter h hg hw hok := by
    cases hw
    exact h.enter hg hok
  did h hg hallows hw _ := h.perform hg hallows hw
  leave h hg hover hw _ := by
    cases hw
    exact h.leave hg hover

/-! ## Lost changes -/

/-- A setter whose argument passes its check can succeed from any settings. -/
theorem LineCall.setter_succeeds (core : CppCore) {device : HANDLE} (hpos : 0 < device)
    {c : LineRequest} {x : Setter} (hx : c.call.setter = some x) (hcheck : x.check = none)
    (hhandle : c.handle.toInt = device) (settings : DCB) :
    Exec (commNext device) settings (c.call.program core c.handle c.callback)
      (x.update settings) 0 := by
  have hhandle' : ¬ c.handle.toInt ≤ 0 := by
    rw [hhandle]
    exact Int.not_le.mpr hpos
  have hvalid : ¬ (c.handle.toInt = nullHandle ∨ c.handle.toInt = INVALID_HANDLE_VALUE) := by
    unfold nullHandle INVALID_HANDLE_VALUE
    omega
  obtain ⟨callback, hcallback⟩ : ∃ callback, Exec (commNext device) settings
      (effectiveErrorCallback c.callback) settings callback := by
    unfold effectiveErrorCallback
    split
    · exact ⟨_, .ret⟩
    · exact ⟨none, .act rfl .ret⟩
  have hvalidate : Exec (commNext device) settings
      (validateWin32Handle core c.handle c.callback) settings (.ok c.handle.toInt) := by
    unfold validateWin32Handle
    refine exec_seq hcallback ?_
    rw [if_neg hhandle']
    dsimp only
    rw [if_neg hvalid]
    exact .ret
  rw [LineCall.program_setter hx]
  unfold setLineSetting withNativeHandle
  refine exec_seq hvalidate ?_
  rw [hcheck]
  have hread : commNext device settings (.getCommState c.handle.toInt) (some settings) =
      some settings := by
    simp only [commNext, ne_eq, not_true_eq_false, and_false, if_false]
  have hwrite : commNext device settings (.setCommState c.handle.toInt (x.update settings)) true =
      some (x.update settings) := by
    simp only [commNext, hhandle, and_self, if_true]
  refine .act (r := some settings) hread ?_
  exact .act (r := true) hwrite .ret

/-- Two calls of setters that succeed one after the other. -/
theorem session_of_two (core : CppCore) {device : HANDLE} (hpos : 0 < device)
    {c c' : LineRequest} {x x' : Setter} (hx : c.call.setter = some x) (hcheck : x.check = none)
    (hhandle : c.handle.toInt = device) (hx' : c'.call.setter = some x') (hcheck' : x'.check = none)
    (hhandle' : c'.handle.toInt = device) (settings settings' : DCB) :
    Session core device settings [c.succeeded, c'.succeeded] settings' ↔
      settings' = x'.update (x.update settings) := by
  constructor
  · intro h
    have h : Session core device settings ([c.succeeded] ++ [c'.succeeded]) settings' := h
    obtain ⟨settings1, h1, hexec'⟩ := session_last h
    have h1 : Session core device settings ([] ++ [c.succeeded]) settings1 := h1
    obtain ⟨settings0, h0, hexec⟩ := session_last h1
    rw [session_nil h0] at hexec
    rcases LineCall.setter_exec hx hexec with ⟨hneg, -⟩ | ⟨-, -, rfl⟩
    · cases hneg
    rcases LineCall.setter_exec hx' hexec' with ⟨hneg, -⟩ | ⟨-, -, rfl⟩
    · cases hneg
    rw [show c.succeeded.handle = c.handle from rfl, show c'.succeeded.handle = c'.handle from rfl,
      if_pos hhandle, if_pos hhandle']
  · rintro rfl
    have h1 := LineCall.setter_succeeds core hpos hx hcheck hhandle settings
    have h2 := LineCall.setter_succeeds core hpos hx' hcheck' hhandle' (x.update settings)
    have hset : ∀ {c : LineRequest} {x}, c.call.setter = some x →
        c.succeeded.call.setter ≠ none := by
      intro c x h
      rw [show c.succeeded.call = c.call from rfl, h]
      exact Option.some_ne_none _
    have hfirst : Session core device settings ([] ++ [c.succeeded]) (x.update settings) :=
      .snoc .nil (hset hx) h1
    have hboth : Session core device settings ([c.succeeded] ++ [c'.succeeded])
        (x'.update (x.update settings)) := .snoc hfirst (hset hx') h2
    exact hboth

/-- When both calls have returned 0, the accesses are an interleaving of the two pairs. -/
theorem RaceInv.interleaving {device : HANDLE} {r : Race device} {settings₀ settings : DCB}
    {ls : List LineLabel} {gs : ThreadId → Option (LineRequest × Racer)}
    (h : RaceInv r settings₀ ls gs settings) (ha : .leave r.a r.ca 0 ∈ ls)
    (hb : .leave r.b r.cb 0 ∈ ls) :
    Interleaving [.read r.a, .write r.a] [.read r.b, .write r.b] (accesses ls) := by
  have htra : accessesOf r.a ls = [.read r.a, .write r.a] := (h.left _ _ ha).2.2.1
  have htrb : accessesOf r.b ls = [.read r.b, .write r.b] := (h.left _ _ hb).2.2.1
  have hinter := interleaving_filter (fun access : Access ThreadId => access.thread = r.a)
    (accesses ls)
  -- an access that is not of `a` is of `b`
  have hothers : (accesses ls).filter (fun access => !decide (access.thread = r.a)) =
      accessesOf r.b ls := by
    refine List.filter_congr fun access hmem => ?_
    have hentered : entered access.thread ls = true := by
      by_contra hno
      have hnone := h.fresh access.thread (Bool.eq_false_iff.mpr hno)
      have hmem' : access ∈ accessesOf access.thread ls :=
        List.mem_filter.mpr ⟨hmem, decide_eq_true rfl⟩
      rw [hnone] at hmem'
      cases hmem'
    rcases h.known _ hentered with heq | heq
    · simp [heq, r.distinct]
    · simp [heq, Ne.symm r.distinct]
  rw [hothers, htrb] at hinter
  rw [← htra]
  exact hinter

/-- Two setters of different attributes that both return 0, in every interleaving: the device
has both values afterwards, as one order of the two calls gives them, exactly if one call read
the settings after the other had written them, or the call that wrote first asked for what the
device had. -/
theorem both_settings_last_iff (core : CppCore) {device : HANDLE} (hpos : 0 < device)
    (r : Race device) {settings : DCB} {ls : List LineLabel}
    {s : Sys ThreadId Action Answer LineRequest Int DCB}
    (h : Runs (lines core device) r.onlyThese settings ls s)
    (ha : .leave r.a r.ca 0 ∈ ls) (hb : .leave r.b r.cb 0 ∈ ls) :
    (r.xa.update s.shared = s.shared ∧ r.xb.update s.shared = s.shared ∧
      (Session core device settings [r.ca.succeeded, r.cb.succeeded] s.shared ∨
        Session core device settings [r.cb.succeeded, r.ca.succeeded] s.shared)) ↔
    ([.write r.a, .read r.b].Sublist (accesses ls) ∨ [.write r.b, .read r.a].Sublist (accesses ls) ∨
      ([.write r.a, .write r.b].Sublist (accesses ls) ∧ r.xa.update settings = settings) ∨
      ([.write r.b, .write r.a].Sublist (accesses ls) ∧ r.xb.update settings = settings)) := by
  obtain ⟨gs, hi, -⟩ := (raceOutline core r settings).runs h
  have hchecka : (r.setter r.a).check = none := (hi.left _ _ ha).2.2.2
  have hcheckb : (r.setter r.b).check = none := (hi.left _ _ hb).2.2.2
  have hua : r.change r.a = r.xa.update := congrArg Setter.update r.setter_of_a
  have hub : r.change r.b = r.xb.update := congrArg Setter.update r.setter_of_b
  rw [r.setter_of_a] at hchecka
  rw [r.setter_of_b] at hcheckb
  rw [session_of_two core hpos r.setter_a hchecka r.handle_a r.setter_b hcheckb r.handle_b,
    session_of_two core hpos r.setter_b hcheckb r.handle_b r.setter_a hchecka r.handle_a]
  have hboth := two_changes_hold_iff (u := r.change) r.distinct
    (by rw [hua, hub]; exact updates_commute r.setter_a r.setter_b r.attributes)
    (by rw [hua]; exact update_twice r.setter_a) (by rw [hub]; exact update_twice r.setter_b)
    (by rw [hua, hub]; exact update_recover r.setter_a r.setter_b r.attributes)
    (by rw [hua, hub]; exact update_recover r.setter_b r.setter_a (Ne.symm r.attributes))
    settings (hi.interleaving ha hb)
  rw [← hi.shared] at hboth
  unfold HoldsBoth NothingLost at hboth
  rw [hua, hub] at hboth
  exact hboth

/-- Thread 0 sets 115200 baud and thread 1 an even parity. -/
def baudAndParity : Race 5 where
  a := 0
  b := 1
  ca := ⟨5, none, .serialSetBaudrate 115200⟩
  cb := ⟨5, none, .serialSetParity 1⟩
  xa := _
  xb := _
  distinct := by decide
  setter_a := rfl
  setter_b := rfl
  handle_a := by decide
  handle_b := by decide
  attributes := by decide

instance (ls : List LineLabel) (settings : DCB) (l : LineLabel) :
    Decidable (baudAndParity.onlyThese ls settings l) := by
  cases l with
  | enter t c =>
    exact inferInstanceAs (Decidable ((t = 0 ∨ t = 1) ∧ c = baudAndParity.request t ∧ _ = false))
  | did t e answer => exact isTrue trivial
  | leave t c a => exact isTrue trivial

/-- What a scheduler picks on the device. -/
abbrev LineMove := Move ThreadId Action Answer LineRequest DCB

/-- The thread does the next `n` actions of its setter, with the answers of the device. -/
def LineMove.acts (t : ThreadId) (n : Nat) : List LineMove :=
  List.replicate n (.act t fun _ settings e => obedientAnswer settings e)

/-- Thread 0 is done before thread 1 starts. -/
def oneAfterTheOther : List LineMove :=
  [.enter 0 ⟨5, none, .serialSetBaudrate 115200⟩] ++ LineMove.acts 0 3 ++ [.leave 0] ++
  [.enter 1 ⟨5, none, .serialSetParity 1⟩] ++ LineMove.acts 1 3 ++ [.leave 1]

/-- Both threads read before one of them writes. -/
def readBeforeWrites : List LineMove :=
  [.enter 0 ⟨5, none, .serialSetBaudrate 115200⟩] ++ LineMove.acts 0 2 ++
  [.enter 1 ⟨5, none, .serialSetParity 1⟩] ++ LineMove.acts 1 3 ++ [.leave 1] ++
  LineMove.acts 0 1 ++ [.leave 0]

/-- One after the other, both settings last. -/
theorem settings_one_after_the_other_last :
    ∃ ls s, Runs (lines sampleCore 5) baudAndParity.onlyThese {} ls s ∧
      s.shared = { BaudRate := 115200, Parity := EVENPARITY, fParity := true } ∧
      ((baudAndParity.xa.update s.shared = s.shared ∧ baudAndParity.xb.update s.shared = s.shared ∧
        (Session sampleCore 5 {} [baudAndParity.ca.succeeded, baudAndParity.cb.succeeded] s.shared ∨
          Session sampleCore 5 {} [baudAndParity.cb.succeeded, baudAndParity.ca.succeeded]
            s.shared)) ↔
      ([.write 0, .read 1].Sublist (accesses ls) ∨ [.write 1, .read 0].Sublist (accesses ls) ∨
        ([.write 0, .write 1].Sublist (accesses ls) ∧ baudAndParity.xa.update {} = {}) ∨
        ([.write 1, .write 0].Sublist (accesses ls) ∧ baudAndParity.xb.update {} = {}))) := by
  obtain ⟨ls, s, hr, hx⟩ :=
    Sys.moves_exists (lines sampleCore 5) baudAndParity.onlyThese {} oneAfterTheOther
      (fun ls s => (ls[4]?, ls[9]?, s.shared))
      (x := (some (.leave 0 ⟨5, none, .serialSetBaudrate 115200⟩ 0),
        some (.leave 1 ⟨5, none, .serialSetParity 1⟩ 0),
        { BaudRate := 115200, Parity := EVENPARITY, fParity := true })) rfl
  obtain ⟨ha, hx⟩ := Prod.mk.inj hx
  obtain ⟨hb, hshared⟩ := Prod.mk.inj hx
  exact ⟨ls, s, hr, hshared, both_settings_last_iff sampleCore (by decide) baudAndParity hr
    (List.mem_of_getElem? ha) (List.mem_of_getElem? hb)⟩

/-- Both calls return 0, but thread 0 has read before thread 1 wrote, and its write takes the
parity back. -/
theorem a_parity_can_be_lost :
    ¬ ∀ core device (r : Race device) settings ls s,
      Runs (lines core device) r.onlyThese settings ls s →
      .leave r.a r.ca 0 ∈ ls → .leave r.b r.cb 0 ∈ ls →
      r.xa.update s.shared = s.shared ∧ r.xb.update s.shared = s.shared ∧
        (Session core device settings [r.ca.succeeded, r.cb.succeeded] s.shared ∨
          Session core device settings [r.cb.succeeded, r.ca.succeeded] s.shared) := by
  intro hall
  obtain ⟨ls, s, hr, hx⟩ :=
    Sys.moves_exists (lines sampleCore 5) baudAndParity.onlyThese {} readBeforeWrites
      (fun ls s => (ls[9]?, ls[7]?, s.shared))
      (x := (some (.leave 0 ⟨5, none, .serialSetBaudrate 115200⟩ 0),
        some (.leave 1 ⟨5, none, .serialSetParity 1⟩ 0), { BaudRate := 115200 })) rfl
  obtain ⟨ha, hx⟩ := Prod.mk.inj hx
  obtain ⟨hb, hshared⟩ := Prod.mk.inj hx
  have hparity := (hall sampleCore 5 baudAndParity {} ls s hr (List.mem_of_getElem? ha)
    (List.mem_of_getElem? hb)).2.1
  rw [hshared] at hparity
  exact absurd (congrArg DCB.fParity hparity) (by decide)

end cpp_bindings_windows
