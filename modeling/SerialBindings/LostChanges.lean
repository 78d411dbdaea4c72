-- Any number of threads with the calls on the line of one device. The settings that a setter
-- writes may undo another setter. But the device never has settings that no sequence of the
-- calls gives: it has those of some of the setters, one after another, the last writer among them.
import SerialBindings.LineRaces

open programs

namespace cpp_bindings_windows

/-! ## The writers -/

/-- The call whose settings the device takes in a step. -/
def writer (device : HANDLE) (ls : List LineLabel) : LineLabel → Option LineRequest
  | .did t (.setCommState handle _) true => if handle = device then running ls t else none
  | _ => none

/-- The calls whose settings the device took, in that order. -/
def writers (device : HANDLE) (ls : List LineLabel) : List LineRequest :=
  (List.range ls.length).filterMap fun n => (ls[n]?).bind (writer device (ls.take n))

@[simp] theorem writers_nil (device : HANDLE) : writers device [] = [] := rfl

theorem writers_snoc (device : HANDLE) (ls : List LineLabel) (l : LineLabel) :
    writers device (ls ++ [l]) = writers device ls ++ (writer device ls l).toList := by
  have hbefore : ∀ n ∈ List.range ls.length,
      ((ls ++ [l])[n]?).bind (writer device ((ls ++ [l]).take n)) =
        (ls[n]?).bind (writer device (ls.take n)) := by
    intro n hn
    have hlt := List.mem_range.mp hn
    rw [List.getElem?_append_left hlt, List.take_append_of_le_length (Nat.le_of_lt hlt)]
  unfold writers
  rw [List.length_append, List.length_singleton, List.range_succ, List.filterMap_append,
    List.filterMap_congr hbefore]
  congr 1
  simp only [List.filterMap_cons, List.filterMap_nil, List.getElem?_concat_length,
    Option.bind_some, List.take_left']
  cases writer device ls l <;> rfl

/-- The settings are those of some of the written calls, one after another. -/
def Keeps (core : CppCore) (device : HANDLE) (settings₀ : DCB) (written : List LineRequest)
    (settings : DCB) : Prop :=
  ∃ kept : List LineRequest, kept.Sublist written ∧
    Session core device settings₀ (kept.map LineRequest.succeeded) settings

/-- The same, with the last writer among them. -/
def KeepsLast (core : CppCore) (device : HANDLE) (settings₀ : DCB) (written : List LineRequest)
    (settings : DCB) : Prop :=
  ∃ kept : List LineRequest, kept.Sublist written ∧ kept.getLast? = written.getLast? ∧
    Session core device settings₀ (kept.map LineRequest.succeeded) settings

variable {core : CppCore} {device : HANDLE} {settings₀ settings settings' : DCB}
  {written more : List LineRequest} {c : LineRequest} {x : Setter}

theorem KeepsLast.keeps (h : KeepsLast core device settings₀ written settings) :
    Keeps core device settings₀ written settings := by
  obtain ⟨kept, hsub, -, hsession⟩ := h
  exact ⟨kept, hsub, hsession⟩

theorem Keeps.append (h : Keeps core device settings₀ written settings) :
    Keeps core device settings₀ (written ++ more) settings := by
  obtain ⟨kept, hsub, hsession⟩ := h
  exact ⟨kept, hsub.trans (List.sublist_append_left _ _), hsession⟩

/-- A setter that writes what it makes of settings that it has read. -/
theorem Keeps.write (h : Keeps core device settings₀ written settings) (hpos : 0 < device)
    (hx : c.call.setter = some x) (hcheck : x.check = none) (hhandle : c.handle.toInt = device) :
    KeepsLast core device settings₀ (written ++ [c]) (x.update settings) := by
  obtain ⟨kept, hsub, hsession⟩ := h
  have hset : c.succeeded.call.setter ≠ none := by
    rw [show c.succeeded.call = c.call from rfl, hx]
    exact Option.some_ne_none _
  have hexec := LineCall.setter_succeeds core hpos hx hcheck hhandle settings
  refine ⟨kept ++ [c], hsub.append (List.Sublist.refl _), by simp, ?_⟩
  rw [List.map_append]
  exact .snoc hsession hset hexec

/-! ## The protocol of a call -/

/-- The actions that have nothing to do with the settings. -/
def Action.Preserves : Action → Prop
  | .getCommState _ => False
  | .setCommState .. => False
  | _ => True

theorem Action.Reports.preserves {e : Action} (h : e.Reports) : e.Preserves := by
  cases e <;> first | exact h.elim | trivial

/-- A call with what `GetCommState` has given for its handle so far. -/
structure Teller where
  racer : Racer
  answers : List (Option DCB) := []

namespace Teller

/-- A setter keeps to its protocol. Another call only reads the settings of its handle. -/
def allows (g : Teller) (e : Action) : Prop :=
  racing.allows g.racer e ∧ (g.racer.request.call.setter = none →
    e.Preserves ∨ e = .getCommState g.racer.request.handle.toInt)

/-- The answers after one action. -/
def after (g : Teller) (e : Action) (r : Answer e) : List (Option DCB) :=
  hears g.racer.request.handle.toInt g.answers e r

def next (g : Teller) (e : Action) (r : Answer e) : Option Teller :=
  (Racer.next g.racer e r).map fun racer => ⟨racer, g.after e r⟩

/-- A getter has asked once. It gives what it has read, or the error when there is nothing to
read. -/
def Tells (core : CppCore) (c : LineRequest) (g : Teller) (a : Int) : Prop :=
  ∀ read, c.call.getter = some read → 0 < c.handle.toInt →
    (∃ settings, g.answers = [some settings] ∧ g.racer.held = some settings ∧ a = read settings) ∨
      g.answers = [none] ∧ a = core.value .kGetStateError

end Teller

def storing : Protocol Action Answer Teller := ⟨Teller.allows, Teller.next⟩

theorem storing_next {g g' : Teller} {e : Action} {r : Answer e}
    (h : storing.next g e r = some g') :
    Racer.next g.racer e r = some g'.racer ∧ g'.answers = g.after e r := by
  obtain ⟨racer, hracer, rfl⟩ := Option.map_eq_some_iff.mp h
  exact ⟨hracer, rfl⟩

theorem Racer.next_request {g g' : Racer} {e : Action} {r : Answer e}
    (h : Racer.next g e r = some g') : g'.request = g.request := by
  unfold Racer.next at h
  split at h <;> cases h <;> rfl

theorem storing_of_racing {p : Api Int} {Q : Racer → Int → Prop} {g : Teller}
    (hx : g.racer.request.call.setter = some x) (h : Follows racing Q p g.racer) :
    Follows storing (fun g' a => Q g'.racer a) p g := by
  induction p generalizing g with
  | ret a => exact h
  | act e k ih =>
    refine ⟨⟨h.1, fun hnone => ?_⟩, fun r g' hn => ?_⟩
    · rw [hx] at hnone
      cases hnone
    · have hracer := (storing_next hn).1
      exact ih r (by rwa [Racer.next_request hracer]) (h.2 r _ hracer)

theorem storing_allows {g : Teller} {e : Action} (hnone : g.racer.request.call.setter = none)
    (he : e.Preserves ∨ e = .getCommState g.racer.request.handle.toInt) : storing.allows g e := by
  refine ⟨fun x hx => ?_, fun _ => he⟩
  rw [hnone] at hx
  cases hx

theorem storing_within {α : Type} {p : Api α} {V : α → Prop} (hp : Within Action.Preserves V p)
    {Q : Teller → α → Prop} {g : Teller} (hnone : g.racer.request.call.setter = none)
    (hQ : ∀ g a, V a → Q g a) : Follows storing Q p g := by
  induction p generalizing g with
  | ret a => exact hQ g a hp
  | act e k ih =>
    refine ⟨storing_allows hnone (Or.inl hp.1), fun r g' hn => ih r (hp.2 r) ?_⟩
    rwa [Racer.next_request (storing_next hn).1]

theorem storing_reports (e : Action) (he : e.Reports) : storing.Ignores e := by
  intro g
  obtain ⟨hallows, -⟩ := racing_reports e he g.racer
  refine ⟨⟨hallows, fun _ => Or.inl he.preserves⟩, fun r g' hn => ?_⟩
  cases e <;> first | exact he.elim | (cases hn; rfl)

theorem getLineSetting_tells (core : CppCore) {c : LineRequest} {read : DCB → Int}
    (hread : c.call.getter = some read) (hnone : c.call.setter = none) :
    Follows storing (Teller.Tells core c) (getLineSetting core c.handle c.callback read)
      { racer := { request := c } } := by
  unfold getLineSetting withNativeHandle
  refine follows_within_seq (validateWin32Handle_within core c.callback c.handle) storing_reports
    fun r hr => ?_
  cases r with
  | error status => exact fun _ _ hpos => absurd hr.2 (Int.not_le.mpr hpos)
  | ok native_handle =>
    obtain ⟨rfl, -⟩ := hr
    refine ⟨storing_allows hnone (Or.inr rfl), fun answer g1 h1 => ?_⟩
    obtain ⟨hracer, hanswers⟩ := storing_next h1
    simp only [Teller.after, hears, if_true, List.nil_append] at hanswers
    cases answer with
    | none =>
      refine follows_of_within (failWin32_within core c.callback _) storing_reports ?_
      exact fun a ha _ _ _ => Or.inr ⟨hanswers, ha⟩
    | some settings =>
      injection hracer with hracer
      intro read' hread' _
      rw [hread] at hread'
      cases hread'
      exact Or.inl ⟨settings, hanswers, by rw [← hracer], rfl⟩

theorem LineCall.setter_gets_nothing {call : LineCall} (h : call.setter = some x) :
    call.getter = none := by
  cases call <;> first | rfl | cases h

theorem program_stores (core : CppCore) (c : LineRequest) :
    Follows storing (Teller.Tells core c) (c.call.program core c.handle c.callback)
      { racer := { request := c } } := by
  cases hx : c.call.setter with
  | some x =>
    refine follows_mono (storing_of_racing hx (program_races core c)) fun g a _ read hread => ?_
    rw [LineCall.setter_gets_nothing hx] at hread
    cases hread
  | none =>
    cases hread : c.call.getter with
    | some read =>
      rw [LineCall.program_getter hread]
      exact getLineSetting_tells core hread hx
    | none =>
      have hother : Within Action.Preserves (fun _ => True)
          (c.call.program core c.handle c.callback) := by
        have hreports : ∀ e : Action, e.Reports → e.Preserves := fun _ he => he.preserves
        cases hcall : c.call with
        | serialGetCts | serialGetDsr | serialGetDcd | serialGetRi =>
          exact modemLine_acts hreports (fun _ => trivial) _
        | serialSetDtr | serialSetRts =>
          exact escapeLine_acts hreports (fun _ _ => trivial) _ _
        | serialSendBreak duration_ms =>
          exact serialSendBreak_acts hreports (fun _ => trivial) (fun _ => trivial)
            (fun _ => trivial) duration_ms
        | serialSetBaudrate | serialSetDataBits | serialSetParity | serialSetStopBits |
            serialSetFlowControl =>
          rw [hcall] at hx
          cases hx
        | serialGetBaudrate | serialGetDataBits | serialGetParity | serialGetStopBits |
            serialGetFlowControl =>
          rw [hcall] at hread
          cases hread
      refine storing_within hother hx fun g a _ read hsome => ?_
      rw [hread] at hsome
      cases hsome

/-! ## What the getters have heard -/

/-- What `GetCommState` gave for the device in the last call of each thread. -/
def heard (device : HANDLE) : List LineLabel → ThreadId → List (Option DCB) :=
  List.foldl (fun f l => match l with
    | .enter t _ => Function.update f t []
    | .did t e answer => Function.update f t (hears device (f t) e answer)
    | .leave _ _ _ => f) (fun _ => [])

theorem heard_snoc (device : HANDLE) (ls : List LineLabel) (l : LineLabel) :
    heard device (ls ++ [l]) = match l with
      | .enter t _ => Function.update (heard device ls) t []
      | .did t e answer =>
        Function.update (heard device ls) t (hears device (heard device ls t) e answer)
      | .leave _ _ _ => heard device ls := by
  unfold heard
  rw [List.foldl_append]
  rfl

@[simp] theorem heard_enter (device : HANDLE) (ls : List LineLabel) (t : ThreadId)
    (c : LineRequest) :
    heard device (ls ++ [.enter t c]) = Function.update (heard device ls) t [] := heard_snoc _ _ _

@[simp] theorem heard_did (device : HANDLE) (ls : List LineLabel) (t : ThreadId) (e : Action)
    (answer : Answer e) :
    heard device (ls ++ [.did t e answer]) =
      Function.update (heard device ls) t (hears device (heard device ls t) e answer) :=
  heard_snoc _ _ _

@[simp] theorem heard_leave (device : HANDLE) (ls : List LineLabel) (t : ThreadId)
    (c : LineRequest) (a : Int) :
    heard device (ls ++ [.leave t c a]) = heard device ls := heard_snoc _ _ _

/-- What a getter returned: the settings are those of some of the setters, and it heard them; or
it heard that `GetCommState` failed. -/
def Heard (core : CppCore) (device : HANDLE) (settings₀ : DCB) (ls : List LineLabel) (t : ThreadId)
    (read : DCB → Int) (a : Int) : Prop :=
  (∃ settings, heard device ls t = [some settings] ∧
      Keeps core device settings₀ (writers device ls) settings ∧ a = read settings) ∨
    heard device ls t = [none] ∧ a = core.value .kGetStateError

/-! ## The invariant -/

/-- The device has what some of the writers give, and so has each thread that has read. -/
structure Stored (core : CppCore) (device : HANDLE) (settings₀ : DCB) (ls : List LineLabel)
    (gs : ThreadId → Option (LineRequest × Teller)) (settings : DCB) : Prop where
  shared : KeepsLast core device settings₀ (writers device ls) settings
  inside : ∀ t c g, gs t = some (c, g) → running ls t = some c ∧ g.racer.request = c ∧
    (c.handle.toInt = device → g.answers = heard device ls t ∧ ∀ read,
      g.racer.held = some read → Keeps core device settings₀ (writers device ls) read)

section Steps

variable {ls : List LineLabel} {gs : ThreadId → Option (LineRequest × Teller)} {t : ThreadId}
  {g : Teller} {racer : Racer}

/-- What another thread has is still there after a step. -/
theorem Stored.others (h : Stored core device settings₀ ls gs settings) {l : LineLabel}
    (hrunning : ∀ u, u ≠ t → running (ls ++ [l]) u = running ls u)
    (hheard : ∀ u, u ≠ t → heard device (ls ++ [l]) u = heard device ls u) (u : ThreadId)
    (c' : LineRequest) (g' : Teller) (hu : u ≠ t) (hg : gs u = some (c', g')) :
    running (ls ++ [l]) u = some c' ∧ g'.racer.request = c' ∧
      (c'.handle.toInt = device → g'.answers = heard device (ls ++ [l]) u ∧ ∀ read,
        g'.racer.held = some read →
          Keeps core device settings₀ (writers device (ls ++ [l])) read) := by
  obtain ⟨hrun, hrequest, hown⟩ := h.inside u c' g' hg
  refine ⟨(hrunning u hu).trans hrun, hrequest, fun hhandle => ?_⟩
  obtain ⟨hanswers, hheld⟩ := hown hhandle
  refine ⟨hanswers.trans (hheard u hu).symm, fun read hread => ?_⟩
  rw [writers_snoc]
  exact (hheld read hread).append

/-- The rule for an action of a thread. -/
theorem Stored.did {e : Action} {answer : Answer e}
    (h : Stored core device settings₀ ls gs settings) (hg : gs t = some (c, g))
    (hrequest : racer.request = g.racer.request)
    (hheld : ∀ read, racer.held = some read → c.handle.toInt = device →
      g.racer.held = some read ∨ Keeps core device settings₀ (writers device ls) read)
    (hshared : KeepsLast core device settings₀ (writers device (ls ++ [.did t e answer]))
      settings') :
    Stored core device settings₀ (ls ++ [.did t e answer])
      (Function.update gs t (some (c, ⟨racer, g.after e answer⟩))) settings' := by
  obtain ⟨hrun, hrequest', hown⟩ := h.inside t c g hg
  have hrunning : running (ls ++ [.did t e answer]) = running ls := running_did ls t e answer
  refine ⟨hshared, forall_inside (h.others (fun u _ => by rw [hrunning])
    fun u hu => by rw [heard_did, Function.update_of_ne hu]) ?_⟩
  refine ⟨by rw [hrunning]; exact hrun, hrequest.trans hrequest', fun hhandle => ?_⟩
  obtain ⟨hanswers, hbefore⟩ := hown hhandle
  refine ⟨?_, fun read hread => ?_⟩
  · rw [heard_did, Function.update_self, ← hanswers, Teller.after, hrequest', hhandle]
  · rw [writers_snoc]
    rcases hheld read hread hhandle with hold | hnew
    · exact (hbefore read hold).append
    · exact hnew.append

/-- An action that writes nothing. -/
theorem Stored.shared_did {e : Action} {answer : Answer e}
    (h : Stored core device settings₀ ls gs settings)
    (hnone : writer device ls (.did t e answer) = none) :
    KeepsLast core device settings₀ (writers device (ls ++ [.did t e answer])) settings := by
  rw [writers_snoc, hnone, Option.toList_none, List.append_nil]
  exact h.shared

theorem Stored.perform {e : Action} {answer : Answer e} (hpos : 0 < device)
    (h : Stored core device settings₀ ls gs settings) (hg : gs t = some (c, g))
    (hallows : storing.allows g e) (hw : commNext device settings e answer = some settings') :
    ∃ g', storing.next g e answer = some g' ∧
      Stored core device settings₀ (ls ++ [.did t e answer])
        (Function.update gs t (some (c, g'))) settings' := by
  obtain ⟨hrun, hrequest, hown⟩ := h.inside t c g hg
  -- the action leaves what the call has read, and the device
  have hsame : writer device ls (.did t e answer) = none →
      Stored core device settings₀ (ls ++ [.did t e answer])
        (Function.update gs t (some (c, ⟨g.racer, g.after e answer⟩))) settings := fun hnone =>
    h.did hg rfl (fun _ hread _ => Or.inl hread) (h.shared_did hnone)
  cases e with
  | getCommState handle =>
    cases answer with
    | none =>
      cases hw
      exact ⟨_, rfl, hsame rfl⟩
    | some read =>
      refine ⟨_, rfl, ?_⟩
      simp only [commNext] at hw
      split at hw
      · cases hw
      rename_i hequal
      cases hw
      have hhandle' : handle = c.handle.toInt := by
        rw [← hrequest]
        cases hx : g.racer.request.call.setter with
        | some x => exact (hallows.1 x hx).1
        | none =>
          rcases hallows.2 hx with hno | hget
          · exact hno.elim
          · injection hget
      refine h.did hg rfl (fun read' hread hhandle => Or.inr ?_) (h.shared_did rfl)
      cases hread
      have hread : read = settings := by
        by_contra hne
        exact hequal ⟨hhandle'.trans hhandle, hne⟩
      rw [hread]
      exact h.shared.keeps
  | setCommState handle written =>
    cases answer
    · have hunchanged : settings' = settings := by
        simp only [commNext, Bool.false_eq_true, and_false, if_false] at hw
        cases hw
        rfl
      subst hunchanged
      exact ⟨_, rfl, hsame rfl⟩
    · refine ⟨_, rfl, ?_⟩
      refine h.did hg rfl (fun _ hread _ => Or.inl hread) ?_
      simp only [commNext, and_true] at hw
      rw [writers_snoc]
      by_cases hhandle : handle = device
      · rw [if_pos hhandle] at hw
        cases hw
        have hwriter :
            writer device ls (.did t (.setCommState handle settings') true) = some c := by
          simp only [writer, if_pos hhandle, hrun]
        rw [hwriter, Option.toList_some]
        -- only a setter may write, and it writes what it makes of what it has read
        cases hx : c.call.setter with
        | none =>
          rw [← hrequest] at hx
          rcases hallows.2 hx with hno | hget
          · exact hno.elim
          · cases hget
        | some x =>
          rw [← hrequest] at hx
          obtain ⟨rfl, -, hcheck, read, hread, rfl⟩ := hallows.1 x hx
          rw [hrequest] at hx hhandle
          exact ((hown hhandle).2 read hread).write hpos hx hcheck hhandle
      · rw [if_neg hhandle] at hw
        cases hw
        have hwriter : writer device ls (.did t (.setCommState handle written) true) = none := by
          simp only [writer, if_neg hhandle]
        rw [hwriter, Option.toList_none, List.append_nil]
        exact h.shared
  | _ =>
    cases hw
    exact ⟨_, rfl, hsame rfl⟩

theorem Stored.enter (h : Stored core device settings₀ ls gs settings) :
    Stored core device settings₀ (ls ++ [.enter t c])
      (Function.update gs t (some (c, { racer := { request := c } }))) settings := by
  have hsame : writers device (ls ++ [.enter t c]) = writers device ls := by
    rw [writers_snoc]
    exact List.append_nil _
  refine ⟨by rw [hsame]; exact h.shared,
    forall_inside (h.others (fun u hu => ?_) fun u hu => ?_) ?_⟩
  · rw [running_enter, Function.update_of_ne hu]
  · rw [heard_enter, Function.update_of_ne hu]
  · refine ⟨by rw [running_enter, Function.update_self], rfl, fun _ => ?_⟩
    refine ⟨by rw [heard_enter, Function.update_self], fun read hread => ?_⟩
    cases hread

theorem Stored.leave {a : Int} (h : Stored core device settings₀ ls gs settings) :
    Stored core device settings₀ (ls ++ [.leave t c a]) (Function.update gs t none) settings := by
  have hsame : writers device (ls ++ [.leave t c a]) = writers device ls := by
    rw [writers_snoc]
    exact List.append_nil _
  refine ⟨by rw [hsame]; exact h.shared, forall_update (h.others (fun u hu => ?_) fun u _ => ?_) ?_⟩
  · rw [running_leave, Function.update_of_ne hu]
  · rw [heard_leave]
  · rintro c' g' hnone
    cases hnone

/-- What a getter of the device returns, when its call has ended. -/
theorem Stored.heard {a : Int} {read : DCB → Int} (hpos : 0 < device)
    (h : Stored core device settings₀ ls gs settings) (hg : gs t = some (c, g))
    (htells : g.Tells core c a) (hread : c.call.getter = some read)
    (hhandle : c.handle.toInt = device) : Heard core device settings₀ ls t read a := by
  obtain ⟨-, -, hown⟩ := h.inside t c g hg
  obtain ⟨hanswers, hheld⟩ := hown hhandle
  rcases htells read hread (hhandle ▸ hpos) with ⟨settings', hgave, hread', ha⟩ | ⟨hfailed, ha⟩
  · exact Or.inl ⟨settings', hanswers ▸ hgave, hheld settings' hread', ha⟩
  · exact Or.inr ⟨hanswers ▸ hfailed, ha⟩

end Steps

/-- The invariant holds in every interleaving. -/
def storingOutline (core : CppCore) {device : HANDLE} (hpos : 0 < device) (settings₀ : DCB) :
    Outline (lines core device) always settings₀ storing where
  start c := { racer := { request := c } }
  post c g a := g.Tells core c a
  inv := Stored core device settings₀
  follows := program_stores core
  init :=
    { shared := ⟨[], .refl _, rfl, .nil⟩
      inside := fun t c g hg => by cases hg }
  enter h _ hw _ := by
    cases hw
    exact h.enter
  did h hg hallows hw _ := h.perform hpos hg hallows hw
  leave h _ _ hw _ := by
    cases hw
    exact h.leave

/-- Any number of threads, with any calls on the line of any handles, in every interleaving. The
settings of the device are always those that some of the setters give, one after another, in the
order in which the device took their settings, and the last one that it took is among them. A
getter asks `GetCommState` once, and returns what it reads out of such settings when that gave
them, and the error when that failed. -/
theorem the_settings_are_those_of_some_setters (core : CppCore) {device : HANDLE}
    (hpos : 0 < device) {settings₀ : DCB} {ls : List LineLabel}
    {s : Sys ThreadId Action Answer LineRequest Int DCB}
    (h : Runs (lines core device) always settings₀ ls s) :
    KeepsLast core device settings₀ (writers device ls) s.shared ∧
    ∀ l1 l2 t c a read, ls = l1 ++ .leave t c a :: l2 → c.call.getter = some read →
      c.handle.toInt = device → Heard core device settings₀ l1 t read a := by
  obtain ⟨gs, hstored, -⟩ := (storingOutline core hpos settings₀).runs h
  refine ⟨hstored.shared, fun l1 l2 t c a read hl hread hhandle => ?_⟩
  obtain ⟨s1, s2, hr, -, hstep⟩ := h.split hl
  obtain ⟨gs1, hstored1, hm1⟩ := (storingOutline core hpos settings₀).runs hr
  cases hstep with
  | leave hthread _ =>
    obtain ⟨g, hg, htells⟩ := Outline.some_of_some hm1 hthread
    exact hstored1.heard hpos hg htells hread hhandle

/-- Both setters have read before one of them writes, and thread 2 gets the parity. -/
def readBeforeWritesThenGet : List LineMove :=
  readBeforeWrites ++ [.enter 2 ⟨5, none, .serialGetParity⟩] ++ LineMove.acts 2 2 ++ [.leave 2]

/-- The device has the baud rate only, which is what the last writer gives alone, and the parity
that thread 2 gets is 0. -/
theorem the_last_writer_is_kept :
    ∃ l1 s, Runs (lines sampleCore 5) always {} (l1 ++ [.leave 2 ⟨5, none, .serialGetParity⟩ 0]) s ∧
      writers 5 l1 = [baudAndParity.cb, baudAndParity.ca] ∧ s.shared = { BaudRate := 115200 } ∧
      KeepsLast sampleCore 5 {}
        (writers 5 (l1 ++ [.leave 2 ⟨5, none, .serialGetParity⟩ 0])) s.shared ∧
      ∀ read, LineCall.serialGetParity.getter = some read → Heard sampleCore 5 {} l1 2 read 0 := by
  obtain ⟨ls, s, hr, hx⟩ :=
    Sys.moves_exists (lines sampleCore 5) always {} readBeforeWritesThenGet
      (fun ls s => (ls.getLast?, writers 5 ls.dropLast, s.shared))
      (x := (some (.leave 2 ⟨5, none, .serialGetParity⟩ 0),
        [baudAndParity.cb, baudAndParity.ca], { BaudRate := 115200 })) rfl
  obtain ⟨hlast, hx⟩ := Prod.mk.inj hx
  obtain ⟨hwriters, hshared⟩ := Prod.mk.inj hx
  obtain ⟨l1, rfl⟩ := List.getLast?_eq_some_iff.mp hlast
  rw [List.dropLast_concat] at hwriters
  obtain ⟨hkept, hgets⟩ := the_settings_are_those_of_some_setters sampleCore (by decide) hr
  exact ⟨l1, s, hr, hwriters, hshared, hkept,
    fun read hread => hgets l1 [] 2 _ 0 read rfl hread rfl⟩

end cpp_bindings_windows
