-- Breaks on the line of one device, by any number of threads. The line is in a break only while
-- a call of `serialSendBreak` has to end it, or when Windows has refused to end it.
import SerialBindings.LineRaces

open programs

namespace cpp_bindings_windows

/-! ## The threads on one device -/

/-- The line of the device after an action: whether it is in a break. -/
def breakNext (device : HANDLE) (broken : Bool) : (action : Action) → Answer action → Bool
  | .setCommBreak handle, true => if handle = device then true else broken
  | .clearCommBreak handle, true => if handle = device then false else broken
  | _, _ => broken

/-- Threads that make calls on the line of one device, which may be in a break. -/
def breakable (core : CppCore) (device : HANDLE) :
    Machine ThreadId Action Answer LineRequest Int Bool where
  body c := c.call.program core c.handle c.callback
  enter _ broken _ := some broken
  perform _ broken e r := some (breakNext device broken e r)
  leave _ broken _ _ := some broken

/-! ## The protocol of a call -/

/-- The handle whose line the call has to bring out of its break. -/
abbrev Breaker := Option HANDLE

namespace Breaker

def allows (g : Breaker) : Action → Prop
  | .setCommBreak _ => g = none
  | .clearCommBreak handle => g = some handle
  | _ => True

def next (g : Breaker) : (action : Action) → Answer action → Option Breaker
  | .setCommBreak handle, true => some (some handle)
  | .clearCommBreak _, _ => some none
  | _, _ => some g

end Breaker

def breaking : Protocol Action Answer Breaker := ⟨Breaker.allows, Breaker.next⟩

/-- The actions that have nothing to do with a break. -/
def Action.Whole : Action → Prop
  | .setCommBreak _ => False
  | .clearCommBreak _ => False
  | _ => True

theorem Action.Reports.whole {e : Action} (h : e.Reports) : e.Whole := by
  cases e <;> first | exact h.elim | trivial

theorem whole_ignored {e : Action} (he : e.Whole) : breaking.Ignores e := by
  intro g
  cases e with
  | setCommBreak | clearCommBreak => exact he.elim
  | _ => exact ⟨trivial, fun r g' hn => by cases hn; rfl⟩

theorem serialSendBreak_breaks (core : CppCore) (handle : Int64) (duration_ms : Int32)
    (callback : Callback) :
    Follows breaking (fun g _ => g = none) (serialSendBreak core handle duration_ms callback)
      none := by
  have hreports : ∀ e : Action, e.Reports → e.Whole := fun _ he => he.whole
  have hfail : Follows breaking (fun g _ => g = none)
      (failWin32 core callback .kSendBreakError) none :=
    follows_of_within (failWin32_acts hreports _) (fun _ he => whole_ignored he) fun _ _ => rfl
  unfold serialSendBreak withNativeHandle
  refine follows_within_seq (within_mono (validateWin32Handle_within core callback handle) hreports
    fun _ hr => hr) (fun _ he => whole_ignored he) fun r _ => ?_
  cases r with
  | error status => rfl
  | ok native_handle =>
    dsimp only
    split
    · exact follows_of_within (failMsg_acts hreports _ _) (fun _ he => whole_ignored he)
        fun _ _ => rfl
    · refine ⟨rfl, fun set g1 h1 => ?_⟩
      cases set
      · cases h1
        exact hfail
      · cases h1
        refine ⟨trivial, fun _ g2 h2 => ?_⟩
        cases h2
        refine ⟨rfl, fun cleared g3 h3 => ?_⟩
        cases h3
        cases cleared
        · exact hfail
        · rfl

/-- Whatever the call is, it brings the line out of its break before it returns. -/
theorem LineCall.program_breaks (core : CppCore) (handle : Int64) (callback : Callback)
    (call : LineCall) :
    Follows breaking (fun g _ => g = none) (call.program core handle callback) none := by
  have hreports : ∀ e : Action, e.Reports → e.Whole := fun _ he => he.whole
  have hwhole : ∀ {p : Api Int}, Within Action.Whole (fun _ => True) p →
      Follows breaking (fun g _ => g = none) p none := fun h =>
    follows_of_within h (fun _ he => whole_ignored he) fun _ _ => rfl
  cases call with
  | serialSetBaudrate | serialSetDataBits | serialSetParity | serialSetStopBits |
      serialSetFlowControl =>
    exact hwhole (setLineSetting_acts hreports (fun _ => trivial) (fun _ _ => trivial) _ _ _)
  | serialGetBaudrate | serialGetDataBits | serialGetParity | serialGetStopBits |
      serialGetFlowControl =>
    exact hwhole (getLineSetting_acts hreports (fun _ => trivial) _)
  | serialGetCts | serialGetDsr | serialGetDcd | serialGetRi =>
    exact hwhole (modemLine_acts hreports (fun _ => trivial) _)
  | serialSetDtr | serialSetRts =>
    exact hwhole (escapeLine_acts hreports (fun _ _ => trivial) _ _)
  | serialSendBreak duration_ms => exact serialSendBreak_breaks core handle duration_ms callback

/-! ## The invariant -/

/-- The thread has set the break of this line in its call, and not tried to clear it since. -/
def Breaks (t : ThreadId) (handle : HANDLE) (ls : List LineLabel) : Prop :=
  ∃ l1 l2, ls = l1 ++ .did t (.setCommBreak handle) true :: l2 ∧ Stays t l2 ∧
    ∀ r, .did t (.clearCommBreak handle) r ∉ l2

/-- Windows has refused to clear the break of this line, and it was not cleared since. -/
def Refuses (handle : HANDLE) (ls : List LineLabel) : Prop :=
  ∃ t l1 l2, ls = l1 ++ .did t (.clearCommBreak handle) false :: l2 ∧
    ∀ u, .did u (.clearCommBreak handle) true ∉ l2

variable {device handle : HANDLE} {ls : List LineLabel} {l : LineLabel} {t : ThreadId}

theorem Breaks.snoc (h : Breaks t handle ls) (hstays : Stays t [l])
    (hl : ∀ r, l ≠ .did t (.clearCommBreak handle) r) : Breaks t handle (ls ++ [l]) := by
  obtain ⟨l1, l2, rfl, hall, hnone⟩ := h
  refine ⟨l1, l2 ++ [l], by simp, fun l' hm => ?_, fun r hm => ?_⟩
  · rcases List.mem_append.mp hm with hm | hm
    · exact hall l' hm
    · exact hstays l' hm
  · rcases List.mem_append.mp hm with hm | hm
    · exact hnone r hm
    · exact hl r (List.mem_singleton.mp hm).symm

theorem Refuses.snoc (h : Refuses handle ls)
    (hl : ∀ u, l ≠ .did u (.clearCommBreak handle) true) : Refuses handle (ls ++ [l]) := by
  obtain ⟨t, l1, l2, rfl, hnone⟩ := h
  refine ⟨t, l1, l2 ++ [l], by simp, fun u hm => ?_⟩
  rcases List.mem_append.mp hm with hm | hm
  · exact hnone u hm
  · exact hl u (List.mem_singleton.mp hm).symm

/-- The line that a thread has to bring out of its break. -/
def breaks (gs : ThreadId → Option (LineRequest × Breaker)) (t : ThreadId) : Option HANDLE :=
  (gs t).bind (·.2)

/-- The line is in a break for a thread that has to clear it, or because Windows refused. -/
structure Broken (device : HANDLE) (ls : List LineLabel)
    (gs : ThreadId → Option (LineRequest × Breaker)) (broken : Bool) : Prop where
  reason : broken = true → (∃ t, breaks gs t = some device) ∨ Refuses device ls
  inside : ∀ t handle, breaks gs t = some handle → Breaks t handle ls

section Steps

variable {gs : ThreadId → Option (LineRequest × Breaker)} {broken : Bool} {c : LineRequest}
  {g : Breaker} {x : Option (LineRequest × Breaker)}

theorem breaks_self : breaks (Function.update gs t x) t = x.bind (·.2) := by
  unfold breaks
  rw [Function.update_self]

theorem breaks_other {u : ThreadId} (hu : u ≠ t) :
    breaks (Function.update gs t x) u = breaks gs u := by
  unfold breaks
  rw [Function.update_of_ne hu]

theorem breaks_same (hx : x.bind (·.2) = breaks gs t) :
    breaks (Function.update gs t x) = breaks gs := by
  funext u
  by_cases hu : u = t
  · rw [hu, breaks_self, hx]
  · exact breaks_other hu

/-- A step that leaves the breaks alone. -/
theorem Broken.same (h : Broken device ls gs broken) (hx : x.bind (·.2) = breaks gs t)
    (hstays : ∀ u, breaks gs u ≠ none → Stays u [l])
    (hl : ∀ u handle r, l ≠ .did u (.clearCommBreak handle) r) :
    Broken device (ls ++ [l]) (Function.update gs t x) broken := by
  refine ⟨fun hb => ?_, fun u handle hu => ?_⟩
  · rw [breaks_same hx]
    exact (h.reason hb).imp_right fun hrefuses => hrefuses.snoc fun u => hl u device true
  · rw [breaks_same hx] at hu
    exact (h.inside u handle hu).snoc (hstays u (by simp [hu])) fun r => hl u handle r

theorem stays_did {e : Action} {r : Answer e} (u : ThreadId) :
    Stays u [(.did t e r : LineLabel)] := by
  simp [Stays]

/-- A thread sets the break of a line. -/
theorem Broken.set (h : Broken device ls gs broken) (hg : gs t = some (c, none)) :
    Broken device (ls ++ [.did t (.setCommBreak handle) true])
      (Function.update gs t (some (c, some handle)))
      (if handle = device then true else broken) := by
  have hnone : breaks gs t = none := by simp [breaks, hg]
  refine ⟨fun hb => ?_, fun u handle' hu => ?_⟩
  · by_cases hhandle : handle = device
    · exact Or.inl ⟨t, by rw [breaks_self, hhandle]; rfl⟩
    · rw [if_neg hhandle] at hb
      rcases h.reason hb with ⟨u, hu⟩ | hrefuses
      · have hut : u ≠ t := by
          rintro rfl
          rw [hnone] at hu
          cases hu
        exact Or.inl ⟨u, by rw [breaks_other hut, hu]⟩
      · exact Or.inr (hrefuses.snoc (by simp))
  · by_cases hut : u = t
    · subst hut
      rw [breaks_self] at hu
      cases hu
      exact ⟨ls, [], rfl, by simp [Stays], by simp⟩
    · rw [breaks_other hut] at hu
      exact (h.inside u handle' hu).snoc (stays_did u) (by simp)

/-- The thread that has set the break of a line tries to clear it. -/
theorem Broken.clear {cleared : Bool} (h : Broken device ls gs broken)
    (hg : gs t = some (c, some handle)) :
    Broken device (ls ++ [.did t (.clearCommBreak handle) cleared])
      (Function.update gs t (some (c, none)))
      (breakNext device broken (.clearCommBreak handle) cleared) := by
  have hholds : breaks gs t = some handle := by simp [breaks, hg]
  refine ⟨fun hb => ?_, fun u handle' hu => ?_⟩
  · have hbefore : broken = true ∧ (cleared = true → handle ≠ device) := by
      cases cleared
      · exact ⟨hb, by simp⟩
      · simp only [breakNext] at hb
        split at hb
        · cases hb
        · rename_i hhandle
          exact ⟨hb, fun _ => hhandle⟩
    obtain ⟨hb, hother⟩ := hbefore
    rcases h.reason hb with ⟨u, hu⟩ | hrefuses
    · by_cases hut : u = t
      · -- the thread that has to clear the break is this one, and Windows refuses
        rw [hut, hholds] at hu
        have hhandle : handle = device := Option.some.inj hu
        have hcleared : cleared = false := by
          cases cleared
          · rfl
          · exact absurd hhandle (hother rfl)
        subst hhandle hcleared
        exact Or.inr ⟨t, ls, [], rfl, by simp⟩
      · exact Or.inl ⟨u, by rw [breaks_other hut, hu]⟩
    · refine Or.inr (hrefuses.snoc fun u hl => ?_)
      cases hl
      exact hother rfl rfl
  · have hut : u ≠ t := by
      rintro rfl
      rw [breaks_self] at hu
      cases hu
    rw [breaks_other hut] at hu
    exact (h.inside u handle' hu).snoc (stays_did u) (by simp [Ne.symm hut])

theorem Broken.perform {e : Action} {r : Answer e} (h : Broken device ls gs broken)
    (hg : gs t = some (c, g)) (hallows : breaking.allows g e) :
    ∃ g', breaking.next g e r = some g' ∧
      Broken device (ls ++ [.did t e r]) (Function.update gs t (some (c, g')))
        (breakNext device broken e r) := by
  have hkept : (some (c, g) : Option (LineRequest × Breaker)).bind (·.2) = breaks gs t := by
    simp [breaks, hg]
  cases e with
  | setCommBreak handle =>
    cases r
    · exact ⟨g, rfl, h.same hkept (fun u _ => stays_did u) (by simp)⟩
    · have hnone : g = none := hallows
      rw [hnone] at hg
      exact ⟨_, rfl, h.set hg⟩
  | clearCommBreak handle =>
    have hsome : g = some handle := hallows
    rw [hsome] at hg
    exact ⟨_, rfl, h.clear hg⟩
  | _ => exact ⟨g, rfl, h.same hkept (fun u _ => stays_did u) (by simp)⟩

/-- A thread that has a break to clear is inside a call. -/
theorem stays_of_breaks {u : ThreadId} (hu : u ≠ t) (hl : (∃ c, l = .enter t c) ∨
    ∃ c a, l = .leave t c a) : Stays u [l] := by
  rcases hl with ⟨c, rfl⟩ | ⟨c, a, rfl⟩ <;> simp [Stays, Ne.symm hu]

end Steps

/-- The invariant holds in every interleaving. -/
def breakOutline (core : CppCore) (device : HANDLE) :
    Outline (breakable core device) always false breaking where
  start _ := none
  post _ g _ := g = none
  inv := Broken device
  follows c := LineCall.program_breaks core c.handle c.callback c.call
  init := ⟨by simp, by simp [breaks]⟩
  enter {_ gs _ t _ _} h hg hw _ := by
    cases hw
    have hnone : breaks gs t = none := by simp [breaks, hg]
    refine h.same (by rw [hnone]; rfl) (fun u hu => ?_) (by simp)
    exact stays_of_breaks (by rintro rfl; exact hu hnone) (Or.inl ⟨_, rfl⟩)
  did h hg hallows hw _ := by
    cases hw
    exact h.perform hg hallows
  leave {_ gs _ t _ _ _ _} h hg hpost hw _ := by
    cases hw
    have hnone : breaks gs t = none := by simp [breaks, hg, hpost]
    refine h.same (by rw [hnone]; rfl) (fun u hu => ?_) (by simp)
    exact stays_of_breaks (by rintro rfl; exact hu hnone) (Or.inr ⟨_, _, rfl⟩)

/-- Any number of threads, with any calls on the line of any handles, in every interleaving. When
the line of a device is in a break, a thread has set it in the call that it is inside, and has
still to clear it, or Windows has refused to clear it and no call has cleared it since. -/
theorem a_break_does_not_outlive_its_call (core : CppCore) (device : HANDLE)
    {ls : List LineLabel} {s : Sys ThreadId Action Answer LineRequest Int Bool}
    (h : Runs (breakable core device) always false ls s) (hbroken : s.shared = true) :
    (∃ t, s.threads t ≠ none ∧ Breaks t device ls) ∨ Refuses device ls := by
  obtain ⟨gs, hi, hm⟩ := (breakOutline core device).runs h
  refine (hi.reason hbroken).imp_left ?_
  rintro ⟨t, ht⟩
  refine ⟨t, ?_, hi.inside t device ht⟩
  obtain ⟨⟨c, g⟩, hg, -⟩ := Option.bind_eq_some_iff.mp ht
  obtain ⟨p, hp, -⟩ := Outline.some_thread hm hg
  simp [hp]

/-- Thread 0 has set the break and sleeps. -/
def sleepInBreak : List (Move ThreadId Action Answer LineRequest Bool) :=
  [.enter 0 ⟨5, none, .serialSendBreak 100⟩] ++
    List.replicate 2 (.act 0 fun _ _ e => idleAnswer e)

theorem a_break_is_on_while_its_call_sleeps :
    ∃ ls s, Runs (breakable sampleCore 5) always false ls s ∧ s.shared = true ∧
      ((∃ t, s.threads t ≠ none ∧ Breaks t 5 ls) ∨ Refuses 5 ls) := by
  obtain ⟨ls, s, hr, hshared⟩ :=
    Sys.moves_exists (breakable sampleCore 5) always false sleepInBreak
      (fun _ s => s.shared) (x := true) rfl
  exact ⟨ls, s, hr, hshared, a_break_does_not_outlive_its_call sampleCore 5 hr hshared⟩

end cpp_bindings_windows
