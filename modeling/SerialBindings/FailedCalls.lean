-- A call of `serialSetEventCallback` that fails changes nothing: its steps leave
-- the installed listener and every other thread alone, and nothing is left of the
-- replacement that it made, whatever arrives for it in the meantime.
import SerialBindings.Retirement

open programs

namespace cpp_bindings_windows

/-! ## The `try` block of a call -/

/-- What the steps of a call tell of its `try` block: the replacements that it made, whether an
exception ended it, and whether it was passed. -/
structure Attempt where
  made : List ListenerId := []
  failed : Bool := false
  passed : Bool := false

def Attempt.note (attempt : Attempt) : News → Attempt
  | .made l => { attempt with made := attempt.made ++ [l] }
  | .failed => { attempt with failed := true }
  | .passed => { attempt with passed := true }
  | _ => attempt

/-- The last attempt of the thread. -/
def attempt (t : Thread) : List ModuleLabel → Attempt :=
  List.foldl (fun attempt label => match label with
    | .enter u _ => if u = t then {} else attempt
    | .did u e r => if u = t then attempt.note (newsOf e r) else attempt
    | .leave _ _ _ => attempt) {}

section Attempts

variable {t u : Thread} {ls : List ModuleLabel}

theorem attempt_snoc (t : Thread) (ls : List ModuleLabel) (label : ModuleLabel) :
    attempt t (ls ++ [label]) = match label with
      | .enter u _ => if u = t then {} else attempt t ls
      | .did u e r => if u = t then (attempt t ls).note (newsOf e r) else attempt t ls
      | .leave _ _ _ => attempt t ls := by
  unfold attempt
  rw [List.foldl_append]
  rfl

@[simp] theorem attempt_enter (c : ModuleCall) : attempt t (ls ++ [.enter t c]) = {} := by
  rw [attempt_snoc]
  exact if_pos rfl

@[simp] theorem attempt_enter_ne (c : ModuleCall) (h : u ≠ t) :
    attempt t (ls ++ [.enter u c]) = attempt t ls := by
  rw [attempt_snoc]
  exact if_neg h

@[simp] theorem attempt_did (e : ListenerAction) (r : ListenerAnswer e) :
    attempt t (ls ++ [.did t e r]) = (attempt t ls).note (newsOf e r) := by
  rw [attempt_snoc]
  exact if_pos rfl

@[simp] theorem attempt_did_ne (e : ListenerAction) (r : ListenerAnswer e) (h : u ≠ t) :
    attempt t (ls ++ [.did u e r]) = attempt t ls := by
  rw [attempt_snoc]
  exact if_neg h

@[simp] theorem attempt_leave (c : ModuleCall) (code : Option Int) :
    attempt t (ls ++ [.leave u c code]) = attempt t ls := attempt_snoc t ls _

/-- An attempt only comes to know more. -/
structure Attempt.Grows (a b : Attempt) : Prop where
  made : ∀ l ∈ a.made, l ∈ b.made
  failed : a.failed = true → b.failed = true
  passed : a.passed = true → b.passed = true

theorem Attempt.Grows.refl (a : Attempt) : a.Grows a := ⟨fun _ => id, id, id⟩

theorem Attempt.Grows.trans {a b c : Attempt} (h : a.Grows b) (h' : b.Grows c) : a.Grows c :=
  ⟨fun l hl => h'.made l (h.made l hl), fun ha => h'.failed (h.failed ha),
    fun ha => h'.passed (h.passed ha)⟩

theorem Attempt.grows_note (a : Attempt) (news : News) : a.Grows (a.note news) := by
  cases news with
  | made l => exact ⟨fun _ hl => List.mem_append_left _ hl, id, id⟩
  | failed => exact ⟨fun _ => id, fun _ => rfl, id⟩
  | passed => exact ⟨fun _ => id, id, fun _ => rfl⟩
  | _ => exact .refl a

/-- While a thread stays in its call, its attempt only comes to know more. -/
theorem attempt_grows {more : List ModuleLabel} (h : Stays t more) :
    (attempt t ls).Grows (attempt t (ls ++ more)) := by
  induction more using List.reverseRecOn with
  | nil =>
    rw [List.append_nil]
    exact .refl _
  | append_singleton more label ih =>
    rw [← List.append_assoc]
    refine (ih h.init).trans ?_
    cases label with
    | enter u c =>
      have hne : u ≠ t := by
        rintro rfl
        exact h.last.1 c rfl
      rw [attempt_enter_ne c hne]
      exact .refl _
    | did u e r =>
      by_cases hut : u = t
      · rw [hut, attempt_did]
        exact Attempt.grows_note _ _
      · rw [attempt_did_ne e r hut]
        exact .refl _
    | leave u c code =>
      rw [attempt_leave]
      exact .refl _

/-- What one step of the thread tells, its attempt knows from then on. -/
theorem attempt_knows {l2 more : List ModuleLabel} {e : ListenerAction} {r : ListenerAnswer e}
    (h : Stays t (l2 ++ .did t e r :: more)) (ls : List ModuleLabel) :
    ((attempt t (ls ++ l2)).note (newsOf e r)).Grows
      (attempt t (ls ++ (l2 ++ .did t e r :: more))) := by
  have hmore : Stays t more := fun label hmem =>
    h label (List.mem_append_right _ (List.mem_cons_of_mem _ hmem))
  have hgrows : (attempt t (ls ++ l2 ++ [.did t e r])).Grows
      (attempt t (ls ++ l2 ++ [.did t e r] ++ more)) := attempt_grows hmore
  rw [attempt_did] at hgrows
  simpa using hgrows

theorem label_of_made {e : ListenerAction} {r : ListenerAnswer e} {l : ListenerId}
    (h : newsOf e r = .made l) :
    (.did t e r : ModuleLabel) = .did t .makeListener (.ok l) := by
  unfold newsOf at h
  split at h
  case h_1 => cases h; rfl
  case h_6 => split at h <;> cases h
  all_goals cases h

/-- A replacement of the attempt was made by a step of the thread. -/
theorem made_of_attempt {c : ModuleCall} {l2 : List ModuleLabel} (h : Stays t l2) {l : ListenerId}
    (hl : l ∈ (attempt t (ls ++ .enter t c :: l2)).made) :
    .did t .makeListener (.ok l) ∈ l2 := by
  induction l2 using List.reverseRecOn with
  | nil =>
    rw [attempt_enter] at hl
    cases hl
  | append_singleton l2 label ih =>
    rw [← List.cons_append, ← List.append_assoc] at hl
    have hbefore : l ∈ (attempt t (ls ++ .enter t c :: l2)).made →
        .did t .makeListener (.ok l) ∈ l2 ++ [label] :=
      fun hl => List.mem_append_left _ (ih h.init hl)
    cases label with
    | enter u c' =>
      have hne : u ≠ t := by
        rintro rfl
        exact h.last.1 c' rfl
      rw [attempt_enter_ne c' hne] at hl
      exact hbefore hl
    | did u e r =>
      by_cases hut : u = t
      · rw [hut, attempt_did] at hl
        generalize hnews : newsOf e r = news at hl
        cases news with
        | made l' =>
          rcases List.mem_append.mp hl with hl | hl
          · exact hbefore hl
          · rw [List.mem_singleton] at hl
            rw [hl, hut, label_of_made hnews]
            exact List.mem_append_right _ List.mem_cons_self
        | _ => exact hbefore hl
      · rw [attempt_did_ne e r hut] at hl
        exact hbefore hl
    | leave u c' code =>
      rw [attempt_leave] at hl
      exact hbefore hl

end Attempts

/-! ## What a call does in its `try` block -/

theorem Stage.not_handed {stage : Stage} (h : stage.trying = true) : stage.handed = false := by
  cases stage <;> first | rfl | cases h

/-- A call that is not so far has nothing stored. -/
theorem Part.Clean.fresh_none {g : Part} (h : g.Clean) (hnot : g.stage.handed = false) :
    g.fresh = none := by
  cases hfresh : g.fresh with
  | none => rfl
  | some l =>
    rw [h.fresh l hfresh] at hnot
    cases hnot

/-- What the attempt knows of its call. -/
structure Part.Attempts (g : Part) (a : Attempt) : Prop where
  made : a.made = (g.mine.or g.fresh).toList
  failed : a.failed = true → g.failed = true
  passed : a.passed = !g.stage.trying

section Deeds

variable {t : Thread} {g g' : Part} {w w' : EventModule} {news : News} {a : Attempt}

theorem Deed.attempts (h : Deed t g w news g' w') (hclean : g.Clean)
    (hdispatching : ∀ l, g.stage ≠ .dispatching l) (ha : g.Attempts a) :
    g'.Attempts (a.note news) := by
  obtain ⟨hmade, hfailed, hpassed⟩ := ha
  -- a step that neither begins nor ends the attempt
  have hat : ∀ {stage stage' : Stage}, g.stage = stage → stage'.trying = stage.trying →
      a.passed = !stage'.trying := by
    rintro _ stage' rfl hsame
    rw [hsame]
    exact hpassed
  cases h with
  | fails => exact ⟨hmade, fun _ => rfl, hpassed⟩
  | unresolved l _ hstage => exact absurd hstage (hdispatching l)
  | turns l _ _ _ _ hstage => exact absurd hstage (hdispatching l)
  | locksGlobal => exact ⟨hmade, hfailed, rfl⟩
  | starts => exact ⟨hmade, hfailed, rfl⟩
  | makes _ hstage hnone =>
    refine ⟨?_, hfailed, hpassed⟩
    rw [hnone, hclean.fresh_none (by rw [hstage]; rfl)] at hmade
    simp [Attempt.note, hmade]
  | stores l _ hstage hmine =>
    refine ⟨?_, hfailed, hat hstage rfl⟩
    rw [hmine] at hmade
    simpa [Attempt.note] using hmade
  | storesNone _ hstage hnone =>
    refine ⟨?_, hfailed, hat hstage rfl⟩
    rw [hnone, hclean.fresh_none (by rw [hstage]; rfl)] at hmade
    simpa [Attempt.note] using hmade
  | nothing | locks | unlocks | sleeps | notes => exact ⟨hmade, hfailed, hpassed⟩
  | calls | returns | registers | stopsAgain | unregistersOld => exact ⟨hmade, hfailed, hpassed⟩
  | unlocksGlobal _ hstage => exact ⟨hmade, hfailed, hat hstage rfl⟩
  | movesNone _ hstage => exact ⟨hmade, hfailed, hat hstage rfl⟩
  | moves _ _ hstage => exact ⟨hmade, hfailed, hat hstage rfl⟩
  | stopsOld _ _ hstage => exact ⟨hmade, hfailed, hat hstage rfl⟩
  | stopsMine _ _ hstage => exact ⟨hmade, hfailed, hat hstage rfl⟩
  | activates _ _ hstage => exact ⟨hmade, hfailed, hat hstage rfl⟩
  | releases _ _ hstage => exact ⟨hmade, hfailed, hat hstage rfl⟩
  | unregistersMine _ _ hstage => exact ⟨hmade, hfailed, hat hstage rfl⟩
  | findsItself _ _ hstage => exact ⟨hmade, hfailed, hat hstage rfl⟩
  | findsAnother _ _ hstage => exact ⟨hmade, hfailed, hat hstage rfl⟩
  | detaches _ _ hstage => exact ⟨hmade, hfailed, hat hstage rfl⟩
  | joins _ _ hstage => exact ⟨hmade, hfailed, hat hstage rfl⟩

/-- A call that is in its `try` block, or destroys what it made there, leaves `g_event_listener`
and every listener but its replacement. -/
theorem Deed.leaves_others (h : Deed t g w news g' w') (htrying : g.stage.trying = true) :
    w'.g_event_listener = w.g_event_listener ∧
      ∀ l, g.mine ≠ some l → w'.listeners l = w.listeners l := by
  have hmodify : ∀ {l l' : ListenerId} {f : Listener → Listener}, g.mine = some l →
      g.mine ≠ some l' → (w.modify l f).listeners l' = w.listeners l' := by
    intro l l' f hmine hother
    apply EventModule.modify_ne
    rintro rfl
    exact hother hmine
  -- the other steps are not those of a call that tries
  have hnot : ∀ {stage : Stage}, g.stage = stage → stage.trying = true := by
    rintro _ rfl
    exact htrying
  cases h with
  | registers l _ _ hmine => exact ⟨rfl, fun _ => hmodify hmine⟩
  | starts l _ _ _ hmine => exact ⟨rfl, fun _ => hmodify hmine⟩
  | stopsMine l _ _ hmine => exact ⟨rfl, fun _ => hmodify hmine⟩
  | unregistersMine l _ _ hmine => exact ⟨rfl, fun _ => hmodify hmine⟩
  | nothing | fails | unresolved | locksGlobal | locks | unlocks => exact ⟨rfl, fun _ _ => rfl⟩
  | sleeps | calls | returns | makes | releases => exact ⟨rfl, fun _ _ => rfl⟩
  | unlocksGlobal _ hstage => cases hnot hstage
  | notes _ _ _ hstage => cases hnot hstage
  | turns _ _ _ _ _ hstage => cases hnot hstage
  | movesNone _ hstage => cases hnot hstage
  | moves _ _ hstage => cases hnot hstage
  | stopsOld _ _ hstage => cases hnot hstage
  | stopsAgain _ _ hstage => cases hnot hstage
  | storesNone _ hstage => cases hnot hstage
  | stores _ _ hstage => cases hnot hstage
  | activates _ _ hstage => cases hnot hstage
  | unregistersOld _ _ hstage => cases hnot hstage
  | findsItself _ _ hstage => cases hnot hstage
  | findsAnother _ _ hstage => cases hnot hstage
  | detaches _ _ hstage => cases hnot hstage
  | joins _ _ hstage => cases hnot hstage

end Deeds

/-! ## What a failed call leaves -/

/-- The step shows a thread of the listener: the dispatcher starts, or it calls the application. -/
def ShowsThread (l : ListenerId) : ModuleLabel → Prop
  | .enter _ (.dispatch l' _) => l' = l
  | .did _ (.callback l' _ _ _) _ => l' = l
  | .did _ (.reportError l' _ _) _ => l' = l
  | _ => False

def ModuleCall.isSet : ModuleCall → Bool
  | .set .. => true
  | _ => false

/-- What the steps tell of attempts: the calls are as their attempts say, a replacement of a call
that failed is released when the call has returned, and no listener shows a thread that was not
started. -/
structure Aftermath (ls : List ModuleLabel) (gs : Parts) (w : EventModule)
    (life : ListenerId → Life) : Prop where
  attempts : ∀ t c g, gs t = some (c, g) → c.isSet = true → g.Attempts (attempt t ls)
  released : ∀ l1 l2 t c code l, ls = l1 ++ .leave t c code :: l2 → c.isSet = true →
    (attempt t l1).failed = true → l ∈ (attempt t l1).made → ∃ u, life l = .released u
  entered : ∀ label ∈ ls, ∀ l, ShowsThread l label → (w.listeners l).entered = true

namespace Aftermath

variable {ls : List ModuleLabel} {gs : Parts} {w w' : EventModule}
  {life life' : ListenerId → Life} {t : Thread} {c : ModuleCall} {g g' : Part}

theorem init : Aftermath [] (fun _ => none) {} fun _ => .blank where
  attempts _ _ _ h := by cases h
  released _ _ _ _ _ _ h := by simp at h
  entered _ h := by cases h

theorem not_dispatching (h : Stacked gs w) (ht : gs t = some (c, g)) (hset : c.isSet = true)
    (l : ListenerId) : g.stage ≠ .dispatching l := by
  have hhas := h.has t c g ht
  cases c with
  | set attempts callback_function error_callback => exact hhas.2.1 l
  | deviceNotification l action data => cases hset
  | dispatch l turns => cases hset

/-- A released listener stays so. -/
theorem released_turns {news : News} {l : ListenerId} (h : Turned t news life life')
    (hl : ∃ u, life l = .released u) : ∃ u, life' l = .released u := by
  obtain ⟨u, hlife⟩ := hl
  have hturns := h.turns l
  rw [hlife] at hturns
  generalize life' l = after at hturns ⊢
  cases hturns with
  | same => exact ⟨u, rfl⟩

theorem did {e : ListenerAction} {r : ListenerAnswer e} (h : Tended ls gs w life)
    (hr : Aftermath ls gs w life) (ht : gs t = some (c, g)) (ha : tending.allows g e)
    (hd : Deed t g w (newsOf e r) g' w') (hturned : Turned t (newsOf e r) life life') :
    Aftermath (ls ++ [.did t e r]) (Function.update gs t (some (c, g'))) w' life' where
  attempts := by
    refine forall_update ?_ ?_
    · intro u c' g'' hut hu hset
      rw [attempt_did_ne e r (Ne.symm hut)]
      exact hr.attempts u c' g'' hu hset
    · intro c' g'' hsame hset
      cases hsame
      rw [attempt_did]
      exact hd.attempts (h.stacked.clean t c g ht) (not_dispatching h.stacked ht hset)
        (hr.attempts t c g ht hset)
  released l1 l2 u c' code l heq hset hfailed hmade := by
    rcases snoc_split heq with ⟨_, _, hlast⟩ | ⟨l3, rfl, hbefore⟩
    · cases hlast
    · exact released_turns hturned (hr.released l1 l3 u c' code l hbefore hset hfailed hmade)
  entered label hmem l hshows := by
    rw [(hd.entered l).1]
    rcases List.mem_append.mp hmem with hmem | hmem
    · exact hr.entered label hmem l hshows
    · rw [List.mem_singleton] at hmem
      rw [hmem] at hshows
      have hstage : g.stage = .dispatching l := by
        cases e with
        | callback l' path event port => exact (show l' = l from hshows) ▸ ha.2.1
        | reportError l' about message => exact (show l' = l from hshows) ▸ ha.2.1
        | _ => cases hshows
      have hthread := h.stacked.dispatching ht hstage
      apply h.stacked.entered l
      rw [← hthread, ht]
      rfl

theorem enter (hr : Aftermath ls gs w life) (he : EventModule.enter t w c = some w') :
    Aftermath (ls ++ [.enter t c]) (Function.update gs t (some (c, c.part))) w' life where
  attempts := by
    refine forall_update ?_ ?_
    · intro u c' g'' hut hu hset
      rw [attempt_enter_ne c (Ne.symm hut)]
      exact hr.attempts u c' g'' hu hset
    · intro c' g'' hsame hset
      cases hsame
      rw [attempt_enter]
      cases c with
      | set attempts callback_function error_callback => exact ⟨rfl, nofun, rfl⟩
      | deviceNotification l action data => cases hset
      | dispatch l turns => cases hset
  released l1 l2 u c' code l heq hset hfailed hmade := by
    rcases snoc_split heq with ⟨_, _, hlast⟩ | ⟨l3, rfl, hbefore⟩
    · cases hlast
    · exact hr.released l1 l3 u c' code l hbefore hset hfailed hmade
  entered label hmem l hshows := by
    obtain ⟨_, _, _, _, hlisteners⟩ := Stacked.enter_cases he
    rw [(hlisteners l).2]
    rcases List.mem_append.mp hmem with hmem | hmem
    · exact Or.inl (hr.entered label hmem l hshows)
    · rw [List.mem_singleton] at hmem
      rw [hmem] at hshows
      cases c with
      | dispatch l' turns => exact Or.inr ⟨turns, (show l' = l from hshows) ▸ rfl⟩
      | _ => cases hshows

theorem leave {code : Option Int} (h : Tended ls gs w life) (hr : Aftermath ls gs w life)
    (ht : gs t = some (c, g)) (hends : g.Ends)
    (hl : EventModule.leave t w c code = some w') :
    Aftermath (ls ++ [.leave t c code]) (Function.update gs t none) w' life where
  attempts := by
    refine forall_update ?_ (fun _ _ hsame => by cases hsame)
    intro u c' g'' _ hu hset
    rw [attempt_leave]
    exact hr.attempts u c' g'' hu hset
  released l1 l2 u c' code' l heq hset hfailed hmade := by
    rcases snoc_split heq with ⟨_, rfl, hlast⟩ | ⟨l3, rfl, hbefore⟩
    · cases hlast
      obtain ⟨hmade', hfailed', _⟩ := hr.attempts t c g ht hset
      have hclean := h.stacked.clean t c g ht
      have hnone := hclean.fresh_none (Stage.not_handed (hclean.failed (hfailed' hfailed)))
      rw [hmade', hnone, Option.or_none, Option.mem_toList] at hmade
      have hmine : g.mine = some l := hmade
      rcases hends.mine with hno | hstage
      · rw [hmine] at hno
        cases hno
      · refine ⟨t, ?_⟩
        rw [(h.succession.owned.owns t c g ht).mine l hmine, hstage]
        rfl
    · exact hr.released l1 l3 u c' code' l hbefore hset hfailed hmade
  entered label hmem l hshows := by
    obtain ⟨_, _, _, hlisteners⟩ := Stacked.leave_cases hl
    rw [(hlisteners l).1]
    rcases List.mem_append.mp hmem with hmem | hmem
    · exact hr.entered label hmem l hshows
    · rw [List.mem_singleton] at hmem
      rw [hmem] at hshows
      cases hshows

end Aftermath

def aftermathOutline (core : CppCore) (chars : CharUpper) :
    Outline (eventModule core chars) always {} tending where
  start := ModuleCall.part
  post c g returned := ∀ code, returned = some code → c.Returns core g code
  inv ls gs w := ∃ life, Tended ls gs w life ∧ Aftermath ls gs w life
  follows c := c.program_tends core chars
  init := ⟨_, ⟨Stacked.init, Succession.init, Retirement.init⟩, Aftermath.init⟩
  enter := by
    rintro ls gs w t c w' ⟨life, h, hr⟩ ht he _
    exact ⟨life, h.enter ht he, hr.enter he⟩
  did := by
    rintro ls gs w t c g e r w' ⟨life, h, hr⟩ ht ha hp _
    obtain ⟨g', hnext, hd, life', h', hturned⟩ := h.did ht ha hp
    exact ⟨g', hnext, life', h', hr.did h ht ha hd hturned⟩
  leave := by
    rintro ls gs w t c g returned w' ⟨life, h, hr⟩ ht hends hl _
    obtain ⟨code, hcode⟩ := returned_of_leave hl
    have hends' := (hends code hcode).ends
    exact ⟨life, h.leave ht hends' hl, hr.leave h ht hends' hl⟩

/-! ## The installed listener -/

/-- The listener delivers: it is active and not stopped, its dispatcher has a thread and has not
returned, and its next turn takes the notification that waits. -/
structure EventModule.Delivers (w : EventModule) (l : ListenerId) : Prop where
  live : w.Live l
  thread : (w.listeners l).joinable = true ∧ (w.listeners l).finished = false
  takes : ∀ notification rest, (w.listeners l).state.pending_ = notification :: rest →
    (w.listeners l).state.queue_failed_ = false →
    (w.listeners l).state.check.1 = .taken notification

/-- The action moves the listener out, or stores another one. -/
def ListenerAction.Replaces : ListenerAction → Prop
  | .moveListener | .storeListener _ => True
  | _ => False

theorem news_of_replaces {e : ListenerAction} {r : ListenerAnswer e} (h : ¬ e.Replaces) :
    (∀ p, newsOf e r ≠ .displaced p) ∧ (∀ l, newsOf e r ≠ .stored l) := by
  unfold newsOf
  split
  case h_6 => split <;> exact ⟨nofun, nofun⟩
  case h_10 => exact absurd trivial h
  case h_11 => exact absurd trivial h
  all_goals exact ⟨nofun, nofun⟩

/-- A step that neither moves nor stores leaves `g_event_listener`. -/
theorem Deed.keeps_stored {t : Thread} {g g' : Part} {w w' : EventModule} {news : News}
    (h : Deed t g w news g' w')
    (hempty : g.stage = .moved ∨ g.stage = .emptied → w.g_event_listener = none)
    (hnews : (∀ p, news ≠ .displaced p) ∧ ∀ l, news ≠ .stored l) :
    w'.g_event_listener = w.g_event_listener := by
  cases h with
  | movesNone => exact absurd rfl (hnews.1 none)
  | moves p => exact absurd rfl (hnews.1 (some p))
  | stores l => exact absurd rfl (hnews.2 l)
  | storesNone _ hstage => exact (hempty (Or.inr hstage)).symm
  | _ => rfl

/-- A start changes neither `g_event_listener` nor the state of a listener. -/
theorem enter_states {t : Thread} {c : ModuleCall} {w w' : EventModule}
    (h : EventModule.enter t w c = some w') :
    w'.g_event_listener = w.g_event_listener ∧
      ∀ l, (w'.listeners l).state = (w.listeners l).state := by
  unfold EventModule.enter at h
  split at h
  · cases h
    cases c with
    | set attempts callback_function error_callback => exact ⟨rfl, fun _ => rfl⟩
    | deviceNotification l action data => exact ⟨rfl, fun _ => rfl⟩
    | dispatch l turns => exact ⟨rfl, fun _ => EventModule.modify_keeps (·.state) fun _ => rfl⟩
  · cases h

theorem leave_states {t : Thread} {c : ModuleCall} {w w' : EventModule} {code : Option Int}
    (h : EventModule.leave t w c code = some w') :
    w'.g_event_listener = w.g_event_listener ∧
      ∀ l, (w'.listeners l).state = (w.listeners l).state := by
  unfold EventModule.leave at h
  split at h
  · cases h
    cases c with
    | set attempts callback_function error_callback => exact ⟨rfl, fun _ => rfl⟩
    | deviceNotification l action data => exact ⟨rfl, fun _ => rfl⟩
    | dispatch l turns => exact ⟨rfl, fun _ => EventModule.modify_keeps (·.state) fun _ => rfl⟩
  · cases h

section Runs

variable {core : CppCore} {chars : CharUpper} {ls : List ModuleLabel} {s s' : ModuleSys}

theorem afterwards (h : Runs (eventModule core chars) always {} ls s) :
    ∃ gs life, Tended ls gs s.shared life ∧ Aftermath ls gs s.shared life ∧
      (aftermathOutline core chars).Matches s.threads gs := by
  obtain ⟨gs, ⟨life, hi, hr⟩, hm⟩ := (aftermathOutline core chars).runs h
  exact ⟨gs, life, hi, hr, hm⟩

/-- A listener is never deactivated, and a step that neither moves nor stores leaves
`g_event_listener`. -/
theorem kept_of_step (h : Runs (eventModule core chars) always {} ls s) {label : ModuleLabel}
    (hstep : Step (eventModule core chars) s label s') :
    ((∀ u e r, label = .did u e r → ¬ e.Replaces) →
        s'.shared.g_event_listener = s.shared.g_event_listener) ∧
      ∀ l, (s.shared.listeners l).state.active_ = true →
        (s'.shared.listeners l).state.active_ = true := by
  obtain ⟨gs, life, hi, hm⟩ := tended h
  cases hstep with
  | enter ht he =>
    obtain ⟨hstored, hstates⟩ := enter_states he
    exact ⟨fun _ => hstored, fun l hactive => by rw [hstates l]; exact hactive⟩
  | leave ht hl =>
    obtain ⟨hstored, hstates⟩ := leave_states hl
    exact ⟨fun _ => hstored, fun l hactive => by rw [hstates l]; exact hactive⟩
  | did ht hp =>
    obtain ⟨g, hg, hf⟩ := Outline.some_of_some hm ht
    obtain ⟨g', _, hd, life', hi', hturned⟩ := hi.did hg hf.1 hp
    constructor
    · intro hnot
      exact hd.keeps_stored (hi.succession.empty _ _ g hg) (news_of_replaces (hnot _ _ _ rfl))
    · intro l hactive
      rw [(hi.succession.tenure.isIn l).active] at hactive
      rw [(hi'.succession.tenure.isIn l).active]
      exact (hturned.turns l).flags.1 hactive

theorem Life.current_of_held {life : Life} (hheld : life.held = true)
    (hactive : life.active = true) : life = .current := by
  cases life with
  | current => rfl
  | stored t => exact absurd hactive Bool.false_ne_true
  | _ => exact absurd hheld Bool.false_ne_true

/-- The listener that is stored delivers, once it is active. -/
theorem delivers_of_stored (h : Runs (eventModule core chars) always {} ls s) {l : ListenerId}
    (hl : s.shared.g_event_listener = some l)
    (hactive : (s.shared.listeners l).state.active_ = true) : s.shared.Delivers l := by
  obtain ⟨gs, life, hi, _⟩ := tended h
  have hisIn := hi.succession.tenure.isIn l
  have hheld := (hi.succession.tenure.held l).mp hl
  have hcurrent : life l = .current := by
    rw [hisIn.active] at hactive
    exact Life.current_of_held hheld hactive
  rw [hcurrent] at hisIn
  refine ⟨⟨hisIn.active, hisIn.halted⟩, ⟨hisIn.joinable, ?_⟩, ?_⟩
  · rw [Bool.eq_false_iff]
    intro hfinished
    have hhalted := hi.succession.finished l hfinished
    rw [hcurrent] at hhalted
    cases hhalted
  · intro notification rest hpending hqueue
    unfold EventListenerState.check EventListenerState.ready
    rw [hisIn.active, hisIn.halted, hpending, hqueue]
    rfl

end Runs

/-! ## A call that fails -/

/-- The call `c` of the thread `t`, with the steps `l2` between its start and its return, changed
nothing but a replacement of its own, of which nothing is left. The other threads may do what they
want between its steps. -/
structure ChangesNothing (core : CppCore) (chars : CharUpper) (t : Thread) (c : ModuleCall)
    (l1 l2 l3 : List ModuleLabel) (code : Int) (w : EventModule) : Prop where
  returns : code = core.value .kMonitorError
  /-- Each step of the call leaves the listener that is installed and all other listeners, with
  their queues and flags, and all other threads, with the port maps of the dispatchers. -/
  steps : ∀ m1 m2 e r s1 s2, l2 = m1 ++ .did t e r :: m2 →
    Runs (eventModule core chars) always {} (l1 ++ .enter t c :: m1) s1 →
    Step (eventModule core chars) s1 (.did t e r) s2 →
    s2.shared.g_event_listener = s1.shared.g_event_listener ∧
      (∀ l, .did t .makeListener (.ok l) ∉ l2 → s2.shared.listeners l = s1.shared.listeners l) ∧
      ∀ u, u ≠ t → s2.threads u = s1.threads u
  /-- The same listener is installed and delivers after the call, but for other replacements. -/
  kept : ∀ s1 s2, Runs (eventModule core chars) always {} l1 s1 →
    Runs (eventModule core chars) always {}
      (l1 ++ .enter t c :: (l2 ++ [.leave t c (some code)])) s2 →
    (∀ u e r, u ≠ t → .did u e r ∈ l2 → ¬ e.Replaces) →
    s2.shared.g_event_listener = s1.shared.g_event_listener ∧
      ∀ l, s1.shared.g_event_listener = some l → s1.shared.Live l → s2.shared.Delivers l
  /-- A replacement that the call made is not installed and has no notification and no thread, and
  at no time it called the application. -/
  gone : ∀ l, .did t .makeListener (.ok l) ∈ l2 →
    (w.listeners l).registered = false ∧ (w.listeners l).ports = none ∧
      (w.listeners l).joinable = false ∧ w.g_event_listener ≠ some l ∧
      ∀ label ∈ l1 ++ .enter t c :: (l2 ++ .leave t c (some code) :: l3), ¬ ShowsThread l label

section Failed

variable {core : CppCore} {chars : CharUpper} {l1 l2 l3 m1 m2 : List ModuleLabel} {t : Thread}
  {c : ModuleCall} {s : ModuleSys} {code : Int}

/-- In a call that fails, the thread is in its `try` block at each step, or behind it with an
exception. -/
theorem trying_of_failed (hset : c.isSet = true) (hstays : Stays t l2)
    (hfailed : ∃ e r, .did t e r ∈ l2 ∧ newsOf e r = .failed) {gs : Parts} {w : EventModule}
    {life : ListenerId → Life} {g : Part} (hi : Tended (l1 ++ .enter t c :: l2) gs w life)
    (hr : Aftermath (l1 ++ .enter t c :: l2) gs w life) (hg : gs t = some (c, g)) :
    g.failed = true ∧ (attempt t (l1 ++ .enter t c :: l2)).failed = true ∧
      (attempt t (l1 ++ .enter t c :: l2)).passed = false := by
  obtain ⟨e, r, hmem, hnews⟩ := hfailed
  obtain ⟨n1, n2, rfl⟩ := List.append_of_mem hmem
  have hgrows := attempt_knows hstays (l1 ++ [.enter t c])
  rw [hnews] at hgrows
  have hfailed := hgrows.failed rfl
  rw [List.append_assoc, List.singleton_append] at hfailed
  obtain ⟨_, hg', hpassed⟩ := hr.attempts t c g hg hset
  refine ⟨hg' hfailed, hfailed, ?_⟩
  rw [hpassed, (hi.stacked.clean t c g hg).failed (hg' hfailed)]
  rfl

/-- A step of a call whose attempt is never passed. -/
theorem step_of_failed (hset : c.isSet = true) {e : ListenerAction} {r : ListenerAnswer e}
    (hstays : Stays t (m1 ++ .did t e r :: m2))
    (hpassed : (attempt t (l1 ++ .enter t c :: (m1 ++ .did t e r :: m2))).passed = false)
    {s1 s2 : ModuleSys}
    (hrun : Runs (eventModule core chars) always {} (l1 ++ .enter t c :: m1) s1)
    (hstep : Step (eventModule core chars) s1 (.did t e r) s2) :
    s2.shared.g_event_listener = s1.shared.g_event_listener ∧
      (∀ l, .did t .makeListener (.ok l) ∉ m1 ++ .did t e r :: m2 →
        s2.shared.listeners l = s1.shared.listeners l) ∧
      ∀ u, u ≠ t → s2.threads u = s1.threads u := by
  have hstays1 : Stays t m1 := fun label hmem => hstays label (List.mem_append_left _ hmem)
  have hstays2 : Stays t (.did t e r :: m2) :=
    fun label hmem => hstays label (List.mem_append_right _ hmem)
  obtain ⟨gs, life, hi, hr, hm⟩ := afterwards hrun
  obtain ⟨p, hp⟩ := hrun.inside hstays1
  cases hstep with
  | did ht hperform =>
    rw [hp] at ht
    cases ht
    obtain ⟨g, hg, hf⟩ := Outline.some_of_some hm hp
    obtain ⟨g', _, hd, _⟩ := hi.did hg hf.1 hperform
    have hattempts := hr.attempts t c g hg hset
    -- a `try` block that was passed here would be passed at the end
    have htrying : g.stage.trying = true := by
      by_contra hnot
      rw [Bool.not_eq_true] at hnot
      have hattempt := hattempts.passed
      rw [hnot] at hattempt
      have hgrows := (attempt_grows hstays2).passed hattempt
      rw [List.append_assoc, List.cons_append, hpassed] at hgrows
      cases hgrows
    obtain ⟨hstored, hothers⟩ := hd.leaves_others htrying
    refine ⟨hstored, fun l hnot => hothers l ?_, fun u hu => Function.update_of_ne hu _ _⟩
    intro hmine
    have hmade : l ∈ (attempt t (l1 ++ .enter t c :: m1)).made := by
      rw [hattempts.made, hmine]
      exact List.mem_singleton.mpr rfl
    exact hnot (List.mem_append_left _ (made_of_attempt hstays1 hmade))

/-- Over the steps of a call, `g_event_listener` stays when neither the call nor another thread
replaces the listener, and no listener is deactivated. -/
theorem kept_over_steps {s0 s' : ModuleSys}
    (hrun0 : Runs (eventModule core chars) always {} l1 s0)
    (hsteps : ∀ m1 m2 e r s1 s2, l2 = m1 ++ .did t e r :: m2 →
      Runs (eventModule core chars) always {} (l1 ++ .enter t c :: m1) s1 →
      Step (eventModule core chars) s1 (.did t e r) s2 →
      s2.shared.g_event_listener = s1.shared.g_event_listener)
    (hothers : ∀ u e r, u ≠ t → .did u e r ∈ l2 → ¬ e.Replaces) (heq : l2 = m1 ++ m2)
    (hrun : Runs (eventModule core chars) always {} (l1 ++ .enter t c :: m1) s') :
    s'.shared.g_event_listener = s0.shared.g_event_listener ∧
      ∀ l, (s0.shared.listeners l).state.active_ = true →
        (s'.shared.listeners l).state.active_ = true := by
  induction m1 using List.reverseRecOn generalizing m2 s' with
  | nil =>
    obtain ⟨s1, hrun1, hstep⟩ := hrun.last
    rw [hrun0.unique hrun1]
    obtain ⟨hstored, hactive⟩ := kept_of_step hrun1 hstep
    exact ⟨hstored (fun _ _ _ hlabel => by cases hlabel), hactive⟩
  | append_singleton m1 label ih =>
    rw [← List.cons_append, ← List.append_assoc] at hrun
    obtain ⟨s1, hrun1, hstep⟩ := hrun.last
    have heq' : l2 = m1 ++ label :: m2 := by simp [heq]
    obtain ⟨hstored, hactive⟩ := ih heq' hrun1
    obtain ⟨hstored', hactive'⟩ := kept_of_step hrun1 hstep
    refine ⟨Eq.trans ?_ hstored, fun l hl => hactive' l (hactive l hl)⟩
    by_cases hown : ∃ e r, label = .did t e r
    · obtain ⟨e, r, rfl⟩ := hown
      exact hsteps m1 m2 e r s1 s' heq' hrun1 hstep
    · apply hstored'
      rintro u e r rfl
      have hut : u ≠ t := by
        rintro rfl
        exact hown ⟨e, r, rfl⟩
      apply hothers u e r hut
      rw [heq']
      exact List.mem_append_right _ List.mem_cons_self

/-- In every run, a call that fails in its `try` block returns `kMonitorError` and changes
nothing, and no trace of the replacement that it made is left. -/
theorem a_failed_call_changes_nothing (core : CppCore) (chars : CharUpper)
    {attempts : Nat} {callback_function error_callback : Callback} {ls : List ModuleLabel}
    (h : Runs (eventModule core chars) always {} ls s)
    (hcall : c = .set attempts callback_function error_callback)
    (hls : ls = l1 ++ .enter t c :: (l2 ++ .leave t c (some code) :: l3))
    (hstays : Stays t l2) (hfailed : ∃ e r, .did t e r ∈ l2 ∧ newsOf e r = .failed) :
    ChangesNothing core chars t c l1 l2 l3 code s.shared := by
  have hset : c.isSet = true := by
    rw [hcall]
    rfl
  have hls' : ls = (l1 ++ .enter t c :: l2) ++ .leave t c (some code) :: l3 := by
    simp [hls]
  -- the state before the call returns
  obtain ⟨s1, s2, hrun, _, hleave⟩ := h.split hls'
  obtain ⟨gs, life, hi, hr, hm⟩ := afterwards hrun
  have hcode : ∃ g, gs t = some (c, g) ∧ c.Returns core g code := by
    cases hleave with
    | leave ht hl =>
      obtain ⟨g, hg, hreturns⟩ := Outline.some_of_some hm ht
      exact ⟨g, hg, hreturns code rfl⟩
  obtain ⟨g, hg, hreturns⟩ := hcode
  obtain ⟨hgfailed, hafailed, hpassed⟩ := trying_of_failed hset hstays hfailed hi hr hg
  have hmade : ∀ l, .did t .makeListener (.ok l) ∈ l2 →
      l ∈ (attempt t (l1 ++ .enter t c :: l2)).made := by
    intro l hmem
    obtain ⟨n1, n2, rfl⟩ := List.append_of_mem hmem
    have hgrows := attempt_knows hstays (l1 ++ [.enter t c])
    rw [List.append_assoc, List.append_assoc, List.singleton_append,
      List.singleton_append] at hgrows
    exact hgrows.made l (List.mem_append_right _ List.mem_cons_self)
  refine ⟨hreturns.code _ _ _ hcall hgfailed, ?_, ?_, ?_⟩
  · rintro m1 m2 e r s1 s2 rfl hrun1 hstep
    exact step_of_failed hset hstays hpassed hrun1 hstep
  · intro s0 s3 hrun0 hrun3 hothers
    rw [← List.cons_append, ← List.append_assoc] at hrun3
    obtain ⟨s2', hrun2, hstep⟩ := hrun3.last
    have hsteps : ∀ m1 m2 e r s1 s2, l2 = m1 ++ .did t e r :: m2 →
        Runs (eventModule core chars) always {} (l1 ++ .enter t c :: m1) s1 →
        Step (eventModule core chars) s1 (.did t e r) s2 →
        s2.shared.g_event_listener = s1.shared.g_event_listener := by
      rintro m1 m2 e r s1 s2 rfl hrun1 hstep
      exact (step_of_failed hset hstays hpassed hrun1 hstep).1
    obtain ⟨hstored, hactive⟩ :=
      kept_over_steps hrun0 hsteps hothers (List.append_nil l2).symm hrun2
    obtain ⟨hstored', hactive'⟩ := kept_of_step hrun2 hstep
    have hsame : s3.shared.g_event_listener = s0.shared.g_event_listener :=
      (hstored' (fun _ _ _ hlabel => by cases hlabel)).trans hstored
    exact ⟨hsame, fun l hl hlive => delivers_of_stored hrun3 (hsame.trans hl)
      (hactive' l (hactive l hlive.1))⟩
  · intro l hmem
    obtain ⟨_, life', hi', hr', _⟩ := afterwards h
    obtain ⟨u, hlife⟩ := hr'.released _ l3 t c (some code) l hls' hset hafailed (hmade l hmem)
    have hisIn := hi'.succession.tenure.isIn l
    rw [hlife] at hisIn
    refine ⟨hisIn.gone rfl, Option.not_isSome_iff_eq_none.mp ?_, hisIn.joinable, ?_, ?_⟩
    · rw [hisIn.started]
      exact nofun
    · rw [ne_eq, hi'.succession.tenure.held, hlife]
      exact nofun
    · intro label hlabel hshows
      rw [← hls] at hlabel
      have hstarted := hisIn.entered (hr'.entered label hlabel l hshows)
      cases hstarted

end Failed

/-- The size of the interface list is not told. -/
def refusedAnswer (t : Thread) (w : EventModule) : (action : ListenerAction) → ListenerAnswer action
  | .interfaceListSize => .error ⟨none, "CM_Get_Device_Interface_List_SizeW"⟩
  | action => moduleAnswer t w action

/-- The replacement that is refused, below. -/
def refusedCall : ModuleCall := .set 1 (some 1) (some 0)

/-- A device that comes while the listener 1 is made. -/
def refusedDevice : ModuleCall := .deviceNotification 1 0 ⟨0, [65]⟩

/-- The application installs the listener 0. The listener 1 is registered and takes a notification,
and then the snapshot of its ports fails. -/
def refused : List ModuleMove :=
  [.enter ⟨.app 0, 0⟩ (.set 1 (some 0) (some 0))] ++ ModuleMove.acts ⟨.app 0, 0⟩ 12 ++
  [.leave ⟨.app 0, 0⟩, .enter ⟨.app 2, 0⟩ refusedCall] ++ ModuleMove.acts ⟨.app 2, 0⟩ 2 ++
  [.enter ⟨.app 1, 0⟩ refusedDevice] ++ ModuleMove.acts ⟨.app 1, 0⟩ 3 ++ [.leave ⟨.app 1, 0⟩] ++
  [.act ⟨.app 2, 0⟩ refusedAnswer] ++ ModuleMove.acts ⟨.app 2, 0⟩ 8 ++ [.leave ⟨.app 2, 0⟩]

/-- The steps between the start and the return of the call that is refused. -/
def refusedSteps : List ModuleLabel :=
  [.did ⟨.app 2, 0⟩ .makeListener (.ok 1), .did ⟨.app 2, 0⟩ (.registerNotification 1) none,
    .enter ⟨.app 1, 0⟩ refusedDevice, .did ⟨.app 1, 0⟩ (.lock (.mutex_ 1)) (),
    .did ⟨.app 1, 0⟩ (.enqueue 1 ⟨.kAttached, [65]⟩) none,
    .did ⟨.app 1, 0⟩ (.unlock (.mutex_ 1)) (), .leave ⟨.app 1, 0⟩ refusedDevice (some 0),
    .did ⟨.app 2, 0⟩ .interfaceListSize (.error ⟨none, "CM_Get_Device_Interface_List_SizeW"⟩),
    .did ⟨.app 2, 0⟩ (.lock (.mutex_ 1)) (), .did ⟨.app 2, 0⟩ (.stop 1) (),
    .did ⟨.app 2, 0⟩ (.unlock (.mutex_ 1)) (), .did ⟨.app 2, 0⟩ (.hasNotification 1) true,
    .did ⟨.app 2, 0⟩ (.unregister 1) (), .did ⟨.app 2, 0⟩ (.joinable 1) false,
    .did ⟨.app 2, 0⟩ (.invokeError (some 0) (-23) "CM_Get_Device_Interface_List_SizeW") (),
    .did ⟨.app 2, 0⟩ .errorReturned ()]

/-- A replacement is refused after a device came for it, and the listener 0 is still installed. -/
theorem a_refused_replacement_changes_nothing :
    ∃ l1 s, Runs (eventModule sampleCore plainUnits) always {}
        (l1 ++ .enter ⟨.app 2, 0⟩ refusedCall ::
          (refusedSteps ++ .leave ⟨.app 2, 0⟩ refusedCall (some (-23)) :: [])) s ∧
      s.shared.g_event_listener = some 0 ∧
      ChangesNothing sampleCore plainUnits ⟨.app 2, 0⟩ refusedCall l1 refusedSteps [] (-23)
        s.shared := by
  obtain ⟨ls, s, hr, hx⟩ := Sys.moves_exists (eventModule sampleCore plainUnits) always {}
    refused (fun ls s => (ls.drop 14, s.shared.g_event_listener))
    (x := (.enter ⟨.app 2, 0⟩ refusedCall ::
      (refusedSteps ++ .leave ⟨.app 2, 0⟩ refusedCall (some (-23)) :: []), some 0)) rfl
  simp only [Prod.mk.injEq] at hx
  obtain ⟨hdrop, hinstalled⟩ := hx
  have hls := List.take_append_drop 14 ls
  rw [hdrop] at hls
  have hstays : Stays ⟨.app 2, 0⟩ refusedSteps := by
    simp [Stays, refusedSteps]
  have hfailed : ∃ e r, .did ⟨.app 2, 0⟩ e r ∈ refusedSteps ∧ newsOf e r = .failed :=
    ⟨.interfaceListSize, .error ⟨none, "CM_Get_Device_Interface_List_SizeW"⟩,
      by simp [refusedSteps], rfl⟩
  refine ⟨ls.take 14, s, ?_, hinstalled, ?_⟩
  · rw [hls]
    exact hr
  · exact a_failed_call_changes_nothing sampleCore plainUnits hr rfl hls.symm hstays hfailed

end cpp_bindings_windows
