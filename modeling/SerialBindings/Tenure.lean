-- The life of each listener: a call makes it, and either releases it or installs
-- it, until another call displaces, stops and retires it. At every moment a life
-- tells the flags of its listener and the one call that may change it.
import SerialBindings.Nesting

open programs

namespace cpp_bindings_windows

/-! ## Lives -/

/-- How far the life of a listener is, with the thread whose call disposes of it. -/
inductive Life
  | blank
  | making (t : Thread)
  | failing (t : Thread)
  | released (t : Thread)
  | ready (t : Thread)
  | stored (t : Thread)
  | current
  | displaced (t : Thread)
  | stopped (t : Thread)
  | retired (t : Thread)
  deriving DecidableEq

namespace Life

def owner : Life → Option Thread
  | .blank | .current => none
  | .making t | .failing t | .released t | .ready t | .stored t => some t
  | .displaced t | .stopped t | .retired t => some t

/-- The listener is stored in `g_event_listener`, or was. -/
def installed : Life → Bool
  | .stored _ | .current | .displaced _ | .stopped _ | .retired _ => true
  | _ => false

def active : Life → Bool
  | .current | .displaced _ | .stopped _ | .retired _ => true
  | _ => false

def halted : Life → Bool
  | .failing _ | .released _ | .stopped _ | .retired _ => true
  | _ => false

/-- The thread of the listener was started. -/
def started : Life → Bool
  | .ready _ => true
  | life => life.installed

def joinable : Life → Bool
  | .retired _ => false
  | life => life.started

/-- The listener is stored in `g_event_listener`. -/
def held : Life → Bool
  | .stored _ | .current => true
  | _ => false

/-- The listener has no notification. -/
def gone : Life → Bool
  | .blank | .released _ => true
  | _ => false

theorem installed_of_active {life : Life} (h : life.active = true) : life.installed = true := by
  cases life <;> first | rfl | cases h

theorem installed_of_held {life : Life} (h : life.held = true) : life.installed = true := by
  cases life <;> first | rfl | cases h

end Life

/-- The listener is as its life says. -/
structure Listener.In (x : Listener) (life : Life) : Prop where
  active : x.state.active_ = life.active
  halted : x.state.stopped_ = life.halted
  started : x.ports.isSome = life.started
  joinable : x.joinable = life.joinable
  gone : life.gone = true → x.registered = false
  entered : x.entered = true → life.started = true

/-- The life of a replacement, at each stage of its call. -/
def Stage.replacement (t : Thread) : Stage → Life
  | .making => .making t
  | .failing => .failing t
  | .released => .released t
  | _ => .ready t

/-- The life of a displaced listener, at each stage of the call that displaced it. -/
def Stage.previous (t : Thread) : Stage → Life
  | .moved => .displaced t
  | .detached | .joined => .retired t
  | _ => .stopped t

/-- The lives of the listeners that a call has. -/
structure Part.Owns (t : Thread) (g : Part) (life : ListenerId → Life) : Prop where
  mine : ∀ l, g.mine = some l → life l = g.stage.replacement t
  fresh : ∀ l, g.stage = .stored → g.fresh = some l → life l = .stored t
  old : ∀ l, g.old = some l → life l = g.stage.previous t

/-- The lives of the listeners in the module. -/
structure Tenure (life : ListenerId → Life) (w : EventModule) : Prop where
  isIn : ∀ l, (w.listeners l).In (life l)
  blank : ∀ l, life l = .blank ↔ w.made ≤ l
  held : ∀ l, w.g_event_listener = some l ↔ (life l).held = true

/-- The lives of the listeners that the calls have. -/
structure Owned (life : ListenerId → Life) (gs : Parts) : Prop where
  owns : ∀ t c g, gs t = some (c, g) → g.Owns t life
  displaced : ∀ l t, life l = .displaced t →
    ∃ c g, gs t = some (c, g) ∧ g.stage = .moved ∧ g.old = some l
  stored : ∀ l t, life l = .stored t →
    ∃ c g, gs t = some (c, g) ∧ g.stage = .stored ∧ g.fresh = some l

section Change

variable {life : ListenerId → Life} {w w' : EventModule} {gs : Parts} {t : Thread}
  {c : ModuleCall} {g g' : Part} {l : ListenerId} {x : Life}

theorem Stage.owner_replacement (stage : Stage) : (stage.replacement t).owner = some t := by
  cases stage <;> rfl

theorem Stage.owner_previous (stage : Stage) : (stage.previous t).owner = some t := by
  cases stage <;> rfl

/-- The life of a listener changes, and that of no other listener. -/
theorem Tenure.change (h : Tenure life w) (hmade : w'.made = w.made)
    (hother : ∀ l', l' ≠ l → w'.listeners l' = w.listeners l') (hin : (w'.listeners l).In x)
    (hbefore : life l ≠ .blank) (hafter : x ≠ .blank)
    (hheld : ∀ l', w'.g_event_listener = some l' ↔ (Function.update life l x l').held = true) :
    Tenure (Function.update life l x) w' where
  isIn l' := by
    by_cases hl : l' = l
    · rw [hl, Function.update_self]
      exact hin
    · rw [Function.update_of_ne hl, hother l' hl]
      exact h.isIn l'
  blank l' := by
    rw [hmade]
    by_cases hl : l' = l
    · have hmadeBefore := (h.blank l).not.mp hbefore
      rw [hl, Function.update_self]
      exact ⟨fun hx => absurd hx hafter, fun hle => absurd hle hmadeBefore⟩
    · rw [Function.update_of_ne hl]
      exact h.blank l'
  held := hheld

/-- The life of a listener that is stored neither before nor after. -/
theorem Tenure.aside (h : Tenure life w) {f : Listener → Listener}
    (hin : (f (w.listeners l)).In x) (hbefore : life l ≠ .blank) (hafter : x ≠ .blank)
    (hunheld : (life l).held = false) (hx : x.held = false) :
    Tenure (Function.update life l x) (w.modify l f) := by
  refine h.change rfl (fun _ hl => EventModule.modify_ne hl) ?_ hbefore hafter fun l' => ?_
  · rw [EventModule.modify_self]
    exact hin
  · change w.g_event_listener = some l' ↔ _
    rw [h.held l']
    by_cases hl : l' = l
    · rw [hl, Function.update_self, hunheld, hx]
    · rw [Function.update_of_ne hl]

/-- The call of `t` changes, with the life of a listener that no other call has. -/
theorem Owned.change (h : Owned life gs) (ht : gs t = some (c, g))
    (howner : ∀ u, (life l).owner = some u → u = t) (hx : ∀ u, x.owner = some u → u = t)
    (howns : g'.Owns t (Function.update life l x))
    (hdisplaced : x = .displaced t → g'.stage = .moved ∧ g'.old = some l)
    (hmoved : g.stage = .moved → ∀ l', l' ≠ l → g.old = some l' →
      g'.stage = .moved ∧ g'.old = some l')
    (hstored : x = .stored t → g'.stage = .stored ∧ g'.fresh = some l)
    (hfresh : g.stage = .stored → ∀ l', l' ≠ l → g.fresh = some l' →
      g'.stage = .stored ∧ g'.fresh = some l') :
    Owned (Function.update life l x) (Function.update gs t (some (c, g'))) where
  owns := by
    refine forall_inside (fun u c' g'' hut hu => ?_) howns
    obtain ⟨hmine, hfresh, hold⟩ := h.owns u c' g'' hu
    -- what another call has is another listener
    have hother : ∀ l', (life l').owner = some u → Function.update life l x l' = life l' := by
      intro l' hl'
      apply Function.update_of_ne
      rintro rfl
      exact hut (howner u hl')
    constructor
    · intro l' hl'
      rw [hother l' (by rw [hmine l' hl']; exact Stage.owner_replacement _)]
      exact hmine l' hl'
    · intro l' hstage hl'
      rw [hother l' (by rw [hfresh l' hstage hl']; rfl)]
      exact hfresh l' hstage hl'
    · intro l' hl'
      rw [hother l' (by rw [hold l' hl']; exact Stage.owner_previous _)]
      exact hold l' hl'
  displaced l' u hl' := by
    by_cases hl : l' = l
    · rw [hl, Function.update_self] at hl'
      have hut : u = t := hx u (by rw [hl']; rfl)
      rw [hut] at hl' ⊢
      rw [hl, Function.update_self]
      exact ⟨c, g', rfl, hdisplaced hl'⟩
    · rw [Function.update_of_ne hl] at hl'
      obtain ⟨c', g'', hu, hstage, hold⟩ := h.displaced l' u hl'
      by_cases hut : u = t
      · rw [hut, ht] at hu
        cases hu
        rw [hut, Function.update_self]
        exact ⟨c, g', rfl, hmoved hstage l' hl hold⟩
      · rw [Function.update_of_ne hut]
        exact ⟨c', g'', hu, hstage, hold⟩
  stored l' u hl' := by
    by_cases hl : l' = l
    · rw [hl, Function.update_self] at hl'
      have hut : u = t := hx u (by rw [hl']; rfl)
      rw [hut] at hl' ⊢
      rw [hl, Function.update_self]
      exact ⟨c, g', rfl, hstored hl'⟩
    · rw [Function.update_of_ne hl] at hl'
      obtain ⟨c', g'', hu, hstage, hold⟩ := h.stored l' u hl'
      by_cases hut : u = t
      · rw [hut, ht] at hu
        cases hu
        rw [hut, Function.update_self]
        exact ⟨c, g', rfl, hfresh hstage l' hl hold⟩
      · rw [Function.update_of_ne hut]
        exact ⟨c', g'', hu, hstage, hold⟩

/-- No life changes. -/
theorem Tenure.same (h : Tenure life w) (hmade : w'.made = w.made)
    (hstored : w'.g_event_listener = w.g_event_listener)
    (hin : ∀ l, (w'.listeners l).In (life l)) : Tenure life w' where
  isIn := hin
  blank l := hmade ▸ h.blank l
  held l := hstored ▸ h.held l

theorem Owned.same (h : Owned life gs) (ht : gs t = some (c, g)) (howns : g'.Owns t life)
    (hmoved : g.stage = .moved → g'.stage = .moved ∧ g'.old = g.old)
    (hfresh : g.stage = .stored → g'.stage = .stored ∧ g'.fresh = g.fresh) :
    Owned life (Function.update gs t (some (c, g'))) where
  owns := forall_inside (fun u c' g'' _ => h.owns u c' g'') howns
  displaced l u hl := by
    obtain ⟨c', g'', hu, hstage, hold⟩ := h.displaced l u hl
    by_cases hut : u = t
    · rw [hut, ht] at hu
      cases hu
      rw [hut, Function.update_self]
      obtain ⟨hstage', hsame⟩ := hmoved hstage
      exact ⟨c, g', rfl, hstage', hsame.trans hold⟩
    · rw [Function.update_of_ne hut]
      exact ⟨c', g'', hu, hstage, hold⟩
  stored l u hl := by
    obtain ⟨c', g'', hu, hstage, hstored⟩ := h.stored l u hl
    by_cases hut : u = t
    · rw [hut, ht] at hu
      cases hu
      rw [hut, Function.update_self]
      obtain ⟨hstage', hsame⟩ := hfresh hstage
      exact ⟨c, g', rfl, hstage', hsame.trans hstored⟩
    · rw [Function.update_of_ne hut]
      exact ⟨c', g'', hu, hstage, hstored⟩

theorem Tenure.modify (h : Tenure life w) {f : Listener → Listener}
    (hf : (f (w.listeners l)).In (life l)) : Tenure life (w.modify l f) := by
  refine h.same rfl rfl fun l' => ?_
  by_cases hl : l' = l
  · rw [hl, EventModule.modify_self]
    exact hf
  · rw [EventModule.modify_ne hl]
    exact h.isIn l'

/-- What leaves the flags as they are leaves the life. -/
theorem Tenure.sameFlags (h : Tenure life w) {f : EventListenerState → EventListenerState}
    (hf : ∀ state : EventListenerState, state.SameFlags (f state)) :
    Tenure life (w.withState l f) := by
  obtain ⟨hactive, hhalted, hstarted, hjoinable, hgone, hentered⟩ := h.isIn l
  obtain ⟨hactive', hhalted'⟩ := hf (w.listeners l).state
  exact h.modify ⟨hactive'.trans hactive, hhalted'.trans hhalted, hstarted, hjoinable, hgone,
    hentered⟩

end Change

/-! ## The steps of a life -/

/-- One step of a life, by a call of the thread `t`. -/
inductive Life.Turns (t : Thread) : Life → Life → Prop
  | same (life : Life) : Turns t life life
  | made : Turns t .blank (.making t)
  | fails : Turns t (.making t) (.failing t)
  | releases : Turns t (.failing t) (.released t)
  | starts : Turns t (.making t) (.ready t)
  | stores : Turns t (.ready t) (.stored t)
  | activates : Turns t (.stored t) .current
  | moves : Turns t .current (.displaced t)
  | stops : Turns t (.displaced t) (.stopped t)
  | retires : Turns t (.stopped t) (.retired t)

/-- The lives after a step of `t`. A listener is installed when the step stores it, and only
then. -/
structure Turned (t : Thread) (news : News) (life life' : ListenerId → Life) : Prop where
  turns : ∀ l, (life l).Turns t (life' l)
  installed : ∀ l, (life' l).installed = true ↔ (life l).installed = true ∨ news = .stored l

section Turned

variable {life : ListenerId → Life} {t : Thread} {news : News} {l : ListenerId} {x : Life}

theorem turned_same (hnews : ∀ l, news ≠ .stored l) : Turned t news life life where
  turns l := .same (life l)
  installed l := (or_iff_left (hnews l)).symm

theorem turned_change (hx : (life l).Turns t x)
    (hinstalled : x.installed = true ↔ (life l).installed = true ∨ news = .stored l)
    (hnews : ∀ l', l' ≠ l → news ≠ .stored l') : Turned t news life (Function.update life l x) where
  turns l' := by
    by_cases hl : l' = l
    · rw [hl, Function.update_self]
      exact hx
    · rw [Function.update_of_ne hl]
      exact .same (life l')
  installed l' := by
    by_cases hl : l' = l
    · rw [hl, Function.update_self]
      exact hinstalled
    · rw [Function.update_of_ne hl]
      exact (or_iff_left (hnews l' hl)).symm

end Turned

section Deeds

variable {life : ListenerId → Life} {w w' : EventModule} {gs : Parts} {t : Thread}
  {c : ModuleCall} {g g' : Part} {news : News}

/-- The life of another listener stays. -/
theorem update_other {l l' : ListenerId} {x y : Life} (hl' : life l' = y) (hl : life l ≠ y) :
    Function.update life l x l' = y := by
  rw [Function.update_of_ne ?_]
  · exact hl'
  · rintro rfl
    exact hl hl'

/-- A call comes to a stage where its listeners have the same lives. -/
theorem Part.Owns.comes (h : g.Owns t life) (stage : Stage) (hstored : stage ≠ .stored)
    (hmine : ∀ l, g.mine = some l → stage.replacement t = g.stage.replacement t)
    (hold : ∀ l, g.old = some l → stage.previous t = g.stage.previous t) :
    ({ g with stage } : Part).Owns t life where
  mine l hl := (h.mine l hl).trans (hmine l hl).symm
  fresh _ hstage := absurd hstage hstored
  old l hl := (h.old l hl).trans (hold l hl).symm

theorem Stage.replacement_ne (stage stage' : Stage) :
    stage.replacement t ≠ stage'.previous t := by
  cases stage <;> cases stage' <;> nofun

/-- What a replacement and a displaced listener are not. -/
theorem Stage.replacement_kind (stage : Stage) :
    (stage.replacement t).held = false ∧ (stage.replacement t).installed = false ∧
      stage.replacement t ≠ .blank ∧ stage.replacement t ≠ .displaced t ∧
      stage.replacement t ≠ .stored t := by
  cases stage <;> exact ⟨rfl, rfl, nofun, nofun, nofun⟩

theorem Stage.previous_kind (stage : Stage) :
    (stage.previous t).held = false ∧ (stage.previous t).installed = true ∧
      stage.previous t ≠ .blank ∧ (stage.previous t = .displaced t → stage = .moved) ∧
      stage.previous t ≠ .stored t := by
  cases stage <;> exact ⟨rfl, rfl, nofun, by first | exact fun _ => rfl | exact nofun, nofun⟩

/-- A step of the life of the replacement. -/
theorem mine_turns {l : ListenerId} {f : Listener → Listener} (hl : Tenure life w)
    (ho : Owned life gs) (ht : gs t = some (c, g)) (hmine : g.mine = some l) {before : Stage}
    (hstage : g.stage = before) (stage : Stage)
    (hprevious : stage.previous t = before.previous t) (hmoved : before ≠ .moved)
    (hbefore : before ≠ .stored) (hafter : stage ≠ .stored)
    (hin : (w.listeners l).In (before.replacement t) →
      (f (w.listeners l)).In (stage.replacement t))
    (hturns : (before.replacement t).Turns t (stage.replacement t))
    (hnews : ∀ l, news ≠ .stored l) :
    ∃ life', Tenure life' (w.modify l f) ∧
      Owned life' (Function.update gs t (some (c, { g with stage }))) ∧
      Turned t news life life' := by
  have howns := ho.owns t c g ht
  have hlife := howns.mine l hmine
  rw [← hstage] at hprevious hmoved hbefore hin hturns
  obtain ⟨hheld, hinstalled, hblank, _, _⟩ := g.stage.replacement_kind (t := t)
  obtain ⟨hheld', hinstalled', hblank', hnot, hnot'⟩ := stage.replacement_kind (t := t)
  refine ⟨Function.update life l (stage.replacement t), ?_, ?_, ?_⟩
  · apply hl.aside (hin (hlife ▸ hl.isIn l))
    · rw [hlife]
      exact hblank
    · exact hblank'
    · rw [hlife]
      exact hheld
    · exact hheld'
  · apply ho.change ht
    · rw [hlife, Stage.owner_replacement]
      exact fun u hu => (Option.some.inj hu).symm
    · rw [Stage.owner_replacement]
      exact fun u hu => (Option.some.inj hu).symm
    · constructor
      · intro l' hl'
        have hsame : some l' = some l := hl'.symm.trans hmine
        cases hsame
        exact Function.update_self _ _ _
      · exact fun _ hstage => absurd hstage hafter
      · intro l' hl'
        apply update_other ((howns.old l' hl').trans hprevious.symm)
        rw [hlife]
        exact Stage.replacement_ne _ _
    · exact fun h => absurd h hnot
    · exact fun h => absurd h hmoved
    · exact fun h => absurd h hnot'
    · exact fun h => absurd h hbefore
  · apply turned_change
    · rw [hlife]
      exact hturns
    · rw [hlife, hinstalled, hinstalled', or_iff_left (hnews l)]
    · exact fun l' _ => hnews l'

/-- A step of the life of the displaced listener. -/
theorem old_turns {l : ListenerId} {f : Listener → Listener} (hl : Tenure life w)
    (ho : Owned life gs) (ht : gs t = some (c, g)) (hold : g.old = some l) {before : Stage}
    (hstage : g.stage = before) (stage : Stage)
    (hreplacement : stage.replacement t = before.replacement t) (hmoved : stage ≠ .moved)
    (hbefore : before ≠ .stored) (hafter : stage ≠ .stored)
    (hin : (w.listeners l).In (before.previous t) → (f (w.listeners l)).In (stage.previous t))
    (hturns : (before.previous t).Turns t (stage.previous t)) :
    ∃ life', Tenure life' (w.modify l f) ∧
      Owned life' (Function.update gs t (some (c, { g with stage }))) ∧
      Turned t .nothing life life' := by
  have howns := ho.owns t c g ht
  have hlife := howns.old l hold
  rw [← hstage] at hreplacement hbefore hin hturns
  obtain ⟨hheld, hinstalled, hblank, _, _⟩ := g.stage.previous_kind (t := t)
  obtain ⟨hheld', hinstalled', hblank', hnot, hnot'⟩ := stage.previous_kind (t := t)
  refine ⟨Function.update life l (stage.previous t), ?_, ?_, ?_⟩
  · apply hl.aside (hin (hlife ▸ hl.isIn l))
    · rw [hlife]
      exact hblank
    · exact hblank'
    · rw [hlife]
      exact hheld
    · exact hheld'
  · apply ho.change ht
    · rw [hlife, Stage.owner_previous]
      exact fun u hu => (Option.some.inj hu).symm
    · rw [Stage.owner_previous]
      exact fun u hu => (Option.some.inj hu).symm
    · constructor
      · intro l' hl'
        apply update_other ((howns.mine l' hl').trans hreplacement.symm)
        rw [hlife]
        exact (Stage.replacement_ne _ _).symm
      · exact fun _ hstage => absurd hstage hafter
      · intro l' hl'
        have hsame : some l' = some l := hl'.symm.trans hold
        cases hsame
        exact Function.update_self _ _ _
    · exact fun h => absurd (hnot h) hmoved
    · intro _ l' hl' hold'
      rw [hold] at hold'
      exact absurd (Option.some.inj hold').symm hl'
    · exact fun h => absurd h hnot'
    · exact fun h => absurd h hbefore
  · apply turned_change
    · rw [hlife]
      exact hturns
    · rw [hlife, hinstalled, hinstalled']
      simp
    · nofun

/-- A step that leaves the listeners of the call, and their lives. -/
theorem lives_stay (hl : Tenure life w') (ho : Owned life gs) (ht : gs t = some (c, g))
    (hstage : g'.stage = g.stage) (hmine : g'.mine = g.mine) (hfresh : g'.fresh = g.fresh)
    (hold : g'.old = g.old) (hnews : ∀ l, news ≠ .stored l) :
    ∃ life', Tenure life' w' ∧ Owned life' (Function.update gs t (some (c, g'))) ∧
      Turned t news life life' := by
  have howns := ho.owns t c g ht
  refine ⟨life, hl, ho.same ht ?_ (fun h => ⟨hstage.trans h, hold⟩)
    (fun h => ⟨hstage.trans h, hfresh⟩), turned_same hnews⟩
  constructor
  · rw [hmine, hstage]
    exact howns.mine
  · rw [hfresh, hstage]
    exact howns.fresh
  · rw [hold, hstage]
    exact howns.old

/-- A step to a stage where the listeners of the call have the same lives. -/
theorem lives_come (hl : Tenure life w') (ho : Owned life gs) (ht : gs t = some (c, g))
    {before : Stage} (hstage : g.stage = before) (stage : Stage)
    (hmine : ∀ l, g.mine = some l → stage.replacement t = before.replacement t)
    (hprevious : stage.previous t = before.previous t) (hmoved : before ≠ .moved)
    (hbefore : before ≠ .stored) (hafter : stage ≠ .stored) (hnews : ∀ l, news ≠ .stored l) :
    ∃ life', Tenure life' w' ∧
      Owned life' (Function.update gs t (some (c, { g with stage }))) ∧
      Turned t news life life' := by
  have howns := ho.owns t c g ht
  rw [← hstage] at hmine hprevious hmoved hbefore
  refine ⟨life, hl, ho.same ht ?_ ?_ ?_, turned_same hnews⟩
  · exact howns.comes stage hafter hmine fun _ _ => hprevious
  · exact fun h => absurd h hmoved
  · exact fun h => absurd h hbefore

/-- The call makes a listener. -/
theorem makes_lives (hl : Tenure life w) (ho : Owned life gs) (ht : gs t = some (c, g))
    (hstage : g.stage = .making) :
    ∃ life', Tenure life' { w with made := w.made + 1 } ∧
      Owned life' (Function.update gs t (some (c, { g with mine := some w.made }))) ∧
      Turned t (.made w.made) life life' := by
  have hold := (ho.owns t c g ht).old
  have hblank : life w.made = .blank := (hl.blank w.made).mpr (Nat.le_refl _)
  have hother : ∀ {l x}, life l = x → x ≠ .blank →
      Function.update life w.made (.making t) l = x :=
    fun hx hnot => update_other hx (hblank.symm ▸ hnot.symm)
  have hbefore : (w.listeners w.made).In .blank := hblank ▸ hl.isIn _
  refine ⟨Function.update life w.made (.making t), ?_, ?_, ?_⟩
  · constructor
    · intro l
      by_cases hl' : l = w.made
      · rw [hl', Function.update_self]
        exact ⟨hbefore.active, hbefore.halted, hbefore.started, hbefore.joinable, nofun,
          hbefore.entered⟩
      · rw [Function.update_of_ne hl']
        exact hl.isIn l
    · intro l
      by_cases hl' : l = w.made
      · rw [hl', Function.update_self]
        exact ⟨nofun, fun hle => absurd hle (Nat.not_succ_le_self _)⟩
      · rw [Function.update_of_ne hl', hl.blank]
        exact ⟨fun hle => Nat.lt_of_le_of_ne hle (Ne.symm hl'), Nat.le_of_succ_le⟩
    · intro l
      refine (hl.held l).trans ?_
      by_cases hl' : l = w.made
      · rw [hl', Function.update_self, hblank]
        exact ⟨nofun, nofun⟩
      · rw [Function.update_of_ne hl']
  · apply ho.change ht
    · rw [hblank]
      nofun
    · exact fun u hu => (Option.some.inj hu).symm
    · constructor
      · intro l hl'
        cases hl'
        rw [Function.update_self]
        exact hstage ▸ rfl
      · intro l hstored
        rw [show g.stage = .stored from hstored] at hstage
        cases hstage
      · exact fun l hl' => hother (hold l hl') g.stage.previous_kind.2.2.1
    · nofun
    · rw [hstage]
      nofun
    · nofun
    · rw [hstage]
      nofun
  · apply turned_change
    · rw [hblank]
      exact .made
    · rw [hblank]
      exact ⟨nofun, nofun⟩
    · nofun

/-- The call moves the listener out of `g_event_listener`. -/
theorem moves_lives {p : ListenerId} (hl : Tenure life w) (ho : Owned life gs)
    (ht : gs t = some (c, g)) (hstage : g.stage = .locked) (hp : w.g_event_listener = some p)
    (hsole : ∀ u c' g'', gs u = some (c', g'') → g''.stage.global = true →
      g.stage.global = true → u = t) :
    ∃ life', Tenure life' { w with g_event_listener := none } ∧
      Owned life' (Function.update gs t (some (c, { g with stage := .moved, old := some p }))) ∧
      Turned t (.displaced (some p)) life life' := by
  have hmine := (ho.owns t c g ht).mine
  have hcurrent : life p = .current := by
    have hheld := (hl.held p).mp hp
    cases hlife : life p with
    | current => rfl
    | stored u =>
      -- no other call is under the mutex
      obtain ⟨c', g'', hu, hstored, _⟩ := ho.stored p u hlife
      have hut := hsole u c' g'' hu (by rw [hstored]; rfl) (by rw [hstage]; rfl)
      rw [hut, ht] at hu
      cases hu
      rw [hstage] at hstored
      cases hstored
    | _ =>
      rw [hlife] at hheld
      cases hheld
  have hbefore : (w.listeners p).In .current := hcurrent ▸ hl.isIn _
  refine ⟨Function.update life p (.displaced t), ?_, ?_, ?_⟩
  · refine hl.change rfl (fun _ _ => rfl) ?_ ?_ ?_ ?_
    · exact ⟨hbefore.active, hbefore.halted, hbefore.started, hbefore.joinable, nofun,
        hbefore.entered⟩
    · rw [hcurrent]
      nofun
    · nofun
    · intro l
      by_cases hlp : l = p
      · rw [hlp, Function.update_self]
        exact ⟨nofun, nofun⟩
      · rw [Function.update_of_ne hlp]
        refine ⟨nofun, fun hheld => ?_⟩
        have hl' := (hl.held l).mpr hheld
        rw [hp] at hl'
        exact absurd (Option.some.inj hl').symm hlp
  · apply ho.change ht
    · rw [hcurrent]
      nofun
    · exact fun u hu => (Option.some.inj hu).symm
    · constructor
      · intro l hl'
        refine update_other ((hmine l hl').trans (hstage ▸ rfl)) ?_
        rw [hcurrent]
        nofun
      · nofun
      · intro l hl'
        cases hl'
        exact Function.update_self _ _ _
    · exact fun _ => ⟨rfl, rfl⟩
    · rw [hstage]
      nofun
    · nofun
    · rw [hstage]
      nofun
  · apply turned_change
    · rw [hcurrent]
      exact .moves
    · rw [hcurrent]
      simp [Life.installed]
    · nofun

/-- The call stores its replacement. -/
theorem stores_lives {l : ListenerId} (hl : Tenure life w) (ho : Owned life gs)
    (ht : gs t = some (c, g)) (hempty : w.g_event_listener = none) (hstage : g.stage = .emptied)
    (hl' : g.mine = some l) :
    ∃ life', Tenure life' { w with g_event_listener := some l } ∧
      Owned life' (Function.update gs t
        (some (c, { g with stage := .stored, mine := none, fresh := some l }))) ∧
      Turned t (.stored l) life life' := by
  have hmine := (ho.owns t c g ht).mine
  have hold := (ho.owns t c g ht).old
  have hready : life l = .ready t := by
    rw [hmine l hl', hstage]
    rfl
  have hbefore : (w.listeners l).In (.ready t) := hready ▸ hl.isIn _
  refine ⟨Function.update life l (.stored t), ?_, ?_, ?_⟩
  · refine hl.change rfl (fun _ _ => rfl) ?_ ?_ ?_ ?_
    · exact ⟨hbefore.active, hbefore.halted, hbefore.started, hbefore.joinable, nofun,
        hbefore.entered⟩
    · rw [hready]
      nofun
    · nofun
    · intro l'
      by_cases hll : l' = l
      · rw [hll, Function.update_self]
        exact ⟨fun _ => rfl, fun _ => rfl⟩
      · rw [Function.update_of_ne hll, ← hl.held l', hempty]
        exact ⟨fun h => absurd (Option.some.inj h).symm hll, nofun⟩
  · apply ho.change ht
    · rw [hready]
      exact fun u hu => (Option.some.inj hu).symm
    · exact fun u hu => (Option.some.inj hu).symm
    · constructor
      · nofun
      · intro l' _ hll
        cases hll
        exact Function.update_self _ _ _
      · intro l' hll
        refine update_other ((hold l' hll).trans (hstage ▸ rfl)) ?_
        rw [hready]
        nofun
    · nofun
    · rw [hstage]
      nofun
    · exact fun _ => ⟨rfl, rfl⟩
    · rw [hstage]
      nofun
  · apply turned_change
    · rw [hready]
      exact .stores
    · simp [Life.installed]
    · rintro l' hll ⟨⟩
      exact hll rfl

/-- The call activates the listener that it stored. -/
theorem activates_lives {l : ListenerId} (hl : Tenure life w) (ho : Owned life gs)
    (ht : gs t = some (c, g)) (hstage : g.stage = .stored) (hl' : g.fresh = some l) :
    ∃ life', Tenure life' (w.withState l (·.activate)) ∧
      Owned life' (Function.update gs t (some (c, { g with stage := .installed }))) ∧
      Turned t .nothing life life' := by
  have hmine := (ho.owns t c g ht).mine
  have hold := (ho.owns t c g ht).old
  have hstored : life l = .stored t := (ho.owns t c g ht).fresh l hstage hl'
  have hbefore : (w.listeners l).In (.stored t) := hstored ▸ hl.isIn _
  refine ⟨Function.update life l .current, ?_, ?_, ?_⟩
  · refine hl.change rfl (fun _ h => EventModule.modify_ne h) ?_ ?_ ?_ ?_
    · unfold EventModule.withState
      rw [EventModule.modify_self]
      exact ⟨rfl, hbefore.halted, hbefore.started, hbefore.joinable, nofun, hbefore.entered⟩
    · rw [hstored]
      nofun
    · nofun
    · intro l'
      refine (hl.held l').trans ?_
      by_cases hll : l' = l
      · rw [hll, Function.update_self, hstored]
        rfl
      · rw [Function.update_of_ne hll]
  · apply ho.change ht
    · rw [hstored]
      exact fun u hu => (Option.some.inj hu).symm
    · nofun
    · constructor
      · intro l' hll
        refine update_other ((hmine l' hll).trans (hstage ▸ rfl)) ?_
        rw [hstored]
        nofun
      · nofun
      · intro l' hll
        refine update_other ((hold l' hll).trans (hstage ▸ rfl)) ?_
        rw [hstored]
        nofun
    · nofun
    · rw [hstage]
      nofun
    · nofun
    · intro _ l' hll hl''
      rw [hl'] at hl''
      exact absurd (Option.some.inj hl'').symm hll
  · apply turned_change
    · rw [hstored]
      exact .activates
    · rw [hstored]
      simp [Life.installed]
    · nofun

/-- Every deed turns the lives. -/
theorem Deed.lives (hd : Deed t g w news g' w') (hl : Tenure life w)
    (ho : Owned life gs) (ht : gs t = some (c, g))
    (hempty : g.stage = .moved ∨ g.stage = .emptied → w.g_event_listener = none)
    (hsole : ∀ u c' g'', gs u = some (c', g'') → g''.stage.global = true →
      g.stage.global = true → u = t) :
    ∃ life', Tenure life' w' ∧ Owned life' (Function.update gs t (some (c, g'))) ∧
      Turned t news life life' := by
  have howns := ho.owns t c g ht
  have hmine := howns.mine
  have hold := howns.old
  -- what a listener is before a step of its life
  have hisIn : ∀ {l x}, life l = x → (w.listeners l).In x := fun h => h ▸ hl.isIn _
  cases hd with
  | nothing hout =>
    exact lives_stay hl ho ht rfl rfl rfl rfl nofun
  | fails hout hstage =>
    exact lives_stay hl ho ht rfl rfl rfl rfl nofun
  | unresolved l hout hstage =>
    exact lives_stay hl ho ht rfl rfl rfl rfl nofun
  | locksGlobal hout hstage hlocked hholder =>
    have hl' : Tenure life (w.withHolder .g_event_listener_mutex (some t)) :=
      hl.same rfl rfl hl.isIn
    rcases hstage with hstage | ⟨hstage, hnone, _⟩
    · exact lives_come hl' ho ht hstage .locked (fun _ _ => rfl) rfl nofun nofun nofun nofun
    · refine lives_come hl' ho ht hstage .locked ?_ rfl nofun nofun nofun nofun
      rw [hnone]
      nofun
  | unlocksGlobal hout hstage =>
    have hl' : Tenure life (w.withHolder .g_event_listener_mutex none) :=
      hl.same rfl rfl hl.isIn
    exact lives_come hl' ho ht hstage .retiring (fun _ _ => rfl) rfl nofun nofun nofun nofun
  | locks l hout hlocked hholder =>
    exact lives_stay (hl.same rfl rfl hl.isIn) ho ht rfl rfl rfl rfl nofun
  | unlocks l hout hlocked =>
    exact lives_stay (hl.same rfl rfl hl.isIn) ho ht rfl rfl rfl rfl nofun
  | sleeps l hout hstage hlocked =>
    exact lives_stay (hl.same rfl rfl hl.isIn) ho ht rfl rfl rfl rfl nofun
  | notes l f hout hstage hf =>
    exact lives_stay (hl.sameFlags hf) ho ht rfl rfl rfl rfl nofun
  | turns l live took found hout hstage hlocked hlive htook hfound =>
    exact lives_stay (hl.sameFlags fun state => state.check_flags) ho ht rfl rfl rfl rfl nofun
  | calls hout hfree hstage =>
    exact lives_stay (hl.same rfl rfl hl.isIn) ho ht rfl rfl rfl rfl nofun
  | returns hin hbusy =>
    exact lives_stay (hl.same rfl rfl hl.isIn) ho ht rfl rfl rfl rfl nofun
  | makes hout hstage hnone =>
    exact makes_lives hl ho ht hstage
  | registers l hout hstage hl' =>
    have hlife : life l = .making t := by
      rw [hmine l hl', hstage]
      rfl
    obtain ⟨hactive, hhalted, hstarted, hjoinable, hgone, hentered⟩ := hisIn hlife
    refine lives_stay (hl.modify ?_) ho ht rfl rfl rfl rfl nofun
    rw [hlife]
    exact ⟨hactive, hhalted, hstarted, hjoinable, nofun, hentered⟩
  | starts l ports hout hstage hl' hfailed =>
    exact mine_turns hl ho ht hl' hstage .ready rfl nofun nofun nofun
      (fun h => ⟨h.active, h.halted, rfl, rfl, nofun, fun _ => rfl⟩) .starts nofun
  | movesNone hout hstage hnone =>
    refine ⟨life, hl.same rfl hnone.symm hl.isIn, ho.same ht ?_ ?_ ?_, turned_same nofun⟩
    · constructor
      · intro l hl'
        exact (hmine l hl').trans (hstage ▸ rfl)
      · nofun
      · nofun
    · rw [hstage]
      nofun
    · rw [hstage]
      nofun
  | moves p hout hstage hp =>
    exact moves_lives hl ho ht hstage hp hsole
  | stopsOld l hout hstage hl' =>
    exact old_turns hl ho ht hl' hstage .emptied rfl nofun nofun nofun
      (fun h => ⟨h.active, rfl, h.started, h.joinable, nofun, h.entered⟩) .stops
  | stopsAgain l hout hstage hl' =>
    have hlife := hold l hl'
    rw [hstage] at hlife
    obtain ⟨hactive, hhalted, hstarted, hjoinable, hgone, hentered⟩ := hisIn hlife
    refine lives_stay (hl.modify ?_) ho ht rfl rfl rfl rfl nofun
    rw [hlife]
    exact ⟨hactive, rfl, hstarted, hjoinable, nofun, hentered⟩
  | stopsMine l hout hstage hl' =>
    exact mine_turns hl ho ht hl' hstage .failing rfl nofun nofun nofun
      (fun h => ⟨h.active, rfl, h.started, h.joinable, nofun, h.entered⟩) .fails nofun
  | storesNone hout hstage hnone =>
    have hnothing := hempty (Or.inr hstage)
    refine ⟨life, hl.same rfl hnothing.symm hl.isIn, ho.same ht ?_ ?_ ?_, turned_same nofun⟩
    · constructor
      · nofun
      · nofun
      · intro l hl'
        exact (hold l hl').trans (hstage ▸ rfl)
    · rw [hstage]
      nofun
    · rw [hstage]
      nofun
  | stores l hout hstage hl' =>
    exact stores_lives hl ho ht (hempty (Or.inr hstage)) hstage hl'
  | activates l hout hstage hl' =>
    exact activates_lives hl ho ht hstage hl'
  | releases l hout hstage hl' hgone =>
    have hid : w.modify l id = w := by
      unfold EventModule.modify
      rw [id, Function.update_eq_self]
    rw [← hid]
    exact mine_turns hl ho ht hl' hstage .released rfl nofun nofun nofun
      (fun h => ⟨h.active, h.halted, h.started, h.joinable, fun _ => hgone, h.entered⟩) .releases
      nofun
  | unregistersMine l hout hstage hl' =>
    exact mine_turns hl ho ht hl' hstage .released rfl nofun nofun nofun
      (fun h => ⟨h.active, h.halted, h.started, h.joinable, fun _ => rfl, h.entered⟩) .releases
      nofun
  | unregistersOld l hout hstage hl' =>
    obtain ⟨hactive, hhalted, hstarted, hjoinable, hgone, hentered⟩ := hl.isIn l
    refine lives_stay (hl.modify ?_) ho ht rfl rfl rfl rfl nofun
    exact ⟨hactive, hhalted, hstarted, hjoinable, fun _ => rfl, hentered⟩
  | findsItself l hout hstage hl' hos =>
    exact lives_come hl ho ht hstage .detaching (fun _ _ => rfl) rfl nofun nofun nofun nofun
  | findsAnother l hout hstage hl' hos =>
    exact lives_come hl ho ht hstage .joining (fun _ _ => rfl) rfl nofun nofun nofun nofun
  | detaches l hout hstage hl' =>
    exact old_turns hl ho ht hl' hstage .detached rfl nofun nofun nofun
      (fun h => ⟨h.active, h.halted, h.started, rfl, nofun, h.entered⟩) .retires
  | joins l hout hstage hl' hfinished =>
    exact old_turns hl ho ht hl' hstage .joined rfl nofun nofun nofun
      (fun h => ⟨h.active, h.halted, h.started, rfl, nofun, h.entered⟩) .retires

end Deeds

end cpp_bindings_windows
