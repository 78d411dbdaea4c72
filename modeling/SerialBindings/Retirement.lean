-- Replacing a listener retires the old one, whatever threads and dispatchers do:
-- one listener at most is active and not stopped, and a listener that was
-- displaced is silent. The teardown of listeners cannot deadlock.
import Mathlib.Logic.Relation
import SerialBindings.Succession

open programs

namespace cpp_bindings_windows

/-! ## What a displaced listener becomes -/

/-- The stages of a call that has moved the old listener out. -/
def Stage.displacing : Stage → Bool
  | .moved | .emptied => true
  | stage => stage.handed

section Deeds

variable {t : Thread} {g g' : Part} {w w' : EventModule} {news : News} {l : ListenerId}

/-- A call keeps the listener that it displaced. -/
theorem Deed.displacing (h : Deed t g w news g' w') (hold : g.old = some l)
    (hstage : g.stage.displacing = true) : g'.old = some l ∧ g'.stage.displacing = true := by
  cases h with
  | movesNone _ hlocked => rw [hlocked] at hstage; cases hstage
  | moves _ _ hlocked => rw [hlocked] at hstage; cases hstage
  | locksGlobal _ hbefore =>
    rcases hbefore with hbefore | ⟨hbefore, _⟩ <;> rw [hbefore] at hstage <;> cases hstage
  | starts _ _ _ hmaking => rw [hmaking] at hstage; cases hstage
  | stopsMine _ _ hmaking => rw [hmaking] at hstage; cases hstage
  | releases _ _ hfailing => rw [hfailing] at hstage; cases hstage
  | unregistersMine _ _ hfailing => rw [hfailing] at hstage; cases hstage
  | nothing | fails | unresolved | locks | unlocks | sleeps | notes | turns => exact ⟨hold, hstage⟩
  | calls | returns | makes | registers | stopsAgain | unregistersOld => exact ⟨hold, hstage⟩
  | unlocksGlobal | stopsOld | storesNone | stores | activates => exact ⟨hold, rfl⟩
  | findsItself | findsAnother | detaches | joins => exact ⟨hold, rfl⟩

theorem Deed.displaces (h : Deed t g w (.displaced (some l)) g' w') :
    g'.old = some l ∧ g'.stage = .moved := by
  cases h with
  | moves => exact ⟨rfl, rfl⟩

/-- A dispatcher takes a notification outside its callbacks, from a listener that is not
stopped. -/
theorem Deed.takes (h : Deed t g w news g' w') (htook : g'.took = true) :
    g.took = true ∨ (g.inUser = false ∧
      ∃ l, g.stage = .dispatching l ∧ (w.listeners l).state.stopped_ = false) := by
  cases h with
  | turns l live took found hout hstage _ _ htakes =>
    exact Or.inr ⟨hout, l, hstage, (htakes htook).2⟩
  | sleeps => cases htook
  | calls => cases htook
  | _ => exact Or.inl htook

end Deeds

/-- What became of the listeners that were displaced: the call that displaced one still has it,
or its dispatcher has returned, or the call ran on that dispatcher. -/
structure Retirement (ls : List ModuleLabel) (gs : Parts) (w : EventModule)
    (life : ListenerId → Life) : Prop where
  displaced : ∀ l1 l2 t l, ls = l1 ++ .did t .moveListener (some l) :: l2 →
    (∃ c g, gs t = some (c, g) ∧ g.old = some l ∧ g.stage.displacing = true ∧
        ∀ c' returned, .leave t c' returned ∉ l2) ∨
      t.os = .dispatcher l ∨ (w.listeners l).finished = true
  own : ∀ l1 l2 t l, ls = l1 ++ .did t .moveListener (some l) :: l2 → t.os = .dispatcher l →
    ((life l).halted = true ∨ ∃ u, life l = .displaced u ∧ u.os = .dispatcher l) ∧
      ∀ c g, gs ⟨.dispatcher l, 0⟩ = some (c, g) → g.took = false

namespace Retirement

variable {ls : List ModuleLabel} {gs : Parts} {w w' : EventModule}
  {life life' : ListenerId → Life} {t : Thread} {c : ModuleCall} {g g' : Part}
  {order : List ListenerId}

theorem init : Retirement [] (fun _ => none) {} fun _ => .blank where
  displaced _ _ _ _ h := by simp at h
  own _ _ _ _ h := by simp at h

theorem did {e : ListenerAction} {r : ListenerAnswer e} (hs : Stacked gs w)
    (hl : Succession order gs w life) (hr : Retirement ls gs w life) (ht : gs t = some (c, g))
    (hd : Deed t g w (newsOf e r) g' w')
    (howned : Owned life' (Function.update gs t (some (c, g'))))
    (hturned : Turned t (newsOf e r) life life') :
    Retirement (ls ++ [.did t e r]) (Function.update gs t (some (c, g'))) w' life' where
  displaced l1 l2 u l heq := by
    rcases snoc_split heq with ⟨rfl, rfl, hlast⟩ | ⟨l3, rfl, hbefore⟩
    · cases hlast
      obtain ⟨hold, hstage⟩ := hd.displaces
      exact Or.inl ⟨c, g', Function.update_self _ _ _, hold, by rw [hstage]; rfl, nofun⟩
    · rcases hr.displaced l1 l3 u l hbefore with ⟨c', g'', hu, hold, hstage, hin⟩ | hos | hfinished
      · have hin' : ∀ c' returned, .leave u c' returned ∉ l3 ++ [.did t e r] := by
          intro c' returned hmem
          rw [List.mem_append, List.mem_singleton] at hmem
          rcases hmem with hmem | hmem
          · exact hin c' returned hmem
          · cases hmem
        by_cases hut : u = t
        · rw [hut] at hu hin' ⊢
          rw [ht] at hu
          cases hu
          obtain ⟨hold', hstage'⟩ := hd.displacing hold hstage
          exact Or.inl ⟨c, g', Function.update_self _ _ _, hold', hstage', hin'⟩
        · exact Or.inl ⟨c', g'', by rw [Function.update_of_ne hut, hu], hold, hstage, hin'⟩
      · exact Or.inr (Or.inl hos)
      · exact Or.inr (Or.inr ((hd.entered l).2.trans hfinished))
  own l1 l2 u l heq hos := by
    rcases snoc_split heq with ⟨rfl, rfl, hlast⟩ | ⟨l3, rfl, hbefore⟩
    · cases hlast
      obtain ⟨hold, hstage⟩ := hd.displaces
      have hlife : life' l = .displaced t := by
        rw [(howned.owns t c g' (Function.update_self _ _ _)).old l hold, hstage]
        rfl
      refine ⟨Or.inr ⟨t, hlife, hos⟩, fun c₀ g₀ hg₀ => ?_⟩
      -- the dispatcher is inside its callback
      have hnot : ∀ l', g.stage ≠ .dispatching l' := by
        intro l' hstage'
        rw [(hd.stage.2 l').mpr hstage'] at hstage
        cases hstage
      obtain ⟨c₁, g₁, hg₁, _, htook, hdispatching, _⟩ := hs.inside ht hos hnot
      have hne : (⟨.dispatcher l, 0⟩ : Thread) ≠ t := by
        rintro rfl
        rw [ht] at hg₁
        cases hg₁
        exact hnot l hdispatching
      rw [Function.update_of_ne hne, hg₁] at hg₀
      cases hg₀
      exact htook
    · obtain ⟨hlife, htook⟩ := hr.own l1 l3 u l hbefore hos
      constructor
      · rcases hlife with hhalted | ⟨v, hlife, hv⟩
        · exact Or.inl ((hturned.turns l).flags.2 hhalted)
        · have hturns := hturned.turns l
          rw [hlife] at hturns
          generalize hafter : life' l = after at hturns
          cases hturns with
          | same => exact Or.inr ⟨v, rfl, hv⟩
          | stops => exact Or.inl rfl
      · intro c₀ g₀ hg₀
        by_cases hne : (⟨.dispatcher l, 0⟩ : Thread) = t
        · rw [← hne] at hg₀ ht
          rw [Function.update_self] at hg₀
          cases hg₀
          by_contra htakes
          rw [Bool.not_eq_false] at htakes
          rcases hd.takes htakes with hbefore' | ⟨hout, l', hstage, hstopped⟩
          · rw [htook c g ht] at hbefore'
            cases hbefore'
          · have hstage' := hs.dispatching ht hstage
            cases hstage'
            rcases hlife with hhalted | ⟨v, hlife, hv⟩
            · rw [(hl.tenure.isIn l).halted, hhalted] at hstopped
              cases hstopped
            · -- the call that displaces it runs inside its callback
              obtain ⟨c', g'', hgv, hmoved, _⟩ := hl.owned.displaced l v hlife
              obtain ⟨c₁, g₁, hg₁, hin, _⟩ := hs.inside hgv hv (by rw [hmoved]; nofun)
              rw [ht] at hg₁
              cases hg₁
              rw [hout] at hin
              cases hin
        · rw [Function.update_of_ne hne] at hg₀
          exact htook c₀ g₀ hg₀

theorem enter (hr : Retirement ls gs w life) (ht : gs t = none)
    (hfinished : ∀ l, (w'.listeners l).finished = (w.listeners l).finished) :
    Retirement (ls ++ [.enter t c]) (Function.update gs t (some (c, c.part))) w' life where
  displaced l1 l2 u l heq := by
    rcases snoc_split heq with ⟨_, _, hlast⟩ | ⟨l3, rfl, hbefore⟩
    · cases hlast
    · rcases hr.displaced l1 l3 u l hbefore with ⟨c', g', hu, hold, hstage, hin⟩ | hos | hdone
      · have hut : u ≠ t := by
          rintro rfl
          rw [ht] at hu
          cases hu
        refine Or.inl ⟨c', g', by rw [Function.update_of_ne hut, hu], hold, hstage, ?_⟩
        intro c'' returned hmem
        rw [List.mem_append, List.mem_singleton] at hmem
        rcases hmem with hmem | hmem
        · exact hin c'' returned hmem
        · cases hmem
      · exact Or.inr (Or.inl hos)
      · exact Or.inr (Or.inr ((hfinished l).trans hdone))
  own l1 l2 u l heq hos := by
    rcases snoc_split heq with ⟨_, _, hlast⟩ | ⟨l3, rfl, hbefore⟩
    · cases hlast
    · obtain ⟨hlife, htook⟩ := hr.own l1 l3 u l hbefore hos
      refine ⟨hlife, fun c₀ g₀ hg₀ => ?_⟩
      by_cases hne : (⟨.dispatcher l, 0⟩ : Thread) = t
      · rw [hne, Function.update_self] at hg₀
        cases hg₀
        cases c <;> rfl
      · rw [Function.update_of_ne hne] at hg₀
        exact htook c₀ g₀ hg₀

theorem leave {returned : Option Int} (hl : Succession order gs w life)
    (hr : Retirement ls gs w life)
    (ht : gs t = some (c, g)) (hends : g.Ends)
    (hfinished : ∀ l, (w.listeners l).finished = true → (w'.listeners l).finished = true) :
    Retirement (ls ++ [.leave t c returned]) (Function.update gs t none) w' life where
  displaced l1 l2 u l heq := by
    rcases snoc_split heq with ⟨_, _, hlast⟩ | ⟨l3, rfl, hbefore⟩
    · cases hlast
    · rcases hr.displaced l1 l3 u l hbefore with ⟨c', g', hu, hold, hstage, hin⟩ | hos | hdone
      · by_cases hut : u = t
        · rw [hut, ht] at hu
          cases hu
          rw [hut]
          obtain ⟨hitself, _, hjoined⟩ := hl.retires t c g ht
          rcases hends.retired with hnone | hdetached | hstage'
          · rw [hold] at hnone
            cases hnone
          · exact Or.inr (Or.inl (hitself (Or.inr hdetached) l hold))
          · exact Or.inr (Or.inr (hfinished l (hjoined hstage' l hold)))
        · refine Or.inl ⟨c', g', by rw [Function.update_of_ne hut, hu], hold, hstage, ?_⟩
          intro c'' returned' hmem
          rw [List.mem_append, List.mem_singleton] at hmem
          rcases hmem with hmem | hmem
          · exact hin c'' returned' hmem
          · cases hmem
            exact hut rfl
      · exact Or.inr (Or.inl hos)
      · exact Or.inr (Or.inr (hfinished l hdone))
  own l1 l2 u l heq hos := by
    rcases snoc_split heq with ⟨_, _, hlast⟩ | ⟨l3, rfl, hbefore⟩
    · cases hlast
    · obtain ⟨hlife, htook⟩ := hr.own l1 l3 u l hbefore hos
      refine ⟨hlife, fun c₀ g₀ hg₀ => ?_⟩
      by_cases hne : (⟨.dispatcher l, 0⟩ : Thread) = t
      · rw [hne, Function.update_self] at hg₀
        cases hg₀
      · rw [Function.update_of_ne hne] at hg₀
        exact htook c₀ g₀ hg₀

end Retirement

/-! ## Every run -/

/-- The calls, their threads and the listeners after any steps. -/
structure Tended (ls : List ModuleLabel) (gs : Parts) (w : EventModule)
    (life : ListenerId → Life) : Prop where
  stacked : Stacked gs w
  succession : Succession (installations ls) gs w life
  retirement : Retirement ls gs w life

namespace Tended

variable {ls : List ModuleLabel} {gs : Parts} {w w' : EventModule}
  {life : ListenerId → Life} {t : Thread} {c : ModuleCall} {g : Part}

/-- Whether the thread of a listener is joinable is known where a call asks. -/
theorem joinable (h : Tended ls gs w life) (ht : gs t = some (c, g)) {e : ListenerAction}
    (ha : tending.allows g e) (l : ListenerId) (he : e = .joinable l) :
    (w.listeners l).joinable = decide (g.stage = .retiring) := by
  obtain ⟨hmine, _, hold⟩ := h.succession.owned.owns t c g ht
  rw [he] at ha
  rw [(h.succession.tenure.isIn l).joinable]
  rcases ha.2 with ⟨hstage, hl⟩ | ⟨hstage, hl⟩
  · rw [hold l hl, hstage]
    rfl
  · rw [hmine l hl, hstage]
    rfl

theorem did (h : Tended ls gs w life) (ht : gs t = some (c, g)) {e : ListenerAction}
    {r : ListenerAnswer e} (ha : tending.allows g e)
    (hp : EventModule.perform t w e r = some w') :
    ∃ g', tending.next g e r = some g' ∧ Deed t g w (newsOf e r) g' w' ∧
      ∃ life', Tended (ls ++ [.did t e r]) (Function.update gs t (some (c, g'))) w' life' ∧
        Turned t (newsOf e r) life life' := by
  obtain ⟨g', hnext, hd⟩ := deed_of_did ha hp (h.joinable ht ha)
  obtain ⟨life', hl, hturned⟩ := h.succession.deed h.stacked ht hd
  refine ⟨g', hnext, hd, life', ⟨h.stacked.deed ht hd, ?_, ?_⟩, hturned⟩
  · rw [installations_did]
    exact hl
  · exact h.retirement.did h.stacked h.succession ht hd hl.owned hturned

theorem enter (h : Tended ls gs w life) (ht : gs t = none)
    (he : EventModule.enter t w c = some w') :
    Tended (ls ++ [.enter t c]) (Function.update gs t (some (c, c.part))) w' life where
  stacked := h.stacked.enter ht he
  succession := by
    rw [installations_enter]
    exact h.succession.enter ht he
  retirement := by
    obtain ⟨_, _, _, _, hlisteners⟩ := Stacked.enter_cases he
    exact h.retirement.enter ht fun l => (hlisteners l).1

theorem leave {returned : Option Int} (h : Tended ls gs w life) (ht : gs t = some (c, g))
    (hends : g.Ends) (hl : EventModule.leave t w c returned = some w') :
    Tended (ls ++ [.leave t c returned]) (Function.update gs t none) w' life where
  stacked := h.stacked.leave ht hends hl
  succession := by
    rw [installations_leave]
    exact h.succession.leave h.stacked ht hends hl
  retirement := by
    obtain ⟨_, _, _, hlisteners⟩ := Stacked.leave_cases hl
    exact h.retirement.leave h.succession ht hends
      fun l hfinished => (hlisteners l).2.mpr (Or.inl hfinished)

end Tended

/-- A call leaves with what it returns. -/
theorem returned_of_leave {w w' : EventModule} {t : Thread} {c : ModuleCall}
    {returned : Option Int} (h : EventModule.leave t w c returned = some w') :
    ∃ code, returned = some code := by
  unfold EventModule.leave at h
  split at h
  · exact Option.isSome_iff_exists.mp (by assumption)
  · cases h

def tendingOutline (core : CppCore) (chars : CharUpper) :
    Outline (eventModule core chars) always {} tending where
  start := ModuleCall.part
  post c g returned := ∀ code, returned = some code → c.Returns core g code
  inv ls gs w := ∃ life, Tended ls gs w life
  follows c := c.program_tends core chars
  init := ⟨_, Stacked.init, Succession.init, Retirement.init⟩
  enter := by
    rintro ls gs w t c w' ⟨life, h⟩ ht he _
    exact ⟨life, h.enter ht he⟩
  did := by
    rintro ls gs w t c g e r w' ⟨life, h⟩ ht ha hp _
    obtain ⟨g', hnext, _, life', h', _⟩ := h.did ht ha hp
    exact ⟨g', hnext, life', h'⟩
  leave := by
    rintro ls gs w t c g returned w' ⟨life, h⟩ ht hends hl _
    obtain ⟨code, hcode⟩ := returned_of_leave hl
    exact ⟨life, h.leave ht (hends code hcode).ends hl⟩

section Runs

variable {core : CppCore} {chars : CharUpper} {ls : List ModuleLabel} {s : ModuleSys}

/-- The state after a run, with the call of each thread that is inside one. -/
theorem tended (h : Runs (eventModule core chars) always {} ls s) :
    ∃ gs life, Tended ls gs s.shared life ∧ (tendingOutline core chars).Matches s.threads gs := by
  obtain ⟨gs, ⟨life, hi⟩, hm⟩ := (tendingOutline core chars).runs h
  exact ⟨gs, life, hi, hm⟩

/-- Before a callback of a listener, its dispatcher has taken a notification. -/
theorem before_callback (h : Runs (eventModule core chars) always {} ls s)
    {l1 l2 : List ModuleLabel}
    {u : Thread} {l : ListenerId} {path : WString} {event : PortEvent} {port : String}
    (heq : ls = l1 ++ .did u (.callback l path event port) () :: l2) :
    ∃ gs w life c g, Tended l1 gs w life ∧ gs ⟨.dispatcher l, 0⟩ = some (c, g) ∧
      g.took = true := by
  obtain ⟨s1, s2, hr, _, hstep⟩ := h.split heq
  obtain ⟨gs, life, hi, hm⟩ := tended hr
  cases hstep with
  | did ht hp =>
    obtain ⟨g, hg, hf⟩ := Outline.some_of_some hm ht
    obtain ⟨_, hstage, _, htook⟩ := hf.1
    have hu := hi.stacked.dispatching hg hstage
    rw [hu] at hg
    exact ⟨gs, s1.shared, life, _, g, hi, hg, htook⟩

end Runs

/-! ## One listener -/

/-- The listener is active and not stopped. -/
def EventModule.Live (w : EventModule) (l : ListenerId) : Prop :=
  (w.listeners l).state.active_ = true ∧ (w.listeners l).state.stopped_ = false

section Live

variable {ls : List ModuleLabel} {gs : Parts} {w : EventModule} {life : ListenerId → Life}
  {l l' : ListenerId}

theorem Tended.live_iff (h : Tended ls gs w life) :
    w.Live l ↔ life l = .current ∨ ∃ t, life l = .displaced t := by
  obtain ⟨hactive, hhalted, _⟩ := h.succession.tenure.isIn l
  unfold EventModule.Live
  rw [hactive, hhalted]
  cases life l <;> simp [Life.active, Life.halted]

/-- While a listener is displaced and not stopped, its call is under the mutex and nothing is
stored. -/
theorem Tended.displaced (h : Tended ls gs w life) {t : Thread} (hl : life l = .displaced t) :
    w.holder .g_event_listener_mutex = some t ∧ w.g_event_listener = none ∧
      ∃ c g, gs t = some (c, g) ∧ g.old = some l := by
  obtain ⟨c, g, ht, hstage, hold⟩ := h.succession.owned.displaced l t hl
  refine ⟨(h.stacked.holder_of ht _).mpr ?_, h.succession.empty t c g ht (Or.inl hstage),
    c, g, ht, hold⟩
  rw [Part.holds_global, hstage]
  rfl

theorem Tended.one_live (h : Tended ls gs w life) (hl : w.Live l) (hl' : w.Live l') : l = l' := by
  have hstored : ∀ {l}, life l = .current → w.g_event_listener = some l := by
    intro l hlife
    rw [h.succession.tenure.held, hlife]
    rfl
  rcases h.live_iff.mp hl with hlife | ⟨t, hlife⟩
  · rcases h.live_iff.mp hl' with hlife' | ⟨t', hlife'⟩
    · exact Option.some.inj ((hstored hlife).symm.trans (hstored hlife'))
    · have hnone := (h.displaced hlife').2.1
      rw [hstored hlife] at hnone
      cases hnone
  · obtain ⟨hholder, hnone, c, g, ht, hold⟩ := h.displaced hlife
    rcases h.live_iff.mp hl' with hlife' | ⟨t', hlife'⟩
    · rw [hstored hlife'] at hnone
      cases hnone
    · obtain ⟨hholder', _, c', g', ht', hold'⟩ := h.displaced hlife'
      cases Option.some.inj (hholder.symm.trans hholder')
      rw [ht] at ht'
      cases ht'
      exact Option.some.inj (hold.symm.trans hold')

theorem Tended.live_of_free (h : Tended ls gs w life)
    (hfree : w.holder .g_event_listener_mutex = none) :
    w.Live l ↔ w.g_event_listener = some l := by
  rw [h.live_iff, h.succession.tenure.held]
  constructor
  · rintro (hlife | ⟨t, hlife⟩)
    · rw [hlife]
      rfl
    · rw [(h.displaced hlife).1] at hfree
      cases hfree
  · intro hheld
    cases hlife : life l with
    | current => exact Or.inl rfl
    | stored t =>
      -- a listener is stored and not yet active only under the mutex
      obtain ⟨c, g, ht, hstage, _⟩ := h.succession.owned.stored l t hlife
      have hholder := (h.stacked.holder_of ht .g_event_listener_mutex).mpr (by
        rw [Part.holds_global, hstage]
        rfl)
      rw [hholder] at hfree
      cases hfree
    | _ =>
      rw [hlife] at hheld
      cases hheld

end Live

/-- The old listeners are retired. Once the call that displaced a listener has returned to another
thread, the callback of that listener neither runs nor is invoked. After a call displaced the
listener of its own thread, the callback of that listener is not invoked. -/
structure OldListenersRetire (ls : List ModuleLabel) (w : EventModule) : Prop where
  one : ∀ l l', w.Live l → w.Live l' → l = l'
  stored : w.holder .g_event_listener_mutex = none →
    ∀ l, w.Live l ↔ w.g_event_listener = some l
  elsewhere : ∀ l1 l2 l3 t c code l,
    ls = l1 ++ .did t .moveListener (some l) :: (l2 ++ .leave t c code :: l3) →
    t.os ≠ .dispatcher l → w.inUser ⟨.dispatcher l, 0⟩ = false ∧
      ∀ u path event port, .did u (.callback l path event port) () ∉ l3
  itself : ∀ l1 l2 t l, ls = l1 ++ .did t .moveListener (some l) :: l2 → t.os = .dispatcher l →
    ∀ u path event port, .did u (.callback l path event port) () ∉ l2

/-- In every run, one listener at most is active and not stopped, which is the one in
`g_event_listener` while nobody holds its mutex, and the old listeners are retired. -/
theorem replacing_a_listener_retires_the_old_one (core : CppCore) (chars : CharUpper)
    {ls : List ModuleLabel} {s : ModuleSys}
    (h : Runs (eventModule core chars) always {} ls s) : OldListenersRetire ls s.shared := by
  obtain ⟨gs, life, hi, _⟩ := tended h
  -- the dispatcher of a listener that another thread displaced has returned
  have hreturned : ∀ {ls gs w life l1 l2 l3 t c code l}, Tended ls gs w life →
      ls = l1 ++ .did t .moveListener (some l) :: (l2 ++ .leave t c code :: l3) →
      t.os ≠ .dispatcher l → gs ⟨.dispatcher l, 0⟩ = none := by
    intro ls gs w life l1 l2 l3 t c code l hi heq hos
    rcases hi.retirement.displaced l1 _ t l heq with ⟨_, _, _, _, _, hin⟩ | hown | hfinished
    · exact absurd (List.mem_append_right _ List.mem_cons_self) (hin c code)
    · exact absurd hown hos
    · exact (hi.stacked.finished l hfinished).2
  refine ⟨fun l l' => hi.one_live, fun hfree l => hi.live_of_free hfree, ?_, ?_⟩
  · intro l1 l2 l3 t c code l heq hos
    constructor
    · rw [Bool.eq_false_iff]
      intro hin
      obtain ⟨c', g', hg', _⟩ := (hi.stacked.inUser _).mp hin
      rw [hreturned hi heq hos] at hg'
      cases hg'
    · intro u path event port hmem
      obtain ⟨l4, l5, rfl⟩ := List.append_of_mem hmem
      have heq' : ls = (l1 ++ .did t .moveListener (some l) :: (l2 ++ .leave t c code :: l4)) ++
          .did u (.callback l path event port) () :: l5 := by
        simp [heq]
      obtain ⟨gs', w', life', c', g', hi', hg', _⟩ := before_callback h heq'
      rw [hreturned hi' rfl hos] at hg'
      cases hg'
  · intro l1 l2 t l heq hos u path event port hmem
    obtain ⟨l4, l5, rfl⟩ := List.append_of_mem hmem
    have heq' : ls = (l1 ++ .did t .moveListener (some l) :: l4) ++
        .did u (.callback l path event port) () :: l5 := by
      simp [heq]
    obtain ⟨gs', w', life', c', g', hi', hg', htook⟩ := before_callback h heq'
    rw [(hi'.retirement.own l1 l4 t l rfl hos).2 c' g' hg'] at htook
    cases htook

/-! ## A run with three listeners -/

/-- The answers of Windows without ports, where nothing fails. -/
def moduleAnswer (t : Thread) (w : EventModule) : (action : ListenerAction) → ListenerAnswer action
  | .check l => (w.listeners l).state.check.1
  | .makeListener => .ok w.made
  | .capturedPorts l => (w.listeners l).ports.getD ∅
  | .moveListener => w.g_event_listener
  | .hasNotification l => (w.listeners l).registered
  | .joinable l => (w.listeners l).joinable
  | .isCurrentThread l => decide (t.os = .dispatcher l)
  | action => quietAnswer action

abbrev ModuleMove := Move Thread ListenerAction ListenerAnswer ModuleCall EventModule

def ModuleMove.acts (t : Thread) (n : Nat) : List ModuleMove :=
  List.replicate n (.act t moduleAnswer)

/-- The call inside the callback of the listener 0, below. -/
def innerCall : Thread := ⟨.dispatcher 0, 1⟩

/-- The application installs the listener 0, and a device comes. The callback of the listener 0
installs the listener 1 and detaches its own thread, and then it installs the listener 2 and comes
to the join of the thread of the listener 1. -/
def replacements : List ModuleMove :=
  let set : ModuleCall := .set 1 (some 0) (some 0)
  [.enter ⟨.app 0, 0⟩ set] ++ ModuleMove.acts ⟨.app 0, 0⟩ 12 ++
  [.leave ⟨.app 0, 0⟩, .enter ⟨.app 1, 0⟩ (.deviceNotification 0 0 ⟨0, [65]⟩)] ++
  ModuleMove.acts ⟨.app 1, 0⟩ 3 ++
    [.leave ⟨.app 1, 0⟩, .enter ⟨.dispatcher 0, 0⟩ (.dispatch 0 3)] ++
  ModuleMove.acts ⟨.dispatcher 0, 0⟩ 6 ++ [.enter innerCall set] ++ ModuleMove.acts innerCall 23 ++
  [.leave innerCall, .enter innerCall set] ++ ModuleMove.acts innerCall 22

/-- The dispatcher of the listener 1 returns, and then the call that joins it. -/
def retirements : List ModuleMove :=
  [.enter ⟨.dispatcher 1, 0⟩ (.dispatch 1 2)] ++ ModuleMove.acts ⟨.dispatcher 1, 0⟩ 4 ++
  [.leave ⟨.dispatcher 1, 0⟩] ++ ModuleMove.acts innerCall 1 ++ [.leave innerCall]

/-- The listeners that were displaced, each with the thread that did so. -/
def displacements : List ModuleLabel → List (Thread × ListenerId) :=
  List.filterMap fun
    | .did t .moveListener (some l) => some (t, l)
    | _ => none

/-- The listener 0 is displaced by its own callback and the listener 1 by another dispatcher. -/
theorem two_listeners_retire :
    ∃ ls s, Runs (eventModule sampleCore plainUnits) always {} ls s ∧
      displacements ls = [(innerCall, 0), (innerCall, 1)] ∧
      s.shared.g_event_listener = some 2 ∧ OldListenersRetire ls s.shared := by
  obtain ⟨ls, s, hr, hx⟩ := Sys.moves_exists (eventModule sampleCore plainUnits) always {}
    (replacements ++ retirements) (fun ls s => (displacements ls, s.shared.g_event_listener))
    (x := ([(innerCall, 0), (innerCall, 1)], some 2)) rfl
  simp only [Prod.mk.injEq] at hx
  exact ⟨ls, s, hr, hx.1, hx.2, replacing_a_listener_retires_the_old_one sampleCore plainUnits hr⟩

/-! ## No deadlock -/

/-- The listener whose thread a thread waits for. -/
def joining (s : ModuleSys) (t : Thread) : Option ListenerId :=
  match s.threads t with
  | some (_, .act (.join l) _) => some l
  | _ => none

/-- The thread of `l` waits in the join of the thread of `l'`. -/
def Joins (s : ModuleSys) (l l' : ListenerId) : Prop :=
  ∃ t : Thread, t.os = .dispatcher l ∧ joining s t = some l'

/-- In every run, no dispatchers join each other in a circle, and no dispatcher joins itself. A
thread that waits in a join holds no mutex. -/
theorem teardown_cannot_deadlock (core : CppCore) (chars : CharUpper) {ls : List ModuleLabel}
    {s : ModuleSys} (h : Runs (eventModule core chars) always {} ls s) :
    (∀ l, ¬ Relation.TransGen (Joins s) l l) ∧
      ∀ t l, joining s t = some l → ∀ mutex depth, s.shared.holder mutex ≠ some ⟨t.os, depth⟩ := by
  obtain ⟨gs, life, hi, hm⟩ := tended h
  have hjoining : ∀ {t l}, joining s t = some l → ∃ c g, gs t = some (c, g) ∧
      g.inUser = false ∧ g.stage = .joining ∧ g.old = some l ∧ g.locked = none := by
    intro t l hjoin
    unfold joining at hjoin
    split at hjoin
    · rename_i ht
      cases hjoin
      obtain ⟨g, hg, hf⟩ := Outline.some_of_some hm ht
      obtain ⟨hout, hstage, hold, hlocked⟩ := hf.1
      exact ⟨_, g, hg, hout, hstage, hold, hlocked⟩
    · cases hjoin
  -- a dispatcher joins only a listener that was installed after its own
  have holder : ∀ {l l'}, Joins s l l' → Older (installations ls) l l' := by
    rintro l l' ⟨t, hos, hjoin⟩
    obtain ⟨c, g, hg, _, hstage, hold, _⟩ := hjoining hjoin
    apply hi.succession.older t c g l' l hg hold hos
    rintro rfl
    exact (hi.succession.retires t c g hg).another (Or.inl hstage) l hold hos
  constructor
  · intro l hcycle
    have hlt : ∀ {l'}, Relation.TransGen (Joins s) l l' →
        (installations ls).idxOf l < (installations ls).idxOf l' := by
      intro l' hpath
      induction hpath with
      | single hjoins => exact (holder hjoins).2
      | tail _ hjoins ih => exact Nat.lt_trans ih (holder hjoins).2
    exact absurd (hlt hcycle) (Nat.lt_irrefl _)
  · intro t l hjoin
    obtain ⟨c, g, hg, hout, hstage, _, hlocked⟩ := hjoining hjoin
    exact hi.stacked.holds_none hg ⟨hout, hlocked⟩ (by rw [hstage]; rfl)

/-- The thread of the listener 0, inside its callback, joins the listener 1. -/
theorem a_dispatcher_joins_a_younger_one :
    ∃ ls s, Runs (eventModule sampleCore plainUnits) always {} ls s ∧ Joins s 0 1 ∧
      (∀ l, ¬ Relation.TransGen (Joins s) l l) ∧
      ∀ mutex depth, s.shared.holder mutex ≠ some ⟨.dispatcher 0, depth⟩ := by
  obtain ⟨ls, s, hr, hx⟩ := Sys.moves_exists (eventModule sampleCore plainUnits) always {}
    replacements (fun _ s => joining s innerCall) (x := some 1) rfl
  obtain ⟨hacyclic, hfree⟩ := teardown_cannot_deadlock sampleCore plainUnits hr
  exact ⟨ls, s, hr, ⟨innerCall, rfl, hx⟩, hacyclic, hfree innerCall 1 hx⟩

end cpp_bindings_windows
