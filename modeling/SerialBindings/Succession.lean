-- The succession of the listeners. They are installed one after the other, so a
-- dispatcher that displaces another listener is older than that listener. What
-- the dispatchers have seen of their listeners stays true.
import SerialBindings.Tenure

open programs

namespace cpp_bindings_windows

/-! ## What a step leaves -/

section Deeds

variable {t : Thread} {g g' : Part} {w w' : EventModule} {news : News}

/-- A dispatcher that knows its listener as active, or as stopped, has seen it so. -/
theorem Deed.seen (h : Deed t g w news g' w') :
    (g'.live = true → g.live = true ∨
        ∃ l, g.stage = .dispatching l ∧ (w.listeners l).state.active_ = true) ∧
      (g'.found = true → g.found = true ∨
        ∃ l, g.stage = .dispatching l ∧ (w.listeners l).state.stopped_ = true) := by
  cases h with
  | turns l live took found _ hstage _ hlive _ hfound =>
    exact ⟨fun h => (hlive h).imp_right fun h' => ⟨l, hstage, h'⟩,
      fun h => (hfound h).imp_right fun h' => ⟨l, hstage, h'⟩⟩
  | _ => exact ⟨Or.inl, Or.inl⟩

/-- Only under `g_event_listener_mutex` the listener is moved out. -/
theorem Deed.old (h : Deed t g w news g' w') :
    g'.old = g.old ∨ ∀ p, g'.old = some p → w.g_event_listener = some p ∧ g.stage = .locked := by
  cases h with
  | movesNone => exact Or.inr nofun
  | moves p _ hstage hp =>
    refine Or.inr fun p' hp' => ?_
    cases hp'
    exact ⟨hp, hstage⟩
  | _ => exact Or.inl rfl

/-- A call that is not under the mutex leaves `g_event_listener` as it is. -/
theorem Deed.leaves_stored (h : Deed t g w news g' w') (hglobal : g.stage.global = false) :
    w'.g_event_listener = w.g_event_listener := by
  cases h with
  | movesNone _ hstage => rw [hstage] at hglobal; cases hglobal
  | moves _ _ hstage => rw [hstage] at hglobal; cases hglobal
  | storesNone _ hstage => rw [hstage] at hglobal; cases hglobal
  | stores _ _ hstage => rw [hstage] at hglobal; cases hglobal
  | _ => rfl

/-- What is stored after a step was stored before it, or the step stores it. -/
theorem Deed.stored (h : Deed t g w news g' w') :
    (∀ p, w'.g_event_listener = some p → w.g_event_listener = some p ∨ news = .stored p) ∧
      ∀ p, news = .stored p → g.mine = some p ∧ w'.g_event_listener = some p := by
  cases h with
  | movesNone => exact ⟨nofun, nofun⟩
  | moves => exact ⟨nofun, nofun⟩
  | storesNone => exact ⟨nofun, nofun⟩
  | stores l _ _ hmine =>
    refine ⟨fun p hp => ?_, fun p hp => ?_⟩
    · cases hp
      exact Or.inr rfl
    · cases hp
      exact ⟨hmine, rfl⟩
  | _ => exact ⟨fun _ => Or.inl, nofun⟩

/-- Between the move and the store nothing is stored. -/
theorem Deed.empties (h : Deed t g w news g' w')
    (hg : g.stage = .moved ∨ g.stage = .emptied → w.g_event_listener = none)
    (hg' : g'.stage = .moved ∨ g'.stage = .emptied) : w'.g_event_listener = none := by
  cases h with
  | movesNone => rfl
  | moves => rfl
  | stopsOld _ _ hstage => exact hg (Or.inl hstage)
  | storesNone => rfl
  | stores => exact absurd hg' (by simp)
  | locksGlobal => exact absurd hg' (by simp)
  | unlocksGlobal => exact absurd hg' (by simp)
  | starts => exact absurd hg' (by simp)
  | stopsMine => exact absurd hg' (by simp)
  | activates => exact absurd hg' (by simp)
  | releases => exact absurd hg' (by simp)
  | unregistersMine => exact absurd hg' (by simp)
  | findsItself => exact absurd hg' (by simp)
  | findsAnother => exact absurd hg' (by simp)
  | detaches => exact absurd hg' (by simp)
  | joins => exact absurd hg' (by simp)
  | _ => exact hg hg'

/-- A call that displaced a listener detaches it on its own thread, and joins it elsewhere, when
its dispatcher has returned. -/
structure Part.Retires (t : Thread) (g : Part) (w : EventModule) : Prop where
  itself : g.stage = .detaching ∨ g.stage = .detached → ∀ p, g.old = some p → t.os = .dispatcher p
  another : g.stage = .joining ∨ g.stage = .joined → ∀ p, g.old = some p → t.os ≠ .dispatcher p
  joined : g.stage = .joined → ∀ p, g.old = some p → (w.listeners p).finished = true

theorem Deed.retires (h : Deed t g w news g' w') (hg : g.Retires t w) : g'.Retires t w' := by
  have hjoined : g.stage = .joined → ∀ p, g.old = some p → (w'.listeners p).finished = true :=
    fun hstage p hp => (h.entered p).2.trans (hg.joined hstage p hp)
  cases h with
  | locksGlobal => exact ⟨by simp, by simp, nofun⟩
  | unlocksGlobal => exact ⟨by simp, by simp, nofun⟩
  | starts => exact ⟨by simp, by simp, nofun⟩
  | movesNone => exact ⟨by simp, by simp, nofun⟩
  | moves => exact ⟨by simp, by simp, nofun⟩
  | stopsOld => exact ⟨by simp, by simp, nofun⟩
  | stopsMine => exact ⟨by simp, by simp, nofun⟩
  | storesNone => exact ⟨by simp, by simp, nofun⟩
  | stores => exact ⟨by simp, by simp, nofun⟩
  | activates => exact ⟨by simp, by simp, nofun⟩
  | releases => exact ⟨by simp, by simp, nofun⟩
  | unregistersMine => exact ⟨by simp, by simp, nofun⟩
  | findsItself l _ _ hold hos =>
    refine ⟨fun _ p hp => ?_, by simp, nofun⟩
    cases hold.symm.trans hp
    exact hos
  | findsAnother l _ _ hold hos =>
    refine ⟨by simp, fun _ p hp => ?_, nofun⟩
    cases hold.symm.trans hp
    exact hos
  | detaches l _ hstage hold => exact ⟨fun _ => hg.itself (Or.inl hstage), by simp, nofun⟩
  | joins l _ hstage hold hfinished =>
    refine ⟨by simp, fun _ => hg.another (Or.inl hstage), fun _ p hp => ?_⟩
    cases hold.symm.trans hp
    rw [EventModule.modify_self]
    exact hfinished
  | _ => exact ⟨hg.itself, hg.another, hjoined⟩

end Deeds

/-! ## The order of the listeners -/

/-- The listeners that a step installs. -/
def News.installed : News → List ListenerId
  | .stored l => [l]
  | _ => []

@[simp] theorem News.mem_installed {news : News} {l : ListenerId} :
    l ∈ news.installed ↔ news = .stored l := by
  cases news <;> simp [News.installed, eq_comm]

/-- The listeners that were installed, in this order. -/
def installations (ls : List ModuleLabel) : List ListenerId :=
  ls.flatMap fun
    | .did _ e r => (newsOf e r).installed
    | _ => []

theorem installations_did (ls : List ModuleLabel) (t : Thread) (e : ListenerAction)
    (r : ListenerAnswer e) :
    installations (ls ++ [.did t e r]) = installations ls ++ (newsOf e r).installed := by
  simp [installations]

@[simp] theorem installations_enter (ls : List ModuleLabel) (t : Thread) (c : ModuleCall) :
    installations (ls ++ [.enter t c]) = installations ls := by
  simp [installations]

@[simp] theorem installations_leave (ls : List ModuleLabel) (t : Thread) (c : ModuleCall)
    (returned : Option Int) : installations (ls ++ [.leave t c returned]) = installations ls := by
  simp [installations]

/-- The listener `l` was installed before `p`. -/
def Older (order : List ListenerId) (l p : ListenerId) : Prop :=
  l ∈ order ∧ order.idxOf l < order.idxOf p

theorem Older.append {order : List ListenerId} {l p : ListenerId} (h : Older order l p)
    (hp : p ∈ order) (more : List ListenerId) : Older (order ++ more) l p := by
  obtain ⟨hl, hlt⟩ := h
  refine ⟨List.mem_append_left _ hl, ?_⟩
  rwa [List.idxOf_append_of_mem hl, List.idxOf_append_of_mem hp]

/-- The last listener is the youngest. -/
theorem older_last {order : List ListenerId} {l p : ListenerId} (hl : l ∈ order) (hp : p ∉ order) :
    Older (order ++ [p]) l p := by
  refine ⟨List.mem_append_left _ hl, ?_⟩
  rw [List.idxOf_append_of_mem hl, List.idxOf_append_of_notMem hp]
  have hlt := List.idxOf_lt_length_of_mem hl
  omega

/-- The listeners of the module with their calls, threads and lives. -/
structure Succession (order : List ListenerId) (gs : Parts) (w : EventModule)
    (life : ListenerId → Life) : Prop where
  tenure : Tenure life w
  owned : Owned life gs
  empty : ∀ t c g, gs t = some (c, g) → g.stage = .moved ∨ g.stage = .emptied →
    w.g_event_listener = none
  installed : ∀ l, l ∈ order ↔ (life l).installed = true
  youngest : ∀ p, w.g_event_listener = some p → ∀ l ∈ order, l ≠ p → Older order l p
  older : ∀ t c g p l, gs t = some (c, g) → g.old = some p → t.os = .dispatcher l → l ≠ p →
    Older order l p
  retires : ∀ t c g, gs t = some (c, g) → g.Retires t w
  live : ∀ t c g l, gs t = some (c, g) → g.stage = .dispatching l → g.live = true →
    (life l).active = true
  found : ∀ t c g l, gs t = some (c, g) → g.stage = .dispatching l → g.found = true →
    (life l).halted = true
  finished : ∀ l, (w.listeners l).finished = true → (life l).halted = true

/-- A step of a life takes no flag back. -/
theorem Life.Turns.flags {t : Thread} {x y : Life} (h : x.Turns t y) :
    (x.active = true → y.active = true) ∧ (x.halted = true → y.halted = true) := by
  cases h <;> exact ⟨by first | exact id | exact fun _ => rfl,
    by first | exact id | exact fun _ => rfl⟩

namespace Succession

variable {order : List ListenerId} {gs : Parts} {w w' : EventModule} {life : ListenerId → Life}
  {t : Thread} {c : ModuleCall} {g g' : Part} {news : News}

theorem init : Succession [] (fun _ => none) {} fun _ => .blank where
  tenure := by
    refine ⟨fun l => ⟨rfl, rfl, rfl, rfl, fun _ => rfl, nofun⟩, fun l => ?_, fun l => ?_⟩
    · exact ⟨fun _ => Nat.zero_le l, fun _ => rfl⟩
    · exact ⟨nofun, nofun⟩
  owned := ⟨fun _ _ _ h => (nomatch h), fun _ _ h => (nomatch h), fun _ _ h => (nomatch h)⟩
  empty _ _ _ h := nomatch h
  installed l := by simp [Life.installed]
  youngest _ h := nomatch h
  older _ _ _ _ _ h := nomatch h
  retires _ _ _ h := nomatch h
  live _ _ _ _ h := nomatch h
  found _ _ _ _ h := nomatch h
  finished _ h := nomatch h

/-- The listener that is stored was installed. -/
theorem stored_installed (hl : Succession order gs w life) {p : ListenerId}
    (hp : w.g_event_listener = some p) : p ∈ order :=
  (hl.installed p).mpr (Life.installed_of_held ((hl.tenure.held p).mp hp))

/-- A listener that a call displaced was installed. -/
theorem old_installed (hl : Succession order gs w life) (ht : gs t = some (c, g))
    {p : ListenerId} (hp : g.old = some p) : p ∈ order := by
  rw [hl.installed, (hl.owned.owns t c g ht).old p hp]
  exact g.stage.previous_kind.2.1

/-- The dispatcher that a call runs on was installed. -/
theorem dispatcher_installed (hs : Stacked gs w) (hl : Succession order gs w life)
    (ht : gs t = some (c, g)) (hnot : ∀ l', g.stage ≠ .dispatching l') {l : ListenerId}
    (hos : t.os = .dispatcher l) : l ∈ order := by
  obtain ⟨c₀, g₀, hg₀, _, _, hstage, hlive⟩ := hs.inside ht hos hnot
  have hactive := hl.live _ c₀ g₀ l hg₀ hstage hlive
  exact (hl.installed l).mpr (Life.installed_of_active hactive)

theorem deed (hs : Stacked gs w) (hl : Succession order gs w life) (ht : gs t = some (c, g))
    (hd : Deed t g w news g' w') :
    ∃ life', Succession (order ++ news.installed) (Function.update gs t (some (c, g'))) w' life' ∧
      Turned t news life life' := by
  have hsole : ∀ u c' g'', gs u = some (c', g'') → g''.stage.global = true →
      g.stage.global = true → u = t := by
    intro u c' g'' hu hglobal' hglobal
    have hheld := (hs.holder_of (m := .g_event_listener_mutex) hu).mpr hglobal'
    have hheld' := (hs.holder_of (m := .g_event_listener_mutex) ht).mpr hglobal
    exact Option.some.inj (hheld.symm.trans hheld')
  obtain ⟨life', htenure, howned, hturned⟩ :=
    hd.lives hl.tenure hl.owned ht (hl.empty t c g ht) hsole
  have hflags := fun l => (hturned.turns l).flags
  have hlarger : ∀ {l p}, Older order l p → p ∈ order → Older (order ++ news.installed) l p :=
    fun holder hp => holder.append hp _
  refine ⟨life', ⟨htenure, howned, ?empty, ?installed, ?youngest, ?older, ?retires, ?live, ?found,
    ?finished⟩, hturned⟩
  case empty =>
    apply forall_update
    · intro u c' g'' hut hu hstage
      have hglobal' : g''.stage.global = true := by
        rcases hstage with hstage | hstage <;> rw [hstage] <;> rfl
      have hglobal : g.stage.global = false :=
        Bool.eq_false_iff.mpr fun hglobal => hut (hsole u c' g'' hu hglobal' hglobal)
      rw [hd.leaves_stored hglobal]
      exact hl.empty u c' g'' hu hstage
    · intro c' g'' hsame
      cases hsame
      exact hd.empties (hl.empty t c g ht)
  case installed =>
    intro l
    rw [hturned.installed, List.mem_append, hl.installed, News.mem_installed]
  case youngest =>
    intro p hp l hlmem hne
    rcases hd.stored.1 p hp with hbefore | rfl
    · rw [List.mem_append, News.mem_installed] at hlmem
      have hmem := hl.stored_installed hbefore
      rcases hlmem with hlmem | hnews
      · exact hlarger (hl.youngest p hbefore l hlmem hne) hmem
      · -- a step that stores another listener leaves that one stored
        have hstored := (hd.stored.2 l hnews).2
        rw [hp] at hstored
        exact absurd (Option.some.inj hstored).symm hne
    · have hnot : p ∉ order := by
        rw [hl.installed, (hl.owned.owns t c g ht).mine p (hd.stored.2 p rfl).1,
          g.stage.replacement_kind.2.1]
        exact nofun
      have hmem : l ∈ order := by
        rw [List.mem_append, News.mem_installed] at hlmem
        rcases hlmem with hlmem | hnews
        · exact hlmem
        · cases hnews
          exact absurd rfl hne
      exact older_last hmem hnot
  case older =>
    intro u c' g'' p l hu
    revert hu
    refine forall_update (P := fun u _ g'' => g''.old = some p → u.os = .dispatcher l → l ≠ p →
      Older (order ++ news.installed) l p) ?_ ?_ u c' g''
    · intro u c' g'' _ hu hp hos hne
      exact hlarger (hl.older u c' g'' p l hu hp hos hne) (hl.old_installed hu hp)
    · intro c' g'' hsame hp hos hne
      cases hsame
      rcases hd.old with hold | hmoved
      · rw [hold] at hp
        exact hlarger (hl.older t c g p l ht hp hos hne) (hl.old_installed ht hp)
      · obtain ⟨hstored, hstage⟩ := hmoved p hp
        have hmem := hl.dispatcher_installed hs ht (by rw [hstage]; nofun) hos
        exact hlarger (hl.youngest p hstored l hmem hne) (hl.stored_installed hstored)
  case retires =>
    apply forall_update
    · intro u c' g'' _ hu
      obtain ⟨hitself, hanother, hjoined⟩ := hl.retires u c' g'' hu
      exact ⟨hitself, hanother, fun hstage p hp =>
        (hd.entered p).2.trans (hjoined hstage p hp)⟩
    · intro c' g'' hsame
      cases hsame
      exact hd.retires (hl.retires t c g ht)
  case live =>
    intro u c' g'' l hu
    revert hu
    refine forall_update (P := fun _ _ g'' => g''.stage = .dispatching l → g''.live = true →
      (life' l).active = true) ?_ ?_ u c' g''
    · intro u c' g'' _ hu hstage hlive
      exact (hflags l).1 (hl.live u c' g'' l hu hstage hlive)
    · intro c' g'' hsame hstage hlive
      cases hsame
      rw [hd.stage.2 l] at hstage
      apply (hflags l).1
      rcases hd.seen.1 hlive with hlive | ⟨l', hstage', hactive⟩
      · exact hl.live t c g l ht hstage hlive
      · cases hstage.symm.trans hstage'
        rw [← (hl.tenure.isIn l).active]
        exact hactive
  case found =>
    intro u c' g'' l hu
    revert hu
    refine forall_update (P := fun _ _ g'' => g''.stage = .dispatching l → g''.found = true →
      (life' l).halted = true) ?_ ?_ u c' g''
    · intro u c' g'' _ hu hstage hfound
      exact (hflags l).2 (hl.found u c' g'' l hu hstage hfound)
    · intro c' g'' hsame hstage hfound
      cases hsame
      rw [hd.stage.2 l] at hstage
      apply (hflags l).2
      rcases hd.seen.2 hfound with hfound | ⟨l', hstage', hstopped⟩
      · exact hl.found t c g l ht hstage hfound
      · cases hstage.symm.trans hstage'
        rw [← (hl.tenure.isIn l).halted]
        exact hstopped
  case finished =>
    intro l hfinished
    rw [(hd.entered l).2] at hfinished
    exact (hflags l).2 (hl.finished l hfinished)

/-- A start or a return changes no life. -/
theorem same (hl : Succession order gs w life) {x : Option (ModuleCall × Part)}
    (htenure : Tenure life w') (hstored : w'.g_event_listener = w.g_event_listener)
    (hfinished : ∀ l, (w.listeners l).finished = true → (w'.listeners l).finished = true)
    (hhalted : ∀ l, (w'.listeners l).finished = true → (life l).halted = true)
    (hbefore : ∀ c g, gs t = some (c, g) → g.stage.global = false)
    (hself : ∀ c g, x = some (c, g) → g.mine = none ∧ g.fresh = none ∧ g.old = none ∧
      g.stage.global = false ∧ g.live = false ∧ g.found = false) :
    Succession order (Function.update gs t x) w' life where
  tenure := htenure
  owned := by
    -- a listener that is displaced, or stored, has a call under the mutex
    have hother : ∀ {u c' g''}, gs u = some (c', g'') → g''.stage.global = true → u ≠ t := by
      rintro u c' g'' hu hglobal rfl
      rw [hbefore c' g'' hu] at hglobal
      cases hglobal
    constructor
    · refine forall_update (fun u c' g'' _ hu => hl.owned.owns u c' g'' hu) fun c' g'' hx => ?_
      obtain ⟨hmine, hfresh, hold, _, _, _⟩ := hself c' g'' hx
      exact ⟨by simp [hmine], by simp [hfresh], by simp [hold]⟩
    · intro l u hlife
      obtain ⟨c', g'', hu, hstage, hold⟩ := hl.owned.displaced l u hlife
      have hut := hother hu (by rw [hstage]; rfl)
      exact ⟨c', g'', by rw [Function.update_of_ne hut, hu], hstage, hold⟩
    · intro l u hlife
      obtain ⟨c', g'', hu, hstage, hfresh⟩ := hl.owned.stored l u hlife
      have hut := hother hu (by rw [hstage]; rfl)
      exact ⟨c', g'', by rw [Function.update_of_ne hut, hu], hstage, hfresh⟩
  empty := by
    rw [hstored]
    refine forall_update (fun u c' g'' _ hu => hl.empty u c' g'' hu) fun c' g'' hx hstage => ?_
    obtain ⟨_, _, _, hglobal, _, _⟩ := hself c' g'' hx
    rcases hstage with hstage | hstage <;> rw [hstage] at hglobal <;> cases hglobal
  installed := hl.installed
  youngest p hp := hl.youngest p (hstored ▸ hp)
  older u c' g'' p l hu := by
    revert hu
    refine forall_update (P := fun u _ g'' => g''.old = some p → u.os = .dispatcher l → l ≠ p →
      Older order l p) (fun u c' g'' _ hu => hl.older u c' g'' p l hu) ?_ u c' g''
    intro c' g'' hx hp
    rw [(hself c' g'' hx).2.2.1] at hp
    cases hp
  retires := by
    refine forall_update (fun u c' g'' _ hu => ?_) fun c' g'' hx => ?_
    · obtain ⟨hitself, hanother, hjoined⟩ := hl.retires u c' g'' hu
      exact ⟨hitself, hanother, fun hstage p hp => hfinished p (hjoined hstage p hp)⟩
    · have hold := (hself c' g'' hx).2.2.1
      exact ⟨by simp [hold], by simp [hold], by simp [hold]⟩
  live u c' g'' l hu := by
    revert hu
    refine forall_update (P := fun _ _ g'' => g''.stage = .dispatching l → g''.live = true →
      (life l).active = true) (fun u c' g'' _ hu => hl.live u c' g'' l hu) ?_ u c' g''
    intro c' g'' hx _ hlive
    rw [(hself c' g'' hx).2.2.2.2.1] at hlive
    cases hlive
  found u c' g'' l hu := by
    revert hu
    refine forall_update (P := fun _ _ g'' => g''.stage = .dispatching l → g''.found = true →
      (life l).halted = true) (fun u c' g'' _ hu => hl.found u c' g'' l hu) ?_ u c' g''
    intro c' g'' hx _ hfound
    rw [(hself c' g'' hx).2.2.2.2.2] at hfound
    cases hfound
  finished := hhalted

theorem enter (hl : Succession order gs w life) (ht : gs t = none)
    (he : EventModule.enter t w c = some w') :
    Succession order (Function.update gs t (some (c, c.part))) w' life := by
  obtain ⟨hmay, _, _, _, hlisteners⟩ := Stacked.enter_cases he
  have htenure : Tenure life w' ∧ w'.g_event_listener = w.g_event_listener := by
    unfold EventModule.enter at he
    rw [if_pos hmay] at he
    cases he
    cases c with
    | set attempts callback_function error_callback =>
      exact ⟨hl.tenure.same rfl rfl hl.tenure.isIn, rfl⟩
    | deviceNotification l action data =>
      exact ⟨hl.tenure.same rfl rfl hl.tenure.isIn, rfl⟩
    | dispatch l turns =>
      have hbusy : Tenure life (w.withBusy t true) := hl.tenure.same rfl rfl hl.tenure.isIn
      obtain ⟨hactive, hhalted, hstarted, hjoinable, hgone, _⟩ := hl.tenure.isIn l
      have hports : (life l).started = true := by
        rw [← hstarted]
        exact (Stacked.mayEnter_dispatch hmay).2.1
      exact ⟨hbusy.modify ⟨hactive, hhalted, hstarted, hjoinable, hgone, fun _ => hports⟩, rfl⟩
  refine hl.same htenure.1 htenure.2 ?_ ?_ ?_ ?_
  · exact fun l hfinished => (hlisteners l).1.trans hfinished
  · intro l hfinished
    rw [(hlisteners l).1] at hfinished
    exact hl.finished l hfinished
  · intro c' g' hg'
    rw [ht] at hg'
    cases hg'
  · intro c' g' hsame
    cases hsame
    cases c <;> exact ⟨rfl, rfl, rfl, rfl, rfl, rfl⟩

theorem leave {returned : Option Int} (hs : Stacked gs w) (hl : Succession order gs w life)
    (ht : gs t = some (c, g)) (hends : g.Ends)
    (hleave : EventModule.leave t w c returned = some w') :
    Succession order (Function.update gs t none) w' life := by
  obtain ⟨_, _, _, hlisteners⟩ := Stacked.leave_cases hleave
  have htenure : Tenure life w' ∧ w'.g_event_listener = w.g_event_listener := by
    unfold EventModule.leave at hleave
    split at hleave
    rotate_left
    · cases hleave
    cases hleave
    cases c with
    | set attempts callback_function error_callback =>
      exact ⟨hl.tenure.same rfl rfl hl.tenure.isIn, rfl⟩
    | deviceNotification l action data =>
      exact ⟨hl.tenure.same rfl rfl hl.tenure.isIn, rfl⟩
    | dispatch l turns =>
      have hbusy : Tenure life (w.withBusy t false) := hl.tenure.same rfl rfl hl.tenure.isIn
      obtain ⟨hactive, hhalted, hstarted, hjoinable, hgone, hentered⟩ := hl.tenure.isIn l
      exact ⟨hbusy.modify ⟨hactive, hhalted, hstarted, hjoinable, hgone, hentered⟩, rfl⟩
  refine hl.same htenure.1 htenure.2 ?_ ?_ ?_ (fun _ _ h => by cases h)
  · exact fun l hfinished => (hlisteners l).2.mpr (Or.inl hfinished)
  · intro l hfinished
    rcases (hlisteners l).2.mp hfinished with hbefore | ⟨turns, rfl⟩
    · exact hl.finished l hbefore
    · -- the dispatcher returns when it has found its listener stopped
      have hstage : g.stage = .dispatching l := (hs.has t _ g ht).1
      exact hl.found t _ g l ht hstage (hends.found l hstage)
  · intro c' g' hg'
    rw [ht] at hg'
    cases hg'
    exact hends.global

end Succession

end cpp_bindings_windows
