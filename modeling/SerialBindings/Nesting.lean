-- The threads of the module with their calls inside callbacks. A thread that is
-- inside a callback holds no mutex, and the calls inside its callback are calls
-- of the same thread of the operating system.
import SerialBindings.Deeds

open programs

namespace cpp_bindings_windows

/-! ## A change of one listener -/

namespace EventModule

variable {w : EventModule} {l l' : ListenerId} {f : Listener → Listener} {mutex mutex' : Mutex}
  {holder : Option Thread}

@[simp] theorem modify_self : (w.modify l f).listeners l = f (w.listeners l) :=
  Function.update_self _ _ _

@[simp] theorem modify_ne (h : l' ≠ l) : (w.modify l f).listeners l' = w.listeners l' :=
  Function.update_of_ne h _ _

/-- What `f` leaves of one listener, the change leaves of every listener. -/
theorem modify_keeps {β : Type} (p : Listener → β) (hf : ∀ x, p (f x) = p x) :
    p ((w.modify l f).listeners l') = p (w.listeners l') := by
  by_cases hl : l' = l
  · rw [hl, modify_self, hf]
  · rw [modify_ne hl]

@[simp] theorem withHolder_self : (w.withHolder mutex holder).holder mutex = holder :=
  Function.update_self _ _ _

@[simp] theorem withHolder_ne (h : mutex' ≠ mutex) :
    (w.withHolder mutex holder).holder mutex' = w.holder mutex' := Function.update_of_ne h _ _

end EventModule

/-! ## What a call has in itself -/

/-- The stages after the replacement is stored. -/
def Stage.handed : Stage → Bool
  | .stored | .installed | .retiring | .detaching | .detached | .joining | .joined => true
  | _ => false

/-- The stages of a call whose `try` block ended with an exception, or may still do so. -/
def Stage.trying : Stage → Bool
  | .making | .failing | .released => true
  | _ => false

structure Part.Clean (g : Part) : Prop where
  user : g.inUser = true → g.locked = none ∧ g.stage.global = false ∧ g.took = false
  took : g.took = true → g.live = true ∧ ∃ l, g.stage = .dispatching l
  told : g.inUser = true → ∀ l, g.stage = .dispatching l → g.live = true
  mine : ∀ l, g.mine = some l → g.stage.handed = false
  fresh : ∀ l, g.fresh = some l → g.stage.handed = true
  failed : g.failed = true → g.stage.trying = true

@[simp] theorem Part.holds_global (g : Part) :
    g.Holds .g_event_listener_mutex ↔ g.stage.global = true := Iff.rfl

@[simp] theorem Part.holds_mutex (g : Part) (l : ListenerId) :
    g.Holds (.mutex_ l) ↔ g.locked = some l := Iff.rfl

/-- Where a call runs, and at which stages. -/
def ModuleCall.Has (c : ModuleCall) (t : Thread) (g : Part) : Prop :=
  match c with
  | .set .. => g.stage ≠ .elsewhere ∧ (∀ l, g.stage ≠ .dispatching l) ∧
      ∀ l, t ≠ ⟨.dispatcher l, 0⟩
  | .deviceNotification .. => g.stage = .elsewhere ∧ ∀ l, t.os ≠ .dispatcher l
  | .dispatch l _ => g.stage = .dispatching l ∧ t = ⟨.dispatcher l, 0⟩

/-- The only call of the thread of a listener is its dispatcher. -/
theorem ModuleCall.Has.dispatch {c : ModuleCall} {g : Part} {l : ListenerId}
    (h : c.Has ⟨.dispatcher l, 0⟩ g) : ∃ turns, c = .dispatch l turns := by
  cases c with
  | set attempts callback_function error_callback => exact absurd rfl (h.2.2 l)
  | deviceNotification l' action data => exact absurd rfl (h.2 l)
  | dispatch l' turns =>
    have hthread : (⟨.dispatcher l, 0⟩ : Thread) = ⟨.dispatcher l', 0⟩ := h.2
    cases hthread
    exact ⟨turns, rfl⟩

section Deeds

variable {t : Thread} {g g' : Part} {w w' : EventModule} {news : News}

/-- A call that goes from one stage to another, with the replacement handed over at both of them or
at none. -/
theorem Part.Clean.goes {before stage : Stage} (hg : g.Clean) (hout : g.inUser = false)
    (hbefore : g.stage = before) (hcall : ∀ l, before ≠ .dispatching l)
    (hhanded : stage.handed = before.handed)
    (htrying : g.failed = true → before.trying = true → stage.trying = true) :
    ({ g with stage } : Part).Clean where
  user hin := absurd (hout.symm.trans hin) Bool.false_ne_true
  took htook := by
    obtain ⟨_, l, hl⟩ := hg.took htook
    exact absurd (hbefore.symm.trans hl) (hcall l)
  told hin := absurd (hout.symm.trans hin) Bool.false_ne_true
  mine l hl := by
    rw [hhanded, ← hbefore]
    exact hg.mine l hl
  fresh l hl := by
    rw [hhanded, ← hbefore]
    exact hg.fresh l hl
  failed hfailed := by
    apply htrying hfailed
    rw [← hbefore]
    exact hg.failed hfailed

/-- The listener that a call displaced is its own affair. -/
theorem Part.Clean.displaces (hg : g.Clean) (old : Option ListenerId) :
    ({ g with old } : Part).Clean := ⟨hg.user, hg.took, hg.told, hg.mine, hg.fresh, hg.failed⟩

/-- A call in which no dispatcher took a notification stays clean when its mutex changes. -/
theorem Part.Clean.locking (hg : g.Clean) (hout : g.inUser = false) (locked : Option ListenerId) :
    ({ g with locked } : Part).Clean where
  user hin := absurd (hout.symm.trans hin) Bool.false_ne_true
  took := hg.took
  told := hg.told
  mine := hg.mine
  fresh := hg.fresh
  failed := hg.failed

/-- A dispatcher that lets go of what it took. -/
theorem Part.Clean.drops (hg : g.Clean) : ({ g with took := false } : Part).Clean where
  user hin := ⟨(hg.user hin).1, (hg.user hin).2.1, rfl⟩
  took htook := absurd htook Bool.false_ne_true
  told := hg.told
  mine := hg.mine
  fresh := hg.fresh
  failed := hg.failed

/-- Storing the replacement hands it to the module. -/
theorem Part.Clean.hands {stage : Stage} (hg : g.Clean) (hout : g.inUser = false)
    (hstage : g.stage = .emptied) (hhanded : stage.handed = true) (fresh : Option ListenerId) :
    ({ g with stage, mine := none, fresh } : Part).Clean where
  user hin := absurd (hout.symm.trans hin) Bool.false_ne_true
  took htook := by
    obtain ⟨_, l, hl⟩ := hg.took htook
    cases hstage.symm.trans hl
  told hin := absurd (hout.symm.trans hin) Bool.false_ne_true
  mine l hl := by cases hl
  fresh _ _ := hhanded
  failed hfailed := by
    have htrying := hg.failed hfailed
    rw [hstage] at htrying
    cases htrying

theorem Deed.clean (h : Deed t g w news g' w') (hg : g.Clean) : g'.Clean := by
  cases h with
  | nothing | unresolved | notes | registers | stopsAgain | unregistersOld => exact hg
  | fails hout hstage =>
    refine ⟨hg.user, hg.took, hg.told, hg.mine, hg.fresh, fun _ => ?_⟩
    unfold Part.fail
    rw [hstage]
    rfl
  | locksGlobal hout hstage =>
    rcases hstage with hstage | ⟨hstage, _, hfailed⟩
    · exact hg.goes hout hstage (by simp) rfl fun _ h => h
    · exact hg.goes hout hstage (by simp) rfl fun h => absurd (hfailed.symm.trans h) (by simp)
  | unlocksGlobal hout hstage => exact hg.goes hout hstage (by simp) rfl fun _ h => h
  | locks l hout | unlocks l hout => exact hg.locking hout _
  | sleeps l hout => exact hg.drops.locking hout none
  | turns l live took found hout hstage _ hlive htook =>
    refine ⟨fun hin => absurd (hout.symm.trans hin) Bool.false_ne_true,
      fun h => ⟨(htook h).1, l, hstage⟩,
      fun hin => absurd (hout.symm.trans hin) Bool.false_ne_true, hg.mine, hg.fresh, hg.failed⟩
  | calls hout hlocked hwhere =>
    refine ⟨fun _ => ⟨hlocked, ?_, rfl⟩, fun h => absurd h Bool.false_ne_true, ?_, hg.mine,
      hg.fresh, hg.failed⟩
    · rcases hwhere with ⟨l, hstage, _⟩ | hstage | hstage <;> simp [hstage, Stage.global]
    · intro _ l hl
      rcases hwhere with ⟨_, _, hlive | htook⟩ | hstage | hstage
      · exact hlive
      · exact (hg.took htook).1
      · cases hstage.symm.trans hl
      · cases hstage.symm.trans hl
  | returns hin =>
    have htook := (hg.user hin).2.2
    exact ⟨fun h => absurd h Bool.false_ne_true,
      fun h => absurd (htook.symm.trans h) Bool.false_ne_true,
      fun h => absurd h Bool.false_ne_true, hg.mine, hg.fresh, hg.failed⟩
  | makes hout hstage =>
    refine ⟨hg.user, hg.took, hg.told, fun _ _ => ?_, hg.fresh, hg.failed⟩
    rw [hstage]
    rfl
  | starts l ports hout hstage _ hfailed =>
    exact hg.goes hout hstage (by simp) rfl fun h => absurd (hfailed.symm.trans h) (by simp)
  | movesNone hout hstage =>
    exact (hg.displaces none).goes hout hstage (by simp) rfl fun _ h => h
  | moves p hout hstage =>
    exact (hg.displaces (some p)).goes hout hstage (by simp) rfl fun _ h => h
  | storesNone hout hstage => exact hg.hands hout hstage rfl none
  | stores l hout hstage => exact hg.hands hout hstage rfl (some l)
  | stopsOld l hout hstage | stopsMine l hout hstage | activates l hout hstage
  | releases l hout hstage | unregistersMine l hout hstage | findsItself l hout hstage
  | findsAnother l hout hstage | detaches l hout hstage | joins l hout hstage =>
    exact hg.goes hout hstage (by simp) rfl fun _ h => h

/-- A deed changes neither where a dispatcher is nor where a native notification is. -/
theorem Deed.stage (h : Deed t g w news g' w') :
    (g'.stage = .elsewhere ↔ g.stage = .elsewhere) ∧
      ∀ l, g'.stage = .dispatching l ↔ g.stage = .dispatching l := by
  cases h <;> simp_all [Part.fail]
  rename_i hstage _ _
  rcases hstage with hstage | ⟨hstage, _, _⟩ <;> simp [hstage]

theorem Deed.has {c : ModuleCall} (h : Deed t g w news g' w') (hc : c.Has t g) : c.Has t g' := by
  obtain ⟨helsewhere, hdispatching⟩ := h.stage
  cases c with
  | set attempts callback_function error_callback =>
    obtain ⟨hnot, hnone, hthread⟩ := hc
    exact ⟨fun h => hnot (helsewhere.mp h), fun l h => hnone l ((hdispatching l).mp h), hthread⟩
  | deviceNotification l action data => exact ⟨helsewhere.mpr hc.1, hc.2⟩
  | dispatch l turns => exact ⟨(hdispatching l).mpr hc.1, hc.2⟩

theorem Deed.busy (h : Deed t g w news g' w') : w'.busy = w.busy := by
  cases h <;> rfl

/-- Only the calls and the returns change which threads are inside a callback. -/
theorem Deed.inUser (h : Deed t g w news g' w') (hg : w.inUser t = g.inUser) :
    w'.inUser = Function.update w.inUser t g'.inUser := by
  cases h
  case calls => rfl
  case returns => rfl
  all_goals exact (hg ▸ Function.update_eq_self t w.inUser).symm

/-- A thread returns from its callback when no call is made inside it. -/
theorem Deed.returned (h : Deed t g w news g' w') (hin : g.inUser = true)
    (hout : g'.inUser = false) : w.busy t.inner = false := by
  cases h with
  | returns _ hbusy => exact hbusy
  | _ => simp_all

/-- The threads of the listeners come and go only with their calls. -/
theorem Deed.entered (h : Deed t g w news g' w') (l : ListenerId) :
    (w'.listeners l).entered = (w.listeners l).entered ∧
      (w'.listeners l).finished = (w.listeners l).finished := by
  cases h <;> first
    | exact ⟨rfl, rfl⟩
    | exact ⟨EventModule.modify_keeps (·.entered) fun _ => rfl,
        EventModule.modify_keeps (·.finished) fun _ => rfl⟩

/-- Who holds a mutex after a step of `t`, when before it `t` held what `g` says and after it holds
what `g'` says. -/
def HolderAfter (t : Thread) (g' : Part) (w w' : EventModule) : Prop :=
  ∀ m u, w'.holder m = some u ↔ if u = t then g'.Holds m else w.holder m = some u

theorem holder_kept (hg : ∀ m, w.holder m = some t ↔ g.Holds m) (hw : w'.holder = w.holder)
    (hsame : ∀ m, g'.Holds m ↔ g.Holds m) : HolderAfter t g' w w' := by
  intro m u
  rw [hw]
  split
  · rename_i hu
    rw [hu, hsame, hg]
  · rfl

theorem holder_taken {m₀ : Mutex} (hg : ∀ m, w.holder m = some t ↔ g.Holds m)
    (hnone : w.holder m₀ = none) (htaken : ∀ m, g'.Holds m ↔ m = m₀ ∨ g.Holds m) :
    HolderAfter t g' w (w.withHolder m₀ (some t)) := by
  intro m u
  by_cases hm : m = m₀
  · rw [hm, EventModule.withHolder_self]
    split
    · rename_i hu
      simp [htaken, hu]
    · rename_i hu
      simp [hnone, Ne.symm hu]
  · rw [EventModule.withHolder_ne hm]
    split
    · rename_i hu
      rw [hu, htaken, or_iff_right hm, hg]
    · rfl

theorem holder_given {m₀ : Mutex} (hg : ∀ m, w.holder m = some t ↔ g.Holds m)
    (hheld : g.Holds m₀) (hgiven : ∀ m, g'.Holds m ↔ m ≠ m₀ ∧ g.Holds m) :
    HolderAfter t g' w (w.withHolder m₀ none) := by
  intro m u
  by_cases hm : m = m₀
  · rw [hm, EventModule.withHolder_self]
    split
    · simp [hgiven]
    · rename_i hu
      have hholder := (hg m₀).mpr hheld
      simp [hholder, Ne.symm hu]
  · rw [EventModule.withHolder_ne hm]
    split
    · rename_i hu
      rw [hu, hgiven, and_iff_right hm, hg]
    · rfl

/-- After a deed the thread holds what its call says, and the others hold what they held. -/
theorem Deed.holder (h : Deed t g w news g' w') (hg : ∀ m, w.holder m = some t ↔ g.Holds m) :
    HolderAfter t g' w w' := by
  cases h
  case locksGlobal hstage _ hnone =>
    refine holder_taken hg hnone fun m => ?_
    have hnot : g.stage.global = false := by
      rcases hstage with hstage | hstage
      · rw [hstage]; rfl
      · rw [hstage.1]; rfl
    cases m with
    | g_event_listener_mutex => simp [Stage.global]
    | mutex_ l => simp
  case unlocksGlobal hstage =>
    refine holder_given hg ?_ fun m => ?_
    · rw [Part.holds_global, hstage]
      rfl
    · cases m with
      | g_event_listener_mutex => simp [Stage.global]
      | mutex_ l => simp
  case locks l _ hfree hnone =>
    refine holder_taken hg hnone fun m => ?_
    cases m with
    | g_event_listener_mutex => simp
    | mutex_ l' => simp [hfree, eq_comm (a := l)]
  case unlocks l _ hlocked =>
    refine holder_given hg hlocked fun m => ?_
    cases m with
    | g_event_listener_mutex => simp
    | mutex_ l' => simp [hlocked, eq_comm (a := l)]
  case sleeps l _ _ hlocked =>
    refine holder_given hg hlocked fun m => ?_
    cases m with
    | g_event_listener_mutex => simp
    | mutex_ l' => simp [hlocked, eq_comm (a := l)]
  all_goals
    refine holder_kept hg rfl fun m => ?_
    cases m with
    | g_event_listener_mutex => simp_all [Part.fail, Stage.global]
    | mutex_ l' => simp_all [Part.fail]

end Deeds

/-! ## The threads -/

/-- The call of each thread with its part. -/
abbrev Parts := Thread → Option (ModuleCall × Part)

structure Stacked (gs : Parts) (w : EventModule) : Prop where
  busy : ∀ t, w.busy t = (gs t).isSome
  inUser : ∀ t, w.inUser t = true ↔ ∃ c g, gs t = some (c, g) ∧ g.inUser = true
  inner : ∀ t, (gs t.inner).isSome = true → w.inUser t = true
  clean : ∀ t c g, gs t = some (c, g) → g.Clean
  has : ∀ t c g, gs t = some (c, g) → c.Has t g
  holder : ∀ m t, w.holder m = some t ↔ ∃ c g, gs t = some (c, g) ∧ g.Holds m
  entered : ∀ l, (gs ⟨.dispatcher l, 0⟩).isSome = true → (w.listeners l).entered = true
  finished : ∀ l, (w.listeners l).finished = true →
    (w.listeners l).entered = true ∧ gs ⟨.dispatcher l, 0⟩ = none

namespace Stacked

variable {gs : Parts} {w w' : EventModule} {t : Thread} {c : ModuleCall} {g g' : Part}
  {l : ListenerId}

theorem init : Stacked (fun _ => none) {} where
  busy _ := rfl
  inUser _ := by simp
  inner _ := by simp
  clean _ _ _ h := by cases h
  has _ _ _ h := by cases h
  holder _ _ := by simp
  entered _ := by simp
  finished _ := by simp

theorem inUser_of (hs : Stacked gs w) (ht : gs t = some (c, g)) : w.inUser t = g.inUser := by
  rw [Bool.eq_iff_iff, hs.inUser]
  constructor
  · rintro ⟨c', g', ht', hin⟩
    rw [ht] at ht'
    cases ht'
    exact hin
  · exact fun hin => ⟨c, g, ht, hin⟩

theorem holder_of (hs : Stacked gs w) (ht : gs t = some (c, g)) (m : Mutex) :
    w.holder m = some t ↔ g.Holds m := by
  rw [hs.holder]
  constructor
  · rintro ⟨c', g', ht', hholds⟩
    rw [ht] at ht'
    cases ht'
    exact hholds
  · exact fun hholds => ⟨c, g, ht, hholds⟩

theorem deed {news : News} (hs : Stacked gs w) (ht : gs t = some (c, g))
    (hd : Deed t g w news g' w') : Stacked (Function.update gs t (some (c, g'))) w' where
  busy u := by
    rw [hd.busy, hs.busy]
    by_cases hu : u = t
    · rw [hu, Function.update_self, ht]
      rfl
    · rw [Function.update_of_ne hu]
  inUser u := by
    rw [hd.inUser (hs.inUser_of ht)]
    by_cases hu : u = t
    · rw [hu, Function.update_self, Function.update_self]
      simp
    · rw [Function.update_of_ne hu, Function.update_of_ne hu]
      exact hs.inUser u
  inner u hinner := by
    rw [hd.inUser (hs.inUser_of ht)]
    have hbefore : (gs u.inner).isSome = true := by
      by_cases hu : u.inner = t
      · rw [hu, ht]
        rfl
      · rwa [Function.update_of_ne hu] at hinner
    have hin := hs.inner u hbefore
    by_cases hu : u = t
    · rw [hu] at hin hbefore ⊢
      rw [Function.update_self]
      -- a call inside the callback keeps the thread in the callback
      cases hout : g'.inUser with
      | true => rfl
      | false =>
        rw [hs.inUser_of ht] at hin
        have hbusy := hd.returned hin hout
        rw [hs.busy, hbefore] at hbusy
        cases hbusy
    · rw [Function.update_of_ne hu]
      exact hin
  clean := forall_inside (fun u c' g'' _ => hs.clean u c' g'') (hd.clean (hs.clean t c g ht))
  has := forall_inside (fun u c' g'' _ => hs.has u c' g'') (hd.has (hs.has t c g ht))
  holder m u := by
    rw [hd.holder (hs.holder_of ht) m u]
    by_cases hu : u = t
    · rw [if_pos hu, hu, Function.update_self]
      simp
    · rw [if_neg hu, Function.update_of_ne hu]
      exact hs.holder m u
  entered l hl := by
    rw [(hd.entered l).1]
    apply hs.entered l
    by_cases hlt : (⟨.dispatcher l, 0⟩ : Thread) = t
    · rw [hlt, ht]
      rfl
    · rwa [Function.update_of_ne hlt] at hl
  finished l hl := by
    rw [(hd.entered l).2] at hl
    rw [(hd.entered l).1]
    obtain ⟨hentered, hnone⟩ := hs.finished l hl
    have hlt : (⟨.dispatcher l, 0⟩ : Thread) ≠ t := by
      rintro rfl
      rw [hnone] at ht
      cases ht
    refine ⟨hentered, ?_⟩
    rw [Function.update_of_ne hlt]
    exact hnone

theorem part_clean (c : ModuleCall) : c.part.Clean := by
  cases c <;> constructor <;> simp [ModuleCall.part, Stage.handed]

theorem part_free (c : ModuleCall) (m : Mutex) : ¬ c.part.Holds m := by
  cases c <;> cases m <;> simp [ModuleCall.part, Stage.global]

theorem mayEnter_dispatch {turns : Nat} (hmay : w.mayEnter t (.dispatch l turns) = true) :
    t = ⟨.dispatcher l, 0⟩ ∧ (w.listeners l).ports.isSome = true ∧
      (w.listeners l).entered = false := by
  unfold EventModule.mayEnter at hmay
  simpa [and_assoc] using hmay

/-- The demands on a call that starts. -/
theorem mayEnter_has (hmay : w.mayEnter t c = true) : c.Has t c.part := by
  cases c with
  | set attempts callback_function error_callback =>
    refine ⟨nofun, nofun, ?_⟩
    rintro l rfl
    exact absurd hmay Bool.false_ne_true
  | deviceNotification l action data =>
    refine ⟨rfl, fun l' hos => ?_⟩
    unfold EventModule.mayEnter at hmay
    rw [hos] at hmay
    simp at hmay
  | dispatch l turns => exact ⟨rfl, (mayEnter_dispatch hmay).1⟩

/-- A call that starts inside a callback starts inside a callback that runs. -/
theorem mayEnter_inner {u : Thread} (hmay : w.mayEnter u.inner c = true) : w.inUser u = true := by
  cases c with
  | set attempts callback_function error_callback =>
    obtain ⟨os, depth⟩ := u
    cases os with
    | app n => exact hmay
    | dispatcher l => exact hmay
  | deviceNotification l action data =>
    simp [EventModule.mayEnter, Thread.inner] at hmay
  | dispatch l turns =>
    simp [EventModule.mayEnter, Thread.inner] at hmay

/-- What the start of a call changes in the module. -/
theorem enter_cases (he : EventModule.enter t w c = some w') :
    w.mayEnter t c = true ∧ w'.busy = Function.update w.busy t true ∧ w'.inUser = w.inUser ∧
      w'.holder = w.holder ∧ ∀ l, (w'.listeners l).finished = (w.listeners l).finished ∧
        ((w'.listeners l).entered = true ↔
          (w.listeners l).entered = true ∨ ∃ turns, c = .dispatch l turns) := by
  unfold EventModule.enter at he
  split at he
  · rename_i hmay
    cases he
    refine ⟨hmay, ?_⟩
    cases c with
    | set attempts callback_function error_callback =>
      exact ⟨rfl, rfl, rfl, fun l => ⟨rfl, (or_iff_left nofun).symm⟩⟩
    | deviceNotification l action data =>
      exact ⟨rfl, rfl, rfl, fun l => ⟨rfl, (or_iff_left nofun).symm⟩⟩
    | dispatch l turns =>
      refine ⟨rfl, rfl, rfl, fun l' => ?_⟩
      by_cases hl : l' = l
      · rw [hl]
        simp [EventModule.withBusy]
      · simp [EventModule.withBusy, hl, Ne.symm hl]
  · cases he

/-- What the return of a call changes in the module. -/
theorem leave_cases {returned : Option Int} (hl : EventModule.leave t w c returned = some w') :
    w'.busy = Function.update w.busy t false ∧ w'.inUser = w.inUser ∧ w'.holder = w.holder ∧
      ∀ l, (w'.listeners l).entered = (w.listeners l).entered ∧
        ((w'.listeners l).finished = true ↔
          (w.listeners l).finished = true ∨ ∃ turns, c = .dispatch l turns) := by
  unfold EventModule.leave at hl
  split at hl
  · cases hl
    cases c with
    | set attempts callback_function error_callback =>
      exact ⟨rfl, rfl, rfl, fun l => ⟨rfl, (or_iff_left nofun).symm⟩⟩
    | deviceNotification l action data =>
      exact ⟨rfl, rfl, rfl, fun l => ⟨rfl, (or_iff_left nofun).symm⟩⟩
    | dispatch l turns =>
      refine ⟨rfl, rfl, rfl, fun l' => ?_⟩
      by_cases hl : l' = l
      · rw [hl]
        simp [EventModule.withBusy]
      · simp [EventModule.withBusy, hl, Ne.symm hl]
  · cases hl

theorem enter (hs : Stacked gs w) (ht : gs t = none) (he : EventModule.enter t w c = some w') :
    Stacked (Function.update gs t (some (c, c.part))) w' := by
  obtain ⟨hmay, hbusy, hin, hholder, hlisteners⟩ := enter_cases he
  have hhas := mayEnter_has hmay
  constructor
  case busy =>
    intro u
    rw [hbusy]
    by_cases hu : u = t
    · rw [hu, Function.update_self, Function.update_self]
      rfl
    · rw [Function.update_of_ne hu, Function.update_of_ne hu]
      exact hs.busy u
  case inUser =>
    intro u
    rw [hin, hs.inUser]
    by_cases hu : u = t
    · rw [hu, ht, Function.update_self]
      cases c <;> simp [ModuleCall.part]
    · rw [Function.update_of_ne hu]
  case inner =>
    intro u hinner
    rw [hin]
    by_cases hu : u.inner = t
    · rw [← hu] at hmay
      exact mayEnter_inner hmay
    · rw [Function.update_of_ne hu] at hinner
      exact hs.inner u hinner
  case clean => exact forall_inside (fun u c' g' _ => hs.clean u c' g') (part_clean c)
  case has => exact forall_inside (fun u c' g' _ => hs.has u c' g') hhas
  case holder =>
    intro m u
    rw [hholder, hs.holder]
    by_cases hu : u = t
    · rw [hu, ht, Function.update_self]
      have hfree := part_free c m
      simp [hfree]
    · rw [Function.update_of_ne hu]
  case entered =>
    intro l hl
    rw [(hlisteners l).2]
    by_cases hlt : (⟨.dispatcher l, 0⟩ : Thread) = t
    · rw [← hlt] at hhas
      exact Or.inr hhas.dispatch
    · rw [Function.update_of_ne hlt] at hl
      exact Or.inl (hs.entered l hl)
  case finished =>
    intro l hl
    rw [(hlisteners l).1] at hl
    obtain ⟨hentered, hnone⟩ := hs.finished l hl
    have hlt : (⟨.dispatcher l, 0⟩ : Thread) ≠ t := by
      intro hlt
      rw [← hlt] at hhas
      obtain ⟨turns, rfl⟩ := hhas.dispatch
      -- the thread of a listener starts once
      obtain ⟨_, _, hnot⟩ := mayEnter_dispatch hmay
      rw [hentered] at hnot
      cases hnot
    refine ⟨(hlisteners l).2.mpr (Or.inl hentered), ?_⟩
    rw [Function.update_of_ne hlt]
    exact hnone

theorem leave {returned : Option Int} (hs : Stacked gs w) (ht : gs t = some (c, g))
    (hends : g.Ends) (hl : EventModule.leave t w c returned = some w') :
    Stacked (Function.update gs t none) w' := by
  obtain ⟨hbusy, hin, hholder, hlisteners⟩ := leave_cases hl
  obtain ⟨⟨hout, hfree⟩, hglobal, -, -, -⟩ := hends
  constructor
  case busy =>
    intro u
    rw [hbusy]
    by_cases hu : u = t
    · rw [hu, Function.update_self, Function.update_self]
      rfl
    · rw [Function.update_of_ne hu, Function.update_of_ne hu]
      exact hs.busy u
  case inUser =>
    intro u
    rw [hin]
    by_cases hu : u = t
    · rw [hu, hs.inUser_of ht, hout, Function.update_self]
      simp
    · rw [Function.update_of_ne hu]
      exact hs.inUser u
  case inner =>
    intro u hinner
    rw [hin]
    by_cases hu : u.inner = t
    · rw [hu, Function.update_self] at hinner
      cases hinner
    · rw [Function.update_of_ne hu] at hinner
      exact hs.inner u hinner
  case clean => exact fun u c' g' hu => hs.clean u c' g' (stays_inside hu).2
  case has => exact fun u c' g' hu => hs.has u c' g' (stays_inside hu).2
  case holder =>
    intro m u
    rw [hholder]
    by_cases hu : u = t
    · rw [hu, hs.holder_of ht, Function.update_self]
      cases m with
      | g_event_listener_mutex => simp [hglobal]
      | mutex_ l => simp [hfree]
    · rw [Function.update_of_ne hu]
      exact hs.holder m u
  case entered =>
    intro l hl
    rw [(hlisteners l).1]
    by_cases hlt : (⟨.dispatcher l, 0⟩ : Thread) = t
    · rw [hlt, Function.update_self] at hl
      cases hl
    · rw [Function.update_of_ne hlt] at hl
      exact hs.entered l hl
  case finished =>
    intro l hl
    rw [(hlisteners l).1]
    rcases (hlisteners l).2.mp hl with hbefore | ⟨turns, rfl⟩
    · obtain ⟨hentered, hnone⟩ := hs.finished l hbefore
      refine ⟨hentered, ?_⟩
      by_cases hlt : (⟨.dispatcher l, 0⟩ : Thread) = t
      · rw [hlt, Function.update_self]
      · rw [Function.update_of_ne hlt, hnone]
    · have hthread : t = ⟨.dispatcher l, 0⟩ := (hs.has t _ g ht).2
      refine ⟨hs.entered l (by rw [← hthread, ht]; rfl), ?_⟩
      rw [← hthread, Function.update_self]

/-! ## What the threads tell -/

/-- Every outer call of a thread is inside a callback. -/
theorem outer (hs : Stacked gs w) (os : OsThread) (depth : Nat) {k : Nat}
    (h : (gs ⟨os, depth⟩).isSome = true) (hk : k < depth) : w.inUser ⟨os, k⟩ = true := by
  induction depth with
  | zero => exact absurd hk (Nat.not_lt_zero k)
  | succ depth ih =>
    have hin : w.inUser ⟨os, depth⟩ = true := hs.inner ⟨os, depth⟩ h
    rcases Nat.lt_succ_iff_lt_or_eq.mp hk with hlt | rfl
    · obtain ⟨c, g, hg, _⟩ := (hs.inUser _).mp hin
      refine ih ?_ hlt
      rw [hg]
      rfl
    · exact hin

theorem dispatching (hs : Stacked gs w) (ht : gs t = some (c, g))
    (hstage : g.stage = .dispatching l) : t = ⟨.dispatcher l, 0⟩ := by
  have hhas := hs.has t c g ht
  cases c with
  | set attempts callback_function error_callback => exact absurd hstage (hhas.2.1 l)
  | deviceNotification l' action data =>
    have helsewhere : g.stage = .elsewhere := hhas.1
    rw [hstage] at helsewhere
    cases helsewhere
  | dispatch l' turns =>
    have hstage' : g.stage = .dispatching l' := hhas.1
    rw [hstage] at hstage'
    cases hstage'
    exact hhas.2

/-- A call that makes or installs a listener on the thread of another listener is inside a
callback of that listener, which was active. -/
theorem inside (hs : Stacked gs w) (ht : gs t = some (c, g)) (hos : t.os = .dispatcher l)
    (hnot : ∀ l', g.stage ≠ .dispatching l') :
    ∃ c₀ g₀, gs ⟨.dispatcher l, 0⟩ = some (c₀, g₀) ∧ g₀.inUser = true ∧ g₀.took = false ∧
      g₀.stage = .dispatching l ∧ g₀.live = true := by
  obtain ⟨os, depth⟩ := t
  cases hos
  have hpos : 0 < depth := by
    apply Nat.pos_of_ne_zero
    rintro rfl
    obtain ⟨turns, rfl⟩ := (hs.has _ c g ht).dispatch
    exact hnot l (hs.has _ _ g ht).1
  have hin := hs.outer (.dispatcher l) depth (by rw [ht]; rfl) hpos
  obtain ⟨c₀, g₀, hg₀, hin₀⟩ := (hs.inUser _).mp hin
  have hclean := hs.clean _ c₀ g₀ hg₀
  obtain ⟨turns, rfl⟩ := (hs.has _ c₀ g₀ hg₀).dispatch
  have hstage : g₀.stage = .dispatching l := (hs.has _ _ g₀ hg₀).1
  exact ⟨_, g₀, hg₀, hin₀, (hclean.user hin₀).2.2, hstage, hclean.told hin₀ l hstage⟩

/-- When the innermost call of a thread holds nothing, the thread holds no mutex at any depth. -/
theorem holds_none (hs : Stacked gs w) (ht : gs t = some (c, g)) (hfree : g.Free)
    (hglobal : g.stage.global = false) (m : Mutex) (depth : Nat) :
    w.holder m ≠ some ⟨t.os, depth⟩ := by
  intro hholder
  obtain ⟨c', g', ht', hholds⟩ := (hs.holder m _).mp hholder
  rcases Nat.lt_trichotomy depth t.depth with hlt | rfl | hgt
  · -- an outer call is inside its callback, where it holds nothing
    have hin := hs.outer t.os t.depth (by rw [ht]; rfl) hlt
    rw [hs.inUser_of ht'] at hin
    obtain ⟨hlocked, hnot, _⟩ := (hs.clean _ c' g' ht').user hin
    cases m with
    | g_event_listener_mutex =>
      rw [Part.holds_global, hnot] at hholds
      cases hholds
    | mutex_ l =>
      rw [Part.holds_mutex, hlocked] at hholds
      cases hholds
  · rw [ht] at ht'
    cases ht'
    cases m with
    | g_event_listener_mutex =>
      rw [Part.holds_global, hglobal] at hholds
      cases hholds
    | mutex_ l =>
      rw [Part.holds_mutex, hfree.2] at hholds
      cases hholds
  · have hin := hs.outer t.os depth (by rw [ht']; rfl) hgt
    rw [hs.inUser_of (t := ⟨t.os, t.depth⟩) ht, hfree.1] at hin
    cases hin

end Stacked

end cpp_bindings_windows
