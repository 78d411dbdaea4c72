-- Monitors: data under a mutex, with a condition variable on which one thread waits for a
-- predicate of the data. A thread that may have made the predicate true owes a notification
-- until it gives one, and no thread that owes one lets go of the mutex. Then no wake-up is lost.
import SerialBindings.Threads

open programs

namespace monitors

/-! ## The monitor -/

/-- Where the thread is that waits: it is not in the wait, it sleeps, or a notification came. -/
inductive Waiter
  | awake
  | asleep
  | notified
  deriving DecidableEq

/-- The data of a monitor, the thread that holds its mutex, and the thread that may wait. -/
structure MonitorState (T D : Type) where
  data : D
  holder : Option T := none
  waiter : Waiter := .awake
  waiting : Option T := none

/-- The actions of a monitor. An `access` reads or writes the data, and what is `outside` has
nothing to do with the monitor. -/
inductive MonitorAction (A O : Type)
  | lock
  | unlock
  | notifyOne
  | test
  | sleep
  | wake
  | access (a : A)
  | outside (o : O)

@[reducible] def MonitorAnswer {A O : Type} (RA : A → Type) (RO : O → Type) :
    MonitorAction A O → Type
  | .test => Bool
  | .access a => RA a
  | .outside o => RO o
  | _ => Unit

/-- The accesses to the data, and the predicate that the waiter waits for. An access whose answer
does not tell that it `rouses` never makes the predicate true. -/
structure Condition (D A : Type) (RA : A → Type) where
  ready : D → Bool
  access : (a : A) → RA a → D → Option D
  rouses : (a : A) → RA a → Bool
  calm : ∀ {a r d d'}, rouses a r = false → access a r d = some d' → ready d' = true →
    ready d = true

/-- A wait ends with a notification, or without one where `spurious` wake-ups are possible. -/
def Waiter.mayWake (spurious : Bool) : Waiter → Bool
  | .awake => false
  | .asleep => spurious
  | .notified => true

variable {T D A O C : Type} {RA : A → Type} {RO : O → Type}

namespace MonitorState

/-- The wait lets go of the mutex and falls asleep in one step, and a notification is forgotten
when no thread sleeps. -/
def perform [DecidableEq T] (cond : Condition D A RA) (spurious : Bool) (t : T)
    (w : MonitorState T D) :
    (e : MonitorAction A O) → MonitorAnswer RA RO e → Option (MonitorState T D)
  | .lock, _ => if w.holder = none then some { w with holder := some t } else none
  | .unlock, _ => if w.holder = some t then some { w with holder := none } else none
  | .notifyOne, _ => some (if w.waiter = .asleep then { w with waiter := .notified } else w)
  | .test, answer => if cond.ready w.data = answer then some w else none
  | .sleep, _ =>
    if w.holder = some t then some { w with holder := none, waiter := .asleep } else none
  | .wake, _ =>
    if w.holder = none ∧ w.waiter.mayWake spurious = true then
      some { w with holder := some t, waiter := .awake }
    else none
  | .access a, r => (cond.access a r w.data).map fun data => { w with data }
  | .outside _, _ => some w

end MonitorState

/-- What an action does to the data alone. -/
def Condition.step (cond : Condition D A RA) (data : D) :
    (e : MonitorAction A O) → MonitorAnswer RA RO e → Option D
  | .test, answer => if cond.ready data = answer then some data else none
  | .access a, r => cond.access a r data
  | _, _ => some data

/-- A run of one program on the monitor is one on the data. -/
theorem exec_data [DecidableEq T] {cond : Condition D A RA} {spurious : Bool} {t : T} {α : Type}
    {p : Prog (MonitorAction A O) (MonitorAnswer RA RO) α} {w w' : MonitorState T D} {a : α}
    (h : Exec (MonitorState.perform cond spurious t) w p w' a) :
    Exec cond.step w.data p w'.data a := by
  induction h with
  | ret => exact .ret
  | @act w w1 w2 e r k a hn _ ih =>
    refine .act ?_ ih
    cases e with
    | lock | unlock | sleep | wake =>
      obtain ⟨_, hw⟩ := Option.ite_none_right_eq_some.mp hn
      cases hw
      rfl
    | notifyOne =>
      cases hn
      change some w.data = some (if _ then _ else _ : MonitorState T D).data
      split <;> rfl
    | test =>
      obtain ⟨hready, hw⟩ := Option.ite_none_right_eq_some.mp hn
      cases hw
      exact if_pos hready
    | access a =>
      obtain ⟨data, haccess, hw⟩ := Option.map_eq_some_iff.mp hn
      cases hw
      exact haccess
    | outside o =>
      cases hn
      rfl

/-- The machine of the calls `C`, of which only one may be one that `waits`. A call ends with
whether it was followed to its return. -/
def machine [DecidableEq T] (cond : Condition D A RA) (spurious : Bool) (waits : C → Bool)
    (body : C → Prog (MonitorAction A O) (MonitorAnswer RA RO) Bool) :
    Machine T (MonitorAction A O) (MonitorAnswer RA RO) C Bool (MonitorState T D) where
  body := body
  enter t w c :=
    if waits c then if w.waiting = none then some { w with waiting := some t } else none
    else some w
  perform := MonitorState.perform cond spurious
  leave _ w _ returned := if returned then some w else none

/-! ## The discipline -/

/-- What a thread has: the mutex, a notification that it `owes`, the answer of a test that the
predicate is false, and whether it is inside the wait. -/
structure Duty where
  waits : Bool := false
  locked : Bool := false
  owes : Bool := false
  refuted : Bool := false
  sleeping : Bool := false

def Duty.allows (g : Duty) : MonitorAction A O → Prop
  | .lock => g.sleeping = false ∧ g.locked = false
  | .unlock => g.sleeping = false ∧ g.locked = true ∧ g.owes = false
  | .notifyOne => g.sleeping = false
  | .test => g.sleeping = false ∧ g.locked = true
  | .sleep => g.sleeping = false ∧ g.waits = true ∧ g.refuted = true
  | .wake => g.sleeping = true
  | .access _ => g.sleeping = false ∧ g.locked = true
  | .outside _ => g.sleeping = false

def Duty.next (rouses : (a : A) → RA a → Bool) (g : Duty) :
    (e : MonitorAction A O) → MonitorAnswer RA RO e → Option Duty
  | .lock, _ => some { g with locked := true }
  | .unlock, _ => some { g with locked := false, refuted := false }
  | .notifyOne, _ => some { g with owes := false }
  | .test, answer => some { g with refuted := !answer }
  | .sleep, _ => some { g with locked := false, owes := false, refuted := false, sleeping := true }
  | .wake, _ => some { g with locked := true, sleeping := false }
  | .access a, r => some { g with owes := g.owes || rouses a r, refuted := false }
  | .outside _, _ => some g

/-- Inside the wait there is nothing to do but to wake up. -/
theorem Duty.wakes_of_sleeping {g : Duty} {e : MonitorAction A O} (hsleeping : g.sleeping = true)
    (ha : g.allows e) : e = .wake := by
  cases e with
  | wake => rfl
  | notifyOne | outside o => exact absurd (ha.symm.trans hsleeping) Bool.false_ne_true
  | lock | unlock | test | sleep | access a =>
    exact absurd (ha.1.symm.trans hsleeping) Bool.false_ne_true

/-- The discipline of a program that uses the monitor. -/
def discipline (rouses : (a : A) → RA a → Bool) :
    Protocol (MonitorAction A O) (MonitorAnswer RA RO) Duty where
  allows := Duty.allows
  next := Duty.next rouses

/-- A call does not end inside the wait, and it returns without the mutex. -/
def Duty.Ended (g : Duty) (returned : Bool) : Prop :=
  g.sleeping = false ∧ (returned = true → g.locked = false)

/-- The rule for a part that has nothing to do with the monitor. -/
theorem follows_outside {rouses : (a : A) → RA a → Bool} {α β : Type} {Q : Duty → α → Prop}
    {p : Prog O RO β} {f : β → Prog (MonitorAction A O) (MonitorAnswer RA RO) α} {g : Duty}
    (hout : g.sleeping = false) (h : ∀ b, Follows (discipline rouses) Q (f b) g) :
    Follows (discipline rouses) Q (p.lift MonitorAction.outside >>= f) g := by
  induction p with
  | ret b => exact h b
  | act o k ih =>
    refine ⟨hout, fun r g' hn => ?_⟩
    cases hn
    exact ih r

/-! ## The invariant -/

abbrev Duties (T C : Type) := T → Option (C × Duty)

/-- What the monitor has of one thread. -/
structure Duty.Fits (g : Duty) (cond : Condition D A RA) (t : T) (w : MonitorState T D) : Prop where
  holder : g.locked = true → w.holder = some t
  refuted : g.refuted = true → g.locked = true ∧ cond.ready w.data = false
  waiting : g.waits = true → w.waiting = some t
  sleeping : g.sleeping = true → g.waits = true ∧ g.locked = false ∧ w.waiter ≠ .awake

/-- A sleeper that was not notified sleeps rightly, or a thread inside the mutex will notify it. -/
structure Attended (cond : Condition D A RA) (gs : Duties T C) (w : MonitorState T D) : Prop where
  fits : ∀ t c g, gs t = some (c, g) → g.Fits cond t w
  sleeper : w.waiter ≠ .awake → ∃ t c g, gs t = some (c, g) ∧ g.sleeping = true
  attended : w.waiter = .asleep → cond.ready w.data = true →
    ∃ t c g, gs t = some (c, g) ∧ g.locked = true ∧ g.owes = true

section Steps

variable {cond : Condition D A RA} {spurious : Bool} {gs : Duties T C} {w w' : MonitorState T D}
  {t : T}
  {c : C} {g g' : Duty}

/-- Two threads do not hold the mutex. -/
theorem Duty.Fits.alone {u : T} {g'' : Duty} (h : g''.Fits cond u w) (hut : u ≠ t)
    (hholder : w.holder = some t) : g''.locked = false := by
  rw [← Bool.not_eq_true]
  intro hlocked
  have heq := (h.holder hlocked).symm.trans hholder
  exact hut (Option.some.inj heq)

/-- No thread has the mutex while it is free. -/
theorem Duty.Fits.outside {u : T} {g'' : Duty} (h : g''.Fits cond u w) (hfree : w.holder = none) :
    g''.locked = false := by
  rw [← Bool.not_eq_true]
  intro hlocked
  cases hfree.symm.trans (h.holder hlocked)

/-- Another thread that has not the mutex does not see what happens to it, nor to the data. -/
theorem Duty.Fits.apart {u : T} {g'' : Duty} (h : g''.Fits cond u w) (hlocked : g''.locked = false)
    (hwaiting : w'.waiting = w.waiting) (hwaiter : w'.waiter = .awake → w.waiter = .awake) :
    g''.Fits cond u w' where
  holder htrue := absurd (hlocked.symm.trans htrue) Bool.false_ne_true
  refuted hrefuted := absurd (hlocked.symm.trans (h.refuted hrefuted).1) Bool.false_ne_true
  waiting hwaits := hwaiting.trans (h.waiting hwaits)
  sleeping hsleeping := by
    obtain ⟨hwaits, hout, hin⟩ := h.sleeping hsleeping
    exact ⟨hwaits, hout, fun hawake => hin (hwaiter hawake)⟩

variable [DecidableEq T]

/-- Of what some thread has, a step of `t` leaves what `t` itself does not give up. -/
theorem some_update {p : Duty → Prop} (hg : gs t = some (c, g)) (hkeep : p g → p g')
    (h : ∃ u c g, gs u = some (c, g) ∧ p g) :
    ∃ u c'' g'', Function.update gs t (some (c, g')) u = some (c'', g'') ∧ p g'' := by
  obtain ⟨u, c'', g'', hu, hp⟩ := h
  by_cases hut : u = t
  · rw [hut, hg] at hu
    cases hu
    exact ⟨t, c, g', Function.update_self _ _ _, hkeep hp⟩
  · exact ⟨u, c'', g'', by rw [Function.update_of_ne hut, hu], hp⟩

/-- The rule for a step of one thread. -/
theorem Attended.update (hi : Attended cond gs w) (hg : gs t = some (c, g))
    (hothers : ∀ u (g'' : Duty), u ≠ t → g''.Fits cond u w → g''.Fits cond u w')
    (hself : g'.Fits cond t w')
    (hsleeper : w'.waiter ≠ .awake →
      g'.sleeping = true ∨ (w.waiter ≠ .awake ∧ (g.sleeping = true → g'.sleeping = true)))
    (hattended : w'.waiter = .asleep → cond.ready w'.data = true →
      (g'.locked = true ∧ g'.owes = true) ∨ (w.waiter = .asleep ∧ cond.ready w.data = true ∧
        (g.locked = true ∧ g.owes = true → g'.locked = true ∧ g'.owes = true))) :
    Attended cond (Function.update gs t (some (c, g'))) w' := by
  refine ⟨?_, ?_, ?_⟩
  · exact forall_inside (fun u c'' g'' hut hu => hothers u g'' hut (hi.fits u c'' g'' hu)) hself
  · intro hin
    rcases hsleeper hin with hsleeps | ⟨hin, hkeep⟩
    · exact ⟨t, c, g', Function.update_self _ _ _, hsleeps⟩
    · exact some_update hg hkeep (hi.sleeper hin)
  · intro hasleep hready
    rcases hattended hasleep hready with howes | ⟨hasleep, hready, hkeep⟩
    · exact ⟨t, c, g', Function.update_self _ _ _, howes⟩
    · exact some_update (p := fun g => g.locked = true ∧ g.owes = true) hg hkeep
        (hi.attended hasleep hready)

theorem Attended.locks (hi : Attended cond gs w) (hg : gs t = some (c, g))
    (hout : g.sleeping = false) (hlocked : g.locked = false) (hfree : w.holder = none) :
    Attended cond (Function.update gs t (some (c, { g with locked := true })))
      { w with holder := some t } := by
  have hfits := hi.fits t c g hg
  refine hi.update hg ?_ ?_ (fun hin => Or.inr ⟨hin, fun h => h⟩)
    (fun hasleep hready => Or.inr ⟨hasleep, hready, fun h => ⟨rfl, h.2⟩⟩)
  · intro u g'' _ h
    exact h.apart (h.outside hfree) rfl fun h => h
  · refine ⟨fun _ => rfl, fun hrefuted => ?_, hfits.waiting, fun hsleeping => ?_⟩
    · exact absurd (hlocked.symm.trans (hfits.refuted hrefuted).1) Bool.false_ne_true
    · exact absurd (hout.symm.trans hsleeping) Bool.false_ne_true

theorem Attended.unlocks (hi : Attended cond gs w) (hg : gs t = some (c, g))
    (hout : g.sleeping = false) (howes : g.owes = false) (hholder : w.holder = some t) :
    Attended cond (Function.update gs t (some (c, { g with locked := false, refuted := false })))
      { w with holder := none } := by
  have hfits := hi.fits t c g hg
  refine hi.update hg ?_ ?_ (fun hin => Or.inr ⟨hin, fun h => h⟩)
    (fun hasleep hready => Or.inr ⟨hasleep, hready, fun h => ?_⟩)
  · intro u g'' hut h
    exact h.apart (h.alone hut hholder) rfl fun h => h
  · exact ⟨fun h => absurd h Bool.false_ne_true, fun h => absurd h Bool.false_ne_true,
      hfits.waiting, fun h => absurd (hout.symm.trans h) Bool.false_ne_true⟩
  · exact absurd (howes.symm.trans h.2) Bool.false_ne_true

/-- After a notification no thread sleeps that was not notified. -/
theorem Attended.notifies (hi : Attended cond gs w) (hg : gs t = some (c, g)) :
    Attended cond (Function.update gs t (some (c, { g with owes := false })))
      (if w.waiter = .asleep then { w with waiter := .notified } else w) := by
  have hfits := hi.fits t c g hg
  split
  · rename_i hasleep
    have hin : w.waiter ≠ .awake := by
      rw [hasleep]
      exact nofun
    refine hi.update hg ?_ ?_ (fun _ => Or.inr ⟨hin, fun h => h⟩) nofun
    · intro u g'' _ h
      exact ⟨h.holder, h.refuted, h.waiting,
        fun hs => ⟨(h.sleeping hs).1, (h.sleeping hs).2.1, nofun⟩⟩
    · exact ⟨hfits.holder, hfits.refuted, hfits.waiting,
        fun hs => ⟨(hfits.sleeping hs).1, (hfits.sleeping hs).2.1, nofun⟩⟩
  · rename_i hnot
    refine hi.update hg (fun _ _ _ h => h) ?_ (fun hin => Or.inr ⟨hin, fun h => h⟩)
      fun hasleep => absurd hasleep hnot
    exact ⟨hfits.holder, hfits.refuted, hfits.waiting, hfits.sleeping⟩

theorem Attended.tests (hi : Attended cond gs w) (hg : gs t = some (c, g))
    (hlocked : g.locked = true) :
    Attended cond
      (Function.update gs t (some (c, { g with refuted := !cond.ready w.data }))) w := by
  have hfits := hi.fits t c g hg
  refine hi.update hg (fun _ _ _ h => h) ?_ (fun hin => Or.inr ⟨hin, fun h => h⟩)
    (fun hasleep hready => Or.inr ⟨hasleep, hready, fun h => h⟩)
  refine ⟨hfits.holder, fun hrefuted => ⟨hlocked, ?_⟩, hfits.waiting, hfits.sleeping⟩
  exact Bool.not_eq_true' _ ▸ hrefuted

/-- The waiter falls asleep after it saw that the predicate is false, and under the same lock. -/
theorem Attended.sleeps (hi : Attended cond gs w) (hg : gs t = some (c, g))
    (hwaits : g.waits = true) (hrefuted : g.refuted = true) (hholder : w.holder = some t) :
    Attended cond (Function.update gs t (some (c,
        { g with locked := false, owes := false, refuted := false, sleeping := true })))
      { w with holder := none, waiter := .asleep } := by
  have hfits := hi.fits t c g hg
  refine hi.update hg ?_ ?_ (fun _ => Or.inl rfl) fun _ hready => ?_
  · intro u g'' hut h
    exact h.apart (h.alone hut hholder) rfl nofun
  · exact ⟨fun h => absurd h Bool.false_ne_true, fun h => absurd h Bool.false_ne_true,
      hfits.waiting, fun _ => ⟨hwaits, rfl, nofun⟩⟩
  · exact absurd ((hfits.refuted hrefuted).2.symm.trans hready) Bool.false_ne_true

theorem Attended.wakes (hi : Attended cond gs w) (hg : gs t = some (c, g))
    (hsleeping : g.sleeping = true) (hfree : w.holder = none) :
    Attended cond (Function.update gs t (some (c, { g with locked := true, sleeping := false })))
      { w with holder := some t, waiter := .awake } := by
  have hfits := hi.fits t c g hg
  obtain ⟨hwaits, hout, _⟩ := hfits.sleeping hsleeping
  refine hi.update hg ?_ ?_ (fun hin => absurd rfl hin) nofun
  · intro u g'' hut h
    have hlocked := h.outside hfree
    refine ⟨fun htrue => absurd (hlocked.symm.trans htrue) Bool.false_ne_true,
      fun hrefuted => absurd (hlocked.symm.trans (h.refuted hrefuted).1) Bool.false_ne_true,
      h.waiting, fun hs => ?_⟩
    -- only one thread may wait
    have heq := (h.waiting (h.sleeping hs).1).symm.trans (hfits.waiting hwaits)
    exact absurd (Option.some.inj heq) hut
  · refine ⟨fun _ => rfl, fun hrefuted => ?_, hfits.waiting, fun h => absurd h Bool.false_ne_true⟩
    exact absurd (hout.symm.trans (hfits.refuted hrefuted).1) Bool.false_ne_true

theorem Attended.accesses {a : A} {r : RA a} {data : D} (hi : Attended cond gs w)
    (hg : gs t = some (c, g)) (hout : g.sleeping = false) (hlocked : g.locked = true)
    (haccess : cond.access a r w.data = some data) :
    Attended cond (Function.update gs t (some (c,
        { g with owes := g.owes || cond.rouses a r, refuted := false }))) { w with data } := by
  have hfits := hi.fits t c g hg
  have hholder := hfits.holder hlocked
  refine hi.update hg ?_ ?_ (fun hin => Or.inr ⟨hin, fun h => h⟩) fun hasleep hready => ?_
  · intro u g'' hut h
    exact h.apart (h.alone hut hholder) rfl fun h => h
  · exact ⟨hfits.holder, fun h => absurd h Bool.false_ne_true, hfits.waiting,
      fun h => absurd (hout.symm.trans h) Bool.false_ne_true⟩
  · cases hrouses : cond.rouses a r with
    | true => exact Or.inl ⟨hlocked, Bool.or_true _⟩
    | false =>
      refine Or.inr ⟨hasleep, cond.calm hrouses haccess hready, fun h => ⟨hlocked, ?_⟩⟩
      rw [h.2]
      rfl

/-- Every action that the discipline allows keeps the invariant. -/
theorem Attended.did {e : MonitorAction A O} {r : MonitorAnswer RA RO e} (hi : Attended cond gs w)
    (hg : gs t = some (c, g)) (ha : g.allows e) (hp : w.perform cond spurious t e r = some w') :
    ∃ g', g.next cond.rouses e r = some g' ∧
      Attended cond (Function.update gs t (some (c, g'))) w' := by
  cases e with
  | lock =>
    obtain ⟨hfree, hw⟩ := Option.ite_none_right_eq_some.mp hp
    cases hw
    exact ⟨_, rfl, hi.locks hg ha.1 ha.2 hfree⟩
  | unlock =>
    obtain ⟨hholder, hw⟩ := Option.ite_none_right_eq_some.mp hp
    cases hw
    exact ⟨_, rfl, hi.unlocks hg ha.1 ha.2.2 hholder⟩
  | notifyOne =>
    cases hp
    exact ⟨_, rfl, hi.notifies hg⟩
  | test =>
    obtain ⟨rfl, hw⟩ := Option.ite_none_right_eq_some.mp hp
    cases hw
    exact ⟨_, rfl, hi.tests hg ha.2⟩
  | sleep =>
    obtain ⟨hholder, hw⟩ := Option.ite_none_right_eq_some.mp hp
    cases hw
    exact ⟨_, rfl, hi.sleeps hg ha.2.1 ha.2.2 hholder⟩
  | wake =>
    obtain ⟨⟨hfree, _⟩, hw⟩ := Option.ite_none_right_eq_some.mp hp
    cases hw
    exact ⟨_, rfl, hi.wakes hg ha hfree⟩
  | access a =>
    obtain ⟨data, haccess, rfl⟩ := Option.map_eq_some_iff.mp hp
    exact ⟨_, rfl, hi.accesses hg ha.1 ha.2 haccess⟩
  | outside o =>
    cases hp
    refine ⟨g, rfl, ?_⟩
    rw [Function.update_eq_self_iff.mpr hg.symm]
    exact hi

/-- The rule for a thread that starts a call or returns. -/
theorem Attended.replace {x : Option (C × Duty)} (hi : Attended cond gs w)
    (hout : ∀ c g, gs t = some (c, g) → g.sleeping = false ∧ g.locked = false)
    (hwaiter : w'.waiter = w.waiter) (hdata : w'.data = w.data)
    (hothers : ∀ u (g'' : Duty), u ≠ t → g''.Fits cond u w → g''.Fits cond u w')
    (hself : ∀ c g, x = some (c, g) → g.Fits cond t w') :
    Attended cond (Function.update gs t x) w' := by
  have hstays : ∀ {p : Duty → Prop}, (∀ c g, gs t = some (c, g) → ¬ p g) →
      (∃ u c g, gs u = some (c, g) ∧ p g) →
      ∃ u c g, Function.update gs t x u = some (c, g) ∧ p g := by
    rintro p hnot ⟨u, c, g, hu, hp⟩
    have hut : u ≠ t := by
      rintro rfl
      exact hnot c g hu hp
    exact ⟨u, c, g, by rw [Function.update_of_ne hut, hu], hp⟩
  refine ⟨?_, ?_, ?_⟩
  · exact forall_update (fun u c g hut hu => hothers u g hut (hi.fits u c g hu)) hself
  · intro hin
    rw [hwaiter] at hin
    apply hstays _ (hi.sleeper hin)
    intro c g hg hsleeping
    exact absurd ((hout c g hg).1.symm.trans hsleeping) Bool.false_ne_true
  · intro hasleep hready
    rw [hwaiter] at hasleep
    rw [hdata] at hready
    apply hstays _ (hi.attended hasleep hready)
    intro c g hg howes
    exact absurd ((hout c g hg).2.symm.trans howes.1) Bool.false_ne_true

theorem Attended.enters (hi : Attended cond gs w) (hg : gs t = none) :
    Attended cond (Function.update gs t (some (c, {}))) w := by
  refine hi.replace ?_ rfl rfl (fun _ _ _ h => h) ?_
  · intro c g hsome
    cases hg.symm.trans hsome
  · rintro c g hself
    cases hself
    exact ⟨nofun, nofun, nofun, nofun⟩

theorem Attended.starts (hi : Attended cond gs w) (hg : gs t = none) (hfree : w.waiting = none) :
    Attended cond (Function.update gs t (some (c, { waits := true })))
      { w with waiting := some t } := by
  refine hi.replace ?_ rfl rfl ?_ ?_
  · intro c g hsome
    cases hg.symm.trans hsome
  · intro u g'' _ h
    refine ⟨h.holder, h.refuted, fun hwaits => ?_, h.sleeping⟩
    cases hfree.symm.trans (h.waiting hwaits)
  · rintro c g hself
    cases hself
    exact ⟨nofun, nofun, fun _ => rfl, nofun⟩

end Steps

/-! ## No lost wake-up -/

section Runs

variable [DecidableEq T] {cond : Condition D A RA} {spurious : Bool} {waits : C → Bool}
  {body : C → Prog (MonitorAction A O) (MonitorAnswer RA RO) Bool} {data : D}

/-- Every call keeps to the discipline. -/
def Disciplined (cond : Condition D A RA) (waits : C → Bool)
    (body : C → Prog (MonitorAction A O) (MonitorAnswer RA RO) Bool) : Prop :=
  ∀ c, Follows (discipline cond.rouses) Duty.Ended (body c) { waits := waits c }

def attendedOutline (T : Type) [DecidableEq T] (spurious : Bool) (data : D)
    (hbody : Disciplined cond waits body) :
    Outline (T := T) (machine cond spurious waits body) always { data } (discipline cond.rouses)
    where
  start c := { waits := waits c }
  post _ := Duty.Ended
  inv _ := Attended cond
  follows := hbody
  init := ⟨nofun, nofun, nofun⟩
  enter {ls gs s t c s'} hi hg henter _ := by
    change (if waits c then _ else _) = _ at henter
    cases hwaits : waits c with
    | false =>
      rw [hwaits] at henter
      cases henter
      exact hi.enters hg
    | true =>
      rw [hwaits] at henter
      obtain ⟨hfree, hs⟩ := Option.ite_none_right_eq_some.mp henter
      cases hs
      exact hi.starts hg hfree
  did hi hg ha hp _ := hi.did hg ha hp
  leave {ls gs s t c g a s'} hi hg hpost hleave _ := by
    obtain ⟨hreturned, hs⟩ := Option.ite_none_right_eq_some.mp hleave
    cases hs
    refine hi.replace ?_ rfl rfl (fun _ _ _ h => h) nofun
    intro c' g' hg'
    rw [hg] at hg'
    cases hg'
    exact ⟨hpost.1, hpost.2 hreturned⟩

/-- In every state without a holder of the mutex, a thread sleeps only while the predicate is
false or a notification came. Then it can wake up. -/
theorem no_lost_wakeup (hbody : Disciplined cond waits body)
    {ls : List (Label T (MonitorAction A O) (MonitorAnswer RA RO) C Bool)}
    {s : Sys T (MonitorAction A O) (MonitorAnswer RA RO) C Bool (MonitorState T D)}
    (h : Runs (machine cond spurious waits body) always { data } ls s)
    (hfree : s.shared.holder = none) :
    (s.shared.waiter = .asleep → cond.ready s.shared.data = false) ∧
      (s.shared.waiter ≠ .awake → cond.ready s.shared.data = true →
        ∃ t s', Step (machine cond spurious waits body) s (.did t .wake ()) s') := by
  obtain ⟨gs, hi, hm⟩ := (attendedOutline T spurious data hbody).runs h
  have hrightly : s.shared.waiter = .asleep → cond.ready s.shared.data = false := by
    intro hasleep
    rw [← Bool.not_eq_true]
    intro hready
    obtain ⟨t, c, g, hg, hlocked, _⟩ := hi.attended hasleep hready
    cases hfree.symm.trans ((hi.fits t c g hg).holder hlocked)
  refine ⟨hrightly, fun hin hready => ?_⟩
  have hmay : s.shared.waiter.mayWake spurious = true := by
    cases hwaiter : s.shared.waiter with
    | awake => exact absurd hwaiter hin
    | asleep => exact absurd ((hrightly hwaiter).symm.trans hready) Bool.false_ne_true
    | notified => rfl
  -- the thread inside the wait has nothing else to do
  obtain ⟨t, c, g, hg, hsleeping⟩ := hi.sleeper hin
  obtain ⟨p, ht, hf⟩ := Outline.some_thread hm hg
  cases p with
  | ret returned => exact absurd (hf.1.symm.trans hsleeping) Bool.false_ne_true
  | act e k =>
    have hwake := Duty.wakes_of_sleeping hsleeping hf.1
    subst hwake
    exact ⟨t, _, .did ht (if_pos ⟨hfree, hmay⟩)⟩

end Runs

end monitors
