-- Threads that run programs over one shared state, in every interleaving of
-- their actions. An outline gives each thread a protocol and ties the states
-- of the protocols to the shared state, for every run of any length.
import Mathlib.Data.List.Induction
import Mathlib.Logic.Function.Basic
import Mathlib.Logic.Relation
import SerialBindings.Programs

namespace programs

/-- A system of calls. `body` is the program of a call. The other fields say what a thread
does to the shared state, and `none` when it cannot do so now. -/
structure Machine (T E : Type) (R : E → Type) (C α S : Type) where
  body : C → Prog E R α
  enter : T → S → C → Option S
  perform : T → S → (e : E) → R e → Option S
  leave : T → S → C → α → Option S

/-- One step of a run: a thread enters a call, does one action of it, or leaves it. -/
inductive Label (T E : Type) (R : E → Type) (C α : Type) : Type
  | enter (t : T) (c : C)
  | did (t : T) (e : E) (r : R e)
  | leave (t : T) (c : C) (a : α)

/-- The state of a system: the shared state, and for each thread inside a call the rest of
its program. -/
structure Sys (T E : Type) (R : E → Type) (C α S : Type) where
  threads : T → Option (C × Prog E R α)
  shared : S

variable {T E : Type} {R : E → Type} {C α S G : Type} [DecidableEq T]

/-- The state with no thread inside a call. -/
def Sys.start (s : S) : Sys T E R C α S := ⟨fun _ => none, s⟩

inductive Step (M : Machine T E R C α S) :
    Sys T E R C α S → Label T E R C α → Sys T E R C α S → Prop
  | enter {s : Sys T E R C α S} {t : T} {c : C} {s' : S} :
      s.threads t = none → M.enter t s.shared c = some s' →
      Step M s (.enter t c) ⟨Function.update s.threads t (some (c, M.body c)), s'⟩
  | did {s : Sys T E R C α S} {t : T} {c : C} {e : E} {k : R e → Prog E R α} {r : R e} {s' : S} :
      s.threads t = some (c, .act e k) → M.perform t s.shared e r = some s' →
      Step M s (.did t e r) ⟨Function.update s.threads t (some (c, k r)), s'⟩
  | leave {s : Sys T E R C α S} {t : T} {c : C} {a : α} {s' : S} :
      s.threads t = some (c, .ret a) → M.leave t s.shared c a = some s' →
      Step M s (.leave t c a) ⟨Function.update s.threads t none, s'⟩

/-- The runs from `s₀` whose steps all meet `ok`. It reads the steps before, the shared state
before the step, and the step. -/
inductive Runs (M : Machine T E R C α S) (ok : List (Label T E R C α) → S → Label T E R C α → Prop)
    (s₀ : S) : List (Label T E R C α) → Sys T E R C α S → Prop
  | nil : Runs M ok s₀ [] (Sys.start s₀)
  | snoc {ls : List (Label T E R C α)} {l : Label T E R C α} {s s' : Sys T E R C α S} :
      Runs M ok s₀ ls s → ok ls s.shared l → Step M s l s' → Runs M ok s₀ (ls ++ [l]) s'

/-- Every run: no step has to meet anything. -/
def always : List (Label T E R C α) → S → Label T E R C α → Prop := fun _ _ _ => True

variable {M : Machine T E R C α S} {ok : List (Label T E R C α) → S → Label T E R C α → Prop}
  {s₀ : S}

/-! ## The parts of a run -/

/-- A place in the steps after one more step is that step, or a place in the steps before. -/
theorem snoc_split {β : Type} {ls l1 l2 : List β} {l x : β} (h : ls ++ [l] = l1 ++ x :: l2) :
    (l2 = [] ∧ ls = l1 ∧ l = x) ∨ ∃ l3, l2 = l3 ++ [l] ∧ ls = l1 ++ x :: l3 := by
  rcases List.eq_nil_or_concat l2 with rfl | ⟨l3, y, rfl⟩
  · obtain ⟨h1, h2⟩ := List.append_inj' h rfl
    cases h2
    exact Or.inl ⟨rfl, h1, rfl⟩
  · rw [List.concat_eq_append, ← List.cons_append, ← List.append_assoc] at h
    obtain ⟨h1, h2⟩ := List.append_inj' h rfl
    cases h2
    exact Or.inr ⟨l3, List.concat_eq_append, h1⟩

/-- A run splits at each of its steps. -/
theorem Runs.split {ls l1 l2 : List (Label T E R C α)} {l : Label T E R C α} {s : Sys T E R C α S}
    (h : Runs M ok s₀ ls s) (hl : ls = l1 ++ l :: l2) :
    ∃ s1 s2, Runs M ok s₀ l1 s1 ∧ ok l1 s1.shared l ∧ Step M s1 l s2 := by
  induction h generalizing l2 with
  | nil => simp at hl
  | @snoc ls l' s s' hr hok hs ih =>
    rcases snoc_split hl with ⟨-, rfl, rfl⟩ | ⟨l3, -, rfl⟩
    · exact ⟨s, s', hr, hok, hs⟩
    · exact ih rfl

/-- A label tells what its step does. -/
theorem Step.unique {s s' s'' : Sys T E R C α S} {l : Label T E R C α} (h : Step M s l s')
    (h' : Step M s l s'') : s' = s'' := by
  cases h with
  | enter _ he =>
    cases h' with
    | enter _ he' =>
      rw [he] at he'
      cases he'
      rfl
  | did ht hp =>
    cases h' with
    | did ht' hp' =>
      rw [ht] at ht'
      cases ht'
      rw [hp] at hp'
      cases hp'
      rfl
  | leave ht hl =>
    cases h' with
    | leave ht' hl' =>
      rw [hl] at hl'
      cases hl'
      rfl

/-- The last step of a run. -/
theorem Runs.last {ls : List (Label T E R C α)} {l : Label T E R C α} {s' : Sys T E R C α S}
    (h : Runs M ok s₀ (ls ++ [l]) s') : ∃ s, Runs M ok s₀ ls s ∧ Step M s l s' := by
  generalize heq : ls ++ [l] = steps at h
  cases h with
  | nil => simp at heq
  | snoc hr _ hs =>
    obtain ⟨rfl, hl⟩ := List.append_inj' heq rfl
    cases hl
    exact ⟨_, hr, hs⟩

/-- The steps of a run tell where it ends. -/
theorem Runs.unique {ls : List (Label T E R C α)} {s s' : Sys T E R C α S}
    (h : Runs M ok s₀ ls s) (h' : Runs M ok s₀ ls s') : s = s' := by
  induction h generalizing s' with
  | nil =>
    generalize heq : ([] : List (Label T E R C α)) = steps at h'
    cases h' with
    | nil => rfl
    | snoc => simp at heq
  | snoc _ _ hs ih =>
    obtain ⟨s1, hr, hs'⟩ := h'.last
    cases ih hr
    exact hs.unique hs'

/-- The steps contain no start and no return of the thread. -/
def Stays (t : T) (ls : List (Label T E R C α)) : Prop :=
  ∀ l ∈ ls, (∀ c, l ≠ .enter t c) ∧ ∀ c a, l ≠ .leave t c a

omit [DecidableEq T] in
theorem Stays.init {t : T} {ls : List (Label T E R C α)} {l : Label T E R C α}
    (h : Stays t (ls ++ [l])) : Stays t ls :=
  fun l' hmem => h l' (List.mem_append_left _ hmem)

omit [DecidableEq T] in
theorem Stays.last {t : T} {ls : List (Label T E R C α)} {l : Label T E R C α}
    (h : Stays t (ls ++ [l])) : (∀ c, l ≠ .enter t c) ∧ ∀ c a, l ≠ .leave t c a :=
  h l (List.mem_append_right _ List.mem_cons_self)

/-- After its start, a thread is inside its call while it stays there. -/
theorem Runs.inside {t : T} {c : C} {l1 l2 : List (Label T E R C α)} {s : Sys T E R C α S}
    (h : Runs M ok s₀ (l1 ++ .enter t c :: l2) s) (hstays : Stays t l2) :
    ∃ p, s.threads t = some (c, p) := by
  induction l2 using List.reverseRecOn generalizing s with
  | nil =>
    obtain ⟨s1, _, hs⟩ := h.last
    cases hs with
    | enter => exact ⟨_, Function.update_self _ _ _⟩
  | append_singleton l2 l ih =>
    rw [← List.cons_append, ← List.append_assoc] at h
    obtain ⟨s1, hr, hs⟩ := h.last
    obtain ⟨p, hp⟩ := ih hr hstays.init
    cases hs with
    | @enter u c' s' hu =>
      have hne : t ≠ u := by
        rintro rfl
        exact hstays.last.1 c' rfl
      exact ⟨p, (Function.update_of_ne hne _ _).trans hp⟩
    | @did u c' e k r s' hu =>
      by_cases hut : t = u
      · rw [← hut, hp] at hu
        cases hu
        exact ⟨k r, hut ▸ Function.update_self _ _ _⟩
      · exact ⟨p, (Function.update_of_ne hut _ _).trans hp⟩
    | @leave u c' a s' hu =>
      have hne : t ≠ u := by
        rintro rfl
        exact hstays.last.2 c' a rfl
      exact ⟨p, (Function.update_of_ne hne _ _).trans hp⟩

/-- Weaker demands on the steps allow more runs. -/
theorem Runs.mono {ok' : List (Label T E R C α) → S → Label T E R C α → Prop}
    {ls : List (Label T E R C α)} {s : Sys T E R C α S} (h : Runs M ok s₀ ls s)
    (hok : ∀ ls s l, ok ls s l → ok' ls s l) : Runs M ok' s₀ ls s := by
  induction h with
  | nil => exact .nil
  | snoc _ ho hs ih => exact .snoc ih (hok _ _ _ ho) hs

/-- The call that each thread is inside after the steps. -/
def running : List (Label T E R C α) → T → Option C :=
  List.foldl (fun f l => match l with
    | .enter t c => Function.update f t (some c)
    | .did _ _ _ => f
    | .leave t _ _ => Function.update f t none) (fun _ => none)

theorem running_snoc (ls : List (Label T E R C α)) (l : Label T E R C α) :
    running (ls ++ [l]) = match l with
      | .enter t c => Function.update (running ls) t (some c)
      | .did _ _ _ => running ls
      | .leave t _ _ => Function.update (running ls) t none := by
  unfold running
  rw [List.foldl_append]
  rfl

@[simp] theorem running_enter (ls : List (Label T E R C α)) (t : T) (c : C) :
    running (ls ++ [.enter t c]) = Function.update (running ls) t (some c) := running_snoc _ _

@[simp] theorem running_did (ls : List (Label T E R C α)) (t : T) (e : E) (r : R e) :
    running (ls ++ [.did t e r]) = running ls := running_snoc _ _

@[simp] theorem running_leave (ls : List (Label T E R C α)) (t : T) (c : C) (a : α) :
    running (ls ++ [.leave t c a]) = Function.update (running ls) t none := running_snoc _ _

/-- A thread is inside the call that it started and has not left since. -/
theorem running_stays {ls : List (Label T E R C α)} {t : T} {c : C} {l2 : List (Label T E R C α)}
    (hstays : Stays t l2) : running (ls ++ .enter t c :: l2) t = some c := by
  induction l2 using List.reverseRecOn with
  | nil => rw [running_enter, Function.update_self]
  | append_singleton l2 l ih =>
    rw [← List.cons_append, ← List.append_assoc]
    cases l with
    | enter u c' =>
      have hu : t ≠ u := by
        rintro rfl
        exact hstays.last.1 c' rfl
      rw [running_enter, Function.update_of_ne hu]
      exact ih hstays.init
    | did u e r =>
      rw [running_did]
      exact ih hstays.init
    | leave u c' a =>
      have hu : t ≠ u := by
        rintro rfl
        exact hstays.last.2 c' a rfl
      rw [running_leave, Function.update_of_ne hu]
      exact ih hstays.init

/-- A thread inside a call has started it and has not left it since. -/
theorem stays_of_running {ls : List (Label T E R C α)} {t : T} {c : C}
    (h : running ls t = some c) : ∃ l1 l2, ls = l1 ++ .enter t c :: l2 ∧ Stays t l2 := by
  have hsnoc : ∀ (ls : List (Label T E R C α)) (l : Label T E R C α),
      (∃ l1 l2, ls = l1 ++ .enter t c :: l2 ∧ Stays t l2) →
      ((∀ c, l ≠ .enter t c) ∧ ∀ c a, l ≠ .leave t c a) →
      ∃ l1 l2, ls ++ [l] = l1 ++ .enter t c :: l2 ∧ Stays t l2 := by
    rintro _ l ⟨l1, l2, rfl, hstays⟩ hl
    refine ⟨l1, l2 ++ [l], by simp, fun l' hm => ?_⟩
    rw [List.mem_append, List.mem_singleton] at hm
    rcases hm with hm | rfl
    · exact hstays l' hm
    · exact hl
  induction ls using List.reverseRecOn with
  | nil => cases h
  | append_singleton ls l ih =>
    cases l with
    | enter u c' =>
      by_cases hu : t = u
      · rw [hu, running_enter, Function.update_self] at h
        cases h
        exact ⟨ls, [], by rw [hu], by simp [Stays]⟩
      · rw [running_enter, Function.update_of_ne hu] at h
        exact hsnoc ls _ (ih h) ⟨by simp [Ne.symm hu], by simp⟩
    | did u e r => exact hsnoc ls _ (ih (running_did ls u e r ▸ h)) ⟨by simp, by simp⟩
    | leave u c' a =>
      by_cases hu : t = u
      · rw [hu, running_leave, Function.update_self] at h
        cases h
      · rw [running_leave, Function.update_of_ne hu] at h
        exact hsnoc ls _ (ih h) ⟨by simp, by simp [Ne.symm hu]⟩

/-- The threads that started a call in the steps. -/
def callers : List (Label T E R C α) → List T :=
  List.filterMap fun
    | .enter t _ => some t
    | _ => none

theorem mem_callers {ls : List (Label T E R C α)} {t : T} {c : C} (h : running ls t = some c) :
    t ∈ callers ls := by
  induction ls using List.reverseRecOn with
  | nil => cases h
  | append_singleton ls l ih =>
    unfold callers at ih ⊢
    rw [List.filterMap_append, List.mem_append]
    cases l with
    | enter u c' =>
      by_cases hu : t = u
      · rw [hu]
        exact Or.inr List.mem_cons_self
      · rw [running_enter, Function.update_of_ne hu] at h
        exact Or.inl (ih h)
    | did u e r => exact Or.inl (ih (running_did ls u e r ▸ h))
    | leave u c' a =>
      by_cases hu : t = u
      · rw [hu, running_leave, Function.update_self] at h
        cases h
      · rw [running_leave, Function.update_of_ne hu] at h
        exact Or.inl (ih h)

/-- What is asked of all running calls is asked of the callers. -/
theorem forall_running {ls : List (Label T E R C α)} {p : C → Prop} :
    (∀ t c, running ls t = some c → p c) ↔ ∀ t ∈ callers ls, ∀ c ∈ running ls t, p c := by
  constructor
  · exact fun h t _ c hc => h t c hc
  · exact fun h t c hc => h t (mem_callers hc) c hc

/-- The first return of the thread in the steps, with its call. -/
def firstLeave (t : T) : List (Label T E R C α) → Option (C × α)
  | [] => none
  | .leave t' c a :: ls => if t' = t then some (c, a) else firstLeave t ls
  | _ :: ls => firstLeave t ls

theorem firstLeave_append (t : T) (l1 l2 : List (Label T E R C α)) :
    firstLeave t (l1 ++ l2) = (firstLeave t l1).or (firstLeave t l2) := by
  induction l1 with
  | nil => rfl
  | cons l ls ih =>
    cases l with
    | enter t' c => exact ih
    | did t' e r => exact ih
    | leave t' c a =>
      simp only [List.cons_append, firstLeave]
      split
      · rfl
      · exact ih

/-! ## Chains of waits -/

/-- A chain of waits comes to a thread that has `P`, when no chain is endless, and each thread that
is asked has `P` or waits for another one that is asked. -/
theorem waits_end {A : Type} {waits : A → A → Prop} {asked P : A → Prop}
    (hwf : WellFounded fun b a => waits a b)
    (h : ∀ a, asked a → P a ∨ ∃ b, waits a b ∧ asked b) {a : A} (ha : asked a) :
    ∃ b, Relation.ReflTransGen waits a b ∧ P b := by
  induction a using hwf.induction with
  | _ a ih =>
    rcases h a ha with hp | ⟨b, hab, hb⟩
    · exact ⟨a, .refl, hp⟩
    · obtain ⟨d, hbd, hd⟩ := ih b hab hb
      exact ⟨d, .head hab hbd, hd⟩

/-! ## Outlines -/

/-- A proof outline: every call follows the protocol `P` from `start`, and the invariant ties
the history, the protocol states of the threads and the shared state. -/
structure Outline (M : Machine T E R C α S)
    (ok : List (Label T E R C α) → S → Label T E R C α → Prop) (s₀ : S) (P : Protocol E R G) where
  start : C → G
  post : C → G → α → Prop
  inv : List (Label T E R C α) → (T → Option (C × G)) → S → Prop
  follows : ∀ c, Follows P (post c) (M.body c) (start c)
  init : inv [] (fun _ => none) s₀
  enter : ∀ {ls gs s t c s'}, inv ls gs s → gs t = none → M.enter t s c = some s' →
    ok ls s (.enter t c) →
    inv (ls ++ [.enter t c]) (Function.update gs t (some (c, start c))) s'
  did : ∀ {ls gs s t c g e} {r : R e} {s'}, inv ls gs s → gs t = some (c, g) → P.allows g e →
    M.perform t s e r = some s' → ok ls s (.did t e r) →
    ∃ g', P.next g e r = some g' ∧
      inv (ls ++ [.did t e r]) (Function.update gs t (some (c, g'))) s'
  leave : ∀ {ls gs s t c g a s'}, inv ls gs s → gs t = some (c, g) → post c g a →
    M.leave t s c a = some s' → ok ls s (.leave t c a) →
    inv (ls ++ [.leave t c a]) (Function.update gs t none) s'

/-- The rest of each thread's program follows the protocol from the thread's state. -/
def Outline.Matches {P : Protocol E R G} (O : Outline M ok s₀ P)
    (threads : T → Option (C × Prog E R α)) (gs : T → Option (C × G)) : Prop :=
  ∀ t, match threads t, gs t with
    | none, none => True
    | some (c, p), some (c', g) => c' = c ∧ Follows P (O.post c) p g
    | _, _ => False

theorem Outline.matches_update {P : Protocol E R G} {O : Outline M ok s₀ P}
    {threads : T → Option (C × Prog E R α)} {gs : T → Option (C × G)} {t : T}
    {x : Option (C × Prog E R α)} {y : Option (C × G)} (h : O.Matches threads gs)
    (hxy : match x, y with
      | none, none => True
      | some (c, p), some (c', g) => c' = c ∧ Follows P (O.post c) p g
      | _, _ => False) :
    O.Matches (Function.update threads t x) (Function.update gs t y) := by
  intro u
  by_cases hu : u = t
  · subst hu
    simpa only [Function.update_self] using hxy
  · simp only [Function.update_of_ne hu]
    exact h u

theorem Outline.none_of_none {P : Protocol E R G} {O : Outline M ok s₀ P}
    {threads : T → Option (C × Prog E R α)} {gs : T → Option (C × G)} {t : T}
    (h : O.Matches threads gs) (ht : threads t = none) : gs t = none := by
  have hm := h t
  rw [ht] at hm
  cases hg : gs t with
  | none => rfl
  | some x => rw [hg] at hm; exact hm.elim

theorem Outline.some_of_some {P : Protocol E R G} {O : Outline M ok s₀ P}
    {threads : T → Option (C × Prog E R α)} {gs : T → Option (C × G)} {t : T} {c : C}
    {p : Prog E R α} (h : O.Matches threads gs) (ht : threads t = some (c, p)) :
    ∃ g, gs t = some (c, g) ∧ Follows P (O.post c) p g := by
  have hm := h t
  rw [ht] at hm
  rcases hg : gs t with _ | ⟨c', g⟩
  · rw [hg] at hm; exact hm.elim
  · rw [hg] at hm
    obtain ⟨rfl, hf⟩ := hm
    exact ⟨g, rfl, hf⟩

theorem Outline.some_thread {P : Protocol E R G} {O : Outline M ok s₀ P}
    {threads : T → Option (C × Prog E R α)} {gs : T → Option (C × G)} {t : T} {c : C} {g : G}
    (h : O.Matches threads gs) (hg : gs t = some (c, g)) :
    ∃ p, threads t = some (c, p) ∧ Follows P (O.post c) p g := by
  have hm := h t
  rw [hg] at hm
  rcases ht : threads t with _ | ⟨c', p⟩
  · rw [ht] at hm; exact hm.elim
  · rw [ht] at hm
    obtain ⟨rfl, hf⟩ := hm
    exact ⟨p, rfl, hf⟩

/-! ## The change of one thread -/

section Change

variable {gs : T → Option (C × G)} {t u : T} {c c' : C} {g g' : G} {P : T → C → G → Prop}

/-- What holds of the other threads and of the changed one holds of all threads. -/
theorem forall_update {x : Option (C × G)}
    (hother : ∀ u c' g', u ≠ t → gs u = some (c', g') → P u c' g')
    (hself : ∀ c' g', x = some (c', g') → P t c' g') (u : T) (c' : C) (g' : G)
    (hu : Function.update gs t x u = some (c', g')) : P u c' g' := by
  by_cases hut : u = t
  · rw [hut, Function.update_self] at hu
    rw [hut]
    exact hself c' g' hu
  · rw [Function.update_of_ne hut] at hu
    exact hother u c' g' hut hu

/-- The same, when the changed thread is inside a call. -/
theorem forall_inside (hother : ∀ u c' g', u ≠ t → gs u = some (c', g') → P u c' g')
    (hself : P t c g) (u : T) (c' : C) (g' : G)
    (hu : Function.update gs t (some (c, g)) u = some (c', g')) : P u c' g' := by
  refine forall_update hother (fun c' g' hx => ?_) u c' g' hu
  cases hx
  exact hself

/-- A thread that is inside a call after another one returned is another thread. -/
theorem stays_inside {x : C × G} (hu : Function.update gs t none u = some x) :
    u ≠ t ∧ gs u = some x := by
  have hut : u ≠ t := by
    rintro rfl
    rw [Function.update_self] at hu
    cases hu
  rw [Function.update_of_ne hut] at hu
  exact ⟨hut, hu⟩

end Change

/-- One step keeps the invariant of an outline. -/
theorem Outline.step {P : Protocol E R G} (O : Outline M ok s₀ P) {ls : List (Label T E R C α)}
    {s s' : Sys T E R C α S} {l : Label T E R C α} {gs : T → Option (C × G)}
    (hi : O.inv ls gs s.shared) (hm : O.Matches s.threads gs) (hok : ok ls s.shared l)
    (h : Step M s l s') :
    ∃ gs', O.inv (ls ++ [l]) gs' s'.shared ∧ O.Matches s'.threads gs' := by
  cases h with
  | enter ht he =>
    exact ⟨_, O.enter hi (none_of_none hm ht) he hok, matches_update hm ⟨rfl, O.follows _⟩⟩
  | did ht hp =>
    obtain ⟨g, hg, ha, hf⟩ := some_of_some hm ht
    obtain ⟨g', hn, hi'⟩ := O.did hi hg ha hp hok
    exact ⟨_, hi', matches_update hm ⟨rfl, hf _ _ hn⟩⟩
  | leave ht hl =>
    obtain ⟨g, hg, hf⟩ := some_of_some hm ht
    exact ⟨_, O.leave hi hg hf hl hok, matches_update hm trivial⟩

/-- The invariant of an outline holds after every run. -/
theorem Outline.runs {P : Protocol E R G} (O : Outline M ok s₀ P) {ls : List (Label T E R C α)}
    {s : Sys T E R C α S} (h : Runs M ok s₀ ls s) :
    ∃ gs, O.inv ls gs s.shared ∧ O.Matches s.threads gs := by
  induction h with
  | nil => exact ⟨fun _ => none, O.init, fun _ => trivial⟩
  | snoc _ hok hs ih =>
    obtain ⟨gs, hi, hm⟩ := ih
    exact O.step hi hm hok hs

/-! ## Runs that can be computed -/

/-- What a scheduler picks: a thread, and for an action the answer. -/
inductive Move (T E : Type) (R : E → Type) (C S : Type) : Type
  | enter (t : T) (c : C)
  | act (t : T) (answer : T → S → (e : E) → R e)
  | leave (t : T)

def Sys.move (M : Machine T E R C α S) (s : Sys T E R C α S) :
    Move T E R C S → Option (Label T E R C α × Sys T E R C α S)
  | .enter t c =>
    match s.threads t with
    | none => (M.enter t s.shared c).map fun s' =>
        (.enter t c, ⟨Function.update s.threads t (some (c, M.body c)), s'⟩)
    | some _ => none
  | .act t answer =>
    match s.threads t with
    | some (c, .act e k) => (M.perform t s.shared e (answer t s.shared e)).map fun s' =>
        (.did t e (answer t s.shared e),
          ⟨Function.update s.threads t (some (c, k (answer t s.shared e))), s'⟩)
    | _ => none
  | .leave t =>
    match s.threads t with
    | some (c, .ret a) => (M.leave t s.shared c a).map fun s' =>
        (.leave t c a, ⟨Function.update s.threads t none, s'⟩)
    | _ => none

theorem Sys.move_step {s s' : Sys T E R C α S} {m : Move T E R C S} {l : Label T E R C α}
    (h : s.move M m = some (l, s')) : Step M s l s' := by
  cases m with
  | enter t c =>
    simp only [Sys.move] at h
    split at h
    · rename_i ht
      simp only [Option.map_eq_some_iff, Prod.mk.injEq] at h
      obtain ⟨s1, he, rfl, rfl⟩ := h
      exact .enter ht he
    · cases h
  | act t answer =>
    simp only [Sys.move] at h
    split at h
    · rename_i ht
      simp only [Option.map_eq_some_iff, Prod.mk.injEq] at h
      obtain ⟨s1, hp, rfl, rfl⟩ := h
      exact .did ht hp
    · cases h
  | leave t =>
    simp only [Sys.move] at h
    split at h
    · rename_i ht
      simp only [Option.map_eq_some_iff, Prod.mk.injEq] at h
      obtain ⟨s1, hp, rfl, rfl⟩ := h
      exact .leave ht hp
    · cases h

/-- The run that the moves give after the steps `ls`, when each move is possible and `ok`. -/
def Sys.moves (M : Machine T E R C α S)
    (ok : List (Label T E R C α) → S → Label T E R C α → Prop) [∀ ls s l, Decidable (ok ls s l)]
    (ls : List (Label T E R C α)) (s : Sys T E R C α S) :
    List (Move T E R C S) → Option (List (Label T E R C α) × Sys T E R C α S)
  | [] => some (ls, s)
  | m :: ms =>
    match s.move M m with
    | some (l, s') => if ok ls s.shared l then s'.moves M ok (ls ++ [l]) ms else none
    | none => none

theorem Sys.moves_runs [∀ ls s l, Decidable (ok ls s l)] {ls ls' : List (Label T E R C α)}
    {s s' : Sys T E R C α S} {ms : List (Move T E R C S)} (hr : Runs M ok s₀ ls s)
    (h : s.moves M ok ls ms = some (ls', s')) : Runs M ok s₀ ls' s' := by
  induction ms generalizing ls s with
  | nil =>
    simp only [Sys.moves, Option.some.injEq, Prod.mk.injEq] at h
    obtain ⟨rfl, rfl⟩ := h
    exact hr
  | cons m ms ih =>
    simp only [Sys.moves] at h
    split at h
    · rename_i l s1 hm
      split at h
      · rename_i hok
        exact ih (.snoc hr hok (Sys.move_step hm)) h
      · cases h
    · cases h

/-- Moves that are possible give a run, with what the moves tell about it. -/
theorem Sys.moves_exists (M : Machine T E R C α S)
    (ok : List (Label T E R C α) → S → Label T E R C α → Prop) [∀ ls s l, Decidable (ok ls s l)]
    (s₀ : S) (ms : List (Move T E R C S)) {β : Type}
    (f : List (Label T E R C α) → Sys T E R C α S → β) {x : β}
    (h : ((Sys.start s₀).moves M ok [] ms).map (fun p => f p.1 p.2) = some x) :
    ∃ ls s, Runs M ok s₀ ls s ∧ f ls s = x := by
  obtain ⟨⟨ls, s⟩, hm, hx⟩ := Option.map_eq_some_iff.mp h
  exact ⟨ls, s, Sys.moves_runs .nil hm, hx⟩

instance (ls : List (Label T E R C α)) (s : S) (l : Label T E R C α) :
    Decidable (always ls s l) := isTrue trivial

end programs
