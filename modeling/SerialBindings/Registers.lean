-- Atomic variables beside a machine. Its calls load them, and further calls store
-- values in them at any time. The runs are runs of the machine, and what a call has
-- loaded was in the variable at a moment of that call.
import SerialBindings.Threads

open programs

namespace registers

/-- An action of the machine, or the store of a value in a register. -/
inductive RegisterAction (E K V : Type) : Type
  | inner (e : E)
  | store (k : K) (v : V)

/-- A call of the machine, or the call that sets a register. -/
inductive RegisterCall (C K V : Type) : Type
  | call (c : C)
  | set (k : K) (v : V)

variable {T E : Type} {R : E → Type} {C α S K V : Type}

@[reducible] def RegisterAction.Answer (R : E → Type) : RegisterAction E K V → Type
  | .inner e => R e
  | .store _ _ => Unit

/-- One step of a machine with registers. -/
abbrev RegisterLabel (T E : Type) (R : E → Type) (C α K V : Type) : Type :=
  Label T (RegisterAction E K V) (RegisterAction.Answer R) (RegisterCall C K V) (Option α)

/-- A program of a machine with registers. -/
abbrev RegisterProg (E : Type) (R : E → Type) (α K V : Type) : Type :=
  Prog (RegisterAction E K V) (RegisterAction.Answer R) (Option α)

/-- A state of a machine with registers. -/
abbrev RegisterSys (T E : Type) (R : E → Type) (C α S K V : Type) : Type :=
  Sys T (RegisterAction E K V) (RegisterAction.Answer R) (RegisterCall C K V) (Option α)
    (S × (K → V))

/-- The body of a call of the machine, in the machine with registers. -/
def within (p : Prog E R α) : RegisterProg E R α K V :=
  (Prog.lift .inner p).bind fun a => .ret (some a)

/-- The body of a call that sets a register. -/
def setting (k : K) (v : V) : RegisterProg E R α K V := .act (.store k v) fun _ => .ret none

/-- The machine with registers. `reads` tells which register an answer comes from, and with which
value. -/
def withRegisters [DecidableEq K] [DecidableEq V] (M : Machine T E R C α S)
    (reads : (e : E) → R e → Option (K × V)) :
    Machine T (RegisterAction E K V) (RegisterAction.Answer R) (RegisterCall C K V) (Option α)
      (S × (K → V)) where
  body
    | .call c => within (M.body c)
    | .set k v => setting k v
  enter t w
    | .call c => (M.enter t w.1 c).map (·, w.2)
    | .set _ _ => some w
  perform t w
    | .inner e, r =>
      if ∀ x ∈ reads e r, w.2 x.1 = x.2 then (M.perform t w.1 e r).map (·, w.2) else none
    | .store k v, _ => some (w.1, Function.update w.2 k v)
  leave t w
    | .call c, some a => (M.leave t w.1 c a).map (·, w.2)
    | _, _ => some w

/-! ## The machine without the registers -/

/-- The step of the machine in a step of the machine with registers. -/
def baseStep : RegisterLabel T E R C α K V → Option (Label T E R C α)
  | .enter t (.call c) => some (.enter t c)
  | .did t (.inner e) r => some (.did t e r)
  | .leave t (.call c) (some a) => some (.leave t c a)
  | _ => none

def base (ls : List (RegisterLabel T E R C α K V)) : List (Label T E R C α) :=
  ls.filterMap baseStep

theorem base_snoc (ls : List (RegisterLabel T E R C α K V)) (l : RegisterLabel T E R C α K V) :
    base (ls ++ [l]) = base ls ++ (baseStep l).toList := by
  unfold base
  rw [List.filterMap_append]
  cases h : baseStep l <;> simp [h]

/-- What a thread does in the machine with registers, and what it does in the machine. -/
def Embeds : Option (RegisterCall C K V × RegisterProg E R α K V) → Option (C × Prog E R α) → Prop
  | some (.call c, p), some (c', q) => c' = c ∧ p = within q
  | some (.set k v, p), none => p = setting k v ∨ p = .ret none
  | none, none => True
  | _, _ => False

theorem embeds_within (c : C) (q : Prog E R α) :
    Embeds (some ((.call c, within q) : RegisterCall C K V × RegisterProg E R α K V))
      (some (c, q)) := ⟨rfl, rfl⟩

theorem embeds_none {y : Option (C × Prog E R α)}
    (h : Embeds (none : Option (RegisterCall C K V × RegisterProg E R α K V)) y) : y = none := by
  cases y with
  | none => rfl
  | some x => exact h.elim

theorem embeds_call {c : C} {p : RegisterProg E R α K V} {y : Option (C × Prog E R α)}
    (h : Embeds (some (.call c, p)) y) : ∃ q, y = some (c, q) ∧ p = within q := by
  cases y with
  | none => exact h.elim
  | some x =>
    obtain ⟨rfl, hp⟩ := h
    exact ⟨x.2, rfl, hp⟩

theorem embeds_set {k : K} {v : V} {p : RegisterProg E R α K V} {y : Option (C × Prog E R α)}
    (h : Embeds (some (.set k v, p)) y) : y = none ∧ (p = setting k v ∨ p = .ret none) := by
  cases y with
  | none => exact ⟨rfl, h⟩
  | some x => exact h.elim

variable [DecidableEq T]

theorem Embeds.update {threads : T → Option (RegisterCall C K V × RegisterProg E R α K V)}
    {threads' : T → Option (C × Prog E R α)} (h : ∀ t, Embeds (threads t) (threads' t)) {t : T}
    {x : Option (RegisterCall C K V × RegisterProg E R α K V)} {y : Option (C × Prog E R α)}
    (hxy : Embeds x y) (u : T) :
    Embeds (Function.update threads t x u) (Function.update threads' t y u) := by
  by_cases hu : u = t
  · rw [hu, Function.update_self, Function.update_self]
    exact hxy
  · rw [Function.update_of_ne hu, Function.update_of_ne hu]
    exact h u

/-- The thread sets a register, so it is outside the machine before the step and after it. -/
theorem Embeds.outside {threads : T → Option (RegisterCall C K V × RegisterProg E R α K V)}
    {threads' : T → Option (C × Prog E R α)} (h : ∀ t, Embeds (threads t) (threads' t)) {t : T}
    {x : Option (RegisterCall C K V × RegisterProg E R α K V)} (ht : threads' t = none)
    (hx : Embeds x none) (u : T) : Embeds (Function.update threads t x u) (threads' u) := by
  have hu := Embeds.update h (t := t) hx u
  rwa [← ht, Function.update_eq_self] at hu

section Runs

variable [DecidableEq K] [DecidableEq V] {M : Machine T E R C α S}
  {reads : (e : E) → R e → Option (K × V)}
  {ok : List (RegisterLabel T E R C α K V) → S × (K → V) → RegisterLabel T E R C α K V → Prop}
  {ok' : List (Label T E R C α) → S → Label T E R C α → Prop}
  {s₀ : S} {f₀ : K → V} {ls : List (RegisterLabel T E R C α K V)}
  {l : RegisterLabel T E R C α K V} {s s' : RegisterSys T E R C α S K V}

/-- A step is a step of the machine, or the machine stays as it is. -/
theorem base_step {b : Sys T E R C α S} (hstep : Step (withRegisters M reads) s l s')
    (hshared : b.shared = s.shared.1) (hthreads : ∀ t, Embeds (s.threads t) (b.threads t)) :
    ∃ b', b'.shared = s'.shared.1 ∧ (∀ t, Embeds (s'.threads t) (b'.threads t)) ∧
      match baseStep l with
      | some l' => Step M b l' b'
      | none => b' = b := by
  cases hstep with
  | @enter t c w ht he =>
    have hidle : b.threads t = none := by
      apply embeds_none
      rw [← ht]
      exact hthreads t
    cases c with
    | call c =>
      obtain ⟨w', he', rfl⟩ := Option.map_eq_some_iff.mp he
      rw [← hshared] at he'
      exact ⟨_, rfl, Embeds.update hthreads (embeds_within _ _), .enter hidle he'⟩
    | set k v =>
      cases he
      exact ⟨b, hshared, Embeds.outside hthreads hidle (Or.inl rfl), rfl⟩
  | @did t c e k r w ht hp =>
    have hembeds := hthreads t
    rw [ht] at hembeds
    cases c with
    | call c =>
      obtain ⟨q, hq, hact⟩ := embeds_call hembeds
      cases q with
      | ret a => cases hact
      | act e' k' =>
        cases hact
        simp only [withRegisters] at hp
        split at hp
        · obtain ⟨w', hp', rfl⟩ := Option.map_eq_some_iff.mp hp
          rw [← hshared] at hp'
          exact ⟨_, rfl, Embeds.update hthreads (embeds_within _ _), .did hq hp'⟩
        · cases hp
    | set k v =>
      obtain ⟨hidle, hact | hret⟩ := embeds_set hembeds
      · cases hact
        cases hp
        exact ⟨b, hshared, Embeds.outside hthreads hidle (Or.inr rfl), rfl⟩
      · cases hret
  | @leave t c a w ht hl =>
    have hembeds := hthreads t
    rw [ht] at hembeds
    cases c with
    | call c =>
      obtain ⟨q, hq, hret⟩ := embeds_call hembeds
      cases q with
      | ret a' =>
        cases hret
        obtain ⟨w', hl', rfl⟩ := Option.map_eq_some_iff.mp hl
        rw [← hshared] at hl'
        exact ⟨_, rfl, Embeds.update hthreads (x := none) (y := none) trivial, .leave hq hl'⟩
      | act e k => cases hret
    | set k v =>
      cases hl
      obtain ⟨hidle, -⟩ := embeds_set hembeds
      exact ⟨b, hshared, Embeds.outside hthreads hidle trivial, rfl⟩

/-- A run with registers is a run of the machine, and the registers come on top of it. -/
theorem base_runs (hok : ∀ ls w l l', ok ls w l → baseStep l = some l' → ok' (base ls) w.1 l')
    (h : Runs (withRegisters M reads) ok (s₀, f₀) ls s) :
    ∃ b, Runs M ok' s₀ (base ls) b ∧ b.shared = s.shared.1 ∧
      ∀ t, Embeds (s.threads t) (b.threads t) := by
  induction h with
  | nil => exact ⟨.start s₀, .nil, rfl, fun _ => trivial⟩
  | @snoc ls l s s' _ hl hstep ih =>
    obtain ⟨b, hr, hshared, hthreads⟩ := ih
    obtain ⟨b', hshared', hthreads', hb⟩ := base_step hstep hshared hthreads
    refine ⟨b', ?_, hshared', hthreads'⟩
    rw [base_snoc]
    cases hbase : baseStep l with
    | none =>
      rw [hbase] at hb
      rw [hb, Option.toList_none, List.append_nil]
      exact hr
    | some l' =>
      rw [hbase] at hb
      refine .snoc hr ?_ hb
      rw [hshared]
      exact hok ls s.shared l l' hl hbase

end Runs

/-! ## The contents of the registers -/

section Contents

variable [DecidableEq K]

/-- What is in the registers after the steps, when `f₀` was in them before. -/
def contents (f₀ : K → V) : List (RegisterLabel T E R C α K V) → K → V :=
  List.foldl (fun f l => match l with
    | .did _ (.store k v) _ => Function.update f k v
    | _ => f) f₀

omit [DecidableEq T] in
theorem contents_append (f₀ : K → V) (l1 l2 : List (RegisterLabel T E R C α K V)) :
    contents f₀ (l1 ++ l2) = contents (contents f₀ l1) l2 := by
  unfold contents
  rw [List.foldl_append]

omit [DecidableEq T] in
/-- A value comes into a register only when it is stored there. -/
theorem contents_ne {f₀ : K → V} {k : K} {v : V} {ls : List (RegisterLabel T E R C α K V)}
    (h : f₀ k ≠ v) (hnever : ∀ t, .did t (.store k v) () ∉ ls) : contents f₀ ls k ≠ v := by
  induction ls generalizing f₀ with
  | nil => exact h
  | cons l ls ih =>
    have hrest : ∀ t, .did t (.store k v) () ∉ ls := fun t hm =>
      hnever t (List.mem_cons_of_mem l hm)
    refine ih ?_ hrest
    cases l with
    | did t e r =>
      cases e with
      | inner e => exact h
      | store k' v' =>
        dsimp only
        by_cases hk : k = k'
        · rw [hk, Function.update_self]
          rintro rfl
          exact hnever t (hk ▸ List.mem_cons_self)
        · rw [Function.update_of_ne hk]
          exact h
    | _ => exact h

/-- The value was in the register at a moment of the call that the thread is inside. -/
def HeldDuring (f₀ : K → V) (ls : List (RegisterLabel T E R C α K V)) (t : T) (k : K) (v : V) :
    Prop :=
  ∃ l1 c l2 l3, ls = l1 ++ .enter t c :: (l2 ++ l3) ∧ Stays t (l2 ++ l3) ∧
    contents f₀ (l1 ++ .enter t c :: l2) k = v

omit [DecidableEq T] in
/-- A value that was in the register at a moment of a call stays so while the call goes on. -/
theorem HeldDuring.snoc {f₀ : K → V} {ls : List (RegisterLabel T E R C α K V)} {t : T} {k : K}
    {v : V} {l : RegisterLabel T E R C α K V} (h : HeldDuring f₀ ls t k v) (hl : Stays t [l]) :
    HeldDuring f₀ (ls ++ [l]) t k v := by
  obtain ⟨l1, c, l2, l3, rfl, hstays, hheld⟩ := h
  refine ⟨l1, c, l2, l3 ++ [l], by simp, fun l' hm => ?_, hheld⟩
  rw [← List.append_assoc, List.mem_append] at hm
  rcases hm with hm | hm
  · exact hstays l' hm
  · exact hl l' hm

/-- What is in the register now is there in the call that the thread is inside. -/
theorem heldDuring_now (f₀ : K → V) {ls : List (RegisterLabel T E R C α K V)} {t : T}
    {c : RegisterCall C K V} (hrun : running ls t = some c) (k : K) :
    HeldDuring f₀ ls t k (contents f₀ ls k) := by
  obtain ⟨l1, l2, rfl, hstays⟩ := stays_of_running hrun
  exact ⟨l1, c, l2, [], by simp, by simpa using hstays, rfl⟩

/-- A value that is not in the register any more, and is not stored again, is only in the hands of
calls that have been running since. -/
theorem HeldDuring.since {f₀ : K → V} {l0 l1 : List (RegisterLabel T E R C α K V)} {t : T}
    {k : K} {v : V} (h : HeldDuring f₀ (l0 ++ l1) t k v) (hnow : contents f₀ l0 k ≠ v)
    (hnever : ∀ u, .did u (.store k v) () ∉ l1) : running l0 t ≠ none ∧ Stays t l1 := by
  obtain ⟨m1, c, m2, m3, heq, hstays, hheld⟩ := h
  -- the call cannot have begun after the value had gone
  have hnew : ∀ m, m1 = l0 ++ m → l1 = m ++ .enter t c :: (m2 ++ m3) → False := by
    rintro m rfl rfl
    refine absurd hheld ?_
    rw [List.append_assoc, contents_append]
    refine contents_ne hnow fun u hu => hnever u ?_
    simp only [List.mem_append, List.mem_cons] at hu ⊢
    rcases hu with hu | hu | hu
    · exact Or.inl hu
    · exact Or.inr (Or.inl hu)
    · exact Or.inr (Or.inr (Or.inl hu))
  rcases List.append_eq_append_iff.mp heq with ⟨m, hm1, hl1⟩ | ⟨m, rfl, hm⟩
  · exact (hnew m hm1 hl1).elim
  · cases m with
    | nil => exact (hnew [] (by simp) hm.symm).elim
    | cons l m =>
      obtain ⟨rfl, hrest⟩ := List.cons.inj hm
      rw [hrest] at hstays
      constructor
      · rw [running_stays fun l' hl' => hstays l' (List.mem_append_left l1 hl')]
        simp
      · exact fun l' hl' => hstays l' (List.mem_append_right m hl')

end Contents

/-! ## What the calls load -/

/-- The protocol of a call that does an action only with what it has loaded: `needs` says which
values the call must have for the action. -/
def sourced (reads : (e : E) → R e → Option (K × V)) (needs : C → E → List (K × V) → Prop) :
    Protocol (RegisterAction E K V) (RegisterAction.Answer R)
      (RegisterCall C K V × List (K × V)) where
  allows g
    | .inner e => match g.1 with
      | .call c => needs c e g.2
      | .set _ _ => False
    | .store _ _ => True
  next g
    | .inner e, r => some (g.1, g.2 ++ (reads e r).toList)
    | .store _ _, _ => some g

/-- The protocol for a body of the machine. -/
abbrev sourcedIn (reads : (e : E) → R e → Option (K × V))
    (needs : C → E → List (K × V) → Prop) : Protocol E R (RegisterCall C K V × List (K × V)) :=
  (sourced reads needs).along .inner

section Loads

variable [DecidableEq K] [DecidableEq V] {M : Machine T E R C α S}
  {reads : (e : E) → R e → Option (K × V)} {needs : C → E → List (K × V) → Prop}
  {ok : List (RegisterLabel T E R C α K V) → S × (K → V) → RegisterLabel T E R C α K V → Prop}
  {s₀ : S} {f₀ : K → V} {ls : List (RegisterLabel T E R C α K V)}
  {gs : T → Option (RegisterCall C K V × (RegisterCall C K V × List (K × V)))} {w : S × (K → V)}

/-- The registers hold what was stored, and what the calls have loaded was there. -/
structure Provided (f₀ : K → V) (ls : List (RegisterLabel T E R C α K V))
    (gs : T → Option (RegisterCall C K V × (RegisterCall C K V × List (K × V)))) (w : S × (K → V)) :
    Prop where
  stored : w.2 = contents f₀ ls
  inside : ∀ t c g, gs t = some (c, g) → running ls t = some c ∧ g.1 = c
  held : ∀ t c g, gs t = some (c, g) → ∀ x ∈ g.2, HeldDuring f₀ ls t x.1 x.2

omit [DecidableEq T] in
theorem sourced_follows (h : ∀ c, Follows (sourcedIn reads needs) (fun _ _ => True) (M.body c)
    (.call c, [])) (c : RegisterCall C K V) :
    Follows (sourced reads needs) (fun _ _ => True) ((withRegisters M reads).body c) (c, []) := by
  cases c with
  | call c =>
    refine follows_seq (follows_lift.mpr (h c)) fun _ _ _ => ?_
    trivial
  | set k v => exact ⟨trivial, fun _ _ _ => trivial⟩

omit [DecidableEq V] in
/-- The step of another thread leaves what a call has loaded. -/
theorem Provided.others (h : Provided f₀ ls gs w) {t : T} {l : RegisterLabel T E R C α K V}
    (hl : ∀ u, u ≠ t → Stays u [l])
    (hrun : ∀ u, u ≠ t → running (ls ++ [l]) u = running ls u) (u : T) (c : RegisterCall C K V)
    (g : RegisterCall C K V × List (K × V)) (hu : u ≠ t) (hg : gs u = some (c, g)) :
    running (ls ++ [l]) u = some c ∧ g.1 = c ∧
      ∀ x ∈ g.2, HeldDuring f₀ (ls ++ [l]) u x.1 x.2 := by
  obtain ⟨hcall, hsame⟩ := h.inside u c g hg
  rw [hrun u hu]
  exact ⟨hcall, hsame, fun x hx => (h.held u c g hg x hx).snoc (hl u hu)⟩

theorem Provided.enter (h : Provided f₀ ls gs w) {t : T} {c : RegisterCall C K V} {w' : S × (K → V)}
    (hw : (withRegisters M reads).enter t w c = some w') :
    Provided f₀ (ls ++ [.enter t c]) (Function.update gs t (some (c, (c, [])))) w' := by
  have hsame : w'.2 = w.2 := by
    cases c with
    | call c =>
      obtain ⟨w1, -, rfl⟩ := Option.map_eq_some_iff.mp hw
      rfl
    | set k v =>
      cases hw
      rfl
  have hrest := h.others (t := t) (l := .enter t c) (fun u hu => by simp [Stays, hu.symm])
    fun u hu => by rw [running_enter, Function.update_of_ne hu]
  constructor
  · rw [hsame, contents_append, ← h.stored]
    rfl
  · refine forall_inside ?_ ?_
    · exact fun u c' g hu hg => ⟨(hrest u c' g hu hg).1, (hrest u c' g hu hg).2.1⟩
    · rw [running_enter, Function.update_self]
      exact ⟨rfl, rfl⟩
  · exact forall_inside (fun u c' g hu hg => (hrest u c' g hu hg).2.2) (by simp)

theorem Provided.did (h : Provided f₀ ls gs w) {t : T} {c : RegisterCall C K V}
    {g : RegisterCall C K V × List (K × V)} (hg : gs t = some (c, g)) {e : RegisterAction E K V}
    {r : RegisterAction.Answer R e} {w' : S × (K → V)}
    (hw : (withRegisters M reads).perform t w e r = some w') :
    ∃ g', (sourced reads needs).next g e r = some g' ∧
      Provided f₀ (ls ++ [.did t e r]) (Function.update gs t (some (c, g'))) w' := by
  have hrest := h.others (t := t) (l := .did t e r) (fun u hu => by simp [Stays])
    fun u hu => by rw [running_did]
  have hstays : Stays t [(.did t e r : RegisterLabel T E R C α K V)] := by simp [Stays]
  obtain ⟨hcall, hsame⟩ := h.inside t c g hg
  have hheld : ∀ x ∈ g.2, HeldDuring f₀ (ls ++ [.did t e r]) t x.1 x.2 := fun x hx =>
    (h.held t c g hg x hx).snoc hstays
  have hprovided : ∀ xs : List (K × V), w'.2 = contents f₀ (ls ++ [.did t e r]) →
      (∀ x ∈ xs, HeldDuring f₀ (ls ++ [.did t e r]) t x.1 x.2) →
      Provided f₀ (ls ++ [.did t e r]) (Function.update gs t (some (c, (g.1, xs)))) w' := by
    intro xs hcontents hxs
    refine ⟨hcontents, forall_inside ?_ ?_, forall_inside ?_ hxs⟩
    · exact fun u c' g hu hg => ⟨(hrest u c' g hu hg).1, (hrest u c' g hu hg).2.1⟩
    · rw [running_did]
      exact ⟨hcall, hsame⟩
    · exact fun u c' g hu hg => (hrest u c' g hu hg).2.2
  cases e with
  | inner e =>
    simp only [withRegisters] at hw
    split at hw
    · rename_i hreads
      obtain ⟨w1, -, rfl⟩ := Option.map_eq_some_iff.mp hw
      have hcontents : w.2 = contents f₀ (ls ++ [.did t (.inner e) r]) := by
        rw [contents_append, ← h.stored]
        rfl
      refine ⟨_, rfl, hprovided _ hcontents fun x hx => ?_⟩
      rcases List.mem_append.mp hx with hx | hx
      · exact hheld x hx
      · -- the value that was loaded is in the register now
        have hnow : HeldDuring f₀ (ls ++ [.did t (.inner e) r]) t x.1
            (contents f₀ (ls ++ [.did t (.inner e) r]) x.1) :=
          heldDuring_now f₀ (by rw [running_did, hcall]) x.1
        rwa [← hcontents, hreads x (Option.mem_toList.mp hx)] at hnow
    · cases hw
  | store k v =>
    cases hw
    refine ⟨_, rfl, hprovided _ ?_ hheld⟩
    rw [contents_append, ← h.stored]
    rfl

theorem Provided.leave (h : Provided f₀ ls gs w) {t : T} {c : RegisterCall C K V} {a : Option α}
    {w' : S × (K → V)} (hw : (withRegisters M reads).leave t w c a = some w') :
    Provided f₀ (ls ++ [.leave t c a]) (Function.update gs t none) w' := by
  have hsame : w'.2 = w.2 := by
    simp only [withRegisters] at hw
    split at hw
    · obtain ⟨w1, -, rfl⟩ := Option.map_eq_some_iff.mp hw
      rfl
    · cases hw
      rfl
  have hrest := h.others (t := t) (l := .leave t c a) (fun u hu => by simp [Stays, hu.symm])
    fun u hu => by rw [running_leave, Function.update_of_ne hu]
  constructor
  · rw [hsame, contents_append, ← h.stored]
    rfl
  · intro u c' g hu
    obtain ⟨hne, hg⟩ := stays_inside hu
    exact ⟨(hrest u c' g hne hg).1, (hrest u c' g hne hg).2.1⟩
  · intro u c' g hu
    obtain ⟨hne, hg⟩ := stays_inside hu
    exact (hrest u c' g hne hg).2.2

def sourcedOutline (h : ∀ c, Follows (sourcedIn reads needs) (fun _ _ => True) (M.body c)
    (.call c, [])) : Outline (withRegisters M reads) ok (s₀, f₀) (sourced reads needs) where
  start c := (c, [])
  post _ _ _ := True
  inv := Provided f₀
  follows := sourced_follows h
  init := ⟨rfl, nofun, nofun⟩
  enter hi _ hw _ := hi.enter hw
  did hi hg _ hw _ := hi.did hg hw
  leave hi _ _ hw _ := hi.leave hw

/-- Every action of a call has what it needs, and that was in the registers during the call. -/
theorem what_is_needed_was_held (h : ∀ c, Follows (sourcedIn reads needs) (fun _ _ => True)
    (M.body c) (.call c, [])) {s : RegisterSys T E R C α S K V}
    (hr : Runs (withRegisters M reads) ok (s₀, f₀) ls s) {t : T} {e : E} {r : R e}
    {l1 l2 : List (RegisterLabel T E R C α K V)} (hl : ls = l1 ++ .did t (.inner e) r :: l2) :
    ∃ c xs, running l1 t = some (.call c) ∧ needs c e xs ∧
      ∀ x ∈ xs, HeldDuring f₀ l1 t x.1 x.2 := by
  obtain ⟨s1, s2, hr1, -, hstep⟩ := hr.split hl
  obtain ⟨gs, hi, hm⟩ := (sourcedOutline h).runs hr1
  cases hstep with
  | did ht hp =>
    obtain ⟨g, hg, hallows, -⟩ := Outline.some_of_some hm ht
    obtain ⟨hcall, hsame⟩ := hi.inside t _ g hg
    simp only [sourced] at hallows
    split at hallows
    · rename_i c hc
      rw [← hsame, hc] at hcall
      exact ⟨c, g.2, hcall, hallows, hi.held t _ g hg⟩
    · exact hallows.elim

end Loads

end registers
