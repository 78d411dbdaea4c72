-- Programs as trees of atomic actions. A program ends with a value, or does
-- one action and goes on with the answer. A protocol says which actions a
-- program may do and how its own state follows the answers.
import Mathlib.Tactic.Common

namespace programs

variable {E : Type} {R : E → Type} {α β G : Type}

/-- A program over the actions `E`: the action `e` has an answer of the type `R e`. -/
inductive Prog (E : Type) (R : E → Type) (α : Type) : Type
  | ret (a : α)
  | act (e : E) (k : R e → Prog E R α)

namespace Prog

def bind : Prog E R α → (α → Prog E R β) → Prog E R β
  | .ret a, f => f a
  | .act e k, f => .act e (fun r => (k r).bind f)

instance : Monad (Prog E R) where
  pure := .ret
  bind := Prog.bind

/-- The program that does one action and ends with its answer. -/
def perform (e : E) : Prog E R (R e) := .act e .ret

@[simp] theorem pure_eq (a : α) : (pure a : Prog E R α) = .ret a := rfl

@[simp] theorem ret_bind (a : α) (f : α → Prog E R β) : (Prog.ret a >>= f) = f a := rfl

@[simp] theorem act_bind (e : E) (k : R e → Prog E R α) (f : α → Prog E R β) :
    (Prog.act e k >>= f) = .act e (fun r => k r >>= f) := rfl

@[simp] theorem perform_bind (e : E) (f : R e → Prog E R β) :
    ((perform e : Prog E R (R e)) >>= f) = .act e f := rfl

@[simp] theorem bind_ret (p : Prog E R α) : (p >>= fun a => Prog.ret a) = p := by
  induction p with
  | ret a => rfl
  | act e k ih => simp only [act_bind, ih]

theorem bind_assoc (p : Prog E R α) {γ : Type} (f : α → Prog E R β) (f' : β → Prog E R γ) :
    ((p >>= f) >>= f') = (p >>= fun a => f a >>= f') := by
  induction p with
  | ret a => rfl
  | act e k ih => simp only [act_bind, ih]

/-- The program as a part of a larger system, where its action `e` is the action `i e`. -/
def lift {E' : Type} {R' : E' → Type} (i : E → E') : Prog E (fun e => R' (i e)) α → Prog E' R' α
  | .ret a => .ret a
  | .act e k => .act (i e) fun r => (k r).lift i

end Prog

/-! ## One program alone -/

/-- The runs of one program from the state `g` to the state `g'`, where `next` gives the
state after each answer, and `none` for an answer that cannot come. -/
inductive Exec (next : G → (e : E) → R e → Option G) : G → Prog E R α → G → α → Prop
  | ret {g : G} {a : α} : Exec next g (.ret a) g a
  | act {g g' g'' : G} {e : E} {r : R e} {k : R e → Prog E R α} {a : α} :
      next g e r = some g' → Exec next g' (k r) g'' a → Exec next g (.act e k) g'' a

/-- The answers of a run are answers that can come, so a run of `p >>= f` is a run of `p`
and then a run of `f`. -/
theorem exec_bind {next : G → (e : E) → R e → Option G} {p : Prog E R α} {f : α → Prog E R β}
    {g g' : G} {b : β} (h : Exec next g (p >>= f) g' b) :
    ∃ g1 a, Exec next g p g1 a ∧ Exec next g1 (f a) g' b := by
  induction p generalizing g with
  | ret a => exact ⟨g, a, .ret, h⟩
  | act e k ih =>
    rw [Prog.act_bind] at h
    cases h with
    | act hn hk =>
      obtain ⟨g1, a, h1, h2⟩ := ih _ hk
      exact ⟨g1, a, .act hn h1, h2⟩

/-- What every step keeps, a run keeps. -/
theorem exec_keeps {next : G → (e : E) → R e → Option G} {I : G → Prop}
    (hstep : ∀ {g e} {r : R e} {g'}, I g → next g e r = some g' → I g') {p : Prog E R α}
    {g g' : G} {a : α} (hi : I g) (h : Exec next g p g' a) : I g' := by
  induction h with
  | ret => exact hi
  | act hn _ ih => exact ih (hstep hi hn)

/-- A run of `p` and then a run of `f` are a run of `p >>= f`. -/
theorem exec_seq {next : G → (e : E) → R e → Option G} {p : Prog E R α} {f : α → Prog E R β}
    {g g1 g' : G} {a : α} {b : β} (hp : Exec next g p g1 a) (hf : Exec next g1 (f a) g' b) :
    Exec next g (p >>= f) g' b := by
  induction hp with
  | ret => exact hf
  | act hn _ ih => exact .act hn (ih hf)

theorem exec_ret {next : G → (e : E) → R e → Option G} {g g' : G} {a b : α}
    (h : Exec next g (.ret a : Prog E R α) g' b) : g' = g ∧ b = a := by
  cases h
  exact ⟨rfl, rfl⟩

theorem exec_act {next : G → (e : E) → R e → Option G} {g g' : G} {e : E}
    {k : R e → Prog E R α} {b : α} (h : Exec next g (.act e k) g' b) :
    ∃ r g1, next g e r = some g1 ∧ Exec next g1 (k r) g' b := by
  cases h with
  | act hn hk => exact ⟨_, _, hn, hk⟩

/-- The run in which each action has the answer that `answer` gives for it. -/
def Prog.run (next : G → (e : E) → R e → Option G) (answer : G → (e : E) → R e) :
    Prog E R α → G → Option (G × α)
  | .ret a, g => some (g, a)
  | .act e k, g =>
    match next g e (answer g e) with
    | some g' => (k (answer g e)).run next answer g'
    | none => none

theorem run_exec {next : G → (e : E) → R e → Option G} (answer : G → (e : E) → R e)
    {p : Prog E R α} {g g' : G} {a : α} (h : p.run next answer g = some (g', a)) :
    Exec next g p g' a := by
  induction p generalizing g with
  | ret b =>
    simp only [Prog.run, Option.some.injEq, Prod.mk.injEq] at h
    obtain ⟨rfl, rfl⟩ := h
    exact .ret
  | act e k ih =>
    simp only [Prog.run] at h
    split at h
    · rename_i g1 hn
      exact .act hn (ih _ h)
    · cases h

/-! ## Protocols -/

/-- A protocol for one thread: the actions it may do in the state `g`, and the state after
each answer. An answer with `none` is one that the rest of the system rules out. -/
structure Protocol (E : Type) (R : E → Type) (G : Type) where
  allows : G → E → Prop
  next : G → (e : E) → R e → Option G

/-- The program keeps to the protocol from `g`, and ends only with values and states of `Q`. -/
def Follows (P : Protocol E R G) (Q : G → α → Prop) : Prog E R α → G → Prop
  | .ret a, g => Q g a
  | .act e k, g => P.allows g e ∧ ∀ r g', P.next g e r = some g' → Follows P Q (k r) g'

section Follows

variable {P : Protocol E R G} {Q : G → α → Prop}

@[simp] theorem follows_ret (a : α) (g : G) : Follows P Q (.ret a) g ↔ Q g a := Iff.rfl

theorem follows_act (e : E) (k : R e → Prog E R α) (g : G) :
    Follows P Q (.act e k) g ↔
      P.allows g e ∧ ∀ r g', P.next g e r = some g' → Follows P Q (k r) g' := Iff.rfl

theorem follows_bind (p : Prog E R β) (f : β → Prog E R α) (g : G) :
    Follows P Q (p >>= f) g ↔ Follows P (fun g' b => Follows P Q (f b) g') p g := by
  induction p generalizing g with
  | ret b => rfl
  | act e k ih => simp only [Prog.act_bind, follows_act, ih]

theorem follows_mono {Q' : G → α → Prop} {p : Prog E R α} {g : G} (h : Follows P Q p g)
    (hQ : ∀ g' a, Q g' a → Q' g' a) : Follows P Q' p g := by
  induction p generalizing g with
  | ret a => exact hQ g a h
  | act e k ih => exact ⟨h.1, fun r g' hn => ih r (h.2 r g' hn)⟩

/-- The rule for an action, when the protocol goes on after each of its answers. -/
theorem follows_known {e : E} {k : R e → Prog E R α} {g : G} (hallows : P.allows g e)
    {after : R e → G} (hnext : ∀ r, P.next g e r = some (after r))
    (h : ∀ r, Follows P Q (k r) (after r)) : Follows P Q (.act e k) g := by
  refine ⟨hallows, fun r g' hn => ?_⟩
  rw [hnext r] at hn
  cases hn
  exact h r

/-- The rule for a sequence: what `p` ends with is where `f` starts. -/
theorem follows_seq {V : G → β → Prop} {p : Prog E R β} {f : β → Prog E R α} {g : G}
    (hp : Follows P V p g) (hf : ∀ g' b, V g' b → Follows P Q (f b) g') :
    Follows P Q (p >>= f) g :=
  (follows_bind p f g).mpr (follows_mono hp hf)

/-- A program that follows a protocol ends, alone, only with values and states of `Q`. -/
theorem follows_exec {p : Prog E R α} {g g' : G} {a : α} (hf : Follows P Q p g)
    (h : Exec P.next g p g' a) : Q g' a := by
  induction h with
  | ret => exact hf
  | act hn _ ih => exact ih (hf.2 _ _ hn)

/-- A program that follows a protocol has a run to its end, when every action that the protocol
allows has an answer. -/
theorem follows_runs {p : Prog E R α} {g : G} (hf : Follows P Q p g)
    (hanswer : ∀ g e, P.allows g e → ∃ r g', P.next g e r = some g') :
    ∃ g' a, Exec P.next g p g' a := by
  induction p generalizing g with
  | ret a => exact ⟨g, a, .ret⟩
  | act e k ih =>
    obtain ⟨r, g1, hn⟩ := hanswer g e hf.1
    obtain ⟨g', a, hrun⟩ := ih r (hf.2 r g1 hn)
    exact ⟨g', a, .act hn hrun⟩

/-- A program that follows a protocol, run on a machine. Each step of the machine that the
protocol allows keeps the invariant `I`, which ties its state to the state of the protocol. -/
theorem follows_exec_with {S : Type} {next : S → (e : E) → R e → Option S} {I : G → S → Prop}
    (hstep : ∀ {g s e} {r : R e} {s'}, I g s → P.allows g e → next s e r = some s' →
      ∃ g', P.next g e r = some g' ∧ I g' s')
    {p : Prog E R α} {g : G} {s s' : S} {a : α} (hf : Follows P Q p g) (hi : I g s)
    (h : Exec next s p s' a) : ∃ g', Q g' a ∧ I g' s' := by
  induction h generalizing g with
  | ret => exact ⟨g, hf, hi⟩
  | act hn _ ih =>
    obtain ⟨g1, hg, hi1⟩ := hstep hi hf.1 hn
    exact ih (hf.2 _ _ hg) hi1

end Follows

/-! ## A part of a larger system -/

section Lift

variable {E' : Type} {R' : E' → Type} {i : E → E'}

/-- What the protocol of a larger system says about a part, whose action `e` is its `i e`. -/
def Protocol.along (i : E → E') (P : Protocol E' R' G) : Protocol E (fun e => R' (i e)) G where
  allows g e := P.allows g (i e)
  next g e r := P.next g (i e) r

theorem follows_lift {P : Protocol E' R' G} {Q : G → α → Prop}
    {p : Prog E (fun e => R' (i e)) α} {g : G} :
    Follows P Q (p.lift i) g ↔ Follows (P.along i) Q p g := by
  induction p generalizing g with
  | ret a => rfl
  | act e k ih =>
    unfold Prog.lift
    rw [follows_act, follows_act]
    apply and_congr Iff.rfl
    apply forall_congr'
    intro r
    apply forall_congr'
    intro g'
    rw [ih r]
    rfl

end Lift

/-! ## The traces of a program -/

/-- The program does the actions of the trace, with the answers that stand there, and then
`q` is left. -/
inductive Traces : Prog E R α → List (Σ e, R e) → Prog E R α → Prop
  | nil {p : Prog E R α} : Traces p [] p
  | snoc {p : Prog E R α} {tr : List (Σ e, R e)} {e : E} {k : R e → Prog E R α} {r : R e} :
      Traces p tr (.act e k) → Traces p (tr ++ [⟨e, r⟩]) (k r)

theorem traces_ret {a : α} {q : Prog E R α} {tr : List (Σ e, R e)} (h : Traces (.ret a) tr q) :
    tr = [] ∧ q = .ret a := by
  induction h with
  | nil => exact ⟨rfl, rfl⟩
  | snoc _ ih => cases ih.2

/-- An action and then a trace of what follows it. -/
theorem traces_cons {e : E} {k : R e → Prog E R α} {r : R e} {q : Prog E R α}
    {tr : List (Σ e, R e)} (h : Traces (k r) tr q) : Traces (.act e k) (⟨e, r⟩ :: tr) q := by
  induction h with
  | nil =>
    have hone : Traces (.act e k) ([] ++ [⟨e, r⟩]) (k r) := .snoc .nil
    exact hone
  | snoc _ ih => exact .snoc ih

/-- The first action of a trace. -/
theorem traces_act {e : E} {k : R e → Prog E R α} {q : Prog E R α} {tr : List (Σ e, R e)}
    (h : Traces (.act e k) tr q) :
    (tr = [] ∧ q = .act e k) ∨ ∃ r tr', tr = ⟨e, r⟩ :: tr' ∧ Traces (k r) tr' q := by
  induction h with
  | nil => exact Or.inl ⟨rfl, rfl⟩
  | @snoc tr e' k' r' _ ih =>
    rcases ih with ⟨rfl, hq⟩ | ⟨r, tr', rfl, htr⟩
    · cases hq
      exact Or.inr ⟨r', [], rfl, .nil⟩
    · exact Or.inr ⟨r, tr' ++ [⟨e', r'⟩], rfl, .snoc htr⟩

/-- The first action of a trace to the end. -/
theorem traces_act_ret {e : E} {k : R e → Prog E R α} {a : α} {tr : List (Σ e, R e)}
    (h : Traces (.act e k) tr (.ret a)) :
    ∃ r tr', tr = ⟨e, r⟩ :: tr' ∧ Traces (k r) tr' (.ret a) := by
  rcases traces_act h with ⟨_, hq⟩ | htr
  · cases hq
  · exact htr

/-- A trace of a sequence to its end is a trace of its first part and then one of the rest. -/
theorem traces_bind_ret {p : Prog E R β} {f : β → Prog E R α} {a : α} {tr : List (Σ e, R e)}
    (h : Traces (p >>= f) tr (.ret a)) :
    ∃ b tr1 tr2, tr = tr1 ++ tr2 ∧ Traces p tr1 (.ret b) ∧ Traces (f b) tr2 (.ret a) := by
  induction p generalizing tr with
  | ret b => exact ⟨b, [], tr, rfl, .nil, h⟩
  | act e k ih =>
    obtain ⟨r, tr', rfl, htr⟩ := traces_act_ret h
    obtain ⟨b, tr1, tr2, rfl, h1, h2⟩ := ih r htr
    exact ⟨b, ⟨e, r⟩ :: tr1, tr2, rfl, traces_cons h1, h2⟩

/-- A trace of a lifted program to its end is a trace of the program. -/
theorem traces_lift_ret {E' : Type} {R' : E' → Type} {i : E → E'}
    {p : Prog E (fun e => R' (i e)) α} {a : α} {tr : List (Σ e, R' e)}
    (h : Traces (p.lift i) tr (.ret a)) :
    ∃ tr₀ : List (Σ e, R' (i e)), tr = tr₀.map (fun x => ⟨i x.1, x.2⟩) ∧ Traces p tr₀ (.ret a) := by
  induction p generalizing tr with
  | ret b =>
    obtain ⟨rfl, hb⟩ := traces_ret h
    cases hb
    exact ⟨[], rfl, .nil⟩
  | act e k ih =>
    obtain ⟨r, tr', rfl, h'⟩ := traces_act_ret h
    obtain ⟨tr₀, rfl, htr₀⟩ := ih r h'
    exact ⟨⟨e, r⟩ :: tr₀, rfl, traces_cons htr₀⟩

/-- The trace of a sequence, while its first part runs. -/
theorem traces_bind {p q : Prog E R β} {tr : List (Σ e, R e)} (f : β → Prog E R α)
    (h : Traces p tr q) : Traces (p >>= f) tr (q >>= f) := by
  induction h with
  | nil => exact .nil
  | snoc _ ih => exact .snoc (r := _) ih

/-- The trace of a sequence, after its first part. -/
theorem traces_seq {p : Prog E R β} {f : β → Prog E R α} {q : Prog E R α} {b : β}
    {tr tr' : List (Σ e, R e)} (hp : Traces p tr (.ret b)) (hf : Traces (f b) tr' q) :
    Traces (p >>= f) (tr ++ tr') q := by
  induction hf with
  | nil =>
    rw [List.append_nil]
    exact traces_bind f hp
  | snoc _ ih =>
    rw [← List.append_assoc]
    exact .snoc ih

/-- The trace to the end in which each action has the answer that `answer` gives for it after
the trace before. -/
def Prog.trace (answer : List (Σ e, R e) → (e : E) → R e) :
    Prog E R α → List (Σ e, R e) → List (Σ e, R e) × α
  | .ret a, tr => (tr, a)
  | .act e k, tr => (k (answer tr e)).trace answer (tr ++ [⟨e, answer tr e⟩])

theorem trace_traces (answer : List (Σ e, R e) → (e : E) → R e) {p q : Prog E R α}
    {tr : List (Σ e, R e)} (h : Traces p tr q) :
    Traces p (q.trace answer tr).1 (.ret (q.trace answer tr).2) := by
  induction q generalizing tr with
  | ret a => exact h
  | act e k ih => exact ih (answer tr e) (.snoc h)

/-- A trace goes on to an end, when every action has an answer. -/
theorem traces_extend (answer : (e : E) → R e) {p q : Prog E R α} {tr : List (Σ e, R e)}
    (h : Traces p tr q) : ∃ more a, Traces p (tr ++ more) (.ret a) := by
  induction q generalizing tr with
  | ret a =>
    refine ⟨[], a, ?_⟩
    rw [List.append_nil]
    exact h
  | act e k ih =>
    obtain ⟨more, a, hmore⟩ := ih (answer e) (.snoc h)
    refine ⟨⟨e, answer e⟩ :: more, a, ?_⟩
    rw [List.append_assoc, List.singleton_append] at hmore
    exact hmore

/-- A program has a trace to its end with answers of a kind, when every action has one. -/
theorem traces_answered {S : (e : E) → R e → Prop} (hS : ∀ e, ∃ r, S e r) (p : Prog E R α) :
    ∃ tr a, Traces p tr (.ret a) ∧ ∀ x ∈ tr, S x.1 x.2 := by
  induction p with
  | ret a => exact ⟨[], a, .nil, by simp⟩
  | act e k ih =>
    obtain ⟨r, hr⟩ := hS e
    obtain ⟨tr, a, htr, hall⟩ := ih r
    exact ⟨⟨e, r⟩ :: tr, a, traces_cons htr, List.forall_mem_cons.mpr ⟨hr, hall⟩⟩

/-- The answers decide where a trace ends, and with which value. -/
theorem traces_ret_unique {p : Prog E R α} {a b : α} {tr tr' more more' : List (Σ e, R e)}
    (h : Traces p tr (.ret a)) (h' : Traces p tr' (.ret b)) (heq : tr ++ more = tr' ++ more') :
    tr = tr' ∧ a = b ∧ more = more' := by
  induction p generalizing tr tr' with
  | ret c =>
    obtain ⟨rfl, ha⟩ := traces_ret h
    obtain ⟨rfl, hb⟩ := traces_ret h'
    cases ha
    cases hb
    exact ⟨rfl, rfl, heq⟩
  | act e k ih =>
    obtain ⟨r, tr1, rfl, h1⟩ := traces_act_ret h
    obtain ⟨r', tr2, rfl, h2⟩ := traces_act_ret h'
    rw [List.cons_append, List.cons_append, List.cons.injEq] at heq
    obtain ⟨hfirst, hrest⟩ := heq
    cases hfirst
    obtain ⟨rfl, hab, hmore⟩ := ih r h1 h2 hrest
    exact ⟨rfl, hab, hmore⟩

/-- What every step of a program that follows a protocol keeps, its traces keep. -/
theorem follows_traces {P : Protocol E R G} {Q : G → α → Prop} {I : List (Σ e, R e) → G → Prop}
    (hstep : ∀ {tr g e} (r : R e), I tr g → P.allows g e →
      ∃ g', P.next g e r = some g' ∧ I (tr ++ [⟨e, r⟩]) g')
    {p q : Prog E R α} {g : G} {tr : List (Σ e, R e)} (hf : Follows P Q p g) (hi : I [] g)
    (h : Traces p tr q) : ∃ g', I tr g' ∧ Follows P Q q g' := by
  induction h with
  | nil => exact ⟨g, hi, hf⟩
  | @snoc tr e k r _ ih =>
    obtain ⟨g1, hi1, hf1⟩ := ih
    obtain ⟨g2, hg, hi2⟩ := hstep r hi1 hf1.1
    exact ⟨g2, hi2, hf1.2 r g2 hg⟩

/-- The state after the actions of a trace, or none for a trace with an answer that cannot
come. -/
def after (next : G → (e : E) → R e → Option G) : G → List (Σ e, R e) → Option G
  | g, [] => some g
  | g, x :: tr =>
    match next g x.1 x.2 with
    | some g' => after next g' tr
    | none => none

theorem after_append (next : G → (e : E) → R e → Option G) (g : G) (tr tr' : List (Σ e, R e)) :
    after next g (tr ++ tr') = (after next g tr).bind fun g' => after next g' tr' := by
  induction tr generalizing g with
  | nil => rfl
  | cons x tr ih =>
    simp only [List.cons_append, after]
    split
    · exact ih _
    · rfl

theorem after_snoc {next : G → (e : E) → R e → Option G} {g g' : G} {tr : List (Σ e, R e)}
    {e : E} {r : R e} (h : after next g (tr ++ [⟨e, r⟩]) = some g') :
    ∃ g1, after next g tr = some g1 ∧ next g1 e r = some g' := by
  rw [after_append] at h
  obtain ⟨g1, h1, h2⟩ := Option.bind_eq_some_iff.mp h
  refine ⟨g1, h1, ?_⟩
  simp only [after] at h2
  split at h2
  · rename_i g2 hn
    rw [hn, ← h2]
  · cases h2

/-- After a trace the rest of the program follows the protocol from the state that the trace
leads to, and what every allowed action keeps holds in that state. -/
theorem follows_after {P : Protocol E R G} {Q : G → α → Prop} {I : G → Prop}
    (hkeep : ∀ {g e} {r : R e} {g'}, I g → P.allows g e → P.next g e r = some g' → I g')
    {p q : Prog E R α} {g g' : G} {tr : List (Σ e, R e)} (hf : Follows P Q p g) (hi : I g)
    (h : Traces p tr q) (hg : after P.next g tr = some g') : I g' ∧ Follows P Q q g' := by
  induction h generalizing g' with
  | nil =>
    cases hg
    exact ⟨hi, hf⟩
  | snoc _ ih =>
    obtain ⟨g1, h1, hn⟩ := after_snoc hg
    obtain ⟨hi1, hf1⟩ := ih h1
    exact ⟨hkeep hi1 hf1.1 hn, hf1.2 _ _ hn⟩

/-- A trace splits at each of its actions. -/
theorem traces_split {p q : Prog E R α} {tr tr1 tr2 : List (Σ e, R e)} {e : E} {r : R e}
    (h : Traces p tr q) (htr : tr = tr1 ++ ⟨e, r⟩ :: tr2) : ∃ k, Traces p tr1 (.act e k) := by
  induction h generalizing tr2 with
  | nil => simp at htr
  | @snoc tr e' k' r' hp ih =>
    rcases List.eq_nil_or_concat tr2 with rfl | ⟨tr3, x, rfl⟩
    · obtain ⟨h1, h2⟩ := List.append_inj' htr rfl
      cases h1
      cases h2
      exact ⟨k', hp⟩
    · rw [List.concat_eq_append, ← List.cons_append, ← List.append_assoc] at htr
      exact ih (List.append_inj' htr rfl).1

/-! ## Programs with few kinds of actions -/

/-- The program does only actions of `A`, whatever the answers, and ends only with values
of `V`. -/
def Within (A : E → Prop) (V : α → Prop) : Prog E R α → Prop
  | .ret a => V a
  | .act e k => A e ∧ ∀ r, Within A V (k r)

@[simp] theorem within_ret (A : E → Prop) (V : α → Prop) (a : α) :
    Within A V (.ret a : Prog E R α) ↔ V a := Iff.rfl

@[simp] theorem within_act (A : E → Prop) (V : α → Prop) (e : E) (k : R e → Prog E R α) :
    Within A V (.act e k) ↔ A e ∧ ∀ r, Within A V (k r) := Iff.rfl

theorem within_mono {A A' : E → Prop} {V V' : α → Prop} {p : Prog E R α} (h : Within A V p)
    (hA : ∀ e, A e → A' e) (hV : ∀ a, V a → V' a) : Within A' V' p := by
  induction p with
  | ret a => exact hV a h
  | act e k ih => exact ⟨hA e h.1, fun r => ih r (h.2 r)⟩

theorem within_seq {A : E → Prop} {V : β → Prop} {W : α → Prop} {p : Prog E R β}
    {f : β → Prog E R α} (hp : Within A V p) (hf : ∀ b, V b → Within A W (f b)) :
    Within A W (p >>= f) := by
  induction p with
  | ret b => exact hf b hp
  | act e k ih => exact ⟨hp.1, fun r => ih r (hp.2 r)⟩

/-- The actions of a part of a larger system. -/
theorem within_lift {E' : Type} {R' : E' → Type} {i : E → E'} {A : E' → Prop} {V : α → Prop}
    {p : Prog E (fun e => R' (i e)) α} (h : Within (fun e => A (i e)) V p) :
    Within A V (p.lift i : Prog E' R' α) := by
  induction p with
  | ret a => exact h
  | act e k ih => exact ⟨h.1, fun r => ih r (h.2 r)⟩

theorem within_trivial (p : Prog E R α) : Within (fun _ => True) (fun _ => True) p := by
  induction p with
  | ret a => trivial
  | act e k ih => exact ⟨trivial, ih⟩

theorem within_ite {A : E → Prop} {V : α → Prop} {c : Prop} [Decidable c] {p q : Prog E R α}
    (hp : Within A V p) (hq : Within A V q) : Within A V (if c then p else q) := by
  split
  · exact hp
  · exact hq

/-- The protocol allows the action in the state `g`, and no answer changes `g`. -/
def Protocol.Passes (P : Protocol E R G) (g : G) (e : E) : Prop :=
  P.allows g e ∧ ∀ r g', P.next g e r = some g' → g' = g

/-- The protocol allows the action in every state, and no answer changes the state. -/
def Protocol.Ignores (P : Protocol E R G) (e : E) : Prop :=
  ∀ g, P.allows g e ∧ ∀ r g', P.next g e r = some g' → g' = g

/-- A program whose actions pass in a state follows the protocol from it, and leaves it as it
was. -/
theorem follows_of_passes {P : Protocol E R G} {A : E → Prop} {V : α → Prop} {Q : G → α → Prop}
    {p : Prog E R α} {g : G} (h : Within A V p) (hA : ∀ e, A e → P.Passes g e)
    (hQ : ∀ a, V a → Q g a) : Follows P Q p g := by
  induction p with
  | ret a => exact hQ a h
  | act e k ih =>
    refine ⟨(hA e h.1).1, fun r g' hn => ?_⟩
    rw [(hA e h.1).2 r g' hn]
    exact ih r (h.2 r)

/-- A program of ignored actions follows the protocol and leaves its state as it was. -/
theorem follows_of_within {P : Protocol E R G} {A : E → Prop} {V : α → Prop} {Q : G → α → Prop}
    {p : Prog E R α} {g : G} (h : Within A V p) (hA : ∀ e, A e → P.Ignores e)
    (hQ : ∀ a, V a → Q g a) : Follows P Q p g :=
  follows_of_passes h (fun e he => hA e he g) hQ

/-- The protocol that allows the actions of `A`, and keeps nothing in mind. -/
def only (A : E → Prop) : Protocol E R Unit where
  allows _ e := A e
  next _ _ _ := some ()

theorem only_passes {A : E → Prop} {e : E} (h : A e) : (only A : Protocol E R Unit).Passes () e :=
  ⟨h, fun _ _ _ => rfl⟩

/-- A program that follows this protocol does only actions of `A`. -/
theorem within_of_follows {A : E → Prop} {V : α → Prop} {p : Prog E R α}
    (h : Follows (only A) (fun _ => V) p ()) : Within A V p := by
  induction p with
  | ret a => exact h
  | act e k ih => exact ⟨h.1, fun r => ih r (h.2 r () rfl)⟩

/-- The actions of a trace, and what is left after it. -/
theorem traces_within {A : E → Prop} {V : α → Prop} {p q : Prog E R α} {tr : List (Σ e, R e)}
    (hp : Within A V p) (h : Traces p tr q) : (∀ x ∈ tr, A x.1) ∧ Within A V q := by
  induction h with
  | nil => exact ⟨nofun, hp⟩
  | snoc _ ih =>
    obtain ⟨hall, hact⟩ := ih
    refine ⟨fun x hx => ?_, hact.2 _⟩
    rw [List.mem_append, List.mem_singleton] at hx
    rcases hx with hx | rfl
    · exact hall x hx
    · exact hact.1

/-- The rule for a sequence that starts with ignored actions. -/
theorem follows_within_seq {P : Protocol E R G} {A : E → Prop} {V : β → Prop}
    {Q : G → α → Prop} {p : Prog E R β} {f : β → Prog E R α} {g : G} (h : Within A V p)
    (hA : ∀ e, A e → P.Ignores e) (hf : ∀ b, V b → Follows P Q (f b) g) :
    Follows P Q (p >>= f) g :=
  follows_seq (V := fun g' b => g' = g ∧ V b)
    (follows_of_within h hA fun _ hb => ⟨rfl, hb⟩) (by rintro _ b ⟨rfl, hb⟩; exact hf b hb)

end programs
