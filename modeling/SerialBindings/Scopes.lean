-- Resources in scopes. A program opens resources, uses them while they are open, and
-- releases each one once, the last opened first, on every path to its end.
import Mathlib.Data.List.Induction
import Mathlib.Data.List.Perm.Basic
import SerialBindings.Programs

open programs

namespace scopes

/-- What the actions do with resources: the ones that an action uses, the one that its answer
opens, and the one that it closes. -/
structure Scoping (E : Type) (R : E → Type) (H : Type) where
  uses : E → List H
  opens : (e : E) → R e → Option H
  closes : E → Option H

variable {E : Type} {R : E → Type} {H α β : Type} (S : Scoping E R H)

namespace Scoping

/-- The open resources after an action, the last opened first. -/
def step (o : List H) (e : E) (r : R e) : List H :=
  (S.opens e r).toList ++ match S.closes e with
    | some _ => o.tail
    | none => o

def openAfter (tr : List (Σ e, R e)) : List H := tr.foldl (fun o x => S.step o x.1 x.2) []

def opened (tr : List (Σ e, R e)) : List H := tr.filterMap fun x => S.opens x.1 x.2

def closed (tr : List (Σ e, R e)) : List H := tr.filterMap fun x => S.closes x.1

@[simp] theorem openAfter_snoc (tr : List (Σ e, R e)) (e : E) (r : R e) :
    S.openAfter (tr ++ [⟨e, r⟩]) = S.step (S.openAfter tr) e r := by
  simp [openAfter]

/-- The action does nothing with resources. -/
structure Free (e : E) : Prop where
  uses : S.uses e = []
  opens : ∀ r, S.opens e r = none
  closes : S.closes e = none

/-- Resources are used while they are open, and the last opened one is closed first. -/
structure InScope (tr : List (Σ e, R e)) : Prop where
  uses : ∀ tr1 e r tr2, tr = tr1 ++ ⟨e, r⟩ :: tr2 → ∀ h ∈ S.uses e, h ∈ S.openAfter tr1
  closes : ∀ tr1 e r tr2, tr = tr1 ++ ⟨e, r⟩ :: tr2 →
    ∀ h ∈ S.closes e, (S.openAfter tr1).head? = some h

/-- The same, and what was opened is closed, each resource as often. -/
structure Tidy (tr : List (Σ e, R e)) : Prop where
  inScope : S.InScope tr
  released : (S.opened tr).Perm (S.closed tr)

theorem InScope.init {tr : List (Σ e, R e)} {e : E} {r : R e}
    (h : S.InScope (tr ++ [⟨e, r⟩])) : S.InScope tr where
  uses tr1 e' r' tr2 htr := h.uses tr1 e' r' (tr2 ++ [⟨e, r⟩]) (by simp [htr])
  closes tr1 e' r' tr2 htr := h.closes tr1 e' r' (tr2 ++ [⟨e, r⟩]) (by simp [htr])

/-- What was opened is closed or still open. -/
theorem InScope.perm {tr : List (Σ e, R e)} (h : S.InScope tr) :
    (S.opened tr).Perm (S.closed tr ++ S.openAfter tr) := by
  induction tr using List.reverseRecOn with
  | nil => exact .refl _
  | append_singleton tr x ih =>
    obtain ⟨e, r⟩ := x
    have hbefore := ih h.init
    rw [openAfter_snoc]
    have hopened : S.opened (tr ++ [⟨e, r⟩]) = S.opened tr ++ (S.opens e r).toList := by
      unfold opened
      rw [List.filterMap_append]
      cases ho : S.opens e r <;> simp [ho]
    have hclosed : S.closed (tr ++ [⟨e, r⟩]) = S.closed tr ++ (S.closes e).toList := by
      unfold closed
      rw [List.filterMap_append]
      cases hc : S.closes e <;> simp [hc]
    have hstep : (S.openAfter tr ++ (S.opens e r).toList).Perm
        ((S.closes e).toList ++ S.step (S.openAfter tr) e r) := by
      unfold step
      cases hc : S.closes e with
      | none => exact List.perm_append_comm
      | some c =>
        -- the resource that is closed is the last one that was opened
        have hhead := h.closes tr e r [] rfl c (by simp [hc])
        obtain ⟨rest, hrest⟩ := List.head?_eq_some_iff.mp hhead
        rw [hrest]
        exact List.Perm.cons c List.perm_append_comm
    rw [hopened, hclosed, List.append_assoc]
    refine (hbefore.append_right _).trans ?_
    rw [List.append_assoc]
    exact hstep.append_left _

end Scoping

/-! ## Programs in scopes -/

/-- A program may use what is open, and close what was opened last. -/
def scoping : Protocol E R (List H) where
  allows o e := (∀ h ∈ S.uses e, h ∈ o) ∧ ∀ h ∈ S.closes e, o.head? = some h
  next o e r := some (S.step o e r)

/-- From the open resources `o` the program ends with `o'`, when it ends with a value of `V`. -/
def Leaves (V : α → Prop) (p : Prog E R α) (o o' : List H) : Prop :=
  Follows (scoping S) (fun last a => V a → last = o') p o

section Rules

variable {S} {V : α → Prop} {W : β → Prop} {o o' : List H}

theorem leaves_ret {a : α} (h : V a → o = o') : Leaves S V (.ret a) o o' := h

theorem leaves_act {e : E} {k : R e → Prog E R α} (huses : ∀ h ∈ S.uses e, h ∈ o)
    (hcloses : S.closes e = none) (hopens : ∀ r, S.opens e r = none)
    (h : ∀ r, Leaves S V (k r) o o') : Leaves S V (.act e k) o o' := by
  refine ⟨⟨huses, by simp [hcloses]⟩, fun r last hn => ?_⟩
  simp only [scoping, Scoping.step, hcloses, hopens] at hn
  cases hn
  exact h r

/-- An action that may open a resource, which is open for the rest of the program. -/
theorem leaves_open {e : E} {k : R e → Prog E R α} (huses : ∀ h ∈ S.uses e, h ∈ o)
    (hcloses : S.closes e = none)
    (h : ∀ r, Leaves S V (k r) ((S.opens e r).toList ++ o) o') : Leaves S V (.act e k) o o' := by
  refine ⟨⟨huses, by simp [hcloses]⟩, fun r last hn => ?_⟩
  simp only [scoping, Scoping.step, hcloses] at hn
  cases hn
  exact h r

theorem leaves_close {e : E} {k : R e → Prog E R α} {h : H} (huses : ∀ h' ∈ S.uses e, h' ∈ h :: o)
    (hcloses : S.closes e = some h) (hopens : ∀ r, S.opens e r = none)
    (hk : ∀ r, Leaves S V (k r) o o') : Leaves S V (.act e k) (h :: o) o' := by
  refine ⟨⟨huses, by simp [hcloses]⟩, fun r last hn => ?_⟩
  simp only [scoping, Scoping.step, hcloses, hopens] at hn
  cases hn
  exact hk r

/-- A sequence. When its first part ends with no value of `W`, the whole ends with none of `V`. -/
theorem leaves_seq {p : Prog E R β} {f : β → Prog E R α} {o1 : List H} (hp : Leaves S W p o o1)
    (h : ∀ b, W b → Leaves S V (f b) o1 o')
    (hnot : ∀ b, ¬ W b → ∃ a, f b = .ret a ∧ ¬ V a) : Leaves S V (p >>= f) o o' := by
  refine follows_seq hp fun last b hb => ?_
  by_cases hw : W b
  · rw [hb hw]
    exact h b hw
  · obtain ⟨a, hf, ha⟩ := hnot b hw
    rw [hf]
    exact leaves_ret fun hv => absurd hv ha

/-- An action on open resources that neither opens nor closes one. -/
theorem scoping_passes {e : E} (huses : ∀ h ∈ S.uses e, h ∈ o) (hopens : ∀ r, S.opens e r = none)
    (hcloses : S.closes e = none) : (scoping S).Passes o e := by
  refine ⟨⟨huses, by simp [hcloses]⟩, fun r last hn => ?_⟩
  simp only [scoping, Scoping.step, hcloses, hopens] at hn
  cases hn
  rfl

theorem Scoping.Free.passes {e : E} (h : S.Free e) : (scoping S).Passes o e :=
  scoping_passes (by simp [h.uses]) h.opens h.closes

/-- A program that leaves the open resources as they are. -/
theorem leaves_within {A : E → Prop} {p : Prog E R β} {f : β → Prog E R α}
    (hp : Within A W p) (hA : ∀ e, A e → (scoping S).Passes o e)
    (h : ∀ b, W b → Leaves S V (f b) o o') : Leaves S V (p >>= f) o o' := by
  refine follows_seq (follows_of_passes (Q := fun last b => last = o ∧ W b) hp hA
    fun b hb => ⟨rfl, hb⟩) ?_
  rintro last b ⟨rfl, hb⟩
  exact h b hb

end Rules

/-! ## The traces -/

section Traces

variable {S} {V : α → Prop} {p q : Prog E R α} {o' : List H} {tr : List (Σ e, R e)}

theorem Leaves.follows (h : Leaves S V p [] o') (htr : Traces p tr q) :
    Follows (scoping S) (fun last a => V a → last = o') q (S.openAfter tr) := by
  obtain ⟨g, rfl, hf⟩ := follows_traces (I := fun tr g => g = S.openAfter tr)
    (fun {tr g e} r hi _ => ⟨_, rfl, by rw [hi, Scoping.openAfter_snoc]⟩) h rfl htr
  exact hf

theorem Leaves.inScope (h : Leaves S V p [] o') (htr : Traces p tr q) : S.InScope tr := by
  have hallows : ∀ {tr1 e r tr2}, tr = tr1 ++ ⟨e, r⟩ :: tr2 →
      (scoping S).allows (S.openAfter tr1) e := by
    intro tr1 e r tr2 heq
    obtain ⟨k, hk⟩ := traces_split htr heq
    exact (h.follows hk).1
  exact ⟨fun _ _ _ _ heq => (hallows heq).1, fun _ _ _ _ heq => (hallows heq).2⟩

/-- A program that ends with nothing open has released what it opened. -/
theorem Leaves.tidy {a : α} (h : Leaves S V p [] []) (htr : Traces p tr (.ret a)) (ha : V a) :
    S.Tidy tr := by
  have hscope := h.inScope htr
  have hperm := hscope.perm
  have hend : S.openAfter tr = [] := h.follows htr ha
  rw [hend, List.append_nil] at hperm
  exact ⟨hscope, hperm⟩

end Traces

end scopes
