-- A copy of a changing map that is made from a snapshot and a log of changes,
-- one key at a time. The snapshot may be taken anywhere in the log: a key that
-- comes and goes in turn has the right value once its changes are replayed.
import Mathlib.Tactic.Common

namespace replay

variable {V : Type}

/-- The changes of one key, `true` where it comes and `false` where it goes, turn about, from
`there` to `there'`. -/
def Leads : Bool → List Bool → Bool → Prop
  | there, [], there' => there = there'
  | there, change :: rest, there' => change = !there ∧ Leads change rest there'

/-- The copy of one key against its value `now`, with changes that are not replayed. `pending`
says that the key is in the snapshot and its value is still to be read. -/
def Settles (pending : Prop) (copy now : Option V) : List Bool → Prop
  | [] => (pending → now ≠ none) ∧ (copy = now ∨ (pending ∧ copy = none))
  | [change] => change = true → copy = none ∨ copy = now
  | _ :: _ :: _ => True

/-! ## The log -/

theorem leads_tail {there there' change : Bool} {rest : List Bool}
    (h : Leads there (change :: rest) there') : Leads change rest there' := h.2

/-- One more change goes on from where the changes lead. -/
theorem leads_snoc {there there' : Bool} {changes : List Bool} (h : Leads there changes there') :
    Leads there (changes ++ [!there']) (!there') := by
  induction changes generalizing there with
  | nil =>
    rw [show there = there' from h]
    exact ⟨rfl, rfl⟩
  | cons change rest ih => exact ⟨h.1, ih h.2⟩

/-- The last change says whether the key is there. -/
theorem leads_last {there there' change : Bool} (h : Leads there [change] there') :
    change = there' := h.2

/-! ## The copy -/

variable {pending pending' : Prop} {copy copy' now : Option V} {there : Bool} {changes : List Bool}

/-- A copy with nothing left to replay and nothing to read is right. -/
theorem settles_done (h : Settles pending copy now []) (hpending : ¬ pending) : copy = now :=
  h.2.resolve_right fun hcopy => hpending hcopy.1

/-- The snapshot is taken: it has the keys that are there. -/
theorem settles_snapshot (hleads : Leads there changes now.isSome)
    (hpending : pending ↔ now ≠ none) : Settles pending none now changes := by
  match changes, hleads with
  | [], _ =>
    refine ⟨hpending.mp, ?_⟩
    cases now with
    | none => exact Or.inl rfl
    | some value => exact Or.inr ⟨hpending.mpr nofun, rfl⟩
  | [_], _ => exact fun _ => Or.inl rfl
  | _ :: _ :: _, _ => trivial

/-- The value of a key of the snapshot is read: it is the value that the key has now. -/
theorem settles_read (h : Settles pending copy now changes) (hnow : now ≠ none) :
    Settles pending' (copy.or now) now changes := by
  have hread : copy = none ∨ copy = now → copy.or now = now := by
    rintro (rfl | rfl)
    · exact Option.none_or
    · exact Option.or_self
  match changes, h with
  | [], h => exact ⟨fun _ => hnow, Or.inl (hread (h.2.symm.imp_left fun hcopy => hcopy.2))⟩
  | [_], h => exact fun hcomes => Or.inr (hread (h hcomes))
  | _ :: _ :: _, _ => trivial

/-- A key of the snapshot that has gone needs no value: that it went is in the log. -/
theorem settles_gone (h : Settles pending copy none changes) (hpending : pending)
    (hleads : Leads there changes false) : Settles pending' copy' none changes := by
  match changes, h, hleads with
  | [], h, _ => exact absurd rfl (h.1 hpending)
  | [_], _, hleads => exact fun hcomes => absurd ((leads_last hleads).symm.trans hcomes) (by decide)
  | _ :: _ :: _, _, _ => trivial

/-- The key comes. -/
theorem settles_comes (h : Settles pending copy none changes) (value : V) :
    Settles pending copy (some value) (changes ++ [true]) := by
  match changes, h with
  | [], h => exact fun _ => Or.inl (h.2.elim id fun hcopy => hcopy.2)
  | [_], _ => trivial
  | _ :: _ :: _, _ => trivial

/-- The key goes. -/
theorem settles_goes (pending : Prop) (copy : Option V) (changes : List Bool) :
    Settles pending copy none (changes ++ [false]) := by
  match changes with
  | [] => exact nofun
  | [_] => trivial
  | _ :: _ :: _ => trivial

/-- A replayed arrival of a key that the copy has: nothing is to be done. -/
theorem settles_known {value : V} (h : Settles pending (some value) now (true :: changes))
    (hleads : Leads there (true :: changes) now.isSome) :
    Settles pending (some value) now changes := by
  match changes, h, hleads with
  | [], h, _ =>
    have hnow : some value = now := (h rfl).resolve_left nofun
    exact ⟨fun _ => hnow ▸ nofun, Or.inl hnow⟩
  | [_], _, hleads => exact fun hcomes => absurd (hleads.2.1.symm.trans hcomes) (by decide)
  | _ :: _ :: _, _, _ => trivial

/-- A replayed arrival of a key that the copy has not: its value is read, which gives the value
of now when there is one. -/
theorem settles_arrived (hleads : Leads there (true :: changes) now.isSome)
    (hread : now ≠ none → copy = now) : Settles pending copy now changes := by
  match changes, hleads with
  | [], hleads =>
    have hnow : now ≠ none := by
      intro hnone
      rw [hnone] at hleads
      exact absurd (leads_last hleads) (by simp)
    exact ⟨fun _ => hnow, Or.inl (hread hnow)⟩
  | [_], hleads => exact fun hcomes => absurd (hleads.2.1.symm.trans hcomes) (by decide)
  | _ :: _ :: _, _ => trivial

/-- A replayed removal takes the key out of the copy. -/
theorem settles_removed (hleads : Leads there (false :: changes) now.isSome)
    (hpending : ¬ pending) : Settles pending none now changes := by
  match changes, hleads with
  | [], hleads =>
    cases now with
    | none => exact ⟨fun hp => absurd hp hpending, Or.inl rfl⟩
    | some value => exact absurd (leads_last hleads) (by simp)
  | [_], _ => exact fun _ => Or.inl rfl
  | _ :: _ :: _, _ => trivial

end replay
