-- Read-modify-writes of one shared value without a lock. Each thread reads
-- the value and later writes what it makes of it, and two such pairs keep
-- both changes exactly when they do not overlap, or the lost one is none.
import Mathlib.Data.List.Basic
import Mathlib.Logic.Function.Basic

namespace programs

/-- A thread reads the shared value, or writes its change of what it read last. -/
inductive Access (T : Type) : Type
  | read (t : T)
  | write (t : T)
  deriving DecidableEq

variable {T S : Type}

def Access.thread : Access T → T
  | .read t => t
  | .write t => t

section Replay

variable [DecidableEq T]

/-- The shared value after the accesses, and what each thread read last. The thread `t` turns
what it read into `u t` of it. -/
def replay (u : T → S → S) (s : S) (accesses : List (Access T)) : S × (T → S) :=
  accesses.foldl (fun p access => match access with
    | .read t => (p.1, Function.update p.2 t p.1)
    | .write t => (u t (p.2 t), p.2)) (s, fun _ => s)

variable (u : T → S → S) (s : S) (accesses : List (Access T)) (t : T)

@[simp] theorem replay_nil : replay u s ([] : List (Access T)) = (s, fun _ => s) := rfl

@[simp] theorem replay_read : replay u s (accesses ++ [.read t]) =
    ((replay u s accesses).1,
      Function.update (replay u s accesses).2 t (replay u s accesses).1) := by
  unfold replay
  rw [List.foldl_append]
  rfl

@[simp] theorem replay_write : replay u s (accesses ++ [.write t]) =
    (u t ((replay u s accesses).2 t), (replay u s accesses).2) := by
  unfold replay
  rw [List.foldl_append]
  rfl

end Replay

/-! ## Interleavings of two lists -/

/-- `zs` is an interleaving of `xs` and `ys`. -/
inductive Interleaving {α : Type} : List α → List α → List α → Prop
  | nil : Interleaving [] [] []
  | left {x : α} {xs ys zs : List α} : Interleaving xs ys zs → Interleaving (x :: xs) ys (x :: zs)
  | right {y : α} {xs ys zs : List α} : Interleaving xs ys zs → Interleaving xs (y :: ys) (y :: zs)

/-- Every list is an interleaving of its elements with a property and the others. -/
theorem interleaving_filter {α : Type} (p : α → Bool) (zs : List α) :
    Interleaving (zs.filter p) (zs.filter fun z => !p z) zs := by
  induction zs with
  | nil => exact .nil
  | cons z zs ih =>
    cases hz : p z
    · rw [List.filter_cons_of_neg (by rw [hz]; exact Bool.false_ne_true),
        List.filter_cons_of_pos (by rw [hz]; rfl)]
      exact .right ih
    · rw [List.filter_cons_of_pos hz,
        List.filter_cons_of_neg (by rw [hz]; exact Bool.false_ne_true)]
      exact .left ih

/-- The six interleavings of two pairs. -/
theorem interleaving_pairs {α : Type} {x1 x2 y1 y2 : α} {zs : List α}
    (h : Interleaving [x1, x2] [y1, y2] zs) :
    zs = [x1, x2, y1, y2] ∨ zs = [x1, y1, x2, y2] ∨ zs = [x1, y1, y2, x2] ∨
      zs = [y1, x1, x2, y2] ∨ zs = [y1, x1, y2, x2] ∨ zs = [y1, y2, x1, x2] := by
  cases h <;> rename_i h <;> cases h <;> rename_i h <;> cases h <;> rename_i h <;> cases h <;>
    rename_i h <;> cases h <;> simp

/-! ## Two threads -/

/-- The value `s'` holds both changes, and one order of the two whole pairs gives it from `s`. -/
def HoldsBoth (u : T → S → S) (a b : T) (s s' : S) : Prop :=
  u a s' = s' ∧ u b s' = s' ∧ (s' = u b (u a s) ∨ s' = u a (u b s))

/-- The pairs do not overlap, or the change that is overwritten changes nothing. -/
def NothingLost (u : T → S → S) (a b : T) (s : S) (accesses : List (Access T)) : Prop :=
  [.write a, .read b].Sublist accesses ∨ [.write b, .read a].Sublist accesses ∨
    ([.write a, .write b].Sublist accesses ∧ u a s = s) ∨
    ([.write b, .write a].Sublist accesses ∧ u b s = s)

section Two

variable {u : T → S → S} {a b : T}

/-- Changes that commute and that can be made twice hold both in either order. -/
theorem holdsBoth_of_order (hcomm : ∀ s, u a (u b s) = u b (u a s)) (ha : ∀ s, u a (u a s) = u a s)
    (hb : ∀ s, u b (u b s) = u b s) (s : S) : HoldsBoth u a b s (u b (u a s)) :=
  ⟨by rw [hcomm, ha], hb _, Or.inl rfl⟩

/-- When the change of `b` is the last one, and was made of `s`, that of `a` holds only if it
changed nothing. -/
theorem holdsBoth_of_overwritten (hcomm : ∀ s, u a (u b s) = u b (u a s))
    (ha : ∀ s, u a (u a s) = u a s) (hb : ∀ s, u b (u b s) = u b s)
    (hrecover : ∀ s, u b (u a s) = u b s → u a s = s) (s : S) :
    HoldsBoth u a b s (u b s) ↔ u a s = s := by
  constructor
  · rintro ⟨-, -, h | h⟩
    · exact hrecover s h.symm
    · rw [hcomm] at h
      exact hrecover s h.symm
  · intro h
    have hboth := holdsBoth_of_order hcomm ha hb s
    rw [h] at hboth
    exact hboth

theorem holdsBoth_comm {s s' : S} : HoldsBoth u a b s s' ↔ HoldsBoth u b a s s' := by
  unfold HoldsBoth
  rw [or_comm, ← and_assoc, and_comm (a := u a s' = s'), and_assoc]

/-- Two read-modify-writes, in every interleaving: both changes are there afterwards, as one
order of the two would leave them, exactly if nothing was lost. -/
theorem two_changes_hold_iff [DecidableEq T] (hab : a ≠ b) (hcomm : ∀ s, u a (u b s) = u b (u a s))
    (ha : ∀ s, u a (u a s) = u a s) (hb : ∀ s, u b (u b s) = u b s)
    (hreca : ∀ s, u b (u a s) = u b s → u a s = s) (hrecb : ∀ s, u a (u b s) = u a s → u b s = s)
    {accesses : List (Access T)} (s : S)
    (h : Interleaving [.read a, .write a] [.read b, .write b] accesses) :
    HoldsBoth u a b s (replay u s accesses).1 ↔ NothingLost u a b s accesses := by
  have hba := Ne.symm hab
  have hfirst := holdsBoth_of_order hcomm ha hb s
  have hsecond := holdsBoth_comm.mp (holdsBoth_of_order (fun s => (hcomm s).symm) hb ha s)
  have hloses := holdsBoth_of_overwritten hcomm ha hb hreca s
  have hloses' := holdsBoth_comm.trans
    (holdsBoth_of_overwritten (fun s => (hcomm s).symm) hb ha hrecb s)
  unfold NothingLost
  rcases interleaving_pairs h with rfl | rfl | rfl | rfl | rfl | rfl
  · simp [replay, hfirst]
  · simp [replay, List.cons_sublist_cons', hab, hba, hloses]
  · simp [replay, List.cons_sublist_cons', hab, hba, hloses']
  · simp [replay, List.cons_sublist_cons', hab, hba, hloses]
  · simp [replay, List.cons_sublist_cons', hab, hba, hloses']
  · simp [replay, hsecond]

end Two

end programs
