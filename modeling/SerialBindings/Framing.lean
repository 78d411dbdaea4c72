-- Frames in a stream: each one ends with the separator, at the first place where the bytes
-- since the frame before end with it. A stream has one way only to be cut into frames.
import Mathlib.Data.List.Basic

namespace framing

variable {α : Type} (separator : List α)

/-! ## Frames -/

/-- The messages one after another, each with the separator behind it. -/
def encode (messages : List (List α)) : List α := (messages.map (· ++ separator)).flatten

/-- No start of the bytes ends with the separator. -/
def Unended (bytes : List α) : Prop := ∀ k ≤ bytes.length, ¬ separator <:+ bytes.take k

/-- The bytes end with the separator, and no earlier. -/
structure IsFrame (bytes : List α) : Prop where
  ends : separator <:+ bytes
  first : ∀ k < bytes.length, ¬ separator <:+ bytes.take k

instance [DecidableEq α] (bytes : List α) : Decidable (IsFrame separator bytes) :=
  decidable_of_iff (separator <:+ bytes ∧ ∀ k < bytes.length, ¬ separator <:+ bytes.take k)
    ⟨fun h => ⟨h.1, h.2⟩, fun h => ⟨h.ends, h.first⟩⟩

/-- A message that can be told from the separator behind it. -/
abbrev Framed (message : List α) : Prop := IsFrame separator (message ++ separator)

variable {separator} {acc bytes rest : List α} {frames : List (List α)}

theorem Unended.not_ends (h : Unended separator bytes) : ¬ separator <:+ bytes := by
  have hall := h bytes.length (Nat.le_refl _)
  rwa [List.take_length] at hall

theorem unended_nil (h : separator ≠ []) : Unended separator [] := by
  intro k _
  simpa using h

theorem IsFrame.ne_nil (h : IsFrame separator bytes) (hseparator : separator ≠ []) :
    bytes ≠ [] := by
  rintro rfl
  exact hseparator (List.suffix_nil.mp h.ends)

/-! ## Cutting a stream -/

variable [DecidableEq α]

/-- The frames of what comes after the start of a frame `acc`, and what is left. -/
def decodeFrom (separator : List α) : List α → List α → List (List α) × List α
  | acc, [] => ([], acc)
  | acc, a :: rest =>
    if separator <:+ acc ++ [a] then
      let later := decodeFrom separator [] rest
      ((acc ++ [a]) :: later.1, later.2)
    else decodeFrom separator (acc ++ [a]) rest

def decode (separator stream : List α) : List (List α) × List α := decodeFrom separator [] stream

/-- A stream without a separator is no frame. -/
theorem decodeFrom_unended (stream : List α) (h : Unended separator (acc ++ stream)) :
    decodeFrom separator acc stream = ([], acc ++ stream) := by
  induction stream generalizing acc with
  | nil => simp [decodeFrom]
  | cons a stream ih =>
    have hno : ¬ separator <:+ acc ++ [a] := by
      have hstart := h (acc.length + 1) (by simp)
      rwa [List.take_length_add_append, List.take_succ_cons, List.take_zero] at hstart
    unfold decodeFrom
    rw [if_neg hno, ih (by simpa using h)]
    simp

/-- A frame that begins with `acc` is the first one that is cut. -/
theorem decodeFrom_frame (stream : List α) (h : IsFrame separator (acc ++ stream))
    (hmore : stream ≠ []) :
    decodeFrom separator acc (stream ++ rest) =
      ((acc ++ stream) :: (decode separator rest).1, (decode separator rest).2) := by
  induction stream generalizing acc with
  | nil => exact absurd rfl hmore
  | cons a stream ih =>
    rw [List.cons_append]
    unfold decodeFrom
    by_cases hlast : stream = []
    · subst hlast
      rw [if_pos h.ends]
      simp [decode]
    · have hno : ¬ separator <:+ acc ++ [a] := by
        have hpos := List.length_pos_iff.mpr hlast
        have hstart := h.first (acc.length + 1) (by simp; omega)
        rwa [List.take_length_add_append, List.take_succ_cons, List.take_zero] at hstart
      rw [if_neg hno, ih (by simpa using h) hlast]
      simp

theorem decode_frame (h : IsFrame separator bytes) (hseparator : separator ≠ []) :
    decode separator (bytes ++ rest) =
      (bytes :: (decode separator rest).1, (decode separator rest).2) :=
  decodeFrom_frame bytes h (h.ne_nil hseparator)

/-- The frames of a stream are the ones that it was made of. -/
theorem decode_frames (hseparator : separator ≠ []) (hframes : ∀ f ∈ frames, IsFrame separator f)
    (hrest : Unended separator rest) :
    decode separator (frames.flatten ++ rest) = (frames, rest) := by
  induction frames with
  | nil => exact decodeFrom_unended rest hrest
  | cons f frames ih =>
    have hlater := ih fun g hg => hframes g (List.mem_cons_of_mem _ hg)
    rw [List.flatten_cons, List.append_assoc, decode_frame (hframes f List.mem_cons_self)
      hseparator, hlater]

end framing
