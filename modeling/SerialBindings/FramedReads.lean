-- Reads until a sequence, one call after another on a port whose requests never fail and are
-- never aborted, and give nothing when they time out: the calls cut the stream into its frames,
-- and together they lose no byte, wherever the timeouts and the buffers end a call.
import SerialBindings.FirstMatch
import SerialBindings.Framing

open programs memory framing

namespace cpp_bindings_windows

/-! ## The calls -/

/-- A call, what stood in its buffer, and the `supply` of bytes that come before its requests
time out. -/
structure ReadCall where
  handle : Int64
  pointer : Pointer
  buffer_size : Int32
  timeout_config : Option SerialTimeoutConfig
  callback : Callback
  buffer : Nat → UInt8
  supply : Nat

namespace ReadCall

variable (core : CppCore) (sequence : List UInt8) (sequence_size : Int32)

def program (call : ReadCall) : Api Int :=
  serialReadUntilSequence core call.handle call.pointer call.buffer_size call.timeout_config
    (some sequence) sequence_size call.callback

/-- The port of the call, when the bytes before the place `i` of the stream were taken. -/
def port (call : ReadCall) (stream : Nat → UInt8) (i : Nat) : Port :=
  { incoming := fun a => stream (i + a), buffer := call.buffer }

abbrev Valid (call : ReadCall) : Prop :=
  Accepted core call.handle call.pointer call.buffer_size call.timeout_config sequence sequence_size

/-- The bytes fit into the buffer of the call, and come before it times out. -/
structure Holds (call : ReadCall) (bytes : List UInt8) : Prop where
  room : (bytes.length : Int) ≤ call.buffer_size.toInt
  supplied : bytes.length ≤ call.supply

end ReadCall

/-- The calls, one after another, from the place `i` of the stream to the place `j`. Each one
gives the bytes that it returns in its buffer, and the next one begins where the driver is. The
driver answers as `Port.prompt` says: no request fails or is aborted, and one that times out
moves nothing. -/
inductive Reads (core : CppCore) (sequence : List UInt8) (sequence_size : Int32)
    (stream : Nat → UInt8) : Nat → List ReadCall → List (List UInt8) → Nat → Prop
  | nil {i : Nat} : Reads core sequence sequence_size stream i [] [] i
  | cons {i j : Nat} {call : ReadCall} {calls : List ReadCall} {results : List (List UInt8)}
      {p : Port} {r : Int}
      (exec : Exec (Port.nextByte call.supply) (call.port stream i)
        (call.program core sequence sequence_size) p r)
      (later : Reads core sequence sequence_size stream (i + p.moved.length) calls results j) :
      Reads core sequence sequence_size stream i (call :: calls)
        (cells p.buffer 0 r.toNat :: results) j

variable {core : CppCore} {sequence : List UInt8} {sequence_size : Int32} {stream : Nat → UInt8}
  {i j : Nat} {call : ReadCall} {calls : List ReadCall} {results : List (List UInt8)}
  {p : Port} {r : Int}

/-! ## One call -/

/-- The first match is a frame. -/
theorem FirstMatch.isFrame {k : Nat} (h : FirstMatch stream sequence k) :
    IsFrame sequence (cells stream 0 k) := by
  refine ⟨h.ends, fun m hm => ?_⟩
  rw [cells_length] at hm
  rw [cells_take, Nat.min_eq_left (by omega)]
  exact h.first m hm

/-- The `k` bytes that a call gives: a frame, or all that it could take of one. -/
structure ReadCall.Gives (call : ReadCall) (sequence : List UInt8) (stream : Nat → UInt8)
    (i k : Nat) : Prop where
  room : (k : Int) ≤ call.buffer_size.toInt
  supplied : k ≤ call.supply
  cut : IsFrame sequence (cells stream i k) ∨
    (Unended sequence (cells stream i k) ∧ ((k : Int) = call.buffer_size.toInt ∨ k = call.supply))

/-- One call takes its bytes from the stream and gives them. -/
theorem ReadCall.gives (h : call.Valid core sequence sequence_size)
    (hexec : Exec (Port.nextByte call.supply) (call.port stream i)
      (call.program core sequence sequence_size) p r) :
    ∃ k : Nat, r = k ∧ p.moved.length = k ∧ cells p.buffer 0 k = cells stream i k ∧
      call.Gives sequence stream i k := by
  have hfollows := serialReadUntilSequence_finds call.callback (fun a => stream (i + a))
    call.buffer call.supply h
  have hroom := h.some_room
  obtain ⟨k, hr, hkn, hks, hheard, hend⟩ := follows_exec hfollows hexec
  have hbuffered := hheard.buffered
  rw [cells_shift] at hbuffered
  refine ⟨k, hr, hheard.length, hbuffered, by omega, hks, ?_⟩
  rcases hend with hmatch | ⟨hno, hlast⟩
  · have hframe := hmatch.isFrame
    rw [cells_shift] at hframe
    exact Or.inl hframe
  · refine Or.inr ⟨fun m hm => ?_, by omega⟩
    rw [cells_length] at hm
    have hnone := hno m hm
    rwa [cells_shift, ← Nat.min_eq_left hm, ← cells_take] at hnone

/-- A call that can take the whole next frame gives it. -/
theorem ReadCall.Gives.frame {k n : Nat} (h : call.Gives sequence stream i k)
    (hframe : IsFrame sequence (cells stream i n)) (hholds : call.Holds (cells stream i n)) :
    k = n := by
  have hroom := hholds.room
  have hsupplied := hholds.supplied
  rw [cells_length] at hroom hsupplied
  rcases h.cut with hcut | ⟨hcut, hlast⟩
  · rcases Nat.lt_trichotomy k n with hlt | heq | hgt
    · have hno := hframe.first k (by simpa using hlt)
      rw [cells_take, Nat.min_eq_left (by omega)] at hno
      exact absurd hcut.ends hno
    · exact heq
    · have hno := hcut.first n (by simpa using hgt)
      rw [cells_take, Nat.min_eq_left (by omega)] at hno
      exact absurd hframe.ends hno
  · have hle : n ≤ k := by omega
    have hno := hcut n (by simpa using hle)
    rw [cells_take, Nat.min_eq_left hle] at hno
    exact absurd hframe.ends hno

/-! ## The run -/

/-- Valid calls always come back. -/
theorem reads_run (h : ∀ call ∈ calls, call.Valid core sequence sequence_size) (i : Nat) :
    ∃ results j, Reads core sequence sequence_size stream i calls results j := by
  induction calls generalizing i with
  | nil => exact ⟨[], i, .nil⟩
  | cons call calls ih =>
    have hfollows := serialReadUntilSequence_finds call.callback (fun a => stream (i + a))
      call.buffer call.supply (h call List.mem_cons_self)
    obtain ⟨p, r, hexec⟩ := follows_runs hfollows Port.listening_answers
    obtain ⟨results, j, hlater⟩ :=
      ih (fun call hcall => h call (List.mem_cons_of_mem _ hcall)) (i + p.moved.length)
    exact ⟨_, j, .cons hexec hlater⟩

/-- Together the calls give the part of the stream that they took, each one a frame or a piece
without a match. -/
theorem Reads.lossless (hreads : Reads core sequence sequence_size stream i calls results j)
    (h : ∀ call ∈ calls, call.Valid core sequence sequence_size) :
    i ≤ j ∧ results.flatten = cells stream i (j - i) ∧
      ∀ result ∈ results, IsFrame sequence result ∨ Unended sequence result := by
  induction hreads with
  | nil => simp
  | @cons i j call calls results p r hexec _ ih =>
    obtain ⟨hle, hflatten, hcut⟩ := ih fun call hcall => h call (List.mem_cons_of_mem _ hcall)
    obtain ⟨k, rfl, hmoved, hgiven, hgives⟩ := ReadCall.gives (h call List.mem_cons_self) hexec
    rw [hmoved] at hle hflatten
    rw [Int.toNat_natCast, hgiven]
    refine ⟨by omega, ?_, ?_⟩
    · have hparts : j - i = k + (j - (i + k)) := by omega
      rw [List.flatten_cons, hflatten, hparts, cells_add]
    · intro result hresult
      rcases List.mem_cons.mp hresult with rfl | hlater
      · exact hgives.cut.imp_right And.left
      · exact hcut result hlater

/-- Calls that can take the frames of the stream give these. -/
theorem Reads.frames (hreads : Reads core sequence sequence_size stream i calls results j)
    (h : ∀ call ∈ calls, call.Valid core sequence sequence_size) {frames : List (List UInt8)}
    (hframes : ∀ f ∈ frames, IsFrame sequence f)
    (hsent : cells stream i frames.flatten.length = frames.flatten)
    (hholds : List.Forall₂ ReadCall.Holds calls frames) :
    results = frames ∧ j = i + frames.flatten.length := by
  induction hreads generalizing frames with
  | nil =>
    cases hholds
    simp
  | @cons i j call calls results p r hexec _ ih =>
    obtain ⟨frame, frames, hfirst, hlater, rfl⟩ := List.forall₂_cons_left_iff.mp hholds
    rw [List.flatten_cons, List.length_append, cells_add] at hsent
    obtain ⟨hhere, hrest⟩ := List.append_inj hsent (by simp)
    obtain ⟨k, rfl, hmoved, hgiven, hgives⟩ := ReadCall.gives (h call List.mem_cons_self) hexec
    have hframe := hframes frame List.mem_cons_self
    have hk : k = frame.length := hgives.frame (by rwa [hhere]) (by rwa [hhere])
    subst hk
    rw [hmoved] at ih
    obtain ⟨hresults, hj⟩ := ih (fun call hcall => h call (List.mem_cons_of_mem _ hcall))
      (fun f hf => hframes f (List.mem_cons_of_mem _ hf)) hrest hlater
    rw [Int.toNat_natCast, hgiven, hhere, hresults, List.flatten_cons, List.length_append]
    exact ⟨rfl, by omega⟩

theorem Reads.length (hreads : Reads core sequence sequence_size stream i calls results j) :
    results.length = calls.length := by
  induction hreads with
  | nil => rfl
  | cons _ _ ih => simp [ih]

/-- Reads until a sequence, one after another, with any buffers, on a port whose requests give the
next byte or time out with nothing, at any place. They come back, and together they give each byte
that they took from the stream once and in its order. When each of them found the sequence, they
give the frames of that part of the stream. -/
theorem reads_lose_no_byte (core : CppCore) (sequence : List UInt8) (sequence_size : Int32)
    (stream : Nat → UInt8) (i : Nat) (calls : List ReadCall)
    (h : ∀ call ∈ calls, call.Valid core sequence sequence_size) :
    (∃ results j, Reads core sequence sequence_size stream i calls results j) ∧
    ∀ results j, Reads core sequence sequence_size stream i calls results j →
      i ≤ j ∧ results.length = calls.length ∧ results.flatten = cells stream i (j - i) ∧
      ((∀ result ∈ results, sequence <:+ result) →
        decode sequence (cells stream i (j - i)) = (results, [])) := by
  refine ⟨reads_run h i, fun results j hreads => ?_⟩
  obtain ⟨hle, hflatten, hcut⟩ := hreads.lossless h
  refine ⟨hle, hreads.length, hflatten, fun hall => ?_⟩
  have hframes : ∀ f ∈ results, IsFrame sequence f := by
    intro f hf
    rcases hcut f hf with hframe | hunended
    · exact hframe
    · exact absurd (hall f hf) hunended.not_ends
  rw [← hflatten]
  cases calls with
  | nil =>
    have hnone := List.length_eq_zero_iff.mp hreads.length
    rw [hnone]
    rfl
  | cons call calls =>
    have hsequence := (h call List.mem_cons_self).some_byte
    have hdecoded := decode_frames hsequence hframes (unended_nil hsequence)
    rwa [List.append_nil] at hdecoded

/-- A device that has two bytes before the first timeout. -/
def slowCall : ReadCall :=
  { handle := 5, pointer := some 1, buffer_size := 8, timeout_config := some ⟨100, 1⟩,
    callback := none, buffer := fun _ => 0, supply := 2 }

def quickCall : ReadCall := { slowCall with supply := 100 }

theorem a_timeout_loses_no_byte :
    ∃ results j, Reads sampleCore [1, 2] 2 UInt8.ofNat 0 [slowCall, quickCall] results j ∧
      results.length = 2 ∧ results.flatten = cells UInt8.ofNat 0 j := by
  have hvalid : ∀ call ∈ [slowCall, quickCall], call.Valid sampleCore [1, 2] 2 := by
    intro call hcall
    rcases List.mem_pair.mp hcall with rfl | rfl
    · exact ⟨by decide, rfl, by decide, by decide, by decide, by decide⟩
    · exact ⟨by decide, rfl, by decide, by decide, by decide, by decide⟩
  obtain ⟨⟨results, j, hreads⟩, hall⟩ :=
    reads_lose_no_byte sampleCore [1, 2] 2 UInt8.ofNat 0 [slowCall, quickCall] hvalid
  obtain ⟨-, hlength, hflatten, -⟩ := hall results j hreads
  exact ⟨results, j, hreads, hlength, hflatten⟩

/-- Messages that are sent with the sequence behind each one, and that can be told from it. Reads
until the sequence, each with room and time for its message, of which no request fails or is
aborted, give the messages back, one with each call, and take no byte behind the last one. -/
theorem encoded_messages_come_back (core : CppCore) (sequence : List UInt8)
    (sequence_size : Int32) (stream : Nat → UInt8) (i : Nat) (calls : List ReadCall)
    (messages : List (List UInt8)) (h : ∀ call ∈ calls, call.Valid core sequence sequence_size)
    (hframed : ∀ m ∈ messages, Framed sequence m)
    (hsent : cells stream i (encode sequence messages).length = encode sequence messages)
    (hholds : List.Forall₂ ReadCall.Holds calls (messages.map (· ++ sequence))) :
    (∃ results j, Reads core sequence sequence_size stream i calls results j) ∧
    ∀ results j, Reads core sequence sequence_size stream i calls results j →
      results = messages.map (· ++ sequence) ∧ j = i + (encode sequence messages).length := by
  have hframes : ∀ f ∈ messages.map (· ++ sequence), IsFrame sequence f := by
    simpa using hframed
  exact ⟨reads_run h i, fun results j hreads => hreads.frames h hframes hsent hholds⟩

/-- Two messages on the line, with the bytes 1 and 2 behind each one. -/
def twoMessages : List (List UInt8) := [[0], [3, 1, 4]]

theorem two_messages_come_back :
    ∃ results, Reads sampleCore [1, 2] 2 (fun a => (encode [1, 2] twoMessages)[a]?.getD 0) 0
      [quickCall, quickCall] results 8 ∧ results = [[0, 1, 2], [3, 1, 4, 1, 2]] := by
  have hvalid : ∀ call ∈ [quickCall, quickCall], call.Valid sampleCore [1, 2] 2 := by
    intro call hcall
    rcases List.mem_pair.mp hcall with rfl | rfl
    · exact ⟨by decide, rfl, by decide, by decide, by decide, by decide⟩
    · exact ⟨by decide, rfl, by decide, by decide, by decide, by decide⟩
  have hholds : List.Forall₂ ReadCall.Holds [quickCall, quickCall]
      (twoMessages.map (· ++ [1, 2])) :=
    .cons ⟨by decide, by decide⟩ (.cons ⟨by decide, by decide⟩ .nil)
  obtain ⟨⟨results, j, hreads⟩, hall⟩ := encoded_messages_come_back sampleCore [1, 2] 2
    (fun a => (encode [1, 2] twoMessages)[a]?.getD 0) 0 [quickCall, quickCall] twoMessages
    hvalid (by decide) (by decide) hholds
  obtain ⟨hresults, rfl⟩ := hall results j hreads
  exact ⟨results, hreads, hresults⟩

end cpp_bindings_windows
