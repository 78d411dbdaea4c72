-- Reading until a sequence: on a device that answers every request with the
-- next byte, the read stops at the first place where the bytes so far end
-- with the sequence, and leaves the rest on the line.
import SerialBindings.TransferBuffer

open programs memory

namespace cpp_bindings_windows

/-! ## The first match -/

/-- `k` is the first place where the stream so far ends with the sequence. -/
structure FirstMatch (stream : Nat → UInt8) (sequence : List UInt8) (k : Nat) : Prop where
  ends : sequence <:+ cells stream 0 k
  first : ∀ m < k, ¬ sequence <:+ cells stream 0 m

/-- `matchesSuffix` says whether the bytes end with the whole sequence. -/
theorem matchesSuffix_iff (bytes sequence : List UInt8) (h : sequence ≠ []) :
    matchesSuffix bytes bytes.length sequence sequence.length = true ↔ sequence <:+ bytes := by
  have hpos : 0 < sequence.length := List.length_pos_iff.mpr h
  unfold matchesSuffix
  simp only [Bool.and_eq_true, decide_eq_true_eq, beq_iff_eq, Int.toNat_natCast, List.take_length]
  rw [List.suffix_iff_eq_drop]
  constructor
  · rintro ⟨⟨-, hle⟩, heq⟩
    have hplace : ((bytes.length : Int) - sequence.length).toNat =
        bytes.length - sequence.length := by
      omega
    rw [hplace] at heq
    have hall : (bytes.drop (bytes.length - sequence.length)).length ≤ sequence.length := by
      rw [List.length_drop]
      omega
    rw [List.take_of_length_le hall] at heq
    exact heq.symm
  · intro heq
    have hle : sequence.length ≤ bytes.length := by
      have hlength := congrArg List.length heq
      rw [List.length_drop] at hlength
      omega
    have hplace : ((bytes.length : Int) - sequence.length).toNat =
        bytes.length - sequence.length := by
      omega
    refine ⟨⟨by omega, by omega⟩, ?_⟩
    rw [hplace, ← heq, List.take_length]

/-- Before the first byte there is no match. -/
theorem no_match_at_start (stream : Nat → UInt8) {sequence : List UInt8} (h : sequence ≠ []) :
    ¬ sequence <:+ cells stream 0 0 := fun hends => h (List.suffix_nil.mp hends)

/-! ## A device that answers byte by byte -/

namespace Port

/-- The device answers each request at once or after the wait, with one byte while it has
bytes. It has `supply` bytes, and after them a request times out with nothing. -/
def prompt (supply : Nat) (p : Port) : (action : Action) → Answer action → Bool
  | .createEvent, event => event.isSome
  | .startPendingIo .., (start, transferred) =>
    !start.aborted &&
      if start.completed then decide (p.moved.length < supply) && transferred == 1
      else start.error == ERROR_IO_PENDING
  | .waitForSingleObject .., wait_result =>
    wait_result == if p.moved.length < supply then WAIT_OBJECT_0 else WAIT_TIMEOUT
  | .getOverlappedResult .., result =>
    if p.moved.length < supply then result.completed && result.transferred == 1
    else result.transferred == 0
  | .finishPendingIo .., aborted => !aborted
  | _, _ => true

/-- The port of a read from that device. -/
def nextByte (supply : Nat) (p : Port) (action : Action) (r : Answer action) : Option Port :=
  if prompt supply p action r then next p action r else none

/-- Every request asks for a byte or more, and the device answers. -/
def listening (supply : Nat) : Protocol Action Answer Port where
  allows p
    | .startPendingIo _ _ request => 1 ≤ request.size.toNat
    | .getOverlappedResult .. => ∃ o request, p.request = some (o, request) ∧ 1 ≤ request.size.toNat
    | _ => True
  next := nextByte supply

/-- The first `j` bytes of the stream were taken, and stand in the buffer. -/
structure Heard (stream : Nat → UInt8) (j : Nat) (p : Port) : Prop where
  incoming : p.incoming = stream
  moved : p.moved = cells stream 0 j
  buffered : cells p.buffer 0 j = cells stream 0 j

variable {stream : Nat → UInt8} {supply j k : Nat} {p q : Port} {request : Request}

theorem Heard.length (h : p.Heard stream j) : p.moved.length = j := by
  rw [h.moved, cells_length]

theorem Heard.congr (h : p.Heard stream j) (hincoming : q.incoming = p.incoming)
    (hmoved : q.moved = p.moved) (hbuffer : q.buffer = p.buffer) : q.Heard stream j :=
  ⟨hincoming.trans h.incoming, hmoved.trans h.moved, by rw [hbuffer, h.buffered]⟩

/-- A request at the end of the taken bytes takes the next ones. -/
theorem Heard.move (h : p.Heard stream j) (hoffset : request.offset = j) :
    (p.move .kRead request k).Heard stream (j + k) := by
  have hplace : request.offset.toNat = j := by
    rw [hoffset]
    exact Int.toNat_natCast _
  have hdata : p.data .kRead request k = cells stream j k := by
    unfold data
    dsimp only
    rw [h.incoming, h.length]
  refine ⟨h.incoming, ?_, ?_⟩
  · unfold Port.move
    dsimp only
    rw [hdata, h.moved, cells_add, Nat.zero_add]
  · unfold Port.move
    dsimp only
    rw [hdata, hplace, cells_add, Nat.zero_add, cells_store_before _ _ _ _ _ (by omega), h.buffered]
    have hself := cells_store_self p.buffer j (cells stream j k)
    rw [cells_length] at hself
    rw [hself, cells_add, Nat.zero_add]

/-- The port of the device answers as the device does. -/
theorem nextByte_some {e : Action} {r : Answer e} (h : (listening supply).next p e r = some q) :
    prompt supply p e r = true ∧ next p e r = some q := by
  simp only [listening, nextByte] at h
  split at h
  · rename_i hprompt
    exact ⟨hprompt, h⟩
  · cases h

theorem nextByte_of {e : Action} {r : Answer e} (hprompt : prompt supply p e r = true)
    (h : next p e r = some q) : (listening supply).next p e r = some q := by
  simp only [listening, nextByte]
  rw [if_pos hprompt, h]

theorem listening_ignores {e : Action} (h : e.Quiet ∨ e.Counts) : (listening supply).Ignores e := by
  intro p
  cases e with
  | loadBuffer size =>
    refine ⟨trivial, fun bytes p' hn => ?_⟩
    obtain ⟨-, hn⟩ := nextByte_some hn
    simp only [next] at hn
    split at hn
    · cases hn; rfl
    · cases hn
  | _ => first
    | exact (h.elim id id).elim
    | exact ⟨trivial, fun r p' hn => by cases hn; rfl⟩

/-- What a request of one byte gives: the next byte, or a timeout when there is none. -/
def Taken (stream : Nat → UInt8) (supply j : Nat) (p : Port) (result : IoResult) : Prop :=
  (j < supply ∧ result.outcome = .kCompleted ∧ result.bytes_transferred = 1 ∧
    p.Heard stream (j + 1)) ∨
  (supply ≤ j ∧ result.outcome = .kTimedOut ∧ p.Heard stream j)

theorem finish_listens {state : StateRef} {o : Operation} {rest : Bool → Api IoResult}
    (h : p.Heard stream j)
    (hrest : ∀ q : Port, q.Heard stream j →
      Follows (listening supply) (Taken stream supply k) (rest false) q) :
    Follows (listening supply) (Taken stream supply k)
      (.act (.finishPendingIo state o) rest) p := by
  refine ⟨trivial, fun aborted q hn => ?_⟩
  obtain ⟨hprompt, hn⟩ := nextByte_some hn
  cases aborted with
  | true => cases hprompt
  | false =>
    cases hn
    exact hrest _ (h.congr rfl rfl rfl)

/-- The answer to `GetOverlappedResult`: one byte, or nothing. -/
theorem result_listens {handle : HANDLE} {wait : Bool} {rest : OverlappedResult → Api IoResult}
    (h : p.Heard stream j) (hoffset : request.offset = j) (hpos : 1 ≤ request.size.toNat)
    (hrequest : p.request = some (.kRead, request))
    (hbyte : j < supply → ∀ result (q : Port), result.completed = true → result.transferred = 1 →
      q.Heard stream (j + 1) →
      Follows (listening supply) (Taken stream supply k) (rest result) q)
    (hnone : supply ≤ j → ∀ result (q : Port), q.Heard stream j →
      Follows (listening supply) (Taken stream supply k) (rest result) q) :
    Follows (listening supply) (Taken stream supply k)
      (.act (.getOverlappedResult handle wait) rest) p := by
  refine ⟨⟨.kRead, request, hrequest, hpos⟩, fun result q hn => ?_⟩
  obtain ⟨hprompt, hn⟩ := nextByte_some hn
  simp only [prompt, h.length] at hprompt
  simp only [next, hrequest] at hn
  split at hn
  · cases hn
    split at hprompt
    · rename_i hmore
      rw [Bool.and_eq_true, beq_iff_eq] at hprompt
      refine hbyte hmore result _ hprompt.1 hprompt.2 ?_
      have hmoved := h.move (k := 1) hoffset
      rw [hprompt.2]
      exact hmoved.congr rfl rfl rfl
    · rename_i hempty
      rw [beq_iff_eq] at hprompt
      refine hnone (Nat.not_lt.mp hempty) result _ ?_
      have hmoved := h.move (k := 0) hoffset
      rw [hprompt]
      exact hmoved.congr rfl rfl rfl
  · cases hn

theorem waitForPendingIo_listens (core : CppCore) (context : HandleContext) (event : HANDLE)
    (timeout_ms : Int) (h : p.Heard stream j) (hoffset : request.offset = j)
    (hpos : 1 ≤ request.size.toNat) (hrequest : p.request = some (.kRead, request)) :
    Follows (listening supply) (Taken stream supply j)
      (waitForPendingIo core context .kRead event timeout_ms) p := by
  unfold waitForPendingIo
  simp only [Prog.perform_bind, Prog.pure_eq]
  refine ⟨trivial, fun wait_result q hn => ?_⟩
  obtain ⟨hprompt, hn⟩ := nextByte_some hn
  cases hn
  simp only [prompt, h.length, beq_iff_eq] at hprompt
  by_cases hmore : j < supply
  · rw [if_pos hmore] at hprompt
    subst hprompt
    dsimp only
    have hno : WAIT_OBJECT_0 ≠ WAIT_TIMEOUT := by decide
    rw [if_neg hno, if_neg (fun hne => hne rfl)]
    refine result_listens h hoffset hpos hrequest (fun _ result q hcompleted hone hq => ?_)
      (fun hempty => absurd hmore (Nat.not_lt.mpr hempty))
    refine finish_listens hq fun q hq => ?_
    simp only [hcompleted, hone, Bool.false_eq_true, if_true, false_or, ERROR_SUCCESS,
      ERROR_OPERATION_ABORTED]
    exact Or.inl ⟨hmore, rfl, rfl, hq⟩
  · rw [if_neg hmore] at hprompt
    subst hprompt
    dsimp only
    rw [if_pos rfl]
    refine ⟨trivial, fun _ q hn => ?_⟩
    obtain ⟨-, hn⟩ := nextByte_some hn
    cases hn
    refine result_listens h hoffset hpos hrequest (fun hyes => absurd hyes hmore)
      (fun hempty result q hq => finish_listens hq fun q hq => ?_)
    exact Or.inr ⟨hempty, rfl, hq⟩

theorem requestChunk_listens (core : CppCore) (context : HandleContext) (event : HANDLE)
    (timeout_ms : Int) (h : p.Heard stream j) :
    Follows (listening supply) (Taken stream supply j)
      (requestChunk core context .kRead j 1 timeout_ms event) p := by
  unfold requestChunk
  simp only [Prog.perform_bind, Prog.pure_eq]
  have hone : 1 ≤ (dwordOfInt 1).toNat := by decide
  refine ⟨hone, ?_⟩
  rintro ⟨⟨completed, error, aborted⟩, transferred⟩ q hn
  obtain ⟨hprompt, hn⟩ := nextByte_some hn
  simp only [prompt, Bool.and_eq_true, Bool.not_eq_true', h.length] at hprompt
  obtain ⟨rfl, hprompt⟩ := hprompt
  cases completed
  · simp only [Bool.false_eq_true, if_false, beq_iff_eq] at hprompt
    subst hprompt
    cases hn
    exact waitForPendingIo_listens core context event timeout_ms (h.congr rfl rfl rfl) rfl
      hone rfl
  · simp only [if_true, Bool.and_eq_true, decide_eq_true_eq, beq_iff_eq] at hprompt
    obtain ⟨hmore, rfl⟩ := hprompt
    cases hn
    refine finish_listens (j := j + 1) ?_ fun q hq => ?_
    · have hsame : Heard stream j { p with
          issued := p.issued + 1, request := none, landed := none } := h.congr rfl rfl rfl
      exact (hsame.move (k := 1) rfl).congr rfl rfl rfl
    · exact Or.inl ⟨hmore, rfl, rfl, hq⟩

theorem readChunk_listens (core : CppCore) (context : HandleContext) (timeout_ms : Int)
    (h : p.Heard stream j) :
    Follows (listening supply) (Taken stream supply j)
      (transferChunk core .kRead context j 1 timeout_ms) p := by
  unfold transferChunk
  simp only [Prog.perform_bind, Prog.pure_eq]
  refine ⟨trivial, fun event q hn => ?_⟩
  obtain ⟨hprompt, hn⟩ := nextByte_some hn
  cases hn
  cases event with
  | none => cases hprompt
  | some event =>
    refine follows_seq (requestChunk_listens core context event timeout_ms h) ?_
    intro q result hresult
    refine ⟨trivial, fun _ q' hn => ?_⟩
    obtain ⟨-, hn⟩ := nextByte_some hn
    cases hn
    exact hresult

/-! ## The loop -/

/-- What a read until the sequence returns: the place of the first match, or without a match
the end of the buffer or of the supply. -/
def Found (stream : Nat → UInt8) (sequence : List UInt8) (n supply : Nat) (p : Port) (r : Int) :
    Prop :=
  ∃ k : Nat, r = k ∧ k ≤ n ∧ k ≤ supply ∧ p.Heard stream k ∧
    (FirstMatch stream sequence k ∨
      ((∀ m ≤ k, ¬ sequence <:+ cells stream 0 m) ∧ (k = n ∨ k = supply)))

theorem readLoop_finds (core : CppCore) (args : ReadArgs) (context : HandleContext) (n : Nat)
    (hn : args.buffer_size = n) (hempty : args.terminator ≠ [])
    (hsize : args.terminator_size = args.terminator.length) (turns : Nat) :
    ∀ (j : Nat) (p : Port), p.Heard stream j → j ≤ n → j ≤ supply → n ≤ j + turns →
      (∀ m ≤ j, ¬ args.terminator <:+ cells stream 0 m) →
      Follows (listening supply) (Found stream args.terminator n supply)
        (readLoop core args context turns j) p := by
  have hpos : 0 < args.terminator.length := List.length_pos_iff.mpr hempty
  induction turns with
  | zero =>
    intro j p h hjn hjs hturns hno
    exact ⟨j, rfl, hjn, hjs, h, Or.inr ⟨hno, Or.inl (by omega)⟩⟩
  | succ turns ih =>
    intro j p h hjn hjs hturns hno
    unfold readLoop
    split
    · exact ⟨j, rfl, hjn, hjs, h, Or.inr ⟨hno, Or.inl (by omega)⟩⟩
    rename_i hmore
    unfold nextReadSize
    rw [if_neg (by omega)]
    refine turn_follows (fun e he => listening_ignores (Or.inl he.quiet))
      (follows_mono (readChunk_listens core context _ h) fun q result hresult => ?_)
    rcases hresult with ⟨hmore', houtcome, hone, hq⟩ | ⟨hdry, houtcome, hq⟩
    · simp only [houtcome, hone]
      refine ⟨fun hle => absurd hle (by decide), fun _ => ?_⟩
      refine follows_within_seq (noteBytesTransferred_within context.state .kRead 1)
        (fun _ he => listening_ignores he) fun _ _ => ?_
      -- the bytes that the loop compares are the bytes taken so far
      refine ⟨trivial, fun bytes q' hnext => ?_⟩
      obtain ⟨-, hnext⟩ := nextByte_some hnext
      simp only [next] at hnext
      split at hnext
      · rename_i hbytes
        cases hnext
        have hcast : (j : Int) + 1 = ((j + 1 : Nat) : Int) := rfl
        rw [hone, hcast, Int.toNat_natCast, hq.buffered] at hbytes
        have hmatch := matchesSuffix_iff bytes args.terminator hempty
        rw [hbytes, cells_length, ← hsize] at hmatch
        dsimp only [Prog.bind]
        rw [hcast, hbytes]
        split
        · rename_i hyes
          refine ⟨j + 1, rfl, by omega, by omega, hq, Or.inl ⟨hmatch.mp hyes, fun m hm => ?_⟩⟩
          exact hno m (by omega)
        · rename_i hnot
          refine ih (j + 1) q hq (by omega) (by omega) (by omega) fun m hm => ?_
          rcases Nat.lt_or_eq_of_le hm with hlt | rfl
          · exact hno m (by omega)
          · exact fun hends => hnot (hmatch.mpr hends)
      · cases hnext
    · simp only [houtcome]
      exact ⟨j, rfl, hjn, hjs, hq, Or.inr ⟨hno, Or.inr (by omega)⟩⟩

/-- Every action that the protocol allows has an answer of the device. -/
theorem listening_answers (p : Port) (e : Action) (he : (listening supply).allows p e) :
    ∃ r q, (listening supply).next p e r = some q := by
  cases e with
  | createEvent => exact ⟨some 7, p, rfl⟩
  | startPendingIo state o request => exact ⟨({ error := ERROR_IO_PENDING }, 0), _, rfl⟩
  | waitForSingleObject event milliseconds =>
    refine ⟨if p.moved.length < supply then WAIT_OBJECT_0 else WAIT_TIMEOUT, p, ?_⟩
    exact nextByte_of (beq_self_eq_true _) rfl
  | getOverlappedResult handle wait =>
    obtain ⟨o, request, hrequest, hpos⟩ := he
    have hresult : ∀ result : OverlappedResult, result.transferred.toNat ≤ request.size.toNat →
        ∃ q, next p (.getOverlappedResult handle wait) result = some q := by
      intro result hle
      simp only [next, hrequest]
      rw [if_pos hle]
      exact ⟨_, rfl⟩
    by_cases hmore : p.moved.length < supply
    · obtain ⟨q, hq⟩ := hresult { completed := true, transferred := 1 } hpos
      refine ⟨_, q, nextByte_of ?_ hq⟩
      simp only [prompt, if_pos hmore]
      rfl
    · obtain ⟨q, hq⟩ := hresult { transferred := 0 } (Nat.zero_le _)
      refine ⟨_, q, nextByte_of ?_ hq⟩
      simp only [prompt, if_neg hmore]
      rfl
  | finishPendingIo state o => exact ⟨false, _, rfl⟩
  | loadBuffer size =>
    refine ⟨cells p.buffer 0 size.toNat, p, ?_⟩
    simp only [listening, nextByte, prompt, next, if_true]
  | _ => exact ⟨idleAnswer _, p, rfl⟩

end Port

/-- The arguments of a read until a sequence that pass every check. -/
structure Accepted (core : CppCore) (handle : Int64) (pointer : Pointer) (buffer_size : Int32)
    (timeout_config : Option SerialTimeoutConfig) (sequence : List UInt8) (sequence_size : Int32) :
    Prop where
  handle : 0 < handle.toInt
  timeout : core.validateTimeoutConfig timeout_config = none
  pointer : pointer ≠ none
  some_room : 0 < buffer_size.toInt
  some_byte : sequence ≠ []
  length : sequence_size.toInt = sequence.length

theorem serialReadUntilSequence_finds {core : CppCore} {handle : Int64} {pointer : Pointer}
    {buffer_size : Int32} {timeout_config : Option SerialTimeoutConfig} {sequence : List UInt8}
    {sequence_size : Int32} (callback : Callback) (stream buffer : Nat → UInt8) (supply : Nat)
    (h : Accepted core handle pointer buffer_size timeout_config sequence sequence_size) :
    Follows (Port.listening supply) (Port.Found stream sequence buffer_size.toInt.toNat supply)
      (serialReadUntilSequence core handle pointer buffer_size timeout_config (some sequence)
        sequence_size callback) { incoming := stream, buffer } := by
  have hsilent : ∀ e : Action, e.Silent → (Port.listening supply).Ignores e :=
    fun e he => Port.listening_ignores (Or.inl he.quiet)
  have hlength : 0 < sequence_size.toInt := by
    have hpos := List.length_pos_iff.mpr h.some_byte
    rw [h.length]
    omega
  have hroom := h.some_room
  have hbuffer := (core.buffer_accepts pointer buffer_size.toInt).mpr ⟨h.pointer, h.some_room⟩
  unfold serialReadUntilSequence
  refine follows_within_seq (effectiveErrorCallback_within callback)
    (fun e he => hsilent e he.silent) fun callback _ => ?_
  have hgiven : ¬ (some sequence = none ∨ sequence_size.toInt ≤ 0) := by
    rintro (hno | hle)
    · cases hno
    · omega
  rw [if_neg hgiven]
  have hentry : Entry core (Port.listening supply)
      (Port.Found stream sequence buffer_size.toInt.toNat supply) handle pointer buffer_size.toInt
      timeout_config (fun _ p => p.Heard stream 0) { incoming := stream, buffer } := by
    refine ⟨hsilent, ?_, ?_, ?_, fun _ => trivial, ?_⟩
    · rw [h.timeout]
      nofun
    · rw [hbuffer]
      nofun
    · intro hle
      have := h.handle
      omega
    · intro _ _ state p hp
      cases hp
      exact ⟨rfl, rfl, rfl⟩
  refine hentry.readImpl_follows nofun fun context p effective hheard => ?_
  exact Port.readLoop_finds core
    { buffer_size := buffer_size.toInt
      timeout_config := timeout_config.getD ⟨0, 0⟩
      terminator := sequence
      terminator_size := sequence_size.toInt
      callback := effective } context buffer_size.toInt.toNat (by simp only; omega) h.some_byte
      h.length _ 0 p hheard (Nat.zero_le _) (Nat.zero_le _) (by omega) fun m hm => by
        rw [Nat.le_zero.mp hm]
        exact no_match_at_start stream h.some_byte

/-- A read until a sequence, from a device that answers each request with the next byte and has
`supply` bytes. It comes back, with the first `k` bytes of the stream in the buffer and exactly
these taken. `k` is the first place where the stream so far ends with the sequence; without such
a place in the buffer and in the supply, `k` is the size of the buffer or of the supply. -/
theorem a_read_stops_at_the_first_match {core : CppCore} {handle : Int64} {pointer : Pointer}
    {buffer_size : Int32} {timeout_config : Option SerialTimeoutConfig} {sequence : List UInt8}
    {sequence_size : Int32} (callback : Callback) (stream buffer : Nat → UInt8) (supply : Nat)
    (h : Accepted core handle pointer buffer_size timeout_config sequence sequence_size) :
    (∃ p r, Exec (Port.nextByte supply) { incoming := stream, buffer }
      (serialReadUntilSequence core handle pointer buffer_size timeout_config (some sequence)
        sequence_size callback) p r) ∧
    ∀ p r, Exec (Port.nextByte supply) { incoming := stream, buffer }
      (serialReadUntilSequence core handle pointer buffer_size timeout_config (some sequence)
        sequence_size callback) p r →
      ∃ k : Nat, r = k ∧ cells p.buffer 0 k = cells stream 0 k ∧ p.moved = cells stream 0 k ∧
        (∀ m : Nat, FirstMatch stream sequence m → (m : Int) ≤ buffer_size.toInt → m ≤ supply →
          k = m) ∧
        ((∀ m : Nat, (m : Int) ≤ buffer_size.toInt → m ≤ supply →
          ¬ sequence <:+ cells stream 0 m) → k = min buffer_size.toInt.toNat supply) := by
  have hfollows := serialReadUntilSequence_finds callback stream buffer supply h
  refine ⟨follows_runs hfollows Port.listening_answers, fun p r hrun => ?_⟩
  have hfound : Port.Found stream sequence buffer_size.toInt.toNat supply p r :=
    follows_exec hfollows hrun
  obtain ⟨k, hr, hkn, hks, hheard, hend⟩ := hfound
  have hroom := h.some_room
  refine ⟨k, hr, hheard.buffered, hheard.moved, fun m hm hmn hms => ?_, fun hno => ?_⟩
  · rcases hend with hmatch | ⟨hno, hlast⟩
    · rcases Nat.lt_trichotomy k m with hlt | heq | hgt
      · exact absurd hmatch.ends (hm.first k hlt)
      · exact heq
      · exact absurd hm.ends (hmatch.first m hgt)
    · have hmk : m ≤ k := by omega
      exact absurd hm.ends (hno m hmk)
  · rcases hend with hmatch | ⟨-, hlast⟩
    · exact absurd hmatch.ends (hno k (by omega) hks)
    · omega

/-- A read until the bytes 1 and 2 from the stream 0, 1, 2, 3 and so on stops after three
bytes. -/
theorem a_read_until_one_two_stops_after_three :
    ∃ p, Exec (Port.nextByte 100) { incoming := UInt8.ofNat, buffer := fun _ => 0 }
        (serialReadUntilSequence sampleCore 5 (some 1) 8 (some ⟨100, 1⟩) (some [1, 2]) 2 none) p 3 ∧
      p.moved = [0, 1, 2] := by
  have haccepted : Accepted sampleCore 5 (some 1) 8 (some ⟨100, 1⟩) [1, 2] 2 :=
    ⟨by decide, rfl, nofun, by decide, nofun, by decide⟩
  obtain ⟨⟨p, r, hrun⟩, hall⟩ :=
    a_read_stops_at_the_first_match none UInt8.ofNat (fun _ => 0) 100 haccepted
  obtain ⟨k, hr, -, hmoved, hfirst, -⟩ := hall p r hrun
  have hmatch : FirstMatch UInt8.ofNat [1, 2] 3 := ⟨by decide, by decide⟩
  have hk := hfirst 3 hmatch (by decide) (by decide)
  subst hk
  subst hr
  exact ⟨p, hrun, hmoved⟩

end cpp_bindings_windows
