-- Writes, one call after another on one port. What a call sends begins where the calls before it
-- said that they are, so each byte is sent, in order; once, when the calls report what they sent.
import SerialBindings.Conservation
import SerialBindings.TransferBuffer
import SerialBindings.FramedReads

open programs memory framing

namespace cpp_bindings_windows

namespace Port

/-- The device answers as it can, and the program may do every action. -/
def answering : Protocol Action Answer Port := ⟨fun _ _ => True, next⟩

/-- What went over the line is the start of the buffer. -/
structure Sent (buffer : Nat → UInt8) (p : Port) : Prop where
  kept : p.buffer = buffer
  moved : p.moved = cells buffer 0 p.moved.length

variable {buffer : Nat → UInt8} {p q : Port} {request : Request} {total size : Int}

theorem answering_ignores {e : Action} (h : e.Quiet ∨ e.Counts) : answering.Ignores e := by
  intro p
  cases e with
  | loadBuffer size =>
    refine ⟨trivial, fun bytes p' hn => ?_⟩
    simp only [answering, next] at hn
    split at hn
    · cases hn; rfl
    · cases hn
  | _ => first
    | exact (h.elim id id).elim
    | exact ⟨trivial, fun r p' hn => by cases hn; rfl⟩

theorem Sent.congr (h : p.Sent buffer) (hmoved : q.moved = p.moved)
    (hbuffer : q.buffer = p.buffer) : q.Sent buffer := by
  refine ⟨hbuffer.trans h.kept, ?_⟩
  rw [hmoved]
  exact h.moved

/-- A request at the end of what was sent sends the next bytes. -/
theorem Sent.move (h : p.Sent buffer) (hoffset : request.offset = p.moved.length) (k : Nat) :
    (p.move .kWrite request k).Sent buffer ∧
      (p.move .kWrite request k).moved.length = p.moved.length + k := by
  have hplace : request.offset.toNat = p.moved.length := by
    rw [hoffset]
    exact Int.toNat_natCast _
  have hlength : (p.move .kWrite request k).moved.length = p.moved.length + k := by
    simp [Port.move]
  refine ⟨⟨h.kept, ?_⟩, hlength⟩
  rw [hlength, cells_add, Nat.zero_add, ← h.moved]
  unfold Port.move data
  dsimp only
  rw [hplace, h.kept]

/-- What a chunk sends: it begins behind the first `total` bytes, and a chunk that completed
reports what it sent. -/
structure Adds (buffer : Nat → UInt8) (total : Int) (p : Port) (result : IoResult) : Prop where
  sent : p.Sent buffer
  atLeast : total ≤ p.moved.length
  completed : result.outcome = .kCompleted →
    0 ≤ result.bytes_transferred ∧ (p.moved.length : Int) = total + result.bytes_transferred

theorem adds_nothing {result : IoResult} (h : p.Sent buffer) (htotal : total ≤ p.moved.length)
    (houtcome : result.outcome ≠ .kCompleted) : Adds buffer total p result :=
  ⟨h, htotal, fun hc => absurd hc houtcome⟩

theorem adds_aborted {aborted : Bool} {outcome : IoOutcome} {error : DWORD} (h : p.Sent buffer)
    (htotal : total ≤ p.moved.length) (houtcome : outcome ≠ .kCompleted) :
    Adds buffer total p
      { outcome := if aborted then .kAborted else outcome, error := error } := by
  apply adds_nothing h htotal
  cases aborted
  · exact houtcome
  · simp

theorem finish_adds {state : StateRef} {o : Operation} {k : Bool → Api IoResult}
    (h : ∀ aborted q, q.moved = p.moved → q.buffer = p.buffer →
      Follows answering (Adds buffer total) (k aborted) q) :
    Follows answering (Adds buffer total) (.act (.finishPendingIo state o) k) p := by
  refine ⟨trivial, fun aborted q hn => ?_⟩
  cases hn
  exact h aborted _ rfl rfl

/-- The count of the open request, whatever the wait. -/
theorem result_adds {handle : HANDLE} {wait : Bool} {k : OverlappedResult → Api IoResult}
    (h : p.Sent buffer) (hrequest : p.request = some (.kWrite, request))
    (hoffset : request.offset = p.moved.length)
    (hk : ∀ (result : OverlappedResult) (q : Port), q.Sent buffer →
      result.transferred.toNat ≤ request.size.toNat →
      q.moved.length = p.moved.length + result.transferred.toNat →
      Follows answering (Adds buffer total) (k result) q) :
    Follows answering (Adds buffer total) (.act (.getOverlappedResult handle wait) k) p := by
  refine ⟨trivial, fun result q hn => ?_⟩
  simp only [answering, next, hrequest] at hn
  split at hn
  · rename_i hle
    cases hn
    obtain ⟨hsent, hlength⟩ := h.move hoffset result.transferred.toNat
    exact hk result _ (hsent.congr rfl rfl) hle hlength
  · cases hn

theorem waitForPendingIo_adds (core : CppCore) (context : HandleContext) (event : HANDLE)
    (timeout_ms : Int) (h : p.Sent buffer) (hrequest : p.request = some (.kWrite, request))
    (hoffset : request.offset = p.moved.length) (htotal : (p.moved.length : Int) = total)
    (hsize : (request.size.toNat : Int) ≤ INT_MAX) :
    Follows answering (Adds buffer total)
      (waitForPendingIo core context .kWrite event timeout_ms) p := by
  unfold waitForPendingIo
  simp only [Prog.perform_bind, Prog.pure_eq]
  refine ⟨trivial, fun wait_result q hn => ?_⟩
  cases hn
  dsimp only
  split
  · -- the bytes of a request that is canceled may be on the line
    refine ⟨trivial, fun _ q hn => ?_⟩
    cases hn
    refine result_adds h hrequest hoffset fun result q hq hle hlength => ?_
    refine finish_adds fun aborted q' hmoved hbuffer => ?_
    have hmore : total ≤ q'.moved.length := by rw [hmoved]; omega
    split
    · exact adds_nothing (hq.congr hmoved hbuffer) hmore (by simp)
    · exact adds_nothing (hq.congr hmoved hbuffer) hmore (by simp)
  split
  · refine ⟨trivial, fun error q hn => ?_⟩
    cases hn
    refine ⟨trivial, fun _ q hn => ?_⟩
    cases hn
    refine result_adds h hrequest hoffset fun result q hq hle hlength => ?_
    refine finish_adds fun aborted q' hmoved hbuffer => ?_
    exact adds_aborted (hq.congr hmoved hbuffer) (by rw [hmoved]; omega) (by simp)
  · refine result_adds h hrequest hoffset fun result q hq hle hlength => ?_
    refine finish_adds fun aborted q' hmoved hbuffer => ?_
    have hmore : total ≤ q'.moved.length := by rw [hmoved]; omega
    have hcount : intOfDword result.transferred = result.transferred.toNat :=
      intOfDword_of_lt (by omega)
    have hsent := hq.congr hmoved hbuffer
    cases result.completed
    · simp only [Bool.false_eq_true, if_false, if_true]
      split
      · exact adds_nothing hsent hmore (by simp)
      · exact adds_nothing hsent hmore (by simp)
    · simp only [Bool.true_eq_false, if_false, if_true]
      split
      · exact adds_nothing hsent hmore (by simp)
      · refine ⟨hsent, hmore, fun _ => ?_⟩
        simp only [hcount, hmoved]
        omega

theorem requestChunk_adds (core : CppCore) (context : HandleContext) (event : HANDLE)
    (timeout_ms : Int) (h : p.Sent buffer) (htotal : (p.moved.length : Int) = total)
    (hpos : 0 ≤ size) (hsize : size ≤ INT_MAX) :
    Follows answering (Adds buffer total)
      (requestChunk core context .kWrite total size timeout_ms event) p := by
  have hdword := dwordOfInt_toNat hpos hsize
  unfold requestChunk
  simp only [Prog.perform_bind, Prog.pure_eq]
  refine ⟨trivial, ?_⟩
  rintro ⟨⟨completed, error, aborted⟩, transferred⟩ q hn
  simp only [answering, next] at hn
  cases aborted
  · cases completed
    · simp only [Bool.false_eq_true, if_false] at hn ⊢
      cases hn
      split
      · refine finish_adds fun aborted q' hmoved hbuffer => ?_
        exact adds_aborted (h.congr hmoved hbuffer) (by rw [hmoved]; simp only; omega) (by simp)
      · exact waitForPendingIo_adds core context event timeout_ms (h.congr rfl rfl) rfl
          htotal.symm htotal (by simp only; omega)
    · simp only [Bool.false_eq_true, if_false, if_true] at hn ⊢
      split at hn
      · rename_i hle
        cases hn
        have hcount : intOfDword transferred = transferred.toNat :=
          intOfDword_of_lt (by omega)
        have hnow : Sent buffer
            { p with issued := p.issued + 1, request := none, landed := none } := h.congr rfl rfl
        have hoffset : (⟨context.handle, total, dwordOfInt size⟩ : Request).offset =
            p.moved.length := htotal.symm
        obtain ⟨hsent, hlength⟩ := hnow.move hoffset transferred.toNat
        refine finish_adds fun aborted q' hmoved hbuffer => ?_
        have hlong : (q'.moved.length : Int) = total + transferred.toNat := by
          rw [hmoved]
          simp only at hlength ⊢
          omega
        refine ⟨hsent.congr hmoved hbuffer, by omega, fun _ => ?_⟩
        simp only [hcount]
        omega
      · cases hn
  · simp only [if_true] at hn ⊢
    cases hn
    exact adds_nothing (h.congr rfl rfl) (Int.le_of_eq htotal.symm) (by simp)

theorem writeChunk_adds (core : CppCore) (context : HandleContext) (timeout_ms : Int)
    (h : p.Sent buffer) (htotal : (p.moved.length : Int) = total) (hpos : 0 ≤ size)
    (hsize : size ≤ INT_MAX) :
    Follows answering (Adds buffer total)
      (writeChunk core context total size timeout_ms) p := by
  unfold writeChunk transferChunk
  simp only [Prog.perform_bind, Prog.pure_eq]
  refine ⟨trivial, fun event q hn => ?_⟩
  cases hn
  cases event with
  | none =>
    refine ⟨trivial, fun error q hn => ?_⟩
    cases hn
    exact adds_nothing h (Int.le_of_eq htotal.symm) (by simp)
  | some event =>
    refine follows_seq (requestChunk_adds core context event timeout_ms h htotal hpos hsize) ?_
    intro q result hresult
    refine ⟨trivial, fun _ q' hn => ?_⟩
    cases hn
    exact hresult

/-- Between two chunks the call has counted what it sent. -/
def sending (core : CppCore) (buffer : Nat → UInt8) : TransferOutline core answering .kWrite where
  entry _ p := p.Sent buffer ∧ p.moved.length = 0
  ready _ total p := p.Sent buffer ∧ (p.moved.length : Int) = total
  counted _ total n p := p.Sent buffer ∧ (p.moved.length : Int) = total + n
  result p r := p.Sent buffer ∧ r ≤ p.moved.length
  silent _ he := answering_ignores (Or.inl he.quiet)
  refuses {_ _ code} _ h := ⟨h.1, by have := core.value_neg code; omega⟩
  acquires := by
    intro handle p h _
    refine ⟨trivial, fun state q hn => ?_⟩
    cases hn
    exact ⟨h.1, by omega⟩
  stops h := ⟨h.1, Int.le_of_eq h.2.symm⟩
  fails {_ _ _ code} _ h := ⟨h.1, by have := core.value_neg code; omega⟩
  chunk := by
    intro context total size timeout_ms p h hpos hsize
    obtain ⟨hsent, htotal⟩ := h
    refine follows_mono (writeChunk_adds core context timeout_ms hsent htotal
      (Int.le_of_lt hpos) (by omega)) fun q result hadds => ?_
    have hlength := hadds.atLeast
    cases houtcome : result.outcome with
    | kTimedOut => exact ⟨hadds.sent, hlength⟩
    | kAborted => exact ⟨hadds.sent, by have := core.value_neg (abortCode .kWrite); omega⟩
    | kError => exact fun code _ => ⟨hadds.sent, by have := core.value_neg code; omega⟩
    | kCompleted =>
      obtain ⟨-, hcount⟩ := hadds.completed houtcome
      exact ⟨fun _ => ⟨hadds.sent, hlength⟩, fun _ => ⟨hadds.sent, hcount⟩⟩
  notes := by
    intro context total n p h _
    exact follows_of_within (noteBytesTransferred_within context.state .kWrite n)
      (fun _ he => answering_ignores he) fun _ _ => h

end Port

/-! ## The calls -/

structure WriteCall where
  handle : Int64
  pointer : Pointer
  buffer_size : Int32
  timeout_config : Option SerialTimeoutConfig
  callback : Callback

def WriteCall.program (core : CppCore) (call : WriteCall) : Api Int :=
  serialWrite core call.handle call.pointer call.buffer_size call.timeout_config call.callback

/-- The port of a call that writes the data from the place `i` on. -/
def WriteCall.port (data : Nat → UInt8) (i : Nat) : Port :=
  { incoming := fun _ => 0, buffer := fun a => data (i + a) }

/-- The calls, one after another, from the place `i` of the data to the place `j`. Each one begins
behind the bytes that the calls before it reported; an error reports none. All of them put `line`
on the line, and `again` of its bytes they did not report. -/
inductive Writes (core : CppCore) (data : Nat → UInt8) :
    Nat → List WriteCall → List UInt8 → Nat → Nat → Prop
  | nil {i : Nat} : Writes core data i [] [] 0 i
  | cons {i j again : Nat} {call : WriteCall} {calls : List WriteCall} {line : List UInt8}
      {p : Port} {r : Int}
      (exec : Exec Port.next (WriteCall.port data i) (call.program core) p r)
      (later : Writes core data (i + r.toNat) calls line again j) :
      Writes core data i (call :: calls) (p.moved ++ line) (p.moved.length - r.toNat + again) j

variable {core : CppCore} {data : Nat → UInt8} {i j again : Nat} {call : WriteCall}
  {calls : List WriteCall} {line : List UInt8} {p : Port} {r : Int}

/-- One call sends data from its place on, and no less than it reports. -/
theorem WriteCall.sends (h : Exec Port.next (WriteCall.port data i) (call.program core) p r) :
    p.moved = cells data i p.moved.length ∧ r ≤ p.moved.length := by
  have hstart : (WriteCall.port data i).Sent (fun a => data (i + a)) := ⟨rfl, rfl⟩
  have hfollows := (Port.sending core (fun a => data (i + a))).writeImpl_follows call.handle
    call.pointer call.buffer_size call.timeout_config call.callback
    (g := WriteCall.port data i) ⟨hstart, rfl⟩
  obtain ⟨hsent, hle⟩ := follows_exec hfollows h
  have hmoved := hsent.moved
  rw [cells_shift] at hmoved
  exact ⟨hmoved, hle⟩

theorem Writes.sends (h : Writes core data i calls line again j) :
    i ≤ j ∧ (cells data i (j - i)).Sublist line ∧ line.length = j - i + again := by
  induction h with
  | nil => simp
  | @cons i j again call calls line p r hexec _ ih =>
    obtain ⟨hle, hsub, hlength⟩ := ih
    obtain ⟨hmoved, hr⟩ := WriteCall.sends hexec
    have hparts : j - i = r.toNat + (j - (i + r.toNat)) := by omega
    refine ⟨by omega, ?_, ?_⟩
    · -- the reported bytes are the first ones of what the call sent
      have hreported : (cells data i r.toNat).Sublist p.moved := by
        have htake := cells_take data i p.moved.length r.toNat
        rw [← hmoved, Nat.min_eq_left (by omega)] at htake
        rw [← htake]
        exact List.take_sublist _ _
      rw [hparts, cells_add]
      exact hreported.append hsub
    · rw [List.length_append, hlength]
      omega

/-- Calls that report all that they send put the data on the line as it is. -/
theorem Writes.line_eq (h : Writes core data i calls line 0 j) : line = cells data i (j - i) := by
  obtain ⟨-, hsub, hlength⟩ := h.sends
  exact (hsub.eq_of_length (by rw [cells_length]; omega)).symm

/-- Writes, one after another, whatever the driver does. Each byte that they report is on the line,
in order; what else is there was sent again, or will be. With no such byte, and only then, the line
has the data as it is. -/
theorem retried_writes_send_every_byte (h : Writes core data i calls line again j) :
    i ≤ j ∧ (cells data i (j - i)).Sublist line ∧ line.length = j - i + again ∧
      (again = 0 ↔ line = cells data i (j - i)) := by
  obtain ⟨hle, hsub, hlength⟩ := h.sends
  refine ⟨hle, hsub, hlength, ?_, fun hline => ?_⟩
  · rintro rfl
    exact h.line_eq
  · rw [hline, cells_length] at hlength
    omega

def twoBytes : WriteCall :=
  { handle := 5, pointer := some 1, buffer_size := 2, timeout_config := some ⟨100, 1⟩,
    callback := none }

/-- The first write returns 0, but its first byte is on the line. -/
theorem a_late_byte_is_sent_again :
    Writes sampleCore UInt8.ofNat 0 [twoBytes, twoBytes] [0, 0, 1] 1 2 ∧
      (cells UInt8.ofNat 0 2).Sublist [0, 0, 1] := by
  have hlate : Exec Port.next (WriteCall.port UInt8.ofNat 0) (twoBytes.program sampleCore)
      { WriteCall.port UInt8.ofNat 0 with moved := [0], issued := 1 } 0 :=
    run_exec (fun _ => lateByte) rfl
  have hprompt : Exec Port.next (WriteCall.port UInt8.ofNat 0) (twoBytes.program sampleCore)
      { WriteCall.port UInt8.ofNat 0 with
        moved := [0, 1], issued := 2, chunks := [[0], [1]] } 2 :=
    run_exec (fun _ => promptByte) rfl
  have hwrites : Writes sampleCore UInt8.ofNat 0 [twoBytes, twoBytes] [0, 0, 1] 1 2 :=
    .cons hlate (.cons hprompt .nil)
  exact ⟨hwrites, (retried_writes_send_every_byte hwrites).2.1⟩

/-- Messages with the sequence behind each one, which a port writes with any number of calls and
another one reads until the sequence. When the writes report all that they send, each read has
room and time for its message, and no request of a read fails or is aborted, the reads give the
messages back, one with each call. -/
theorem sent_messages_are_read (core : CppCore) (sequence : List UInt8) (sequence_size : Int32)
    (messages : List (List UInt8)) (data stream : Nat → UInt8) (i : Nat)
    (writes : List WriteCall) (reads : List ReadCall) (line : List UInt8)
    (hframed : ∀ m ∈ messages, Framed sequence m)
    (hdata : cells data 0 (encode sequence messages).length = encode sequence messages)
    (hwrites : Writes core data 0 writes line 0 (encode sequence messages).length)
    (hline : cells stream i line.length = line)
    (hvalid : ∀ call ∈ reads, call.Valid core sequence sequence_size)
    (hholds : List.Forall₂ ReadCall.Holds reads (messages.map (· ++ sequence))) :
    (∃ results j, Reads core sequence sequence_size stream i reads results j) ∧
    ∀ results j, Reads core sequence sequence_size stream i reads results j →
      results = messages.map (· ++ sequence) ∧ j = i + line.length := by
  have hframes : ∀ f ∈ messages.map (· ++ sequence), IsFrame sequence f := by
    simpa using hframed
  have hsent : line = encode sequence messages := by
    rw [hwrites.line_eq, Nat.sub_zero, hdata]
  rw [hsent] at hline ⊢
  exact ⟨reads_run hvalid i, fun results j hreads => hreads.frames hvalid hframes hline hholds⟩

theorem a_message_of_one_write_is_read :
    ∃ results, Reads sampleCore [1] 1 UInt8.ofNat 0 [quickCall] results 2 ∧ results = [[0, 1]] := by
  have hprompt : Exec Port.next (WriteCall.port UInt8.ofNat 0) (twoBytes.program sampleCore)
      { WriteCall.port UInt8.ofNat 0 with
        moved := [0, 1], issued := 2, chunks := [[0], [1]] } 2 :=
    run_exec (fun _ => promptByte) rfl
  have hvalid : ∀ call ∈ [quickCall], call.Valid sampleCore [1] 1 := by
    intro call hcall
    rw [List.mem_singleton.mp hcall]
    exact ⟨by decide, rfl, by decide, by decide, by decide, by decide⟩
  obtain ⟨⟨results, j, hreads⟩, hall⟩ := sent_messages_are_read sampleCore [1] 1 [[0]] UInt8.ofNat
    UInt8.ofNat 0 [twoBytes] [quickCall] [0, 1] (by decide) (by decide) (.cons hprompt .nil)
    (by decide) hvalid (.cons ⟨by decide, by decide⟩ .nil)
  obtain ⟨hresults, rfl⟩ := hall results j hreads
  exact ⟨results, hreads, hresults⟩

end cpp_bindings_windows
