-- The buffer of one transfer: what the device puts into it or takes from it,
-- request by request. The loops stay inside the buffer, leave no gap, and
-- make no more requests than the buffer has bytes.
import SerialBindings.LoopRules
import SerialBindings.Memory

open programs memory

namespace cpp_bindings_windows

/-! ## The device and the buffer of one call -/

/-- The device and the buffer of one call. `incoming` is what the device sends, and `moved` the
bytes that went over the line so far, in their order. `landed` holds the bytes of a request that
completed, until `finishPendingIo` counts them as a chunk. -/
structure Port where
  incoming : Nat → UInt8
  buffer : Nat → UInt8
  moved : List UInt8 := []
  request : Option (Operation × Request) := none
  landed : Option (List UInt8) := none
  issued : Nat := 0
  chunks : List (List UInt8) := []

namespace Port

/-- The bytes of the completed chunks. -/
def total (p : Port) : Nat := p.chunks.flatten.length

/-- The next `k` bytes of the request: from the device, or from the buffer. -/
def data (p : Port) (o : Operation) (request : Request) (k : Nat) : List UInt8 :=
  match o with
  | .kRead => cells p.incoming p.moved.length k
  | .kWrite => cells p.buffer request.offset.toNat k

/-- The device after `k` bytes of the request went over the line. -/
def move (p : Port) (o : Operation) (request : Request) (k : Nat) : Port :=
  { p with
    moved := p.moved ++ p.data o request k
    buffer := match o with
      | .kRead => store p.buffer request.offset.toNat (p.data o request k)
      | .kWrite => p.buffer }

/-- The port after an answer. A request that moves more bytes than it asked for cannot come,
and `loadBuffer` answers what stands in the buffer. -/
def next (p : Port) : (action : Action) → Answer action → Option Port
  | .startPendingIo _ o request, (start, transferred) =>
    let p := { p with issued := p.issued + 1, request := none, landed := none }
    if start.aborted then some p
    else if start.completed then
      if transferred.toNat ≤ request.size.toNat then
        some { p.move o request transferred.toNat with
          landed := some (p.data o request transferred.toNat) }
      else none
    else some { p with request := some (o, request) }
  | .getOverlappedResult _ wait, result =>
    match p.request with
    | none => some p
    | some (o, request) =>
      if result.transferred.toNat ≤ request.size.toNat then
        some { p.move o request result.transferred.toNat with
          request := none
          landed := if wait = false ∧ result.completed then
            some (p.data o request result.transferred.toNat) else none }
      else none
  | .finishPendingIo _ _, aborted =>
    some { p with
      landed := none
      chunks := if aborted then p.chunks else p.chunks ++ p.landed.toList }
  | .loadBuffer size, bytes => if bytes = cells p.buffer 0 size.toNat then some p else none
  | _, _ => some p

@[simp] theorem data_length (p : Port) (o : Operation) (request : Request) (k : Nat) :
    (p.data o request k).length = k := by
  unfold data
  cases o <;> simp

/-- The request starts where the last completed chunk ended, asks for a byte or more, stays
inside the `n` bytes of the buffer, and is one of `n` requests at most. -/
structure InBuffer (n : Int) (p : Port) (request : Request) : Prop where
  some_byte : 1 ≤ request.size.toNat
  no_gap : request.offset = p.total
  no_overrun : request.offset + request.size.toNat ≤ n
  count : (p.issued : Int) < n

/-- Only the bytes of completed chunks went over the line, and they stand in the buffer. -/
structure Ready (n : Int) (p : Port) (count : Int) : Prop where
  count_eq : count = p.total
  within : count ≤ n
  issued : (p.issued : Int) ≤ count
  moved : p.moved = p.chunks.flatten
  buffered : cells p.buffer 0 p.total = p.chunks.flatten

/-- The bytes of the completed chunks went over the line first, and they stand in the buffer. -/
structure Done (n : Int) (p : Port) (count : Int) : Prop where
  count_eq : count = p.total
  within : count ≤ n
  issued : (p.issued : Int) ≤ n
  moved : p.moved.take p.total = p.chunks.flatten
  buffered : cells p.buffer 0 p.total = p.chunks.flatten

variable {n count : Int} {p q : Port} {o : Operation} {request : Request} {k : Nat}

theorem Ready.done (h : p.Ready n count) : p.Done n count where
  count_eq := h.count_eq
  within := h.within
  issued := Int.le_trans h.issued h.within
  moved := by rw [h.moved]; exact List.take_length
  buffered := h.buffered

/-- What a request moves goes behind the completed chunks, in the buffer too. -/
theorem Ready.move_buffered (h : p.Ready n count) (hoffset : request.offset = count) :
    cells (p.move o request k).buffer 0 (p.total + k) =
      p.chunks.flatten ++ p.data o request k := by
  have hplace : request.offset.toNat = p.total := by
    rw [hoffset, h.count_eq]
    exact Int.toNat_natCast _
  unfold move
  dsimp only
  rw [hplace]
  cases o with
  | kRead =>
    have hnext := cells_store_next p.buffer p.total (p.data .kRead request k)
    rw [data_length] at hnext
    rw [hnext, h.buffered]
  | kWrite =>
    rw [cells_add, Nat.zero_add, h.buffered]
    unfold data
    rw [hplace]

/-- A request that adds no byte to the chunks leaves the chunks before it as they were. -/
theorem Ready.move_done (h : p.Ready n count) (hoffset : request.offset = count)
    (hmore : count < n) (hmoved : q.moved = (p.move o request k).moved)
    (hbuffer : q.buffer = (p.move o request k).buffer)
    (hchunks : q.chunks.flatten = p.chunks.flatten) (hissued : q.issued = p.issued + 1) :
    q.Done n count := by
  have htotal : q.total = p.total := by unfold total; rw [hchunks]
  have hissued₀ := h.issued
  refine ⟨by rw [htotal, h.count_eq], h.within, by omega, ?_, ?_⟩
  · rw [hmoved, htotal, hchunks]
    unfold move total
    rw [h.moved, List.take_left]
  · have hall := congrArg (List.take p.total) (h.move_buffered (o := o) (k := k) hoffset)
    rw [cells_take, Nat.min_eq_left (Nat.le_add_right _ _)] at hall
    rw [htotal, hbuffer, hall, hchunks]
    unfold total
    exact List.take_left

/-- A request that becomes a chunk with a byte or more goes behind the chunks before it. -/
theorem Ready.move_ready (h : p.Ready n count) (hoffset : request.offset = count)
    (hpos : 0 < k) (hfits : count + k ≤ n) (hmoved : q.moved = (p.move o request k).moved)
    (hbuffer : q.buffer = (p.move o request k).buffer)
    (hchunks : q.chunks = p.chunks ++ [p.data o request k])
    (hissued : q.issued = p.issued + 1) : q.Ready n (count + k) := by
  have hflatten : q.chunks.flatten = p.chunks.flatten ++ p.data o request k := by
    rw [hchunks, List.flatten_append, List.flatten_singleton]
  have htotal : q.total = p.total + k := by
    unfold total
    rw [hflatten, List.length_append, data_length]
  have hissued₀ := h.issued
  refine ⟨?_, hfits, by omega, ?_, ?_⟩
  · rw [htotal, h.count_eq]
    omega
  · rw [hmoved, hflatten]
    unfold move
    rw [h.moved]
  · rw [htotal, hbuffer, hflatten]
    exact h.move_buffered hoffset

/-- A request without a chunk or a byte also counts as one request. -/
theorem Ready.skip_done (h : p.Ready n count) (hmore : count < n) (hmoved : q.moved = p.moved)
    (hbuffer : q.buffer = p.buffer) (hchunks : q.chunks.flatten = p.chunks.flatten)
    (hissued : q.issued = p.issued + 1) : q.Done n count := by
  have htotal : q.total = p.total := by unfold total; rw [hchunks]
  have hissued₀ := h.issued
  refine ⟨by rw [htotal, h.count_eq], h.within, by omega, ?_, ?_⟩
  · rw [hmoved, htotal, hchunks, h.moved]
    exact List.take_length
  · rw [htotal, hbuffer, hchunks, h.buffered]

/-- What a transfer of `n` bytes may do: requests inside its buffer, and a result only of a
request in flight. -/
def staying (o : Operation) (n : Int) : Protocol Action Answer Port where
  allows p
    | .startPendingIo _ operation request => operation = o ∧ p.InBuffer n request
    | .getOverlappedResult .. => p.request ≠ none
    | _ => True
  next := next

theorem staying_ignores {e : Action} (h : e.Quiet ∨ e.Counts) : (staying o n).Ignores e := by
  intro p
  cases e with
  | loadBuffer size =>
    refine ⟨trivial, fun bytes p' hn => ?_⟩
    simp only [staying, next] at hn
    split at hn
    · cases hn; rfl
    · cases hn
  | _ => first
    | exact (h.elim id id).elim
    | exact ⟨trivial, fun r p' hn => by cases hn; rfl⟩

/-- The rule for an action that the port does not answer. -/
theorem staying_skip {α : Type} {Q : Port → α → Prop} {e : Action} {k : Answer e → Api α}
    (hallows : (staying o n).allows p e) (he : ∀ r, next p e r = some p)
    (h : ∀ r, Follows (staying o n) Q (k r) p) : Follows (staying o n) Q (.act e k) p := by
  refine ⟨hallows, fun r p' hn => ?_⟩
  rw [show (staying o n).next p e r = next p e r from rfl, he r] at hn
  cases hn
  exact h r

/-- What one chunk leaves behind. -/
def Chunked (n count : Int) (p : Port) (result : IoResult) : Prop :=
  match result.outcome with
  | .kCompleted =>
    (result.bytes_transferred ≤ 0 → p.Done n count) ∧
      (0 < result.bytes_transferred → p.Ready n (count + result.bytes_transferred))
  | .kTimedOut => p.Done n count
  | .kAborted | .kError => True

/-- The end of a request that is no chunk: whatever `finishPendingIo` answers. -/
theorem dropped_follows {context : HandleContext} {k : Bool → Api IoResult}
    (hp : p.Done n count) (hlanded : p.landed = none)
    (hk : ∀ aborted (p' : Port), p'.Done n count →
      Follows (staying o n) (Chunked n count) (k aborted) p') :
    Follows (staying o n) (Chunked n count)
      (.act (.finishPendingIo context.state o) k) p := by
  refine ⟨trivial, fun aborted p' hn => ?_⟩
  have hn : next p (.finishPendingIo context.state o) aborted = some p' := hn
  simp only [next, hlanded, Option.toList_none, List.append_nil, ite_self,
    Option.some.injEq] at hn
  subst hn
  exact hk aborted _ ⟨hp.count_eq, hp.within, hp.issued, hp.moved, hp.buffered⟩

/-- The end of a request that completed with `bytes`: a chunk, if no abort waits. -/
theorem landed_follows {context : HandleContext} {k : Bool → Api IoResult} {bytes : List UInt8}
    (hlanded : p.landed = some bytes)
    (haborted : ∀ p' : Port, Follows (staying o n) (Chunked n count) (k true) p')
    (hdone : ∀ p' : Port, p'.moved = p.moved → p'.buffer = p.buffer →
      p'.chunks = p.chunks ++ [bytes] → p'.issued = p.issued →
      Follows (staying o n) (Chunked n count) (k false) p') :
    Follows (staying o n) (Chunked n count)
      (.act (.finishPendingIo context.state o) k) p := by
  refine ⟨trivial, fun aborted p' hn => ?_⟩
  have hn : next p (.finishPendingIo context.state o) aborted = some p' := hn
  cases aborted with
  | true => exact haborted p'
  | false =>
    simp only [next, hlanded, Option.some.injEq] at hn
    subst hn
    exact hdone _ rfl rfl rfl rfl

/-- A completed request with `k` bytes, as the loop sees it. -/
theorem Ready.completed (h : p.Ready n count) (hoffset : request.offset = count)
    (hmore : count < n) (hfits : count + k ≤ n) (hmoved : q.moved = (p.move o request k).moved)
    (hbuffer : q.buffer = (p.move o request k).buffer)
    (hchunks : q.chunks = p.chunks ++ [p.data o request k])
    (hissued : q.issued = p.issued + 1) {d : DWORD} (hd : intOfDword d = k) :
    Chunked n count q { outcome := .kCompleted, bytes_transferred := intOfDword d } := by
  unfold Chunked
  dsimp only
  rw [hd]
  refine ⟨fun hzero => ?_, fun hpos => ?_⟩
  · have hempty : p.data o request k = [] := by
      apply List.eq_nil_of_length_eq_zero
      rw [data_length]
      omega
    refine h.move_done hoffset hmore hmoved hbuffer ?_ hissued
    rw [hchunks, hempty, List.flatten_append, List.flatten_singleton, List.append_nil]
  · exact h.move_ready hoffset (by omega) hfits hmoved hbuffer hchunks hissued

/-- The answer to `GetOverlappedResult` for the request in flight. -/
theorem result_stays {α : Type} {Q : Port → α → Prop} {handle : HANDLE} {wait : Bool}
    {k : OverlappedResult → Api α} (hrequest : p.request = some (o, request))
    (h : ∀ result : OverlappedResult, result.transferred.toNat ≤ request.size.toNat →
      Follows (staying o n) Q (k result)
        { p.move o request result.transferred.toNat with
          request := none
          landed := if wait = false ∧ result.completed then
            some (p.data o request result.transferred.toNat) else none }) :
    Follows (staying o n) Q (.act (.getOverlappedResult handle wait) k) p := by
  have hflight : p.request ≠ none := by rw [hrequest]; nofun
  refine ⟨hflight, fun result p' hn => ?_⟩
  have hn : next p (.getOverlappedResult handle wait) result = some p' := hn
  simp only [next, hrequest] at hn
  split at hn
  · cases hn
    exact h result ‹_›
  · cases hn

theorem waitForPendingIo_stays (core : CppCore) (context : HandleContext) (event : HANDLE)
    (timeout_ms : Int) {p₀ : Port} (h : p₀.Ready n count) (hn : n ≤ INT_MAX)
    (hoffset : request.offset = count) (hpos : 1 ≤ request.size.toNat)
    (hfits : count + request.size.toNat ≤ n)
    (hp : p = { p₀ with
      issued := p₀.issued + 1, request := some (o, request), landed := none }) :
    Follows (staying o n) (Chunked n count)
      (waitForPendingIo core context o event timeout_ms) p := by
  have hmore : count < n := by omega
  have hcount₀ := h.count_eq
  have hrequest : p.request = some (o, request) := by rw [hp]
  -- what the request moved, when it becomes no chunk
  have hdropped : ∀ (k : Nat) (q : Port), q.moved = (p₀.move o request k).moved →
      q.buffer = (p₀.move o request k).buffer → q.chunks = p₀.chunks →
      q.issued = p₀.issued + 1 → q.Done n count := fun k q hm hb hc hi =>
    h.move_done hoffset hmore hm hb (by rw [hc]) hi
  unfold waitForPendingIo
  simp only [Prog.perform_bind, Prog.pure_eq]
  refine staying_skip trivial (fun _ => rfl) fun wait_result => ?_
  split
  · refine staying_skip trivial (fun _ => rfl) fun _ => result_stays hrequest fun result hle => ?_
    subst hp
    refine dropped_follows (hdropped _ _ rfl rfl rfl rfl) (by simp) fun aborted p' hdone => ?_
    cases aborted
    · exact hdone
    · trivial
  split
  · refine staying_skip trivial (fun _ => rfl) fun error =>
      staying_skip trivial (fun _ => rfl) fun _ => result_stays hrequest fun result hle => ?_
    subst hp
    refine dropped_follows (hdropped _ _ rfl rfl rfl rfl) (by simp) fun aborted p' hdone => ?_
    cases aborted <;> trivial
  · refine result_stays hrequest fun result hle => ?_
    subst hp
    cases hcompleted : result.completed
    · refine dropped_follows (hdropped _ _ rfl rfl rfl rfl) (by simp)
        fun aborted p' hdone => ?_
      simp only [Bool.false_eq_true, if_false, if_true]
      split <;> trivial
    · have hcount : intOfDword result.transferred = result.transferred.toNat :=
        intOfDword_of_lt (by omega)
      have hlanded : (if false = false ∧ true = true then
          some (p₀.data o request result.transferred.toNat) else none) =
          some (p₀.data o request result.transferred.toNat) := if_pos ⟨rfl, rfl⟩
      refine landed_follows hlanded (fun p' => ?_)
        fun p' hmoved hbuffer hchunks hissued => ?_
      · simp only [if_true, true_or]
        trivial
      · simp only [Bool.false_eq_true, if_true, false_or, ERROR_SUCCESS, ERROR_OPERATION_ABORTED]
        exact h.completed hoffset hmore (by omega) hmoved hbuffer hchunks hissued hcount

theorem requestChunk_stays (core : CppCore) (context : HandleContext) (event : HANDLE)
    (timeout_ms : Int) {size : Int} (h : p.Ready n count) (hn : n ≤ INT_MAX) (hpos : 0 < size)
    (hfits : count + size ≤ n) :
    Follows (staying o n) (Chunked n count)
      (requestChunk core context o count size timeout_ms event) p := by
  have hcount := h.count_eq
  have hissued := h.issued
  have hsize : ((dwordOfInt size).toNat : Int) = size := dwordOfInt_toNat (by omega) (by omega)
  unfold requestChunk
  simp only [Prog.perform_bind, Prog.pure_eq]
  refine ⟨⟨rfl, by simp only; omega, hcount, by simp only; omega, by omega⟩, ?_⟩
  rintro ⟨⟨completed, error, aborted⟩, transferred⟩ p' hp
  simp only [staying, next] at hp
  cases aborted
  · cases completed
    · simp only [Bool.false_eq_true, if_false] at hp ⊢
      cases hp
      split
      · refine dropped_follows (h.skip_done (by omega) rfl rfl rfl rfl) rfl
          fun aborted p' hdone => ?_
        cases aborted <;> trivial
      · exact waitForPendingIo_stays core context event timeout_ms h hn rfl
          (by simp only; omega) (by simp only; omega) rfl
    · simp only [Bool.false_eq_true, if_false, if_true] at hp ⊢
      split at hp
      · rename_i hle
        cases hp
        refine landed_follows rfl (fun p' => trivial) fun p' hmoved hbuffer hchunks hissued => ?_
        exact h.completed rfl (by omega) (by omega) hmoved hbuffer hchunks hissued
          (intOfDword_of_lt (by omega))
      · cases hp
  · trivial

theorem transferChunk_stays (core : CppCore) (context : HandleContext) (timeout_ms : Int)
    {size : Int} (h : p.Ready n count) (hn : n ≤ INT_MAX) (hpos : 0 < size)
    (hfits : count + size ≤ n) :
    Follows (staying o n) (Chunked n count)
      (transferChunk core o context count size timeout_ms) p := by
  unfold transferChunk
  simp only [Prog.perform_bind, Prog.pure_eq]
  refine staying_skip trivial (fun _ => rfl) fun event => ?_
  cases event with
  | none => exact staying_skip trivial (fun _ => rfl) fun _ => trivial
  | some event =>
    refine follows_seq (requestChunk_stays core context event timeout_ms h hn hpos hfits) ?_
    intro p' result hresult
    exact staying_skip trivial (fun _ => rfl) fun _ => hresult

/-! ## The loops -/

/-- What a transfer returns: an error, or the bytes of its chunks. -/
def Returns (n : Int) (p : Port) (r : Int) : Prop := r < 0 ∨ p.Done n r

theorem staying_silent (e : Action) (h : e.Silent) : (staying o n).Ignores e :=
  staying_ignores (Or.inl h.quiet)

theorem note_stays {α : Type} {Q : Port → α → Prop} {state : StateRef} {bytes : Int} {rest : Api α}
    (h : Follows (staying o n) Q rest p) :
    Follows (staying o n) Q (noteBytesTransferred state o bytes >>= fun _ => rest) p :=
  follows_within_seq (noteBytesTransferred_within state o bytes) (fun _ he => staying_ignores he)
    fun _ _ => h

/-- One turn of a loop: what is left to do starts where the chunk ended. -/
theorem turn_stays {core : CppCore} {context : HandleContext} {size timeout_ms : Int}
    {callback : Callback} {code : StatusCode} {message : String} {rest : IoResult → Api Int}
    (h : p.Ready n count) (hn : n ≤ INT_MAX) (hpos : 0 < size) (hfits : count + size ≤ n)
    (hrest : ∀ (result : IoResult) p', p'.Ready n (count + result.bytes_transferred) →
      Follows (staying o n) (Returns n) (rest result) p') :
    Follows (staying o n) (Returns n)
      (loopTurn core o context count size timeout_ms callback code message rest) p := by
  refine turn_follows staying_silent (follows_mono (transferChunk_stays core context timeout_ms h hn
    hpos hfits) fun p' result hresult => ?_)
  unfold Chunked at hresult
  cases houtcome : result.outcome with
  | kTimedOut =>
    simp only [houtcome] at hresult ⊢
    exact Or.inr hresult
  | kAborted =>
    simp only
    exact Or.inl (core.value_neg _)
  | kError =>
    simp only
    exact Or.inl (core.value_neg _)
  | kCompleted =>
    simp only [houtcome] at hresult ⊢
    obtain ⟨hnone, hsome⟩ := hresult
    exact ⟨fun hle => Or.inr (hnone hle), fun hlt => note_stays (hrest _ _ (hsome hlt))⟩

theorem readLoop_stays (core : CppCore) (args : ReadArgs) (context : HandleContext)
    (hn : args.buffer_size ≤ INT_MAX) (turns : Nat) :
    ∀ (count : Int) (p : Port), p.Ready args.buffer_size count →
      Follows (staying .kRead args.buffer_size) (Returns args.buffer_size)
        (readLoop core args context turns count) p := by
  induction turns with
  | zero =>
    intro count p h
    exact Or.inr h.done
  | succ turns ih =>
    intro count p h
    unfold readLoop
    split
    · exact Or.inr h.done
    rename_i hmore
    have hrest : 0 < args.buffer_size - count := by omega
    refine follows_within_seq (nextReadSize_within context.handle args.terminator_size hrest)
      (fun e he => staying_silent e he.silent) fun size hsize => ?_
    cases size with
    | none =>
      exact report_follows staying_silent (failWin32_within core args.callback _)
        (Or.inl (core.value_neg _))
    | some size =>
      obtain ⟨h1, h2⟩ := hsize size rfl
      refine turn_stays h hn h1 (by omega) fun result p' hready => ?_
      refine silent_follows staying_silent trivial fun bytes => ?_
      dsimp only [Prog.bind]
      split
      · exact Or.inr hready.done
      · exact ih _ _ hready

theorem writeLoop_stays (core : CppCore) (config : SerialTimeoutConfig) (callback : Callback)
    (context : HandleContext) (hn : n ≤ INT_MAX) (turns : Nat) :
    ∀ (count : Int) (p : Port), p.Ready n count →
      Follows (staying .kWrite n) (Returns n)
        (writeLoop core n config callback context turns count) p := by
  induction turns with
  | zero =>
    intro count p h
    exact Or.inr h.done
  | succ turns ih =>
    intro count p h
    unfold writeLoop
    split
    · exact Or.inr h.done
    rename_i hmore
    have hrest : 0 < n - count := by omega
    exact turn_stays h hn hrest (by omega) fun result p' hready => ih _ _ hready

/-! ## The calls -/

end Port

/-- The size of the buffer of a transfer. -/
def TransferCall.buffer_size : TransferCall → Int32
  | .serialRead _ buffer_size => buffer_size
  | .serialReadUntilSequence _ buffer_size _ _ => buffer_size
  | .serialWrite _ buffer_size => buffer_size

namespace Port

variable {n count : Int} {p q : Port} {o : Operation} {request : Request} {k : Nat}

theorem fresh_ready {incoming buffer : Nat → UInt8} (hn : 0 < n) :
    Ready n { incoming, buffer } 0 where
  count_eq := rfl
  within := Int.le_of_lt hn
  issued := Int.le_refl 0
  moved := rfl
  buffered := rfl

/-- Before its loop a transfer makes no request. -/
theorem fresh_entry (core : CppCore) (handle : Int64) (pointer : Pointer)
    (timeout_config : Option SerialTimeoutConfig) (incoming buffer : Nat → UInt8) :
    Entry core (staying o n) (Returns n) handle pointer n timeout_config
      (fun _ p => p.Ready n 0) { incoming, buffer } where
  silent := staying_silent
  timeout _ _ := Or.inl (core.value_neg _)
  buffer _ _ := Or.inl (core.value_neg _)
  invalid _ := Or.inl (core.value_neg _)
  allows _ := trivial
  acquires := by
    intro _ hn state p' hp
    cases hp
    exact fresh_ready hn

theorem readImpl_stays (core : CppCore) (handle : Int64) (pointer : Pointer) (buffer_size : Int32)
    (timeout_config : Option SerialTimeoutConfig) (terminator : Option (List UInt8))
    (terminator_size : Int32) (callback : Callback) (incoming buffer : Nat → UInt8) :
    Follows (staying .kRead buffer_size.toInt) (Returns buffer_size.toInt)
      (readImpl core handle pointer buffer_size timeout_config terminator terminator_size callback)
      { incoming, buffer } := by
  have hentry := fresh_entry (o := .kRead) (n := buffer_size.toInt) core handle pointer
    timeout_config incoming buffer
  refine hentry.readImpl_follows (fun _ _ => Or.inl (core.value_neg _))
    fun context p' effective hready => ?_
  exact readLoop_stays core
    { buffer_size := buffer_size.toInt
      timeout_config := timeout_config.getD ⟨0, 0⟩
      terminator := terminator.getD []
      terminator_size := terminator_size.toInt
      callback := effective } context (Int32.toInt_le buffer_size) _ _ _ hready

theorem writeImpl_stays (core : CppCore) (handle : Int64) (pointer : Pointer) (buffer_size : Int32)
    (timeout_config : Option SerialTimeoutConfig) (callback : Callback)
    (incoming buffer : Nat → UInt8) :
    Follows (staying .kWrite buffer_size.toInt) (Returns buffer_size.toInt)
      (writeImpl core handle pointer buffer_size timeout_config callback)
      { incoming, buffer } := by
  have hentry := fresh_entry (o := .kWrite) (n := buffer_size.toInt) core handle pointer
    timeout_config incoming buffer
  refine hentry.writeImpl_follows fun context p' effective hready => ?_
  exact writeLoop_stays core _ effective context (Int32.toInt_le buffer_size) _ _ _ hready

theorem program_stays (core : CppCore) (handle : Int64)
    (timeout_config : Option SerialTimeoutConfig) (callback : Callback) (call : TransferCall)
    (incoming buffer : Nat → UInt8) :
    Follows (staying call.operation call.buffer_size.toInt) (Returns call.buffer_size.toInt)
      (call.program core handle timeout_config callback) { incoming, buffer } := by
  cases call with
  | serialRead pointer buffer_size => exact readImpl_stays ..
  | serialReadUntilSequence pointer buffer_size sequence sequence_size =>
    refine follows_within_seq (effectiveErrorCallback_within callback)
      (fun e he => staying_silent e he.silent) fun callback _ => ?_
    split
    · exact report_follows staying_silent (failMsg_within core callback _ _)
        (Or.inl (core.value_neg _))
    · exact readImpl_stays ..
  | serialWrite pointer buffer_size => exact writeImpl_stays ..

/-! ## The traces of a call -/

/-- What holds after every action that is allowed. -/
structure Sound (o : Operation) (n : Int) (incoming buffer : Nat → UInt8) (p : Port) : Prop where
  incoming_eq : p.incoming = incoming
  issued : (p.issued : Int) ≤ n
  one : p.request ≠ none → p.landed = none
  request : ∀ o' request, p.request = some (o', request) →
    o' = o ∧ (p.total : Int) + request.size.toNat ≤ n
  landed : (p.total : Int) + p.landed.toList.flatten.length ≤ n
  read : o = .kRead → p.moved = cells incoming 0 p.moved.length
  written : o = .kWrite → p.buffer = buffer

theorem Sound.moved_read {incoming buffer : Nat → UInt8} (h : p.Sound o n incoming buffer)
    (ho : o = .kRead) (request : Request) (k : Nat) :
    (p.move o request k).moved = cells incoming 0 (p.move o request k).moved.length := by
  subst ho
  unfold move data
  dsimp only
  rw [List.length_append, cells_length, cells_add, Nat.zero_add, ← h.read rfl, h.incoming_eq]

theorem Sound.buffer_written {incoming buffer : Nat → UInt8} (h : p.Sound o n incoming buffer)
    (ho : o = .kWrite) (request : Request) (k : Nat) : (p.move o request k).buffer = buffer := by
  subst ho
  exact h.written rfl

theorem Sound.start {incoming buffer : Nat → UInt8} {state : StateRef} {o' : Operation}
    {answer : PendingIoStart × DWORD} (h : p.Sound o n incoming buffer) (ho : o' = o)
    (hin : p.InBuffer n request) (hp : next p (.startPendingIo state o' request) answer = some q) :
    q.Sound o n incoming buffer := by
  obtain ⟨start, transferred⟩ := answer
  subst ho
  have hissued : ((p.issued + 1 : Nat) : Int) ≤ n := by
    have := hin.count
    omega
  have hfits : (p.total : Int) + request.size.toNat ≤ n := by
    rw [← hin.no_gap]
    exact hin.no_overrun
  have htotal : (p.total : Int) + (0 : Nat) ≤ n := by omega
  simp only [next] at hp
  split at hp
  · cases hp
    exact ⟨h.incoming_eq, hissued, nofun, nofun, htotal, h.read, h.written⟩
  split at hp
  · split at hp
    · rename_i hle
      cases hp
      refine ⟨h.incoming_eq, hissued, fun hno => absurd rfl hno, nofun, ?_,
        fun ho => h.moved_read ho request _, fun ho => h.buffer_written ho request _⟩
      dsimp only
      rw [Option.toList_some, List.flatten_singleton, data_length]
      unfold total move
      unfold total at hfits
      dsimp only
      omega
    · cases hp
  · cases hp
    refine ⟨h.incoming_eq, hissued, fun _ => rfl, ?_, htotal, h.read, h.written⟩
    intro o'' request' hrequest
    cases hrequest
    exact ⟨rfl, hfits⟩

theorem Sound.result {incoming buffer : Nat → UInt8} {handle : HANDLE} {wait : Bool}
    {answer : OverlappedResult} (h : p.Sound o n incoming buffer)
    (hp : next p (.getOverlappedResult handle wait) answer = some q) :
    q.Sound o n incoming buffer := by
  simp only [next] at hp
  split at hp
  · cases hp
    exact h
  rename_i o' request hrequest
  obtain ⟨rfl, hfits⟩ := h.request _ _ hrequest
  split at hp
  · rename_i hle
    cases hp
    refine ⟨h.incoming_eq, h.issued, fun hno => absurd rfl hno, nofun, ?_,
      fun ho => h.moved_read ho request _, fun ho => h.buffer_written ho request _⟩
    have htotal : (p.move o' request answer.transferred.toNat).total = p.total := rfl
    have hsame := h.landed
    unfold total at hfits
    dsimp only [total, move] at hsame ⊢
    split
    · rw [Option.toList_some, List.flatten_singleton, data_length]
      omega
    · rw [Option.toList_none, List.flatten_nil, List.length_nil]
      omega
  · cases hp

theorem Sound.finish {incoming buffer : Nat → UInt8} {state : StateRef} {o' : Operation}
    {aborted : Bool} (h : p.Sound o n incoming buffer)
    (hp : next p (.finishPendingIo state o') aborted = some q) : q.Sound o n incoming buffer := by
  cases hp
  have hlanded := h.landed
  have hflatten : (p.chunks ++ p.landed.toList).flatten.length =
      p.total + p.landed.toList.flatten.length := by
    rw [List.flatten_append, List.length_append]
    rfl
  refine ⟨h.incoming_eq, h.issued, fun _ => rfl, ?_, ?_, h.read, h.written⟩
  · intro o'' request hrequest
    have hflight : p.request ≠ none := by
      dsimp only at hrequest
      rw [hrequest]
      nofun
    have hno := h.one hflight
    have hsame : (if aborted = true then p.chunks else p.chunks ++ p.landed.toList) = p.chunks := by
      rw [hno, Option.toList_none, List.append_nil, ite_self]
    unfold total
    dsimp only
    rw [hsame]
    exact h.request _ _ hrequest
  · unfold total
    dsimp only
    split
    · rw [Option.toList_none, List.flatten_nil, List.length_nil]
      unfold total at hlanded
      omega
    · rw [hflatten, Option.toList_none, List.flatten_nil, List.length_nil]
      omega

/-- Every allowed action keeps what holds of the port. -/
theorem Sound.keeps {incoming buffer : Nat → UInt8} {e : Action} {r : Answer e}
    (h : p.Sound o n incoming buffer) (he : (staying o n).allows p e)
    (hp : (staying o n).next p e r = some q) : q.Sound o n incoming buffer := by
  have hp : next p e r = some q := hp
  cases e with
  | startPendingIo state o' request => exact h.start he.1 he.2 hp
  | getOverlappedResult handle wait => exact h.result hp
  | finishPendingIo state o' => exact h.finish hp
  | loadBuffer size =>
    simp only [next] at hp
    split at hp
    · cases hp
      exact h
    · cases hp
  | _ =>
    cases hp
    exact h

theorem fresh_sound {incoming buffer : Nat → UInt8} (hn : 0 < n) :
    Sound o n incoming buffer { incoming, buffer } where
  incoming_eq := rfl
  issued := Int.le_of_lt hn
  one h := absurd rfl h
  request := nofun
  landed := Int.le_of_lt hn
  read _ := rfl
  written _ := rfl

/-! ## Every run of a transfer -/

/-- The requests of a trace. -/
def requests : List (Σ action, Answer action) → List Request :=
  List.filterMap fun x => match x with
    | ⟨.startPendingIo _ _ request, _⟩ => some request
    | _ => none

/-- The `DWORD` that the program converts to `int` after an answer. -/
def converted : (action : Action) → Answer action → Option DWORD
  | .startPendingIo .., (start, transferred) =>
    if start.aborted = false ∧ start.completed then some transferred else none
  | .getOverlappedResult _ false, result =>
    if result.completed then some result.transferred else none
  | .clearCommError _, some status =>
    if (status.cbInQue.toNat : Int) > INT_MAX then none else some status.cbInQue
  | _, _ => none

theorem issued_after {tr : List (Σ action, Answer action)} (h : after next p tr = some q) :
    q.issued = p.issued + (requests tr).length := by
  induction tr generalizing p with
  | nil =>
    cases h
    rfl
  | cons x tr ih =>
    obtain ⟨e, r⟩ := x
    simp only [after] at h
    split at h
    · rename_i p1 hp1
      have hrest := ih h
      cases e with
      | startPendingIo state o' request =>
        obtain ⟨start, transferred⟩ := r
        have hone : p1.issued = p.issued + 1 := by
          simp only [next] at hp1
          split at hp1
          · cases hp1; rfl
          split at hp1
          · split at hp1
            · cases hp1; rfl
            · cases hp1
          · cases hp1; rfl
        have hmore : (requests
            (⟨.startPendingIo state o' request, start, transferred⟩ :: tr)).length =
            (requests tr).length + 1 := rfl
        omega
      | getOverlappedResult handle wait =>
        have hsame : p1.issued = p.issued := by
          simp only [next] at hp1
          split at hp1
          · cases hp1; rfl
          split at hp1
          · cases hp1; rfl
          · cases hp1
        rw [hrest, hsame]
        rfl
      | loadBuffer size =>
        simp only [next] at hp1
        split at hp1
        · cases hp1
          exact hrest
        · cases hp1
      | _ =>
        cases hp1
        exact hrest
    · cases h

/-- A count that the program converts is no more than the transfer asked for. -/
theorem Sound.converts {incoming buffer : Nat → UInt8} {e : Action} {r : Answer e}
    (h : p.Sound o n incoming buffer) (he : (staying o n).allows p e) (hp : next p e r = some q)
    (hn : n ≤ INT_MAX) : ∀ d ∈ converted e r, intOfDword d = d.toNat := by
  intro d hd
  cases e with
  | startPendingIo state o' request =>
    obtain ⟨start, transferred⟩ := r
    have hfits := he.2.no_overrun
    have hgap := he.2.no_gap
    simp only [converted] at hd
    split at hd
    · rename_i hdone
      obtain ⟨hnot, hcompleted⟩ := hdone
      cases hd
      simp only [next, hnot, hcompleted, Bool.false_eq_true, if_false, if_true] at hp
      split at hp
      · exact intOfDword_of_lt (by omega)
      · cases hp
    · cases hd
  | getOverlappedResult handle wait =>
    have hflight : p.request ≠ none := he
    obtain ⟨⟨o', request⟩, hrequest⟩ := Option.ne_none_iff_exists'.mp hflight
    have hfits := (h.request _ _ hrequest).2
    simp only [next, hrequest] at hp
    split at hp
    · rename_i hle
      cases wait with
      | true => cases hd
      | false =>
        simp only [converted] at hd
        split at hd
        · cases hd
          exact intOfDword_of_lt (by omega)
        · cases hd
    · cases hp
  | clearCommError handle =>
    cases r with
    | none => cases hd
    | some status =>
      simp only [converted] at hd
      split at hd
      · cases hd
      · rename_i hle
        cases hd
        exact intOfDword_of_lt (by omega)
  | _ => cases hd

end Port

open Port

/-- A transfer of `n` bytes keeps to its buffer after every trace of it, whatever the device
answers. Each request asks for a byte or more inside the buffer, from where the last completed
chunk ended. There are `n` requests at most, and no count overflows an `int`. What the transfer
returns is an error, or the length of the completed chunks: these went over the line first, one
behind the other, and stand in the buffer so. -/
theorem a_transfer_stays_in_its_buffer (core : CppCore) (handle : Int64)
    (timeout_config : Option SerialTimeoutConfig) (callback : Callback) (call : TransferCall)
    (incoming buffer : Nat → UInt8) {tr : List (Σ action, Answer action)} {q : Api Int} {p : Port}
    (hn : 0 < call.buffer_size.toInt)
    (htrace : Traces (call.program core handle timeout_config callback) tr q)
    (hp : after Port.next { incoming, buffer } tr = some p) :
    (∀ tr1 tr2 state o (request : Request) answer,
      tr = tr1 ++ ⟨.startPendingIo state o request, answer⟩ :: tr2 →
      ∃ p1, after Port.next { incoming, buffer } tr1 = some p1 ∧ 1 ≤ request.size.toNat ∧
        request.offset = p1.total ∧
        request.offset + request.size.toNat ≤ call.buffer_size.toInt) ∧
    ((requests tr).length : Int) ≤ call.buffer_size.toInt ∧
    (∀ x ∈ tr, ∀ d ∈ converted x.1 x.2, intOfDword d = d.toNat) ∧
    (p.total : Int) ≤ call.buffer_size.toInt ∧
    ∀ r, q = .ret r → r < 0 ∨
      (r = p.total ∧ cells p.buffer 0 p.total = p.chunks.flatten ∧
        p.moved.take p.total = p.chunks.flatten ∧
        p.chunks.flatten = match call.operation with
          | .kRead => cells incoming 0 p.total
          | .kWrite => cells buffer 0 p.total) := by
  have hfollows := program_stays core handle timeout_config callback call incoming buffer
  have hint := Int32.toInt_le call.buffer_size
  have hrun : ∀ {tr' q' p'}, Traces (call.program core handle timeout_config callback) tr' q' →
      after Port.next { incoming, buffer } tr' = some p' →
      p'.Sound call.operation call.buffer_size.toInt incoming buffer ∧
        Follows (staying call.operation call.buffer_size.toInt)
          (Returns call.buffer_size.toInt) q' p' := fun ht ha =>
    follows_after (fun hi he hnext => Sound.keeps hi he hnext) hfollows (fresh_sound hn) ht ha
  -- before each action of the trace the port is sound, and the action is allowed
  have hbefore : ∀ tr1 tr2 e (r : Answer e), tr = tr1 ++ ⟨e, r⟩ :: tr2 →
      ∃ p1 p2, after Port.next { incoming, buffer } tr1 = some p1 ∧
        p1.Sound call.operation call.buffer_size.toInt incoming buffer ∧
        (staying call.operation call.buffer_size.toInt).allows p1 e ∧
        Port.next p1 e r = some p2 := by
    rintro tr1 tr2 e r rfl
    obtain ⟨k, hk⟩ := traces_split htrace rfl
    rw [after_append] at hp
    obtain ⟨p1, h1, h2⟩ := Option.bind_eq_some_iff.mp hp
    obtain ⟨hsound, hact⟩ := hrun hk h1
    simp only [after] at h2
    split at h2
    · rename_i p2 hnext
      exact ⟨p1, p2, h1, hsound, hact.1, hnext⟩
    · cases h2
  obtain ⟨hsound, hend⟩ := hrun htrace hp
  refine ⟨?_, ?_, ?_, ?_, ?_⟩
  · intro tr1 tr2 state o request answer htr
    obtain ⟨p1, p2, h1, -, hallows, -⟩ := hbefore tr1 tr2 _ answer htr
    exact ⟨p1, h1, hallows.2.some_byte, hallows.2.no_gap, hallows.2.no_overrun⟩
  · have hissued := issued_after hp
    have hle := hsound.issued
    dsimp only at hissued
    omega
  · intro x hx
    obtain ⟨tr1, tr2, htr⟩ := List.append_of_mem hx
    obtain ⟨p1, p2, -, hsound1, hallows, hnext⟩ := hbefore tr1 tr2 x.1 x.2 htr
    exact hsound1.converts hallows hnext hint
  · have hlanded := hsound.landed
    omega
  · rintro r rfl
    have hend : Returns call.buffer_size.toInt p r := hend
    rcases hend with hneg | hdone
    · exact Or.inl hneg
    refine Or.inr ⟨hdone.count_eq, hdone.buffered, hdone.moved, ?_⟩
    cases ho : call.operation with
    | kRead =>
      have hread := hsound.read ho
      have hlong : p.total ≤ p.moved.length := by
        have hlength := congrArg List.length hdone.moved
        rw [List.length_take] at hlength
        unfold total at hlength ⊢
        omega
      have htake := cells_take incoming 0 p.moved.length p.total
      rw [← hread, Nat.min_eq_left hlong] at htake
      rw [← hdone.moved, htake]
    | kWrite =>
      rw [← hdone.buffered, hsound.written ho]

/-- A device that answers each request with one byte, the bytes 0, 1, 2 and so on. -/
def countingByte : (action : Action) → Answer action
  | .createEvent => some 7
  | .waitForSingleObject .. => WAIT_OBJECT_0
  | .getOverlappedResult .. => { completed := true, transferred := 1 }
  | .loadBuffer size => (List.range size.toNat).map UInt8.ofNat
  | action => idleAnswer action

/-- A read of two bytes from that device makes two requests. -/
theorem a_read_of_two_bytes_stays_in_its_buffer :
    ∃ (tr : List (Σ action, Answer action)) (p : Port),
      Traces (TransferCall.program sampleCore 5 (some ⟨100, 1⟩) none (.serialRead (some 1) 2)) tr
        (.ret 2) ∧
      after Port.next { incoming := UInt8.ofNat, buffer := fun _ => 0 } tr = some p ∧
      ((requests tr).length : Int) ≤ 2 ∧ p.chunks = [[0], [1]] := by
  have htrace := trace_traces (fun _ => countingByte)
    (.nil (p := TransferCall.program sampleCore 5 (some ⟨100, 1⟩) none (.serialRead (some 1) 2)))
  have hp : (after Port.next { incoming := UInt8.ofNat, buffer := fun _ => 0 }
      ((TransferCall.program sampleCore 5 (some ⟨100, 1⟩) none (.serialRead (some 1) 2)).trace
        (fun _ => countingByte) []).1).map (·.chunks) = some [[0], [1]] := rfl
  obtain ⟨p, hafter, hchunks⟩ := Option.map_eq_some_iff.mp hp
  have hstays := a_transfer_stays_in_its_buffer sampleCore 5 (some ⟨100, 1⟩) none
    (.serialRead (some 1) 2) UInt8.ofNat (fun _ => 0) (by decide) htrace hafter
  exact ⟨_, p, htrace, hafter, hstays.2.1, hchunks⟩

end cpp_bindings_windows
