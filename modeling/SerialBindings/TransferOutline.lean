-- The rule for the transfers. Whatever a protocol watches, a proof about the
-- three transfers only has to say what holds between two chunks, and what one
-- chunk does to that.
import SerialBindings.LoopRules

open programs

namespace cpp_bindings_windows

variable {G : Type}

/-- What a protocol has to say about the transfers of one operation. `entry` holds until the
call has the state of its handle, `ready` between two chunks, with the bytes so far, and
`counted` after a chunk that moved bytes. `result` holds of what the call returns. -/
structure TransferOutline (core : CppCore) (P : Protocol Action Answer G) (o : Operation) where
  entry : Int64 → G → Prop
  ready : HandleContext → Int → G → Prop
  counted : HandleContext → Int → Int → G → Prop
  result : G → Int → Prop
  silent : ∀ e : Action, e.Silent → P.Ignores e
  refuses : ∀ {handle g code}, code ≠ abortCode o → entry handle g → result g (core.value code)
  acquires : ∀ {handle g}, entry handle g → 0 < handle.toInt →
    P.allows g (.ensureHandleState handle.toInt) ∧
      ∀ state g', P.next g (.ensureHandleState handle.toInt) state = some g' →
        ready ⟨handle.toInt, state⟩ 0 g'
  stops : ∀ {context total g}, ready context total g → result g total
  fails : ∀ {context total g code}, code ≠ abortCode o → ready context total g →
    result g (core.value code)
  chunk : ∀ {context total size timeout_ms g}, ready context total g → 0 < size →
    total + size ≤ INT_MAX →
    Follows P (fun g' r => match r.outcome with
      | .kTimedOut => result g' total
      | .kAborted => result g' (core.value (abortCode o))
      | .kError => ∀ code, code ≠ abortCode o → result g' (core.value code)
      | .kCompleted => (r.bytes_transferred ≤ 0 → result g' total) ∧
          (0 < r.bytes_transferred → counted context total r.bytes_transferred g'))
      (transferChunk core o context total size timeout_ms) g
  notes : ∀ {context total n g}, counted context total n g → 0 < n →
    Follows P (fun g' _ => ready context (total + n) g')
      (noteBytesTransferred context.state o n) g

namespace TransferOutline

variable {core : CppCore} {P : Protocol Action Answer G} {o : Operation}

/-- The end of a chunk, as both loops treat it. -/
theorem ended_follows (T : TransferOutline core P o) {context : HandleContext} {total : Int}
    {size timeout_ms : Int} {callback : Callback} {message : String}
    {rest : IoResult → Api Int} {g : G}
    (code : StatusCode) (hcode : code ≠ abortCode o) (h : T.ready context total g)
    (hpos : 0 < size) (hsize : total + size ≤ INT_MAX)
    (hrest : ∀ (r : IoResult) g', T.ready context (total + r.bytes_transferred) g' →
      Follows P T.result (rest r) g') :
    Follows P T.result
      (loopTurn core o context total size timeout_ms callback code message rest) g := by
  refine turn_follows T.silent
    (follows_mono (T.chunk h hpos hsize) fun g' result hresult => ?_)
  cases houtcome : result.outcome with
  | kTimedOut =>
    simp only [houtcome] at hresult
    exact hresult
  | kAborted =>
    simp only [houtcome] at hresult
    exact hresult
  | kError =>
    simp only [houtcome] at hresult
    exact hresult code hcode
  | kCompleted =>
    simp only [houtcome] at hresult
    obtain ⟨hnone, hsome⟩ := hresult
    refine ⟨hnone, fun hmoved => ?_⟩
    exact follows_seq (T.notes (hsome hmoved) hmoved) fun g'' _ hready => hrest _ _ hready

theorem readLoop_follows (T : TransferOutline core P .kRead) (args : ReadArgs)
    (context : HandleContext) (hsize : args.buffer_size ≤ INT_MAX) (turns : Nat) :
    ∀ (total : Int) (g : G), T.ready context total g →
      Follows P T.result (readLoop core args context turns total) g := by
  induction turns with
  | zero =>
    intro total g h
    exact T.stops h
  | succ turns ih =>
    intro total g h
    unfold readLoop
    split
    · exact T.stops h
    rename_i hmore
    have hrest : 0 < args.buffer_size - total := by omega
    refine follows_within_seq (nextReadSize_within context.handle args.terminator_size hrest)
      (fun e he => T.silent e he.silent) fun size hn => ?_
    cases size with
    | none =>
      exact report_follows T.silent (failWin32_within core args.callback _) (T.fails (by decide) h)
    | some size =>
      obtain ⟨h1, h2⟩ := hn size rfl
      refine T.ended_follows .kReadError (by decide) h h1 (by omega) fun result g' hready => ?_
      refine silent_follows T.silent trivial fun bytes => ?_
      dsimp only [Prog.bind]
      split
      · exact T.stops hready
      · exact ih _ _ hready

theorem writeLoop_follows (T : TransferOutline core P .kWrite) (config : SerialTimeoutConfig)
    (callback : Callback) (context : HandleContext) {buffer_size : Int}
    (hsize : buffer_size ≤ INT_MAX) (turns : Nat) :
    ∀ (total : Int) (g : G), T.ready context total g →
      Follows P T.result (writeLoop core buffer_size config callback context turns total) g := by
  induction turns with
  | zero =>
    intro total g h
    exact T.stops h
  | succ turns ih =>
    intro total g h
    unfold writeLoop
    split
    · exact T.stops h
    rename_i hmore
    have hrest : 0 < buffer_size - total := by omega
    refine T.ended_follows .kWriteError (by decide) h hrest (by omega) fun result g' hready => ?_
    exact ih _ _ hready

/-- The checks of the timeouts and of the buffer end the call, or let it go on. -/
theorem checks_follow (T : TransferOutline core P o) {handle : Int64} {callback : Callback}
    {buffer : Pointer} {buffer_size : Int} {timeout_config : Option SerialTimeoutConfig}
    {rest : Api Int} {g : G} (h : T.entry handle g) (hrest : Follows P T.result rest g) :
    Follows P T.result (do
      let timeout_status ← validate core callback (core.validateTimeoutConfig timeout_config)
      if timeout_status < 0 then return timeout_status
      else
        let buffer_status ← validate core callback (core.validateBuffer buffer buffer_size)
        if buffer_status < 0 then return buffer_status else rest) g := by
  refine validate_follows T.silent (fun f hf => T.refuses ?_ h) fun _ =>
    validate_follows T.silent (fun f hf => T.refuses ?_ h) fun _ => hrest
  · rw [core.timeout_code _ f hf]
    cases o <;> decide
  · rw [core.buffer_code _ _ f hf]
    cases o <;> decide

theorem acquired_follows (T : TransferOutline core P o) {handle : Int64} {callback : Callback}
    {rest : HandleContext → Api Int} {g : G} (h : T.entry handle g)
    (hrest : ∀ context g', T.ready context 0 g' → Follows P T.result (rest context) g') :
    Follows P T.result (withHandleContext core handle callback rest) g := by
  refine withHandleContext_follows T.silent (fun _ => T.refuses (by cases o <;> decide) h)
    fun hpos => ?_
  obtain ⟨hallows, hnext⟩ := T.acquires h hpos
  exact ⟨hallows, fun state g' hn => hrest _ _ (hnext state g' hn)⟩

theorem readImpl_follows (T : TransferOutline core P .kRead) (handle : Int64) (buffer : Pointer)
    (buffer_size : Int32) (timeout_config : Option SerialTimeoutConfig)
    (terminator : Option (List UInt8)) (terminator_size : Int32) (callback : Callback) {g : G}
    (h : T.entry handle g) :
    Follows P T.result (readImpl core handle buffer buffer_size timeout_config terminator
      terminator_size callback) g := by
  unfold readImpl
  refine follows_within_seq (effectiveErrorCallback_within callback)
    (fun e he => T.silent e he.silent) fun callback _ => T.checks_follow h ?_
  split
  · exact report_follows T.silent (failMsg_within core callback _ _) (T.refuses (by decide) h)
  · refine T.acquired_follows h fun context g' hready => ?_
    exact T.readLoop_follows _ context (Int32.toInt_le buffer_size) _ _ _ hready

theorem writeImpl_follows (T : TransferOutline core P .kWrite) (handle : Int64) (buffer : Pointer)
    (buffer_size : Int32) (timeout_config : Option SerialTimeoutConfig) (callback : Callback)
    {g : G} (h : T.entry handle g) :
    Follows P T.result
      (writeImpl core handle buffer buffer_size timeout_config callback) g := by
  unfold writeImpl
  refine follows_within_seq (effectiveErrorCallback_within callback)
    (fun e he => T.silent e he.silent) fun callback _ => T.checks_follow h ?_
  refine T.acquired_follows h fun context g' hready => ?_
  exact T.writeLoop_follows _ callback context (Int32.toInt_le buffer_size) _ _ _ hready

/-- A transfer follows the protocol, when there is an outline for its operation. -/
theorem program_follows (T : ∀ o, TransferOutline core P o) (handle : Int64)
    (timeout_config : Option SerialTimeoutConfig) (callback : Callback) (call : TransferCall)
    {g : G} (h : (T call.operation).entry handle g) :
    Follows P (T call.operation).result (call.program core handle timeout_config callback) g := by
  cases call with
  | serialRead buffer buffer_size => exact (T .kRead).readImpl_follows _ _ _ _ _ _ _ h
  | serialReadUntilSequence buffer buffer_size sequence sequence_size =>
    refine follows_within_seq (effectiveErrorCallback_within callback)
      (fun e he => (T .kRead).silent e he.silent) fun callback _ => ?_
    split
    · exact report_follows (T .kRead).silent (failMsg_within core callback _ _)
        ((T .kRead).refuses (by decide) h)
    · exact (T .kRead).readImpl_follows _ _ _ _ _ _ _ h
  | serialWrite buffer buffer_size => exact (T .kWrite).writeImpl_follows _ _ _ _ _ h

end TransferOutline

end cpp_bindings_windows
