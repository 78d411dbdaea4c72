-- The rules for the loops of the transfers, turn by turn. Each rule gives the
-- arguments that passed the checks, so a proof can rest on the buffer size.
import SerialBindings.CallRules

open programs

namespace cpp_bindings_windows

variable {G : Type} {P : Protocol Action Answer G} {Q : G → Int → Prop} {core : CppCore} {g : G}

/-! ## One turn -/

/-- The rule for a turn: its chunk ends the call, or moved bytes and the turn goes on. -/
theorem turn_follows {o : Operation} {context : HandleContext}
    {total size timeout_ms : Int} {callback : Callback} {code : StatusCode} {message : String}
    {rest : IoResult → Api Int} (hsilent : ∀ e : Action, e.Silent → P.Ignores e)
    (h : Follows P (fun g' result => match result.outcome with
      | .kTimedOut => Q g' total
      | .kAborted => Q g' (core.value (abortCode o))
      | .kError => Q g' (core.value code)
      | .kCompleted =>
        (result.bytes_transferred ≤ 0 → Q g' total) ∧
        (0 < result.bytes_transferred →
          Follows P Q (noteBytesTransferred context.state o result.bytes_transferred >>= fun _ =>
            rest result) g'))
      (transferChunk core o context total size timeout_ms) g) :
    Follows P Q (loopTurn core o context total size timeout_ms callback code message rest) g := by
  refine follows_seq h fun g' result hresult => ?_
  cases houtcome : result.outcome with
  | kTimedOut =>
    simp only [houtcome] at hresult
    exact hresult
  | kAborted =>
    simp only [houtcome] at hresult
    exact report_follows hsilent (failMsg_within core callback _ _) hresult
  | kError =>
    simp only [houtcome] at hresult
    exact silent_follows hsilent trivial fun _ =>
      report_follows hsilent (failWin32_within core callback _) hresult
  | kCompleted =>
    simp only [houtcome] at hresult
    obtain ⟨hnone, hsome⟩ := hresult
    dsimp only
    split
    · rename_i hn
      exact hnone hn
    · rename_i hn
      exact hsome (Int.not_le.mp hn)

/-! ## The turns are enough -/

/-- A turn reads its rest only after a byte or more. -/
theorem turn_congr {o : Operation} {context : HandleContext} {total size timeout_ms : Int}
    {callback : Callback} {code : StatusCode} {message : String} {rest rest' : IoResult → Api Int}
    (h : ∀ result : IoResult, 0 < result.bytes_transferred → rest result = rest' result) :
    loopTurn core o context total size timeout_ms callback code message rest =
      loopTurn core o context total size timeout_ms callback code message rest' := by
  refine bind_congr fun result => ?_
  cases result.outcome with
  | kTimedOut => rfl
  | kAborted => rfl
  | kError => rfl
  | kCompleted =>
    dsimp only
    split
    · rfl
    · rename_i hn
      rw [h result (Int.not_le.mp hn)]

/-- A turn for each byte that is left is enough: one more changes nothing. -/
theorem readLoop_more_turns (args : ReadArgs) (context : HandleContext) (turns : Nat) :
    ∀ total : Int, args.buffer_size ≤ total + turns →
      readLoop core args context (turns + 1) total = readLoop core args context turns total := by
  induction turns with
  | zero =>
    intro total h
    unfold readLoop
    rw [if_pos (by omega)]
  | succ turns ih =>
    intro total h
    rw [readLoop, readLoop]
    split
    · rfl
    refine bind_congr fun size => ?_
    cases size with
    | none => rfl
    | some size =>
      refine turn_congr fun result hpos => bind_congr fun bytes => ?_
      rw [ih _ (by omega)]

theorem writeLoop_more_turns (buffer_size : Int) (config : SerialTimeoutConfig)
    (callback : Callback) (context : HandleContext) (turns : Nat) :
    ∀ total : Int, buffer_size ≤ total + turns →
      writeLoop core buffer_size config callback context (turns + 1) total =
        writeLoop core buffer_size config callback context turns total := by
  induction turns with
  | zero =>
    intro total h
    unfold writeLoop
    rw [if_pos (by omega)]
  | succ turns ih =>
    intro total h
    rw [writeLoop, writeLoop]
    split
    · rfl
    refine turn_congr fun result hpos => ?_
    rw [ih _ (by omega)]

/-! ## The start of a transfer -/

/-- The rule for a check of cpp-core: its failure ends the call, or the call goes on. -/
theorem validate_follows {callback : Callback} {verdict : Option Failure} {rest : Api Int}
    (hsilent : ∀ e : Action, e.Silent → P.Ignores e)
    (hfail : ∀ f, verdict = some f → Q g (core.value f.code))
    (hrest : verdict = none → Follows P Q rest g) :
    Follows P Q (validate core callback verdict >>= fun status =>
      if status < 0 then pure status else rest) g := by
  refine follows_within_seq (validate_within core callback verdict)
    (fun e he => hsilent e he.silent) fun status hstatus => ?_
  cases verdict with
  | none =>
    subst hstatus
    exact hrest rfl
  | some failure =>
    rw [hstatus, if_pos (core.value_neg _)]
    exact hfail failure rfl

/-- What a protocol has to say about a transfer before its loop: the code of each failing
check, and the answer to `ensureHandleState`, after which the loop starts in `loop`. -/
structure Entry (core : CppCore) (P : Protocol Action Answer G) (Q : G → Int → Prop)
    (handle : Int64) (buffer : Pointer) (buffer_size : Int)
    (timeout_config : Option SerialTimeoutConfig) (loop : HandleContext → G → Prop) (g : G) :
    Prop where
  silent : ∀ e : Action, e.Silent → P.Ignores e
  timeout : ∀ f, core.validateTimeoutConfig timeout_config = some f → Q g (core.value f.code)
  buffer : ∀ f, core.validateBuffer buffer buffer_size = some f → Q g (core.value f.code)
  invalid : handle.toInt ≤ 0 → Q g (core.value .kInvalidHandleError)
  allows : 0 < handle.toInt → P.allows g (.ensureHandleState handle.toInt)
  acquires : 0 < handle.toInt → 0 < buffer_size → ∀ state g',
    P.next g (.ensureHandleState handle.toInt) state = some g' → loop ⟨handle.toInt, state⟩ g'

namespace Entry

variable {handle : Int64} {buffer : Pointer} {buffer_size : Int32}
  {timeout_config : Option SerialTimeoutConfig} {loop : HandleContext → G → Prop}

theorem readImpl_follows {terminator : Option (List UInt8)} {terminator_size : Int32}
    {callback : Callback}
    (h : Entry core P Q handle buffer buffer_size.toInt timeout_config loop g)
    (hterminator : 0 < terminator_size.toInt → terminator = none →
      Q g (core.value .kBufferError))
    (hloop : ∀ context g' effective, loop context g' →
      Follows P Q (readLoop core
        { buffer_size := buffer_size.toInt
          timeout_config := timeout_config.getD ⟨0, 0⟩
          terminator := terminator.getD []
          terminator_size := terminator_size.toInt
          callback := effective } context buffer_size.toInt.toNat 0) g') :
    Follows P Q (readImpl core handle buffer buffer_size timeout_config terminator
      terminator_size callback) g := by
  unfold readImpl
  refine follows_within_seq (effectiveErrorCallback_within callback)
    (fun e he => h.silent e he.silent) fun effective _ => ?_
  refine validate_follows h.silent h.timeout fun _ => ?_
  refine validate_follows h.silent h.buffer fun haccepted => ?_
  have hsize := ((core.buffer_accepts _ _).mp haccepted).2
  split
  · rename_i hnull
    exact report_follows h.silent (failMsg_within core effective _ _)
      (hterminator hnull.1 hnull.2)
  · refine withHandleContext_follows h.silent h.invalid fun hpos => ⟨h.allows hpos, ?_⟩
    intro state g' hn
    exact hloop _ _ _ (h.acquires hpos hsize state g' hn)

theorem writeImpl_follows {callback : Callback}
    (h : Entry core P Q handle buffer buffer_size.toInt timeout_config loop g)
    (hloop : ∀ context g' effective, loop context g' →
      Follows P Q (writeLoop core buffer_size.toInt (timeout_config.getD ⟨0, 0⟩) effective
        context buffer_size.toInt.toNat 0) g') :
    Follows P Q (writeImpl core handle buffer buffer_size timeout_config callback) g := by
  unfold writeImpl
  refine follows_within_seq (effectiveErrorCallback_within callback)
    (fun e he => h.silent e he.silent) fun effective _ => ?_
  refine validate_follows h.silent h.timeout fun _ => ?_
  refine validate_follows h.silent h.buffer fun haccepted => ?_
  have hsize := ((core.buffer_accepts _ _).mp haccepted).2
  refine withHandleContext_follows h.silent h.invalid fun hpos => ⟨h.allows hpos, ?_⟩
  intro state g' hn
  exact hloop _ _ _ (h.acquires hpos hsize state g' hn)

end Entry

end cpp_bindings_windows
