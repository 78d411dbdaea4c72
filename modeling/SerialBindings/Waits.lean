-- The waits of a transfer: what every chunk asks of `WaitForSingleObject`.
-- The first chunk waits for the timeout, a later one for its multiple, and no
-- clamp on the way changes a value.
import SerialBindings.TransferBuffer

open programs

namespace cpp_bindings_windows

/-! ## The waits of a trace -/

def INFINITE : DWORD := 4294967295

/-- The answer brings a count of bytes that a request moved. -/
def Action.moves : (action : Action) → Answer action → Bool
  | .startPendingIo .., (start, transferred) => start.completed && transferred != 0
  | .getOverlappedResult .., result => result.transferred != 0
  | _, _ => false

/-- The milliseconds that the action asks of `WaitForSingleObject`. -/
def Action.asks : Action → Option Nat
  | .waitForSingleObject _ milliseconds => some milliseconds.toNat
  | _ => none

/-- A byte has been transferred in the trace. -/
def hasMoved (tr : List (Σ action, Answer action)) : Bool := tr.any fun x => x.1.moves x.2

/-- What the trace asks of `WaitForSingleObject`, wait by wait. -/
def requestedWaits (tr : List (Σ action, Answer action)) : List Nat := tr.filterMap (·.1.asks)

/-! ## The configured waits -/

namespace SerialTimeoutConfig

/-- The timeouts that `validateTimeoutConfig` accepts. -/
structure Valid (config : SerialTimeoutConfig) : Prop where
  timeout : 0 ≤ config.timeout_ms.toInt
  multiplier : 0 ≤ config.multiplier.toInt
  product : config.timeout_ms.toInt * config.multiplier.toInt ≤ INT_MAX

theorem valid_of_accepted {core : CppCore} {config : SerialTimeoutConfig}
    (h : core.validateTimeoutConfig (some config) = none) : config.Valid := by
  obtain ⟨t, ht, h1, h2, h3⟩ := (core.timeout_accepts _).mp h
  cases ht
  exact ⟨h1, h2, h3⟩

/-- The wait before the first byte, and the wait after it. -/
def wait (config : SerialTimeoutConfig) (moved : Bool) : Int :=
  if moved then config.timeout_ms.toInt * config.multiplier.toInt else config.timeout_ms.toInt

/-- The sum of the first `k` waits, when only the first one comes before a byte. -/
def waits (config : SerialTimeoutConfig) : Nat → Int
  | 0 => 0
  | k + 1 => config.wait false + k * config.wait true

variable {config : SerialTimeoutConfig} {core : CppCore} {moved : Bool} {j k : Nat}

theorem Valid.wait_nonneg (h : config.Valid) : 0 ≤ config.wait moved := by
  unfold wait
  split
  · exact Int.mul_nonneg h.timeout h.multiplier
  · exact h.timeout

theorem Valid.wait_le (h : config.Valid) : config.wait moved ≤ INT_MAX := by
  unfold wait
  split
  · exact h.product
  · exact Int32.toInt_le _

theorem waits_succ (config : SerialTimeoutConfig) (k : Nat) :
    config.waits (k + 1) = config.waits k + config.wait (decide (0 < k)) := by
  cases k with
  | zero => simp [waits]
  | succ k =>
    simp only [waits, Nat.zero_lt_succ, decide_true]
    push_cast
    rw [Int.add_mul]
    omega

theorem Valid.waits_mono (h : config.Valid) (hjk : j ≤ k) : config.waits j ≤ config.waits k := by
  induction hjk with
  | refl => exact Int.le_refl _
  | @step k _ ih =>
    have hmore : 0 ≤ config.wait (decide (0 < k)) := h.wait_nonneg
    rw [waits_succ]
    omega

theorem waits_of_pos (config : SerialTimeoutConfig) {n : Int} (hn : 0 < n) :
    config.waits n.toNat = config.wait false + (n - 1) * config.wait true := by
  obtain ⟨k, hk⟩ : ∃ k : Nat, n.toNat = k + 1 := ⟨n.toNat - 1, by omega⟩
  have hbefore : n - 1 = k := by omega
  rw [hk, hbefore]
  rfl

end SerialTimeoutConfig

/-! ## The clamps -/

variable {core : CppCore} {config : SerialTimeoutConfig}

theorem clampTimeout_of_nonneg (core : CppCore) {t : Int} (h : 0 ≤ t) :
    core.clampTimeout t = t := by
  rw [core.clampTimeout_eq]
  omega

/-- The product fits, so nothing saturates. -/
theorem multiplierTimeout_eq (h : config.Valid) :
    multiplierTimeout core config.timeout_ms.toInt config.multiplier.toInt = config.wait true := by
  have hmultiplier := h.multiplier
  have hproduct := h.product
  unfold multiplierTimeout SerialTimeoutConfig.wait
  rw [clampTimeout_of_nonneg core h.timeout, if_pos rfl]
  split
  · have hzero : config.multiplier.toInt = 0 := by omega
    rw [hzero, Int.mul_zero]
  · dsimp only
    rw [if_neg (by omega)]

theorem currentTimeout_eq (h : config.Valid) {total : Int} (htotal : 0 ≤ total) :
    currentTimeout core config total = config.wait (decide (0 < total)) := by
  unfold currentTimeout
  split
  · rename_i hzero
    subst hzero
    exact clampTimeout_of_nonneg core h.timeout
  · have hpos : 0 < total := by omega
    rw [multiplierTimeout_eq h, decide_eq_true hpos]

/-- `WaitForSingleObject` gets the configured wait, as it is. -/
theorem wait_toNat (h : config.Valid) (moved : Bool) :
    ((dwordOfInt (core.clampTimeout (config.wait moved))).toNat : Int) = config.wait moved := by
  rw [clampTimeout_of_nonneg core h.wait_nonneg]
  exact dwordOfInt_toNat h.wait_nonneg h.wait_le

/-! ## The protocol -/

/-- What a call has done so far about its waits. -/
structure Patience where
  moved : Bool := false
  waited : Nat := 0

namespace Patience

def next (p : Patience) (e : Action) (r : Answer e) : Patience where
  moved := p.moved || e.moves r
  waited := p.waited + e.asks.getD 0

/-- A wait is the configured one, and the waits so far stay below the sum for the `n` bytes of
the buffer. -/
def allows (config : SerialTimeoutConfig) (n : Int) (p : Patience) : Action → Prop
  | .waitForSingleObject _ milliseconds =>
    0 < n ∧ milliseconds ≠ INFINITE ∧ (milliseconds.toNat : Int) = config.wait p.moved ∧
      ((p.waited + milliseconds.toNat : Nat) : Int) ≤ config.waits n.toNat
  | _ => True

/-- The protocol of a call that waits as configured. -/
def patient (config : SerialTimeoutConfig) (n : Int) : Protocol Action Answer Patience where
  allows := allows config n
  next p e r := some (p.next e r)

/-- Between two chunks there was a wait for each of the `total` bytes at most. -/
structure Ready (config : SerialTimeoutConfig) (n total : Int) (p : Patience) : Prop where
  nonneg : 0 ≤ total
  moved : p.moved = decide (0 < total)
  waited : (p.waited : Int) ≤ config.waits (min total.toNat n.toNat)

variable {n total : Int} {p p' : Patience}

theorem patient_some {e : Action} {r : Answer e} (h : (patient config n).next p e r = some p') :
    p' = p.next e r := (Option.some.inj h).symm

theorem next_idle {e : Action} {r : Answer e} (hmoves : e.moves r = false) (hasks : e.asks = none) :
    p.next e r = p := by
  unfold next
  rw [hmoves, hasks, Bool.or_false]
  rfl

theorem allows_of_asks {e : Action} (hasks : e.asks = none) : p.allows config n e := by
  cases e with
  | waitForSingleObject => cases hasks
  | _ => trivial

/-- The rule for an action that neither waits nor moves bytes. -/
theorem idle_follows {α : Type} {Q : Patience → α → Prop} {e : Action} {k : Answer e → Api α}
    (hmoves : ∀ r, e.moves r = false) (hasks : e.asks = none)
    (h : ∀ r, Follows (patient config n) Q (k r) p) :
    Follows (patient config n) Q (.act e k) p := by
  refine ⟨allows_of_asks hasks, fun r p' hn => ?_⟩
  rw [patient_some hn, next_idle (hmoves r) hasks]
  exact h r

theorem patient_ignores {e : Action} (h : e.Quiet ∨ e.Counts) : (patient config n).Ignores e := by
  intro p
  have hidle : (∀ r, e.moves r = false) ∧ e.asks = none := by
    cases e <;> first
      | exact (h.elim id id).elim
      | exact ⟨fun _ => rfl, rfl⟩
  refine ⟨allows_of_asks hidle.2, fun r p' hn => ?_⟩
  rw [patient_some hn, next_idle (hidle.1 r) hidle.2]

theorem patient_silent (e : Action) (h : e.Silent) : (patient config n).Ignores e :=
  patient_ignores (Or.inl h.quiet)

/-! ## One chunk -/

/-- After a chunk with a byte or more there was one more wait at most. -/
def Advances (config : SerialTimeoutConfig) (total : Int) (p : Patience) (result : IoResult) :
    Prop :=
  result.outcome = .kCompleted → 0 < result.bytes_transferred →
    p.moved = true ∧ (p.waited : Int) ≤ config.waits (total.toNat + 1)

theorem advances_of_ended (outcome : IoOutcome) (bytes : Int) (error : DWORD)
    (h : outcome ≠ .kCompleted) : Advances config total p ⟨outcome, bytes, error⟩ :=
  fun hcompleted => absurd hcompleted h

/-- A count of a byte or more is no zero. -/
theorem transferred_ne {d : DWORD} (h : 0 < intOfDword d) : (d != 0) = true := by
  rw [bne_iff_ne]
  rintro rfl
  exact absurd h (by decide)

theorem Ready.waited_le (hvalid : config.Valid) (h : p.Ready config n total) :
    (p.waited : Int) ≤ config.waits (total.toNat + 1) :=
  Int.le_trans h.waited (hvalid.waits_mono (by omega))

theorem Ready.advance (hvalid : config.Valid) {result : IoResult} (h : p.Ready config n total)
    (hmore : total < n) (hcompleted : result.outcome = .kCompleted)
    (hpos : 0 < result.bytes_transferred) (hp : Advances config total p' result) :
    p'.Ready config n (total + result.bytes_transferred) := by
  obtain ⟨hmoved, hwaited⟩ := hp hcompleted hpos
  have hnonneg := h.nonneg
  refine ⟨by omega, ?_, ?_⟩
  · rw [hmoved, decide_eq_true (by omega)]
  · exact Int.le_trans hwaited (hvalid.waits_mono (by omega))

/-- The wait of a chunk is the configured one. -/
theorem waitForPendingIo_waits (hvalid : config.Valid) (core : CppCore) (context : HandleContext)
    (o : Operation) (event : HANDLE) (h : p.Ready config n total) (hmore : total < n) :
    Follows (patient config n) (Advances config total)
      (waitForPendingIo core context o event (config.wait p.moved)) p := by
  have hnonneg := h.nonneg
  have hexact : ((dwordOfInt (core.clampTimeout (config.wait p.moved))).toNat : Int) =
      config.wait p.moved := wait_toNat hvalid p.moved
  have hlimit : config.wait p.moved ≤ INT_MAX := hvalid.wait_le
  -- one more wait keeps within the sum for one more byte
  have hone :
      ((p.waited + (dwordOfInt (core.clampTimeout (config.wait p.moved))).toNat : Nat) : Int) ≤
      config.waits (total.toNat + 1) := by
    have hwaited := h.waited
    have hsucc := SerialTimeoutConfig.waits_succ config total.toNat
    have hplace : min total.toNat n.toNat = total.toNat := by omega
    have hmoved : p.moved = decide (0 < total.toNat) := by
      rw [h.moved]
      exact decide_eq_decide.mpr (by omega)
    rw [hplace] at hwaited
    rw [← hmoved] at hsucc
    omega
  unfold waitForPendingIo
  simp only [Prog.perform_bind, Prog.pure_eq]
  refine ⟨⟨by omega, ?_, hexact, Int.le_trans hone (hvalid.waits_mono (by omega))⟩, ?_⟩
  · intro hinfinite
    rw [hinfinite] at hexact
    have hdecimal : INFINITE.toNat = 4294967295 := rfl
    rw [hdecimal] at hexact
    unfold INT_MAX at hlimit
    omega
  intro wait_result p1 hn
  have hp1 := patient_some hn
  have hwaited : (p1.waited : Int) ≤ config.waits (total.toNat + 1) := by
    rw [hp1]
    exact hone
  have hended : ∀ (outcome : IoOutcome) (error : DWORD) (q : Patience), outcome ≠ .kCompleted →
      Advances config total q { outcome, error } := fun _ _ _ hne => advances_of_ended _ _ _ hne
  -- a canceled chunk does not count, whatever its request moved
  have hcancel : ∀ rest : Bool → Api IoResult,
      (∀ aborted q, Follows (patient config n) (Advances config total) (rest aborted) q) →
      Follows (patient config n) (Advances config total)
        (.act (.cancelIoEx context.handle) fun _ => .act (.getOverlappedResult context.handle true)
          fun _ => .act (.finishPendingIo context.state o) rest) p1 := by
    intro rest hrest
    refine idle_follows (fun _ => rfl) rfl fun _ => ⟨trivial, fun _ q _ => ?_⟩
    exact idle_follows (fun _ => rfl) rfl fun aborted => hrest aborted q
  dsimp only
  split
  · refine hcancel _ fun aborted q => ?_
    split
    · exact hended _ _ _ nofun
    · exact hended _ _ _ nofun
  split
  · refine idle_follows (fun _ => rfl) rfl fun error => hcancel _ fun aborted q => ?_
    refine hended _ _ _ ?_
    split <;> nofun
  refine ⟨trivial, fun result p2 hn => ?_⟩
  have hp2 := patient_some hn
  refine idle_follows (fun _ => rfl) rfl fun aborted => ?_
  generalize (if result.completed = true then ERROR_SUCCESS else result.error) = error
  split
  · exact hended _ _ _ nofun
  split
  · exact hended _ _ _ nofun
  · intro _ hpos
    have hmoves : p2.moved = true := by
      have hone : Action.moves (.getOverlappedResult context.handle false) result = true :=
        transferred_ne hpos
      rw [hp2]
      unfold next
      rw [hone, Bool.or_true]
    rw [hp2]
    rw [hp2] at hmoves
    exact ⟨hmoves, hwaited⟩

theorem requestChunk_waits (hvalid : config.Valid) (core : CppCore) (context : HandleContext)
    (o : Operation) (size : Int) (event : HANDLE) (h : p.Ready config n total)
    (hmore : total < n) :
    Follows (patient config n) (Advances config total)
      (requestChunk core context o total size (config.wait p.moved) event) p := by
  unfold requestChunk
  simp only [Prog.perform_bind, Prog.pure_eq]
  refine ⟨trivial, ?_⟩
  rintro ⟨start, transferred⟩ p1 hn
  have hp1 := patient_some hn
  have hwaited : (p1.waited : Int) ≤ config.waits (total.toNat + 1) := by
    have hsame : p1.waited = p.waited := by
      rw [hp1]
      rfl
    rw [hsame]
    exact h.waited_le hvalid
  dsimp only
  split
  · exact advances_of_ended _ _ _ nofun
  split
  · rename_i hcompleted
    refine idle_follows (fun _ => rfl) rfl fun aborted => fun _ hpos => ⟨?_, hwaited⟩
    have hone : Action.moves (.startPendingIo context.state o
        { handle := context.handle, offset := total, size := dwordOfInt size })
        (start, transferred) = true := by
      simp only [Action.moves, hcompleted, Bool.true_and]
      exact transferred_ne hpos
    rw [hp1]
    unfold next
    rw [hone, Bool.or_true]
  rename_i hpending
  split
  · refine idle_follows (fun _ => rfl) rfl fun aborted => advances_of_ended _ _ _ ?_
    split <;> nofun
  · have hsame : p1 = p := by
      rw [hp1]
      refine next_idle ?_ rfl
      simp only [Action.moves, hpending, Bool.false_and]
    rw [hsame]
    exact waitForPendingIo_waits hvalid core context o event h hmore

theorem transferChunk_waits (hvalid : config.Valid) (core : CppCore) (context : HandleContext)
    (o : Operation) (size : Int) (h : p.Ready config n total) (hmore : total < n) :
    Follows (patient config n) (Advances config total)
      (transferChunk core o context total size (currentTimeout core config total)) p := by
  rw [currentTimeout_eq hvalid h.nonneg, ← h.moved]
  unfold transferChunk
  simp only [Prog.perform_bind, Prog.pure_eq]
  refine idle_follows (fun _ => rfl) rfl fun event => ?_
  cases event with
  | none =>
    refine idle_follows (fun _ => rfl) rfl fun error => ?_
    exact advances_of_ended _ _ _ nofun
  | some event =>
    refine follows_seq (requestChunk_waits hvalid core context o size event h hmore) ?_
    intro q result hresult
    exact idle_follows (fun _ => rfl) rfl fun _ => hresult

/-! ## The loops -/

/-- One turn of a loop: its chunk, and its rest when the chunk moved bytes. -/
theorem turn_waits (hvalid : config.Valid) {o : Operation} {context : HandleContext} {size : Int}
    {callback : Callback} {code : StatusCode} {message : String} {rest : IoResult → Api Int}
    (h : p.Ready config n total) (hmore : total < n)
    (hrest : ∀ (result : IoResult) q, q.Ready config n (total + result.bytes_transferred) →
      Follows (patient config n) (fun _ _ => True) (rest result) q) :
    Follows (patient config n) (fun _ _ => True)
      (loopTurn core o context total size (currentTimeout core config total) callback code message
        rest) p := by
  refine turn_follows patient_silent
    (follows_mono (transferChunk_waits hvalid core context o size h hmore) fun q result hq => ?_)
  cases houtcome : result.outcome with
  | kTimedOut => trivial
  | kAborted => trivial
  | kError => trivial
  | kCompleted =>
    refine ⟨fun _ => trivial, fun hpos => ?_⟩
    refine follows_within_seq (noteBytesTransferred_within context.state o _)
      (fun _ he => patient_ignores he) fun _ _ => ?_
    exact hrest result q (h.advance hvalid hmore houtcome hpos hq)

theorem readLoop_waits (hvalid : config.Valid) (core : CppCore) (args : ReadArgs)
    (context : HandleContext) (hconfig : args.timeout_config = config)
    (hn : args.buffer_size = n) (turns : Nat) :
    ∀ (total : Int) (p : Patience), p.Ready config n total →
      Follows (patient config n) (fun _ _ => True) (readLoop core args context turns total) p := by
  induction turns with
  | zero =>
    intro total p h
    trivial
  | succ turns ih =>
    intro total p h
    unfold readLoop
    rw [hconfig]
    split
    · trivial
    rename_i hmore
    have hrest : 0 < args.buffer_size - total := by omega
    refine follows_within_seq (nextReadSize_within context.handle args.terminator_size hrest)
      (fun e he => patient_silent e he.silent) fun size _ => ?_
    cases size with
    | none => exact report_follows patient_silent (failWin32_within core args.callback _) trivial
    | some size =>
      refine turn_waits (o := .kRead) hvalid h (by omega) fun result q hready => ?_
      refine silent_follows patient_silent trivial fun bytes => ?_
      dsimp only [Prog.bind]
      split
      · trivial
      · exact ih _ _ hready

theorem writeLoop_waits (hvalid : config.Valid) (core : CppCore) (callback : Callback)
    (context : HandleContext) (turns : Nat) :
    ∀ (total : Int) (p : Patience), p.Ready config n total →
      Follows (patient config n) (fun _ _ => True)
        (writeLoop core n config callback context turns total) p := by
  induction turns with
  | zero =>
    intro total p h
    trivial
  | succ turns ih =>
    intro total p h
    unfold writeLoop
    split
    · trivial
    · exact turn_waits (o := .kWrite) hvalid h (by omega) fun result q hready => ih _ _ hready

/-! ## The calls -/

/-- Before its loop a transfer does not wait. -/
theorem fresh_entry (core : CppCore) (config : SerialTimeoutConfig) (handle : Int64)
    (pointer : Pointer) (n : Int) :
    Entry core (patient config n) (fun _ _ => True) handle pointer n (some config)
      (fun _ p => p.Ready config n 0) {} where
  silent := patient_silent
  timeout _ _ := trivial
  buffer _ _ := trivial
  invalid _ := trivial
  allows _ := trivial
  acquires := by
    intro _ _ state p hp
    rw [patient_some hp]
    exact ⟨Int.le_refl 0, rfl, by simp [next, Action.asks, SerialTimeoutConfig.waits]⟩

theorem readImpl_waits (hvalid : config.Valid) (core : CppCore) (handle : Int64) (pointer : Pointer)
    (buffer_size : Int32) (terminator : Option (List UInt8)) (terminator_size : Int32)
    (callback : Callback) :
    Follows (patient config buffer_size.toInt) (fun _ _ => True)
      (readImpl core handle pointer buffer_size (some config) terminator terminator_size callback)
      {} := by
  have hentry := fresh_entry core config handle pointer buffer_size.toInt
  refine hentry.readImpl_follows (fun _ _ => trivial) fun context p effective hready => ?_
  exact readLoop_waits (n := buffer_size.toInt) hvalid core _ context rfl rfl _ _ _ hready

theorem program_waits (hvalid : config.Valid) (core : CppCore) (handle : Int64)
    (callback : Callback) (call : TransferCall) :
    Follows (patient config call.buffer_size.toInt) (fun _ _ => True)
      (call.program core handle (some config) callback) {} := by
  cases call with
  | serialRead pointer buffer_size => exact readImpl_waits hvalid ..
  | serialReadUntilSequence pointer buffer_size sequence sequence_size =>
    refine follows_within_seq (effectiveErrorCallback_within callback)
      (fun e he => patient_silent e he.silent) fun callback _ => ?_
    split
    · exact report_follows patient_silent (failMsg_within core callback _ _) trivial
    · exact readImpl_waits hvalid ..
  | serialWrite pointer buffer_size =>
    have hentry := fresh_entry core config handle pointer buffer_size.toInt
    refine hentry.writeImpl_follows fun context p effective hready => ?_
    exact writeLoop_waits hvalid core effective context _ _ _ hready

/-! ## The traces of a call -/

/-- The state of the protocol says what the trace did. -/
structure Tells (config : SerialTimeoutConfig) (n : Int) (tr : List (Σ action, Answer action))
    (p : Patience) : Prop where
  moved : p.moved = hasMoved tr
  waited : p.waited = (requestedWaits tr).sum
  limit : (p.waited : Int) ≤ config.waits n.toNat
  none : n ≤ 0 → requestedWaits tr = []

theorem Tells.step {tr : List (Σ action, Answer action)} {e : Action}
    (r : Answer e) (h : Tells config n tr p) (he : p.allows config n e) :
    Tells config n (tr ++ [⟨e, r⟩]) (p.next e r) := by
  have hlist : requestedWaits (tr ++ [⟨e, r⟩]) = requestedWaits tr ++ e.asks.toList := by
    unfold requestedWaits
    rw [List.filterMap_append]
    cases hasks : e.asks <;> simp [hasks]
  refine ⟨?_, ?_, ?_, ?_⟩
  · unfold hasMoved
    rw [List.any_append]
    simp only [next, h.moved, hasMoved, List.any_cons, List.any_nil, Bool.or_false]
  · rw [hlist, List.sum_append, ← h.waited]
    unfold next
    cases e.asks <;> simp
  · have hlimit := h.limit
    cases e with
    | waitForSingleObject event milliseconds => exact he.2.2.2
    | _ => exact hlimit
  · intro hn
    rw [hlist, h.none hn]
    cases e with
    | waitForSingleObject event milliseconds => exact absurd he.1 (by omega)
    | _ => rfl

theorem traces_wait (hvalid : config.Valid) {core : CppCore} {handle : Int64} {callback : Callback}
    {call : TransferCall} {tr : List (Σ action, Answer action)} {q : Api Int}
    (h : Traces (call.program core handle (some config) callback) tr q) :
    ∃ p, Tells config call.buffer_size.toInt tr p ∧
      Follows (patient config call.buffer_size.toInt) (fun _ _ => True) q p := by
  have hstart : Tells config call.buffer_size.toInt [] {} :=
    ⟨rfl, rfl, hvalid.waits_mono (Nat.zero_le _), fun _ => rfl⟩
  refine follows_traces (fun r hi he => ⟨_, rfl, Tells.step r hi he⟩)
    (program_waits hvalid core handle callback call) hstart h

end Patience

/-- Every wait of a transfer is the configured one. A wait before the first byte of the call is
for the timeout, and a later one for the timeout times the multiplier, in exact arithmetic and
never for `INFINITE`. The waits of a call on a buffer of `n` bytes sum up to the timeout and
`n - 1` multiples of it at most, and on a buffer without bytes there is no wait. -/
theorem every_wait_is_the_configured_one {core : CppCore} {handle : Int64}
    {config : SerialTimeoutConfig} {callback : Callback} {call : TransferCall}
    {tr : List (Σ action, Answer action)} {q : Api Int}
    (hconfig : core.validateTimeoutConfig (some config) = none)
    (htrace : Traces (call.program core handle (some config) callback) tr q) :
    (∀ tr1 tr2 event milliseconds answer,
      tr = tr1 ++ ⟨.waitForSingleObject event milliseconds, answer⟩ :: tr2 →
      milliseconds ≠ INFINITE ∧ (milliseconds.toNat : Int) =
        if hasMoved tr1 then config.timeout_ms.toInt * config.multiplier.toInt
        else config.timeout_ms.toInt) ∧
    (0 < call.buffer_size.toInt → ((requestedWaits tr).sum : Int) ≤ config.timeout_ms.toInt +
      (call.buffer_size.toInt - 1) * (config.timeout_ms.toInt * config.multiplier.toInt)) ∧
    (call.buffer_size.toInt ≤ 0 → requestedWaits tr = []) := by
  have hvalid := SerialTimeoutConfig.valid_of_accepted hconfig
  obtain ⟨p, hp, -⟩ := Patience.traces_wait hvalid htrace
  refine ⟨?_, fun hpos => ?_, hp.none⟩
  · rintro tr1 tr2 event milliseconds answer rfl
    obtain ⟨k, hk⟩ := traces_split htrace rfl
    obtain ⟨p1, hp1, hfollows⟩ := Patience.traces_wait hvalid hk
    obtain ⟨-, hfinite, hexact, -⟩ := hfollows.1
    rw [hp1.moved] at hexact
    exact ⟨hfinite, hexact⟩
  · have hlimit := hp.limit
    rw [hp.waited, SerialTimeoutConfig.waits_of_pos config hpos] at hlimit
    exact hlimit

/-- A read of three bytes, one by one, waits for 100 ms and then twice for 200 ms, and these are
all the waits that a buffer of three bytes allows. -/
theorem a_read_of_three_bytes_waits_as_configured :
    ∃ (tr : List (Σ action, Answer action)) (r : Int),
      Traces (TransferCall.program sampleCore 5 (some ⟨100, 2⟩) none (.serialRead (some 1) 3)) tr
        (.ret r) ∧
      requestedWaits tr = [100, 200, 200] ∧
        ((requestedWaits tr).sum : Int) ≤ 100 + 2 * (100 * 2) := by
  have htrace := trace_traces (fun _ => countingByte)
    (.nil (p := TransferCall.program sampleCore 5 (some ⟨100, 2⟩) none (.serialRead (some 1) 3)))
  have hwaits : requestedWaits
      ((TransferCall.program sampleCore 5 (some ⟨100, 2⟩) none (.serialRead (some 1) 3)).trace
        (fun _ => countingByte) []).1 = [100, 200, 200] := by decide +kernel
  have hbound := (every_wait_is_the_configured_one (by decide) htrace).2.1 (by decide)
  exact ⟨_, _, htrace, hwaits, hbound⟩

/-- The bound on the sum is a bound for buffers with a byte or more. For a size of zero it is
negative, while a call that is refused waits for no time at all. -/
theorem a_read_of_no_bytes_exceeds_a_negative_bound :
    ∃ (tr : List (Σ action, Answer action)) (r : Int),
      sampleCore.validateTimeoutConfig (some ⟨100, 2⟩) = none ∧
      Traces (TransferCall.program sampleCore 5 (some ⟨100, 2⟩) none (.serialRead (some 1) 0)) tr
        (.ret r) ∧
      ¬ ((requestedWaits tr).sum : Int) ≤ 100 + (0 - 1) * (100 * 2) := by
  have htrace := trace_traces (fun _ => countingByte)
    (.nil (p := TransferCall.program sampleCore 5 (some ⟨100, 2⟩) none (.serialRead (some 1) 0)))
  exact ⟨_, _, by decide, htrace, by decide +kernel⟩

end cpp_bindings_windows
