-- The books of one call: the bytes of its completed chunks, what it added to
-- the counter of its handle, and what it told the callback of the application.
import Mathlib.Algebra.BigOperators.Group.List.Basic
import SerialBindings.TransferOutline

open programs

namespace cpp_bindings_windows

/-! ## The account of a call -/

/-- What one call did about bytes. `landed` is the count of a request that completed, until
`finishPendingIo`. `chunks` holds the counts of the completed chunks with a byte or more,
`counted` what was added to a counter, `loads` the callbacks that were loaded, and `announced`
the callbacks that were invoked, with their arguments. -/
structure Account where
  operation : Option Operation := none
  state : Option StateRef := none
  asked : Nat := 0
  landed : Option Int := none
  chunks : List Int := []
  counted : List Int := []
  loads : List Callback := []
  announced : List (Callback × Int) := []

namespace Account

/-- The account after an answer. -/
def next (a : Account) : (action : Action) → Answer action → Account
  | .ensureHandleState _, state => { a with state := some state }
  | .startPendingIo _ _ request, (start, transferred) =>
    { a with
      asked := request.size.toNat
      landed := if start.aborted = false ∧ start.completed then some (transferred.toNat : Int)
        else none }
  | .getOverlappedResult _ wait, result =>
    { a with
      landed := if wait = false ∧ result.completed then some (result.transferred.toNat : Int)
        else none }
  | .finishPendingIo _ _, aborted =>
    { a with
      landed := none
      chunks := if aborted then a.chunks else a.chunks ++ a.landed.toList.filter (0 < ·) }
  | .addTotal _ _ bytes, _ => { a with counted := a.counted ++ [bytes] }
  | .loadIoCallback _, callback => { a with loads := a.loads ++ [callback] }
  | .invokeIoCallback callback bytes, _ =>
    { a with announced := a.announced ++ [(callback, bytes)] }
  | _, _ => a

/-- No request moves more bytes than it asked for. -/
def moderate (a : Account) : (action : Action) → Answer action → Bool
  | .startPendingIo _ _ request, (start, transferred) =>
    !start.completed || decide (transferred.toNat ≤ request.size.toNat)
  | .getOverlappedResult _ _, result => decide (result.transferred.toNat ≤ a.asked)
  | _, _ => true

/-- The invocations that go with the loaded callbacks, a chunk for each. -/
def said (loads : List Callback) (chunks : List Int) : List (Callback × Int) :=
  (loads.zip chunks).filter fun x => x.1 ≠ none

/-- Every completed chunk was counted and announced. -/
structure Settled (a : Account) : Prop where
  counted : a.counted = a.chunks
  loads : a.loads.length = a.chunks.length
  announced : a.announced = said a.loads a.chunks

/-- The call acts on the state, for the operation. -/
structure On (a : Account) (o : Operation) (state : StateRef) : Prop where
  operation : a.operation = some o
  state : a.state = some state

/-- A chunk of `n` bytes has completed, and the ones before it are counted and announced. -/
structure Completed (a : Account) (n : Int) : Prop where
  chunks : a.chunks = a.counted ++ [n]
  loads : a.loads.length = a.counted.length
  announced : a.announced = said a.loads a.counted

/-- The last chunk is counted too, and the ones before it are announced. -/
structure Counted (a : Account) : Prop where
  counted : a.counted = a.chunks
  loads : a.chunks.length = a.loads.length + 1
  announced : a.announced = said a.loads a.chunks

/-- The callback for the last chunk is loaded, and not yet invoked with its count. -/
structure Loaded (a : Account) (callback : Callback) (n : Int) : Prop where
  given : callback ≠ none
  counted : a.counted = a.chunks
  last : ∃ chunks loads, a.chunks = chunks ++ [n] ∧ a.loads = loads ++ [callback] ∧
    loads.length = chunks.length ∧ a.announced = said loads chunks

/-- What a transfer may do about bytes, and only on its own state and operation: it counts the
last chunk, then loads the callback, and then invokes the loaded callback with the count. -/
def allows (a : Account) : Action → Prop
  | .ensureHandleState _ => a.chunks = []
  | .startPendingIo state o _ => a.On o state ∧ a.Settled
  | .finishPendingIo state o => a.On o state ∧ a.Settled
  | .addTotal state o bytes => a.On o state ∧ a.Completed bytes
  | .loadIoCallback o => a.operation = some o ∧ a.Counted
  | .invokeIoCallback callback bytes => a.Loaded callback bytes
  | _ => True

end Account

/-- The protocol of a call: its account, with moderate answers only. -/
def bookkeeping : Protocol Action Answer Account where
  allows := Account.allows
  next a e r := if a.moderate e r then some (a.next e r) else none

theorem bookkeeping_some {a a' : Account} {e : Action} {r : Answer e}
    (h : bookkeeping.next a e r = some a') : a.moderate e r = true ∧ a' = a.next e r := by
  simp only [bookkeeping] at h
  split at h
  · rename_i hm
    cases h
    exact ⟨hm, rfl⟩
  · cases h

theorem bookkeeping_silent (e : Action) (h : e.Silent) : bookkeeping.Ignores e := by
  intro a
  cases e <;> first
    | exact h.elim
    | exact ⟨trivial, fun r a' hn => (bookkeeping_some hn).2⟩

/-! ## One request -/

namespace Account

/-- The account is `a` with the chunks `chunks`, whatever its request did. -/
structure Keeps (a : Account) (chunks : List Int) (a' : Account) : Prop where
  operation : a'.operation = a.operation
  state : a'.state = a.state
  chunks : a'.chunks = chunks
  counted : a'.counted = a.counted
  loads : a'.loads = a.loads
  announced : a'.announced = a.announced

theorem keeps_refl (a : Account) : a.Keeps a.chunks a := ⟨rfl, rfl, rfl, rfl, rfl, rfl⟩

/-- What one chunk writes into the account. -/
def Chunked (a : Account) (a' : Account) (result : IoResult) : Prop :=
  match result.outcome with
  | .kCompleted =>
    (result.bytes_transferred ≤ 0 → a.Keeps a.chunks a') ∧
      (0 < result.bytes_transferred → a.Keeps (a.chunks ++ [result.bytes_transferred]) a')
  | .kTimedOut | .kAborted | .kError => a.Keeps a.chunks a'

variable {a b : Account} {chunks : List Int}

theorem Keeps.settled (h : a.Keeps a.chunks b) (ha : a.Settled) : b.Settled := by
  refine ⟨?_, ?_, ?_⟩
  · rw [h.counted, h.chunks, ha.counted]
  · rw [h.loads, h.chunks, ha.loads]
  · rw [h.announced, h.loads, h.chunks, ha.announced]

theorem Keeps.on {o : Operation} {state : StateRef} (h : a.Keeps chunks b) (hon : a.On o state) :
    b.On o state := ⟨h.operation.trans hon.operation, h.state.trans hon.state⟩

/-- The end of a request that did not complete. -/
theorem unfinished_follows {state : StateRef} {o : Operation} {k : Bool → Api IoResult}
    (hon : a.On o state) (ha : a.Settled) (h : a.Keeps a.chunks b) (hlanded : b.landed = none)
    (hk : ∀ aborted b', a.Keeps a.chunks b' → Follows bookkeeping a.Chunked (k aborted) b') :
    Follows bookkeeping a.Chunked (.act (.finishPendingIo state o) k) b := by
  refine ⟨⟨h.on hon, h.settled ha⟩, fun aborted b' hn => ?_⟩
  obtain ⟨-, rfl⟩ := bookkeeping_some hn
  refine hk aborted _ ⟨h.operation, h.state, ?_, h.counted, h.loads, h.announced⟩
  simp only [next, hlanded, Option.toList_none, List.filter_nil, List.append_nil, ite_self]
  exact h.chunks

/-- The end of a request that completed with `n` bytes. -/
theorem finished_follows {state : StateRef} {o : Operation} {k : Bool → Api IoResult} {n : Int}
    (hon : a.On o state) (ha : a.Settled) (h : a.Keeps a.chunks b) (hlanded : b.landed = some n)
    (haborted : ∀ b', a.Keeps a.chunks b' → Follows bookkeeping a.Chunked (k true) b')
    (hdone : ∀ b', (n ≤ 0 → a.Keeps a.chunks b') → (0 < n → a.Keeps (a.chunks ++ [n]) b') →
      Follows bookkeeping a.Chunked (k false) b') :
    Follows bookkeeping a.Chunked (.act (.finishPendingIo state o) k) b := by
  refine ⟨⟨h.on hon, h.settled ha⟩, fun aborted b' hn => ?_⟩
  obtain ⟨-, rfl⟩ := bookkeeping_some hn
  cases aborted with
  | true => exact haborted _ ⟨h.operation, h.state, h.chunks, h.counted, h.loads, h.announced⟩
  | false =>
    refine hdone _ (fun hle => ⟨h.operation, h.state, ?_, h.counted, h.loads, h.announced⟩)
      (fun hlt => ⟨h.operation, h.state, ?_, h.counted, h.loads, h.announced⟩)
    · have hzero : ¬ 0 < n := by omega
      simp only [next, hlanded, Option.toList_some, List.filter_cons, List.filter_nil, hzero,
        decide_false, Bool.false_eq_true, if_false, List.append_nil]
      exact h.chunks
    · simp only [next, hlanded, Option.toList_some, List.filter_cons, List.filter_nil, hlt,
        decide_true, Bool.false_eq_true, if_false, if_true]
      rw [h.chunks]

/-- The answer to `GetOverlappedResult`. -/
theorem overlapped_follows {handle : HANDLE} {wait : Bool} {k : OverlappedResult → Api IoResult}
    (h : a.Keeps a.chunks b)
    (hk : ∀ result b', result.transferred.toNat ≤ b.asked → a.Keeps a.chunks b' →
      b'.landed = (if wait = false ∧ result.completed then some (result.transferred.toNat : Int)
        else none) → Follows bookkeeping a.Chunked (k result) b') :
    Follows bookkeeping a.Chunked (.act (.getOverlappedResult handle wait) k) b := by
  refine ⟨trivial, fun result b' hn => ?_⟩
  obtain ⟨hm, rfl⟩ := bookkeeping_some hn
  simp only [moderate, decide_eq_true_eq] at hm
  exact hk result _ hm ⟨h.operation, h.state, h.chunks, h.counted, h.loads, h.announced⟩ rfl

/-- The rule for an action that writes nothing. -/
theorem skip_follows {α : Type} {Q : Account → α → Prop} {e : Action} {k : Answer e → Api α}
    (hallows : b.allows e) (he : ∀ r, b.next e r = b)
    (h : ∀ r, Follows bookkeeping Q (k r) b) : Follows bookkeeping Q (.act e k) b := by
  refine ⟨hallows, fun r b' hn => ?_⟩
  obtain ⟨-, rfl⟩ := bookkeeping_some hn
  rw [he r]
  exact h r

theorem waitForPendingIo_keeps (core : CppCore) (context : HandleContext) (o : Operation)
    (event : HANDLE) (timeout_ms : Int) (hon : a.On o context.state) (ha : a.Settled)
    (h : a.Keeps a.chunks b) (hasked : (b.asked : Int) ≤ INT_MAX) :
    Follows bookkeeping a.Chunked (waitForPendingIo core context o event timeout_ms) b := by
  unfold waitForPendingIo
  simp only [Prog.perform_bind, Prog.pure_eq]
  refine skip_follows trivial (fun _ => rfl) fun wait_result => ?_
  split
  · refine skip_follows trivial (fun _ => rfl) fun _ =>
      overlapped_follows h fun result b' _ hb hlanded =>
        unfinished_follows hon ha hb hlanded fun aborted b' hb => ?_
    cases aborted <;> exact hb
  split
  · refine skip_follows trivial (fun _ => rfl) fun error =>
      skip_follows trivial (fun _ => rfl) fun _ =>
      overlapped_follows h fun result b' _ hb hlanded =>
        unfinished_follows hon ha hb hlanded fun aborted b' hb => ?_
    cases aborted <;> exact hb
  · refine overlapped_follows h fun result b' hle hb hlanded => ?_
    cases hcompleted : result.completed
    · rw [hcompleted] at hlanded
      refine unfinished_follows hon ha hb hlanded fun aborted b' hb => ?_
      simp only [Bool.false_eq_true, if_false, if_true]
      split <;> exact hb
    · rw [hcompleted] at hlanded
      have hcount : intOfDword result.transferred = result.transferred.toNat :=
        intOfDword_of_lt (by omega)
      refine finished_follows hon ha hb hlanded (fun b' hb => ?_) fun b' hnone hsome => ?_
      · simp only [if_true, true_or]
        exact hb
      · simp only [Bool.false_eq_true, if_true, false_or, ERROR_SUCCESS, ERROR_OPERATION_ABORTED]
        unfold Chunked
        rw [hcount]
        exact ⟨hnone, hsome⟩

theorem requestChunk_keeps (core : CppCore) (context : HandleContext) (o : Operation)
    (offset timeout_ms : Int) (event : HANDLE) {size : Int} (hon : a.On o context.state)
    (ha : a.Settled) (h0 : 0 ≤ size) (hsize : size ≤ INT_MAX) :
    Follows bookkeeping a.Chunked
      (requestChunk core context o offset size timeout_ms event) a := by
  have hdword := dwordOfInt_toNat h0 hsize
  unfold requestChunk
  simp only [Prog.perform_bind, Prog.pure_eq]
  refine ⟨⟨hon, ha⟩, ?_⟩
  rintro ⟨⟨completed, error, aborted⟩, transferred⟩ b hn
  obtain ⟨hm, rfl⟩ := bookkeeping_some hn
  simp only [moderate, Bool.or_eq_true, Bool.not_eq_true', decide_eq_true_eq] at hm
  cases aborted
  · cases completed
    · simp only [Bool.false_eq_true, if_false]
      split
      · refine unfinished_follows hon ha ⟨rfl, rfl, rfl, rfl, rfl, rfl⟩ (by simp [next])
          fun aborted b hb => ?_
        cases aborted <;> exact hb
      · exact waitForPendingIo_keeps core context o event timeout_ms hon ha
          ⟨rfl, rfl, rfl, rfl, rfl, rfl⟩
          (by simp only [next]; omega)
    · simp only [Bool.false_eq_true, if_false, if_true]
      have hle : transferred.toNat ≤ (dwordOfInt size).toNat := hm.resolve_left nofun
      have hcount : intOfDword transferred = transferred.toNat := intOfDword_of_lt (by omega)
      refine finished_follows hon ha ⟨rfl, rfl, rfl, rfl, rfl, rfl⟩ (by simp [next]; rfl)
        (fun b hb => hb)
        fun b hnone hsome => ?_
      unfold Chunked
      simp only [Bool.false_eq_true, if_false]
      rw [hcount]
      exact ⟨hnone, hsome⟩
  · exact ⟨rfl, rfl, rfl, rfl, rfl, rfl⟩

theorem transferChunk_keeps (core : CppCore) (context : HandleContext) (o : Operation)
    (offset timeout_ms : Int) {size : Int} (hon : a.On o context.state)
    (ha : a.Settled) (h0 : 0 ≤ size) (hsize : size ≤ INT_MAX) :
    Follows bookkeeping a.Chunked (transferChunk core o context offset size timeout_ms) a := by
  unfold transferChunk
  simp only [Prog.perform_bind, Prog.pure_eq]
  refine skip_follows trivial (fun _ => rfl) fun event => ?_
  cases event with
  | none => exact skip_follows trivial (fun _ => rfl) fun _ => keeps_refl a
  | some event =>
    refine follows_seq (requestChunk_keeps core context o offset timeout_ms event hon ha h0 hsize)
      ?_
    intro b result hresult
    exact skip_follows trivial (fun _ => rfl) fun _ => hresult

/-! ## The transfers -/

theorem said_snoc {loads : List Callback} {chunks : List Int} (callback : Callback) (n : Int)
    (h : loads.length = chunks.length) :
    said (loads ++ [callback]) (chunks ++ [n]) =
      if callback ≠ none then said loads chunks ++ [(callback, n)] else said loads chunks := by
  unfold said
  rw [List.zip_append h, List.filter_append]
  cases callback <;> simp

/-- A chunk that nothing announces yet leaves what is said as it is. -/
theorem said_longer (loads : List Callback) (chunks : List Int) (n : Int)
    (h : loads.length = chunks.length) : said loads (chunks ++ [n]) = said loads chunks := by
  have hzip : (loads ++ []).zip (chunks ++ [n]) = loads.zip chunks ++ [].zip [n] :=
    List.zip_append h
  rw [List.append_nil, List.zip_nil_left, List.append_nil] at hzip
  unfold said
  rw [hzip]

theorem Completed.counts {a : Account} {n : Int} {state : StateRef} {o : Operation}
    (h : a.Completed n) : (a.next (.addTotal state o n) ()).Counted := by
  refine ⟨h.chunks.symm, ?_, ?_⟩
  · simp only [next, h.chunks, List.length_append, h.loads, List.length_singleton]
  · simp only [next, h.chunks, said_longer _ _ _ h.loads, h.announced]

/-- What a transfer leaves behind: everything is counted and announced, and a count that it
returns is the sum of its chunks. -/
structure Closed (o : Operation) (a : Account) (r : Int) : Prop where
  operation : a.operation = some o
  settled : a.Settled
  count : 0 ≤ r → r = a.chunks.sum ∧ a.state ≠ none

/-- After a chunk has completed, the rest of its turn counts and announces it. -/
theorem notes_settle {o : Operation} {state : StateRef} {n : Int} (hon : a.On o state)
    (h : a.Completed n) :
    Follows bookkeeping (fun b _ => b.On o state ∧ b.Settled ∧ b.chunks = a.chunks)
      (noteBytesTransferred state o n) a := by
  unfold noteBytesTransferred
  simp only [Prog.perform_bind]
  refine ⟨⟨hon, h⟩, fun _ b hn => ?_⟩
  obtain ⟨-, rfl⟩ := bookkeeping_some hn
  refine ⟨⟨hon.operation, h.counts⟩, fun callback b hn => ?_⟩
  obtain ⟨-, rfl⟩ := bookkeeping_some hn
  have hsaid := said_snoc callback n h.loads
  dsimp only
  split
  · rename_i hcallback
    rw [if_pos hcallback] at hsaid
    refine ⟨⟨hcallback, h.chunks.symm, a.counted, a.loads, h.chunks, rfl, h.loads, h.announced⟩,
      fun _ b hn => ?_⟩
    obtain ⟨-, rfl⟩ := bookkeeping_some hn
    refine ⟨⟨hon.operation, hon.state⟩, ⟨h.chunks.symm, ?_, ?_⟩, rfl⟩
    · simp only [next, h.chunks, List.length_append, h.loads, List.length_singleton]
    · simp only [next, h.chunks, h.announced, hsaid]
  · rename_i hcallback
    rw [if_neg hcallback] at hsaid
    refine ⟨⟨hon.operation, hon.state⟩, ⟨h.chunks.symm, ?_, ?_⟩, rfl⟩
    · simp only [next, h.chunks, List.length_append, h.loads, List.length_singleton]
    · simp only [next, h.chunks, h.announced, hsaid]

end Account

/-- Between two chunks every chunk is counted and announced, and the transfer has the sum. -/
def bookkept (core : CppCore) (o : Operation) : TransferOutline core bookkeeping o where
  entry _ a := a.operation = some o ∧ a.Settled ∧ a.chunks = []
  ready context total a := a.On o context.state ∧ a.Settled ∧ total = a.chunks.sum ∧ 0 ≤ total
  counted context total n a :=
    a.On o context.state ∧ a.Completed n ∧ total = a.counted.sum ∧ 0 ≤ total
  result := Account.Closed o
  silent := bookkeeping_silent
  refuses {_ _ code} _ h :=
    ⟨h.1, h.2.1, fun hle => absurd hle (Int.not_le.mpr (core.value_neg code))⟩
  acquires := by
    intro handle a h _
    refine ⟨h.2.2, fun state b hn => ?_⟩
    obtain ⟨-, rfl⟩ := bookkeeping_some hn
    obtain ⟨hoperation, hsettled, hchunks⟩ := h
    refine ⟨⟨hoperation, rfl⟩, ⟨hsettled.counted, hsettled.loads, hsettled.announced⟩, ?_,
      Int.le_refl 0⟩
    simp only [Account.next, hchunks, List.sum_nil]
  stops h := ⟨h.1.operation, h.2.1, fun _ =>
    ⟨h.2.2.1, by rw [h.1.state]; exact Option.some_ne_none _⟩⟩
  fails {_ _ _ code} _ h :=
    ⟨h.1.operation, h.2.1, fun hle => absurd hle (Int.not_le.mpr (core.value_neg code))⟩
  chunk := by
    intro context total size timeout_ms a h hpos hsize
    obtain ⟨hon, hsettled, htotal, hnonneg⟩ := h
    -- an account that keeps the chunks is settled as before
    have hkept : ∀ b, a.Keeps a.chunks b → b.operation = some o ∧ b.Settled ∧
        b.chunks.sum = total ∧ b.state ≠ none := by
      intro b hb
      refine ⟨hb.operation.trans hon.operation, ⟨?_, ?_, ?_⟩, ?_, ?_⟩
      · rw [hb.counted, hb.chunks, hsettled.counted]
      · rw [hb.loads, hb.chunks, hsettled.loads]
      · rw [hb.announced, hb.loads, hb.chunks, hsettled.announced]
      · rw [hb.chunks, htotal]
      · rw [hb.state, hon.state]
        exact Option.some_ne_none _
    have herror : ∀ b code, a.Keeps a.chunks b → Account.Closed o b (core.value code) := by
      intro b code hb
      obtain ⟨h1, h2, -, -⟩ := hkept b hb
      exact ⟨h1, h2, fun hle => absurd hle (Int.not_le.mpr (core.value_neg code))⟩
    have hstop : ∀ b, a.Keeps a.chunks b → Account.Closed o b total := by
      intro b hb
      obtain ⟨h1, h2, h3, h4⟩ := hkept b hb
      exact ⟨h1, h2, fun _ => ⟨h3.symm, h4⟩⟩
    refine follows_mono (Account.transferChunk_keeps core context o total timeout_ms hon
      hsettled (Int.le_of_lt hpos) (by omega)) fun b result hresult => ?_
    unfold Account.Chunked at hresult
    cases houtcome : result.outcome with
    | kTimedOut =>
      simp only [houtcome] at hresult ⊢
      exact hstop b hresult
    | kAborted =>
      simp only [houtcome] at hresult ⊢
      exact herror b _ hresult
    | kError =>
      simp only [houtcome] at hresult ⊢
      exact fun code _ => herror b code hresult
    | kCompleted =>
      simp only [houtcome] at hresult ⊢
      obtain ⟨hnone, hsome⟩ := hresult
      refine ⟨fun hle => hstop b (hnone hle), fun hlt => ?_⟩
      have hb := hsome hlt
      refine ⟨⟨hb.operation.trans hon.operation, hb.state.trans hon.state⟩,
        ⟨?_, ?_, ?_⟩, ?_, hnonneg⟩
      · rw [hb.chunks, hb.counted, hsettled.counted]
      · rw [hb.loads, hb.counted, hsettled.loads, hsettled.counted]
      · rw [hb.announced, hb.loads, hb.counted, hsettled.announced, hsettled.counted]
      · rw [hb.counted, hsettled.counted, htotal]
  notes := by
    intro context total n a h hpos
    obtain ⟨hon, hcompleted, htotal, hnonneg⟩ := h
    refine follows_mono (Account.notes_settle hon hcompleted) fun b _ hb => ?_
    obtain ⟨hon', hsettled, hchunks⟩ := hb
    refine ⟨hon', hsettled, ?_, by omega⟩
    rw [hchunks, hcompleted.chunks, List.sum_append, List.sum_singleton, htotal]

/-! ## Every call -/

namespace Account

/-- The account of a call that transfers nothing. -/
structure Idle (a : Account) : Prop where
  operation : a.operation = none
  settled : a.Settled
  chunks : a.chunks = []

/-- What a call leaves behind. -/
def Ends (c : ApiCall) (a : Account) (r : Int) : Prop :=
  match c.transfers with
  | some o => Closed o a r
  | none => a.Idle

theorem fresh_settled (operation : Option Operation) : Settled { operation } := ⟨rfl, rfl, rfl⟩

theorem Idle.acquires {a b : Account} {handle : HANDLE} {state : StateRef} (h : a.Idle)
    (hn : bookkeeping.next a (.ensureHandleState handle) state = some b) : b.Idle := by
  obtain ⟨-, rfl⟩ := bookkeeping_some hn
  exact ⟨h.operation, ⟨h.settled.counted, h.settled.loads, h.settled.announced⟩, h.chunks⟩

/-- An action of a call that transfers nothing leaves an idle account as it is. -/
theorem idle_next {a b : Account} {e : Action} {r : Answer e} (he : ∀ a : Account, a.next e r = a)
    (h : a.Idle) (hn : bookkeeping.next a e r = some b) : b.Idle := by
  obtain ⟨-, rfl⟩ := bookkeeping_some hn
  rw [he a]
  exact h

theorem idle_open (core : CppCore) (port : Option (List UInt8)) (config : Option SerialConfig)
    (callback : Callback) {a : Account} (h : a.Idle) :
    Follows bookkeeping (fun b _ => b.Idle) (serialOpen core port config callback) a := by
  refine serialOpen_follows bookkeeping_silent (fun _ => h) (fun _ => trivial) ?_ ?_ ?_
  · intro path handle b hn _ _
    exact idle_next (fun _ => rfl) h hn
  · intro path handle b hn _ _
    refine ⟨trivial, fun closed b' hn' _ => ?_⟩
    exact idle_next (fun _ => rfl) (idle_next (fun _ => rfl) h hn) hn'
  · intro path handle b hn _
    have hb := idle_next (fun _ => rfl) h hn
    exact ⟨hb.chunks, fun state b' hn' => hb.acquires hn'⟩

theorem idle_close (core : CppCore) (handle : Int64) (callback : Callback) {a : Account}
    (h : a.Idle) :
    Follows bookkeeping (fun b _ => b.Idle) (serialClose core handle callback) a := by
  refine serialClose_follows bookkeeping_silent (fun _ => h) (fun _ => trivial) ?_ ?_
  · intro _ b hn
    exact idle_next (fun _ => rfl) h hn
  · intro _ b hn
    have hb := idle_next (fun _ => rfl) h hn
    exact ⟨trivial, fun b' hn' => idle_next (fun _ => rfl) hb hn'⟩

theorem idle_abort (core : CppCore) (o : Operation) (handle : Int64) (callback : Callback)
    {a : Account} (h : a.Idle) :
    Follows bookkeeping (fun b _ => b.Idle) (abortCall core o handle callback) a := by
  refine abortCall_follows bookkeeping_silent h (fun _ => h.chunks) fun state b hn => ?_
  have hb := h.acquires hn
  refine ⟨trivial, fun b' hn' => ⟨trivial, fun b'' hn'' => ?_⟩⟩
  exact idle_next (fun _ => rfl) (idle_next (fun _ => rfl) hb hn') hn''

theorem idle_state (core : CppCore) (handle : Int64) (callback : Callback) (call : StateCall)
    {a : Account} (h : a.Idle) :
    Follows bookkeeping (fun b _ => b.Idle) (call.program core handle callback) a := by
  refine call.program_follows (fun e he => ?_) h (fun _ => h.chunks)
    fun state b hn _ => h.acquires hn
  rcases he with he | ⟨state, operation, rfl⟩
  · exact bookkeeping_silent e he
  · exact fun a => ⟨trivial, fun r b hn => (bookkeeping_some hn).2⟩

/-- Every call keeps to the protocol. -/
theorem program_keeps (core : CppCore) (c : ApiCall) :
    Follows bookkeeping (Ends c) (c.program core) { operation := c.transfers } := by
  have hidle : Idle { operation := none } := ⟨rfl, fresh_settled none, rfl⟩
  cases c with
  | serialOpen port config callback => exact idle_open core port config callback hidle
  | serialClose handle callback => exact idle_close core handle callback hidle
  | transfer handle timeout_config callback call =>
    exact TransferOutline.program_follows (bookkept core) handle timeout_config callback call
      ⟨rfl, fresh_settled _, rfl⟩
  | serialAbortRead handle callback => exact idle_abort core .kRead handle callback hidle
  | serialAbortWrite handle callback => exact idle_abort core .kWrite handle callback hidle
  | onState handle callback call => exact idle_state core handle callback call hidle
  | onLine handle callback call =>
    exact call.program_follows bookkeeping_silent fun _ => hidle

/-! ## What every allowed action keeps -/

/-- The account is settled, or the last chunk waits to be counted or announced. -/
def Orderly (a : Account) : Prop :=
  a.Settled ∨ (∃ n, a.Completed n) ∨ a.Counted ∨ ∃ callback n, a.Loaded callback n

/-- An answer about a request only. -/
theorem Settled.request {a : Account} (h : a.Settled) (asked : Nat) (landed : Option Int) :
    Settled { a with asked, landed } := ⟨h.counted, h.loads, h.announced⟩

theorem Orderly.request {a : Account} (h : a.Orderly) (asked : Nat) (landed : Option Int) :
    Orderly { a with asked, landed } := by
  rcases h with h | ⟨n, h⟩ | h | ⟨callback, n, h⟩
  · exact Or.inl ⟨h.counted, h.loads, h.announced⟩
  · exact Or.inr (Or.inl ⟨n, h.chunks, h.loads, h.announced⟩)
  · exact Or.inr (Or.inr (Or.inl ⟨h.counted, h.loads, h.announced⟩))
  · exact Or.inr (Or.inr (Or.inr ⟨callback, n, h.given, h.counted, h.last⟩))

theorem Settled.finishes {a : Account} (h : a.Settled) (state : StateRef) (o : Operation)
    (aborted : Bool) : (a.next (.finishPendingIo state o) aborted).Orderly := by
  have hsame : Orderly { a with landed := none } := Or.inl ⟨h.counted, h.loads, h.announced⟩
  simp only [next]
  split
  · exact hsame
  cases hlanded : a.landed with
  | none =>
    rw [Option.toList_none, List.filter_nil, List.append_nil]
    exact hsame
  | some n =>
    rw [Option.toList_some, List.filter_cons, List.filter_nil]
    split
    · refine Or.inr (Or.inl ⟨n, ?_, ?_, ?_⟩)
      · dsimp only
        rw [h.counted]
      · dsimp only
        rw [h.counted, h.loads]
      · dsimp only
        rw [h.counted, h.announced]
    · rw [List.append_nil]
      exact hsame

theorem Counted.loads_callback {a : Account} (h : a.Counted) (o : Operation) (callback : Callback) :
    (a.next (.loadIoCallback o) callback).Orderly := by
  have hne : a.chunks ≠ [] := by
    intro hempty
    have hlength := h.loads
    rw [hempty] at hlength
    simp at hlength
  obtain ⟨chunks, n, hchunks⟩ := List.eq_nil_or_concat a.chunks |>.resolve_left hne
  rw [List.concat_eq_append] at hchunks
  have hloads : a.loads.length = chunks.length := by
    have hlength := h.loads
    rw [hchunks, List.length_append, List.length_singleton] at hlength
    omega
  have hannounced : a.announced = said a.loads chunks := by
    rw [h.announced, hchunks, said_longer _ _ _ hloads]
  by_cases hcallback : callback = none
  · refine Or.inl ⟨h.counted, ?_, ?_⟩
    · simp only [next, List.length_append, List.length_singleton, hchunks, hloads]
    · have hsaid := said_snoc callback n hloads
      rw [if_neg (fun hne => hne hcallback)] at hsaid
      simp only [next, hchunks, hsaid, hannounced]
  · exact Or.inr (Or.inr (Or.inr ⟨callback, n, hcallback, h.counted, chunks, a.loads, hchunks, rfl,
      hloads, hannounced⟩))

theorem Loaded.invokes {a : Account} {callback : Callback} {n : Int} (h : a.Loaded callback n) :
    (a.next (.invokeIoCallback callback n) ()).Settled := by
  obtain ⟨chunks, loads, hchunks, hloads, hlength, hannounced⟩ := h.last
  have hsaid := said_snoc callback n hlength
  rw [if_pos h.given] at hsaid
  refine ⟨h.counted, ?_, ?_⟩
  · simp only [next, hchunks, hloads, List.length_append, List.length_singleton, hlength]
  · simp only [next, hchunks, hloads, hannounced, hsaid]

theorem Orderly.keeps {a : Account} {e : Action} (r : Answer e) (h : a.Orderly)
    (he : a.allows e) : (a.next e r).Orderly := by
  cases e with
  | ensureHandleState handle =>
    rcases h with h | ⟨n, h⟩ | h | ⟨callback, n, h⟩
    · exact Or.inl ⟨h.counted, h.loads, h.announced⟩
    · exact Or.inr (Or.inl ⟨n, h.chunks, h.loads, h.announced⟩)
    · exact Or.inr (Or.inr (Or.inl ⟨h.counted, h.loads, h.announced⟩))
    · exact Or.inr (Or.inr (Or.inr ⟨callback, n, h.given, h.counted, h.last⟩))
  | startPendingIo state o request => exact h.request _ _
  | getOverlappedResult handle wait => exact h.request _ _
  | finishPendingIo state o => exact Settled.finishes he.2 state o r
  | addTotal state o bytes => exact Or.inr (Or.inr (Or.inl he.2.counts))
  | loadIoCallback o => exact he.2.loads_callback o r
  | invokeIoCallback callback bytes => exact Or.inl (Loaded.invokes he)
  | _ => exact h

/-! ## What an orderly account says -/

theorem Orderly.counts {a : Account} (h : a.Orderly) :
    ∃ waiting, a.chunks = a.counted ++ waiting ∧ waiting.length ≤ 1 := by
  rcases h with h | ⟨n, h⟩ | h | ⟨callback, n, h⟩
  · exact ⟨[], by rw [h.counted, List.append_nil], Nat.zero_le 1⟩
  · exact ⟨[n], h.chunks, Nat.le_refl 1⟩
  · exact ⟨[], by rw [h.counted, List.append_nil], Nat.zero_le 1⟩
  · exact ⟨[], by rw [h.counted, List.append_nil], Nat.zero_le 1⟩

/-- With one callback installed all the time, every chunk with a load was announced to it. -/
theorem said_constant {loads : List Callback} {address : Nat}
    (h : ∀ callback ∈ loads, callback = some address) (chunks : List Int) :
    said loads chunks = (chunks.take loads.length).map fun n => (some address, n) := by
  induction loads generalizing chunks with
  | nil => rfl
  | cons callback loads ih =>
    have hfirst := h callback List.mem_cons_self
    subst hfirst
    cases chunks with
    | nil => rfl
    | cons n chunks =>
      have hrest := ih (fun c hc => h c (List.mem_cons_of_mem _ hc)) chunks
      unfold said at hrest ⊢
      rw [List.zip_cons_cons, List.filter_cons, if_pos (by simp), hrest]
      rfl

theorem Orderly.announces {a : Account} (h : a.Orderly) {address : Nat}
    (hloads : ∀ callback ∈ a.loads, callback = some address) :
    ∃ told waiting, a.chunks = told ++ waiting ∧ waiting.length ≤ 1 ∧
      a.announced = told.map fun n => (some address, n) := by
  rcases h with h | ⟨n, h⟩ | h | ⟨callback, n, h⟩
  · refine ⟨a.chunks, [], (List.append_nil _).symm, Nat.zero_le 1, ?_⟩
    rw [h.announced, said_constant hloads, h.loads, List.take_length]
  · refine ⟨a.counted, [n], h.chunks, Nat.le_refl 1, ?_⟩
    rw [h.announced, said_constant hloads, h.loads, List.take_length]
  · refine ⟨a.chunks.take a.loads.length, a.chunks.drop a.loads.length,
      (List.take_append_drop _ _).symm, ?_, ?_⟩
    · rw [List.length_drop, h.loads]
      omega
    · rw [h.announced, said_constant hloads]
  · obtain ⟨chunks, loads, hchunks, hlast, hlength, hannounced⟩ := h.last
    refine ⟨chunks, [n], hchunks, Nat.le_refl 1, ?_⟩
    have hbefore : ∀ c ∈ loads, c = some address := by
      intro c hc
      apply hloads c
      rw [hlast]
      exact List.mem_append_left _ hc
    rw [hannounced, said_constant hbefore, hlength, List.take_length]

/-- A settled account of a transfer announced all its chunks to the installed callback. -/
theorem Settled.announces {a : Account} (h : a.Settled) {address : Nat}
    (hloads : ∀ callback ∈ a.loads, callback = some address) :
    a.announced = a.chunks.map fun n => (some address, n) := by
  rw [h.announced, said_constant hloads, h.loads, List.take_length]

@[simp] theorem next_operation (a : Account) (e : Action) (r : Answer e) :
    (a.next e r).operation = a.operation := by
  cases e <;> rfl

end Account

end cpp_bindings_windows
