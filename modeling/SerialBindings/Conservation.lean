-- Transfer conservation: what a transfer reports against what the driver
-- moved. The driver of one call records the bytes of each request, and the
-- bytes that a request moved after its wait had timed out.
import SerialBindings.TransferOutline

open programs

namespace cpp_bindings_windows

/-! ## The driver of one call -/

/-- What the driver does for one call. `asked` is the size of the request in flight, and
`moved` counts the bytes of all the requests. `late` counts the bytes that a request moved
although its wait timed out, until an abort claims the request. -/
structure Driver where
  asked : Nat := 0
  moved : Nat := 0
  timed_out : Bool := false
  late : Nat := 0

/-- The driver after an answer. An answer that moves more than the request asked for cannot
come. -/
def Driver.next (d : Driver) : (action : Action) → Answer action → Option Driver
  | .startPendingIo _ _ request, (start, transferred) =>
    if start.aborted then some d
    else if start.completed then
      if transferred.toNat ≤ request.size.toNat then
        some { d with moved := d.moved + transferred.toNat }
      else none
    else some { d with asked := request.size.toNat }
  | .waitForSingleObject _ _, wait_result =>
    some { d with timed_out := wait_result = WAIT_TIMEOUT }
  | .getOverlappedResult _ _, result =>
    if result.transferred.toNat ≤ d.asked then
      some { d with
        moved := d.moved + result.transferred.toNat
        late := if d.timed_out then result.transferred.toNat else 0 }
    else none
  | .finishPendingIo _ _, aborted => some (if aborted then { d with late := 0 } else d)
  | _, _ => some d

/-- The program may do every action, and the driver answers. -/
def driver : Protocol Action Answer Driver := ⟨fun _ _ => True, Driver.next⟩

theorem driver_ignores {e : Action} (h : e.Quiet ∨ e.Counts) : driver.Ignores e := by
  intro d
  refine ⟨trivial, fun r d' hn => ?_⟩
  cases e <;> first | exact (h.elim id id).elim | (cases hn; rfl)

/-- The rule for an action that the driver does not record. -/
theorem driver_skip {α : Type} {Q : Driver → α → Prop} {e : Action} {k : Answer e → Api α}
    {d : Driver} (he : ∀ r, Driver.next d e r = some d) (h : ∀ r, Follows driver Q (k r) d) :
    Follows driver Q (.act e k) d := by
  refine ⟨trivial, fun r d' hn => ?_⟩
  rw [show driver.next d e r = Driver.next d e r from rfl, he r] at hn
  cases hn
  exact h r

/-! ## One request -/

/-- What one chunk reports, against what the driver moved in it. -/
def Accounts (d d' : Driver) (result : IoResult) : Prop :=
  match result.outcome with
  | .kCompleted =>
    0 ≤ result.bytes_transferred ∧ (d'.moved : Int) = d.moved + result.bytes_transferred ∧
      d'.late = 0
  | .kTimedOut => d'.moved = d.moved + d'.late
  | .kAborted | .kError => d'.late = 0

theorem finish_follows {Q : Driver → IoResult → Prop} {state : StateRef} {o : Operation}
    {k : Bool → Api IoResult} {d : Driver}
    (htrue : Follows driver Q (k true) { d with late := 0 })
    (hfalse : Follows driver Q (k false) d) :
    Follows driver Q (.act (.finishPendingIo state o) k) d := by
  refine ⟨trivial, fun aborted d' hn => ?_⟩
  cases aborted
  · cases hn; exact hfalse
  · cases hn; exact htrue

/-- The final count of a request, with the wait that came before it. -/
theorem result_follows {Q : Driver → IoResult → Prop} {handle : HANDLE} {wait : Bool}
    {k : OverlappedResult → Api IoResult} {d : Driver}
    (h : ∀ result : OverlappedResult, result.transferred.toNat ≤ d.asked →
      Follows driver Q (k result)
        { d with
          moved := d.moved + result.transferred.toNat
          late := if d.timed_out then result.transferred.toNat else 0 }) :
    Follows driver Q (.act (.getOverlappedResult handle wait) k) d := by
  refine ⟨trivial, fun result d' hn => ?_⟩
  simp only [driver, Driver.next] at hn
  split at hn
  · cases hn; exact h result ‹_›
  · cases hn

theorem waitForPendingIo_follows (core : CppCore) (context : HandleContext) (o : Operation)
    (event : HANDLE) (timeout_ms : Int) {d : Driver} (hasked : (d.asked : Int) ≤ INT_MAX) :
    Follows driver (Accounts d) (waitForPendingIo core context o event timeout_ms) d := by
  unfold waitForPendingIo
  simp only [Prog.perform_bind, Prog.pure_eq]
  refine ⟨trivial, fun wait_result d1 hd1 => ?_⟩
  cases hd1
  by_cases htimeout : wait_result = WAIT_TIMEOUT
  · simp only [htimeout, decide_true, if_true]
    refine driver_skip (fun _ => rfl) fun _ => result_follows fun result hle => ?_
    refine finish_follows rfl ?_
    simp [Accounts]
  · simp only [htimeout, decide_false, if_false]
    by_cases hobject : wait_result = WAIT_OBJECT_0
    · simp only [hobject, ne_eq, not_true_eq_false, if_false]
      refine result_follows fun result hle => finish_follows ?_ ?_
      · simp [Accounts]
      · have hcount : intOfDword result.transferred = result.transferred.toNat :=
          intOfDword_of_lt (by simp only at hle; omega)
        cases hcompleted : result.completed
        · simp only [Bool.false_eq_true, if_false, false_or, if_true]
          split <;> simp [Accounts]
        · simp [Accounts, hcount, ERROR_SUCCESS, ERROR_OPERATION_ABORTED]
    · simp only [ne_eq, hobject, not_false_eq_true, if_true]
      refine driver_skip (fun _ => rfl) fun _ => driver_skip (fun _ => rfl) fun _ => ?_
      refine result_follows fun result hle => finish_follows ?_ ?_ <;> simp [Accounts]

theorem requestChunk_follows (core : CppCore) (context : HandleContext) (o : Operation)
    (offset timeout_ms : Int) (event : HANDLE) {size : Int} {d : Driver} (hlate : d.late = 0)
    (h0 : 0 ≤ size) (hsize : size ≤ INT_MAX) :
    Follows driver (Accounts d) (requestChunk core context o offset size timeout_ms event) d := by
  have hdword := dwordOfInt_toNat h0 hsize
  unfold requestChunk
  simp only [Prog.perform_bind, Prog.pure_eq]
  refine ⟨trivial, ?_⟩
  rintro ⟨⟨completed, error, aborted⟩, transferred⟩ d1 hd1
  simp only [driver, Driver.next] at hd1
  cases aborted
  · cases completed
    · simp only [Bool.false_eq_true, if_false] at hd1 ⊢
      cases hd1
      by_cases hpending : error = ERROR_IO_PENDING
      · simp only [hpending, ne_eq, not_true_eq_false, if_false]
        exact waitForPendingIo_follows core context o event timeout_ms
          (d := { d with asked := (dwordOfInt size).toNat }) (by simp only; omega)
      · simp only [ne_eq, hpending, not_false_eq_true, if_true]
        exact finish_follows (by simp [Accounts]) (by simp [Accounts, hlate])
    · simp only [Bool.false_eq_true, if_false, if_true] at hd1 ⊢
      split at hd1
      · cases hd1
        have hcount : intOfDword transferred = transferred.toNat :=
          intOfDword_of_lt (by omega)
        exact finish_follows (by simp [Accounts]) (by simp [Accounts, hcount, hlate])
      · cases hd1
  · simp only [if_true] at hd1 ⊢
    cases hd1
    exact hlate

theorem transferChunk_follows (core : CppCore) (o : Operation) (context : HandleContext)
    (offset timeout_ms : Int) {size : Int} {d : Driver} (hlate : d.late = 0)
    (h0 : 0 ≤ size) (hsize : size ≤ INT_MAX) :
    Follows driver (Accounts d) (transferChunk core o context offset size timeout_ms) d := by
  unfold transferChunk
  simp only [Prog.perform_bind, Prog.pure_eq]
  refine driver_skip (fun _ => rfl) fun event => ?_
  cases event with
  | none => exact driver_skip (fun _ => rfl) fun _ => hlate
  | some event =>
    refine follows_seq
      (requestChunk_follows core context o offset timeout_ms event hlate h0 hsize) ?_
    intro d' result hresult
    exact driver_skip (fun _ => rfl) fun _ => hresult

/-! ## The calls -/

/-- What a call reports: a count is what the driver moved, but for the late bytes. An error
goes with no late byte. -/
def Conserves (d : Driver) (r : Int) : Prop :=
  (0 ≤ r ∧ r + d.late = d.moved) ∨ (r < 0 ∧ d.late = 0)

/-- Between two chunks the call has counted every byte that the driver moved. -/
def conservation (core : CppCore) (o : Operation) : TransferOutline core driver o where
  entry _ d := d.late = 0 ∧ d.moved = 0
  ready _ total d := d.late = 0 ∧ total = d.moved
  counted _ total n d := d.late = 0 ∧ total + n = d.moved
  result := Conserves
  silent _ he := driver_ignores (Or.inl he.quiet)
  refuses _ h := Or.inr ⟨core.value_neg _, h.1⟩
  acquires := by
    intro handle d h _
    refine ⟨trivial, fun state d' hn => ?_⟩
    cases hn
    exact ⟨h.1, by rw [h.2]; rfl⟩
  stops h := Or.inl ⟨by omega, by omega⟩
  fails _ h := Or.inr ⟨core.value_neg _, h.1⟩
  chunk := by
    intro context total size timeout_ms d h hpos hsize
    obtain ⟨hlate, htotal⟩ := h
    refine follows_mono (transferChunk_follows core o context total timeout_ms hlate
      (Int.le_of_lt hpos) (by omega)) fun d' result hresult => ?_
    unfold Accounts at hresult
    cases houtcome : result.outcome with
    | kTimedOut =>
      simp only [houtcome] at hresult ⊢
      exact Or.inl ⟨by omega, by omega⟩
    | kAborted =>
      simp only [houtcome] at hresult ⊢
      exact Or.inr ⟨core.value_neg _, hresult⟩
    | kError =>
      simp only [houtcome] at hresult ⊢
      exact fun code _ => Or.inr ⟨core.value_neg _, hresult⟩
    | kCompleted =>
      simp only [houtcome] at hresult ⊢
      obtain ⟨h1, h2, h3⟩ := hresult
      exact ⟨fun hn => Or.inl ⟨by omega, by omega⟩, fun hn => ⟨h3, by omega⟩⟩
  notes := by
    intro context total n d h _
    exact follows_of_within (noteBytesTransferred_within context.state o n)
      (fun _ he => driver_ignores he) fun _ _ => h

/-- A transfer that returns a count returns what the driver moved for it, for exactly the runs
in which no request moved a byte after its wait had timed out. -/
theorem a_transfer_reports_what_moved_iff_nothing_came_late (core : CppCore) (handle : Int64)
    (timeout_config : Option SerialTimeoutConfig) (callback : Callback) (call : TransferCall)
    {d : Driver} {r : Int}
    (h : Exec Driver.next {} (call.program core handle timeout_config callback) d r) :
    (0 ≤ r → r = d.moved) ↔ d.late = 0 := by
  have hd : Conserves d r := follows_exec
    (TransferOutline.program_follows (conservation core) handle timeout_config callback call
      ⟨rfl, rfl⟩) h
  rcases hd with ⟨h1, h2⟩ | ⟨h1, h2⟩
  · exact ⟨fun hr => by have := hr h1; omega, fun hl _ => by omega⟩
  · exact ⟨fun _ => h2, fun _ hr => by omega⟩

/-- A device that hands over one byte between the timeout of the wait and the cancellation. -/
def lateByte : (action : Action) → Answer action
  | .createEvent => some 7
  | .getOverlappedResult .. => { completed := true, transferred := 1 }
  | action => idleAnswer action

/-- A read of one byte from that device returns 0, and the byte is gone. -/
theorem a_late_byte_is_lost :
    ¬ ∀ (core : CppCore) (handle : Int64) (timeout_config : Option SerialTimeoutConfig)
      (callback : Callback) (call : TransferCall) (d : Driver) (r : Int),
      Exec Driver.next {} (call.program core handle timeout_config callback) d r →
        0 ≤ r → r = d.moved := by
  intro h
  have hrun : Exec Driver.next {}
      (TransferCall.program sampleCore 5 (some ⟨100, 1⟩) none (.serialRead (some 1) 1))
      { asked := 1, moved := 1, timed_out := true, late := 1 } 0 :=
    run_exec (fun _ => lateByte) rfl
  have hlost := h _ _ _ _ _ _ _ hrun (Int.le_refl 0)
  exact absurd hlost (by decide)

/-- A device that delivers one byte before the wait times out. -/
def promptByte : (action : Action) → Answer action
  | .waitForSingleObject .. => WAIT_OBJECT_0
  | action => lateByte action

/-- A read of one byte from that device returns 1. -/
theorem a_byte_in_time_is_reported :
    ∃ (d : Driver) (r : Int),
      Exec Driver.next {}
        (TransferCall.program sampleCore 5 (some ⟨100, 1⟩) none (.serialRead (some 1) 1)) d r ∧
      r = 1 ∧ d.late = 0 ∧ ((0 ≤ r → r = d.moved) ↔ d.late = 0) := by
  have hrun : Exec Driver.next {}
      (TransferCall.program sampleCore 5 (some ⟨100, 1⟩) none (.serialRead (some 1) 1))
      { asked := 1, moved := 1, timed_out := false, late := 0 } 1 :=
    run_exec (fun _ => promptByte) rfl
  exact ⟨_, _, hrun, rfl, rfl,
    a_transfer_reports_what_moved_iff_nothing_came_late _ _ _ _ _ hrun⟩

end cpp_bindings_windows
