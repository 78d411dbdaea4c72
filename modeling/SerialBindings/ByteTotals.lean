-- Byte accounting over whole runs: the counters of the handle states, what the
-- calls returned, and what the callbacks of the application were told, with
-- any number of threads in any interleaving.
import Mathlib.Algebra.BigOperators.Group.Finset.Basic
import Mathlib.Algebra.BigOperators.Intervals
import SerialBindings.Bookkeeping
import SerialBindings.Process

open programs

namespace cpp_bindings_windows

/-! ## The books of a run -/

/-- The accounts of the calls of a run. `accounts` has the last call of each thread, `inside`
the threads whose call runs, and `closed` the calls that returned, with what they returned.
`invoked` holds each invocation of a callback about bytes, with the operation of the call that
made it. -/
structure Books where
  accounts : ThreadId → Account := fun _ => {}
  inside : Finset ThreadId := ∅
  closed : List (Account × Int) := []
  invoked : List (Option Operation × Callback × Int) := []

/-- The books after one more step. -/
def Books.write (b : Books) : ApiLabel → Books
  | .enter t c =>
    { b with
      accounts := Function.update b.accounts t { operation := c.transfers }
      inside := insert t b.inside }
  | .did t e r =>
    { b with
      accounts := Function.update b.accounts t ((b.accounts t).next e r)
      invoked := b.invoked ++ match e with
        | .invokeIoCallback callback bytes => [((b.accounts t).operation, callback, bytes)]
        | _ => [] }
  | .leave t _ r =>
    { b with
      inside := b.inside.erase t
      closed := b.closed ++ [(b.accounts t, r)] }

def books (ls : List ApiLabel) : Books := ls.foldl Books.write {}

theorem books_snoc (ls : List ApiLabel) (l : ApiLabel) :
    books (ls ++ [l]) = (books ls).write l := by
  unfold books
  rw [List.foldl_append]
  rfl

/-- No request moves more bytes than it asked for. -/
def moderately (ls : List ApiLabel) (_ : World) : ApiLabel → Prop
  | .did t e r => ((books ls).accounts t).moderate e r = true
  | _ => True

instance (ls : List ApiLabel) (w : World) : (l : ApiLabel) → Decidable (moderately ls w l)
  | .enter _ _ => isTrue trivial
  | .did t e r => inferInstanceAs (Decidable (((books ls).accounts t).moderate e r = true))
  | .leave _ _ _ => isTrue trivial

/-- What the call counted for the operation on the state. -/
def Account.countedOn (state : StateRef) (o : Operation) (a : Account) : Int :=
  if a.operation = some o ∧ a.state = some state then a.counted.sum else 0

/-- What the chunks of the call moved for the operation on the state. -/
def Account.chunksOn (state : StateRef) (o : Operation) (a : Account) : Int :=
  if a.operation = some o ∧ a.state = some state then a.chunks.sum else 0

/-- What the call told the callbacks, for the operation. -/
def Account.toldOn (o : Operation) (a : Account) : Int :=
  if a.operation = some o then (a.announced.map (·.2)).sum else 0

/-- What a call that returned contributes to a counter: the count that it returned, and after
an error the bytes of the chunks that completed. -/
def contribution (state : StateRef) (o : Operation) (x : Account × Int) : Int :=
  if x.1.operation = some o ∧ x.1.state = some state then
    if 0 ≤ x.2 then x.2 else x.1.chunks.sum
  else 0

/-- The arguments of the invocations by the calls of the operation, in their order. -/
def Books.arguments (b : Books) (o : Operation) : List Int :=
  b.invoked.filterMap fun x => if x.1 = some o then some x.2.2 else none

/-! ## The counters of the world -/

/-- The byte counter of a handle state. -/
def World.total (w : World) (state : StateRef) (o : Operation) : Int :=
  (w.registry.states state).total o

/-- What an action adds to a byte counter. -/
def Action.adds : Action → StateRef → Operation → Int
  | .addTotal state o bytes, state', o' => if state' = state ∧ o' = o then bytes else 0
  | _, _, _ => 0

namespace World

variable {t : ThreadId} {w w' : World}

theorem total_modify (f : HandleState → HandleState) (openHandles : Finset HANDLE)
    (cancelled : ThreadId → Bool) (s s' : StateRef) (o : Operation) :
    total ⟨w.registry.modify s f, openHandles, cancelled⟩ s' o =
      if s' = s then (f (w.registry.states s)).total o else w.total s' o := by
  simp only [total, Registry.modify_states]
  split <;> rfl

/-- A section on one state that keeps its counters keeps all counters. -/
theorem total_modify_same {f : HandleState → HandleState} {s : StateRef}
    (hf : ∀ o, (f (w.registry.states s)).total o = (w.registry.states s).total o)
    (openHandles : Finset HANDLE) (cancelled : ThreadId → Bool) (s' : StateRef) (o : Operation) :
    total ⟨w.registry.modify s f, openHandles, cancelled⟩ s' o = w.total s' o := by
  rw [total_modify]
  split
  · rename_i hs
    rw [hf o, hs]
    rfl
  · rfl

theorem startPendingIo_total (s : HandleState) (o o' : Operation) (t : ThreadId)
    (completed : Bool) (error : DWORD) :
    (s.startPendingIo o t completed error).2.total o' = s.total o' := by
  cases hflag : s.abortFlag o with
  | true =>
    rw [HandleState.startPendingIo_aborted _ _ _ _ _ hflag, HandleState.total_storeAbortFlag]
  | false =>
    rw [HandleState.startPendingIo_registered _ _ _ _ _ hflag, HandleState.total_storePending,
      HandleState.total_storeAbortFlag]

theorem perform_next {e : Action} {r : Answer e} (h : w.perform t e r = some w') :
    w.registry.next ≤ w'.registry.next := by
  by_cases he : e.TouchesRegistry
  · cases e with
    | ensureHandleState handle =>
      rcases perform_ensure h with ⟨-, rfl⟩ | ⟨-, hr, -, -, hnext, -⟩
      · exact Nat.le_refl _
      · rw [hnext, hr]
        exact Nat.le_succ _
    | removeHandleState handle | addTotal state operation bytes | storeAbort state operation =>
      cases h
      exact Nat.le_refl _
    | startPendingIo state operation request =>
      obtain ⟨start, transferred⟩ := r
      exact Nat.le_of_eq (perform_start h).1.next.symm
    | finishPendingIo state operation => exact Nat.le_of_eq (perform_finish h).1.next.symm
    | _ => exact he.elim
  · rw [perform_registry he h]

/-- What one action does to the counters. A new state has the counters that nothing touched. -/
theorem perform_total {e : Action} {r : Answer e}
    (hnew : ∀ s o, w.registry.next ≤ s → w.total s o = 0) (h : w.perform t e r = some w')
    (s : StateRef) (o : Operation) : w'.total s o = w.total s o + e.adds s o := by
  by_cases he : e.TouchesRegistry
  · cases e with
    | addTotal state operation bytes =>
      cases h
      rw [total_modify, HandleState.total_addTotal]
      unfold Action.adds
      by_cases hs : s = state
      · subst hs
        by_cases ho : operation = o
        · subst ho
          simp [total]
        · simp [total, ho, Ne.symm ho]
      · simp [hs]
    | ensureHandleState handle =>
      refine Eq.trans ?_ (add_zero _).symm
      rcases perform_ensure h with ⟨-, rfl⟩ | ⟨-, hr, -, hstates, -⟩
      · rfl
      · unfold total
        rw [hstates]
        by_cases hs : s = r
        · subst hs
          rw [Function.update_self]
          have := hnew s o (Nat.le_of_eq hr.symm)
          unfold total at this
          rw [this]
          cases o <;> rfl
        · rw [Function.update_of_ne hs]
    | removeHandleState handle =>
      cases h
      exact (add_zero _).symm
    | storeAbort state operation =>
      cases h
      rw [total_modify_same (fun o => HandleState.total_storeAbortFlag ..)]
      exact (add_zero _).symm
    | startPendingIo state operation request =>
      simp only [perform] at h
      split at h
      · cases h
        rw [total_modify_same (fun o => startPendingIo_total ..)]
        exact (add_zero _).symm
      · cases h
    | finishPendingIo state operation =>
      simp only [perform] at h
      split at h
      · cases h
        rw [total_modify_same (fun o => HandleState.finishPendingIo_total ..)]
        exact (add_zero _).symm
      · cases h
    | _ => exact he.elim
  · have hadds : e.adds s o = 0 := by
      cases e with
      | addTotal => exact absurd trivial he
      | _ => rfl
    unfold total
    rw [perform_registry he h, hadds, add_zero]

end World

/-! ## What one action does to an account -/

namespace Account

variable {a : Account} {e : Action}

/-- A call that has no chunk has counted nothing. -/
theorem Orderly.counted_none (h : a.Orderly) (hchunks : a.chunks = []) : a.counted = [] := by
  obtain ⟨waiting, hcounts, -⟩ := h.counts
  rw [hchunks] at hcounts
  exact (List.append_eq_nil_iff.mp hcounts.symm).1

/-- What an allowed action adds to a counter, it adds to the account of its call. -/
theorem countedOn_next (h : a.Orderly) (he : a.allows e) (r : Answer e) (state : StateRef)
    (o : Operation) : (a.next e r).countedOn state o = a.countedOn state o + e.adds state o := by
  cases e with
  | ensureHandleState handle =>
    have hcounted := h.counted_none he
    have hzero : (Action.ensureHandleState handle).adds state o = 0 := rfl
    unfold countedOn
    simp only [next, hcounted, List.sum_nil, ite_self, hzero, add_zero]
  | addTotal state' o' bytes =>
    obtain ⟨hon, -⟩ := he
    unfold countedOn Action.adds
    simp only [next, hon.operation, hon.state, Option.some.injEq, List.sum_append,
      List.sum_singleton]
    by_cases hboth : o' = o ∧ state' = state
    · rw [if_pos hboth, if_pos hboth, if_pos ⟨hboth.2.symm, hboth.1.symm⟩]
    · rw [if_neg hboth, if_neg hboth, if_neg fun hno => hboth ⟨hno.2.symm, hno.1.symm⟩]
      rfl
  | _ => exact (add_zero _).symm

/-- Only an invocation adds to what was told. -/
theorem toldOn_next (a : Account) (r : Answer e) (o : Operation) :
    (a.next e r).toldOn o = a.toldOn o +
      (match e with
        | .invokeIoCallback _ bytes => if a.operation = some o then bytes else 0
        | _ => 0) := by
  cases e with
  | invokeIoCallback callback bytes =>
    unfold toldOn
    simp only [next, List.map_append, List.sum_append, List.map_cons, List.map_nil,
      List.sum_singleton]
    split
    · rfl
    · rfl
  | _ => exact (add_zero _).symm

end Account

/-- A sum over the threads inside a call, after the account of one of them changed. -/
theorem sum_accounts {threads : Finset ThreadId} (accounts : ThreadId → Account) {t : ThreadId}
    (ht : t ∈ threads) (a : Account) (f : Account → Int) :
    ∑ u ∈ threads, f (Function.update accounts t a u) + f (accounts t) =
      ∑ u ∈ threads, f (accounts u) + f a := by
  have hother : ∑ u ∈ threads.erase t, f (Function.update accounts t a u) =
      ∑ u ∈ threads.erase t, f (accounts u) := by
    apply Finset.sum_congr rfl
    intro u hu
    rw [Function.update_of_ne (Finset.ne_of_mem_erase hu)]
  rw [← Finset.add_sum_erase threads _ ht,
    ← Finset.add_sum_erase threads (fun u => f (accounts u)) ht,
    hother, Function.update_self]
  omega

/-- A sum over the threads inside a call, after one more thread entered with nothing. -/
theorem sum_enter {threads : Finset ThreadId} {accounts : ThreadId → Account} {t : ThreadId}
    (ht : t ∉ threads) (a : Account) (f : Account → Int) (hf : f a = 0) :
    ∑ u ∈ insert t threads, f (Function.update accounts t a u) = ∑ u ∈ threads, f (accounts u) := by
  rw [Finset.sum_insert ht, Function.update_self, hf, zero_add]
  apply Finset.sum_congr rfl
  intro u hu
  rw [Function.update_of_ne]
  rintro rfl
  exact ht hu

/-! ## The invariant -/

/-- What holds of an account after the steps. -/
structure Account.Known (ls : List ApiLabel) (w : World) (a : Account) : Prop where
  made : ∀ s, a.state = some s → s < w.registry.next
  owned : a.state = none → a.chunks = []
  heard : ∀ callback ∈ a.loads, ∃ t o, a.operation = some o ∧
    .did t (.loadIoCallback o) callback ∈ ls

theorem Account.Known.later {ls : List ApiLabel} {w w' : World} {a : Account} (h : a.Known ls w)
    (l : ApiLabel) (hnext : w.registry.next ≤ w'.registry.next) : a.Known (ls ++ [l]) w' := by
  refine ⟨fun s hs => Nat.lt_of_lt_of_le (h.made s hs) hnext, h.owned, fun callback hc => ?_⟩
  obtain ⟨t, o, ho, hl⟩ := h.heard callback hc
  exact ⟨t, o, ho, List.mem_append_left _ hl⟩

theorem Account.Known.did {ls : List ApiLabel} {w w' : World} {a : Account} {t : ThreadId}
    {e : Action} {r : Answer e} (h : a.Known ls w) (he : a.allows e)
    (hw : w.perform t e r = some w') : (a.next e r).Known (ls ++ [.did t e r]) w' := by
  have hlater := h.later (.did t e r) (World.perform_next hw)
  cases e with
  | ensureHandleState handle =>
    refine ⟨fun s hs => ?_, fun _ => he, hlater.heard⟩
    cases hs
    exact w'.registry.made _ _ (World.perform_ensure_registers hw)
  | loadIoCallback o =>
    refine ⟨hlater.made, hlater.owned, fun callback hc => ?_⟩
    rcases List.mem_append.mp hc with hold | hnew
    · exact hlater.heard callback hold
    · rw [List.mem_singleton] at hnew
      subst hnew
      exact ⟨t, o, he.1, List.mem_append_right _ (List.mem_singleton_self _)⟩
  | finishPendingIo state o =>
    refine ⟨hlater.made, fun hno => ?_, hlater.heard⟩
    have hstate : a.state = none := hno
    rw [he.1.state] at hstate
    cases hstate
  | _ => exact ⟨hlater.made, hlater.owned, hlater.heard⟩

/-- With one callback installed for the operation, the call loaded no other. -/
theorem Account.Known.installed {ls : List ApiLabel} {w : World} {a : Account} {o : Operation}
    {address : Nat} (h : a.Known ls w) (ho : a.operation = some o)
    (hinstalled : ∀ t callback, .did t (.loadIoCallback o) callback ∈ ls →
      callback = some address) : ∀ callback ∈ a.loads, callback = some address := by
  intro callback hc
  obtain ⟨t, o', ho', hl⟩ := h.heard callback hc
  rw [ho, Option.some.injEq] at ho'
  subst ho'
  exact hinstalled t callback hl

theorem Account.Ends.settled {c : ApiCall} {a : Account} {r : Int} (h : a.Ends c r) :
    a.Settled := by
  unfold Ends at h
  split at h
  · exact h.settled
  · exact h.settled

/-- The books are the accounts of the calls, and every counter is what the calls counted. -/
structure Balanced (ls : List ApiLabel) (gs : ThreadId → Option (ApiCall × Account)) (w : World) :
    Prop where
  account : ∀ t c a, gs t = some (c, a) → (books ls).accounts t = a ∧ a.operation = c.transfers ∧
    a.Orderly ∧ a.Known ls w
  inside : ∀ t, t ∈ (books ls).inside ↔ gs t ≠ none
  closed : ∀ x ∈ (books ls).closed, x.1.Settled ∧ x.1.Known ls w ∧
    ∀ o, x.1.operation = some o → Account.Closed o x.1 x.2
  counters : ∀ state o, w.total state o =
    ((books ls).closed.map fun x => x.1.countedOn state o).sum +
      ∑ t ∈ (books ls).inside, ((books ls).accounts t).countedOn state o
  told : ∀ o, ((books ls).arguments o).sum =
    ((books ls).closed.map fun x => x.1.toldOn o).sum +
      ∑ t ∈ (books ls).inside, ((books ls).accounts t).toldOn o

section Balanced

variable {ls : List ApiLabel} {gs : ThreadId → Option (ApiCall × Account)} {w w' : World}
  {t : ThreadId} {c : ApiCall} {a : Account}

/-- A state that nobody made has untouched counters. -/
theorem Balanced.untouched (h : Balanced ls gs w) (state : StateRef) (o : Operation)
    (hstate : w.registry.next ≤ state) : w.total state o = 0 := by
  have hzero : ∀ a : Account, a.Known ls w → a.countedOn state o = 0 := by
    intro a ha
    unfold Account.countedOn
    rw [if_neg]
    rintro ⟨-, hs⟩
    exact Nat.lt_irrefl _ (Nat.lt_of_lt_of_le (ha.made state hs) hstate)
  have hclosed : ((books ls).closed.map fun x => x.1.countedOn state o).sum = 0 := by
    apply List.sum_eq_zero
    intro n hn
    obtain ⟨x, hx, rfl⟩ := List.mem_map.mp hn
    exact hzero x.1 (h.closed x hx).2.1
  have hinside : ∑ t ∈ (books ls).inside, ((books ls).accounts t).countedOn state o = 0 := by
    apply Finset.sum_eq_zero
    intro t ht
    obtain ⟨⟨c, a⟩, hg⟩ := Option.ne_none_iff_exists'.mp ((h.inside t).mp ht)
    obtain ⟨rfl, -, -, hknown⟩ := h.account t c a hg
    exact hzero _ hknown
  rw [h.counters, hclosed, hinside, add_zero]

theorem Balanced.enter (h : Balanced ls gs w) (hg : gs t = none) :
    Balanced (ls ++ [.enter t c])
      (Function.update gs t (some (c, { operation := c.transfers }))) w := by
  have hnot : t ∉ (books ls).inside := fun ht => (h.inside t).mp ht hg
  refine ⟨fun u c' a hu => ?_, fun u => ?_, fun x hx => ?_, fun state o => ?_, fun o => ?_⟩
  · simp only [books_snoc, Books.write]
    by_cases hut : u = t
    · subst hut
      rw [Function.update_self] at hu ⊢
      cases hu
      exact ⟨rfl, rfl, Or.inl (Account.fresh_settled _), nofun, fun _ => rfl, nofun⟩
    · rw [Function.update_of_ne hut] at hu ⊢
      obtain ⟨h1, h2, h3, h4⟩ := h.account u c' a hu
      exact ⟨h1, h2, h3, h4.later _ (Nat.le_refl _)⟩
  · simp only [books_snoc, Books.write, Finset.mem_insert]
    by_cases hut : u = t
    · subst hut
      simp
    · rw [Function.update_of_ne hut, h.inside u]
      simp [hut]
  · simp only [books_snoc, Books.write] at hx
    obtain ⟨h1, h2, h3⟩ := h.closed x hx
    exact ⟨h1, h2.later _ (Nat.le_refl _), h3⟩
  · simp only [books_snoc, Books.write]
    have hzero : Account.countedOn state o { operation := c.transfers } = 0 := by
      unfold Account.countedOn
      simp
    rw [sum_enter hnot _ (Account.countedOn state o) hzero]
    exact h.counters state o
  · simp only [books_snoc, Books.write]
    have hzero : Account.toldOn o { operation := c.transfers } = 0 := by
      unfold Account.toldOn
      simp
    rw [sum_enter hnot _ (Account.toldOn o) hzero]
    exact h.told o

theorem Balanced.did {e : Action} {r : Answer e} (h : Balanced ls gs w) (hg : gs t = some (c, a))
    (he : a.allows e) (hw : w.perform t e r = some w') :
    Balanced (ls ++ [.did t e r]) (Function.update gs t (some (c, a.next e r))) w' := by
  have hnext := World.perform_next hw
  obtain ⟨ha, hoperation, horderly, hknown⟩ := h.account t c a hg
  have hin : t ∈ (books ls).inside := by
    rw [h.inside t, hg]
    exact Option.some_ne_none _
  refine ⟨fun u c' b hu => ?_, fun u => ?_, fun x hx => ?_, fun state o => ?_, fun o => ?_⟩
  · simp only [books_snoc, Books.write]
    by_cases hut : u = t
    · subst hut
      rw [Function.update_self] at hu ⊢
      cases hu
      refine ⟨by rw [ha], by rw [Account.next_operation, hoperation], horderly.keeps r he, ?_⟩
      exact hknown.did he hw
    · rw [Function.update_of_ne hut] at hu ⊢
      obtain ⟨h1, h2, h3, h4⟩ := h.account u c' b hu
      exact ⟨h1, h2, h3, h4.later _ hnext⟩
  · simp only [books_snoc, Books.write]
    by_cases hut : u = t
    · subst hut
      rw [Function.update_self]
      exact ⟨fun _ => Option.some_ne_none _, fun _ => hin⟩
    · rw [Function.update_of_ne hut]
      exact h.inside u
  · simp only [books_snoc, Books.write] at hx
    obtain ⟨h1, h2, h3⟩ := h.closed x hx
    exact ⟨h1, h2.later _ hnext, h3⟩
  · simp only [books_snoc, Books.write]
    have hsum := sum_accounts (books ls).accounts hin (a.next e r) (Account.countedOn state o)
    rw [ha, Account.countedOn_next horderly he] at hsum
    rw [World.perform_total h.untouched hw, h.counters state o, ha]
    omega
  · have hsum := sum_accounts (books ls).accounts hin (a.next e r) (Account.toldOn o)
    rw [ha, Account.toldOn_next] at hsum
    have htold := h.told o
    simp only [Books.arguments, books_snoc, Books.write, List.filterMap_append,
      List.sum_append] at htold ⊢
    rw [ha]
    cases e with
    | invokeIoCallback callback bytes =>
      simp only [List.filterMap_cons, List.filterMap_nil] at hsum ⊢
      by_cases ho : a.operation = some o
      · simp only [ho, if_true, List.sum_singleton] at hsum ⊢
        omega
      · simp only [ho, if_false, List.sum_nil] at hsum ⊢
        omega
    | _ =>
      simp only [List.filterMap_nil, List.sum_nil] at hsum ⊢
      omega

theorem Balanced.leave {r : Int} (h : Balanced ls gs w) (hg : gs t = some (c, a))
    (hend : Account.Ends c a r) :
    Balanced (ls ++ [.leave t c r]) (Function.update gs t none) w := by
  obtain ⟨ha, hoperation, horderly, hknown⟩ := h.account t c a hg
  have hin : t ∈ (books ls).inside := by
    rw [h.inside t, hg]
    exact Option.some_ne_none _
  have hmove : ∀ f : Account → Int, (((books ls).closed ++ [(a, r)]).map fun x => f x.1).sum +
      ∑ u ∈ (books ls).inside.erase t, f ((books ls).accounts u) =
      ((books ls).closed.map fun x => f x.1).sum +
        ∑ u ∈ (books ls).inside, f ((books ls).accounts u) := by
    intro f
    rw [← Finset.add_sum_erase _ _ hin, ha, List.map_append, List.sum_append, List.map_singleton,
      List.sum_singleton]
    dsimp only
    omega
  refine ⟨fun u c' b hu => ?_, fun u => ?_, fun x hx => ?_, fun state o => ?_, fun o => ?_⟩
  · simp only [books_snoc, Books.write]
    by_cases hut : u = t
    · subst hut
      rw [Function.update_self] at hu
      cases hu
    · rw [Function.update_of_ne hut] at hu
      obtain ⟨h1, h2, h3, h4⟩ := h.account u c' b hu
      exact ⟨h1, h2, h3, h4.later _ (Nat.le_refl _)⟩
  · simp only [books_snoc, Books.write, Finset.mem_erase]
    by_cases hut : u = t
    · subst hut
      simp
    · rw [Function.update_of_ne hut, h.inside u]
      simp [hut]
  · simp only [books_snoc, Books.write, List.mem_append, List.mem_singleton, ha] at hx
    rcases hx with hx | rfl
    · obtain ⟨h1, h2, h3⟩ := h.closed x hx
      exact ⟨h1, h2.later _ (Nat.le_refl _), h3⟩
    · refine ⟨hend.settled, hknown.later _ (Nat.le_refl _), fun o ho => ?_⟩
      unfold Account.Ends at hend
      rw [← hoperation, ho] at hend
      exact hend
  · simp only [books_snoc, Books.write, ha]
    rw [hmove (Account.countedOn state o)]
    exact h.counters state o
  · simp only [books_snoc, Books.write, Books.arguments, ha]
    rw [hmove (Account.toldOn o)]
    exact h.told o

end Balanced

theorem balanced_start : Balanced [] (fun _ => none) World.start where
  account _ _ _ := nofun
  inside _ := ⟨nofun, fun h => absurd rfl h⟩
  closed _ := nofun
  counters _ o := by cases o <;> rfl
  told _ := rfl

def booksOutline (core : CppCore) :
    Outline (process core) moderately World.start bookkeeping where
  start c := { operation := c.transfers }
  post := Account.Ends
  inv := Balanced
  follows := Account.program_keeps core
  init := balanced_start
  enter := by
    intro ls gs w t c w' h hg hw _
    cases hw
    exact h.enter hg
  did := by
    intro ls gs w t c a e r w' h hg he hw hok
    obtain ⟨ha, -⟩ := h.account t c a hg
    have hok : ((books ls).accounts t).moderate e r = true := hok
    rw [ha] at hok
    exact ⟨a.next e r, if_pos hok, h.did hg he hw⟩
  leave := by
    intro ls gs w t c a r w' h hg hend hw _
    cases hw
    exact h.leave hg hend

/-! ## The sum over the handles -/

/-- The counters of all states together, as a sum over the states of one account. -/
theorem sum_countedOn {a : Account} {n : Nat} (o : Operation)
    (hmade : ∀ s, a.state = some s → s < n) (hstate : a.state = none → a.counted = []) :
    ∑ s ∈ Finset.range n, a.countedOn s o = if a.operation = some o then a.counted.sum else 0 := by
  by_cases ho : a.operation = some o
  · rw [if_pos ho]
    cases hs : a.state with
    | none =>
      rw [hstate hs, List.sum_nil]
      apply Finset.sum_eq_zero
      intro s _
      unfold Account.countedOn
      rw [if_neg]
      rintro ⟨-, hno⟩
      rw [hs] at hno
      cases hno
    | some s =>
      have hmem : s ∈ Finset.range n := Finset.mem_range.mpr (hmade s hs)
      rw [Finset.sum_eq_single_of_mem s hmem]
      · unfold Account.countedOn
        rw [if_pos ⟨ho, hs⟩]
      · intro s' _ hne
        unfold Account.countedOn
        rw [if_neg]
        rintro ⟨-, hs'⟩
        rw [hs, Option.some.injEq] at hs'
        exact hne hs'.symm
  · rw [if_neg ho]
    apply Finset.sum_eq_zero
    intro s _
    unfold Account.countedOn
    rw [if_neg]
    rintro ⟨hno, -⟩
    exact ho hno

theorem sum_list_comm {α : Type} (xs : List α) (f : α → Nat → Int) (n : Nat) :
    ∑ s ∈ Finset.range n, (xs.map fun x => f x s).sum =
      (xs.map fun x => ∑ s ∈ Finset.range n, f x s).sum := by
  induction xs with
  | nil => simp
  | cons x xs ih =>
    simp only [List.map_cons, List.sum_cons]
    rw [Finset.sum_add_distrib, ih]

section Agreement

variable {ls : List ApiLabel} {gs : ThreadId → Option (ApiCall × Account)} {w : World}

/-- An account of a thread inside a call. -/
theorem Balanced.inside_account (h : Balanced ls gs w) {t : ThreadId} (ht : t ∈ (books ls).inside) :
    ((books ls).accounts t).Orderly ∧ ((books ls).accounts t).Known ls w := by
  obtain ⟨⟨c, a⟩, hg⟩ := Option.ne_none_iff_exists'.mp ((h.inside t).mp ht)
  obtain ⟨ha, -, horderly, hknown⟩ := h.account t c a hg
  rw [ha]
  exact ⟨horderly, hknown⟩

/-- A call that returned contributes what it counted. -/
theorem Balanced.contributes (h : Balanced ls gs w) (state : StateRef) (o : Operation) :
    (books ls).closed.map (contribution state o) =
      (books ls).closed.map fun x => x.1.countedOn state o := by
  apply List.map_congr_left
  intro x hx
  obtain ⟨hsettled, -, hclosed⟩ := h.closed x hx
  unfold contribution Account.countedOn
  split
  · rename_i hboth
    rw [hsettled.counted]
    split
    · rename_i hcount
      exact ((hclosed o hboth.1).count hcount).1
    · rfl
  · rfl

theorem Balanced.counters_of_settled (h : Balanced ls gs w)
    (hsettled : ∀ t ∈ (books ls).inside, ((books ls).accounts t).Settled) (state : StateRef)
    (o : Operation) :
    w.total state o = ((books ls).closed.map (contribution state o)).sum +
      ∑ t ∈ (books ls).inside, ((books ls).accounts t).chunksOn state o := by
  rw [h.counters, h.contributes]
  congr 1
  apply Finset.sum_congr rfl
  intro t ht
  unfold Account.countedOn Account.chunksOn
  rw [(hsettled t ht).counted]

/-- With one callback installed for the operation, a settled account told what it counted. -/
theorem told_is_counted {a : Account} {o : Operation} {address : Nat} (ha : a.Settled)
    (hknown : a.Known ls w)
    (hinstalled : ∀ t callback, .did t (.loadIoCallback o) callback ∈ ls →
      callback = some address) :
    a.toldOn o = if a.operation = some o then a.counted.sum else 0 := by
  unfold Account.toldOn
  split
  · rename_i ho
    rw [ha.announces (hknown.installed ho hinstalled), List.map_map, ha.counted]
    congr 1
    exact List.map_id' _
  · rfl

theorem Balanced.told_over_handles (h : Balanced ls gs w) {o : Operation} {address : Nat}
    (hinstalled : ∀ t callback, .did t (.loadIoCallback o) callback ∈ ls → callback = some address)
    (hsettled : ∀ t ∈ (books ls).inside, ((books ls).accounts t).Settled) :
    ((books ls).arguments o).sum = ∑ s ∈ Finset.range w.registry.next, w.total s o := by
  have hsum : ∀ a : Account, a.Settled → a.Known ls w →
      a.toldOn o = ∑ s ∈ Finset.range w.registry.next, a.countedOn s o := by
    intro a ha hknown
    rw [told_is_counted ha hknown hinstalled, sum_countedOn o hknown.made]
    intro hstate
    rw [ha.counted, hknown.owned hstate]
  have hclosed : ((books ls).closed.map fun x => x.1.toldOn o) =
      (books ls).closed.map fun x => ∑ s ∈ Finset.range w.registry.next, x.1.countedOn s o := by
    apply List.map_congr_left
    intro x hx
    obtain ⟨ha, hknown, -⟩ := h.closed x hx
    exact hsum x.1 ha hknown
  have hinside : ∑ t ∈ (books ls).inside, ((books ls).accounts t).toldOn o =
      ∑ t ∈ (books ls).inside, ∑ s ∈ Finset.range w.registry.next,
        ((books ls).accounts t).countedOn s o := by
    apply Finset.sum_congr rfl
    intro t ht
    exact hsum _ (hsettled t ht) (h.inside_account ht).2
  have hcounters : ∑ s ∈ Finset.range w.registry.next, w.total s o =
      ∑ s ∈ Finset.range w.registry.next, (((books ls).closed.map fun x => x.1.countedOn s o).sum +
        ∑ t ∈ (books ls).inside, ((books ls).accounts t).countedOn s o) :=
    Finset.sum_congr rfl fun s _ => h.counters s o
  have hlist := sum_list_comm (books ls).closed (fun x s => x.1.countedOn s o) w.registry.next
  rw [h.told, hclosed, hinside, hcounters, Finset.sum_add_distrib, hlist, Finset.sum_comm]

end Agreement

/-- The accounts of a run agree. What a transfer returned is the sum of its chunks, all of them
counted. Every counter is the sum of what the calls on its state contributed, and of the chunks
of the running ones, of which the last may still wait to be counted. A call adds to the counter
of its own state and operation only, loads the callback of its own operation only, and invokes
the callback that it loaded. With one callback installed for the operation, a call that returned
told it each chunk once, a running call all chunks but the last at least, and what the callback
was told are the counters of all states together. -/
theorem the_byte_accounts_agree (core : CppCore) {ls : List ApiLabel}
    {s : Sys ThreadId Action Answer ApiCall Int World}
    (h : Runs (process core) moderately World.start ls s) :
    (∀ x ∈ (books ls).closed, x.1.counted = x.1.chunks ∧
      (x.1.operation ≠ none → 0 ≤ x.2 → x.2 = x.1.chunks.sum)) ∧
    (∀ t ∈ (books ls).inside, ∃ waiting,
      ((books ls).accounts t).chunks = ((books ls).accounts t).counted ++ waiting ∧
        waiting.length ≤ 1) ∧
    (∀ state o, s.shared.total state o = ((books ls).closed.map (contribution state o)).sum +
      ∑ t ∈ (books ls).inside, ((books ls).accounts t).countedOn state o) ∧
    ((∀ t ∈ (books ls).inside, ((books ls).accounts t).Settled) → ∀ state o,
      s.shared.total state o = ((books ls).closed.map (contribution state o)).sum +
        ∑ t ∈ (books ls).inside, ((books ls).accounts t).chunksOn state o) ∧
    (∀ l1 l2 t e r, ls = l1 ++ .did t e r :: l2 →
      (∀ state o n, e = .addTotal state o n → ((books l1).accounts t).On o state) ∧
      (∀ o, e = .loadIoCallback o → ((books l1).accounts t).operation = some o) ∧
      ∀ callback n, e = .invokeIoCallback callback n →
        ((books l1).accounts t).loads.getLast? = some callback) ∧
    ∀ o address,
      (∀ t callback, .did t (.loadIoCallback o) callback ∈ ls → callback = some address) →
      (∀ x ∈ (books ls).closed, x.1.operation = some o →
        x.1.announced = x.1.chunks.map fun n => (some address, n)) ∧
      (∀ t ∈ (books ls).inside, ((books ls).accounts t).operation = some o → ∃ told waiting,
        ((books ls).accounts t).chunks = told ++ waiting ∧ waiting.length ≤ 1 ∧
          ((books ls).accounts t).announced = told.map fun n => (some address, n)) ∧
      ((∀ t ∈ (books ls).inside, ((books ls).accounts t).Settled) →
        ((books ls).arguments o).sum =
          ∑ state ∈ Finset.range s.shared.registry.next, s.shared.total state o) := by
  obtain ⟨gs, hbalanced, -⟩ := (booksOutline core).runs h
  have hbalanced : Balanced ls gs s.shared := hbalanced
  refine ⟨?_, ?_, ?_, hbalanced.counters_of_settled, ?_, ?_⟩
  · intro x hx
    obtain ⟨hsettled, -, hclosed⟩ := hbalanced.closed x hx
    refine ⟨hsettled.counted, fun ho hcount => ?_⟩
    obtain ⟨o, ho⟩ := Option.ne_none_iff_exists'.mp ho
    exact ((hclosed o ho).count hcount).1
  · intro t ht
    exact (hbalanced.inside_account ht).1.counts
  · intro state o
    rw [hbalanced.counters, hbalanced.contributes]
  · intro l1 l2 t e r hl
    obtain ⟨s1, s2, hr, -, hstep⟩ := h.split hl
    obtain ⟨gs1, hb1, hm1⟩ := (booksOutline core).runs hr
    have hb1 : Balanced l1 gs1 s1.shared := hb1
    cases hstep with
    | did hthread _ =>
      obtain ⟨a, hg, hallows, -⟩ := Outline.some_of_some hm1 hthread
      obtain ⟨ha, -⟩ := hb1.account t _ a hg
      have hallows : a.allows e := hallows
      rw [ha]
      refine ⟨?_, ?_, ?_⟩
      · rintro state o n rfl
        exact hallows.1
      · rintro o rfl
        exact hallows.1
      · rintro callback n rfl
        obtain ⟨chunks, loads, -, hloads, -⟩ := hallows.last
        rw [hloads, List.getLast?_append]
        rfl
  · intro o address hinstalled
    refine ⟨?_, ?_, hbalanced.told_over_handles hinstalled⟩
    · intro x hx ho
      obtain ⟨hsettled, hknown, -⟩ := hbalanced.closed x hx
      exact hsettled.announces (hknown.installed ho hinstalled)
    · intro t ht ho
      obtain ⟨horderly, hknown⟩ := hbalanced.inside_account ht
      exact horderly.announces (hknown.installed ho hinstalled)

/-- A device that answers each request at once with one byte, and an application with a
callback. -/
def instantByte (thread : ThreadId) (w : World) : (action : Action) → Answer action
  | .startPendingIo state o _ =>
    (((w.registry.states state).startPendingIo o thread true ERROR_SUCCESS).1, 1)
  | .clearCommError _ => some {}
  | .loadIoCallback _ => some 9
  | action => World.answer thread w action

/-- A read of one byte from that device counts one byte, and tells it the callback. -/
theorem a_read_of_one_byte_is_accounted :
    ∃ ls s, Runs (process sampleCore) moderately World.start ls s ∧
      (books ls).arguments .kRead = [1] ∧ s.shared.total 0 .kRead = 1 ∧
      s.shared.total 0 .kRead = ((books ls).closed.map (contribution 0 .kRead)).sum +
        ∑ t ∈ (books ls).inside, ((books ls).accounts t).countedOn 0 .kRead := by
  obtain ⟨ls, s, hrun, hx⟩ := Sys.moves_exists (process sampleCore) moderately World.start
    ([.enter 0 (.transfer 5 (some ⟨100, 1⟩) none (.serialRead (some 1) 1))] ++
      List.replicate 12 (.act 0 instantByte) ++ [.leave 0])
    (fun ls s => ((books ls).arguments .kRead, s.shared.total 0 .kRead)) (x := ([1], 1)) rfl
  have hagree := the_byte_accounts_agree sampleCore hrun
  rw [Prod.mk.injEq] at hx
  exact ⟨ls, s, hrun, hx.1, hx.2, hagree.2.2.1 0 .kRead⟩

end cpp_bindings_windows
