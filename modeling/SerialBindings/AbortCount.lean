-- How many transfers an abort can end: one thread reads from a handle, and
-- any number of threads abort the reads. The count of the aborted reads
-- against the count of the aborts, in every interleaving.
import Mathlib.Data.Finset.Card
import SerialBindings.Aborts

open programs

namespace cpp_bindings_windows

/-! ## The counts -/

/-- The transfers of `o` that have returned the code of an aborted transfer. -/
def abortedReturns (core : CppCore) (o : Operation) (ls : List ApiLabel) : Nat :=
  ls.countP fun l => match l with
    | .leave _ c a => decide (c.transfers = some o ∧ a = core.value (abortCode o))
    | _ => false

/-- The calls that were made to abort `o`. -/
def abortCalls (o : Operation) (ls : List ApiLabel) : Nat :=
  ls.countP fun l => match l with
    | .enter _ c => decide (c.aborts = some o)
    | _ => false

/-- The flags of `o` that were stored. -/
def stores (o : Operation) (ls : List ApiLabel) : Nat :=
  ls.countP fun l => match l with
    | .did _ (.storeAbort _ o') _ => decide (o' = o)
    | _ => false

/-! ## The runs -/

/-- All the calls are on one handle, which stays open, and one thread alone makes the transfers
of `o`. -/
def OneReader (handle : Int64) (o : Operation) (reader : ThreadId) : ApiLabel → Prop
  | .enter t c => c.handle = some handle ∧ c.closes = false ∧ (c.transfers = some o → t = reader)
  | _ => True

/-- An abort that finds a request of `o` in its locked section finds the flag still set. -/
def FindsFlag (o : Operation) (w : World) : ApiLabel → Prop
  | .did _ (.cancelPending _ s o') _ => o' = o → w.slot s o ≠ none → w.flag s o = true
  | _ => True

/-! ## The invariant -/

/-- 1 when a transfer of `o` is doomed and has used up a flag. -/
def spent (o : Operation) : Option (ApiCall × Pursuit) → Nat
  | some (_, g) =>
    if g.call.transfers = some o ∧ g.doomed = true ∧ g.registered = false then 1 else 0
  | none => 0

/-- 1 when the flag of `o` is set on the state of the handle. -/
def raised (handle : Int64) (o : Operation) (w : World) : Nat :=
  match w.registry.g_handle_states handle.toInt with
  | some s => (w.flag s o).toNat
  | none => 0

/-- The thread is in a call that aborts `o` and has not stored the flag yet. -/
def Awaits (o : Operation) (x : Option (ApiCall × Pursuit)) : Prop :=
  ∃ c g, x = some (c, g) ∧ c.aborts = some o ∧ g.requested = false

/-- Each stored flag ends one transfer at most, and each abort stores one flag at most. A
request that somebody else canceled still has its flag before it. -/
structure CountInv (core : CppCore) (handle : Int64) (o : Operation) (reader : ThreadId)
    (ls : List ApiLabel) (gs : ThreadId → Option (ApiCall × Pursuit)) (w : World) : Prop where
  base : AbortInv core ls gs w
  calls : ∀ t c g, gs t = some (c, g) →
    c.handle = some handle ∧ c.closes = false ∧ (c.transfers = some o → t = reader)
  state : ∀ t c g s, gs t = some (c, g) → g.state = some s →
    w.registry.g_handle_states handle.toInt = some s
  inFlight : ∀ c g s, gs reader = some (c, g) → g.On o s → g.registered = true →
    (w.cancelled reader = true ∧ g.self_cancelled = false) ∨ g.doomed = true →
    w.flag s o = true
  count : abortedReturns core o ls + spent o (gs reader) + raised handle o w ≤ stores o ls
  waiting : ∃ F : Finset ThreadId, (∀ t, t ∈ F ↔ Awaits o (gs t)) ∧
    stores o ls + F.card ≤ abortCalls o ls

variable {core : CppCore} {handle : Int64} {o : Operation} {reader : ThreadId}
  {ls : List ApiLabel} {gs : ThreadId → Option (ApiCall × Pursuit)} {w w' : World}
  {t : ThreadId} {c : ApiCall} {g g' : Pursuit}

theorem raised_of_some {s : StateRef}
    (h : w.registry.g_handle_states handle.toInt = some s) :
    raised handle o w = (w.flag s o).toNat := by
  unfold raised
  rw [h]

theorem abortedReturns_did (e : Action) (r : Answer e) :
    abortedReturns core o (ls ++ [.did t e r]) = abortedReturns core o ls := by
  unfold abortedReturns
  rw [List.countP_append]
  rfl

theorem abortCalls_did (e : Action) (r : Answer e) :
    abortCalls o (ls ++ [.did t e r]) = abortCalls o ls := by
  unfold abortCalls
  rw [List.countP_append]
  rfl

theorem stores_did {e : Action} (r : Answer e) (h : ∀ s, e ≠ .storeAbort s o) :
    stores o (ls ++ [.did t e r]) = stores o ls := by
  unfold stores
  rw [List.countP_append]
  cases e with
  | storeAbort s o' =>
    have ho : o' ≠ o := fun ho => h s (by rw [ho])
    simp [ho]
  | _ => rfl

theorem stores_store (s : StateRef) :
    stores o (ls ++ [.did t (.storeAbort s o) ()]) = stores o ls + 1 := by
  unfold stores
  rw [List.countP_append]
  simp

theorem spent_le (x : Option (ApiCall × Pursuit)) : spent o x ≤ 1 := by
  unfold spent
  split
  · split
    · exact Nat.le_refl 1
    · exact Nat.zero_le 1
  · exact Nat.zero_le 1

/-- A call that does not transfer `o` spends no flag of `o`. -/
theorem spent_other (h : g.call.transfers ≠ some o) : spent o (some (c, g)) = 0 := by
  exact if_neg fun hs => h hs.1

/-- The rule for an action that stores no flag of `o`. -/
theorem CountInv.did {e : Action} {r : Answer e} (h : CountInv core handle o reader ls gs w)
    (hg : gs t = some (c, g))
    (hbase : AbortInv core (ls ++ [.did t e r]) (Function.update gs t (some (c, g'))) w')
    (hentry : ∀ s, w.registry.g_handle_states handle.toInt = some s →
      w'.registry.g_handle_states handle.toInt = some s)
    (hstate : ∀ s, g'.state = some s → w'.registry.g_handle_states handle.toInt = some s)
    (hself : t = reader → ∀ s, g'.On o s → g'.registered = true →
      (w'.cancelled reader = true ∧ g'.self_cancelled = false) ∨ g'.doomed = true →
      w'.flag s o = true)
    (hother : t ≠ reader → ∀ c0 g0 s, gs reader = some (c0, g0) → g0.On o s →
      g0.registered = true → (w.flag s o = true → w'.flag s o = true) ∧
        (w'.cancelled reader = true → w.cancelled reader = true ∨ w'.flag s o = true))
    (hcount : (if t = reader then spent o (some (c, g')) else 0) + raised handle o w' ≤
      (if t = reader then spent o (some (c, g)) else 0) + raised handle o w)
    (hstore : ∀ s, e ≠ .storeAbort s o)
    (hawaits : c.aborts = some o → g'.requested = g.requested) :
    CountInv core handle o reader (ls ++ [.did t e r])
      (Function.update gs t (some (c, g'))) w' where
  base := hbase
  calls := forall_inside (fun t' c' g0 _ => h.calls t' c' g0) (h.calls t c g hg)
  state t' c' g0 s hg0 := by
    refine forall_inside (P := fun _ _ g0 => g0.state = some s →
      w'.registry.g_handle_states handle.toInt = some s) (fun t' c' g0 _ hg0 hs => ?_) (hstate s)
      t' c' g0 hg0
    exact hentry s (h.state t' c' g0 s hg0 hs)
  inFlight c0 g0 s hg0 hon hreg hc := by
    by_cases ht : t = reader
    · subst ht
      rw [Function.update_self] at hg0
      cases hg0
      exact hself rfl s hon hreg hc
    · rw [Function.update_of_ne (Ne.symm ht)] at hg0
      obtain ⟨hflag, hcancelled⟩ := hother ht c0 g0 s hg0 hon hreg
      rcases hc with ⟨hc, hs⟩ | hd
      · rcases hcancelled hc with hc | hf
        · exact hflag (h.inFlight c0 g0 s hg0 hon hreg (Or.inl ⟨hc, hs⟩))
        · exact hf
      · exact hflag (h.inFlight c0 g0 s hg0 hon hreg (Or.inr hd))
  count := by
    rw [abortedReturns_did, stores_did r hstore]
    have hcount0 := h.count
    by_cases ht : t = reader
    · subst ht
      rw [Function.update_self]
      rw [hg] at hcount0
      rw [if_pos rfl, if_pos rfl] at hcount
      omega
    · rw [Function.update_of_ne (Ne.symm ht)]
      rw [if_neg ht, if_neg ht] at hcount
      omega
  waiting := by
    obtain ⟨F, hF, hcard⟩ := h.waiting
    refine ⟨F, fun t' => ?_, by rw [stores_did r hstore, abortCalls_did]; exact hcard⟩
    rw [hF]
    by_cases ht : t' = t
    · subst ht
      rw [Function.update_self, hg]
      constructor
      · rintro ⟨c0, g0, heq, ha, hr⟩
        cases heq
        exact ⟨c, g', rfl, ha, by rw [hawaits ha]; exact hr⟩
      · rintro ⟨c0, g0, heq, ha, hr⟩
        cases heq
        exact ⟨c, g, rfl, ha, by rw [← hawaits ha]; exact hr⟩
    · rw [Function.update_of_ne ht]

/-- The flag of `o` is set on the state of the handle only if it was set before. -/
theorem raised_le (hsame : w.SameHandles w') (hflag : ∀ s, w'.flag s o = true → w.flag s o = true) :
    raised handle o w' ≤ raised handle o w := by
  unfold raised
  rw [hsame.handles]
  cases w.registry.g_handle_states handle.toInt with
  | none => exact Nat.le_refl 0
  | some s =>
    dsimp only
    cases hf : w'.flag s o
    · exact Nat.zero_le _
    · rw [hflag s hf]

/-! ## One step -/

section Actions

variable (h : CountInv core handle o reader ls gs w) (hg : gs t = some (c, g))

include h hg

/-- The rule for an action of a call that has nothing to do with the operation `o`. -/
theorem CountInv.foreign {e : Action} {r : Answer e}
    (hbase : AbortInv core (ls ++ [.did t e r]) (Function.update gs t (some (c, g'))) w')
    (hcall : g'.call = g.call) (hstate : g'.state = g.state) (htransfers : c.transfers ≠ some o)
    (hsame : w.SameHandles w') (hflag : ∀ s, w'.flag s o = w.flag s o)
    (hcancelled : ∀ c0 g0 s, t ≠ reader → gs reader = some (c0, g0) → g0.On o s →
      w'.cancelled reader = true → w.cancelled reader = true ∨ w.flag s o = true)
    (hstore : ∀ s, e ≠ .storeAbort s o)
    (hawaits : c.aborts = some o → g'.requested = g.requested) :
    CountInv core handle o reader (ls ++ [.did t e r])
      (Function.update gs t (some (c, g'))) w' := by
  have hcalls : g.call.transfers ≠ some o := by
    rw [(h.base.traced t c g hg).call]
    exact htransfers
  refine h.did hg hbase ?_ ?_ ?_ ?_ ?_ hstore hawaits
  · intro s hs
    rw [hsame.handles]
    exact hs
  · intro s hs
    rw [hsame.handles]
    exact h.state t c g s hg (hstate ▸ hs)
  · intro _ s hon
    exact absurd (hcall ▸ hon.1) hcalls
  · intro ht c0 g0 s hg0 hon _
    rw [hflag]
    exact ⟨id, hcancelled c0 g0 s ht hg0 hon⟩
  · rw [spent_other hcalls, spent_other (hcall ▸ hcalls)]
    exact Nat.add_le_add_left (raised_le hsame fun s hf => hflag s ▸ hf) _

theorem CountInv.storeAbort {s : StateRef} (haborts : g.call.aborts = some o)
    (hstate : g.state = some s) (hrequested : g.requested = false)
    (hw : w.perform t (.storeAbort s o) () = some w') :
    CountInv core handle o reader (ls ++ [.did t (.storeAbort s o) ()])
      (Function.update gs t (some (c, { g with requested := true }))) w' := by
  have hcall := (h.base.traced t c g hg).call
  have hentry := h.state t c g s hg hstate
  have htransfers : g.call.transfers = none := ApiCall.transfers_of_aborts haborts
  obtain ⟨hsame, hcancelled, hflag, -⟩ := World.perform_store hw
  have hspent : ∀ x : Pursuit, x.call = g.call → spent o (some (c, x)) = 0 := by
    intro x hx
    refine spent_other ?_
    rw [hx, htransfers]
    nofun
  refine ⟨h.base.storeAbort hg haborts hstate hw, ?_, ?_, ?_, ?_, ?_⟩
  · exact forall_inside (fun t' c' g0 _ => h.calls t' c' g0) (h.calls t c g hg)
  · intro t' c' g0 s' hg0
    rw [hsame.handles]
    refine forall_inside (P := fun _ _ g0 => g0.state = some s' →
      w.registry.g_handle_states handle.toInt = some s') (fun t' c' g0 _ hg0 => ?_)
      (h.state t c g s' hg) t' c' g0 hg0
    exact h.state t' c' g0 s' hg0
  · intro c0 g0 s' hg0 hon hreg hc
    by_cases ht : reader = t
    · rw [ht, Function.update_self] at hg0
      cases hg0
      have ho := hon.1
      rw [htransfers] at ho
      cases ho
    · rw [Function.update_of_ne ht] at hg0
      rw [hcancelled] at hc
      rw [hflag, h.inFlight c0 g0 s' hg0 hon hreg hc, ite_self]
  · -- the new store pays for the flag
    have hcount := h.count
    rw [abortedReturns_did, stores_store]
    have hraised : raised handle o w' ≤ 1 := by
      rw [raised_of_some (by rw [hsame.handles]; exact hentry)]
      exact Bool.toNat_le _
    by_cases ht : reader = t
    · rw [ht, Function.update_self, hspent { g with requested := true } rfl]
      omega
    · rw [Function.update_of_ne ht]
      omega
  · obtain ⟨F, hF, hcard⟩ := h.waiting
    have hmem : t ∈ F := (hF t).mpr ⟨c, g, hg, hcall ▸ haborts, hrequested⟩
    refine ⟨F.erase t, fun t' => ?_, ?_⟩
    · rw [Finset.mem_erase, hF]
      by_cases ht : t' = t
      · subst ht
        rw [Function.update_self]
        refine ⟨fun hm => absurd rfl hm.1, ?_⟩
        rintro ⟨c0, g0, heq, -, hr⟩
        cases heq
        cases hr
      · rw [Function.update_of_ne ht]
        exact ⟨And.right, fun hm => ⟨ht, hm⟩⟩
    · have hpos := Finset.card_pos.mpr ⟨t, hmem⟩
      rw [stores_store, abortCalls_did, Finset.card_erase_of_mem hmem]
      omega

theorem CountInv.ensureHandleState {native_handle : HANDLE} {s : StateRef}
    (hstart : g = .start g.call)
    (hhandle : ∀ handle, g.call.handle = some handle → native_handle = handle.toInt)
    (hw : w.perform t (.ensureHandleState native_handle) s = some w') :
    CountInv core handle o reader (ls ++ [.did t (.ensureHandleState native_handle) s])
      (Function.update gs t (some (c, { g with state := some s }))) w' := by
  have hcall := (h.base.traced t c g hg).call
  have hu := World.ensure_undisturbed hw
  obtain rfl : native_handle = handle.toInt :=
    hhandle handle (by rw [hcall]; exact (h.calls t c g hg).1)
  have hreg : g.registered = false := by rw [hstart]; rfl
  refine h.did hg (h.base.ensureHandleState hg (by rw [hstart]; rfl) hw) ?_ ?_ ?_ ?_ ?_ nofun
    fun _ => rfl
  · intro s' hs'
    rcases World.perform_ensure hw with ⟨-, rfl⟩ | ⟨hnone, -⟩
    · exact hs'
    · rw [hnone] at hs'
      cases hs'
  · intro s' hs'
    cases hs'
    exact World.perform_ensure_registers hw
  · intro _ s' _ hr
    rw [hreg] at hr
    cases hr
  · intro _ c0 g0 s' hg0 hon _
    have hlt := w.registry.made _ _ (h.state reader c0 g0 s' hg0 hon.2)
    exact ⟨hu.kept s' o hlt, fun hc => Or.inl (hu.cancelled ▸ hc)⟩
  · refine Nat.add_le_add (Nat.le_refl _) ?_
    rcases World.perform_ensure hw with ⟨-, rfl⟩ | ⟨-, -, -, hstates, -⟩
    · exact Nat.le_refl _
    · -- the new state has no flag
      rw [raised_of_some (World.perform_ensure_registers hw), World.flag, hstates,
        Function.update_self]
      cases o <;> exact Nat.zero_le _

theorem CountInv.cancelPending {native_handle : HANDLE} {s : StateRef} {o' : Operation}
    (haborts : g.call.aborts = some o') (hstate : g.state = some s)
    (hrequested : g.requested = true)
    (hok : o' = o → w.slot s o ≠ none → w.flag s o = true)
    (hw : w.perform t (.cancelPending native_handle s o') () = some w') :
    CountInv core handle o reader (ls ++ [.did t (.cancelPending native_handle s o') ()])
      (Function.update gs t (some (c, g))) w' := by
  have hcall := (h.base.traced t c g hg).call
  obtain ⟨hregistry, hcancel⟩ := World.perform_cancel hw
  refine h.foreign hg (h.base.cancelPending hg haborts hstate hrequested hw) rfl rfl ?_
    ⟨by rw [hregistry], by rw [hregistry]⟩ (fun s' => by rw [World.flag, hregistry]) ?_ (by simp)
    fun _ => rfl
  · rw [← hcall, ApiCall.transfers_of_aborts haborts]
    simp
  · intro c0 g0 s' _ hg0 hon hc
    refine (hcancel reader hc).imp_right fun hslot => ?_
    -- the request that it cancels is the one of the reader, and its flag is set
    obtain ⟨c1, g1, hg1, -, hon1⟩ := h.base.slot s o' reader hslot
    rw [hg0] at hg1
    cases hg1
    have ho := hon.1.symm.trans hon1.1
    have hs := hon.2.symm.trans hon1.2
    cases ho
    cases hs
    exact hok rfl (by rw [hslot]; simp)

/-- The transfer of the reader that takes a flag pays for it with its own end. -/
theorem CountInv.took {e : Action} {r : Answer e} {s : StateRef}
    (hbase : AbortInv core (ls ++ [.did t e r]) (Function.update gs t (some (c, g'))) w')
    (hon : g.On o s) (hstate : g'.state = g.state) (hsame : w.SameHandles w')
    (hflag : ∀ s' o', w'.flag s' o' = if s' = s ∧ o = o' then false else w.flag s' o')
    (hclean : g'.registered = true →
      w'.cancelled reader = false ∧ g'.doomed = false)
    (hspent : spent o (some (c, g')) ≤ spent o (some (c, g)) + (w.flag s o).toNat)
    (hstore : ∀ s, e ≠ .storeAbort s o) (hrequested : g'.requested = g.requested) :
    CountInv core handle o reader (ls ++ [.did t e r])
      (Function.update gs t (some (c, g'))) w' := by
  have hcall := (h.base.traced t c g hg).call
  have hentry := h.state t c g s hg hon.2
  have ht : t = reader := (h.calls t c g hg).2.2 (hcall ▸ hon.1)
  refine h.did hg hbase ?_ ?_ ?_ (fun hne => absurd ht hne) ?_ hstore fun _ => hrequested
  · intro s' hs'
    rw [hsame.handles]
    exact hs'
  · intro s' hs'
    rw [hsame.handles]
    exact h.state t c g s' hg (hstate ▸ hs')
  · intro _ s' _ hr hc
    obtain ⟨h1, h2⟩ := hclean hr
    rw [h1, h2] at hc
    rcases hc with ⟨hc, -⟩ | hc
    · cases hc
    · cases hc
  · rw [if_pos ht, if_pos ht, raised_of_some hentry,
      raised_of_some (by rw [hsame.handles]; exact hentry), hflag, if_pos ⟨rfl, rfl⟩]
    exact hspent

theorem CountInv.startPendingIo {s : StateRef} {o' : Operation} {request : Request}
    {start : PendingIoStart} {transferred : DWORD} (hon : g.On o' s) (hreg : g.registered = false)
    (hdoomed : g.doomed = false)
    (hw : w.perform t (.startPendingIo s o' request) (start, transferred) = some w') :
    CountInv core handle o reader
      (ls ++ [.did t (.startPendingIo s o' request) (start, transferred)])
      (Function.update gs t (some (c, if start.aborted then { g with doomed := true }
        else { g with registered := true, self_cancelled := false }))) w' := by
  have hcall := (h.base.traced t c g hg).call
  have hbase := h.base.startPendingIo hg hon hreg hdoomed hw
  obtain ⟨hsame, hcancelled, haborted, hflag, -⟩ := World.perform_start hw
  by_cases ho : o' = o
  · subst ho
    have ht : t = reader := (h.calls t c g hg).2.2 (hcall ▸ hon.1)
    refine h.took hg hbase hon (by split <;> rfl) hsame hflag ?_ ?_ nofun (by split <;> rfl)
    · split
      · intro hr
        rw [hreg] at hr
        cases hr
      · intro _
        rw [hcancelled, ht, Function.update_self]
        exact ⟨rfl, hdoomed⟩
    · cases ha : start.aborted
      · exact Nat.le_trans (Nat.le_of_eq (if_neg fun hs => by cases hs.2.2)) (Nat.zero_le _)
      · rw [← haborted, ha]
        exact Nat.le_trans (spent_le _) (Nat.le_add_left 1 _)
  · refine h.foreign hg hbase (by split <;> rfl) (by split <;> rfl) ?_ hsame (fun s' => ?_) ?_ nofun
      fun _ => by split <;> rfl
    · rw [← hcall, hon.1]
      intro heq
      cases heq
      exact ho rfl
    · rw [hflag, if_neg fun heq => ho heq.2]
    · intro c0 g0 s' hne _ _ hc
      rw [hcancelled, Function.update_of_ne (Ne.symm hne)] at hc
      exact Or.inl hc

theorem CountInv.finishPendingIo {s : StateRef} {o' : Operation} {aborted : Bool}
    (hon : g.On o' s) (hreg : g.registered = true)
    (hw : w.perform t (.finishPendingIo s o') aborted = some w') :
    CountInv core handle o reader (ls ++ [.did t (.finishPendingIo s o') aborted])
      (Function.update gs t
        (some (c, { g with registered := false, doomed := g.doomed || aborted }))) w' := by
  have hcall := (h.base.traced t c g hg).call
  have hbase := h.base.finishPendingIo hg hon hw
  obtain ⟨hsame, hcancelled, haborted, hflag, -⟩ := World.perform_finish hw
  by_cases ho : o' = o
  · subst ho
    have ht : t = reader := (h.calls t c g hg).2.2 (hcall ▸ hon.1)
    refine h.took hg hbase hon rfl hsame hflag nofun ?_ nofun rfl
    -- a request that Windows reported as canceled still has its flag to take
    have hdoomed : g.doomed = true → w.flag s o' = true := fun hd =>
      h.inFlight c g s (ht ▸ hg) hon hreg (Or.inr hd)
    cases hf : w.flag s o'
    · have hd : g.doomed = false := by
        rw [← Bool.not_eq_true]
        intro hd
        rw [hdoomed hd] at hf
        cases hf
      refine Nat.le_trans (Nat.le_of_eq (if_neg fun hs => ?_)) (Nat.zero_le _)
      have hd' := hs.2.1
      rw [haborted, hf, hd] at hd'
      cases hd'
    · exact Nat.le_trans (spent_le _) (Nat.le_add_left 1 _)
  · refine h.foreign hg hbase rfl rfl ?_ hsame (fun s' => ?_) ?_ nofun fun _ => rfl
    · rw [← hcall, hon.1]
      intro heq
      cases heq
      exact ho rfl
    · rw [hflag, if_neg fun heq => ho heq.2]
    · intro c0 g0 s' _ _ _ hc
      rw [hcancelled] at hc
      exact Or.inl hc

/-- The rule for what the reader learns of its request in flight. -/
theorem CountInv.learned {e : Action} {r : Answer e}
    (hbase : AbortInv core (ls ++ [.did t e r]) (Function.update gs t (some (c, g'))) w')
    (hcall : g'.call = g.call) (hstate : g'.state = g.state)
    (hreg : g.registered = true) (hreg' : g'.registered = true)
    (hregistry : w'.registry = w.registry)
    (hcancelled : ∀ t', t' ≠ t → w'.cancelled t' = w.cancelled t')
    (hclean : (w'.cancelled t = true ∧ g'.self_cancelled = false) ∨ g'.doomed = true →
      (w.cancelled t = true ∧ g.self_cancelled = false) ∨ g.doomed = true)
    (hstore : ∀ s, e ≠ .storeAbort s o) (hrequested : g'.requested = g.requested) :
    CountInv core handle o reader (ls ++ [.did t e r])
      (Function.update gs t (some (c, g'))) w' := by
  have hsame : w.SameHandles w' := ⟨by rw [hregistry], by rw [hregistry]⟩
  have hflag : ∀ s, w'.flag s o = w.flag s o := fun s => by rw [World.flag, hregistry]
  refine h.did hg hbase ?_ ?_ ?_ ?_ ?_ hstore fun _ => hrequested
  · intro s hs
    rw [hsame.handles]
    exact hs
  · intro s hs
    rw [hsame.handles]
    exact h.state t c g s hg (hstate ▸ hs)
  · intro ht s hon _ hc
    subst ht
    rw [Pursuit.On, hcall, hstate] at hon
    rw [hflag]
    exact h.inFlight c g s hg hon hreg (hclean hc)
  · intro ht c0 g0 s _ _ _
    rw [hflag, hcancelled reader (Ne.symm ht)]
    exact ⟨id, Or.inl⟩
  · have hs : ∀ x : Pursuit, x.registered = true → spent o (some (c, x)) = 0 := by
      intro x hx
      refine if_neg fun hs => ?_
      have hx' := hs.2.2
      rw [hx] at hx'
      cases hx'
    rw [hs g hreg, hs g' hreg']
    exact Nat.add_le_add_left (raised_le hsame fun s hf => hflag s ▸ hf) _

/-- One action of a thread keeps the counts, when an abort finds the flag of the request that it
cancels. -/
theorem CountInv.perform {e : Action} {r : Answer e} (hallows : pursuit.allows g e)
    (hw : w.perform t e r = some w') (hok : FindsFlag o w (.did t e r)) :
    ∃ g', pursuit.next g e r = some g' ∧ CountInv core handle o reader (ls ++ [.did t e r])
      (Function.update gs t (some (c, g'))) w' := by
  have hcall := (h.base.traced t c g hg).call
  obtain ⟨g', hn, hbase⟩ := h.base.perform hg hallows hw
  refine ⟨g', hn, ?_⟩
  by_cases hun : e.Unwatched
  · rw [(pursuit_unwatched hun g r).2] at hn
    cases hn
    have hu := World.perform_unwatched hun hw
    refine h.did hg hbase ?_ ?_ ?_ ?_ ?_ ?_ fun _ => rfl
    · intro s hs
      rw [hu.handles]
      exact hs
    · intro s hs
      rw [hu.handles]
      exact h.state t c g s hg hs
    · intro ht s hon hreg hc
      subst ht
      rw [hu.cancelled] at hc
      rw [hu.flag]
      exact h.inFlight c g s hg hon hreg hc
    · intro _ c0 g0 s _ _ _
      rw [hu.flag, hu.cancelled]
      exact ⟨id, Or.inl⟩
    · exact Nat.add_le_add_left (raised_le hu.toSameHandles fun s hf => hu.flag s o ▸ hf) _
    · intro s he
      subst he
      exact (hun.elim id (Or.elim · id id)).elim
  cases e using Action.byWatch with
  | unwatched e he => exact absurd he hun
  | ensureHandleState native_handle =>
    cases hn
    exact h.ensureHandleState hg hallows.1 hallows.2 hw
  | storeAbort s o' =>
    cases hn
    by_cases ho : o' = o
    · subst ho
      exact h.storeAbort hg hallows.1 hallows.2.1 hallows.2.2 hw
    · obtain ⟨hsame, hcancelled, hflag, -⟩ := World.perform_store hw
      refine h.foreign hg hbase rfl rfl ?_ hsame (fun s' => ?_) ?_ ?_ ?_
      · rw [← hcall, ApiCall.transfers_of_aborts hallows.1]
        nofun
      · rw [hflag, if_neg fun heq => ho heq.2]
      · intro c0 g0 s' _ _ _ hc
        rw [hcancelled] at hc
        exact Or.inl hc
      · intro s' heq
        cases heq
        exact ho rfl
      · intro ha
        rw [← hcall, hallows.1] at ha
        cases ha
        exact absurd rfl ho
  | cancelPending native_handle s o' =>
    cases hn
    exact h.cancelPending hg hallows.1 hallows.2.1 hallows.2.2 hok hw
  | startPendingIo s o' request =>
    cases hn
    exact h.startPendingIo hg ⟨hallows.1, hallows.2.1⟩ hallows.2.2.1 hallows.2.2.2 hw
  | finishPendingIo s o' =>
    cases hn
    exact h.finishPendingIo hg ⟨hallows.1, hallows.2.1⟩ hallows.2.2 hw
  | cancelIoEx native_handle =>
    cases hn
    cases hw
    refine h.learned hg hbase rfl rfl hallows hallows rfl
      (fun t' hne => Function.update_of_ne hne ..) ?_ nofun rfl
    rintro (⟨-, hc⟩ | hd)
    · cases hc
    · exact Or.inr hd
  | getOverlappedResult native_handle wait =>
    obtain ⟨rfl, hreported⟩ := World.perform_result hw
    cases hn
    refine h.learned hg hbase (by split <;> rfl) (by split <;> rfl) hallows
      (by split <;> exact hallows)
      rfl (fun _ _ => rfl) ?_ nofun (by split <;> rfl)
    split
    · rename_i hresult
      exact fun _ => Or.inl ⟨hreported hresult.1 hresult.2.1, hresult.2.2⟩
    · exact id
  | removeHandleState native_handle =>
    have hopen := (h.calls t c g hg).2.1
    rw [← hcall, show g.call.closes = true from hallows.1] at hopen
    cases hopen

end Actions

theorem CountInv.enter (h : CountInv core handle o reader ls gs w) (hg : gs t = none) {c : ApiCall}
    (hok : OneReader handle o reader (.enter t c)) :
    CountInv core handle o reader (ls ++ [.enter t c])
      (Function.update gs t (some (c, .start c))) w where
  base := h.base.enter hg c
  calls := forall_inside (fun t' c' g0 _ => h.calls t' c' g0) hok
  state t' c' g0 s hg0 := by
    refine forall_inside (P := fun _ _ g0 => g0.state = some s →
      w.registry.g_handle_states handle.toInt = some s) (fun t' c' g0 _ hg0 => ?_) (fun hs => ?_)
      t' c' g0 hg0
    · exact h.state t' c' g0 s hg0
    · cases hs
  inFlight c0 g0 s hg0 hon hreg hc := by
    by_cases ht : reader = t
    · subst ht
      rw [Function.update_self] at hg0
      cases hg0
      cases hreg
    · rw [Function.update_of_ne ht] at hg0
      exact h.inFlight c0 g0 s hg0 hon hreg hc
  count := by
    have hcount := h.count
    have hspent : spent o (Function.update gs t (some (c, .start c)) reader) ≤
        spent o (gs reader) := by
      by_cases ht : reader = t
      · subst ht
        rw [Function.update_self]
        exact Nat.le_trans (Nat.le_of_eq (if_neg fun hs => by cases hs.2.1)) (Nat.zero_le _)
      · rw [Function.update_of_ne ht]
    have h1 : abortedReturns core o (ls ++ [.enter t c]) = abortedReturns core o ls := by
      unfold abortedReturns
      rw [List.countP_append]
      rfl
    have h2 : stores o (ls ++ [.enter t c]) = stores o ls := by
      unfold stores
      rw [List.countP_append]
      rfl
    rw [h1, h2]
    omega
  waiting := by
    obtain ⟨F, hF, hcard⟩ := h.waiting
    have hstores : stores o (ls ++ [.enter t c]) = stores o ls := by
      unfold stores
      rw [List.countP_append]
      rfl
    have hnot : t ∉ F := by
      rw [hF, hg]
      rintro ⟨c0, g0, heq, -⟩
      cases heq
    by_cases ha : c.aborts = some o
    · refine ⟨insert t F, fun t' => ?_, ?_⟩
      · rw [Finset.mem_insert, hF]
        by_cases ht : t' = t
        · subst ht
          rw [Function.update_self]
          exact ⟨fun _ => ⟨c, _, rfl, ha, rfl⟩, fun _ => Or.inl rfl⟩
        · rw [Function.update_of_ne ht]
          exact ⟨fun hm => hm.resolve_left ht, Or.inr⟩
      · have hcalls : abortCalls o (ls ++ [.enter t c]) = abortCalls o ls + 1 := by
          unfold abortCalls
          rw [List.countP_append]
          simp [ha]
        rw [hstores, hcalls, Finset.card_insert_of_notMem hnot]
        omega
    · refine ⟨F, fun t' => ?_, ?_⟩
      · by_cases ht : t' = t
        · subst ht
          rw [Function.update_self]
          refine ⟨fun hm => absurd hm hnot, ?_⟩
          rintro ⟨c0, g0, heq, ha0, -⟩
          cases heq
          exact absurd ha0 ha
        · rw [Function.update_of_ne ht]
          exact hF t'
      · have hcalls : abortCalls o (ls ++ [.enter t c]) = abortCalls o ls := by
          unfold abortCalls
          rw [List.countP_append]
          simp [ha]
        rw [hstores, hcalls]
        exact hcard

/-- An aborted transfer that returns turns its spent flag into a return. -/
theorem CountInv.leave {a : Int} (h : CountInv core handle o reader ls gs w)
    (hg : gs t = some (c, g)) (hover : Pursuit.Over core c g a) :
    CountInv core handle o reader (ls ++ [.leave t c a]) (Function.update gs t none) w := by
  have hcall := (h.base.traced t c g hg).call
  have hgone : ∀ {t' c' g0}, Function.update gs t none t' = some (c', g0) →
      gs t' = some (c', g0) := by
    intro t' c' g0 hg0
    exact (stays_inside hg0).2
  have hstores : stores o (ls ++ [.leave t c a]) = stores o ls := by
    unfold stores
    rw [List.countP_append]
    rfl
  refine ⟨h.base.leave hg hover, fun t' c' g0 hg0 => h.calls t' c' g0 (hgone hg0),
    fun t' c' g0 s hg0 => h.state t' c' g0 s (hgone hg0),
    fun c0 g0 s hg0 => h.inFlight c0 g0 s (hgone hg0), ?_, ?_⟩
  · have hcount := h.count
    have hreturns : abortedReturns core o (ls ++ [.leave t c a]) = abortedReturns core o ls +
        if c.transfers = some o ∧ a = core.value (abortCode o) then 1 else 0 := by
      unfold abortedReturns
      rw [List.countP_append, List.countP_singleton]
      simp only [decide_eq_true_eq]
    rw [hreturns, hstores]
    by_cases ht : t = reader
    · subst ht
      rw [Function.update_self]
      rw [hg] at hcount
      split
      · rename_i habort
        have hdoomed := (hover.2 o habort.1).mp habort.2
        have hspent : spent o (some (c, g)) = 1 :=
          if_pos ⟨by rw [hcall]; exact habort.1, hdoomed, hover.1⟩
        have hnone : spent o none = 0 := rfl
        omega
      · have hnone : spent o none = 0 := rfl
        omega
    · rw [Function.update_of_ne (Ne.symm ht),
        if_neg fun habort => ht ((h.calls t c g hg).2.2 habort.1)]
      exact hcount
  · obtain ⟨F, hF, hcard⟩ := h.waiting
    have hcalls : abortCalls o (ls ++ [.leave t c a]) = abortCalls o ls := by
      unfold abortCalls
      rw [List.countP_append]
      rfl
    refine ⟨F.erase t, fun t' => ?_, ?_⟩
    · rw [Finset.mem_erase, hF]
      by_cases ht : t' = t
      · subst ht
        rw [Function.update_self]
        refine ⟨fun hm => absurd rfl hm.1, ?_⟩
        rintro ⟨c0, g0, heq, -⟩
        cases heq
      · rw [Function.update_of_ne ht]
        exact ⟨And.right, fun hm => ⟨ht, hm⟩⟩
    · have hle := Finset.card_erase_le (s := F) (a := t)
      rw [hstores, hcalls]
      omega

/-! ## Every run -/

/-- The runs of one reader, in which each abort that finds a request finds its flag. -/
def countOutline (core : CppCore) (handle : Int64) (o : Operation) (reader : ThreadId) :
    Outline (process core) (fun _ w l => OneReader handle o reader l ∧ FindsFlag o w l)
      World.start pursuit where
  start := Pursuit.start
  post := Pursuit.Over core
  inv := CountInv core handle o reader
  follows := program_pursued core
  init :=
    { base := (abortOutline core always).init
      calls := fun t c g hg => by cases hg
      state := fun t c g s hg => by cases hg
      inFlight := fun c g s hg => by cases hg
      count := Nat.le_refl 0
      waiting := by
        refine ⟨∅, fun t => ⟨fun hm => (by cases hm), ?_⟩, Nat.le_refl 0⟩
        rintro ⟨c, g, hg, -⟩
        cases hg }
  enter h hg hw hok := by
    cases hw
    exact h.enter hg hok.1
  did h hg hallows hw hok := h.perform hg hallows hw hok.2
  leave h hg hover hw _ := by
    cases hw
    exact h.leave hg hover

/-- In every run of one reader, in which an abort that finds a request in its locked section
finds its flag still set, no more transfers are aborted than aborts were called. -/
theorem aborted_transfers_do_not_outnumber_the_aborts (core : CppCore) (handle : Int64)
    (o : Operation) (reader : ThreadId) {ls : List ApiLabel}
    {s : Sys ThreadId Action Answer ApiCall Int World}
    (h : Runs (process core) (fun _ w l => OneReader handle o reader l ∧ FindsFlag o w l)
      World.start ls s) :
    abortedReturns core o ls ≤ abortCalls o ls := by
  obtain ⟨gs, hi, -⟩ := (countOutline core handle o reader).runs h
  obtain ⟨F, -, hcard⟩ := hi.waiting
  have hcount := hi.count
  omega

instance (handle : Int64) (o : Operation) (reader : ThreadId) (l : ApiLabel) :
    Decidable (OneReader handle o reader l) :=
  match l with
  | .enter t c =>
    inferInstanceAs (Decidable (c.handle = some handle ∧ c.closes = false ∧
      (c.transfers = some o → t = reader)))
  | .did .. => isTrue trivial
  | .leave .. => isTrue trivial

instance (o : Operation) (w : World) (l : ApiLabel) : Decidable (FindsFlag o w l) := by
  unfold FindsFlag
  split <;> infer_instance

/-- The answers of a device on which a canceled request ends with `ERROR_OPERATION_ABORTED`. -/
def cancelledAnswer (t : ThreadId) (w : World) : (action : Action) → Answer action
  | .waitForSingleObject .. => WAIT_OBJECT_0
  | .getOverlappedResult .. => { error := ERROR_OPERATION_ABORTED }
  | action => w.answer t action

/-- The read of one byte from the handle 5. -/
def readCall : ApiCall := .transfer 5 (some ⟨100, 1⟩) none (.serialRead (some 1) 1)

/-- The read waits for its request when the abort comes. -/
def abortDuringRead : List ApiMove :=
  [.enter 0 readCall] ++ ApiMove.acts 0 6 ++
  [.enter 1 (.serialAbortRead 5 none)] ++ ApiMove.acts 1 4 ++ [.leave 1] ++
  List.replicate 5 (.act 0 cancelledAnswer) ++ [.leave 0]

/-- The abort finds the request and its flag, and one read ends. -/
theorem an_abort_during_a_read_ends_one_read :
    ∃ ls s, Runs (process sampleCore) (fun _ w l => OneReader 5 .kRead 0 l ∧ FindsFlag .kRead w l)
        World.start ls s ∧
      abortedReturns sampleCore .kRead ls = 1 ∧
      abortedReturns sampleCore .kRead ls ≤ abortCalls .kRead ls := by
  obtain ⟨ls, s, hr, hx⟩ := Sys.moves_exists (process sampleCore)
    (fun _ w l => OneReader 5 .kRead 0 l ∧ FindsFlag .kRead w l) World.start abortDuringRead
    (fun ls _ => abortedReturns sampleCore .kRead ls) rfl
  exact ⟨ls, s, hr, hx, aborted_transfers_do_not_outnumber_the_aborts sampleCore 5 .kRead 0 hr⟩

/-! ## A run with a late cancellation -/

/-- The abort stores its flag. The first read takes it and returns, and the second read starts
before the abort gets the mutex and cancels. -/
def lateCancellation : List ApiMove :=
  [.enter 1 (.serialAbortRead 5 none)] ++ ApiMove.acts 1 3 ++
  [.enter 0 readCall] ++ ApiMove.acts 0 8 ++ [.leave 0] ++
  [.enter 0 readCall] ++ ApiMove.acts 0 6 ++
  ApiMove.acts 1 1 ++ [.leave 1] ++
  List.replicate 5 (.act 0 cancelledAnswer) ++ [.leave 0]

/-- One abort ends two reads. -/
theorem one_abort_ends_two_reads :
    ¬ ∀ (core : CppCore) (handle : Int64) (o : Operation) (reader : ThreadId)
      (ls : List ApiLabel) (s : Sys ThreadId Action Answer ApiCall Int World),
      Runs (process core) (fun _ _ l => OneReader handle o reader l) World.start ls s →
        abortedReturns core o ls ≤ abortCalls o ls := by
  intro h
  obtain ⟨ls, s, hr, hx⟩ := Sys.moves_exists (process sampleCore)
    (fun _ _ l => OneReader 5 .kRead 0 l) World.start lateCancellation
    (fun ls _ => (abortedReturns sampleCore .kRead ls, abortCalls .kRead ls)) rfl
  have hle := h sampleCore 5 .kRead 0 ls s hr
  have hx : (abortedReturns sampleCore .kRead ls, abortCalls .kRead ls) = (2, 1) := hx
  rw [Prod.mk.injEq] at hx
  omega

end cpp_bindings_windows
