-- The handle table of Windows over whole runs. Every open handle is the handle of
-- a session, or in the hands of one call, or one that Windows refused to close,
-- so no call closes a handle twice and none leaks.
import SerialBindings.Places
import SerialBindings.Sessions

open programs places

namespace cpp_bindings_windows

/-! ## What a history tells -/

/-- The handle values on which `CloseHandle` failed, and that nobody has called `serialClose` on
since. -/
def unclosed : List ApiLabel → Finset HANDLE :=
  List.foldl (fun hs l => match l with
    | .enter _ c => match c.closing with
      | some h => if 0 < h then hs.erase h else hs
      | none => hs
    | .did _ (.closeHandle h) false => insert h hs
    | _ => hs) ∅

theorem unclosed_enter (ls : List ApiLabel) (t : ThreadId) (c : ApiCall) :
    unclosed (ls ++ [.enter t c]) = match c.closing with
      | some h => if 0 < h then (unclosed ls).erase h else unclosed ls
      | none => unclosed ls := by
  unfold unclosed
  rw [List.foldl_append]
  rfl

@[simp] theorem unclosed_leave (ls : List ApiLabel) (t : ThreadId) (c : ApiCall) (a : Int) :
    unclosed (ls ++ [.leave t c a]) = unclosed ls := by
  unfold unclosed
  rw [List.foldl_append]
  rfl

theorem unclosed_did (ls : List ApiLabel) (t : ThreadId) {e : Action} (r : Answer e)
    (he : ∀ h, e ≠ .closeHandle h) : unclosed (ls ++ [.did t e r]) = unclosed ls := by
  unfold unclosed
  rw [List.foldl_append]
  cases e with
  | closeHandle h => exact absurd rfl (he h)
  | _ => rfl

theorem unclosed_close (ls : List ApiLabel) (t : ThreadId) (h : HANDLE) (closed : Bool) :
    unclosed (ls ++ [.did t (.closeHandle h) closed]) =
      if closed then unclosed ls else insert h (unclosed ls) := by
  unfold unclosed
  rw [List.foldl_append]
  cases closed <;> rfl

/-- The handle value that a step starts to close. -/
def startsToClose : ApiLabel → Option HANDLE
  | .enter _ c => c.closing
  | _ => none

/-- `serialClose` gets the handle of an open session, or one that Windows refused to close, or
none that it accepts. -/
def ClosesSessions (ls : List ApiLabel) (_ : World) (l : ApiLabel) : Prop :=
  ∀ h ∈ startsToClose l, 0 < h → sessions ls h ≠ none ∨ h ∈ unclosed ls

instance (ls : List ApiLabel) (w : World) (l : ApiLabel) : Decidable (ClosesSessions ls w l) := by
  unfold ClosesSessions
  infer_instance

/-- The handle that a call has in its hands, after one more action: the one that Windows gave it
last, until it tries to close it. -/
def handsAfter (hands : Option HANDLE) : (action : Action) → Answer action → Option HANDLE
  | .createFile _, h => if h = INVALID_HANDLE_VALUE ∨ h = nullHandle then hands else some h
  | .createEvent, event => event.or hands
  | .closeHandle _, _ => none
  | _, _ => hands

/-- The handle in the hands of the call of each thread. A close takes over the handle that it
gets, and an open that returns hands its own on. -/
def inHands : List ApiLabel → ThreadId → Option HANDLE :=
  List.foldl (fun f l => match l with
    | .enter t c => Function.update f t (c.closing.filter (0 < ·))
    | .did t e r => Function.update f t (handsAfter (f t) e r)
    | .leave t _ _ => Function.update f t none) (fun _ => none)

theorem inHands_snoc (ls : List ApiLabel) (l : ApiLabel) :
    inHands (ls ++ [l]) = match l with
      | .enter t c => Function.update (inHands ls) t (c.closing.filter (0 < ·))
      | .did t e r => Function.update (inHands ls) t (handsAfter (inHands ls t) e r)
      | .leave t _ _ => Function.update (inHands ls) t none := by
  unfold inHands
  rw [List.foldl_append]
  rfl

@[simp] theorem inHands_enter (ls : List ApiLabel) (t : ThreadId) (c : ApiCall) :
    inHands (ls ++ [.enter t c]) =
      Function.update (inHands ls) t (c.closing.filter (0 < ·)) := inHands_snoc _ _

@[simp] theorem inHands_did (ls : List ApiLabel) (t : ThreadId) (e : Action) (r : Answer e) :
    inHands (ls ++ [.did t e r]) =
      Function.update (inHands ls) t (handsAfter (inHands ls t) e r) := inHands_snoc _ _

@[simp] theorem inHands_leave (ls : List ApiLabel) (t : ThreadId) (c : ApiCall) (a : Int) :
    inHands (ls ++ [.leave t c a]) = Function.update (inHands ls) t none := inHands_snoc _ _

theorem Tenant.start_object (c : ApiCall) :
    (Tenant.start c).holds.object = c.closing.filter (0 < ·) := by
  cases c with
  | serialClose handle callback =>
    simp only [Tenant.start, ApiCall.closing, Option.filter_some, decide_eq_true_eq]
    split <;> rfl
  | _ => rfl

/-- The protocol says of the handle in the hands of a call what the actions say of it. -/
theorem Tenant.next_object {g g' : Tenant} {e : Action} {r : Answer e}
    (hallows : tenancy.allows g e) (h : tenancy.next g e r = some g') :
    g'.holds.object = handsAfter g.holds.object e r := by
  cases e with
  | createFile path =>
    simp only [tenancy, Tenant.next, Option.some_inj] at h
    subst h
    dsimp only [handsAfter]
    split <;> rfl
  | createEvent => cases r <;> cases h <;> rfl
  | ensureHandleState handle =>
    simp only [tenancy, Tenant.next, Option.some_inj] at h
    subst h
    rcases hallows with ⟨hopens, hraw⟩ | ⟨hopens, hnothing⟩
    · rw [if_pos hopens, hraw]
      rfl
    · rw [hopens, if_neg Bool.false_ne_true]
      rfl
  | closeHandle handle =>
    simp only [tenancy, Tenant.next, Option.some_inj] at h
    subst h
    dsimp only [handsAfter]
    split <;> rfl
  | removeHandleState handle =>
    have hremoving : g.holds = .removing handle := hallows
    cases h
    rw [hremoving]
    rfl
  | _ =>
    cases h
    rfl

/-! ## The places of the handles -/

/-- Where each handle value is: nowhere while it is not open, in the hands of a call, kept as the
handle of a session, and gone when Windows refused to close it. -/
structure Table (ls : List ApiLabel) (place : HANDLE → Place ThreadId) (H : ThreadId → Holding)
    (w : World) : Prop where
  opened : ∀ h, h ∈ w.openHandles ↔ place h ≠ .nowhere
  held : Placed place fun t h => (H t).object = some h
  kept : ∀ h, place h = .kept ↔ sessions ls h ≠ none
  gone : ∀ h, place h = .gone ↔ h ∈ unclosed ls
  positive : ∀ h, sessions ls h ≠ none → 0 < h
  registered : ∀ t h s, H t = .registered h s → acquired ls t = some s

section Steps

variable {ls : List ApiLabel} {place : HANDLE → Place ThreadId} {H : ThreadId → Holding}
  {w w' : World} {t : ThreadId} {l : ApiLabel} {h : HANDLE} {x : Holding} {y : Place ThreadId}

theorem Table.start : Table [] (fun _ => .nowhere) (fun _ => .nothing) .start where
  opened _ := by simp [World.start]
  held _ _ := ⟨nofun, nofun⟩
  kept _ := ⟨nofun, fun hnone => absurd rfl hnone⟩
  gone _ := ⟨nofun, nofun⟩
  positive _ hnone := absurd rfl hnone
  registered _ _ _ hx := nomatch hx

/-- What `t` holds changes, but no handle moves. -/
theorem Table.same (htable : Table ls place H w) (hobject : x.object = (H t).object)
    (hopen : w'.openHandles = w.openHandles) (hsessions : sessions (ls ++ [l]) = sessions ls)
    (hunclosed : unclosed (ls ++ [l]) = unclosed ls)
    (hothers : ∀ u, u ≠ t → acquired (ls ++ [l]) u = acquired ls u)
    (hself : ∀ h s, x = .registered h s → acquired (ls ++ [l]) t = some s) :
    Table (ls ++ [l]) place (Function.update H t x) w' where
  opened h := by
    rw [hopen]
    exact htable.opened h
  held := by
    refine htable.held.same fun u h => ?_
    by_cases hu : u = t
    · rw [hu, Function.update_self, hobject]
    · rw [Function.update_of_ne hu]
  kept h := by
    rw [hsessions]
    exact htable.kept h
  gone h := by
    rw [hunclosed]
    exact htable.gone h
  positive h := by
    rw [hsessions]
    exact htable.positive h
  registered u h s hu := by
    by_cases hut : u = t
    · rw [hut, Function.update_self] at hu
      rw [hut]
      exact hself h s hu
    · rw [Function.update_of_ne hut] at hu
      rw [hothers u hut]
      exact htable.registered u h s hu

/-- The handle `h` moves, and the call of `t` has it before or after. -/
theorem Table.move (htable : Table ls place H w)
    (hbefore : ∀ u, place h = .held u → u = t) (hafter : ∀ u, y = .held u → u = t)
    (hself : x.object = some h ↔ y = .held t)
    (hrest : ∀ h', h' ≠ h → (x.object = some h' ↔ (H t).object = some h'))
    (hopen : (h ∈ w'.openHandles ↔ y ≠ .nowhere) ∧
      ∀ h', h' ≠ h → (h' ∈ w'.openHandles ↔ h' ∈ w.openHandles))
    (hkept : (y = .kept ↔ sessions (ls ++ [l]) h ≠ none) ∧
      ∀ h', h' ≠ h → sessions (ls ++ [l]) h' = sessions ls h')
    (hgone : (y = .gone ↔ h ∈ unclosed (ls ++ [l])) ∧
      ∀ h', h' ≠ h → (h' ∈ unclosed (ls ++ [l]) ↔ h' ∈ unclosed ls))
    (hpositive : sessions (ls ++ [l]) h ≠ none → 0 < h)
    (hothers : ∀ u, u ≠ t → acquired (ls ++ [l]) u = acquired ls u)
    (hx : ∀ h s, x ≠ .registered h s) :
    Table (ls ++ [l]) (Function.update place h y) (Function.update H t x) w' where
  opened := by
    refine (Function.forall_update_iff place fun h' y =>
      h' ∈ w'.openHandles ↔ y ≠ .nowhere).mpr ?_
    exact ⟨hopen.1, fun h' hh => (hopen.2 h' hh).trans (htable.opened h')⟩
  held := by
    refine htable.held.move hbefore hafter ?_ (fun h' hh => ?_) fun u hu h' => ?_
    · rw [Function.update_self]
      exact hself
    · rw [Function.update_self]
      exact hrest h' hh
    · rw [Function.update_of_ne hu]
  kept := by
    refine (Function.forall_update_iff place fun h' y =>
      y = .kept ↔ sessions (ls ++ [l]) h' ≠ none).mpr ?_
    refine ⟨hkept.1, fun h' hh => ?_⟩
    rw [hkept.2 h' hh]
    exact htable.kept h'
  gone := by
    refine (Function.forall_update_iff place fun h' y =>
      y = .gone ↔ h' ∈ unclosed (ls ++ [l])).mpr ?_
    exact ⟨hgone.1, fun h' hh => (htable.gone h').trans (hgone.2 h' hh).symm⟩
  positive h' hh := by
    by_cases hne : h' = h
    · rw [hne] at hh ⊢
      exact hpositive hh
    · rw [hkept.2 h' hne] at hh
      exact htable.positive h' hh
  registered u h' s hu := by
    by_cases hut : u = t
    · rw [hut, Function.update_self] at hu
      exact absurd hu (hx h' s)
    · rw [Function.update_of_ne hut] at hu
      rw [hothers u hut]
      exact htable.registered u h' s hu

/-- Windows gives `t` a handle that is not open. -/
theorem Table.gets {e : Action} {r : Answer e} (htable : Table ls place H w)
    (ht : H t = .nothing) (hx : x = .raw h ∨ x = .event h) (hnew : h ∉ w.openHandles)
    (hclose : ∀ h, e ≠ .closeHandle h)
    (hw : w' = { w with openHandles := insert h w.openHandles }) :
    Table (ls ++ [.did t e r]) (Function.update place h (.held t)) (Function.update H t x) w' := by
  have hobject : x.object = some h := by rcases hx with rfl | rfl <;> rfl
  have hnowhere : place h = .nowhere := by
    by_contra hplace
    exact hnew ((htable.opened h).mpr hplace)
  have hunclosed : h ∉ unclosed ls := by
    rw [← htable.gone h, hnowhere]
    simp
  have hsession : ¬ sessions ls h ≠ none := by
    rw [← htable.kept h, hnowhere]
    simp
  subst hw
  apply htable.move
  · simp [hnowhere]
  · simp
  · simp [hobject]
  · intro h' hh
    rw [hobject, ht, Option.some_inj]
    exact ⟨fun heq => absurd heq.symm hh, nofun⟩
  · exact ⟨by simp, fun h' hh => by simp [hh]⟩
  · simpa using hsession
  · rw [unclosed_did ls t r hclose]
    exact ⟨by simp [hunclosed], fun _ _ => Iff.rfl⟩
  · rw [sessions_did]
    exact htable.positive h
  · exact fun u hu => acquired_other ls r hu
  · rintro h' s rfl
    simp at hx

/-- `t` tries to close the handle that it holds. -/
theorem Table.closes {closed : Bool} (htable : Table ls place H w)
    (ht : (H t).object = some h) (hx : x.object = none)
    (hp : w.perform t (.closeHandle h) closed = some w') :
    Table (ls ++ [.did t (.closeHandle h) closed])
      (Function.update place h (if closed then .nowhere else .gone))
      (Function.update H t x) w' := by
  have hheld : place h = .held t := (htable.held h t).mpr ht
  have hopen : h ∈ w.openHandles := by
    rw [htable.opened h, hheld]
    simp
  have hunclosed : h ∉ unclosed ls := by
    rw [← htable.gone h, hheld]
    simp
  have hsession : ¬ sessions ls h ≠ none := by
    rw [← htable.kept h, hheld]
    simp
  apply htable.move
  · rw [hheld]
    simp
  · cases closed <;> simp
  · cases closed <;> simp [hx]
  · intro h' hh
    simp [hx, ht, hh.symm]
  · cases closed with
    | false =>
      cases hp
      exact ⟨by simp [hopen], fun _ _ => Iff.rfl⟩
    | true =>
      simp only [World.perform, Bool.true_eq_false, if_false, if_pos hopen] at hp
      cases hp
      exact ⟨by simp, fun h' hh => by simp [hh]⟩
  · rw [sessions_did]
    refine ⟨?_, fun _ _ => rfl⟩
    cases closed <;> simpa using hsession
  · rw [unclosed_close]
    cases closed with
    | false => exact ⟨by simp, fun h' hh => by simp [hh]⟩
    | true => exact ⟨by simp [hunclosed], fun _ _ => Iff.rfl⟩
  · rw [sessions_did]
    exact htable.positive h
  · exact fun u hu => acquired_other ls (e := .closeHandle h) closed hu
  · rintro h' s rfl
    simp [Holding.object] at hx

/-- Nothing moves in an action that neither opens nor closes a handle. -/
theorem Table.idle {e : Action} {r : Answer e} (htable : Table ls place H w)
    (hclose : ∀ h, e ≠ .closeHandle h) (hopen : w'.openHandles = w.openHandles)
    (hobject : x.object = (H t).object)
    (hself : ∀ h s, x = .registered h s → acquired (ls ++ [.did t e r]) t = some s) :
    Table (ls ++ [.did t e r]) place (Function.update H t x) w' :=
  htable.same hobject hopen (sessions_did ..) (unclosed_did ls t r hclose)
    (fun _ hu => acquired_other ls r hu) hself

/-- What a call holds stays as it is in an action that is not about the states of handles. -/
theorem Table.stays {e : Action} {r : Answer e} (htable : Table ls place H w)
    (hclose : ∀ h, e ≠ .closeHandle h) (hensure : ∀ h, e ≠ .ensureHandleState h)
    (hopen : w'.openHandles = w.openHandles) (hx : H t = x) :
    Table (ls ++ [.did t e r]) place (Function.update H t x) w' := by
  refine htable.idle hclose hopen (by rw [hx]) fun h s hreg => ?_
  rw [acquired_did ls t r hensure]
  exact htable.registered t h s (hx.trans hreg)

/-- Every step of a call keeps the table. -/
theorem Table.did {g : Tenant} {e : Action} {r : Answer e} (htable : Table ls place H w)
    (ht : H t = g.holds) (hallows : tenancy.allows g e) (hp : w.perform t e r = some w') :
    ∃ g', tenancy.next g e r = some g' ∧ g'.call = g.call ∧
      ∃ place', Table (ls ++ [.did t e r]) place' (Function.update H t g'.holds) w' := by
  have hhome : e.Homely → ∃ g', tenancy.next g e r = some g' ∧ g'.call = g.call ∧
      ∃ place', Table (ls ++ [.did t e r]) place' (Function.update H t g'.holds) w' := by
    intro hhomely
    refine ⟨g, (tenancy_homely hhomely g r).2, rfl, place, htable.stays ?_ ?_
      (World.perform_homely hhomely hp).2 ht⟩
    · rintro handle rfl
      exact hhomely.elim id (Or.elim · id id)
    · rintro handle rfl
      exact hhomely.elim id (Or.elim · id id)
  cases e with
  | ensureHandleState handle =>
    have hopen : w'.openHandles = w.openHandles := by
      rcases World.perform_ensure hp with ⟨-, rfl⟩ | ⟨-, -, -, -, -, -, hopen⟩
      · rfl
      · exact hopen
    refine ⟨_, rfl, ?_, place, htable.idle (by simp) hopen ?_ ?_⟩
    · split <;> rfl
    · rcases hallows with ⟨hopens, hraw⟩ | ⟨hopens, hnothing⟩
      · rw [ht, hraw, hopens]
        rfl
      · rw [ht, hopens]
        rfl
    · intro h s hreg
      rw [acquired_ensure, Function.update_self]
      rcases hallows with ⟨hopens, -⟩ | ⟨hopens, hnothing⟩
      · simp only [hopens, if_true, Holding.registered.injEq] at hreg
        rw [hreg.2]
      · simp only [hopens, Bool.false_eq_true, if_false, hnothing, reduceCtorEq] at hreg
  | removeHandleState handle =>
    cases hp
    refine ⟨_, rfl, rfl, place, htable.idle (by simp) rfl ?_ (by simp)⟩
    rw [ht, show g.holds = .removing handle from hallows]
    rfl
  | createFile path =>
    simp only [World.perform] at hp
    split at hp
    · rename_i hinvalid
      cases hp
      refine ⟨g, ?_, rfl, place, htable.stays (by simp) (by simp) rfl ht⟩
      simp only [tenancy, Tenant.next, if_pos hinvalid]
    · rename_i hvalid
      split at hp
      · cases hp
      · rename_i hnew
        cases hp
        refine ⟨{ g with holds := .raw r }, by simp only [tenancy, Tenant.next, if_neg hvalid],
          rfl, _, htable.gets (ht.trans hallows.2) (Or.inl rfl) hnew (by simp) rfl⟩
  | createEvent =>
    cases r with
    | none =>
      cases hp
      exact ⟨g, rfl, rfl, place, htable.stays (by simp) (by simp) rfl ht⟩
    | some event =>
      simp only [World.perform] at hp
      split at hp
      · cases hp
      · rename_i hnew
        cases hp
        exact ⟨_, rfl, rfl, _,
          htable.gets (ht.trans hallows) (Or.inr rfl) hnew (by simp) rfl⟩
  | closeHandle handle =>
    refine ⟨_, rfl, rfl, _, htable.closes ?_ ?_ hp⟩
    · rw [ht]
      rcases hallows with hh | hh | ⟨hh, -⟩ <;> (rw [hh]; rfl)
    · dsimp only
      split <;> rfl
  | storeAbort | cancelPending | startPendingIo | finishPendingIo | waitForSingleObject |
      cancelIoEx | getOverlappedResult => exact hhome (Or.inr (Or.inr trivial))
  | loadTotal | addTotal => exact hhome (Or.inr (Or.inl trivial))
  | _ => exact hhome (Or.inl trivial)

/-- A close takes the handle of its session, or one that Windows refused to close before. -/
theorem Table.entered {c : ApiCall} (htable : Table ls place H w) (ht : H t = .nothing)
    (hcloses : ClosesSessions ls w (.enter t c)) :
    ∃ place', Table (ls ++ [.enter t c]) place'
      (Function.update H t (Tenant.start c).holds) w := by
  have hacquired : ∀ u, u ≠ t → acquired (ls ++ [.enter t c]) u = acquired ls u := by
    intro u hu
    rw [acquired_enter, Function.update_of_ne hu]
  by_cases hclosing : ∃ h, c.closing = some h ∧ 0 < h
  · obtain ⟨h, hc, hpos⟩ := hclosing
    have hstart : (Tenant.start c).holds = .closing h := by
      cases c with
      | serialClose handle callback =>
        cases hc
        exact if_pos hpos
      | _ => cases hc
    have hplace : place h = .kept ∨ place h = .gone := by
      rw [htable.kept, htable.gone]
      exact hcloses h hc hpos
    have hsessions := sessions_enter ls t c
    have hunclosed := unclosed_enter ls t c
    simp only [hc] at hsessions hunclosed
    rw [if_pos hpos] at hunclosed
    rw [hstart]
    refine ⟨_, htable.move (h := h) (y := .held t) ?_ (by simp) (by simp [Holding.object]) ?_ ?_ ?_
      ?_ (fun _ => hpos) hacquired (by simp)⟩
    · rcases hplace with hplace | hplace <;> simp [hplace]
    · intro h' hh
      simp [ht, Holding.object, hh.symm]
    · refine ⟨?_, fun _ _ => Iff.rfl⟩
      rw [htable.opened]
      rcases hplace with hplace | hplace <;> simp [hplace]
    · rw [hsessions]
      exact ⟨by simp, fun h' hh => Function.update_of_ne hh _ _⟩
    · rw [hunclosed]
      exact ⟨by simp, fun h' hh => by simp [hh]⟩
  · have hstart : (Tenant.start c).holds = .nothing := by
      cases c with
      | serialClose handle callback => exact if_neg fun hpos => hclosing ⟨_, rfl, hpos⟩
      | _ => rfl
    have hsessions : sessions (ls ++ [.enter t c]) = sessions ls := by
      rw [sessions_enter]
      cases hc : c.closing with
      | none => rfl
      | some h =>
        have hnone : sessions ls h = none := by
          by_contra hsome
          exact hclosing ⟨h, hc, htable.positive h hsome⟩
        exact Function.update_eq_self_iff.mpr hnone.symm
    have hunclosed : unclosed (ls ++ [.enter t c]) = unclosed ls := by
      rw [unclosed_enter]
      cases hc : c.closing with
      | none => rfl
      | some h => exact if_neg fun hpos => hclosing ⟨h, hc, hpos⟩
    rw [hstart]
    exact ⟨place, htable.same (by rw [ht]) rfl hsessions hunclosed hacquired (by simp)⟩

/-- An open hands its handle on to the session, and the other calls hand on nothing. -/
theorem Table.left {c : ApiCall} {g : Tenant} {a : Int} (htable : Table ls place H w)
    (ht : H t = g.holds) (hover : Tenant.Over c g a) :
    ∃ place', Table (ls ++ [.leave t c a]) place' (Function.update H t .nothing) w := by
  have hsessions := sessions_leave ls t c a
  have hacquired : ∀ u, u ≠ t → acquired (ls ++ [.leave t c a]) u = acquired ls u := by
    intro u _
    rw [acquired_leave]
  unfold Tenant.Over at hover
  by_cases hopens : c.opens = true ∧ 0 < a
  · rw [if_pos hopens] at hover hsessions
    obtain ⟨s, hs⟩ := hover
    have hobject : (H t).object = some a := by
      rw [ht, hs]
      rfl
    have hheld : place a = .held t := (htable.held a t).mpr hobject
    have hunclosed : a ∉ unclosed ls := by
      rw [← htable.gone a, hheld]
      simp
    refine ⟨_, htable.move (h := a) (y := .kept) (by simp [hheld]) (by simp)
      (by simp [Holding.object]) ?_ ?_ ?_ ?_ (fun _ => hopens.2) hacquired (by simp)⟩
    · intro h' hh
      rw [hobject]
      simp [Holding.object, hh.symm]
    · refine ⟨?_, fun _ _ => Iff.rfl⟩
      rw [htable.opened, hheld]
      simp
    · rw [hsessions]
      refine ⟨?_, fun h' hh => Function.update_of_ne hh _ _⟩
      rw [Function.update_self, htable.registered t a s (ht.trans hs)]
      simp
    · rw [unclosed_leave]
      exact ⟨by simp [hunclosed], fun _ _ => Iff.rfl⟩
  · rw [if_neg hopens] at hover hsessions
    exact ⟨place, htable.same (by rw [ht, hover]) rfl hsessions (unclosed_leave ..) hacquired
      (by simp)⟩

end Steps

/-! ## The runs -/

/-- The open handles are accounted for: each is the handle of a session, or one that Windows
refused to close, or in the hands of one call, and each of these is open. -/
structure Accounted (ls : List ApiLabel) (w : World) : Prop where
  inside : ∀ t, running ls t = none → inHands ls t = none
  opened : ∀ h, h ∈ w.openHandles ↔
    sessions ls h ≠ none ∨ h ∈ unclosed ls ∨ ∃ t, inHands ls t = some h
  apart : ∀ t u h, inHands ls t = some h → inHands ls u = some h → t = u
  busy : ∀ t h, inHands ls t = some h → sessions ls h = none ∧ h ∉ unclosed ls
  settled : ∀ h, sessions ls h ≠ none → h ∉ unclosed ls

/-- The calls have their protocols, and the handles have their places. -/
structure HandlesInv (ls : List ApiLabel) (gs : ThreadId → Option (ApiCall × Tenant))
    (w : World) : Prop where
  inside : ∀ t c g, gs t = some (c, g) → running ls t = some c
  hands : inHands ls = fun t => (holdings gs t).object
  table : ∃ place, Table ls place (holdings gs) w

section Runs

variable {ls : List ApiLabel} {gs : ThreadId → Option (ApiCall × Tenant)} {w w' : World}
  {t : ThreadId} {c : ApiCall} {g : Tenant}

theorem object_update (H : ThreadId → Holding) (x : Holding) :
    (fun u => (Function.update H t x u).object) =
      Function.update (fun u => (H u).object) t x.object :=
  funext fun u => Function.apply_update (fun _ => Holding.object) H t x u

theorem HandlesInv.accounted (h : HandlesInv ls gs w) : Accounted ls w := by
  obtain ⟨place, htable⟩ := h.table
  have hhands : ∀ t, inHands ls t = (holdings gs t).object := congrFun h.hands
  refine ⟨fun t ht => ?_, fun h => ?_, fun t u h ht hu => ?_, fun t h ht => ?_, fun h hs => ?_⟩
  · rw [hhands]
    cases hg : gs t with
    | none => rw [holdings_of_none hg, Holding.object]
    | some cg =>
      rw [h.inside t cg.1 cg.2 hg] at ht
      cases ht
  · rw [htable.opened, ← htable.kept, ← htable.gone]
    simp only [hhands, ← htable.held h]
    cases place h <;> simp
  · rw [hhands] at ht hu
    exact htable.held.one hu ht
  · rw [hhands] at ht
    have hheld := (htable.held h t).mpr ht
    refine ⟨?_, ?_⟩
    · by_contra hs
      rw [← Ne, ← htable.kept, hheld] at hs
      cases hs
    · rw [← htable.gone, hheld]
      simp
  · rw [← htable.kept] at hs
    rw [← htable.gone, hs]
    simp

def handlesOutline (core : CppCore) :
    Outline (process core) ClosesSessions World.start tenancy where
  start := Tenant.start
  post := Tenant.Over
  inv := HandlesInv
  follows := program_tenancy core
  init := ⟨fun _ _ _ => nofun, rfl, fun _ => .nowhere, Table.start⟩
  enter {ls gs s t c s'} h hg hw hcloses := by
    cases hw
    obtain ⟨place, htable⟩ := h.table
    refine ⟨fun u c' g0 hg0 => ?_, ?_, ?_⟩
    · rw [running_enter]
      by_cases hu : u = t
      · rw [hu, Function.update_self] at hg0 ⊢
        cases hg0
        rfl
      · rw [Function.update_of_ne hu] at hg0 ⊢
        exact h.inside u c' g0 hg0
    · rw [inHands_enter, holdings_update, object_update, Tenant.start_object, h.hands]
    · rw [holdings_update]
      exact htable.entered (holdings_of_none hg) hcloses
  did {ls gs s t c g e r s'} h hg hallows hp _ := by
    obtain ⟨place, htable⟩ := h.table
    obtain ⟨g', hn, -, htable'⟩ := htable.did (holdings_of_some hg) hallows hp
    refine ⟨g', hn, fun u c' g0 hg0 => ?_, ?_, ?_⟩
    · rw [running_did]
      by_cases hu : u = t
      · rw [hu, Function.update_self] at hg0
        cases hg0
        exact hu ▸ h.inside t c g hg
      · rw [Function.update_of_ne hu] at hg0
        exact h.inside u c' g0 hg0
    · have hself : inHands ls t = g.holds.object := by
        rw [congrFun h.hands t, holdings_of_some hg]
      rw [inHands_did, holdings_update, object_update, Tenant.next_object hallows hn, hself,
        h.hands]
    · rw [holdings_update]
      exact htable'
  leave {ls gs s t c g a s'} h hg hover hw _ := by
    cases hw
    obtain ⟨place, htable⟩ := h.table
    refine ⟨fun u c' g0 hg0 => ?_, ?_, ?_⟩
    · obtain ⟨hu, hg0⟩ := stays_inside hg0
      rw [running_leave, Function.update_of_ne hu]
      exact h.inside u c' g0 hg0
    · rw [inHands_leave, holdings_update, object_update, h.hands]
      rfl
    · rw [holdings_update]
      exact htable.left (holdings_of_some hg) hover

end Runs

/-- What the runs keep: the open handles are accounted for, and each call closes a handle that is
in its hands. -/
structure HandlesKept (core : CppCore) (ls : List ApiLabel) (w : World) : Prop where
  accounted : Accounted ls w
  closes : ∀ l1 l2 t h closed, ls = l1 ++ .did t (.closeHandle h) closed :: l2 →
    inHands l1 t = some h ∧
      ∃ s, Runs (process core) ClosesSessions World.start l1 s ∧ Accounted l1 s.shared

/-- In every run in which `serialClose` gets only handles of sessions, no call closes a handle
that is not its own, and no handle is lost: when no call is running, the open handles are the
sessions and the ones that Windows refused to close. -/
theorem no_handle_is_lost_or_closed_twice (core : CppCore) {ls : List ApiLabel}
    {s : Sys ThreadId Action Answer ApiCall Int World}
    (h : Runs (process core) ClosesSessions World.start ls s) : HandlesKept core ls s.shared := by
  refine ⟨?_, fun l1 l2 t hd closed heq => ?_⟩
  · obtain ⟨gs, hi, -⟩ := (handlesOutline core).runs h
    exact hi.accounted
  · obtain ⟨s1, s2, hr, -, hstep⟩ := h.split heq
    obtain ⟨gs, hi, hm⟩ := (handlesOutline core).runs hr
    cases hstep with
    | did ht hp =>
      obtain ⟨g, hg, ⟨hallows, -⟩⟩ := Outline.some_of_some hm ht
      refine ⟨?_, s1, hr, hi.accounted⟩
      rw [congrFun hi.hands t, holdings_of_some hg]
      rcases hallows with hh | hh | ⟨hh, -⟩ <;> rw [hh, Holding.object]

/-- A machine that closes no handle. -/
def refusesAnswer : (action : Action) → Answer action
  | .closeHandle _ => false
  | action => idleAnswer action

/-- Windows refuses to close the handle, and the next `serialClose` closes it. -/
def closeAgain : List ApiMove :=
  [.enter 0 openCall] ++ ApiMove.acts 0 9 ++ [.leave 0, .enter 0 (.serialClose 5 none)] ++
  ApiMove.acts 0 1 ++ [.act 0 fun _ _ => refusesAnswer] ++ ApiMove.acts 0 5 ++
  [.leave 0, .enter 1 (.serialClose 5 none)] ++ ApiMove.acts 1 3 ++ [.leave 1]

theorem a_refused_handle_is_closed_later :
    ∃ ls s, Runs (process sampleCore) ClosesSessions World.start ls s ∧
      returns ls = [(0, 5), (0, sampleCore.value .kCloseHandleError), (1, kSuccess)] ∧
      s.shared.openHandles = ∅ ∧ HandlesKept sampleCore ls s.shared := by
  obtain ⟨ls, s, hr, hx⟩ := Sys.moves_exists (process sampleCore) ClosesSessions World.start
    closeAgain (fun ls s => (returns ls, s.shared.openHandles))
    (x := ([(0, 5), (0, sampleCore.value .kCloseHandleError), (1, kSuccess)], ∅)) rfl
  simp only [Prod.mk.injEq] at hx
  exact ⟨ls, s, hr, hx.1, hx.2, no_handle_is_lost_or_closed_twice sampleCore hr⟩

end cpp_bindings_windows
