-- A listing as a whole. It asks for the devices one after another, and only when it has come
-- to their end it reports what it found, in the order of the ports. When it fails, it reports
-- nothing.
import SerialBindings.DeviceStrings
import SerialBindings.Quiet
import SerialBindings.UsbIds

open programs

namespace cpp_bindings_windows

namespace listing

/-! ## The reports and the walk -/

/-- The ports that the callback is told in the steps. -/
def told (tr : List Answered) : List ReportedPort :=
  tr.filterMap fun x => match x.1 with
    | .portCallback _ port => some port
    | _ => none

/-- The turns of the walk from an index up to another one. Each turn asks for the device with its
index, and finds a port or none. -/
inductive Walk (set : HDEVINFO) :
    DWORD → List (Option PortInformation) → List Answered → DWORD → Prop
  | nil {index : DWORD} : Walk set index [] [] index
  | cons {index last : DWORD} {device : SP_DEVINFO_DATA} {found : Option PortInformation}
      {founds : List (Option PortInformation)} {turn walk : List Answered}
      (finds : Traces (portInformation set device) turn (.ret (some found)))
      (later : Walk set (index + 1) founds walk last) :
      Walk set index (found :: founds)
        (⟨.setupDiEnumDeviceInfo set index, some device⟩ :: (turn ++ walk)) last

@[simp] theorem told_nil : told [] = [] := rfl

@[simp] theorem told_append (tr tr' : List Answered) : told (tr ++ tr') = told tr ++ told tr' :=
  List.filterMap_append

theorem told_other {x : Answered} {tr : List Answered}
    (h : ∀ callback port, x.1 ≠ .portCallback callback port) : told (x :: tr) = told tr := by
  unfold told
  rw [List.filterMap_cons_none]
  split
  · rename_i callback port hx
    exact absurd hx (h callback port)
  · rfl

/-- A program that tells the callback nothing. -/
theorem told_within {α : Type} {p q : Listing α} {V : α → Prop} {tr : List Answered}
    (hp : Within (ListingAction.Tells fun _ => False) V p) (h : Traces p tr q) : told tr = [] := by
  unfold told
  rw [List.filterMap_eq_nil_iff]
  rintro ⟨action, answer⟩ hx
  have htells := (traces_within hp h).1 _ hx
  cases action with
  | portCallback => exact htells.elim
  | _ => rfl

theorem told_lift {α : Type} {p : Api α} {tr : List Answered} {a : α}
    (h : Traces (listing.lift p) tr (.ret a)) : told tr = [] :=
  told_within (within_lift (within_trivial p)) h

/-- A report of an error ends with its code. -/
theorem report_told {core : CppCore} {code : StatusCode} {p : Api Int} {tr : List Answered}
    {status : Int} (hp : Within Action.Reports (· = core.value code) p)
    (h : Traces (listing.lift p) tr (.ret status)) : status < 0 ∧ told tr = [] := by
  have hany : Within (fun _ : ListingAction => True) (· = core.value code) (listing.lift p) :=
    within_lift (within_mono hp (fun _ _ => trivial) fun _ h => h)
  have hcode : status = core.value code := (traces_within hany h).2
  refine ⟨?_, told_lift h⟩
  rw [hcode]
  exact core.value_neg code

theorem Walk.told {set : HDEVINFO} {index last : DWORD} {founds : List (Option PortInformation)}
    {walk : List Answered} (h : Walk set index founds walk last) : told walk = [] := by
  induction h with
  | nil => rfl
  | cons finds _ ih =>
    rw [told_other (by simp), told_append, told_within (portInformation_decodes _ _) finds, ih]
    rfl

theorem reportPorts_told (callback_function : Callback) (ports : List PortInformation)
    {tr : List Answered} (h : Traces (reportPorts callback_function ports) tr (.ret ())) :
    told tr = ports.map PortInformation.reported := by
  induction ports generalizing tr with
  | nil =>
    obtain ⟨rfl, -⟩ := traces_ret h
    rfl
  | cons port ports ih =>
    obtain ⟨_, rest, rfl, hrest⟩ := traces_act_ret h
    have hlater := ih hrest
    simpa [told] using hlater

/-- The loop walks over the devices to their end, or it ends with an error. -/
theorem enumerate_walks (core : CppCore) (callback : Callback) (set : HDEVINFO) (turns : Nat)
    (index : DWORD) (ports : List PortInformation) {tr : List Answered}
    {result : Except Int (List PortInformation)}
    (h : Traces (enumerate core callback set turns index ports) tr (.ret (some result))) :
    (∃ status, result = .error status ∧ status < 0 ∧ told tr = []) ∨
    ∃ founds walk last, Walk set index founds walk last ∧
      result = .ok (ports ++ founds.filterMap id) ∧
      tr = walk ++ [⟨.setupDiEnumDeviceInfo set last, none⟩,
        ⟨.api .getLastError, ERROR_NO_MORE_ITEMS⟩] := by
  induction turns generalizing index ports tr with
  | zero =>
    obtain ⟨-, hret⟩ := traces_ret h
    cases hret
  | succ turns ih =>
    unfold enumerate at h
    obtain ⟨device, tr1, rfl, h1⟩ := traces_act_ret h
    cases device with
    | none =>
      dsimp only [Prog.bind] at h1
      obtain ⟨error, tr2, rfl, h2⟩ := traces_act_ret h1
      dsimp only [Prog.bind] at h2
      split at h2
      · rename_i hend
        obtain ⟨rfl, hret⟩ := traces_ret h2
        cases hret
        exact Or.inr ⟨[], [], index, .nil, by simp, by rw [hend]; rfl⟩
      · obtain ⟨status, tr3, tr4, rfl, h3, h4⟩ := traces_bind_ret h2
        obtain ⟨rfl, hret⟩ := traces_ret h4
        cases hret
        obtain ⟨hneg, htold⟩ := report_told (failWin32_within core callback _) h3
        refine Or.inl ⟨status, rfl, hneg, ?_⟩
        rw [told_other (by simp), told_other (by simp), told_append, htold]
        rfl
    | some device =>
      dsimp only [Prog.bind] at h1
      obtain ⟨found, turn, rest, rfl, h2, h3⟩ := traces_bind_ret h1
      cases found with
      | none =>
        obtain ⟨-, hret⟩ := traces_ret h3
        cases hret
      | some found =>
        have hturn := told_within (portInformation_decodes set device) h2
        -- the turn goes before those of the rest of the walk
        have hgo : ∀ ports' : List PortInformation,
            Traces (enumerate core callback set turns (index + 1) ports') rest
              (.ret (some result)) →
            ports' = ports ++ found.toList →
            (∃ status, result = .error status ∧ status < 0 ∧
              told (⟨.setupDiEnumDeviceInfo set index, some device⟩ :: (turn ++ rest)) = []) ∨
            ∃ founds walk last, Walk set index founds walk last ∧
              result = .ok (ports ++ founds.filterMap id) ∧
              (⟨.setupDiEnumDeviceInfo set index, some device⟩ :: (turn ++ rest) :
                List Answered) = walk ++ [⟨.setupDiEnumDeviceInfo set last, none⟩,
                  ⟨.api .getLastError, ERROR_NO_MORE_ITEMS⟩] := by
          rintro ports' hrest rfl
          rcases ih (index + 1) _ hrest with ⟨status, rfl, hneg, htold⟩ |
            ⟨founds, walk, last, hwalk, rfl, rfl⟩
          · refine Or.inl ⟨status, rfl, hneg, ?_⟩
            rw [told_other (by simp), told_append, hturn, htold]
            rfl
          · refine Or.inr ⟨found :: founds, _, last, .cons h2 hwalk, ?_, by simp⟩
            cases found <;> simp
        cases found with
        | none => exact hgo ports h3 (by simp)
        | some port => exact hgo (ports ++ [port]) h3 rfl

theorem sorted_ports (ports : List PortInformation) :
    (ports.mergeSort fun one other => decide (one.port ≤ other.port)).Pairwise
      fun one other => one.port ≤ other.port := by
  have hsorted : (ports.mergeSort fun one other => decide (one.port ≤ other.port)).Pairwise
      fun one other => decide (one.port ≤ other.port) = true := by
    apply List.pairwise_mergeSort
    · intro a b c hab hbc
      rw [decide_eq_true_eq] at hab hbc ⊢
      exact List.le_trans hab hbc
    · intro a b
      rw [Bool.or_eq_true, decide_eq_true_eq, decide_eq_true_eq]
      exact List.le_total a.port b.port
  exact hsorted.imp fun h => of_decide_eq_true h

end listing

open listing

/-- A listing of the devices of a set, from the first one to the end, which has found `founds`. -/
def Walked (set : HDEVINFO) (founds : List (Option PortInformation)) (tr : List Answered) : Prop :=
  ∃ before walk last after, Walk set 0 founds walk last ∧
    tr = before ++ (walk ++ [⟨.setupDiEnumDeviceInfo set last, none⟩,
      ⟨.api .getLastError, ERROR_NO_MORE_ITEMS⟩]) ++ after

/-- A listing that returns has failed and told the callback nothing, or it has walked over the
devices to their end. Then it has told the callback each port that a turn of the walk found, once,
in the order of the ports, and returns their number. -/
theorem a_listing_is_all_or_nothing (core : CppCore) (turns : Nat)
    (callback_function error_callback : Callback) {tr : List Answered} {n : Int}
    (h : Traces (serialListPorts core turns callback_function error_callback) tr
      (.ret (some n))) :
    (n < 0 ∧ told tr = []) ∨
    ∃ (set : HDEVINFO) (founds : List (Option PortInformation)) (ports : List PortInformation),
      Walked set founds tr ∧ ports.Perm (founds.filterMap id) ∧
      ports.Pairwise (fun one other => one.port ≤ other.port) ∧
      told tr = ports.map PortInformation.reported ∧ n = intOfSize ports.length := by
  unfold serialListPorts at h
  obtain ⟨callback, tr1, tr2, rfl, h1, h2⟩ := traces_bind_ret h
  have htold1 := told_lift h1
  split at h2
  · obtain ⟨status, tr3, tr4, rfl, h3, h4⟩ := traces_bind_ret h2
    obtain ⟨rfl, hret⟩ := traces_ret h4
    cases hret
    obtain ⟨hneg, htold⟩ := report_told (failMsg_within core callback _ _) h3
    refine Or.inl ⟨hneg, ?_⟩
    rw [told_append, told_append, htold1, htold]
    rfl
  · obtain ⟨set, tr3, rfl, h3⟩ := traces_act_ret h2
    dsimp only [Prog.bind] at h3
    split at h3
    · obtain ⟨status, tr4, tr5, rfl, h4, h5⟩ := traces_bind_ret h3
      obtain ⟨rfl, hret⟩ := traces_ret h5
      cases hret
      obtain ⟨hneg, htold⟩ := report_told (failWin32_within core callback _) h4
      refine Or.inl ⟨hneg, ?_⟩
      rw [told_append, told_other (by simp), told_append, htold1, htold]
      rfl
    · obtain ⟨result, tr4, tr5, rfl, h4, h5⟩ := traces_bind_ret h3
      cases result with
      | none =>
        obtain ⟨-, hret⟩ := traces_ret h5
        cases hret
      | some result =>
        rcases enumerate_walks core callback set turns 0 [] h4 with ⟨status, rfl, hneg, htold⟩ |
          ⟨founds, walk, last, hwalk, rfl, rfl⟩
        · obtain ⟨_, tr6, rfl, h6⟩ := traces_act_ret h5
          obtain ⟨rfl, hret⟩ := traces_ret h6
          cases hret
          refine Or.inl ⟨hneg, ?_⟩
          rw [told_append, told_other (by simp), told_append, htold1, htold, told_other (by simp)]
          rfl
        · rw [List.nil_append] at h5
          obtain ⟨_, tr6, tr7, rfl, h6, h7⟩ := traces_bind_ret h5
          obtain ⟨_, tr8, rfl, h8⟩ := traces_act_ret h7
          obtain ⟨rfl, hret⟩ := traces_ret h8
          injection hret with hret
          refine Or.inr ⟨set, founds, _, ?_, List.mergeSort_perm _ _, sorted_ports _, ?_,
            Option.some.inj hret⟩
          · exact ⟨tr1 ++ [⟨.setupDiGetClassDevs, set⟩], walk, last,
              tr6 ++ [⟨.setupDiDestroyDeviceInfoList set, ()⟩], hwalk, by simp⟩
          · have hports := reportPorts_told callback_function _ h6
            have hdone : told ([⟨.setupDiEnumDeviceInfo set last, none⟩,
                ⟨.api .getLastError, ERROR_NO_MORE_ITEMS⟩] : List Answered) = [] := rfl
            have hclosed : told ([⟨.setupDiDestroyDeviceInfoList set, ()⟩] : List Answered) = [] :=
              rfl
            rw [told_append, told_other (by simp), told_append, told_append, told_append,
              htold1, hwalk.told, hdone, hports, hclosed]
            simp

theorem a_listing_of_one_device_tells_it :
    ∃ (tr : List Answered) (ports : List PortInformation),
      Traces (serialListPorts sampleCore 2 (some 0) (some 1)) tr (.ret (some 1)) ∧
      told tr = ports.map PortInformation.reported ∧ intOfSize ports.length = 1 := by
  obtain ⟨walk, hwalk⟩ : ∃ walk, Traces (enumerate sampleCore (some 1) 1 2 0 []) walk
      (.ret (some (.ok [usbPort]))) := ⟨_, trace_traces usbDevice .nil⟩
  have hreport : Traces (reportPorts (some 0) [usbPort])
      [⟨.portCallback (some 0) usbPort.reported, ()⟩] (.ret ()) := traces_cons .nil
  have hrun : Traces (serialListPorts sampleCore 2 (some 0) (some 1))
      (⟨.setupDiGetClassDevs, 1⟩ :: (walk ++ ([⟨.portCallback (some 0) usbPort.reported, ()⟩] ++
        [⟨.setupDiDestroyDeviceInfoList 1, ()⟩]))) (.ret (some 1)) := by
    apply traces_cons
    change Traces (enumerate sampleCore (some 1) 1 2 0 [] >>= _) _ _
    apply traces_seq hwalk
    change Traces (reportPorts (some 0) (List.mergeSort [usbPort] _) >>= fun _ => .act _ fun _ =>
      .ret (some (intOfSize (List.mergeSort [usbPort] _).length))) _ _
    rw [List.mergeSort_singleton]
    exact traces_seq hreport (traces_cons .nil)
  rcases a_listing_is_all_or_nothing sampleCore 2 (some 0) (some 1) hrun with
    ⟨hneg, -⟩ | ⟨set, founds, ports, -, -, -, htold, hcount⟩
  · cases hneg
  · exact ⟨_, ports, hrun, htold, hcount.symm⟩

end cpp_bindings_windows
