-- The list of interfaces that Windows packs into one buffer: the walk over it visits
-- each path once, in order, inside the buffer, and what it makes of the names is the
-- first name of each path, whatever its letters.
import SerialBindings.Tending

open programs

namespace cpp_bindings_windows

/-! ## The packed list -/

/-- The path of a device interface, as a part of a multi-string. -/
structure InterfacePath where
  path : WString
  some : path ≠ []
  plain : 0 ∉ path

/-- The paths with a NUL behind each of them, and one more NUL. -/
def multiString (paths : List InterfacePath) : WString :=
  paths.flatMap (fun p => p.path ++ [0]) ++ [0]

/-! ## What a run of the walk did -/

abbrev Asked := Σ action, ListenerAnswer action

/-- The paths that were asked for, with the answers. -/
def outcomes (tr : List Asked) : List (WString × Except PortError String) :=
  tr.filterMap fun
    | ⟨.portName path, answer⟩ => some (path, answer)
    | _ => none

@[simp] theorem outcomes_nil : outcomes [] = [] := rfl

@[simp] theorem outcomes_append (tr tr' : List Asked) :
    outcomes (tr ++ tr') = outcomes tr ++ outcomes tr' := List.filterMap_append

@[simp] theorem outcomes_portName (path : WString) (answer : Except PortError String)
    (tr : List Asked) : outcomes (⟨.portName path, answer⟩ :: tr) = (path, answer) :: outcomes tr :=
  rfl

/-- The name of the first path with the key that has one. -/
def firstName (chars : CharUpper) (visits : List (WString × Except PortError String))
    (key : WString) : Option String :=
  visits.findSome? fun
    | (path, .ok port) => if interfaceKey chars path = key then some port else none
    | (_, .error _) => none

@[simp] theorem firstName_ok (chars : CharUpper) (path key : WString) (port : String)
    (visits : List (WString × Except PortError String)) :
    firstName chars ((path, .ok port) :: visits) key =
      (if interfaceKey chars path = key then some port else none).or
        (firstName chars visits key) := by
  unfold firstName
  rw [List.findSome?_cons]
  split <;> simp_all

@[simp] theorem firstName_error (chars : CharUpper) (path key : WString) (error : PortError)
    (visits : List (WString × Except PortError String)) :
    firstName chars ((path, .error error) :: visits) key = firstName chars visits key := by
  unfold firstName
  rw [List.findSome?_cons]

/-- What a run of the walk, from the map `before`, has to do with the paths that were packed. -/
structure WalksOver (chars : CharUpper) (paths : List InterfacePath) (before : PortMap)
    (tr : List Asked) (result : Option (Except PortError PortMap)) : Prop where
  /-- It does not leave the buffer. -/
  inside : result ≠ none
  /-- It visits the paths from the first on, each once. -/
  visits : (outcomes tr).map Prod.fst <+: paths.map InterfacePath.path
  /-- It visits all of them when it throws nothing. -/
  whole : ∀ ports, result = some (.ok ports) →
    (outcomes tr).map Prod.fst = paths.map InterfacePath.path
  /-- It throws exactly when a path fails with an error that is not of a device that vanished. -/
  throws : ∀ error, result = some (.error error) ↔
    ∃ path, (path, .error error) ∈ outcomes tr ∧ error.EndsSnapshot = true
  /-- A key that is new has the name of the first path with it. -/
  names : ∀ ports, result = some (.ok ports) →
    ∀ key, ports.lookup key = (before.lookup key).or (firstName chars (outcomes tr) key)

section Steps

variable {chars : CharUpper} {paths : List InterfacePath} {before : PortMap} {tr : List Asked}
  {result : Option (Except PortError PortMap)}

theorem WalksOver.nil : WalksOver chars [] before [] (some (.ok before)) where
  inside := nofun
  visits := List.prefix_rfl
  whole _ _ := rfl
  throws := by simp
  names ports hports key := by
    cases hports
    simp [firstName]

/-- A path with a name. -/
theorem WalksOver.resolves (p : InterfacePath) (port : String)
    (h : WalksOver chars paths (before.emplace (interfaceKey chars p.path) port) tr result) :
    WalksOver chars (p :: paths) before (⟨.portName p.path, .ok port⟩ :: tr) result where
  inside := h.inside
  visits := by
    rw [outcomes_portName, List.map_cons, List.map_cons, List.prefix_cons_inj]
    exact h.visits
  whole ports hports := by
    rw [outcomes_portName, List.map_cons, List.map_cons, h.whole ports hports]
  throws error := by
    rw [h.throws error, outcomes_portName]
    simp
  names ports hports key := by
    rw [h.names ports hports key, PortMap.lookup_emplace, outcomes_portName, firstName_ok,
      Option.or_assoc]

/-- A path of a device that vanished. -/
theorem WalksOver.vanishes (p : InterfacePath) {error : PortError}
    (hvanished : error.EndsSnapshot = false) (h : WalksOver chars paths before tr result) :
    WalksOver chars (p :: paths) before (⟨.portName p.path, .error error⟩ :: tr) result where
  inside := h.inside
  visits := by
    rw [outcomes_portName, List.map_cons, List.map_cons, List.prefix_cons_inj]
    exact h.visits
  whole ports hports := by
    rw [outcomes_portName, List.map_cons, List.map_cons, h.whole ports hports]
  throws error' := by
    rw [h.throws error', outcomes_portName]
    constructor
    · rintro ⟨path, hmem, hends⟩
      exact ⟨path, List.mem_cons_of_mem _ hmem, hends⟩
    · rintro ⟨path, hmem, hends⟩
      rcases List.mem_cons.mp hmem with heq | hmem
      · cases heq
        rw [hvanished] at hends
        cases hends
      · exact ⟨path, hmem, hends⟩
  names ports hports key := by
    rw [h.names ports hports key, outcomes_portName, firstName_error]

/-- A path that fails otherwise. -/
theorem WalksOver.fails (p : InterfacePath) {error : PortError}
    (hends : error.EndsSnapshot = true) :
    WalksOver chars (p :: paths) before [⟨.portName p.path, .error error⟩] (some (.error error))
    where
  inside := nofun
  visits := by simp
  whole := nofun
  throws error' := by
    simp only [outcomes_portName, outcomes_nil, List.mem_singleton, Prod.mk.injEq,
      Except.error.injEq, Option.some.injEq]
    constructor
    · rintro rfl
      exact ⟨p.path, ⟨rfl, rfl⟩, hends⟩
    · rintro ⟨_, ⟨_, rfl⟩, _⟩
      rfl
  names := nofun

end Steps

/-! ## The walk -/

namespace listener

variable {chars : CharUpper} {ports : PortMap}

/-- `wcslen` passes what is no NUL. -/
theorem snapshot_passes {units : WString} (path buffer : WString) (h : 0 ∉ units) :
    snapshot chars path (units ++ buffer) ports = snapshot chars (path ++ units) buffer ports := by
  induction units generalizing path with
  | nil => simp
  | cons unit units ih =>
    rw [List.mem_cons, not_or] at h
    rw [List.cons_append, snapshot, if_pos (Ne.symm h.1), ih (path ++ [unit]) h.2]
    simp

/-- A path and its NUL. -/
theorem snapshot_visits (p : InterfacePath) (buffer : WString) :
    snapshot chars [] (p.path ++ 0 :: buffer) ports = .act (.portName p.path) fun
      | .ok port => snapshot chars [] buffer (ports.emplace (interfaceKey chars p.path) port)
      | .error error =>
        if error.EndsSnapshot then .ret (some (.error error))
        else snapshot chars [] buffer ports := by
  rw [snapshot_passes [] _ p.plain, List.nil_append, snapshot]
  rw [if_neg (by simp), if_neg p.some]
  change Prog.act _ _ = _
  congr 1
  funext answer
  cases answer with
  | ok port => rfl
  | error error =>
    rcases error with ⟨code, what⟩
    cases code with
    | none => rfl
    | some code =>
      change (if hasVanished code then _ else _) = _
      unfold PortError.EndsSnapshot
      cases hvanished : hasVanished code <;> simp [hvanished]

theorem snapshot_ends (buffer : WString) :
    snapshot chars [] (0 :: buffer) ports = .ret (some (.ok ports)) := by
  rw [snapshot, if_neg (by simp), if_pos rfl]
  rfl

theorem snapshot_walks (paths : List InterfacePath) (padding : WString) {tr : List Asked}
    {result : Option (Except PortError PortMap)}
    (h : Traces (snapshot chars [] (multiString paths ++ padding) ports) tr (.ret result)) :
    WalksOver chars paths ports tr result := by
  induction paths generalizing ports tr with
  | nil =>
    rw [show multiString [] ++ padding = 0 :: padding from rfl, snapshot_ends] at h
    obtain ⟨rfl, hresult⟩ := traces_ret h
    cases hresult
    exact .nil
  | cons p paths ih =>
    have hpacked : multiString (p :: paths) ++ padding =
        p.path ++ 0 :: (multiString paths ++ padding) := by
      simp [multiString]
    rw [hpacked, snapshot_visits] at h
    obtain ⟨answer, tr', rfl, hrest⟩ := traces_act_ret h
    cases answer with
    | ok port => exact .resolves p port (ih hrest)
    | error error =>
      simp only at hrest
      split at hrest
      · rename_i hends
        obtain ⟨rfl, hresult⟩ := traces_ret hrest
        cases hresult
        exact .fails p hends
      · rename_i hvanished
        exact .vanishes p (Bool.not_eq_true _ ▸ hvanished) (ih hrest)

/-- The queries of the list end with the buffer that Windows filled. -/
theorem interfaces_list {attempts : Nat} {tr : List Asked}
    {result : Option (Except PortError WString)}
    (h : Traces (interfaces attempts) tr (.ret result)) : outcomes tr = [] ∧
      ∀ size buffer, ⟨.interfaceList size, .listed buffer⟩ ∈ tr → result = some (.ok buffer) := by
  induction attempts generalizing tr with
  | zero =>
    obtain ⟨rfl, _⟩ := traces_ret h
    simp
  | succ attempts ih =>
    obtain ⟨answer, tr1, rfl, h1⟩ := traces_act_ret h
    cases answer with
    | error error =>
      obtain ⟨rfl, _⟩ := traces_ret h1
      simp [outcomes]
    | ok length =>
      obtain ⟨answer, tr2, rfl, h2⟩ := traces_act_ret h1
      cases answer with
      | bufferSmall =>
        obtain ⟨hnone, hlisted⟩ := ih h2
        refine ⟨hnone, fun size buffer hmem => hlisted size buffer ?_⟩
        simpa using hmem
      | failed error =>
        obtain ⟨rfl, _⟩ := traces_ret h2
        simp [outcomes]
      | listed buffer =>
        obtain ⟨rfl, hresult⟩ := traces_ret h2
        cases hresult
        simp [outcomes]

end listener

/-! ## The snapshot -/

theorem walks_of_listed {chars : CharUpper} {attempts : Nat} {paths : List InterfacePath}
    {padding : WString} {size : ULONG} {tr : List Asked}
    {result : Option (Except PortError PortMap)}
    (h : Traces (listener.existingPorts chars attempts) tr (.ret result))
    (hlisted : ⟨.interfaceList size, .listed (multiString paths ++ padding)⟩ ∈ tr) :
    WalksOver chars paths ∅ tr result := by
  obtain ⟨found, tr1, tr2, rfl, h1, h2⟩ := traces_bind_ret h
  obtain ⟨hnone, hfound⟩ := listener.interfaces_list h1
  have hfirst : ⟨.interfaceList size, .listed (multiString paths ++ padding)⟩ ∈ tr1 := by
    rcases List.mem_append.mp hlisted with hmem | hmem
    · exact hmem
    · rcases found with _ | _ | buffer
      · rw [(traces_ret h2).1] at hmem
        cases hmem
      · rw [(traces_ret h2).1] at hmem
        cases hmem
      · obtain ⟨path, hpath⟩ := (traces_within (listener.snapshot_within chars [] buffer ∅) h2).1 _
          hmem
        cases hpath
  rw [hfound size _ hfirst] at h2
  have hwalk := listener.snapshot_walks paths padding h2
  have hall : outcomes (tr1 ++ tr2) = outcomes tr2 := by
    rw [outcomes_append, hnone, List.nil_append]
  constructor
  · exact hwalk.inside
  · rw [hall]
    exact hwalk.visits
  · rw [hall]
    exact hwalk.whole
  · rw [hall]
    exact hwalk.throws
  · rw [hall]
    exact hwalk.names

/-- When Windows packs its list into the buffer, the snapshot visits the paths in order and comes
to an end, and then it threw what a path failed with or knows the first name of each key. -/
theorem the_snapshot_decodes_the_list (chars : CharUpper) {attempts : Nat}
    {paths : List InterfacePath} {padding : WString} {size : ULONG} {tr : List Asked}
    {q : Listening (Option (Except PortError PortMap))}
    (h : Traces (listener.existingPorts chars attempts) tr q)
    (hlisted : ⟨.interfaceList size, .listed (multiString paths ++ padding)⟩ ∈ tr) :
    (outcomes tr).map Prod.fst <+: paths.map InterfacePath.path ∧
      (∃ more result, Traces (listener.existingPorts chars attempts) (tr ++ more) (.ret result)) ∧
      ∀ result, q = .ret result → WalksOver chars paths ∅ tr result := by
  obtain ⟨more, result, hend⟩ := traces_extend quietAnswer h
  have hwalk := walks_of_listed hend (List.mem_append_left more hlisted)
  refine ⟨?_, ⟨more, result, hend⟩, ?_⟩
  · have hvisits := hwalk.visits
    rw [outcomes_append, List.map_append] at hvisits
    exact (List.prefix_append _ _).trans hvisits
  · rintro result rfl
    exact walks_of_listed h hlisted

/-- The upper case letters of ASCII. -/
def asciiUnits : CharUpper where
  upper unit := if 97 ≤ unit ∧ unit ≤ 122 then unit - 32 else unit
  upper_upper unit := by
    split
    · rename_i hsmall
      rw [UInt16.le_iff_toNat_le, UInt16.le_iff_toNat_le] at hsmall
      have hlarge : (unit - 32).toNat = unit.toNat - 32 :=
        UInt16.toNat_sub_of_le _ _ (UInt16.le_iff_toNat_le.mpr (by simp at hsmall ⊢; omega))
      rw [if_neg]
      rw [UInt16.le_iff_toNat_le, hlarge]
      simp at hsmall ⊢
      omega
    · rfl

/-- The paths `a` and `A`, and the path `b` of a device that vanished. -/
def sampleInterfaces : List InterfacePath :=
  [⟨[97], by decide, by decide⟩, ⟨[65], by decide, by decide⟩, ⟨[98], by decide, by decide⟩]

def sampleListing : (action : ListenerAction) → ListenerAnswer action
  | .interfaceList _ => .listed (multiString sampleInterfaces ++ [7])
  | .portName path =>
    if path = [97] then .ok "COM3"
    else if path = [65] then .ok "COM4"
    else .error ⟨some ERROR_FILE_NOT_FOUND, "The system cannot find the file specified."⟩
  | action => quietAnswer action

/-- Of two spellings of one path, the first gives its name. -/
theorem a_list_with_two_spellings_is_decoded :
    ∃ tr ports, Traces (listener.existingPorts asciiUnits 1) tr (.ret (some (.ok ports))) ∧
      WalksOver asciiUnits sampleInterfaces ∅ tr (some (.ok ports)) ∧
      ports.lookup [65] = some "COM3" := by
  have hrun := trace_traces (fun _ => sampleListing)
    (Traces.nil (p := listener.existingPorts asciiUnits 1))
  obtain ⟨ports, hports, hlookup⟩ :
      ∃ ports, ((listener.existingPorts asciiUnits 1).trace (fun _ => sampleListing) []).2 =
        some (.ok ports) ∧ ports.lookup [65] = some "COM3" := ⟨_, rfl, rfl⟩
  rw [hports] at hrun
  have hlisted : ⟨.interfaceList 1, .listed (multiString sampleInterfaces ++ [7])⟩ ∈
      ((listener.existingPorts asciiUnits 1).trace (fun _ => sampleListing) []).1 :=
    List.mem_cons_of_mem _ List.mem_cons_self
  exact ⟨_, ports, hrun,
    (the_snapshot_decodes_the_list asciiUnits hrun hlisted).2.2 _ rfl, hlookup⟩

end cpp_bindings_windows
