-- Registration against the devices: the copy that a listener keeps of the
-- devices, with the changes that are still queued, gives the devices. Once the
-- queue is drained, the map of the dispatcher is the map of the devices.
import SerialBindings.Replay
import SerialBindings.Watching

open programs replay

namespace cpp_bindings_windows

variable {chars : CharUpper} {l : ListenerId} {g : Watch}

/-! ## The log of each key -/

/-- The changes of one key in the queue. -/
def changes (key : WString) (queue : List Notification) : List Bool :=
  (queue.filter (·.path = key)).map (·.event = .kAttached)

@[simp] theorem changes_nil (key : WString) : changes key [] = [] := rfl

theorem changes_cons_self (notification : Notification) (queue : List Notification) :
    changes notification.path (notification :: queue) =
      decide (notification.event = .kAttached) :: changes notification.path queue := by
  unfold changes
  rw [List.filter_cons_of_pos (by simp), List.map_cons]

theorem changes_cons_ne {key : WString} {notification : Notification} (queue : List Notification)
    (h : notification.path ≠ key) : changes key (notification :: queue) = changes key queue := by
  unfold changes
  rw [List.filter_cons_of_neg (by simpa using h)]

theorem changes_append (key : WString) (queue queue' : List Notification) :
    changes key (queue ++ queue') = changes key queue ++ changes key queue' := by
  unfold changes
  rw [List.filter_append, List.map_append]

theorem Watch.lookup_reads_ne {g : Watch} {path key : WString} (h : key ≠ path)
    (resolved : Except PortError String) :
    (g.reads path resolved).lookup key = g.known.lookup key := by
  cases resolved with
  | error error => rfl
  | ok port =>
    show (g.known.emplace path port).lookup key = _
    rw [PortMap.lookup_emplace, if_neg (Ne.symm h), Option.or_none]

/-- A name that is read is the name that the device has now. -/
theorem Watch.lookup_reads_self {g : Watch} {path : WString} {now : Option String}
    {resolved : Except PortError String} (hnow : now ≠ none) (hnames : Names now resolved) :
    (g.reads path resolved).lookup path = (g.known.lookup path).or now := by
  cases now with
  | none => exact absurd rfl hnow
  | some port =>
    cases resolved with
    | error error => exact hnames.elim
    | ok port' =>
      show (g.known.emplace path port').lookup path = _
      rw [PortMap.lookup_emplace, if_pos rfl, show port' = port from hnames]

/-! ## The invariant -/

/-- The copy `σ` of the devices, with the changes that are still to be taken, gives the devices. -/
structure Sound (chars : CharUpper) (σ : Watch) (w : Watched) : Prop where
  keys : ∀ notification ∈ w.queue, interfaceKey chars notification.path = notification.path
  leads : ∀ key, ∃ there,
    Leads there (changes key (σ.awaiting.toList ++ w.queue)) (w.devices.lookup key).isSome
  settles : σ.stage ≠ .outside → ∀ key, Settles (key ∈ σ.paths.map (interfaceKey chars))
    (σ.known.lookup key) (w.devices.lookup key) (changes key (σ.awaiting.toList ++ w.queue))
  awaits : ∀ notification, σ.awaiting = some notification → σ.stage = .dispatching ∧
    notification.event = .kAttached ∧ σ.known.lookup notification.path = none ∧
    interfaceKey chars notification.path = notification.path
  unregistered : w.registered = false → w.queue = [] ∧ σ.stage = .outside
  stage : match σ.stage with
    | .outside | .walking => w.ports = none
    | .starting => w.ports = some σ.known ∧ σ.paths = []
    | .dispatching => w.monitor.started = true ∧ σ.paths = []
    | _ => False

/-- What the stage of one thread says about the copy. -/
def Linked (σ : Watch) (w : Watched) (g : Watch) : Prop :=
  match g.stage with
  | .outside => True
  | .registering => σ.stage = .outside
  | .registered => σ.stage = .outside ∧ w.registered = true
  | .walking => σ = g
  | .starting => σ.stage = .starting ∧ w.monitor.started = true
  | .dispatching => σ = g ∧ w.monitor.started = true

structure WatchInv (chars : CharUpper) (gs : Nat → Option (WatchCall × Watch)) (w : Watched) :
    Prop where
  stopped : w.monitor.state.stopped_ = false
  sound : ∃ σ, Sound chars σ w ∧ ∀ t c g, gs t = some (c, g) → Linked σ w g
  alone : ∀ t c g u c' g', gs t = some (c, g) → gs u = some (c', g') → g.stage ≠ .outside →
    g'.stage ≠ .outside → t = u
  unmade : w.made = false → w.registered = false ∧ ∀ t c g, gs t = some (c, g) → g.stage = .outside

variable {gs : Nat → Option (WatchCall × Watch)} {σ σ' : Watch} {w w' : Watched} {t : Nat}
  {c : WatchCall} {g' : Watch}

/-- What a step leaves alone: all but the flags of the monitor. -/
structure Watched.Same (w w' : Watched) : Prop where
  devices : w'.devices = w.devices
  registered : w'.registered = w.registered
  made : w'.made = w.made
  ports : w'.ports = w.ports
  queue : w'.queue = w.queue
  started : w'.monitor.started = w.monitor.started
  stopped : w'.monitor.state.stopped_ = w.monitor.state.stopped_

theorem Sound.same (h : Sound chars σ w) (hsame : w.Same w') : Sound chars σ w' where
  keys := by rw [hsame.queue]; exact h.keys
  leads := by rw [hsame.queue, hsame.devices]; exact h.leads
  settles := by rw [hsame.queue, hsame.devices]; exact h.settles
  awaits := h.awaits
  unregistered := by rw [hsame.queue, hsame.registered]; exact h.unregistered
  stage := by rw [hsame.ports, hsame.started]; exact h.stage

/-- Outside of a snapshot there is no dispatcher. -/
theorem Sound.quiet (h : Sound chars σ w) (hstage : σ.stage ≠ .dispatching) :
    σ.awaiting = none := by
  cases hawaiting : σ.awaiting with
  | none => rfl
  | some notification => exact absurd (h.awaits notification hawaiting).1 hstage

theorem Linked.mono (h : Linked σ w g) (hregistered : w.registered = true → w'.registered = true)
    (hstarted : w.monitor.started = true → w'.monitor.started = true) : Linked σ w' g := by
  unfold Linked at h ⊢
  cases hstage : g.stage with
  | registered =>
    rw [hstage] at h
    exact ⟨h.1, hregistered h.2⟩
  | starting =>
    rw [hstage] at h
    exact ⟨h.1, hstarted h.2⟩
  | dispatching =>
    rw [hstage] at h
    exact ⟨h.1, hstarted h.2⟩
  | _ =>
    rw [hstage] at h
    exact h

/-- The rule for a step that leaves the copy as it is. -/
theorem WatchInv.stay (h : WatchInv chars gs w) (hg : gs t = some (c, g)) (hsame : w.Same w') :
    WatchInv chars (Function.update gs t (some (c, g))) w' := by
  have hupdate : Function.update gs t (some (c, g)) = gs := by
    rw [← hg, Function.update_eq_self]
  rw [hupdate]
  obtain ⟨σ, hsound, hlinked⟩ := h.sound
  refine
    { stopped := by rw [hsame.stopped]; exact h.stopped
      sound := ⟨σ, hsound.same hsame, fun u c' g' hu => (hlinked u c' g' hu).mono ?_ ?_⟩
      alone := h.alone
      unmade := by rw [hsame.made, hsame.registered]; exact h.unmade }
  · rw [hsame.registered]
    exact id
  · rw [hsame.started]
    exact id

/-- The rule for a thread that has the copy alone. -/
theorem WatchInv.only (hother : ∀ u c0 g0, u ≠ t → gs u = some (c0, g0) → g0.stage = .outside)
    (hstopped : w'.monitor.state.stopped_ = false) (hmade : w'.made = true)
    (hsound : Sound chars σ' w') (hlinked : Linked σ' w' g') :
    WatchInv chars (Function.update gs t (some (c, g'))) w' := by
  have hnew : ∀ u c0 g0, Function.update gs t (some (c, g')) u = some (c0, g0) →
      (u = t ∧ g0 = g') ∨ g0.stage = .outside := by
    exact forall_inside (fun u c0 g0 hut hu => Or.inr (hother u c0 g0 hut hu)) (Or.inl ⟨rfl, rfl⟩)
  refine
    { stopped := hstopped
      sound := ⟨σ', hsound, fun u c0 g0 hu => ?_⟩
      alone := fun u c0 g0 u' c1 g1 hu hu' hout hout' => ?_
      unmade := fun hnot => by rw [hmade] at hnot; cases hnot }
  · rcases hnew u c0 g0 hu with ⟨-, rfl⟩ | hout
    · exact hlinked
    · unfold Linked
      rw [hout]
      trivial
  · rcases hnew u c0 g0 hu with ⟨rfl, -⟩ | hnone
    · rcases hnew u' c1 g1 hu' with ⟨rfl, -⟩ | hnone
      · rfl
      · exact absurd hnone hout'
    · exact absurd hnone hout

/-- The rule for a step of the one thread that is not outside. -/
theorem WatchInv.own (h : WatchInv chars gs w) (hg : gs t = some (c, g))
    (hstage : g.stage ≠ .outside) (hstopped : w'.monitor.state.stopped_ = false)
    (hmade : w'.made = w.made) (hsound : Sound chars σ' w') (hlinked : Linked σ' w' g') :
    WatchInv chars (Function.update gs t (some (c, g'))) w' := by
  refine WatchInv.only (fun u c0 g0 hut hu => ?_) hstopped ?_ hsound hlinked
  · by_contra hnot
    exact hut (h.alone u c0 g0 t c g hu hg hnot hstage)
  · rw [hmade]
    by_contra hnot
    exact hstage ((h.unmade (Bool.eq_false_iff.mpr hnot)).2 t c g hg)

/-! ## One step of the copy -/

/-- The snapshot is taken. -/
theorem Sound.listed (h : Sound chars σ w) (hstage : σ.stage = .outside)
    (hregistered : w.registered = true) {buffer : WString} {paths : List WString}
    (hlists : Lists chars w.devices buffer) (hpaths : interfacePaths [] buffer = some paths) :
    Sound chars { stage := .walking, paths } w := by
  have hawaiting : σ.awaiting = none := h.quiet (by rw [hstage]; decide)
  unfold Lists at hlists
  rw [hpaths] at hlists
  have hports := h.stage
  rw [hstage] at hports
  have hleads := h.leads
  rw [hawaiting] at hleads
  refine
    { keys := h.keys
      leads := hleads
      settles := fun _ key => ?_
      awaits := nofun
      unregistered := fun hnot => by rw [hregistered] at hnot; cases hnot
      stage := hports }
  obtain ⟨there, hkey⟩ := hleads key
  refine settles_snapshot hkey ⟨fun hlisted => ?_, fun hpresent => ?_⟩
  · rw [← Option.isSome_iff_ne_none, AList.lookup_isSome]
    exact hlists.1 key hlisted
  · rw [← Option.isSome_iff_ne_none, AList.lookup_isSome] at hpresent
    exact hlists.2 key hpresent

/-- The name of the next path of the snapshot is read, or the path is skipped. -/
theorem Sound.walked (h : Sound chars σ w) (hstage : σ.stage = .walking) {path : WString}
    {rest : List WString} (hpaths : σ.paths = path :: rest) {resolved : Except PortError String}
    (hnames : Names (w.devices.lookup (interfaceKey chars path)) resolved) :
    Sound chars
      { σ with known := σ.reads (interfaceKey chars path) resolved, paths := rest } w := by
  have hports := h.stage
  rw [hstage] at hports
  have hsettles := h.settles (by rw [hstage]; decide)
  rw [hpaths, List.map_cons] at hsettles
  refine
    { keys := h.keys
      leads := h.leads
      settles := fun _ key => ?_
      awaits := fun notification hawaiting => ?_
      unregistered := h.unregistered
      stage := by rw [hstage]; exact hports }
  · by_cases hkey : key = interfaceKey chars path
    · subst hkey
      have hlisted := hsettles (interfaceKey chars path)
      by_cases hnow : w.devices.lookup (interfaceKey chars path) = none
      · obtain ⟨there, hleads⟩ := h.leads (interfaceKey chars path)
        rw [hnow] at hlisted hleads ⊢
        exact settles_gone hlisted List.mem_cons_self hleads
      · rw [Watch.lookup_reads_self hnow hnames]
        exact settles_read hlisted hnow
    · have hlisted := hsettles key
      rw [Watch.lookup_reads_ne hkey]
      simpa only [List.mem_cons, hkey, false_or] using hlisted
  · have hquiet := h.quiet (by rw [hstage]; decide)
    rw [show σ.awaiting = some notification from hawaiting] at hquiet
    cases hquiet

/-- What the step that takes a notification does. -/
structure Watched.Takes (w : Watched) (notification : Notification) (w' : Watched) : Prop where
  queue : w.queue = notification :: w'.queue
  devices : w'.devices = w.devices
  registered : w'.registered = w.registered
  made : w'.made = w.made
  started : w'.monitor.started = w.monitor.started
  stopped : w'.monitor.state.stopped_ = w.monitor.state.stopped_

theorem Sound.unpaid (h : Sound chars σ w) (hstage : σ.stage = .dispatching) : σ.paths = [] := by
  have hs := h.stage
  rw [hstage] at hs
  exact hs.2

theorem Sound.keys_left (h : Sound chars σ w) {notification : Notification}
    (htakes : w.Takes notification w') :
    interfaceKey chars notification.path = notification.path ∧
      (∀ n ∈ w'.queue, interfaceKey chars n.path = n.path) ∧ w'.registered ≠ false := by
  refine ⟨h.keys notification ?_, fun n hn => h.keys n ?_, fun hnot => ?_⟩
  · rw [htakes.queue]
    exact List.mem_cons_self
  · rw [htakes.queue]
    exact List.mem_cons_of_mem _ hn
  · rw [htakes.registered] at hnot
    have hqueue := htakes.queue
    rw [(h.unregistered hnot).1] at hqueue
    cases hqueue

/-- The rule for a notification that is dealt with at once: the copy may differ at its key only,
and is settled there. -/
theorem Sound.replayed (h : Sound chars σ w) (hstage : σ.stage = .dispatching)
    (hawaiting : σ.awaiting = none) {notification : Notification}
    (htakes : w.Takes notification w') {known : PortMap}
    (hother : ∀ key, notification.path ≠ key → known.lookup key = σ.known.lookup key)
    (hself : Settles False (known.lookup notification.path)
      (w.devices.lookup notification.path) (changes notification.path w'.queue)) :
    Sound chars { σ with known } w' := by
  have hpaths := h.unpaid hstage
  have hstarted := h.stage
  rw [hstage] at hstarted
  obtain ⟨-, hkeys, hregistered⟩ := h.keys_left htakes
  refine
    { keys := hkeys
      leads := fun key => ?_
      settles := fun _ key => ?_
      awaits := fun n hn => by rw [hawaiting] at hn; cases hn
      unregistered := fun hnot => absurd hnot hregistered
      stage := by dsimp only; rw [hstage, htakes.started]; exact hstarted }
  · obtain ⟨there, hkey⟩ := h.leads key
    rw [hawaiting, htakes.queue] at hkey
    rw [hawaiting, htakes.devices]
    dsimp only [Option.toList, List.nil_append] at hkey ⊢
    by_cases hpath : notification.path = key
    · subst hpath
      rw [changes_cons_self] at hkey
      exact ⟨_, leads_tail hkey⟩
    · rw [changes_cons_ne _ hpath] at hkey
      exact ⟨there, hkey⟩
  · have hkey := h.settles (by rw [hstage]; decide) key
    rw [hawaiting, hpaths, htakes.queue] at hkey
    rw [hawaiting, hpaths, htakes.devices]
    simp only [Option.toList, List.nil_append, List.map_nil, List.not_mem_nil] at hkey ⊢
    by_cases hpath : notification.path = key
    · subst hpath
      exact hself
    · rw [changes_cons_ne _ hpath, ← hother key hpath] at hkey
      exact hkey

/-- The dispatcher takes the next notification. -/
theorem Sound.took (h : Sound chars σ w) (hstage : σ.stage = .dispatching)
    (hawaiting : σ.awaiting = none) {notification : Notification}
    (htakes : w.Takes notification w') : Sound chars (σ.takes notification) w' := by
  obtain ⟨there, hself⟩ := h.leads notification.path
  have hsettles := h.settles (by rw [hstage]; decide) notification.path
  rw [hawaiting, htakes.queue] at hself hsettles
  rw [h.unpaid hstage] at hsettles
  simp only [Option.toList, List.nil_append, List.map_nil, List.not_mem_nil, changes_cons_self]
    at hself hsettles
  unfold Watch.takes
  cases hevent : notification.event with
  | kAttached =>
    simp only [hevent, decide_true] at hself hsettles
    cases hfound : σ.known.lookup notification.path with
    | some port =>
      refine h.replayed hstage hawaiting htakes (fun _ _ => rfl) ?_
      rw [hfound] at hsettles ⊢
      exact settles_known hsettles hself
    | none =>
      -- the notification stays in the way until its name is read
      obtain ⟨hkey, hkeys, hregistered⟩ := h.keys_left htakes
      have hstarted := h.stage
      rw [hstage] at hstarted
      have hleads := h.leads
      have hsettles' := h.settles
      rw [hawaiting, htakes.queue] at hleads hsettles'
      refine
        { keys := hkeys
          leads := by rw [htakes.devices]; exact hleads
          settles := by rw [htakes.devices]; exact hsettles'
          awaits := fun n hn => ?_
          unregistered := fun hnot => absurd hnot hregistered
          stage := by dsimp only; rw [hstage, htakes.started]; exact hstarted }
      cases hn
      exact ⟨hstage, hevent, hfound, hkey⟩
  | kDetached =>
    simp only [hevent, reduceCtorEq, decide_false] at hself
    have hremoved := settles_removed hself not_false
    cases hfound : σ.known.lookup notification.path with
    | some port =>
      refine h.replayed hstage hawaiting htakes
        (fun key hpath => AList.lookup_erase_ne (Ne.symm hpath)) ?_
      rw [AList.lookup_erase]
      exact hremoved
    | none =>
      refine h.replayed hstage hawaiting htakes (fun _ _ => rfl) ?_
      rw [hfound]
      exact hremoved

/-- The name of an arrival is read, or cannot be read. -/
theorem Sound.arrived (h : Sound chars σ w) {path : WString}
    (hawaiting : σ.awaiting = some ⟨.kAttached, path⟩) {resolved : Except PortError String}
    (hnames : Names (w.devices.lookup (interfaceKey chars path)) resolved) :
    Sound chars { σ with known := σ.reads path resolved, awaiting := none } w := by
  obtain ⟨hstage, -, hfound, hkey⟩ := h.awaits _ hawaiting
  dsimp only at hfound hkey
  rw [hkey] at hnames
  have hports := h.stage
  rw [hstage] at hports
  have hleads := h.leads
  have hsettles := h.settles (by rw [hstage]; decide)
  rw [hawaiting] at hleads hsettles
  dsimp only [Option.toList, List.cons_append, List.nil_append] at hleads hsettles
  refine
    { keys := h.keys
      leads := fun key => ?_
      settles := fun _ key => ?_
      awaits := nofun
      unregistered := h.unregistered
      stage := by dsimp only; rw [hstage]; exact hports }
  · obtain ⟨there, hlead⟩ := hleads key
    by_cases hpath : path = key
    · subst hpath
      rw [changes_cons_self ⟨.kAttached, path⟩] at hlead
      exact ⟨_, leads_tail hlead⟩
    · rw [changes_cons_ne _ hpath] at hlead
      exact ⟨there, hlead⟩
  · by_cases hpath : path = key
    · subst hpath
      obtain ⟨there, hlead⟩ := hleads path
      rw [changes_cons_self ⟨.kAttached, path⟩] at hlead
      refine settles_arrived hlead fun hnow => ?_
      show (σ.reads path resolved).lookup path = _
      rw [Watch.lookup_reads_self hnow hnames, hfound]
      exact Option.none_or
    · have hsettle := hsettles key
      rw [changes_cons_ne _ hpath] at hsettle
      show Settles _ ((σ.reads path resolved).lookup key) _ _
      rw [Watch.lookup_reads_ne (Ne.symm hpath)]
      exact hsettle

theorem Watched.lookup_change (w : Watched) (path : WString) (port : Option String)
    (key : WString) : (w.change chars path port).devices.lookup key =
      if key = interfaceKey chars path then port else w.devices.lookup key := by
  cases port with
  | some port =>
    show (w.devices.insert (interfaceKey chars path) port).lookup key = _
    split
    · rename_i hkey
      rw [hkey, AList.lookup_insert]
    · rename_i hkey
      exact AList.lookup_insert_ne hkey
  | none =>
    show (w.devices.erase (interfaceKey chars path)).lookup key = _
    split
    · rename_i hkey
      rw [hkey, AList.lookup_erase]
    · rename_i hkey
      exact AList.lookup_erase_ne hkey

theorem Watched.queue_change (w : Watched) (path : WString) (port : Option String) :
    (w.change chars path port).queue = if w.registered then
      w.queue ++ [⟨if port.isSome then .kAttached else .kDetached, interfaceKey chars path⟩]
    else w.queue := by
  unfold Watched.change Watched.queue
  dsimp only
  split
  · exact (List.append_assoc _ _ _).symm
  · rfl

/-- A device comes or goes, before the registration or after it. -/
theorem Sound.changed (h : Sound chars σ w) {path : WString} {port : Option String}
    (hturn : (w.devices.lookup (interfaceKey chars path)).isSome ≠ port.isSome) :
    Sound chars σ (w.change chars path port) := by
  have hpresent : port.isSome = !(w.devices.lookup (interfaceKey chars path)).isSome := by
    revert hturn
    cases port.isSome <;> cases (w.devices.lookup (interfaceKey chars path)).isSome <;> simp
  cases hregistered : w.registered with
  | false =>
    obtain ⟨hqueue, hstage⟩ := h.unregistered hregistered
    have hqueue' : (w.change chars path port).queue = [] := by
      rw [Watched.queue_change, hregistered]
      exact hqueue
    have hquiet := h.quiet (by rw [hstage]; decide)
    refine
      { keys := fun n hn => by rw [hqueue'] at hn; cases hn
        leads := fun key => ?_
        settles := fun hnot => absurd hstage hnot
        awaits := h.awaits
        unregistered := fun _ => ⟨hqueue', hstage⟩
        stage := h.stage }
    rw [hquiet, hqueue']
    exact ⟨_, rfl⟩
  | true =>
    have hqueue : (w.change chars path port).queue = w.queue ++
        [⟨if port.isSome then .kAttached else .kDetached, interfaceKey chars path⟩] := by
      rw [Watched.queue_change, hregistered, if_pos rfl]
    -- one more change at the key of the device
    have hself : changes (interfaceKey chars path)
        (σ.awaiting.toList ++ (w.change chars path port).queue) =
        changes (interfaceKey chars path) (σ.awaiting.toList ++ w.queue) ++ [port.isSome] := by
      rw [hqueue, ← List.append_assoc, changes_append]
      congr 1
      cases port <;> simp [changes]
    have hother : ∀ key, key ≠ interfaceKey chars path →
        changes key (σ.awaiting.toList ++ (w.change chars path port).queue) =
          changes key (σ.awaiting.toList ++ w.queue) := by
      intro key hkey
      rw [hqueue, ← List.append_assoc, changes_append, changes_cons_ne _ (Ne.symm hkey),
        changes_nil, List.append_nil]
    refine
      { keys := fun n hn => ?_
        leads := fun key => ?_
        settles := fun hstage key => ?_
        awaits := h.awaits
        unregistered := fun hnot => ?_
        stage := h.stage }
    · rw [hqueue, List.mem_append, List.mem_singleton] at hn
      rcases hn with hn | rfl
      · exact h.keys n hn
      · exact interfaceKey_idem chars path
    · obtain ⟨there, hleads⟩ := h.leads key
      refine ⟨there, ?_⟩
      rw [Watched.lookup_change]
      split
      · rename_i hkey
        subst hkey
        rw [hself, hpresent]
        exact leads_snoc hleads
      · rename_i hkey
        rw [hother key hkey]
        exact hleads
    · rw [Watched.lookup_change]
      split
      · rename_i hkey
        subst hkey
        rw [hself]
        have hsettles := h.settles hstage (interfaceKey chars path)
        cases port with
        | none => exact settles_goes _ _ _
        | some port =>
          have hnone : w.devices.lookup (interfaceKey chars path) = none := by
            rw [← Option.isNone_iff_eq_none, ← Option.not_isSome]
            exact hpresent.symm
          rw [hnone] at hsettles
          exact settles_comes hsettles port
      · rename_i hkey
        rw [hother key hkey]
        exact h.settles hstage key
    · rw [show (w.change chars path port).registered = w.registered from rfl, hregistered] at hnot
      cases hnot

/-! ## The steps of the machine -/

/-- The actions of the monitor that neither queue nor take, nor stop the listener. -/
theorem Monitor.perform_kept {m m' : Monitor} {e : ListenerAction} {r : ListenerAnswer e}
    (hw : m.perform t e r = some m') (he : match e with
      | .enqueue .. | .check _ | .stop _ => False
      | _ => True) : m'.state.pending_ = m.state.pending_ ∧ m'.started = m.started ∧
        m'.state.stopped_ = m.state.stopped_ := by
  cases e with
  | enqueue | check | stop => exact he.elim
  | lock | unlock | wake =>
    simp only [Monitor.perform] at hw
    split at hw
    · cases hw
      exact ⟨rfl, rfl, rfl⟩
    · cases hw
  | _ => cases hw; exact ⟨rfl, rfl, rfl⟩

theorem Watched.same_of_kept {m : Monitor}
    (h : m.state.pending_ = w.monitor.state.pending_ ∧ m.started = w.monitor.started ∧
      m.state.stopped_ = w.monitor.state.stopped_) : w.Same { w with monitor := m } where
  devices := rfl
  registered := rfl
  made := rfl
  ports := rfl
  queue := by unfold Watched.queue; rw [h.1]
  started := h.2.1
  stopped := h.2.2

/-- The next notification of Windows is queued. -/
theorem Watched.enqueue_same {l : ListenerId} {notification : Notification} {m : Monitor}
    (hstopped : w.monitor.state.stopped_ = false) (hnext : w.unsent.head? = some notification)
    (hm : w.monitor.perform t (.enqueue l notification) none = some m) :
    w.Same { w with monitor := m, unsent := w.unsent.tail } := by
  simp only [Monitor.perform, Option.isSome_none, hstopped, Bool.false_eq_true, or_self, if_false,
    Option.some.injEq] at hm
  subst hm
  have hstate : (w.monitor.state.enqueue notification).pending_ =
      w.monitor.state.pending_ ++ [notification] ∧
      (w.monitor.state.enqueue notification).stopped_ = w.monitor.state.stopped_ := by
    unfold EventListenerState.enqueue
    rw [if_neg (by rw [hstopped]; decide)]
    exact ⟨rfl, rfl⟩
  refine
    { devices := rfl
      registered := rfl
      made := rfl
      ports := rfl
      queue := ?_
      started := rfl
      stopped := hstate.2 }
  show (w.monitor.state.enqueue notification).pending_ ++ w.unsent.tail = w.queue
  rw [hstate.1, List.append_assoc]
  unfold Watched.queue
  cases hunsent : w.unsent with
  | nil => rw [hunsent] at hnext; cases hnext
  | cons first rest =>
    rw [hunsent] at hnext
    cases hnext
    rfl

/-- What a thread that is not outside says about the copy. -/
theorem WatchInv.copy (h : WatchInv chars gs w) (hg : gs t = some (c, g)) :
    ∃ σ, Sound chars σ w ∧ Linked σ w g := by
  obtain ⟨σ, hsound, hlinked⟩ := h.sound
  exact ⟨σ, hsound, hlinked t c g hg⟩

theorem WatchInv.takes {r : Turn} (h : WatchInv chars gs w) (hg : gs t = some (c, g))
    (hallows : g.stage = .dispatching ∧ g.awaiting = none)
    (hw : w.perform t (.check l) r = some w') :
    ∃ g', (watch chars).next g (.check l) r = some g' ∧
      WatchInv chars (Function.update gs t (some (c, g'))) w' := by
  obtain ⟨m, hm, rfl⟩ := Option.map_eq_some_iff.mp hw
  simp only [Monitor.perform] at hm
  split at hm
  · rename_i hcheck
    by_cases htaken : ∃ notification, r = .taken notification
    · obtain ⟨notification, rfl⟩ := htaken
      refine ⟨g.takes notification, rfl, ?_⟩
      obtain ⟨hrunning, -, hpending, hstopped, -⟩ := EventListenerState.check_taken hcheck
      rw [if_neg (by simp)] at hm
      cases hm
      have htakes : w.Takes notification
          { w with monitor := { w.monitor with state := w.monitor.state.check.2 } } :=
        { queue := by unfold Watched.queue; rw [hpending]; rfl
          devices := rfl
          registered := rfl
          made := rfl
          started := rfl
          stopped := hstopped.trans hrunning.symm }
      obtain ⟨σ, hsound, hlinked⟩ := h.copy hg
      unfold Linked at hlinked
      rw [hallows.1] at hlinked
      obtain ⟨rfl, hstarted⟩ := hlinked
      refine h.own hg (by rw [hallows.1]; decide) hstopped rfl
        (hsound.took hallows.1 hallows.2 htakes) ?_
      have hstage : (σ.takes notification).stage = .dispatching := by
        unfold Watch.takes
        split <;> exact hallows.1
      unfold Linked
      rw [hstage]
      exact ⟨rfl, hstarted⟩
    · have hmissed : ∀ notification, w.monitor.state.check.1 ≠ .taken notification := by
        rw [hcheck]
        exact fun notification heq => htaken ⟨notification, heq⟩
      obtain ⟨hpending, hstopped, -⟩ := EventListenerState.check_other hmissed
      refine ⟨g, ?_, h.stay hg (Watched.same_of_kept ?_)⟩
      · cases r with
        | taken notification => exact absurd ⟨notification, rfl⟩ htaken
        | _ => rfl
      · cases hm
        split
        · exact ⟨rfl, rfl, rfl⟩
        · exact ⟨hpending, rfl, hstopped⟩
  · cases hm

theorem WatchInv.names {path : WString} {resolved : Except PortError String}
    (h : WatchInv chars gs w) (hg : gs t = some (c, g))
    (hallows : (watch chars).allows g (.portName path))
    (hw : w.perform t (.portName path) resolved = some w')
    (hnames : Names (w.devices.lookup (interfaceKey chars path)) resolved) :
    ∃ g', (watch chars).next g (.portName path) resolved = some g' ∧
      WatchInv chars (Function.update gs t (some (c, g'))) w' := by
  cases hw
  obtain ⟨σ, hsound, hlinked⟩ := h.copy hg
  unfold Linked at hlinked
  rcases hallows with ⟨hstage, rest, hpaths⟩ | ⟨hstage, hawaiting⟩
  · rw [hstage] at hlinked
    subst hlinked
    refine ⟨_, if_pos hstage, h.own hg (by rw [hstage]; decide) h.stopped rfl
      (hsound.walked hstage hpaths hnames) ?_⟩
    unfold Linked
    dsimp only
    rw [hstage, hpaths]
    rfl
  · rw [hstage] at hlinked
    obtain ⟨rfl, hstarted⟩ := hlinked
    refine ⟨_, if_neg (by rw [hstage]; decide), h.own hg (by rw [hstage]; decide) h.stopped rfl
      (hsound.arrived hawaiting hnames) ?_⟩
    unfold Linked
    dsimp only
    rw [hstage]
    exact ⟨rfl, hstarted⟩

theorem WatchInv.did {e : ListenerAction} {r : ListenerAnswer e} {ls : List WatchLabel}
    (h : WatchInv chars gs w) (hg : gs t = some (c, g)) (hallows : (watch chars).allows g e)
    (hw : w.perform t e r = some w') (hok : undisturbed chars ls w (.did t e r)) :
    ∃ g', (watch chars).next g e r = some g' ∧
      WatchInv chars (Function.update gs t (some (c, g'))) w' := by
  obtain ⟨σ, hsound, hlinked⟩ := h.copy hg
  unfold Linked at hlinked
  cases e with
  | stop m => exact hok.elim
  | enqueue m notification =>
    obtain ⟨rfl, hnext⟩ := hok
    obtain ⟨monitor, hm, rfl⟩ := Option.map_eq_some_iff.mp hw
    exact ⟨g, rfl, h.stay hg (Watched.enqueue_same h.stopped hnext hm)⟩
  | check m => exact h.takes hg hallows hw
  | portName path => exact h.names hg hallows hw hok
  | registerNotification m =>
    have hstage : g.stage = .registering := hallows
    rw [hstage] at hlinked
    cases hw
    cases r with
    | some what =>
      exact ⟨_, rfl, h.own hg (by rw [hstage]; decide) h.stopped rfl hsound trivial⟩
    | none =>
      have hregistered : Sound chars σ { w with registered := true } :=
        { keys := hsound.keys
          leads := hsound.leads
          settles := hsound.settles
          awaits := hsound.awaits
          unregistered := (by simp)
          stage := hsound.stage }
      exact ⟨_, rfl, h.own hg (by rw [hstage]; decide) h.stopped rfl hregistered ⟨hlinked, rfl⟩⟩
  | interfaceList size =>
    have hstage : g.stage = .registered := hallows
    rw [hstage] at hlinked
    cases hw
    cases r with
    | bufferSmall => exact ⟨g, rfl, h.stay hg ⟨rfl, rfl, rfl, rfl, rfl, rfl, rfl⟩⟩
    | failed error => exact ⟨g, rfl, h.stay hg ⟨rfl, rfl, rfl, rfl, rfl, rfl, rfl⟩⟩
    | listed buffer =>
      have hlists : Lists chars w.devices buffer := hok
      cases hpaths : interfacePaths [] buffer with
      | none =>
        unfold Lists at hlists
        rw [hpaths] at hlists
        exact hlists.elim
      | some paths =>
        refine ⟨{ stage := .walking, paths }, by simp [watch, Watch.next, hpaths], ?_⟩
        exact h.own hg (by rw [hstage]; decide) h.stopped rfl
          (hsound.listed hlinked.1 hlinked.2 hlists hpaths) rfl
  | startThread m ports =>
    obtain ⟨hstage, hpaths, rfl⟩ : g.stage = .walking ∧ g.paths = [] ∧ ports = g.known := hallows
    rw [hstage] at hlinked
    subst hlinked
    refine ⟨{ σ with stage := .outside }, rfl, ?_⟩
    cases hw
    cases r with
    | some what =>
      exact h.own hg (by rw [hstage]; decide) h.stopped rfl hsound trivial
    | none =>
      have hunregistered := hsound.unregistered
      have hsettles := hsound.settles (by rw [hstage]; decide)
      have hstarting : Sound chars { σ with stage := .starting }
          { w with ports := some σ.known } :=
        { keys := hsound.keys
          leads := hsound.leads
          settles := fun _ => hsettles
          awaits := fun notification hawaiting => ?_
          unregistered := fun hnot => ?_
          stage := ⟨rfl, hpaths⟩ }
      · exact h.own hg (by rw [hstage]; decide) h.stopped rfl hstarting trivial
      · have hquiet := hsound.quiet (by rw [hstage]; decide)
        rw [show σ.awaiting = some notification from hawaiting] at hquiet
        cases hquiet
      · have hout := (hunregistered hnot).2
        rw [hstage] at hout
        cases hout
  | capturedPorts m =>
    have hstage : g.stage = .starting := hallows
    rw [hstage] at hlinked
    obtain ⟨hstarting, hstarted⟩ := hlinked
    have hports := hsound.stage
    rw [hstarting] at hports
    simp only [Watched.perform] at hw
    split at hw
    · rename_i hentries
      cases hw
      rw [hports.1, Option.map_some, Option.some.injEq] at hentries
      have hknown : σ.known = r := AList.ext hentries
      have hquiet := hsound.quiet (by rw [hstarting]; decide)
      have hleads := hsound.leads
      have hsettles := hsound.settles (by rw [hstarting]; decide)
      rw [hquiet] at hleads hsettles
      rw [hports.2, hknown] at hsettles
      have hdispatching : Sound chars { stage := .dispatching, known := r } w :=
        { keys := hsound.keys
          leads := hleads
          settles := fun _ => hsettles
          awaits := (by simp)
          unregistered := fun hnot => ?_
          stage := ⟨hstarted, rfl⟩ }
      · exact ⟨_, rfl, h.own hg (by rw [hstage]; decide) h.stopped rfl hdispatching
          ⟨rfl, hstarted⟩⟩
      · have hout := (hsound.unregistered hnot).2
        rw [hstarting] at hout
        cases hout
    · cases hw
  | _ =>
    have hmonitor : (w.monitor.perform t _ r).map (fun monitor => { w with monitor }) = some w' :=
      hw
    obtain ⟨m, hm, rfl⟩ := Option.map_eq_some_iff.mp hmonitor
    exact ⟨g, rfl, h.stay hg (Watched.same_of_kept (Monitor.perform_kept hm trivial))⟩

/-- A thread that enters a call that has nothing to do with the copy. -/
theorem WatchInv.enter_outside (h : WatchInv chars gs w) (t : Nat) (c : WatchCall)
    (hstopped : w'.monitor.state.stopped_ = false) (hmade : w'.made = w.made)
    (hregistered : w'.registered = w.registered)
    (hstarted : w'.monitor.started = w.monitor.started)
    (hsound : ∀ σ, Sound chars σ w → Sound chars σ w') :
    WatchInv chars (Function.update gs t (some (c, {}))) w' := by
  have hold : ∀ u c0 g0, Function.update gs t (some (c, {})) u = some (c0, g0) →
      g0.stage ≠ .outside → gs u = some (c0, g0) := by
    intro u c0 g0 hu hout
    by_cases hut : u = t
    · rw [hut, Function.update_self] at hu
      cases hu
      exact absurd rfl hout
    · rwa [Function.update_of_ne hut] at hu
  obtain ⟨σ, hs, hlinked⟩ := h.sound
  refine
    { stopped := hstopped
      sound := ⟨σ, hsound σ hs, fun u c0 g0 hu => ?_⟩
      alone := fun u c0 g0 u' c1 g1 hu hu' hout hout' =>
        h.alone u c0 g0 u' c1 g1 (hold u c0 g0 hu hout) (hold u' c1 g1 hu' hout') hout hout'
      unmade := fun hnot => ?_ }
  · by_cases hout : g0.stage = .outside
    · unfold Linked
      rw [hout]
      trivial
    · refine (hlinked u c0 g0 (hold u c0 g0 hu hout)).mono ?_ ?_
      · rw [hregistered]
        exact id
      · rw [hstarted]
        exact id
  · rw [hmade] at hnot
    rw [hregistered]
    refine ⟨(h.unmade hnot).1, fun u c0 g0 hu => ?_⟩
    by_contra hout
    exact hout ((h.unmade hnot).2 u c0 g0 (hold u c0 g0 hu hout))

theorem WatchInv.enter (h : WatchInv chars gs w) (t : Nat)
    (hw : w.enter chars c = some w') :
    WatchInv chars (Function.update gs t (some (c, c.start))) w' := by
  obtain ⟨σ, hsound, hlinked⟩ := h.sound
  cases c with
  | change path port =>
    simp only [Watched.enter] at hw
    split at hw
    · cases hw
    · rename_i hturn
      cases hw
      exact h.enter_outside t _ h.stopped rfl rfl rfl fun σ hs => hs.changed hturn
  | register attempts callback_function =>
    simp only [Watched.enter] at hw
    split at hw
    · cases hw
    · rename_i hmade
      cases hw
      obtain ⟨hregistered, houtside⟩ := h.unmade (Bool.eq_false_iff.mpr hmade)
      have hsound' : Sound chars σ { w with made := true } :=
        { keys := hsound.keys
          leads := hsound.leads
          settles := hsound.settles
          awaits := hsound.awaits
          unregistered := hsound.unregistered
          stage := hsound.stage }
      exact WatchInv.only (fun u c0 g0 _ hu => houtside u c0 g0 hu) h.stopped rfl hsound'
        (hsound.unregistered hregistered).2
  | dispatcher turns =>
    simp only [Watched.enter] at hw
    split at hw
    · rename_i hready
      cases hw
      -- the thread was made, and nobody has started it
      have hstarting : σ.stage = .starting := by
        have hstage := hsound.stage
        revert hstage
        cases σ.stage with
        | outside | walking =>
          intro hnone
          rw [hnone] at hready
          exact absurd hready.1 (by decide)
        | registering | registered => exact False.elim
        | starting => exact fun _ => rfl
        | dispatching =>
          rintro ⟨hstarted, -⟩
          rw [hready.2] at hstarted
          cases hstarted
      have hsound' : Sound chars σ { w with monitor := { w.monitor with started := true } } :=
        { keys := hsound.keys
          leads := hsound.leads
          settles := hsound.settles
          awaits := hsound.awaits
          unregistered := hsound.unregistered
          stage := by
            have hstage := hsound.stage
            rw [hstarting] at hstage ⊢
            exact hstage }
      refine WatchInv.only (fun u c0 g0 _ hu => ?_) h.stopped ?_ hsound' ⟨hstarting, rfl⟩
      · have hlink := hlinked u c0 g0 hu
        unfold Linked at hlink
        cases hstage : g0.stage with
        | outside => rfl
        | registering | registered | walking =>
          rw [hstage] at hlink
          simp_all
        | starting | dispatching =>
          rw [hstage] at hlink
          have hstarted := hlink.2
          rw [hready.2] at hstarted
          cases hstarted
      · by_contra hnot
        have hregistered := (h.unmade (Bool.eq_false_iff.mpr hnot)).1
        have hout := (hsound.unregistered hregistered).2
        rw [hstarting] at hout
        cases hout
    · cases hw
  | _ =>
    cases hw
    exact h.enter_outside t _ h.stopped rfl rfl rfl fun _ hs => hs

theorem WatchInv.leave (h : WatchInv chars gs w) :
    WatchInv chars (Function.update gs t none) w := by
  have hold : ∀ u x, Function.update gs t none u = some x → gs u = some x :=
    fun u x hu => (stays_inside hu).2
  obtain ⟨σ, hsound, hlinked⟩ := h.sound
  exact
    { stopped := h.stopped
      sound := ⟨σ, hsound, fun u c0 g0 hu => hlinked u c0 g0 (hold u _ hu)⟩
      alone := fun u c0 g0 u' c1 g1 hu hu' =>
        h.alone u c0 g0 u' c1 g1 (hold u _ hu) (hold u' _ hu')
      unmade := fun hnot =>
        ⟨(h.unmade hnot).1, fun u c0 g0 hu => (h.unmade hnot).2 u c0 g0 (hold u _ hu)⟩ }

def watchOutline (chars : CharUpper) (l : ListenerId) :
    Outline (watching chars l) (undisturbed chars) {} (watch chars) where
  start c := c.start
  post c := c.ends
  inv _ gs w := WatchInv chars gs w
  follows := WatchCall.program_watched chars l
  init :=
    { stopped := rfl
      sound := by
        refine ⟨{}, ?_, nofun⟩
        exact
          { keys := nofun
            leads := fun _ => ⟨false, rfl⟩
            settles := fun hnot => absurd rfl hnot
            awaits := nofun
            unregistered := fun _ => ⟨rfl, rfl⟩
            stage := rfl }
      alone := fun t c g u c' g' hg => by cases hg
      unmade := fun _ => ⟨rfl, fun t c g hg => by cases hg⟩ }
  enter h _ hw _ := h.enter _ hw
  did h hg hallows hw hok := h.did hg hallows hw hok
  leave h _ _ hw _ := by
    cases hw
    exact h.leave

/-- Wherever the changes come, before the registration, during the snapshot or after it: when
Windows has told them all and the dispatcher has taken them all, its map has the interfaces that
are present, each under the name that the device has now. -/
theorem a_drained_queue_leaves_the_devices (chars : CharUpper) (l : ListenerId)
    {ls : List WatchLabel}
    {s : Sys Nat ListenerAction ListenerAnswer WatchCall (Option PortMap) Watched}
    (h : Runs (watching chars l) (undisturbed chars) {} ls s) {t turns : Nat} {ports : PortMap}
    (hdispatcher : s.threads t = some (.dispatcher turns, .ret (some ports)))
    (htold : s.shared.unsent = []) (htaken : s.shared.monitor.state.pending_ = []) :
    (∀ key, key ∈ ports ↔ key ∈ s.shared.devices) ∧
      ∀ key, ports.lookup key = s.shared.devices.lookup key := by
  obtain ⟨gs, hinv, hmatches⟩ := (watchOutline chars l).runs h
  obtain ⟨g, hg, hends⟩ := Outline.some_of_some hmatches hdispatcher
  obtain ⟨hstage, rfl, hawaiting⟩ : g.stage = .dispatching ∧ g.known = ports ∧ g.awaiting = none :=
    hends ports rfl
  obtain ⟨σ, hsound, hlinked⟩ := hinv.copy hg
  unfold Linked at hlinked
  rw [hstage] at hlinked
  obtain ⟨rfl, -⟩ := hlinked
  have hlookup : ∀ key, σ.known.lookup key = s.shared.devices.lookup key := by
    intro key
    have hsettles := hsound.settles (by rw [hstage]; decide) key
    have hqueue : s.shared.queue = [] := by
      unfold Watched.queue
      rw [htold, htaken]
      rfl
    rw [hawaiting, hqueue, hsound.unpaid hstage] at hsettles
    exact settles_done hsettles List.not_mem_nil
  refine ⟨fun key => ?_, hlookup⟩
  rw [← AList.lookup_isSome, ← AList.lookup_isSome, hlookup key]

instance (chars : CharUpper) (devices : PortMap) (buffer : WString) :
    Decidable (Lists chars devices buffer) :=
  match h : interfacePaths [] buffer with
  | none => isFalse (by unfold Lists; rw [h]; exact id)
  | some paths => decidable_of_iff ((∀ key ∈ paths.map (interfaceKey chars), key ∈ devices.keys) ∧
      ∀ key ∈ devices.keys, key ∈ paths.map (interfaceKey chars)) (by unfold Lists; rw [h])

instance : (now : Option String) → (resolved : Except PortError String) →
    Decidable (Names now resolved)
  | some port, .ok port' => inferInstanceAs (Decidable (port' = port))
  | some _, .error _ => isFalse id
  | none, _ => isTrue trivial

instance (chars : CharUpper) (ls : List WatchLabel) (w : Watched) (label : WatchLabel) :
    Decidable (undisturbed chars ls w label) := by
  unfold undisturbed
  split <;> infer_instance

/-- The answers of Windows while two devices come and one goes. -/
def watchAnswer (chars : CharUpper) (_ : Nat) (w : Watched) :
    (action : ListenerAction) → ListenerAnswer action
  | .check _ => w.monitor.state.check.1
  | .portName path => match w.devices.lookup (interfaceKey chars path) with
    | some port => .ok port
    | none => .error ⟨some ERROR_FILE_NOT_FOUND, "The system cannot find the file specified."⟩
  | .capturedPorts _ => w.ports.getD ∅
  | .interfaceList _ => .listed [65, 0, 98, 0, 0]
  | action => quietAnswer action

/-- Upper case of the letters `a` and `b`. -/
def upperAB : CharUpper where
  upper unit := if unit = 97 then 65 else if unit = 98 then 66 else unit
  upper_upper unit := by
    by_cases h1 : unit = 97
    · simp [h1]
    · by_cases h2 : unit = 98 <;> simp [h1, h2]

/-- The device `a` is there before the registration and goes while the snapshot is taken. The
device `b` comes between the registration and the snapshot. -/
def twoDevices : List (Move Nat ListenerAction ListenerAnswer WatchCall Watched) :=
  let act (t : Nat) := Move.act t (watchAnswer upperAB)
  [.enter 9 (.change [97] (some "COM3")), .leave 9, .enter 0 (.register 1 (some 0)), act 0, act 0,
    .enter 9 (.change [98] (some "COM4")), .leave 9, act 0, act 0, act 0,
    .enter 9 (.change [97] none), .leave 9, act 0, act 0, .leave 0,
    .enter 1 (.deviceNotification 0 ⟨0, [98]⟩), act 1, act 1, act 1, .leave 1,
    .enter 1 (.deviceNotification 1 ⟨0, [97]⟩), act 1, act 1, act 1, .leave 1,
    .enter 0 .activate, act 0, act 0, act 0, .leave 0,
    .enter 2 (.dispatcher 3), act 2, act 2, act 2, act 2, act 2, act 2, act 2, act 2, act 2, act 2]

/-- The dispatcher ends up with `b` alone. -/
theorem a_device_that_went_is_not_kept :
    ∃ ls s, Runs (watching upperAB 0) (undisturbed upperAB) {} ls s ∧
      s.threads 2 = some (.dispatcher 3, .ret (some (AList.insert [66] "COM4" ∅))) ∧
      (∀ key, key ∈ (AList.insert [66] "COM4" ∅ : PortMap) ↔ key ∈ s.shared.devices) ∧
      ∀ key, (AList.insert [66] "COM4" ∅ : PortMap).lookup key = s.shared.devices.lookup key := by
  obtain ⟨ls, s, hr, hx⟩ := Sys.moves_exists (watching upperAB 0) (undisturbed upperAB) {}
    twoDevices (fun _ s => (s.threads 2, s.shared.unsent, s.shared.monitor.state.pending_))
    (x := (some (.dispatcher 3, .ret (some (AList.insert [66] "COM4" ∅))), [], [])) rfl
  simp only [Prod.mk.injEq] at hx
  obtain ⟨hdispatcher, htold, htaken⟩ := hx
  exact ⟨ls, s, hr, hdispatcher,
    a_drained_queue_leaves_the_devices upperAB 0 hr hdispatcher htold htaken⟩

end cpp_bindings_windows
