-- The strings of a device: what Windows is told of a buffer, and where the scan for the
-- end of a string stops. A value without its NUL takes the scan out of the buffer, and
-- the buffer of a registry value is too small for an odd number of bytes.
import SerialBindings.ListPorts

open programs memory

namespace cpp_bindings_windows

open listing

/-! ## The first NUL -/

/-- The units up to the first NUL, or to their end. -/
def textOf (buffer : WString) : WString := buffer.takeWhile (· ≠ 0)

theorem textOf_append {buffer tail : WString} (h : 0 ∈ buffer) :
    textOf (buffer ++ tail) = textOf buffer := by
  induction buffer with
  | nil => cases h
  | cons unit buffer ih =>
    by_cases hunit : unit = 0
    · simp [textOf, hunit]
    · have hmem : 0 ∈ buffer := by
        rcases List.mem_cons.mp h with h0 | h0
        · exact absurd h0.symm hunit
        · exact h0
      have htail := ih hmem
      unfold textOf at htail ⊢
      rw [List.cons_append, List.takeWhile_cons_of_pos (by simp [hunit]),
        List.takeWhile_cons_of_pos (by simp [hunit]), htail]

theorem textOf_append_of_not_mem {buffer tail : WString} (h : 0 ∉ buffer) :
    textOf (buffer ++ tail) = buffer ++ textOf tail := by
  unfold textOf
  apply List.takeWhile_append_of_pos
  intro unit hunit
  have hne : unit ≠ 0 := fun h0 => h (h0 ▸ hunit)
  simpa using hne

theorem textOf_of_not_mem {buffer : WString} (h : 0 ∉ buffer) : textOf buffer = buffer := by
  have happend : textOf (buffer ++ []) = buffer ++ textOf [] := textOf_append_of_not_mem h
  rwa [List.append_nil, show textOf [] = [] from rfl, List.append_nil] at happend

/-- The scan stops inside the buffer when a NUL is there, and ends with the text before it. -/
theorem wstring_iff {buffer string : WString} :
    wstring buffer = some string ↔ 0 ∈ buffer ∧ textOf buffer = string := by
  induction buffer generalizing string with
  | nil => simp [wstring]
  | cons unit buffer ih =>
    unfold wstring
    by_cases hunit : unit = 0
    · simp [textOf, hunit]
    · have hmem : 0 ∈ unit :: buffer ↔ 0 ∈ buffer := by
        rw [List.mem_cons, or_iff_right (Ne.symm hunit)]
      have htext : textOf (unit :: buffer) = unit :: textOf buffer := by
        simp [textOf, hunit]
      rw [if_neg hunit, hmem, htext, Option.map_eq_some_iff]
      constructor
      · rintro ⟨rest, hrest, rfl⟩
        obtain ⟨h0, htail⟩ := ih.mp hrest
        exact ⟨h0, by rw [htail]⟩
      · rintro ⟨h0, rfl⟩
        exact ⟨textOf buffer, ih.mpr ⟨h0, rfl⟩, rfl⟩

/-- What stands behind the units of a value changes nothing of the text when the value has its
NUL, and it must start with a NUL when the value has none. -/
theorem text_stays_iff (buffer tail : WString) :
    (0 ∈ buffer ++ tail ∧ textOf (buffer ++ tail) = textOf buffer) ↔
      (0 ∈ buffer ∨ tail.head? = some 0) := by
  by_cases h0 : 0 ∈ buffer
  · have hin : 0 ∈ buffer ++ tail := List.mem_append_left tail h0
    exact ⟨fun _ => Or.inl h0, fun _ => ⟨hin, textOf_append h0⟩⟩
  · rw [textOf_append_of_not_mem h0, textOf_of_not_mem h0, List.append_right_eq_self,
      List.mem_append, or_iff_right h0, or_iff_right h0]
    rcases tail with _ | ⟨unit, tail⟩
    · simp
    · by_cases hunit : unit = 0
      · simp [textOf, hunit]
      · simp [textOf, hunit]

/-! ## Bytes and units -/

theorem units_append {bytes : List UInt8} (tail : List UInt8) (h : bytes.length % 2 = 0) :
    units (bytes ++ tail) = units bytes ++ units tail := by
  induction bytes using units.induct with
  | case1 low high bytes ih =>
    have heven : bytes.length % 2 = 0 := by
      rw [List.length_cons, List.length_cons] at h
      omega
    simp only [List.cons_append, units, ih heven]
  | case2 bytes hbytes =>
    rcases bytes with _ | ⟨low, _ | ⟨high, bytes⟩⟩
    · rfl
    · cases h
    · exact absurd rfl (hbytes low high bytes)

/-- Bytes are pairs with at most one byte behind them. -/
theorem bytes_split (bytes : List UInt8) :
    ∃ pairs odd : List UInt8, bytes = pairs ++ odd ∧ pairs.length % 2 = 0 ∧ odd.length ≤ 1 := by
  refine ⟨bytes.take (2 * (bytes.length / 2)), bytes.drop (2 * (bytes.length / 2)),
    (List.take_append_drop _ _).symm, ?_, ?_⟩
  · rw [List.length_take]
    omega
  · rw [List.length_drop]
    omega

theorem units_of_short {odd : List UInt8} (h : odd.length ≤ 1) : units odd = [] := by
  rcases odd with _ | ⟨low, _ | ⟨high, bytes⟩⟩
  · rfl
  · rfl
  · simp at h

/-- Data that fits into a buffer is followed by zeros. -/
theorem filled_of_le {room : Nat} {data : List UInt8} (h : data.length ≤ room) :
    filled room data = data ++ List.replicate (room - data.length) 0 := by
  have hzeros : cells (store (fun _ => (0 : UInt8)) 0 data) data.length (room - data.length) =
      List.replicate (room - data.length) 0 := by
    apply List.ext_getElem
    · simp
    · intro i _ _
      simp [cells, store]
  have hroom : room = data.length + (room - data.length) := by omega
  unfold filled
  rw [hroom, cells_add, cells_store_self, Nat.zero_add, hzeros]
  simp

/-! ## The value and its buffer -/

/-- The UTF-16 units of a value up to its first NUL or its end. -/
def valueText (value : List UInt8) : WString := textOf (units value)

/-- The value has a NUL of its own, or it is shorter than the announced size by so much that a
zero of the buffer stands behind its last unit. -/
def Terminated (size : Nat) (value : List UInt8) : Prop :=
  0 ∈ units value ∨
    (2 * (value.length / 2) + 2 ≤ size ∧ (value.length % 2 = 1 → value.getLast? = some 0))

/-- A value of the announced size needs a NUL of its own. -/
theorem terminated_of_length {value : List UInt8} :
    Terminated value.length value ↔ 0 ∈ units value := by
  unfold Terminated
  constructor
  · rintro (h | ⟨h, _⟩)
    · exact h
    · omega
  · exact Or.inl

/-- The first unit behind the value in its buffer. -/
theorem head_behind (odd : List UInt8) (n : Nat) (h : odd.length ≤ 1) :
    (units (odd ++ List.replicate n 0)).head? = some 0 ↔
      2 ≤ odd.length + n ∧ (odd.length = 1 → odd.getLast? = some 0) := by
  rcases odd with _ | ⟨low, _ | ⟨high, bytes⟩⟩
  · rcases n with _ | _ | n
    · simp [units]
    · simp [units]
    · simp [units, List.replicate_succ]
  · rcases n with _ | n
    · simp [units]
    · have hlow : low.toUInt16 = 0 ↔ low = 0 := by
        rw [← UInt16.toNat_inj, ← UInt8.toNat_inj]
        simp
      simp [units, List.replicate_succ, hlow]
      omega
  · simp at h

/-- The scan of the buffer stops inside it with the text of the value exactly when the value is
terminated. -/
theorem scan_iff_terminated {size : Nat} {value : List UInt8} (h : value.length ≤ size) :
    wstring (units (filled size value)) = some (valueText value) ↔ Terminated size value := by
  obtain ⟨pairs, odd, rfl, hpairs, hodd⟩ := bytes_split value
  have hvalue : units (pairs ++ odd) = units pairs := by
    rw [units_append odd hpairs, units_of_short hodd, List.append_nil]
  have hfilled : units (filled size (pairs ++ odd)) = units pairs ++
      units (odd ++ List.replicate (size - (pairs ++ odd).length) 0) := by
    rw [filled_of_le h, List.append_assoc, units_append _ hpairs]
  have htext : valueText (pairs ++ odd) = textOf (units pairs) := by
    unfold valueText
    rw [hvalue]
  rw [hfilled, htext, wstring_iff, text_stays_iff, head_behind odd _ hodd]
  unfold Terminated
  rw [hvalue, List.length_append]
  rw [List.length_append] at h
  have hlast : (pairs.length + odd.length) % 2 = 1 → (pairs ++ odd).getLast? = odd.getLast? := by
    intro h1
    rcases odd with _ | ⟨low, tail⟩
    · rw [List.length_nil] at h1
      omega
    · rw [List.getLast?_append]
      rfl
  apply or_congr Iff.rfl
  apply and_congr
  · omega
  · constructor
    · intro himp h1
      rw [hlast h1]
      exact himp (by omega)
    · intro himp h1
      have hmod : (pairs.length + odd.length) % 2 = 1 := by omega
      rw [← hlast hmod]
      exact himp hmod

/-! ## One decoding -/

/-- A call of a function that reads a string of a device. -/
inductive Decoding
  | registryString (key : HKEY) (value_name : String)
  | portName (device_information_set : HDEVINFO) (device_information : SP_DEVINFO_DATA)
  | deviceProperty (device_information_set : HDEVINFO) (device_information : SP_DEVINFO_DATA)
      (property : DWORD)

def Decoding.program : Decoding → Listing (Option (Option WString))
  | .registryString key value_name => listing.registryString key value_name
  | .portName set device => listing.portName set device
  | .deviceProperty set device property => listing.deviceProperty set device property

/-- An action of the listing with its answer. -/
abbrev Answered := Σ action, ListingAnswer action

/-- Windows is told no more bytes than the buffer of the query holds. -/
def ListingAction.Told : ListingAction → Prop
  | .regQueryValue _ _ room size => size.toNat ≤ room
  | .property _ _ _ room size => size.toNat ≤ room
  | _ => True

/-- The raw value that a query with a buffer gave. -/
def Answered.value : Answered → Option (List UInt8)
  | ⟨.regQueryValue .., some written⟩ => some written.data
  | ⟨.property .., some written⟩ => some written.data
  | _ => none

/-- The raw values of a trace. -/
def values (tr : List Answered) : List (List UInt8) := tr.filterMap Answered.value

/-- A decoding stays inside its buffer: Windows is never told of more bytes than there are, and
either no value was read and the result is `nullopt`, or the scan of the one value that was read
stops in the buffer and gives the text of the value. -/
structure KeptInside (tr : List Answered) (result : Option (Option WString)) : Prop where
  told : ∀ x ∈ tr, x.1.Told
  decoded : (values tr = [] ∧ result = some none) ∨
    ∃ value, values tr = [value] ∧ result = some (some (valueText value))

/-- What Windows must store and answer. The announced size of a string in the registry is even,
and each value that is read is terminated within the announced size. -/
def Answered.WellStored (read : List (List UInt8)) : Answered → Prop
  | ⟨.regQueryValueSize .., some (type, size)⟩ =>
    (type = REG_SZ ∨ type = REG_EXPAND_SZ) → 2 ≤ size.toNat →
      size.toNat % 2 = 0 ∧ ∀ value ∈ read, Terminated size.toNat value
  | ⟨.propertySize .., size⟩ => ∀ value ∈ read, Terminated size.toNat value
  | _ => True

def WellStored (tr : List Answered) : Prop := ∀ x ∈ tr, x.WellStored (values tr)

/-- Without a value that was read, only the told sizes matter. -/
theorem keptInside_nullopt {tr : List Answered} (hvalues : values tr = []) :
    KeptInside tr (some none) ↔ ∀ x ∈ tr, x.1.Told :=
  ⟨KeptInside.told, fun h => ⟨h, Or.inl ⟨hvalues, rfl⟩⟩⟩

/-- With one value that was read, the scan of its buffer decides. -/
theorem keptInside_read {tr : List Answered} {size : Nat} {value : List UInt8}
    (hvalues : values tr = [value]) (hfits : value.length ≤ size) :
    KeptInside tr ((wstring (units (filled size value))).map some) ↔
      (∀ x ∈ tr, x.1.Told) ∧ Terminated size value := by
  rw [← scan_iff_terminated hfits]
  constructor
  · rintro ⟨htold, ⟨hnone, -⟩ | ⟨read, hread, hresult⟩⟩
    · rw [hvalues] at hnone
      cases hnone
    · rw [hvalues] at hread
      cases hread
      obtain ⟨scanned, hscanned, heq⟩ := Option.map_eq_some_iff.mp hresult
      cases heq
      exact ⟨htold, hscanned⟩
  · rintro ⟨htold, hscanned⟩
    refine ⟨htold, Or.inr ⟨value, hvalues, ?_⟩⟩
    rw [hscanned]
    rfl

/-- The buffer of `registryString` holds the announced bytes when their number is even. -/
theorem room_of_units (size : Nat) : size ≤ 2 * (size / 2) ↔ size % 2 = 0 := by
  omega

theorem registryString_keeps_inside {key : HKEY} {value_name : String} {tr : List Answered}
    {result : Option (Option WString)}
    (h : Traces (registryString key value_name) tr (.ret result)) :
    KeptInside tr result ↔ WellStored tr := by
  unfold registryString at h
  rw [Prog.perform_bind] at h
  obtain ⟨answer, tr1, rfl, h1⟩ := traces_act_ret h
  rcases answer with _ | ⟨type, size⟩
  · obtain ⟨rfl, hresult⟩ := traces_ret h1
    cases hresult
    rw [keptInside_nullopt rfl]
    simp [WellStored, Answered.WellStored, ListingAction.Told]
  · dsimp only at h1
    split at h1
    · rename_i hrefused
      obtain ⟨rfl, hresult⟩ := traces_ret h1
      cases hresult
      rw [keptInside_nullopt rfl]
      simp only [WellStored, Answered.WellStored, ListingAction.Told, List.mem_singleton,
        forall_eq, true_iff]
      intro htype hsize
      exfalso
      rcases hrefused with ⟨h1, h2⟩ | hsmall
      · exact htype.elim h1 h2
      · omega
    · rename_i haccepted
      rw [not_or, not_and_or, not_not, not_not, Nat.not_lt] at haccepted
      rw [Prog.perform_bind] at h1
      obtain ⟨written, tr2, rfl, h2⟩ := traces_act_ret h1
      rcases written with _ | written
      · obtain ⟨rfl, hresult⟩ := traces_ret h2
        cases hresult
        rw [keptInside_nullopt rfl]
        simp [WellStored, Answered.WellStored, ListingAction.Told, values, Answered.value,
          haccepted, room_of_units]
      · obtain ⟨rfl, hresult⟩ := traces_ret h2
        cases hresult
        have hvalues : values [⟨.regQueryValueSize key value_name, some (type, size)⟩,
            ⟨.regQueryValue key value_name (2 * (size.toNat / 2)) size, some written⟩] =
              [written.data] := rfl
        by_cases heven : size.toNat % 2 = 0
        · have hroom : 2 * (size.toNat / 2) = size.toNat := by omega
          rw [hroom] at hvalues ⊢
          rw [keptInside_read hvalues written.length_le]
          simp [WellStored, Answered.WellStored, ListingAction.Told, values, Answered.value,
            haccepted, heven]
        · apply iff_of_false
          · intro hkept
            have htold := hkept.told _ (List.mem_cons_of_mem _ List.mem_cons_self)
            exact heven ((room_of_units size.toNat).mp htold)
          · intro hwell
            have hsize := hwell _ List.mem_cons_self
            exact heven (hsize haccepted.1 haccepted.2).1

theorem deviceProperty_keeps_inside {device_information_set : HDEVINFO}
    {device_information : SP_DEVINFO_DATA} {property : DWORD} {tr : List Answered}
    {result : Option (Option WString)}
    (h : Traces (deviceProperty device_information_set device_information property) tr
      (.ret result)) :
    KeptInside tr result ↔ WellStored tr := by
  unfold deviceProperty at h
  rw [Prog.perform_bind] at h
  obtain ⟨size, tr1, rfl, h1⟩ := traces_act_ret h
  rw [Prog.perform_bind] at h1
  obtain ⟨error, tr2, rfl, h2⟩ := traces_act_ret h1
  split at h2
  · obtain ⟨rfl, hresult⟩ := traces_ret h2
    cases hresult
    rw [keptInside_nullopt rfl]
    simp [WellStored, Answered.WellStored, ListingAction.Told, values, Answered.value]
  · rw [Prog.perform_bind] at h2
    obtain ⟨written, tr3, rfl, h3⟩ := traces_act_ret h2
    rcases written with _ | written
    · obtain ⟨rfl, hresult⟩ := traces_ret h3
      cases hresult
      rw [keptInside_nullopt rfl]
      simp [WellStored, Answered.WellStored, ListingAction.Told, values, Answered.value]
    · obtain ⟨rfl, hresult⟩ := traces_ret h3
      cases hresult
      have hvalues : values
          [⟨.propertySize device_information_set device_information property, size⟩,
          ⟨.api .getLastError, error⟩,
          ⟨.property device_information_set device_information property size.toNat size,
            some written⟩] = [written.data] := rfl
      rw [keptInside_read hvalues written.length_le]
      simp [WellStored, Answered.WellStored, ListingAction.Told, values, Answered.value]

/-- An action that has no part in reading a value. -/
structure Answered.Beside (x : Answered) : Prop where
  told : x.1.Told
  value : x.value = none
  wellStored : ∀ read, x.WellStored read

theorem keeps_inside_cons {x : Answered} {tr : List Answered} {result : Option (Option WString)}
    (hx : x.Beside) (h : KeptInside tr result ↔ WellStored tr) :
    KeptInside (x :: tr) result ↔ WellStored (x :: tr) := by
  have hvalues : values (x :: tr) = values tr := List.filterMap_cons_none hx.value
  have hkept : KeptInside (x :: tr) result ↔ KeptInside tr result := by
    constructor
    · intro hk
      exact ⟨fun y hy => hk.told y (List.mem_cons_of_mem x hy), hvalues ▸ hk.decoded⟩
    · intro hk
      exact ⟨List.forall_mem_cons.mpr ⟨hx.told, hk.told⟩, hvalues.symm ▸ hk.decoded⟩
  have hwell : WellStored (x :: tr) ↔ WellStored tr := by
    unfold WellStored
    rw [hvalues, List.forall_mem_cons, and_iff_right (hx.wellStored _)]
  rw [hkept, hwell, h]

theorem keeps_inside_snoc {x : Answered} {tr : List Answered} {result : Option (Option WString)}
    (hx : x.Beside) (h : KeptInside tr result ↔ WellStored tr) :
    KeptInside (tr ++ [x]) result ↔ WellStored (tr ++ [x]) := by
  have hvalues : values (tr ++ [x]) = values tr := by
    unfold values
    rw [List.filterMap_append, List.filterMap_cons_none hx.value, List.filterMap_nil,
      List.append_nil]
  have hkept : KeptInside (tr ++ [x]) result ↔ KeptInside tr result := by
    constructor
    · intro hk
      exact ⟨fun y hy => hk.told y (List.mem_append_left [x] hy), hvalues ▸ hk.decoded⟩
    · intro hk
      refine ⟨?_, hvalues.symm ▸ hk.decoded⟩
      rw [List.forall_mem_append, List.forall_mem_singleton]
      exact ⟨hk.told, hx.told⟩
  have hwell : WellStored (tr ++ [x]) ↔ WellStored tr := by
    unfold WellStored
    rw [hvalues, List.forall_mem_append, List.forall_mem_singleton,
      and_iff_left (hx.wellStored _)]
  rw [hkept, hwell, h]

theorem openDevRegKey_beside (device_information_set : HDEVINFO)
    (device_information : SP_DEVINFO_DATA) (key : HKEY) :
    Answered.Beside
      ⟨.setupDiOpenDevRegKey device_information_set device_information, key⟩ :=
  ⟨trivial, rfl, fun _ => trivial⟩

theorem regCloseKey_beside (key : HKEY) : Answered.Beside ⟨.regCloseKey key, ()⟩ :=
  ⟨trivial, rfl, fun _ => trivial⟩

/-- The key of a device is opened before its name is read, and closed behind it. -/
theorem portName_keeps_inside {device_information_set : HDEVINFO}
    {device_information : SP_DEVINFO_DATA} {tr : List Answered}
    {result : Option (Option WString)}
    (h : Traces (portName device_information_set device_information) tr (.ret result)) :
    KeptInside tr result ↔ WellStored tr := by
  unfold portName at h
  rw [Prog.perform_bind] at h
  obtain ⟨key, tr1, rfl, h1⟩ := traces_act_ret h
  split at h1
  · obtain ⟨rfl, hresult⟩ := traces_ret h1
    cases hresult
    rw [keptInside_nullopt rfl]
    simp [WellStored, Answered.WellStored, ListingAction.Told]
  · obtain ⟨value, tr2, tr3, rfl, h2, h3⟩ := traces_bind_ret h1
    have hvalue := registryString_keeps_inside h2
    rcases value with _ | value
    · obtain ⟨rfl, hresult⟩ := traces_ret h3
      cases hresult
      rw [List.append_nil]
      exact keeps_inside_cons (openDevRegKey_beside _ _ key) hvalue
    · dsimp only at h3
      rw [Prog.perform_bind] at h3
      obtain ⟨closed, tr4, rfl, h4⟩ := traces_act_ret h3
      obtain ⟨rfl, hresult⟩ := traces_ret h4
      cases hresult
      rw [← List.cons_append]
      apply keeps_inside_snoc (regCloseKey_beside key)
      exact keeps_inside_cons (openDevRegKey_beside _ _ key) hvalue

/-! ## The rule, and a name that leaves its buffer -/

/-- The strings of a device are decoded inside their buffers exactly when every string value has
an even number of bytes in the registry, and is terminated within the announced size. -/
theorem a_device_string_stays_inside_when_well_stored (decoding : Decoding) {tr : List Answered}
    {result : Option (Option WString)} (h : Traces decoding.program tr (.ret result)) :
    KeptInside tr result ↔ WellStored tr := by
  cases decoding with
  | registryString key value_name => exact registryString_keeps_inside h
  | portName set device => exact portName_keeps_inside h
  | deviceProperty set device property => exact deviceProperty_keeps_inside h

/-- The answers of a registry that holds one string value. -/
def storedString (value : List UInt8) : (action : ListingAction) → ListingAnswer action
  | .api action => idleAnswer action
  | .setupDiGetClassDevs => 1
  | .setupDiEnumDeviceInfo .. => none
  | .setupDiOpenDevRegKey .. => 1
  | .regQueryValueSize .. => some (REG_SZ, UInt32.ofNat value.length)
  | .regQueryValue _ _ _ size =>
    if h : value.length ≤ size.toNat then some ⟨value, h⟩ else none
  | .regCloseKey _ => ()
  | .propertySize .. => UInt32.ofNat value.length
  | .property _ _ _ _ size => if h : value.length ≤ size.toNat then some ⟨value, h⟩ else none
  | .instanceIdSize .. => 0
  | .instanceId .. => none
  | .setupDiDestroyDeviceInfoList _ => ()
  | .wideCharToMultiByte _ => none
  | .portCallback .. => ()

/-- The run of `portName` for a device with the value as its `PortName`. -/
def nameRun (value : List UInt8) : List Answered × Option (Option WString) :=
  (Decoding.portName 1 0).program.trace (fun _ => storedString value) []

/-- `COM7` with its NUL. -/
def terminatedName : List UInt8 := [67, 0, 79, 0, 77, 0, 55, 0, 0, 0]

/-- `COM7` as a driver may store it, without the NUL. -/
def unterminatedName : List UInt8 := [67, 0, 79, 0, 77, 0, 55, 0]

theorem a_terminated_name_stays_inside : KeptInside (nameRun terminatedName).1
    (some (some [67, 79, 77, 55])) := by
  have hrun : Traces (Decoding.portName 1 0).program (nameRun terminatedName).1
      (.ret (some (some [67, 79, 77, 55]))) :=
    trace_traces (fun _ => storedString terminatedName) .nil
  have htrace : (nameRun terminatedName).1 =
      [⟨.setupDiOpenDevRegKey 1 0, 1⟩, ⟨.regQueryValueSize 1 "PortName", some (REG_SZ, 10)⟩,
        ⟨.regQueryValue 1 "PortName" 10 10, some ⟨terminatedName, Nat.le_refl 10⟩⟩,
        ⟨.regCloseKey 1, ()⟩] := rfl
  have hterminated : Terminated 10 terminatedName := Or.inl (by decide)
  apply (a_device_string_stays_inside_when_well_stored (.portName 1 0) hrun).mpr
  rw [htrace]
  simp [WellStored, Answered.WellStored, values, Answered.value, hterminated]

/-- The scan of a name without its NUL leaves the buffer. -/
theorem an_unterminated_name_leaves_its_buffer :
    ¬ ∀ (decoding : Decoding) (tr : List Answered) (result : Option (Option WString)),
      Traces decoding.program tr (.ret result) → KeptInside tr result := by
  intro hall
  have hrun : Traces (Decoding.portName 1 0).program (nameRun unterminatedName).1 (.ret none) :=
    trace_traces (fun _ => storedString unterminatedName) .nil
  rcases (hall _ _ _ hrun).decoded with ⟨-, hresult⟩ | ⟨value, -, hresult⟩
  · cases hresult
  · cases hresult

end cpp_bindings_windows
