-- Texts in UTF-16 and in UTF-8. A list of UTF-16 units is well formed when it
-- is the encoding of a text, and then it is the encoding of one text only.
import Mathlib.Tactic.Common

namespace text_encodings

/-! ## UTF-16 -/

/-- The units of a character: one, or a pair of surrogates. -/
def utf16Char (c : Char) : List UInt16 :=
  if c.toNat < 0x10000 then [UInt16.ofNat c.toNat]
  else [UInt16.ofNat (0xD800 + (c.toNat - 0x10000) / 0x400),
    UInt16.ofNat (0xDC00 + (c.toNat - 0x10000) % 0x400)]

def utf16 (text : List Char) : List UInt16 := text.flatMap utf16Char

/-- The character of a pair of surrogates. -/
def pairChar (high low : UInt16) : Char :=
  Char.ofNat (0x10000 + (high.toNat - 0xD800) * 0x400 + (low.toNat - 0xDC00))

/-- The text of the units, or none when a surrogate stands alone. -/
def decode16 : List UInt16 → Option (List Char)
  | [] => some []
  | unit :: units =>
    if unit.toNat < 0xD800 ∨ 0xE000 ≤ unit.toNat then
      (decode16 units).map (Char.ofNat unit.toNat :: ·)
    else
      match units with
      | [] => none
      | low :: units =>
        if unit.toNat < 0xDC00 ∧ 0xDC00 ≤ low.toNat ∧ low.toNat < 0xE000 then
          (decode16 units).map (pairChar unit low :: ·)
        else none

theorem decode16_one {unit : UInt16} (h : unit.toNat < 0xD800 ∨ 0xE000 ≤ unit.toNat)
    (units : List UInt16) :
    decode16 (unit :: units) = (decode16 units).map (Char.ofNat unit.toNat :: ·) := by
  rw [decode16.eq_def]
  dsimp only
  rw [if_pos h]

theorem decode16_pair {high low : UInt16} (h : ¬ (high.toNat < 0xD800 ∨ 0xE000 ≤ high.toNat))
    (units : List UInt16) :
    decode16 (high :: low :: units) =
      if high.toNat < 0xDC00 ∧ 0xDC00 ≤ low.toNat ∧ low.toNat < 0xE000 then
        (decode16 units).map (pairChar high low :: ·)
      else none := by
  rw [decode16, if_neg h]

@[simp] theorem utf16_nil : utf16 [] = [] := rfl

@[simp] theorem utf16_cons (c : Char) (text : List Char) :
    utf16 (c :: text) = utf16Char c ++ utf16 text := rfl

@[simp] theorem utf16_append (text more : List Char) :
    utf16 (text ++ more) = utf16 text ++ utf16 more := List.flatMap_append

/-- A character is no surrogate, and below the end of the last plane. -/
theorem char_range (c : Char) :
    (c.toNat < 0xD800 ∨ 0xE000 ≤ c.toNat) ∧ c.toNat < 0x110000 := by
  rcases c.valid with h | ⟨h1, h2⟩
  · have hval : c.toNat < 0xD800 := h
    omega
  · have hlow : 0xDFFF < c.toNat := h1
    have hhigh : c.toNat < 0x110000 := h2
    omega

theorem toNat_unit {n : Nat} (h : n < 0x10000) : (UInt16.ofNat n).toNat = n := by
  rw [UInt16.toNat_ofNat']
  omega

/-- The first character is read back, and the rest is read on. -/
theorem decode16_char (c : Char) (units : List UInt16) :
    decode16 (utf16Char c ++ units) = (decode16 units).map (c :: ·) := by
  obtain ⟨hplace, hend⟩ := char_range c
  unfold utf16Char
  split
  · rename_i hone
    have hunit := toNat_unit hone
    rw [List.singleton_append, decode16_one (by omega), hunit, Char.ofNat_toNat]
  · have hhigh : (c.toNat - 0x10000) / 0x400 < 0x400 := by omega
    have hlow : (c.toNat - 0x10000) % 0x400 < 0x400 := by omega
    have hfirst := toNat_unit (n := 0xD800 + (c.toNat - 0x10000) / 0x400) (by omega)
    have hsecond := toNat_unit (n := 0xDC00 + (c.toNat - 0x10000) % 0x400) (by omega)
    rw [List.cons_append, List.singleton_append, decode16_pair (by omega), if_pos (by omega)]
    have hpair : pairChar (UInt16.ofNat (0xD800 + (c.toNat - 0x10000) / 0x400))
        (UInt16.ofNat (0xDC00 + (c.toNat - 0x10000) % 0x400)) = c := by
      unfold pairChar
      rw [hfirst, hsecond]
      have hsum : 0x10000 + (0xD800 + (c.toNat - 0x10000) / 0x400 - 0xD800) * 0x400 +
          (0xDC00 + (c.toNat - 0x10000) % 0x400 - 0xDC00) = c.toNat := by omega
      rw [hsum, Char.ofNat_toNat]
    rw [hpair]

theorem decode16_utf16 (text : List Char) : decode16 (utf16 text) = some text := by
  induction text with
  | nil => rfl
  | cons c text ih => rw [utf16_cons, decode16_char, ih, Option.map_some]

theorem toNat_char {n : Nat} (h : n < 0xD800 ∨ 0xE000 ≤ n) (hend : n < 0x110000) :
    (Char.ofNat n).toNat = n := by
  have hvalid : n.isValidChar := h.imp id fun hn => ⟨by omega, hend⟩
  rw [Char.ofNat, dif_pos hvalid]
  rfl

theorem utf16Char_one {unit : UInt16} (h : unit.toNat < 0xD800 ∨ 0xE000 ≤ unit.toNat) :
    utf16Char (Char.ofNat unit.toNat) = [unit] := by
  have hunit := unit.toNat_lt
  unfold utf16Char
  rw [toNat_char h (by omega), if_pos (by omega), UInt16.ofNat_toNat]

theorem utf16Char_pair {high low : UInt16} (h1 : 0xD800 ≤ high.toNat) (h2 : high.toNat < 0xDC00)
    (h3 : 0xDC00 ≤ low.toNat) (h4 : low.toNat < 0xE000) :
    utf16Char (pairChar high low) = [high, low] := by
  unfold utf16Char pairChar
  rw [toNat_char (by omega) (by omega), if_neg (by omega)]
  have hhigh : 0xD800 + (0x10000 + (high.toNat - 0xD800) * 0x400 + (low.toNat - 0xDC00) -
      0x10000) / 0x400 = high.toNat := by omega
  have hlow : 0xDC00 + (0x10000 + (high.toNat - 0xD800) * 0x400 + (low.toNat - 0xDC00) -
      0x10000) % 0x400 = low.toNat := by omega
  rw [hhigh, hlow, UInt16.ofNat_toNat, UInt16.ofNat_toNat]

theorem utf16_of_decode16 (units : List UInt16) (text : List Char)
    (h : decode16 units = some text) : utf16 text = units := by
  induction units using decode16.induct generalizing text with
  | case1 =>
    cases h
    rfl
  | case2 unit units hone ih =>
    rw [decode16_one hone] at h
    obtain ⟨rest, hrest, rfl⟩ := Option.map_eq_some_iff.mp h
    rw [utf16_cons, utf16Char_one hone, ih rest hrest, List.singleton_append]
  | case3 unit hone =>
    rw [decode16, if_neg hone] at h
    cases h
  | case4 unit hone low units hpair ih =>
    rw [decode16_pair hone, if_pos hpair] at h
    obtain ⟨rest, hrest, rfl⟩ := Option.map_eq_some_iff.mp h
    rw [utf16_cons, utf16Char_pair (by omega) hpair.1 hpair.2.1 hpair.2.2, ih rest hrest]
    rfl
  | case5 unit hone low units hpair =>
    rw [decode16_pair hone, if_neg hpair] at h
    cases h

/-- The units are the encoding of a text. -/
def WellFormed (units : List UInt16) : Prop := ∃ text, utf16 text = units

theorem wellFormed_iff (units : List UInt16) : WellFormed units ↔ (decode16 units).isSome := by
  rw [Option.isSome_iff_exists]
  constructor
  · rintro ⟨text, rfl⟩
    exact ⟨text, decode16_utf16 text⟩
  · rintro ⟨text, h⟩
    exact ⟨text, utf16_of_decode16 units text h⟩

instance (units : List UInt16) : Decidable (WellFormed units) :=
  decidable_of_iff _ (wellFormed_iff units).symm

/-! ## UTF-8 -/

def utf8 (text : List Char) : List UInt8 := text.flatMap String.utf8EncodeChar

@[simp] theorem utf8_append (text more : List Char) :
    utf8 (text ++ more) = utf8 text ++ utf8 more :=
  List.flatMap_append

theorem utf8_injective : Function.Injective utf8 := by
  intro text text' h
  have hbytes : text.utf8Encode = text'.utf8Encode := congrArg List.toByteArray h
  have hstring : String.ofList text = String.ofList text' := by
    apply String.toByteArray_inj.mp
    rw [String.toByteArray_ofList, String.toByteArray_ofList, hbytes]
  have hlist := congrArg String.toList hstring
  rw [String.toList_ofList, String.toList_ofList] at hlist
  exact hlist

theorem utf8_ne_nil {text : List Char} (h : text ≠ []) : utf8 text ≠ [] :=
  fun hnil => h (utf8_injective hnil)

/-! ## One text in both -/

/-- The units and the bytes encode the same text. -/
def SameText (units : List UInt16) (bytes : List UInt8) : Prop :=
  ∃ text, utf16 text = units ∧ utf8 text = bytes

theorem SameText.append {units units' : List UInt16} {bytes bytes' : List UInt8}
    (h : SameText units bytes) (h' : SameText units' bytes') :
    SameText (units ++ units') (bytes ++ bytes') := by
  obtain ⟨text, rfl, rfl⟩ := h
  obtain ⟨text', rfl, rfl⟩ := h'
  exact ⟨text ++ text', utf16_append text text', utf8_append text text'⟩

theorem SameText.units_unique {units units' : List UInt16} {bytes : List UInt8}
    (h : SameText units bytes) (h' : SameText units' bytes) : units = units' := by
  obtain ⟨text, rfl, hbytes⟩ := h
  obtain ⟨text', rfl, hbytes'⟩ := h'
  rw [utf8_injective (hbytes.trans hbytes'.symm)]

theorem SameText.bytes_ne_nil {units : List UInt16} {bytes : List UInt8} (h : SameText units bytes)
    (hunits : units ≠ []) : bytes ≠ [] := by
  obtain ⟨text, rfl, rfl⟩ := h
  exact utf8_ne_nil fun hnil => hunits (by rw [hnil, utf16_nil])

theorem wellFormed_iff_sameText (units : List UInt16) :
    WellFormed units ↔ ∃ bytes, SameText units bytes :=
  ⟨fun ⟨text, h⟩ => ⟨utf8 text, text, h, rfl⟩, fun ⟨_, text, h, _⟩ => ⟨text, h⟩⟩

end text_encodings
