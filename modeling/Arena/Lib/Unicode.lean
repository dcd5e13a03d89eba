/-
Code units and scalar values.

A JavaScript string is a list of 16-bit code units, which need not pair its surrogates. `scalars` reads such a list as
Unicode scalar values, a lone surrogate as U+FFFD, the way a string is converted before it is encoded; `utf8` is that
reading in UTF-8.

- `scalars_utf16`: a string of scalar values comes back from its code units;
- `utf16_injective`, `unitKey_injective`: so the code units tell such strings apart;
- `utf8_utf16`: the UTF-8 of its code units is the string's own;
- `utf8_ascii_iff`: a text of ASCII codes has the same codes in code units and in bytes.
-/
import Arena.Lib.JsArray

namespace Arena.Lib

/-! ## Surrogates -/

def IsLead (u : UInt16) : Prop := 0xD800 ≤ u.toNat ∧ u.toNat < 0xDC00

def IsTrail (u : UInt16) : Prop := 0xDC00 ≤ u.toNat ∧ u.toNat < 0xE000

instance (u : UInt16) : Decidable (IsLead u) := inferInstanceAs (Decidable (_ ∧ _))

instance (u : UInt16) : Decidable (IsTrail u) := inferInstanceAs (Decidable (_ ∧ _))

/-- U+FFFD -/
def replacementChar : Char := '\uFFFD'

/-- a code unit on its own -/
def unitChar (u : UInt16) : Char := if IsLead u ∨ IsTrail u then replacementChar else Char.ofNat u.toNat

/-- the code point of a surrogate pair -/
def pairPoint (u v : UInt16) : ℕ := 0x10000 + (u.toNat - 0xD800) * 0x400 + (v.toNat - 0xDC00)

/-- the scalar values of a list of code units -/
def scalars : List UInt16 → List Char
  | [] => []
  | [u] => [unitChar u]
  | u :: v :: us =>
    if IsLead u ∧ IsTrail v then Char.ofNat (pairPoint u v) :: scalars us else unitChar u :: scalars (v :: us)

/-- the UTF-8 encoding of a list of code units -/
def utf8 (units : List UInt16) : List UInt8 := (scalars units).flatMap String.utf8EncodeChar

/-! ## Reading one character -/

theorem toNat_ofNat {n : ℕ} (h : n.isValidChar) : (Char.ofNat n).toNat = n := by
  unfold Char.ofNat
  rw [dif_pos h]
  rfl

theorem isValidChar_unit {u : UInt16} (h : ¬(IsLead u ∨ IsTrail u)) : u.toNat.isValidChar := by
  simp only [IsLead, IsTrail] at h
  have := u.toNat_lt
  unfold Nat.isValidChar
  omega

theorem isValidChar_pairPoint {u v : UInt16} (hu : IsLead u) (hv : IsTrail v) : (pairPoint u v).isValidChar := by
  simp only [IsLead, IsTrail] at hu hv
  unfold Nat.isValidChar pairPoint
  omega

theorem unitChar_toNat {u : UInt16} (h : ¬(IsLead u ∨ IsTrail u)) : (unitChar u).toNat = u.toNat := by
  rw [unitChar, if_neg h, toNat_ofNat (isValidChar_unit h)]

/-- a unit that begins no pair is read on its own -/
theorem scalars_cons {u : UInt16} (us : List UInt16) (h : ¬IsLead u) :
    scalars (u :: us) = unitChar u :: scalars us := by
  cases us with
  | nil => rfl
  | cons v us => rw [scalars, if_neg fun hp => h hp.1]

/-- a character comes back from its code units -/
theorem scalars_utf16Char (c : Char) (us : List UInt16) : scalars (utf16Char c ++ us) = c :: scalars us := by
  have hvalid : c.toNat < 0xD800 ∨ 0xDFFF < c.toNat ∧ c.toNat < 0x110000 := by
    have h := c.valid
    simp only [UInt32.isValidChar, Nat.isValidChar] at h
    exact h
  by_cases hc : c.toNat < 0x10000
  · have hnat : (UInt16.ofNat c.toNat).toNat = c.toNat := UInt16.toNat_ofNat_of_lt' hc
    have hlone : ¬(IsLead (UInt16.ofNat c.toNat) ∨ IsTrail (UInt16.ofNat c.toNat)) := by
      simp only [IsLead, IsTrail, hnat]
      omega
    have hchar : unitChar (UInt16.ofNat c.toNat) = c := by
      rw [unitChar, if_neg hlone, hnat, Char.ofNat_toNat]
    simp only [utf16Char, if_pos hc, List.singleton_append]
    rw [scalars_cons us fun hl => hlone (Or.inl hl), hchar]
  · have hsize : UInt16.size = 65536 := rfl
    have hoffset : (c.toNat - 0x10000) / 0x400 < 0x400 := by omega
    have hlead : (UInt16.ofNat (0xD800 + (c.toNat - 0x10000) / 0x400)).toNat = 0xD800 + (c.toNat - 0x10000) / 0x400 :=
      UInt16.toNat_ofNat_of_lt' (by omega)
    have htrail : (UInt16.ofNat (0xDC00 + (c.toNat - 0x10000) % 0x400)).toNat = 0xDC00 + (c.toNat - 0x10000) % 0x400 :=
      UInt16.toNat_ofNat_of_lt' (by omega)
    have hpoint : pairPoint (UInt16.ofNat (0xD800 + (c.toNat - 0x10000) / 0x400))
        (UInt16.ofNat (0xDC00 + (c.toNat - 0x10000) % 0x400)) = c.toNat := by
      unfold pairPoint
      rw [hlead, htrail, Nat.add_sub_cancel_left, Nat.add_sub_cancel_left, Nat.add_assoc, Nat.mul_comm,
        Nat.div_add_mod, Nat.add_sub_cancel' (Nat.le_of_not_lt hc)]
    simp only [utf16Char, if_neg hc, List.cons_append, List.nil_append, scalars, hpoint, Char.ofNat_toNat]
    rw [if_pos]
    simp only [IsLead, IsTrail, hlead, htrail]
    omega

/-! ## Strings -/

/-- **A string of scalar values comes back from its code units.** -/
theorem scalars_utf16 (s : String) : scalars (utf16 s) = s.toList := by
  unfold utf16
  induction s.toList with
  | nil => rfl
  | cons c cs ih => rw [List.flatMap_cons, scalars_utf16Char, ih]

theorem utf16_injective : Function.Injective utf16 := by
  intro a b h
  have hlist : a.toList = b.toList := by rw [← scalars_utf16, h, scalars_utf16]
  exact String.toList_inj.1 hlist

theorem unitKey_injective : Function.Injective unitKey := by
  intro a b h
  exact utf16_injective (List.map_injective_iff.2 (fun x y hxy => UInt16.toNat.inj hxy) h)

/-- the encoding of a string's code units is the string's own -/
theorem utf8_utf16 (s : String) : (utf8 (utf16 s)).toByteArray = s.toUTF8 := by
  rw [utf8, scalars_utf16, String.toUTF8_eq_toByteArray]
  conv_rhs => rw [← String.ofList_toList (s := s), String.toByteArray_ofList]
  rfl

/-! ## ASCII -/

theorem utf8EncodeChar_ascii {c : Char} (h : c.toNat < 128) : String.utf8EncodeChar c = [UInt8.ofNat c.toNat] := by
  unfold String.utf8EncodeChar
  exact if_pos (Nat.le_of_lt_succ h)

theorem utf8EncodeChar_not_ascii {c : Char} (h : 128 ≤ c.toNat) :
    ∃ b ∈ String.utf8EncodeChar c, 128 ≤ b.toNat := by
  have hv : ¬c.val.toNat ≤ 0x7f := by
    change ¬c.toNat ≤ 0x7f
    omega
  unfold String.utf8EncodeChar
  simp only [if_neg hv]
  split_ifs
  · exact ⟨_, List.mem_cons_self, by simp only [UInt8.toNat_ofNat']; omega⟩
  · exact ⟨_, List.mem_cons_self, by simp only [UInt8.toNat_ofNat']; omega⟩
  · exact ⟨_, List.mem_cons_self, by simp only [UInt8.toNat_ofNat']; omega⟩

theorem utf8_cons_ascii {u : UInt16} (h : u.toNat < 128) (us : List UInt16) :
    utf8 (u :: us) = UInt8.ofNat u.toNat :: utf8 us := by
  have hlone : ¬(IsLead u ∨ IsTrail u) := by
    simp only [IsLead, IsTrail]
    omega
  rw [utf8, scalars_cons us fun hl => hlone (Or.inl hl), List.flatMap_cons,
    utf8EncodeChar_ascii (by rwa [unitChar_toNat hlone]), unitChar_toNat hlone]
  rfl

theorem le_pairPoint (u v : UInt16) : 128 ≤ pairPoint u v := by
  unfold pairPoint
  omega

/-- a unit that is not ASCII leaves a byte that is not -/
theorem utf8_cons_not_ascii {u : UInt16} (h : 128 ≤ u.toNat) (us : List UInt16) :
    ∃ b ∈ utf8 (u :: us), 128 ≤ b.toNat := by
  have first : ∀ (c : Char) (cs : List Char), 128 ≤ c.toNat →
      ∃ b ∈ (c :: cs).flatMap String.utf8EncodeChar, 128 ≤ b.toNat := by
    intro c cs hc
    obtain ⟨b, hb, hge⟩ := utf8EncodeChar_not_ascii hc
    exact ⟨b, by rw [List.flatMap_cons]; exact List.mem_append_left _ hb, hge⟩
  have hunit : 128 ≤ (unitChar u).toNat := by
    by_cases hlone : IsLead u ∨ IsTrail u
    · rw [unitChar, if_pos hlone]
      decide
    · rwa [unitChar_toNat hlone]
  cases us with
  | nil => exact first _ [] hunit
  | cons v us =>
    rw [utf8, scalars]
    split_ifs with hpair
    · have hread := toNat_ofNat (isValidChar_pairPoint hpair.1 hpair.2)
      exact first (Char.ofNat (pairPoint u v)) (scalars us) (Nat.le_trans (le_pairPoint u v) (Nat.le_of_eq hread.symm))
    · exact first _ _ hunit

/-- **ASCII.** A text of ASCII codes has the same codes in code units and in bytes. -/
theorem utf8_ascii_iff {codes : List ℕ} (h : ∀ c ∈ codes, c < 128) (us : List UInt16) :
    (utf8 us).map UInt8.toNat = codes ↔ us.map UInt16.toNat = codes := by
  induction us generalizing codes with
  | nil => exact Iff.rfl
  | cons u us ih =>
    by_cases hu : u.toNat < 128
    · have hbyte : (UInt8.ofNat u.toNat).toNat = u.toNat := by
        rw [UInt8.toNat_ofNat']
        omega
      rw [utf8_cons_ascii hu, List.map_cons, List.map_cons, hbyte]
      cases codes with
      | nil => simp
      | cons c codes =>
        rw [List.cons_eq_cons, List.cons_eq_cons, ih fun d hd => h d (List.mem_cons_of_mem c hd)]
    · obtain ⟨b, hb, hge⟩ := utf8_cons_not_ascii (Nat.le_of_not_lt hu) us
      constructor
      · intro hcodes
        exact absurd (h _ (hcodes ▸ List.mem_map_of_mem hb)) (Nat.not_lt.2 hge)
      · intro hcodes
        exact absurd (h _ (hcodes ▸ List.mem_cons_self)) hu

theorem utf16Char_ascii {c : Char} (h : c.toNat < 128) : utf16Char c = [UInt16.ofNat c.toNat] :=
  if_pos (lt_trans h (by decide))

theorem utf16Char_not_ascii {c : Char} (h : 128 ≤ c.toNat) : ∃ u ∈ utf16Char c, 128 ≤ u.toNat := by
  unfold utf16Char
  dsimp only
  split_ifs
  · exact ⟨_, List.mem_cons_self, by simp only [UInt16.toNat_ofNat']; omega⟩
  · have hvalid : c.toNat < 0xD800 ∨ 0xDFFF < c.toNat ∧ c.toNat < 0x110000 := c.valid
    exact ⟨_, List.mem_cons_self, by simp only [UInt16.toNat_ofNat']; omega⟩

/-- a string of ASCII codes has the same codes in characters and in code units -/
theorem utf16_ascii_iff {codes : List ℕ} (h : ∀ c ∈ codes, c < 128) (s : String) :
    (utf16 s).map UInt16.toNat = codes ↔ s.toList.map Char.toNat = codes := by
  unfold utf16
  induction s.toList generalizing codes with
  | nil => exact Iff.rfl
  | cons c cs ih =>
    rw [List.flatMap_cons, List.map_append, List.map_cons]
    by_cases hc : c.toNat < 128
    · have hunit : (UInt16.ofNat c.toNat).toNat = c.toNat := by
        rw [UInt16.toNat_ofNat']
        omega
      rw [utf16Char_ascii hc, List.map_singleton, hunit, List.singleton_append]
      cases codes with
      | nil => simp
      | cons d codes =>
        rw [List.cons_eq_cons, List.cons_eq_cons, ih fun e he => h e (List.mem_cons_of_mem d he)]
    · obtain ⟨u, hu, hge⟩ := utf16Char_not_ascii (Nat.le_of_not_lt hc)
      constructor
      · intro hcodes
        exact absurd (h _ (hcodes ▸ List.mem_append_left _ (List.mem_map_of_mem hu))) (Nat.not_lt.2 hge)
      · intro hcodes
        exact absurd (h _ (hcodes ▸ List.mem_cons_self)) hc

end Arena.Lib
