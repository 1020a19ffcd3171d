import MediaCatalogue.Text.Casing
import Mathlib.Data.List.Basic

/-!
# Lower case and ASCII letters

Two ways of passing over the case of letters meet at the keys of vocabularies: one text is brought
to lower case with the full mapping, two are compared by their ASCII letters only. On ASCII texts
they agree. Elsewhere they differ in one letter, since the sign for kelvin is the only other
character with an ASCII letter, `k`, as its lower-case form.
-/

set_option autoImplicit false

namespace MediaCatalogue.Text

/-- All characters of a text are ASCII characters. -/
def IsAscii (s : String) : Prop :=
  ∀ c ∈ s.toList, c.toNat < 128

instance (s : String) : Decidable (IsAscii s) :=
  List.decidableBAll (fun c : Char => c.toNat < 128) s.toList

/-- A text is an ASCII text without capitals. -/
def IsLowerAscii (s : String) : Prop :=
  ∀ c ∈ s.toList, c.toNat < 128 ∧ c.toLower = c

instance (s : String) : Decidable (IsLowerAscii s) :=
  List.decidableBAll (fun c : Char => c.toNat < 128 ∧ c.toLower = c) s.toList

/-! ## Characters -/

/-- The character of a code point has this code point. -/
theorem toNat_ofNat {n : Nat} (h : n.isValidChar) : (Char.ofNat n).toNat = n := by
  rw [Char.ofNat, dif_pos h]
  rfl

/-- The ASCII form of lower case neither leads out of ASCII nor into it. -/
theorem toLower_lt_iff (c : Char) : c.toLower.toNat < 128 ↔ c.toNat < 128 := by
  unfold Char.toLower
  split
  · rename_i h
    have hle : c.toNat ≤ 90 := h.2
    have hsmall : (c.val + ('a'.val - 'A'.val)).toNat < 128 := by
      have hc : c.val.toNat ≤ 90 := hle
      rw [UInt32.toNat_add]
      have : ('a'.val - 'A'.val).toNat = 32 := by decide
      omega
    exact ⟨fun _ => by omega, fun _ => hsmall⟩
  · exact Iff.rfl

/-- Where the spans of the lower-case table lead from outside ASCII: to a character outside ASCII,
or from the sign for kelvin to `k`. -/
theorem lowerSpans_spec :
    ∀ s ∈ lowerSpans, s.last < 128 ∨ (s.first = 8490 ∧ s.last = 8490 ∧ s.shift = -8383) ∨
      (128 ≤ s.first ∧ 128 ≤ (s.first : Int) + s.shift ∧
        ((s.last : Int) + s.shift < 0xd800 ∨
          (0xdfff < (s.first : Int) + s.shift ∧ (s.last : Int) + s.shift < 0x110000))) := by
  decide +kernel

/-- The table of lower case leads from outside ASCII to `k`, or to a character outside ASCII. -/
theorem mapBySpans_lowerSpans (n : Nat) (h : 128 ≤ n) (hn : n.isValidChar) :
    mapBySpans lowerSpans n = 107 ∨
      (128 ≤ mapBySpans lowerSpans n ∧ (mapBySpans lowerSpans n).isValidChar) := by
  unfold mapBySpans
  cases hfind : lowerSpans.find? (·.covers n) with
  | none => exact Or.inr ⟨h, hn⟩
  | some s =>
    have hcovers := List.find?_some hfind
    simp only [Span.covers, Bool.and_eq_true, decide_eq_true_eq] at hcovers
    obtain ⟨⟨hfirst, hlast⟩, -⟩ := hcovers
    simp only [Nat.isValidChar]
    rcases lowerSpans_spec s (List.mem_of_find?_eq_some hfind) with hs | ⟨hs, hl, hshift⟩ | ⟨-, hs, hr⟩
    · omega
    · exact Or.inl (by omega)
    · exact Or.inr (by omega)

/-- No character outside ASCII becomes ASCII characters in lower case, but for one that becomes `k`.
-/
theorem ascii_of_lowerChar {c : Char} (h : ∀ d ∈ lowerChar c, d.toNat < 128 ∧ d ≠ 'k') :
    c.toNat < 128 := by
  by_contra hc
  unfold lowerChar at h
  rw [if_neg hc] at h
  split at h
  · have := (h (Char.ofNat 0x307) (by simp)).1
    exact absurd this (by decide)
  · have hvalid : c.toNat.isValidChar := c.valid
    obtain ⟨hlt, hk⟩ := h _ (List.mem_singleton.2 rfl)
    rcases mapBySpans_lowerSpans c.toNat (by omega) hvalid with he | ⟨hge, hv⟩
    · rw [he] at hk
      exact hk (by decide)
    · rw [toNat_ofNat hv] at hlt
      omega

/-! ## Texts -/

/-- ASCII characters are put in lower case one by one, whatever stands before them. -/
theorem lowerFrom_of_ascii (before cs : List Char) (h : ∀ c ∈ cs, c.toNat < 128) :
    lowerFrom before cs = cs.map Char.toLower := by
  induction cs generalizing before with
  | nil => rfl
  | cons c cs ih =>
    obtain ⟨hc, hcs⟩ := List.forall_mem_cons.1 h
    have hsigma : c ≠ 'Σ' := by
      rintro rfl
      exact absurd hc (by decide)
    simp [lowerFrom, hsigma, lowerChar, hc, ih _ hcs]

/-- Characters with ASCII forms in lower case, none of them `k`, are ASCII characters. -/
theorem ascii_of_lowerFrom (before cs : List Char)
    (h : ∀ d ∈ lowerFrom before cs, d.toNat < 128 ∧ d ≠ 'k') : ∀ c ∈ cs, c.toNat < 128 := by
  induction cs generalizing before with
  | nil => simp
  | cons c cs ih =>
    simp only [lowerFrom, List.forall_mem_append] at h
    obtain ⟨hhere, hrest⟩ := h
    refine List.forall_mem_cons.2 ⟨?_, ih _ hrest⟩
    split at hhere
    · have hfinal := (hhere _ (List.mem_singleton.2 rfl)).1
      split at hfinal <;> exact absurd hfinal (by decide)
    · exact ascii_of_lowerChar hhere

/-- A text is put in lower case with nothing before it. -/
theorem lower_toList (s : String) : (lower s).toList = lowerFrom [] s.toList := by
  simp [lower]

/-- An ASCII text is put in lower case character by character. -/
theorem lower_of_ascii {s : String} (h : IsAscii s) : (lower s).toList = s.toList.map Char.toLower := by
  rw [lower_toList, lowerFrom_of_ascii [] s.toList h]

/-- On ASCII texts the two ways of passing over case agree. -/
theorem lower_eq_iff_of_ascii {name key : String} (hname : IsAscii name) (hkey : IsLowerAscii key) :
    lower name = key ↔ equalIgnoringAsciiCase name key = true := by
  have hmap : key.toList.map Char.toLower = key.toList :=
    (List.map_congr_left fun c hc => (hkey c hc).2).trans (List.map_id _)
  rw [equalIgnoringAsciiCase, beq_iff_eq, hmap, ← lower_of_ascii hname]
  exact String.toList_inj.symm

/-- What is equal to an ASCII text but for case is an ASCII text. -/
theorem ascii_of_equalIgnoringAsciiCase {name key : String} (hkey : IsLowerAscii key)
    (h : equalIgnoringAsciiCase name key = true) : IsAscii name := by
  intro c hc
  rw [equalIgnoringAsciiCase, beq_iff_eq] at h
  have hmem : c.toLower ∈ key.toList.map Char.toLower := h ▸ List.mem_map_of_mem hc
  obtain ⟨d, hd, heq⟩ := List.mem_map.1 hmem
  rw [← toLower_lt_iff, ← heq, toLower_lt_iff]
  exact (hkey d hd).1

/-- What has an ASCII text without `k` as its lower-case form is an ASCII text. -/
theorem ascii_of_lower_eq {name key : String} (hkey : IsLowerAscii key) (hk : 'k' ∉ key.toList)
    (h : lower name = key) : IsAscii name := by
  refine ascii_of_lowerFrom [] name.toList fun d hd => ?_
  rw [← lower_toList, h] at hd
  exact ⟨(hkey d hd).1, fun he => hk (he ▸ hd)⟩

end MediaCatalogue.Text
