import MediaCatalogue.Proofs.Text.Split

/-!
# Numbers and their digits

A whole number of 64 bits is had back from its decimal digits, with a sign in front if it is negative. Such
a text has no comma and no white space, so it can stand in a list with commas.
-/

set_option autoImplicit false

namespace MediaCatalogue.Text

/-! ## Digits -/

/-- The value of digits is the one that the core library gives them. -/
theorem digitsValue_eq_ofDigitChars (ds : List Char) : digitsValue ds = Nat.ofDigitChars 10 ds 0 :=
  rfl

/-- The digits of a number have its value. -/
theorem digitsValue_toDigits (n : Nat) : digitsValue (Nat.toDigits 10 n) = n := by
  rw [digitsValue_eq_ofDigitChars, Nat.ofDigitChars_ten_toDigits]

/-- A number is written in digits. -/
theorem isDigit_of_mem_toDigits {n : Nat} {c : Char} (h : c ∈ Nat.toDigits 10 n) : c.isDigit = true :=
  Nat.isDigit_of_mem_toDigits (by decide) (by decide) h

/-- A digit is neither a comma nor white space. -/
theorem isPlain_of_isDigit {c : Char} (h : c.isDigit = true) : IsPlain c := by
  have hrange : 48 ≤ c.toNat ∧ c.toNat ≤ 57 := by
    simpa [Char.isDigit, UInt32.le_iff_toNat_le] using h
  constructor
  · rintro rfl
    simp at h
  · simp [isBlank, inRanges, blankRanges]
    omega

/-! ## Whole numbers -/

/-- Digits of a number within the limit are read as the number. -/
theorem readUpTo_toDigits {limit n : Nat} (h : n ≤ limit) (beyond : NumeralError) :
    readUpTo limit beyond (Nat.toDigits 10 n) = .ok n := by
  have htake : (Nat.toDigits 10 n).takeWhile Char.isDigit = Nat.toDigits 10 n :=
    List.takeWhile_eq_self_iff.2 fun c hc => isDigit_of_mem_toDigits hc
  simp only [readUpTo, htake, digitsValue_toDigits]
  rw [if_neg (by omega), if_neg (by simp)]

/-- The characters of a number: its digits, with a sign in front if it is negative. -/
theorem toList_toString (n : Int) :
    (toString n).toList =
      if 0 ≤ n then Nat.toDigits 10 n.toNat else '-' :: Nat.toDigits 10 (-n).toNat := by
  rw [Int.toString_eq_repr, Int.repr_eq_if]
  split <;> simp [Nat.repr_eq_ofList_toDigits]

/-- A number of 64 bits is had back from its text. -/
theorem readInt64_toString (n : Int64) : readInt64 (toString n) = .ok n := by
  have hlower : -9223372036854775808 ≤ n.toInt := n.le_toInt
  have hupper : n.toInt ≤ 9223372036854775807 := Int.le_of_lt_add_one n.toInt_lt
  have hchars : (toString n).toList = _ := toList_toString n.toInt
  rw [readInt64, hchars]
  by_cases hsign : 0 ≤ n.toInt
  · rw [if_pos hsign]
    have hread : readUpTo 9223372036854775807 .tooLarge (Nat.toDigits 10 n.toInt.toNat) =
        .ok n.toInt.toNat := readUpTo_toDigits (by omega) .tooLarge
    -- digits have no sign in front
    split
    · next cs hcs => exact absurd (isDigit_of_mem_toDigits (hcs ▸ List.mem_cons_self)) (by decide)
    · next cs hcs => exact absurd (isDigit_of_mem_toDigits (hcs ▸ List.mem_cons_self)) (by decide)
    · have hvalue : ((n.toInt.toNat : Nat) : Int) = n.toInt := Int.toNat_of_nonneg hsign
      simp only [hread, bind, Except.bind, pure, Except.pure, Except.map, hvalue, Int64.ofInt_toInt]
  · rw [if_neg hsign]
    have hread : readUpTo 9223372036854775808 .tooSmall (Nat.toDigits 10 (-n.toInt).toNat) =
        .ok (-n.toInt).toNat := readUpTo_toDigits (by omega) .tooSmall
    have hvalue : -(((-n.toInt).toNat : Nat) : Int) = n.toInt := by omega
    simp only [hread, bind, Except.bind, pure, Except.pure, Except.map, hvalue, Int64.ofInt_toInt]

/-- A whole number can stand in a list. -/
theorem isListed_toString (n : Int64) : IsListed (toString n) := by
  have hchars : (toString n).toList = _ := toList_toString n.toInt
  apply isListed_of_forall
  · intro hempty
    rw [hempty] at hchars
    split at hchars
    · exact Nat.toDigits_ne_nil hchars.symm
    · cases hchars
  · intro c hc
    rw [hchars] at hc
    split at hc
    · exact isPlain_of_isDigit (isDigit_of_mem_toDigits hc)
    · rcases List.mem_cons.1 hc with rfl | hc
      · decide
      · exact isPlain_of_isDigit (isDigit_of_mem_toDigits hc)

end MediaCatalogue.Text
