import MediaCatalogue.Json.Reader
import MediaCatalogue.Json.Writer
import MediaCatalogue.Proofs.Text.Numeral
import Mathlib.Data.List.TakeDrop

/-!
# Reading texts and numbers as they are printed

A quoted text ends at the first quote that no backslash stands before, and every quote within has been
given one. A number ends where the digits do, if neither a fraction nor an exponent follows; so what
stands behind it matters, and it is the comma, the bracket or the white space of the layout.
-/

set_option autoImplicit false

namespace MediaCatalogue.Json

/-! ## Quoted texts -/

section

variable (done rest : List Char)

/-- A quote ends the text. -/
theorem readString_quote : readString done ('"' :: rest) = some (String.ofList done.reverse, rest) := by
  rw [readString]

/-- A letter behind a backslash, other than the one that announces a number. -/
theorem readString_escaped {letter c : Char} (hletter : letter ≠ 'u') (h : escaped? letter = some c) :
    readString done ('\\' :: letter :: rest) = readString (c :: done) rest := by
  rw [readString, h]
  · exact fun _ _ _ _ _ _ _ _ _ hu _ => hletter hu
  · exact fun _ _ _ _ _ hu _ => hletter hu

/-- The number of a character that is no surrogate. Another number behind it is looked at, but not taken. -/
theorem readString_unit {a b c d : Char} {unit : Nat} (hunit : unit < 0xd800)
    (h : hexUnit? a b c d = some unit) :
    readString done ('\\' :: 'u' :: a :: b :: c :: d :: rest) = readString (Char.ofNat unit :: done) rest := by
  have hhigh : ¬ (0xd800 ≤ unit ∧ unit < 0xdc00) := by omega
  have hlow : ¬ (0xdc00 ≤ unit ∧ unit < 0xe000) := by omega
  have hnone : ¬ (0xd800 ≤ unit ∧ unit < 0xe000) := by omega
  by_cases hmore : ∃ e f g i more, rest = '\\' :: 'u' :: e :: f :: g :: i :: more
  · obtain ⟨e, f, g, i, more, rfl⟩ := hmore
    rw [readString]
    simp only [h, if_neg hhigh, if_neg hlow]
  · rw [readString]
    · simp only [h, if_neg hnone]
    · exact fun e f g i more heq => hmore ⟨e, f, g, i, more, heq⟩

/-- A character that needs no backslash stands for itself. -/
theorem readString_plain {c : Char} (hquote : c ≠ '"') (hslash : c ≠ '\\') (hcontrol : ¬ c.toNat < 32) :
    readString done (c :: rest) = readString (c :: done) rest := by
  rw [readString, if_neg (by simp [hcontrol, hslash])]
  all_goals simp [hquote, hslash]

/-- The number of a control character is read back from its four digits. -/
theorem hexUnit?_hexDigit {n : Nat} (h : n < 32) :
    hexUnit? '0' '0' (hexDigit (n / 16)) (hexDigit n) = some n := by
  revert n
  decide

/-- A character is read back from the form in which it stands in a quoted text. -/
theorem readString_escapeChar (c : Char) :
    readString done (escapeChar c ++ rest) = readString (c :: done) rest := by
  have hletter {n : Nat} (h : c.toNat = n) : some (Char.ofNat n) = some c := by rw [← h, Char.ofNat_toNat]
  rw [escapeChar]
  split_ifs with hquote hslash hline hreturn htab hback hfeed hcontrol
  · exact readString_escaped done rest (by decide) (by rw [hquote]; rfl)
  · exact readString_escaped done rest (by decide) (by rw [hslash]; rfl)
  · exact readString_escaped done rest (by decide) (by rw [hline]; rfl)
  · exact readString_escaped done rest (by decide) (by rw [hreturn]; rfl)
  · exact readString_escaped done rest (by decide) (by rw [htab]; rfl)
  · exact readString_escaped done rest (by decide) (hletter hback)
  · exact readString_escaped done rest (by decide) (hletter hfeed)
  · exact (readString_unit done rest (by omega) (hexUnit?_hexDigit hcontrol)).trans (by rw [Char.ofNat_toNat])
  · exact readString_plain done rest hquote hslash hcontrol

end

/-- A quoted text is read back after its opening quote. -/
theorem readString_escape (s : String) (rest : List Char) :
    readString [] (s.toList.flatMap escapeChar ++ '"' :: rest) = some (s, rest) := by
  have hread (cs done : List Char) : readString done (cs.flatMap escapeChar ++ '"' :: rest) =
      some (String.ofList (done.reverse ++ cs), rest) := by
    induction cs generalizing done with
    | nil => rw [List.flatMap_nil, List.nil_append, readString_quote, List.append_nil]
    | cons c cs ih =>
      rw [List.flatMap_cons, List.append_assoc, readString_escapeChar, ih, List.reverse_cons,
        List.append_assoc, List.singleton_append]
  rw [hread, List.reverse_nil, List.nil_append, String.ofList_toList]

/-- A quoted text is its escaped characters between quotes. -/
theorem toList_quote (s : String) : (quote s).toList = '"' :: s.toList.flatMap escapeChar ++ ['"'] := by
  rw [quote, String.toList_ofList]

/-! ## Numbers -/

/-- What may stand behind a number: nothing that goes on with it. -/
def EndsNumber (rest : List Char) : Prop :=
  ∀ c ∈ rest.head?, c.isDigit = false ∧ c ≠ '.' ∧ c ≠ 'e' ∧ c ≠ 'E'

/-- The first digit of a number is no zero, unless it is the only one. -/
theorem toDigits_begins (n : Nat) :
    ∃ d ds, Nat.toDigits 10 n = d :: ds ∧ d.isDigit = true ∧ (0 < ds.length → d ≠ '0') := by
  have hdigit : ∀ n < 10, 0 < n → n.digitChar ≠ '0' := by decide
  have hpositive (n : Nat) : 0 < n → ∃ d ds, Nat.toDigits 10 n = d :: ds ∧ d ≠ '0' := by
    induction n using Nat.strongRecOn with
    | ind n ih =>
      intro hn
      rw [Nat.toDigits_eq_if (by decide)]
      split
      next hsmall =>
        exact ⟨n.digitChar, [], rfl, hdigit n hsmall hn⟩
      next hlarge =>
        obtain ⟨d, ds, hcons, hd⟩ := ih (n / 10) (by omega) (by omega)
        exact ⟨d, ds ++ [(n % 10).digitChar], by rw [hcons]; rfl, hd⟩
  rcases Nat.eq_zero_or_pos n with rfl | hn
  · exact ⟨'0', [], rfl, rfl, fun h => absurd h (by decide)⟩
  · obtain ⟨d, ds, hcons, hd⟩ := hpositive n hn
    exact ⟨d, ds, hcons, Text.isDigit_of_mem_toDigits (hcons ▸ List.mem_cons_self), fun _ => hd⟩

section

variable {rest : List Char} (hrest : EndsNumber rest)

include hrest

/-- The digits of a number are taken up to what ends it. -/
theorem spanDigits_toDigits (n : Nat) :
    spanDigits (Nat.toDigits 10 n ++ rest) = (Nat.toDigits 10 n, rest) := by
  have hstop : rest.takeWhile Char.isDigit = [] ∧ rest.dropWhile Char.isDigit = rest := by
    cases rest with
    | nil => exact ⟨rfl, rfl⟩
    | cons c rest => simp [(hrest c rfl).1]
  have hdigits : ∀ c ∈ Nat.toDigits 10 n, c.isDigit = true := fun c hc => Text.isDigit_of_mem_toDigits hc
  rw [spanDigits, List.span_eq_takeWhile_dropWhile, List.takeWhile_append_of_pos hdigits,
    List.dropWhile_append_of_pos hdigits, hstop.1, hstop.2, List.append_nil]

/-- What ends a number begins no fraction. -/
theorem readFraction_none : readFraction rest = some ([], rest) := by
  rw [readFraction.eq_def]
  split
  · exact absurd rfl (hrest '.' rfl).2.1
  · rfl

/-- What ends a number begins no exponent. -/
theorem readExponent_none : readExponent rest = some (false, 0, rest) := by
  cases rest with
  | nil => rfl
  | cons c rest =>
    obtain ⟨-, -, hlower, hupper⟩ := hrest c rfl
    simp [readExponent, hlower, hupper]

/-- A number without a sign is read back. -/
theorem readNumber_toDigits {n : Nat} (hn : fitsWord n = true) :
    readNumber (Nat.toDigits 10 n ++ rest) = some (.int n, rest) := by
  have hspan := spanDigits_toDigits hrest n
  have hvalue := Text.digitsValue_toDigits n
  obtain ⟨d, ds, hcons, hdigit, hzero⟩ := toDigits_begins n
  have hunsigned : d ≠ '-' := by
    rintro rfl
    cases hdigit
  rw [hcons] at hspan hvalue ⊢
  rw [List.cons_append] at hspan ⊢
  simpa [readNumber, hunsigned, hspan, hvalue, readFraction_none hrest, readExponent_none hrest, hn]
    using hzero

/-- A number with a minus sign is read back, unless it is zero. -/
theorem readNumber_neg_toDigits {n : Nat} (hn : fitsWord (-n) = true) (hpos : 0 < n) :
    readNumber ('-' :: Nat.toDigits 10 n ++ rest) = some (.int (-n), rest) := by
  have hspan := spanDigits_toDigits hrest n
  have hvalue := Text.digitsValue_toDigits n
  obtain ⟨d, ds, hcons, -, hzero⟩ := toDigits_begins n
  rw [hcons] at hspan hvalue ⊢
  rw [List.cons_append] at hspan
  simpa [readNumber, hspan, hvalue, readFraction_none hrest, readExponent_none hrest, hn, hpos.ne']
    using hzero

/-- A whole number of a word is read back, if what follows does not go on with it. -/
theorem readNumber_toString {n : Int} (hn : fitsWord n = true) :
    readNumber ((toString n).toList ++ rest) = some (.int n, rest) := by
  rw [Text.toList_toString]
  split
  next hsign =>
    have hvalue : ((n.toNat : Nat) : Int) = n := Int.toNat_of_nonneg hsign
    rw [readNumber_toDigits hrest (by rwa [hvalue]), hvalue]
  next hsign =>
    have hvalue : -(((-n).toNat : Nat) : Int) = n := by omega
    rw [readNumber_neg_toDigits hrest (by rwa [hvalue]) (by omega), hvalue]

end

end MediaCatalogue.Json
