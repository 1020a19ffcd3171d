import MediaCatalogue.Proofs.Calendar.Rfc3339

/-!
# Reading stored dates and times

The lenient reader has every instant back from its text, in whatever year it lies. Between the fields
it passes over white space, of which there is none in the text; a field it ends at the first character
that is no digit, and after each field such a character has been written. A year of other than four
digits stands behind a sign, and then it may be as long as it is.
-/

set_option autoImplicit false

namespace MediaCatalogue.Rfc3339

/-! ## White space -/

/-- Nothing is skipped in front of what is no white space. -/
theorem skipBlank_cons {c : Char} (hc : Text.isBlank c = false) (rest : List Char) :
    skipBlank (c :: rest) = c :: rest :=
  List.dropWhile_cons_of_neg (by simp [hc])

/-- A digit is no white space. -/
theorem isBlank_of_isDigit {c : Char} (h : c.isDigit = true) : Text.isBlank c = false :=
  (Text.isPlain_of_isDigit h).2

/-- A number begins with a digit. -/
theorem exists_padded_eq_cons (width n : Nat) :
    ∃ c ds, padded width n = c :: ds ∧ c.isDigit = true := by
  have hne : padded width n ≠ [] := by
    simp [padded, Nat.toDigits_ne_nil]
  obtain ⟨c, ds, hcons⟩ := List.exists_cons_of_ne_nil hne
  exact ⟨c, ds, hcons, isDigit_of_mem_padded (hcons ▸ List.mem_cons_self)⟩

/-- Nothing is skipped in front of a number that was written. -/
theorem skipBlank_padded (width n : Nat) (rest : List Char) :
    skipBlank (padded width n ++ rest) = padded width n ++ rest := by
  obtain ⟨c, ds, hcons, hdigit⟩ := exists_padded_eq_cons width n
  rw [hcons, List.cons_append, skipBlank_cons (isBlank_of_isDigit hdigit)]

/-! ## Numbers -/

/-- Digits are read as the number that was written if there are not too many, up to what is no digit. -/
theorem readNumber_padded {most width n : Nat} (hmost : (padded width n).length ≤ most) {c : Char}
    (hc : c.isDigit = false) (rest : List Char) :
    readNumber most (padded width n ++ c :: rest) = .ok (n, c :: rest) := by
  have hstop : ((c :: rest).take (most - (padded width n).length)).takeWhile Char.isDigit = [] := by
    cases most - (padded width n).length with
    | zero => rfl
    | succ k => rw [List.take_succ_cons, List.takeWhile_cons_of_neg (by simp [hc])]
  have hdigits : ((padded width n ++ c :: rest).take most).takeWhile Char.isDigit = padded width n := by
    rw [List.take_append, List.take_of_length_le hmost,
      List.takeWhile_append_of_pos fun d hd => isDigit_of_mem_padded hd, hstop, List.append_nil]
  obtain ⟨d, ds, hcons, -⟩ := exists_padded_eq_cons width n
  have hsome : ¬ (padded width n).isEmpty = true := by simp [hcons]
  simp only [readNumber, hdigits, if_neg hsome, digitsValue_padded, List.drop_left]

/-- A field of two digits is read in front of what is no digit. -/
theorem readField_padded {n : Nat} (hn : n < 100) {c : Char} (hc : c.isDigit = false)
    (rest : List Char) : readField (padded 2 n ++ c :: rest) = .ok (n, c :: rest) := by
  rw [readField, skipBlank_padded, readNumber_padded (length_padded (by decide) hn).le hc]

/-- A year of four digits is read as it is, and another one behind its sign. -/
theorem readYear_yearText (year : Int) (rest : List Char) :
    readYear (skipBlank (yearText year ++ '-' :: rest)) = .ok (year, '-' :: rest) := by
  have hdash : ('-' : Char).isDigit = false := by decide
  have hlong (n : Nat) : readNumber (padded 4 n ++ '-' :: rest).length (padded 4 n ++ '-' :: rest) =
      .ok (n, '-' :: rest) := readNumber_padded (by simp) hdash rest
  rw [yearText]
  split
  · next hfour =>
    obtain ⟨c, ds, hcons, hdigit⟩ := exists_padded_eq_cons 4 year.toNat
    have hread : readNumber 4 (padded 4 year.toNat ++ '-' :: rest) = .ok (year.toNat, '-' :: rest) :=
      readNumber_padded (length_padded (by decide) (by omega)).le hdash rest
    have hvalue : ((year.toNat : Nat) : Int) = year := Int.toNat_of_nonneg hfour.1
    rw [skipBlank_padded]
    rw [hcons, List.cons_append] at hread ⊢
    -- digits have no sign in front
    unfold readYear
    split
    · next heq => exact absurd ((List.cons.inj heq).1 ▸ hdigit) (by decide)
    · next heq => exact absurd ((List.cons.inj heq).1 ▸ hdigit) (by decide)
    · simp only [hread, bind, Except.bind, pure, Except.pure, hvalue]
  · rename_i hother
    split
    · have hvalue : -((year.natAbs : Nat) : Int) = year := by omega
      rw [List.cons_append, skipBlank_cons (by decide)]
      simp only [readYear, hlong, bind, Except.bind, pure, Except.pure, hvalue]
    · have hvalue : ((year.natAbs : Nat) : Int) = year := by omega
      rw [List.cons_append, skipBlank_cons (by decide)]
      simp only [readYear, hlong, bind, Except.bind, pure, Except.pure, hvalue]

/-! ## Instants -/

/-- A text with all its fields in their places is put together from them. -/
theorem parseLenient_fields {date : Date} {hour minute second nanos : Nat} (hdate : date.isValid = true)
    (hhour : hour < 24) (hminute : minute < 60) (hsecond : second < 61) (hnanos : nanos < nanosPerSecond) :
    parseLenient (String.ofList (yearText date.year ++ '-' :: padded 2 date.month ++
        '-' :: padded 2 date.day ++ 'T' :: padded 2 hour ++ ':' :: padded 2 minute ++
        ':' :: padded 2 second ++ fractionText nanos ++ ['Z'])) =
      assemble date hour minute second nanos 0 := by
  obtain ⟨year, month, day⟩ := date
  have hmonth : month < 100 ∧ day < 100 := by
    have hshort := Date.daysInMonth_le year month
    simp only [Date.isValid, Bool.and_eq_true, decide_eq_true_eq] at hdate
    omega
  have hrange : ¬ ((24 ≤ hour ∨ 60 ≤ minute) ∨ 61 ≤ second) := by omega
  have hdash (rest : List Char) : skipBlank ('-' :: rest) = '-' :: rest := skipBlank_cons (by decide) rest
  have hcolon (rest : List Char) : skipBlank (':' :: rest) = ':' :: rest := skipBlank_cons (by decide) rest
  have hletter : skipBlank ['Z'] = ['Z'] := skipBlank_cons (by decide) []
  have hutc : ['Z'] ∈ zones := by simp [zones]
  have hzone : readZone ['Z'] = .ok (0, []) := rfl
  have hend : skipBlank [] = [] := rfl
  simp only [List.append_assoc, List.cons_append, parseLenient, String.toList_ofList, bind, Except.bind,
    pure, Except.pure, readYear_yearText, hdash, hcolon, readChar_self,
    readField_padded hmonth.1 (show ('-' : Char).isDigit = false by decide),
    readField_padded hmonth.2 (show ('T' : Char).isDigit = false by decide),
    readField_padded (show hour < 100 by omega) (show (':' : Char).isDigit = false by decide),
    readField_padded (show minute < 100 by omega) (show (':' : Char).isDigit = false by decide)]
  rcases fractionText_spec hnanos hutc with ⟨rfl, hnone⟩ | ⟨ds, hsome, hread⟩
  · have hlast := readField_padded (show second < 100 by omega) (show ('Z' : Char).isDigit = false by decide) []
    simp [hnone, hlast, hletter, hzone, hend, hrange]
  · have hlast := readField_padded (show second < 100 by omega) (show ('.' : Char).isDigit = false by decide)
      (ds ++ ['Z'])
    simp [hsome, hlast, hread, hletter, hzone, hend, hrange]

/-- **An instant is had back from its text**, whatever its year and be it a leap second. -/
theorem parseLenient_toText (t : Instant) : parseLenient t.toText = .ok t := by
  have hdate : (dateOf t).isValid = true := Date.isValid_ofDays _
  have hnanos : t.nanos % nanosPerSecond < nanosPerSecond := Nat.mod_lt _ (by decide)
  have hrender : render t = zoneless t ++ ['Z'] := by
    rw [zoneless_eq]
    rfl
  rw [Instant.toText, hrender, zoneless_eq, parseLenient_fields hdate (hourOf_lt t) (minuteOf_lt t)
    (secondOf_lt t) hnanos, assemble_fields]

end MediaCatalogue.Rfc3339
