import MediaCatalogue.Proofs.Calendar.Date
import MediaCatalogue.Proofs.Text.Numeral

/-!
# Reading dates and times as they are written

The strict reader has every instant of the years 0 to 9999 back from its text. The fields of the text have
fixed widths, so a field is read as the number that was written, whatever follows it; a fraction ends where
the zone begins, since that is no digit. The date of the day is one of the calendar, and its days with the
seconds of the time of day are the seconds of the instant again. Only the seconds of a leap second are
written as 60, and then the second before it has nanoseconds past the thousand millionth.
-/

set_option autoImplicit false

namespace MediaCatalogue.Rfc3339

/-! ## Digits in front of which zeros stand -/

/-- A number is written in digits only. -/
theorem isDigit_of_mem_padded {width n : Nat} {c : Char} (h : c ∈ padded width n) : c.isDigit = true := by
  rcases List.mem_append.1 h with h | h
  · rw [List.eq_of_mem_replicate h]
    rfl
  · exact Text.isDigit_of_mem_toDigits h

/-- Zeros in front do not change the value. -/
theorem digitsValue_padded (width n : Nat) : Text.digitsValue (padded width n) = n := by
  rw [Text.digitsValue_eq_ofDigitChars, padded, Nat.ofDigitChars_append, Nat.ofDigitChars_replicate_zero,
    Nat.mul_zero, Nat.ofDigitChars_ten_toDigits]

/-- A number that fits its width is written in just that width. -/
theorem length_padded {width n : Nat} (hwidth : 0 < width) (hn : n < 10 ^ width) :
    (padded width n).length = width := by
  have hdigits := (Nat.length_toDigits_le_iff (by decide : 1 < 10) hwidth).2 hn
  rw [padded, List.length_append, List.length_replicate]
  omega

/-- The last digit of a number stands behind the others. -/
theorem padded_succ {width : Nat} (hwidth : 0 < width) (n : Nat) :
    padded (width + 1) n = padded width (n / 10) ++ [Nat.digitChar (n % 10)] := by
  by_cases hn : n < 10
  · have hzeros : List.replicate width '0' = List.replicate (width - 1) '0' ++ ['0'] := by
      rw [← List.replicate_succ', Nat.sub_add_cancel hwidth]
    simp [padded, Nat.toDigits_of_lt_base hn, Nat.div_eq_of_lt hn, Nat.mod_eq_of_lt hn, hzeros]
  · have hdigits : Nat.toDigits 10 n = Nat.toDigits 10 (n / 10) ++ [Nat.digitChar (n % 10)] := by
      rw [Nat.toDigits_eq_if (by decide), if_neg hn]
    simp [padded, hdigits]

/-- A number below a hundred is written as its tens and its units. -/
theorem padded_two {n : Nat} (hn : n < 100) :
    padded 2 n = [Nat.digitChar (n / 10), Nat.digitChar (n % 10)] := by
  have hone : padded 1 (n / 10) = [Nat.digitChar (n / 10)] := by
    rw [padded, Nat.toDigits_of_lt_base (by omega)]
    rfl
  rw [padded_succ (by decide), hone]
  rfl

/-- A year has its century in front. -/
theorem padded_four (n : Nat) : padded 4 n = padded 2 (n / 100) ++ padded 2 (n % 100) := by
  have hcentury : n / 10 / 10 = n / 100 := Nat.div_div_eq_div_mul n 10 10
  have htens : n % 100 / 10 = n / 10 % 10 := by omega
  have hunits : n % 100 % 10 = n % 10 := by omega
  have hyear : padded 2 (n % 100) = [Nat.digitChar (n / 10 % 10), Nat.digitChar (n % 10)] := by
    rw [padded_two (by omega), htens, hunits]
  rw [padded_succ (by decide), padded_succ (by decide), hcentury, hyear, List.append_assoc]
  rfl

/-! ## Fields -/

/-- A digit is read as the number that it was written for. -/
theorem digit?_digitChar {n : Nat} (hn : n < 10) : digit? (Nat.digitChar n) = some n := by
  interval_cases n <;> rfl

/-- A field of two digits is read as the number that was written. -/
theorem readTwoDigits_padded {n : Nat} (hn : n < 100) (rest : List Char) :
    readTwoDigits (padded 2 n ++ rest) = .ok (n, rest) := by
  have hvalue : 10 * (n / 10) + n % 10 = n := Nat.div_add_mod n 10
  rw [padded_two hn]
  simp only [List.cons_append, List.nil_append, readTwoDigits, digit?_digitChar (show n / 10 < 10 by omega),
    digit?_digitChar (show n % 10 < 10 by omega), hvalue]

/-- A character that has to be there is taken off the front. -/
theorem readChar_self (c : Char) (rest : List Char) : readChar c (c :: rest) = .ok rest := by
  simp [readChar]

/-- Up to nine digits of a fraction are read as nanoseconds, up to what is no digit. -/
theorem readNanos_padded {width n : Nat} (hwidth : 0 < width ∧ width ≤ 9) (hn : n < 10 ^ width)
    {c : Char} (hc : c.isDigit = false) (rest : List Char) :
    readNanos (padded width n ++ c :: rest) = .ok (n * 10 ^ (9 - width), c :: rest) := by
  have hlength := length_padded hwidth.1 hn
  have htake : (padded width n ++ c :: rest).takeWhile Char.isDigit = padded width n := by
    rw [List.takeWhile_append_of_pos fun d hd => isDigit_of_mem_padded hd,
      List.takeWhile_cons_of_neg (by simp [hc]), List.append_nil]
  have hkept : (padded width n).take 9 = padded width n := List.take_of_length_le (by omega)
  have hsome : ¬ (padded width n).isEmpty = true := by
    rw [List.isEmpty_iff_length_eq_zero]
    omega
  have hdrop : (padded width n ++ c :: rest).drop width = c :: rest := List.drop_left' hlength
  simp only [readNanos, htake, if_neg hsome, hkept, digitsValue_padded, hlength, hdrop]
  rfl

/-- A fraction is left out if it is zero, and otherwise has three, six or nine digits. -/
theorem fractionText_cases {nanos : Nat} (hn : nanos < nanosPerSecond) :
    nanos = 0 ∧ fractionText nanos = [] ∨
      ∃ width n, fractionText nanos = '.' :: padded width n ∧ (0 < width ∧ width ≤ 9) ∧ n < 10 ^ width ∧
        n * 10 ^ (9 - width) = nanos := by
  have hbound : nanos < 1000000000 := hn
  rw [fractionText]
  split
  · next hzero => exact .inl ⟨hzero, rfl⟩
  split
  · exact .inr ⟨3, nanos / 1000000, rfl, by decide, by omega, by omega⟩
  split
  · exact .inr ⟨6, nanos / 1000, rfl, by decide, by omega, by omega⟩
  · exact .inr ⟨9, nanos, rfl, by decide, hn, by omega⟩

/-! ## Instants -/

/-- The date of an instant in universal time. -/
def dateOf (t : Instant) : Date :=
  Date.ofDays (t.seconds / 86400)

/-- The hour of the day, in universal time. -/
def hourOf (t : Instant) : Nat :=
  (t.seconds % 86400).toNat / 3600

/-- The minute of the hour. -/
def minuteOf (t : Instant) : Nat :=
  (t.seconds % 86400).toNat / 60 % 60

/-- The second of the minute that is written, which is 60 in a leap second. -/
def secondOf (t : Instant) : Nat :=
  (t.seconds % 86400).toNat % 60 + if nanosPerSecond ≤ t.nanos then 1 else 0

/-- The characters of an instant without a zone. -/
def zoneless (t : Instant) : List Char :=
  (render t).dropLast

/-- The ways to write universal time. -/
def zones : List (List Char) :=
  [['Z'], ['+', '0', '0', ':', '0', '0']]

/-- The parts of an instant that is written without a zone. -/
theorem zoneless_eq (t : Instant) :
    zoneless t = yearText (dateOf t).year ++ '-' :: padded 2 (dateOf t).month ++ '-' :: padded 2 (dateOf t).day ++
      'T' :: padded 2 (hourOf t) ++ ':' :: padded 2 (minuteOf t) ++ ':' :: padded 2 (secondOf t) ++
      fractionText (t.nanos % nanosPerSecond) := by
  rw [zoneless, render, List.dropLast_concat]
  rfl

/-- Out of a leap second the fields are those of the instant; in one they are those of the second before it,
with a thousand million nanoseconds more. -/
theorem secondOf_spec (t : Instant) :
    t.nanos < nanosPerSecond ∧ secondOf t = (t.seconds % 86400).toNat % 60 ∧
        t.nanos % nanosPerSecond = t.nanos ∨
      (t.seconds % 86400).toNat % 60 = 59 ∧ secondOf t = 60 ∧
        nanosPerSecond + t.nanos % nanosPerSecond = t.nanos := by
  obtain ⟨-, -, hnanos, hleap⟩ := t.valid
  by_cases h : nanosPerSecond ≤ t.nanos
  · right
    have hlast := hleap h
    refine ⟨by omega, ?_, ?_⟩
    · rw [secondOf, if_pos h]
      omega
    · rw [nanosPerSecond] at *
      omega
  · left
    refine ⟨by omega, ?_, Nat.mod_eq_of_lt (by omega)⟩
    rw [secondOf, if_neg h, Nat.add_zero]

/-- A day has 24 hours. -/
theorem hourOf_lt (t : Instant) : hourOf t < 24 := by
  rw [hourOf]
  omega

/-- An hour has 60 minutes. -/
theorem minuteOf_lt (t : Instant) : minuteOf t < 60 :=
  Nat.mod_lt _ (by decide)

/-- A minute has at most 61 seconds, the last of them a leap second. -/
theorem secondOf_lt (t : Instant) : secondOf t < 61 := by
  rcases secondOf_spec t with ⟨-, hsecond, -⟩ | ⟨-, hsecond, -⟩ <;> omega

/-- The fields of an instant are put together to the instant again. -/
theorem assemble_fields (t : Instant) :
    assemble (dateOf t) (hourOf t) (minuteOf t) (secondOf t) (t.nanos % nanosPerSecond) 0 = .ok t := by
  have hvalid : (dateOf t).isValid = true := Date.isValid_ofDays _
  have hnear : (dateOf t).isNear = true := by
    obtain ⟨hlower, hupper, -⟩ := t.valid
    exact Date.isNear_ofDays (by omega)
  have hdays : (dateOf t).toDays = t.seconds / 86400 := Date.toDays_ofDays _
  have hsplit : (if secondOf t = 60 then (59, nanosPerSecond + t.nanos % nanosPerSecond)
      else (secondOf t, t.nanos % nanosPerSecond)) = ((t.seconds % 86400).toNat % 60, t.nanos) := by
    rcases secondOf_spec t with ⟨-, hsecond, hnanos⟩ | ⟨hlast, hsecond, hnanos⟩
    · rw [hsecond, hnanos, if_neg (by omega)]
    · rw [if_pos hsecond, hnanos, hlast]
  have hseconds : t.seconds / 86400 * 86400 + ((hourOf t * 3600 + minuteOf t * 60 +
      (t.seconds % 86400).toNat % 60 : Nat) : Int) - 0 = t.seconds := by
    rw [hourOf, minuteOf]
    omega
  have hsecond : (t.seconds % 86400).toNat % 60 < 60 := Nat.mod_lt _ (by decide)
  simp only [assemble, hsplit, hdays, hseconds, Instant.of?]
  rw [dif_pos t.valid]
  simp [hvalid, hnear, hourOf_lt, minuteOf_lt, hsecond]

/-- A text has at least as many bytes as characters. -/
theorem length_le_byteCount (cs : List Char) : cs.length ≤ byteCount cs := by
  have hfold : ∀ (cs : List Char) (n : Nat), n + cs.length ≤ cs.foldl (fun n c => n + c.utf8Size) n := by
    intro cs
    induction cs with
    | nil => simp
    | cons c cs ih =>
      intro n
      have hc := c.utf8Size_pos
      have htail := ih (n + c.utf8Size)
      simp only [List.length_cons, List.foldl_cons]
      omega
  have hcount := hfold cs 0
  rw [Nat.zero_add] at hcount
  exact hcount

/-- Universal time is written by its letter, or as an offset of nothing. -/
theorem mem_zones {zone : List Char} : zone ∈ zones ↔ zone = ['Z'] ∨ zone = ['+', '0', '0', ':', '0', '0'] := by
  simp [zones]

/-- However universal time is written, it is read as no offset, and nothing is left. -/
theorem readOffset_zone {zone : List Char} (hzone : zone ∈ zones) :
    readOffset (readChar ':') zone = .ok (0, []) := by
  rcases mem_zones.1 hzone with rfl | rfl <;> rfl

/-- A zone does not begin with a digit. -/
theorem exists_cons_of_mem_zones {zone : List Char} (hzone : zone ∈ zones) :
    ∃ c rest, zone = c :: rest ∧ c.isDigit = false := by
  rcases mem_zones.1 hzone with rfl | rfl <;> exact ⟨_, _, rfl, by decide⟩

/-- A fraction in front of a zone is left out if it is zero, and otherwise read as the nanoseconds. -/
theorem fractionText_spec {nanos : Nat} (hn : nanos < nanosPerSecond) {zone : List Char}
    (hzone : zone ∈ zones) :
    nanos = 0 ∧ fractionText nanos = [] ∨
      ∃ ds, fractionText nanos = '.' :: ds ∧ readNanos (ds ++ zone) = .ok (nanos, zone) := by
  obtain ⟨c, rest, rfl, hdigit⟩ := exists_cons_of_mem_zones hzone
  refine (fractionText_cases hn).imp_right ?_
  rintro ⟨width, n, hsome, hwidth, hbound, hvalue⟩
  exact ⟨padded width n, hsome, by rw [readNanos_padded hwidth hbound hdigit, hvalue]⟩

/-- A text with all its fields in their places is put together from them. -/
theorem parse_fields {date : Date} {hour minute second nanos : Nat} {zone : List Char}
    (hyear : 0 ≤ date.year ∧ date.year ≤ 9999) (hdate : date.isValid = true) (hhour : hour < 24)
    (hminute : minute < 60) (hsecond : second < 61) (hnanos : nanos < nanosPerSecond)
    (hzone : zone ∈ zones) :
    parse (String.ofList (yearText date.year ++ '-' :: padded 2 date.month ++ '-' :: padded 2 date.day ++
        'T' :: padded 2 hour ++ ':' :: padded 2 minute ++ ':' :: padded 2 second ++ fractionText nanos ++
        zone)) =
      assemble date hour minute second nanos 0 := by
  obtain ⟨year, month, day⟩ := date
  obtain ⟨y, rfl⟩ : ∃ y : Nat, year = y := Int.eq_ofNat_of_zero_le hyear.1
  have hsmall : y ≤ 9999 := Int.ofNat_le.1 hyear.2
  have hmonth : month < 100 ∧ day < 100 := by
    have hshort := Date.daysInMonth_le y month
    simp only [Date.isValid, Bool.and_eq_true, decide_eq_true_eq] at hdate
    omega
  have hyearText : yearText y = padded 2 (y / 100) ++ padded 2 (y % 100) := by
    rw [yearText, if_pos hyear, Int.toNat_natCast, padded_four]
  have hyearValue : ((y / 100 : Nat) : Int) * 100 + ((y % 100 : Nat) : Int) = y := by omega
  have hrange : ¬ ((24 ≤ hour ∨ 60 ≤ minute) ∨ 61 ≤ second) := by omega
  have hoffset := readOffset_zone hzone
  have hwidth {n : Nat} (hn : n < 100) : (padded 2 n).length = 2 := length_padded (by decide) hn
  simp only [hyearText, List.append_assoc, List.cons_append, parse, String.toList_ofList]
  rw [if_neg ?_]
  · simp only [bind, Except.bind, pure, Except.pure,
      readTwoDigits_padded (show y / 100 < 100 by omega), readTwoDigits_padded (show y % 100 < 100 by omega),
      readTwoDigits_padded hmonth.1, readTwoDigits_padded hmonth.2,
      readTwoDigits_padded (show hour < 100 by omega), readTwoDigits_padded (show minute < 100 by omega),
      readTwoDigits_padded (show second < 100 by omega), readChar_self, hyearValue, hdate]
    rcases fractionText_spec hnanos hzone with ⟨rfl, hnone⟩ | ⟨ds, hsome, hread⟩
    · rcases mem_zones.1 hzone with rfl | rfl <;> simp [hnone, hoffset, hrange]
    · simp [hsome, hread, hoffset, hrange]
  · refine not_lt.2 (le_trans ?_ (length_le_byteCount _))
    simp only [List.length_append, List.length_cons, hwidth (show y / 100 < 100 by omega),
      hwidth (show y % 100 < 100 by omega), hwidth hmonth.1, hwidth hmonth.2,
      hwidth (show hour < 100 by omega), hwidth (show minute < 100 by omega),
      hwidth (show second < 100 by omega)]
    omega

/-- An instant of the years 0 to 9999 is had back from its text with either zone. -/
theorem parse_zoneless {t : Instant} (hyear : 0 ≤ (dateOf t).year ∧ (dateOf t).year ≤ 9999)
    {zone : List Char} (hzone : zone ∈ zones) : parse (String.ofList (zoneless t ++ zone)) = .ok t := by
  have hnanos : t.nanos % nanosPerSecond < nanosPerSecond := Nat.mod_lt _ (by decide)
  rw [zoneless_eq, parse_fields hyear (Date.isValid_ofDays _) (hourOf_lt t) (minuteOf_lt t) (secondOf_lt t)
    hnanos hzone, assemble_fields]

/-! ## In a list -/

/-- A number is written without commas and white space. -/
theorem isPlain_of_mem_padded {width n : Nat} : ∀ c ∈ padded width n, Text.IsPlain c :=
  fun _ hc => Text.isPlain_of_isDigit (isDigit_of_mem_padded hc)

/-- The text of an instant has neither commas nor white space. -/
theorem isPlain_of_mem_zoneless (t : Instant) : ∀ c ∈ zoneless t, Text.IsPlain c := by
  have hdash : Text.IsPlain '-' := by decide
  have hplus : Text.IsPlain '+' := by decide
  have hcolon : Text.IsPlain ':' := by decide
  have hpoint : Text.IsPlain '.' := by decide
  have hletter : Text.IsPlain 'T' := by decide
  have hyear : ∀ c ∈ yearText (dateOf t).year, Text.IsPlain c := by
    rw [yearText]
    split
    · exact isPlain_of_mem_padded
    · refine List.forall_mem_cons.2 ⟨?_, isPlain_of_mem_padded⟩
      split
      · exact hdash
      · exact hplus
  have hfraction : ∀ c ∈ fractionText (t.nanos % nanosPerSecond), Text.IsPlain c := by
    rcases fractionText_cases (Nat.mod_lt t.nanos (by decide)) with ⟨-, hnone⟩ | ⟨width, n, hsome, -⟩
    · simp [hnone]
    · rw [hsome]
      exact List.forall_mem_cons.2 ⟨hpoint, isPlain_of_mem_padded⟩
  simp only [zoneless_eq, List.forall_mem_append, List.forall_mem_cons]
  exact ⟨⟨⟨⟨⟨⟨hyear, hdash, isPlain_of_mem_padded⟩, hdash, isPlain_of_mem_padded⟩, hletter,
    isPlain_of_mem_padded⟩, hcolon, isPlain_of_mem_padded⟩, hcolon, isPlain_of_mem_padded⟩, hfraction⟩

/-- An instant is written without commas and white space, so that it can stand in a list. -/
theorem isListed_zoneless (t : Instant) {zone : List Char} (hzone : zone ∈ zones) :
    Text.IsListed (String.ofList (zoneless t ++ zone)) := by
  apply Text.isListed_of_forall
  · obtain ⟨c, rest, rfl, -⟩ := exists_cons_of_mem_zones hzone
    simp
  · rw [String.toList_ofList]
    refine List.forall_mem_append.2 ⟨isPlain_of_mem_zoneless t, ?_⟩
    rcases mem_zones.1 hzone with rfl | rfl <;> decide

end MediaCatalogue.Rfc3339
