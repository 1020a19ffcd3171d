import MediaCatalogue.Proofs.Json.Scalars
import Mathlib.Data.List.DropRight

/-!
# Reading JSON as it is printed

Both printed forms are one text with a layout: what stands in front of a part at a level, and behind the
colon of a member. A layout is white space only, so the reader does not see it, and what was printed is
read back in any layout. Each value is read with whatever follows it, and takes its own text and
nothing more: with that, the items of an array and the members of an object are read one after another.

Whole numbers of a word are read back exactly. About doubles nothing is said here.
-/

set_option autoImplicit false

namespace MediaCatalogue.Json

/-- A value whose numbers are all whole and fit a word. -/
inductive HasWholeNumbers : Json → Prop where
  | null : HasWholeNumbers .null
  | bool (b : Bool) : HasWholeNumbers (.bool b)
  | int {n : Int} (h : fitsWord n = true) : HasWholeNumbers (.int n)
  | string (s : String) : HasWholeNumbers (.string s)
  | array {items : List Json} (h : ∀ j ∈ items, HasWholeNumbers j) : HasWholeNumbers (.array items)
  | object {members : List (String × Json)} (h : ∀ m ∈ members, HasWholeNumbers m.2) :
    HasWholeNumbers (.object members)

/-! ## White space -/

/-- A gap of white space alone is skipped, and what follows it as before. -/
theorem skipSpace_append {gap : List Char} (h : skipSpace gap = []) (cs : List Char) :
    skipSpace (gap ++ cs) = skipSpace cs := by
  rw [skipSpace, List.dropWhile_append, ← skipSpace, h]
  rfl

/-- Behind skipped white space there is no more of it. -/
theorem skipSpace_skipSpace (cs : List Char) : skipSpace (skipSpace cs) = skipSpace cs :=
  List.dropWhile_idempotent _ _

/-- A value is read in the same way whether or not the white space before it has been skipped. -/
theorem readValue_skipSpace (fuel depth : Nat) (cs : List Char) :
    readValue fuel depth (skipSpace cs) = readValue fuel depth cs := by
  cases fuel with
  | zero => rw [readValue, readValue]
  | succ fuel => rw [readValue, readValue, skipSpace_skipSpace]

/-- White space in front of a value is not seen. -/
theorem readValue_append {gap : List Char} (h : skipSpace gap = []) (fuel depth : Nat) (cs : List Char) :
    readValue fuel depth (gap ++ cs) = readValue fuel depth cs := by
  rw [← readValue_skipSpace, skipSpace_append h, readValue_skipSpace]

/-- White space ends a number, and where there is none, what follows does so still. -/
theorem EndsNumber.after_space {gap rest : List Char} (h : skipSpace gap = []) (hrest : EndsNumber rest) :
    EndsNumber (gap ++ rest) := by
  cases gap with
  | nil => exact hrest
  | cons c gap =>
    have hspace := List.dropWhile_eq_nil_iff.1 h c List.mem_cons_self
    simp only [Bool.or_eq_true, decide_eq_true_eq] at hspace
    intro c' hc'
    obtain rfl : c = c' := by simpa using hc'
    rcases hspace with ((rfl | rfl) | rfl) | rfl <;> decide

/-! ## Layouts -/

/-- White space for each place where a printed form may have some. -/
structure Layout where
  line : Nat → List Char
  colon : List Char
  line_space : ∀ level, skipSpace (line level) = []
  colon_space : skipSpace colon = []

namespace Layout

/-- Everything on one line, without spaces. -/
def compact : Layout where
  line _ := []
  colon := []
  line_space _ := rfl
  colon_space := rfl

/-- Each part on a line of its own, with two spaces of indentation for each level. -/
def pretty : Layout where
  line level := (newLine level).toList
  colon := [' ']
  line_space level := by simp [newLine, skipSpace]
  colon_space := rfl

variable (l : Layout)

mutual

/-- The text of a value at a level. -/
def text (level : Nat) : Json → List Char
  | .array [] => ['[', ']']
  | .object [] => ['\x7b', '\x7d']
  | .array (j :: js) =>
    '[' :: (l.line (level + 1) ++ text (level + 1) j ++ itemsText (level + 1) js) ++ l.line level ++ [']']
  | .object ((name, j) :: ms) =>
    '\x7b' :: (l.line (level + 1) ++ (quote name).toList ++ ':' :: l.colon ++ text (level + 1) j ++
      membersText (level + 1) ms) ++ l.line level ++ ['\x7d']
  | j => (scalarText j).toList

/-- The text of items that stand behind others. -/
def itemsText (level : Nat) : List Json → List Char
  | [] => []
  | j :: js => ',' :: l.line level ++ text level j ++ itemsText level js

/-- The text of members that stand behind others. -/
def membersText (level : Nat) : List (String × Json) → List Char
  | [] => []
  | (name, j) :: ms =>
    ',' :: l.line level ++ (quote name).toList ++ ':' :: l.colon ++ text level j ++ membersText level ms

end

/-! ## The two printed forms -/

/-- The characters of pieces one after another. -/
def chars (pieces : List String) : List Char :=
  pieces.flatMap String.toList

/-- The characters of a piece stand before those of the others. -/
theorem chars_cons (piece : String) (pieces : List String) :
    chars (piece :: pieces) = piece.toList ++ chars pieces :=
  List.flatMap_cons

mutual

/-- The pieces of a value are the text of the layout on one line, with what stands behind them. -/
theorem chars_compactPieces (level : Nat) (rest : List String) :
    ∀ j : Json, chars (compactPieces rest j) = compact.text level j ++ chars rest
  | .array [] | .object [] | .null | .bool _ | .int _ | .float _ | .string _ => rfl
  | .array (j :: js) => by
    rw [compactPieces, compactItems, if_pos rfl, chars_cons, chars_compactPieces (level + 1) _ j,
      chars_compactItems (level + 1) _ js, chars_cons, text]
    simp [compact]
  | .object ((name, j) :: ms) => by
    rw [compactPieces, compactMembers, if_pos rfl, chars_cons, chars_cons, chars_cons,
      chars_compactPieces (level + 1) _ j, chars_compactMembers (level + 1) _ ms, chars_cons, text]
    simp [compact]

/-- The same of the items that stand behind others. -/
theorem chars_compactItems (level : Nat) (rest : List String) :
    ∀ js : List Json, chars (compactItems rest false js) = compact.itemsText level js ++ chars rest
  | [] => rfl
  | j :: js => by
    rw [compactItems, if_neg Bool.false_ne_true, chars_cons, chars_compactPieces level _ j,
      chars_compactItems level _ js, itemsText]
    simp [compact]

/-- The same of the members that stand behind others. -/
theorem chars_compactMembers (level : Nat) (rest : List String) :
    ∀ ms : List (String × Json), chars (compactMembers rest false ms) = compact.membersText level ms ++ chars rest
  | [] => rfl
  | (name, j) :: ms => by
    rw [compactMembers, if_neg Bool.false_ne_true, chars_cons, chars_cons, chars_cons,
      chars_compactPieces level _ j, chars_compactMembers level _ ms, membersText]
    simp [compact]

end

mutual

/-- The pieces of a value at a level are the text of the indented layout, with what stands behind them.
-/
theorem chars_prettyPieces (level : Nat) (rest : List String) :
    ∀ j : Json, chars (prettyPieces level rest j) = pretty.text level j ++ chars rest
  | .array [] | .object [] | .null | .bool _ | .int _ | .float _ | .string _ => rfl
  | .array (j :: js) => by
    rw [prettyPieces, prettyItems, if_pos rfl, chars_cons, chars_cons, chars_prettyPieces (level + 1) _ j,
      chars_prettyItems (level + 1) _ js, chars_cons, chars_cons, text]
    · simp [pretty]
    · exact List.cons_ne_nil j js
  | .object ((name, j) :: ms) => by
    rw [prettyPieces, prettyMembers, if_pos rfl, chars_cons, chars_cons, chars_cons, chars_cons,
      chars_prettyPieces (level + 1) _ j, chars_prettyMembers (level + 1) _ ms, chars_cons, chars_cons, text]
    · simp [pretty]
    · exact List.cons_ne_nil (name, j) ms

/-- The same of the items that stand behind others. -/
theorem chars_prettyItems (level : Nat) (rest : List String) :
    ∀ js : List Json, chars (prettyItems level rest false js) = pretty.itemsText level js ++ chars rest
  | [] => rfl
  | j :: js => by
    rw [prettyItems, if_neg Bool.false_ne_true, chars_cons, chars_cons, chars_prettyPieces level _ j,
      chars_prettyItems level _ js, itemsText]
    simp [pretty]

/-- The same of the members that stand behind others. -/
theorem chars_prettyMembers (level : Nat) (rest : List String) :
    ∀ ms : List (String × Json),
      chars (prettyMembers level rest false ms) = pretty.membersText level ms ++ chars rest
  | [] => rfl
  | (name, j) :: ms => by
    rw [prettyMembers, if_neg Bool.false_ne_true, chars_cons, chars_cons, chars_cons, chars_cons,
      chars_prettyPieces level _ j, chars_prettyMembers level _ ms, membersText]
    simp [pretty]

end

/-- The compact form is the text of the layout on one line. -/
theorem toList_compact (j : Json) : j.compact.toList = compact.text 0 j := by
  rw [Json.compact, String.toList_join, ← chars, chars_compactPieces 0, chars]
  exact List.append_nil _

/-- The pretty form is the text of the indented layout. -/
theorem toList_pretty (j : Json) : j.pretty.toList = pretty.text 0 j := by
  rw [Json.pretty, String.toList_join, ← chars, chars_prettyPieces, chars]
  exact List.append_nil _

/-! ## Items and members -/

/-- A value is read from its text at any level, and what follows it is left. Two steps for each character are
enough, one by which a value is read and one for its place among others. -/
def Legible (j : Json) : Prop :=
  ∀ (level fuel depth : Nat) (rest : List Char), EndsNumber rest → j.depth ≤ depth →
    2 * (l.text level j).length ≤ fuel →
      readValue (fuel + 1) depth (l.text level j ++ rest) = some (j, rest)

variable {l : Layout}

section

variable (level : Nat) {rest close : List Char} (hclose : skipSpace close = [])

include hclose

/-- Behind an item there is a comma, a bracket or white space, so a number ends there. -/
theorem endsNumber_itemsText (js : List Json) : EndsNumber (l.itemsText level js ++ (close ++ ']' :: rest)) := by
  have hend : EndsNumber (']' :: rest) := by
    rintro _ ⟨⟩
    decide
  cases js with
  | nil =>
    rw [itemsText, List.nil_append]
    exact hend.after_space hclose
  | cons j js =>
    rintro _ ⟨⟩
    decide

/-- Behind a member there is a comma, a brace or white space, so a number ends there. -/
theorem endsNumber_membersText (ms : List (String × Json)) :
    EndsNumber (l.membersText level ms ++ (close ++ '\x7d' :: rest)) := by
  have hend : EndsNumber ('\x7d' :: rest) := by
    rintro _ ⟨⟩
    decide
  cases ms with
  | nil =>
    rw [membersText, List.nil_append]
    exact hend.after_space hclose
  | cons m ms =>
    rintro _ ⟨⟩
    decide

end

/-- Items are read one after another, up to the end of the array. -/
theorem readItems_itemsText {level depth : Nat} {rest close : List Char} (hclose : skipSpace close = [])
    {j : Json} {js : List Json} (hitems : ∀ i ∈ j :: js, l.Legible i) (hdepth : depthOfItems (j :: js) ≤ depth)
    {fuel : Nat} (hfuel : 2 * ((l.text level j).length + (l.itemsText level js).length) ≤ fuel)
    (done : List Json) {gap : List Char} (hgap : skipSpace gap = []) :
    readItems (fuel + 2) depth done
        (gap ++ (l.text level j ++ (l.itemsText level js ++ (close ++ ']' :: rest)))) =
      some (.array (done.reverse ++ j :: js), rest) := by
  have hends (js : List Json) : EndsNumber (l.itemsText level js ++ (close ++ ']' :: rest)) :=
    endsNumber_itemsText level hclose js
  have hstop : skipSpace (close ++ ']' :: rest) = ']' :: rest := skipSpace_append hclose _
  induction js generalizing j fuel done gap with
  | nil =>
    have hj : l.Legible j := hitems j List.mem_cons_self
    rw [depthOfItems] at hdepth
    rw [readItems, readValue_append hgap, hj level fuel depth _ (hends []) (by omega) (by omega)]
    simp [itemsText, hstop]
  | cons i js ih =>
    obtain ⟨hj, hrest⟩ := List.forall_mem_cons.1 hitems
    rw [depthOfItems] at hdepth
    have hcomma (more : List Char) : skipSpace (l.itemsText level (i :: js) ++ more) =
        ',' :: (l.line level ++ (l.text level i ++ (l.itemsText level js ++ more))) := by
      simp [itemsText, skipSpace]
    have hlength : 1 + (l.text level i).length + (l.itemsText level js).length ≤
        (l.itemsText level (i :: js)).length := by
      simp [itemsText]
      omega
    -- the comma is not part of the next item, so there is a step left for it
    obtain ⟨fuel, rfl⟩ : ∃ f, fuel = f + 1 := ⟨fuel - 1, by omega⟩
    have hmore : 2 * ((l.text level i).length + (l.itemsText level js).length) ≤ fuel := by omega
    rw [readItems, readValue_append hgap, hj level (fuel + 1) depth _ (hends _) (by omega) (by omega)]
    simp only [hcomma, ih hrest (by omega) hmore (j :: done) (l.line_space level)]
    simp

/-- A name stands behind the white space of its layout, from its opening quote on. -/
theorem skipSpace_quote {gap : List Char} (hgap : skipSpace gap = []) (name : String) (more : List Char) :
    skipSpace (gap ++ ((quote name).toList ++ more)) =
      '"' :: (name.toList.flatMap escapeChar ++ '"' :: more) := by
  rw [skipSpace_append hgap, toList_quote]
  simp [skipSpace]

/-- Members are read one after another, up to the end of the object. -/
theorem readMembers_membersText {level depth : Nat} {rest close : List Char} (hclose : skipSpace close = [])
    {name : String} {j : Json} {ms : List (String × Json)} (hmembers : ∀ m ∈ (name, j) :: ms, l.Legible m.2)
    (hdepth : depthOfMembers ((name, j) :: ms) ≤ depth)
    {fuel : Nat} (hfuel : 2 * ((l.text level j).length + (l.membersText level ms).length) ≤ fuel)
    (done : List (String × Json)) {gap : List Char} (hgap : skipSpace gap = []) :
    readMembers (fuel + 2) depth done (gap ++ ((quote name).toList ++
        ':' :: (l.colon ++ (l.text level j ++ (l.membersText level ms ++ (close ++ '\x7d' :: rest)))))) =
      some (.object (done.reverse ++ (name, j) :: ms), rest) := by
  have hends (ms : List (String × Json)) : EndsNumber (l.membersText level ms ++ (close ++ '\x7d' :: rest)) :=
    endsNumber_membersText level hclose ms
  have hstop : skipSpace (close ++ '\x7d' :: rest) = '\x7d' :: rest := skipSpace_append hclose _
  have hcolon (more : List Char) : skipSpace (':' :: more) = ':' :: more := rfl
  induction ms generalizing name j fuel done gap with
  | nil =>
    have hj : l.Legible j := hmembers (name, j) List.mem_cons_self
    rw [depthOfMembers] at hdepth
    rw [readMembers, skipSpace_quote hgap]
    simp only [readString_escape, hcolon, readValue_append l.colon_space]
    rw [hj level fuel depth _ (hends []) (by omega) (by omega)]
    simp [membersText, hstop]
  | cons m ms ih =>
    have hj : l.Legible j := hmembers (name, j) List.mem_cons_self
    obtain ⟨next, i⟩ := m
    rw [depthOfMembers] at hdepth
    have hcomma (more : List Char) : skipSpace (l.membersText level ((next, i) :: ms) ++ more) =
        ',' :: (l.line level ++ ((quote next).toList ++
          ':' :: (l.colon ++ (l.text level i ++ (l.membersText level ms ++ more))))) := by
      simp [membersText, skipSpace]
    have hlength : 1 + (l.text level i).length + (l.membersText level ms).length ≤
        (l.membersText level ((next, i) :: ms)).length := by
      simp [membersText]
      omega
    obtain ⟨fuel, rfl⟩ : ∃ f, fuel = f + 1 := ⟨fuel - 1, by omega⟩
    have hmore : 2 * ((l.text level i).length + (l.membersText level ms).length) ≤ fuel := by omega
    rw [readMembers, skipSpace_quote hgap]
    simp only [readString_escape, hcolon, readValue_append l.colon_space]
    rw [hj level (fuel + 1) depth _ (hends _) (by omega) (by omega)]
    simp only [hcomma,
      ih (List.forall_mem_cons.1 hmembers).2 (by omega) hmore ((name, j) :: done) (l.line_space level)]
    simp

/-! ## Values -/

/-- What begins a number is a sign or a digit. -/
theorem toString_begins (n : Int) :
    ∃ c cs, (toString n).toList = c :: cs ∧ (c = '-' ∨ c.isDigit = true) := by
  rw [Text.toList_toString]
  split
  · obtain ⟨d, ds, hcons, hdigit, -⟩ := toDigits_begins n.toNat
    exact ⟨d, ds, hcons, .inr hdigit⟩
  · exact ⟨'-', _, rfl, .inl rfl⟩

/-- Nothing is skipped in front of a number. -/
theorem skipSpace_number {c : Char} (hc : c = '-' ∨ c.isDigit = true) (rest : List Char) :
    skipSpace (c :: rest) = c :: rest := by
  apply List.dropWhile_cons_of_neg
  rintro hspace
  simp only [Bool.or_eq_true, decide_eq_true_eq] at hspace
  rcases hspace with ((rfl | rfl) | rfl) | rfl <;> exact absurd hc (by decide)

section

variable {fuel depth : Nat} {c : Char} {cs rest : List Char}

/-- What begins with a sign or a digit is read as a number. -/
theorem readValue_number (hc : c = '-' ∨ c.isDigit = true) :
    readValue (fuel + 1) depth (c :: rest) = readNumber (c :: rest) := by
  rw [readValue, skipSpace_number hc]
  split <;> first
    | rfl
    | next heq =>
      obtain ⟨rfl, -⟩ := List.cons.inj heq
      exact absurd hc (by decide)

/-- No value begins with a bracket that closes. -/
theorem readValue_closing (hcs : skipSpace cs = ']' :: rest) : readValue fuel depth cs = none := by
  cases fuel with
  | zero => rw [readValue]
  | succ fuel =>
    rw [readValue, hcs]
    simp [readNumber, spanDigits, List.span_eq_takeWhile_dropWhile]

/-- What is read as items is read as an array, behind its bracket. -/
theorem readValue_of_readItems {result : Json × List Char} (h : readItems fuel depth [] cs = some result) :
    readValue (fuel + 1) (depth + 1) ('[' :: cs) = some result := by
  have hopen : skipSpace ('[' :: cs) = '[' :: cs := rfl
  rw [readValue, hopen]
  simp only [if_neg (Nat.succ_ne_zero depth)]
  cases fuel with
  | zero => rw [readItems] at h; cases h
  | succ fuel =>
    rw [readItems] at h
    split
    -- an array that is closed at once has no item that could be read
    next heq =>
      rw [readValue_closing heq] at h
      cases h
    next => rwa [Nat.add_sub_cancel, readItems, readValue_skipSpace]

/-- What is read as members is read as an object, behind its brace. -/
theorem readValue_of_readMembers {result : Json × List Char} (h : readMembers fuel depth [] cs = some result) :
    readValue (fuel + 1) (depth + 1) ('\x7b' :: cs) = some result := by
  have hopen : skipSpace ('\x7b' :: cs) = '\x7b' :: cs := rfl
  rw [readValue, hopen]
  simp only [if_neg (Nat.succ_ne_zero depth)]
  cases fuel with
  | zero => rw [readMembers] at h; cases h
  | succ fuel =>
    rw [readMembers] at h
    split
    next heq =>
      rw [heq] at h
      cases h
    next => rwa [Nat.add_sub_cancel, readMembers, skipSpace_skipSpace]

end

/-- An array is read back if its items are. -/
theorem Legible.array {j : Json} {js : List Json} (hitems : ∀ i ∈ j :: js, l.Legible i) :
    l.Legible (.array (j :: js)) := by
  intro level fuel depth rest hrest hdepth hfuel
  rw [Json.depth] at hdepth
  obtain ⟨depth, rfl⟩ : ∃ d, depth = d + 1 := ⟨depth - 1, by omega⟩
  have htext : l.text level (.array (j :: js)) ++ rest = '[' :: (l.line (level + 1) ++ (l.text (level + 1) j ++
      (l.itemsText (level + 1) js ++ (l.line level ++ ']' :: rest)))) := by
    simp [text]
  have hlength : (l.text (level + 1) j).length + (l.itemsText (level + 1) js).length + 2 ≤
      (l.text level (.array (j :: js))).length := by
    simp [text]
    omega
  obtain ⟨fuel, rfl⟩ : ∃ f, fuel = f + 2 := ⟨fuel - 2, by omega⟩
  have hmore : 2 * ((l.text (level + 1) j).length + (l.itemsText (level + 1) js).length) ≤ fuel := by omega
  rw [htext]
  exact readValue_of_readItems (readItems_itemsText (l.line_space level) hitems (by omega) hmore []
    (l.line_space (level + 1)))

/-- An object is read back if its members are. -/
theorem Legible.object {name : String} {j : Json} {ms : List (String × Json)}
    (hmembers : ∀ m ∈ (name, j) :: ms, l.Legible m.2) : l.Legible (.object ((name, j) :: ms)) := by
  intro level fuel depth rest hrest hdepth hfuel
  rw [Json.depth] at hdepth
  obtain ⟨depth, rfl⟩ : ∃ d, depth = d + 1 := ⟨depth - 1, by omega⟩
  have htext : l.text level (.object ((name, j) :: ms)) ++ rest =
      '\x7b' :: (l.line (level + 1) ++ ((quote name).toList ++ ':' :: (l.colon ++ (l.text (level + 1) j ++
        (l.membersText (level + 1) ms ++ (l.line level ++ '\x7d' :: rest)))))) := by
    simp [text]
  have hlength : (l.text (level + 1) j).length + (l.membersText (level + 1) ms).length + 2 ≤
      (l.text level (.object ((name, j) :: ms))).length := by
    simp [text]
    omega
  obtain ⟨fuel, rfl⟩ : ∃ f, fuel = f + 2 := ⟨fuel - 2, by omega⟩
  have hmore : 2 * ((l.text (level + 1) j).length + (l.membersText (level + 1) ms).length) ≤ fuel := by omega
  rw [htext]
  exact readValue_of_readMembers (readMembers_membersText (l.line_space level) hmembers (by omega) hmore []
    (l.line_space (level + 1)))

/-- Every value without doubles is read back from its text. -/
theorem legible_of_hasWholeNumbers {j : Json} (h : HasWholeNumbers j) : l.Legible j := by
  induction h with
  | null =>
    intro level fuel depth rest hrest hdepth hfuel
    rw [readValue]
    rfl
  | bool b =>
    intro level fuel depth rest hrest hdepth hfuel
    rw [readValue]
    cases b <;> rfl
  | @int n hn =>
    intro level fuel depth rest hrest hdepth hfuel
    have htext : l.text level (.int n) = (toString n).toList := rfl
    obtain ⟨c, cs, hcons, hc⟩ := toString_begins n
    rw [htext, ← readNumber_toString hrest hn, hcons]
    exact readValue_number hc
  | string s =>
    intro level fuel depth rest hrest hdepth hfuel
    have htext : l.text level (.string s) = (quote s).toList := rfl
    have hquote := skipSpace_quote (rfl : skipSpace [] = []) s rest
    rw [List.nil_append] at hquote
    rw [htext, readValue, hquote]
    simp only [readString_escape, Option.map_some]
  | @array items hitems ih =>
    cases items with
    | nil =>
      intro level fuel depth rest hrest hdepth hfuel
      rw [readValue]
      cases depth with
      | zero => cases hdepth
      | succ depth => rfl
    | cons j js => exact Legible.array ih
  | @object members hmembers ih =>
    cases members with
    | nil =>
      intro level fuel depth rest hrest hdepth hfuel
      rw [readValue]
      cases depth with
      | zero => cases hdepth
      | succ depth => rfl
    | cons m ms => exact Legible.object ih

/-- A text is read as a value if it is its text, with white space behind it. -/
theorem read_text (l : Layout) {j : Json} (h : HasWholeNumbers j) (hdepth : j.depth ≤ 127) {printed : String}
    {gap : List Char} (hgap : skipSpace gap = []) (hprinted : printed.toList = l.text 0 j ++ gap) :
    read printed = some j := by
  have hends : EndsNumber gap := by
    have hnothing : EndsNumber [] := by rintro _ ⟨⟩
    simpa using hnothing.after_space hgap
  have hlegible : l.Legible j := legible_of_hasWholeNumbers h
  have hread := hlegible 0 (2 * (l.text 0 j ++ gap).length + 1) 127 gap hends hdepth
    (by rw [List.length_append]; omega)
  rw [read, hprinted]
  simp only [hread, hgap]
  rfl

end Layout

section

variable {j : Json} (h : HasWholeNumbers j) (hdepth : j.depth ≤ 127)

include h hdepth

/-- **What is printed on one line is read back.** -/
theorem read_compact : read j.compact = some j :=
  Layout.compact.read_text h hdepth rfl (by rw [Layout.toList_compact, List.append_nil])

/-- **What is printed with indentation is read back**, and white space behind it does no harm. -/
theorem read_pretty_append {gap : String} (hgap : skipSpace gap.toList = []) : read (j.pretty ++ gap) = some j :=
  Layout.pretty.read_text h hdepth hgap (by rw [String.toList_append, Layout.toList_pretty])

/-- The same with nothing behind it. -/
theorem read_pretty : read j.pretty = some j :=
  Layout.pretty.read_text h hdepth rfl (by rw [Layout.toList_pretty, List.append_nil])

end

end MediaCatalogue.Json
