import MediaCatalogue.Pattern.Search
import Mathlib.Data.List.Forall2

/-!
# Patterns for a text at the beginning

A text behind backslashes, with a test for the beginning in front of it, makes a pattern that is
found in the texts that begin with it up to case. Reading gives back the characters one by one,
whatever they mean in other patterns. In the search only the residual that starts at the first
character ever counts: the test for the beginning holds nowhere else.
-/

set_option autoImplicit false

namespace MediaCatalogue

namespace Text

/-- A character stands for another one in any case: they are case variants. -/
def SameLetter (d c : Char) : Prop :=
  d.toNat ∈ caseVariants c.toNat

/-- Characters begin with others in any case. -/
def BeginsInAnyCase (beginning cs : List Char) : Prop :=
  ∃ matched rest, cs = matched ++ rest ∧ List.Forall₂ SameLetter beginning matched

/-- Everything begins with nothing. -/
theorem beginsInAnyCase_nil (cs : List Char) : BeginsInAnyCase [] cs :=
  ⟨[], cs, rfl, .nil⟩

/-- Nothing begins with a character. -/
theorem not_beginsInAnyCase_nil (d : Char) (ds : List Char) : ¬ BeginsInAnyCase (d :: ds) [] := by
  rintro ⟨matched, rest, hcs, hall⟩
  cases hall
  simp at hcs

/-- Characters begin with others if the first do so, and the rest. -/
theorem beginsInAnyCase_cons (d c : Char) (ds cs : List Char) :
    BeginsInAnyCase (d :: ds) (c :: cs) ↔ SameLetter d c ∧ BeginsInAnyCase ds cs := by
  constructor
  · rintro ⟨matched, rest, hcs, hall⟩
    cases hall with
    | cons hd hds =>
      rw [List.cons_append, List.cons.injEq] at hcs
      obtain ⟨rfl, rfl⟩ := hcs
      exact ⟨hd, _, rest, rfl, hds⟩
  · rintro ⟨hd, matched, rest, rfl, hall⟩
    exact ⟨c :: matched, rest, rfl, .cons hd hall⟩

end Text

/-! ## Searching -/

namespace Expr

/-- The expression of one character in any case. -/
def letter (c : Char) : Expr :=
  .chars (Tree.literalSet c true)

/-- The expression of characters in a row, each in any case. -/
def letters : List Char → Expr
  | [] => .empty
  | [c] => letter c
  | c :: cs => .seq (letter c) (letters cs)

/-- The expression of characters in a row at the beginning of a text. -/
def beginning (ds : List Char) : Expr :=
  .seq .empty (if ds = [] then .anchor .textStart else .seq (.anchor .textStart) (letters ds))

/-- The set of a character in any case holds just its case variants. -/
theorem holds_literalSet (d c : Char) :
    (Tree.literalSet d true).holds c.toNat = true ↔ Text.SameLetter d c := by
  simp only [Tree.literalSet, CharSet.holds, CharSet.single, if_true, List.any_eq_true, Bool.and_eq_true,
    decide_eq_true_eq, Text.SameLetter]
  constructor
  · rintro ⟨n, hn, hle, hge⟩
    rwa [Nat.le_antisymm hle hge]
  · exact fun h => ⟨d.toNat, h, Nat.le_refl _, Nat.le_refl _⟩

/-- Each character takes the first letter away, or leaves nothing. -/
theorem derive_letters (before : Option Char) (c d : Char) (ds : List Char) :
    (letters (d :: ds)).derive before c =
      if (Tree.literalSet d true).holds c.toNat then [letters ds] else [] := by
  cases ds with
  | nil => rfl
  | cons d' ds =>
    have hcut : (letters (d :: d' :: ds)).derive before c =
        ((letter d).derive before c).map (·.andThen (letters (d' :: ds))) := rfl
    rw [hcut, letter, derive]
    split <;> rfl

/-- Letters that are still to come are not found in nothing. -/
theorem nullable_letters (before after : Option Char) (d : Char) (ds : List Char) :
    (letters (d :: ds)).nullable before after = false := by
  cases ds <;> rfl

/-- Behind the beginning of a text its expression can take no character. -/
theorem derive_beginning_of_some (before c : Char) (ds : List Char) :
    (beginning ds).derive (some before) c = [] := by
  unfold beginning
  split <;> rfl

/-- Behind the beginning of a text its expression finds nothing. -/
theorem nullable_beginning_of_some (before : Char) (after : Option Char) (ds : List Char) :
    (beginning ds).nullable (some before) after = false := by
  unfold beginning
  split <;> rfl

/-- One expression is not repeated. -/
theorem distinct_singleton (e : Expr) : distinct [e] = [e] := by
  simp [distinct]

/-- Where nothing is left to look for behind the beginning, nothing is found. -/
theorem findFrom_nil (ds : List Char) (before : Char) (cs : List Char) :
    (beginning ds).findFrom (some before) [] cs = false := by
  induction cs generalizing before with
  | nil => simp [findFrom, nullable_beginning_of_some]
  | cons c cs ih =>
    rw [findFrom]
    simp only [List.any_cons, List.any_nil, nullable_beginning_of_some, List.flatMap_cons, List.flatMap_nil,
      derive_beginning_of_some, List.append_nil, Bool.or_false, Bool.false_or]
    exact ih c

/-- What a character leaves of letters is found when it stands for the first of them and the others
are found behind it. -/
theorem findFrom_distinct (all : List Char) (d c : Char) (ds cs : List Char)
    (h : (beginning all).findFrom (some c) [letters ds] cs = true ↔ Text.BeginsInAnyCase ds cs) :
    (beginning all).findFrom (some c)
        (distinct (if (Tree.literalSet d true).holds c.toNat then [letters ds] else [])) cs = true ↔
      Text.SameLetter d c ∧ Text.BeginsInAnyCase ds cs := by
  by_cases hd : (Tree.literalSet d true).holds c.toNat = true
  · rw [if_pos hd, distinct_singleton, h]
    exact (and_iff_right ((holds_literalSet d c).1 hd)).symm
  · have hnone : distinct ([] : List Expr) = [] := rfl
    rw [if_neg hd, hnone, findFrom_nil]
    exact iff_of_false Bool.false_ne_true fun h => hd ((holds_literalSet d c).2 h.1)

/-- From a residual of letters on, those letters are found that come next. -/
theorem findFrom_letters (all : List Char) (ds : List Char) (before : Char) (cs : List Char) :
    (beginning all).findFrom (some before) [letters ds] cs = true ↔ Text.BeginsInAnyCase ds cs := by
  -- each step reads a character and a letter; the whole expression never starts again
  induction cs generalizing ds before with
  | nil =>
    cases ds with
    | nil => simp [findFrom, letters, nullable, Text.beginsInAnyCase_nil]
    | cons d ds =>
      simp [findFrom, nullable_beginning_of_some, nullable_letters, Text.not_beginsInAnyCase_nil]
  | cons c cs ih =>
    rw [findFrom]
    cases ds with
    | nil => simp [letters, nullable, Text.beginsInAnyCase_nil]
    | cons d ds =>
      rw [Text.beginsInAnyCase_cons]
      simp only [List.any_cons, List.any_nil, nullable_beginning_of_some, nullable_letters,
        List.flatMap_cons, List.flatMap_nil, derive_beginning_of_some, derive_letters, List.append_nil,
        List.nil_append, Bool.or_false, Bool.false_or]
      exact findFrom_distinct all d c ds cs (ih ds c)

/-- Letters at the beginning are found in the texts that begin with them in any case. -/
theorem isFoundIn_beginning (ds : List Char) (text : String) :
    (beginning ds).isFoundIn text = true ↔ Text.BeginsInAnyCase ds text.toList := by
  rw [isFoundIn]
  cases ds with
  | nil =>
    have hnull : ∀ after, (beginning []).nullable none after = true := fun _ => rfl
    cases text.toList <;> simp [findFrom, hnull, Text.beginsInAnyCase_nil]
  | cons d ds =>
    have hnull : ∀ after, (beginning (d :: ds)).nullable none after = false := by
      intro after
      exact nullable_letters none after d ds
    cases text.toList with
    | nil => simp [findFrom, hnull, Text.not_beginsInAnyCase_nil]
    | cons c cs =>
      have hderive : (beginning (d :: ds)).derive none c = (letters (d :: ds)).derive none c := rfl
      rw [findFrom, Text.beginsInAnyCase_cons]
      simp only [List.any_cons, List.any_nil, hnull, List.flatMap_cons, List.flatMap_nil, hderive,
        derive_letters, List.append_nil, Bool.or_false, Bool.false_or]
      exact findFrom_distinct (d :: ds) d c ds cs (findFrom_letters _ ds c cs)

end Expr
/-! ## Reading -/

namespace Pattern

/-- A character as it is written where it is to stand for itself. -/
def escapeChar (c : Char) : List Char :=
  if isMeta c then ['\\', c] else [c]

/-- Behind a backslash a character with a meaning stands for itself. -/
theorem readEscape_of_isMeta {c : Char} (h : isMeta c = true) (rest : List Char) :
    readEscape (c :: rest) = some (.literal c, rest) := by
  simp only [isMeta, List.contains_iff_mem] at h
  simp at h
  rcases h with rfl | rfl | rfl | rfl | rfl | rfl | rfl | rfl | rfl | rfl | rfl | rfl | rfl | rfl | rfl | rfl |
    rfl | rfl <;> rfl

/-- A character without a meaning begins no count. -/
theorem readRepetition_of_not_isMeta {c : Char} (h : isMeta c = false) (rest : List Char) :
    readRepetition (c :: rest) = some none := by
  unfold readRepetition
  split
  all_goals first
    | rfl
    | (rename_i heq
       cases heq
       exact absurd h (by decide))

section

variable {r : Row} (hspacing : r.options.freeSpacing = false)

include hspacing

/-- White space is not skipped unless the option for it is on. -/
theorem skipFree_eq (cs : List Char) : skipFree r.options cs = cs := by
  simp [skipFree, hspacing]

/-- A character that stands for itself is one more part of the row. -/
theorem readRow_escapeChar (fuel depth : Nat) (c : Char) (rest : List Char) :
    readRow (fuel + 1) depth r (escapeChar c ++ rest) =
      readRow fuel depth (r.push (.literal c r.options.anyCase)) rest := by
  rw [readRow]
  dsimp only
  rw [skipFree_eq hspacing]
  by_cases hmeta : isMeta c = true
  · rw [escapeChar, if_pos hmeta]
    simp only [List.cons_append, List.nil_append, readEscape_of_isMeta hmeta]
    rfl
  · rw [escapeChar, if_neg hmeta, List.cons_append, List.nil_append]
    have hplain : isMeta c = false := Bool.eq_false_iff.2 hmeta
    -- every character with a branch of its own in the reader has a meaning
    split
    case h_1 heq => cases heq
    case h_10 heq =>
      cases heq
      rw [readRepetition_of_not_isMeta hplain rest]
    all_goals
      rename_i heq
      cases heq
      exact absurd hplain (by decide)

/-- An escaped text is read as its characters, each a literal in the case that is asked for. -/
theorem readRow_escape (depth : Nat) (cs : List Char) {fuel : Nat} (hfuel : cs.length < fuel) :
    readRow fuel depth r (cs.flatMap escapeChar) =
      some ({ r with parts := (cs.map fun c => .literal c r.options.anyCase).reverse ++ r.parts }, []) := by
  induction cs generalizing r fuel with
  | nil =>
    obtain ⟨fuel, rfl⟩ : ∃ n, fuel = n + 1 := ⟨fuel - 1, by simp at hfuel; omega⟩
    rw [readRow]
    dsimp only
    rw [skipFree_eq hspacing]
    rfl
  | cons c cs ih =>
    obtain ⟨fuel, rfl⟩ : ∃ n, fuel = n + 1 := ⟨fuel - 1, by simp at hfuel; omega⟩
    have hpushed : (r.push (.literal c r.options.anyCase)).options.freeSpacing = false := hspacing
    rw [List.flatMap_cons, readRow_escapeChar hspacing, ih hpushed (by simp at hfuel; omega)]
    simp [Row.push]

end

/-- A text is escaped character by character. -/
theorem toList_escape (s : String) : (escape s).toList = s.toList.flatMap escapeChar := by
  rw [escape, String.toList_ofList]
  rfl

/-- Literals in a row mean their letters in a row. -/
theorem exprOfRow_literals (cs : List Char) :
    Tree.exprOfRow (cs.map fun c => .literal c true) = Expr.letters cs := by
  induction cs with
  | nil => rfl
  | cons c cs ih =>
    cases cs with
    | nil => rfl
    | cons c' cs =>
      have hrow : Tree.exprOfRow ((c :: c' :: cs).map fun c => .literal c true) =
          .seq (Expr.letter c) (Tree.exprOfRow ((c' :: cs).map fun c => .literal c true)) := rfl
      rw [hrow, ih]
      rfl

/-- The opening that ignores case sets this option alone. -/
theorem readOpening_anyCase (rest : List Char) :
    readOpening {} ('?' :: 'i' :: ')' :: rest) = some (.options { anyCase := true }, rest) := by
  have hoptions : readOptions {} [] true false ('i' :: ')' :: rest) =
      some ({ anyCase := true }, ')' :: rest) := by
    simp [readOptions, Options.set]
  simp [readOpening, hoptions]

/-- The row that is read for a text at the beginning, in any case. -/
theorem readRow_beginning (depth : Nat) (cs : List Char) {fuel : Nat} (hfuel : cs.length + 2 < fuel) :
    readRow fuel depth { options := {} } ('(' :: '?' :: 'i' :: ')' :: '^' :: cs.flatMap escapeChar) =
      some ({ options := { anyCase := true },
              parts := (cs.map fun c => .literal c true).reverse ++ [.anchor .textStart, .empty] }, []) := by
  obtain ⟨fuel, rfl⟩ : ∃ n, fuel = n + 2 := ⟨fuel - 2, by omega⟩
  have hfree : ∀ o : Options, o.freeSpacing = false → ∀ cs, skipFree o cs = cs := by
    intro o ho cs
    simp [skipFree, ho]
  rw [readRow]
  simp only [hfree {} rfl, readOpening_anyCase]
  rw [readRow]
  simp only [Row.push, hfree { anyCase := true } rfl]
  rw [readRow_escape rfl depth cs (by omega)]
  simp [startAnchor]

/-- The tree of a text at the beginning, in any case. -/
def beginningTree (s : String) : Tree :=
  .row (.empty :: .anchor .textStart :: s.toList.map fun c => .literal c true)

/-- The tree of a beginning is one row. -/
theorem nesting_beginningTree (s : String) : (beginningTree s).nesting = 1 := by
  have hletters : ∀ cs : List Char, Tree.nestingOfAll (cs.map fun c => .literal c true) = 0 := by
    intro cs
    induction cs with
    | nil => rfl
    | cons c cs ih => simp [Tree.nestingOfAll, Tree.nesting, ih]
  simp [beginningTree, Tree.nesting, Tree.nestingOfAll, hletters]

/-- The tree of a beginning means that the text begins so, in any case. -/
theorem expr_beginningTree (s : String) : (beginningTree s).expr = Expr.beginning s.toList := by
  rw [beginningTree, Expr.beginning, ← exprOfRow_literals]
  cases s.toList <;> rfl

/-- Whatever the text, the pattern for it at the beginning can be read. -/
theorem read_beginning (s : String) : read ("(?i)" ++ ("^" ++ escape s)) = some (beginningTree s) := by
  have hchars : ("(?i)" ++ ("^" ++ escape s)).toList =
      '(' :: '?' :: 'i' :: ')' :: '^' :: s.toList.flatMap escapeChar := by
    simp [toList_escape]
  have hlength : s.toList.length ≤ (s.toList.flatMap escapeChar).length := by
    generalize s.toList = cs
    induction cs with
    | nil => simp
    | cons c cs ih =>
      have hc : 1 ≤ (escapeChar c).length := by
        unfold escapeChar
        split <;> simp
      rw [List.flatMap_cons, List.length_append, List.length_cons]
      omega
  have hrow : (Row.mk { anyCase := true }
      ((s.toList.map fun c => .literal c true).reverse ++ [.anchor .textStart, .empty]) [] [] 0).all =
      beginningTree s := by
    simp [Row.all, Row.tree, Tree.ofChoice, Tree.ofRow, beginningTree]
  unfold read
  dsimp only
  rw [hchars, readRow_beginning _ _ (by simp only [List.length_cons]; omega)]
  dsimp only
  rw [hrow, nesting_beginningTree, if_pos (by decide)]

/-- So only its size can speak against it. -/
theorem ofText?_beginning (s : String) :
    ofText? ("^" ++ escape s) true =
      if (beginningTree s).shape.fits then
        some { source := "(?i)" ++ ("^" ++ escape s), expr := Expr.beginning s.toList }
      else none := by
  simp only [ofText?, if_true, read_beginning, Option.bind_eq_bind, Option.bind_some, expr_beginningTree]
  rfl

/-- A pattern for a text at the beginning, in any case, is found in the texts that begin so. -/
theorem isFoundIn_of_ofText? {s : String} {p : Pattern} (h : ofText? ("^" ++ escape s) true = some p)
    (text : String) : p.isFoundIn text = true ↔ Text.BeginsInAnyCase s.toList text.toList := by
  rw [ofText?_beginning, Option.ite_none_right_eq_some, Option.some.injEq] at h
  obtain ⟨-, rfl⟩ := h
  exact Expr.isFoundIn_beginning s.toList text

end Pattern
end MediaCatalogue
