import Mathlib.Data.List.Chain
import MediaCatalogue.Proofs.Pattern.Literal
import MediaCatalogue.Proofs.Text.Lowering

/-!
# Folding and lower case

Patterns pass over case letter by letter: two characters are the same letter when they fold to one code
point. Texts can also be compared in lower case, which looks at the neighbours of a letter and may make two
characters of one. The two ways are different ways, and differ for

- the dotted capital `İ`, which becomes two characters in lower case, of which the first is `i`;
- small letters that fold to another small letter, such as `ſ` to `s`, `ς` to `σ` and `µ` to `μ`;
- letters that one table knows the case of and the other does not;
- a capital sigma at the end of a word, which becomes `ς`, and not `σ`.

On texts without any of these, and so on all ASCII texts, a text begins with another letter by letter in
any case if and only if it does so in lower case.
-/

set_option autoImplicit false

namespace MediaCatalogue.Text

/-! ## Folding -/

/-- The spans of the folding table ascend. -/
theorem foldSpans_isChain : foldSpans.IsChain fun s t => s.last < t.first ∧ t.first ≤ t.last := by
  decide +kernel

/-- Folding leads to no negative number. -/
theorem foldSpans_nonneg : ∀ s ∈ foldSpans, 0 ≤ (s.first : Int) + s.shift := by
  decide +kernel

/-- A span covers the numbers between its ends, in steps of its stride. -/
theorem Span.covers_iff (s : Span) (n : Nat) :
    s.covers n = true ↔ s.first ≤ n ∧ n ≤ s.last ∧ (n - s.first) % s.stride = 0 := by
  simp [covers, and_assoc]

/-- No code point lies in two spans of the folding table. -/
theorem eq_of_covers {s t : Span} {n : Nat} (hs : s ∈ foldSpans) (ht : t ∈ foldSpans)
    (hsn : s.covers n = true) (htn : t.covers n = true) : s = t := by
  have htrans : IsTrans Span fun s t => s.last < t.first ∧ t.first ≤ t.last :=
    ⟨fun a b c hab hbc => ⟨by omega, hbc.2⟩⟩
  have hsymm : Std.Symm fun s t : Span => s.last < t.first ∨ t.last < s.first := ⟨fun _ _ h => h.symm⟩
  have hapart : foldSpans.Pairwise fun s t => s.last < t.first ∨ t.last < s.first :=
    (List.isChain_iff_pairwise.1 foldSpans_isChain).imp fun h => Or.inl h.1
  rw [Span.covers_iff] at hsn htn
  by_contra hne
  have hends := hapart.forall hs ht hne
  omega

/-- Folding shifts a code point by the span that covers it. -/
theorem fold_of_covers {s : Span} {n : Nat} (hs : s ∈ foldSpans) (hn : s.covers n = true) :
    (fold n : Int) = n + s.shift := by
  unfold fold mapBySpans
  cases hfind : foldSpans.find? (·.covers n) with
  | none => exact absurd hn (List.find?_eq_none.1 hfind s hs)
  | some t =>
    have htn : t.covers n = true := by simpa using List.find?_some hfind
    have hsame : t = s := eq_of_covers (List.mem_of_find?_eq_some hfind) hs htn hn
    have hnonneg := foldSpans_nonneg s hs
    have hfirst := ((Span.covers_iff s n).1 hn).1
    rw [hsame]
    dsimp only
    omega

/-- The code points that fold to another are those that a span covers and shifts there. -/
theorem mem_preimages_iff {m n : Nat} :
    m ∈ foldSpans.filterMap (·.preimage? n) ↔
      ∃ s ∈ foldSpans, s.covers m = true ∧ (m : Int) + s.shift = n := by
  rw [List.mem_filterMap]
  refine exists_congr fun s => and_congr_right fun _ => ?_
  simp only [Span.preimage?, Option.ite_none_right_eq_some, Option.some.injEq]
  constructor
  · rintro ⟨⟨hpos, hcovers⟩, rfl⟩
    exact ⟨hcovers, by omega⟩
  · rintro ⟨hcovers, hshift⟩
    have hm : ((n : Int) - s.shift).toNat = m := by omega
    exact ⟨⟨by omega, hm ▸ hcovers⟩, hm⟩

/-- A case variant is the folded form or has it. -/
theorem eq_fold_or_fold_eq {m n : Nat} (h : m ∈ caseVariants n) : m = fold n ∨ fold m = fold n := by
  rcases List.mem_cons.1 h with rfl | h
  · exact Or.inl rfl
  · obtain ⟨s, hs, hcovers, hshift⟩ := mem_preimages_iff.1 h
    have hfold := fold_of_covers hs hcovers
    exact Or.inr (by omega)

/-- Whatever has the folded form is a case variant. -/
theorem mem_caseVariants_of_fold_eq {m n : Nat} (h : fold m = fold n) : m ∈ caseVariants n := by
  rw [caseVariants, List.mem_cons]
  by_cases hcovered : ∃ s ∈ foldSpans, s.covers m = true
  · obtain ⟨s, hs, hcovers⟩ := hcovered
    have hfold := fold_of_covers hs hcovers
    exact Or.inr (mem_preimages_iff.2 ⟨s, hs, hcovers, by omega⟩)
  · left
    have hnone : foldSpans.find? (·.covers m) = none :=
      List.find?_eq_none.2 fun s hs hcovers => hcovered ⟨s, hs, hcovers⟩
    rw [← h, fold, mapBySpans, hnone]

/-! ## Letters that both ways treat alike -/

/-- One letter is the lower case of a character and of its folded form, and folds as the character does. -/
def HasEvenCase (c : Char) : Prop :=
  ∃ l : Char, lowerChar c = [l] ∧ lowerChar (Char.ofNat (fold c.toNat)) = [l] ∧ fold l.toNat = fold c.toNat

/-- Such characters are the same letter if and only if they are in lower case. -/
theorem sameLetter_iff_lowerChar_eq {d c : Char} (hd : HasEvenCase d) (hc : HasEvenCase c) :
    SameLetter d c ↔ lowerChar d = lowerChar c := by
  obtain ⟨l, hdl, hdfolded, hdfold⟩ := hd
  obtain ⟨m, hcm, hcfolded, hcfold⟩ := hc
  constructor
  · intro h
    rcases eq_fold_or_fold_eq h with heq | heq
    · rw [← heq, Char.ofNat_toNat] at hcfolded
      rw [hcfolded, hcm]
    · rw [← heq] at hcfolded
      rw [hdl, hcm, ← hdfolded, hcfolded]
  · intro h
    rw [hdl, hcm] at h
    obtain rfl := List.singleton_inj.1 h
    exact mem_caseVariants_of_fold_eq (hdfold.symm.trans hcfold)

/-- A text of such letters only, in which no capital sigma ends a word: its lower case is that of its
characters. -/
def IsEvenlyCased (t : String) : Prop :=
  (∀ c ∈ t.toList, HasEvenCase c) ∧ (lower t).toList = t.toList.flatMap lowerChar

/-- Evenly cased texts begin with each other in any case if and only if they do so in lower case. -/
theorem beginsInAnyCase_iff_of_isEvenlyCased {beginning text : String} (hbeginning : IsEvenlyCased beginning)
    (htext : IsEvenlyCased text) :
    BeginsInAnyCase beginning.toList text.toList ↔ (lower beginning).toList <+: (lower text).toList := by
  obtain ⟨hds, hlower⟩ := hbeginning
  obtain ⟨hcs, hlower'⟩ := htext
  rw [hlower, hlower']
  -- letter by letter; the lower case of the whole texts is not looked at any more
  clear hlower hlower'
  generalize beginning.toList = ds at hds
  generalize text.toList = cs at hcs
  induction ds generalizing cs with
  | nil => exact iff_of_true (beginsInAnyCase_nil cs) List.nil_prefix
  | cons d ds ih =>
    rw [List.forall_mem_cons] at hds
    obtain ⟨l, hl, -⟩ := hds.1
    cases cs with
    | nil =>
      refine iff_of_false (not_beginsInAnyCase_nil d ds) fun h => ?_
      rw [List.flatMap_cons, hl] at h
      cases List.prefix_nil.1 h
    | cons c cs =>
      rw [List.forall_mem_cons] at hcs
      obtain ⟨m, hm, -⟩ := hcs.1
      rw [beginsInAnyCase_cons, sameLetter_iff_lowerChar_eq hds.1 hcs.1, ih hds.2 cs hcs.2, List.flatMap_cons,
        List.flatMap_cons, hl, hm, List.singleton_append, List.singleton_append, List.cons_prefix_cons,
        List.singleton_inj]

/-! ## ASCII -/

/-- Where the spans of the folding table lead from ASCII: from the capitals to the small letters. -/
theorem foldSpans_spec :
    ∀ s ∈ foldSpans, 128 ≤ s.first ∨ s.first = 65 ∧ s.last = 90 ∧ s.stride = 1 ∧ s.shift = 32 := by
  decide +kernel

/-- In ASCII folding changes the capitals alone, to their small letters. -/
theorem fold_of_ascii {n : Nat} (h : n < 128) : fold n = if 65 ≤ n ∧ n ≤ 90 then n + 32 else n := by
  unfold fold mapBySpans
  cases hfind : foldSpans.find? (·.covers n) with
  | none =>
    have hcapital : ¬ (65 ≤ n ∧ n ≤ 90) := by
      have hcovers := List.find?_eq_none.1 hfind ⟨65, 90, 1, 32⟩ (.head _)
      simpa [Span.covers, Nat.mod_one] using hcovers
    rw [if_neg hcapital]
  | some s =>
    have hcovers := List.find?_some hfind
    simp only [Span.covers, Bool.and_eq_true, decide_eq_true_eq] at hcovers
    obtain ⟨⟨hfirst, hlast⟩, -⟩ := hcovers
    rcases foldSpans_spec s (List.mem_of_find?_eq_some hfind) with hbig | ⟨h65, h90, -, hshift⟩
    · omega
    · dsimp only
      rw [if_pos (by omega), hshift]
      omega

/-- In ASCII folding and lower case are the same. -/
theorem toLower_of_ascii {c : Char} (h : c.toNat < 128) : c.toLower = Char.ofNat (fold c.toNat) := by
  have hall : ∀ n < 128, (Char.ofNat n).toLower =
      Char.ofNat (if 65 ≤ n ∧ n ≤ 90 then n + 32 else n) := by
    decide
  rw [fold_of_ascii h, ← hall c.toNat h, Char.ofNat_toNat]

/-- The two ways of passing over case agree on ASCII characters. -/
theorem hasEvenCase_of_ascii {c : Char} (h : c.toNat < 128) : HasEvenCase c := by
  have hlower : c.toLower.toNat < 128 := (toLower_lt_iff c).2 h
  have htwice : c.toLower.toLower = c.toLower := by
    have hall : ∀ n < 128, (Char.ofNat n).toLower.toLower = (Char.ofNat n).toLower := by decide
    rw [← Char.ofNat_toNat c]
    exact hall c.toNat h
  have hfold : fold c.toLower.toNat = fold c.toNat := by
    have hvalid : (fold c.toNat).isValidChar := by
      rw [fold_of_ascii h, Nat.isValidChar]
      split <;> omega
    rw [toLower_of_ascii h, toNat_ofNat hvalid, fold_of_ascii h]
    split <;> rw [fold_of_ascii (by omega), if_neg (by omega)]
  refine ⟨c.toLower, if_pos h, ?_, hfold⟩
  rw [← toLower_of_ascii h, lowerChar, if_pos hlower, htwice]

/-- The two ways of passing over case agree on ASCII texts. -/
theorem isEvenlyCased_of_isAscii {t : String} (h : IsAscii t) : IsEvenlyCased t := by
  refine ⟨fun c hc => hasEvenCase_of_ascii (h c hc), ?_⟩
  rw [lower_of_ascii h, List.map_eq_flatMap]
  exact List.flatMap_congr fun c hc => (if_pos (h c hc)).symm

end MediaCatalogue.Text
