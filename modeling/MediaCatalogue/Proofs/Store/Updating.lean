import MediaCatalogue.Proofs.Store.Refusal
import MediaCatalogue.Proofs.Store.Setting

/-!
# What an update does

An update goes through the documents and takes those that match, all of them or only the first. What it
makes of a document is stored if it is not equal to it, and only then a change is counted. As long as
every double is a number, the counts can be read off the documents before and after. Nothing but the
fields of the documents that were taken changes, and no document is stored that may not be.
-/

set_option autoImplicit false

namespace MediaCatalogue

/-- An update takes a document behind others: it matches, and if only one is to be updated, none of the
others does. -/
def Filter.Selects (f : Filter) (multi : Bool) (front : List Document) (d : Document) : Prop :=
  f.isMatch d.fields = true ∧ (multi = true ∨ ∀ x ∈ front, f.isMatch x.fields = false)

/-! ## One document -/

namespace Update

/-- What an update makes of a document, whether it may be stored or not. -/
def assign (u : Update) (d : Document) : Except DocumentError Document :=
  match u with
  | .replace replacement => .ok { d with fields := replacement.fields }
  | .set fields => Document.setPaths fields d

/-- Every double within what the update stores is a number. -/
def HasNoNaN : Update → Prop
  | .replace replacement => replacement.HasNoNaN
  | .set fields => (Value.object fields).HasNoNaN

section

variable {u : Update} {d d' : Document}

/-- An update makes what it assigns, if that may be stored. -/
theorem apply_eq_ok_iff : u.apply d = .ok d' ↔ u.assign d = .ok d' ∧ d'.validate = .ok () := by
  have hvalid : ∀ x : Document, (x.validate.map fun _ => x) = .ok d' ↔
      x = d' ∧ d'.validate = .ok () := by
    intro x
    cases hx : x.validate with
    | error e =>
      simp only [Except.map, reduceCtorEq, false_iff]
      rintro ⟨rfl, h⟩
      simp [hx] at h
    | ok _ =>
      simp only [Except.map, Except.ok.injEq]
      constructor
      · rintro rfl
        exact ⟨rfl, hx⟩
      · exact And.left
  cases u with
  | replace replacement => simp [apply, assign, hvalid]
  | set fields =>
    rw [apply, assign]
    cases Document.setPaths fields d with
    | error e => simp
    | ok x => simp [hvalid]

/-- An update keeps the identifier. -/
theorem id_of_assign (h : u.assign d = .ok d') : d'.id = d.id := by
  cases u with
  | replace replacement =>
    cases h
    rfl
  | set fields => exact (Document.setPaths_eq_ok_iff.1 h).2.1

/-- An update with numbers of a document with numbers leaves one with numbers. -/
theorem hasNoNaN_of_assign (hu : u.HasNoNaN) (hd : d.HasNoNaN) (h : u.assign d = .ok d') :
    d'.HasNoNaN := by
  cases u with
  | replace replacement =>
    cases h
    exact hu
  | set fields => exact hd.setPaths hu h

end

/-- What has become of a document when an update is over. Equal documents are not told apart: one that was
selected is what the update assigns up to equality. -/
structure Leaves (u : Update) (selected : Prop) (d d' : Document) : Prop where
  id : d'.id = d.id
  untouched : ¬ selected → d' = d
  assigned : selected → ∃ updated, u.assign d = .ok updated ∧ updated.equals d' = true
  valid : d' ≠ d → d'.validate = .ok ()

/-- What an update leaves of a document depends only on whether it is selected. -/
theorem Leaves.congr {u : Update} {p q : Prop} {d d' : Document} (h : u.Leaves p d d') (hpq : p ↔ q) :
    u.Leaves q d d' :=
  ⟨h.id, fun hq => h.untouched (mt hpq.1 hq), fun hq => h.assigned (hpq.2 hq), h.valid⟩

/-- A document that is not selected is left as it is. -/
theorem leaves_self (u : Update) (d : Document) : u.Leaves False d d :=
  ⟨rfl, fun _ => rfl, False.elim, fun hne => absurd rfl hne⟩

section

variable {u : Update} {d d' : Document} {k : Nat}

/-- What a document is taken to is what the update leaves of a selected one. -/
theorem Takes.leaves (h : u.Takes d d' k) (hu : u.HasNoNaN) (hd : d.HasNoNaN) :
    u.Leaves True d d' := by
  cases h with
  | @same updated happly hequal =>
    exact ⟨rfl, fun _ => rfl, fun _ => ⟨updated, (apply_eq_ok_iff.1 happly).1, hequal⟩,
      fun hne => absurd rfl hne⟩
  | changed happly hequal =>
    obtain ⟨hassign, hvalid⟩ := apply_eq_ok_iff.1 happly
    have hself := Document.equals_self (hasNoNaN_of_assign hu hd hassign)
    exact ⟨id_of_assign hassign, fun hnot => absurd trivial hnot, fun _ => ⟨_, hassign, hself⟩,
      fun _ => hvalid⟩

/-- A change is counted if the document after is not equal to the one before. -/
theorem Takes.count_eq (h : u.Takes d d' k) (hd : d.HasNoNaN) :
    k = if d'.equals d then 0 else 1 := by
  cases h with
  | same => rw [if_pos (Document.equals_self hd)]
  | changed _ hequal => simp [hequal]

end

end Update

namespace Collection

/-! ## The documents one after another -/

/-- An update goes through documents and nothing goes wrong: what it leaves, how many documents it has
taken, and how many of them have changed. -/
inductive Runs (f : Filter) (u : Update) (multi : Bool) :
    List Document → List Document → Nat → Nat → Prop where
  | done : Runs f u multi [] [] 0 0
  | pass {d : Document} {ds ds' : List Document} {m n : Nat} : f.isMatch d.fields = false →
    Runs f u multi ds ds' m n → Runs f u multi (d :: ds) (d :: ds') m n
  | stop {d d' : Document} {ds : List Document} {k : Nat} : f.isMatch d.fields = true →
    multi = false → u.Takes d d' k → Runs f u multi (d :: ds) (d' :: ds) 1 k
  | go {d d' : Document} {ds ds' : List Document} {k m n : Nat} : f.isMatch d.fields = true →
    multi = true → u.Takes d d' k → Runs f u multi ds ds' m n →
      Runs f u multi (d :: ds) (d' :: ds') (m + 1) (n + k)

section

variable {f : Filter} {u : Update} {multi : Bool}

/-- An update that goes through its documents without an error runs, and its counts are those of the
run. -/
theorem runs_of_updateMatching {ds : List Document} {start : UpdateResult}
    (h : (updateMatching f u multi start ds).2.2 = none) :
    ∃ m n, Runs f u multi ds (updateMatching f u multi start ds).1 m n ∧
      (updateMatching f u multi start ds).2.1 =
        ⟨start.matched + m, start.modified + n, start.upserted⟩ := by
  induction ds generalizing start with
  | nil => exact ⟨0, 0, .done, rfl⟩
  | cons d ds ih =>
    cases hd : f.isMatch d.fields with
    | false =>
      have hpassed : ∀ x ∈ [d], f.isMatch x.fields = false := by simpa using hd
      have hstep := updateMatching_append f u multi hpassed start ds
      rw [List.singleton_append] at hstep
      rw [hstep] at h ⊢
      obtain ⟨m, n, hrun, hr⟩ := ih h
      exact ⟨m, n, .pass hd hrun, hr⟩
    | true =>
      cases happly : u.apply d with
      | error e => simp [updateMatching, hd, happly] at h
      | ok updated =>
        obtain ⟨d', k, htakes⟩ := Update.exists_takes happly
        rw [updateMatching_of_takes hd htakes] at h ⊢
        cases multi with
        | false => exact ⟨1, k, .stop hd rfl htakes, rfl⟩
        | true =>
          obtain ⟨m, n, hrun, hr⟩ := ih h
          refine ⟨m + 1, n + k, .go hd rfl htakes hrun, hr.trans ?_⟩
          simp only [UpdateResult.mk.injEq, and_true]
          omega

/-- In documents that stay as they are no change is counted. -/
theorem countP_zip_self {ds : List Document} (h : ∀ d ∈ ds, d.HasNoNaN) :
    ((ds.zip ds).countP fun p => !p.2.equals p.1) = 0 := by
  induction ds with
  | nil => rfl
  | cons d ds ih =>
    rw [List.forall_mem_cons] at h
    simpa [Document.equals_self h.1] using ih h.2

namespace Runs

variable {ds ds' : List Document} {m n : Nat}

/-- An update neither adds nor removes documents on its way. -/
theorem length_eq (h : Runs f u multi ds ds' m n) : ds'.length = ds.length := by
  induction h with
  | done => rfl
  | pass _ _ ih => simp [ih]
  | stop => simp
  | go _ _ _ _ ih => simp [ih]

/-- The documents that were taken are those that match, or one of them. -/
theorem matched_eq (h : Runs f u multi ds ds' m n) :
    m = if multi then ds.countP fun d => f.isMatch d.fields
      else min (ds.countP fun d => f.isMatch d.fields) 1 := by
  induction h with
  | done => simp
  | pass hd _ ih => simpa [hd] using ih
  | stop hd hmulti _ => simp [hd, hmulti]
  | go hd hmulti _ _ ih => simpa [hd, hmulti] using ih

/-- No document is taken exactly when none matches. -/
theorem matched_eq_zero_iff (h : Runs f u multi ds ds' m n) :
    m = 0 ↔ ∀ d ∈ ds, f.isMatch d.fields = false := by
  have hnone : (∀ d ∈ ds, f.isMatch d.fields = false) ↔ ds.countP (fun d => f.isMatch d.fields) = 0 := by
    simp [List.countP_eq_zero]
  rw [hnone, h.matched_eq]
  cases multi with
  | true => rfl
  | false =>
    simp only [Bool.false_eq_true, if_false]
    omega

/-- An update that has taken no document has left all as they were. -/
theorem eq_of_matched_eq_zero (h : Runs f u multi ds ds' m n) (hm : m = 0) : ds' = ds := by
  induction h with
  | done => rfl
  | pass _ _ ih => rw [ih hm]
  | stop => cases hm
  | go => cases hm

/-- A change is counted where the document after is not equal to the one before. -/
theorem modified_eq (h : Runs f u multi ds ds' m n) (hds : ∀ d ∈ ds, d.HasNoNaN) :
    n = (ds.zip ds').countP fun p => !p.2.equals p.1 := by
  induction h with
  | done => rfl
  | pass _ _ ih =>
    rw [List.forall_mem_cons] at hds
    simpa [Document.equals_self hds.1] using ih hds.2
  | @stop d d' ds k _ _ htakes =>
    rw [List.forall_mem_cons] at hds
    rw [List.zip_cons_cons, List.countP_cons, countP_zip_self hds.2, htakes.count_eq hds.1]
    cases d'.equals d <;> rfl
  | @go d d' ds ds' k m n _ _ htakes _ ih =>
    rw [List.forall_mem_cons] at hds
    rw [List.zip_cons_cons, List.countP_cons, ← ih hds.2, htakes.count_eq hds.1]
    cases d'.equals d <;> rfl

/-- At each place an update leaves of the document what it leaves of one selected there, or not. -/
theorem leaves (h : Runs f u multi ds ds' m n) (hu : u.HasNoNaN) (hds : ∀ d ∈ ds, d.HasNoNaN) {i : Nat}
    {d d' : Document} (hd : ds[i]? = some d) (hd' : ds'[i]? = some d') :
    u.Leaves (f.Selects multi (ds.take i) d) d d' := by
  induction h generalizing i with
  | done => simp at hd
  | @pass x ds ds' m n hx _ ih =>
    rw [List.forall_mem_cons] at hds
    cases i with
    | zero =>
      cases hd
      cases hd'
      refine (u.leaves_self d).congr (iff_of_false id fun hselects => ?_)
      simp [hselects.1] at hx
    | succ i =>
      refine (ih hds.2 hd hd').congr ?_
      simp [Filter.Selects, hx]
  | @stop x x' ds k hx hmulti htakes =>
    rw [List.forall_mem_cons] at hds
    cases i with
    | zero =>
      cases hd
      cases hd'
      exact (htakes.leaves hu hds.1).congr (iff_of_true trivial ⟨hx, .inr (by simp)⟩)
    | succ i =>
      obtain rfl : d = d' := Option.some.inj (hd.symm.trans hd')
      refine (u.leaves_self d).congr (iff_of_false id fun hselects => ?_)
      simp [Filter.Selects, hmulti, hx] at hselects
  | @go x x' ds ds' k m n hx hmulti htakes _ ih =>
    rw [List.forall_mem_cons] at hds
    cases i with
    | zero =>
      cases hd
      cases hd'
      exact (htakes.leaves hu hds.1).congr (iff_of_true trivial ⟨hx, .inl hmulti⟩)
    | succ i =>
      refine (ih hds.2 hd hd').congr ?_
      simp [Filter.Selects, hmulti]

end Runs

end

/-! ## The whole update -/

/-- A new document may be stored. -/
theorem validate_of_upsertDocument {filter : Fields Value} {u : Update} {id : DocumentId} {d : Document}
    (h : upsertDocument filter u id = .ok d) : d.validate = .ok () := by
  cases u with
  | replace replacement =>
    rw [upsertDocument] at h
    exact (Update.apply_eq_ok_iff.1 h).2
  | set fields =>
    rw [upsertDocument] at h
    split at h
    · cases h
    · exact (Update.apply_eq_ok_iff.1 h).2

section

variable {c c' : Collection} {filter : Fields Value} {f : Filter} {u : Update} {upsert multi : Bool}
  {r : UpdateResult}

/-- An update that goes well goes through all documents, and stores a new one if it has taken none and is
to do so. -/
theorem runs_of_update (hf : Filter.ofFields filter = .ok f)
    (h : c.update filter u upsert multi = (c', .ok r)) :
    ∃ kept m n, Runs f u multi c.documents kept m n ∧
      ((m = 0 ∧ upsert = true ∧ ∃ d, upsertDocument filter u (.generated c.generated) = .ok d ∧
          c'.documents = kept ++ [d] ∧ r = ⟨m, n, some d.id⟩) ∨
        (¬ (m = 0 ∧ upsert = true) ∧ c'.documents = kept ∧ r = ⟨m, n, none⟩)) := by
  cases herror : (updateMatching f u multi {} c.documents).2.2 with
  | some e => simp [update, hf, herror] at h
  | none =>
    obtain ⟨m, n, hrun, hr⟩ := runs_of_updateMatching herror
    refine ⟨_, m, n, hrun, ?_⟩
    simp only [update, hf, herror, hr, Nat.zero_add] at h
    by_cases hupsert : m = 0 ∧ upsert = true
    · rw [if_pos hupsert] at h
      cases hnew : upsertDocument filter u (.generated c.generated) with
      | error e => simp [hnew] at h
      | ok d =>
        rw [hnew] at h
        cases h
        exact .inl ⟨hupsert.1, hupsert.2, d, rfl, rfl, rfl⟩
    · rw [if_neg hupsert] at h
      cases h
      exact .inr ⟨hupsert, rfl, rfl⟩

/-- **What an update that goes well has done.** It has taken the documents that match, or the first of
them. The documents are where they were, under their identifiers, with what the update assigns in those
that were taken and nothing else changed, and the changes are counted. Behind them stands a new document
if and only if none matched and there was to be one. All that has been stored may be stored. -/
theorem documents_of_update_ok (hc : ∀ d ∈ c.documents, d.HasNoNaN) (hu : u.HasNoNaN)
    (hf : Filter.ofFields filter = .ok f) (h : c.update filter u upsert multi = (c', .ok r)) :
    ∃ (kept : List Document) (added : Option Document),
      c'.documents = kept ++ added.toList ∧ kept.length = c.documents.length ∧
      (∀ i d d', c.documents[i]? = some d → kept[i]? = some d' →
        u.Leaves (f.Selects multi (c.documents.take i) d) d d') ∧
      r.matched = (if multi then c.documents.countP fun d => f.isMatch d.fields
        else min (c.documents.countP fun d => f.isMatch d.fields) 1) ∧
      r.modified = ((c.documents.zip kept).countP fun p => !p.2.equals p.1) ∧
      r.upserted = added.map Document.id ∧
      (added.isSome = true ↔ (∀ d ∈ c.documents, f.isMatch d.fields = false) ∧ upsert = true) ∧
      ∀ d ∈ added, d.validate = .ok () := by
  obtain ⟨kept, m, n, hrun, hcases⟩ := runs_of_update hf h
  obtain ⟨hm, hupsert, d, hd, hdocuments, rfl⟩ | ⟨hnot, hdocuments, rfl⟩ := hcases
  · exact ⟨kept, some d, hdocuments, hrun.length_eq, fun i _ _ => hrun.leaves hu hc, hrun.matched_eq,
      hrun.modified_eq hc, rfl, iff_of_true rfl ⟨hrun.matched_eq_zero_iff.1 hm, hupsert⟩,
      fun x hx => by cases hx; exact validate_of_upsertDocument hd⟩
  · rw [hrun.matched_eq_zero_iff] at hnot
    exact ⟨kept, none, hdocuments.trans (by simp), hrun.length_eq, fun i _ _ => hrun.leaves hu hc,
      hrun.matched_eq, hrun.modified_eq hc, rfl, iff_of_false (by simp) hnot, by simp⟩

end

/-- The first of the documents, with what it costs. -/
def pricedPilot : Document :=
  pilotWith "/one" [("policy", .object [("revenue", .string "paid")])]

/-- An update of one pilot changes the first and counts it. -/
theorem update_first_pilot :
    pilots.update pilotFilter pricing true false =
      ({ documents := [pricedPilot, pilotWith "/two" [("policy", .string "free")]], writes := 1 },
        .ok ⟨1, 1, none⟩) := by
  have hread : Filter.ofFields pilotFilter = .ok (.equal "title" (.string "Pilot")) := rfl
  have hone : (Filter.equal "title" (.string "Pilot")).isMatch (pilotWith "/one" []).fields = true := rfl
  have hset : (pilotWith "/one" []).setPath "policy.revenue" (.string "paid") = .ok pricedPilot := rfl
  have hvalid : pricedPilot.validate = .ok () := rfl
  have happly : pricing.apply (pilotWith "/one" []) = .ok pricedPilot := by
    rw [Update.apply_eq_ok_iff, pricing, Update.assign, Document.setPaths, hset]
    exact ⟨rfl, hvalid⟩
  have hchanged : pricedPilot.equals (pilotWith "/one" []) = false := rfl
  have htakes := Update.Takes.changed happly hchanged
  simp [pilots, update, hread, updateMatching_of_takes hone htakes]

/-- Of two documents that match, the first is changed if only one is to be. -/
theorem documents_of_update_ok_pilots :
    ∃ (kept : List Document) (added : Option Document),
      [pricedPilot, pilotWith "/two" [("policy", .string "free")]] = kept ++ added.toList ∧
      (∀ i d d', pilots.documents[i]? = some d → kept[i]? = some d' → pricing.Leaves
        ((Filter.equal "title" (.string "Pilot")).Selects false (pilots.documents.take i) d) d d') ∧
      1 = ((pilots.documents.zip kept).countP fun p => !p.2.equals p.1) := by
  have hread : Filter.ofFields pilotFilter = .ok (.equal "title" (.string "Pilot")) := rfl
  have hdocuments : ∀ d ∈ pilots.documents, d.HasNoNaN := by
    simp [pilots, pilotWith, Document.HasNoNaN, Value.hasNoNaN_object, Value.hasNoNaN_string,
      List.forall_mem_cons, -List.mem_cons, -Prod.forall]
  have hpricing : pricing.HasNoNaN := by
    simp [pricing, Update.HasNoNaN, Value.hasNoNaN_object, Value.hasNoNaN_string]
  obtain ⟨kept, added, hkept, -, hleaves, -, hmodified, -⟩ :=
    documents_of_update_ok hdocuments hpricing hread update_first_pilot
  exact ⟨kept, added, hkept, hleaves, hmodified⟩

end Collection

end MediaCatalogue
