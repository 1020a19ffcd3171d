import MediaCatalogue.Proofs.Store.Replacement

/-!
# What a failed operation leaves

Inserting and removing documents fail before anything has changed, and so does an update of the first
document that matches. An update of all documents that match goes from one to the next and stops at
the first that it cannot bring into a form that may be stored. The documents in front have been
updated by then and stay so; the refused document and those behind it are as they were. Nothing is
taken back, so such an update can fail and still have changed documents.
-/

set_option autoImplicit false

namespace MediaCatalogue

/-- What an update of all documents that match makes of a document: one that does not match stays as
it is, and so does one that cannot be updated or that comes out equal. -/
def Update.outcome (u : Update) (f : Filter) (d : Document) : Document :=
  if f.isMatch d.fields then
    match u.apply d with
    | .error _ => d
    | .ok updated => if updated.equals d then d else updated
  else d

/-- The outcome for a document that is taken is what it is taken to. -/
theorem Update.Takes.outcome_eq {u : Update} {f : Filter} {d d' : Document} {k : Nat}
    (h : u.Takes d d' k) (hd : f.isMatch d.fields = true) : u.outcome f d = d' := by
  cases h with
  | same happly hequal => simp [outcome, hd, happly, hequal]
  | changed happly hequal => simp [outcome, hd, happly, hequal]

/-- An update of all documents that match stops at one: it is refused there, and not before. -/
structure Update.StopsAt (u : Update) (f : Filter) (reason : DocumentError) (before : List Document)
    (d : Document) : Prop where
  isMatch : f.isMatch d.fields = true
  refused : u.apply d = .error reason
  updated : ∀ x ∈ before, f.isMatch x.fields = true → ∃ y, u.apply x = .ok y

/-- A document in front makes no difference if it does not match or can be updated. -/
theorem Update.StopsAt.cons {u : Update} {f : Filter} {reason : DocumentError}
    {before : List Document} {d x : Document} (h : u.StopsAt f reason before d)
    (hx : f.isMatch x.fields = true → ∃ y, u.apply x = .ok y) :
    u.StopsAt f reason (x :: before) d :=
  ⟨h.isMatch, h.refused, List.forall_mem_cons.2 ⟨hx, h.updated⟩⟩

namespace Collection

/-! ## Going through the documents -/

section

variable (f : Filter) (u : Update) (multi : Bool)

/-- What an update does at one document: it passes it by, stops at it, or updates it and goes on if
it is to update all. -/
theorem updateMatching_cases (result : UpdateResult) (d : Document) (ds : List Document) :
    (f.isMatch d.fields = false ∧
      updateMatching f u multi result (d :: ds) =
        (d :: (updateMatching f u multi result ds).1, (updateMatching f u multi result ds).2)) ∨
    (f.isMatch d.fields = true ∧ ∃ counted : UpdateResult, 0 < counted.matched ∧
      ((∃ e, u.apply d = .error e ∧
          updateMatching f u multi result (d :: ds) = (d :: ds, counted, some e)) ∨
        ∃ updated, u.apply d = .ok updated ∧
          updateMatching f u multi result (d :: ds) =
            if multi then
              (u.outcome f d :: (updateMatching f u multi counted ds).1,
                (updateMatching f u multi counted ds).2)
            else (u.outcome f d :: ds, counted, none))) := by
  cases hd : f.isMatch d.fields with
  | false =>
    have hpassed : ∀ x ∈ [d], f.isMatch x.fields = false := by simp [hd]
    exact .inl ⟨rfl, updateMatching_append f u multi hpassed result ds⟩
  | true =>
    refine .inr ⟨rfl, ?_⟩
    cases happly : u.apply d with
    | error e =>
      rw [updateMatching, if_pos hd, happly]
      exact ⟨_, Nat.succ_pos _, .inl ⟨e, rfl, rfl⟩⟩
    | ok updated =>
      obtain ⟨d', k, htakes⟩ := Update.exists_takes happly
      rw [updateMatching_of_takes hd htakes, htakes.outcome_eq hd]
      exact ⟨⟨result.matched + 1, result.modified + k, result.upserted⟩, Nat.succ_pos _,
        .inr ⟨updated, rfl, rfl⟩⟩

/-- A match that has been counted stays counted. -/
theorem matched_pos_updateMatching {result : UpdateResult} (h : 0 < result.matched)
    (ds : List Document) : 0 < (updateMatching f u multi result ds).2.1.matched := by
  induction ds generalizing result with
  | nil => exact h
  | cons d ds ih =>
    obtain ⟨-, hstep⟩ | ⟨-, counted, hcounted, ⟨e, -, hstep⟩ | ⟨updated, -, hstep⟩⟩ :=
      updateMatching_cases f u multi result d ds
    · rw [hstep]
      exact ih h
    · rw [hstep]
      exact hcounted
    · rw [hstep]
      cases multi with
      | true => exact ih hcounted
      | false => exact hcounted

end

section

variable {f : Filter} {u : Update} {multi : Bool} {result : UpdateResult} {ds : List Document}

/-- If no match has been counted, no document has changed. -/
theorem documents_of_matched_eq_zero (h : (updateMatching f u multi result ds).2.1.matched = 0) :
    (updateMatching f u multi result ds).1 = ds := by
  induction ds generalizing result with
  | nil => rfl
  | cons d ds ih =>
    obtain ⟨-, hstep⟩ | ⟨-, counted, hcounted, ⟨e, -, hstep⟩ | ⟨updated, -, hstep⟩⟩ :=
      updateMatching_cases f u multi result d ds
    · rw [hstep] at h ⊢
      exact congrArg (d :: ·) (ih h)
    · rw [hstep]
    · exfalso
      have hpos := matched_pos_updateMatching f u multi hcounted ds
      rw [hstep] at h
      cases multi with
      | true => exact absurd h (Nat.ne_of_gt hpos)
      | false => exact absurd h (Nat.ne_of_gt hcounted)

/-- An update of the first match that fails has changed no document. -/
theorem documents_of_single_error {e : DocumentError}
    (h : (updateMatching f u false result ds).2.2 = some e) :
    (updateMatching f u false result ds).1 = ds := by
  induction ds generalizing result with
  | nil => rfl
  | cons d ds ih =>
    obtain ⟨-, hstep⟩ | ⟨-, counted, -, ⟨e', -, hstep⟩ | ⟨updated, -, hstep⟩⟩ :=
      updateMatching_cases f u false result d ds
    · rw [hstep] at h ⊢
      exact congrArg (d :: ·) (ih h)
    · rw [hstep]
    · rw [hstep] at h
      cases h

/-- An update of all matches that fails has stopped at one of them, and has made of the documents in
front what it makes of them. -/
theorem exists_of_multi_error {e : DocumentError}
    (h : (updateMatching f u true result ds).2.2 = some e) :
    ∃ before d after, ds = before ++ d :: after ∧ u.StopsAt f e before d ∧
      (updateMatching f u true result ds).1 = before.map (u.outcome f) ++ d :: after := by
  induction ds generalizing result with
  | nil => cases h
  | cons d ds ih =>
    obtain ⟨hd, hstep⟩ | ⟨hd, counted, -, ⟨e', hrefused, hstep⟩ | ⟨y, happly, hstep⟩⟩ :=
      updateMatching_cases f u true result d ds
    · rw [hstep] at h ⊢
      obtain ⟨before, x, after, rfl, hstops, hdocuments⟩ := ih h
      have houtcome : u.outcome f d = d := by simp [Update.outcome, hd]
      refine ⟨d :: before, x, after, rfl, hstops.cons (by simp [hd]), ?_⟩
      rw [hdocuments, List.map_cons, houtcome, List.cons_append]
    · rw [hstep] at h ⊢
      cases h
      exact ⟨[], d, ds, rfl, ⟨hd, hrefused, by simp⟩, rfl⟩
    · rw [hstep, if_pos rfl] at h ⊢
      obtain ⟨before, x, after, rfl, hstops, hdocuments⟩ := ih h
      refine ⟨d :: before, x, after, rfl, hstops.cons fun _ => ⟨y, happly⟩, ?_⟩
      rw [hdocuments, List.map_cons, List.cons_append]

end

/-! ## Operations that fail -/

/-- A failed insertion leaves the documents as they are. -/
theorem documents_of_insert_error {c : Collection} {d : Document} {e : StoreError}
    (h : (c.insert d).2 = .error e) : (c.insert d).1.documents = c.documents := by
  unfold insert at h ⊢
  split at h
  · rfl
  · cases h

/-- A failed removal leaves the documents as they are. -/
theorem documents_of_remove_error {c : Collection} {filter : Fields Value} {e : StoreError}
    (h : (c.remove filter).2 = .error e) : (c.remove filter).1.documents = c.documents := by
  unfold remove at h ⊢
  split at h
  · rfl
  · cases h

section

variable {c : Collection} {filter : Fields Value} {u : Update} {upsert multi : Bool} {e : StoreError}

/-- An update that fails has either changed nothing, or it has failed at a document. -/
theorem update_error_cases (h : (c.update filter u upsert multi).2 = .error e) :
    (c.update filter u upsert multi).1.documents = c.documents ∨
      ∃ f reason, Filter.ofFields filter = .ok f ∧ e = .document reason ∧
        (updateMatching f u multi {} c.documents).2.2 = some reason ∧
        (c.update filter u upsert multi).1.documents =
          (updateMatching f u multi {} c.documents).1 := by
  cases hread : Filter.ofFields filter with
  | error reason => exact .inl (by simp [update, hread])
  | ok f =>
    cases herror : (updateMatching f u multi {} c.documents).2.2 with
    | some reason =>
      have hupdate : c.update filter u upsert multi =
          ({ c with documents := (updateMatching f u multi {} c.documents).1 },
            .error (.document reason)) := by
        simp [update, hread, herror]
      rw [hupdate] at h ⊢
      cases h
      exact .inr ⟨f, reason, rfl, rfl, herror, rfl⟩
    | none =>
      by_cases hupsert : (updateMatching f u multi {} c.documents).2.1.matched = 0 ∧ upsert = true
      · -- no document matches, and the new one may not be stored
        refine .inl ?_
        have hsame := documents_of_matched_eq_zero hupsert.1
        cases hnew : upsertDocument filter u (.generated c.generated) with
        | error reason => simp [update, hread, herror, hupsert, hnew, hsame]
        | ok d => simp [update, hread, herror, hupsert, hnew] at h
      · simp [update, hread, herror, hupsert] at h

/-- An update of the first match that fails changes nothing, and neither does one of all matches,
unless a document in front of the refused one has been changed. -/
theorem documents_of_update_error (h : (c.update filter u upsert multi).2 = .error e) :
    (c.update filter u upsert multi).1.documents = c.documents ∨
      multi = true ∧ ∃ f before d after reason,
        Filter.ofFields filter = .ok f ∧ e = .document reason ∧
        c.documents = before ++ d :: after ∧ u.StopsAt f reason before d ∧
        (∃ x ∈ before, u.outcome f x ≠ x) ∧
        (c.update filter u upsert multi).1.documents = before.map (u.outcome f) ++ d :: after := by
  obtain hsame | ⟨f, reason, hread, rfl, herror, hdocuments⟩ := update_error_cases h
  · exact .inl hsame
  · rw [hdocuments]
    cases multi with
    | false => exact .inl (documents_of_single_error herror)
    | true =>
      obtain ⟨before, d, after, hsplit, hstops, hleft⟩ := exists_of_multi_error herror
      by_cases hchanged : ∃ x ∈ before, u.outcome f x ≠ x
      · exact .inr ⟨rfl, f, before, d, after, reason, hread, rfl, hsplit, hstops, hchanged, hleft⟩
      · have hsame : ∀ x ∈ before, u.outcome f x = x := by simpa using hchanged
        rw [hleft, hsplit, List.map_congr_left hsame, List.map_id']
        exact .inl rfl

end

/-- **What a failed operation leaves behind.** The documents are those from before, with one
exception: an update of all matches that is refused at one of them leaves what it has made of the
documents in front. -/
theorem documents_of_error (c : Collection) (e : StoreError) :
    (∀ d, (c.insert d).2 = .error e → (c.insert d).1.documents = c.documents) ∧
    (∀ filter, (c.remove filter).2 = .error e → (c.remove filter).1.documents = c.documents) ∧
    ∀ filter u upsert multi, (c.update filter u upsert multi).2 = .error e →
      (c.update filter u upsert multi).1.documents = c.documents ∨
        multi = true ∧ ∃ f before d after reason,
          Filter.ofFields filter = .ok f ∧ e = .document reason ∧
          c.documents = before ++ d :: after ∧ u.StopsAt f reason before d ∧
          (∃ x ∈ before, u.outcome f x ≠ x) ∧
          (c.update filter u upsert multi).1.documents = before.map (u.outcome f) ++ d :: after :=
  ⟨fun _ => documents_of_insert_error, fun _ => documents_of_remove_error,
    fun _ _ _ _ => documents_of_update_error⟩

/-- A document of this title with other fields in front. -/
def pilotWith (key : String) (fields : Fields Value) : Document :=
  ⟨.ofKey key, fields ++ [("title", .string "Pilot")]⟩

/-- Two documents of one title, the second with a text for a policy. -/
def pilots : Collection :=
  { documents := [pilotWith "/one" [], pilotWith "/two" [("policy", .string "free")]] }

/-- The filter for the title. -/
def pilotFilter : Fields Value :=
  [("title", .string "Pilot")]

/-- The update that says what a document costs. -/
def pricing : Update :=
  .set [("policy.revenue", .string "paid")]

/-- The update of all pilots fails at the second, whose policy is no object, and keeps the first as
changed. -/
theorem update_pilots :
    pilots.update pilotFilter pricing true true =
      ({ documents := [pilotWith "/one" [("policy", .object [("revenue", .string "paid")])],
          pilotWith "/two" [("policy", .string "free")]] },
        .error (.document (.invalidPath "policy.revenue"))) := by
  have hread : Filter.ofFields pilotFilter = .ok (.equal "title" (.string "Pilot")) := rfl
  have hone : (Filter.equal "title" (.string "Pilot")).isMatch (pilotWith "/one" []).fields = true := rfl
  have htwo : (Filter.equal "title" (.string "Pilot")).isMatch
      (pilotWith "/two" [("policy", .string "free")]).fields = true := rfl
  have hset : (pilotWith "/one" []).setPath "policy.revenue" (.string "paid") =
      .ok (pilotWith "/one" [("policy", .object [("revenue", .string "paid")])]) := rfl
  have hvalid : (pilotWith "/one" [("policy", .object [("revenue", .string "paid")])]).validate =
      .ok () := rfl
  have hchanged : (pilotWith "/one" [("policy", .object [("revenue", .string "paid")])]).equals
      (pilotWith "/one" []) = false := rfl
  have hrefused : (pilotWith "/two" [("policy", .string "free")]).setPath "policy.revenue"
      (.string "paid") = .error (.invalidPath "policy.revenue") := rfl
  simp only [pilots, pricing, update, hread, updateMatching, hone, htwo, if_true, Update.apply,
    Document.setPaths, hset, hvalid, hchanged, hrefused, Except.map, Bool.not_false]

/-- The failed update has changed the documents. -/
theorem documents_update_pilots_ne :
    (pilots.update pilotFilter pricing true true).1.documents ≠ pilots.documents := by
  intro hsame
  rw [update_pilots] at hsame
  have hlength := congrArg (List.map fun d : Document => d.fields.length) hsame
  exact absurd hlength (by decide)

/-- A value of arrays in one another. -/
def nestedArrays : Nat → Value
  | 0 => .null
  | n + 1 => .array [nestedArrays n]

/-- Arrays in one another have a size of eight each, and of one for the null in the midst. -/
theorem size_nestedArrays (n : Nat) : (nestedArrays n).size = 8 * n + 1 := by
  induction n with
  | zero => rfl
  | succ n ih => simp [nestedArrays, Value.size, Value.sizeOfItems, ih]; omega

/-- Arrays in one another are as deep as there are of them. -/
theorem depth_nestedArrays (n : Nat) : (nestedArrays n).depth = n := by
  induction n with
  | zero => rfl
  | succ n ih => simp [nestedArrays, Value.depth, Value.depthOfItems, ih]; omega

/-- A document of one level more than may be stored. -/
def deepPilot : Document :=
  pilotWith "/deep" [("nested", nestedArrays 33)]

/-- The document of one level more may not be stored, for its depth. -/
theorem validate_deepPilot : deepPilot.validate = .error (.tooDeep 33) := by
  have hsize : ¬ maxDocumentSize < deepPilot.size := by
    simp only [Document.size, deepPilot, pilotWith, List.cons_append, List.nil_append,
      Value.sizeOfFields, Value.size, size_nestedArrays]
    decide
  have hdepth : deepPilot.depth = 33 := by
    simp [Document.depth, deepPilot, pilotWith, Value.depthOfFields, Value.depth,
      depth_nestedArrays]
  simp [Document.validate, hsize, hdepth, maxNestingDepth]

/-- An insertion, a removal and an update that fail; only the update has gone through documents. -/
theorem documents_of_error_pilots :
    ((pilots.insert deepPilot).2 = .error (.document (.tooDeep 33)) ∧
      (pilots.insert deepPilot).1.documents = pilots.documents) ∧
    ((pilots.remove [("$near", .null)]).2 = .error (.filter (.unsupportedOperator "$near")) ∧
      (pilots.remove [("$near", .null)]).1.documents = pilots.documents) ∧
    (pilots.update pilotFilter pricing true true).2 =
        .error (.document (.invalidPath "policy.revenue")) ∧
      ∃ f before d after, pilots.documents = before ++ d :: after ∧
        pricing.StopsAt f (.invalidPath "policy.revenue") before d ∧
        (pilots.update pilotFilter pricing true true).1.documents =
          before.map (pricing.outcome f) ++ d :: after := by
  have hinsert : (pilots.insert deepPilot).2 = .error (.document (.tooDeep 33)) := by
    simp [insert, validate_deepPilot]
  have hremove : (pilots.remove [("$near", .null)]).2 =
      .error (.filter (.unsupportedOperator "$near")) := rfl
  have hupdate : (pilots.update pilotFilter pricing true true).2 =
      .error (.document (.invalidPath "policy.revenue")) := by
    rw [update_pilots]
  obtain ⟨hinserted, -, -⟩ := documents_of_error pilots (.document (.tooDeep 33))
  obtain ⟨-, hremoved, -⟩ := documents_of_error pilots (.filter (.unsupportedOperator "$near"))
  obtain ⟨-, -, hupdated⟩ := documents_of_error pilots (.document (.invalidPath "policy.revenue"))
  refine ⟨⟨hinsert, hinserted _ hinsert⟩, ⟨hremove, hremoved _ hremove⟩, hupdate, ?_⟩
  obtain hsame | ⟨-, f, before, d, after, reason, -, he, hsplit, hstops, -, hdocuments⟩ :=
    hupdated pilotFilter pricing true true hupdate
  · exact absurd hsame documents_update_pilots_ne
  · cases he
    exact ⟨f, before, d, after, hsplit, hstops, hdocuments⟩

/-- The second document is refused, and the first has been changed, though no change is counted. -/
theorem update_all_not_allOrNothing :
    (pilots.update pilotFilter pricing true true).2 =
        .error (.document (.invalidPath "policy.revenue")) ∧
      (pilots.update pilotFilter pricing true true).1.documents =
        [pilotWith "/one" [("policy", .object [("revenue", .string "paid")])],
          pilotWith "/two" [("policy", .string "free")]] ∧
      (pilots.update pilotFilter pricing true true).1.documents ≠ pilots.documents ∧
      (pilots.update pilotFilter pricing true true).1.writes = pilots.writes := by
  refine ⟨?_, ?_, documents_update_pilots_ne, ?_⟩
  · rw [update_pilots]
  · rw [update_pilots]
  · rw [update_pilots]
    rfl

end Collection

end MediaCatalogue
