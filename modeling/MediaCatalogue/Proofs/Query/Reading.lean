import MediaCatalogue.Proofs.Query.Parameters
import MediaCatalogue.Proofs.Query.Support

/-!
# Queries that were read

A query that was read from parameters has one constraint for each parameter but those with a reserved name.
The parameter names the attribute and the operator of its constraint, and its text lists the values, which
are of the kind of the attribute; there is always one. So such a query is compiled unless the store cannot
be asked for one of its constraints.
-/

set_option autoImplicit false

namespace MediaCatalogue

/-! ## Values that were read -/

/-- The values of an attribute that texts stand for, in order. Strings and keywords are the texts
themselves. -/
def Operands.IsReadFrom (a : Attribute) : Operands → List String → Prop
  | .integers ns, texts => List.Forall₂ (fun n text => Text.readInt64 text = .ok n) ns texts
  | .strings ss, texts => ss = texts
  | .booleans bs, texts => List.Forall₂ (fun b text => text = toString b) bs texts
  | .keywords ks, texts => ks = texts ∧ ∀ k ∈ ks, Query.isKeyword a k = true
  | .dateTimes ts, texts => List.Forall₂ (fun t text => Rfc3339.parse text = .ok t) ts texts

variable {a : Attribute} {v : Operands} {texts : List String}

/-- As many values are read as there are texts. -/
theorem Operands.IsReadFrom.length_eq (h : v.IsReadFrom a texts) : v.count = texts.length := by
  cases v with
  | integers ns => exact List.Forall₂.length_eq h
  | strings ss => exact congrArg List.length h
  | booleans bs => exact List.Forall₂.length_eq h
  | keywords ks => exact congrArg List.length h.1
  | dateTimes ts => exact List.Forall₂.length_eq h

/-- What succeeds when mapped has succeeded before. -/
theorem exists_of_map_eq_ok {ε α β : Type} {f : α → β} {x : Except ε α} {b : β} (h : x.map f = .ok b) :
    ∃ a, x = .ok a ∧ f a = b := by
  cases x with
  | error e => cases h
  | ok a => exact ⟨a, rfl, Except.ok.inj h⟩

/-- Success does not depend on how errors are reported. -/
theorem eq_ok_of_mapError_eq_ok {ε ε' α : Type} {f : ε → ε'} {x : Except ε α} {b : α}
    (h : x.mapError f = .ok b) : x = .ok b := by
  cases x with
  | error e => cases h
  | ok a => exact congrArg _ (Except.ok.inj h)

namespace Query

/-- Truth values are read from the texts that they are written as, and from no others. -/
theorem eq_toString_of_readBool {b : Bool} {text : String} (h : readBool text = .ok b) :
    text = toString b := by
  unfold readBool at h
  split at h
  · cases h
    assumption
  split at h
  · cases h
    assumption
  · cases h

/-- What is read of texts for an attribute are values of its kind that the texts stand for. -/
theorem isReadFrom_of_readOperands (h : readOperands a texts = .ok v) :
    v.kind = a.valueKind ∧ v.IsReadFrom a texts := by
  unfold readOperands at h
  cases hkind : a.valueKind with
  | integer =>
    simp only [hkind] at h
    obtain ⟨ns, hread, rfl⟩ := exists_of_map_eq_ok h
    exact ⟨rfl, (readEach_eq_ok_iff.1 hread).imp fun _ _ => eq_ok_of_mapError_eq_ok⟩
  | string =>
    simp only [hkind] at h
    cases h
    exact ⟨rfl, rfl⟩
  | boolean =>
    simp only [hkind] at h
    obtain ⟨bs, hread, rfl⟩ := exists_of_map_eq_ok h
    exact ⟨rfl, (readEach_eq_ok_iff.1 hread).imp fun _ _ => eq_toString_of_readBool⟩
  | keyword =>
    simp only [hkind] at h
    obtain ⟨ks, hread, rfl⟩ := exists_of_map_eq_ok h
    have hknown : List.Forall₂ (fun k t => k = t ∧ isKeyword a k = true) ks texts := by
      refine (readEach_eq_ok_iff.1 hread).imp fun k t hk => ?_
      split at hk
      · cases hk
        exact ⟨rfl, by assumption⟩
      · cases hk
    refine ⟨rfl, List.forall₂_eq_eq_eq ▸ hknown.imp fun _ _ h => h.1, fun k hk => ?_⟩
    obtain ⟨t, -, -, hkey⟩ := exists_right_of_forall₂ hknown hk
    exact hkey
  | dateTime =>
    simp only [hkind] at h
    obtain ⟨ts, hread, rfl⟩ := exists_of_map_eq_ok h
    exact ⟨rfl, (readEach_eq_ok_iff.1 hread).imp fun _ _ => eq_ok_of_mapError_eq_ok⟩

/-! ## Constraints that were read -/

/-- The name of a parameter is that of an attribute alone or with that of an operator. -/
theorem name_of_readName {name subject : String} {o : Operator} (h : readName name = .ok (subject, o)) :
    name = subject ∧ o = .equals ∨ name = subject ++ "-" ++ o.name := by
  unfold readName at h
  split at h
  · cases h
    exact .inl ⟨rfl, rfl⟩
  · next operator hcut =>
    split at h
    · next found hfound =>
      have hoperator : found.name = operator := by simpa using List.find?_some hfound
      obtain ⟨-, hname⟩ := Text.splitOnce?_eq_some_iff.1 hcut
      cases h
      exact .inr (hoperator ▸ hname)
    · cases h

end Query

/-- A constraint is that of a parameter with a name and a text: it is a hard one of the attribute and the
operator that are named, and has the values between the commas of the text, of which there is one at
least. -/
structure Constraint.IsReadFrom (c : Constraint) (name value : String) : Prop where
  known : c.subject ∈ Attribute.all
  name : name = c.subject.name ∧ c.operator = .equals ∨ name = c.subject.name ++ "-" ++ c.operator.name
  values : c.operands.IsReadFrom c.subject (Query.tokens value)
  typed : c.IsTyped
  valued : 0 < c.operands.count
  hard : c.soft = false

namespace Query

/-- Whatever is read of a parameter is a constraint of it. -/
theorem isReadFrom_of_readConstraint {name value : String} {c : Constraint}
    (h : readConstraint name value = .ok c) : c.IsReadFrom name value := by
  -- the name, its attribute, whether there are texts, and their values: each can end the reading
  simp only [readConstraint, bind, Except.bind] at h
  split at h
  · cases h
  next named hnamed =>
  split at h
  · cases h
  next a ha =>
  split at h
  · cases h
  next hnonempty =>
  split at h
  · cases h
  next v hv =>
  obtain ⟨hkind, hvalues⟩ := isReadFrom_of_readOperands hv
  rw [Constraint.of_eq_ok named.2 hkind] at h
  cases h
  have hname : a.name = named.1 := by simpa using List.find?_some ha
  exact {
    known := List.mem_of_find?_eq_some ha
    name := name_of_readName (hname ▸ hnamed)
    values := hvalues
    typed := hkind
    valued := by
      rw [hvalues.length_eq]
      exact List.length_pos_iff.2 (by simpa using hnonempty)
    hard := rfl }

/-- A parameter adds a constraint at the end unless its name is reserved. -/
theorem addParameter_cases {q r : Query} {name value : String} (h : addParameter q name value = .ok r) :
    r.matchesNothing = q.matchesNothing ∧
      (name ∈ reservedNames ∧ r.constraints = q.constraints ∨
        name ∉ reservedNames ∧ ∃ c, c.IsReadFrom name value ∧ r.constraints = q.constraints ++ [c]) := by
  unfold addParameter at h
  split at h
  · next hname =>
    obtain ⟨ps, -, rfl⟩ := exists_of_map_eq_ok h
    exact ⟨rfl, .inl ⟨by simp [reservedNames, hname], rfl⟩⟩
  split at h
  · next hname =>
    obtain ⟨n, -, rfl⟩ := exists_of_map_eq_ok h
    exact ⟨rfl, .inl ⟨by simp [reservedNames, hname], rfl⟩⟩
  split at h
  · next hname =>
    obtain ⟨n, -, rfl⟩ := exists_of_map_eq_ok h
    exact ⟨rfl, .inl ⟨by simp [reservedNames, hname], rfl⟩⟩
  · next hpublishers hoffset hlimit =>
    obtain ⟨c, hc, rfl⟩ := exists_of_map_eq_ok h
    refine ⟨rfl, .inr ⟨?_, c, isReadFrom_of_readConstraint hc, rfl⟩⟩
    simp [reservedNames, hpublishers, hoffset, hlimit]

/-- The parameters that are added one after another add their constraints in order. -/
theorem constraints_of_addParameters {pairs : List (String × String)} {q r : Query}
    (h : pairs.foldlM (fun q pair => addParameter q pair.1 pair.2) q = .ok r) :
    r.matchesNothing = q.matchesNothing ∧ ∃ cs, r.constraints = q.constraints ++ cs ∧
      List.Forall₂ (fun pair c => c.IsReadFrom pair.1 pair.2)
        (pairs.filter fun pair => pair.1 ∉ reservedNames) cs := by
  induction pairs generalizing q with
  | nil =>
    cases h
    exact ⟨rfl, [], (List.append_nil _).symm, .nil⟩
  | cons pair pairs ih =>
    rw [List.foldlM_cons] at h
    cases hadded : addParameter q pair.1 pair.2 with
    | error e =>
      rw [hadded] at h
      cases h
    | ok next =>
      rw [hadded] at h
      obtain ⟨hnothing, cs, hcs, hread⟩ := ih h
      obtain ⟨hkept, ⟨hreserved, hsame⟩ | ⟨hfree, c, hc, hmore⟩⟩ := addParameter_cases hadded
      · refine ⟨hnothing.trans hkept, cs, hsame ▸ hcs, ?_⟩
        rwa [List.filter_cons_of_neg (by simpa using hreserved)]
      · have hsame : r.constraints = q.constraints ++ c :: cs := by
          rw [hcs, hmore, List.append_assoc, List.singleton_append]
        refine ⟨hnothing.trans hkept, c :: cs, hsame, ?_⟩
        rw [List.filter_cons_of_pos (by simpa using hfree)]
        exact .cons hc hread

/-- Parameters are put together again from the names and the texts that they are cut into. -/
theorem eq_map_of_splitParameter {parameters : List String} {pairs : List (String × String)}
    (h : parameters.mapM splitParameter = .ok pairs) :
    parameters = pairs.map (fun pair => pair.1 ++ "=" ++ pair.2) ∧ ∀ pair ∈ pairs, '=' ∉ pair.1.toList := by
  induction parameters generalizing pairs with
  | nil =>
    cases h
    exact ⟨rfl, List.forall_mem_nil _⟩
  | cons parameter parameters ih =>
    rw [List.mapM_cons] at h
    cases hcut : Text.splitOnce? '=' parameter with
    | none => simp [splitParameter, hcut, bind, Except.bind] at h
    | some pair =>
      cases hrest : parameters.mapM splitParameter with
      | error e => simp [splitParameter, hcut, hrest, bind, Except.bind] at h
      | ok rest =>
        simp only [splitParameter, hcut, hrest, bind, Except.bind, pure, Except.pure, Except.ok.injEq] at h
        subst h
        obtain ⟨hjoined, hfree⟩ := ih hrest
        obtain ⟨hname, htext⟩ := Text.splitOnce?_eq_some_iff.1 hcut
        refine ⟨?_, List.forall_mem_cons.2 ⟨hname, hfree⟩⟩
        rw [List.map_cons, ← hjoined, htext]
        rfl

/-! ## Reading and compiling -/

/-- **Compiling what was read.** A query that is read from parameters has the constraints of those whose
names are not reserved, one each and in order, with at least one value each, of the kind of its attribute.
It compiles if and only if the store can be asked for all of them; otherwise it is refused for the first that
the store cannot be asked for, and that one has no place in documents or an operator that its values are not
compared by. -/
theorem compile_ofParameters {parameters : List String} {q : Query} (h : ofParameters parameters = .ok q) :
    (∃ pairs : List (String × String),
      parameters = pairs.map (fun pair => pair.1 ++ "=" ++ pair.2) ∧ (∀ pair ∈ pairs, '=' ∉ pair.1.toList) ∧
      List.Forall₂ (fun pair c => c.IsReadFrom pair.1 pair.2)
        (pairs.filter fun pair => pair.1 ∉ reservedNames) q.constraints) ∧
      ((∃ document, q.compile = .ok document) ↔ ∀ c ∈ q.constraints, c.IsSupported) ∧
      ∀ e, q.compile = .error e →
        ∃ before c after, q.constraints = before ++ c :: after ∧ (∀ b ∈ before, b.IsSupported) ∧
          c.IsRefusedFor e := by
  unfold ofParameters at h
  cases hcut : parameters.mapM splitParameter with
  | error e =>
    rw [hcut] at h
    cases h
  | ok pairs =>
    rw [hcut] at h
    obtain ⟨hjoined, hnames⟩ := eq_map_of_splitParameter hcut
    obtain ⟨hnothing, cs, hcs, hread⟩ := constraints_of_addParameters h
    rw [List.nil_append] at hcs
    subst hcs
    have hcount : ∀ c ∈ q.constraints, 0 < c.operands.count := fun c hc =>
      have ⟨_, _, hfrom⟩ := exists_left_of_forall₂ hread hc
      hfrom.valued
    refine ⟨⟨pairs, hjoined, hnames, hread⟩, ?_⟩
    rcases compile_cases hnothing hcount with
      ⟨⟨document, hdocument⟩, hall⟩ | ⟨before, c, after, e, hcs, hbefore, hc, herror⟩
    · exact ⟨⟨fun _ => hall, fun _ => ⟨document, hdocument⟩⟩, fun e herror => by simp [hdocument] at herror⟩
    · have hmem : c ∈ q.constraints := by simp [hcs]
      refine ⟨⟨fun ⟨_, hdocument⟩ => by simp [herror] at hdocument,
        fun hall => absurd (hall c hmem) hc.not_isSupported⟩, fun e' herror' => ?_⟩
      rw [herror] at herror'
      cases herror'
      exact ⟨before, c, after, hcs, hbefore, hc⟩

/-- Of two constraints that the store cannot be asked for, the first is reported: that a truth value is less
than another, and not that a person has a name. -/
theorem compile_ofParameters_repeatLessThan :
    ∃ q, ofParameters ["limit=5", "title=Pilot", "broadcast.repeat-lessThan=true",
        "person.name=Ann"] = .ok q ∧
      q.compile = .error (.unsupportedOperator ⟨"broadcast.repeat", "repeat", .broadcast, .boolean, false⟩
        .lessThan .boolean) := by
  have hread : (ofParameters ["limit=5", "title=Pilot", "broadcast.repeat-lessThan=true",
      "person.name=Ann"]).toOption.map Query.constraints =
        some [⟨⟨"title", "title", .content, .string, false⟩, .equals, .strings ["Pilot"], false⟩,
          ⟨⟨"broadcast.repeat", "repeat", .broadcast, .boolean, false⟩, .lessThan, .booleans [true], false⟩,
          ⟨⟨"person.name", "name", .person, .string, false⟩, .equals, .strings ["Ann"], false⟩] := by
    decide +kernel
  obtain ⟨q, hq, hcs⟩ := Option.map_eq_some_iff.1 hread
  have hq : ofParameters ["limit=5", "title=Pilot", "broadcast.repeat-lessThan=true", "person.name=Ann"] =
      .ok q := by
    revert hq
    cases ofParameters ["limit=5", "title=Pilot", "broadcast.repeat-lessThan=true", "person.name=Ann"] <;>
      simp [Except.toOption]
  refine ⟨q, hq, ?_⟩
  obtain ⟨-, hcompiles, hrefused⟩ := compile_ofParameters hq
  rw [hcs] at hcompiles hrefused
  cases hcompile : q.compile with
  | ok document =>
    have hsupported := hcompiles.1 ⟨document, hcompile⟩ _ (List.mem_cons_of_mem _ List.mem_cons_self)
    exact absurd hsupported.compared (by decide)
  | error e =>
    obtain ⟨before, c, after, hsplit, hbefore, hc⟩ := hrefused e hcompile
    -- the title is supported and the repeat is not, so one constraint stands before that which is refused
    rcases before with _ | ⟨b, _ | ⟨b', before⟩⟩
    · cases hsplit
      exact absurd ⟨rfl, by decide⟩ hc.not_isSupported
    · cases hsplit
      cases hc with
      | unplaced hplaced => cases hplaced
      | uncompared => rfl
    · simp only [List.cons_append, List.cons.injEq] at hsplit
      obtain ⟨rfl, rfl, -⟩ := hsplit
      exact absurd (hbefore _ (List.mem_cons_of_mem _ List.mem_cons_self)).compared (by decide)

end Query
end MediaCatalogue
