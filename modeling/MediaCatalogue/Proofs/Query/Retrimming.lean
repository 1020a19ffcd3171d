import MediaCatalogue.Proofs.Query.Trimming

/-!
# Trimming what was trimmed

When a query has all the constraints of another, it keeps nothing that the other does not keep, and
trimming for it may begin with what trimming for the other has left: what the other took away would
have gone in any case. With a query itself for the other, trimming twice is trimming once.

At first sight an added constraint might give an owner its value back, since a level that the soft
constraints have emptied is valid or not by the hard constraints. The idea is that this does not
happen: where no hard constraint is about a level, none is addressed to what is in it, and whatever
passes the soft constraints is kept. So a level has a value if and only if something of it is kept or
no hard constraint is about it (`hasValue_iff`), and both grow rarer with more constraints.
-/

set_option autoImplicit false

namespace MediaCatalogue

/-- What holds of content when it holds of its members holds of all content. -/
theorem Content.induction {P : Content → Prop} (item : ∀ i, P (.item i))
    (container : ∀ about ms, (∀ m ∈ ms, P m) → P (.container about ms))
    (group : ∀ d ms, (∀ m ∈ ms, P m) → P (.group d ms)) (c : Content) : P c :=
  @Content.rec P (fun ms => ∀ m ∈ ms, P m) item container group (by simp)
    (fun _ _ hm hms => List.forall_mem_cons.2 ⟨hm, hms⟩) c

/-! ## Choosing from what was chosen -/

section

variable {α : Type} {K K' : α → Prop} [DecidablePred K] (f : α → α) (as : List α)
  (hstricter : ∀ a ∈ as, K' a → K a) (hsame : ∀ a ∈ as, K' (f a) ↔ K' a)

include hstricter hsame

/-- What the stricter test finds among the pruned it finds among all, and the other way round. -/
theorem exists_mem_map_filter_iff :
    (∃ b ∈ (as.filter fun a => K a).map f, K' b) ↔ ∃ a ∈ as, K' a := by
  constructor
  · rintro ⟨b, hb, hkept⟩
    obtain ⟨a, ha, rfl⟩ := List.mem_map.1 hb
    have hmem : a ∈ as := List.mem_of_mem_filter ha
    exact ⟨a, hmem, (hsame a hmem).1 hkept⟩
  · rintro ⟨a, ha, hkept⟩
    have hchosen : a ∈ as.filter fun a => K a :=
      List.mem_filter.2 ⟨ha, decide_eq_true (hstricter a ha hkept)⟩
    exact ⟨f a, List.mem_map_of_mem hchosen, (hsame a ha).2 hkept⟩

/-- A stricter choice may be made from what a less strict one has left. -/
theorem map_filter_map_filter [DecidablePred K'] (f' : α → α) (hmap : ∀ a ∈ as, f' (f a) = f' a) :
    (((as.filter fun a => K a).map f).filter fun b => K' b).map f' =
      (as.filter fun a => K' a).map f' := by
  induction as with
  | nil => rfl
  | cons a as ih =>
    rw [List.forall_mem_cons] at hstricter hsame hmap
    have hrest := ih hstricter.2 hsame.2 hmap.2
    by_cases hkept : K' a
    · have hchosen : K a := hstricter.1 hkept
      have hagain : K' (f a) := hsame.1.2 hkept
      simp [hchosen, hagain, hkept, hmap.1, hrest]
    · have hagain : ¬ K' (f a) := mt hsame.1.1 hkept
      by_cases hchosen : K a <;> simp [hchosen, hagain, hkept, hrest]

end

namespace TrimScope

/-! ## When a level has a value -/

section

variable {α : Type} [Queryable α] {s : TrimScope} {kinds : List EntityKind}

/-- Where no hard constraint is about an entity, passing the soft constraints is all there is to do. -/
theorem good_of_passesSoft {e : α} (kind : EntityKind) (hkind : Queryable.kind e = kind)
    (hkinds : ∀ target, kind.answersFor target = true → target ∈ kinds) (habout : ¬ s.IsAbout kinds)
    (hsoft : s.PassesSoft e) : s.Good e := by
  intro c hc haddressed
  rcases List.mem_append.1 hc with hhard | hc
  · rw [Constraint.addresses, hkind] at haddressed
    exact absurd ⟨c, hhard, hkinds c.subject.target haddressed⟩ habout
  · exact hsoft c hc haddressed

/-- A scope that is not about some kinds is not about fewer. -/
theorem not_isAbout_of_subset (fewer : List EntityKind) (hsubset : fewer ⊆ kinds)
    (habout : ¬ s.IsAbout kinds) : ¬ s.IsAbout fewer := by
  rintro ⟨c, hc, htarget⟩
  exact habout ⟨c, hc, hsubset htarget⟩

/-- That nothing has passed the soft constraints need not be asked for, if all that passes them is
kept where no hard constraint is about the level. -/
theorem hasValue_iff {Kept : α → Prop} {es : List α}
    (hall : ¬ s.IsAbout kinds → ∀ e, s.PassesSoft e → Kept e) :
    s.HasValue kinds Kept es ↔ (∃ e ∈ es, Kept e) ∨ ¬ s.IsAbout kinds := by
  constructor
  · intro h
    exact h.imp_right And.right
  · rintro (hkept | habout)
    · exact Or.inl hkept
    · by_cases hkept : ∃ e ∈ es, Kept e
      · exact Or.inl hkept
      · have hnone : ∀ e ∈ es, ¬ s.PassesSoft e := by
          intro e he hsoft
          exact hkept ⟨e, he, hall habout e hsoft⟩
        exact Or.inr ⟨hnone, habout⟩

end

variable (s : TrimScope)

/-- An encoding is kept when it is good and has a good location, or need not have one. -/
theorem keepsEncoding_iff (e : Encoding) :
    s.KeepsEncoding e ↔
      s.Good e ∧ ((∃ l ∈ e.availableAt, s.Good l) ∨ ¬ s.IsAbout [.location, .policy]) := by
  unfold KeepsEncoding
  rw [hasValue_iff]
  intro habout l
  exact good_of_passesSoft .location rfl (by intro target; cases target <;> decide) habout

/-- A version is kept when it is good and has a good broadcast and a kept encoding, or need not have
them. -/
theorem keepsVersion_iff (v : Version) :
    s.KeepsVersion v ↔
      s.Good v ∧ ((∃ b ∈ v.broadcasts, s.Good b) ∨ ¬ s.IsAbout [.broadcast]) ∧
        ((∃ e ∈ v.manifestedAs, s.KeepsEncoding e) ∨ ¬ s.IsAbout [.encoding, .location, .policy]) := by
  unfold KeepsVersion
  rw [hasValue_iff, hasValue_iff]
  · intro habout e hsoft
    have hlocations := not_isAbout_of_subset [.location, .policy] (by decide) habout
    have hgood : s.Good e :=
      good_of_passesSoft .encoding rfl (by intro target; cases target <;> decide) habout hsoft
    exact (s.keepsEncoding_iff e).2 ⟨hgood, Or.inr hlocations⟩
  · intro habout b
    exact good_of_passesSoft .broadcast rfl (by intro target; cases target <;> decide) habout

/-- Versions have a value when one of them is kept, or no hard constraint is about them or what is
beneath them. -/
theorem keepsVersions_iff (vs : List Version) :
    s.KeepsVersions vs ↔
      (∃ v ∈ vs, s.KeepsVersion v) ∨
        ¬ s.IsAbout [.version, .broadcast, .encoding, .location, .policy] := by
  unfold KeepsVersions
  rw [hasValue_iff]
  intro habout v hsoft
  have hbroadcasts := not_isAbout_of_subset [.broadcast] (by decide) habout
  have hencodings :=
    not_isAbout_of_subset [.encoding, .location, .policy] (by decide) habout
  have hgood : s.Good v :=
    good_of_passesSoft .version rfl (by intro target; cases target <;> decide) habout hsoft
  exact (s.keepsVersion_iff v).2 ⟨hgood, Or.inr hbroadcasts, Or.inr hencodings⟩

/-- A result has a value when something is kept beneath it or no hard constraint is about items or
what is beneath them. -/
theorem keepsResult_of_not_isAboutItems {s : TrimScope} (habout : ¬ s.IsAboutItems) (c : Content) :
    s.KeepsResult c := by
  cases c with
  | item i =>
    have hversions :=
      not_isAbout_of_subset [.version, .broadcast, .encoding, .location, .policy] (by decide) habout
    exact (s.keepsVersions_iff i.versions).2 (Or.inr hversions)
  | container about ms => exact Or.inr habout
  | group d ms => exact Or.inr habout

/-! ## More constraints -/

/-- One scope has all the constraints of another, in their strengths. -/
structure Tightens (t s : TrimScope) : Prop where
  hard : s.hard ⊆ t.hard
  soft : s.soft ⊆ t.soft

namespace Tightens

variable {s} {t : TrimScope} (h : t.Tightens s)

include h

/-- What is good for more constraints is good for fewer. -/
theorem good {α : Type} [Queryable α] {e : α} (he : t.Good e) : s.Good e := by
  intro c hc
  rcases List.mem_append.1 hc with hhard | hsoft
  · exact he c (List.mem_append_left _ (h.hard hhard))
  · exact he c (List.mem_append_right _ (h.soft hsoft))

/-- Where more constraints are not about some kinds, fewer are not either. -/
theorem not_isAbout {kinds : List EntityKind} (habout : ¬ t.IsAbout kinds) : ¬ s.IsAbout kinds := by
  rintro ⟨c, hc, htarget⟩
  exact habout ⟨c, h.hard hc, htarget⟩

/-! ### Less is kept -/

/-- An encoding that more constraints keep is kept by fewer. -/
theorem keepsEncoding {e : Encoding} (he : t.KeepsEncoding e) : s.KeepsEncoding e := by
  rw [keepsEncoding_iff] at he ⊢
  obtain ⟨hgood, hlocations⟩ := he
  refine ⟨h.good hgood, hlocations.imp ?_ h.not_isAbout⟩
  rintro ⟨l, hl, hgood⟩
  exact ⟨l, hl, h.good hgood⟩

/-- A version that more constraints keep is kept by fewer. -/
theorem keepsVersion {v : Version} (hv : t.KeepsVersion v) : s.KeepsVersion v := by
  rw [keepsVersion_iff] at hv ⊢
  obtain ⟨hgood, hbroadcasts, hencodings⟩ := hv
  refine ⟨h.good hgood, hbroadcasts.imp ?_ h.not_isAbout, hencodings.imp ?_ h.not_isAbout⟩
  · rintro ⟨b, hb, hgood⟩
    exact ⟨b, hb, h.good hgood⟩
  · rintro ⟨e, he, hkept⟩
    exact ⟨e, he, h.keepsEncoding hkept⟩

/-- Versions that have a value for more constraints have one for fewer. -/
theorem keepsVersions {vs : List Version} (hvs : t.KeepsVersions vs) : s.KeepsVersions vs := by
  rw [keepsVersions_iff] at hvs ⊢
  refine hvs.imp ?_ h.not_isAbout
  rintro ⟨v, hv, hkept⟩
  exact ⟨v, hv, h.keepsVersion hkept⟩

/-- Members of which more constraints keep one, or need not, are so for fewer. -/
theorem keepsSome_of_forall {ms : List Content} (hms : ∀ m ∈ ms, t.KeepsMember m → s.KeepsMember m)
    (hkept : t.KeepsSome ms ∨ ¬ t.IsAboutItems) : s.KeepsSome ms ∨ ¬ s.IsAboutItems := by
  rw [keepsSome_iff] at hkept ⊢
  refine hkept.imp ?_ h.not_isAbout
  rintro ⟨m, hm, hkept⟩
  exact ⟨m, hm, hms m hm hkept⟩

/-- A member that more constraints keep is kept by fewer. -/
theorem keepsMember (m : Content) : t.KeepsMember m → s.KeepsMember m := by
  induction m using Content.induction with
  | item i =>
    rintro ⟨hgood, hversions⟩
    exact ⟨h.good hgood, h.keepsVersions hversions⟩
  | container about ms ih =>
    rintro ⟨hgood, hmembers⟩
    exact ⟨h.good hgood, h.keepsSome_of_forall ih hmembers⟩
  | group d ms ih =>
    rintro ⟨hgood, hmembers⟩
    exact ⟨h.good hgood, h.keepsSome_of_forall ih hmembers⟩

/-- A result that has a value for more constraints has one for fewer. -/
theorem keepsResult {c : Content} (hc : t.KeepsResult c) : s.KeepsResult c := by
  have hmembers : ∀ ms : List Content, ∀ m ∈ ms, t.KeepsMember m → s.KeepsMember m :=
    fun _ m _ => h.keepsMember m
  cases c with
  | item i => exact h.keepsVersions hc
  | container about ms => exact h.keepsSome_of_forall (hmembers ms) hc
  | group d ms => exact h.keepsSome_of_forall (hmembers ms) hc

/-! ### What is kept can be seen after pruning -/

/-- More constraints keep an encoding pruned by fewer when they keep the encoding. -/
theorem keepsEncoding_pruned (e : Encoding) :
    t.KeepsEncoding (s.prunedEncoding e) ↔ t.KeepsEncoding e := by
  have hgood : t.Good (s.prunedEncoding e) ↔ t.Good e := Iff.rfl
  have hlocations : (∃ l ∈ (s.prunedEncoding e).availableAt, t.Good l) ↔
      ∃ l ∈ e.availableAt, t.Good l := by
    have hiff := exists_mem_map_filter_iff id e.availableAt (fun l _ => h.good (e := l))
      fun _ _ => Iff.rfl
    simpa only [prunedEncoding, List.map_id] using hiff
  rw [keepsEncoding_iff, keepsEncoding_iff, hgood, hlocations]

/-- Pruning an encoding by fewer constraints first makes no difference. -/
theorem prunedEncoding_pruned (e : Encoding) :
    t.prunedEncoding (s.prunedEncoding e) = t.prunedEncoding e := by
  have hlocations := map_filter_map_filter id e.availableAt (fun l _ => h.good (e := l))
    (fun _ _ => Iff.rfl) id fun _ _ => rfl
  simp only [List.map_id] at hlocations
  simp only [prunedEncoding, hlocations]

/-- More constraints keep a version pruned by fewer when they keep the version. -/
theorem keepsVersion_pruned (v : Version) :
    t.KeepsVersion (s.prunedVersion v) ↔ t.KeepsVersion v := by
  have hgood : t.Good (s.prunedVersion v) ↔ t.Good v := Iff.rfl
  have hbroadcasts : (∃ b ∈ (s.prunedVersion v).broadcasts, t.Good b) ↔
      ∃ b ∈ v.broadcasts, t.Good b := by
    have hiff := exists_mem_map_filter_iff id v.broadcasts (fun b _ => h.good (e := b))
      fun _ _ => Iff.rfl
    simpa only [prunedVersion, List.map_id] using hiff
  have hencodings : (∃ e ∈ (s.prunedVersion v).manifestedAs, t.KeepsEncoding e) ↔
      ∃ e ∈ v.manifestedAs, t.KeepsEncoding e :=
    exists_mem_map_filter_iff s.prunedEncoding v.manifestedAs (fun _ _ => h.keepsEncoding)
      fun e _ => h.keepsEncoding_pruned e
  rw [keepsVersion_iff, keepsVersion_iff, hgood, hbroadcasts, hencodings]

/-- Pruning a version by fewer constraints first makes no difference. -/
theorem prunedVersion_pruned (v : Version) :
    t.prunedVersion (s.prunedVersion v) = t.prunedVersion v := by
  have hbroadcasts := map_filter_map_filter id v.broadcasts (fun b _ => h.good (e := b))
    (fun _ _ => Iff.rfl) id fun _ _ => rfl
  have hencodings : (((v.manifestedAs.filter s.KeepsEncoding).map s.prunedEncoding).filter
      t.KeepsEncoding).map t.prunedEncoding =
      (v.manifestedAs.filter t.KeepsEncoding).map t.prunedEncoding :=
    map_filter_map_filter s.prunedEncoding v.manifestedAs (fun _ _ => h.keepsEncoding)
      (fun e _ => h.keepsEncoding_pruned e) t.prunedEncoding fun e _ => h.prunedEncoding_pruned e
  simp only [List.map_id] at hbroadcasts
  simp only [prunedVersion, hbroadcasts, hencodings]

/-- Versions pruned by fewer constraints have a value for more when the versions do. -/
theorem keepsVersions_pruned (vs : List Version) :
    t.KeepsVersions (s.prunedVersions vs) ↔ t.KeepsVersions vs := by
  have hversions : (∃ v ∈ s.prunedVersions vs, t.KeepsVersion v) ↔ ∃ v ∈ vs, t.KeepsVersion v :=
    exists_mem_map_filter_iff s.prunedVersion vs (fun _ _ => h.keepsVersion)
      fun v _ => h.keepsVersion_pruned v
  rw [keepsVersions_iff, keepsVersions_iff, hversions]

/-- Pruning versions by fewer constraints first makes no difference. -/
theorem prunedVersions_pruned (vs : List Version) :
    t.prunedVersions (s.prunedVersions vs) = t.prunedVersions vs :=
  map_filter_map_filter s.prunedVersion vs (fun _ _ => h.keepsVersion)
    (fun v _ => h.keepsVersion_pruned v) t.prunedVersion fun v _ => h.prunedVersion_pruned v

/-- More constraints keep one of the members pruned by fewer when they keep one of the members. -/
theorem keepsSome_pruned {ms : List Content}
    (hms : ∀ m ∈ ms, t.KeepsMember (s.pruned m) ↔ t.KeepsMember m) :
    t.KeepsSome (s.prunedMembers ms) ↔ t.KeepsSome ms := by
  rw [keepsSome_iff, keepsSome_iff, prunedMembers_eq]
  exact exists_mem_map_filter_iff s.pruned ms (fun m _ => h.keepsMember m) hms

/-- More constraints keep a member pruned by fewer when they keep the member. -/
theorem keepsMember_pruned (m : Content) : t.KeepsMember (s.pruned m) ↔ t.KeepsMember m := by
  induction m using Content.induction with
  | item i =>
    rw [pruned]
    exact and_congr Iff.rfl (h.keepsVersions_pruned i.versions)
  | container about ms ih =>
    rw [pruned]
    exact and_congr Iff.rfl (or_congr_left (h.keepsSome_pruned ih))
  | group d ms ih =>
    rw [pruned]
    exact and_congr Iff.rfl (or_congr_left (h.keepsSome_pruned ih))

/-- Pruning members by fewer constraints first makes no difference if it makes none to each of them. -/
theorem prunedMembers_pruned {ms : List Content}
    (hms : ∀ m ∈ ms, t.pruned (s.pruned m) = t.pruned m) :
    t.prunedMembers (s.prunedMembers ms) = t.prunedMembers ms := by
  simp only [prunedMembers_eq]
  exact map_filter_map_filter s.pruned ms (fun m _ => h.keepsMember m)
    (fun m _ => h.keepsMember_pruned m) t.pruned hms

/-- Pruning content by fewer constraints first makes no difference. -/
theorem pruned_pruned (c : Content) : t.pruned (s.pruned c) = t.pruned c := by
  induction c using Content.induction with
  | item i => simp only [pruned, h.prunedVersions_pruned]
  | container about ms ih => simp only [pruned, h.prunedMembers_pruned ih]
  | group d ms ih => simp only [pruned, h.prunedMembers_pruned ih]

/-- A result pruned by fewer constraints has a value for more when the result does. -/
theorem keepsResult_pruned (c : Content) : t.KeepsResult (s.pruned c) ↔ t.KeepsResult c := by
  have hmembers : ∀ ms : List Content, ∀ m ∈ ms, t.KeepsMember (s.pruned m) ↔ t.KeepsMember m :=
    fun _ m _ => h.keepsMember_pruned m
  cases c with
  | item i =>
    rw [pruned]
    exact h.keepsVersions_pruned i.versions
  | container about ms =>
    rw [pruned]
    exact or_congr_left (h.keepsSome_pruned (hmembers ms))
  | group d ms =>
    rw [pruned]
    exact or_congr_left (h.keepsSome_pruned (hmembers ms))

end Tightens

/-- Pruning leaves what describes the content itself. -/
theorem described_pruned (c : Content) : (s.pruned c).described = c.described := by
  cases c <;> rw [pruned] <;> rfl

end TrimScope

/-! ## Queries -/

namespace Query

/-- The query with further constraints. -/
def withConstraints (added : List Constraint) (q : Query) : Query :=
  { q with constraints := q.constraints ++ added }

/-- Without further constraints a query is as it was. -/
theorem withConstraints_nil (q : Query) : q.withConstraints [] = q := by
  rw [withConstraints, List.append_nil]

/-- Further constraints tighten the scope of a query. -/
theorem tightens_withConstraints (q : Query) (added : List Constraint) :
    (TrimScope.ofQuery (q.withConstraints added)).Tightens (TrimScope.ofQuery q) := by
  simp only [TrimScope.ofQuery, withConstraints, List.filter_append]
  exact ⟨List.subset_append_left _ _, List.subset_append_left _ _⟩

section

variable (q : Query) (remove : Bool)

/-- Something is left of content: its publisher is allowed, and it has a value if it would be removed
otherwise. -/
def Leaves (c : Content) : Prop :=
  q.matchesNothing = false ∧ q.Admits c ∧ (remove = true → (TrimScope.ofQuery q).KeepsResult c)

instance : DecidablePred (q.Leaves remove) :=
  fun _ => inferInstanceAs (Decidable (_ ∧ _ ∧ _))

/-- Trimming leaves a pruning of content, or nothing of it. -/
theorem trimmed?_eq (c : Content) :
    q.trimmed? remove c =
      if q.Leaves remove c then some ((TrimScope.ofQuery q).pruned c) else none := by
  rw [trimmed?, TrimScope.result_eq]
  by_cases hnothing : q.matchesNothing = true
  · simp [Leaves, hnothing]
  · by_cases hadmits : q.Admits c <;> simp [Leaves, q.allowsPublisher_iff, hnothing, hadmits]

/-- Pruning does not change whether the publisher is allowed. -/
theorem admits_pruned {s : TrimScope} {c : Content} : q.Admits (s.pruned c) ↔ q.Admits c := by
  unfold Admits
  rw [Content.publisher, s.described_pruned]
  rfl

/-- Where all results with an allowed publisher have a value, results go only for their publishers. -/
theorem trim_of_keepsResult (hnothing : q.matchesNothing = false) {cs : List Content}
    (hkeeps : ∀ c ∈ cs, q.Admits c → (TrimScope.ofQuery q).KeepsResult c) :
    q.trim remove cs = (cs.filter fun c => q.Admits c).map (TrimScope.ofQuery q).pruned := by
  rw [trim_eq_filterMap]
  induction cs with
  | nil => rfl
  | cons c cs ih =>
    rw [List.forall_mem_cons] at hkeeps
    have hleaves : q.Leaves remove c ↔ q.Admits c :=
      ⟨fun h => h.2.1, fun hadmits => ⟨hnothing, hadmits, fun _ => hkeeps.1 hadmits⟩⟩
    by_cases hadmits : q.Admits c
    · rw [List.filterMap_cons_some ((q.trimmed?_eq remove c).trans (if_pos (hleaves.2 hadmits))),
        List.filter_cons_of_pos (by simpa using hadmits), List.map_cons, ih hkeeps.2]
    · rw [List.filterMap_cons_none ((q.trimmed?_eq remove c).trans (if_neg (mt hleaves.1 hadmits))),
        List.filter_cons_of_neg (by simpa using hadmits), ih hkeeps.2]

/-- Where no hard constraint is about items or what is beneath them, results go only for their
publishers. -/
theorem trim_of_not_isAboutItems (habout : ¬ (TrimScope.ofQuery q).IsAboutItems)
    (hnothing : q.matchesNothing = false) (cs : List Content) :
    q.trim remove cs = (cs.filter fun c => q.Admits c).map (TrimScope.ofQuery q).pruned :=
  q.trim_of_keepsResult remove hnothing fun c _ _ => TrimScope.keepsResult_of_not_isAboutItems habout c

/-- Trimming for a query with more constraints may begin with what trimming for the query has left. -/
theorem trim_withConstraints_trim (added : List Constraint) (results : List Content) :
    (q.withConstraints added).trim remove (q.trim remove results) =
      (q.withConstraints added).trim remove results := by
  have h := q.tightens_withConstraints added
  have hadmits : ∀ c, (q.withConstraints added).Admits c ↔ q.Admits c := fun _ => Iff.rfl
  simp only [trim_eq_filterMap, List.filterMap_filterMap]
  refine List.filterMap_congr fun c _ => ?_
  by_cases hleaves : (q.withConstraints added).Leaves remove c
  · obtain ⟨hnothing, hpublisher, hvalue⟩ := hleaves
    have hfirst : q.Leaves remove c := ⟨hnothing, hpublisher, fun hr => h.keepsResult (hvalue hr)⟩
    have hagain : (q.withConstraints added).Leaves remove ((TrimScope.ofQuery q).pruned c) :=
      ⟨hnothing, (admits_pruned _).2 hpublisher, fun hr => (h.keepsResult_pruned c).2 (hvalue hr)⟩
    rw [trimmed?_eq, if_pos hfirst, Option.bind_some, trimmed?_eq, if_pos hagain, trimmed?_eq,
      if_pos ⟨hnothing, hpublisher, hvalue⟩, h.pruned_pruned]
  · have hagain : ¬ (q.withConstraints added).Leaves remove ((TrimScope.ofQuery q).pruned c) := by
      rintro ⟨hnothing, hpublisher, hvalue⟩
      exact hleaves ⟨hnothing, (admits_pruned _).1 hpublisher,
        fun hr => (h.keepsResult_pruned c).1 (hvalue hr)⟩
    rw [trimmed?_eq _ _ c, trimmed?_eq _ _ c, if_neg hleaves]
    split
    · rw [Option.bind_some, trimmed?_eq, if_neg hagain]
    · rw [Option.bind_none]

end

/-- **Trimming is idempotent.** What trimming for a query has left, it leaves as it is. -/
theorem trim_idempotent (q : Query) (remove : Bool) (results : List Content) :
    q.trim remove (q.trim remove results) = q.trim remove results := by
  have htwice := q.trim_withConstraints_trim remove [] results
  rwa [withConstraints_nil] at htwice

end Query

end MediaCatalogue
