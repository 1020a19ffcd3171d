import MediaCatalogue.Query.Trim
import Mathlib.Data.List.Basic

/-!
# What trimming keeps

Trimming passes options up four nested levels: a level that is left without anything is either valid
or has no value, and an owner whose level has no value goes. Said without the options, each entity
is kept or not by a condition on itself and on what is beneath it, and what is kept has its nested
lists replaced by what is kept of them. This file states those conditions, from the locations up to
the results, and proves that `Query.trim` is exactly the selection that they describe.

The one idea is `level_eq_of`: a level has a value if and only if something of it is kept, or
nothing of it passed the soft constraints and no hard constraint is about it or what is beneath it.
It is applied once for locations, encodings, broadcasts and versions; containers and groups follow
by recursion over their members.
-/

set_option autoImplicit false

namespace MediaCatalogue

/-! ## Conditions on one entity -/

namespace TrimScope

variable {α : Type} [Queryable α]

/-- An entity is good when it satisfies every constraint of either strength that is addressed to it.
-/
def Good (s : TrimScope) (e : α) : Prop :=
  ∀ c ∈ s.hard ++ s.soft, c.addresses e = true → c.holdsOf e = true

/-- An entity passes the soft constraints when it satisfies those that are addressed to it. -/
def PassesSoft (s : TrimScope) (e : α) : Prop :=
  ∀ c ∈ s.soft, c.addresses e = true → c.holdsOf e = true

/-- Some hard constraint has one of the kinds as its target. -/
def IsAbout (s : TrimScope) (kinds : List EntityKind) : Prop :=
  ∃ c ∈ s.hard, c.subject.target ∈ kinds

instance (s : TrimScope) (e : α) : Decidable (s.Good e) :=
  inferInstanceAs (Decidable (∀ c ∈ s.hard ++ s.soft, _))

instance (s : TrimScope) (e : α) : Decidable (s.PassesSoft e) :=
  inferInstanceAs (Decidable (∀ c ∈ s.soft, _))

instance (s : TrimScope) (kinds : List EntityKind) : Decidable (s.IsAbout kinds) :=
  inferInstanceAs (Decidable (∃ c ∈ s.hard, _))

/-- A nested list has a value: something of it is kept, or nothing of it passes the soft constraints
and no hard constraint is about it or what is beneath it. -/
def HasValue (s : TrimScope) (kinds : List EntityKind) (Kept : α → Prop) (es : List α) : Prop :=
  (∃ e ∈ es, Kept e) ∨ ((∀ e ∈ es, ¬ s.PassesSoft e) ∧ ¬ s.IsAbout kinds)

instance (s : TrimScope) (kinds : List EntityKind) (Kept : α → Prop) [DecidablePred Kept]
    (es : List α) : Decidable (s.HasValue kinds Kept es) :=
  inferInstanceAs (Decidable (_ ∨ _))

/-! ## What is kept beneath an item -/

/-- An encoding is kept when it is good and its locations have a value. -/
def KeepsEncoding (s : TrimScope) (e : Encoding) : Prop :=
  s.Good e ∧ s.HasValue [.location, .policy] s.Good e.availableAt

instance (s : TrimScope) : DecidablePred s.KeepsEncoding :=
  fun _ => inferInstanceAs (Decidable (_ ∧ _))

/-- A version is kept when it is good and its broadcasts and its encodings have a value. -/
def KeepsVersion (s : TrimScope) (v : Version) : Prop :=
  s.Good v ∧ s.HasValue [.broadcast] s.Good v.broadcasts ∧
    s.HasValue [.encoding, .location, .policy] s.KeepsEncoding v.manifestedAs

instance (s : TrimScope) : DecidablePred s.KeepsVersion :=
  fun _ => inferInstanceAs (Decidable (_ ∧ _ ∧ _))

/-- The versions of an item have a value. -/
def KeepsVersions (s : TrimScope) (vs : List Version) : Prop :=
  s.HasValue [.version, .broadcast, .encoding, .location, .policy] s.KeepsVersion vs

instance (s : TrimScope) : DecidablePred s.KeepsVersions :=
  fun _ => inferInstanceAs (Decidable (s.HasValue _ _ _))

/-- An encoding with its good locations. -/
def prunedEncoding (s : TrimScope) (e : Encoding) : Encoding :=
  { e with availableAt := e.availableAt.filter fun l => s.Good l }

/-- A version with its good broadcasts and what is kept of its encodings. -/
def prunedVersion (s : TrimScope) (v : Version) : Version :=
  { v with
    broadcasts := v.broadcasts.filter fun b => s.Good b
    manifestedAs := (v.manifestedAs.filter s.KeepsEncoding).map s.prunedEncoding }

/-- What is kept of some versions, each as it is after pruning. -/
def prunedVersions (s : TrimScope) (vs : List Version) : List Version :=
  (vs.filter s.KeepsVersion).map s.prunedVersion

/-! ## What is kept of members and of results -/

/-- Some hard constraint is about items, the kinds of item, or what is beneath them. -/
def IsAboutItems (s : TrimScope) : Prop :=
  s.IsAbout [.item, .episode, .version, .broadcast, .encoding, .location, .policy]

instance (s : TrimScope) : Decidable s.IsAboutItems :=
  inferInstanceAs (Decidable (s.IsAbout _))

mutual

/-- A member is kept when it is good and, if it is an item, its versions have a value; a container
or group must keep some member when a hard constraint is about items or what is beneath them. -/
def KeepsMember (s : TrimScope) : Content → Prop
  | .item i => s.Good (Content.item i) ∧ s.KeepsVersions i.versions
  | .container c ms => s.Good (Content.container c ms) ∧ (KeepsSome s ms ∨ ¬ s.IsAboutItems)
  | .group d ms => s.Good (Content.group d ms) ∧ (KeepsSome s ms ∨ ¬ s.IsAboutItems)

/-- Some member is kept. -/
def KeepsSome (s : TrimScope) : List Content → Prop
  | [] => False
  | m :: ms => KeepsMember s m ∨ KeepsSome s ms

end

mutual

/-- Whether a member is kept can be decided, going down its members. -/
def decideKeepsMember (s : TrimScope) : (m : Content) → Decidable (s.KeepsMember m)
  | .item i => inferInstanceAs (Decidable (s.Good (Content.item i) ∧ s.KeepsVersions i.versions))
  | .container c ms =>
    have := decideKeepsSome s ms
    inferInstanceAs (Decidable (s.Good (Content.container c ms) ∧ (s.KeepsSome ms ∨ ¬ s.IsAboutItems)))
  | .group d ms =>
    have := decideKeepsSome s ms
    inferInstanceAs (Decidable (s.Good (Content.group d ms) ∧ (s.KeepsSome ms ∨ ¬ s.IsAboutItems)))

/-- Whether some member is kept can be decided. -/
def decideKeepsSome (s : TrimScope) : (ms : List Content) → Decidable (s.KeepsSome ms)
  | [] => inferInstanceAs (Decidable False)
  | m :: ms =>
    have := decideKeepsMember s m
    have := decideKeepsSome s ms
    inferInstanceAs (Decidable (s.KeepsMember m ∨ s.KeepsSome ms))

end

instance (s : TrimScope) : DecidablePred s.KeepsMember := s.decideKeepsMember

instance (s : TrimScope) : DecidablePred s.KeepsSome := s.decideKeepsSome

mutual

/-- Content with what is kept of its versions, or of its members, in their place. -/
def pruned (s : TrimScope) : Content → Content
  | .item i => .item { i with versions := s.prunedVersions i.versions }
  | .container c ms => .container c (prunedMembers s ms)
  | .group d ms => .group d (prunedMembers s ms)

/-- What is kept of some members, each as it is after pruning. -/
def prunedMembers (s : TrimScope) : List Content → List Content
  | [] => []
  | m :: ms => if s.KeepsMember m then pruned s m :: prunedMembers s ms else prunedMembers s ms

end

/-- A result has a value: the versions of an item, some member of a container or group unless no
hard constraint is about items or what is beneath them. Whether the result itself is good does not
matter. -/
def KeepsResult (s : TrimScope) : Content → Prop
  | .item i => s.KeepsVersions i.versions
  | .container _ ms => s.KeepsSome ms ∨ ¬ s.IsAboutItems
  | .group _ ms => s.KeepsSome ms ∨ ¬ s.IsAboutItems

instance (s : TrimScope) : DecidablePred s.KeepsResult
  | .item i => inferInstanceAs (Decidable (s.KeepsVersions i.versions))
  | .container _ ms => inferInstanceAs (Decidable (s.KeepsSome ms ∨ ¬ s.IsAboutItems))
  | .group _ ms => inferInstanceAs (Decidable (s.KeepsSome ms ∨ ¬ s.IsAboutItems))

end TrimScope

/-- Results with this publisher are allowed: there is one, and it is among those of the query if it
names any. -/
def Query.Admits (q : Query) (c : Content) : Prop :=
  ∃ p ∈ c.publisher, ∀ ps ∈ q.publishers, p ∈ ps

/-- The test of publishers allows exactly the content that the query admits. -/
theorem Query.allowsPublisher_iff (q : Query) (c : Content) :
    q.allowsPublisher c.publisher = true ↔ q.Admits c := by
  unfold Query.allowsPublisher Query.Admits
  cases c.publisher <;> cases q.publishers <;> simp

instance (q : Query) (c : Content) : Decidable (q.Admits c) :=
  decidable_of_iff _ (q.allowsPublisher_iff c)


/-! ## Trimming makes exactly this selection -/

namespace TrimScope

variable {α : Type} [Queryable α]

/-- Constraints are satisfied when each that is addressed to the entity holds of it. -/
theorem satisfies_iff (constraints : List Constraint) (e : α) :
    satisfies constraints e = true ↔
      ∀ c ∈ constraints, c.addresses e = true → c.holdsOf e = true := by
  simp only [satisfies, List.all_eq_true, Bool.or_eq_true, Bool.not_eq_true']
  refine forall₂_congr fun c _ => ?_
  cases c.addresses e <;> simp

/-- An entity is good when it satisfies the constraints of both strengths. -/
theorem good_iff (s : TrimScope) (e : α) :
    s.Good e ↔ satisfies s.soft e = true ∧ satisfies s.hard e = true := by
  simp only [Good, satisfies_iff, List.forall_mem_append]
  exact and_comm

/-- The soft constraints are passed when they are satisfied. -/
theorem passesSoft_iff (s : TrimScope) (e : α) : s.PassesSoft e ↔ satisfies s.soft e = true :=
  (satisfies_iff s.soft e).symm

/-- The kinds with their subkinds are written out in `HasValue` and `IsAboutItems`. -/
theorem concerns_iff (s : TrimScope) (kinds targets : List EntityKind)
    (h : ∀ target : EntityKind, kinds.any target.isA = true ↔ target ∈ targets) :
    concerns s.hard kinds = true ↔ s.IsAbout targets := by
  simp only [concerns, IsAbout, List.any_eq_true (l := s.hard), h]

/-- What passes the constraints of both strengths and is valid one level down is what is kept. -/
theorem filterMap_candidates (s : TrimScope) (keep : α → Option α) (Kept : α → Prop)
    [DecidablePred Kept] (prune : α → α)
    (hkeep : ∀ e, s.Good e → keep e = if Kept e then some (prune e) else none)
    (hgood : ∀ e, Kept e → s.Good e) (es : List α) :
    ((es.filter (satisfies s.soft)).filter (satisfies s.hard)).filterMap keep =
      (es.filter fun e => Kept e).map prune := by
  rw [List.filter_filter]
  induction es with
  | nil => rfl
  | cons e es ih =>
    by_cases hg : s.Good e
    · obtain ⟨hsoft, hhard⟩ := (s.good_iff e).1 hg
      by_cases hk : Kept e <;> simp [hsoft, hhard, hk, hkeep e hg, ih]
    · have hk : ¬ Kept e := fun h => hg (hgood e h)
      have hbad : (satisfies s.hard e && satisfies s.soft e) = false := by
        rw [Bool.eq_false_iff, ne_eq, Bool.and_eq_true, and_comm]
        exact mt (s.good_iff e).2 hg
      simp [hbad, hk, ih]

/-- A level is trimmed to what is kept of it, and to no value when it has none. `keep` says what one
element becomes one level further down. -/
theorem level_eq_of (s : TrimScope) (kinds targets : List EntityKind)
    (htargets : ∀ target : EntityKind, kinds.any target.isA = true ↔ target ∈ targets)
    (keep : α → Option α) (Kept : α → Prop) [DecidablePred Kept] (prune : α → α)
    (hkeep : ∀ e, s.Good e → keep e = if Kept e then some (prune e) else none)
    (hgood : ∀ e, Kept e → s.Good e) (es : List α) :
    s.level kinds keep es =
      if s.HasValue targets Kept es then some ((es.filter fun e => Kept e).map prune) else none := by
  have hempty : (es.filter (satisfies s.soft)).isEmpty = true ↔ ∀ e ∈ es, ¬ s.PassesSoft e := by
    simp [s.passesSoft_iff]
  have habout := s.concerns_iff kinds targets htargets
  have hsome : (es.filter fun e => Kept e).map prune = [] ↔ ¬ ∃ e ∈ es, Kept e := by
    simp
  unfold level
  simp only [s.filterMap_candidates keep Kept prune hkeep hgood es, List.isEmpty_iff, hsome]
  by_cases hnone : ∃ e ∈ es, Kept e
  · -- an element that is kept has passed the soft constraints
    have hcand : ¬ ∀ e ∈ es, ¬ s.PassesSoft e := by
      obtain ⟨e, he, hk⟩ := hnone
      exact fun h => h e he ((s.passesSoft_iff e).2 ((s.good_iff e).1 (hgood e hk)).1)
    have hvalue : s.HasValue targets Kept es := Or.inl hnone
    simp [mt hempty.1 hcand, hnone, hvalue]
  · have hnil := hsome.2 hnone
    have hvalue : s.HasValue targets Kept es ↔
        (∀ e ∈ es, ¬ s.PassesSoft e) ∧ ¬ s.IsAbout targets := by
      simp [HasValue, hnone]
    simp only [hvalue, ← hempty, ← habout, hnil]
    by_cases hc : concerns s.hard kinds = true <;> simp [hc, hnone]

/-! ### The levels beneath an item -/

/-- Of locations with a value the good ones are left. -/
theorem level_locations (s : TrimScope) (ls : List Location) :
    s.level EntityKind.locationOrBelow some ls =
      if s.HasValue [.location, .policy] s.Good ls then some (ls.filter fun l => s.Good l)
      else none := by
  have h := s.level_eq_of EntityKind.locationOrBelow [.location, .policy] (by intro t; cases t <;> decide)
    some s.Good id (fun e he => by simp [he]) (fun _ h => h) ls
  simpa using h

/-- Of broadcasts with a value the good ones are left. -/
theorem level_broadcasts (s : TrimScope) (bs : List Broadcast) :
    s.level EntityKind.broadcastOnly some bs =
      if s.HasValue [.broadcast] s.Good bs then some (bs.filter fun b => s.Good b) else none := by
  have h := s.level_eq_of EntityKind.broadcastOnly [.broadcast] (by intro t; cases t <;> decide)
    some s.Good id (fun e he => by simp [he]) (fun _ h => h) bs
  simpa using h

/-- Of a good encoding that is kept, its pruning is left. -/
theorem encoding_eq (s : TrimScope) (e : Encoding) (he : s.Good e) :
    s.encoding e = if s.KeepsEncoding e then some (s.prunedEncoding e) else none := by
  unfold encoding KeepsEncoding
  rw [level_locations]
  by_cases h : s.HasValue [.location, .policy] s.Good e.availableAt <;>
    simp [h, he, prunedEncoding]

/-- Of a good version that is kept, its pruning is left. -/
theorem version_eq (s : TrimScope) (v : Version) (hv : s.Good v) :
    s.version v = if s.KeepsVersion v then some (s.prunedVersion v) else none := by
  have hencodings := s.level_eq_of EntityKind.encodingOrBelow [.encoding, .location, .policy]
    (by intro t; cases t <;> decide) s.encoding s.KeepsEncoding s.prunedEncoding s.encoding_eq
    (fun _ h => h.1) v.manifestedAs
  unfold version KeepsVersion
  rw [level_broadcasts, hencodings]
  by_cases hb : s.HasValue [.broadcast] s.Good v.broadcasts <;>
    by_cases he : s.HasValue [.encoding, .location, .policy] s.KeepsEncoding v.manifestedAs <;>
      simp [hb, he, hv, prunedVersion]

/-- Of versions with a value the prunings of those that are kept are left. -/
theorem versions_eq (s : TrimScope) (vs : List Version) :
    s.versions vs = if s.KeepsVersions vs then some (s.prunedVersions vs) else none :=
  s.level_eq_of EntityKind.versionOrBelow [.version, .broadcast, .encoding, .location, .policy]
    (by intro t; cases t <;> decide) s.version s.KeepsVersion s.prunedVersion s.version_eq
    (fun _ h => h.1) vs

/-- Of versions without a value nothing is left. -/
theorem prunedVersions_eq_nil (s : TrimScope) (vs : List Version) (h : ¬ s.KeepsVersions vs) :
    s.prunedVersions vs = [] := by
  have hnone : ¬ ∃ v ∈ vs, s.KeepsVersion v := fun h' => h (Or.inl h')
  simpa [prunedVersions] using hnone

/-! ### Members and results -/

/-- The members that the trimmer accepts are the good ones. -/
theorem accepts_iff (s : TrimScope) (c : Content) : s.accepts c = true ↔ s.Good c := by
  rw [accepts, Bool.and_eq_true, s.good_iff]

/-- Some member is kept when there is one that is. -/
theorem keepsSome_iff (s : TrimScope) (ms : List Content) :
    s.KeepsSome ms ↔ ∃ m ∈ ms, s.KeepsMember m := by
  induction ms with
  | nil => simp [KeepsSome]
  | cons m ms ih => simp [KeepsSome, ih]

/-- Of members the prunings of those that are kept are left. -/
theorem prunedMembers_eq (s : TrimScope) (ms : List Content) :
    s.prunedMembers ms = (ms.filter fun m => s.KeepsMember m).map s.pruned := by
  induction ms with
  | nil => rfl
  | cons m ms ih => by_cases h : s.KeepsMember m <;> simp [prunedMembers, h, ih]

/-- Nothing is left of members exactly when none of them is kept. -/
theorem prunedMembers_eq_nil_iff (s : TrimScope) (ms : List Content) :
    s.prunedMembers ms = [] ↔ ¬ s.KeepsSome ms := by
  simp [prunedMembers_eq, keepsSome_iff]

/-- What is left of the members of a container is enough when one of them is kept, or none need be. -/
theorem nested_prunedMembers (s : TrimScope) (ms : List Content) :
    s.nested (s.prunedMembers ms) =
      if s.KeepsSome ms ∨ ¬ s.IsAboutItems then some (s.prunedMembers ms) else none := by
  have habout : concerns s.hard EntityKind.itemOrBelow = true ↔ s.IsAboutItems :=
    s.concerns_iff _ _ (by intro t; cases t <;> decide)
  have hnil := s.prunedMembers_eq_nil_iff ms
  unfold nested
  by_cases hk : s.KeepsSome ms <;> by_cases ha : s.IsAboutItems <;> simp_all

mutual

/-- Of a member that is kept its pruning is left. -/
theorem member_eq (s : TrimScope) :
    (m : Content) → s.member m = if s.KeepsMember m then some (s.pruned m) else none
  | .item i => by
    rw [member, versions_eq, pruned]
    by_cases hg : s.Good (Content.item i) <;> by_cases hv : s.KeepsVersions i.versions <;>
      simp [KeepsMember, accepts_iff, hg, hv]
  | .container c ms => by
    rw [member, members_eq s ms, nested_prunedMembers, pruned]
    by_cases hg : s.Good (Content.container c ms) <;>
      by_cases hm : s.KeepsSome ms ∨ ¬ s.IsAboutItems <;>
        simp [KeepsMember, accepts_iff, hg, hm]
  | .group d ms => by
    rw [member, members_eq s ms, nested_prunedMembers, pruned]
    by_cases hg : s.Good (Content.group d ms) <;>
      by_cases hm : s.KeepsSome ms ∨ ¬ s.IsAboutItems <;>
        simp [KeepsMember, accepts_iff, hg, hm]

/-- Members are trimmed to what is kept of them. -/
theorem members_eq (s : TrimScope) : (ms : List Content) → s.members ms = s.prunedMembers ms
  | [] => by rw [members, prunedMembers]
  | m :: ms => by
    rw [members, member_eq s m, members_eq s ms, prunedMembers]
    by_cases h : s.KeepsMember m <;> simp [h]

end

/-- A result is trimmed to what is kept beneath it. One without a value stays only when it need not
be removed, and nothing is kept beneath it then. -/
theorem result_eq (s : TrimScope) (remove : Bool) (c : Content) :
    s.result remove c = if remove = true → s.KeepsResult c then some (s.pruned c) else none := by
  cases c with
  | item i =>
    rw [result, versions_eq, pruned]
    by_cases hv : s.KeepsVersions i.versions
    · simp [KeepsResult, hv]
    · cases remove <;> simp [KeepsResult, hv, s.prunedVersions_eq_nil i.versions hv]
  | container c ms =>
    rw [result, members_eq, nested_prunedMembers, pruned]
    by_cases hm : s.KeepsSome ms ∨ ¬ s.IsAboutItems
    · simp [KeepsResult, hm]
    · have hnil := (s.prunedMembers_eq_nil_iff ms).2 fun h => hm (Or.inl h)
      cases remove <;> simp [KeepsResult, hm, hnil]
  | group d ms =>
    rw [result, members_eq, nested_prunedMembers, pruned]
    by_cases hm : s.KeepsSome ms ∨ ¬ s.IsAboutItems
    · simp [KeepsResult, hm]
    · have hnil := (s.prunedMembers_eq_nil_iff ms).2 fun h => hm (Or.inl h)
      cases remove <;> simp [KeepsResult, hm, hnil]

end TrimScope

/-! ### One piece of content after another -/

namespace Query

variable (q : Query) (remove : Bool)

/-- What trimming leaves of one piece of content. -/
def trimmed? (c : Content) : Option Content :=
  if q.matchesNothing then none
  else if q.allowsPublisher c.publisher then (TrimScope.ofQuery q).result remove c
  else none

/-- Results are trimmed one by one. -/
theorem trim_eq_filterMap (cs : List Content) : q.trim remove cs = cs.filterMap (q.trimmed? remove) := by
  rw [trim]
  cases hnothing : q.matchesNothing with
  | true =>
    have hnone : q.trimmed? remove = fun _ => none := funext fun c => by simp [trimmed?, hnothing]
    simp [hnone]
  | false =>
    have hsome : q.trimmed? remove = fun c =>
        if q.allowsPublisher c.publisher then (TrimScope.ofQuery q).result remove c else none :=
      funext fun c => by simp [trimmed?, hnothing]
    rw [if_neg Bool.false_ne_true, hsome, List.filterMap_filter]

/-- Trimming results in two parts is trimming them together. -/
theorem trim_append (cs more : List Content) :
    q.trim remove (cs ++ more) = q.trim remove cs ++ q.trim remove more := by
  simp only [trim_eq_filterMap, List.filterMap_append]

end Query

/-- **Trimming is exactly this selection.** Results of a publisher that is absent or not allowed go,
and those without a value when they are to be removed; everything else stays, in order, with what is
kept of it at every level beneath. -/
theorem Query.trim_eq_map_pruned (q : Query) (remove : Bool) (results : List Content)
    (h : q.matchesNothing = false) :
    q.trim remove results =
      (results.filter fun c =>
        q.Admits c ∧ (remove = true → (TrimScope.ofQuery q).KeepsResult c)).map
          (TrimScope.ofQuery q).pruned := by
  rw [Query.trim, if_neg (by simp [h])]
  induction results with
  | nil => rfl
  | cons c cs ih =>
    by_cases ha : q.Admits c
    · have hallowed := (q.allowsPublisher_iff c).2 ha
      rw [List.filter_cons_of_pos (p := fun c : Content => q.allowsPublisher c.publisher) hallowed]
      by_cases hk : remove = true → (TrimScope.ofQuery q).KeepsResult c
      · have hkept : decide (q.Admits c ∧
            (remove = true → (TrimScope.ofQuery q).KeepsResult c)) = true := decide_eq_true ⟨ha, hk⟩
        rw [List.filterMap_cons_some ((TrimScope.result_eq _ remove c).trans (if_pos hk)),
          List.filter_cons, if_pos hkept, List.map_cons, ih]
      · rw [List.filterMap_cons_none ((TrimScope.result_eq _ remove c).trans (if_neg hk)),
          List.filter_cons_of_neg (by simpa [ha] using hk), ih]
    · have hrefused := mt (q.allowsPublisher_iff c).1 ha
      rw [List.filter_cons_of_neg (p := fun c : Content => q.allowsPublisher c.publisher) hrefused,
        List.filter_cons_of_neg (by simp [ha]), ih]

/-- Long versions, with what is available of them. -/
def longAvailableQuery : Query :=
  { constraints :=
      [{ subject := { name := "version.duration", field := "duration", target := .version,
                      valueKind := .integer },
         operator := .greaterThan, operands := .integers [60] },
       { subject := { name := "location.available", field := "available", target := .location,
                      valueKind := .boolean },
         operator := .equals, operands := .booleans [true], soft := true }] }

/-- A version of some duration that can be had at one place and no longer at another. -/
def versionLasting (seconds : Int64) (locations : List Location) : Version :=
  { duration := some seconds, manifestedAs := [{ availableAt := locations }] }

/-- A brand with one item. -/
def brandWith (versions : List Version) : Content :=
  .container { described := { publisher := some .bbc }, kind := .brand } [.item { versions := versions }]

/-- The short version and the location that is gone are taken out of the first brand; the second has
only a short version and goes, as does the item without a publisher. -/
theorem trim_eq_map_pruned_longAvailable :
    longAvailableQuery.matchesNothing = false ∧
      longAvailableQuery.trim true
        [brandWith [versionLasting 10 [{}], versionLasting 1800 [{ available := false }, {}]],
          brandWith [versionLasting 10 [{}]], .item { versions := [versionLasting 1800 [{}]] }] =
        [brandWith [versionLasting 1800 [{}]]] :=
  ⟨rfl, (Query.trim_eq_map_pruned _ _ _ rfl).trans (by rfl)⟩

end MediaCatalogue
