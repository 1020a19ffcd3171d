import MediaCatalogue.Query.Basic
import MediaCatalogue.Query.Concern
import MediaCatalogue.Query.Satisfaction

/-!
# Trimming results

A stored document matches a query when something nested in it does, but it is found whole. Trimming leaves
of each result only what satisfies the query.

Each nested level is trimmed in one way. What fails a soft constraint goes. If nothing is left then and no
hard constraint is about the level or what is beneath it, the level is empty and valid. What is left must
satisfy the hard constraints and be valid one level down, and if nothing does, the level has no value and
its owner goes.
-/

set_option autoImplicit false

namespace MediaCatalogue

/-- The constraints that trimming looks at: all but those that hold of everything. -/
structure TrimScope where
  hard : List Constraint
  soft : List Constraint

namespace TrimScope

/-- The constraints of a query, by strength. -/
def ofQuery (q : Query) : TrimScope :=
  let relevant := q.constraints.filter fun c => !c.isAlwaysTrue
  { hard := relevant.filter fun c => !c.soft, soft := relevant.filter fun c => c.soft }

/-- Trim one nested level; `none` when nothing is left that could have matched. -/
def level {α : Type} [Queryable α] (s : TrimScope) (kinds : List EntityKind) (keep : α → Option α)
    (elements : List α) : Option (List α) :=
  let candidates := elements.filter (satisfies s.soft)
  if candidates.isEmpty && !concerns s.hard kinds then some []
  else
    let kept := (candidates.filter (satisfies s.hard)).filterMap keep
    if kept.isEmpty then none else some kept

/-- Trim the locations of an encoding. -/
def encoding (s : TrimScope) (e : Encoding) : Option Encoding :=
  (s.level EntityKind.locationOrBelow some e.availableAt).map fun ls => { e with availableAt := ls }

/-- Trim the broadcasts and the encodings of a version. -/
def version (s : TrimScope) (v : Version) : Option Version :=
  match s.level EntityKind.broadcastOnly some v.broadcasts with
  | none => none
  | some bs =>
    (s.level EntityKind.encodingOrBelow s.encoding v.manifestedAs).map fun es =>
      { v with broadcasts := bs, manifestedAs := es }

/-- Trim the versions of an item. -/
def versions (s : TrimScope) (vs : List Version) : Option (List Version) :=
  s.level EntityKind.versionOrBelow s.version vs

/-- What is left of the members of a container or group, if that is a value: none may be left when a hard
constraint is about items or what is beneath them. -/
def nested (s : TrimScope) (left : List Content) : Option (List Content) :=
  if left.isEmpty && concerns s.hard EntityKind.itemOrBelow then none else some left

/-- Whether a member satisfies the constraints of both strengths. -/
def accepts (s : TrimScope) (c : Content) : Bool :=
  satisfies s.soft c && satisfies s.hard c

mutual

/-- Trim a member of a container or group; `none` when it goes. -/
def member (s : TrimScope) : Content → Option Content
  | .item i =>
    if s.accepts (.item i) then
      (s.versions i.versions).map fun vs => .item { i with versions := vs }
    else none
  | .container c ms =>
    if s.accepts (.container c ms) then (s.nested (members s ms)).map (.container c) else none
  | .group d ms =>
    if s.accepts (.group d ms) then (s.nested (members s ms)).map (.group d) else none

/-- Trim members one by one and leave out those that go. -/
def members (s : TrimScope) : List Content → List Content
  | [] => []
  | c :: cs =>
    match member s c with
    | some c => c :: members s cs
    | none => members s cs

end

/-- Trim a result. One that is left without a value goes, or stays with nothing nested in it. -/
def result (s : TrimScope) (remove : Bool) : Content → Option Content
  | .item i =>
    match s.versions i.versions with
    | some vs => some (.item { i with versions := vs })
    | none => if remove then none else some (.item { i with versions := [] })
  | .container c ms =>
    match s.nested (s.members ms) with
    | some ms => some (.container c ms)
    | none => if remove then none else some (.container c [])
  | .group d ms =>
    match s.nested (s.members ms) with
    | some ms => some (.group d ms)
    | none => if remove then none else some (.group d [])

end TrimScope

/-- Trim results to what satisfies a query. Results of other publishers than the query allows go in any
case, those without a value only if `remove` is set. -/
def Query.trim (q : Query) (remove : Bool) (results : List Content) : List Content :=
  if q.matchesNothing then []
  else
    (results.filter fun c => q.allowsPublisher c.publisher).filterMap
      ((TrimScope.ofQuery q).result remove)

end MediaCatalogue
