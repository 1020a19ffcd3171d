import MediaCatalogue.CommandLine.Run
import MediaCatalogue.Proofs.Content.Json
import MediaCatalogue.Proofs.Json.Printing

/-!
# Content and its text

The numbers of content are whole, so its JSON is had back from the printed form. What a query prints can
then be loaded again, as long as groups are not nested deeper than the reader of JSON goes.
-/

set_option autoImplicit false

namespace MediaCatalogue

open Json

/-! ## The numbers of content -/

namespace Json

/-- The numbers of an array are those of its items. -/
@[simp]
theorem hasWholeNumbers_array_iff {items : List Json} :
    HasWholeNumbers (.array items) ↔ ∀ j ∈ items, HasWholeNumbers j :=
  ⟨fun h => by cases h; assumption, .array⟩

/-- The numbers of an object are those of its members. -/
@[simp]
theorem hasWholeNumbers_object_iff {members : List (String × Json)} :
    HasWholeNumbers (.object members) ↔ ∀ m ∈ members, HasWholeNumbers m.2 :=
  ⟨fun h => by cases h; assumption, .object⟩

attribute [simp] HasWholeNumbers.string HasWholeNumbers.bool

/-- A number of 64 bits is whole, and within the range. -/
@[simp]
theorem hasWholeNumbers_ofInt64 (n : Int64) : HasWholeNumbers (ofInt64 n) := by
  have hlower : -9223372036854775808 ≤ n.toInt := n.le_toInt
  have hupper : n.toInt < 9223372036854775808 := n.toInt_lt
  apply HasWholeNumbers.int
  simp [fitsWord]
  omega

/-- An instant is written without a number. -/
@[simp]
theorem hasWholeNumbers_ofInstant (t : Instant) : HasWholeNumbers (ofInstant t) :=
  .string _

/-- A key is written without a number. -/
@[simp]
theorem hasWholeNumbers_ofKeyed {α : Type} [Vocabulary α] (a : α) : HasWholeNumbers (ofKeyed a) :=
  .string _

/-- A set of texts is written without a number. -/
@[simp]
theorem hasWholeNumbers_ofTextSet (s : TextSet) : HasWholeNumbers (ofTextSet s) := by
  simp [ofTextSet]

/-- What may be missing has whole numbers if it has them when it is there. -/
@[simp]
theorem hasWholeNumbers_ofOption {α : Type} {write : α → Json} (h : ∀ a, HasWholeNumbers (write a))
    (o : Option α) : HasWholeNumbers (ofOption write o) := by
  cases o with
  | none => exact .null
  | some a => exact h a

end Json

/-- A policy is written without numbers. -/
@[simp]
theorem Policy.hasWholeNumbers (p : Policy) : HasWholeNumbers p.toJson := by
  simp [toJson]

/-- A location is written without numbers. -/
@[simp]
theorem Location.hasWholeNumbers (l : Location) : HasWholeNumbers l.toJson := by
  simp [toJson]

/-- The rate of an encoding is a whole number. -/
@[simp]
theorem Encoding.hasWholeNumbers (e : Encoding) : HasWholeNumbers e.toJson := by
  simp [toJson]

/-- A broadcast is written without numbers. -/
@[simp]
theorem Broadcast.hasWholeNumbers (b : Broadcast) : HasWholeNumbers b.toJson := by
  simp [toJson]

/-- How long a version lasts is a whole number. -/
@[simp]
theorem Version.hasWholeNumbers (v : Version) : HasWholeNumbers v.toJson := by
  simp [toJson]

namespace Content

mutual

/-- All numbers in the JSON of content are whole, at any depth. -/
theorem hasWholeNumbers : ∀ c : Content, HasWholeNumbers c.toJson
  | .item i => by simp [toJson, Item.toMembers, Described.toMembers]
  | .container c ms => by
    simpa [toJson, Container.toMembers, Described.toMembers] using hasWholeNumbers_all ms
  | .group d ms => by
    simpa [toJson, Described.toGroupMembers, Described.toMembers] using hasWholeNumbers_all ms

/-- All numbers in the JSON of a list of content are whole. -/
theorem hasWholeNumbers_all : ∀ cs : List Content, ∀ j ∈ allToJson cs, HasWholeNumbers j
  | [] => by simp [allToJson]
  | c :: cs => by simpa [allToJson] using ⟨hasWholeNumbers c, hasWholeNumbers_all cs⟩

end

end Content

/-! ## Content through JSON -/

/-- **Nothing is lost in JSON.** Content of any shape is read back from what is written for it, on its own
or as a part of other content. It is had back from the text as well, in either form, unless arrays and
objects are nested deeper in it than the reader of texts goes. -/
theorem Content.restored_from_json (c : Content) :
    (∀ placement, ofJson? placement c.toJson = some c) ∧
      (c.toJson.depth ≤ 127 →
        ∀ printed ∈ [c.toJson.compact, c.toJson.pretty], (read printed).bind (ofJson? .alone) = some c) := by
  refine ⟨c.ofJson?_toJson, fun hdepth printed hprinted => ?_⟩
  have hread : read printed = some c.toJson := by
    simp only [List.mem_cons, List.not_mem_nil, or_false] at hprinted
    rcases hprinted with rfl | rfl
    · exact read_compact c.hasWholeNumbers hdepth
    · exact read_pretty c.hasWholeNumbers hdepth
  rw [hread, Option.bind_some, c.ofJson?_toJson]

/-- A group of a series, with an episode that has been on air, and another group that is empty. -/
def boxedSeries : Content :=
  .group { canonicalUri := "/box" }
    [.container
      { described := { canonicalUri := "/series", genres := .ofList ["drama", "crime"] }
        kind := .series
        seriesNumber := some 2 }
      [.item
        { described := { canonicalUri := "/episode", lastUpdated := some default }
          kind := .episode
          versions := [{ broadcasts := [{ broadcastOn := "/one", transmissionTime := default,
                                          transmissionEndTime := default }] }] }],
      .group { canonicalUri := "/empty" } []]

/-- The group is read back from its text, with all that is in it. -/
theorem Content.restored_from_json_boxedSeries :
    boxedSeries.toJson.depth = 9 ∧ ofJson? .alone boxedSeries.toJson = some boxedSeries ∧
      (read boxedSeries.toJson.pretty).bind (ofJson? .alone) = some boxedSeries := by
  have hdepth : boxedSeries.toJson.depth = 9 := by decide +kernel
  obtain ⟨hjson, htext⟩ := boxedSeries.restored_from_json
  exact ⟨hdepth, hjson .alone, htext (by omega) _ (by simp)⟩

/-- **What is printed can be loaded.** The text that a command prints for content is taken as that content by
a command that loads it. -/
theorem CommandLine.contentsOfText?_contentsReport {cs : List Content}
    (hdepth : (Json.array (Content.allToJson cs)).depth ≤ 127) :
    contentsOfText? (contentsReport cs).output = some cs := by
  have hread : read (contentsReport cs).output = some (.array (Content.allToJson cs)) :=
    read_pretty_append (.array (Content.hasWholeNumbers_all cs)) hdepth rfl
  rw [contentsOfText?, hread]
  exact Content.allOfJson?_allToJson cs .alone

end MediaCatalogue
