import Mathlib.Data.List.Induction
import MediaCatalogue.Proofs.Repository.Consistency

/-!
# Writing the same again

To write the same content a second time, right after the first, has the same outcome and changes no
document, also when the first write has failed on the way.

The second run does not go back to where the first one started. Where pieces share a uri the last of
them is there, the earlier ones take its place once more, and then it comes again. Two facts settle
this. What has been put in once is not refused again: it may be stored, and its uri is that of content
of its category, whatever else is put in. And a run over uris that are all there leaves, under each of
them, the last piece of that uri, which is what the first run has left.
-/

set_option autoImplicit false

namespace MediaCatalogue

namespace Content

/-! ## What a run leaves under a uri -/

/-- Of a piece of content and a run of others the last that has the uri of the piece. -/
def latest (cs : List Content) (x : Content) : Content :=
  cs.foldl (fun x c => if x.uri = c.uri then c else x) x

/-- The last piece of a uri has that uri. -/
theorem uri_latest (cs : List Content) (x : Content) : (latest cs x).uri = x.uri := by
  induction cs generalizing x with
  | nil => rfl
  | cons c cs ih =>
    have hcons : latest (c :: cs) x = latest cs (if x.uri = c.uri then c else x) := rfl
    rw [hcons, ih]
    split
    · exact Eq.symm ‹_›
    · rfl

/-- A further piece is the last of its uri and of no other. -/
theorem latest_append_singleton (cs : List Content) (c x : Content) :
    latest (cs ++ [c]) x = if x.uri = c.uri then c else latest cs x := by
  rw [latest, List.foldl_append, List.foldl_cons, List.foldl_nil, ← latest, uri_latest]

section

variable {kept : List Content}

/-- Content whose uri is there takes the place of what is there, and nothing else changes. -/
theorem putInto_eq_map {c : Content} (hnodup : (kept.map uri).Nodup) (hc : c.uri ∈ kept.map uri) :
    c.putInto kept = kept.map fun x => if x.uri = c.uri then c else x := by
  induction kept with
  | nil => cases hc
  | cons x kept ih =>
    rw [List.map_cons, List.nodup_cons] at hnodup
    rw [List.map_cons, List.mem_cons] at hc
    rw [putInto, List.map_cons]
    by_cases hx : x.uri = c.uri
    · have hrest : ∀ y ∈ kept, (if y.uri = c.uri then c else y) = y := by
        intro y hy
        refine if_neg fun hyc => hnodup.1 ?_
        rw [hx, ← hyc]
        exact List.mem_map_of_mem hy
      rw [if_pos hx, if_pos hx, List.map_congr_left hrest, List.map_id']
    · have hkept : c.uri ∈ kept.map uri := hc.resolve_left (Ne.symm hx)
      rw [if_neg hx, if_neg hx, ih hnodup.2 hkept]

/-- A run over uris that are all there leaves the last piece of each uri in its place. -/
theorem foldl_putInto_eq_map {cs : List Content} (hnodup : (kept.map uri).Nodup)
    (hcs : ∀ c ∈ cs, c.uri ∈ kept.map uri) :
    cs.foldl (fun kept c => c.putInto kept) kept = kept.map (latest cs) := by
  induction cs generalizing kept with
  | nil => exact (List.map_id kept).symm
  | cons c cs ih =>
    rw [List.forall_mem_cons] at hcs
    have hput := putInto_eq_map hnodup hcs.1
    have huris : (c.putInto kept).map uri = kept.map uri := by
      rw [hput, List.map_map]
      exact List.map_congr_left fun x _ => uri_latest [c] x
    rw [List.foldl_cons, ih (huris.symm ▸ hnodup) (huris.symm ▸ hcs.2), hput, List.map_map]
    rfl

/-- Putting in a run keeps each uri that of one piece of content. -/
theorem nodup_foldl_putInto (hnodup : (kept.map uri).Nodup) (cs : List Content) :
    ((cs.foldl (fun kept c => c.putInto kept) kept).map uri).Nodup := by
  induction cs generalizing kept with
  | nil => exact hnodup
  | cons c cs ih => exact ih (c.nodup_putInto hnodup)

/-- What a run has left is already the last of its uri. -/
theorem latest_eq_self (hnodup : (kept.map uri).Nodup) (cs : List Content) :
    ∀ x ∈ cs.foldl (fun kept c => c.putInto kept) kept, latest cs x = x := by
  -- the induction takes off the last piece of the run, which nothing replaces
  induction cs using List.reverseRecOn with
  | nil => exact fun _ _ => rfl
  | append_singleton cs c ih =>
    intro x hx
    rw [List.foldl_append, List.foldl_cons, List.foldl_nil] at hx
    have hput := c.nodup_putInto (nodup_foldl_putInto hnodup cs)
    rw [latest_append_singleton]
    by_cases huri : x.uri = c.uri
    · rw [if_pos huri]
      exact (List.inj_on_of_nodup_map hput hx (c.mem_putInto_self _) huri).symm
    · have hkept := (c.mem_putInto hx).resolve_left fun h => huri (congrArg uri h)
      rw [if_neg huri, ih x hkept]

end

/-! ## What is not refused again -/

/-- Content is welcome among other content: it may be stored, and its uri is that of content of its
category. -/
structure IsWelcome (kept : List Content) (c : Content) : Prop where
  storable : c.toDocument.validate = .ok ()
  likeness : ∃ x ∈ kept, x.uri = c.uri ∧ x.category = c.category

/-- Content stays welcome in what comes after. -/
theorem IsWelcome.growsInto {kept later : List Content} {c : Content} (h : IsWelcome kept c)
    (hgrown : GrowsInto kept later) : IsWelcome later c := by
  obtain ⟨x, hx, huri, hcategory⟩ := h.likeness
  obtain ⟨y, hy, huri', hcategory'⟩ := hgrown.lasting x hx
  exact ⟨h.storable, y, hy, huri'.trans huri, hcategory'.trans hcategory⟩

/-- Content that is welcome is not refused. -/
theorem IsWelcome.refusal?_eq_none {kept : List Content} {c : Content} (h : IsWelcome kept c)
    (hnodup : (kept.map uri).Nodup) : c.refusal? kept = none := by
  obtain ⟨x, hx, huri, hcategory⟩ := h.likeness
  have hconflict : (kept.find? fun x => x.uri == c.uri).bind c.conflict? = none := by
    cases hfind : kept.find? fun x => x.uri == c.uri with
    | none => rfl
    | some y =>
      have hy : y.uri = c.uri := by simpa using List.find?_some hfind
      obtain rfl : y = x :=
        List.inj_on_of_nodup_map hnodup (List.mem_of_find?_eq_some hfind) hx (hy.trans huri.symm)
      rw [Option.bind_some, conflict?, if_pos hcategory]
  rw [refusal?, hconflict, h.storable]

/-- What a run has put in is welcome where it is. -/
theorem isWelcome_of_putAll_ok {cs kept : List Content} (h : (putAll cs kept).2 = .ok ()) :
    ∀ c ∈ cs, IsWelcome (putAll cs kept).1 c := by
  induction cs generalizing kept with
  | nil => simp
  | cons c cs ih =>
    rw [putAll] at h ⊢
    cases hrefusal : c.refusal? kept with
    | some e =>
      rw [hrefusal] at h
      cases h
    | none =>
      rw [hrefusal] at h
      have hput : IsWelcome (c.putInto kept) c :=
        ⟨(of_refusal?_eq_none hrefusal).1, c, c.mem_putInto_self _, rfl, rfl⟩
      exact List.forall_mem_cons.2 ⟨hput.growsInto (growsInto_putAll cs _), ih h⟩

/-- Where all pieces are welcome a run puts in all of them. -/
theorem putAll_of_isWelcome {cs kept : List Content} (hnodup : (kept.map uri).Nodup)
    (h : ∀ c ∈ cs, IsWelcome kept c) : (putAll cs kept).2 = .ok () := by
  induction cs generalizing kept with
  | nil => rfl
  | cons c cs ih =>
    rw [List.forall_mem_cons] at h
    have hrefusal := h.1.refusal?_eq_none hnodup
    rw [putAll, hrefusal]
    exact ih (c.nodup_putInto hnodup) fun x hx => (h.2 x hx).growsInto (growsInto_putInto hrefusal)

/-! ## Running twice -/

/-- After a run that succeeds another goes on from what it has left. -/
theorem putAll_append_of_ok {cs kept : List Content} (h : (putAll cs kept).2 = .ok ())
    (more : List Content) : putAll (cs ++ more) kept = putAll more (putAll cs kept).1 := by
  induction cs generalizing kept with
  | nil => rfl
  | cons c cs ih =>
    rw [putAll] at h ⊢
    rw [List.cons_append, putAll]
    cases hrefusal : c.refusal? kept with
    | some e =>
      rw [hrefusal] at h
      cases h
    | none =>
      rw [hrefusal] at h
      exact ih h

/-- A run that succeeds has the same success again, and changes nothing. -/
theorem putAll_again_of_ok {cs kept : List Content} (hnodup : (kept.map uri).Nodup)
    (h : (putAll cs kept).2 = .ok ()) :
    putAll cs (putAll cs kept).1 = ((putAll cs kept).1, .ok ()) := by
  have hwelcome := isWelcome_of_putAll_ok h
  have hnodup' := nodup_putAll hnodup cs
  have hagain := putAll_of_isWelcome hnodup' hwelcome
  have huris : ∀ c ∈ cs, c.uri ∈ (putAll cs kept).1.map uri := by
    intro c hc
    obtain ⟨x, hx, huri, -⟩ := (hwelcome c hc).likeness
    exact huri ▸ List.mem_map_of_mem hx
  have hsame : (putAll cs (putAll cs kept).1).1 = (putAll cs kept).1 := by
    rw [putAll_of_ok hagain, foldl_putInto_eq_map hnodup' huris]
    refine (List.map_congr_left fun x hx => ?_).trans (List.map_id _)
    rw [putAll_of_ok h] at hx
    exact latest_eq_self hnodup cs x hx
  exact Prod.ext hsame hagain

/-- A run over what it has left is the same run, whether it succeeds or not. -/
theorem putAll_again {kept : List Content} (hnodup : (kept.map uri).Nodup) (cs : List Content) :
    putAll cs (putAll cs kept).1 = putAll cs kept := by
  cases h : (putAll cs kept).2 with
  | ok u => exact (putAll_again_of_ok hnodup h).trans (Prod.ext rfl h.symm)
  | error e =>
    -- what comes before the refused piece is put in again, and then the piece is refused again
    obtain ⟨stored, refused, rest, rfl, hok, hrefusal, hleft⟩ := exists_of_putAll_error h
    have hagain := putAll_again_of_ok hnodup hok
    have hstored : (putAll stored (putAll stored kept).1).2 = .ok () := by rw [hagain]
    rw [hleft, putAll_append_of_ok hstored, hagain, putAll, hrefusal]
    exact Prod.ext hleft.symm h.symm

end Content

namespace Repository

open Content

/-- A write over what it has left leaves the same. -/
theorem Keeps.write_again {r : Repository} {content groups : List Content} (h : r.Keeps content groups)
    (c : Content) :
    ∃ content' groups', Keeps (r.write c).1 content' groups' ∧
      Keeps ((r.write c).1.write c).1 content' groups' ∧ ((r.write c).1.write c).2 = (r.write c).2 := by
  by_cases hc : c.IsGroup
  · cases c with
    | group d ms =>
      obtain ⟨hwritten, houtcome⟩ := h.write_group d ms
      obtain ⟨hagain, houtcome'⟩ := hwritten.write_group d ms
      rw [putAll_again h.groups_nodup] at hagain houtcome'
      exact ⟨_, _, hwritten, hagain, houtcome'.trans houtcome.symm⟩
    | item i => exact hc.elim
    | container about ms => exact hc.elim
  · obtain ⟨hwritten, houtcome⟩ := h.write_of_not_isGroup hc
    obtain ⟨hagain, houtcome'⟩ := hwritten.write_of_not_isGroup hc
    rw [putAll_again h.content_nodup] at hagain houtcome'
    exact ⟨_, _, hwritten, hagain, houtcome'.trans houtcome.symm⟩

/-- **Writing is idempotent.** A second write of the same content, right after the first, has the same
outcome, success or error, and leaves the same documents in the same order. -/
theorem write_write {r : Repository} (hr : r.Reachable) (c : Content) :
    ((r.write c).1.write c).2 = (r.write c).2 ∧
      ((r.write c).1.write c).1.content.documents = (r.write c).1.content.documents ∧
      ((r.write c).1.write c).1.groups.documents = (r.write c).1.groups.documents := by
  obtain ⟨content, groups, hkeeps⟩ := hr.exists_keeps
  obtain ⟨content', groups', hwritten, hagain, houtcome⟩ := hkeeps.write_again c
  exact ⟨houtcome, hagain.content_eq.trans hwritten.content_eq.symm,
    hagain.groups_eq.trans hwritten.groups_eq.symm⟩

/-- A brand with two episodes of one uri and an item of its own uri. -/
def clashingBrand : Content :=
  brandOf [.item (episodeTitled "Pilot"), itemAt "/brand", .item (episodeTitled "Finale")]

/-- The brand is refused because of its own item, with the later episode in place of the earlier; the
second write ends in the same way. -/
theorem write_write_clashingBrand :
    (clashingBrand.stored.map Content.uri = ["/episode", "/brand", "/episode", "/brand"]) ∧
      ((({} : Repository).write clashingBrand).1.write clashingBrand).2 =
        .error (.kindConflict "/brand" "Item" "Brand") ∧
      ((({} : Repository).write clashingBrand).1.write clashingBrand).1.content.documents =
        [(Content.item (episodeTitled "Finale")).toDocument,
          (Content.item { described := { canonicalUri := "/brand" }, container := some "/brand" }).toDocument] := by
  obtain ⟨houtcome, hdocuments, -⟩ := write_write .empty clashingBrand
  refine ⟨by decide, houtcome.trans rfl, hdocuments.trans ?_⟩
  rfl

end Repository

end MediaCatalogue
