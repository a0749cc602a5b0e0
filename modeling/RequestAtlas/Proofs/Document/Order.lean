import RequestAtlas.Proofs.Document.Items
import RequestAtlas.Proofs.PathText
/-!
# The order in which requests come in

Requests are sorted before a collection is written, but the sort does not look at what is sent.  So the order in
which requests come in shows in the text exactly where requests of one URL, method and file send different
things: `collectionText_perm_iff`.  `sameTarget` is the smallest such case.
-/

namespace RequestAtlas.Document

theorem rank_eq_iff {a b : Request} :
    a.rank = b.rank ↔ a.url = b.url ∧ a.method.name = b.method.name ∧ a.source.text = b.source.text := by
  simp only [Request.rank, toLex_inj, Prod.mk.injEq]

/-- The text of a body tells whether something is sent. -/
theorem null_iff_of_render_eq {v w : Value} (hv : v.Regular) (hw : w.Regular) (h : v.render = w.render) :
    v = .null ↔ w = .null := by
  have hjson := Value.canonical_toJson_eq_of_render_eq hv.1 hw.1 hv.2 hw.2 h
  cases v <;> cases w <;> simp [Value.canonical, Value.toJson] at hjson ⊢

/-- Rank and text of the body determine the item. -/
theorem itemOf_eq (cwd : List String) (base : Path) {a b : Request} (ha : a.source.Plain) (hb : b.source.Plain)
    (hra : a.body.Regular) (hrb : b.body.Regular) (hrank : a.rank = b.rank) (h : a.body.render = b.body.render) :
    itemOf cwd base a = itemOf cwd base b := by
  obtain ⟨hurl, hmethod, hsource⟩ := rank_eq_iff.1 hrank
  have hpath := Path.eq_of_text_eq ha hb hsource
  have hbody : bodyEntries a.body = bodyEntries b.body := by
    have hnull := null_iff_of_render_eq hra hrb h
    by_cases hn : a.body = .null
    · rw [hn, hnull.1 hn]
    · rw [Value.render_of_short hra.2, Value.render_of_short hrb.2, Except.ok.injEq, String.append_left_inj] at h
      rw [bodyEntries_of_ne hn, bodyEntries_of_ne (hnull.not.1 hn), h]
  simp only [itemOf, requestName, requestEntries, hurl, hmethod, hpath, hbody]

/-- An item that shows two requests shows the same body. -/
theorem Shows.render_eq {cwd : List String} {base : Path} {a b : Request} {item : Json}
    (ha : Shows cwd base a item) (hb : Shows cwd base b item) : a.body.render = b.body.render := by
  have hnull : a.body ≠ .null ↔ b.body ≠ .null := ha.hasBody.symm.trans hb.hasBody
  by_cases hn : a.body = .null
  · rw [hn, not_not.1 (hnull.not.1 (not_not.2 hn))]
  · obtain ⟨raw, hra, hitem, _⟩ := ha.body hn
    obtain ⟨raw', hrb, hitem', _⟩ := hb.body (hnull.1 hn)
    rw [hitem, Option.some.injEq, Json.string.injEq] at hitem'
    rw [hra, hrb, hitem']

/-- Requests with the same item send the same text. -/
theorem render_eq_of_item_eq {cwd : List String} {base : Path} {a b : Request} (ha : a.body.Regular)
    (hb : b.body.Regular) (h : (itemOf cwd base a).canonical.toJson = (itemOf cwd base b).canonical.toJson) :
    a.body.render = b.body.render := by
  have hshows := shows_itemOf cwd base ha
  rw [h] at hshows
  exact hshows.render_eq (shows_itemOf cwd base hb)

/-- The text of a collection determines its items. -/
theorem items_eq_of_text_eq (cwd : List String) (base : Path) (name : String) {s t : List Request}
    (h : (collectionOf name (s.map (itemOf cwd base))).text = (collectionOf name (t.map (itemOf cwd base))).text) :
    s.map (fun r => (itemOf cwd base r).canonical.toJson) = t.map fun r => (itemOf cwd base r).canonical.toJson := by
  obtain ⟨doc, hread, hitems⟩ := read_collection cwd base name s
  obtain ⟨doc', hread', hitems'⟩ := read_collection cwd base name t
  rw [h, hread', Option.some.injEq] at hread
  rw [hread, hitems, Option.some.injEq, Json.list.injEq] at hitems'
  exact hitems'

/-- **What the order of requests can change.**  Two orders of the same requests give the same text exactly if, for
every URL, method and file, what its requests send comes in the same order in both. -/
theorem collectionText_perm_iff (cwd : List String) (base : Path) (name : String) {rs rs' : List Request}
    (hperm : rs.Perm rs') (hbody : ∀ r ∈ rs, r.body.Regular) (hsource : ∀ r ∈ rs, r.source.Plain) :
    collectionText cwd base name rs = collectionText cwd base name rs' ↔
      ∀ k, (keyClass Request.rank k rs).map (·.body.render) = (keyClass Request.rank k rs').map (·.body.render) := by
  have hsort := Request.stableSort_sort rs
  have hsort' := Request.stableSort_sort rs'
  have hmem : ∀ r ∈ Request.sort rs, r ∈ rs := fun r hr => hsort.perm.mem_iff.1 hr
  have hmem' : ∀ r ∈ Request.sort rs', r ∈ rs := fun r hr => hperm.mem_iff.2 (hsort'.perm.mem_iff.1 hr)
  rw [collectionText_eq cwd base name fun r hr => (hbody r hr).2,
    collectionText_eq cwd base name fun r hr => (hbody r (hperm.mem_iff.2 hr)).2, Except.ok.injEq,
    String.append_left_inj]
  constructor
  · intro h k
    have hitems := items_eq_of_text_eq cwd base name h
    have hbodies : (Request.sort rs).map (·.body.render) = (Request.sort rs').map (·.body.render) := by
      apply map_eq_of_map_eq hitems
      intro a ha b hb hab
      exact render_eq_of_item_eq (hbody a (hmem a ha)) (hbody b (hmem' b hb)) hab
    rw [← hsort.stable, ← hsort'.stable]
    exact map_keyClass_eq k (hsort.keys_eq hsort' hperm) hbodies
  · intro h
    have hitems : (Request.sort rs).map (itemOf cwd base) = (Request.sort rs').map (itemOf cwd base) := by
      apply map_eq_of_classes hsort.ascending hsort'.ascending
      intro k
      rw [hsort.stable, hsort'.stable]
      apply map_eq_of_map_eq (h k)
      intro a ha b hb hab
      obtain ⟨ha, hka⟩ := mem_keyClass.1 ha
      obtain ⟨hb, hkb⟩ := mem_keyClass.1 hb
      have hb := hperm.mem_iff.2 hb
      exact itemOf_eq cwd base (hsource a ha) (hsource b hb) (hbody a ha) (hbody b hb) (hka.trans hkb.symm) hab
    rw [hitems]

/-- Two requests to one URL from one file that send different texts. -/
def sameTarget : List Request :=
  [⟨Path.ofString "a.js", .post, "/a", .string "1"⟩, ⟨Path.ofString "a.js", .post, "/a", .string "2"⟩]

theorem regular_sameTarget : ∀ r ∈ sameTarget, r.body.Regular := by
  simp only [sameTarget, List.mem_cons, List.not_mem_nil, or_false, forall_eq_or_imp, forall_eq]
  exact ⟨⟨rfl, rfl⟩, ⟨rfl, rfl⟩⟩

theorem plain_sameTarget : ∀ r ∈ sameTarget, r.source.Plain := by
  simp only [sameTarget, List.mem_cons, List.not_mem_nil, or_false, forall_eq_or_imp, forall_eq]
  exact ⟨Path.plain_ofString _, Path.plain_ofString _⟩

theorem collectionText_perm_iff_sameTarget :
    sameTarget.Perm sameTarget.reverse ∧ (∀ r ∈ sameTarget, r.body.Regular) ∧
    (∀ r ∈ sameTarget, r.source.Plain) ∧
    (collectionText [] Path.here "x" sameTarget = collectionText [] Path.here "x" sameTarget.reverse ↔
      ∀ k, (keyClass Request.rank k sameTarget).map (·.body.render) =
        (keyClass Request.rank k sameTarget.reverse).map (·.body.render)) :=
  ⟨(List.reverse_perm _).symm, regular_sameTarget, plain_sameTarget,
    collectionText_perm_iff [] Path.here "x" (List.reverse_perm _).symm regular_sameTarget plain_sameTarget⟩

/-- The order of these two requests shows in the text. -/
theorem collectionText_sameTarget_reverse : sameTarget.Perm sameTarget.reverse ∧
    (∀ r ∈ sameTarget, r.body.Regular) ∧
    collectionText [] Path.here "x" sameTarget ≠ collectionText [] Path.here "x" sameTarget.reverse := by
  refine ⟨(List.reverse_perm _).symm, regular_sameTarget, fun h => ?_⟩
  have hshort : ∀ r ∈ sameTarget, r.body.hasLong = false := fun r hr => (regular_sameTarget r hr).2
  rw [collectionText_eq [] Path.here "x" hshort,
    collectionText_eq [] Path.here "x" fun r hr => hshort r (List.mem_reverse.1 hr), Except.ok.injEq,
    String.append_left_inj] at h
  -- sorting leaves both orders as they are
  have hsort : Request.sort sameTarget = sameTarget := List.mergeSort_of_pairwise (by decide)
  have hsort' : Request.sort sameTarget.reverse = sameTarget.reverse := List.mergeSort_of_pairwise (by decide)
  have hitems := items_eq_of_text_eq [] Path.here "x" h
  rw [hsort, hsort'] at hitems
  have hrender : (Value.string "1").render = (Value.string "2").render :=
    render_eq_of_item_eq ⟨rfl, rfl⟩ ⟨rfl, rfl⟩ (List.cons.inj hitems).1
  rw [Value.render_of_short rfl, Value.render_of_short rfl] at hrender
  revert hrender
  decide

end RequestAtlas.Document
