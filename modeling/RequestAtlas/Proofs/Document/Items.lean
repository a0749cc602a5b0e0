import RequestAtlas.Document.Collection
import RequestAtlas.Proofs.Results
import RequestAtlas.Proofs.Values
/-!
# The items of a collection

Reading the text of a collection gives back its requests: `collection_text_items` says that there is one item per
request, in the stable order of the requests, each with the name, method and URL of its request, and with a body
exactly if something is sent.  The body stands in the item as a text of its own, which reads back as the
canonical copy of what is sent.

`itemOf` and `collectionOf` are the documents without the failure that an integer too long for a body brings; all
dictionaries of a collection have fixed keys, so its own text always reads back.
-/

namespace RequestAtlas

namespace Request

/-- What requests are ordered by, as a member of the lexicographic order of threes. -/
def rank (r : Request) : String ×ₗ String ×ₗ String := toLex (r.url, toLex (r.method.name, r.source.text))

theorem keyLe_eq (a b : Request) : keyLe a.sortKey b.sortKey = decide (a.rank ≤ b.rank) := by
  have hlex : a.rank ≤ b.rank ↔ a.url < b.url ∨ a.url = b.url ∧
      (a.method.name < b.method.name ∨ a.method.name = b.method.name ∧ a.source.text ≤ b.source.text) := by
    simp only [rank, Prod.Lex.toLex_le_toLex]
  simp only [keyLe, sortKey, Value.keyLe_eq]
  split
  · rename_i hu
    split
    · rename_i hm
      rw [decide_eq_decide, hlex]
      simp [hu, hm]
    · rename_i hm
      rw [decide_eq_decide, hlex, le_iff_lt_or_eq]
      simp [hu, hm]
  · rename_i hu
    rw [decide_eq_decide, hlex, le_iff_lt_or_eq]
    simp [hu]

/-- Requests are sorted stably by their rank. -/
theorem stableSort_sort (rs : List Request) : StableSort rank rs (sort rs) :=
  stableSort_mergeSort keyLe_eq rs

end Request

namespace Document

/-- The text of a collection. -/
def collectionText (cwd : List String) (base : Path) (name : String) (rs : List Request) :
    Except RenderError String :=
  (collection cwd base name rs).bind Value.render

/-! ## Documents that can be written -/

/-- The part of an item that holds a body with the given text. -/
def bodyBox (raw : String) : Value :=
  .dict [("mode", .string "raw"), ("raw", .string raw),
    ("options", .dict [("raw", .dict [("language", .string "json")])])]

/-- The entry for a body; there is none if nothing is sent. -/
def bodyEntries : Value → List (String × Value)
  | .null => []
  | body => [("body", bodyBox body.text)]

theorem bodyEntries_of_ne {body : Value} (h : body ≠ .null) : bodyEntries body = [("body", bodyBox body.text)] := by
  cases body with
  | null => exact absurd rfl h
  | _ => rfl

/-- The entries of an item that stand whatever is sent. -/
def requestEntries (r : Request) : List (String × Value) :=
  [("method", .string r.method.name),
   ("header", .list (headers.map fun (k, v) => .dict [("key", .string k), ("value", .string v)])),
   ("url", url r.url)]

/-- The item of a request whose body can be written. -/
def itemOf (cwd : List String) (base : Path) (r : Request) : Value :=
  .dict [("name", .string (requestName cwd base r)), ("request", .dict (requestEntries r ++ bodyEntries r.body))]

/-- The collection of items. -/
def collectionOf (name : String) (items : List Value) : Value :=
  .dict
    [("info", .dict [("name", .string name), ("schema", .string collectionSchema)]),
     ("variable", .list (variableNames.map fun k => .dict [("key", .string k), ("value", .string "")])),
     ("item", .list items)]

theorem bodyText_eq {body : Value} (h : body.hasLong = false) : bodyText body = .ok body.text := by
  rw [bodyText, Value.render_of_short h, Except.map, Value.trimEnd_text, String.ofList_toList]

theorem bodyPart_eq {body : Value} (h : body.hasLong = false) : bodyPart body = .ok (bodyEntries body) := by
  have ht := bodyText_eq h
  cases body <;> simp [bodyPart, bodyEntries, bodyBox, ht, bind, Except.bind, pure, Except.pure]

theorem item_eq (cwd : List String) (base : Path) {r : Request} (h : r.body.hasLong = false) :
    item cwd base r = .ok (itemOf cwd base r) := by
  simp [item, bodyPart_eq h, itemOf, requestEntries, bind, Except.bind, pure, Except.pure]

theorem collection_eq (cwd : List String) (base : Path) (name : String) {rs : List Request}
    (h : ∀ r ∈ rs, r.body.hasLong = false) :
    collection cwd base name rs = .ok (collectionOf name ((Request.sort rs).map (itemOf cwd base))) := by
  have hs : ∀ r ∈ Request.sort rs, r.body.hasLong = false := fun r hr => h r (List.mem_mergeSort.1 hr)
  rw [collection, Results.mapM_eq_ok_map fun r hr => item_eq cwd base (hs r hr)]
  rfl

/-- A body that is part of an item could be written. -/
theorem hasLong_of_bodyPart {body : Value} {es : List (String × Value)} (h : bodyPart body = .ok es) :
    body.hasLong = false := by
  by_contra hlong
  rw [Bool.not_eq_false] at hlong
  have hrender : body.render = .error .longInteger := by simp [Value.render, hlong]
  have htext : bodyText body = .error .longInteger := by rw [bodyText, hrender]; rfl
  cases body <;> simp [bodyPart, htext, bind, Except.bind, Value.hasLong] at h hlong

/-- A collection is written only if all bodies can be. -/
theorem hasLong_of_collection {cwd : List String} {base : Path} {name : String} {rs : List Request} {doc : Value}
    (h : collection cwd base name rs = .ok doc) : ∀ r ∈ rs, r.body.hasLong = false := by
  obtain ⟨items, hitems, _⟩ := Results.bind_eq_ok_iff.1 h
  intro r hr
  obtain ⟨v, hitem⟩ := Results.exists_of_mapM_eq_ok hitems (List.mem_mergeSort.2 hr)
  obtain ⟨es, hbody, _⟩ := Results.bind_eq_ok_iff.1 hitem
  exact hasLong_of_bodyPart hbody

/-! ## The keys of a document are fixed -/

/-- A dictionary of two texts. -/
theorem regular_pair {k k' : String} (h : k ≠ k') (s s' : String) :
    (Value.dict [(k, .string s), (k', .string s')]).Regular :=
  Value.regular_dict (by simpa using h) (by simp [Value.regular_string])

theorem regular_url (raw : String) : (url raw).Regular := by
  unfold url
  split
  · apply Value.regular_dict (by simp)
    simp only [List.mem_cons, List.not_mem_nil, or_false, forall_eq_or_imp, forall_eq]
    refine ⟨Value.regular_string raw, Value.regular_list (by simp [Value.regular_string]), ?_⟩
    apply Value.regular_list
    intro v hv
    obtain ⟨s, _, rfl⟩ := List.mem_map.1 hv
    exact Value.regular_string _
  · exact ⟨rfl, rfl⟩

theorem regular_bodyBox (raw : String) : (bodyBox raw).Regular := ⟨rfl, rfl⟩

theorem requestEntries_keys (r : Request) : ((requestEntries r ++ bodyEntries r.body).map (·.1)).Nodup := by
  by_cases h : r.body = .null
  · simp [requestEntries, h, bodyEntries]
  · simp [requestEntries, bodyEntries_of_ne h]

theorem regular_headers : (Value.list
    (headers.map fun (k, v) => .dict [("key", .string k), ("value", .string v)])).Regular := by
  apply Value.regular_list
  intro v hv
  obtain ⟨⟨k, s⟩, _, rfl⟩ := List.mem_map.1 hv
  exact regular_pair (by decide) k s

theorem regular_itemOf (cwd : List String) (base : Path) (r : Request) : (itemOf cwd base r).Regular := by
  apply Value.regular_dict (by simp)
  simp only [List.mem_cons, List.not_mem_nil, or_false, forall_eq_or_imp, forall_eq]
  refine ⟨Value.regular_string _, Value.regular_dict (requestEntries_keys r) ?_⟩
  intro e he
  rcases List.mem_append.1 he with he | he
  · simp only [requestEntries, List.mem_cons, List.not_mem_nil, or_false] at he
    rcases he with rfl | rfl | rfl
    · exact Value.regular_string _
    · exact regular_headers
    · exact regular_url _
  · by_cases h : r.body = .null
    · simp [h, bodyEntries] at he
    · rw [bodyEntries_of_ne h, List.mem_singleton] at he
      subst he
      exact regular_bodyBox _

theorem regular_collectionOf (name : String) {items : List Value} (h : ∀ v ∈ items, v.Regular) :
    (collectionOf name items).Regular := by
  apply Value.regular_dict (by simp)
  simp only [List.mem_cons, List.not_mem_nil, or_false, forall_eq_or_imp, forall_eq]
  refine ⟨regular_pair (by decide) _ _, Value.regular_list ?_, Value.regular_list h⟩
  intro v hv
  obtain ⟨k, _, rfl⟩ := List.mem_map.1 hv
  exact regular_pair (by decide) k ""

/-! ## Reading a collection -/

/-- An item of a collection that was read shows a request. -/
structure Shows (cwd : List String) (base : Path) (r : Request) (item : Json) : Prop where
  name : item.at? ["name"] = some (.string (requestName cwd base r))
  method : item.at? ["request", "method"] = some (.string r.method.name)
  url : item.at? ["request", "url", "raw"] = some (.string r.url)
  /-- There is a body exactly if something is sent. -/
  hasBody : (item.at? ["request", "body"]).isSome = true ↔ r.body ≠ .null
  /-- The body stands as its rendered text without the line feed at the end, and reads back. -/
  body : r.body ≠ .null → ∃ raw, r.body.render = .ok (raw ++ "\n") ∧
    item.at? ["request", "body", "raw"] = some (.string raw) ∧ Json.read raw = some r.body.canonical.toJson

/-- What stands at a key of the request of an item. -/
theorem at?_itemOf_request (cwd : List String) (base : Path) (r : Request) (k : String) (ks : List String) :
    (itemOf cwd base r).canonical.toJson.at? ("request" :: k :: ks) =
      (Value.get? (requestEntries r ++ bodyEntries r.body) k).bind fun v => v.canonical.toJson.at? ks := by
  rw [itemOf, Value.at?_canonical (by simp)]
  exact Value.at?_canonical (requestEntries_keys r) k ks

theorem at?_url_raw (raw : String) : (url raw).canonical.toJson.at? ["raw"] = some (.string raw) := by
  unfold url
  split
  · exact Value.at?_canonical (by simp) "raw" []
  · exact Value.at?_canonical (by simp) "raw" []

theorem shows_itemOf (cwd : List String) (base : Path) {r : Request} (h : r.body.Regular) :
    Shows cwd base r (itemOf cwd base r).canonical.toJson where
  name := Value.at?_canonical (by simp) "name" []
  method := at?_itemOf_request cwd base r "method" []
  url := (at?_itemOf_request cwd base r "url" ["raw"]).trans (at?_url_raw r.url)
  hasBody := by
    rw [at?_itemOf_request]
    by_cases hb : r.body = .null
    · simp [hb, requestEntries, bodyEntries, Value.get?]
    · simp [hb, requestEntries, bodyEntries_of_ne hb, Value.get?, Json.at?]
  body hb := by
    refine ⟨r.body.text, Value.render_of_short h.2, ?_, Value.read_text h.1⟩
    rw [at?_itemOf_request, bodyEntries_of_ne hb]
    exact Value.at?_canonical (by simp) "raw" []

theorem collectionText_eq (cwd : List String) (base : Path) (name : String) {rs : List Request}
    (h : ∀ r ∈ rs, r.body.hasLong = false) : collectionText cwd base name rs =
      .ok ((collectionOf name ((Request.sort rs).map (itemOf cwd base))).text ++ "\n") := by
  rw [collectionText, collection_eq cwd base name h]
  refine Value.render_of_short (regular_collectionOf name fun v hv => ?_).2
  obtain ⟨r, _, rfl⟩ := List.mem_map.1 hv
  exact regular_itemOf cwd base r

/-- The text of a collection reads back, and its list of items is that of the sorted requests. -/
theorem read_collection (cwd : List String) (base : Path) (name : String) (rs : List Request) :
    ∃ doc, Json.read ((collectionOf name (rs.map (itemOf cwd base))).text ++ "\n") = some doc ∧
      doc.at? ["item"] = some (.list (rs.map fun r => (itemOf cwd base r).canonical.toJson)) := by
  have hreg : (collectionOf name (rs.map (itemOf cwd base))).Regular := by
    apply regular_collectionOf
    intro v hv
    obtain ⟨r, _, rfl⟩ := List.mem_map.1 hv
    exact regular_itemOf cwd base r
  refine ⟨_, Value.read_rendered hreg.1, ?_⟩
  rw [collectionOf, Value.at?_canonical (by simp)]
  simp only [Value.get?, List.find?_cons]
  exact congrArg some ((Value.toJson_canonical_list _).trans (by rw [List.map_map]; rfl))

/-- **The text of a collection keeps its requests.**  It is always written, and reading it gives one item per
request, in the stable order by URL, method and path of the file, each showing its request. -/
theorem collection_text_items (cwd : List String) (base : Path) (name : String) (rs : List Request)
    (h : ∀ r ∈ rs, r.body.Regular) :
    ∃ (text : String) (doc : Json) (sorted : List Request) (items : List Json),
      collectionText cwd base name rs = .ok text ∧ Json.read text = some doc ∧
      doc.at? ["item"] = some (.list items) ∧ items.length = rs.length ∧
      StableSort Request.rank rs sorted ∧ List.Forall₂ (Shows cwd base) sorted items := by
  obtain ⟨doc, hread, hitems⟩ := read_collection cwd base name (Request.sort rs)
  have hsort := Request.stableSort_sort rs
  refine ⟨_, doc, Request.sort rs, _, collectionText_eq cwd base name fun r hr => (h r hr).2, hread, hitems, ?_,
    hsort, ?_⟩
  · rw [List.length_map, hsort.perm.length_eq]
  · rw [List.forall₂_map_right_iff, List.forall₂_same]
    exact fun r hr => shows_itemOf cwd base (h r (hsort.perm.mem_iff.1 hr))

/-- Two requests out of order, one with a body that holds quotes, a line feed and an empty list. -/
def nestedRequests : List Request :=
  [⟨Path.ofString "b.js", .post, "/b", .dict [("z", .list []), ("a\n\"", .string "\\")]⟩,
   ⟨Path.ofString "a.js", .get, "/a", .null⟩]

theorem collection_text_items_nested : (∀ r ∈ nestedRequests, r.body.Regular) ∧
    ∃ (text : String) (doc : Json) (sorted : List Request) (items : List Json),
      collectionText [] Path.here "x" nestedRequests = .ok text ∧ Json.read text = some doc ∧
      doc.at? ["item"] = some (.list items) ∧ items.length = nestedRequests.length ∧
      StableSort Request.rank nestedRequests sorted ∧ List.Forall₂ (Shows [] Path.here) sorted items := by
  have h : ∀ r ∈ nestedRequests, r.body.Regular := by
    simp only [nestedRequests, List.mem_cons, List.not_mem_nil, or_false, forall_eq_or_imp, forall_eq]
    exact ⟨⟨by decide, rfl⟩, ⟨rfl, rfl⟩⟩
  exact ⟨h, collection_text_items [] Path.here "x" nestedRequests h⟩

end Document

end RequestAtlas
