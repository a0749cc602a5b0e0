import RequestAtlas.Document.Environment
import RequestAtlas.Proofs.Document.Items
import RequestAtlas.Proofs.Document.UrlParts
import RequestAtlas.Proofs.Encoding
/-!
# Documents that can be encoded

Around the texts in a value, writing it puts ASCII characters only, so its text can be encoded just if they can
(`writable_text`).  Of the texts in a collection only its name and what its requests bring can have surrogates
(`writable_collectionText`), and of those in an environment only its name (`writable_environment`).
-/

namespace RequestAtlas

variable [Surrogates]

namespace Text

/-- None of the characters stands for a surrogate. -/
def Bare (cs : List Char) : Prop := ∀ c ∈ cs, Surrogates.unit? c = none

@[simp]
theorem bare_nil : Bare [] := fun _ h => absurd h List.not_mem_nil

@[simp]
theorem bare_cons {c : Char} {cs : List Char} : Bare (c :: cs) ↔ Surrogates.unit? c = none ∧ Bare cs :=
  List.forall_mem_cons

@[simp]
theorem bare_append {cs ds : List Char} : Bare (cs ++ ds) ↔ Bare cs ∧ Bare ds := List.forall_mem_append

theorem bare_of_ascii {cs : List Char} (h : isAscii cs = true) : Bare cs :=
  fun c hc => Surrogates.unit?_ascii (isAscii_iff.1 h c hc)

theorem Bare.mono {cs ds : List Char} (h : Bare ds) (hsub : cs ⊆ ds) : Bare cs := fun c hc => h c (hsub hc)

theorem bare_numerals {cs : List Char} (h : ∀ c ∈ cs, Json.isNumeral c = true) : Bare cs := by
  refine bare_of_ascii (isAscii_iff.2 fun c hc => ?_)
  have hnumeral := h c hc
  simp only [Json.isNumeral, Bool.or_eq_true, beq_iff_eq] at hnumeral
  rcases hnumeral with ((((hdigit | rfl) | rfl) | rfl) | rfl) | rfl
  · have hle := (Char.isDigit_iff_toNat.1 hdigit).2
    exact Nat.lt_of_le_of_lt hle (by decide)
  all_goals decide

end Text

namespace Value

open Text (Bare bare_nil bare_cons bare_append bare_of_ascii bare_numerals isAscii isAscii_iff isAscii_cons)

/-! ## Values -/

mutual

/-- No text in the value has a character that stands for a surrogate. -/
def Writable : Value → Prop
  | .string s => Text.Writable s
  | .list items => WritableItems items
  | .dict entries => WritableEntries entries
  | _ => True

/-- Every item is writable. -/
def WritableItems : List Value → Prop
  | [] => True
  | v :: vs => Writable v ∧ WritableItems vs

/-- Every key and what it has are writable. -/
def WritableEntries : List (String × Value) → Prop
  | [] => True
  | (k, v) :: es => (Text.Writable k ∧ Writable v) ∧ WritableEntries es

end

mutual

def decidableWritable : (v : Value) → Decidable v.Writable
  | .string s => decidable_of_iff (Text.Writable s) (by rw [Writable])
  | .list items => @decidable_of_iff _ (WritableItems items) (by rw [Writable]) (decidableWritableItems items)
  | .dict entries => @decidable_of_iff _ (WritableEntries entries) (by rw [Writable]) (decidableWritableEntries entries)
  | .null => .isTrue trivial
  | .bool _ => .isTrue trivial
  | .int _ => .isTrue trivial
  | .float _ => .isTrue trivial

def decidableWritableItems : (vs : List Value) → Decidable (WritableItems vs)
  | [] => .isTrue trivial
  | v :: vs => @decidable_of_iff _ (Writable v ∧ WritableItems vs) (by rw [WritableItems])
      (@instDecidableAnd _ _ (decidableWritable v) (decidableWritableItems vs))

def decidableWritableEntries : (es : List (String × Value)) → Decidable (WritableEntries es)
  | [] => .isTrue trivial
  | (k, v) :: es => @decidable_of_iff _ ((Text.Writable k ∧ Writable v) ∧ WritableEntries es) (by rw [WritableEntries])
      (@instDecidableAnd _ _ (@instDecidableAnd _ _ inferInstance (decidableWritable v)) (decidableWritableEntries es))

end

instance (v : Value) : Decidable v.Writable := decidableWritable v

theorem writableItems_iff {vs : List Value} : WritableItems vs ↔ ∀ v ∈ vs, v.Writable := by
  induction vs with
  | nil => simp [WritableItems]
  | cons v vs ih => rw [WritableItems, ih, List.forall_mem_cons]

theorem writableEntries_iff {es : List (String × Value)} :
    WritableEntries es ↔ ∀ e ∈ es, Text.Writable e.1 ∧ e.2.Writable := by
  induction es with
  | nil => simp [WritableEntries]
  | cons e es ih => rw [WritableEntries, ih, List.forall_mem_cons]

theorem writable_list {vs : List Value} : (list vs).Writable ↔ ∀ v ∈ vs, v.Writable := writableItems_iff

theorem writable_dict {es : List (String × Value)} :
    (dict es).Writable ↔ ∀ e ∈ es, Text.Writable e.1 ∧ e.2.Writable := writableEntries_iff

mutual

/-- Putting entries in order changes no text. -/
theorem writable_canonical : ∀ {v : Value}, v.canonical.Writable ↔ v.Writable
  | .null => .rfl
  | .bool _ => .rfl
  | .int _ => .rfl
  | .float _ => .rfl
  | .string _ => .rfl
  | .list vs => by
    rw [canonical_list, writable_list, writable_list, List.forall_mem_map]
    exact writable_canonical_items
  | .dict es => by
    rw [canonical_dict, writable_dict, writable_dict]
    simp only [(sortEntries_perm _).mem_iff, List.forall_mem_map]
    exact writable_canonical_entries

theorem writable_canonical_items : ∀ {vs : List Value}, (∀ v ∈ vs, v.canonical.Writable) ↔ ∀ v ∈ vs, v.Writable
  | [] => by simp
  | v :: vs => by rw [List.forall_mem_cons, List.forall_mem_cons, writable_canonical, writable_canonical_items]

theorem writable_canonical_entries : ∀ {es : List (String × Value)},
    (∀ e ∈ es, Text.Writable e.1 ∧ e.2.canonical.Writable) ↔ ∀ e ∈ es, Text.Writable e.1 ∧ e.2.Writable
  | [] => by simp
  | (k, v) :: es => by
    rw [List.forall_mem_cons, List.forall_mem_cons, writable_canonical, writable_canonical_entries]

end

/-! ## Their texts -/

/-- A character is escaped by ASCII characters, if at all. -/
theorem bare_escapeChar (c : Char) : Bare (escapeChar c) ↔ Surrogates.unit? c = none := by
  have hletter : ∀ {d : Char}, c.toNat < 0x80 → d.toNat < 0x80 →
      (Bare ['\\', d] ↔ Surrogates.unit? c = none) := by
    intro d hc hd
    refine iff_of_true (bare_of_ascii ?_) (Surrogates.unit?_ascii hc)
    exact isAscii_cons.2 ⟨by decide, isAscii_cons.2 ⟨hd, rfl⟩⟩
  unfold escapeChar
  split
  case h_8 =>
    split
    · next hcontrol =>
      refine iff_of_true (bare_of_ascii ?_) (Surrogates.unit?_ascii (Nat.lt_trans hcontrol (by decide)))
      rw [Json.hexPadded_four _ hcontrol]
      have hdigit : ∀ n < 16, (Nat.digitChar n).toNat < 0x80 := by decide
      have hhigh := hdigit (c.toNat / 16) (by omega)
      have hlow := hdigit (c.toNat % 16) (by omega)
      simp [hhigh, hlow, isAscii]
    · rw [bare_cons, iff_true_intro bare_nil, and_true]
  all_goals exact hletter (by decide) (by decide)

theorem bare_escaped : ∀ {cs : List Char}, Bare (cs.flatMap escapeChar) ↔ Bare cs
  | [] => .rfl
  | c :: cs => by rw [List.flatMap_cons, bare_append, bare_escapeChar, bare_escaped, bare_cons]

@[simp]
theorem bare_writeString {s : String} : Bare (writeString s) ↔ Text.Writable s := by
  have hquote : Surrogates.unit? '"' = none := Surrogates.unit?_ascii (by decide)
  rw [writeString, List.cons_append, bare_cons, bare_append, bare_escaped, bare_cons, iff_true_intro hquote, true_and,
    iff_true_intro bare_nil, and_true, and_true]
  rfl

@[simp]
theorem bare_newline (level : Nat) : Bare (newline level) := by
  refine bare_of_ascii (isAscii_cons.2 ⟨by decide, isAscii_iff.2 fun c hc => ?_⟩)
  rw [List.eq_of_mem_replicate hc]
  decide

theorem bare_float (x : Binary64) : Bare (NumberLayout.document.render x).toList := by
  match x with
  | .finite s m e => exact bare_numerals (Json.numerals_of_number? (Json.number?_finite _ s m e))
  | .nan => exact bare_of_ascii (by decide)
  | .infinite true => exact bare_of_ascii (by decide)
  | .infinite false => exact bare_of_ascii (by decide)

mutual

/-- **Around its texts a value is written in ASCII characters.** -/
theorem bare_write : ∀ (level : Nat) (v : Value), Bare (write level v) ↔ v.Writable
  | _, .null => by simp [write, Writable, Surrogates.unit?_ascii]
  | _, .bool b => by cases b <;> simp [write, Writable, Surrogates.unit?_ascii]
  | _, .int n => iff_of_true (bare_numerals (Json.numerals_of_number? (Json.number?_int n))) trivial
  | _, .float x => iff_of_true (bare_float x) trivial
  | _, .string s => bare_writeString
  | _, .list [] => by simp [write, Writable, WritableItems, Surrogates.unit?_ascii]
  | level, .list (v :: vs) => by
    simp [write, Writable, WritableItems, bare_write (level + 1) v, bare_writeItems (level + 1) vs,
      Surrogates.unit?_ascii]
  | _, .dict [] => by simp [write, Writable, WritableEntries, Surrogates.unit?_ascii]
  | level, .dict ((k, v) :: es) => by
    simp [write, Writable, WritableEntries, bare_write (level + 1) v, bare_writeEntries (level + 1) es,
      Surrogates.unit?_ascii, and_assoc]

theorem bare_writeItems : ∀ (level : Nat) (vs : List Value), Bare (writeItems level vs) ↔ WritableItems vs
  | _, [] => iff_of_true bare_nil trivial
  | level, v :: vs => by
    simp [writeItems, WritableItems, bare_write level v, bare_writeItems level vs, Surrogates.unit?_ascii]

theorem bare_writeEntries : ∀ (level : Nat) (es : List (String × Value)),
    Bare (writeEntries level es) ↔ WritableEntries es
  | _, [] => iff_of_true bare_nil trivial
  | level, (k, v) :: es => by
    simp [writeEntries, WritableEntries, bare_write level v, bare_writeEntries level es, Surrogates.unit?_ascii,
      and_assoc]

end

/-- The text of a value can be encoded just if the texts in it can. -/
theorem writable_text {v : Value} : Text.Writable v.text ↔ v.Writable := by
  rw [← writable_canonical, ← bare_write 0]
  simp only [Text.Writable, Bare, text, String.toList_ofList]

theorem writable_of_render {v : Value} {s : String} (h : v.render = .ok s) : Text.Writable s ↔ v.Writable := by
  have hline : Text.Writable "\n" := Text.writable_of_ascii (by decide)
  rw [render] at h
  split at h
  · cases h
  · cases h
    rw [Text.writable_append, writable_text, iff_true_intro hline, and_true]

end Value

namespace Document

open Value (Writable WritableItems WritableEntries writableItems_iff writableEntries_iff)

/-! ## Collections -/

/-- What a request brings to a collection can be encoded: its display name, which spells the path of the script and the
URL, and its body. -/
structure Encodable (cwd : List String) (base : Path) (r : Request) : Prop where
  name : Text.Writable (requestName cwd base r)
  body : r.body.Writable

instance (cwd : List String) (base : Path) (r : Request) : Decidable (Encodable cwd base r) :=
  decidable_of_iff (Text.Writable (requestName cwd base r) ∧ r.body.Writable)
    ⟨fun h => ⟨h.1, h.2⟩, fun h => ⟨h.1, h.2⟩⟩

/-- The parts of a URL are made of its characters. -/
theorem writable_url {raw : String} (h : Text.Writable raw) : (url raw).Writable := by
  unfold url
  split
  · next rest hrest =>
    rw [dropStart?_eq_some_iff] at hrest
    have hsegments : ∀ v ∈ (urlSegments rest).map fun s => Value.string (String.ofList s), v.Writable := by
      rw [List.forall_mem_map]
      intro segment hsegment c hc
      have hpiece := List.mem_filter.1 hsegment |>.1
      have hmem := (List.takeWhile_sublist _).mem (mem_of_mem_pieces hpiece (String.toList_ofList ▸ hc))
      exact h c (hrest ▸ List.mem_append_right _ hmem)
    simp (disch := decide) only [Writable, WritableEntries, WritableItems, writableItems_iff,
      Text.writable_of_ascii, and_true, true_and]
    exact ⟨h, hsegments⟩
  · simp (disch := decide) only [Writable, WritableEntries, Text.writable_of_ascii, and_true, true_and]
    exact h

theorem writable_bodyEntries (body : Value) : WritableEntries (bodyEntries body) ↔ body.Writable := by
  by_cases h : body = .null
  · subst h
    simp [bodyEntries, Writable, WritableEntries]
  · rw [bodyEntries_of_ne h, ← Value.writable_text, bodyBox]
    simp (disch := decide) only [Writable, WritableEntries, Text.writable_of_ascii, and_true, true_and]

theorem writable_requestEntries {r : Request} (h : Text.Writable r.url) : WritableEntries (requestEntries r) := by
  have hmethod : Text.Writable r.method.name := by
    cases r.method <;> exact Text.writable_of_ascii (by decide)
  simp (disch := decide) only [requestEntries, headers, List.map_cons, List.map_nil, Writable, WritableEntries,
    WritableItems, Text.writable_of_ascii, hmethod, and_true, true_and]
  exact writable_url h

theorem writable_itemOf {cwd : List String} {base : Path} {r : Request} :
    (itemOf cwd base r).Writable ↔ Encodable cwd base r := by
  have hurl : Text.Writable (requestName cwd base r) → Text.Writable r.url := by
    simp only [requestName, Text.writable_append]
    exact fun h => h.1.1.1.2
  have hrequest : (Value.dict (requestEntries r ++ bodyEntries r.body)).Writable ↔
      WritableEntries (requestEntries r) ∧ r.body.Writable := by
    rw [Value.writable_dict, List.forall_mem_append, ← writableEntries_iff, ← writableEntries_iff,
      writable_bodyEntries]
  rw [itemOf, Value.writable_dict, List.forall_mem_cons, List.forall_mem_singleton, hrequest,
    iff_true_intro (Text.writable_of_ascii (s := "name") (by decide)),
    iff_true_intro (Text.writable_of_ascii (s := "request") (by decide)), true_and, true_and]
  constructor
  · rintro ⟨hname, _, hbody⟩
    exact ⟨hname, hbody⟩
  · rintro ⟨hname, hbody⟩
    exact ⟨hname, writable_requestEntries (hurl hname), hbody⟩

theorem writable_collectionOf {name : String} {items : List Value} :
    (collectionOf name items).Writable ↔ Text.Writable name ∧ ∀ v ∈ items, v.Writable := by
  simp (disch := decide) only [collectionOf, variableNames, List.map_cons, List.map_nil, Writable, WritableEntries,
    WritableItems, writableItems_iff, Text.writable_of_ascii, and_true, true_and]

/-- **The text of a collection can be encoded just if its name can, and what each request brings.** -/
theorem writable_collectionText {cwd : List String} {base : Path} {name text : String} {rs : List Request}
    (h : collectionText cwd base name rs = .ok text) :
    Text.Writable text ↔ Text.Writable name ∧ ∀ r ∈ rs, Encodable cwd base r := by
  obtain ⟨doc, hdoc, hrender⟩ := Results.bind_eq_ok_iff.1 h
  rw [Value.writable_of_render hrender]
  have hshort := hasLong_of_collection hdoc
  rw [collection_eq cwd base name hshort] at hdoc
  cases hdoc
  rw [writable_collectionOf, List.forall_mem_map]
  simp only [writable_itemOf, Request.sort, List.mem_mergeSort]

/-! ## Environments -/

theorem writable_padded (width n : Nat) : Text.Writable (Moment.padded width n) := by
  rw [Text.Writable, Moment.padded, String.toList_ofList]
  have hzeros := Json.numerals_of_digits (Json.all_zeros (width - (Nat.toDigits 10 n).length))
  exact Text.bare_append.2 ⟨Text.bare_numerals hzeros,
    Text.bare_numerals (Json.numerals_of_digits (Json.toDigits_all n))⟩

theorem writable_moment (m : Moment) : Text.Writable m.text := by
  have hyear : Text.Writable (toString m.date.year) := by
    rw [Text.Writable, Nat.toString_eq_repr, Nat.toList_repr]
    exact Text.bare_numerals (Json.numerals_of_digits (Json.toDigits_all _))
  simp (disch := decide) only [Moment.text, Text.writable_append, writable_padded, hyear, Text.writable_of_ascii,
    and_true]

/-- The text of an environment can be encoded just if its name can. -/
theorem writable_environment {name text : String} {m : Moment} {doc : Value} (h : environment name m = .ok doc)
    (hrender : doc.render = .ok text) : Text.Writable text ↔ Text.Writable name := by
  obtain ⟨stamp, hstamp, hdoc⟩ := Results.bind_eq_ok_iff.1 h
  cases hdoc
  have hwritable : Text.Writable stamp := by
    rw [Moment.stamp] at hstamp
    cases hutc : m.utc with
    | error e =>
      rw [hutc] at hstamp
      cases hstamp
    | ok u =>
      rw [hutc] at hstamp
      obtain rfl : u.text = stamp := Except.ok.inj hstamp
      exact writable_moment u
  rw [Value.writable_of_render hrender]
  simp (disch := decide) only [variableNames, List.map_cons, List.map_nil, exportedUsing, Writable, WritableEntries,
    WritableItems, Text.writable_of_ascii, hwritable, and_true, true_and]

end Document

end RequestAtlas
