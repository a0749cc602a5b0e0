import RequestAtlas.Proofs.Entries
import RequestAtlas.Settings.Layers
import Mathlib.Data.List.Forall2
/-!
# Fields of settings

What a field may be is a relation between a datum and the value that it gives, apart from the checks: `IsPath`,
`IsText`, `IsClient`, `AreTexts`, `AreEndings`.  Settings follow from what is given for each field (`Follows`) if every
field has the value of its own datum, or its default where none is given.  The checks give settings exactly if they
follow and no other field is given (`ofFields_eq_ok_iff`), and some settings follow exactly if each field accepts its
own datum (`exists_follows_iff`).  Layers of fields are looked up one behind the other (`get?_layer`).
-/

namespace RequestAtlas.Settings

/-! ## What a field may be -/

/-- The datum is a text that spells the path. -/
def IsPath (d : Datum) (p : Path) : Prop := ∃ s, d.string? = some s ∧ p = Path.ofString s

/-- The datum is the text. -/
def IsText (d : Datum) (s : String) : Prop := d.string? = some s

/-- The datum is the text, which may name a client. -/
def IsClient (d : Datum) (s : String) : Prop := d.string? = some s ∧ Text.isIdentifier s = true

/-- The datum is a list of the texts. -/
def AreTexts (d : Datum) (ss : List String) : Prop :=
  ∃ ds, d = .list ds ∧ List.Forall₂ (fun d s => d.string? = some s) ds ss

/-- The datum is a list of some texts, which with a dot in front are the endings. -/
def AreEndings (d : Datum) (endings : List String) : Prop :=
  ∃ ss, AreTexts d ss ∧ ss ≠ [] ∧ endings = ss.map dotted

theorem path_eq_ok_iff (name : String) {d : Datum} {p : Path} : Field.path name d = .ok p ↔ IsPath d p := by
  unfold Field.path IsPath
  cases d.string? with
  | none => simp [Field.fail]
  | some s => simp [eq_comm]

theorem string_eq_ok_iff (name : String) {d : Datum} {s : String} : Field.string name d = .ok s ↔ IsText d s := by
  unfold Field.string IsText
  cases d.string? with
  | none => simp [Field.fail]
  | some t => simp

/-- No item is bad just if each is a text. -/
theorem items_eq_iff (name : String) : ∀ (index : Nat) {ds : List Datum} {ss : List String},
    Field.items name index ds = (ss, []) ↔ List.Forall₂ (fun d s => d.string? = some s) ds ss
  | index, [], ss => by
    rw [List.forall₂_nil_left_iff, Field.items]
    simp [eq_comm]
  | index, d :: ds, ss => by
    have ih : ∀ {rest : List String}, Field.items name (index + 1) ds = (rest, []) ↔ _ := items_eq_iff name (index + 1)
    rw [Field.items, List.forall₂_cons_left_iff]
    simp only [← ih]
    obtain ⟨good, bad⟩ := Field.items name (index + 1) ds
    cases d.string? with
    | none => simp
    | some t =>
      simp only [Prod.mk.injEq, Option.some.injEq]
      constructor
      · rintro ⟨rfl, rfl⟩
        exact ⟨t, good, rfl, ⟨rfl, rfl⟩, rfl⟩
      · rintro ⟨_, _, rfl, ⟨rfl, rfl⟩, rfl⟩
        exact ⟨rfl, rfl⟩

theorem strings_eq_ok_iff (name : String) {d : Datum} {ss : List String} :
    Field.strings name d = .ok ss ↔ AreTexts d ss := by
  unfold AreTexts
  cases d with
  | list ds =>
    simp only [Field.strings, Datum.list.injEq, exists_eq_left', ← items_eq_iff name 0]
    obtain ⟨good, bad⟩ := Field.items name 0 ds
    cases bad <;> simp
  | _ => simp [Field.strings, Field.fail]

/-- What is known of the checks of types: which data pass, and what they are then. -/
class LawfulValidator [Field.Validator] : Prop where
  path_eq_ok_iff : ∀ (name : String) {d : Datum} {p : Path}, Field.Validator.path name d = .ok p ↔ IsPath d p
  string_eq_ok_iff : ∀ (name : String) {d : Datum} {s : String}, Field.Validator.string name d = .ok s ↔ IsText d s
  strings_eq_ok_iff : ∀ (name : String) {d : Datum} {ss : List String},
    Field.Validator.strings name d = .ok ss ↔ AreTexts d ss

theorem LawfulValidator.lax : @LawfulValidator .lax :=
  @LawfulValidator.mk .lax Settings.path_eq_ok_iff Settings.string_eq_ok_iff Settings.strings_eq_ok_iff

section
variable [Field.Validator] [LawfulValidator]

theorem client_eq_ok_iff [Surrogates] (name : String) {d : Datum} {s : String} :
    client name d = .ok s ↔ IsClient d s := by
  unfold client IsClient
  change _ ↔ IsText d s ∧ _
  rw [← LawfulValidator.string_eq_ok_iff name]
  cases Field.Validator.string name d with
  | error faults => simp
  | ok t =>
    by_cases ht : Text.isIdentifier t = true
    · simp only [ht, if_true, Except.ok.injEq]
      exact ⟨fun h => ⟨h, h ▸ ht⟩, fun h => h.1⟩
    · simp only [ht, Bool.false_eq_true, if_false, Field.fail, reduceCtorEq, Except.ok.injEq, false_iff, not_and]
      rintro rfl
      exact ht

theorem endings_eq_ok_iff (name : String) {d : Datum} {es : List String} :
    endings name d = .ok es ↔ AreEndings d es := by
  unfold endings AreEndings
  simp only [← LawfulValidator.strings_eq_ok_iff name]
  cases Field.Validator.strings name d with
  | error faults => simp
  | ok ss => cases ss <;> simp [Field.fail, eq_comm]

end

/-! ## Settings from fields -/

/-- The value of a field: that of the datum given for it, or the default. -/
def Chosen {α : Type} (given : Option Datum) (IsValue : Datum → α → Prop) (fallback v : α) : Prop :=
  match given with
  | some d => IsValue d v
  | none => v = fallback

/-- Each setting is what is given for its own field, or its default. -/
structure Follows (cwd : Path) (given : String → Option Datum) (s : Settings) : Prop where
  rootDir : Chosen (given "root_dir") IsPath (default cwd).rootDir s.rootDir
  outDir : Chosen (given "out_dir") IsPath (default cwd).outDir s.outDir
  baseDir : Chosen (given "base_dir") IsPath (default cwd).baseDir s.baseDir
  collectionName : Chosen (given "collection_name") IsText (default cwd).collectionName s.collectionName
  environmentName : Chosen (given "environment_name") IsText (default cwd).environmentName s.environmentName
  clientName : Chosen (given "client_name") IsClient (default cwd).clientName s.clientName
  extensions : Chosen (given "extensions") AreEndings (default cwd).extensions s.extensions
  skipDirs : Chosen (given "skip_dirs") AreTexts (default cwd).skipDirs s.skipDirs

/-- The field of this name may be the datum. -/
def Accepts (name : String) (d : Datum) : Prop :=
  match name with
  | "root_dir" | "out_dir" | "base_dir" => ∃ p, IsPath d p
  | "collection_name" | "environment_name" => ∃ s, IsText d s
  | "client_name" => ∃ s, IsClient d s
  | "extensions" => ∃ es, AreEndings d es
  | "skip_dirs" => ∃ ss, AreTexts d ss
  | _ => False

theorem field_eq_ok_iff {α : Type} {fields : List (String × Datum)} {name : String}
    {check : String → Datum → Checked α} {IsValue : Datum → α → Prop} {fallback v : α}
    (h : ∀ {d}, check name d = .ok v ↔ IsValue d v) :
    field fields name check fallback = .ok v ↔ Chosen (Value.get? fields name) IsValue fallback v := by
  unfold field Chosen
  cases Value.get? fields name with
  | none => simp [eq_comm]
  | some d => exact h

theorem unknown_eq_nil_iff {fields : List (String × Datum)} :
    unknown fields = [] ↔ ∀ f ∈ fields, f.1 ∈ fieldNames := by
  rw [unknown, List.map_eq_nil_iff, List.filter_eq_nil_iff]
  simp

/-- **The checks give exactly the settings that follow from the fields, if no other field is given.** -/
theorem ofFields_eq_ok_iff [Surrogates] [Field.Validator] [LawfulValidator] {cwd : Path}
    {fields : List (String × Datum)} {s : Settings} :
    ofFields cwd fields = .ok s ↔ (∀ f ∈ fields, f.1 ∈ fieldNames) ∧ Follows cwd (Value.get? fields) s := by
  have hpath : ∀ {name : String} {fallback p : Path}, field fields name Field.Validator.path fallback = .ok p ↔
      Chosen (Value.get? fields name) IsPath fallback p := field_eq_ok_iff (LawfulValidator.path_eq_ok_iff _)
  have htext : ∀ {name fallback s : String}, field fields name Field.Validator.string fallback = .ok s ↔
      Chosen (Value.get? fields name) IsText fallback s := field_eq_ok_iff (LawfulValidator.string_eq_ok_iff _)
  have htexts : ∀ {name : String} {fallback ss : List String},
      field fields name Field.Validator.strings fallback = .ok ss ↔
        Chosen (Value.get? fields name) AreTexts fallback ss := field_eq_ok_iff (LawfulValidator.strings_eq_ok_iff _)
  constructor
  · intro h
    unfold ofFields at h
    simp only at h
    split at h
    · rename_i r o b c e n x k hr ho hb hc he hn hx hk hunknown
      cases h
      exact ⟨unknown_eq_nil_iff.1 hunknown, hpath.1 hr, hpath.1 ho, hpath.1 hb, htext.1 hc, htext.1 he,
        (field_eq_ok_iff (client_eq_ok_iff _)).1 hn, (field_eq_ok_iff (endings_eq_ok_iff _)).1 hx, htexts.1 hk⟩
    · cases h
  · rintro ⟨hknown, hr, ho, hb, hc, he, hn, hx, hk⟩
    unfold ofFields
    simp only [hpath.2 hr, hpath.2 ho, hpath.2 hb, htext.2 hc, htext.2 he, (field_eq_ok_iff (client_eq_ok_iff _)).2 hn,
      (field_eq_ok_iff (endings_eq_ok_iff _)).2 hx, htexts.2 hk, unknown_eq_nil_iff.2 hknown]

theorem exists_chosen_iff {α : Type} {given : Option Datum} {IsValue : Datum → α → Prop} (fallback : α) :
    (∃ v, Chosen given IsValue fallback v) ↔ ∀ d, given = some d → ∃ v, IsValue d v := by
  cases given with
  | none => simp [Chosen]
  | some d => simp [Chosen]

/-- **Some settings follow just if each field accepts what is given for it.** -/
theorem exists_follows_iff (cwd : Path) (given : String → Option Datum) :
    (∃ s, Follows cwd given s) ↔ ∀ name ∈ fieldNames, ∀ d, given name = some d → Accepts name d := by
  simp only [fieldNames, List.forall_mem_cons, List.not_mem_nil, false_imp_iff, forall_const, and_true, Accepts]
  constructor
  · rintro ⟨s, h⟩
    exact ⟨(exists_chosen_iff _).1 ⟨_, h.rootDir⟩, (exists_chosen_iff _).1 ⟨_, h.outDir⟩,
      (exists_chosen_iff _).1 ⟨_, h.baseDir⟩, (exists_chosen_iff _).1 ⟨_, h.collectionName⟩,
      (exists_chosen_iff _).1 ⟨_, h.environmentName⟩, (exists_chosen_iff _).1 ⟨_, h.clientName⟩,
      (exists_chosen_iff _).1 ⟨_, h.extensions⟩, (exists_chosen_iff _).1 ⟨_, h.skipDirs⟩⟩
  · rintro ⟨hr, ho, hb, hc, he, hn, hx, hk⟩
    obtain ⟨r, hr⟩ := (exists_chosen_iff (default cwd).rootDir).2 hr
    obtain ⟨o, ho⟩ := (exists_chosen_iff (default cwd).outDir).2 ho
    obtain ⟨b, hb⟩ := (exists_chosen_iff (default cwd).baseDir).2 hb
    obtain ⟨c, hc⟩ := (exists_chosen_iff (default cwd).collectionName).2 hc
    obtain ⟨e, he⟩ := (exists_chosen_iff (default cwd).environmentName).2 he
    obtain ⟨n, hn⟩ := (exists_chosen_iff (default cwd).clientName).2 hn
    obtain ⟨x, hx⟩ := (exists_chosen_iff (default cwd).extensions).2 hx
    obtain ⟨k, hk⟩ := (exists_chosen_iff (default cwd).skipDirs).2 hk
    exact ⟨⟨r, o, b, c, e, n, x, k⟩, hr, ho, hb, hc, he, hn, hx, hk⟩

/-! ## Layers -/

/-- Of entries put over others, those looked up first are the ones on top. -/
theorem get?_foldl_put : ∀ {top : List (String × Datum)} (below : List (String × Datum)), (top.map (·.1)).Nodup →
    ∀ name, Value.get? (top.foldl (fun fs (k, v) => Value.put fs k v) below) name =
      (Value.get? top name).or (Value.get? below name)
  | [], below, _, name => by simp [Value.get?]
  | (k, v) :: top, below, hnodup, name => by
    rw [List.map_cons, List.nodup_cons] at hnodup
    rw [List.foldl_cons, get?_foldl_put _ hnodup.2]
    by_cases hk : k = name
    · subst hk
      rw [Value.get?_eq_none_iff.2 hnodup.1, Value.get?_put_self, Value.get?_cons_self]
      rfl
    · rw [Value.get?_put_of_ne hk, Value.get?_cons_of_ne hk]

/-- Options are looked up first, then the file. -/
theorem get?_layer {file options : List (String × Datum)} (hnodup : (options.map (·.1)).Nodup)
    (hnull : ∀ o ∈ options, o.2.isNull = false) (name : String) :
    Value.get? (layer file options) name = (Value.get? options name).or (Value.get? file name) := by
  have hall : options.filter (!·.2.isNull) = options := by
    rw [List.filter_eq_self]
    intro o ho
    rw [hnull o ho]
    rfl
  rw [layer, hall, get?_foldl_put file hnodup]

/-- If options are fields, the fields that are none are those of the file. -/
theorem layer_known_iff {file options : List (String × Datum)} (hnodup : (options.map (·.1)).Nodup)
    (hnull : ∀ o ∈ options, o.2.isNull = false) (hoptions : ∀ o ∈ options, o.1 ∈ fieldNames) :
    (∀ f ∈ layer file options, f.1 ∈ fieldNames) ↔ ∀ f ∈ file, f.1 ∈ fieldNames := by
  have hkey : ∀ name, name ∈ (layer file options).map (·.1) ↔ name ∈ options.map (·.1) ∨ name ∈ file.map (·.1) := by
    intro name
    rw [← not_iff_not, not_or, ← Value.get?_eq_none_iff, ← Value.get?_eq_none_iff, ← Value.get?_eq_none_iff,
      get?_layer hnodup hnull, Option.or_eq_none_iff]
  have hmap : ∀ fs : List (String × Datum), (∀ f ∈ fs, f.1 ∈ fieldNames) ↔ ∀ name ∈ fs.map (·.1), name ∈ fieldNames :=
    fun fs => List.forall_mem_map.symm
  rw [hmap, hmap]
  constructor
  · intro h name hname
    exact h name ((hkey name).2 (.inr hname))
  · intro h name hname
    rcases (hkey name).1 hname with hname | hname
    · exact (hmap options).1 hoptions name hname
    · exact h name hname

end RequestAtlas.Settings
