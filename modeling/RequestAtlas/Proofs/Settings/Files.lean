import RequestAtlas.Proofs.Results
import RequestAtlas.Settings.Layers
import Mathlib.Data.List.Nodup
/-!
# Settings files

A settings file gives the fields of the mapping that it holds.  The keys of a mapping that was read are distinct as
names (`nodup_names_read`), since an entry is put in the place of one with the same key.  A file is `Orderly` if it is a
text, none of its scalars is without a value and no key of its mapping is anything but a text.  Whatever the options,
loading settings from a file either succeeds or ends in an error that is told to the user, just if the file is orderly
(`load_told_iff`).
-/

namespace RequestAtlas

namespace Datum

/-! ## Equality of data -/

mutual

/-- Whether two data are equal. -/
def same : Datum → Datum → Bool
  | .scalar a, .scalar b => a == b
  | .list as, .list bs => sameItems as bs
  | .mapping es, .mapping fs => sameEntries es fs
  | .bytes a, .bytes b => a == b
  | .other, .other => true
  | _, _ => false

/-- Whether `same` holds of the items, one by one. -/
def sameItems : List Datum → List Datum → Bool
  | [], [] => true
  | a :: as, b :: bs => same a b && sameItems as bs
  | _, _ => false

/-- Whether `same` holds of the keys and the values, entry by entry. -/
def sameEntries : List (Datum × Datum) → List (Datum × Datum) → Bool
  | [], [] => true
  | (k, v) :: es, (l, w) :: fs => same k l && same v w && sameEntries es fs
  | _, _ => false

end

mutual

theorem same_iff : ∀ {a b : Datum}, same a b = true ↔ a = b
  | .scalar a, b => by cases b <;> simp [same]
  | .list as, b => by
    have ih : ∀ {bs}, sameItems as bs = true ↔ as = bs := sameItems_iff
    cases b <;> simp [same, ih]
  | .mapping es, b => by
    have ih : ∀ {fs}, sameEntries es fs = true ↔ es = fs := sameEntries_iff
    cases b <;> simp [same, ih]
  | .bytes a, b => by cases b <;> simp [same]
  | .other, b => by cases b <;> simp [same]

theorem sameItems_iff : ∀ {as bs : List Datum}, sameItems as bs = true ↔ as = bs
  | [], bs => by cases bs <;> simp [sameItems]
  | a :: as, bs => by
    have iha : ∀ {b}, same a b = true ↔ a = b := same_iff
    have ih : ∀ {bs}, sameItems as bs = true ↔ as = bs := sameItems_iff
    cases bs <;> simp [sameItems, iha, ih]

theorem sameEntries_iff : ∀ {es fs : List (Datum × Datum)}, sameEntries es fs = true ↔ es = fs
  | [], fs => by cases fs <;> simp [sameEntries]
  | (k, v) :: es, fs => by
    have ihk : ∀ {b}, same k b = true ↔ k = b := same_iff
    have ihv : ∀ {b}, same v b = true ↔ v = b := same_iff
    have ih : ∀ {fs}, sameEntries es fs = true ↔ es = fs := sameEntries_iff
    rcases fs with _ | ⟨⟨l, w⟩, fs⟩ <;> simp [sameEntries, ihk, ihv, ih]

end

/-- What a file is read as can be computed and compared. -/
instance : DecidableEq Datum := fun a b => decidable_of_iff (a.same b = true) same_iff

/-! ## Names of a mapping -/

/-- The name that a key is. -/
def name? : Datum → Option String
  | .scalar (.string s) => some s
  | _ => none

/-- The names among the keys of a mapping. -/
def names (es : List (Datum × Datum)) : List String := es.filterMap fun e => name? e.1

theorem name?_eq_some_iff {d : Datum} {s : String} : d.name? = some s ↔ d = .string s := by
  unfold name? string
  split <;> simp_all

end Datum

theorem Scalar.string_sameKey_self (s : String) : (Scalar.string s).sameKey (.string s) = true := beq_self_eq_true s

namespace Yaml

open Datum (names)

/-- An entry is put in the place of one that has the same name, or behind one that has another. -/
theorem putDatum_cons (k v : Datum) (es : List (Datum × Datum)) (key value : Datum) :
    putDatum ((k, v) :: es) key value = (k, value) :: es ∨
      putDatum ((k, v) :: es) key value = (k, v) :: putDatum es key value ∧
        ∀ s, ¬ (k.name? = some s ∧ key.name? = some s) := by
  by_cases hscalars : ∃ a b, k = .scalar a ∧ key = .scalar b
  · obtain ⟨a, b, rfl, rfl⟩ := hscalars
    rw [putDatum]
    by_cases hsame : a.sameKey b = true
    · rw [if_pos hsame]
      exact .inl rfl
    · rw [if_neg hsame]
      refine .inr ⟨rfl, fun s hs => hsame ?_⟩
      simp only [Datum.name?_eq_some_iff, Datum.string, Datum.scalar.injEq] at hs
      rw [hs.1, hs.2, Scalar.string_sameKey_self]
  · rw [putDatum]
    · refine .inr ⟨rfl, fun s hs => hscalars ?_⟩
      rw [Datum.name?_eq_some_iff, Datum.name?_eq_some_iff] at hs
      exact ⟨_, _, hs⟩
    · exact fun a b hk hkey => hscalars ⟨a, b, hk, hkey⟩

/-- An entry brings in its name, unless it is there. -/
theorem names_putDatum (es : List (Datum × Datum)) (key value : Datum) :
    names (putDatum es key value) = names es ∨
      names (putDatum es key value) = names es ++ key.name?.toList ∧ ∀ s, key.name? = some s → s ∉ names es := by
  induction es with
  | nil =>
    right
    rw [putDatum]
    cases hkey : key.name? <;> simp [names, hkey]
  | cons e es ih =>
    obtain ⟨k, v⟩ := e
    rcases putDatum_cons k v es key value with hput | ⟨hput, hother⟩
    · exact .inl (by rw [hput]; rfl)
    · rw [hput]
      have hcons : ∀ fs, names ((k, v) :: fs) = k.name?.toList ++ names fs := by
        intro fs
        cases hk : k.name? <;> simp [names, hk]
      rw [hcons, hcons]
      rcases ih with hsame | ⟨hnew, hnone⟩
      · exact .inl (by rw [hsame])
      · refine .inr ⟨by rw [hnew, List.append_assoc], fun s hs => ?_⟩
        rw [List.mem_append, Option.mem_toList, not_or]
        exact ⟨fun hk => hother s ⟨hk, hs⟩, hnone s hs⟩

theorem nodup_names_putDatum {es : List (Datum × Datum)} (h : (names es).Nodup) (key value : Datum) :
    (names (putDatum es key value)).Nodup := by
  rcases names_putDatum es key value with hsame | ⟨hnew, hnone⟩
  · rwa [hsame]
  · rw [hnew, List.nodup_append]
    refine ⟨h, by cases key.name? <;> simp, ?_⟩
    rintro s hs t ht rfl
    exact hnone s (Option.mem_toList.1 ht) hs

theorem nodup_names_foldl : ∀ (new : List (Datum × Datum)) {es : List (Datum × Datum)}, (names es).Nodup →
    (names (new.foldl (fun acc (k, v) => putDatum acc k v) es)).Nodup
  | [], _, h => h
  | (k, v) :: new, _, h => nodup_names_foldl new (nodup_names_putDatum h k v)

/-- A scalar is no mapping. -/
theorem scalarDatum_ne_mapping [Surrogates] (t : Tag) (text : String) (es : List (Datum × Datum)) :
    scalarDatum t text ≠ .ok (.mapping es) := by
  intro h
  cases t with
  | bool | int | float =>
    obtain ⟨_, _, h⟩ := Results.bind_eq_ok_iff.1 h
    cases h
  | timestamp =>
    simp only [scalarDatum] at h
    split at h
    · obtain ⟨_, _, h⟩ := Results.bind_eq_ok_iff.1 h
      cases h
    · cases h
  | binary =>
    simp only [scalarDatum] at h
    split at h <;> cases h
  | _ => cases h

theorem nodup_names_datum [Surrogates] {n : Node} {es : List (Datum × Datum)} (h : datum n = .mapping es) :
    (names es).Nodup := by
  cases n with
  | cycle => simp [datum] at h
  | sequence t items => simp [datum] at h
  | mapping t entries =>
    rw [datum] at h
    simp only at h
    split at h
    · cases h
    · cases h
      exact nodup_names_foldl _ List.nodup_nil
  | scalar t text =>
    by_cases hvalue : t = .value
    · rw [hvalue] at h
      simp [datum, Datum.string] at h
    · rw [datum] at h
      · split at h
        · next d hd =>
          rw [h] at hd
          exact absurd hd (scalarDatum_ne_mapping t text es)
        · cases h
      · exact hvalue

/-- **The names of a mapping that was read are distinct.** -/
theorem nodup_names_read [Surrogates] {text : List Char} {es : List (Datum × Datum)}
    (h : read text = .ok (.mapping es)) : (names es).Nodup := by
  obtain ⟨node?, _, h⟩ := Results.bind_eq_ok_iff.1 h
  cases node? with
  | none => cases h
  | some n =>
    obtain ⟨next, _, h⟩ := Results.bind_eq_ok_iff.1 h
    obtain ⟨_, _, h⟩ := Results.bind_eq_ok_iff.1 h
    exact nodup_names_datum (Except.ok.inj h)

end Yaml

namespace Settings

/-- The names of a mapping that a reader of documents gives are distinct. -/
class LawfulDocumentReader [DocumentReader] : Prop where
  nodup_names : ∀ {text : List Char} {es : List (Datum × Datum)},
    DocumentReader.read text = .ok (.mapping es) → (Datum.names es).Nodup

theorem LawfulDocumentReader.yaml [Surrogates] : @LawfulDocumentReader .yaml :=
  @LawfulDocumentReader.mk .yaml Yaml.nodup_names_read

/-! ## Fields of a file -/

/-- The entries of a mapping from the names of fields. -/
def entriesOf (fields : List (String × Datum)) : List (Datum × Datum) := fields.map fun f => (.string f.1, f.2)

theorem names_entriesOf (fields : List (String × Datum)) : Datum.names (entriesOf fields) = fields.map (·.1) := by
  rw [Datum.names, entriesOf, List.filterMap_map]
  exact congrFun (List.filterMap_eq_map (f := Prod.fst)) fields

theorem keyName_eq_ok_iff {e : Datum × Datum} {f : String × Datum} : keyName e = .ok f ↔ e = (.string f.1, f.2) := by
  obtain ⟨k, v⟩ := e
  unfold keyName Datum.string
  split
  · next s _ h =>
    simp only [Prod.mk.injEq] at h
    obtain ⟨rfl, rfl⟩ := h
    simp [Prod.ext_iff]
  · next hnot =>
    simp only [reduceCtorEq, false_iff, Prod.mk.injEq, not_and]
    rintro rfl
    exact absurd rfl (hnot _ _)

theorem names_eq_ok_iff {es : List (Datum × Datum)} {fields : List (String × Datum)} :
    es.mapM keyName = .ok fields ↔ es = entriesOf fields := by
  rw [Results.mapM_eq_ok_iff, entriesOf, ← List.forall₂_eq_eq_eq, List.forall₂_map_right_iff]
  simp only [keyName_eq_ok_iff]

theorem names_eq_error {es : List (Datum × Datum)} {e : LoadError} (h : es.mapM keyName = .error e) : e = .notName := by
  obtain ⟨⟨k, v⟩, _, hkey⟩ := Results.exists_of_mapM_eq_error h
  unfold keyName at hkey
  split at hkey
  · cases hkey
  · exact (Except.error.inj hkey).symm

theorem exists_entriesOf_iff {es : List (Datum × Datum)} :
    (∃ fields, es = entriesOf fields) ↔ ∀ e ∈ es, ∃ name, e.1 = .string name := by
  constructor
  · rintro ⟨fields, rfl⟩ e he
    obtain ⟨f, _, rfl⟩ := List.mem_map.1 he
    exact ⟨f.1, rfl⟩
  · intro h
    induction es with
    | nil => exact ⟨[], rfl⟩
    | cons e es ih =>
      obtain ⟨⟨name, hname⟩, hes⟩ := List.forall_mem_cons.1 h
      obtain ⟨fields, rfl⟩ := ih hes
      exact ⟨(name, e.2) :: fields, by rw [entriesOf, entriesOf, List.map_cons, ← hname]⟩

section
variable [Surrogates] [DocumentReader]

/-- The entries of the settings file that is named, none if none is. -/
def namedEntries (w : Workspace) (config : Option Path) : Except LoadError (List (Datum × Datum)) :=
  match config with
  | some path => fileEntries w path
  | none => .ok []

/-- The settings file that is named, if one is, holds a mapping of the given fields. -/
def Holds (w : Workspace) (config : Option Path) (fields : List (String × Datum)) : Prop :=
  namedEntries w config = .ok (entriesOf fields)

/-- A file that can be read holds the fields of its mapping. -/
theorem holds_of_read {w : Workspace} {path : Path} {bytes : List UInt8} {cs : List Char}
    {fields : List (String × Datum)} (hfile : w.read path = .ok bytes) (htext : Text.decodeUtf8 bytes = .ok cs)
    (hread : DocumentReader.read cs = .ok (.mapping (entriesOf fields))) : Holds w (some path) fields := by
  rw [Holds, namedEntries, fileEntries, hfile]
  dsimp only
  rw [htext]
  dsimp only
  rw [hread]

theorem nodup_names_of_named [LawfulDocumentReader] {w : Workspace} {config : Option Path} {es : List (Datum × Datum)}
    (h : namedEntries w config = .ok es) : (Datum.names es).Nodup := by
  cases config with
  | none =>
    cases h
    exact List.nodup_nil
  | some path =>
    simp only [namedEntries, fileEntries] at h
    split at h
    · cases h
    · cases h
    · split at h
      · cases h
      · split at h
        · cases h
        · cases h
        · cases h
          exact List.nodup_nil
        · next hread =>
          cases h
          exact LawfulDocumentReader.nodup_names hread
        · cases h

/-- The fields of a settings file have distinct names. -/
theorem Holds.nodup [LawfulDocumentReader] {w : Workspace} {config : Option Path} {fields : List (String × Datum)}
    (h : Holds w config fields) : (fields.map (·.1)).Nodup := by
  rw [← names_entriesOf]
  exact nodup_names_of_named h

variable [Field.Validator]

theorem load_eq (w : Workspace) (config : Option Path) (options : List (String × Datum)) :
    load w config options = (namedEntries w config >>= fun entries => entries.mapM keyName >>= fun fields =>
      (ofFields w.here (layer fields options)).mapError .invalid) := by
  cases config <;>
    refine bind_congr fun entries => bind_congr fun fields => ?_ <;>
    cases ofFields w.here (layer fields options) <;> rfl

/-- Where a file holds fields, settings are made from these with options over them. -/
theorem Holds.load_eq {w : Workspace} {config : Option Path} {fields : List (String × Datum)}
    (h : Holds w config fields) (options : List (String × Datum)) :
    load w config options = (ofFields w.here (layer fields options)).mapError .invalid := by
  have hnames : (entriesOf fields).mapM keyName = .ok fields := names_eq_ok_iff.2 rfl
  have hentries : namedEntries w config = .ok (entriesOf fields) := h
  rw [Settings.load_eq, hentries]
  change (entriesOf fields).mapM keyName >>= _ = _
  rw [hnames]
  rfl

end

/-! ## Errors that are told -/

/-- Whether an error is one that tells what is wrong with the settings or their file. -/
def LoadError.isTold : LoadError → Bool
  | .unreadable _ | .notMapping _ | .invalid _ => true
  | _ => false

/-- What loading settings ends in, once the entries of the file are known, is told just if these are fields. -/
theorem told_of_entries_iff [Surrogates] [Field.Validator] (cwd : Path) (es : List (Datum × Datum))
    (options : List (String × Datum)) :
    (∀ e, (es.mapM keyName >>= fun fields => (ofFields cwd (layer fields options)).mapError LoadError.invalid) =
      .error e → e.isTold = true) ↔ ∃ fields, es = entriesOf fields := by
  cases hnames : es.mapM keyName with
  | error e =>
    obtain rfl := names_eq_error hnames
    refine iff_of_false (fun h => by simpa [LoadError.isTold] using h .notName rfl) ?_
    rintro ⟨fields, hfields⟩
    rw [names_eq_ok_iff.2 hfields] at hnames
    cases hnames
  | ok fields =>
    refine iff_of_true ?_ ⟨fields, names_eq_ok_iff.1 hnames⟩
    intro e he
    change (ofFields cwd (layer fields options)).mapError LoadError.invalid = .error e at he
    cases hfields : ofFields cwd (layer fields options) with
    | ok s => rw [hfields] at he; cases he
    | error faults =>
      rw [hfields] at he
      cases he
      rfl

section
variable [Surrogates] [DocumentReader]

/-- The bytes are a text, no scalar of its document is without a value, and if the document is a mapping its keys are
texts. -/
def Orderly (bytes : List UInt8) : Prop :=
  ∃ cs, Text.decodeUtf8 bytes = .ok cs ∧ (∀ cause, DocumentReader.read cs ≠ .error (.invalid cause)) ∧
    ∀ es, DocumentReader.read cs = .ok (.mapping es) → ∀ e ∈ es, ∃ name, e.1 = .string name

variable [Field.Validator]

/-- **Loading settings from a file succeeds or tells what is wrong, just if the file is orderly.** -/
theorem load_told_iff {w : Workspace} {path : Path} {bytes : List UInt8} (hfile : w.read path = .ok bytes)
    (options : List (String × Datum)) :
    (∀ e, load w (some path) options = .error e → e.isTold = true) ↔ Orderly bytes := by
  rw [load_eq, namedEntries, fileEntries, hfile, Orderly]
  dsimp only
  have htold := fun es => told_of_entries_iff w.here es options
  cases hdecode : Text.decodeUtf8 bytes with
  | error e =>
    refine iff_of_false (fun h => by simpa [LoadError.isTold] using h (.notText e) rfl) ?_
    rintro ⟨_, hcs, _⟩
    cases hcs
  | ok cs =>
    simp only [Except.ok.injEq, exists_eq_left']
    cases hread : DocumentReader.read cs with
    | error cause =>
      cases cause with
      | malformed =>
        refine iff_of_true (fun e he => ?_) ⟨nofun, nofun⟩
        cases he
        rfl
      | invalid cause =>
        exact iff_of_false (fun h => by simpa [LoadError.isTold] using h (.noValue cause) rfl) fun h => h.1 cause rfl
    | ok d =>
      have hmapping : ((∀ cause, (Except.ok d : Except Yaml.Error Datum) ≠ .error (.invalid cause)) ∧
          ∀ es, (Except.ok d : Except Yaml.Error Datum) = .ok (.mapping es) → ∀ e ∈ es, ∃ name, e.1 = .string name) ↔
          ∀ es, d = .mapping es → ∃ fields, es = entriesOf fields := by
        simp only [exists_entriesOf_iff, Except.ok.injEq, ne_eq, reduceCtorEq, not_false_eq_true, implies_true,
          true_and]
      rw [hmapping]
      -- without a mapping the file has no fields or is refused
      cases d with
      | mapping es =>
        simp only [Datum.mapping.injEq, forall_eq']
        exact htold es
      | scalar x =>
        refine iff_of_true (fun e he => ?_) nofun
        cases x with
        | null => exact (htold []).2 ⟨[], rfl⟩ e he
        | _ =>
          cases he
          rfl
      | _ =>
        refine iff_of_true (fun e he => ?_) nofun
        cases he
        rfl

end

end Settings

end RequestAtlas
