import RequestAtlas.Proofs.FileTree.Keeping
import Mathlib.Logic.Relation
/-!
# Trees with more empty folders

`Grown name tree tree'` says that `tree'` is `tree` with one more folder in it, empty and of the given name;
`Growth names` is any number of such steps.  A new folder stands where nothing stood; every other place holds what it
held, up to folders that have grown themselves (`Grown.get?_cases`).
-/

namespace RequestAtlas

namespace Folder

/-- An empty folder was added, here or in some folder inside. -/
inductive Grown (name : String) : Folder → Folder → Prop
  | here {es : Folder} (h : name ∉ es.map (·.1)) : Grown name es (es ++ [(name, .folder [])])
  | inside {es es' : Folder} (h : Grown name es es') (front back : Folder) (key : String) :
      Grown name (front ++ (key, .folder es) :: back) (front ++ (key, .folder es') :: back)

/-- Empty folders with some of the given names were added. -/
def Growth (names : List String) : Folder → Folder → Prop :=
  Relation.ReflTransGen fun tree tree' => ∃ name ∈ names, Grown name tree tree'

/-- Putting an empty folder at a free place adds it, if there is a folder around it. -/
theorem grown_set {name : String} : ∀ {tree : Folder} {q : List String}, tree.get? (q ++ [name]) = none →
    tree.set (q ++ [name]) (.folder []) = tree ∨ Grown name tree (tree.set (q ++ [name]) (.folder []))
  | tree, [], h => by
    have hnone : Value.get? tree name = none := by
      rw [List.nil_append, get?_cons] at h
      cases hv : Value.get? tree name with
      | none => rfl
      | some e => simp [hv, Entry.at?_nil] at h
    have hnew := Value.get?_eq_none_iff.1 hnone
    right
    rw [List.nil_append, set_singleton, Value.put_of_notMem _ hnew]
    exact .here hnew
  | tree, m :: q, h => by
    by_cases hfolder : ∃ inner : Folder, Value.get? tree m = some (.folder inner)
    · obtain ⟨inner, hm⟩ := hfolder
      rw [List.cons_append, get?_cons, hm, Option.bind_some, Entry.at?_folder] at h
      rw [List.cons_append, set_cons hm (by simp)]
      obtain ⟨front, back, rfl, hfront⟩ := Value.exists_of_get? hm
      rw [Value.put_append_cons _ _ back hfront]
      rcases grown_set h with hsame | hgrown
      · left; rw [hsame]
      · right; exact hgrown.inside front back m
    · left
      apply set_eq_self
      intro sub hsub
      obtain ⟨inner, hm, _⟩ := folder_of_get?_cons hsub
      exact hfolder ⟨inner, hm⟩

/-- What stands at a place after growth: what stood there, or that folder grown, or a new empty folder. -/
theorem Grown.get?_cases {name : String} {tree tree' : Folder} (h : Grown name tree tree') (p : List String) :
    tree'.get? p = tree.get? p ∨
    (∃ es es', tree.get? p = some (.folder es) ∧ tree'.get? p = some (.folder es') ∧ Grown name es es') ∨
    (tree.get? p = none ∧ tree'.get? p = some (.folder [])) := by
  induction h generalizing p with
  | @here es hnew =>
    cases p with
    | nil => exact .inr (.inl ⟨es, _, rfl, rfl, .here hnew⟩)
    | cons m r =>
      rw [get?_cons, get?_cons]
      by_cases hm : m ∈ es.map (·.1)
      · left; rw [Value.get?_append_of_mem _ hm]
      · rw [Value.get?_append_of_notMem _ hm, Value.get?_eq_none_iff.2 hm]
        by_cases hn : name = m
        · subst hn
          rw [Value.get?_cons_self, Option.bind_some, Entry.at?_folder]
          cases r with
          | nil => exact .inr (.inr ⟨rfl, rfl⟩)
          | cons k r => left; rw [get?_cons]; rfl
        · left; rw [Value.get?_cons_of_ne hn]; rfl
  | @inside es es' hin front back key ih =>
    cases p with
    | nil => exact .inr (.inl ⟨_, _, rfl, rfl, hin.inside front back key⟩)
    | cons m r =>
      rw [get?_cons, get?_cons]
      by_cases hm : m ∈ front.map (·.1)
      · left; rw [Value.get?_append_of_mem _ hm, Value.get?_append_of_mem _ hm]
      · rw [Value.get?_append_of_notMem _ hm, Value.get?_append_of_notMem _ hm]
        by_cases hk : key = m
        · subst hk
          rw [Value.get?_cons_self, Value.get?_cons_self, Option.bind_some, Option.bind_some, Entry.at?_folder,
            Entry.at?_folder]
          exact ih r
        · left; rw [Value.get?_cons_of_ne hk, Value.get?_cons_of_ne hk]

section
variable {name : String} {tree tree' : Folder} (h : Grown name tree tree')
include h

theorem Grown.file (p : List String) (content : List UInt8) :
    tree'.get? p = some (.file content) ↔ tree.get? p = some (.file content) := by
  rcases h.get?_cases p with hp | ⟨es, es', hp, hp', _⟩ | ⟨hp, hp'⟩
  · rw [hp]
  · rw [hp, hp']; simp
  · rw [hp, hp']; simp

theorem Grown.linkFree (hlinks : tree.LinkFree) : tree'.LinkFree := by
  intro p target hp
  rcases h.get?_cases p with hsame | ⟨es, es', _, hp', _⟩ | ⟨_, hp'⟩
  · exact hlinks p target (hsame ▸ hp)
  · rw [hp'] at hp; cases hp
  · rw [hp'] at hp; cases hp

theorem Grown.keeps : tree.Keeps tree' where
  folders p hp := by
    obtain ⟨es, hes⟩ := hp
    rcases h.get?_cases p with hsame | ⟨_, es', _, hp', _⟩ | ⟨hp, _⟩
    · exact ⟨es, hsame ▸ hes⟩
    · exact ⟨es', hp'⟩
    · rw [hp] at hes; cases hes
  links p target hp := by
    rcases h.get?_cases p with hsame | ⟨es, _, hes, _⟩ | ⟨hnone, _⟩
    · exact hsame ▸ hp
    · rw [hes] at hp; cases hp
    · rw [hnone] at hp; cases hp

end

/-! ## Names -/

end Folder

mutual

/-- Every name inside an entry has a property. -/
def Entry.AllNames (P : String → Prop) : Entry → Prop
  | .folder es => Folder.AllNames P es
  | _ => True

/-- Every name in a folder, and inside its entries, has a property. -/
def Folder.AllNames (P : String → Prop) : List (String × Entry) → Prop
  | [] => True
  | (name, e) :: es => P name ∧ Entry.AllNames P e ∧ Folder.AllNames P es

end

namespace Folder

theorem allNames_append {P : String → Prop} : ∀ {es fs : Folder}, AllNames P (es ++ fs) ↔ AllNames P es ∧ AllNames P fs
  | [], fs => by simp [AllNames]
  | (name, e) :: es, fs => by
    rw [List.cons_append, AllNames, AllNames, allNames_append, and_assoc, and_assoc]

theorem AllNames.of_mem {P : String → Prop} : ∀ {es : Folder}, AllNames P es → ∀ {e : String × Entry}, e ∈ es →
    P e.1 ∧ e.2.AllNames P
  | [], _, _, he => by cases he
  | (name, d) :: es, h, e, he => by
    rw [AllNames] at h
    rcases List.mem_cons.1 he with rfl | he
    · exact ⟨h.1, h.2.1⟩
    · exact AllNames.of_mem h.2.2 he

/-- The names below a place are names of the tree. -/
theorem AllNames.of_get? {P : String → Prop} : ∀ {p : List String} {tree es : Folder}, AllNames P tree →
    tree.get? p = some (.folder es) → AllNames P es
  | [], tree, es, h, hp => by
    cases hp
    exact h
  | name :: p, tree, es, h, hp => by
    obtain ⟨inner, hinner, hes⟩ := folder_of_get?_cons hp
    obtain ⟨front, back, rfl, _⟩ := Value.exists_of_get? hinner
    have hname := (allNames_append.1 h).2
    rw [AllNames, Entry.AllNames] at hname
    exact AllNames.of_get? hname.2.1 hes

/-- The last name of a place that is taken is a name of the tree. -/
theorem AllNames.last {P : String → Prop} {tree : Folder} (h : AllNames P tree) {p : List String} {name : String}
    {e : Entry} (hp : tree.get? (p ++ [name]) = some e) : P name := by
  rw [get?_append] at hp
  obtain ⟨d, hd, hat⟩ := Option.bind_eq_some_iff.1 hp
  cases d with
  | file content => cases hat
  | link target => cases hat
  | folder es =>
    rw [Entry.at?_folder, get?_cons] at hat
    obtain ⟨e', he', _⟩ := Option.bind_eq_some_iff.1 hat
    obtain ⟨front, back, rfl, _⟩ := Value.exists_of_get? he'
    exact ((h.of_get? hd).of_mem (e := (name, e')) (by simp)).1

theorem AllNames.put {P : String → Prop} {name : String} {e : Entry} (hname : P name) (he : e.AllNames P) :
    ∀ {es : Folder}, AllNames P es → AllNames P (Value.put es name e)
  | [], _ => ⟨hname, he, trivial⟩
  | (key, d) :: es, h => by
    rw [AllNames] at h
    rw [Value.put]
    split
    · exact ⟨h.1, he, h.2.2⟩
    · exact ⟨h.1, h.2.1, AllNames.put hname he h.2.2⟩

/-- An entry that is put somewhere brings its own name and the names inside it. -/
theorem AllNames.set {P : String → Prop} {e : Entry} (he : e.AllNames P) : ∀ {place : List String} {es : Folder},
    AllNames P es → (∀ name, place.getLast? = some name → P name) → AllNames P (es.set place e)
  | [], es, h, _ => h
  | [name], es, h, hname => by
    rw [set_singleton]
    exact h.put (hname name rfl) he
  | key :: name :: rest, es, h, hname => by
    by_cases hfolder : ∃ inner : Folder, Value.get? es key = some (.folder inner)
    · obtain ⟨inner, hkey⟩ := hfolder
      have hinner : AllNames P inner := h.of_get? (p := [key]) (by rw [get?_cons, hkey]; rfl)
      obtain ⟨front, back, hes, _⟩ := Value.exists_of_get? hkey
      have hPkey : P key := (h.of_mem (e := (key, .folder inner)) (by simp [hes])).1
      have hset : AllNames P (inner.set (name :: rest) e) :=
        AllNames.set he hinner fun n hn => hname n (by rw [List.getLast?_cons, hn]; rfl)
      rw [set_cons hkey (by simp)]
      exact h.put hPkey (by rw [Entry.AllNames]; exact hset)
    · push Not at hfolder
      rw [set_of_no_folder (by simp) _ hfolder]
      exact h

theorem Grown.allNames {P : String → Prop} {name : String} {tree tree' : Folder} (h : Grown name tree tree')
    (hname : P name) (hall : AllNames P tree) : AllNames P tree' := by
  induction h with
  | here hnew =>
    rw [allNames_append]
    exact ⟨hall, hname, trivial, trivial⟩
  | inside hin front back key ih =>
    rw [allNames_append, AllNames] at hall ⊢
    exact ⟨hall.1, hall.2.1, ih hall.2.2.1, hall.2.2.2⟩

theorem Growth.linkFree {names : List String} {tree tree' : Folder} (h : Growth names tree tree')
    (hlinks : tree.LinkFree) : tree'.LinkFree := by
  induction h with
  | refl => exact hlinks
  | tail _ hstep ih =>
    obtain ⟨name, _, hgrown⟩ := hstep
    exact hgrown.linkFree ih

theorem Growth.hasFolder {names : List String} {tree tree' : Folder} (h : Growth names tree tree')
    {p : List String} (hp : tree.HasFolder p) : tree'.HasFolder p := by
  induction h with
  | refl => exact hp
  | tail _ hstep ih =>
    obtain ⟨name, _, hgrown⟩ := hstep
    exact hgrown.keeps.folders p ih

theorem Growth.allNames {P : String → Prop} {names : List String} {tree tree' : Folder}
    (h : Growth names tree tree') (hnames : ∀ n ∈ names, P n) (hall : AllNames P tree) : AllNames P tree' := by
  induction h with
  | refl => exact hall
  | tail _ hstep ih =>
    obtain ⟨name, hmem, hgrown⟩ := hstep
    exact hgrown.allNames (hnames name hmem) ih

end Folder

end RequestAtlas
