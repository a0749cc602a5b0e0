import RequestAtlas.Proofs.PathText
import Mathlib.Data.List.Infix
import Mathlib.Logic.Relation
/-!
# Relative paths

The way from a directory to a path is found from the normalised components of both.  What these are is said apart from
how they are computed: `Shortens` is one step of normalising the pieces of an absolute path, and `Normalises` holds of
what no step shortens further.  Main statement `relative_leads_back`: the relative path goes up to the longest common
beginning and no further, then only down, and following it from the directory ends at the path.
-/

namespace RequestAtlas.Path

/-! ## Normalised paths -/

/-- A component that names an entry of a folder. -/
def IsName (part : String) : Prop := part ≠ "" ∧ part ≠ "." ∧ part ≠ ".." ∧ '/' ∉ part.toList

theorem IsName.plain {part : String} (h : IsName part) : isComponent part.toList = true ∧ '/' ∉ part.toList := by
  obtain ⟨hempty, hdot, _, hslash⟩ := h
  refine ⟨?_, hslash⟩
  rw [isComponent, Bool.and_eq_true, bne_iff_ne, bne_iff_ne]
  exact ⟨fun hnil => hempty (String.toList_inj.1 hnil), fun hd => hdot (String.toList_inj.1 hd)⟩

/-- One step in normalising the pieces of an absolute path, which looks at no folder. -/
inductive Shortens : List String → List String → Prop
  | empty (front back : List String) : Shortens (front ++ "" :: back) (front ++ back)
  | dot (front back : List String) : Shortens (front ++ "." :: back) (front ++ back)
  /-- Two dots take back the name in front of them. -/
  | up (front back : List String) {name : String} (hname : IsName name) :
      Shortens (front ++ name :: ".." :: back) (front ++ back)
  /-- Nothing is above the root. -/
  | top (back : List String) : Shortens (".." :: back) back

/-- The pieces of a path between slashes, seen from the root. -/
def absolutePieces (cwd : List String) (path : String) : List String :=
  (if path.toList.head? = some '/' then [] else cwd) ++ (path.toList.splitOn '/').map String.ofList

/-- The components of a path when it is made absolute and normalised. -/
structure Normalises (cwd : List String) (path : String) (parts : List String) : Prop where
  shortened : Relation.ReflTransGen Shortens (absolutePieces cwd path) parts
  names : ∀ part ∈ parts, IsName part

/-- What normalising comes to: the pieces are followed from the root, empty ones and single dots left out. -/
def settled (pieces : List String) : List String :=
  (pieces.filter fun p => p != "" && p != ".").foldl step []

theorem settled_concat_blank {p : String} (h : p = "" ∨ p = ".") (pieces : List String) :
    settled (pieces ++ [p]) = settled pieces := by
  rcases h with rfl | rfl <;> simp [settled]

theorem settled_concat {p : String} (hempty : p ≠ "") (hdot : p ≠ ".") (pieces : List String) :
    settled (pieces ++ [p]) = step (settled pieces) p := by
  simp [settled, hempty, hdot]

/-- What the front comes to is all that the rest depends on. -/
theorem settled_append {a b : List String} (h : settled a = settled b) (back : List String) :
    settled (a ++ back) = settled (b ++ back) := by
  simp only [settled, List.filter_append, List.foldl_append] at h ⊢
  rw [h]

theorem settled_of_shortens {a b : List String} (h : Shortens a b) : settled a = settled b := by
  cases h with
  | empty front back => simp [settled]
  | dot front back => simp [settled]
  | @up front back name hname =>
    obtain ⟨hempty, hdot, hdots, _⟩ := hname
    have hback : settled ((front ++ [name]) ++ [".."]) = settled front := by
      rw [settled_concat (by decide) (by decide), settled_concat hempty hdot]
      simp [step, hdots]
    simpa using settled_append hback back
  | top => exact settled_append (a := [".."]) (b := []) rfl b

theorem settled_of_names {parts : List String} (h : ∀ part ∈ parts, IsName part) : settled parts = parts := by
  induction parts using List.reverseRecOn with
  | nil => rfl
  | append_singleton parts p ih =>
    obtain ⟨hempty, hdot, hdots, _⟩ := h p (by simp)
    rw [settled_concat hempty hdot, ih fun part hpart => h part (by simp [hpart]), step, if_neg hdots]

theorem Shortens.append {a b : List String} (h : Shortens a b) (back : List String) :
    Shortens (a ++ back) (b ++ back) := by
  cases h with
  | empty front rest => simpa using Shortens.empty front (rest ++ back)
  | dot front rest => simpa using Shortens.dot front (rest ++ back)
  | up front rest hname => simpa using Shortens.up front (rest ++ back) hname
  | top => exact Shortens.top (b ++ back)

/-- Two dots behind a place lead out of its last folder. -/
theorem shortens_dropLast {place : List String} (h : ∀ part ∈ place, IsName part) :
    Shortens (place ++ [".."]) place.dropLast := by
  rcases List.eq_nil_or_concat place with rfl | ⟨front, name, rfl⟩
  · exact Shortens.top []
  · simpa using Shortens.up front [] (h name (by simp))

/-- Following the pieces is a way of normalising them, and only names are left. -/
theorem shortens_settled {pieces : List String} (h : ∀ p ∈ pieces, '/' ∉ p.toList) :
    Relation.ReflTransGen Shortens pieces (settled pieces) ∧ ∀ part ∈ settled pieces, IsName part := by
  induction pieces using List.reverseRecOn with
  | nil => exact ⟨.refl, by simp [settled]⟩
  | append_singleton pieces p ih =>
    obtain ⟨hfront, hnames⟩ := ih fun q hq => h q (by simp [hq])
    have hlift : Relation.ReflTransGen Shortens (pieces ++ [p]) (settled pieces ++ [p]) :=
      hfront.lift (· ++ [p]) fun _ _ hstep => hstep.append [p]
    by_cases hblank : p = "" ∨ p = "."
    · rw [settled_concat_blank hblank]
      refine ⟨hlift.tail ?_, hnames⟩
      rcases hblank with rfl | rfl
      · simpa using Shortens.empty (settled pieces) []
      · simpa using Shortens.dot (settled pieces) []
    rw [not_or] at hblank
    rw [settled_concat hblank.1 hblank.2]
    by_cases hdots : p = ".."
    · subst hdots
      rw [step, if_pos rfl]
      exact ⟨hlift.tail (shortens_dropLast hnames), fun part hpart => hnames part (List.mem_of_mem_dropLast hpart)⟩
    · rw [step, if_neg hdots]
      refine ⟨hlift, fun part hpart => ?_⟩
      rcases List.mem_append.1 hpart with hpart | hpart
      · exact hnames part hpart
      · rw [List.mem_singleton.1 hpart]
        exact ⟨hblank.1, hblank.2, hdots, h p (by simp)⟩

theorem anchorOf_eq_relative_iff (cs : List Char) : anchorOf cs = .relative ↔ cs.head? ≠ some '/' := by
  cases cs with
  | nil => simp [anchorOf]
  | cons c cs =>
    unfold anchorOf
    split <;> simp_all

section

variable {cwd : List String} (hcwd : ∀ part ∈ cwd, IsName part)

include hcwd

/-- The path's own components, followed from where it starts, are its pieces followed from the root. -/
theorem settled_absolutePieces (path : String) : settled (absolutePieces cwd path) = (ofString path).resolve cwd := by
  have hanchor : (ofString path).isAbsolute = true ↔ path.toList.head? = some '/' := by
    rw [ofString, isAbsolute, bne_iff_ne, ne_eq, anchorOf_eq_relative_iff, not_not]
  have hfilter : ((path.toList.splitOn '/').map String.ofList).filter (fun p => p != "" && p != ".") =
      (ofString path).parts := by
    rw [ofString, pieces_eq_splitOn, List.filter_map]
    congr 1
    apply List.filter_congr
    intro p _
    have hempty : String.ofList p = "" ↔ p = [] := by rw [← String.toList_inj]; simp
    have hdot : String.ofList p = "." ↔ p = ['.'] := by rw [← String.toList_inj]; simp
    simp [isComponent, bne, beq_eq_decide, hempty, hdot]
  rw [absolutePieces, resolve, settled, List.filter_append, List.foldl_append, hfilter]
  congr 1
  by_cases habs : path.toList.head? = some '/'
  · rw [if_pos habs, if_pos (hanchor.2 habs)]
    rfl
  · rw [if_neg habs, if_neg (mt hanchor.1 habs)]
    exact settled_of_names hcwd

/-- Resolving a path is the one way of normalising it. -/
theorem normalises_iff {path : String} {parts : List String} :
    Normalises cwd path parts ↔ parts = (ofString path).resolve cwd := by
  rw [← settled_absolutePieces hcwd]
  constructor
  · intro h
    have hsame : settled (absolutePieces cwd path) = settled parts := by
      have hshort := h.shortened
      clear h
      induction hshort with
      | refl => rfl
      | tail _ hstep ih => rw [ih, settled_of_shortens hstep]
    rw [hsame, settled_of_names h.names]
  · rintro rfl
    have hpieces : ∀ p ∈ absolutePieces cwd path, '/' ∉ p.toList := by
      intro p hp
      rcases List.mem_append.1 hp with hp | hp
      · split at hp
        · simp at hp
        · exact (hcwd p hp).2.2.2
      · obtain ⟨cs, hcs, rfl⟩ := List.mem_map.1 hp
        rw [← pieces_eq_splitOn] at hcs
        rw [String.toList_ofList]
        exact slash_notMem_of_mem_pieces hcs
    obtain ⟨hshort, hnames⟩ := shortens_settled hpieces
    exact ⟨hshort, hnames⟩

end

/-! ## Common beginnings -/

/-- The longest beginning that two lists share. -/
structure LongestCommon (shared as bs : List String) : Prop where
  left : shared <+: as
  right : shared <+: bs
  longest : ∀ l, l <+: as → l <+: bs → l <+: shared

theorem take_commonLength : ∀ as bs : List String, as.take (commonLength as bs) = bs.take (commonLength as bs)
  | [], _ => by simp [commonLength]
  | a :: as, [] => by simp [commonLength]
  | a :: as, b :: bs => by
    by_cases h : a = b
    · simp [commonLength, h, take_commonLength as bs]
    · simp [commonLength, h]

theorem le_commonLength : ∀ {l as bs : List String}, l <+: as → l <+: bs → l.length ≤ commonLength as bs
  | [], _, _, _, _ => by simp
  | x :: l, as, bs, has, hbs => by
    obtain ⟨as, rfl, hl⟩ : ∃ as', as = x :: as' ∧ l <+: as' := by
      obtain ⟨t, rfl⟩ := has
      exact ⟨l ++ t, rfl, List.prefix_append l t⟩
    obtain ⟨bs, rfl, hl'⟩ : ∃ bs', bs = x :: bs' ∧ l <+: bs' := by
      obtain ⟨t, rfl⟩ := hbs
      exact ⟨l ++ t, rfl, List.prefix_append l t⟩
    have ih := le_commonLength hl hl'
    rw [commonLength, if_pos rfl, List.length_cons]
    omega

theorem commonLength_le_left : ∀ as bs : List String, commonLength as bs ≤ as.length
  | [], bs => by simp [commonLength]
  | a :: as, [] => by simp [commonLength]
  | a :: as, b :: bs => by
    have ih := commonLength_le_left as bs
    rw [commonLength, List.length_cons]
    split <;> omega

theorem longestCommon_take (as bs : List String) : LongestCommon (as.take (commonLength as bs)) as bs where
  left := List.take_prefix _ _
  right := take_commonLength as bs ▸ List.take_prefix _ _
  longest := by
    intro l has hbs
    have hle := le_commonLength has hbs
    have htake := List.prefix_iff_eq_take.1 has
    rw [htake]
    exact List.take_prefix_take_left hle

/-! ## The way there -/

theorem foldl_step_up (place : List String) (n : Nat) :
    (List.replicate n "..").foldl step place = place.take (place.length - n) := by
  induction n generalizing place with
  | zero => simp
  | succ n ih =>
    rw [List.replicate_succ, List.foldl_cons, ih, step, if_pos rfl, List.dropLast_eq_take, List.take_take,
      List.length_take]
    congr 1
    omega

theorem foldl_step_down {parts : List String} (h : ".." ∉ parts) (place : List String) :
    parts.foldl step place = place ++ parts := by
  induction parts generalizing place with
  | nil => simp
  | cons part parts ih =>
    rw [List.mem_cons, not_or] at h
    rw [List.foldl_cons, ih h.2, step, if_neg (Ne.symm h.1), List.append_assoc, List.singleton_append]

theorem foldl_step_way {source target : List String} (h : ".." ∉ target) :
    (way source target).foldl step source = target := by
  have hshared := take_commonLength source target
  have hup : source.length - (source.length - commonLength source target) = commonLength source target := by
    have hn : commonLength source target ≤ source.length := commonLength_le_left source target
    omega
  rw [way, List.foldl_append, foldl_step_up, hup, hshared,
    foldl_step_down fun hmem => h (List.mem_of_mem_drop hmem), List.take_append_drop]

theorem way_eq_nil_iff {source target : List String} (h : ".." ∉ target) :
    way source target = [] ↔ target = source := by
  constructor
  · intro hnil
    have hway : (way source target).foldl step source = target := foldl_step_way h
    rw [hnil] at hway
    exact hway.symm
  · rintro rfl
    have hle := le_commonLength (List.prefix_refl target) (List.prefix_refl target)
    simp [way, hle]

/-- A path with slashes for backslashes. -/
def forwardSlashes (path : String) : String := String.ofList (path.toList.map fun c => if c = '\\' then '/' else c)

/-- A relative path goes from one place to another, up to what they share and then down. -/
structure Leads (source target : List String) (r : String) : Prop where
  dot : r = "." ↔ target = source
  way : target ≠ source → ∃ shared down, LongestCommon shared source target ∧ (∀ part ∈ down, IsName part) ∧
    r = "/".intercalate (List.replicate (source.length - shared.length) ".." ++ down)
  relative : (ofString r).anchor = .relative
  /-- Followed component by component, it ends at the target. -/
  arrives : (ofString r).parts.foldl step source = target

/-- A way that is written out is read back. -/
theorem ofString_way {source target : List String} (h : ∀ part ∈ target, IsName part) :
    ofString (text ⟨.relative, Path.way source target⟩) = ⟨.relative, Path.way source target⟩ := by
  apply ofString_text
  intro part hpart
  rcases List.mem_append.1 hpart with hpart | hpart
  · rw [List.eq_of_mem_replicate hpart]
    decide
  · exact (h part (List.mem_of_mem_drop hpart)).plain

theorem leads_way {source target : List String} (h : ∀ part ∈ target, IsName part) :
    Leads source target (text ⟨.relative, Path.way source target⟩) := by
  have hdots : ".." ∉ target := fun hmem => (h _ hmem).2.2.1 rfl
  have hread := @ofString_way source target h
  constructor
  case dot =>
    rw [← way_eq_nil_iff hdots]
    constructor
    · intro hdot
      rw [hdot] at hread
      exact (congrArg Path.parts hread).symm
    · intro hnil
      rw [hnil]
      rfl
  case way =>
    intro hne
    refine ⟨_, target.drop (commonLength source target), longestCommon_take source target,
      fun part hpart => h part (List.mem_of_mem_drop hpart), ?_⟩
    have hhere : (⟨.relative, Path.way source target⟩ : Path) ≠ here := by
      intro hhere
      exact hne ((way_eq_nil_iff hdots).1 (congrArg Path.parts hhere))
    rw [text, if_neg hhere, List.length_take, Nat.min_eq_left (commonLength_le_left source target)]
    simp [Anchor.text, Path.way]
  case relative => rw [hread]
  case arrives =>
    rw [hread]
    exact foldl_step_way hdots

/-- **A relative path leads back to where it was taken from.**  Apart from its backslashes, it leads from the
normalised base to the normalised path: as a dot if they are the same, else up to what they share, no further, and
then along names. -/
theorem relative_leads_back {cwd : List String} (hcwd : ∀ part ∈ cwd, IsName part) (path base : String) :
    ∃ target source r, Normalises cwd path target ∧ Normalises cwd base source ∧ Leads source target r ∧
      relative cwd (ofString base) (ofString path) = forwardSlashes r := by
  have htarget : Normalises cwd path _ := (normalises_iff hcwd).2 rfl
  have hsource : Normalises cwd base _ := (normalises_iff hcwd).2 rfl
  exact ⟨_, _, _, htarget, hsource, leads_way htarget.names, rfl⟩

/-- Both paths leave the current directory through the folder that holds it. -/
theorem relative_leads_back_aside : (∀ part ∈ ["home", "me"], IsName part) ∧
    ∃ target source r, Normalises ["home", "me"] "..//a/./b\\c" target ∧
      Normalises ["home", "me"] "x/../../lib/" source ∧ Leads source target r ∧
      relative ["home", "me"] (ofString "x/../../lib/") (ofString "..//a/./b\\c") = forwardSlashes r := by
  have hcwd : ∀ part ∈ ["home", "me"], IsName part := by simp [IsName]
  exact ⟨hcwd, relative_leads_back hcwd _ _⟩

example : relative ["home", "me"] (ofString "x/../../lib/") (ofString "..//a/./b\\c") = "../a/b/c" := by decide

end RequestAtlas.Path
