import RequestAtlas.Path
import Mathlib.Data.List.Basic
/-!
# Paths and their texts

A component of a path that was read holds no slash, is not empty and is not a single dot (`Path.Plain`).  Paths of
such components are read back from their texts (`ofString_text`), so two of them with the same text are the same
path (`eq_of_text_eq`).
-/

namespace RequestAtlas.Path

/-- Every component is one that reading can give. -/
def Plain (p : Path) : Prop := ∀ part ∈ p.parts, isComponent part.toList = true ∧ '/' ∉ part.toList

theorem pieces_eq_splitOn : ∀ cs : List Char, pieces cs = cs.splitOn '/'
  | [] => by simp [pieces]
  | c :: cs => by
    have ih := pieces_eq_splitOn cs
    have hne : cs.splitOn '/' ≠ [] := List.splitOn_ne_nil '/' cs
    rw [pieces, List.splitOn_cons_eq_if_modifyHead, ih]
    by_cases hc : c = '/'
    · simp [hc]
    · cases hs : cs.splitOn '/' with
      | nil => exact absurd hs hne
      | cons p ps => simp [hc]

/-- No piece between slashes holds one. -/
theorem slash_notMem_of_mem_pieces : ∀ {cs p : List Char}, p ∈ pieces cs → '/' ∉ p
  | [], p, h => by
    rw [pieces, List.mem_singleton] at h
    simp [h]
  | c :: cs, p, h => by
    have ih : ∀ {q : List Char}, q ∈ pieces cs → '/' ∉ q := slash_notMem_of_mem_pieces
    rw [pieces] at h
    by_cases hc : c = '/'
    · rw [if_pos hc] at h
      rcases List.mem_cons.1 h with rfl | h
      · simp
      · exact ih h
    · rw [if_neg hc] at h
      cases hs : pieces cs with
      | nil =>
        simp only [hs, List.mem_singleton] at h
        simp [h, Ne.symm hc]
      | cons q qs =>
        simp only [hs, List.mem_cons] at h ih
        rcases h with rfl | h
        · simpa [Ne.symm hc] using ih (q := q) (by simp)
        · exact ih (by simp [h])

/-- Every path that was read is made of components that reading can give. -/
theorem plain_ofString (s : String) : (ofString s).Plain := by
  intro part hpart
  simp only [ofString, List.mem_map, List.mem_filter] at hpart
  obtain ⟨cs, ⟨hcs, hcomp⟩, rfl⟩ := hpart
  rw [String.toList_ofList]
  exact ⟨hcomp, slash_notMem_of_mem_pieces hcs⟩

/-! ## Reading a text back -/

/-- The components of a path between slashes, as characters. -/
def spelled (parts : List String) : List Char := List.intercalate ['/'] (parts.map String.toList)

theorem toList_text {p : Path} (h : p ≠ here) : p.text.toList = p.anchor.text.toList ++ spelled p.parts := by
  rw [text, if_neg h, String.toList_append, String.toList_intercalate]
  rfl

/-- Apart from slashes, the characters between the components are those of the components. -/
theorem mem_spelled {c : Char} (hc : c ≠ '/') : ∀ {parts : List String},
    c ∈ spelled parts ↔ ∃ part ∈ parts, c ∈ part.toList
  | [] => by simp [spelled]
  | [part] => by simp [spelled]
  | part :: next :: parts => by
    have ih : c ∈ spelled (next :: parts) ↔ _ := mem_spelled hc
    have hcons : spelled (part :: next :: parts) = part.toList ++ '/' :: spelled (next :: parts) := by
      simp [spelled, List.intercalate_cons_cons]
    rw [hcons, List.mem_append, List.mem_cons, or_iff_right hc, ih]
    simp

/-- A character that is part of no punctuation stands in the text of a path exactly if it stands in a component. -/
theorem mem_text {c : Char} (hslash : c ≠ '/') (hdot : c ≠ '.') {p : Path} :
    c ∈ p.text.toList ↔ ∃ part ∈ p.parts, c ∈ part.toList := by
  by_cases hh : p = here
  · subst hh
    have ht : here.text.toList = ['.'] := by decide
    have hparts : here.parts = [] := rfl
    simp [ht, hdot, hparts]
  · rw [toList_text hh, List.mem_append, mem_spelled hslash]
    have hanchor : c ∉ p.anchor.text.toList := by
      have ht : p.anchor.text.toList = [] ∨ p.anchor.text.toList = ['/'] ∨ p.anchor.text.toList = ['/', '/'] := by
        cases p.anchor with
        | relative => exact .inl (by decide)
        | root => exact .inr (.inl (by decide))
        | doubleRoot => exact .inr (.inr (by decide))
      rcases ht with ht | ht | ht <;> simp [ht, hslash]
    simp [hanchor]

theorem components_spelled {p : Path} (h : p.Plain) (hne : p.parts ≠ []) :
    ((pieces (spelled p.parts)).filter isComponent).map String.ofList = p.parts := by
  have hsplit : pieces (spelled p.parts) = p.parts.map String.toList := by
    rw [pieces_eq_splitOn]
    apply List.splitOn_intercalate
    · intro l hl
      obtain ⟨part, hpart, rfl⟩ := List.mem_map.1 hl
      exact (h part hpart).2
    · simpa using hne
  have hall : (p.parts.map String.toList).filter isComponent = p.parts.map String.toList := by
    rw [List.filter_eq_self]
    intro l hl
    obtain ⟨part, hpart, rfl⟩ := List.mem_map.1 hl
    exact (h part hpart).1
  rw [hsplit, hall, List.map_map]
  simp

/-- The components of a path begin with something other than a slash. -/
theorem spelled_cons {p : Path} (h : p.Plain) (hne : p.parts ≠ []) :
    ∃ c cs, spelled p.parts = c :: cs ∧ c ≠ '/' := by
  obtain ⟨part, parts, hp⟩ := List.exists_cons_of_ne_nil hne
  obtain ⟨hcomp, hslash⟩ := h part (by simp [hp])
  cases hs : part.toList with
  | nil => simp [hs, isComponent] at hcomp
  | cons c cs =>
    rw [hs, List.mem_cons, not_or] at hslash
    refine ⟨c, cs ++ (if parts = [] then [] else '/' :: spelled parts), ?_, Ne.symm hslash.1⟩
    rw [hp, spelled, List.map_cons, hs]
    by_cases hnil : parts = []
    · simp [hnil]
    · rw [List.intercalate_cons_of_ne_nil (by simpa using hnil), if_neg hnil]
      simp [spelled]

/-- **A path is read back from its text.** -/
theorem ofString_text {p : Path} (h : p.Plain) : ofString p.text = p := by
  by_cases hh : p = here
  · subst hh; rfl
  by_cases hne : p.parts = []
  · obtain ⟨anchor, parts⟩ := p
    subst hne
    cases anchor with
    | relative => exact absurd rfl hh
    | root => rfl
    | doubleRoot => rfl
  obtain ⟨c, cs, hs, hc⟩ := spelled_cons h hne
  have hparts := components_spelled h hne
  rw [hs] at hparts
  have slash : ∀ l, ((pieces ('/' :: l)).filter isComponent) = (pieces l).filter isComponent := by
    intro l
    simp [pieces, isComponent]
  rw [ofString, toList_text hh, hs]
  obtain ⟨anchor, parts⟩ := p
  cases anchor with
  | relative =>
    have ht : Anchor.relative.text.toList = [] := by decide
    simp [ht, anchorOf, hparts, hc]
  | root =>
    have ht : Anchor.root.text.toList = ['/'] := by decide
    simp [ht, anchorOf, slash, hparts, hc]
  | doubleRoot =>
    have ht : Anchor.doubleRoot.text.toList = ['/', '/'] := by decide
    simp [ht, anchorOf, slash, hparts, hc]

/-- Two paths of the same text are the same path. -/
theorem eq_of_text_eq {p q : Path} (hp : p.Plain) (hq : q.Plain) (h : p.text = q.text) : p = q := by
  rw [← ofString_text hp, h, ofString_text hq]

end RequestAtlas.Path
