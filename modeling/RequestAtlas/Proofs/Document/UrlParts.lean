import RequestAtlas.Document.Collection
import RequestAtlas.Proofs.PathText
import Mathlib.Data.List.DropRight
/-!
# The parts of a URL

A URL on the base address is shown in parts, the host and the segments of its path.  `joined` puts parts together
again, and `tidied` is a text without repeated slashes and without slashes at the end.  Main statement `url_parts`:
put together, the parts are the URL up to its first question mark, tidied, with a slash behind the base address.  Where
no slash was written there, the parts show one that the URL does not have (`url_unslashed`).
-/

namespace RequestAtlas.Document

/-- A text in which each run of slashes is one slash. -/
def collapsed : List Char → List Char
  | [] => []
  | [c] => [c]
  | c :: d :: cs => if c = '/' ∧ d = '/' then collapsed (d :: cs) else c :: collapsed (d :: cs)

/-- A text with each run of slashes made one, and none at the end. -/
def tidied (cs : List Char) : List Char := (collapsed cs).rdropWhile (· = '/')

/-- A host with the segments of a path behind it. -/
def joined (host : List Char) (segments : List (List Char)) : List Char :=
  host ++ segments.flatMap fun s => '/' :: s

/-! ## Tidying a text -/

theorem rdropWhile_cons {p : Char → Bool} (c : Char) (cs : List Char) :
    (c :: cs).rdropWhile p = if cs.rdropWhile p = [] ∧ p c = true then [] else c :: cs.rdropWhile p := by
  induction cs using List.reverseRecOn with
  | nil => by_cases hc : p c = true <;> simp [List.rdropWhile, hc]
  | append_singleton cs d ih =>
    rw [← List.cons_append, List.rdropWhile_concat, List.rdropWhile_concat]
    by_cases hd : p d = true
    · rw [if_pos hd, if_pos hd, ih]
    · simp [hd]

theorem collapsed_cons {c : Char} (h : c ≠ '/') (cs : List Char) : collapsed (c :: cs) = c :: collapsed cs := by
  cases cs with
  | nil => rfl
  | cons d cs => rw [collapsed, if_neg (fun hslash => h hslash.1)]

theorem tidied_cons {c : Char} (h : c ≠ '/') (cs : List Char) : tidied (c :: cs) = c :: tidied cs := by
  rw [tidied, collapsed_cons h, rdropWhile_cons, if_neg (by simp [h]), tidied]

theorem tidied_append {front : List Char} (h : '/' ∉ front) (cs : List Char) :
    tidied (front ++ cs) = front ++ tidied cs := by
  induction front with
  | nil => rfl
  | cons c front ih =>
    rw [List.mem_cons, not_or] at h
    rw [List.cons_append, tidied_cons (Ne.symm h.1), ih h.2, List.cons_append]

/-- A slash in front of another one counts for nothing. -/
theorem tidied_slash_slash (cs : List Char) : tidied ('/' :: '/' :: cs) = tidied ('/' :: cs) := by
  rw [tidied, collapsed, if_pos ⟨rfl, rfl⟩, tidied]

/-- A slash in front of something else stays. -/
theorem tidied_slash_cons {c : Char} (h : c ≠ '/') (cs : List Char) :
    tidied ('/' :: c :: cs) = '/' :: tidied (c :: cs) := by
  have hne : tidied (c :: cs) ≠ [] := by simp [tidied_cons h]
  rw [tidied, collapsed, if_neg (fun hslash => h hslash.2), rdropWhile_cons, ← tidied, if_neg (fun hnil => hne hnil.1)]

/-! ## Pieces and segments -/

theorem exists_pieces (cs : List Char) : ∃ p ps, Path.pieces cs = p :: ps := by
  rw [Path.pieces_eq_splitOn]
  exact List.exists_cons_of_ne_nil (List.splitOn_ne_nil '/' cs)

theorem pieces_slash (cs : List Char) : Path.pieces ('/' :: cs) = [] :: Path.pieces cs := by
  rw [Path.pieces, if_pos rfl]

theorem pieces_cons {c : Char} (h : c ≠ '/') {cs p : List Char} {ps : List (List Char)}
    (hp : Path.pieces cs = p :: ps) : Path.pieces (c :: cs) = (c :: p) :: ps := by
  rw [Path.pieces, if_neg h, hp]

/-- Tidying keeps what stands before the first slash, and of the pieces behind it those that are not empty. -/
theorem tidied_eq {cs p : List Char} {ps : List (List Char)} (h : Path.pieces cs = p :: ps) :
    tidied cs = joined p (ps.filter (· != [])) := by
  induction cs generalizing p ps with
  | nil =>
    cases h
    rfl
  | cons c cs ih =>
    obtain ⟨q, qs, hq⟩ := exists_pieces cs
    by_cases hc : c = '/'
    · subst hc
      rw [pieces_slash, hq, List.cons.injEq] at h
      obtain ⟨rfl, rfl⟩ := h
      -- What the slash does to the tidied text depends on whether another one follows.
      cases cs with
      | nil =>
        cases hq
        rfl
      | cons d ds =>
        by_cases hd : d = '/'
        · subst hd
          rw [tidied_slash_slash, ih hq]
          rw [pieces_slash, List.cons.injEq] at hq
          simp [← hq.1, joined]
        · obtain ⟨r, rs, hr⟩ := exists_pieces ds
          rw [tidied_slash_cons hd, ih hq]
          rw [pieces_cons hd hr, List.cons.injEq] at hq
          simp [← hq.1, joined]
    · rw [pieces_cons hc hq, List.cons.injEq] at h
      obtain ⟨rfl, rfl⟩ := h
      rw [tidied_cons hc, ih hq]
      rfl

/-- A slash and the segments of a text, put together, are the tidied text behind a slash. -/
theorem joined_urlSegments (cs : List Char) :
    joined [] ((Path.pieces cs).filter (· != [])) = tidied ('/' :: cs) :=
  (tidied_eq (pieces_slash cs)).symm

/-- The slash in front makes a difference exactly if something else stands there. -/
theorem tidied_slash_eq_iff (cs : List Char) : tidied ('/' :: cs) = tidied cs ↔ ∀ c ∈ cs.head?, c = '/' := by
  cases cs with
  | nil => simp [tidied, collapsed, List.rdropWhile]
  | cons c cs =>
    by_cases hc : c = '/'
    · subst hc
      simp [tidied_slash_slash]
    · simp [tidied_slash_cons hc, tidied_cons hc, hc]

/-! ## URLs -/

theorem dropStart?_eq_some_iff : ∀ {start cs rest : List Char},
    Text.dropStart? start cs = some rest ↔ cs = start ++ rest
  | [], cs, rest => by simp [Text.dropStart?]
  | p :: ps, [], rest => by simp [Text.dropStart?]
  | p :: ps, c :: cs, rest => by
    rw [Text.dropStart?]
    by_cases h : p = c
    · rw [if_pos h, dropStart?_eq_some_iff, h]
      simp
    · simp [h, Ne.symm h]

/-- A text up to its first question mark. -/
def beforeQuery (cs : List Char) : List Char := cs.takeWhile (· != '?')

/-- The base address holds neither slashes nor question marks. -/
theorem baseUrl_plain : '/' ∉ baseUrl.toList ∧ '?' ∉ baseUrl.toList := by decide

theorem beforeQuery_baseUrl (rest : List Char) :
    beforeQuery (baseUrl.toList ++ rest) = baseUrl.toList ++ beforeQuery rest := by
  apply List.takeWhile_append_of_pos
  intro c hc
  simpa using fun heq : c = '?' => baseUrl_plain.2 (heq ▸ hc)

theorem mem_of_mem_pieces {c : Char} : ∀ {cs p : List Char}, p ∈ Path.pieces cs → c ∈ p → c ∈ cs
  | [], p, hp, hc => by
    rw [Path.pieces, List.mem_singleton] at hp
    simp [hp] at hc
  | d :: ds, p, hp, hc => by
    obtain ⟨q, qs, hq⟩ := exists_pieces ds
    have ih : ∀ {r}, r ∈ q :: qs → c ∈ r → c ∈ ds := fun hr => mem_of_mem_pieces (hq ▸ hr)
    by_cases hd : d = '/'
    · subst hd
      rw [pieces_slash, hq, List.mem_cons] at hp
      rcases hp with rfl | hp
      · simp at hc
      · exact List.mem_cons_of_mem _ (ih hp hc)
    · rw [pieces_cons hd hq, List.mem_cons] at hp
      rcases hp with rfl | hp
      · rcases List.mem_cons.1 hc with rfl | hc
        · simp
        · exact List.mem_cons_of_mem _ (ih (by simp) hc)
      · exact List.mem_cons_of_mem _ (ih (by simp [hp]) hc)

theorem mem_urlSegments {cs s : List Char} (h : s ∈ urlSegments cs) : s ≠ [] ∧ '/' ∉ s ∧ '?' ∉ s := by
  obtain ⟨hpiece, hne⟩ := List.mem_filter.1 h
  refine ⟨by simpa using hne, Path.slash_notMem_of_mem_pieces hpiece, fun hmark => ?_⟩
  have hbefore := List.mem_takeWhile_imp (mem_of_mem_pieces hpiece hmark)
  simp at hbefore

/-- A URL on the base address, in parts. -/
def urlInParts (raw : String) (segments : List (List Char)) : Value :=
  .dict [("raw", .string raw), ("host", .list [.string baseUrl]),
    ("path", .list (segments.map fun s => .string (String.ofList s)))]

/-- **The parts of a URL describe it up to its first question mark**, with a slash behind the base address.  They
describe it as it is written exactly if nothing but a slash comes there.  A URL elsewhere has no parts. -/
theorem url_parts (raw : String) :
    (∃ rest segments, raw.toList = baseUrl.toList ++ rest ∧ url raw = urlInParts raw segments ∧
      (∀ s ∈ segments, s ≠ [] ∧ '/' ∉ s ∧ '?' ∉ s) ∧
      joined baseUrl.toList segments = tidied (baseUrl.toList ++ '/' :: beforeQuery rest) ∧
      (joined baseUrl.toList segments = tidied (beforeQuery raw.toList) ↔ ∀ c ∈ (beforeQuery rest).head?, c = '/')) ∨
    (¬ baseUrl.toList <+: raw.toList ∧ url raw = .dict [("raw", .string raw)]) := by
  cases hdrop : Text.dropStart? baseUrl.toList raw.toList with
  | none =>
    right
    refine ⟨?_, by rw [url, hdrop]⟩
    rintro ⟨rest, hrest⟩
    rw [dropStart?_eq_some_iff.2 hrest.symm] at hdrop
    cases hdrop
  | some rest =>
    left
    have hraw := dropStart?_eq_some_iff.1 hdrop
    have hjoined : joined baseUrl.toList (urlSegments rest) = baseUrl.toList ++ tidied ('/' :: beforeQuery rest) := by
      rw [← joined_urlSegments]
      rfl
    refine ⟨rest, urlSegments rest, hraw, by rw [url, hdrop]; rfl, fun s hs => mem_urlSegments hs, ?_, ?_⟩
    · rw [tidied_append baseUrl_plain.1, hjoined]
    · rw [hraw, beforeQuery_baseUrl, tidied_append baseUrl_plain.1, hjoined, List.append_cancel_left_eq,
        tidied_slash_eq_iff]

/-- Without a slash behind the base address the parts show one that is not in the URL. -/
theorem url_unslashed :
    url (baseUrl ++ "cards") = urlInParts (baseUrl ++ "cards") [['c', 'a', 'r', 'd', 's']] ∧
      joined baseUrl.toList [['c', 'a', 'r', 'd', 's']] ≠ tidied (beforeQuery (baseUrl ++ "cards").toList) :=
  ⟨by rfl, by decide⟩

end RequestAtlas.Document
