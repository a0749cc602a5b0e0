import RequestAtlas.Syntax.Lexeme
/-!
# Parsing steps at a known text

What a step does where the characters ahead are known.  `Cursor.before cs o` stands in front of `cs`; steps that
succeed move it behind what they read, and `Cursor.token` is where the next token starts.
-/

namespace RequestAtlas.Syntax

/-- The number of bytes of a text. -/
def bytes : List Char → Nat
  | [] => 0
  | c :: cs => c.utf8Size + bytes cs

theorem bytes_nil : bytes [] = 0 := rfl

theorem bytes_cons (c : Char) (cs : List Char) : bytes (c :: cs) = c.utf8Size + bytes cs := rfl

theorem bytes_append : ∀ a b : List Char, bytes (a ++ b) = bytes a + bytes b
  | [], b => (Nat.zero_add _).symm
  | c :: a, b => by rw [List.cons_append, bytes, bytes, bytes_append a b, Nat.add_assoc]

theorem length_le_bytes : ∀ cs : List Char, cs.length ≤ bytes cs
  | [] => Nat.le_refl 0
  | c :: cs => by
    have hc := c.utf8Size_pos
    have ih := length_le_bytes cs
    rw [bytes_cons, List.length_cons]
    omega

namespace Cursor

/-- The cursor in front of a text. -/
def before (cs : List Char) (offset : Nat) : Cursor := ⟨cs, offset, cs.length⟩

theorem skip_before (c : Char) (cs : List Char) (o : Nat) : (before (c :: cs) o).skip = before cs (o + c.utf8Size) := by
  simp [before, skip]

theorem skipN_before : ∀ (a b : List Char) (o : Nat), (before (a ++ b) o).skipN a.length = before b (o + bytes a)
  | [], b, o => rfl
  | c :: a, b, o => by
    rw [List.cons_append, List.length_cons, skipN, skip_before, skipN_before a b, bytes_cons, Nat.add_assoc]

theorem skipWhile_before {p : Char → Bool} {b : List Char} (hb : ∀ c ∈ b.head?, p c = false) :
    ∀ {a : List Char} (o : Nat), (∀ c ∈ a, p c = true) → (before (a ++ b) o).skipWhile p = before b (o + bytes a)
  | [], o, _ => by
    cases b with
    | nil => rfl
    | cons c b =>
      have hc : p c = false := hb c (by simp)
      simp [before, skipWhile, skipWhile.go, hc, bytes]
  | c :: a, o, ha => by
    rw [List.forall_mem_cons] at ha
    have ih := skipWhile_before hb (o + c.utf8Size) ha.2
    rw [bytes_cons, ← Nat.add_assoc, ← ih]
    simp [before, skipWhile, skipWhile.go, ha.1]

theorem charsTo_go : ∀ (a b : List Char), charsTo.go (bytes a) (a ++ b) = a
  | [], b => by
    rw [bytes, charsTo.go]
  | c :: a, b => by
    have hpos := c.utf8Size_pos
    obtain ⟨n, hn⟩ : ∃ n, bytes (c :: a) = n + 1 := ⟨bytes (c :: a) - 1, by rw [bytes_cons]; omega⟩
    rw [hn, List.cons_append, charsTo.go, ← hn, bytes_cons, Nat.add_sub_cancel_left, charsTo_go a b]
    exact fun h => by omega

theorem charsTo_before (a b : List Char) (o : Nat) : (before (a ++ b) o).charsTo (before b (o + bytes a)) = a := by
  rw [charsTo]
  simp only [before, Nat.add_sub_cancel_left]
  exact charsTo_go a b

/-- Where the next token starts. -/
def token (cs : List Char) (o : Nat) : Cursor :=
  before (cs.dropWhile isBlankBetweenTokens) (o + bytes (cs.takeWhile isBlankBetweenTokens))

end Cursor

/-! ## Blanks -/

/-- Whether a character starts neither a blank nor a comment. -/
def startsToken (c : Char) : Bool := !isBlankBetweenTokens c && c != '/' && c != '<' && c != '-'

theorem startsToken_iff {c : Char} :
    startsToken c = true ↔ isBlankBetweenTokens c = false ∧ c ≠ '/' ∧ c ≠ '<' ∧ c ≠ '-' := by
  simp [startsToken, and_assoc]

/-- A token starts here, or the text ends. -/
def Starts (cs : List Char) : Prop := ∀ c ∈ cs.head?, startsToken c = true

theorem starts_cons {c : Char} (hc : startsToken c = true) (cs : List Char) : Starts (c :: cs) := by
  intro d hd
  cases hd
  exact hc

/-- No comment comes before the next token. -/
def Plain (cs : List Char) : Prop := Starts (cs.dropWhile isBlankBetweenTokens)

theorem Starts.dropWhile {cs : List Char} (h : Starts cs) : cs.dropWhile isBlankBetweenTokens = cs := by
  cases cs with
  | nil => rfl
  | cons c cs =>
    have hc := (startsToken_iff.1 (h c (by simp))).1
    rw [List.dropWhile_cons, if_neg (by simp [hc])]

/-- A token that stands behind blanks. -/
theorem plain_append {a b : List Char} (ha : ∀ c ∈ a, isBlankBetweenTokens c = true)
    (hb : Starts b) : Plain (a ++ b) := by
  rw [Plain, List.dropWhile_append_of_pos ha, hb.dropWhile]
  exact hb

theorem Starts.plain {cs : List Char} (h : Starts cs) : Plain cs := plain_append (a := []) (by simp) h

namespace Cursor

theorem token_append {a b : List Char} (ha : ∀ c ∈ a, isBlankBetweenTokens c = true)
    (hb : Starts b) (o : Nat) : token (a ++ b) o = before b (o + bytes a) := by
  have htake : b.takeWhile isBlankBetweenTokens = [] := by
    cases b with
    | nil => rfl
    | cons c b =>
      have hc := (startsToken_iff.1 (hb c (by simp))).1
      rw [List.takeWhile_cons, if_neg (by simp [hc])]
  rw [token, List.dropWhile_append_of_pos ha, List.takeWhile_append_of_pos ha, hb.dropWhile, htake,
    List.append_nil]

theorem token_of_starts {cs : List Char} (h : Starts cs) (o : Nat) :
    token cs o = before cs o :=
  token_append (a := []) (by simp) h o

theorem pastComment?_before {cs : List Char} (h : Starts cs) (o : Nat) :
    (before cs o).pastComment? = none ∧ (before cs o).pastMarkupComment? = none := by
  cases cs with
  | nil => exact ⟨rfl, rfl⟩
  | cons c cs =>
    obtain ⟨_, hslash, hangle, hdash⟩ := startsToken_iff.1 (h c (by simp))
    constructor
    · rw [pastComment?]
      split
      · rename_i heq; exact absurd (List.cons.inj heq).1 hslash
      · rename_i heq; exact absurd (List.cons.inj heq).1 hslash
      · rfl
    · rw [pastMarkupComment?, if_neg]
      simp [before, List.isPrefixOf, Ne.symm hangle, Ne.symm hdash]

theorem pastTrivia_before {cs : List Char} (h : Plain cs) (markup : Bool) (o : Nat) :
    (before cs o).pastTrivia markup = ([], token cs o) := by
  have hskip : (before cs o).skipWhile isBlankBetweenTokens = token cs o := by
    have hblank : ∀ c ∈ cs.takeWhile isBlankBetweenTokens, isBlankBetweenTokens c = true := fun c hc =>
      List.all_eq_true.1 List.all_takeWhile c hc
    have hskip := skipWhile_before (fun c hc => (startsToken_iff.1 (h c hc)).1) o hblank
    rwa [List.takeWhile_append_dropWhile] at hskip
  obtain ⟨hcomment, hmarkup⟩ := pastComment?_before h (o + bytes (cs.takeWhile isBlankBetweenTokens))
  rw [pastTrivia, pastTrivia.go]
  simp only [hskip]
  rw [token, hcomment, hmarkup]
  cases markup <;> rfl

end Cursor

namespace Parse

variable {α β : Type} {c c' : Cursor}

theorem bind_apply (p : Parse α) (f : α → Parse β) : (p >>= f) c = (p c).bind fun r => f r.1 r.2 := rfl

theorem bind_of_some {p : Parse α} {f : α → Parse β} {a : α} (h : p c = some (a, c')) : (p >>= f) c = f a c' := by
  rw [bind_apply, h]
  rfl

theorem bind_of_none {p : Parse α} {f : α → Parse β} (h : p c = none) : (p >>= f) c = none := by
  rw [bind_apply, h]
  rfl

theorem get_apply (c : Cursor) : (get : Parse Cursor) c = some (c, c) := rfl

theorem orElse_of_some {p q : Parse α} {a : α} (h : p c = some (a, c')) : (p <|> q) c = some (a, c') := by
  show (p c <|> q c) = _
  rw [h]
  rfl

theorem orElse_of_none {p q : Parse α} (h : p c = none) : (p <|> q) c = q c := by
  show (p c <|> q c) = _
  rw [h]
  rfl

theorem maybe_of_some {p : Parse α} {a : α} (h : p c = some (a, c')) : maybe p c = some (some a, c') := by
  rw [maybe, h]

theorem maybe_of_none {p : Parse α} (h : p c = none) : maybe p c = some (none, c) := by
  rw [maybe, h]

theorem firstOf_of_none {α : Type} {c : Cursor} : ∀ {ps : List (Parse α)}, (∀ p ∈ ps, p c = none) → firstOf ps c = none
  | [], _ => rfl
  | p :: ps, h => by
    rw [List.forall_mem_cons] at h
    rw [firstOf, orElse_of_none h.1, firstOf_of_none h.2]

theorem many_go_of_some {p : Parse α} {x : α} (h : p c = some (x, c')) (hlt : c.offset < c'.offset) (fuel : Nat)
    (acc : List α) : many.go p (fuel + 1) acc c = many.go p fuel (x :: acc) c' := by
  rw [many.go, h]
  exact if_neg (Nat.not_le.2 hlt)

theorem many_go_of_none {p : Parse α} (h : p c = none) (fuel : Nat) (acc : List α) :
    many.go p (fuel + 1) acc c = (acc.reverse, c) := by
  rw [many.go, h]

theorem trivia_before {cs : List Char} (h : Plain cs) (o : Nat) :
    trivia (.before cs o) = some ((), .token cs o) := by
  rw [trivia, Cursor.pastTrivia_before h]

theorem leading_before {cs : List Char} (h : Plain cs) (o : Nat) :
    leading (.before cs o) = some ((), .token cs o) := by
  rw [leading, Cursor.pastTrivia_before h]

theorem comments_before {cs : List Char} (h : Plain cs) (markup : Bool) (o : Nat) :
    comments markup (.before cs o) = some ([], .token cs o) := by
  rw [comments, Cursor.pastTrivia_before h]

theorem here_before {cs : List Char} (h : Plain cs) (o : Nat) :
    here (.before cs o) = some (.token cs o, .token cs o) := by
  rw [here, bind_of_some (trivia_before h o)]
  rfl

theorem leading_of_starts {cs : List Char} (h : Starts cs) (o : Nat) :
    leading (.before cs o) = some ((), .before cs o) := by
  rw [leading_before h.plain, Cursor.token_of_starts h]

theorem here_of_starts {cs : List Char} (h : Starts cs) (o : Nat) :
    here (.before cs o) = some (.before cs o, .before cs o) := by
  rw [here_before h.plain, Cursor.token_of_starts h]

theorem exactly_before (s : String) (cs : List Char) (o : Nat) :
    exactly s (.before (s.toList ++ cs) o) = some ((), .before cs (o + bytes s.toList)) := by
  have hprefix : s.toList.isPrefixOf (s.toList ++ cs) = true := by simp
  rw [exactly, ← String.length_toList, Cursor.skipN_before]
  exact if_pos hprefix

/-- A text that starts otherwise is not what is expected. -/
theorem exactly_of_head {s : String} {cs : List Char} (hs : s.toList ≠ [])
    (h : ∀ c ∈ cs.head?, s.toList.head? ≠ some c) (o : Nat) : exactly s (.before cs o) = none := by
  rw [exactly, if_neg]
  obtain ⟨d, ds, hd⟩ := List.exists_cons_of_ne_nil hs
  rw [hd] at h ⊢
  cases cs with
  | nil => simp [Cursor.before]
  | cons c cs =>
    have hne : d ≠ c := by simpa using h c (by simp)
    simp [Cursor.before, List.isPrefixOf, hne]

theorem symbol_before {s : String} {a cs : List Char} (ha : ∀ c ∈ a, isBlankBetweenTokens c = true)
    (hs : Starts (s.toList ++ cs)) (o : Nat) :
    symbol s (.before (a ++ (s.toList ++ cs)) o) = some ((), .before cs (o + bytes a + bytes s.toList)) := by
  rw [symbol, bind_of_some (trivia_before (plain_append ha hs) o), Cursor.token_append ha hs, exactly_before]

end Parse

/-! ## Words -/

/-- What follows is no part of a word or of a number. -/
def Ends (cs : List Char) : Prop := ∀ c ∈ cs.head?, isWordChar c = false ∧ c ≠ '\\' ∧ c ≠ '.'

theorem wordLength_of_ends {cs : List Char} (h : Ends cs) : wordLength cs = 0 := by
  cases cs with
  | nil => rfl
  | cons c cs =>
    obtain ⟨hword, hescape, _⟩ := h c (by simp)
    simp [wordLength, wordLength.go, hword, hescape]

theorem wordLength_of_isDigit {c : Char} (h : c.isDigit = true) (cs : List Char) : wordLength (c :: cs) = 0 := by
  rw [wordLength, if_pos h]

theorem wordLength_go {rest : List Char} (hrest : Ends rest) :
    ∀ {w : List Char} (n : Nat), (∀ c ∈ w, isWordChar c = true) → wordLength.go (w ++ rest) 0 n = n + w.length
  | [], n, _ => by
    cases rest with
    | nil => rfl
    | cons c rest =>
      obtain ⟨hword, hescape, _⟩ := hrest c (by simp)
      simp [wordLength.go, hword, hescape]
  | c :: w, n, hw => by
    rw [List.forall_mem_cons] at hw
    rw [List.cons_append, wordLength.go, if_pos hw.1, wordLength_go hrest (n + 1) hw.2, List.length_cons]
    omega

/-- Signs are no part of a word. -/
theorem ne_of_isWordChar {c d : Char} (h : isWordChar c = true) (hd : isWordChar d = false) : c ≠ d := by
  rintro rfl
  rw [h] at hd
  cases hd

/-- A part of a word starts a token. -/
theorem startsToken_of_isWordChar {c : Char} (h : isWordChar c = true) : startsToken c = true := by
  have hblank : isBlankBetweenTokens c = false := by
    rw [← Bool.not_eq_true]
    intro hblank
    simp [isWordChar, hblank] at h
  exact startsToken_iff.2 ⟨hblank, ne_of_isWordChar h (by decide), ne_of_isWordChar h (by decide),
    ne_of_isWordChar h (by decide)⟩

/-- A text that is a word of a script. -/
structure IsWord (w : String) : Prop where
  chars : w.toList.all isWordChar = true
  digit : w.toList.head?.any Char.isDigit = false
  nonempty : w.toList ≠ []

theorem IsWord.exists_cons {w : String} (hw : IsWord w) :
    ∃ c cs, w.toList = c :: cs ∧ isWordChar c = true ∧ c.isDigit = false := by
  obtain ⟨hchars, hdigit, hne⟩ := hw
  obtain ⟨c, cs, hcs⟩ := List.exists_cons_of_ne_nil hne
  rw [hcs] at hchars hdigit
  exact ⟨c, cs, hcs, List.all_eq_true.1 hchars c (by simp), hdigit⟩

theorem IsWord.starts {w : String} (hw : IsWord w) (rest : List Char) : Starts (w.toList ++ rest) := by
  obtain ⟨c, cs, hcs, hc, _⟩ := hw.exists_cons
  rw [hcs]
  exact starts_cons (startsToken_of_isWordChar hc) _

/-- A word reaches as far as its characters do. -/
theorem IsWord.length {w : String} (hw : IsWord w) {rest : List Char} (hrest : Ends rest) :
    wordLength (w.toList ++ rest) = w.toList.length := by
  obtain ⟨c, cs, hcs, _, hdigit⟩ := hw.exists_cons
  have hgo := wordLength_go hrest 0 (List.all_eq_true.1 hw.chars)
  rw [hcs, List.cons_append] at hgo ⊢
  rw [wordLength, if_neg (by simp [hdigit]), hgo, Nat.zero_add]

namespace Parse

theorem ensure_of_true {b : Bool} {c : Cursor} (h : b = true) : ensure b c = some ((), c) := by
  subst h
  rfl

theorem ensure_of_false {b : Bool} {c : Cursor} (h : b = false) : ensure b c = none := by
  subst h
  rfl

/-- No word comes where the characters ahead are none. -/
theorem word_of_length {cs : List Char} (h : Plain cs) (hw : wordLength (cs.dropWhile isBlankBetweenTokens) = 0)
    (o : Nat) : word (.before cs o) = none := by
  rw [word, bind_of_some (here_before h o)]
  exact bind_of_none (ensure_of_false (by rw [Cursor.token, Cursor.before, hw]; rfl))

theorem word_before {w : String} (hw : IsWord w) {rest : List Char} (hrest : Ends rest) (o : Nat) :
    word (.before (w.toList ++ rest) o) = some (w, .before rest (o + bytes w.toList)) := by
  have hpositive : (wordLength (w.toList ++ rest) != 0) = true := by
    rw [hw.length hrest, bne_iff_ne]
    simpa using hw.nonempty
  rw [word, bind_of_some (here_of_starts (hw.starts rest) o)]
  refine (bind_of_some (ensure_of_true hpositive)).trans ?_
  have hskip : (Cursor.before (w.toList ++ rest) o).skipN (wordLength (w.toList ++ rest)) =
      .before rest (o + bytes w.toList) := by
    rw [hw.length hrest, Cursor.skipN_before]
  show some (Cursor.textTo _ (Cursor.skipN _ _), Cursor.skipN _ _) = _
  rw [show (Cursor.before (w.toList ++ rest) o).rest = w.toList ++ rest from rfl, hskip, Cursor.textTo,
    Cursor.charsTo_before, String.ofList_toList]

end Parse

end RequestAtlas.Syntax
