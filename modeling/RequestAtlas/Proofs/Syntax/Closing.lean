import RequestAtlas.Proofs.Syntax.Lexemes
import RequestAtlas.Syntax.Program
/-!
# Where an operand is all of an expression

A text `Closes` if the next token is a comma or a bracket that ends a literal, or none.  In front of such a text no
operator, call, member or assignment follows, so an operand that ends there is a whole expression
(`expression_of_primary`), and no expression, element or property starts there (`element_of_isCloser`,
`property_of_isCloser`).
-/

namespace RequestAtlas.Syntax

/-! ## Where a text closes -/

/-- A comma, or a bracket that closes a literal. -/
def isCloser (c : Char) : Bool := c == ',' || c == ']' || c == '\x7d'

theorem isCloser_iff {c : Char} : isCloser c = true ↔ c = ',' ∨ c = ']' ∨ c = '\x7d' := by
  simp [isCloser, or_assoc]

/-- Behind blanks the text ends, or a closer comes. -/
def Closes (cs : List Char) : Prop := ∀ c ∈ (cs.dropWhile isBlankBetweenTokens).head?, isCloser c = true

theorem starts_of_isCloser {c : Char} (hc : isCloser c = true) (rest : List Char) : Starts (c :: rest) := by
  refine starts_cons ?_ rest
  rcases isCloser_iff.1 hc with rfl | rfl | rfl <;> rfl

theorem closes_cons {c : Char} (hc : isCloser c = true) (rest : List Char) : Closes (c :: rest) := by
  rw [Closes, (starts_of_isCloser hc rest).dropWhile]
  intro d hd
  cases hd
  exact hc

/-- What does not start with a closer. -/
def closesNothing (s : String) : Bool := s.toList.head?.any (!isCloser ·)

section
variable {cs : List Char} (h : Closes cs) (o : Nat)
include h

theorem Closes.plain : Plain cs := by
  intro c hc
  rcases isCloser_iff.1 (h c hc) with rfl | rfl | rfl <;> decide

theorem Closes.ends : Ends cs := by
  intro c hc
  by_cases hblank : isBlankBetweenTokens c = true
  · refine ⟨by simp [isWordChar, hblank], ?_, ?_⟩
    · rintro rfl
      exact absurd hblank (by decide)
    · rintro rfl
      exact absurd hblank (by decide)
  · have hhead : c ∈ (cs.dropWhile isBlankBetweenTokens).head? := by
      cases cs with
      | nil => cases hc
      | cons d cs =>
        cases hc
        rw [List.dropWhile_cons, if_neg hblank]
        rfl
    rcases isCloser_iff.1 (h c hhead) with rfl | rfl | rfl <;> decide

theorem Closes.rest : (Cursor.token cs o).rest = [] ∨
    ∃ c tail, (Cursor.token cs o).rest = c :: tail ∧ (c = ',' ∨ c = ']' ∨ c = '\x7d') := by
  show cs.dropWhile isBlankBetweenTokens = [] ∨ ∃ c tail, cs.dropWhile isBlankBetweenTokens = c :: tail ∧ _
  cases htail : cs.dropWhile isBlankBetweenTokens with
  | nil => exact .inl rfl
  | cons c tail => exact .inr ⟨c, tail, rfl, isCloser_iff.1 (h c (by rw [htail]; rfl))⟩

/-- Where the next token is, the text closes still. -/
theorem Closes.token : Closes (cs.dropWhile isBlankBetweenTokens) := by
  rw [Closes, Starts.dropWhile h.plain]
  exact h

namespace Parse

theorem exactly_of_closes {s : String} (hs : closesNothing s = true) : exactly s (.token cs o) = none := by
  cases hhead : s.toList.head? with
  | none => simp [closesNothing, hhead] at hs
  | some d =>
    have hne : s.toList ≠ [] := by
      intro hnil
      simp [hnil] at hhead
    refine exactly_of_head hne (fun c hc heq => ?_) _
    have hd : d = c := Option.some.inj (hhead.symm.trans heq)
    rw [closesNothing, hhead, Option.any_some, hd, h c hc] at hs
    cases hs

theorem symbol_of_closes {s : String} (hs : closesNothing s = true) : symbol s (.before cs o) = none := by
  rw [symbol, bind_of_some (trivia_before h.plain o), exactly_of_closes h o hs]

theorem symbolNot_of_closes {s : String} (hs : closesNothing s = true) (stoppers : String) :
    symbolNot s stoppers (.before cs o) = none := by
  rw [symbolNot, bind_of_none (symbol_of_closes h o hs)]

theorem word_of_closes : word (.before cs o) = none := by
  refine word_of_length h.plain (wordLength_of_ends fun c hc => ?_) o
  rcases isCloser_iff.1 (h c hc) with rfl | rfl | rfl <;> decide

theorem postfixStep_of_closes (g : Grammar) (start : Cursor) (e : Node) :
    postfixStep g .bracketed start e (.before cs o) = none := by
  have hcontinues : continues .bracketed (.before cs o) = some ((), .before cs o) := rfl
  rw [postfixStep, bind_of_some hcontinues, bind_of_some (here_before h.plain o)]
  rcases h.rest o with hrest | ⟨c, tail, hrest, rfl | rfl | rfl⟩ <;> simp only [hrest] <;> rfl

theorem postfixes_of_closes (g : Grammar) (start : Cursor) (e : Node) (fuel : Nat) :
    postfixes g .bracketed start e fuel (.before cs o) = some (e, .before cs o) := by
  cases fuel with
  | zero => rfl
  | succ fuel =>
    rw [postfixes, bind_of_some (maybe_of_none (postfixStep_of_closes h o g start e))]
    rfl

theorem binaryOperator_of_closes : binaryOperator (.before cs o) = none := by
  have hoperators : ∀ op ∈ binaryOperators, closesNothing op = true := by decide
  have hfirst : firstOf (binaryOperators.map fun op => do exactly op; return op) (.token cs o) = none := by
    refine firstOf_of_none (List.forall_mem_map.2 fun op hop => ?_)
    exact bind_of_none (exactly_of_closes h o (hoperators op hop))
  rw [binaryOperator, bind_of_some (here_before h.plain o)]
  rcases h.rest o with hrest | ⟨c, tail, hrest, rfl | rfl | rfl⟩
  · simp only [hrest]
    rfl
  all_goals
    simp only [hrest, List.head?_cons]
    rw [if_neg (by decide), bind_of_none hfirst]

theorem tail_of_closes (g : Grammar) : tail g .bracketed (.before cs o) = none := by
  have hcontinues : continues .bracketed (.before cs o) = some ((), .before cs o) := rfl
  have hkeyword : ∀ k, keyword k (.before cs o) = none := fun k => bind_of_none (word_of_closes h o)
  have hquestion : questionMark (.before cs o) = none := by
    rw [questionMark, bind_of_none (symbolNot_of_closes h o (by decide) _)]
  rw [tail, bind_of_some hcontinues]
  refine firstOf_of_none ?_
  simp only [List.forall_mem_cons]
  exact ⟨bind_of_none (binaryOperator_of_closes h o), bind_of_none hquestion, bind_of_none (hkeyword _),
    bind_of_none (hkeyword _), by simp⟩

theorem chain_of_closes (g : Grammar) (start : Cursor) (fuel : Nat) (parts : List Node) :
    chain g .bracketed start fuel parts (.before cs o) = some (parts, .before cs o) := by
  cases fuel with
  | zero => rfl
  | succ fuel =>
    rw [chain, bind_of_some (maybe_of_none (tail_of_closes h o g))]
    rfl

end Parse

end

namespace Parse

/-! ## From an operand to an expression -/

/-- Whether a character starts a token that is neither a dot nor a sign in front of an operand. -/
def startsOperand (c : Char) : Bool := startsToken c && c != '.' && c != '+' && c != '!' && c != '~'

theorem startsOperand_iff {c : Char} :
    startsOperand c = true ↔ startsToken c = true ∧ c ≠ '.' ∧ c ≠ '+' ∧ c ≠ '!' ∧ c ≠ '~' := by
  simp [startsOperand, and_assoc]

theorem startsOperand_of_isWordChar {c : Char} (h : isWordChar c = true) : startsOperand c = true :=
  startsOperand_iff.2 ⟨startsToken_of_isWordChar h, ne_of_isWordChar h (by decide), ne_of_isWordChar h (by decide),
    ne_of_isWordChar h (by decide), ne_of_isWordChar h (by decide)⟩

/-- An operand starts a text. -/
def Begins (text : List Char) : Prop := ∃ c cs, text = c :: cs ∧ startsOperand c = true

namespace Begins

variable {text : List Char} (h : Begins text)
include h

theorem head : ∀ c ∈ text.head?, startsOperand c = true := by
  obtain ⟨c, cs, rfl, hc⟩ := h
  intro d hd
  cases hd
  exact hc

theorem starts : Starts text := fun c hc => (startsOperand_iff.1 (h.head c hc)).1

theorem append (rest : List Char) : Begins (text ++ rest) := by
  obtain ⟨c, cs, rfl, hc⟩ := h
  exact ⟨c, cs ++ rest, rfl, hc⟩

end Begins

section
variable {g : Grammar} {t rest : List Char} {n : Node} {o o' : Nat}

theorem assignable_of_primary (ht : Starts t) (hrest : Closes rest)
    (hprimary : primary g .bracketed (.before t o) = some (n, .before rest o')) :
    assignable g .bracketed (.before t o) = some (n, .before rest o') := by
  have hattached : attached g .bracketed (.before t o) = some (n, .before rest o') := by
    rw [attached, bind_of_some (leading_of_starts ht o), bind_of_some (get_apply _), bind_of_some hprimary,
      postfixes_of_closes hrest]
  have hoperators : ∀ op ∈ assignmentOperators, closesNothing op = true := by decide
  -- a literal can be the target of an assignment, but none follows
  have hassign : ((do
      continues .bracketed
      trivia
      (symbolNot "=" "=>" <|> firstOf (assignmentOperators.map exactly))) : Parse Unit) (.before rest o') = none := by
    have hcontinues : continues .bracketed (.before rest o') = some ((), .before rest o') := rfl
    have hequals : symbolNot "=" "=>" (.token rest o') = none := symbolNot_of_closes hrest.token _ (by decide) _
    rw [bind_of_some hcontinues, bind_of_some (trivia_before hrest.plain o'), orElse_of_none hequals]
    exact firstOf_of_none (List.forall_mem_map.2 fun op hop => exactly_of_closes hrest o' (hoperators op hop))
  rw [assignable, bind_of_some (leading_of_starts ht o), bind_of_some (get_apply _), bind_of_some hattached]
  split
  · rfl
  · rw [bind_of_some (maybe_of_none hassign)]
    rfl

/-- Words that start an operand with an operator in front. -/
def unaryWords : List String := ["typeof", "void", "delete", "await", "yield", "using"]

theorem operand_of_primary {w : Option String} (ht : Begins t) (hrest : Closes rest)
    (hahead : wordAhead (.before t o) = some (w, .before t o)) (hw : ∀ u ∈ w, u ∉ unaryWords)
    (hprimary : primary g .bracketed (.before t o) = some (n, .before rest o')) :
    operand g .bracketed (.before t o) = some (n, .before rest o') := by
  have hassignable := assignable_of_primary ht.starts hrest hprimary
  rw [operand, bind_of_some (leading_of_starts ht.starts o), bind_of_some (get_apply _)]
  simp only [show (Cursor.before t o).rest = t from rfl]
  split
  case h_7 =>
    rw [bind_of_some hahead]
    split
    case h_7 => exact hassignable
    all_goals exact absurd (by decide) (hw _ rfl)
  -- the other cases are operators in front
  all_goals exact absurd (ht.head _ rfl) (by decide)

theorem expression_of_operand (ht : Starts t) (hrest : Closes rest)
    (hoperand : g.operand .bracketed (.before t o) = some (n, .before rest o')) :
    expression g .bracketed (.before t o) = some (n, .before rest o') := by
  have hscope : ({ Scope.bracketed with typed := true } : Scope) = .bracketed := rfl
  rw [expression]
  simp only [hscope]
  rw [bind_of_some (leading_of_starts ht o), bind_of_some (get_apply _), bind_of_some hoperand,
    bind_of_some (chain_of_closes hrest o' g _ _ _)]
  rfl

/-- Two levels of the grammar are an expression around an operand. -/
theorem expression_of_primary {d : Nat} {w : Option String} (ht : Begins t) (hrest : Closes rest)
    (hahead : wordAhead (.before t o) = some (w, .before t o)) (hw : ∀ u ∈ w, u ∉ unaryWords)
    (hprimary : primary (.ofDepth d) .bracketed (.before t o) = some (n, .before rest o')) :
    (Grammar.ofDepth (d + 2)).expression .bracketed (.before t o) = some (n, .before rest o') :=
  expression_of_operand (g := .ofDepth (d + 1)) ht.starts hrest (operand_of_primary ht hrest hahead hw hprimary)

/-! ## Operands by their first character -/

theorem primary_of_quote : primary g .bracketed (.before ('"' :: t) o) = string (.before ('"' :: t) o) := by
  rw [primary, primaryWith, bind_of_some (leading_of_starts (starts_cons rfl t) o), bind_of_some (get_apply _)]
  rfl

theorem primary_of_bracket :
    primary g .bracketed (.before ('[' :: t) o) = literalOrPattern g (array g) (.before ('[' :: t) o) := by
  rw [primary, primaryWith, bind_of_some (leading_of_starts (starts_cons rfl t) o), bind_of_some (get_apply _)]
  rfl

theorem primary_of_brace :
    primary g .bracketed (.before ('\x7b' :: t) o) = literalOrPattern g (object g) (.before ('\x7b' :: t) o) := by
  rw [primary, primaryWith, bind_of_some (leading_of_starts (starts_cons rfl t) o), bind_of_some (get_apply _)]
  rfl

theorem primary_of_digit {c : Char} (ht : Starts t) (hhead : t.head? = some c) (hc : c.isDigit = true) :
    primary g .bracketed (.before t o) = number (.before t o) := by
  rw [primary, primaryWith, bind_of_some (leading_of_starts ht o), bind_of_some (get_apply _)]
  simp only [show (Cursor.before t o).rest = t from rfl]
  split
  case h_11 =>
    obtain rfl := Option.some.inj hhead
    rw [if_pos (by rw [hc, Bool.true_or])]
  case h_12 => cases hhead
  all_goals
    obtain rfl := Option.some.inj hhead
    exact absurd hc (by decide)

theorem primary_of_word {w : String} {c : Char} (ht : Starts t) (hhead : t.head? = some c)
    (hdigit : c.isDigit = false) (hword : isWordChar c = true)
    (hahead : wordAhead (.before t o) = some (some w, .before t o)) : primary g .bracketed (.before t o) =
      wordOperand g .bracketed (primaryWith g .bracketed failure) (.before t o) w (.before t o) := by
  rw [primary, primaryWith, bind_of_some (leading_of_starts ht o), bind_of_some (get_apply _)]
  simp only [show (Cursor.before t o).rest = t from rfl]
  have hpoint : c ≠ '.' := ne_of_isWordChar hword (by decide)
  split
  case h_11 =>
    obtain rfl := Option.some.inj hhead
    rw [if_neg (by simp [hdigit, hpoint]), bind_of_some hahead]
  case h_12 => cases hhead
  all_goals
    obtain rfl := Option.some.inj hhead
    exact absurd hword (by decide)

end

/-! ## No item comes where a bracket closes -/

section
variable {c : Char} (hc : isCloser c = true) (rest : List Char) (o : Nat)
include hc

theorem wordAhead_of_isCloser : wordAhead (.before (c :: rest) o) = some (none, .before (c :: rest) o) := by
  rw [wordAhead, word_of_closes (closes_cons hc rest)]
  rfl

theorem primary_of_isCloser (g : Grammar) : primary g .bracketed (.before (c :: rest) o) = none := by
  have hstart := starts_of_isCloser hc rest
  have hahead := wordAhead_of_isCloser hc rest o
  rw [primary, primaryWith, bind_of_some (leading_of_starts hstart o), bind_of_some (get_apply _)]
  rcases isCloser_iff.1 hc with rfl | rfl | rfl <;> exact bind_of_some hahead

theorem operand_of_isCloser (g : Grammar) : operand g .bracketed (.before (c :: rest) o) = none := by
  have hstart := starts_of_isCloser hc rest
  have hattached : attached g .bracketed (.before (c :: rest) o) = none := by
    rw [attached, bind_of_some (leading_of_starts hstart o), bind_of_some (get_apply _),
      bind_of_none (primary_of_isCloser hc rest o g)]
  have hassignable : assignable g .bracketed (.before (c :: rest) o) = none := by
    rw [assignable, bind_of_some (leading_of_starts hstart o), bind_of_some (get_apply _), bind_of_none hattached]
  have hahead := wordAhead_of_isCloser hc rest o
  rw [operand, bind_of_some (leading_of_starts hstart o), bind_of_some (get_apply _)]
  rcases isCloser_iff.1 hc with rfl | rfl | rfl <;> exact (bind_of_some hahead).trans hassignable

theorem expression_of_isCloser (d : Nat) :
    (Grammar.ofDepth d).expression .bracketed (.before (c :: rest) o) = none := by
  cases d with
  | zero => rfl
  | succ d =>
    have hoperand : (Grammar.ofDepth d).operand .bracketed (.before (c :: rest) o) = none := by
      cases d with
      | zero => rfl
      | succ d => exact operand_of_isCloser hc rest o (.ofDepth d)
    show expression (.ofDepth d) .bracketed (.before (c :: rest) o) = none
    rw [expression, bind_of_some (leading_of_starts (starts_of_isCloser hc rest) o), bind_of_some (get_apply _)]
    exact bind_of_none hoperand

theorem spread_of_isCloser (g : Grammar) : spread g (.before (c :: rest) o) = none := by
  have hexactly : exactly "..." (.before (c :: rest) o) = none := by
    have hnone := exactly_of_closes (closes_cons hc rest) o (s := "...") (by decide)
    rwa [Cursor.token_of_starts (starts_of_isCloser hc rest)] at hnone
  rw [spread, bind_of_some (here_of_starts (starts_of_isCloser hc rest) o), bind_of_none hexactly]

theorem wordNode_of_isCloser (kind : Kind) (except : List String) :
    wordNode kind except (.before (c :: rest) o) = none := by
  rw [wordNode, bind_of_some (here_of_starts (starts_of_isCloser hc rest) o),
    bind_of_none (word_of_closes (closes_cons hc rest) o)]

theorem propertyName_of_isCloser (g : Grammar) : propertyName g (.before (c :: rest) o) = none := by
  have hword := wordNode_of_isCloser hc rest o .propertyIdentifier []
  rw [propertyName, bind_of_some (here_of_starts (starts_of_isCloser hc rest) o)]
  rcases isCloser_iff.1 hc with rfl | rfl | rfl <;> exact hword

theorem objectMethod_of_isCloser (g : Grammar) : objectMethod g (.before (c :: rest) o) = none := by
  have hmodifier : memberModifier false memberModifiers (.before (c :: rest) o) = none :=
    bind_of_none (word_of_closes (closes_cons hc rest) o)
  have hmany : many (memberModifier false memberModifiers) (.before (c :: rest) o) =
      some ([], .before (c :: rest) o) := by
    rw [many, many_go_of_none hmodifier]
    rfl
  have hstar := maybe_of_none (symbol_of_closes (closes_cons hc rest) o (s := "*") (by decide))
  rw [objectMethod, bind_of_some (here_of_starts (starts_of_isCloser hc rest) o), bind_of_some hmany,
    bind_of_some hstar, bind_of_none (propertyName_of_isCloser hc rest o g)]

/-- An element of an array literal. -/
theorem element_of_isCloser (d : Nat) :
    (spread (.ofDepth d) <|> (Grammar.ofDepth d).expression .bracketed) (.before (c :: rest) o) = none :=
  (orElse_of_none (spread_of_isCloser hc rest o _)).trans (expression_of_isCloser hc rest o d)

theorem property_of_isCloser (g : Grammar) :
    firstOf [spread g, shorthand, pair g, objectMethod g] (.before (c :: rest) o) = none := by
  refine firstOf_of_none ?_
  simp only [List.forall_mem_cons]
  refine ⟨spread_of_isCloser hc rest o g, bind_of_none (wordNode_of_isCloser hc rest o _ _), ?_,
    objectMethod_of_isCloser hc rest o g, by simp⟩
  rw [pair, bind_of_some (here_of_starts (starts_of_isCloser hc rest) o),
    bind_of_none (propertyName_of_isCloser hc rest o g)]

end

end Parse

end RequestAtlas.Syntax
