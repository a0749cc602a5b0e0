import RequestAtlas.Proofs.Literal.Cooking
import RequestAtlas.Proofs.Values
/-!
# The grammar of JSON text

`IsText` is the grammar of the standard: a value with blanks around it, where values are the three words, numbers,
texts, arrays and objects.  There is no word for a number that is not finite.  Main statement `isText_of_render`: what
is rendered is in the grammar if all doubles in the value are finite.
-/

namespace RequestAtlas

namespace Json

/-! ## Numbers -/

/-- A fraction, or nothing. -/
inductive IsFractionPart : List Char → Prop
  | none : IsFractionPart []
  | some {ds : List Char} (h : isDigits ds = true) : IsFractionPart ('.' :: ds)

/-- An exponent, or nothing. -/
inductive IsExponentPart : List Char → Prop
  | none : IsExponentPart []
  | some {e : Char} {sign ds : List Char} (he : e = 'e' ∨ e = 'E') (hs : sign = [] ∨ sign = ['+'] ∨ sign = ['-'])
      (h : isDigits ds = true) : IsExponentPart (e :: (sign ++ ds))

/-- A number: digits without a needless zero in front, and perhaps a sign, a fraction and an exponent. -/
inductive IsNumber : List Char → Prop
  | mk {sign whole fraction exponent : List Char} (hs : sign = [] ∨ sign = ['-']) (hw : isWhole whole = true)
      (hf : IsFractionPart fraction) (he : IsExponentPart exponent) :
      IsNumber (sign ++ (whole ++ (fraction ++ exponent)))

/-! ## Texts -/

/-- What stands between the quotes of a text. -/
inductive IsInside : List Char → Prop
  | nil : IsInside []
  | plain {c : Char} {cs : List Char} (hc : c ≠ '"' ∧ c ≠ '\\' ∧ 32 ≤ c.toNat) (h : IsInside cs) : IsInside (c :: cs)
  | letter {c : Char} {cs : List Char} (hc : c ∈ ['"', '\\', '/', 'b', 'f', 'n', 'r', 't']) (h : IsInside cs) :
      IsInside ('\\' :: c :: cs)
  | code {a b c d : Char} {cs : List Char} (hds : ∀ x ∈ [a, b, c, d], Literal.isHex x = true) (h : IsInside cs) :
      IsInside ('\\' :: 'u' :: a :: b :: c :: d :: cs)

/-- A text in quotes. -/
inductive IsQuoted : List Char → Prop
  | mk {cs : List Char} (h : IsInside cs) : IsQuoted ('"' :: (cs ++ ['"']))

/-! ## Values -/

/-- Blanks, or nothing. -/
def IsBlanks (cs : List Char) : Prop := ∀ c ∈ cs, isSpace c = true

mutual

inductive IsValue : List Char → Prop
  | null : IsValue ['n', 'u', 'l', 'l']
  | true : IsValue ['t', 'r', 'u', 'e']
  | false : IsValue ['f', 'a', 'l', 's', 'e']
  | number {cs : List Char} (h : IsNumber cs) : IsValue cs
  | text {cs : List Char} (h : IsQuoted cs) : IsValue cs
  | emptyArray {blanks : List Char} (h : IsBlanks blanks) : IsValue ('[' :: (blanks ++ [']']))
  | array {cs : List Char} (h : IsItems cs) : IsValue ('[' :: (cs ++ [']']))
  | emptyObject {blanks : List Char} (h : IsBlanks blanks) : IsValue ('{' :: (blanks ++ ['}']))
  | object {cs : List Char} (h : IsMembers cs) : IsValue ('{' :: (cs ++ ['}']))

/-- Values with commas between them and blanks around them. -/
inductive IsItems : List Char → Prop
  | last {before item after : List Char} (hb : IsBlanks before) (hi : IsValue item) (ha : IsBlanks after) :
      IsItems (before ++ (item ++ after))
  | more {before item after rest : List Char} (hb : IsBlanks before) (hi : IsValue item) (ha : IsBlanks after)
      (hr : IsItems rest) : IsItems (before ++ (item ++ (after ++ ',' :: rest)))

/-- Names with values, with commas between them and blanks around them. -/
inductive IsMembers : List Char → Prop
  | last {before name behind front item after : List Char} (hb : IsBlanks before) (hn : IsQuoted name)
      (hbe : IsBlanks behind) (hf : IsBlanks front) (hi : IsValue item) (ha : IsBlanks after) :
      IsMembers (before ++ (name ++ (behind ++ ':' :: (front ++ (item ++ after)))))
  | more {before name behind front item after rest : List Char} (hb : IsBlanks before) (hn : IsQuoted name)
      (hbe : IsBlanks behind) (hf : IsBlanks front) (hi : IsValue item) (ha : IsBlanks after) (hr : IsMembers rest) :
      IsMembers (before ++ (name ++ (behind ++ ':' :: (front ++ (item ++ (after ++ ',' :: rest))))))

end

/-- A whole JSON text. -/
inductive IsText : List Char → Prop
  | mk {before value after : List Char} (hb : IsBlanks before) (hv : IsValue value) (ha : IsBlanks after) :
      IsText (before ++ (value ++ after))

end Json

namespace Value

mutual

/-- Whether every double in a value is finite. -/
def isStrict : Value → Bool
  | float x => x.isFinite
  | list items => areStrict items
  | dict entries => entriesStrict entries
  | _ => true

/-- Whether `isStrict` holds of every item. -/
def areStrict : List Value → Bool
  | [] => true
  | v :: vs => isStrict v && areStrict vs

/-- Whether `isStrict` holds of every entry's value. -/
def entriesStrict : List (String × Value) → Bool
  | [] => true
  | (_, v) :: es => isStrict v && entriesStrict es

end

theorem areStrict_iff {vs : List Value} : areStrict vs = true ↔ ∀ v ∈ vs, v.isStrict = true := by
  induction vs with
  | nil => simp [areStrict]
  | cons v vs ih => simp [areStrict, ih]

theorem entriesStrict_iff {es : List (String × Value)} :
    entriesStrict es = true ↔ ∀ e ∈ es, e.2.isStrict = true := by
  induction es with
  | nil => simp [entriesStrict]
  | cons e es ih => simp [entriesStrict, ih]

mutual

theorem isStrict_canonical : ∀ {v : Value}, v.isStrict = true → v.canonical.isStrict = true
  | null, _ => rfl
  | bool _, _ => rfl
  | int _, _ => rfl
  | float _, h => h
  | string _, _ => rfl
  | list vs, h => by
    rw [canonical_list, isStrict, areStrict_iff, List.forall_mem_map]
    exact isStrict_canonical_items h
  | dict es, h => by
    rw [canonical_dict, isStrict, entriesStrict_iff, List.forall_mem_map]
    exact fun e he => isStrict_canonical_entries h e ((sortEntries_perm es).mem_iff.1 he)

theorem isStrict_canonical_items : ∀ {vs : List Value}, areStrict vs = true → ∀ v ∈ vs, v.canonical.isStrict = true
  | [], _ => by simp
  | v :: vs, h => by
    rw [areStrict, Bool.and_eq_true] at h
    exact List.forall_mem_cons.2 ⟨isStrict_canonical h.1, isStrict_canonical_items h.2⟩

theorem isStrict_canonical_entries : ∀ {es : List (String × Value)}, entriesStrict es = true →
    ∀ e ∈ es, e.2.canonical.isStrict = true
  | [], _ => by simp
  | (_, v) :: es, h => by
    rw [entriesStrict, Bool.and_eq_true] at h
    exact List.forall_mem_cons.2 ⟨isStrict_canonical h.1, isStrict_canonical_entries h.2⟩

end

end Value

namespace Json

open Value (write writeItems writeEntries writeString newline escapeChar)

/-! ## What the leaves are written as -/

theorem isExponentPart_of_isExponent : ∀ {cs : List Char}, isExponent cs = true → IsExponentPart cs
  | [], _ => .none
  | e :: cs, h => by
    simp only [isExponent, Bool.and_eq_true, Bool.or_eq_true, beq_iff_eq] at h
    obtain ⟨he, hd⟩ := h
    unfold dropSign at hd
    split at hd
    · exact @IsExponentPart.some e ['+'] _ he (by simp) hd
    · exact @IsExponentPart.some e ['-'] _ he (by simp) hd
    · exact @IsExponentPart.some e [] _ he (by simp) hd

/-- The reader's fraction and exponent as two parts. -/
theorem exists_of_isFraction {cs : List Char} (h : isFraction cs = true) :
    ∃ fraction exponent, cs = fraction ++ exponent ∧ IsFractionPart fraction ∧ IsExponentPart exponent := by
  unfold isFraction at h
  split at h
  · rename_i cs
    rw [Bool.and_eq_true] at h
    refine ⟨'.' :: cs.takeWhile Char.isDigit, cs.dropWhile Char.isDigit, ?_, .some h.1,
      isExponentPart_of_isExponent h.2⟩
    rw [List.cons_append, List.takeWhile_append_dropWhile]
  · exact ⟨[], cs, rfl, .none, isExponentPart_of_isExponent h⟩

theorem isNumber_of_unsigned? {negative : Bool} {cs sign : List Char} {v : Json} (h : unsigned? negative cs = some v)
    (hs : sign = [] ∨ sign = ['-']) : IsNumber (sign ++ cs) := by
  simp only [unsigned?] at h
  split at h
  · rename_i hparts
    rw [Bool.and_eq_true] at hparts
    obtain ⟨fraction, exponent, heq, hf, he⟩ := exists_of_isFraction hparts.2
    have hnumber := IsNumber.mk hs hparts.1 hf he
    rwa [← heq, List.takeWhile_append_dropWhile] at hnumber
  · cases h

/-- What the reader takes for a number is one by the grammar. -/
theorem isNumber_of_number? {cs : List Char} {v : Json} (h : number? cs = some v) : IsNumber cs := by
  unfold number? at h
  split at h
  · exact isNumber_of_unsigned? h (.inr rfl)
  · exact isNumber_of_unsigned? h (.inl rfl)

theorem isHex_digitChar : ∀ n < 16, Literal.isHex (Nat.digitChar n) = true := by
  decide

theorem isInside_escapeChar (c : Char) {cs : List Char} (h : IsInside cs) : IsInside (escapeChar c ++ cs) := by
  unfold escapeChar
  split
  case h_8 hq hb _ _ _ _ _ =>
    split
    · rename_i hsmall
      rw [hexPadded_four _ hsmall]
      have hzero : Literal.isHex '0' = true := rfl
      have hhigh := isHex_digitChar (c.toNat / 16) (by omega)
      have hlow := isHex_digitChar (c.toNat % 16) (by omega)
      exact .code (by simp [hzero, hhigh, hlow]) h
    · rename_i hlarge
      exact .plain ⟨hq, hb, by omega⟩ h
  all_goals exact .letter (by decide) h

theorem isInside_escaped : ∀ cs : List Char, IsInside (cs.flatMap escapeChar)
  | [] => .nil
  | c :: cs => by
    rw [List.flatMap_cons]
    exact isInside_escapeChar c (isInside_escaped cs)

theorem isQuoted_writeString (s : String) : IsQuoted (writeString s) := .mk (isInside_escaped s.toList)

theorem isBlanks_nil : IsBlanks [] := by simp [IsBlanks]

theorem isBlanks_space : IsBlanks [' '] := by simp [IsBlanks, isSpace]

theorem isBlanks_newline (level : Nat) : IsBlanks (newline level) := by
  intro c hc
  rcases List.mem_cons.1 hc with rfl | hc
  · rfl
  · rw [(List.mem_replicate.1 hc).2]
    rfl

/-! ## What values are written as -/

mutual

/-- A value without infinite doubles is written as a value of the grammar. -/
theorem isValue_write : ∀ (v : Value) (level : Nat), v.isStrict = true → IsValue (write level v)
  | .null, _, _ => .null
  | .bool true, _, _ => .true
  | .bool false, _, _ => .false
  | .int n, _, _ => .number (isNumber_of_number? (number?_int n))
  | .float (.finite s m e), _, _ => .number (isNumber_of_number? (number?_finite _ s m e))
  | .float (.infinite _), _, h => by cases h
  | .float .nan, _, h => by cases h
  | .string s, _, _ => .text (isQuoted_writeString s)
  | .list [], _, _ => .emptyArray isBlanks_nil
  | .dict [], _, _ => .emptyObject isBlanks_nil
  | .list (v :: vs), level, h => by
    rw [Value.isStrict, Value.areStrict, Bool.and_eq_true] at h
    have hitems := isItems_write vs (level + 1) level h.2 (isValue_write v (level + 1) h.1)
    have harray := IsValue.array hitems
    simpa only [write, List.cons_append, List.append_assoc] using harray
  | .dict ((k, v) :: es), level, h => by
    rw [Value.isStrict, Value.entriesStrict, Bool.and_eq_true] at h
    have hmembers := isMembers_write k es (level + 1) level h.2 (isValue_write v (level + 1) h.1)
    have hobject := IsValue.object hmembers
    simpa only [write, List.cons_append, List.append_assoc, List.nil_append] using hobject

/-- The items of a list from one that is a value on. -/
theorem isItems_write : ∀ (vs : List Value) (level out : Nat) {item : List Char}, Value.areStrict vs = true →
    IsValue item → IsItems (newline level ++ (item ++ (writeItems level vs ++ newline out)))
  | [], level, out, _, _, hi => .last (isBlanks_newline level) hi (isBlanks_newline out)
  | v :: vs, level, out, _, h, hi => by
    rw [Value.areStrict, Bool.and_eq_true] at h
    have hrest := isItems_write vs level out h.2 (isValue_write v level h.1)
    have hitems := IsItems.more (isBlanks_newline level) hi isBlanks_nil hrest
    simpa only [writeItems, List.cons_append, List.append_assoc, List.nil_append] using hitems

/-- The entries of a dictionary from one whose value is written on. -/
theorem isMembers_write : ∀ (k : String) (es : List (String × Value)) (level out : Nat) {item : List Char},
    Value.entriesStrict es = true → IsValue item →
    IsMembers (newline level ++ (writeString k ++ (':' :: ' ' :: (item ++ (writeEntries level es ++ newline out)))))
  | k, [], level, out, _, _, hi =>
    .last (isBlanks_newline level) (isQuoted_writeString k) isBlanks_nil isBlanks_space hi (isBlanks_newline out)
  | k, (k', v) :: es, level, out, _, h, hi => by
    rw [Value.entriesStrict, Bool.and_eq_true] at h
    have hrest := isMembers_write k' es level out h.2 (isValue_write v level h.1)
    have hmembers := IsMembers.more (isBlanks_newline level) (isQuoted_writeString k) isBlanks_nil isBlanks_space hi
      isBlanks_nil hrest
    simpa only [writeEntries, List.cons_append, List.append_assoc, List.nil_append] using hmembers

end

/-- **What is rendered of a strict value is JSON text by the standard.** -/
theorem isText_of_render {v : Value} {text : String} (hv : v.isStrict = true) (h : v.render = .ok text) :
    IsText text.toList := by
  unfold Value.render at h
  split at h
  · cases h
  · cases h
    have hvalue := isValue_write v.canonical 0 (Value.isStrict_canonical hv)
    have hfeed : IsBlanks ['\n'] := by simp [IsBlanks, isSpace]
    rw [String.toList_append, Value.text, String.toList_ofList]
    exact IsText.mk isBlanks_nil hvalue hfeed

end Json

end RequestAtlas
