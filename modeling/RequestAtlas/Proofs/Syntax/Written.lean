import RequestAtlas.Proofs.Syntax.Enclosed
/-!
# Written values parsed as expressions

What a value is written as is an expression of a script, and its tree spells the value (`readsValue_write`): atoms are
single tokens, and lists and dictionaries are items in brackets.  Main statement `value_of_rendered`: the tree that is
read from the text of a value, taken as data, is the canonical copy of the value.
-/

namespace RequestAtlas.Syntax.Parse

open Value (write writeItems writeEntries writeString newline)
open Literal (IsPair SpellsValue isPair_of_parts)

/-! ## Atoms -/

/-- Reading what a value is written as gives a tree that spells the value and holds the text. -/
def ReadsValue (d level : Nat) (v : Value) : Prop :=
  Reads ((Grammar.ofDepth d).expression .bracketed) (write level v) fun n => SpellsValue n v ∧ n.chars = write level v

/-- What is an operand wherever a closer follows is an expression. -/
theorem reads_of_primary {d : Nat} {text : List Char} {P : Node → Prop} {w : Option String} (htext : Begins text)
    (hw : ∀ u ∈ w, u ∉ unaryWords)
    (hahead : ∀ rest o, Closes rest → wordAhead (.before (text ++ rest) o) = some (w, .before (text ++ rest) o))
    (hprimary : Reads (primary (.ofDepth d) .bracketed) text P) :
    Reads ((Grammar.ofDepth (d + 2)).expression .bracketed) text P := by
  intro rest o hrest
  obtain ⟨n, hn, hread⟩ := hprimary rest o hrest
  exact ⟨n, hn, expression_of_primary (htext.append rest) hrest (hahead rest o hrest) hw hread⟩

theorem begins_writeString (s : String) : Begins (writeString s) := ⟨'"', _, rfl, by decide⟩

theorem readsValue_string (d level : Nat) (s : String) : ReadsValue (d + 2) level (.string s) := by
  have hahead : ∀ rest o, wordAhead (.before (writeString s ++ rest) o) =
      some (none, .before (writeString s ++ rest) o) := fun rest o =>
    wordAhead_of_length ((begins_writeString s).append rest).starts rfl o
  refine reads_of_primary (begins_writeString s) (by simp) (fun rest o _ => hahead rest o) fun rest o _ => ?_
  exact ⟨.mk .string none o (writeString s) [], ⟨.string s, rfl⟩, primary_of_quote.trans (string_written s _ o)⟩

theorem isDigit_toString {n : Int} (hn : 0 ≤ n) :
    (∀ c ∈ (toString n).toList, c.isDigit = true) ∧ (toString n).toList ≠ [] := by
  rw [Json.toList_toString_int, if_neg (by omega)]
  exact ⟨List.all_eq_true.1 (Json.toDigits_all _), Nat.toDigits_ne_nil⟩

theorem begins_toString {n : Int} (hn : 0 ≤ n) : Begins (toString n).toList := by
  obtain ⟨hdigits, hne⟩ := isDigit_toString hn
  obtain ⟨c, cs, hcs⟩ := List.exists_cons_of_ne_nil hne
  exact ⟨c, cs, hcs, startsOperand_of_isWordChar (isWordChar_of_isDigit (hdigits c (by rw [hcs]; simp)))⟩

theorem readsValue_int (d level : Nat) {n : Int} (hn : 0 ≤ n) : ReadsValue (d + 2) level (.int n) := by
  obtain ⟨hdigits, hne⟩ := isDigit_toString hn
  obtain ⟨c, ds, hds⟩ := List.exists_cons_of_ne_nil hne
  have hc : c.isDigit = true := hdigits c (by rw [hds]; simp)
  have hstart := fun rest => ((begins_toString hn).append rest).starts
  have hahead : ∀ rest o, wordAhead (.before ((toString n).toList ++ rest) o) =
      some (none, .before ((toString n).toList ++ rest) o) := fun rest o =>
    wordAhead_of_length (hstart rest) (by rw [hds]; exact wordLength_of_isDigit hc _) o
  refine reads_of_primary (begins_toString hn) (by simp) (fun rest o _ => hahead rest o) fun rest o hrest => ?_
  refine ⟨.mk .number none o (toString n).toList [], ⟨.int n, rfl⟩, ?_⟩
  exact (primary_of_digit (hstart rest) (by rw [hds]; rfl) hc).trans (number_digits hdigits hne hrest.ends o)

theorem begins_word {w : String} (hw : IsWord w) : Begins w.toList := by
  obtain ⟨c, cs, hcs, hc, _⟩ := hw.exists_cons
  exact ⟨c, cs, hcs, startsOperand_of_isWordChar hc⟩

/-- The words that stand for a value. -/
theorem readsValue_word {w : String} {kind : Kind} {v : Value} (hw : IsWord w) (hunary : w ∉ unaryWords)
    (hoperand : ∀ g base start, wordOperand g .bracketed base start w = keywordNode kind w)
    (hspells : ∀ o, SpellsValue (.mk kind none o w.toList []) v) (d : Nat) {level : Nat}
    (hwrite : write level v = w.toList) : ReadsValue (d + 2) level v := by
  rw [ReadsValue, hwrite]
  refine reads_of_primary (begins_word hw) (by simpa using hunary)
    (fun _ o hrest => wordAhead_before hw hrest.ends o) fun rest o hrest => ?_
  refine ⟨.mk kind none o w.toList [], ⟨hspells o, rfl⟩, ?_⟩
  obtain ⟨c, cs, hcs, hc, hdigit⟩ := hw.exists_cons
  have hhead : (w.toList ++ rest).head? = some c := by
    rw [hcs]
    rfl
  rw [primary_of_word (hw.starts rest) hhead hdigit hc (wordAhead_before hw hrest.ends o), hoperand,
    keywordNode_before hw kind hrest.ends]

theorem readsValue_null (d level : Nat) : ReadsValue (d + 2) level .null :=
  readsValue_word ⟨by decide, by decide, by decide⟩ (by decide) (fun _ _ _ => rfl) (fun _ => .nullWord) d rfl

theorem readsValue_true (d level : Nat) : ReadsValue (d + 2) level (.bool true) :=
  readsValue_word ⟨by decide, by decide, by decide⟩ (by decide) (fun _ _ _ => rfl) (fun _ => .trueWord) d rfl

theorem readsValue_false (d level : Nat) : ReadsValue (d + 2) level (.bool false) :=
  readsValue_word ⟨by decide, by decide, by decide⟩ (by decide) (fun _ _ _ => rfl) (fun _ => .falseWord) d rfl

/-! ## Elements and pairs -/

theorem spread_of_begins {t : List Char} (h : Begins t) (g : Grammar) (o : Nat) : spread g (.before t o) = none := by
  have hexactly : exactly "..." (.before t o) = none := by
    refine exactly_of_head (by decide) (fun c hc heq => ?_) _
    have hdot : '.' = c := Option.some.inj heq
    exact (startsOperand_iff.1 (h.head c hc)).2.1 hdot.symm
  rw [spread, bind_of_some (here_of_starts h.starts o), bind_of_none hexactly]

theorem reads_element {g : Grammar} {text : List Char} {P : Node → Prop} (htext : Begins text)
    (hread : Reads (g.expression .bracketed) text P) : Reads (spread g <|> g.expression .bracketed) text P := by
  intro rest o hrest
  obtain ⟨n, hn, hexpression⟩ := hread rest o hrest
  exact ⟨n, hn, (orElse_of_none (spread_of_begins (htext.append rest) g o)).trans hexpression⟩

/-- The text of an entry. -/
def entryText (level : Nat) (e : String × Value) : List Char := writeString e.1 ++ (':' :: ' ' :: write level e.2)

/-- The tree of an entry: a pair of the key in quotes and what spells the value. -/
def PairSpells (e : String × Value) (n : Node) : Prop :=
  ∃ m, SpellsValue m e.2 ∧ IsPair e.1 m n

theorem begins_entryText (level : Nat) (e : String × Value) : Begins (entryText level e) :=
  (begins_writeString e.1).append _

theorem shorthand_of_quote (t : List Char) (o : Nat) : shorthand (.before ('"' :: t) o) = none := by
  have hstart : Starts ('"' :: t) := starts_cons rfl t
  have hword : word (.before ('"' :: t) o) = none := word_of_length hstart.plain (by rw [hstart.dropWhile]; rfl) o
  exact bind_of_none ((bind_of_some (here_of_starts hstart o)).trans (bind_of_none hword))

theorem propertyName_written (g : Grammar) (k : String) (rest : List Char) (o : Nat) :
    propertyName g (.before (writeString k ++ rest) o) =
      some (.mk .string none o (writeString k) [], .before rest (o + bytes (writeString k))) := by
  rw [propertyName, bind_of_some (here_of_starts ((begins_writeString k).append rest).starts o)]
  exact string_written k rest o

/-- The colon of an entry and the blank behind it. -/
theorem colon_before {t : List Char} (ht : Begins t) (o : Nat) :
    symbol ":" (.before (':' :: ' ' :: t) o) = some ((), .before (' ' :: t) (o + bytes [':'])) ∧
      leading (.before (' ' :: t) o) = some ((), .before t (o + bytes [' '])) := by
  have hspace : ∀ c ∈ [' '], isBlankBetweenTokens c = true := List.forall_mem_singleton.2 rfl
  have hleading := leading_before (plain_append hspace ht.starts) o
  rw [Cursor.token_append hspace ht.starts] at hleading
  exact ⟨symbol_before (s := ":") (a := []) (by simp) (starts_cons rfl _) o, hleading⟩

theorem reads_pair {g : Grammar} {level : Nat} {e : String × Value} (hvalue : Begins (write level e.2))
    (hread : Reads (g.expression .bracketed) (write level e.2) fun n => SpellsValue n e.2 ∧ n.chars = write level e.2) :
    Reads (pair g) (entryText level e) (PairSpells e) := by
  intro rest o hrest
  obtain ⟨k, v⟩ := e
  have hstart := ((begins_entryText level (k, v)).append rest).starts
  have hkey : propertyName g (.before (entryText level (k, v) ++ rest) o) =
      some (.mk .string none o (writeString k) [],
        .before (':' :: ' ' :: (write level v ++ rest)) (o + bytes (writeString k))) := by
    rw [entryText, List.append_assoc]
    exact propertyName_written g k _ o
  have hcolon := fun o => colon_before (hvalue.append rest) o
  -- the value starts behind the key, the colon and the blank
  obtain ⟨n, ⟨hn, _⟩, hexpression⟩ := hread rest (o + bytes (writeString k) + bytes [':'] + bytes [' ']) hrest
  have hend : o + bytes (writeString k) + bytes [':'] + bytes [' '] + bytes (write level v) =
      o + bytes (entryText level (k, v)) := by
    simp only [entryText, bytes_append, bytes_cons, bytes_nil]
    omega
  rw [hend] at hexpression
  refine ⟨.mk .pair none o (entryText level (k, v)) [.mk .string (some .key) o (writeString k) [], n.withRole .value],
    ⟨n, hn, isPair_of_parts none o o _ k n⟩, ?_⟩
  rw [pair, bind_of_some (here_of_starts hstart o), bind_of_some hkey, bind_of_some (hcolon _).1,
    bind_of_some (hcolon _).2, bind_of_some hexpression, node_before]
  rfl

/-- An entry is read as a pair, and as nothing else that an object may hold. -/
theorem reads_property {g : Grammar} {level : Nat} {e : String × Value} (hvalue : Begins (write level e.2))
    (hread : Reads (g.expression .bracketed) (write level e.2) fun n => SpellsValue n e.2 ∧ n.chars = write level e.2) :
    Reads (firstOf [spread g, shorthand, pair g, objectMethod g]) (entryText level e) (PairSpells e) := by
  intro rest o hrest
  obtain ⟨n, hn, hpair⟩ := reads_pair hvalue hread rest o hrest
  have hspread := spread_of_begins ((begins_entryText level e).append rest) g o
  have hshorthand : shorthand (.before (entryText level e ++ rest) o) = none := shorthand_of_quote _ o
  refine ⟨n, hn, ?_⟩
  rw [firstOf, orElse_of_none hspread, firstOf, orElse_of_none hshorthand, firstOf, orElse_of_some hpair]

/-! ## Lists and dictionaries -/

theorem writeItems_eq (level : Nat) (vs : List Value) :
    writeItems level vs = vs.flatMap fun v => ',' :: (newline level ++ write level v) := by
  induction vs with
  | nil => rfl
  | cons v vs ih =>
    rw [writeItems, ih, List.flatMap_cons]
    rfl

theorem isBlank_newline (level : Nat) : ∀ c ∈ newline level, isBlankBetweenTokens c = true := by
  intro c hc
  rcases List.mem_cons.1 hc with rfl | hc
  · decide
  · rw [List.eq_of_mem_replicate hc]
    decide

theorem writeEntries_eq (level : Nat) (es : List (String × Value)) :
    writeEntries level es = es.flatMap fun e => ',' :: (newline level ++ entryText level e) := by
  induction es with
  | nil => rfl
  | cons e es ih =>
    rw [writeEntries, ih, List.flatMap_cons]
    simp [entryText]

/-- The text of a list with items is that of its items in brackets. -/
theorem write_list (level : Nat) (v : Value) (vs : List Value) : write level (.list (v :: vs)) =
    enclosedText '[' ']' (newline (level + 1)) (newline level) (write (level + 1)) v vs := by
  rw [write, writeItems_eq]
  simp [enclosedText]

/-- The text of a dictionary with entries is that of its entries in braces. -/
theorem write_dict (level : Nat) (e : String × Value) (es : List (String × Value)) : write level (.dict (e :: es)) =
    enclosedText '\x7b' '\x7d' (newline (level + 1)) (newline level) (entryText (level + 1)) e es := by
  obtain ⟨k, v⟩ := e
  rw [write, writeEntries_eq]
  simp [enclosedText, entryText]

/-- A literal that no equals sign follows is what it is. -/
theorem literalOrPattern_of_closes {g : Grammar} {literal : Parse Node} {c : Cursor} {n : Node} {rest : List Char}
    {o : Nat} (hrest : Closes rest) (h : literal c = some (n, .before rest o)) :
    literalOrPattern g literal c = some (n, .before rest o) := by
  have hpeeks : peeks (symbolNot "=" "=>") (.before rest o) = some (false, .before rest o) := by
    rw [peeks, symbolNot_of_closes hrest o (by decide)]
    rfl
  exact orElse_of_some ((bind_of_some h).trans (bind_of_some hpeeks))

/-- A literal in brackets is an expression. -/
theorem expression_of_enclosed {d : Nat} {c : Char} {t rest : List Char} {n : Node} {o o' : Nat}
    (hc : c = '[' ∧ array (.ofDepth d) (.before (c :: t) o) = some (n, .before rest o') ∨
      c = '\x7b' ∧ object (.ofDepth d) (.before (c :: t) o) = some (n, .before rest o')) (hrest : Closes rest) :
    (Grammar.ofDepth (d + 2)).expression .bracketed (.before (c :: t) o) = some (n, .before rest o') := by
  have hbegins : Begins (c :: t) := ⟨c, t, rfl, by rcases hc with ⟨rfl, _⟩ | ⟨rfl, _⟩ <;> decide⟩
  have hahead : wordAhead (.before (c :: t) o) = some (none, .before (c :: t) o) := by
    refine wordAhead_of_length hbegins.starts ?_ o
    rcases hc with ⟨rfl, _⟩ | ⟨rfl, _⟩ <;> rfl
  refine expression_of_primary hbegins hrest hahead (by simp) ?_
  rcases hc with ⟨rfl, h⟩ | ⟨rfl, h⟩
  · exact primary_of_bracket.trans (literalOrPattern_of_closes hrest h)
  · exact primary_of_brace.trans (literalOrPattern_of_closes hrest h)

theorem readsValue_list {d level : Nat} {vs : List Value} (hbegins : ∀ v ∈ vs, Begins (write (level + 1) v))
    (h : ∀ v ∈ vs, ReadsValue d (level + 1) v) : ReadsValue (d + 2) level (.list vs) := by
  intro rest o hrest
  cases vs with
  | nil =>
    have harray : array (.ofDepth d) (.before (write level (.list []) ++ rest) o) =
        some (.mk .array none o (write level (.list [])) [], .before rest (o + bytes (write level (.list [])))) :=
      enclosed_empty rfl rfl rfl rfl (by decide) .array (fun rest o => element_of_isCloser rfl rest o d) rest o
    exact ⟨_, ⟨@SpellsValue.list none o _ [] [] .none (by simp), rfl⟩,
      expression_of_enclosed (.inl ⟨rfl, harray⟩) hrest⟩
  | cons v vs =>
    have hitems : ∀ w ∈ v :: vs, Begins (write (level + 1) w) ∧
        Reads (spread (.ofDepth d) <|> (Grammar.ofDepth d).expression .bracketed) (write (level + 1) w)
          fun n => SpellsValue n w ∧ n.chars = write (level + 1) w := fun w hw =>
      ⟨hbegins w hw, reads_element (hbegins w hw) (h w hw)⟩
    obtain ⟨children, parts, hchildren, hparts, hspells, harray⟩ :=
      enclosed_of_reads (rfl : "[".toList = ['[']) (rfl : "]".toList = [']']) rfl rfl (by decide) .array
        (isBlank_newline (level + 1)) (isBlank_newline level) hitems (write_list level v vs) rest o
    refine ⟨_, ⟨?_, rfl⟩, expression_of_enclosed (.inl ⟨rfl, harray⟩) hrest⟩
    rw [← hparts]
    have hnamed : ∀ n ∈ parts.map (·.1), n.isNamed = true :=
      List.forall_mem_map.2 fun p hp => (hspells p hp).1.isNamed
    exact .list (hchildren.unmarked hnamed) fun p hp => (hspells p hp).1

theorem readsValue_dict {d level : Nat} {es : List (String × Value)}
    (hbegins : ∀ e ∈ es, Begins (write (level + 1) e.2))
    (h : ∀ e ∈ es, ReadsValue d (level + 1) e.2) : ReadsValue (d + 2) level (.dict es) := by
  intro rest o hrest
  cases es with
  | nil =>
    have hobject : object (.ofDepth d) (.before (write level (.dict []) ++ rest) o) =
        some (.mk .object none o (write level (.dict [])) [], .before rest (o + bytes (write level (.dict [])))) :=
      enclosed_empty rfl rfl rfl rfl (by decide) .object (fun rest o => property_of_isCloser rfl rest o (.ofDepth d))
        rest o
    exact ⟨_, ⟨@SpellsValue.dict none o _ [] [] .none (by simp) (by simp), rfl⟩,
      expression_of_enclosed (.inr ⟨rfl, hobject⟩) hrest⟩
  | cons e es =>
    have hitems : ∀ f ∈ e :: es, Begins (entryText (level + 1) f) ∧
        Reads (firstOf [spread (.ofDepth d), shorthand, pair (.ofDepth d), objectMethod (.ofDepth d)])
          (entryText (level + 1) f) (PairSpells f) := fun f hf =>
      ⟨begins_entryText (level + 1) f, reads_property (hbegins f hf) (h f hf)⟩
    obtain ⟨children, parts, hchildren, hparts, hspells, hobject⟩ :=
      enclosed_of_reads (rfl : "\x7b".toList = ['\x7b']) (rfl : "\x7d".toList = ['\x7d']) rfl rfl (by decide) .object
        (isBlank_newline (level + 1)) (isBlank_newline level) hitems (write_dict level e es) rest o
    -- each pair with the tree that its value is read as
    choose! m hm hpair using hspells
    let nodes := parts.map fun p => (p.1, p.2.1, m p, p.2.2)
    have hnodes : nodes.map (·.1) = parts.map (·.1) := List.map_map
    have hentries : nodes.map (fun p => (p.2.1, p.2.2.2)) = e :: es := List.map_map.trans hparts
    refine ⟨_, ⟨?_, rfl⟩, expression_of_enclosed (.inr ⟨rfl, hobject⟩) hrest⟩
    rw [← hentries]
    have hnamed : ∀ n ∈ parts.map (·.1), n.isNamed = true :=
      List.forall_mem_map.2 fun p hp => (hpair p hp).isNamed
    exact .dict (hnodes ▸ hchildren.unmarked hnamed) (List.forall_mem_map.2 hpair) (List.forall_mem_map.2 hm)

/-! ## Values -/

/-- An operand starts what an exact value is written as. -/
theorem begins_write {level : Nat} : ∀ {v : Value}, v.isExact = true → Begins (write level v)
  | .null, _ => ⟨'n', _, rfl, by decide⟩
  | .bool true, _ => ⟨'t', _, rfl, by decide⟩
  | .bool false, _ => ⟨'f', _, rfl, by decide⟩
  | .int n, h => by
    simp only [Value.isExact, Bool.and_eq_true, decide_eq_true_eq] at h
    exact begins_toString h.1
  | .string s, _ => begins_writeString s
  | .list [], _ => ⟨'[', _, rfl, by decide⟩
  | .list (v :: vs), _ => ⟨'[', _, write_list level v vs, by decide⟩
  | .dict [], _ => ⟨'\x7b', _, rfl, by decide⟩
  | .dict (e :: es), _ => ⟨'\x7b', _, write_dict level e es, by decide⟩

theorem length_write_list (level : Nat) (vs : List Value) :
    ∀ v ∈ vs, (write (level + 1) v).length + 2 ≤ (write level (.list vs)).length := by
  cases vs with
  | nil => simp
  | cons v vs =>
    rw [write_list]
    exact length_le_enclosedText _ _ _ _ (write (level + 1))

theorem length_write_dict (level : Nat) (es : List (String × Value)) :
    ∀ e ∈ es, (write (level + 1) e.2).length + 2 ≤ (write level (.dict es)).length := by
  cases es with
  | nil => simp
  | cons e es =>
    intro f hf
    have hle := length_le_enclosedText '\x7b' '\x7d' (newline (level + 1)) (newline level) (entryText (level + 1)) f hf
    rw [write_dict]
    simp only [entryText, List.length_append, List.length_cons] at hle
    omega

mutual

/-- **What an exact value is written as is read as a tree that spells it.**  A pair of brackets takes two levels of the
grammar, and two characters. -/
theorem readsValue_write : ∀ {v : Value} (level : Nat) {d : Nat}, v.isExact = true →
    2 * (write level v).length ≤ d + 2 → ReadsValue (d + 2) level v
  | .null, level, d, _, _ => readsValue_null d level
  | .bool true, level, d, _, _ => readsValue_true d level
  | .bool false, level, d, _, _ => readsValue_false d level
  | .int n, level, d, h, _ => by
    simp only [Value.isExact, Bool.and_eq_true, decide_eq_true_eq] at h
    exact readsValue_int d level h.1
  | .string s, level, d, _, _ => readsValue_string d level s
  | .list vs, level, d, h, hd => by
    refine readsValue_list (fun v hv => begins_write (Value.areExact_iff.1 h v hv)) ?_
    refine readsValue_items (level + 1) h fun v hv => ?_
    have hle := length_write_list level vs v hv
    omega
  | .dict es, level, d, h, hd => by
    refine readsValue_dict (fun e he => begins_write (Value.entriesExact_iff.1 h e he)) ?_
    refine readsValue_entries (level + 1) h fun e he => ?_
    have hle := length_write_dict level es e he
    omega

theorem readsValue_items : ∀ {vs : List Value} (level : Nat) {d : Nat}, Value.areExact vs = true →
    (∀ v ∈ vs, 2 * (write level v).length + 2 ≤ d) → ∀ v ∈ vs, ReadsValue d level v
  | [], _, _, _, _ => by simp
  | v :: vs, level, d, h, hd => by
    rw [Value.areExact, Bool.and_eq_true] at h
    rw [List.forall_mem_cons] at hd ⊢
    refine ⟨?_, readsValue_items level h.2 hd.2⟩
    obtain ⟨e, rfl⟩ := Nat.exists_eq_add_of_le' (Nat.le_trans (Nat.le_add_left 2 _) hd.1)
    exact readsValue_write level h.1 (Nat.le_trans (Nat.le_add_right _ 2) hd.1)

theorem readsValue_entries : ∀ {es : List (String × Value)} (level : Nat) {d : Nat}, Value.entriesExact es = true →
    (∀ e ∈ es, 2 * (write level e.2).length + 2 ≤ d) → ∀ e ∈ es, ReadsValue d level e.2
  | [], _, _, _, _ => by simp
  | (k, v) :: es, level, d, h, hd => by
    rw [Value.entriesExact, Bool.and_eq_true] at h
    rw [List.forall_mem_cons] at hd ⊢
    refine ⟨?_, readsValue_entries level h.2 hd.2⟩
    obtain ⟨e, rfl⟩ := Nat.exists_eq_add_of_le' (Nat.le_trans (Nat.le_add_left 2 _) hd.1)
    exact readsValue_write level h.1 (Nat.le_trans (Nat.le_add_right _ 2) hd.1)

end

/-! ## Values read back -/

/-- **What is written for a value is read back as its canonical copy.**  For a value of nothing, truth values, texts,
integers from zero to `2 ^ 53`, lists, and dictionaries with distinct keys: it has a text, the text is an expression up
to the line feed at its end, and the tree of that expression, read as data, is the canonical copy of the value, as is
every tree that spells it. -/
theorem value_of_rendered {v : Value} (hexact : v.isExact = true) (hkeys : v.distinctKeys = true) :
    ∃ source, v.render = .ok source ∧
      (∃ tree stop,
        expression (.ofDepth (Grammar.depthFor source.length)) .bracketed (.ofString source) = some (tree, stop) ∧
        tree.text ++ "\n" = source ∧ stop.rest = ['\n'] ∧ SpellsValue tree v.canonical ∧
        Literal.value tree = v.canonical) ∧
      ∀ tree, SpellsValue tree v.canonical → Literal.value tree = v.canonical := by
  have hvalue : ∀ tree, SpellsValue tree v.canonical → Literal.value tree = v.canonical := fun tree htree =>
    Literal.value_of_spells htree (Value.isExact_canonical hexact) (Value.distinctKeys_canonical hkeys)
  refine ⟨v.text ++ "\n", Value.render_of_short (Value.hasLong_of_isExact hexact), ?_, hvalue⟩
  have htext : (v.text ++ "\n").toList = write 0 v.canonical ++ ['\n'] := by
    rw [String.toList_append, Value.text, String.toList_ofList]
    rfl
  have hdepth : 2 * (write 0 v.canonical).length ≤ 4 * (v.text ++ "\n").length + 15 + 2 := by
    rw [← String.length_toList, htext, List.length_append]
    omega
  -- behind the text only the line feed is left
  have hcloses : Closes ['\n'] := by
    intro c hc
    cases hc
  obtain ⟨tree, ⟨hspells, hchars⟩, hread⟩ :=
    readsValue_write 0 (Value.isExact_canonical hexact) hdepth _ 0 hcloses
  refine ⟨tree, .before ['\n'] (0 + bytes (write 0 v.canonical)), ?_, ?_, rfl, hspells, hvalue tree hspells⟩
  · rw [Cursor.ofString, htext]
    exact hread
  · rw [Node.text, hchars]
    rfl

/-- A dictionary with a list, an escaped text and its keys out of order. -/
theorem value_of_rendered_nested : ∃ source,
    (Value.dict [("b", .list [.int 7, .null, .dict []]), ("a", .string "\"\n\\")]).render = .ok source ∧
      ∃ tree stop,
        expression (.ofDepth (Grammar.depthFor source.length)) .bracketed (.ofString source) = some (tree, stop) ∧
        Literal.value tree = .dict [("a", .string "\"\n\\"), ("b", .list [.int 7, .null, .dict []])] := by
  obtain ⟨source, hsource, ⟨tree, stop, hread, _, _, _, hvalue⟩, _⟩ :=
    @value_of_rendered (.dict [("b", .list [.int 7, .null, .dict []]), ("a", .string "\"\n\\")]) (by decide) (by decide)
  have hba : Value.keyLe "b" "a" = false := by decide
  refine ⟨source, hsource, tree, stop, hread, hvalue.trans ?_⟩
  simp [Value.canonical, Value.canonicalList, Value.canonicalEntries, Value.sortEntries, List.mergeSort, hba]

end RequestAtlas.Syntax.Parse
