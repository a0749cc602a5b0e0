import RequestAtlas.Proofs.Literal.ReadBack
import RequestAtlas.Proofs.Syntax.Closing
/-!
# Items between commas in brackets

`Reads p text P` says that a step reads a text as a node with a property, wherever the text is followed by a closer.
From steps that read each item so, `enclosed_of_reads` reads all of them with the commas and blanks between them and
the brackets around.
-/

namespace RequestAtlas.Syntax.Parse

open Literal (Separated)

/-- A step reads a text as a node with a property, whatever follows and closes. -/
def Reads (p : Parse Node) (text : List Char) (P : Node → Prop) : Prop :=
  ∀ (rest : List Char) (o : Nat), Closes rest →
    ∃ n, P n ∧ p (.before (text ++ rest) o) = some (n, .before rest (o + bytes text))

/-! ## Lists of items -/

/-- The text behind an item: further items behind commas, then the bracket that closes. -/
def furtherItems {α : Type} (a b : List Char) (close : Char) (text : α → List Char) (rest : List Char) (xs : List α) :
    List Char :=
  xs.flatMap (fun x => ',' :: (a ++ text x)) ++ (b ++ close :: rest)

section
variable {item : Parse Node} {a b : List Char} (rest : List Char) {close : Char}
  (ha : ∀ c ∈ a, isBlankBetweenTokens c = true) (hb : ∀ c ∈ b, isBlankBetweenTokens c = true)
  (hclose : isCloser close = true)

include ha in
theorem slot_of_reads {text : List Char} {P : Node → Prop} (htext : Begins text) (hread : Reads item text P)
    (hrest : Closes rest) (o : Nat) : ∃ n, P n ∧ slot item (.before (a ++ (text ++ rest)) o) =
      some ([n], .token rest (o + bytes a + bytes text)) := by
  obtain ⟨n, hn, hitem⟩ := hread rest (o + bytes a) hrest
  have hstart := (htext.append rest).starts
  refine ⟨n, hn, ?_⟩
  rw [slot, bind_of_some (comments_before (plain_append ha hstart) true o), Cursor.token_append ha hstart,
    bind_of_some (maybe_of_some hitem), bind_of_some (comments_before hrest.plain false _)]
  rfl

include hb hclose in
theorem closes_furtherItems {α : Type} {text : α → List Char} (xs : List α) :
    Closes (furtherItems a b close text rest xs) := by
  cases xs with
  | nil =>
    have hstart := starts_of_isCloser hclose rest
    rw [furtherItems, List.flatMap_nil, List.nil_append, Closes, List.dropWhile_append_of_pos hb, hstart.dropWhile]
    intro c hc
    cases hc
    exact hclose
  | cons x xs =>
    intro c hc
    cases hc
    rfl

/-- A comma and what stands in the next place. -/
def commaAndSlot (item : Parse Node) : Parse (List Node) := do
  let comma ← tokenNode ","
  return comma :: (← slot item)

/-- No further item comes where a bracket closes. -/
theorem commaAndSlot_of_ne {c : Char} (hc : isCloser c = true) (hne : c ≠ ',') (rest : List Char) (o : Nat) :
    commaAndSlot item (.before (c :: rest) o) = none := by
  have hexactly : exactly "," (.before (c :: rest) o) = none := by
    refine exactly_of_head (by decide) (fun d hd heq => ?_) _
    cases hd
    have hhead : some ',' = some c := heq
    exact hne (Option.some.inj hhead).symm
  exact bind_of_none ((bind_of_some (here_of_starts (starts_of_isCloser hc rest) o)).trans (bind_of_none hexactly))

include ha hb hclose in
/-- One further item with the comma in front of it. -/
theorem commaAndSlot_of_reads {α : Type} {text : α → List Char} {P : Node → Prop} {x : α} {xs : List α}
    (htext : Begins (text x)) (hread : Reads item (text x) P) (o : Nat) :
    ∃ comma n, comma.kind = .token "," ∧ P n ∧
      commaAndSlot item (.before (furtherItems a b close text rest (x :: xs)) o) =
        some ([comma, n], .token (furtherItems a b close text rest xs) (o + bytes (',' :: (a ++ text x)))) := by
  have hsplit : furtherItems a b close text rest (x :: xs) =
      ",".toList ++ (a ++ (text x ++ furtherItems a b close text rest xs)) := by
    simp [furtherItems]
  have hcomma : Starts (",".toList ++ (a ++ (text x ++ furtherItems a b close text rest xs))) :=
    starts_of_isCloser (c := ',') rfl _
  have hfurther : Closes (furtherItems a b close text rest xs) := closes_furtherItems rest hb hclose xs
  obtain ⟨n, hn, hslot⟩ := slot_of_reads _ ha htext hread hfurther (o + bytes ",".toList)
  refine ⟨.mk (.token ",") none o ",".toList [], n, rfl, hn, ?_⟩
  have hoffset : o + bytes (',' :: (a ++ text x)) = o + bytes ",".toList + bytes a + bytes (text x) := by
    rw [bytes_cons, bytes_append]
    show _ = o + (','.utf8Size + 0) + bytes a + bytes (text x)
    omega
  rw [hsplit, commaAndSlot, bind_of_some (tokenNode_before hcomma o), bind_of_some hslot, hoffset]
  rfl

include ha hb hclose in
/-- All further items: where reading starts, a comma or the bracket comes next. -/
theorem many_of_reads {α : Type} {text : α → List Char} {P : α → Node → Prop} (hne : close ≠ ',') : ∀ {xs : List α},
    (∀ x ∈ xs, Begins (text x) ∧ Reads item (text x) (P x)) → ∀ {fuel : Nat}, xs.length < fuel →
    ∀ (acc : List (List Node)) (o : Nat), ∃ pieces : List (Node × Node × α), pieces.map (·.2.2) = xs ∧
      (∀ p ∈ pieces, p.1.kind = .token "," ∧ P p.2.2 p.2.1) ∧
      many.go (commaAndSlot item) fuel acc (.token (furtherItems a b close text rest xs) o) =
        (acc.reverse ++ pieces.map (fun p => [p.1, p.2.1]),
          .before (close :: rest) (o + bytes (xs.flatMap fun x => ',' :: (a ++ text x)) + bytes b))
  | [], _, fuel + 1, _, acc, o => by
    have hstart := starts_of_isCloser hclose rest
    have htoken : Cursor.token (furtherItems a b close text rest []) o = .before (close :: rest) (o + bytes b) := by
      rw [furtherItems, List.flatMap_nil, List.nil_append, Cursor.token_append hb hstart]
    have hcomma := @commaAndSlot_of_ne item _ hclose hne rest (o + bytes b)
    refine ⟨[], rfl, by simp, ?_⟩
    rw [htoken, many_go_of_none hcomma]
    simp [bytes]
  | x :: xs, h, fuel + 1, hfuel, acc, o => by
    rw [List.forall_mem_cons] at h
    -- a comma comes next, so the step is taken where it stands, and it gets ahead
    have hstart : Starts (furtherItems a b close text rest (x :: xs)) := starts_of_isCloser (c := ',') rfl _
    obtain ⟨comma, n, hcomma, hn, hstep⟩ := commaAndSlot_of_reads rest ha hb hclose h.1.1 h.1.2 o
    obtain ⟨pieces, hmap, hpieces, hmany⟩ := many_of_reads hne h.2 (Nat.lt_of_succ_lt_succ hfuel) ([comma, n] :: acc)
      (o + bytes (',' :: (a ++ text x)))
    refine ⟨(comma, n, x) :: pieces, by rw [List.map_cons, hmap], List.forall_mem_cons.2 ⟨⟨hcomma, hn⟩, hpieces⟩, ?_⟩
    have hlt : (Cursor.before (furtherItems a b close text rest (x :: xs)) o).offset <
        (Cursor.token (furtherItems a b close text rest xs) (o + bytes (',' :: (a ++ text x)))).offset := by
      have hpos := ','.utf8Size_pos
      show o < o + bytes (',' :: (a ++ text x)) + _
      rw [bytes_cons]
      omega
    rw [Cursor.token_of_starts hstart, many_go_of_some hstep hlt, hmany, List.flatMap_cons, bytes_append,
      List.reverse_cons, List.append_assoc, ← Nat.add_assoc]
    rfl

theorem separated_pieces {α : Type} : ∀ {pieces : List (Node × Node × α)} (n : Node),
    (∀ p ∈ pieces, p.1.kind = .token ",") →
    Separated (n :: (pieces.map fun p => [p.1, p.2.1]).flatten) (n :: pieces.map (·.2.1))
  | [], n, _ => .one n
  | (comma, m, _) :: pieces, n, h => by
    rw [List.forall_mem_cons] at h
    exact .more h.1 (separated_pieces m h.2)

theorem length_le_furtherItems {α : Type} (text : α → List Char) (xs : List α) :
    xs.length ≤ (furtherItems a b close text rest xs).length := by
  induction xs with
  | nil => exact Nat.zero_le _
  | cons x xs ih =>
    simp only [furtherItems, List.flatMap_cons, List.length_append, List.length_cons] at ih ⊢
    omega

include ha hb hclose in
/-- **Items between commas are read as they are written.** -/
theorem slots_of_reads {α : Type} {text : α → List Char} {P : α → Node → Prop} (hne : close ≠ ',') {x : α} {xs : List α}
    (h : ∀ y ∈ x :: xs, Begins (text y) ∧ Reads item (text y) (P y)) (o : Nat) :
    ∃ (children : List Node) (parts : List (Node × α)), Separated children (parts.map (·.1)) ∧
      parts.map (·.2) = x :: xs ∧ (∀ p ∈ parts, P p.2 p.1) ∧
      slots item (.before (a ++ (text x ++ furtherItems a b close text rest xs)) o) =
        some (children, .before (close :: rest)
          (o + bytes (a ++ (text x ++ (xs.flatMap (fun y => ',' :: (a ++ text y)) ++ b))))) := by
  rw [List.forall_mem_cons] at h
  obtain ⟨n, hn, hslot⟩ := slot_of_reads _ ha h.1.1 h.1.2 (closes_furtherItems (a := a) rest hb hclose xs) o
  have hfuel : xs.length <
      (Cursor.token (furtherItems a b close text rest xs) (o + bytes a + bytes (text x))).left + 1 := by
    cases xs with
    | nil => exact Nat.succ_pos _
    | cons y xs =>
      have hstart : Starts (furtherItems a b close text rest (y :: xs)) := starts_of_isCloser (c := ',') rfl _
      rw [Cursor.token_of_starts hstart]
      exact Nat.lt_succ_of_le (length_le_furtherItems rest text (y :: xs))
  obtain ⟨pieces, hmap, hpieces, hmany⟩ :=
    many_of_reads rest ha hb hclose hne h.2 hfuel [] (o + bytes a + bytes (text x))
  refine ⟨n :: (pieces.map fun p => [p.1, p.2.1]).flatten, (n, x) :: pieces.map (·.2), ?_, ?_, ?_, ?_⟩
  · rw [List.map_cons, List.map_map]
    exact separated_pieces n fun p hp => (hpieces p hp).1
  · rw [List.map_cons, List.map_map, ← hmap]
    rfl
  · exact List.forall_mem_cons.2 ⟨hn, List.forall_mem_map.2 fun p hp => (hpieces p hp).2⟩
  · have hrest : many (commaAndSlot item)
        (.token (furtherItems a b close text rest xs) (o + bytes a + bytes (text x))) =
        some (pieces.map (fun p => [p.1, p.2.1]), .before (close :: rest)
          (o + bytes (a ++ (text x ++ (xs.flatMap (fun y => ',' :: (a ++ text y)) ++ b))))) := by
      rw [many, hmany]
      simp only [List.reverse_nil, List.nil_append, bytes_append, Nat.add_assoc]
    rw [slots, bind_of_some hslot]
    exact bind_of_some hrest

end

/-! ## Brackets -/

/-- The text of items in brackets, each behind blanks `a`, and the closing bracket behind blanks `b`. -/
def enclosedText {α : Type} (first close : Char) (a b : List Char) (text : α → List Char) (x : α) (xs : List α) :
    List Char :=
  first :: (a ++ (text x ++ (xs.flatMap (fun y => ',' :: (a ++ text y)) ++ (b ++ [close]))))

/-- The brackets are no part of any item. -/
theorem length_le_enclosedText {α : Type} (first close : Char) (a b : List Char) (text : α → List Char) {x : α}
    {xs : List α} : ∀ y ∈ x :: xs, (text y).length + 2 ≤ (enclosedText first close a b text x xs).length := by
  intro y hy
  simp only [enclosedText, List.length_cons, List.length_append, List.length_nil]
  rcases List.mem_cons.1 hy with rfl | hy
  · omega
  · have hmem : ',' :: (a ++ text y) ∈ xs.map fun z => ',' :: (a ++ text z) := List.mem_map_of_mem hy
    have hle := (List.infix_of_mem_flatten hmem).length_le
    rw [← List.flatMap_def, List.length_cons, List.length_append] at hle
    omega

/-- Items between commas in brackets. -/
def enclosed (opening closing : String) (kind : Kind) (item : Parse Node) : Parse Node := do
  let start ← here
  exactly opening
  let items ← slots item
  symbol closing
  node kind start items

section
variable {opening closing : String} {first close : Char} (hopening : opening.toList = [first])
  (hclosing : closing.toList = [close]) (hfirst : startsToken first = true) (hclose : isCloser close = true)
  (hne : close ≠ ',') (kind : Kind) {item : Parse Node}

include hclosing hclose in
theorem symbol_of_closer (rest : List Char) (o : Nat) :
    symbol closing (.before (close :: rest) o) = some ((), .before rest (o + bytes closing.toList)) := by
  have hstart : Starts (closing.toList ++ rest) := by
    rw [hclosing]
    exact starts_of_isCloser hclose rest
  have hsymbol := symbol_before (a := []) (by simp) hstart o
  rwa [hclosing] at hsymbol ⊢

include hopening hclosing hfirst hclose hne

/-- **Items in brackets are read as they are written.** -/
theorem enclosed_of_reads {a b : List Char} (ha : ∀ c ∈ a, isBlankBetweenTokens c = true)
    (hb : ∀ c ∈ b, isBlankBetweenTokens c = true) {α : Type} {text : α → List Char} {P : α → Node → Prop} {x : α}
    {xs : List α} (h : ∀ y ∈ x :: xs, Begins (text y) ∧ Reads item (text y) (P y)) {whole : List Char}
    (hwhole : whole = enclosedText first close a b text x xs) (rest : List Char) (o : Nat) :
    ∃ (children : List Node) (parts : List (Node × α)), Separated children (parts.map (·.1)) ∧
      parts.map (·.2) = x :: xs ∧ (∀ p ∈ parts, P p.2 p.1) ∧
      enclosed opening closing kind item (.before (whole ++ rest) o) =
        some (.mk kind none o whole children, .before rest (o + bytes whole)) := by
  obtain ⟨children, parts, hchildren, hparts, hP, hslots⟩ :=
    slots_of_reads rest ha hb hclose hne h (o + bytes opening.toList)
  refine ⟨children, parts, hchildren, hparts, hP, ?_⟩
  have htext : whole ++ rest = opening.toList ++ (a ++ (text x ++ furtherItems a b close text rest xs)) := by
    rw [hwhole, hopening]
    simp [enclosedText, furtherItems]
  have hstart : Starts (whole ++ rest) := by
    rw [hwhole]
    intro c hc
    cases hc
    exact hfirst
  have hsymbol := symbol_of_closer hclosing hclose rest
  have hend : o + bytes opening.toList +
      bytes (a ++ (text x ++ (xs.flatMap (fun y => ',' :: (a ++ text y)) ++ b))) + bytes closing.toList =
      o + bytes whole := by
    rw [hwhole, hopening, hclosing]
    simp only [enclosedText, bytes_append, bytes_cons, bytes_nil]
    omega
  rw [enclosed, bind_of_some (here_of_starts hstart o)]
  have hexactly : exactly opening (.before (whole ++ rest) o) =
      some ((), .before (a ++ (text x ++ furtherItems a b close text rest xs)) (o + bytes opening.toList)) := by
    rw [htext, exactly_before]
  rw [bind_of_some hexactly, bind_of_some hslots, bind_of_some (hsymbol _), hend, node_before]

theorem enclosed_empty (hitem : ∀ rest o, item (.before (close :: rest) o) = none) (rest : List Char) (o : Nat) :
    enclosed opening closing kind item (.before ([first, close] ++ rest) o) =
      some (.mk kind none o [first, close] [], .before rest (o + bytes [first, close])) := by
  have hstart : Starts ([first, close] ++ rest) := by
    intro c hc
    cases hc
    exact hfirst
  have hinner : Starts (close :: rest) := starts_of_isCloser hclose rest
  have hslots : slots item (.before (close :: rest) (o + bytes opening.toList)) =
      some ([], .before (close :: rest) (o + bytes opening.toList)) := by
    have hslot : slot item (.before (close :: rest) (o + bytes opening.toList)) =
        some ([], .before (close :: rest) (o + bytes opening.toList)) := by
      have hcomments := fun markup => (comments_before hinner.plain markup (o + bytes opening.toList)).trans
        (by rw [Cursor.token_of_starts hinner])
      rw [slot, bind_of_some (hcomments true), bind_of_some (maybe_of_none (hitem rest _)),
        bind_of_some (hcomments false)]
      rfl
    have hmany : many (commaAndSlot item) (.before (close :: rest) (o + bytes opening.toList)) =
        some ([], .before (close :: rest) (o + bytes opening.toList)) := by
      rw [many, many_go_of_none (commaAndSlot_of_ne hclose hne rest _)]
      rfl
    rw [slots, bind_of_some hslot]
    exact bind_of_some hmany
  have hexactly : exactly opening (.before ([first, close] ++ rest) o) =
      some ((), .before (close :: rest) (o + bytes opening.toList)) := by
    have hread := exactly_before opening (close :: rest) o
    rwa [hopening] at hread ⊢
  have hend : o + bytes opening.toList + bytes closing.toList = o + bytes [first, close] := by
    rw [hopening, hclosing]
    simp only [bytes_cons, bytes_nil]
    omega
  rw [enclosed, bind_of_some (here_of_starts hstart o), bind_of_some hexactly, bind_of_some hslots,
    bind_of_some (symbol_of_closer hclosing hclose rest _), hend, node_before]

end

end RequestAtlas.Syntax.Parse
