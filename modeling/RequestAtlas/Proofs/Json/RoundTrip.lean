import RequestAtlas.Proofs.Entries
import RequestAtlas.Proofs.Json.Spelling
import RequestAtlas.Text.Blank
/-!
# What is written is read back: whole values

`Value.toJson` is the document that a value stands for.  Main statement `read_rendered`: the text of a value
whose dictionaries have distinct keys reads back as the canonical copy of the value, so the text determines that
copy (`canonical_toJson_eq_of_render_eq`).  It rests on `value?_write`, an induction over the value that carries
what stands before and behind it.  A text ends with the one line feed that `render` adds; nothing else at its end
is blank (`trimEnd_text`).
-/

namespace RequestAtlas

namespace Value

mutual

/-- The document that a value stands for.  A double counts as its text. -/
def toJson : Value → Json
  | null => .null
  | bool b => .bool b
  | int n => .int n
  | float x => .real (NumberLayout.document.render x)
  | string s => .string s
  | list items => .list (toJsonList items)
  | dict entries => .dict (toJsonEntries entries)

/-- Apply `toJson` to each item. -/
def toJsonList : List Value → List Json
  | [] => []
  | v :: vs => toJson v :: toJsonList vs

/-- Apply `toJson` to each entry's value. -/
def toJsonEntries : List (String × Value) → List (String × Json)
  | [] => []
  | (k, v) :: es => (k, toJson v) :: toJsonEntries es

end

mutual

/-- Whether no dictionary in a value has a key twice. -/
def distinctKeys : Value → Bool
  | list items => distinctKeysList items
  | dict entries => decide (entries.map (·.1)).Nodup && distinctKeysEntries entries
  | _ => true

/-- Whether `distinctKeys` holds of every item. -/
def distinctKeysList : List Value → Bool
  | [] => true
  | v :: vs => distinctKeys v && distinctKeysList vs

/-- Whether `distinctKeys` holds of every entry's value. -/
def distinctKeysEntries : List (String × Value) → Bool
  | [] => true
  | (_, v) :: es => distinctKeys v && distinctKeysEntries es

end

theorem toJsonList_eq_map : ∀ vs : List Value, toJsonList vs = vs.map toJson
  | [] => rfl
  | v :: vs => by rw [toJsonList, toJsonList_eq_map vs, List.map_cons]

theorem toJsonEntries_eq_map : ∀ es : List (String × Value), toJsonEntries es = es.map fun e => (e.1, e.2.toJson)
  | [] => rfl
  | (k, v) :: es => by rw [toJsonEntries, toJsonEntries_eq_map es, List.map_cons]

theorem canonicalEntries_eq_map : ∀ es : List (String × Value),
    canonicalEntries es = es.map fun e => (e.1, e.2.canonical)
  | [] => rfl
  | (k, v) :: es => by rw [canonicalEntries, canonicalEntries_eq_map es, List.map_cons]

theorem distinctKeysEntries_iff : ∀ {es : List (String × Value)},
    distinctKeysEntries es = true ↔ ∀ e ∈ es, e.2.distinctKeys = true
  | [] => by simp [distinctKeysEntries]
  | (k, v) :: es => by
    have ih : distinctKeysEntries es = true ↔ _ := distinctKeysEntries_iff
    simp [distinctKeysEntries, ih]

end Value

namespace Json

open Value (write writeItems writeEntries writeString newline toJsonList toJsonEntries)

/-! ## Blanks -/

theorem skip_cons {c : Char} (h : isSpace c = false) (cs : List Char) : skip (c :: cs) = c :: cs := by
  simp [skip, h]

theorem skip_space (cs : List Char) : skip (' ' :: cs) = skip cs := by
  simp [skip, isSpace]

theorem skip_newline (level : Nat) (cs : List Char) : skip (newline level ++ cs) = skip cs := by
  have hs : ∀ c ∈ newline level, isSpace c = true := by
    intro c hc
    rcases List.mem_cons.1 hc with rfl | hc
    · rfl
    · rw [(List.mem_replicate.1 hc).2]; rfl
  rw [skip, skip, List.dropWhile_append_of_pos hs]

/-! ## The reader by the first character -/

theorem value?_text {cs rest : List Char} (h : skip cs = '"' :: rest) :
    value? cs = (text? rest).map fun r => (.string r.1, r.2) := by
  rw [value?]
  split <;> simp_all

theorem value?_emptyList {cs rest inside : List Char} (h : skip cs = '[' :: inside)
    (hi : skip inside = ']' :: rest) : value? cs = some (.list [], rest) := by
  rw [value?]
  split <;> simp_all

theorem value?_list {cs inside : List Char} (h : skip cs = '[' :: inside)
    (hi : ∀ rest, skip inside ≠ ']' :: rest) :
    value? cs = (items? inside).map fun r => (.list r.1, r.2) := by
  rw [value?]
  split <;> simp_all

theorem value?_emptyDict {cs rest inside : List Char} (h : skip cs = '{' :: inside)
    (hi : skip inside = '}' :: rest) : value? cs = some (.dict [], rest) := by
  rw [value?]
  split <;> simp_all

theorem value?_dict {cs inside : List Char} (h : skip cs = '{' :: inside)
    (hi : ∀ rest, skip inside ≠ '}' :: rest) :
    value? cs = (entries? [] inside).map fun r => (.dict r.1, r.2) := by
  rw [value?]
  split <;> simp_all

theorem value?_atom {cs rest : List Char} {c : Char} (h : skip cs = c :: rest)
    (hc : c ≠ '"' ∧ c ≠ '[' ∧ c ≠ '{') : value? cs = atom? (c :: rest) := by
  rw [value?]
  split
  · rename_i heq; rw [h, List.cons.injEq] at heq; exact absurd heq.1 hc.1
  · rename_i heq; rw [h, List.cons.injEq] at heq; exact absurd heq.1 hc.2.1
  · rename_i heq; rw [h, List.cons.injEq] at heq; exact absurd heq.1 hc.2.2
  · rw [h]

theorem items?_last {cs tail rest : List Char} {j : Json} (h : value? cs = some (j, tail))
    (ht : skip tail = ']' :: rest) : items? cs = some ([j], rest) := by
  rw [items?, h]
  simp only [ht]

theorem items?_more {cs tail rest : List Char} {j : Json} (h : value? cs = some (j, tail))
    (ht : skip tail = ',' :: rest) (hlen : rest.length < cs.length) :
    items? cs = (items? rest).map fun r => (j :: r.1, r.2) := by
  rw [items?, h]
  simp only [ht, hlen, if_true]

theorem entries?_last {es : List (String × Json)} {cs inside tail after rest : List Char} {key : String} {j : Json}
    (h : skip cs = '"' :: inside) (hk : text? inside = some (key, ':' :: tail)) (hlen : tail.length < cs.length)
    (hv : value? tail = some (j, after)) (ht : skip after = '}' :: rest) :
    entries? es cs = some (Value.put es key j, rest) := by
  rw [entries?]
  simp only [h, hk, skip_cons (c := ':') rfl, hlen, if_true, hv, ht]

theorem entries?_more {es : List (String × Json)} {cs inside tail after rest : List Char} {key : String} {j : Json}
    (h : skip cs = '"' :: inside) (hk : text? inside = some (key, ':' :: tail)) (hlen : tail.length < cs.length)
    (hv : value? tail = some (j, after)) (ht : skip after = ',' :: rest) (hlen' : rest.length < cs.length) :
    entries? es cs = entries? (Value.put es key j) rest := by
  rw [entries?]
  simp only [h, hk, skip_cons (c := ':') rfl, hlen, hlen', if_true, hv, ht]

/-! ## The first and the last character of a written value -/

theorem number?_ne_nil {t : List Char} {v : Json} (h : number? t = some v) : ∃ c t', t = c :: t' := by
  cases t with
  | nil => simp [number?, unsigned?, isWhole, isDigits] at h
  | cons c t => exact ⟨c, t, rfl⟩

/-- A number in a text, behind blanks. -/
theorem value?_number {cs t rest : List Char} {v : Json} (h : number? t = some v) (hr : Stops rest)
    (hs : skip cs = t ++ rest) : value? cs = some (v, rest) := by
  obtain ⟨c, t', rfl⟩ := number?_ne_nil h
  have hc : isNumeral c = true := numerals_of_number? h c (by simp)
  have hne : c ≠ '"' ∧ c ≠ '[' ∧ c ≠ '{' := by
    refine ⟨?_, ?_, ?_⟩ <;> (rintro rfl; revert hc; decide)
  rw [value?_atom hs hne]
  exact atom?_number h hr

/-- The text of a double is a number or one of the words. -/
theorem value?_float (x : Binary64) {cs rest : List Char} (hr : Stops rest)
    (hs : skip cs = (NumberLayout.document.render x).toList ++ rest) :
    value? cs = some (.real (NumberLayout.document.render x), rest) := by
  match x, hs with
  | .finite s m e, hs => exact value?_number (number?_finite _ s m e) hr hs
  | .nan, hs => rw [value?_atom (c := 'N') hs (by decide)]; rfl
  | .infinite true, hs => rw [value?_atom (c := '-') hs (by decide)]; rfl
  | .infinite false, hs => rw [value?_atom (c := 'I') hs (by decide)]; rfl

/-- What a written value can start with: nothing blank, and nothing that closes a container. -/
def opens (c : Char) : Bool := !isSpace c && c != ']' && c != '}'

theorem opens_of_isNumeral {c : Char} (h : isNumeral c = true) : opens c = true := by
  rw [← Bool.not_eq_false]
  intro ho
  simp only [opens, isSpace, Bool.and_eq_false_iff, Bool.not_eq_false', Bool.or_eq_true, beq_iff_eq,
    bne_eq_false_iff_eq] at ho
  rcases ho with ((((rfl | rfl) | rfl) | rfl) | rfl) | rfl <;> revert h <;> decide

theorem write_opens (level : Nat) (v : Value) : ∃ c t, write level v = c :: t ∧ opens c = true := by
  have number : ∀ {t : List Char} {j : Json}, number? t = some j → ∃ c t', t = c :: t' ∧ opens c = true := by
    intro t j h
    obtain ⟨c, t', rfl⟩ := number?_ne_nil h
    exact ⟨c, t', rfl, opens_of_isNumeral (numerals_of_number? h c (by simp))⟩
  match v with
  | .null => exact ⟨'n', ['u', 'l', 'l'], rfl, rfl⟩
  | .bool true => exact ⟨'t', ['r', 'u', 'e'], rfl, rfl⟩
  | .bool false => exact ⟨'f', ['a', 'l', 's', 'e'], rfl, rfl⟩
  | .int n => exact number (number?_int n)
  | .float (.finite s m e) => exact number (number?_finite _ s m e)
  | .float .nan => exact ⟨'N', ['a', 'N'], rfl, rfl⟩
  | .float (.infinite true) => exact ⟨'-', ['I', 'n', 'f', 'i', 'n', 'i', 't', 'y'], rfl, rfl⟩
  | .float (.infinite false) => exact ⟨'I', ['n', 'f', 'i', 'n', 'i', 't', 'y'], rfl, rfl⟩
  | .string s => exact ⟨'"', _, rfl, rfl⟩
  | .list [] => exact ⟨'[', _, rfl, rfl⟩
  | .list (_ :: _) => exact ⟨'[', _, rfl, rfl⟩
  | .dict [] => exact ⟨'{', _, rfl, rfl⟩
  | .dict (_ :: _) => exact ⟨'{', _, rfl, rfl⟩

theorem opens_iff {c : Char} : opens c = true ↔ isSpace c = false ∧ c ≠ ']' ∧ c ≠ '}' := by
  simp [opens, and_assoc]

/-- Blanks are only skipped in front of a written value. -/
theorem skip_write (level : Nat) (v : Value) (rest : List Char) :
    skip (write level v ++ rest) = write level v ++ rest := by
  obtain ⟨c, t, h, ho⟩ := write_opens level v
  rw [h]
  exact skip_cons (opens_iff.1 ho).1 _

/-! ## Reading what is written -/

theorem stops_newline (level : Nat) (rest : List Char) : Stops (newline level ++ rest) :=
  stops_cons rfl _

theorem stops_writeItems (level out : Nat) (vs : List Value) (rest : List Char) :
    Stops (writeItems level vs ++ newline out ++ rest) := by
  cases vs with
  | nil => exact stops_newline out rest
  | cons v vs => exact stops_cons rfl _

theorem stops_writeEntries (level out : Nat) (es : List (String × Value)) (rest : List Char) :
    Stops (writeEntries level es ++ newline out ++ rest) := by
  cases es with
  | nil => exact stops_newline out rest
  | cons e es => exact stops_cons rfl _

/-- A key and the colon behind it are read together; they take room. -/
theorem text?_key {cs tail : List Char} {k : String} (h : skip cs = writeString k ++ ':' :: tail) :
    ∃ inside, skip cs = '"' :: inside ∧ text? inside = some (k, ':' :: tail) ∧ tail.length < cs.length := by
  refine ⟨k.toList.flatMap Value.escapeChar ++ '"' :: ':' :: tail, ?_, text?_escaped k _, ?_⟩
  · rw [h, writeString]
    simp
  · have hlen := length_skip cs
    rw [h, writeString] at hlen
    simp only [List.length_append, List.length_cons] at hlen
    omega

mutual

/-- A written value reads back, whatever blanks stand before it and whatever follows it. -/
theorem value?_write : ∀ (v : Value) (level : Nat) {cs rest : List Char}, v.distinctKeys = true → Stops rest →
    skip cs = write level v ++ rest → value? cs = some (v.toJson, rest)
  | .null, _, _, _, _, _, h => by rw [value?_atom (c := 'n') h (by decide)]; rfl
  | .bool true, _, _, _, _, _, h => by rw [value?_atom (c := 't') h (by decide)]; rfl
  | .bool false, _, _, _, _, _, h => by rw [value?_atom (c := 'f') h (by decide)]; rfl
  | .int n, _, _, _, _, hr, h => value?_number (number?_int n) hr h
  | .float x, _, _, _, _, hr, h => value?_float x hr h
  | .string s, _, _, rest, _, _, h => by
    simp only [write, writeString, List.cons_append, List.append_assoc, List.nil_append] at h
    rw [value?_text h, text?_escaped]
    rfl
  | .list [], _, _, rest, _, _, h => value?_emptyList h (skip_cons rfl rest)
  | .dict [], _, _, rest, _, _, h => value?_emptyDict h (skip_cons rfl rest)
  | .list (v :: vs), level, cs, rest, hd, _, h => by
    simp only [Value.distinctKeys, Value.distinctKeysList, Bool.and_eq_true] at hd
    simp only [write, List.cons_append, List.append_assoc, List.nil_append] at h
    have hskip := skip_newline (level + 1)
      (write (level + 1) v ++ (writeItems (level + 1) vs ++ (newline level ++ ']' :: rest)))
    rw [skip_write] at hskip
    have hfirst := value?_write v (level + 1) hd.1 (by simpa using stops_writeItems (level + 1) level vs (']' :: rest))
      hskip
    rw [value?_list h, items?_tail vs (level + 1) level hd.2 (by simpa using hfirst)
      (by simp [newline]; omega)]
    · rfl
    · obtain ⟨c, t, hw, ho⟩ := write_opens (level + 1) v
      intro r hr
      rw [hskip, hw, List.cons_append, List.cons.injEq] at hr
      exact (opens_iff.1 ho).2.1 hr.1
  | .dict ((k, v) :: es), level, cs, rest, hd, _, h => by
    simp only [Value.distinctKeys, Value.distinctKeysEntries, Bool.and_eq_true, decide_eq_true_eq] at hd
    simp only [write, List.cons_append, List.append_assoc, List.nil_append] at h
    have hskip := skip_newline (level + 1)
      (writeString k ++ ':' :: ' ' :: (write (level + 1) v ++
        (writeEntries (level + 1) es ++ (newline level ++ '}' :: rest))))
    have hvalue := value?_write v (level + 1) hd.2.1
      (by simpa using stops_writeEntries (level + 1) level es ('}' :: rest))
      ((skip_space _).trans (skip_write (level + 1) v _))
    rw [value?_dict h, entries?_tail es (level + 1) level hd.2.2 (by simpa using hd.1) (hskip.trans rfl)
      (by simpa using hvalue) (by simp only [List.length_append, List.length_cons]; omega)]
    · rfl
    · intro r hr
      rw [hskip, writeString, List.cons_append, List.cons_append, skip_cons rfl] at hr
      simp at hr

/-- The items of a list from one that has been read on. -/
theorem items?_tail : ∀ (vs : List Value) (level out : Nat) {cs rest : List Char} {j : Json},
    Value.distinctKeysList vs = true →
    value? cs = some (j, writeItems level vs ++ newline out ++ ']' :: rest) →
    (writeItems level vs ++ newline out ++ ']' :: rest).length < cs.length →
    items? cs = some (j :: toJsonList vs, rest)
  | [], _, out, _, rest, _, _, h, _ =>
    items?_last h ((skip_newline out _).trans (skip_cons rfl rest))
  | v :: vs, level, out, cs, rest, j, hd, h, hlen => by
    simp only [Value.distinctKeysList, Bool.and_eq_true] at hd
    simp only [writeItems, List.cons_append, List.append_assoc] at h hlen
    have hskip := skip_newline level (write level v ++ (writeItems level vs ++ (newline out ++ ']' :: rest)))
    rw [skip_write] at hskip
    have hnext := value?_write v level hd.1 (by simpa using stops_writeItems level out vs (']' :: rest)) hskip
    simp only [List.length_cons] at hlen
    rw [items?_more h (skip_cons rfl _) (by omega),
      items?_tail vs level out hd.2 (by simpa using hnext) (by simp [newline]; omega)]
    rfl

/-- The entries of a dictionary from one whose key comes next on. -/
theorem entries?_tail : ∀ (es : List (String × Value)) (level out : Nat) {cs tail rest : List Char}
    {read : List (String × Json)} {k : String} {j : Json},
    Value.distinctKeysEntries es = true → (read.map (·.1) ++ k :: es.map (·.1)).Nodup →
    skip cs = writeString k ++ ':' :: tail →
    value? tail = some (j, writeEntries level es ++ newline out ++ '}' :: rest) →
    (writeEntries level es ++ newline out ++ '}' :: rest).length < tail.length →
    entries? read cs = some (read ++ (k, j) :: toJsonEntries es, rest)
  | [], _, out, cs, tail, rest, read, k, j, _, hnd, hk, hv, _ => by
    obtain ⟨inside, hq, ht, hlen⟩ := text?_key hk
    have hnew : k ∉ read.map (·.1) := fun hmem => (List.nodup_append.1 hnd).2.2 k hmem k (by simp) rfl
    rw [entries?_last hq ht hlen hv ((skip_newline out _).trans (skip_cons rfl rest)),
      Value.put_of_notMem j hnew]
    rfl
  | (k', v) :: es, level, out, cs, tail, rest, read, k, j, hd, hnd, hk, hv, hlen => by
    simp only [Value.distinctKeysEntries, Bool.and_eq_true] at hd
    obtain ⟨inside, hq, ht, hlen'⟩ := text?_key hk
    have hnew : k ∉ read.map (·.1) := fun hmem => (List.nodup_append.1 hnd).2.2 k hmem k (by simp) rfl
    simp only [writeEntries, List.cons_append, List.append_assoc, List.nil_append] at hv hlen
    have hskip := skip_newline level (writeString k' ++ ':' :: ' ' :: (write level v ++
      (writeEntries level es ++ (newline out ++ '}' :: rest))))
    have hvalue := value?_write v level hd.1 (by simpa using stops_writeEntries level out es ('}' :: rest))
      ((skip_space _).trans (skip_write level v _))
    simp only [List.length_cons] at hlen
    rw [entries?_more hq ht hlen' hv (skip_cons rfl _) (by omega), Value.put_of_notMem j hnew,
      entries?_tail es level out hd.2 (by simpa using hnd) (hskip.trans rfl) (by simpa using hvalue)
        (by simp only [List.length_append, List.length_cons]; omega)]
    simp [toJsonEntries]

end

end Json

/-! ## Canonical copies -/

namespace Value

mutual

theorem distinctKeys_canonical : ∀ {v : Value}, v.distinctKeys = true → v.canonical.distinctKeys = true
  | null, _ => rfl
  | bool _, _ => rfl
  | int _, _ => rfl
  | float _, _ => rfl
  | string _, _ => rfl
  | list _, h => by
    rw [canonical, distinctKeys]
    exact distinctKeysList_canonical h
  | dict es, h => by
    rw [distinctKeys, Bool.and_eq_true, decide_eq_true_eq] at h
    have hkeys : (canonicalEntries es).map (·.1) = es.map (·.1) := by
      rw [canonicalEntries_eq_map, List.map_map]; rfl
    rw [canonical, distinctKeys, Bool.and_eq_true, decide_eq_true_eq, distinctKeysEntries_iff]
    refine ⟨?_, fun e he => ?_⟩
    · rw [(keys_sortEntries_perm _).nodup_iff, hkeys]; exact h.1
    · exact distinctKeysEntries_iff.1 (distinctKeysEntries_canonical h.2) e ((sortEntries_perm _).mem_iff.1 he)

theorem distinctKeysList_canonical : ∀ {vs : List Value}, distinctKeysList vs = true →
    distinctKeysList (canonicalList vs) = true
  | [], _ => rfl
  | v :: vs, h => by
    rw [distinctKeysList, Bool.and_eq_true] at h
    rw [canonicalList, distinctKeysList, distinctKeys_canonical h.1, distinctKeysList_canonical h.2]
    rfl

theorem distinctKeysEntries_canonical : ∀ {es : List (String × Value)}, distinctKeysEntries es = true →
    distinctKeysEntries (canonicalEntries es) = true
  | [], _ => rfl
  | (k, v) :: es, h => by
    rw [distinctKeysEntries, Bool.and_eq_true] at h
    rw [canonicalEntries, distinctKeysEntries, distinctKeys_canonical h.1, distinctKeysEntries_canonical h.2]
    rfl

end

/-- The fields of a canonical copy are those of the value. -/
theorem field?_canonical {es : List (String × Value)} (hn : (es.map (·.1)).Nodup) (k : String) :
    (dict es).canonical.toJson.field? k = (get? es k).map fun v => v.canonical.toJson := by
  have hn' : ((sortEntries (canonicalEntries es)).map (·.1)).Nodup := by
    rw [(keys_sortEntries_perm _).nodup_iff, canonicalEntries_eq_map, List.map_map]
    exact hn
  rw [canonical, toJson, Json.field?, toJsonEntries_eq_map, get?_map, get?_perm (sortEntries_perm _) hn',
    canonicalEntries_eq_map, get?_map, Option.map_map]
  rfl

/-! ## Rendered texts -/

theorem isBlank_of_isNumeral {c : Char} (h : Json.isNumeral c = true) : Text.isBlank c = false := by
  simp only [Json.isNumeral, Bool.or_eq_true, beq_iff_eq] at h
  rcases h with ((((h | rfl) | rfl) | rfl) | rfl) | rfl
  · rw [Char.isDigit_iff_toNat] at h
    have hlo : 48 ≤ c.toNat := h.1
    have hhi : c.toNat ≤ 57 := h.2
    simp only [Text.isBlank, Bool.or_eq_false_iff, Bool.and_eq_false_iff, decide_eq_false_iff_not,
      beq_eq_false_iff_ne]
    omega
  all_goals rfl

/-- A written value ends with a character that is not blank. -/
theorem write_ends (level : Nat) (v : Value) : ∃ t c, write level v = t ++ [c] ∧ Text.isBlank c = false := by
  have number : ∀ {t : List Char} {j : Json}, Json.number? t = some j → ∃ t' c, t = t' ++ [c] ∧
      Text.isBlank c = false := by
    intro t j h
    obtain ⟨c, t', hc⟩ := Json.number?_ne_nil h
    have hne : t ≠ [] := by rw [hc]; simp
    exact ⟨t.dropLast, t.getLast hne, (List.dropLast_concat_getLast hne).symm,
      isBlank_of_isNumeral (Json.numerals_of_number? h _ (List.getLast_mem hne))⟩
  match v with
  | .null => exact ⟨['n', 'u', 'l'], 'l', rfl, rfl⟩
  | .bool true => exact ⟨['t', 'r', 'u'], 'e', rfl, rfl⟩
  | .bool false => exact ⟨['f', 'a', 'l', 's'], 'e', rfl, rfl⟩
  | .int n => exact number (Json.number?_int n)
  | .float (.finite s m e) => exact number (Json.number?_finite _ s m e)
  | .float .nan => exact ⟨['N', 'a'], 'N', rfl, rfl⟩
  | .float (.infinite true) => exact ⟨['-', 'I', 'n', 'f', 'i', 'n', 'i', 't'], 'y', rfl, rfl⟩
  | .float (.infinite false) => exact ⟨['I', 'n', 'f', 'i', 'n', 'i', 't'], 'y', rfl, rfl⟩
  | .string s => exact ⟨'"' :: s.toList.flatMap escapeChar, '"', rfl, rfl⟩
  | .list [] => exact ⟨['['], ']', rfl, rfl⟩
  | .list (_ :: _) => exact ⟨_, ']', rfl, rfl⟩
  | .dict [] => exact ⟨['{'], '}', rfl, rfl⟩
  | .dict (_ :: _) => exact ⟨_, '}', rfl, rfl⟩

/-- Of a rendered text, trimming takes away the line feed at the end and nothing else. -/
theorem trimEnd_text (v : Value) : Text.trimEnd (v.text ++ "\n").toList = v.text.toList := by
  obtain ⟨t, c, hw, hb⟩ := write_ends 0 v.canonical
  have htext : v.text.toList = t ++ [c] := by rw [text, String.toList_ofList, hw]
  rw [String.toList_append, htext]
  have hnl : Text.isBlank '\n' = true := rfl
  simp [Text.trimEnd, hb, hnl]

theorem render_of_short {v : Value} (h : v.hasLong = false) : v.render = .ok (v.text ++ "\n") := by
  simp [render, h]

theorem value?_text_append {v : Value} (h : v.distinctKeys = true) {rest : List Char} (hr : Json.Stops rest) :
    Json.value? (v.text.toList ++ rest) = some (v.canonical.toJson, rest) := by
  rw [text, String.toList_ofList]
  exact Json.value?_write v.canonical 0 (distinctKeys_canonical h) hr (Json.skip_write 0 _ _)

/-- The text of a value without its line feed reads back as the canonical copy. -/
theorem read_text {v : Value} (h : v.distinctKeys = true) : Json.read v.text = some v.canonical.toJson := by
  have hstops : Json.Stops [] := by simp [Json.Stops]
  have hv := value?_text_append h hstops
  rw [List.append_nil] at hv
  rw [Json.read, hv]
  rfl

/-- A rendered text reads back as the canonical copy. -/
theorem read_rendered {v : Value} (h : v.distinctKeys = true) :
    Json.read (v.text ++ "\n") = some v.canonical.toJson := by
  have hstops : Json.Stops ['\n'] := Json.stops_cons rfl []
  have hv := value?_text_append h hstops
  rw [Json.read, String.toList_append, show "\n".toList = ['\n'] from rfl, hv]
  rfl

/-- Values with the same rendered text have the same canonical copy. -/
theorem canonical_toJson_eq_of_render_eq {v w : Value} (hv : v.distinctKeys = true) (hw : w.distinctKeys = true)
    (hs : v.hasLong = false) (hl : w.hasLong = false) (h : v.render = w.render) :
    v.canonical.toJson = w.canonical.toJson := by
  rw [render_of_short hs, render_of_short hl, Except.ok.injEq] at h
  have hr := read_rendered hv
  rw [h, read_rendered hw, Option.some.injEq] at hr
  exact hr.symm

end Value

end RequestAtlas
