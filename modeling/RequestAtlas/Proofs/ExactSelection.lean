import RequestAtlas.Proofs.LongPaths
import RequestAtlas.Proofs.Scripts
import Mathlib.Data.List.Induction
import Mathlib.Data.List.Sort
import Mathlib.Data.List.TakeWhile
import Mathlib.Data.Nat.Digits.Defs
/-!
# Exactly which scripts are selected, and in which order

`CarriesNumber` says which names are numbered and `Selectable` which files are to be selected, both without the
search.  The search finds exactly these (`mem_picks_iff`), strictly ascending by the number of the folder, its name and
the names below it (`pairwise_picks`).  A list that ascends strictly is known from its members, so the answer depends
neither on the order in which a folder lists its entries nor on where links lead: `select_exact`.
-/

namespace RequestAtlas.Selection

open Folder

/-! ## Numbered names -/

/-- A name carries a number: its decimal digits, alone or with a line or a dash and more on the same line behind
them. -/
def CarriesNumber (name : String) (n : Nat) : Prop :=
  ∃ digits tail, name.toList = digits ++ tail ∧ digits ≠ [] ∧ (∀ c ∈ digits, '0' ≤ c ∧ c ≤ '9') ∧
    Nat.ofDigits 10 (digits.map fun c => c.toNat - 48).reverse = n ∧
    (tail = [] ∨ ∃ c rest, tail = c :: rest ∧ (c = '_' ∨ c = '-') ∧ '\n' ∉ rest)

theorem numberOf_eq (digits : List Char) :
    numberOf digits = Nat.ofDigits 10 (digits.map fun c => c.toNat - 48).reverse := by
  induction digits using List.reverseRecOn with
  | nil => rfl
  | append_singleton ds c ih =>
    rw [numberOf, List.foldl_append, ← numberOf, ih]
    simp [Nat.ofDigits_cons, Nat.add_comm]

theorem isDigit_iff {c : Char} : c.isDigit = true ↔ '0' ≤ c ∧ c ≤ '9' := by
  rw [Char.isDigit_iff_toNat]
  rfl

/-- Behind the digits of a numbered name stands no digit. -/
theorem split_digits {digits tail : List Char} (hd : ∀ c ∈ digits, '0' ≤ c ∧ c ≤ '9')
    (ht : tail = [] ∨ ∃ c rest, tail = c :: rest ∧ (c = '_' ∨ c = '-') ∧ '\n' ∉ rest) :
    (digits ++ tail).takeWhile Char.isDigit = digits ∧ (digits ++ tail).dropWhile Char.isDigit = tail := by
  have hall : ∀ c ∈ digits, c.isDigit = true := fun c hc => isDigit_iff.2 (hd c hc)
  rw [List.takeWhile_append_of_pos hall, List.dropWhile_append_of_pos hall]
  rcases ht with rfl | ⟨c, rest, rfl, hc, _⟩
  · simp
  · have hno : c.isDigit = false := by rcases hc with rfl | rfl <;> rfl
    simp [hno]

theorem number?_eq_some_iff {name : String} {n : Nat} : number? name = some n ↔ CarriesNumber name n := by
  unfold number?
  constructor
  · intro h
    have hsplit : name.toList = name.toList.takeWhile Char.isDigit ++ name.toList.dropWhile Char.isDigit :=
      List.takeWhile_append_dropWhile.symm
    have hdigits : ∀ c ∈ name.toList.takeWhile Char.isDigit, '0' ≤ c ∧ c ≤ '9' :=
      fun c hc => isDigit_iff.1 (List.mem_takeWhile_imp hc)
    simp only at h
    split at h
    · cases h
    · rename_i hne
      refine ⟨_, _, hsplit, by simpa using hne, hdigits, ?_⟩
      split at h
      · rename_i hnil
        cases h
        exact ⟨(numberOf_eq _).symm, .inl hnil⟩
      · rename_i c rest hcons
        split at h
        · rename_i hc
          cases h
          exact ⟨(numberOf_eq _).symm, .inr ⟨c, rest, hcons, hc.1, by simpa using hc.2⟩⟩
        · cases h
  · rintro ⟨digits, tail, hname, hne, hd, rfl, ht⟩
    have hsplit := split_digits hd ht
    rw [← hname] at hsplit
    simp only [hsplit.1, hsplit.2, List.isEmpty_iff, hne, if_false]
    rcases ht with rfl | ⟨c, rest, rfl, hc, hline⟩
    · rw [numberOf_eq]
    · simp only [hc, hline, List.contains_eq_mem, decide_false, Bool.not_false, and_self, if_true, numberOf_eq]

theorem CarriesNumber.unique {name : String} {m n : Nat} (hm : CarriesNumber name m) (hn : CarriesNumber name n) :
    m = n := by
  rw [← number?_eq_some_iff] at hm hn
  exact Option.some.inj (hm.symm.trans hn)

/-! ## The scripts of a folder -/

/-- A file that the names lead to is a script: none of the names is left out, and the last has one of the endings. -/
structure IsScript (f : Filter) (es : Folder) (names : List String) : Prop where
  file : ∃ content, es.get? names = some (.file content)
  kept : ∀ name ∈ names, name ∉ f.skip
  ending : ∃ last, names.getLast? = some last ∧ ∃ ext ∈ f.extensions, ext.toList <:+ last.toList

theorem isScript_singleton {f : Filter} {es : Folder} {name : String} {content : List UInt8}
    (h : Value.get? es name = some (.file content)) :
    IsScript f es [name] ↔ name ∉ f.skip ∧ f.accepts name = true := by
  have hget : es.get? [name] = some (.file content) := by
    rw [get?_cons, h]
    rfl
  rw [accepts_iff]
  constructor
  · rintro ⟨_, hkept, last, hlast, hext⟩
    cases hlast
    exact ⟨hkept _ (by simp), hext⟩
  · rintro ⟨hskip, hext⟩
    exact ⟨⟨content, hget⟩, by simpa using hskip, name, rfl, hext⟩

theorem isScript_cons {f : Filter} {es sub : Folder} {name : String} {rest : List String}
    (h : Value.get? es name = some (.folder sub)) :
    IsScript f es (name :: rest) ↔ name ∉ f.skip ∧ IsScript f sub rest := by
  have hget : es.get? (name :: rest) = sub.get? rest := by
    rw [get?_cons, h, Option.bind_some, Entry.at?_folder]
  have hne : ∀ content, sub.get? rest = some (.file content) → rest ≠ [] := by
    rintro content hfile rfl
    cases hfile
  constructor
  · rintro ⟨⟨content, hfile⟩, hkept, last, hlast, hext⟩
    rw [hget] at hfile
    rw [List.forall_mem_cons] at hkept
    obtain ⟨c, cs, rfl⟩ := List.exists_cons_of_ne_nil (hne content hfile)
    exact ⟨hkept.1, ⟨content, hfile⟩, hkept.2, last, by simpa using hlast, hext⟩
  · rintro ⟨hskip, ⟨content, hfile⟩, hkept, last, hlast, hext⟩
    obtain ⟨c, cs, rfl⟩ := List.exists_cons_of_ne_nil (hne content hfile)
    exact ⟨⟨content, hget.trans hfile⟩, List.forall_mem_cons.2 ⟨hskip, hkept⟩, last, by simpa using hlast, hext⟩

/-! ## What is to be selected -/

/-- The file at the given names is to be selected: the first is that of a numbered folder, and all that lead on are
names of folders and not of links. -/
structure Selectable (f : Filter) (es : Folder) (folder : String) (names : List String) : Prop where
  number : ∃ n, 1 ≤ n ∧ CarriesNumber folder n
  nonempty : names ≠ []
  folders : ∀ front, front ≠ [] → front <+: folder :: names → front ≠ folder :: names →
    ∃ sub, es.get? front = some (.folder sub)
  file : ∃ content, es.get? (folder :: names) = some (.file content)
  kept : ∀ name ∈ names, name ∉ f.skip
  ending : ∃ last, names.getLast? = some last ∧ ∃ ext ∈ f.extensions, ext.toList <:+ last.toList

theorem folders_of_file {es : Folder} {names : List String} {content : List UInt8}
    (h : es.get? names = some (.file content)) {front : List String} (hfront : front <+: names) (hne : front ≠ names) :
    ∃ sub, es.get? front = some (.folder sub) := by
  obtain ⟨rest, rfl⟩ := hfront
  rw [get?_append] at h
  obtain ⟨e, he, hat⟩ := Option.bind_eq_some_iff.1 h
  cases rest with
  | nil => simp at hne
  | cons name rest =>
    cases e with
    | folder sub => exact ⟨sub, he⟩
    | file _ => cases hat
    | link _ => cases hat

/-- The same entries stand at the same places, in whatever order folders list them. -/
def Rearranged (es es' : Folder) : Prop := ∀ place, Similar (es.get? place) (es'.get? place)

theorem Selectable.rearranged {f : Filter} {es es' : Folder} (h : Rearranged es es') {folder : String}
    {names : List String} (hs : Selectable f es folder names) : Selectable f es' folder names := by
  obtain ⟨content, hfile⟩ := hs.file
  have hfile' : es'.get? (folder :: names) = some (.file content) := ((h _).file content).1 hfile
  exact ⟨hs.number, hs.nonempty, fun front _ => folders_of_file hfile', ⟨content, hfile'⟩, hs.kept, hs.ending⟩

theorem scriptPath_injective (root : Path) :
    Function.Injective fun p : String × List String => scriptPath root p.1 p.2 := by
  rintro ⟨d, cs⟩ ⟨d', cs'⟩ h
  have hparts : root.parts ++ d :: cs = root.parts ++ d' :: cs' := congrArg Path.parts h
  simpa using hparts

/-- What is met in a folder is what stands there below names that are not left out. -/
theorem met_iff {f : Filter} {names : List String} {es : Folder} (hd : es.Distinct) :
    Met f es names ↔ names ≠ [] ∧ (∀ name ∈ names, name ∉ f.skip) ∧ ∃ e, es.get? names = some e := by
  constructor
  · intro h
    induction h with
    | @entry es name e mem kept =>
      have hget := (hd.get?_of_mem mem).2 []
      exact ⟨by simp, by simpa using kept, e, by rw [hget, Entry.at?_nil]⟩
    | @inside es sub name names mem kept met ih =>
      obtain ⟨hinner, hget⟩ := hd.get?_of_mem mem
      obtain ⟨_, hkept, e, he⟩ := ih (hinner sub rfl)
      exact ⟨by simp, List.forall_mem_cons.2 ⟨kept, hkept⟩, e, by rw [hget, Entry.at?_folder, he]⟩
  · rintro ⟨hne, hkept, e, he⟩
    exact met_of_get? hne hkept he

/-- In whatever order folders list their entries, the same are asked about. -/
theorem Asked.rearranged {f : Filter} {es es' : Folder} (hd : es.Distinct) (hd' : es'.Distinct)
    (h : Rearranged es es') {names : List String} (hasked : Asked f es names) : Asked f es' names := by
  have hthere : ∀ {place : List String} {e : Entry}, es.get? place = some e → ∃ e', es'.get? place = some e' := by
    intro place e he
    rcases h place with hsame | ⟨_, fs, _, hfs⟩
    · exact ⟨e, hsame ▸ he⟩
    · exact ⟨_, hfs⟩
  cases hasked with
  | @entry name e mem =>
    have hget : es.get? [name] = some e := by rw [(hd.get?_of_mem mem).2, Entry.at?_nil]
    obtain ⟨e', he'⟩ := hthere hget
    rw [get?_cons] at he'
    obtain ⟨d, hd'', _⟩ := Option.bind_eq_some_iff.1 he'
    exact .entry ((Value.get?_eq_some_iff hd'.nodup).1 hd'')
  | @inside name sub n names mem number positive met =>
    obtain ⟨hinner, hget⟩ := hd.get?_of_mem mem
    obtain ⟨hne, hkept, e, he⟩ := (met_iff (hinner sub rfl)).1 met
    have hfolder : es.get? [name] = some (.folder sub) := by rw [hget, Entry.at?_nil]
    obtain ⟨sub', hsub'⟩ : ∃ sub', es'.get? [name] = some (.folder sub') := by
      rcases h [name] with hsame | ⟨_, fs, _, hfs⟩
      · exact ⟨sub, hsame ▸ hfolder⟩
      · exact ⟨fs, hfs⟩
    obtain ⟨inner, hvalue, hnil⟩ := folder_of_get?_cons hsub'
    cases hnil
    have hmem' := (Value.get?_eq_some_iff hd'.nodup).1 hvalue
    obtain ⟨hinner', hget'⟩ := hd'.get?_of_mem hmem'
    obtain ⟨e', he'⟩ := hthere (show es.get? (name :: names) = some e by rw [hget, Entry.at?_folder, he])
    rw [hget', Entry.at?_folder] at he'
    exact .inside hmem' number positive ((met_iff (hinner' _ rfl)).2 ⟨hne, hkept, e', he'⟩)

section
variable [Surrogates]

theorem mem_share_iff (f : Filter) {name : String} {e : Entry} {names : List String} :
    names ∈ share f (name, e) ↔ name ∉ f.skip ∧
      ((∃ content, e = .file content ∧ names = [name] ∧ f.accepts name = true) ∨
        ∃ sub rest, e = .folder sub ∧ names = name :: rest ∧ rest ∈ scripts f sub) := by
  by_cases hskip : name ∈ f.skip
  · simp [share_skipped f hskip, hskip]
  · cases e with
    | link target => simp [share_link]
    | file content => by_cases haccepts : f.accepts name = true <;> simp [share_file, hskip, haccepts]
    | folder sub =>
      rw [share_entries f hskip]
      simp only [List.mem_map, hskip, not_false_eq_true, true_and, reduceCtorEq, false_and, exists_false, false_or,
        Entry.folder.injEq]
      constructor
      · rintro ⟨rest, hrest, rfl⟩
        exact ⟨sub, rest, rfl, rfl, hrest⟩
      · rintro ⟨_, rest, rfl, rfl, hrest⟩
        exact ⟨rest, hrest, rfl⟩

theorem mem_scripts {f : Filter} {es : Folder} {names : List String} :
    names ∈ scripts f es ↔ ∃ name e, (name, e) ∈ es ∧ names ∈ share f (name, e) := by
  rw [scripts, List.mem_flatMap]
  constructor
  · rintro ⟨⟨name, e⟩, hmem, hnames⟩
    exact ⟨name, e, (listing_perm es).mem_iff.1 hmem, hnames⟩
  · rintro ⟨name, e, hmem, hnames⟩
    exact ⟨(name, e), (listing_perm es).mem_iff.2 hmem, hnames⟩

/-- **The search of a folder finds exactly its scripts.** -/
theorem mem_scripts_iff {f : Filter} : ∀ {names : List String} {es : Folder}, es.Distinct →
    (names ∈ scripts f es ↔ IsScript f es names)
  | [], es, _ => by
    constructor
    · intro h
      obtain ⟨name, e, _, hmem⟩ := mem_scripts.1 h
      rcases (mem_share_iff f).1 hmem with ⟨_, ⟨_, _, h, _⟩ | ⟨_, _, _, h, _⟩⟩ <;> cases h
    · rintro ⟨⟨content, hfile⟩, _, _⟩
      cases hfile
  | name :: rest, es, hd => by
    rw [mem_scripts]
    constructor
    · rintro ⟨key, e, hmem, hnames⟩
      have hget := (Value.get?_eq_some_iff hd.nodup).2 hmem
      rcases (mem_share_iff f).1 hnames with ⟨hskip, ⟨content, rfl, heq, haccepts⟩ | ⟨sub, more, rfl, heq, hmore⟩⟩
      · cases heq
        exact (isScript_singleton hget).2 ⟨hskip, haccepts⟩
      · cases heq
        have hsub : Folder.Distinct sub := (hd.get?_of_mem hmem).1 sub rfl
        exact (isScript_cons hget).2 ⟨hskip, (mem_scripts_iff hsub).1 hmore⟩
    · intro h
      obtain ⟨content, hfile⟩ := h.file
      rw [get?_cons] at hfile
      obtain ⟨e, hget, hat⟩ := Option.bind_eq_some_iff.1 hfile
      have hmem := (Value.get?_eq_some_iff hd.nodup).1 hget
      refine ⟨name, e, hmem, (mem_share_iff f).2 ?_⟩
      cases e with
      | link target => cases rest <;> cases hat
      | file content =>
        cases rest with
        | cons _ _ => cases hat
        | nil =>
          obtain ⟨hskip, haccepts⟩ := (isScript_singleton hget).1 h
          exact ⟨hskip, .inl ⟨content, rfl, rfl, haccepts⟩⟩
      | folder sub =>
        obtain ⟨hskip, hrest⟩ := (isScript_cons hget).1 h
        have hsub : Folder.Distinct sub := (hd.get?_of_mem hmem).1 sub rfl
        exact ⟨hskip, .inr ⟨sub, rest, rfl, rfl, (mem_scripts_iff hsub).2 hrest⟩⟩

/-- The names in a listing ascend strictly. -/
theorem pairwise_listing {es : Folder} (hn : (es.map (·.1)).Nodup) :
    es.listing.Pairwise fun a b => Text.codes a.1 < Text.codes b.1 := by
  have hnodup : (es.listing.map (·.1)).Nodup := ((listing_perm es).map _).nodup_iff.2 hn
  rw [List.Nodup, List.pairwise_map] at hnodup
  have hle : es.listing.Pairwise fun a b => Text.codes a.1 ≤ Text.codes b.1 := (stableSort_byName es).ascending
  exact (hle.and hnodup).imp fun h => lt_of_le_of_ne h.1 fun heq => h.2 (Text.codes_injective heq)

theorem head_of_mem_share {f : Filter} {name : String} {e : Entry} {names : List String}
    (h : names ∈ share f (name, e)) : ∃ rest, names = name :: rest := by
  rcases (mem_share_iff f).1 h with ⟨_, ⟨_, _, rfl, _⟩ | ⟨_, rest, _, rfl, _⟩⟩
  · exact ⟨[], rfl⟩
  · exact ⟨rest, rfl⟩

/-- **The scripts of a folder ascend strictly**, names compared one after the other: names that differ first are those
of two entries of one folder, and these are listed in order. -/
theorem pairwise_scripts (f : Filter) (es : Folder) (hd : es.Distinct) :
    (scripts f es).Pairwise fun p q => p.map Text.codes < q.map Text.codes := by
  induction hn : sizes es using Nat.strongRecOn generalizing es with
  | _ n ih =>
    rw [scripts, List.pairwise_flatMap]
    constructor
    · rintro ⟨name, e⟩ hmem
      rw [(listing_perm es).mem_iff] at hmem
      by_cases hskip : name ∈ f.skip
      · rw [share_skipped f hskip]
        exact List.Pairwise.nil
      · cases e with
        | link target =>
          rw [share_link]
          exact List.Pairwise.nil
        | file content =>
          rw [share_file f hskip]
          split
          · exact List.pairwise_singleton _ _
          · exact List.Pairwise.nil
        | folder sub =>
          -- all below a folder have its name in front, so they compare as they do in the folder
          have hsize : sizes sub < n := by
            have hlt := size_le_sizes hmem
            rw [size] at hlt
            omega
          have hsub : Folder.Distinct sub := (hd.get?_of_mem hmem).1 sub rfl
          rw [share_entries f hskip, List.pairwise_map]
          refine (ih _ hsize sub hsub rfl).imp fun h => ?_
          rw [List.map_cons, List.map_cons]
          exact List.cons_lt_cons_iff.2 (.inr ⟨rfl, h⟩)
    · refine (pairwise_listing hd.nodup).imp ?_
      rintro ⟨a, d⟩ ⟨b, e⟩ hab p hp q hq
      obtain ⟨p', rfl⟩ := head_of_mem_share hp
      obtain ⟨q', rfl⟩ := head_of_mem_share hq
      rw [List.map_cons, List.map_cons]
      exact List.cons_lt_cons_iff.2 (.inl hab)

/-! ## The scripts under a root -/

/-- One script stands before another: by number, then by the name of the numbered folder, then by the names below, all
by their code points. -/
def Before (a b : String × List String) : Prop :=
  ∃ m n, CarriesNumber a.1 m ∧ CarriesNumber b.1 n ∧ (m < n ∨ m = n ∧ (Text.codes a.1 < Text.codes b.1 ∨
    a.1 = b.1 ∧ a.2.map Text.codes < b.2.map Text.codes))

instance : Std.Irrefl Before where
  irrefl := by
    rintro a ⟨m, n, hm, hn, h⟩
    have := hm.unique hn
    rcases h with h | ⟨_, h | ⟨_, h⟩⟩
    · omega
    · exact lt_irrefl _ h
    · exact List.lt_irrefl _ h

instance : Std.Antisymm Before where
  antisymm := by
    rintro a b ⟨m, n, hm, hn, h⟩ ⟨n', m', hn', hm', h'⟩
    have hmm := hm.unique hm'
    have hnn := hn.unique hn'
    rcases h with h | ⟨_, h | ⟨heq, h⟩⟩ <;> rcases h' with h' | ⟨_, h' | ⟨heq', h'⟩⟩
    any_goals omega
    · exact absurd h (lt_asymm h')
    · exact absurd (heq' ▸ h) (lt_irrefl _)
    · exact absurd (heq ▸ h') (lt_irrefl _)
    · exact absurd h (List.lt_asymm h')

/-- What is selected under a root: the name of a numbered folder, and the names that lead on to a script. -/
def picks (f : Filter) (es : Folder) : List (String × List String) :=
  (chosen (numbered es.listing)).flatMap fun n => (scripts f n.entries).map fun names => (n.name, names)

theorem found_eq_picks (root : Path) (f : Filter) (es : Folder) :
    found root f es = (picks f es).map fun p => scriptPath root p.1 p.2 := by
  rw [found, picks, List.map_flatMap]
  congr 1
  funext n
  rw [pathsIn, List.map_map]
  rfl

theorem mem_chosen_iff {es : Folder} {n : Numbered} : n ∈ chosen (numbered es.listing) ↔
    (n.name, Entry.folder n.entries) ∈ es ∧ CarriesNumber n.name n.number ∧ 1 ≤ n.number := by
  rw [mem_chosen, number?_eq_some_iff]

/-- **What is picked is exactly what is to be selected.** -/
theorem mem_picks_iff {f : Filter} {es : Folder} (hd : es.Distinct) {folder : String} {names : List String} :
    (folder, names) ∈ picks f es ↔ Selectable f es folder names := by
  rw [picks, List.mem_flatMap]
  constructor
  · rintro ⟨n, hn, hmem⟩
    obtain ⟨names, hnames, heq⟩ := List.mem_map.1 hmem
    cases heq
    obtain ⟨hin, hnumber, hpos⟩ := mem_chosen_iff.1 hn
    obtain ⟨hsub, hget⟩ := hd.get?_of_mem hin
    obtain ⟨⟨content, hfile⟩, hkept, hending⟩ := (mem_scripts_iff (hsub _ rfl)).1 hnames
    have hplace : es.get? (n.name :: names) = some (.file content) := by
      rw [hget, Entry.at?_folder, hfile]
    refine ⟨⟨n.number, hpos, hnumber⟩, ?_, fun front _ => folders_of_file hplace, ⟨content, hplace⟩, hkept, hending⟩
    rintro rfl
    cases hfile
  · rintro ⟨⟨n, hpos, hnumber⟩, hne, hfolders, ⟨content, hfile⟩, hkept, hending⟩
    obtain ⟨sub, hsub⟩ := hfolders [folder] (by simp) (by simp) (by simpa using hne.symm)
    have hget : Value.get? es folder = some (.folder sub) := by
      obtain ⟨inner, hinner, hnil⟩ := folder_of_get?_cons hsub
      cases hnil
      exact hinner
    have hmem := (Value.get?_eq_some_iff hd.nodup).1 hget
    have hat : Folder.get? sub names = some (.file content) := by
      rwa [get?_cons, hget, Option.bind_some, Entry.at?_folder] at hfile
    refine ⟨⟨n, folder, sub⟩, mem_chosen_iff.2 ⟨hmem, hnumber, hpos⟩, List.mem_map_of_mem ?_⟩
    exact (mem_scripts_iff ((hd.get?_of_mem hmem).1 sub rfl)).2 ⟨⟨content, hat⟩, hkept, hending⟩

/-- The numbered folders that are searched ascend by number, and by name where the number is the same. -/
theorem pairwise_chosen {es : Folder} (hn : (es.map (·.1)).Nodup) :
    (chosen (numbered es.listing)).Pairwise fun a b =>
      a.number < b.number ∨ a.number = b.number ∧ Text.codes a.name < Text.codes b.name := by
  have hnames : ((numbered es.listing).filter (1 ≤ ·.number)).Pairwise fun a b =>
      Text.codes a.name < Text.codes b.name := by
    apply List.Pairwise.filter
    rw [numbered, List.pairwise_filterMap]
    refine (pairwise_listing hn).imp ?_
    rintro ⟨a, d⟩ ⟨b, e⟩ hab m hm n hn
    cases d <;> cases e <;> simp only [reduceCtorEq, Option.map_eq_some_iff] at hm hn
    obtain ⟨_, _, rfl⟩ := hm
    obtain ⟨_, _, rfl⟩ := hn
    exact hab
  exact (stableSort_mergeSort (f := Numbered.number) (fun _ _ => rfl) _).pairwise_lex hnames

/-- **What is picked ascends strictly.** -/
theorem pairwise_picks {f : Filter} {es : Folder} (hd : es.Distinct) : (picks f es).Pairwise Before := by
  rw [picks, List.pairwise_flatMap]
  constructor
  · intro n hn
    obtain ⟨hmem, hnumber, _⟩ := mem_chosen_iff.1 hn
    rw [List.pairwise_map]
    refine (pairwise_scripts f n.entries ((hd.get?_of_mem hmem).1 _ rfl)).imp ?_
    intro p q hpq
    exact ⟨n.number, n.number, hnumber, hnumber, .inr ⟨rfl, .inr ⟨rfl, hpq⟩⟩⟩
  · refine (pairwise_chosen hd.nodup).imp_of_mem ?_
    intro m n hm hn hmn p hp q hq
    obtain ⟨_, _, rfl⟩ := List.mem_map.1 hp
    obtain ⟨_, _, rfl⟩ := List.mem_map.1 hq
    refine ⟨m.number, n.number, (mem_chosen_iff.1 hm).2.1, (mem_chosen_iff.1 hn).2.1, ?_⟩
    rcases hmn with h | ⟨h, hname⟩
    · exact .inl h
    · exact .inr ⟨h, .inl hname⟩

/-! ## The whole selection -/

theorem picks_rearranged {f : Filter} {es es' : Folder} (hd : es.Distinct) (hd' : es'.Distinct)
    (h : Rearranged es es') : picks f es' = picks f es := by
  -- both lists ascend strictly, so it is enough that they have the same members
  apply List.Pairwise.eq_of_mem_iff (pairwise_picks hd') (pairwise_picks hd)
  rintro ⟨folder, names⟩
  rw [mem_picks_iff hd', mem_picks_iff hd]
  exact ⟨Selectable.rearranged fun place => (h place).symm, Selectable.rearranged h⟩

theorem selected_eq_picks {w : Workspace} {root : Path} {es : Folder} {f : Filter}
    (h : w.folder? root = .ok (some es)) (hfits : Fits root f es) :
    selected w root f = .ok ((picks f es).map fun p => scriptPath root p.1 p.2) := by
  rw [← found_eq_picks]
  exact selected_of_fits h hfits

theorem distinct_of_folder? {w : Workspace} {root : Path} {es : Folder} (h : w.folder? root = .ok (some es))
    (hd : w.tree.Distinct) : es.Distinct := by
  obtain ⟨q, hl⟩ := Workspace.folder?_some_iff.1 h
  exact hd.of_get? (walk_found (Workspace.locate_ok_iff.1 hl).2.2)

/-- **Exactly the scripts in the numbered folders of the root are selected, each once, in one order that the tree
alone decides, if the system can be asked about every entry on the way.**  If the path of one of them is too long,
nothing is selected. -/
theorem select_exact {w : Workspace} {root : Path} {es : Folder} (hroot : w.folder? root = .ok (some es))
    (hdistinct : w.tree.Distinct) (f : Filter) :
    ∃ picked : List (String × List String),
      (∀ folder names, (folder, names) ∈ picked ↔ Selectable f es folder names) ∧
      picked.Pairwise Before ∧ (picked.map fun p => scriptPath root p.1 p.2).Nodup ∧
      ((select root f).Answers w (.ok (picked.map fun p => scriptPath root p.1 p.2)) ↔ Fits root f es) ∧
      (¬ Fits root f es → ∃ p, ¬ Short p ∧ (select root f).Answers w (.error (.file (.fault .nameTooLong p)))) ∧
      ∀ (w' : Workspace) (es' : Folder), w'.folder? root = .ok (some es') → w'.tree.Distinct → Rearranged es es' →
        Fits root f es → (select root f).Answers w' (.ok (picked.map fun p => scriptPath root p.1 p.2)) := by
  have hd := distinct_of_folder? hroot hdistinct
  refine ⟨picks f es, fun _ _ => mem_picks_iff hd, pairwise_picks hd, ?_, ⟨fun hanswers => ?_, fun hfits => ?_⟩, ?_, ?_⟩
  · refine List.Nodup.map (scriptPath_injective root) ((pairwise_picks hd).imp ?_)
    rintro a b hab rfl
    exact Std.Irrefl.irrefl a hab
  · have hselected := (select_answers root f w).unique hanswers
    rcases selected_ok_iff.1 hselected with ⟨hnone, _⟩ | ⟨_, hsome, hfits, _⟩
    · rw [hroot] at hnone
      cases hnone
    · rw [hroot] at hsome
      cases hsome
      exact hfits
  · rw [← selected_eq_picks hroot hfits]
    exact select_answers root f w
  · intro hfits
    obtain ⟨p, hselected, hp⟩ := selected_of_not_fits hroot hfits
    exact ⟨p, hp, hselected ▸ select_answers root f w⟩
  · intro w' es' hroot' hdistinct' hsame hfits
    have hd' := distinct_of_folder? hroot' hdistinct'
    have hfits' : Fits root f es' := fun names hasked =>
      hfits names (hasked.rearranged hd' hd fun place => (hsame place).symm)
    rw [← picks_rearranged hd hd' hsame, ← selected_eq_picks hroot' hfits']
    exact select_answers root f w'

end

/-- A workspace with two numbered folders, one of which holds a folder that is left out, and a link that has the name
of a numbered folder. -/
def mixedFolders : Workspace where
  cwd := []
  tree :=
    [("10", .folder [("a.js", .file [])]), ("1_x", .link "10"),
      ("2_b", .folder [("sub", .folder [("y.js", .file [])]), ("old", .folder [("a.js", .file [])])])]

theorem distinct_mixedFolders : mixedFolders.tree.Distinct := distinct_of_everywhere (by decide)

section
attribute [local instance] Surrogates.unassigned

theorem folder?_mixedFolders : mixedFolders.folder? ⟨.root, []⟩ = .ok (some mixedFolders.tree) := by
  refine Workspace.folder?_some_iff.2 ⟨[], Workspace.locate_ok_iff.2 ⟨by decide, by decide, ?_⟩⟩
  exact walk_nil rfl

theorem fits_mixedFolders (f : Filter) : Fits ⟨.root, []⟩ f mixedFolders.tree := fits_of_shortIn f (by decide)

/-- In that workspace the script behind the folder that is not left out is selected, and what the link leads to is
not. -/
theorem select_exact_mixedFolders : mixedFolders.folder? ⟨.root, []⟩ = .ok (some mixedFolders.tree) ∧
    mixedFolders.tree.Distinct ∧
    ∃ picked : List (String × List String),
      (select ⟨.root, []⟩ ⟨[".js"], ["old"]⟩).Answers mixedFolders
        (.ok (picked.map fun p => scriptPath ⟨.root, []⟩ p.1 p.2)) ∧
      picked.Pairwise Before ∧ ("2_b", ["sub", "y.js"]) ∈ picked ∧ ("10", ["a.js"]) ∈ picked ∧
      ("2_b", ["old", "a.js"]) ∉ picked ∧ ("1_x", ["a.js"]) ∉ picked := by
  obtain ⟨picked, hmem, hordered, _, hanswers, _⟩ :=
    select_exact folder?_mixedFolders distinct_mixedFolders ⟨[".js"], ["old"]⟩
  refine ⟨folder?_mixedFolders, distinct_mixedFolders, picked, hanswers.2 (fits_mixedFolders _), hordered,
    (hmem _ _).2 ?_, (hmem _ _).2 ?_, ?_, ?_⟩
  · have hfile : mixedFolders.tree.get? ["2_b", "sub", "y.js"] = some (.file []) := rfl
    exact ⟨⟨2, by decide, number?_eq_some_iff.1 (by decide)⟩, by decide, fun _ _ => folders_of_file hfile,
      ⟨[], hfile⟩, by decide, "y.js", rfl, ".js", by decide, by decide⟩
  · have hfile : mixedFolders.tree.get? ["10", "a.js"] = some (.file []) := rfl
    exact ⟨⟨10, by decide, number?_eq_some_iff.1 (by decide)⟩, by decide, fun _ _ => folders_of_file hfile,
      ⟨[], hfile⟩, by decide, "a.js", rfl, ".js", by decide, by decide⟩
  · intro h
    exact ((hmem _ _).1 h).kept "old" (by decide) (by decide)
  · intro h
    obtain ⟨content, hfile⟩ := ((hmem _ _).1 h).file
    cases hfile

/-- One script whose path is short enough, and one whose path is not. -/
def nearAndFar : Folder := [("a.js", .file []), (longName 30 ++ ".js", .file [])]

theorem distinct_nearAndFar : nearAndFar.Distinct := distinct_of_everywhere (by decide +kernel)

theorem not_fits_nearAndFar (f : Filter) (hskip : longName 30 ++ ".js" ∉ f.skip) :
    ¬ Fits detours f [("1_x", .folder nearAndFar)] := by
  intro hfits
  have hasked : Asked f [("1_x", .folder nearAndFar)] ["1_x", longName 30 ++ ".js"] :=
    .inside List.mem_cons_self (show number? "1_x" = some 1 by decide) (by decide)
      (.entry (List.mem_cons_of_mem _ List.mem_cons_self) hskip)
  have hshort := hfits _ hasked
  rw [Short, nameSize_below_detours] at hshort
  exact absurd hshort (by decide +kernel)

/-- Where the path of one entry is too long, nothing is selected, although there is a script to be selected. -/
theorem select_fails_nearAndFar : ¬ ∀ (w : Workspace) (root : Path) (es : Folder) (f : Filter),
    w.folder? root = .ok (some es) → w.tree.Distinct → ∃ picked : List (String × List String),
      (∀ folder names, (folder, names) ∈ picked ↔ Selectable f es folder names) ∧
        (select root f).Answers w (.ok (picked.map fun p => scriptPath root p.1 p.2)) := by
  intro h
  obtain ⟨picked, _, hanswers⟩ := h _ _ _ ⟨[".js"], []⟩ (folder?_detours nearAndFar)
    (distinct_farFolder distinct_nearAndFar)
  obtain ⟨p, hfails, _⟩ := selected_of_not_fits (folder?_detours nearAndFar)
    (not_fits_nearAndFar ⟨[".js"], []⟩ (by simp))
  rw [(select_answers _ _ _).unique hanswers] at hfails
  cases hfails

end

end RequestAtlas.Selection
