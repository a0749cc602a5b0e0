import RequestAtlas.CommandLine.Arguments
import RequestAtlas.Proofs.Results
import Mathlib.Data.List.TakeWhile
/-!
# Options as arguments

What options are written as is a relation apart from the reader (`Spells`): an option with its value behind it or
attached by an equals sign, an option without a value, or letters behind one dash.  Main statement `parse_eq_ok_iff`:
arguments without any other word are taken apart into the options that they spell.
-/

namespace RequestAtlas.CommandLine

namespace Flag

/-- The word of an option, behind its dashes. -/
def word (f : Flag) : List Char := f.text.toList.drop 2

theorem text_eq (f : Flag) : f.text = String.ofList ('-' :: '-' :: f.word) := by cases f <;> rfl

theorem word_ne_nil (f : Flag) : f.word ≠ [] := by cases f <;> decide

theorem equals_notMem_word (f : Flag) : '=' ∉ f.word := by cases f <;> decide

theorem ne_of_mem_word (f : Flag) : ∀ c ∈ f.word, (c != '=') = true :=
  fun _ hc => bne_iff_ne.2 (ne_of_mem_of_not_mem hc f.equals_notMem_word)

theorem takeWhile_word (f : Flag) : f.word.takeWhile (· != '=') = f.word :=
  List.takeWhile_eq_self_iff.2 f.ne_of_mem_word

/-- No two options are written alike. -/
theorem text_inj {f g : Flag} (h : f.text = g.text) : f = g := by
  have hfind : ∀ f, Command.generate.flags.find? (·.text == f.text) = some f := fun f => by cases f <;> decide
  have hf := hfind f
  rw [h, hfind g, Option.some.injEq] at hf
  exact hf.symm

theorem of_find?_text {flags : List Flag} {f : Flag} {name : String}
    (h : flags.find? (·.text == name) = some f) : f ∈ flags ∧ f.text = name :=
  ⟨List.mem_of_find?_eq_some h, beq_iff_eq.1 (List.find?_some (p := fun g : Flag => g.text == name) h)⟩

theorem find?_text {flags : List Flag} {f : Flag} (hf : f ∈ flags) : flags.find? (·.text == f.text) = some f := by
  cases hfind : flags.find? (·.text == f.text) with
  | none => exact absurd (beq_self_eq_true f.text) (List.find?_eq_none.1 hfind f hf)
  | some g => rw [text_inj (of_find?_text hfind).2]

end Flag

/-! ## Spelling -/

/-- The arguments spell the options, in this order. -/
inductive Spells (flags : List Flag) : List String → List (Flag × String) → Prop
  | nil : Spells flags [] []
  /-- Two dashes, behind which there is nothing. -/
  | stop : Spells flags ["--"] []
  | separate {f : Flag} {args : List String} {os : List (Flag × String)} (hf : f ∈ flags) (hvalue : f.takesValue = true)
      (value : String) (h : Spells flags args os) : Spells flags (f.text :: value :: args) ((f, value) :: os)
  | attached {f : Flag} {args : List String} {os : List (Flag × String)} (hf : f ∈ flags) (hvalue : f.takesValue = true)
      (value : String) (h : Spells flags args os) : Spells flags ((f.text ++ "=" ++ value) :: args) ((f, value) :: os)
  | plain {f : Flag} {args : List String} {os : List (Flag × String)} (hf : f ∈ flags) (hvalue : f.takesValue = false)
      (h : Spells flags args os) : Spells flags (f.text :: args) ((f, "") :: os)
  | letters {n : Nat} {args : List String} {os : List (Flag × String)} (hn : 0 < n) (hverbose : .verbose ∈ flags)
      (h : Spells flags args os) :
      Spells flags (String.ofList ('-' :: List.replicate n 'v') :: args) (List.replicate n (.verbose, "") ++ os)

theorem Spells.mem_flags {flags : List Flag} {args : List String} {os : List (Flag × String)}
    (h : Spells flags args os) : ∀ o ∈ os, o.1 ∈ flags := by
  induction h with
  | nil | stop => exact nofun
  | separate hf _ _ _ ih | attached hf _ _ _ ih | plain hf _ _ ih => exact List.forall_mem_cons.2 ⟨hf, ih⟩
  | letters _ hverbose _ ih =>
    intro o ho
    rcases List.mem_append.1 ho with ho | ho
    · rwa [List.eq_of_mem_replicate ho]
    · exact ih o ho

/-! ## Reading -/

theorem letters_eq_ok_iff {flags : List Flag} : ∀ {cs : List Char} {os : List (Flag × String)},
    letters flags cs = .ok os ↔
      (∀ c ∈ cs, c = 'v' ∧ flags.contains .verbose) ∧ os = List.replicate cs.length (.verbose, "")
  | [], os => by simp [letters, eq_comm]
  | c :: cs, os => by
    rw [letters, List.forall_mem_cons]
    by_cases hc : c = 'v' ∧ flags.contains .verbose
    · rw [if_pos hc, Results.bind_eq_ok_iff]
      simp only [letters_eq_ok_iff, hc, true_and]
      constructor
      · rintro ⟨rest, ⟨hcs, rfl⟩, h⟩
        cases h
        exact ⟨hcs, rfl⟩
      · rintro ⟨hcs, rfl⟩
        exact ⟨_, ⟨hcs, rfl⟩, rfl⟩
    · rw [if_neg hc]
      exact iff_of_false nofun fun h => hc h.1.1

section
variable {flags : List Flag} {f : Flag} (hf : f ∈ flags) (args : List String)
include hf

/-- An option without anything attached is read alone or with the next argument. -/
theorem parse_text : parse flags true (f.text :: args) =
    if f.takesValue then
      match args with
      | value :: rest => (parse flags true rest).map (.option f value)
      | [] => .error (.noValue f.text)
    else (parse flags true args).map (.option f "") := by
  obtain ⟨c, cs, hword⟩ := List.exists_cons_of_ne_nil f.word_ne_nil
  have hnone : f.word.contains '=' = false := by simpa using f.equals_notMem_word
  have htext : f.text.toList = '-' :: '-' :: c :: cs := by rw [f.text_eq, String.toList_ofList, hword]
  rw [parse]
  simp only [htext]
  rw [← hword, f.takeWhile_word, hnone, ← f.text_eq, Flag.find?_text hf]
  by_cases hvalue : f.takesValue = true
  · simp only [hvalue, Bool.false_eq_true, if_false, if_true]
    cases args with
    | nil => rfl
    | cons value rest => cases parse flags true rest <;> rfl
  · simp only [hvalue, Bool.false_eq_true, if_false]
    cases parse flags true args <;> rfl

/-- What is attached to an option is its value. -/
theorem parse_attached (value : String) : parse flags true ((f.text ++ "=" ++ value) :: args) =
    if f.takesValue then (parse flags true args).map (.option f value) else .error (.unwantedValue f.text) := by
  obtain ⟨c, cs, hword⟩ := List.exists_cons_of_ne_nil f.word_ne_nil
  have htext : (f.text ++ "=" ++ value).toList = '-' :: '-' :: c :: (cs ++ '=' :: value.toList) := by
    simp [f.text_eq, hword]
  have hmem : (f.word ++ '=' :: value.toList).contains '=' = true := by simp
  have hname : (f.word ++ '=' :: value.toList).takeWhile (· != '=') = f.word := by
    rw [List.takeWhile_append_of_pos f.ne_of_mem_word]
    simp
  have hvalue : (f.word ++ '=' :: value.toList).dropWhile (· != '=') = '=' :: value.toList := by
    rw [List.dropWhile_append_of_pos f.ne_of_mem_word]
    simp
  rw [parse]
  simp only [htext]
  rw [← List.cons_append, ← hword, hname, hmem, hvalue, ← f.text_eq, Flag.find?_text hf]
  simp only [if_true, List.drop_one, List.tail_cons, String.ofList_toList]
  cases parse flags true args <;> rfl

end

/-- Letters behind one dash ask for a more detailed log, each of them once. -/
theorem parse_letters {flags : List Flag} (hverbose : .verbose ∈ flags) (args : List String) {n : Nat} (hn : 0 < n) :
    parse flags true (String.ofList ('-' :: List.replicate n 'v') :: args) =
      (parse flags true args).map fun p => { p with options := List.replicate n (.verbose, "") ++ p.options } := by
  obtain ⟨m, rfl⟩ := Nat.exists_eq_add_one.2 hn
  have hletters : letters flags (List.replicate (m + 1) 'v') = .ok (List.replicate (m + 1) (.verbose, "")) := by
    rw [letters_eq_ok_iff, List.length_replicate]
    exact ⟨fun c hc => ⟨List.eq_of_mem_replicate hc, List.contains_iff_mem.2 hverbose⟩, rfl⟩
  have hparse : parse flags true (String.ofList ('-' :: List.replicate (m + 1) 'v') :: args) = do
      let given ← letters flags (List.replicate (m + 1) 'v')
      let p ← parse flags true args
      return { p with options := given ++ p.options } := by
    rw [parse, String.toList_ofList]
    rfl
  rw [hparse, hletters]
  cases parse flags true args <;> rfl

/-- Arguments that spell options are taken apart into these. -/
theorem parse_of_spells {flags : List Flag} {args : List String} {os : List (Flag × String)}
    (h : Spells flags args os) : parse flags true args = .ok ⟨os, []⟩ := by
  induction h with
  | nil => rfl
  | stop => rfl
  | separate hf hvalue value _ ih =>
    rw [parse_text hf, if_pos hvalue]
    dsimp only
    rw [ih]
    rfl
  | attached hf hvalue value _ ih =>
    rw [parse_attached hf, if_pos hvalue, ih]
    rfl
  | plain hf hvalue _ ih =>
    rw [parse_text hf, if_neg (by simp [hvalue]), ih]
    rfl
  | letters hn hverbose _ ih =>
    rw [parse_letters hverbose _ hn, ih]
    rfl

/-- A word falls into the part before its first equals sign, the sign and the part behind it. -/
theorem eq_attached {word : List Char} (h : '=' ∈ word) :
    word.takeWhile (· != '=') ++ '=' :: (word.dropWhile (· != '=')).drop 1 = word := by
  induction word with
  | nil => cases h
  | cons c cs ih =>
    by_cases hc : c = '='
    · simp [hc]
    · have hcs : '=' ∈ cs := by simpa [Ne.symm hc] using h
      simp only [List.takeWhile_cons, List.dropWhile_cons, bne_iff_ne.2 hc, if_true, List.cons_append, ih hcs]

/-- An argument behind two dashes is the option named before its first equals sign, with what is attached. -/
theorem eq_text_attached {arg : String} {word : List Char} {f : Flag} {value : String}
    (harg : arg.toList = '-' :: '-' :: word)
    (htext : f.text = String.ofList ('-' :: '-' :: word.takeWhile (· != '=')))
    (hvalue : (if word.contains '=' then some (String.ofList ((word.dropWhile (· != '=')).drop 1)) else none) =
      some value) : arg = f.text ++ "=" ++ value := by
  obtain ⟨hequals, hvalue⟩ := Option.ite_none_right_eq_some.1 hvalue
  rw [← String.toList_inj, harg, htext, ← Option.some.inj hvalue]
  simp only [String.toList_append, String.toList_ofList, List.cons_append, List.append_assoc]
  exact congrArg ('-' :: '-' :: ·) (eq_attached (List.contains_iff_mem.1 hequals)).symm

theorem eq_text {arg : String} {word : List Char} {f : Flag} (harg : arg.toList = '-' :: '-' :: word)
    (htext : f.text = String.ofList ('-' :: '-' :: word.takeWhile (· != '=')))
    (hnone : (if word.contains '=' then some (String.ofList ((word.dropWhile (· != '=')).drop 1)) else none) =
      none) : arg = f.text := by
  have hequals : '=' ∉ word := by simpa using hnone
  have htake : word.takeWhile (· != '=') = word :=
    List.takeWhile_eq_self_iff.2 fun _ hc => bne_iff_ne.2 (ne_of_mem_of_not_mem hc hequals)
  rw [← String.toList_inj, harg, htext, htake, String.toList_ofList]

/-- What is taken apart without any other word spells its options. -/
theorem spells_of_parse {flags : List Flag} {args : List String} {p : Parsed} (h : parse flags true args = .ok p)
    (hextra : p.extra = []) : Spells flags args p.options := by
  -- the mode has to be a variable for the induction on the reader
  generalize hmixed : true = mixed at h
  fun_induction parse flags mixed args generalizing p with
  | case1 =>
    cases h
    exact .nil
  | case2 arg rest harg =>
    cases h
    rw [← String.ofList_toList (s := arg), harg, show rest = [] from hextra]
    exact .stop
  | case3 | case5 | case7 => cases h
  | case4 arg rest word _ harg name attached? f value hattached hfind hvalue =>
    rename_i ih
    obtain ⟨q, hq, h⟩ := Results.bind_eq_ok_iff.1 h
    cases h
    obtain ⟨hf, htext⟩ := Flag.of_find?_text hfind
    rw [eq_text_attached harg htext hattached]
    exact .attached hf hvalue value (ih hextra hq)
  | case6 arg word _ harg name attached? f hattached hfind hvalue value rest =>
    rename_i ih
    obtain ⟨q, hq, h⟩ := Results.bind_eq_ok_iff.1 h
    cases h
    obtain ⟨hf, htext⟩ := Flag.of_find?_text hfind
    rw [eq_text harg htext hattached]
    exact .separate hf hvalue value (ih hextra hq)
  | case8 arg rest word _ harg name attached? f hattached hfind hvalue =>
    rename_i ih
    obtain ⟨q, hq, h⟩ := Results.bind_eq_ok_iff.1 h
    cases h
    obtain ⟨hf, htext⟩ := Flag.of_find?_text hfind
    rw [eq_text harg htext hattached]
    exact .plain hf (Bool.eq_false_iff.2 hvalue) (ih hextra hq)
  | case9 arg rest c cs _ _ harg ih =>
    obtain ⟨given, hgiven, h⟩ := Results.bind_eq_ok_iff.1 h
    obtain ⟨q, hq, h⟩ := Results.bind_eq_ok_iff.1 h
    cases h
    obtain ⟨hletters, rfl⟩ := letters_eq_ok_iff.1 hgiven
    have hcs : c :: cs = List.replicate (c :: cs).length 'v' :=
      List.eq_replicate_of_mem fun d hd => (hletters d hd).1
    have hverbose := List.contains_iff_mem.1 (hletters c List.mem_cons_self).2
    rw [← String.ofList_toList (s := arg), harg, hcs, List.length_replicate]
    exact .letters (Nat.succ_pos _) hverbose (ih hextra hq)
  | case10 arg rest _ _ _ _ ih =>
    obtain ⟨q, _, h⟩ := Results.bind_eq_ok_iff.1 h
    cases h
    cases hextra
  | case11 _ _ hmix => exact absurd hmixed.symm hmix

/-- **Arguments are taken apart into options, and nothing else, just if they spell these options.** -/
theorem parse_eq_ok_iff {flags : List Flag} {args : List String} {os : List (Flag × String)} :
    parse flags true args = .ok ⟨os, []⟩ ↔ Spells flags args os :=
  ⟨fun h => spells_of_parse h rfl, parse_of_spells⟩

/-- A further request for a more detailed log is one more option. -/
theorem parse_verbose {flags : List Flag} (h : .verbose ∈ flags) (args : List String) :
    parse flags true ("-v" :: args) = (parse flags true args).map (Parsed.option .verbose "") :=
  parse_letters h args Nat.one_pos

/-- The name of a command is no option, and it ends those of the program. -/
theorem parse_command (cmd : Command) (args : List String) :
    parse [.help] false (cmd.name :: args) = .ok { extra := cmd.name :: args } := by
  cases cmd <;> rfl

/-- What is known of a parser of options: arguments without any other word spell the options that they are taken apart
into, a request for a more detailed log is one more option, and the name of a command is a word of its own. -/
class LawfulOptionParser [OptionParser] : Prop where
  parse_eq_ok_iff : ∀ {flags : List Flag} {args : List String} {os : List (Flag × String)},
    OptionParser.parse flags true args = .ok ⟨os, []⟩ ↔ Spells flags args os
  parse_verbose : ∀ {flags : List Flag}, .verbose ∈ flags → ∀ args : List String,
    OptionParser.parse flags true ("-v" :: args) = (OptionParser.parse flags true args).map (Parsed.option .verbose "")
  parse_command : ∀ (cmd : Command) (args : List String),
    OptionParser.parse [.help] false (cmd.name :: args) = .ok { extra := cmd.name :: args }

theorem LawfulOptionParser.posix : @LawfulOptionParser .posix :=
  @LawfulOptionParser.mk .posix CommandLine.parse_eq_ok_iff CommandLine.parse_verbose CommandLine.parse_command

end RequestAtlas.CommandLine
