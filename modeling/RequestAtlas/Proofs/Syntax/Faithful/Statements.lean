import RequestAtlas.Proofs.Syntax.Faithful.Expressions
import RequestAtlas.Syntax.Source
/-!
# Statements and scripts

Declarations and statements keep to the source, and so does the whole grammar, level by level.  Main statement
`faithful_of_parse?`: every node of a script that is read says what stands in its source.
-/

namespace RequestAtlas.Syntax

-- instance search goes through a whole step at once
set_option synthInstance.maxSize 20000

variable {source : List Char} {low : Nat}

namespace Parse

section
variable {g : Grammar} [hg : g.Keeps source]

instance : Keeps source low (expressionStatement g) := by
  unfold expressionStatement
  refine keeps_bind inferInstance fun _ _ => keeps_bind inferInstance fun w _ => ?_
  cases w <;> infer_instance

/-! ## Variables -/

instance : Keeps source low (declarator g) := by
  unfold declarator
  infer_instance

section
variable (start : Cursor) [Sound source low start]

instance : Keeps source low (declarators g start) := by
  unfold declarators
  infer_instance

end

instance : Keeps source low (variableDeclaration g) := by
  unfold variableDeclaration
  infer_instance

/-! ## Functions, classes and types -/

instance : Keeps source low (functionDeclaration g) := by
  unfold functionDeclaration
  infer_instance

instance : Keeps source low seesFunction := by
  unfold seesFunction
  infer_instance

instance : Keeps source low (classDeclaration g) := by
  unfold classDeclaration
  infer_instance

instance : Keeps source low seesClass := by
  unfold seesClass
  infer_instance

instance : Keeps source low (interfaceDeclaration g) := by
  unfold interfaceDeclaration
  infer_instance

instance : Keeps source low (enumDeclaration g) := by
  unfold enumDeclaration
  infer_instance

instance : Keeps source low (typeAlias g) := by
  unfold typeAlias
  infer_instance

instance : Keeps source low (moduleDeclaration g) := by
  unfold moduleDeclaration
  infer_instance

/-! ## Imports and exports -/

instance : Keeps source low exportedName := by
  unfold exportedName
  infer_instance

instance : Keeps source low specifiers.plain := by
  unfold specifiers.plain
  infer_instance

instance : Keeps source low specifiers.marked := by
  unfold specifiers.marked
  infer_instance

instance : Keeps source low specifiers := by
  unfold specifiers
  infer_instance

instance : Keeps source low fromClause := by
  unfold fromClause
  infer_instance

instance : Keeps source low importClause.everything := by
  unfold importClause.everything
  infer_instance

instance : Keeps source low importClause.leadingName := by
  unfold importClause.leadingName
  infer_instance

instance : Keeps source low importClause := by
  unfold importClause
  infer_instance

instance : Keeps source low importStatement.source := by
  unfold importStatement.source
  infer_instance

instance : Keeps source low importStatement.required := by
  unfold importStatement.required
  infer_instance

instance : Keeps source low (importStatement g) := by
  unfold importStatement
  infer_instance

instance : Keeps source low importAlias := by
  unfold importAlias
  infer_instance

theorem keeps_declaration : ∀ fuel : Nat, Keeps source low (declaration g fuel)
  | 0 => by
    unfold declaration
    infer_instance
  | fuel + 1 => by
    have := keeps_declaration fuel
    unfold declaration
    refine keeps_bind inferInstance fun _ _ => ?_
    split
    · infer_instance
    · refine keeps_bind inferInstance fun w _ => ?_
      split <;> infer_instance

instance (fuel : Nat) : Keeps source low (declaration g fuel) := keeps_declaration fuel

instance : Keeps source low (exportStatement g) := by
  unfold exportStatement
  infer_instance

/-! ## Control flow -/

instance : Keeps source low (condition g) := by
  unfold condition
  infer_instance

instance : Keeps source low forEachHead.seesEach := by
  unfold forEachHead.seesEach
  infer_instance

instance : Keeps source low (forEachHead g) := by
  unfold forEachHead
  infer_instance

instance : Keeps source low (forHead g) := by
  unfold forHead
  infer_instance

instance : Keeps source low (switchStatement.label g) := by
  unfold switchStatement.label
  infer_instance

instance : Keeps source low (switchStatement.case g) := by
  unfold switchStatement.case
  infer_instance

section
variable (start : Cursor) [Sound source low start]

instance : Keeps source low (ifStatement g start) := by
  unfold ifStatement
  infer_instance

instance : Keeps source low (whileStatement g start) := by
  unfold whileStatement
  infer_instance

instance : Keeps source low (withStatement g start) := by
  unfold withStatement
  infer_instance

instance : Keeps source low (doStatement g start) := by
  unfold doStatement
  infer_instance

instance : Keeps source low (forStatement g start) := by
  unfold forStatement
  infer_instance

instance : Keeps source low (tryStatement g start) := by
  unfold tryStatement
  infer_instance

instance : Keeps source low (switchStatement g start) := by
  unfold switchStatement
  infer_instance

instance (w : String) : Keeps source low (jump start w) := by
  unfold jump
  infer_instance

instance : Keeps source low (returnStatement g start) := by
  unfold returnStatement
  infer_instance

instance : Keeps source low (throwStatement g start) := by
  unfold throwStatement
  infer_instance

/-! ## Statements -/

instance : Keeps source low (labelled g start) := by
  unfold labelled
  infer_instance

instance : Keeps source low seesContinuation := by
  unfold seesContinuation
  refine keeps_bind inferInstance fun c _ => ?_
  split <;> infer_instance

instance : Keeps source low (braced g) := by
  unfold braced
  infer_instance

instance (w : String) : Keeps source low (wordStatement g start w) := by
  unfold wordStatement
  split <;> infer_instance

end

instance : Keeps source low (statement g) := by
  unfold statement
  refine keeps_bind inferInstance fun _ _ => keeps_bind inferInstance fun start _ => ?_
  split
  case h_4 =>
    refine keeps_bind inferInstance fun w _ => ?_
    cases w <;> infer_instance
  all_goals infer_instance

/-! ## Scripts -/

instance : Keeps source low (program g) := by
  unfold program
  infer_instance

end

end Parse

/-- A grammar keeps to the source if the one that it enters does. -/
theorem Grammar.keeps_ofDepth (source : List Char) : ∀ n : Nat, (Grammar.ofDepth n).Keeps source
  | 0 => by
    constructor <;> intros <;> exact inferInstanceAs (Syntax.Keeps _ _ failure)
  | n + 1 => by
    have hn := keeps_ofDepth source n
    exact
      { expression := fun _ sc => inferInstanceAs (Syntax.Keeps _ _ (Parse.expression (.ofDepth n) sc))
        operand := fun _ sc => inferInstanceAs (Syntax.Keeps _ _ (Parse.operand (.ofDepth n) sc))
        type := fun _ line => inferInstanceAs (Syntax.Keeps _ _ (Parse.type (.ofDepth n) line))
        primaryType := fun _ line => inferInstanceAs (Syntax.Keeps _ _ (Parse.primaryType (.ofDepth n) line))
        pattern := fun _ => inferInstanceAs (Syntax.Keeps _ _ (Parse.pattern (.ofDepth n)))
        element := fun _ => inferInstanceAs (Syntax.Keeps _ _ (Parse.element (.ofDepth n)))
        statement := fun _ => inferInstanceAs (Syntax.Keeps _ _ (Parse.statement (.ofDepth n))) }

/-- **Every node of a script says what stands in its source**: it covers the characters at its offset, and a template is
segments with its substitutions between them. -/
theorem faithful_of_parse? {source : String} {script : Node} (h : parse? source = some script) :
    script.All (Node.Faithful source.toList) := by
  have hstart : (Cursor.ofString source).Within source.toList 0 := ⟨⟨[], rfl, rfl⟩, rfl, Nat.zero_le _⟩
  have := Grammar.keeps_ofDepth source.toList
  obtain ⟨⟨_, d⟩, hprogram, hn⟩ := Option.map_eq_some_iff.1 h
  cases hn
  exact ((inferInstance : Keeps source.toList 0 (Parse.program _)).out hstart hprogram).2.out

/-- A parser whose trees say what stands in the source. -/
class LawfulParser [Parser] : Prop where
  faithful : ∀ {source : String} {script : Node}, Parser.parse? source = some script →
    script.All (Node.Faithful source.toList)

theorem LawfulParser.javascript : @LawfulParser .javascript := @LawfulParser.mk .javascript faithful_of_parse?

/-- Offsets do not count a byte order mark. -/
theorem faithful_of_readText [Parser] [LawfulParser] {source : List Char} {script : Node}
    (h : readText source = .ok script) : script.All (Node.Faithful (dropMark source)) := by
  unfold readText at h
  split at h
  · next n hparse =>
    cases h
    rw [← @String.toList_ofList (dropMark source)]
    exact LawfulParser.faithful hparse
  · cases h

end RequestAtlas.Syntax
