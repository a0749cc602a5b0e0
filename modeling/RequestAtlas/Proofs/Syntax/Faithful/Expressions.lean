import RequestAtlas.Proofs.Syntax.Faithful.Members
/-!
# Expressions

Operands, what is attached to them, and chains of operators keep to the source.
-/

namespace RequestAtlas.Syntax.Parse

-- instance search goes through a whole step at once
set_option synthInstance.maxSize 20000

variable {source : List Char} {low : Nat} {g : Grammar} [hg : g.Keeps source]

instance (sc : Scope) : Keeps source low (continues sc) := by
  unfold continues
  infer_instance

/-! ## Operators -/

instance : Keeps source low binaryOperator := by
  unfold binaryOperator
  refine keeps_bind inferInstance fun start _ => ?_
  split <;> infer_instance

instance : Keeps source low questionMark := by
  unfold questionMark
  refine keeps_bind inferInstance fun _ _ => keeps_bind inferInstance fun _ _ => ?_
  split <;> infer_instance

instance : Keeps source low seesOperand := by
  unfold seesOperand
  refine keeps_bind inferInstance fun c _ => ?_
  split
  · infer_instance
  · split
    · infer_instance
    · refine keeps_bind inferInstance fun w _ => ?_
      split <;> infer_instance
  · infer_instance

/-! ## Functions -/

instance (sc : Scope) : Keeps source low (arrowBody g sc) := by
  unfold arrowBody
  infer_instance

section
variable (start : Cursor) [Sound source low start]

instance (sc : Scope) : Keeps source low (arrowFunction g sc start) := by
  unfold arrowFunction
  infer_instance

instance (sc : Scope) : Keeps source low (bareArrow g sc start) := by
  unfold bareArrow
  infer_instance

instance (named : Bool) : Keeps source low (functionTail g start named) := by
  unfold functionTail
  infer_instance

end

/-! ## Primary expressions -/

instance : Keeps source low (parenthesized g) := by
  unfold parenthesized
  infer_instance

instance (literal : Parse Node) [Keeps source low literal] : Keeps source low (literalOrPattern g literal) := by
  unfold literalOrPattern
  infer_instance

section
variable (start : Cursor) [Sound source low start]

instance : Keeps source low (namespaceConstruct g start) := by
  unfold namespaceConstruct
  infer_instance

instance (e : Node) [Sound source low e] : Keeps source low (newExpression.step g start e) := by
  unfold newExpression.step
  infer_instance

instance (e : Node) (fuel : Nat) [he : Sound source low e] : Keeps source low (newExpression.go g start e fuel) :=
  keeps_loop (newExpression.step g start) (newExpression.go g start) (fun _ => rfl)
    (fun _ _ => ⟨_, rfl, rfl, fun _ => rfl⟩) (fun _ _ => inferInstance) fuel he

instance (base : Parse Node) [Keeps source low base] : Keeps source low (newExpression g start base) := by
  unfold newExpression
  infer_instance

instance : Keeps source low importRoot := by
  unfold importRoot
  infer_instance

instance (sc : Scope) (base : Parse Node) [Keeps source low base] (w : String) :
    Keeps source low (wordOperand g sc base start w) := by
  unfold wordOperand
  split <;> infer_instance

end

instance (sc : Scope) (base : Parse Node) [Keeps source low base] : Keeps source low (primaryWith g sc base) := by
  unfold primaryWith
  refine keeps_bind inferInstance fun _ _ => keeps_bind inferInstance fun start _ => ?_
  split
  case h_11 =>
    split
    · infer_instance
    · refine keeps_bind inferInstance fun w _ => ?_
      split <;> infer_instance
  all_goals infer_instance

instance (sc : Scope) : Keeps source low (primary g sc) := by
  unfold primary
  infer_instance

/-! ## What is attached to an operand -/

section
variable (start : Cursor) [Sound source low start]

section
variable (e : Node) [Sound source low e]

instance : Keeps source low (memberStep start e) := by
  unfold memberStep
  infer_instance

instance : Keeps source low (subscriptStep g start e) := by
  unfold subscriptStep
  infer_instance

instance : Keeps source low (callStep g start e) := by
  unfold callStep
  infer_instance

instance (sc : Scope) : Keeps source low (instantiationStep g sc start e) := by
  unfold instantiationStep
  infer_instance

instance (sc : Scope) : Keeps source low (postfixStep g sc start e) := by
  unfold postfixStep
  refine keeps_bind inferInstance fun _ _ => keeps_bind inferInstance fun c _ => ?_
  split <;> infer_instance

end

instance (sc : Scope) (e : Node) (fuel : Nat) [he : Sound source low e] :
    Keeps source low (postfixes g sc start e fuel) :=
  keeps_loop (postfixStep g sc start) (postfixes g sc start) (fun _ => rfl) (fun _ _ => ⟨_, rfl, rfl, fun _ => rfl⟩)
    (fun _ _ => inferInstance) fuel he

instance (sc : Scope) (e : Node) [Sound source low e] : Keeps source low (typedPostfixes g sc start e) := by
  unfold typedPostfixes
  refine keeps_bind inferInstance fun _ _ => ?_
  split
  · refine keeps_bind inferInstance fun longer hlonger => ?_
    cases longer with
    | none => infer_instance
    | some e =>
      have := hlonger.of_some
      infer_instance
  · infer_instance

end

instance (sc : Scope) : Keeps source low (attached g sc) := by
  unfold attached
  infer_instance

instance (sc : Scope) : Keeps source low (assignable g sc) := by
  unfold assignable
  refine keeps_bind inferInstance fun _ _ => keeps_bind inferInstance fun start _ =>
    keeps_bind inferInstance fun e _ => ?_
  split
  · infer_instance
  · refine keeps_bind inferInstance fun assigned _ => ?_
    cases assigned <;> infer_instance

instance (sc : Scope) : Keeps source low (operand g sc) := by
  unfold operand
  refine keeps_bind inferInstance fun _ _ => keeps_bind inferInstance fun start _ => ?_
  dsimp only
  split
  case h_7 =>
    refine keeps_bind inferInstance fun w _ => ?_
    split <;> infer_instance
  all_goals infer_instance

/-! ## Chains of operators -/

instance : Keeps source low (tail.branch g) := by
  unfold tail.branch
  infer_instance

instance (sc : Scope) : Keeps source low (tail g sc) := by
  unfold tail
  infer_instance

theorem keeps_chain (sc : Scope) {start : Cursor} [Sound source low start] : ∀ (fuel : Nat) {parts : List Node},
    Sound source low parts → Keeps source low (chain g sc start fuel parts)
  | 0, parts, hparts => by
    unfold chain
    infer_instance
  | fuel + 1, parts, hparts => by
    unfold chain
    refine keeps_bind inferInstance fun more hmore => ?_
    cases more with
    | none => infer_instance
    | some more =>
      obtain ⟨more, tight⟩ := more
      have : Sound source low more := ⟨hmore.of_some.out.1⟩
      refine keeps_bind inferInstance fun _ _ => ?_
      split
      · refine keeps_bind inferInstance fun e _ => keeps_bind inferInstance fun longer hlonger => ?_
        cases longer with
        | none => exact keeps_chain sc fuel inferInstance
        | some e =>
          have := hlonger.of_some
          exact keeps_bind inferInstance fun _ _ => keeps_chain sc fuel inferInstance
      · exact keeps_chain sc fuel inferInstance

instance (sc : Scope) : Keeps source low (expression g sc) := by
  unfold expression
  refine keeps_bind inferInstance fun _ _ => keeps_bind inferInstance fun start _ =>
    keeps_bind inferInstance fun first hfirst => keeps_bind (keeps_chain _ _ inferInstance) fun parts hparts => ?_
  split
  · next e =>
    have : Sound source low e := Sound.list_iff.1 hparts e (List.mem_singleton_self e)
    infer_instance
  · infer_instance

end RequestAtlas.Syntax.Parse
