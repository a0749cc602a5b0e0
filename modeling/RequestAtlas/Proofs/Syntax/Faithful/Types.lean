import RequestAtlas.Proofs.Syntax.Faithful.Grammar
/-!
# Patterns, parameters and types

Destructuring patterns, parameter lists with what a signature returns, and type expressions keep to the source.
-/

namespace RequestAtlas.Syntax.Parse

-- instance search goes through a whole step at once
set_option synthInstance.maxSize 20000

variable {source : List Char} {low : Nat} {g : Grammar} [hg : g.Keeps source]

/-! ## Patterns -/

section
variable {start : Cursor} [Sound source low start]

instance (e : Node) [Sound source low e] : Keeps source low (plainTarget.step g start e) := by
  unfold plainTarget.step
  infer_instance

instance (e : Node) (fuel : Nat) [he : Sound source low e] : Keeps source low (plainTarget.go g start e fuel) :=
  keeps_loop (plainTarget.step g start) (plainTarget.go g start) (fun _ => rfl) (fun _ _ => ⟨_, rfl, rfl, fun _ => rfl⟩)
    (fun _ _ => inferInstance) fuel he

end

instance : Keeps source low (plainTarget g) := by
  unfold plainTarget
  infer_instance

instance (target : Parse Node) [Keeps source low target] : Keeps source low (withDefault g target) := by
  unfold withDefault
  refine keeps_bind inferInstance fun _ _ => keeps_bind inferInstance fun _ _ =>
    keeps_bind inferInstance fun value hvalue => ?_
  cases value with
  | none => infer_instance
  | some e =>
    have := hvalue.of_some
    infer_instance

instance : Keeps source low (innerPattern g) := by
  unfold innerPattern
  infer_instance

instance : Keeps source low (restPattern g) := by
  unfold restPattern
  infer_instance

instance : Keeps source low (arrayPattern g) := by
  unfold arrayPattern
  infer_instance

instance : Keeps source low (objectPattern.pairPattern g) := by
  unfold objectPattern.pairPattern
  infer_instance

instance : Keeps source low (objectPattern.short g) := by
  unfold objectPattern.short
  infer_instance

instance : Keeps source low (objectPattern g) := by
  unfold objectPattern
  infer_instance

instance : Keeps source low (pattern g) := by
  unfold pattern
  infer_instance

instance : Keeps source low (binding g) := by
  unfold binding
  infer_instance

/-! ## Parameters -/

instance : Keeps source low seesParameter := by
  unfold seesParameter
  refine keeps_bind inferInstance fun c _ => ?_
  split <;> infer_instance

instance (words : List String) : Keeps source low (parameterModifier words) := by
  unfold parameterModifier
  infer_instance

instance : Keeps source low (parameter g) := by
  unfold parameter
  infer_instance

instance : Keeps source low (parameters g) := by
  unfold parameters
  infer_instance

instance : Keeps source low returnType.name := by
  unfold returnType.name
  infer_instance

instance (line : Bool) : Keeps source low (returnType.predicate g line) := by
  unfold returnType.predicate
  infer_instance

instance (line : Bool) : Keeps source low (returnType.asserts g line) := by
  unfold returnType.asserts
  infer_instance

instance (line : Bool) : Keeps source low (returnType g line) := by
  unfold returnType
  infer_instance

instance (line : Bool) : Keeps source low (signature g line) := by
  unfold signature
  infer_instance

instance : Keeps source low (block g) := by
  unfold block
  infer_instance

/-! ## Members of object types -/

instance (line : Bool) : Keeps source low (sameLine line) := by
  unfold sameLine
  infer_instance

instance (line : Bool) (words : List String) : Keeps source low (memberModifier line words) := by
  unfold memberModifier
  infer_instance

instance (line : Bool) : Keeps source low (indexSignature.annotation g line) := by
  unfold indexSignature.annotation
  infer_instance

instance (line : Bool) : Keeps source low (indexSignature g line) := by
  unfold indexSignature
  infer_instance

instance : Keeps source low (constructSignature g) := by
  unfold constructSignature
  infer_instance

instance : Keeps source low (typeMember.callSignature g) := by
  unfold typeMember.callSignature
  infer_instance

instance : Keeps source low (typeMember.named g) := by
  unfold typeMember.named
  refine keeps_bind inferInstance fun _ _ => keeps_bind inferInstance fun _ _ => keeps_bind inferInstance fun _ _ =>
    keeps_bind inferInstance fun _ _ => keeps_bind inferInstance fun _ _ =>
    keeps_bind inferInstance fun parts hparts => ?_
  cases parts with
  | none => infer_instance
  | some parts =>
    have := hparts.of_some
    infer_instance

instance : Keeps source low (typeMember.exported g) := by
  unfold typeMember.exported
  infer_instance

instance : Keeps source low (typeMember g) := by
  unfold typeMember
  infer_instance

instance : Keeps source low objectType.separator := by
  unfold objectType.separator
  infer_instance

instance : Keeps source low (objectType g) := by
  unfold objectType
  infer_instance

/-! ## Primary types -/

section
variable {start : Cursor} [Sound source low start]

instance (line : Bool) (e : Node) [Sound source low e] : Keeps source low (typeQuery.step g line start e) := by
  unfold typeQuery.step
  infer_instance

instance (line : Bool) (e : Node) (fuel : Nat) [he : Sound source low e] :
    Keeps source low (typeQuery.go g line start e fuel) :=
  keeps_loop (typeQuery.step g line start) (typeQuery.go g line start) (fun _ => rfl)
    (fun _ _ => ⟨_, rfl, rfl, fun _ => rfl⟩) (fun _ _ => inferInstance) fuel he

instance (e : Node) [Sound source low e] : Keeps source low (importType.step g start e) := by
  unfold importType.step
  infer_instance

instance (e : Node) (fuel : Nat) [he : Sound source low e] : Keeps source low (importType.go g start e fuel) :=
  keeps_loop (importType.step g start) (importType.go g start) (fun _ => rfl) (fun _ _ => ⟨_, rfl, rfl, fun _ => rfl⟩)
    (fun _ _ => inferInstance) fuel he

end

instance (line : Bool) : Keeps source low (typeQuery g line) := by
  unfold typeQuery
  infer_instance

instance : Keeps source low (importType g) := by
  unfold importType
  infer_instance

instance : Keeps source low (tupleMember.labelled g) := by
  unfold tupleMember.labelled
  infer_instance

instance : Keeps source low (tupleMember.rest g) := by
  unfold tupleMember.rest
  infer_instance

instance : Keeps source low (tupleMember.optionalType g) := by
  unfold tupleMember.optionalType
  infer_instance

instance : Keeps source low (tupleMember g) := by
  unfold tupleMember
  infer_instance

instance (line : Bool) : Keeps source low (namedType g line) := by
  unfold namedType
  infer_instance

instance : Keeps source low (templateType.hole g) := by
  unfold templateType.hole
  infer_instance

theorem covers_hole (g : Grammar) : Covers (.construct "template_type") (templateType.hole g) :=
  covers_get fun _ => makes_bind fun _ => makes_bind fun _ => makes_bind fun _ => makes_node _ _ _

instance : Keeps source low (templateType g) := by
  unfold templateType
  have hbody : Keeps source low (templateBody (templateType.hole g) false) :=
    keeps_templateBody false (fun _ => inferInstance) (covers_hole g)
  infer_instance

instance (line : Bool) : Keeps source low (typeAtom g line) := by
  unfold typeAtom
  refine keeps_bind inferInstance fun start _ => ?_
  split
  case h_11 =>
    split
    · infer_instance
    · refine keeps_bind inferInstance fun w _ => ?_
      split <;> infer_instance
  all_goals infer_instance

instance (line : Bool) : Keeps source low (primaryType g line) := by
  unfold primaryType
  infer_instance

/-! ## Composite types -/

instance (line : Bool) : Keeps source low (functionType g line) := by
  unfold functionType
  infer_instance

instance (line : Bool) : Keeps source low (constructorType g line) := by
  unfold constructorType
  infer_instance

instance (line : Bool) : Keeps source low (typeOperand g line) := by
  unfold typeOperand
  refine keeps_bind inferInstance fun start _ => ?_
  split
  · infer_instance
  · infer_instance
  · refine keeps_bind inferInstance fun w _ => ?_
    split <;> infer_instance

instance : Keeps source low type.joint := by
  unfold type.joint
  infer_instance

instance (line : Bool) : Keeps source low (type g line) := by
  unfold type
  infer_instance

end RequestAtlas.Syntax.Parse
