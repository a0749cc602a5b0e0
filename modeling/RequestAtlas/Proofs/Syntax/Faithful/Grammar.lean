import RequestAtlas.Proofs.Syntax.Faithful.Templates
/-!
# The parts that all constructs share

Lists between commas, arguments, templates, property names and decorators keep to the source.
-/

namespace RequestAtlas.Syntax

open Literal (Woven substitutions)

-- instance search goes through a whole step at once
set_option synthInstance.maxSize 20000

variable {source : List Char} {low : Nat}

namespace Parse

section
variable {g : Grammar} [hg : g.Keeps source]

instance (sc : Scope) : Keeps source low (g.expression sc) := hg.expression low sc
instance (sc : Scope) : Keeps source low (g.operand sc) := hg.operand low sc
instance (line : Bool) : Keeps source low (g.type line) := hg.type low line
instance (line : Bool) : Keeps source low (g.primaryType line) := hg.primaryType low line
instance : Keeps source low g.pattern := hg.pattern low
instance : Keeps source low g.element := hg.element low
instance : Keeps source low g.statement := hg.statement low

instance (sc : Scope) : Keeps source low (expressions g sc) := by
  unfold expressions
  infer_instance

instance (item : Parse Node) [Keeps source low item] : Keeps source low (slot item) := by
  unfold slot
  infer_instance

instance (item : Parse Node) [Keeps source low item] : Keeps source low (slots item) := by
  unfold slots
  infer_instance

instance {α : Type} [Result α] (item : Parse α) [Keeps source low item] : Keeps source low (commaList item) := by
  unfold commaList
  infer_instance

instance : Keeps source low (spread g) := by
  unfold spread
  infer_instance

instance : Keeps source low (arguments g) := by
  unfold arguments
  infer_instance

/-! ## Templates -/

instance : Keeps source low (substitution g) := by
  unfold substitution
  infer_instance

theorem covers_substitution (g : Grammar) : Covers .substitution (substitution g) :=
  covers_get fun _ => makes_bind fun _ => makes_bind fun _ => makes_bind fun _ => makes_bind fun _ =>
    makes_bind fun _ => makes_node _ _ _

theorem substitutions_eq_self {holes : List Node} (h : ∀ n ∈ holes, n.kind = .substitution) :
    substitutions holes = holes :=
  List.filter_eq_self.2 fun n hn => decide_eq_true (h n hn)

instance : Keeps source low (template g) where
  out := by
    intro c n d hc h
    obtain ⟨hstart, _⟩ := within_pastTrivia false hc
    rw [template, bind_of_some (here_apply c)] at h
    obtain ⟨_, c', hquote, hbody⟩ := bind_eq_some_iff.1 h
    obtain ⟨holes, _, hholes, hnode⟩ := bind_eq_some_iff.1 hbody
    cases hnode
    have hc' := reads_of_exactly hstart hquote
    obtain ⟨_, rfl, hnodes⟩ :=
      weaves_templateBody_go true (fun _ => inferInstance) (covers_substitution g) (hstart.of_reads hc') hholes
    obtain ⟨behind, segments, hbehind, hwoven⟩ := hnodes.exists_reads
    have hall := hc'.trans hbehind
    have hsegmented : Woven ((c.pastTrivia false).2.offset + 1) segments (substitutions holes) behind := by
      rw [substitutions_eq_self hnodes.kinds]
      rwa [hc'.offset] at hwoven
    refine ⟨hstart.of_reads hall, .node ⟨hstart.placed d, fun _ => ⟨segments, behind, hall.charsTo, hsegmented⟩, ?_⟩
      hnodes.sound⟩
    rintro (h | h) <;> cases h

instance : Keeps source low (propertyName g) := by
  unfold propertyName
  refine keeps_bind inferInstance fun start _ => ?_
  split <;> infer_instance

instance : Keeps source low seesPropertyName := by
  unfold seesPropertyName
  refine keeps_bind inferInstance fun c _ => ?_
  split <;> infer_instance

instance (line : Bool) : Keeps source low (annotatedType g line) := by
  unfold annotatedType
  infer_instance

instance (sc : Scope) : Keeps source low (initializer g sc) := by
  unfold initializer
  infer_instance

instance : Keeps source low (typeArguments g) := by
  unfold typeArguments
  infer_instance

instance : Keeps source low (typeParameters.parameter g) := by
  unfold typeParameters.parameter
  infer_instance

instance : Keeps source low (typeParameters g) := by
  unfold typeParameters
  infer_instance

end

/-! ## Growing nodes -/

/-- A loop that lets a node grow by one step after the other, until a step fails or the fuel is used up. -/
theorem keeps_loop (step : Node → Parse Node) (loop : Node → Nat → Parse Node) (hzero : ∀ e, loop e 0 = pure e)
    (hsucc : ∀ e fuel, ∃ next : Option Node → Parse Node, loop e (fuel + 1) = maybe (step e) >>= next ∧
      next none = pure e ∧ ∀ e', next (some e') = loop e' fuel)
    (hstep : ∀ e, Sound source low e → Keeps source low (step e)) :
    ∀ (fuel : Nat) {e : Node}, Sound source low e → Keeps source low (loop e fuel)
  | 0, e, he => by
    rw [hzero]
    infer_instance
  | fuel + 1, e, he => by
    have := hstep e he
    obtain ⟨next, hloop, hnone, hsome⟩ := hsucc e fuel
    rw [hloop]
    refine keeps_bind inferInstance fun longer hlonger => ?_
    cases longer with
    | none =>
      rw [hnone]
      infer_instance
    | some e =>
      rw [hsome]
      exact keeps_loop step loop hzero hsucc hstep fuel hlonger.of_some

/-! ## Decorators -/

/-- A dotted name grows by one member after the other. -/
theorem keeps_extend {start : Cursor} [Sound source low start] : ∀ (fuel : Nat) {e : Node}, Sound source low e →
    Keeps source low (decorator.extend start e fuel)
  | 0, e, he => by
    unfold decorator.extend
    infer_instance
  | fuel + 1, e, he => by
    unfold decorator.extend
    refine keeps_bind inferInstance fun name hname => ?_
    cases name with
    | none => infer_instance
    | some name =>
      have := hname.of_some
      exact keeps_bind inferInstance fun e he => keeps_extend fuel he

instance (start : Cursor) (e : Node) (fuel : Nat) [Sound source low start] [he : Sound source low e] :
    Keeps source low (decorator.extend start e fuel) :=
  keeps_extend fuel he

instance : Keeps source low decorator.dotted := by
  unfold decorator.dotted
  infer_instance

section
variable {g : Grammar} [g.Keeps source]

instance : Keeps source low (decorator.called g) := by
  unfold decorator.called
  refine keeps_bind inferInstance fun _ _ => keeps_bind inferInstance fun callee _ =>
    keeps_bind inferInstance fun more hmore => ?_
  cases more with
  | none => infer_instance
  | some more =>
    have := hmore.of_some
    infer_instance

instance : Keeps source low (decorator g) := by
  unfold decorator
  infer_instance

end

end Parse

end RequestAtlas.Syntax
