import RequestAtlas.Proofs.StableSort
import RequestAtlas.Value.Graph
import Mathlib.Data.Fintype.Card
import Mathlib.Data.Fintype.EquivFin
import Mathlib.Logic.Relation
import Mathlib.Order.WellFounded
/-!
# Unfolding a graph

What a slot holds, written out in full: `g.Holds s t` says that the tree `t` is what a reader of slot `s` sees who
follows every reference, a shared container as often as it is referred to.  A tree is finite, so a container that
contains itself has none, and in a graph without such a container every slot has one (`holds_iff`).
-/

namespace RequestAtlas

/-- A value written out in full, in which lists and tuples are still told apart. -/
inductive Tree where
  | scalar (s : Scalar)
  | list (items : List Tree)
  | tuple (items : List Tree)
  | dict (entries : List (String × Tree))
deriving Repr, Inhabited

namespace Tree

mutual

/-- The value of a tree; a tuple counts as a list. -/
def toValue : Tree → Value
  | scalar s => s.toValue
  | list items => .list (toValues items)
  | tuple items => .list (toValues items)
  | dict entries => .dict (toEntries entries)

/-- Apply `toValue` to each item. -/
def toValues : List Tree → List Value
  | [] => []
  | t :: ts => toValue t :: toValues ts

/-- Apply `toValue` to each entry. -/
def toEntries : List (String × Tree) → List (String × Value)
  | [] => []
  | (k, t) :: es => (k, toValue t) :: toEntries es

end

theorem toValues_eq_map : ∀ ts : List Tree, toValues ts = ts.map toValue
  | [] => rfl
  | t :: ts => by rw [toValues, toValues_eq_map ts, List.map_cons]

theorem toEntries_eq_map : ∀ es : List (String × Tree), toEntries es = es.map fun e => (e.1, e.2.toValue)
  | [] => rfl
  | (k, t) :: es => by rw [toEntries, toEntries_eq_map es, List.map_cons]

end Tree

/-! ## Lists of parts -/

/-- A list of which every member has a partner is half of a list of pairs. -/
theorem exists_parts {α β : Type} {P : α → β → Prop} : ∀ {l : List α}, (∀ a ∈ l, ∃ b, P a b) →
    ∃ parts : List (α × β), parts.map (·.1) = l ∧ ∀ p ∈ parts, P p.1 p.2
  | [], _ => ⟨[], rfl, by simp⟩
  | a :: l, h => by
    rw [List.forall_mem_cons] at h
    obtain ⟨⟨b, hb⟩, hl⟩ := h
    obtain ⟨parts, rfl, hparts⟩ := exists_parts hl
    exact ⟨(a, b) :: parts, rfl, List.forall_mem_cons.2 ⟨hb, hparts⟩⟩

/-- The slots of a container. -/
def Container.slots : Container → List Slot
  | .list items => items
  | .tuple items => items
  | .dict entries => entries.map (·.2)

namespace Graph

/-! ## References -/

/-- A container refers to another. -/
def Refers (g : Graph) (i j : Nat) : Prop := ∃ c, g.containers[i]? = some c ∧ Slot.ref j ∈ c.slots

/-- A container is reached from what a slot holds. -/
def Reaches (g : Graph) : Slot → Nat → Prop
  | .scalar _, _ => False
  | .ref i, j => Relation.ReflTransGen g.Refers i j

/-- From what a slot holds a container is reached that is reached from itself. -/
def Cyclic (g : Graph) (s : Slot) : Prop := ∃ i, g.Reaches s i ∧ Relation.TransGen g.Refers i i

/-- What is reached from a part of a container is reached behind it. -/
theorem transGen_of_reaches {g : Graph} {i j : Nat} {c : Container} {s : Slot} (hc : g.containers[i]? = some c)
    (hs : s ∈ c.slots) (h : g.Reaches s j) : Relation.TransGen g.Refers i j := by
  cases s with
  | scalar a => cases h
  | ref k => exact Relation.TransGen.head' ⟨c, hc, hs⟩ h

/-- What is reached from a container, other than itself, is reached from one of its parts. -/
theorem exists_of_transGen {g : Graph} {i j : Nat} {c : Container} (hc : g.containers[i]? = some c)
    (h : Relation.TransGen g.Refers i j) : ∃ s ∈ c.slots, g.Reaches s j := by
  obtain ⟨k, ⟨c', hc', hk⟩, hkj⟩ := Relation.TransGen.head'_iff.1 h
  obtain rfl : c' = c := Option.some.inj (hc'.symm.trans hc)
  exact ⟨.ref k, hk, hkj⟩

/-! ## Trees that slots hold -/

/-- A slot holds a tree.  A container is given with the tree of each of its parts. -/
inductive Holds (g : Graph) : Slot → Tree → Prop
  | scalar (a : Scalar) : Holds g (.scalar a) (.scalar a)
  | list {i : Nat} {parts : List (Slot × Tree)} (hc : g.containers[i]? = some (.list (parts.map (·.1))))
      (h : ∀ p ∈ parts, Holds g p.1 p.2) : Holds g (.ref i) (.list (parts.map (·.2)))
  | tuple {i : Nat} {parts : List (Slot × Tree)} (hc : g.containers[i]? = some (.tuple (parts.map (·.1))))
      (h : ∀ p ∈ parts, Holds g p.1 p.2) : Holds g (.ref i) (.tuple (parts.map (·.2)))
  | dict {i : Nat} {parts : List (String × Slot × Tree)}
      (hc : g.containers[i]? = some (.dict (parts.map fun p => (.string p.1, p.2.1))))
      (h : ∀ p ∈ parts, Holds g p.2.1 p.2.2) : Holds g (.ref i) (.dict (parts.map fun p => (p.1, p.2.2)))

/-- A slot holds one tree. -/
theorem Holds.unique {g : Graph} {s : Slot} {t : Tree} (h : g.Holds s t) : ∀ {u : Tree}, g.Holds s u → t = u := by
  induction h with
  | scalar a =>
    intro u hu
    cases hu
    rfl
  | list hc _ ih =>
    intro u hu
    cases hu with
    | list hc' hu =>
      injection Option.some.inj (hc.symm.trans hc') with hitems
      exact congrArg Tree.list (map_eq_of_map_eq hitems fun p hp q hq hpq => ih p hp (hpq ▸ hu q hq))
    | tuple hc' => cases hc.symm.trans hc'
    | dict hc' => cases hc.symm.trans hc'
  | tuple hc _ ih =>
    intro u hu
    cases hu with
    | tuple hc' hu =>
      injection Option.some.inj (hc.symm.trans hc') with hitems
      exact congrArg Tree.tuple (map_eq_of_map_eq hitems fun p hp q hq hpq => ih p hp (hpq ▸ hu q hq))
    | list hc' => cases hc.symm.trans hc'
    | dict hc' => cases hc.symm.trans hc'
  | dict hc _ ih =>
    intro u hu
    cases hu with
    | dict hc' hu =>
      injection Option.some.inj (hc.symm.trans hc') with hentries
      refine congrArg Tree.dict (map_eq_of_map_eq hentries fun p hp q hq hpq => ?_)
      rw [Prod.mk.injEq, Scalar.string.injEq] at hpq
      exact Prod.ext hpq.1 (ih p hp (hpq.2 ▸ hu q hq))
    | list hc' => cases hc.symm.trans hc'
    | tuple hc' => cases hc.symm.trans hc'

/-- A container whose parts lead to no cycle leads to none: from a cycle through it a part would be reached from
itself. -/
theorem not_cyclic_of_slots {g : Graph} {i : Nat} {c : Container} (hc : g.containers[i]? = some c)
    (h : ∀ s ∈ c.slots, ¬ g.Cyclic s) : ¬ g.Cyclic (.ref i) := by
  rintro ⟨j, hij, hj⟩
  have inside : ∀ {k}, Relation.TransGen g.Refers i k → Relation.TransGen g.Refers k k → False := by
    intro k hik hk
    obtain ⟨s, hs, hsk⟩ := exists_of_transGen hc hik
    exact h s hs ⟨k, hsk, hk⟩
  rcases Relation.reflTransGen_iff_eq_or_transGen.1 hij with rfl | hij
  · exact inside hj hj
  · exact inside hij hj

theorem Holds.not_cyclic {g : Graph} {s : Slot} {t : Tree} (h : g.Holds s t) : ¬ g.Cyclic s := by
  induction h with
  | scalar a =>
    rintro ⟨_, h, _⟩
    cases h
  | list hc _ ih =>
    refine not_cyclic_of_slots hc ?_
    rw [Container.slots, List.forall_mem_map]
    exact ih
  | tuple hc _ ih =>
    refine not_cyclic_of_slots hc ?_
    rw [Container.slots, List.forall_mem_map]
    exact ih
  | dict hc _ ih =>
    refine not_cyclic_of_slots hc ?_
    rw [Container.slots, List.map_map, List.forall_mem_map]
    exact ih

/-! ## Graphs of lists, tuples and dictionaries from texts -/

/-- A slot that a regular graph may have: a reference leads to a container, and an integer can be written. -/
def Admits (g : Graph) : Slot → Prop
  | .scalar (.int n) => Value.isLong n = false
  | .scalar _ => True
  | .ref i => i < g.containers.length

/-- Every reference leads to a container, every integer can be written, and the keys of a dictionary are distinct
texts. -/
structure Regular (g : Graph) : Prop where
  slots : ∀ c ∈ g.containers, ∀ s ∈ c.slots, g.Admits s
  keys : ∀ entries, Container.dict entries ∈ g.containers → (entries.map (·.1)).Nodup ∧ ∀ e ∈ entries, e.1.isString

section
variable {g : Graph}

theorem Regular.admits (hg : g.Regular) {i : Nat} {c : Container} (hc : g.containers[i]? = some c) :
    ∀ s ∈ c.slots, g.Admits s := hg.slots c (List.mem_of_getElem? hc)

theorem Regular.nodup (hg : g.Regular) {i : Nat} {α : Type} {parts : List (String × α)} (slot : α → Slot)
    (hc : g.containers[i]? = some (.dict (parts.map fun p => (.string p.1, slot p.2)))) : (parts.map (·.1)).Nodup := by
  have hkeys := (hg.keys _ (List.mem_of_getElem? hc)).1
  rw [List.map_map] at hkeys
  refine List.Nodup.of_map Scalar.string ?_
  rwa [List.map_map]

/-- The same for entries, whose keys stay with them. -/
theorem exists_entryParts {β : Type} {P : Slot → β → Prop} {texts : List (String × Slot)}
    (h : ∀ e ∈ texts, ∃ b, P e.2 b) :
    ∃ parts : List (String × Slot × β), parts.map (fun p => (p.1, p.2.1)) = texts ∧ ∀ p ∈ parts, P p.2.1 p.2.2 := by
  obtain ⟨parts, rfl, hparts⟩ := exists_parts h
  refine ⟨parts.map fun p => (p.1.1, p.1.2, p.2), by rw [List.map_map]; rfl, ?_⟩
  rw [List.forall_mem_map]
  exact hparts

/-- The keys of a dictionary as texts. -/
theorem Regular.dict (hg : g.Regular) {i : Nat} {entries : List (Scalar × Slot)}
    (hc : g.containers[i]? = some (.dict entries)) : ∃ texts : List (String × Slot),
      texts.map (fun e => (.string e.1, e.2)) = entries := by
  have htext : ∀ e ∈ entries, ∃ text : String, e.1 = .string text := by
    intro e he
    have hstring := (hg.keys entries (List.mem_of_getElem? hc)).2 e he
    cases hkey : e.1 <;> simp_all [Scalar.isString]
  obtain ⟨parts, rfl, hparts⟩ := exists_parts htext
  refine ⟨parts.map fun p => (p.2, p.1.2), ?_⟩
  rw [List.map_map]
  exact List.map_congr_left fun p hp => Prod.ext (hparts p hp).symm rfl

/-- A container holds a tree if its parts do. -/
theorem Regular.exists_holds (hg : g.Regular) {i : Nat} {c : Container} (hc : g.containers[i]? = some c)
    (h : ∀ s ∈ c.slots, ∃ t, g.Holds s t) : ∃ t, g.Holds (.ref i) t := by
  cases c with
  | list items =>
    obtain ⟨parts, rfl, hparts⟩ := exists_parts h
    exact ⟨_, .list hc hparts⟩
  | tuple items =>
    obtain ⟨parts, rfl, hparts⟩ := exists_parts h
    exact ⟨_, .tuple hc hparts⟩
  | dict entries =>
    obtain ⟨texts, rfl⟩ := hg.dict hc
    have hslots : ∀ e ∈ texts, ∃ t, g.Holds e.2 t := fun e he =>
      h e.2 (by simpa [Container.slots] using ⟨e.1, he⟩)
    obtain ⟨parts, rfl, hparts⟩ := exists_entryParts hslots
    rw [List.map_map] at hc
    exact ⟨_, .dict hc hparts⟩

/-- **Where no container contains itself, every slot holds a tree.**  Among finitely many containers, those behind a
container are then well-founded, and a tree is made of the trees of its parts. -/
theorem Regular.holds_of_not_cyclic (hg : g.Regular) {s : Slot} (hs : g.Admits s) (h : ¬ g.Cyclic s) :
    ∃ t, g.Holds s t := by
  cases s with
  | scalar a => exact ⟨_, .scalar a⟩
  | ref i =>
    -- behind a container: reached from it, where it is reached from the slot
    let behind : Fin g.containers.length → Fin g.containers.length → Prop := fun b a =>
      g.Reaches (.ref i) a ∧ Relation.TransGen g.Refers a b
    have hirrefl : Std.Irrefl behind := ⟨fun a hab => h ⟨a, hab.1, hab.2⟩⟩
    have htrans : IsTrans (Fin g.containers.length) behind := ⟨fun c b a hcb hba => ⟨hba.1, hba.2.trans hcb.2⟩⟩
    have hwf : WellFounded behind := Finite.wellFounded_of_trans_of_irrefl behind
    suffices hall : ∀ a : Fin g.containers.length, g.Reaches (.ref i) a → ∃ t, g.Holds (.ref a) t from
      hall ⟨i, hs⟩ .refl
    intro a
    induction a using hwf.induction with
    | _ a ih =>
      intro ha
      have hc : g.containers[a.1]? = some g.containers[a.1] := List.getElem?_eq_getElem a.2
      refine hg.exists_holds hc fun s hslot => ?_
      cases s with
      | scalar b => exact ⟨_, .scalar b⟩
      | ref j =>
        have hj : j < g.containers.length := hg.admits hc _ hslot
        have hstep : g.Refers a j := ⟨_, hc, hslot⟩
        exact ih ⟨j, hj⟩ ⟨ha, .single hstep⟩ (Relation.ReflTransGen.tail ha hstep)

theorem Regular.holds_iff (hg : g.Regular) {s : Slot} (hs : g.Admits s) : (∃ t, g.Holds s t) ↔ ¬ g.Cyclic s :=
  ⟨fun ⟨_, h⟩ => h.not_cyclic, hg.holds_of_not_cyclic hs⟩

end

end Graph

end RequestAtlas
