import RequestAtlas.Proofs.Literal.Segments
import RequestAtlas.Syntax.Program
/-!
# Steps that stay in the source

Whatever is read from a source, the cursor stays in it and the trees that come out are faithful to it: every node
covers the very characters that stand at its offset, and a template is segments with its substitutions between them.
A step `Keeps` this if it does so from every cursor in the source, and no step goes back behind the byte at which it
started.

What is asked of a result depends on its type alone (`Result`), so that `Sound` and `Keeps` are classes: how a step is
put together from others is found by instance search, and only loops and the steps that cut the source by hand need an
argument of their own.
-/

namespace RequestAtlas.Syntax

/-! ## Cursors in a source -/

theorem bytes_eq_zero {cs : List Char} (h : bytes cs = 0) : cs = [] := by
  have hlength := length_le_bytes cs
  exact List.eq_nil_of_length_eq_zero (by omega)

namespace Cursor

/-- The cursor stands in the source, at byte `low` or behind it. -/
structure Within (source : List Char) (low : Nat) (c : Cursor) : Prop where
  exists_front : ∃ front, source = front ++ c.rest ∧ c.offset = bytes front
  left_eq : c.left = c.rest.length
  low_le : low ≤ c.offset

/-- From the cursor `c` to `d` these characters are read. -/
structure Reads (c : Cursor) (cs : List Char) (d : Cursor) : Prop where
  rest : c.rest = cs ++ d.rest
  offset : d.offset = c.offset + bytes cs
  left : d.left = c.left - cs.length

variable {source cs : List Char} {low : Nat} {c d : Cursor}

theorem Reads.refl (c : Cursor) : c.Reads [] c := ⟨rfl, rfl, rfl⟩

theorem Reads.trans {e : Cursor} {ds : List Char} (h : c.Reads cs d) (h' : d.Reads ds e) : c.Reads (cs ++ ds) e where
  rest := by rw [h.rest, h'.rest, List.append_assoc]
  offset := by rw [h'.offset, h.offset, bytes_append, Nat.add_assoc]
  left := by rw [h'.left, h.left, Nat.sub_sub, List.length_append]

theorem Within.of_reads (h : c.Within source low) (hr : c.Reads cs d) : d.Within source low := by
  obtain ⟨front, hsource, hoffset⟩ := h.exists_front
  refine ⟨⟨front ++ cs, ?_, ?_⟩, ?_, ?_⟩
  · rw [hsource, hr.rest, List.append_assoc]
  · rw [hr.offset, hoffset, bytes_append]
  · rw [hr.left, h.left_eq, hr.rest, List.length_append, Nat.add_sub_cancel_left]
  · rw [hr.offset]
    exact Nat.le_add_right_of_le h.low_le

theorem Within.self (h : c.Within source low) : c.Within source c.offset :=
  ⟨h.exists_front, h.left_eq, Nat.le_refl _⟩

theorem Within.eq_before (h : c.Within source low) : c = .before c.rest c.offset := by
  rw [before, ← h.left_eq]

/-- Between two places of a source, the later one not before the earlier, stand the characters that are read. -/
theorem Within.exists_reads (h : c.Within source low) (hd : d.Within source c.offset) : ∃ cs, c.Reads cs d := by
  obtain ⟨front, hsource, hoffset⟩ := h.exists_front
  obtain ⟨front', hsource', hoffset'⟩ := hd.exists_front
  have hle := hd.low_le
  have hleft : ∀ {cs}, c.rest = cs ++ d.rest → d.left = c.left - cs.length := by
    intro cs hrest
    rw [h.left_eq, hd.left_eq, hrest, List.length_append, Nat.add_sub_cancel_left]
  rcases List.append_eq_append_iff.1 (hsource.symm.trans hsource') with ⟨cs, rfl, hrest⟩ | ⟨cs, rfl, hrest⟩
  · exact ⟨cs, hrest, by rw [hoffset', hoffset, bytes_append], hleft hrest⟩
  · -- the later place has no fewer bytes before it, so nothing lies between
    rw [bytes_append] at hoffset
    have hzero : bytes cs = 0 := by omega
    obtain rfl := bytes_eq_zero hzero
    exact ⟨[], hrest.symm, by rw [hoffset', hoffset, hzero]; rfl, hleft hrest.symm⟩

theorem Reads.charsTo (h : c.Reads cs d) : c.charsTo d = cs := by
  rw [Cursor.charsTo, h.offset, Nat.add_sub_cancel_left, h.rest, charsTo_go]

theorem charsTo_go_isPrefix : ∀ (n : Nat) (cs : List Char), charsTo.go n cs <+: cs
  | 0, cs => by
    rw [charsTo.go]
    exact List.nil_prefix
  | n + 1, [] => List.prefix_rfl
  | n + 1, c :: cs => by
    rw [charsTo.go]
    · exact List.cons_prefix_cons.2 ⟨rfl, charsTo_go_isPrefix _ cs⟩
    · exact Nat.succ_ne_zero n

theorem charsTo_isPrefix (c d : Cursor) : c.charsTo d <+: c.rest := charsTo_go_isPrefix _ _

/-! ## Moving on -/

theorem exists_reads_skip (c : Cursor) : ∃ cs, c.Reads cs c.skip := by
  obtain ⟨rest, offset, left⟩ := c
  cases rest with
  | nil => exact ⟨[], .refl _⟩
  | cons ch rest => exact ⟨[ch], rfl, rfl, rfl⟩

theorem Within.skip (h : c.Within source low) : c.skip.Within source low :=
  h.of_reads (exists_reads_skip c).choose_spec

theorem Within.skipN : ∀ (n : Nat) {c : Cursor}, c.Within source low → (c.skipN n).Within source low
  | 0, _, h => h
  | n + 1, _, h => Within.skipN n h.skip

/-- One character, and what is read behind it. -/
theorem Reads.cons {ch : Char} {rest : List Char} {o n : Nat} (h : Reads ⟨rest, o + ch.utf8Size, n - 1⟩ cs d) :
    Reads ⟨ch :: rest, o, n⟩ (ch :: cs) d :=
  (Reads.mk rfl rfl rfl : Reads ⟨ch :: rest, o, n⟩ [ch] ⟨rest, o + ch.utf8Size, n - 1⟩).trans h

theorem exists_reads_skipWhile_go (p : Char → Bool) :
    ∀ (rest : List Char) (o n : Nat), ∃ cs, Reads ⟨rest, o, n⟩ cs (skipWhile.go p rest o n)
  | [], o, n => ⟨[], .refl _⟩
  | ch :: rest, o, n => by
    rw [skipWhile.go]
    split
    · obtain ⟨cs, hreads⟩ := exists_reads_skipWhile_go p rest (o + ch.utf8Size) (n - 1)
      exact ⟨ch :: cs, hreads.cons⟩
    · exact ⟨[], .refl _⟩

theorem Within.skipWhile (p : Char → Bool) (h : c.Within source low) : (c.skipWhile p).Within source low :=
  h.of_reads (exists_reads_skipWhile_go p c.rest c.offset c.left).choose_spec

theorem exists_reads_pastBlockComment_go : ∀ {rest : List Char} {o n : Nat} {d : Cursor},
    pastBlockComment.go rest o n = some d → ∃ cs, Reads ⟨rest, o, n⟩ cs d
  | [], _, _, _, h => by simp [pastBlockComment.go] at h
  | [_], _, _, _, h => by simp [pastBlockComment.go] at h
  | a :: b :: rest, o, n, d, h => by
    rw [pastBlockComment.go] at h
    split at h
    · next hend =>
      obtain ⟨ha, hb⟩ := Bool.and_eq_true_iff.1 hend
      obtain rfl := beq_iff_eq.1 ha
      obtain rfl := beq_iff_eq.1 hb
      obtain rfl := Option.some.inj h
      exact ⟨['*', '/'], rfl, rfl, rfl⟩
    · obtain ⟨cs, hreads⟩ := exists_reads_pastBlockComment_go h
      exact ⟨a :: cs, hreads.cons⟩

theorem Within.pastComment? (h : c.Within source low) (hd : c.pastComment? = some d) : d.Within source low := by
  rw [Cursor.pastComment?] at hd
  split at hd
  · exact Option.some.inj hd ▸ (h.skipN 2).skipWhile _
  · obtain ⟨cs, hreads⟩ := exists_reads_pastBlockComment_go hd
    exact (h.skipN 2).of_reads hreads
  · cases hd

theorem Within.pastMarkupComment? (h : c.Within source low) (hd : c.pastMarkupComment? = some d) :
    d.Within source low := by
  rw [Cursor.pastMarkupComment?] at hd
  split at hd
  · exact Option.some.inj hd ▸ h.skipWhile _
  · cases hd

end Cursor

/-! ## Faithful trees -/

/-- A predicate holds of a node and of every node inside it. -/
inductive Node.All (P : Node → Prop) : Node → Prop
  | intro {n : Node} (here : P n) (below : ∀ c ∈ n.children, All P c) : All P n

/-- A node is the given one or lies inside it. -/
inductive Node.Inside (n : Node) : Node → Prop
  | self : Inside n n
  | child {m c : Node} (hc : c ∈ m.children) (h : Inside n c) : Inside n m

theorem Node.All.of_inside {P : Node → Prop} {n m : Node} (h : n.Inside m) : m.All P → n.All P := by
  induction h with
  | self => exact id
  | child hc _ ih => exact fun ⟨_, hbelow⟩ => ih (hbelow _ hc)

/-- What a node says is what stands in the source. -/
structure Node.Faithful (source : List Char) (n : Node) : Prop where
  /-- It covers the characters at its offset. -/
  placed : ∃ front back, source = front ++ (n.chars ++ back) ∧ n.start = bytes front
  /-- A template is segments with its substitutions between them. -/
  segmented : n.kind = .template → ∃ segments, Literal.Segmented n segments
  /-- No closing brace follows on a word with which a variable starts. -/
  named : n.kind = .identifier ∨ n.kind = .undefined → ∀ w, IsWord w → ¬ w.toList ++ ['\x7d'] <+: n.chars

theorem Node.Faithful.withRole {source : List Char} {n : Node} (h : n.Faithful source) (r : Role) :
    (n.withRole r).Faithful source := by
  obtain ⟨kind, role, start, chars, children⟩ := n
  exact ⟨h.placed, h.segmented, h.named⟩

/-! ## Results and steps -/

/-- What is asked of the results of a type, read from a source at byte `low` or behind it. -/
class Result (α : Type) where
  Holds : List Char → Nat → α → Prop

instance : Result Unit := ⟨fun _ _ _ => True⟩
instance : Result Bool := ⟨fun _ _ _ => True⟩
instance : Result String := ⟨fun _ _ _ => True⟩
instance : Result Char := ⟨fun _ _ _ => True⟩
instance : Result Cursor := ⟨fun source low c => c.Within source low⟩
instance : Result Node := ⟨fun source _ n => n.All (Node.Faithful source)⟩

section
variable {α β : Type} [Result α] [Result β]

instance : Result (Option α) := ⟨fun source low o => ∀ a ∈ o, Result.Holds source low a⟩
instance : Result (List α) := ⟨fun source low as => ∀ a ∈ as, Result.Holds source low a⟩
instance : Result (α × β) := ⟨fun source low x => Result.Holds source low x.1 ∧ Result.Holds source low x.2⟩

end

/-- A result is as it should be. -/
class Sound (source : List Char) (low : Nat) {α : Type} [Result α] (a : α) : Prop where
  out : Result.Holds source low a

/-- From every cursor in the source, not before byte `low`, a step leads to another with a sound result, or fails. -/
class Keeps (source : List Char) (low : Nat) {α : Type} [Result α] (p : Parse α) : Prop where
  out : ∀ {c a d}, c.Within source low → p c = some (a, d) → d.Within source low ∧ Sound source low a

/-- All that a grammar enters keeps to the source. -/
class Grammar.Keeps (source : List Char) (g : Grammar) : Prop where
  expression : ∀ low sc, Syntax.Keeps source low (g.expression sc)
  operand : ∀ low sc, Syntax.Keeps source low (g.operand sc)
  type : ∀ low line, Syntax.Keeps source low (g.type line)
  primaryType : ∀ low line, Syntax.Keeps source low (g.primaryType line)
  pattern : ∀ low, Syntax.Keeps source low g.pattern
  element : ∀ low, Syntax.Keeps source low g.element
  statement : ∀ low, Syntax.Keeps source low g.statement

variable {source : List Char} {low : Nat} {α β : Type} [Result α] [Result β]

/-! ### Sound results -/

namespace Sound

/-- What is known of a result to come. -/
instance (a : {a : α // Sound source low a}) : Sound source low a.1 := a.2

instance (u : Unit) : Sound source low u := ⟨trivial⟩
instance (b : Bool) : Sound source low b := ⟨trivial⟩
instance (s : String) : Sound source low s := ⟨trivial⟩
instance (cs : List Char) : Sound source low cs := ⟨fun _ _ => trivial⟩
instance (o : Option String) : Sound source low o := ⟨fun _ _ => trivial⟩

instance : Sound source low (none : Option α) := ⟨by rintro a ⟨⟩⟩
instance (a : α) [h : Sound source low a] : Sound source low (some a) := ⟨by rintro a ⟨⟩; exact h.out⟩

theorem of_some {a : α} (h : Sound source low (some a)) : Sound source low a := ⟨h.out a rfl⟩

instance (a : α) (b : β) [ha : Sound source low a] [hb : Sound source low b] : Sound source low (a, b) :=
  ⟨ha.out, hb.out⟩
instance (x : α × β) [h : Sound source low x] : Sound source low x.1 := ⟨h.out.1⟩
instance (x : α × β) [h : Sound source low x] : Sound source low x.2 := ⟨h.out.2⟩

theorem list_iff {as : List α} : Sound source low as ↔ ∀ a ∈ as, Sound source low a :=
  ⟨fun h a ha => ⟨h.out a ha⟩, fun h => ⟨fun a ha => (h a ha).out⟩⟩

instance : Sound source low ([] : List α) := list_iff.2 (by simp)
instance (a : α) (as : List α) [ha : Sound source low a] [has : Sound source low as] : Sound source low (a :: as) :=
  list_iff.2 (List.forall_mem_cons.2 ⟨ha, list_iff.1 has⟩)
instance (as bs : List α) [ha : Sound source low as] [hb : Sound source low bs] : Sound source low (as ++ bs) :=
  list_iff.2 (List.forall_mem_append.2 ⟨list_iff.1 ha, list_iff.1 hb⟩)
instance (as : List α) [h : Sound source low as] : Sound source low as.reverse :=
  list_iff.2 fun a ha => list_iff.1 h a (List.mem_reverse.1 ha)
instance (as : List (List α)) [h : Sound source low as] : Sound source low as.flatten :=
  list_iff.2 fun a ha =>
    have ⟨bs, hbs, ha⟩ := List.mem_flatten.1 ha
    list_iff.1 (list_iff.1 h bs hbs) a ha
instance (as : List α) (f : α → β) [h : Sound source low as]
    [hf : ∀ a : {a : α // Sound source low a}, Sound source low (f a)] : Sound source low (as.map f) :=
  list_iff.2 fun _ hb =>
    have ⟨a, ha, hab⟩ := List.mem_map.1 hb
    hab ▸ hf ⟨a, list_iff.1 h a ha⟩

instance (o : Option α) [h : Sound source low o] : Sound source low o.toList :=
  list_iff.2 fun a ha => ⟨h.out a (Option.mem_toList.1 ha)⟩
instance (o : Option α) (d : α) [h : Sound source low o] [hd : Sound source low d] : Sound source low (o.getD d) := by
  cases o with
  | none => exact hd
  | some a => exact h.of_some
instance (o : Option α) (f : α → β) [h : Sound source low o]
    [hf : ∀ a : {a : α // Sound source low a}, Sound source low (f a)] : Sound source low (o.map f) := by
  cases o with
  | none => exact inferInstanceAs (Sound source low none)
  | some a =>
    have hb := hf ⟨a, h.of_some⟩
    exact inferInstanceAs (Sound source low (some (f a)))

instance (n : Node) (r : Role) [h : Sound source low n] : Sound source low (n.withRole r) := by
  obtain ⟨kind, role, start, chars, children⟩ := n
  obtain ⟨hhere, hbelow⟩ := h.out
  exact ⟨.intro (hhere.withRole r) hbelow⟩

instance (c : Cursor) (n : Nat) [h : Sound source low c] : Sound source low (c.skipN n) := ⟨h.out.skipN n⟩
instance (c : Cursor) (p : Char → Bool) [h : Sound source low c] : Sound source low (c.skipWhile p) :=
  ⟨h.out.skipWhile p⟩

end Sound

/-! ### Steps from steps -/

namespace Parse

theorem bind_eq_some_iff {γ δ : Type} {p : Parse γ} {f : γ → Parse δ} {c d : Cursor} {b : δ} :
    (p >>= f) c = some (b, d) ↔ ∃ a c', p c = some (a, c') ∧ f a c' = some (b, d) := by
  rw [bind_apply, Option.bind_eq_some_iff]
  exact Prod.exists

theorem ensure_eq_some_iff {b : Bool} {u : Unit} {c d : Cursor} : ensure b c = some (u, d) ↔ b = true ∧ d = c := by
  constructor
  · intro h
    cases b with
    | true =>
      cases h
      exact ⟨rfl, rfl⟩
    | false => cases h
  · rintro ⟨rfl, rfl⟩
    rfl

theorem keeps_bind {p : Parse α} {f : α → Parse β} (hp : Keeps source low p)
    (hf : ∀ a, Sound source low a → Keeps source low (f a)) : Keeps source low (p >>= f) where
  out := by
    intro c b d hc h
    obtain ⟨a, c', ha, hb⟩ := bind_eq_some_iff.1 h
    obtain ⟨hc', hsound⟩ := hp.out hc ha
    exact (hf a hsound).out hc' hb

/-- What follows may count on the result being sound: it is asked only about such results. -/
instance {p : Parse α} {f : α → Parse β} [hp : Keeps source low p]
    [hf : ∀ a : {a : α // Sound source low a}, Keeps source low (f a)] : Keeps source low (p >>= f) :=
  keeps_bind hp fun a ha => hf ⟨a, ha⟩

instance (a : α) [h : Sound source low a] : Keeps source low (pure a : Parse α) where
  out := by
    rintro c a d hc ⟨⟩
    exact ⟨hc, h⟩

instance : Keeps source low (failure : Parse α) where
  out := by rintro c a d hc ⟨⟩

instance : Keeps source low (get : Parse Cursor) where
  out := by
    rintro c a d hc ⟨⟩
    exact ⟨hc, ⟨hc⟩⟩

instance (c : Cursor) [h : Sound source low c] : Keeps source low (set c : Parse Unit) where
  out := by
    rintro _ a d _ ⟨⟩
    exact ⟨h.out, inferInstance⟩

instance (f : Cursor → Cursor) [hf : ∀ c : {c : Cursor // Sound source low c}, Sound source low (f c)] :
    Keeps source low (modify f : Parse Unit) where
  out := by
    rintro c a d hc ⟨⟩
    exact ⟨(hf ⟨c, ⟨hc⟩⟩).out, inferInstance⟩

instance (b : Prop) [Decidable b] {p q : Parse α} [hp : Keeps source low p] [hq : Keeps source low q] :
    Keeps source low (if b then p else q) := by
  split
  · exact hp
  · exact hq

instance {p q : Parse α} [hp : Keeps source low p] [hq : Keeps source low q] : Keeps source low (p <|> q) where
  out := by
    intro c a d hc h
    cases hpc : p c with
    | none =>
      rw [orElse_of_none hpc] at h
      exact hq.out hc h
    | some r =>
      obtain ⟨a', d'⟩ := r
      rw [orElse_of_some hpc] at h
      exact hp.out hc (hpc.trans h)

instance : Keeps source low (firstOf ([] : List (Parse α))) := inferInstanceAs (Keeps source low failure)
instance {p : Parse α} {ps : List (Parse α)} [Keeps source low p] [Keeps source low (firstOf ps)] :
    Keeps source low (firstOf (p :: ps)) :=
  inferInstanceAs (Keeps source low (p <|> firstOf ps))

theorem keeps_firstOf {ps : List (Parse α)} (h : ∀ p ∈ ps, Keeps source low p) : Keeps source low (firstOf ps) := by
  induction ps with
  | nil => infer_instance
  | cons p ps ih =>
    obtain ⟨hp, hps⟩ := List.forall_mem_cons.1 h
    have := ih hps
    infer_instance

instance {γ : Type} {f : γ → Parse α} {xs : List γ} [hf : ∀ x, Keeps source low (f x)] :
    Keeps source low (firstOf (xs.map f)) :=
  keeps_firstOf (by
    intro p hp
    obtain ⟨x, _, rfl⟩ := List.mem_map.1 hp
    exact hf x)

/-- A look ahead moves nothing. -/
instance {γ : Type} {p : Parse γ} : Keeps source low (peeks p) where
  out := by
    rintro c a d hc ⟨⟩
    exact ⟨hc, inferInstance⟩

instance (b : Bool) : Keeps source low (ensure b) := by
  unfold ensure
  infer_instance

instance {p : Parse α} [hp : Keeps source low p] : Keeps source low (maybe p) where
  out := by
    intro c a d hc h
    rw [maybe] at h
    split at h
    · next hpc =>
      cases h
      obtain ⟨hd, hsound⟩ := hp.out hc hpc
      exact ⟨hd, inferInstance⟩
    · cases h
      exact ⟨hc, inferInstance⟩

/-- A repetition collects the results of its steps, each from where the one before it ended. -/
theorem within_many_go {p : Parse α} (hp : Keeps source low p) : ∀ (fuel : Nat) {acc : List α} {c : Cursor},
    c.Within source low → Sound source low acc →
      (many.go p fuel acc c).2.Within source low ∧ Sound source low (many.go p fuel acc c).1
  | 0, acc, c, hc, hacc => ⟨hc, inferInstanceAs (Sound source low acc.reverse)⟩
  | fuel + 1, acc, c, hc, hacc => by
    have hreverse : Sound source low acc.reverse := inferInstance
    rw [many.go]
    split
    · exact ⟨hc, hreverse⟩
    · next a c' hpc =>
      split
      · exact ⟨hc, hreverse⟩
      · obtain ⟨hc', ha⟩ := hp.out hc hpc
        exact within_many_go hp fuel hc' inferInstance

instance {p : Parse α} [hp : Keeps source low p] : Keeps source low (many p) where
  out := by
    intro c as d hc h
    obtain ⟨hd, has⟩ := within_many_go hp (c.left + 1) hc (inferInstance : Sound source low ([] : List α))
    rw [many, Option.some.injEq] at h
    rw [h] at hd has
    exact ⟨hd, has⟩

instance {p : Parse α} {q : Parse β} [Keeps source low p] [hq : Keeps source low q] : Keeps source low (q *> p) :=
  inferInstanceAs (Keeps source low (q >>= fun _ => p))

instance {p : Parse α} {q : Parse β} [Keeps source low p] [Keeps source low q] : Keeps source low (sepBy1 p q) := by
  unfold sepBy1
  infer_instance

end Parse

/-! ### Nodes -/

/-- A condition that instance search can decide. -/
class Holds (b : Bool) : Prop where
  out : b = true

instance : Holds true := ⟨rfl⟩

/-- A kind that asks for nothing but the place of its nodes. -/
@[reducible]
def Kind.isFree : Kind → Bool
  | .template | .identifier | .undefined => false
  | _ => true

@[reducible]
def Kind.isNoTemplate : Kind → Bool
  | .template => false
  | _ => true

theorem Kind.ne_of_isFree {k : Kind} (h : k.isFree = true) : k ≠ .template ∧ k ≠ .identifier ∧ k ≠ .undefined := by
  refine ⟨?_, ?_, ?_⟩ <;> rintro rfl <;> cases h

/-- What lies between a place of the source and any other covers characters of the source. -/
theorem Cursor.Within.placed {c : Cursor} (h : c.Within source low) (d : Cursor) :
    ∃ front back, source = front ++ (c.charsTo d ++ back) ∧ c.offset = bytes front := by
  obtain ⟨front, hsource, hoffset⟩ := h.exists_front
  obtain ⟨back, hback⟩ := c.charsTo_isPrefix d
  exact ⟨front, back, by rw [hback, hsource], hoffset⟩

theorem faithful_of_isFree {k : Kind} {role : Option Role} {c d : Cursor} {children : List Node}
    (hk : k.isFree = true) (hc : c.Within source low) :
    (Node.mk k role c.offset (c.charsTo d) children).Faithful source where
  placed := hc.placed d
  segmented h := absurd h (Kind.ne_of_isFree hk).1
  named h := by
    obtain ⟨_, hidentifier, hundefined⟩ := Kind.ne_of_isFree hk
    exact absurd h (not_or.2 ⟨hidentifier, hundefined⟩)

theorem Sound.node {n : Node} (hn : n.Faithful source) (hchildren : Sound source low n.children) :
    Sound source low n :=
  ⟨.intro hn fun c hc => (Sound.list_iff.1 hchildren c hc).out⟩

namespace Parse

instance (k : Kind) (start : Cursor) (children : List Node) [hk : Holds k.isFree] [hstart : Sound source low start]
    [hchildren : Sound source low children] : Keeps source low (node k start children) where
  out := by
    rintro c n d hc ⟨⟩
    exact ⟨hc, .node (faithful_of_isFree hk.out hstart.out) hchildren⟩

/-! ### Blanks and comments -/

/-- The comments that are passed over are nodes of their own. -/
theorem within_pastTrivia_go (markup : Bool) : ∀ (fuel : Nat) {acc : List Node} {c : Cursor}, c.Within source low →
    Sound source low acc → (Cursor.pastTrivia.go markup fuel acc c).2.Within source low ∧
      Sound source low (Cursor.pastTrivia.go markup fuel acc c).1
  | 0, acc, c, hc, hacc => ⟨hc, (inferInstance : Sound source low acc.reverse)⟩
  | fuel + 1, acc, c, hc, hacc => by
    have hblank : (c.skipWhile isBlankBetweenTokens).Within source low := hc.skipWhile _
    have hcomment : ∀ {k : Kind} {d : Cursor}, k.isFree = true → Sound source low
        (Node.mk k none (c.skipWhile isBlankBetweenTokens).offset ((c.skipWhile isBlankBetweenTokens).charsTo d) []) :=
      fun hk => .node (faithful_of_isFree hk hblank) (inferInstance : Sound source low [])
    rw [Cursor.pastTrivia.go]
    split
    · next d hd =>
      have hd' := hblank.pastComment? hd
      have := hcomment (k := .comment) (d := d) rfl
      exact within_pastTrivia_go markup fuel hd' inferInstance
    · split
      · next d hd =>
        have hd' : d.Within source low := by
          split at hd
          · exact hblank.pastMarkupComment? hd
          · cases hd
        have := hcomment (k := .construct "html_comment") (d := d) rfl
        exact within_pastTrivia_go markup fuel hd' inferInstance
      · exact ⟨hblank, (inferInstance : Sound source low acc.reverse)⟩

theorem within_pastTrivia (markup : Bool) {c : Cursor} (hc : c.Within source low) :
    (c.pastTrivia markup).2.Within source low ∧ Sound source low (c.pastTrivia markup).1 :=
  within_pastTrivia_go markup (c.left + 1) hc inferInstance

instance : Keeps source low trivia where
  out := by
    rintro c a d hc ⟨⟩
    exact ⟨(within_pastTrivia false hc).1, inferInstance⟩

instance : Keeps source low leading where
  out := by
    rintro c a d hc ⟨⟩
    exact ⟨(within_pastTrivia true hc).1, inferInstance⟩

instance (markup : Bool) : Keeps source low (comments markup) where
  out := by
    intro c a d hc h
    rw [comments, Option.some.injEq] at h
    have hpast := within_pastTrivia markup hc
    rwa [h] at hpast

instance : Keeps source low here := by
  unfold here
  infer_instance

instance : Keeps source low upcoming where
  out := by
    rintro c a d hc ⟨⟩
    exact ⟨hc, ⟨(within_pastTrivia false hc).1⟩⟩

/-! ### Fixed texts -/

instance : Keeps source low ahead where
  out := by
    rintro c a d hc ⟨⟩
    exact ⟨hc, inferInstance⟩

theorem reads_of_exactly {s : String} {c d : Cursor} {u : Unit} (hc : c.Within source low)
    (h : exactly s c = some (u, d)) : c.Reads s.toList d := by
  rw [exactly] at h
  split at h
  · next hs =>
    obtain ⟨rest, hrest⟩ := List.isPrefixOf_iff_prefix.1 hs
    rw [hc.eq_before, ← hrest, ← String.length_toList, Cursor.skipN_before] at h
    cases h
    refine ⟨hrest.symm, rfl, ?_⟩
    rw [hc.left_eq, ← hrest, List.length_append, Nat.add_sub_cancel_left]
    rfl
  · cases h

instance (s : String) : Keeps source low (exactly s) where
  out := fun hc h => ⟨hc.of_reads (reads_of_exactly hc h), inferInstance⟩

instance (s : String) : Keeps source low (symbol s) := by
  unfold symbol
  infer_instance

instance (s : String) : Keeps source low (sees s) := by
  unfold sees
  infer_instance

instance (s stoppers : String) : Keeps source low (symbolNot s stoppers) := by
  unfold symbolNot
  refine keeps_bind inferInstance fun _ _ => keeps_bind inferInstance fun cs _ => ?_
  cases cs <;> infer_instance

instance (afterExpression : Bool) : Keeps source low (semicolonSupplied afterExpression) where
  out := by
    rintro c a d hc ⟨⟩
    exact ⟨hc, inferInstance⟩

instance (afterExpression : Bool) : Keeps source low (semicolon afterExpression) := by
  unfold semicolon
  infer_instance

instance : Keeps source low signatureEnd where
  out := by
    intro c a d hc h
    rw [signatureEnd] at h
    split at h
    · cases h
      exact ⟨hc, inferInstance⟩
    · exact (inferInstance : Keeps source low (symbol ";")).out hc h

instance (s : String) : Keeps source low (tokenNode s) := by
  unfold tokenNode
  infer_instance

/-! ### Words and literals -/

instance : Keeps source low word := by
  unfold word
  infer_instance

instance : Keeps source low wordAhead where
  out := by
    rintro c a d hc ⟨⟩
    exact ⟨hc, inferInstance⟩

instance (k : String) : Keeps source low (keyword k) := by
  unfold keyword
  infer_instance

instance (k : String) : Keeps source low (seesWord k) := by
  unfold seesWord
  infer_instance

instance (rest : List Char) : Keeps source low (jumpTo rest) := by
  unfold jumpTo
  infer_instance

instance : Keeps source low number := by
  unfold number
  infer_instance

instance : Keeps source low string := by
  unfold string
  refine keeps_bind inferInstance fun start _ => ?_
  split
  · refine keeps_bind inferInstance fun _ _ => ?_
    split <;> infer_instance
  · infer_instance

instance : Keeps source low regex := by
  unfold regex
  refine keeps_bind inferInstance fun start _ => ?_
  split
  · refine keeps_bind inferInstance fun _ _ => ?_
    split <;> infer_instance
  · infer_instance

instance : Keeps source low privateName := by
  unfold privateName
  infer_instance

end Parse

end RequestAtlas.Syntax
