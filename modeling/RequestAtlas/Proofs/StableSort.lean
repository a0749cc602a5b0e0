import Mathlib.Data.String.Basic
import Mathlib.Data.Prod.Lex
/-!
# Stable sorting by a key

`StableSort f l s` says, without naming an algorithm, that `s` is `l` by ascending `f` with the members of one
key left in the order of `l`.  `mergeSort` produces such a list (`stableSort_mergeSort`), there is only one
(`StableSort.unique`), and leaving members out before or after sorting is the same (`StableSort.filter`).  All
of it rests on `map_eq_of_classes`: two ascending lists agree as soon as they agree key by key.
-/

namespace RequestAtlas

variable {α β κ : Type} [LinearOrder κ]

/-- The keys of a list ascend. -/
def Ascending (f : α → κ) (l : List α) : Prop := l.Pairwise fun a b => f a ≤ f b

/-- The members of a list that have the key `k`. -/
def keyClass (f : α → κ) (k : κ) (l : List α) : List α := l.filter fun a => decide (f a = k)

/-- `s` is the stable sort of `l` by `f`. -/
structure StableSort (f : α → κ) (l s : List α) : Prop where
  perm : s.Perm l
  ascending : Ascending f s
  stable : ∀ k, keyClass f k s = keyClass f k l

/-! ## Classes of equal keys -/

theorem mem_keyClass {f : α → κ} {k : κ} {l : List α} {a : α} : a ∈ keyClass f k l ↔ a ∈ l ∧ f a = k := by
  simp [keyClass]

theorem keyClass_cons_self (f : α → κ) (a : α) (l : List α) :
    keyClass f (f a) (a :: l) = a :: keyClass f (f a) l := by
  simp [keyClass]

theorem keyClass_cons_of_ne {f : α → κ} {k : κ} {a : α} (h : f a ≠ k) (l : List α) :
    keyClass f k (a :: l) = keyClass f k l := by
  simp [keyClass, h]

theorem keyClass_filter (f : α → κ) (p : α → Bool) (k : κ) (l : List α) :
    keyClass f k (l.filter p) = (keyClass f k l).filter p := by
  simp only [keyClass, List.filter_filter, Bool.and_comm]

/-- In a permutation every class has the same length. -/
theorem length_keyClass_perm {f : α → κ} {s l : List α} (h : s.Perm l) (k : κ) :
    (keyClass f k s).length = (keyClass f k l).length :=
  (h.filter _).length_eq

/-- The first keys of two ascending lists are equal if every key of either occurs in the other. -/
theorem head_key_eq {f : α → κ} {a b : α} {s t : List α} (hs : Ascending f (a :: s)) (ht : Ascending f (b :: t))
    (hab : ∃ x ∈ b :: t, f x = f a) (hba : ∃ x ∈ a :: s, f x = f b) : f a = f b := by
  obtain ⟨x, hx, hxa⟩ := hab
  obtain ⟨y, hy, hyb⟩ := hba
  have hb : f b ≤ f a := by
    rcases List.mem_cons.1 hx with rfl | hx
    · exact hxa.le
    · exact hxa ▸ List.rel_of_pairwise_cons ht hx
  have ha : f a ≤ f b := by
    rcases List.mem_cons.1 hy with rfl | hy
    · exact hyb.le
    · exact hyb ▸ List.rel_of_pairwise_cons hs hy
  exact le_antisymm ha hb

/-- Two ascending lists have the same image under `g` if their classes have. -/
theorem map_eq_of_classes {f : α → κ} {g : α → β} : ∀ {s t : List α}, Ascending f s → Ascending f t →
    (∀ k, (keyClass f k s).map g = (keyClass f k t).map g) → s.map g = t.map g
  | [], [], _, _, _ => rfl
  | [], b :: t, _, _, h => by
    have hb := h (f b)
    rw [keyClass_cons_self] at hb
    simp [keyClass] at hb
  | a :: s, [], _, _, h => by
    have ha := h (f a)
    rw [keyClass_cons_self] at ha
    simp [keyClass] at ha
  | a :: s, b :: t, hs, ht, h => by
    have occurs : ∀ {x : α} {l l' : List α}, (keyClass f (f x) (x :: l)).map g = (keyClass f (f x) l').map g →
        ∃ y ∈ l', f y = f x := by
      intro x l l' hx
      rw [keyClass_cons_self, List.map_cons] at hx
      obtain ⟨y, hy⟩ : ∃ y, y ∈ keyClass f (f x) l' := by
        apply List.exists_mem_of_ne_nil
        intro h0
        rw [h0] at hx
        simp at hx
      exact ⟨y, mem_keyClass.1 hy⟩
    have hab : f a = f b := head_key_eq hs ht (occurs (h (f a))) (occurs (h (f b)).symm)
    have hhead := h (f a)
    rw [keyClass_cons_self, hab, keyClass_cons_self, List.map_cons, List.map_cons, List.cons.injEq] at hhead
    have htail : ∀ k, (keyClass f k s).map g = (keyClass f k t).map g := by
      intro k
      by_cases hk : f b = k
      · rw [← hk]; exact hhead.2
      · have := h k
        rwa [keyClass_cons_of_ne (hab ▸ hk), keyClass_cons_of_ne hk] at this
    rw [List.map_cons, List.map_cons, hhead.1,
      map_eq_of_classes (List.Pairwise.of_cons hs) (List.Pairwise.of_cons ht) htail]

/-- Conversely, lists of the same keys and the same image have the same image class by class. -/
theorem map_keyClass_eq {f : α → κ} {g : α → β} (k : κ) : ∀ {s t : List α}, s.map f = t.map f →
    s.map g = t.map g → (keyClass f k s).map g = (keyClass f k t).map g
  | [], [], _, _ => rfl
  | [], _ :: _, hf, _ => by simp at hf
  | _ :: _, [], hf, _ => by simp at hf
  | a :: s, b :: t, hf, hg => by
    rw [List.map_cons, List.map_cons, List.cons.injEq] at hf hg
    have ih := map_keyClass_eq k hf.2 hg.2
    by_cases hk : f a = k
    · subst hk
      rw [keyClass_cons_self, hf.1, keyClass_cons_self, List.map_cons, List.map_cons, hg.1, ← hf.1, ih]
    · rwa [keyClass_cons_of_ne hk, keyClass_cons_of_ne (hf.1 ▸ hk)]

/-- Lists with the same image under `f` have the same image under all that `f` determines. -/
theorem map_eq_of_map_eq {γ : Type} {f : α → γ} {g : α → β} : ∀ {s t : List α}, s.map f = t.map f →
    (∀ a ∈ s, ∀ b ∈ t, f a = f b → g a = g b) → s.map g = t.map g
  | [], [], _, _ => rfl
  | [], _ :: _, hf, _ => by simp at hf
  | _ :: _, [], hf, _ => by simp at hf
  | a :: s, b :: t, hf, h => by
    rw [List.map_cons, List.map_cons, List.cons.injEq] at hf
    rw [List.map_cons, List.map_cons, h a (by simp) b (by simp) hf.1,
      map_eq_of_map_eq hf.2 fun a ha b hb => h a (by simp [ha]) b (by simp [hb])]

/-! ## Stable sorts -/

namespace StableSort

variable {f : α → κ} {l s t : List α}

/-- A list has one stable sort. -/
theorem unique (hs : StableSort f l s) (ht : StableSort f l t) : s = t := by
  have h := map_eq_of_classes (g := id) hs.ascending ht.ascending fun k => by rw [hs.stable, ht.stable]
  simpa using h

/-- Leaving out members commutes with sorting. -/
theorem filter (h : StableSort f l s) (p : α → Bool) : StableSort f (l.filter p) (s.filter p) where
  perm := h.perm.filter p
  ascending := List.Pairwise.filter p h.ascending
  stable k := by rw [keyClass_filter, keyClass_filter, h.stable]

/-- Taking images that keep the keys commutes with sorting. -/
theorem map {f' : β → κ} (h : StableSort f l s) (g : α → β) (hg : ∀ a, f' (g a) = f a) :
    StableSort f' (l.map g) (s.map g) where
  perm := h.perm.map g
  ascending := by
    rw [Ascending, List.pairwise_map]
    exact List.Pairwise.imp (fun hab => by rw [hg, hg]; exact hab) h.ascending
  stable k := by
    have hclass : ∀ r : List α, keyClass f' k (r.map g) = (keyClass f k r).map g := by
      intro r
      rw [keyClass, keyClass, List.filter_map]
      congr 2
      funext a
      simp [hg]
    rw [hclass, hclass, h.stable]

/-- Members that hold nothing leave no trace in what sorted members hold together. -/
theorem flatMap_eq {γ : Type} {l' s' : List α} (held : α → List γ) (hs : StableSort f l s) (hs' : StableSort f l' s')
    (h : l.filter (fun a => !(held a).isEmpty) = l'.filter fun a => !(held a).isEmpty) :
    s.flatMap held = s'.flatMap held := by
  have drop : ∀ r : List α, (r.filter fun a => !(held a).isEmpty).flatMap held = r.flatMap held := by
    intro r
    induction r with
    | nil => rfl
    | cons a r ih => cases ha : held a <;> simp [ha, ih]
  have hfilter := (h ▸ hs.filter fun a => !(held a).isEmpty).unique (hs'.filter fun a => !(held a).isEmpty)
  rw [← drop s, ← drop s', hfilter]

/-- Members of one key keep what holds between them in the list, so a stable sort of an ordered list is ordered by the
key first. -/
theorem pairwise_lex {R : α → α → Prop} (h : StableSort f l s) (hl : l.Pairwise R) :
    s.Pairwise fun a b => f a < f b ∨ f a = f b ∧ R a b := by
  rw [List.pairwise_iff_forall_sublist]
  intro a b hab
  have hle : f a ≤ f b := List.pairwise_iff_forall_sublist.1 h.ascending hab
  rcases hle.lt_or_eq with hlt | heq
  · exact .inl hlt
  · refine .inr ⟨heq, ?_⟩
    have hclass : [a, b].Sublist (keyClass f (f b) l) := by
      rw [← h.stable]
      have hsub := hab.filter fun x => decide (f x = f b)
      rwa [List.filter_eq_self.2 (by simp [heq])] at hsub
    exact List.pairwise_iff_forall_sublist.1 hl (hclass.trans List.filter_sublist)

/-- Sorts of two orders of the same members have the same keys, place by place. -/
theorem keys_eq {l' : List α} (hs : StableSort f l s) (ht : StableSort f l' t) (h : l.Perm l') :
    s.map f = t.map f := by
  apply map_eq_of_classes hs.ascending ht.ascending
  intro k
  have replicated : ∀ r : List α, (keyClass f k r).map f = List.replicate (keyClass f k r).length k := by
    intro r
    rw [List.eq_replicate_iff]
    refine ⟨by simp, fun b hb => ?_⟩
    obtain ⟨a, ha, rfl⟩ := List.mem_map.1 hb
    exact (mem_keyClass.1 ha).2
  rw [replicated, replicated, hs.stable, ht.stable, length_keyClass_perm h]

end StableSort

/-- `mergeSort` sorts stably: a class is a sorted part of the list, so it is still a part of the result, and as
long as the class there. -/
theorem stableSort_mergeSort {f : α → κ} {le : α → α → Bool} (hle : ∀ a b, le a b = decide (f a ≤ f b))
    (l : List α) : StableSort f l (l.mergeSort le) := by
  have trans : ∀ a b c : α, le a b → le b c → le a c := by
    intro a b c hab hbc
    simp only [hle, decide_eq_true_eq] at hab hbc ⊢
    exact hab.trans hbc
  have total : ∀ a b : α, le a b || le b a := by
    intro a b
    simpa [hle] using le_total (f a) (f b)
  have perm := List.mergeSort_perm l le
  refine ⟨perm, ?_, fun k => ?_⟩
  · exact (List.pairwise_mergeSort trans total l).imp fun h => by simpa [hle] using h
  · have sorted : (keyClass f k l).Pairwise fun a b => le a b := by
      apply List.pairwise_of_forall_mem_list
      intro a ha b hb
      simp [hle, (mem_keyClass.1 ha).2, (mem_keyClass.1 hb).2]
    have sub := List.sublist_mergeSort trans total sorted (List.filter_sublist (l := l))
    have sub' := sub.filter fun a => decide (f a = k)
    simp only [keyClass, List.filter_filter, Bool.and_self] at sub'
    exact (sub'.eq_of_length (length_keyClass_perm (f := f) perm k).symm).symm

end RequestAtlas
