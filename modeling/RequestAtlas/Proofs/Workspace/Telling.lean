import RequestAtlas.Generation
import RequestAtlas.Proofs.Workspace.Outcome
/-!
# What work tells

The level decides which entries of the log are shown, and nothing else: a step that tells (`Workspace.Tells`) has, for a
tree and a current directory, one answer, one tree that it leaves and one list of entries, of which the level shows its
share.  All steps of which generating consists tell, so `Generation.run` does (`tells_run`).
-/

namespace RequestAtlas

namespace Log

theorem shown_nil (level : Int) : shown level [] = [] := rfl

theorem shown_append (level : Int) (es es' : List LogEntry) :
    shown level (es ++ es') = shown level es ++ shown level es' :=
  List.filter_append es es'

theorem shown_singleton (level : Int) (e : LogEntry) : shown level [e] = if shows level e then [e] else [] := by
  by_cases h : shows level e = true
  · rw [if_pos h, shown, List.filter_cons_of_pos h, List.filter_nil]
  · rw [if_neg h, shown, List.filter_cons_of_neg h, List.filter_nil]

/-- A higher level shows what a lower one shows, less what does not reach it. -/
theorem shown_of_le {level level' : Int} (h : effective level ≤ effective level') (es : List LogEntry) :
    shown level' es = (shown level es).filter fun e => effective level' ≤ e.level := by
  rw [shown, shown, List.filter_filter]
  refine List.filter_congr fun e _ => ?_
  by_cases hreach : effective level' ≤ e.level
  · have hlow : effective level ≤ e.level := Int.le_trans h hreach
    simp [shows, hreach, hlow]
  · simp [shows, hreach]

end Log

namespace Workspace

variable {α β : Type}

/-- What happens does not depend on the level, nor on what the log holds, and the level decides which of the entries are
shown. -/
def Tells (f : Workspace → α × Workspace) : Prop :=
  ∀ cwd tree, ∃ a tree' es, ∀ level log,
    f ⟨cwd, tree, level, log⟩ = (a, ⟨cwd, tree', level, log ++ Log.shown level es⟩)

theorem tells_pure (a : α) : Tells (pure a : StateM Workspace α).run := by
  refine fun cwd tree => ⟨a, tree, [], fun level log => ?_⟩
  rw [Log.shown_nil, List.append_nil]
  rfl

/-- What the second step tells comes behind what the first one tells. -/
theorem tells_bind {x : StateM Workspace α} {f : α → StateM Workspace β} (hx : Tells x.run)
    (hf : ∀ a, Tells (f a).run) : Tells (x >>= f).run := by
  intro cwd tree
  obtain ⟨a, made, es, hfirst⟩ := hx cwd tree
  obtain ⟨b, left, es', hsecond⟩ := hf a cwd made
  refine ⟨b, left, es ++ es', fun level log => ?_⟩
  rw [StateT.run_bind, hfirst, Log.shown_append, ← List.append_assoc]
  exact hsecond level _

/-- An answer that is read off the tree and the current directory. -/
theorem tells_get_bind_pure {g : Workspace → α}
    (hsame : ∀ cwd tree level log, g ⟨cwd, tree, level, log⟩ = g ⟨cwd, tree, 0, []⟩) :
    Tells (get >>= fun w => pure (g w) : StateM Workspace α).run := by
  refine fun cwd tree => ⟨g ⟨cwd, tree, 0, []⟩, tree, [], fun level log => ?_⟩
  rw [Log.shown_nil, List.append_nil, ← hsame cwd tree level log]
  rfl

theorem tells_mapM {f : α → StateM Workspace β} : ∀ {l : List α}, (∀ a ∈ l, Tells (f a).run) → Tells (l.mapM f).run
  | [], _ => tells_pure []
  | a :: l, h => by
    rw [List.forall_mem_cons] at h
    rw [List.mapM_cons]
    exact tells_bind h.1 fun b => tells_bind (tells_mapM h.2) fun bs => tells_pure (b :: bs)

end Workspace

namespace Work

open Workspace (Tells)

variable {α β : Type}

theorem tells_pure (a : α) : Tells (pure a : Work α).outcome := Workspace.tells_pure (Except.ok a : Except Failure α)

theorem tells_throw (e : Failure) : Tells (throw e : Work α).outcome :=
  Workspace.tells_pure (Except.error e : Except Failure α)

theorem tells_note (level : Int) (logger message : String) : Tells (note level logger message).outcome := by
  intro cwd tree
  refine ⟨.ok (), tree, [⟨level, logger, message⟩], fun shownFrom log => ?_⟩
  rw [outcome_note, Log.shown_singleton]
  by_cases h : Log.shows shownFrom ⟨level, logger, message⟩ = true
  · rw [if_pos h, if_pos h]
    rfl
  · rw [if_neg h, if_neg h, List.append_nil]

/-- A failure tells nothing more. -/
theorem tells_bind {x : Work α} {f : α → Work β} (hx : Tells x.outcome) (hf : ∀ a, Tells (f a).outcome) :
    Tells (x >>= f).outcome := by
  have hnext : ∀ r, Tells (ExceptT.bindCont f r : StateM Workspace (Except Failure β)).run := by
    intro r
    cases r with
    | ok a => exact hf a
    | error e => exact Workspace.tells_pure (Except.error e : Except Failure β)
  exact Workspace.tells_bind hx hnext

/-- Looking at a tree, where what follows is one step whatever the level. -/
theorem tells_get_bind_in {f : Workspace → Work β} {y : Work β} {cwd : List String} {tree : Folder}
    (hy : Tells y.outcome) (hsame : ∀ level log, f ⟨cwd, tree, level, log⟩ = y) :
    ∃ r tree' es, ∀ level log, (get >>= f : Work β).outcome ⟨cwd, tree, level, log⟩ =
      (r, ⟨cwd, tree', level, log ++ Log.shown level es⟩) := by
  obtain ⟨r, left, es, h⟩ := hy cwd tree
  refine ⟨r, left, es, fun level log => ?_⟩
  rw [outcome_bind, outcome_get, ← h level log]
  dsimp only
  rw [hsame]

theorem tells_get_bind {f : Workspace → Work β} (hf : ∀ w, Tells (f w).outcome)
    (hsame : ∀ cwd tree level log, f ⟨cwd, tree, level, log⟩ = f ⟨cwd, tree, 0, []⟩) :
    Tells (get >>= f : Work β).outcome :=
  fun cwd tree => tells_get_bind_in (hf ⟨cwd, tree, 0, []⟩) (hsame cwd tree)

theorem tells_mapM {f : α → Work β} (h : ∀ a, Tells (f a).outcome) : ∀ l : List α, Tells (l.mapM f).outcome
  | [] => tells_pure []
  | a :: l => by
    rw [List.mapM_cons]
    exact tells_bind (h a) fun b => tells_bind (tells_mapM h l) fun bs => tells_pure (b :: bs)

theorem tells_ofFile (r : Except FileError α) : Tells (ofFile r).outcome := by
  cases r with
  | ok a => exact tells_pure a
  | error e => exact tells_throw (.file e)

theorem tells_ofRender (r : Except RenderError α) : Tells (ofRender r).outcome := by
  cases r with
  | ok a => exact tells_pure a
  | error e => exact tells_throw (.render e)

theorem tells_ofMoment (r : Except Moment.Error α) : Tells (ofMoment r).outcome := by
  cases r with
  | ok a => exact tells_pure a
  | error e => exact tells_throw (.moment e)

/-! ## Files -/

/-- Putting a tree in the place of the one that was looked at. -/
theorem outcome_set_tree (cwd : List String) (tree tree' : Folder) (level : Int) (log : List LogEntry) :
    (set (Workspace.mk cwd tree' level log) : Work PUnit).outcome ⟨cwd, tree, level, log⟩ =
      (.ok ⟨⟩, ⟨cwd, tree', level, log ++ Log.shown level []⟩) := by
  rw [outcome_set, Log.shown_nil, List.append_nil]

variable [Surrogates]

theorem makeFolder_level (cwd : List String) (tree : Folder) (p : Path) :
    (∃ tree', ∀ level log, (Workspace.mk cwd tree level log).makeFolder p = .ok ⟨cwd, tree', level, log⟩) ∨
      ∃ e, ∀ level log, (Workspace.mk cwd tree level log).makeFolder p = .error e := by
  simp only [Workspace.makeFolder, Workspace.locate]
  cases tree.locate cwd false p with
  | ok t =>
    cases t with
    | free place => exact .inl ⟨tree.set place (.folder []), fun _ _ => rfl⟩
    | found place e => exact .inr ⟨.fault .occupied p, fun _ _ => rfl⟩
  | error e => exact .inr ⟨e, fun _ _ => rfl⟩

theorem write_level (cwd : List String) (tree : Folder) (p : Path) (content : List UInt8) :
    (∃ tree', ∀ level log, (Workspace.mk cwd tree level log).write p content = .ok ⟨cwd, tree', level, log⟩) ∨
      ∃ e, ∀ level log, (Workspace.mk cwd tree level log).write p content = .error e := by
  simp only [Workspace.write, Workspace.locate]
  cases tree.locate cwd true p with
  | ok t =>
    cases t with
    | free place => exact .inl ⟨tree.set place (.file content), fun _ _ => rfl⟩
    | found place e =>
      cases e with
      | file old => exact .inl ⟨tree.set place (.file content), fun _ _ => rfl⟩
      | folder es => exact .inr ⟨.fault .isFolder p, fun _ _ => rfl⟩
      | link target => exact .inr ⟨.fault .isFolder p, fun _ _ => rfl⟩
  | error e => exact .inr ⟨e, fun _ _ => rfl⟩

theorem tells_ensureFolder (p : Path) : Tells (ensureFolder p).outcome := by
  unfold ensureFolder
  intro cwd tree
  rcases makeFolder_level cwd tree p with ⟨tree', hmake⟩ | ⟨e, hmake⟩
  · refine ⟨.ok (), tree', [], fun level log => ?_⟩
    rw [outcome_bind, outcome_get]
    simp only [hmake]
    exact outcome_set_tree _ _ _ _ _
  · -- What is done where no folder can be made looks at the tree only.
    have hoccupied : Tells (ofFile ((Workspace.mk cwd tree 0 []).folder? p) >>= fun found =>
        found.elim (refuse e) fun _ => pure () : Work Unit).outcome := by
      refine tells_bind (tells_ofFile _) fun found => ?_
      cases found with
      | none => exact tells_throw (.file e)
      | some es => exact tells_pure ()
    cases e with
    | invalid f =>
      exact tells_get_bind_in (tells_throw (.file (.invalid f))) fun level log => by simp only [hmake]; rfl
    | fault f q =>
      cases f
      case missing =>
        exact tells_get_bind_in (tells_throw (.file (.fault .missing q))) fun level log => by simp only [hmake]; rfl
      all_goals
        refine tells_get_bind_in hoccupied fun level log => ?_
        simp only [hmake]
        refine congrArg (ofFile ((Workspace.mk cwd tree 0 []).folder? p) >>= ·) (funext fun found => ?_)
        cases found <;> rfl

theorem tells_ensureFoldersIn (anchor : Anchor) : ∀ names : List String, Tells (ensureFoldersIn anchor names).outcome
  | [] => tells_ensureFolder ⟨anchor, []⟩
  | name :: above => by
    have hlast := tells_ensureFolder ⟨anchor, (name :: above).reverse⟩
    have habove := tells_bind (tells_ensureFoldersIn anchor above) fun _ => hlast
    unfold ensureFoldersIn
    intro cwd tree
    rcases makeFolder_level cwd tree ⟨anchor, (name :: above).reverse⟩ with ⟨tree', hmake⟩ | ⟨e, hmake⟩
    · exact tells_get_bind_in hlast fun level log => by simp only [hmake]
    · cases e with
      | invalid f => exact tells_get_bind_in hlast fun level log => by simp only [hmake]
      | fault f q =>
        cases f
        case missing => exact tells_get_bind_in habove fun level log => by simp only [hmake]
        all_goals exact tells_get_bind_in hlast fun level log => by simp only [hmake]

theorem tells_writeBytes (p : Path) (content : List UInt8) : Tells (writeBytes p content).outcome := by
  unfold writeBytes
  intro cwd tree
  rcases write_level cwd tree p content with ⟨tree', hwrite⟩ | ⟨e, hwrite⟩
  · refine ⟨.ok (), tree', [], fun level log => ?_⟩
    rw [outcome_bind, outcome_get]
    simp only [hwrite]
    exact outcome_set_tree _ _ _ _ _
  · exact tells_get_bind_in (tells_throw (.file e)) fun level log => by simp only [hwrite]; rfl

theorem tells_writeText (p : Path) (text : String) : Tells (writeText p text).outcome := by
  unfold writeText
  cases Text.encode text with
  | ok bytes => exact tells_writeBytes p bytes
  | error e => exact tells_bind (tells_writeBytes p []) fun _ => tells_throw (.encoding e)

end Work

/-! ## Generating -/

open Workspace (Tells)
open Work

variable [Surrogates]

theorem Selection.tells_select (root : Path) (f : Filter) : Tells (select root f).outcome := by
  refine tells_get_bind (fun w => tells_bind (tells_ofFile _) fun found => ?_) fun _ _ _ _ => rfl
  cases found with
  | none => exact tells_bind (tells_note _ _ _) fun _ => tells_pure []
  | some es =>
    refine tells_bind (tells_ofFile (numberedUnder root es)) fun ns => ?_
    by_cases hnone : ns.isEmpty = true
    · rw [if_pos hnone]
      exact tells_bind (tells_note _ _ _) fun _ => tells_pure []
    · rw [if_neg hnone]
      refine tells_bind (tells_mapM (fun n => ?_) (chosen ns)) fun paths => tells_pure paths.flatten
      exact tells_bind (tells_ofFile _) fun names => tells_bind (tells_note _ _ _) fun _ => tells_pure _

namespace Generation

variable [Syntax.Parser]

theorem tells_extractFile (client : String) (path : Path) : Tells (extractFile client path).outcome := by
  refine tells_get_bind (fun w => ?_) fun _ _ _ _ => rfl
  split
  · exact tells_throw (.file (.invalid _))
  · exact tells_bind (tells_note _ _ _) fun _ => tells_pure []
  · split
    · exact tells_bind (tells_note _ _ _) fun _ => tells_pure []
    · exact tells_bind (tells_note _ _ _) fun _ => tells_pure _

theorem tells_collect (s : Settings) : Tells (collect s).outcome := by
  refine tells_bind (Selection.tells_select _ _) fun files => tells_bind (tells_note _ _ _) fun _ => ?_
  exact tells_bind (tells_mapM (tells_extractFile s.clientName) files) fun requests => tells_pure _

/-- **Generating tells**: at every level it comes to the same, and shows of its entries what the level asks for. -/
theorem tells_run (s : Settings) (exportedAt : Moment) : Tells (run s exportedAt).outcome := by
  refine tells_bind (tells_ensureFoldersIn _ _) fun _ => tells_bind (tells_collect s) fun gathered => ?_
  refine tells_get_bind (fun w => ?_) fun _ _ _ _ => rfl
  refine tells_bind (tells_ofRender _) fun collection => tells_bind (tells_ofMoment _) fun environment => ?_
  refine tells_bind (tells_ofRender _) fun text => tells_bind (tells_writeText _ _) fun _ => ?_
  refine tells_bind (tells_ofRender _) fun template => tells_bind (tells_writeText _ _) fun _ => ?_
  exact tells_bind (tells_note _ _ _) fun _ => tells_pure _

end Generation

end RequestAtlas
