import RequestAtlas.Workspace.Files
import Mathlib.Logic.Basic
/-!
# What work does

`Work.outcome` is the answer of a step and the workspace it leaves.  A sequence of steps answers if each of them
does (`outcome_bind_ok`).  Many steps look at the workspace and write to the log only: `Work.Answers x w r` says
that `x` answers `r` in `w`, whatever the log holds, and changes nothing but the log.
-/

namespace RequestAtlas

/-- The same surroundings with another log. -/
def Workspace.withLog (w : Workspace) (log : List LogEntry) : Workspace := { w with log }

namespace Work

variable {α β : Type}

/-- The answer of a step and the workspace that it leaves. -/
def outcome (x : Work α) (w : Workspace) : Except Failure α × Workspace := x.run.run w

theorem outcome_pure (a : α) (w : Workspace) : (pure a : Work α).outcome w = (.ok a, w) := rfl

theorem outcome_get (w : Workspace) : (get : Work Workspace).outcome w = (.ok w, w) := rfl

theorem outcome_set (v w : Workspace) : (set v : Work PUnit).outcome w = (.ok ⟨⟩, v) := rfl

theorem outcome_throw (e : Failure) (w : Workspace) : (throw e : Work α).outcome w = (.error e, w) := rfl

theorem outcome_note (level : Int) (logger message : String) (w : Workspace) :
    (note level logger message).outcome w = (.ok (),
      if Log.shows w.level ⟨level, logger, message⟩ then w.withLog (w.log ++ [⟨level, logger, message⟩]) else w) := rfl

/-- A sequence hands the first answer on; a failure ends it. -/
theorem outcome_bind (x : Work α) (f : α → Work β) (w : Workspace) :
    (x >>= f).outcome w =
      match x.outcome w with
      | (.ok a, v) => (f a).outcome v
      | (.error e, v) => (.error e, v) := by
  simp only [outcome, ExceptT.run_bind, StateT.run_bind]
  rcases x.run.run w with ⟨r | a, v⟩ <;> rfl

/-- What a sequence can come to: the first step answers and the second goes on, or the first fails. -/
theorem outcome_bind_cases {x : Work α} {f : α → Work β} {w v : Workspace} {r : Except Failure β}
    (h : (x >>= f).outcome w = (r, v)) :
    (∃ a u, x.outcome w = (.ok a, u) ∧ (f a).outcome u = (r, v)) ∨ ∃ e, x.outcome w = (.error e, v) ∧ r = .error e := by
  rw [outcome_bind] at h
  rcases hx : x.outcome w with ⟨e | a, u⟩
  · rw [hx] at h
    cases h
    exact .inr ⟨e, rfl, rfl⟩
  · rw [hx] at h
    exact .inl ⟨a, u, rfl, h⟩

/-- A sequence answers exactly if both steps do. -/
theorem outcome_bind_ok {x : Work α} {f : α → Work β} {w v : Workspace} {b : β} :
    (x >>= f).outcome w = (.ok b, v) ↔ ∃ a u, x.outcome w = (.ok a, u) ∧ (f a).outcome u = (.ok b, v) := by
  rw [outcome_bind]
  rcases hx : x.outcome w with ⟨r | a, u⟩
  · simp
  · constructor
    · intro h
      exact ⟨a, u, rfl, h⟩
    · rintro ⟨a', u', heq, h⟩
      cases heq
      exact h

theorem outcome_bind_of_ok {x : Work α} {f : α → Work β} {w v : Workspace} {a : α} (h : x.outcome w = (.ok a, v)) :
    (x >>= f).outcome w = (f a).outcome v := by
  rw [outcome_bind, h]

theorem outcome_bind_of_error {x : Work α} {f : α → Work β} {w v : Workspace} {e : Failure}
    (h : x.outcome w = (.error e, v)) : (x >>= f).outcome w = (.error e, v) := by
  rw [outcome_bind, h]

theorem outcome_ofFile_ok {r : Except FileError α} {w v : Workspace} {a : α} :
    (ofFile r).outcome w = (.ok a, v) ↔ r = .ok a ∧ v = w := by
  cases r with
  | ok b => simp [ofFile, outcome_pure, eq_comm]
  | error e => simp [ofFile, refuse, outcome_throw]

theorem outcome_ofRender_ok {r : Except RenderError α} {w v : Workspace} {a : α} :
    (ofRender r).outcome w = (.ok a, v) ↔ r = .ok a ∧ v = w := by
  cases r with
  | ok b => simp [ofRender, outcome_pure, eq_comm]
  | error e => simp [ofRender, outcome_throw]

theorem outcome_ofMoment_ok {r : Except Moment.Error α} {w v : Workspace} {a : α} :
    (ofMoment r).outcome w = (.ok a, v) ↔ r = .ok a ∧ v = w := by
  cases r with
  | ok b => simp [ofMoment, outcome_pure, eq_comm]
  | error e => simp [ofMoment, outcome_throw]

theorem outcome_ofFile_error {r : Except FileError α} {w v : Workspace} {e : Failure}
    (h : (ofFile r).outcome w = (.error e, v)) : (∃ d, e = .file d) ∧ v = w := by
  cases r with
  | ok a => cases h
  | error d =>
    cases h
    exact ⟨⟨d, rfl⟩, rfl⟩

theorem outcome_ofRender_error {r : Except RenderError α} {w v : Workspace} {e : Failure}
    (h : (ofRender r).outcome w = (.error e, v)) : (∃ d, r = .error d ∧ e = .render d) ∧ v = w := by
  cases r with
  | ok a => cases h
  | error d =>
    cases h
    exact ⟨⟨d, rfl, rfl⟩, rfl⟩

theorem outcome_ofMoment_error {r : Except Moment.Error α} {w v : Workspace} {e : Failure}
    (h : (ofMoment r).outcome w = (.error e, v)) : (∃ d, r = .error d ∧ e = .moment d) ∧ v = w := by
  cases r with
  | ok a => cases h
  | error d =>
    cases h
    exact ⟨⟨d, rfl, rfl⟩, rfl⟩

/-! ## Steps that change the log only -/

/-- The step answers `r` and changes nothing but the log. -/
def Answers (x : Work α) (w : Workspace) (r : Except Failure α) : Prop :=
  ∀ log, ∃ log', x.outcome (w.withLog log) = (r, w.withLog log')

/-- A step has one answer in a workspace. -/
theorem Answers.unique {x : Work α} {w : Workspace} {r r' : Except Failure α} (h : x.Answers w r)
    (h' : x.Answers w r') : r = r' := by
  obtain ⟨log, hlog⟩ := h w.log
  obtain ⟨log', hlog'⟩ := h' w.log
  exact (Prod.mk.inj (hlog.symm.trans hlog')).1

theorem answers_pure (a : α) (w : Workspace) : (pure a : Work α).Answers w (.ok a) := fun log => ⟨log, rfl⟩

theorem answers_refuse (e : FileError) (w : Workspace) : (refuse e : Work α).Answers w (.error (.file e)) :=
  fun log => ⟨log, rfl⟩

theorem answers_ofFile (r : Except FileError α) (w : Workspace) : (ofFile r).Answers w (r.mapError .file) := by
  cases r with
  | ok a => exact answers_pure a w
  | error e => exact answers_refuse e w

theorem answers_note (level : Int) (logger message : String) (w : Workspace) :
    (note level logger message).Answers w (.ok ()) := by
  intro log
  rw [outcome_note]
  by_cases h : Log.shows (w.withLog log).level ⟨level, logger, message⟩ = true
  · exact ⟨log ++ [⟨level, logger, message⟩], by rw [if_pos h]; rfl⟩
  · exact ⟨log, by rw [if_neg h]⟩

/-- Looking at the workspace, as long as the log does not matter to what follows. -/
theorem answers_get_bind {f : Workspace → Work β} {w : Workspace} {r : Except Failure β}
    (h : ∀ log, (f (w.withLog log)).Answers w r) : (get >>= f : Work β).Answers w r := by
  intro log
  obtain ⟨log', hl⟩ := h log log
  exact ⟨log', by rw [outcome_bind, outcome_get]; exact hl⟩

/-- Steps that answer one after the other. -/
theorem Answers.bind {x : Work α} {f : α → Work β} {w : Workspace} {a : α} {r : Except Failure β}
    (hx : x.Answers w (.ok a)) (hf : (f a).Answers w r) : (x >>= f).Answers w r := by
  intro log
  obtain ⟨log₁, h₁⟩ := hx log
  obtain ⟨log₂, h₂⟩ := hf log₁
  exact ⟨log₂, by rw [outcome_bind, h₁]; exact h₂⟩

theorem answers_note_bind {f : Unit → Work β} {w : Workspace} {r : Except Failure β} {level : Int}
    {logger message : String} (h : (f ()).Answers w r) : (note level logger message >>= f).Answers w r :=
  Answers.bind (answers_note level logger message w) h

theorem Answers.bind_error {x : Work α} {f : α → Work β} {w : Workspace} {e : Failure}
    (hx : x.Answers w (.error e)) : (x >>= f).Answers w (.error e) := by
  intro log
  obtain ⟨log', h⟩ := hx log
  exact ⟨log', by rw [outcome_bind, h]⟩

/-- A sequence of steps answers as the sequence of the answers does. -/
theorem Answers.bind_any {x : Work α} {f : α → Work β} {w : Workspace} {r : Except Failure α}
    {g : α → Except Failure β} (hx : x.Answers w r) (hf : ∀ a, (f a).Answers w (g a)) :
    (x >>= f).Answers w (r >>= g) := by
  cases r with
  | ok a => exact hx.bind (hf a)
  | error e => exact hx.bind_error

/-- The same for a step at every member of a list. -/
theorem answers_mapM {f : α → Work β} {g : α → Except Failure β} {w : Workspace}
    (h : ∀ a, (f a).Answers w (g a)) : ∀ l : List α, (l.mapM f).Answers w (l.mapM g)
  | [] => answers_pure [] w
  | a :: l => by
    rw [List.mapM_cons, List.mapM_cons]
    refine (h a).bind_any fun b => ?_
    exact (answers_mapM h l).bind_any fun bs => answers_pure (b :: bs) w

end Work

end RequestAtlas
