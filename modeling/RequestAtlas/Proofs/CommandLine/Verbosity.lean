import RequestAtlas.CommandLine.Run
import RequestAtlas.Proofs.CommandLine.Options
import RequestAtlas.Proofs.Workspace.Telling
import Mathlib.Data.List.Forall2
/-!
# How detailed the log is

The level of the log is kept from one operation to the next, and commands may ask for a more detailed log.  Main
statement `verbosity_logs_only`: in a sequence of operations, neither the level to begin with nor how often commands ask
for more changes what the operations answer or the tree they leave.  If no command asks, a higher level shows the part
of the log that reaches it.
-/

namespace RequestAtlas.CommandLine

open Workspace

/-! ## Options -/

theorem verbose_mem_flags (cmd : Command) : .verbose ∈ cmd.flags := by
  cases cmd <;> decide

section
variable (p : Parsed) {f : Flag} (hf : f ≠ .verbose)
include hf

theorem filter_verbose : (Parsed.option .verbose "" p).options.filter (·.1 == f) = p.options.filter (·.1 == f) :=
  List.filter_cons_of_neg (by simpa using hf.symm)

theorem value?_verbose : (Parsed.option .verbose "" p).value? f = p.value? f := by
  rw [Parsed.value?, Parsed.value?, filter_verbose p hf]

theorem values_verbose : (Parsed.option .verbose "" p).values f = p.values f := by
  rw [Parsed.values, Parsed.values, filter_verbose p hf]

theorem count_verbose : (Parsed.option .verbose "" p).count f = p.count f := by
  rw [Parsed.count, Parsed.count, filter_verbose p hf]

theorem valueOf_verbose (env : Environment) : valueOf env (Parsed.option .verbose "" p) f = valueOf env p f := by
  unfold valueOf
  rw [value?_verbose p hf]

end

theorem optionFields_verbose (env : Environment) (cmd : Command) (p : Parsed) :
    optionFields env cmd (Parsed.option .verbose "" p) = optionFields env cmd p := by
  have hvalue : ∀ f, f ≠ .verbose → valueOf env (Parsed.option .verbose "" p) f = valueOf env p f :=
    fun f hf => valueOf_verbose p hf env
  simp only [optionFields, values_verbose p (show Flag.ext ≠ .verbose by decide), hvalue .root (by decide),
    hvalue .baseDir (by decide), hvalue .client (by decide), hvalue .name (by decide), hvalue .outDir (by decide)]

/-- The command does not ask for a more detailed log. -/
def Quiet [OptionParser] (cmd : Command) (args : List String) : Prop :=
  ∀ p, OptionParser.parse cmd.flags true args = .ok p → p.count .verbose = 0

/-! ## Commands tell -/

section
variable [Surrogates] [Console] [Syntax.Parser]

theorem tells_generate (s : Settings) (now : Moment) : Tells (generate s now).run := by
  unfold generate
  split
  · exact tells_pure _
  · refine tells_bind (Generation.tells_run s now) fun r => ?_
    split <;> exact tells_pure _

theorem tells_scan (s : Settings) : Tells (scan s).run := by
  refine tells_bind (Generation.tells_collect s) fun r => ?_
  cases r with
  | ok gathered => exact tells_get_bind_pure fun _ _ _ _ => rfl
  | error e => exact tells_pure _

theorem tells_perform (j : Job) (now : Moment) : Tells (j.perform now).run := by
  unfold Job.perform
  cases j.command with
  | generate => exact tells_generate j.settings now
  | scan => exact tells_scan j.settings

/-- Do the job of a plan, if it has one. -/
def act (job : Except Outcome Job) (now : Moment) : StateM Workspace Outcome :=
  match job with
  | .ok j => j.perform now
  | .error o => return o

theorem tells_act (job : Except Outcome Job) (now : Moment) : Tells (act job now).run := by
  cases job with
  | ok j => exact tells_perform j now
  | error o => exact tells_pure o

end

/-! ## Plans -/

section
variable [Surrogates]

/-- Check the value of one option. -/
def checkValue (w : Workspace) (env : Environment) (cmd : Command) (p : Parsed) (f : Flag) : Except OptionError Unit :=
  match valueOf env p f with
  | some v => if f.isPath && cmd.flags.contains f then checkPath w f v else .ok ()
  | none => .ok ()

theorem checkValues_eq (w : Workspace) (env : Environment) (cmd : Command) (p : Parsed) :
    checkValues w env cmd p = (checkOrder cmd p).forM (checkValue w env cmd p) := rfl

/-- The option is no path, so nothing is checked for it. -/
theorem checkValues_verbose (w : Workspace) (env : Environment) (cmd : Command) (p : Parsed) :
    checkValues w env cmd (Parsed.option .verbose "" p) = checkValues w env cmd p := by
  have hverbose : ∀ q, checkValue w env cmd q .verbose = .ok () := by
    intro q
    unfold checkValue
    cases valueOf env q .verbose <;> rfl
  have hcheck : checkValue w env cmd (Parsed.option .verbose "" p) = checkValue w env cmd p := by
    funext f
    by_cases hf : f = .verbose
    · rw [hf, hverbose, hverbose]
    · unfold checkValue
      rw [valueOf_verbose p hf]
  rw [checkValues_eq, checkValues_eq, hcheck]
  calc (checkOrder cmd (Parsed.option .verbose "" p)).forM (checkValue w env cmd p)
      = checkValue w env cmd p .verbose >>= fun _ => (checkOrder cmd p).forM (checkValue w env cmd p) := rfl
    _ = (checkOrder cmd p).forM (checkValue w env cmd p) := by
      rw [hverbose]
      rfl

theorem loadPlan_verbose [Settings.DocumentReader] [Field.Validator] (w : Workspace) (cmd : Command) (env : Environment)
    (p : Parsed) :
    (loadPlan w cmd env (Parsed.option .verbose "" p)).job = (loadPlan w cmd env p).job := by
  unfold loadPlan
  rw [optionFields_verbose, value?_verbose p (by decide)]

variable [Settings.DocumentReader] [Field.Validator] [OptionParser]

theorem plan_level (cwd : List String) (tree : Folder) (level : Int) (log : List LogEntry) (env : Environment)
    (args : List String) : plan ⟨cwd, tree, level, log⟩ env args = plan ⟨cwd, tree, 0, []⟩ env args := rfl

theorem verbose_of_quiet {cmd : Command} {args : List String} (h : Quiet cmd args) (w : Workspace) (env : Environment) :
    (commandPlan w cmd env args).verbose = 0 := by
  unfold commandPlan
  cases hparse : OptionParser.parse cmd.flags true args with
  | error e => rfl
  | ok p =>
    dsimp only
    split
    · rfl
    · split
      · rfl
      · rfl
      · split
        · exact h p hparse
        · rfl

variable [LawfulOptionParser]

theorem plan_command (w : Workspace) (env : Environment) (cmd : Command) (args : List String) :
    plan w env (cmd.name :: args) = commandPlan w cmd env args := by
  have hname : Command.ofName? cmd.name = some cmd := by cases cmd <;> rfl
  rw [plan, if_neg (by simp), LawfulOptionParser.parse_command]
  dsimp only
  rw [if_neg (by simp [Parsed.count]), hname]

/-- Asking for a more detailed log does not change the job. -/
theorem job_verbose (w : Workspace) (cmd : Command) (env : Environment) (args : List String) :
    (commandPlan w cmd env ("-v" :: args)).job = (commandPlan w cmd env args).job := by
  unfold commandPlan
  rw [LawfulOptionParser.parse_verbose (verbose_mem_flags cmd)]
  cases OptionParser.parse cmd.flags true args with
  | error e => rfl
  | ok p =>
    have hextra : (Parsed.option .verbose "" p).extra = p.extra := rfl
    simp only [Except.map]
    rw [count_verbose p (by decide), checkValues_verbose, hextra]
    by_cases hhelp : 0 < p.count .help
    · rw [if_pos hhelp, if_pos hhelp]
    · rw [if_neg hhelp, if_neg hhelp]
      cases checkValues w env cmd p with
      | error e => cases e <;> rfl
      | ok u =>
        dsimp only
        by_cases hnone : p.extra.isEmpty = true
        · rw [if_pos hnone, if_pos hnone, loadPlan_verbose]
        · rw [if_neg hnone, if_neg hnone]

theorem job_replicate_verbose (w : Workspace) (cmd : Command) (env : Environment) (args : List String) (k : Nat) :
    (commandPlan w cmd env (List.replicate k "-v" ++ args)).job = (commandPlan w cmd env args).job := by
  induction k with
  | zero => rfl
  | succ k ih => rw [List.replicate_succ, List.cons_append, job_verbose, ih]

variable [Console] [Syntax.Parser]

/-! ## Operations -/

/-- What can be done with a workspace. -/
inductive Operation where
  | select (root : Path) (filter : Selection.Filter)
  | extract (client : String) (path : Path)
  | collect (s : Settings)
  | generate (s : Settings) (exportedAt : Moment)
  /-- A command with its arguments, at the given time. -/
  | command (cmd : Command) (args : List String) (env : Environment) (now : Moment)

/-- What comes of an operation: a result or an error, and for a command what it prints and how it ends. -/
inductive Answer where
  | paths (r : Except Failure (List Path))
  | requests (r : Except Failure (List Request))
  | collected (r : Except Failure (List Path × List Request))
  | report (r : Except Failure Generation.Report)
  | ended (o : Outcome)

namespace Operation

def perform : Operation → StateM Workspace Answer
  | select root f => do return .paths (← (Selection.select root f).run)
  | extract client path => do return .requests (← (Generation.extractFile client path).run)
  | collect s => do return .collected (← (Generation.collect s).run)
  | generate s exportedAt => do return .report (← (Generation.run s exportedAt).run)
  | command cmd args env now => do return .ended (← run (cmd.name :: args) env now)

/-- The second operation is the first, where a command may ask for a more detailed log any number of times. -/
inductive Louder : Operation → Operation → Prop
  | same (o : Operation) : Louder o o
  | more (cmd : Command) (args : List String) (env : Environment) (now : Moment) (k : Nat) :
      Louder (command cmd args env now) (command cmd (List.replicate k "-v" ++ args) env now)

/-- The operation is no command that asks for a more detailed log. -/
def IsQuiet : Operation → Prop
  | command cmd args _ _ => Quiet cmd args
  | _ => True

/-- Whatever the level, the operation answers `a`, leaves the tree `left` and tells the entries `es`, of which those are
shown that the level asks for after `verbose` requests for more. -/
def Comes (o : Operation) (cwd : List String) (tree : Folder) (a : Answer) (left : Folder) (es : List LogEntry)
    (verbose : Nat) : Prop :=
  ∀ level log, o.perform.run ⟨cwd, tree, level, log⟩ =
    (a, ⟨cwd, left, levelFor verbose level, log ++ Log.shown (levelFor verbose level) es⟩)

/-- What a command does: its job, at the level that it asks for. -/
theorem perform_command (cmd : Command) (args : List String) (env : Environment) (now : Moment) (cwd : List String)
    (tree : Folder) (level : Int) (log : List LogEntry) :
    (command cmd args env now).perform.run ⟨cwd, tree, level, log⟩ =
      let plan := commandPlan ⟨cwd, tree, 0, []⟩ cmd env args
      let ended := (act plan.job now).run ⟨cwd, tree, levelFor plan.verbose level, log⟩
      (.ended ended.1, ended.2) := by
  have hplan : plan ⟨cwd, tree, level, log⟩ env (cmd.name :: args) = commandPlan ⟨cwd, tree, 0, []⟩ cmd env args := by
    rw [plan_level, plan_command]
  rw [← hplan]
  rfl

theorem exists_comes_command (cmd : Command) (env : Environment) (now : Moment) (cwd : List String) (tree : Folder)
    (job : Except Outcome Job) : ∃ a left es, ∀ args, (commandPlan ⟨cwd, tree, 0, []⟩ cmd env args).job = job →
      (command cmd args env now).Comes cwd tree a left es (commandPlan ⟨cwd, tree, 0, []⟩ cmd env args).verbose := by
  obtain ⟨ended, left, es, h⟩ := tells_act job now cwd tree
  refine ⟨.ended ended, left, es, fun args hjob level log => ?_⟩
  rw [perform_command]
  dsimp only
  rw [hjob, h]

theorem tells_of_isQuiet {o : Operation} (h : o.IsQuiet) : Tells o.perform.run := by
  cases o with
  | select root f => exact tells_bind (Selection.tells_select root f) fun _ => tells_pure _
  | extract client path => exact tells_bind (Generation.tells_extractFile client path) fun _ => tells_pure _
  | collect s => exact tells_bind (Generation.tells_collect s) fun _ => tells_pure _
  | generate s exportedAt => exact tells_bind (Generation.tells_run s exportedAt) fun _ => tells_pure _
  | command cmd args env now =>
    intro cwd tree
    obtain ⟨a, left, es, hcomes⟩ := exists_comes_command cmd env now cwd tree _
    refine ⟨a, left, es, fun level log => ?_⟩
    have hquiet := verbose_of_quiet h ⟨cwd, tree, 0, []⟩ env
    rw [hcomes args rfl, hquiet]
    rfl

theorem exists_comes (o : Operation) (cwd : List String) (tree : Folder) :
    ∃ a left es verbose, o.Comes cwd tree a left es verbose := by
  have hquiet : o.IsQuiet → ∃ a left es verbose, o.Comes cwd tree a left es verbose := by
    intro h
    obtain ⟨a, left, es, hcomes⟩ := tells_of_isQuiet h cwd tree
    exact ⟨a, left, es, 0, hcomes⟩
  cases o with
  | command cmd args env now =>
    obtain ⟨a, left, es, hcomes⟩ := exists_comes_command cmd env now cwd tree _
    exact ⟨a, left, es, _, hcomes args rfl⟩
  | select root f => exact hquiet trivial
  | extract client path => exact hquiet trivial
  | collect s => exact hquiet trivial
  | generate s exportedAt => exact hquiet trivial

/-- An operation and a louder one come to the same. -/
theorem Louder.comes {o o' : Operation} (h : Louder o o') (cwd : List String) (tree : Folder) :
    ∃ a left es verbose verbose', o.Comes cwd tree a left es verbose ∧ o'.Comes cwd tree a left es verbose' := by
  cases h with
  | same =>
    obtain ⟨a, left, es, verbose, hcomes⟩ := exists_comes o cwd tree
    exact ⟨a, left, es, verbose, verbose, hcomes, hcomes⟩
  | more cmd args env now k =>
    obtain ⟨a, left, es, hcomes⟩ := exists_comes_command cmd env now cwd tree _
    exact ⟨a, left, es, _, _, hcomes args rfl, hcomes _ (job_replicate_verbose _ cmd env args k)⟩

end Operation

/-! ## Sequences of operations -/

/-- Operations one after the other, whatever comes of those before. -/
def session (ops : List Operation) : StateM Workspace (List Answer) := ops.mapM Operation.perform

omit [LawfulOptionParser] in
theorem session_cons (o : Operation) (ops : List Operation) (w : Workspace) :
    (session (o :: ops)).run w =
      let first := o.perform.run w
      let others := (session ops).run first.2
      (first.1 :: others.1, others.2) := by
  rw [session, List.mapM_cons]
  rfl

/-- Two sequences that differ in the detail of the log alone, from the same tree, answer the same and leave the same
tree. -/
theorem session_louder {ops ops' : List Operation} (h : List.Forall₂ Operation.Louder ops ops') :
    ∀ (cwd : List String) (tree : Folder) (level level' : Int) (log log' : List LogEntry),
      ((session ops').run ⟨cwd, tree, level', log'⟩).1 = ((session ops).run ⟨cwd, tree, level, log⟩).1 ∧
      ((session ops').run ⟨cwd, tree, level', log'⟩).2.tree = ((session ops).run ⟨cwd, tree, level, log⟩).2.tree := by
  induction h with
  | nil => exact fun _ _ _ _ _ _ => ⟨rfl, rfl⟩
  | cons hlouder _ ih =>
    intro cwd tree level level' log log'
    obtain ⟨a, left, es, verbose, verbose', hcomes, hcomes'⟩ := hlouder.comes cwd tree
    rw [session_cons, session_cons, hcomes level log, hcomes' level' log']
    obtain ⟨hanswers, htree⟩ := ih cwd left (levelFor verbose level) (levelFor verbose' level')
      (log ++ Log.shown (levelFor verbose level) es) (log' ++ Log.shown (levelFor verbose' level') es)
    exact ⟨congrArg (a :: ·) hanswers, htree⟩

/-- **The detail of the log changes nothing but the log.**  From the same tree at any two levels, with any number of
requests for a more detailed log right after the commands' names, a sequence of operations gives the same answers and
leaves the same tree.  If no command asks for more, what is logged at the higher level is what is logged at the lower
one, less the entries that do not reach it. -/
theorem verbosity_logs_only (cwd : List String) (tree : Folder) (level level' : Int) (ops ops' : List Operation)
    (h : List.Forall₂ Operation.Louder ops ops') :
    (∀ log log', ((session ops').run ⟨cwd, tree, level', log'⟩).1 = ((session ops).run ⟨cwd, tree, level, log⟩).1 ∧
      ((session ops').run ⟨cwd, tree, level', log'⟩).2.tree = ((session ops).run ⟨cwd, tree, level, log⟩).2.tree) ∧
    ((∀ o ∈ ops, o.IsQuiet) → Log.effective level ≤ Log.effective level' →
      ((session ops).run ⟨cwd, tree, level', []⟩).2.log =
        ((session ops).run ⟨cwd, tree, level, []⟩).2.log.filter fun e => Log.effective level' ≤ e.level) := by
  refine ⟨session_louder h cwd tree level level', fun hquiet hle => ?_⟩
  have htells : Tells (session ops).run := tells_mapM fun o ho => Operation.tells_of_isQuiet (hquiet o ho)
  obtain ⟨answers, left, es, hrun⟩ := htells cwd tree
  rw [hrun level [], hrun level' [], List.nil_append, List.nil_append]
  exact Log.shown_of_le hle es

end

/-! ## A sequence of three -/

/-- The first moment of the year. -/
def midnight : Moment := ⟨⟨2024, 1, 1⟩, 0, 0, 0, 0, some 0⟩

/-- A folder with a script that is no text and one that is empty. -/
def twoScripts : Folder :=
  [("tools", .folder [("1_x", .folder [("a.js", .file [255]), ("b.js", .file [])])])]

/-- Write the documents for a client, list the requests, and write the documents with the settings without any input;
both commands ask for a more detailed log as often as is said. -/
def threeSteps (verbose : Nat) : List Operation :=
  [.command .generate (List.replicate verbose "-v" ++ ["--client", "http"]) {} midnight,
   .command .scan (List.replicate verbose "-v" ++ []) {} midnight,
   .generate (Settings.default ⟨.root, []⟩) midnight]

section
attribute [local instance] Surrogates.unassigned Syntax.Parser.javascript Settings.DocumentReader.yaml
attribute [local instance] Field.Validator.lax OptionParser.posix LawfulOptionParser.posix Console.piped

theorem louder_threeSteps (verbose : Nat) : List.Forall₂ Operation.Louder (threeSteps 0) (threeSteps verbose) :=
  .cons (.more .generate ["--client", "http"] {} midnight verbose)
    (.cons (.more .scan [] {} midnight verbose) (.cons (.same _) .nil))

theorem isQuiet_threeSteps : ∀ o ∈ threeSteps 0, o.IsQuiet := by
  have hcount :
      ((OptionParser.parse Command.generate.flags true ["--client", "http"]).map (·.count .verbose)).toOption =
        some 0 := by
    decide +kernel
  have hgenerate : Quiet .generate ["--client", "http"] := by
    intro p hp
    rw [hp] at hcount
    exact Option.some.inj hcount
  have hscan : Quiet .scan [] := by
    intro p hp
    cases hp
    rfl
  have hnone : ∀ o ∈ ([] : List Operation), o.IsQuiet := fun o ho => by cases ho
  exact List.forall_mem_cons.2 ⟨hgenerate, List.forall_mem_cons.2 ⟨hscan, List.forall_mem_cons.2 ⟨trivial, hnone⟩⟩⟩

theorem verbosity_logs_only_threeSteps :
    List.Forall₂ Operation.Louder (threeSteps 0) (threeSteps 2) ∧ (∀ o ∈ threeSteps 0, o.IsQuiet) ∧
    Log.effective Log.debug ≤ Log.effective 0 ∧
    ((session (threeSteps 2)).run ⟨[], twoScripts, 0, []⟩).1 =
      ((session (threeSteps 0)).run ⟨[], twoScripts, Log.debug, []⟩).1 ∧
    ((session (threeSteps 2)).run ⟨[], twoScripts, 0, []⟩).2.tree =
      ((session (threeSteps 0)).run ⟨[], twoScripts, Log.debug, []⟩).2.tree ∧
    ((session (threeSteps 0)).run ⟨[], twoScripts, 0, []⟩).2.log =
      ((session (threeSteps 0)).run ⟨[], twoScripts, Log.debug, []⟩).2.log.filter fun e =>
        Log.effective 0 ≤ e.level := by
  have h := verbosity_logs_only [] twoScripts Log.debug 0 (threeSteps 0) (threeSteps 2) (louder_threeSteps 2)
  obtain ⟨hanswers, htree⟩ := h.1 [] []
  have hle : Log.effective Log.debug ≤ Log.effective 0 := by decide
  exact ⟨louder_threeSteps 2, isQuiet_threeSteps, hle, hanswers, htree, h.2 isQuiet_threeSteps hle⟩

end

end RequestAtlas.CommandLine
