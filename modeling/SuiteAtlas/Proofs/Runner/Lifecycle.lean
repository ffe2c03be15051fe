import SuiteAtlas.Proofs.Report.Extract
import SuiteAtlas.Proofs.Runner.Output
import SuiteAtlas.Proofs.Runner.Selection
import SuiteAtlas.Runner.Run

namespace SuiteAtlas

open Address

namespace Run

variable {P Q : RunEntry → Prop} {run run₁ run₂ : Run} {entry : RunEntry}

def Grows (P : RunEntry → Prop) (run run' : Run) : Prop :=
  ∃ entries, run'.log = run.log ++ entries ∧ ∀ entry ∈ entries, P entry

theorem Grows.refl (run : Run) : Grows P run run :=
  ⟨[], (List.append_nil _).symm, List.forall_mem_nil _⟩

theorem Grows.trans (h : Grows P run run₁) (h' : Grows P run₁ run₂) : Grows P run run₂ := by
  obtain ⟨entries, hlog, hall⟩ := h
  obtain ⟨entries', hlog', hall'⟩ := h'
  refine ⟨entries ++ entries', ?_, List.forall_mem_append.2 ⟨hall, hall'⟩⟩
  rw [hlog', hlog, List.append_assoc]

theorem Grows.mono (h : Grows P run run₁) (hpq : ∀ entry, P entry → Q entry) :
    Grows Q run run₁ := by
  obtain ⟨entries, hlog, hall⟩ := h
  exact ⟨entries, hlog, fun entry hentry => hpq entry (hall entry hentry)⟩

theorem grows_add (run : Run) (h : P entry) : Grows P run (run.add entry) :=
  ⟨[entry], rfl, List.forall_mem_singleton.2 h⟩

theorem grows_foldl {α : Type} {f : Run → α → Run} {as : List α}
    (h : ∀ run, ∀ a ∈ as, Grows P run (f run a)) (run : Run) : Grows P run (as.foldl f run) := by
  induction as generalizing run with
  | nil => exact .refl run
  | cons a rest ih =>
    exact (h run a List.mem_cons_self).trans
      (ih (fun run b hb => h run b (List.mem_cons_of_mem _ hb)) _)

theorem log_foldl_started {α : Type} (id : α → String) (as : List α) (run : Run) :
    (as.foldl (fun run a => run.started (id a)) run).log =
      run.log ++ as.map fun a => .event { status := .started, nodeId := id a } := by
  induction as generalizing run with
  | nil => exact (List.append_nil _).symm
  | cons a rest ih =>
    rw [List.foldl_cons, ih, List.map_cons]
    exact List.append_assoc run.log [_] _

end Run

namespace RunEntry

def IsText : RunEntry → Prop
  | .text _ => True
  | _ => False

/-- An entry that a report may lead to. Of all nodes, only reported assertions are started. -/
def IsReported : RunEntry → Prop
  | .event e => e.status = .started → ∃ parent i, e.nodeId = below parent (resultText i)
  | .text _ => True
  | .finish => False

end RunEntry

theorem ReportedTest.isReported_of_mem_events {result : ReportedTest} {report : Report}
    {id : String} {e : RunEvent} (he : e ∈ result.events report id) :
    (RunEntry.event e).IsReported := by
  have hverdict : ∀ passed, Status.ofPassed passed ≠ .started := by decide
  intro hstarted
  rw [ReportedTest.events, List.mem_append, List.mem_singleton] at he
  rcases he with he | rfl
  · obtain ⟨p, _, he⟩ := List.mem_flatMap.1 he
    exact ⟨id, p.2, ReportedAssertion.nodeId_of_mem_events he⟩
  · rw [result.status_verdict] at hstarted
    exact absurd hstarted (hverdict _)

namespace Reconciliation

open Run

variable {state : State} {result : ReportedTest} {report : Report} {files : Files}

theorem applyResult_grows (files : Files) (report : Report) (state : State) (heading : Tree)
    (result : ReportedTest) :
    Grows RunEntry.IsReported state.run (applyResult files report state heading result).run := by
  refine ⟨_, applyResult_log files report state heading result, ?_⟩
  rw [List.forall_mem_map]
  exact fun e he => ReportedTest.isReported_of_mem_events he

theorem step_grows (files : Files) (report : Report) (state : State) (result : ReportedTest) :
    Grows RunEntry.IsReported state.run (step files report state result).run := by
  rw [step]
  split
  next heading _ => exact applyResult_grows files report state heading result
  next => exact grows_add _ trivial

theorem foldl_step_grows (files : Files) (report : Report) (results : List ReportedTest)
    (state : State) :
    Grows RunEntry.IsReported state.run (results.foldl (step files report) state).run := by
  induction results generalizing state with
  | nil => exact .refl _
  | cons result rest ih => exact (step_grows files report state result).trans (ih _)

end Reconciliation

/-- A process was started and left a report of which no line was dropped. -/
structure Execution.LeavesReport (nesting : Nat) (execution : Execution) (noise : List String) :
    Prop where
  startError : execution.startError = none
  overflowed : (KeptOutput.collect noise execution {}).1.overflowed = false
  holds : ∃ value report,
    Report.Holds nesting (KeptOutput.collect noise execution {}).1.stdout.toList value report

theorem KeptOutput.collect_grows (noise : List String) (execution : Execution) (run : Run) :
    Run.Grows RunEntry.IsText run (collect noise execution run).2 := by
  rw [collect_eq]
  exact Run.grows_foldl (fun run _ _ => Run.grows_add run trivial) run

namespace Session

open Run

variable {s : Session} {nesting : Nat} {files : Files} {request : Request} {launch : Launch}
  {execution : Execution} {run : Run} {cancelled : Bool}

/-- The record of a run, also of one that failed. -/
def recordOf (result : Except (Report.Failure × Run) Outcome) : Run :=
  match result with
  | .ok outcome => outcome.run
  | .error (_, run) => run

def sessionOf (s : Session) (result : Except (Report.Failure × Run) Outcome) : Session :=
  match result with
  | .ok outcome => outcome.session
  | .error _ => s

/-- The entries that the second step of a run may add: texts, and what comes of a report. -/
def MayAdd (s : Session) (nesting : Nat) (execution : Execution) (entry : RunEntry) : Prop :=
  entry.IsText ∨ execution.LeavesReport nesting s.settings.noise ∧ entry.IsReported

structure Concludes (s : Session) (nesting : Nat) (execution : Execution) (run : Run)
    (result : Except (Report.Failure × Run) Outcome) : Prop where
  record : ∃ run', Grows (s.MayAdd nesting execution) run run' ∧ recordOf result = run'.finish
  summary : (∃ outcome, result = .ok outcome ∧ outcome.summary = none) ↔
    execution.startError.isSome
  session : ¬execution.LeavesReport nesting s.settings.noise → s.sessionOf result = s

theorem grows_print (s : Session) (nesting : Nat) (execution : Execution) (run : Run)
    (text : String) : Grows (s.MayAdd nesting execution) run (run.print text) :=
  grows_add run (.inl trivial)

theorem summary_of_some {summary : Summary} {s' : Session} (hstart : execution.startError = none) :
    (∃ outcome, (.ok ⟨some summary, s', run⟩ : Except (Report.Failure × Run) Outcome) =
      .ok outcome ∧ outcome.summary = none) ↔ execution.startError.isSome := by
  rw [hstart]
  refine iff_of_false ?_ Bool.false_ne_true
  rintro ⟨outcome, he, hnone⟩
  cases he
  cases hnone

theorem reconcile_grows {output : List Char} {reconciled : Reconciled}
    (h : s.reconcile nesting files output run = .ok reconciled) :
    Grows (fun entry => entry.IsText ∨
        (∃ value report, Report.Holds nesting output value report) ∧ entry.IsReported)
      run reconciled.run ∧
      ((¬∃ value report, Report.Holds nesting output value report) → reconciled.session = s) := by
  rcases reconcile_cases h with ⟨value, report, hload, rfl⟩ | ⟨error, _, rfl⟩
  · have hholds : ∃ value report, Report.Holds nesting output value report :=
      ⟨value, report, Report.load_eq_ok_iff.1 hload⟩
    have hecho : Grows RunEntry.IsText run (run.print (Report.echo value)) := grows_add run trivial
    have happlied := Reconciliation.foldl_step_grows files report report.testResults
      { session := s, run := run.print (Report.echo value), summary := {}, sources := [] }
    constructor
    · apply (hecho.mono fun _ => .inl).trans
      exact happlied.mono fun _ hentry => .inr ⟨hholds, hentry⟩
    · intro hno
      exact absurd hholds hno
  · exact ⟨grows_add run (.inl trivial), fun _ => rfl⟩

theorem conclude_concludes (s : Session) (nesting : Nat) (files : Files) (launch : Launch)
    (execution : Execution) :
    s.Concludes nesting execution launch.run (s.conclude nesting files launch execution) := by
  have hprint := s.grows_print nesting execution
  rw [conclude]
  cases hstart : execution.startError with
  | some reason =>
    exact ⟨⟨_, hprint _ _, rfl⟩, iff_of_true ⟨_, rfl, rfl⟩ (hstart ▸ rfl), fun _ => rfl⟩
  | none =>
    have hkept := (KeptOutput.collect_grows s.settings.noise execution launch.run).mono
      (Q := s.MayAdd nesting execution) fun _ => .inl
    cases hcollect : KeptOutput.collect s.settings.noise execution launch.run with
    | mk output run =>
    rw [hcollect] at hkept
    have houtput : output = (KeptOutput.collect s.settings.noise execution {}).1 :=
      (congrArg Prod.fst hcollect).symm
    dsimp only
    split
    next => exact ⟨⟨_, hkept.trans (hprint _ _), rfl⟩, summary_of_some hstart, fun _ => rfl⟩
    next hoverflowed =>
      have hleaves (hholds : ∃ value report,
          Report.Holds nesting output.stdout.toList value report) :
          execution.LeavesReport nesting s.settings.noise :=
        ⟨hstart, houtput ▸ Bool.eq_false_iff.2 hoverflowed, houtput ▸ hholds⟩
      cases hreconcile : s.reconcile nesting files output.stdout.toList run with
      | ok reconciled =>
        obtain ⟨hgrows, hsession⟩ := reconcile_grows hreconcile
        refine ⟨⟨_, hkept.trans (hgrows.mono ?_), rfl⟩, summary_of_some hstart, ?_⟩
        · intro entry
          exact Or.imp_right (And.imp_left hleaves)
        · intro hno
          exact hsession (mt hleaves hno)
      | error failure =>
        refine ⟨⟨run, hkept, rfl⟩, iff_of_false ?_ (hstart ▸ Bool.false_ne_true), fun _ => rfl⟩
        rintro ⟨outcome, he, _⟩
        cases he

theorem isEmpty_targetsOf (ts : List Tree) :
    (targetsOf (ts.map Tree.content)).isEmpty = true ↔ ts = [] := by
  cases ts with
  | nil => exact iff_of_true rfl rfl
  | cons t ts =>
    rw [targetsOf, List.map_cons, List.map_cons, List.eraseDups_cons]
    exact iff_of_false Bool.false_ne_true (List.cons_ne_nil _ _)

theorem HoldsFiles.ne_below_resultText (h : s.HoldsFiles) {t : Tree} (ht : t ∈ s.headings)
    (parent : String) (i : Nat) : below parent (resultText i) ≠ t.content.id := by
  obtain ⟨ts, hts⟩ := h
  obtain ⟨root, hroot, ht⟩ := List.mem_flatMap.1 ht
  rw [hts.holds.rootTrees_eq] at hroot
  obtain ⟨hmem, hh⟩ := Tree.of_mem_headings ht
  have hof := (hts.isTestFile root hroot).isHeadingOf_of_mem t hmem hh
  rw [hof.id]
  exact (below_ne_below_resultText hof.isStep parent i).symm

/-- A run is over at once, or marks the selected tests as started and goes on. -/
theorem runOnce_cases (s : Session) (nesting : Nat) (files : Files) (request : Request)
    (cancelled : Bool) (execution : Execution) (run : Run) :
    (∃ run', s.runOnce nesting files request cancelled execution run =
        .ok ⟨none, s, run'.finish⟩ ∧
      Grows RunEntry.IsText run run' ∧ (s.select request = [] ∨ cancelled = true)) ∨
    s.select request ≠ [] ∧ cancelled = false ∧ ∃ launch run',
      s.runOnce nesting files request cancelled execution run =
          s.conclude nesting files launch execution ∧
        run'.log = run.log ++ (s.select request).map (fun t =>
          .event { status := .started, nodeId := t.content.id }) ∧
        Grows RunEntry.IsText run' launch.run := by
  rw [runOnce, prepare]
  by_cases hnone : s.select request = []
  · rw [if_pos ((isEmpty_targetsOf _).2 hnone)]
    exact .inl ⟨_, rfl, grows_add run trivial, .inl hnone⟩
  rw [if_neg fun he => hnone ((isEmpty_targetsOf _).1 he)]
  cases cancelled with
  | true => exact .inl ⟨run, rfl, .refl run, .inr rfl⟩
  | false =>
    exact .inr ⟨hnone, rfl, _, _, rfl,
      log_foldl_started (fun t : Tree => t.content.id) (s.select request) run,
      grows_add _ trivial⟩

def IsReported (s : Session) (nesting : Nat) (request : Request) (cancelled : Bool)
    (execution : Execution) : Prop :=
  s.select request ≠ [] ∧ cancelled = false ∧ execution.LeavesReport nesting s.settings.noise

theorem runOnce_record (s : Session) (nesting : Nat) (files : Files) (request : Request)
    (cancelled : Bool) (execution : Execution) (run : Run) :
    ∃ entries, (recordOf (s.runOnce nesting files request cancelled execution run)).log =
      run.log ++ (if cancelled then [] else (s.select request).map fun t =>
          .event { status := .started, nodeId := t.content.id }) ++ entries ++ [.finish] ∧
      ∀ entry ∈ entries,
        entry.IsText ∨ s.IsReported nesting request cancelled execution ∧ entry.IsReported := by
  rcases s.runOnce_cases nesting files request cancelled execution run with
    ⟨run', he, hgrows, hover⟩ | ⟨hsome, rfl, launch, run', he, hlog, hgrows⟩
  · obtain ⟨entries, hlog, htexts⟩ := hgrows
    have hnone : (if cancelled then [] else (s.select request).map fun t =>
        RunEntry.event { status := .started, nodeId := t.content.id }) = [] := by
      rcases hover with hselect | rfl
      · rw [hselect, List.map_nil, ite_self]
      · rfl
    rw [he, hnone, List.append_nil]
    exact ⟨entries, congrArg (fun log => log ++ [RunEntry.finish]) hlog,
      fun entry hentry => .inl (htexts entry hentry)⟩
  · obtain ⟨⟨last, hlast, hrecord⟩, _, _⟩ := s.conclude_concludes nesting files launch execution
    obtain ⟨entries, hentries, hall⟩ := (hgrows.mono fun _ => .inl).trans hlast
    rw [he]
    refine ⟨entries, ?_, fun entry hentry => (hall entry hentry).imp_right fun hreport =>
      ⟨⟨hsome, rfl, hreport.1⟩, hreport.2⟩⟩
    rw [hrecord, if_neg Bool.false_ne_true, ← hlog, ← hentries]
    rfl

theorem runOnce_summary_eq_none_iff (s : Session) (nesting : Nat) (files : Files)
    (request : Request) (execution : Execution) (run : Run) :
    (∃ outcome, s.runOnce nesting files request cancelled execution run = .ok outcome ∧
        outcome.summary = none) ↔
      s.select request = [] ∨ cancelled = true ∨ execution.startError.isSome := by
  rcases s.runOnce_cases nesting files request cancelled execution run with ⟨run', he, _, hover⟩ |
    ⟨hsome, rfl, launch, run', he, _, _⟩
  · exact iff_of_true ⟨_, he, rfl⟩ (hover.imp_right .inl)
  · rw [he, (s.conclude_concludes nesting files launch execution).summary, or_iff_right hsome,
      or_iff_right Bool.false_ne_true]

theorem sessionOf_runOnce (s : Session) (files : Files) (run : Run)
    (h : ¬s.IsReported nesting request cancelled execution) :
    s.sessionOf (s.runOnce nesting files request cancelled execution run) = s := by
  rcases s.runOnce_cases nesting files request cancelled execution run with ⟨run', he, _, _⟩ |
    ⟨hsome, rfl, launch, run', he, _, _⟩
  · rw [he, sessionOf]
  · rw [he]
    apply (s.conclude_concludes nesting files launch execution).session
    intro hreport
    exact h ⟨hsome, rfl, hreport⟩

/-- However a run ends, its record gets one event for each selected test, in their order, unless it
was cancelled; and its end comes last and once. A run has no summary if nothing was to be started or
could be. Further events, and a session that is not as before, come of a report only that a process
left as a whole; they start no heading again. -/
theorem runOnce_lifecycle (s : Session) (nesting : Nat) (files : Files) (request : Request)
    (cancelled : Bool) (execution : Execution) (run : Run) :
    let result := s.runOnce nesting files request cancelled execution run
    let selected := s.select request
    (selected.map Tree.key).Nodup ∧
      ((∃ outcome, result = .ok outcome ∧ outcome.summary = none) ↔
        selected = [] ∨ cancelled = true ∨ execution.startError.isSome) ∧
      (∃ entries,
        (recordOf result).log = run.log ++
          (if cancelled then []
            else selected.map fun t => .event { status := .started, nodeId := t.content.id }) ++
          entries ++ [.finish] ∧
        .finish ∉ entries ∧
        (∀ e, .event e ∈ entries → s.IsReported nesting request cancelled execution ∧
          (e.status = .started → ∃ parent i, e.nodeId = below parent (resultText i))) ∧
        (s.Reachable → ∀ e, .event e ∈ entries → e.status = .started →
          ∀ t ∈ s.headings, e.nodeId ≠ t.content.id)) ∧
      (¬s.IsReported nesting request cancelled execution → s.sessionOf result = s) := by
  intro result selected
  obtain ⟨entries, hlog, hall⟩ := s.runOnce_record nesting files request cancelled execution run
  have hevent : ∀ e, .event e ∈ entries → s.IsReported nesting request cancelled execution ∧
      (e.status = .started → ∃ parent i, e.nodeId = below parent (resultText i)) :=
    fun e he => (hall _ he).resolve_left id
  refine ⟨s.nodup_keys_select request,
    s.runOnce_summary_eq_none_iff nesting files request execution run,
    ⟨entries, hlog, fun he => (hall _ he).elim id And.right, hevent, ?_⟩,
    s.sessionOf_runOnce files run⟩
  intro hreach e he hstarted t ht
  obtain ⟨parent, i, hid⟩ := (hevent e he).2 hstarted
  rw [hid]
  exact hreach.holdsFiles.ne_below_resultText ht parent i

/-- A runner that cannot be started leaves two tests started and the session as it was. -/
theorem runOnce_lifecycle_unstartable :
    let s := (oneFile.plantText 0 nestedText none).2
    let result :=
      s.runOnce 993 (.empty ⟨"/", []⟩) {} false { startError := some "no such file" } {}
    (∃ outcome, result = .ok outcome ∧ outcome.summary = none) ∧
      (∃ entries, (recordOf result).log =
          ["/T.4dm/test_outer", "/T.4dm/test_inner"].map (fun nodeId =>
            .event { status := .started, nodeId }) ++ entries ++ [.finish] ∧
        ∀ e, .event e ∉ entries) ∧
      s.sessionOf result = s := by
  intro s result
  obtain ⟨_, hsummary, ⟨entries, hlog, _, hevents, _⟩, hsession⟩ :=
    s.runOnce_lifecycle 993 (.empty ⟨"/", []⟩) {} false { startError := some "no such file" } {}
  have hunreported : ¬s.IsReported 993 {} false { startError := some "no such file" } :=
    fun h => nomatch h.2.2.startError
  have hselected : (s.select {}).map (fun t => t.content.id) =
      ["/T.4dm/test_outer", "/T.4dm/test_inner"] := by decide +kernel
  refine ⟨hsummary.2 (.inr (.inr rfl)), ⟨entries, ?_, ?_⟩, hsession hunreported⟩
  · have hempty : ({} : Run).log = [] := rfl
    rw [hempty, List.nil_append, if_neg Bool.false_ne_true] at hlog
    rw [← hselected, List.map_map, Function.comp_def]
    exact hlog
  · exact fun e he => hunreported (hevents e he).1

end Session

end SuiteAtlas
