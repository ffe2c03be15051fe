import SuiteAtlas.Command.Perform
import SuiteAtlas.Proofs.Session.Account

namespace SuiteAtlas

namespace Reconciliation

variable {s : Session} {nesting : Nat} {files : Files} {output : List Char} {run : Run}
  {outcome : Reconciled}

theorem Accounts.ok_iff {state : State} {report : Report} {results : List ReportedTest}
    (h : Accounts s report run results state) :
    state.summary.ok = true ↔
      ∀ result ∈ results, s.knows result = true → result.passed = true := by
  rw [h.summary, Summary.ok, Session.tally]
  simp [List.countP_eq_zero]

/-- The verdict on an output is good if and only if it holds a report in which no test of the
session failed. -/
theorem reconcile_ok_iff (h : s.HoldsFiles)
    (hok : s.reconcile nesting files output run = .ok outcome) :
    outcome.summary.ok = true ↔ ∃ value report, Report.load nesting output = .ok (value, report) ∧
      ∀ result ∈ report.testResults, s.knows result = true → result.passed = true := by
  rcases Session.reconcile_cases hok with ⟨value, report, hload, rfl⟩ | ⟨error, hload, rfl⟩
  · have haccounts := accounts_foldl h files report (run.print (Report.echo value))
      report.testResults
    constructor
    · exact fun hgood => ⟨value, report, hload, haccounts.ok_iff.1 hgood⟩
    · rintro ⟨_, _, he, hall⟩
      rw [hload] at he
      cases he
      exact haccounts.ok_iff.2 hall
  · constructor
    · exact fun hgood => absurd hgood Bool.false_ne_true
    · rintro ⟨_, _, he, _⟩
      rw [hload] at he
      cases he

end Reconciliation

namespace Action

variable {α β : Type} {post : α → Prop} {next : β → Prop}

def exitCode : Stop → Nat
  | .exit code => code
  | .failure _ => 1

def Leaves (post : α → Prop) : Except Stop α → Prop
  | .ok value => post value
  | .error stop => exitCode stop = 1

/-- An action goes on with a value of which `post` holds, or stops with exit code 1. -/
structure Ensures (act : Action α) (post : α → Prop) : Prop where
  leaves : ∀ t, Leaves post (act.run.run t).1

theorem ensures_pure {value : α} (h : post value) : Ensures (pure value) post :=
  ⟨fun _ => h⟩

theorem run_bind (act : Action α) (rest : α → Action β) (t : Transcript) :
    (act >>= rest).run.run t =
      match act.run.run t with
      | (.ok value, t') => (rest value).run.run t'
      | (.error stop, t') => (.error stop, t') := by
  change (ExceptT.bindCont rest (act.run.run t).1).run (act.run.run t).2 = _
  rcases act.run.run t with ⟨_ | _, _⟩ <;> rfl

theorem Ensures.bind {act : Action α} {rest : α → Action β} (hact : Ensures act post)
    (hrest : ∀ value, post value → Ensures (rest value) next) : Ensures (act >>= rest) next := by
  refine ⟨fun t => ?_⟩
  have hfirst := hact.leaves t
  rw [run_bind]
  cases hrun : act.run.run t with
  | mk result t' =>
    rw [hrun] at hfirst
    cases result with
    | error stop => exact hfirst
    | ok value => exact (hrest value hfirst).leaves t'

theorem Ensures.mono {act : Action α} {other : α → Prop} (hact : Ensures act post)
    (h : ∀ value, post value → other value) : Ensures act other := by
  refine ⟨fun t => ?_⟩
  have hleft := hact.leaves t
  cases hresult : (act.run.run t).1 with
  | error stop => rwa [hresult] at hleft
  | ok value =>
    rw [hresult] at hleft
    exact h value hleft

theorem ensures_exit : Ensures (exit 1 : Action α) post :=
  ⟨fun _ => rfl⟩

theorem ensures_exit_bind {rest : α → Action β} : Ensures (exit 1 >>= rest) next :=
  ⟨fun _ => rfl⟩

theorem ensures_failure (cause : Failure) : Ensures (throw (.failure cause) : Action α) post :=
  ⟨fun _ => rfl⟩

theorem ensures_orFail {ε : Type} (failure : ε → Failure) (result : Except ε α) :
    (orFail failure result).Ensures fun value => result = .ok value := by
  cases result with
  | ok value => exact ensures_pure rfl
  | error error => exact ensures_failure _

theorem ensures_write (text : String) : (write text).Ensures fun _ => True :=
  ⟨fun _ => trivial⟩

theorem ensures_launch (started : Launched) : (launch started).Ensures fun _ => True :=
  ⟨fun _ => trivial⟩

theorem ensures_printLines (lines : Except Console.Markup.Error (List (List Char))) :
    (printLines lines).Ensures fun _ => True :=
  (ensures_orFail _ lines).bind fun _ _ => ensures_write _

theorem ensures_print (markup : String) : (print markup).Ensures fun _ => True :=
  ensures_printLines _

theorem ensures_printOutput (run : Run) : (printOutput run).Ensures fun _ => True := by
  rw [printOutput]
  induction run.output with
  | nil => exact ensures_pure trivial
  | cons text rest ih => exact (ensures_write _).bind fun _ _ => ih

theorem ensures_mapM {f : β → Action α} (xs : List β) (hf : ∀ x, (f x).Ensures fun _ => True) :
    (xs.mapM f).Ensures fun _ => True := by
  induction xs with
  | nil => exact ensures_pure trivial
  | cons x rest ih =>
    rw [List.mapM_cons]
    exact (hf x).bind fun _ _ => ih.bind fun _ _ => ensures_pure trivial

theorem ensures_targetsNamed (session : Session) (name : String) :
    (targetsNamed session name).Ensures fun _ => True := by
  rw [targetsNamed]
  dsimp only
  split
  · split
    · exact (ensures_print _).bind fun _ _ => ensures_exit_bind
    · exact ensures_pure trivial
  · split
    · exact ensures_pure trivial
    · exact (ensures_print _).bind fun _ _ => ensures_exit

theorem ensures_requestOf (session : Session) (options : RunOptions) :
    (requestOf session options).Ensures fun _ => True := by
  rw [requestOf]
  split
  · exact ensures_pure trivial
  · exact (ensures_mapM _ (ensures_targetsNamed session)).bind fun _ _ => ensures_pure trivial

theorem ensures_execute (s : Surroundings) (session : Session) (request : Request) :
    Ensures (execute s session request) fun (summary, session', run) => ∃ started outcome,
      session.conclude s.nesting s.files started s.execution = .ok outcome ∧
        outcome = ⟨some summary, session', run⟩ := by
  rw [execute]
  split
  · exact (ensures_printOutput _).bind fun _ _ => ensures_exit
  next started _ =>
    refine (ensures_launch _).bind fun _ _ => ?_
    split
    · exact (ensures_printOutput _).bind fun _ _ => ensures_failure _
    next outcome hconclude =>
      refine (ensures_printOutput _).bind fun _ _ => ?_
      split
      next summary hsummary =>
        apply ensures_pure
        refine ⟨started, outcome, hconclude, ?_⟩
        cases outcome
        cases hsummary
        rfl
      next => exact ensures_exit

theorem ensures_printVerdict (summary : Summary) :
    Ensures (printVerdict summary) fun _ => summary.ok = true := by
  rw [printVerdict]
  split
  next hok =>
    exact (ensures_print _).mono fun _ _ => hok
  next =>
    split
    · exact (ensures_print _).bind fun _ _ => ensures_exit
    · exact ensures_exit

theorem ensures_openSession (s : Surroundings) (workspace : Path) (runner : Option String) :
    Ensures (openSession s workspace runner) fun session => ∃ settings,
      Settings.ofEnvironment s.environment runner = .ok settings ∧
        Session.discover { workspace, settings } s.files workspace = .ok session := by
  rw [openSession]
  refine (ensures_orFail _ _).bind fun settings hsettings => ?_
  exact (ensures_orFail _ _).mono fun session hsession => ⟨settings, hsettings, hsession⟩

theorem ensures_showRun (s : Surroundings) (workspace : Path) (options : RunOptions) :
    Ensures (showRun s workspace options) fun _ => ∃ settings session,
      Settings.ofEnvironment s.environment options.runner = .ok settings ∧
        Session.discover { workspace, settings } s.files workspace = .ok session ∧
        ∃ started outcome summary,
          session.conclude s.nesting s.files started s.execution = .ok outcome ∧
          outcome.summary = some summary ∧ summary.ok = true := by
  rw [showRun]
  refine (ensures_openSession s workspace options.runner).bind fun session hsession => ?_
  refine (ensures_requestOf session options).bind fun request _ => ?_
  refine (ensures_execute s session request).bind fun result hresult => ?_
  obtain ⟨summary, session', run⟩ := result
  refine (ensures_printLines _).bind fun _ _ => ?_
  refine (ensures_printVerdict summary).mono fun _ hok => ?_
  obtain ⟨settings, hsettings, hdiscover⟩ := hsession
  obtain ⟨started, outcome, hconclude, rfl⟩ := hresult
  exact ⟨settings, session, hsettings, hdiscover, started, _, summary, hconclude, rfl, hok⟩

end Action

theorem Session.conclude_ok {s : Session} {nesting : Nat} {files : Files} {started : Launch}
    {execution : Execution} {outcome : Outcome} {summary : Summary} (h : s.HoldsFiles)
    (hconclude : s.conclude nesting files started execution = .ok outcome)
    (hsummary : outcome.summary = some summary) (hok : summary.ok = true) :
    ∃ value report, Report.load nesting
        (KeptOutput.collect s.settings.noise execution {}).1.stdout.toList = .ok (value, report) ∧
      ∀ result ∈ report.testResults, s.knows result = true → result.passed = true := by
  rw [conclude] at hconclude
  split at hconclude
  · cases hconclude
    cases hsummary
  · dsimp only at hconclude
    split at hconclude
    · cases hconclude
      cases hsummary
      rw [Summary.ok] at hok
      exact absurd hok Bool.false_ne_true
    · split at hconclude
      next result hreconcile =>
        cases hconclude
        cases hsummary
        exact (Reconciliation.reconcile_ok_iff h hreconcile).1 hok
      next => cases hconclude

/-- A run exits with 1, unless it has found a report in which every test of the workspace passed:
a failing test that is found in the workspace makes the command fail, whatever is selected. -/
theorem Command.perform_run (s : Surroundings) (workspace : Path) (options : RunOptions) :
    (perform s (.run workspace options)).code = 1 ∨
      (perform s (.run workspace options)).code = 0 ∧ ∃ settings session value report,
        Settings.ofEnvironment s.environment options.runner = .ok settings ∧
        Session.discover { workspace, settings } s.files workspace = .ok session ∧
        Report.load s.nesting
            (KeptOutput.collect session.settings.noise s.execution {}).1.stdout.toList =
          .ok (value, report) ∧
        ∀ result ∈ report.testResults, session.knows result = true → result.passed = true := by
  have hrun := (Action.ensures_showRun s workspace options).leaves {}
  rw [perform, action]
  cases hresult : (Action.showRun s workspace options).run.run {} with
  | mk result t =>
    rw [hresult] at hrun
    cases result with
    | error stop =>
      cases stop with
      | exit code => exact .inl hrun
      | failure cause => exact .inl rfl
    | ok _ =>
      obtain ⟨settings, session, hsettings, hdiscover, started, outcome, summary, hconclude,
        hsummary, hok⟩ := hrun
      have hholds : session.HoldsFiles :=
        Session.HoldsFiles.discover ⟨[], Hierarchy.HoldsFiles.empty⟩ hdiscover
      obtain ⟨value, report, hload, hall⟩ :=
        Session.conclude_ok hholds hconclude hsummary hok
      exact .inr ⟨rfl, settings, session, value, report, hsettings, hdiscover, hload, hall⟩

end SuiteAtlas
