import SuiteAtlas.Proofs.Command.Verdict
import SuiteAtlas.Proofs.Runner.Enclosing
import SuiteAtlas.Proofs.Text.Line

namespace SuiteAtlas

namespace Action

variable {α β : Type} {act : Action α}

def StartsNothing (act : Action α) : Prop :=
  ∀ t, (act.run.run t).2.launched = t.launched

theorem startsNothing_pure (value : α) : StartsNothing (pure value) :=
  fun _ => rfl

theorem startsNothing_throw (stop : Stop) : StartsNothing (throw stop : Action α) :=
  fun _ => rfl

theorem launched_bind {rest : α → Action β} (hrest : ∀ value, (rest value).StartsNothing)
    (t : Transcript) :
    ((act >>= rest).run.run t).2.launched = (act.run.run t).2.launched := by
  rw [run_bind]
  rcases act.run.run t with ⟨stop | value, t'⟩
  · rfl
  · exact hrest value t'

theorem StartsNothing.bind {rest : α → Action β} (hact : act.StartsNothing)
    (hrest : ∀ value, (rest value).StartsNothing) : (act >>= rest).StartsNothing :=
  fun t => (launched_bind hrest t).trans (hact t)

theorem startsNothing_orFail {ε : Type} (failure : ε → Failure) (result : Except ε α) :
    (orFail failure result).StartsNothing := by
  cases result with
  | ok value => exact startsNothing_pure value
  | error error => exact startsNothing_throw _

theorem startsNothing_write (text : String) : (write text).StartsNothing :=
  fun _ => rfl

theorem startsNothing_printLines (lines : Except Console.Markup.Error (List (List Char))) :
    (printLines lines).StartsNothing :=
  (startsNothing_orFail _ lines).bind fun _ => startsNothing_write _

theorem startsNothing_printOutput (run : Run) : (printOutput run).StartsNothing := by
  rw [printOutput]
  induction run.output with
  | nil => exact startsNothing_pure ()
  | cons text rest ih => exact (startsNothing_write _).bind fun _ => ih

theorem startsNothing_printVerdict (summary : Summary) : (printVerdict summary).StartsNothing := by
  rw [printVerdict]
  split
  · exact startsNothing_printLines _
  · split
    · exact (startsNothing_printLines _).bind fun _ => startsNothing_throw _
    · exact startsNothing_throw _

theorem orFail_ok {ε : Type} (failure : ε → Failure) (value : α) :
    orFail failure (.ok value) = pure value := rfl

/-- The runner is started once, when there is something to run. -/
theorem launched_execute {s : Surroundings} {session : Session} {request : Request}
    {started : Launch} (hprepare : session.prepare request false {} = .inr started)
    (t : Transcript) :
    ((execute s session request).run.run t).2.launched =
      t.launched ++ [.runner started.command (runFolder s.files session.workspace)] := by
  rw [execute, hprepare]
  dsimp only
  apply launched_bind
  intro _
  split
  · exact (startsNothing_printOutput _).bind fun _ => startsNothing_throw _
  · refine (startsNothing_printOutput _).bind fun _ => ?_
    split
    · exact startsNothing_pure _
    · exact startsNothing_throw _

theorem launched_showRun {s : Surroundings} {workspace : Path} (options : RunOptions)
    {settings : Settings} {session : Session} {request : Request} {started : Launch}
    (hsettings : Settings.ofEnvironment s.environment options.runner = .ok settings)
    (hdiscover : Session.discover { workspace, settings } s.files workspace = .ok session)
    (hrequest : requestOf session options = pure request)
    (hprepare : session.prepare request false {} = .inr started) (t : Transcript) :
    ((showRun s workspace options).run.run t).2.launched =
      t.launched ++ [.runner started.command (runFolder s.files session.workspace)] := by
  have hopen : openSession s workspace options.runner = pure session := by
    rw [openSession, hsettings, orFail_ok, pure_bind, hdiscover, orFail_ok]
  rw [showRun, hopen, pure_bind, hrequest, pure_bind]
  refine (launched_bind ?_ t).trans (launched_execute hprepare t)
  intro result
  obtain ⟨summary, session', run⟩ := result
  exact (startsNothing_printLines _).bind fun _ => startsNothing_printVerdict _

theorem splitName_qualified {target : Target} (hdot : '.' ∉ target.suite.toList) :
    splitName target.qualified = (target.suite, target.function) := by
  have htext : target.qualified.toList = target.suite.toList ++ '.' :: target.function.toList := by
    simp [Target.qualified, toString]
  have hsuite : ∀ c ∈ target.suite.toList, (c != '.') = true :=
    fun c hc => bne_iff_ne.2 fun he => hdot (he ▸ hc)
  rw [splitName, htext, List.takeWhile_append_of_pos hsuite, List.dropWhile_append_of_pos hsuite,
    List.takeWhile_cons_of_neg (by decide), List.dropWhile_cons_of_neg (by decide)]
  simp

theorem requestOf_qualified {session : Session} {test : Tree} (target : Target)
    {options : RunOptions} (hdot : '.' ∉ target.suite.toList) (hname : target.function ≠ "")
    (hfound : session.headingNamed? target.suite target.function = some test)
    (htests : options.tests = [target.qualified]) :
    requestOf session options = pure { targets := some [test.key], tag := options.tag } := by
  have htargets : targetsNamed session target.qualified = pure [test.key] := by
    rw [targetsNamed, splitName_qualified hdot]
    dsimp only
    rw [if_neg hname, hfound]
  rw [requestOf, htests, if_neg (by simp), List.mapM_cons, htargets, pure_bind, List.mapM_nil,
    pure_bind, pure_bind]
  rfl

end Action

theorem Session.prepare_of_select {s : Session} {key : Key} {outer : Tree}
    (hselect : s.select { targets := some [key] } = [outer]) :
    ∃ started, s.prepare { targets := some [key] } false {} = .inr started ∧
      started.command =
        s.settings.command ++ ["test", "format=json", "test=" ++ outer.target.qualified] := by
  rw [prepare, hselect]
  exact ⟨_, rfl, rfl⟩

namespace Command

theorem readOptions_test :
    readOptions [tagOption, testOption, runnerOption] "--test" = .ok ([], some testOption) := by
  rfl

theorem ofArguments_run_test (name : String) :
    ofArguments ["run", "--test", name] = .ok (.run (Path.ofString ".") { tests := [name] }) := by
  have hwords : readWords [verboseOption] false none ["run", "--test", name] =
      .ok { words := ["run", "--test", name] } := by
    rw [readWords, if_neg (by decide), if_neg (by decide +kernel), if_neg Bool.false_ne_true]
  have hgiven : readWords [tagOption, testOption, runnerOption] true none ["--test", name] =
      .ok { options := [(testOption, name)] } := by
    rw [readWords, if_neg (by decide), if_pos (by decide +kernel), readOptions_test]
    rfl
  rw [ofArguments, hwords]
  change ofName "run" ["--test", name] = _
  rw [ofName, hgiven]
  rfl

theorem launched_perform (s : Surroundings) (command : Command) :
    (perform s command).launched = ((command.action s).run.run {}).2.launched := by
  rw [perform]
  rcases (command.action s).run.run {} with ⟨(code | cause) | _, t⟩
  · rfl
  · rfl
  · rfl

/-- Choosing a test or an assertion of it selects the test directly below the file that it is or
lies in, and a run by the name of the test starts the runner with the name of that one. -/
theorem performArguments_test {s : Session} {test : Tree} (h : s.Reachable)
    (hfound : s.headingNamed? test.content.suite test.content.label = some test) :
    ∃ file ∈ s.hierarchy.rootTrees, ∃ outer ∈ file.children, test ∈ outer.subtrees ∧
      (outer = test ↔ test ∈ file.children) ∧ outer.content.suite = test.content.suite ∧
      (∀ n, n = test ∨ n ∈ test.children ∧ n.isAssertion = true →
        s.select { targets := some [n.key] } = [outer]) ∧
      ∀ (around : Surroundings) (settings : Settings),
        Settings.ofEnvironment around.environment none = .ok settings →
        Session.discover { workspace := Path.ofString ".", settings } around.files
          (Path.ofString ".") = .ok s →
        '.' ∉ test.content.suite.toList →
        (performArguments around ["run", "--test", test.target.qualified]).map Outcome.launched =
          .ok [.runner (s.settings.command ++
              ["test", "format=json", "test=" ++ outer.target.qualified])
            (Action.runFolder around.files s.workspace)] := by
  obtain ⟨ts, hts⟩ := h.holdsFiles
  obtain ⟨file, hfile, htestOf, outer, houter, htest⟩ :=
    Session.HoldsFiles.exists_outer hts (h.holdsFiles.of_headingNamed? hfound).1
  have htestFile := hts.isTestFile file hfile
  have hroot : file ∈ s.hierarchy.rootTrees := hts.holds.rootTrees_eq ▸ hfile
  have hselect {n : Tree} (hn : n ∈ outer.subtrees) :
      s.select { targets := some [n.key] } = [outer] := h.select_singleton hroot houter hn
  have houterOf := htestFile.isHeadingOf_of_mem outer (Tree.mem_subtrees_child houter)
    (htestFile.isHeading_of_mem outer houter)
  refine ⟨file, hroot, outer, houter, htest, ⟨?_, ?_⟩, ?_, ?_, ?_⟩
  · rintro rfl
    exact houter
  · intro hchild
    have hself := h.select_singleton hroot hchild test.mem_subtrees_self
    rw [hselect htest] at hself
    exact List.singleton_inj.1 hself
  · rw [houterOf.suite_eq, htestOf.suite_eq]
  · rintro n (rfl | ⟨hn, _⟩)
    · exact hselect htest
    · exact hselect (Tree.mem_subtrees_trans htest (Tree.mem_subtrees_child hn))
  · intro around settings hsettings hdiscover hdot
    obtain ⟨started, hprepare, hcommand⟩ := Session.prepare_of_select (hselect htest)
    have hname : test.content.label ≠ "" := htestOf.isStep.ne_empty
    have hrequest : Action.requestOf s { tests := [test.target.qualified] } =
        pure { targets := some [test.key] } :=
      Action.requestOf_qualified test.target hdot hname hfound rfl
    rw [performArguments, ofArguments_run_test]
    change Except.ok (perform around _).launched = _
    have hlaunched := Action.launched_showRun { tests := [test.target.qualified] } hsettings
      hdiscover hrequest hprepare {}
    rw [launched_perform, action, hlaunched, hcommand]
    rfl

/-- A workspace with one class, in which a test is nested in another one. -/
def nestedWorkspace : Surroundings where
  files := (Files.empty ⟨"/", ["w"]⟩).write (.ofString "Project/Sources/Classes/ATest.4dm")
    ("Function test_outer($t : Object)\n" ++
      "// #tags: slow:deep\n" ++
      "Function test_inner($t : Object)\n").toUTF8.data.toList
  environment := [("FOURD_TEST_PATTERN", "ATest.4dm")]

def nestedSession : Except SearchError Session :=
  Session.discover
    { workspace := Path.ofString ".", settings := { filePattern := "ATest.4dm" } }
    nestedWorkspace.files (Path.ofString ".")

theorem performArguments_test_inner :
    (performArguments nestedWorkspace ["run", "--test", "ATest.test_inner"]).map Outcome.launched =
      .ok [.runner ["make", "test", "format=json", "test=ATest.test_outer"] ⟨"/", ["w"]⟩] := by
  have hfacts : nestedSession.toOption.map (fun s =>
      ((s.headingNamed? "ATest" "test_inner").map Tree.target,
        (s.hierarchy.rootTrees.flatMap Tree.children).map Tree.target,
        s.settings.command, Action.runFolder nestedWorkspace.files s.workspace)) =
      some (some ⟨"ATest", "test_inner"⟩, [⟨"ATest", "test_outer"⟩], ["make"], ⟨"/", ["w"]⟩) := by
    decide +kernel
  obtain ⟨s, hs, hfacts⟩ := Option.map_eq_some_iff.1 hfacts
  simp only [Prod.mk.injEq, Option.map_eq_some_iff] at hfacts
  obtain ⟨⟨test, hfound, htarget⟩, houters, hcommand, hfolder⟩ := hfacts
  obtain ⟨hsuite, hlabel⟩ := Target.mk.inj htarget
  have hdiscover : nestedSession = .ok s := eq_ok_of_toOption hs
  have hreach : s.Reachable := .step (.start _ _) (.discover hdiscover)
  rw [← hsuite, ← hlabel] at hfound
  obtain ⟨file, hfile, outer, houter, _, _, _, _, hrun⟩ := performArguments_test hreach hfound
  have hmem := List.mem_map_of_mem (f := Tree.target) (List.mem_flatMap.2 ⟨file, hfile, houter⟩)
  rw [houters, List.mem_singleton] at hmem
  have hlaunched := hrun nestedWorkspace { filePattern := "ATest.4dm" } (by decide +kernel) hdiscover
    (by rw [hsuite]; decide +kernel)
  rw [htarget, hmem, hcommand, hfolder] at hlaunched
  exact hlaunched

/-- Choosing the nested test of the workspace selects the other one. -/
theorem select_test_inner :
    nestedSession.toOption.map (fun s => ((s.headingNamed? "ATest" "test_inner").map fun t =>
        (t.target.qualified, (s.select { targets := some [t.key] }).map fun g =>
          g.target.qualified))) =
      some (some ("ATest.test_inner", ["ATest.test_outer"])) := by
  decide +kernel

end Command

end SuiteAtlas
