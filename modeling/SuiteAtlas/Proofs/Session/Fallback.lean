import SuiteAtlas.Proofs.Session.Index

namespace SuiteAtlas

def ReportedAssertion.isLocated (a : ReportedAssertion) : Bool :=
  match a.line, a.functionName with
  | some _, some name => name != ""
  | _, _ => false

/-- Whether a result carries on what a heading with `count` assertions shows at a place. -/
structure ReportedTest.Keeps (result : ReportedTest) (place count : Nat) : Prop where
  isLocated : ∀ a, result.assertions[place]? = some a → a.isLocated = false
  place_lt : place < count → place < result.assertions.length

namespace Reconciliation

/-- The range and the operator at a place of a row of assertions; behind its end there are none. -/
def anchorAt (nodes : List Node) (place : Nat) : Option Source.Range × String :=
  (nodes[place]?.bind Node.range, operatorOf nodes[place]?)

variable {state : State} {result : ReportedTest} {key : Key} {place count : Nat}
  {anchor : Option Source.Range × String}

theorem anchorAt_of_le {nodes : List Node} (h : nodes.length ≤ place) :
    anchorAt nodes place = (none, "") := by
  rw [anchorAt, List.getElem?_eq_none h]
  rfl

theorem rangeOf_of_not_isLocated {a : ReportedAssertion} (ha : a.isLocated = false)
    (source : Option (List Char)) (previous : Option Node) :
    rangeOf source previous a = previous.bind Node.range := by
  rw [ReportedAssertion.isLocated] at ha
  rw [rangeOf]
  split
  · rename_i line name hline hname
    rw [hline, hname, bne_eq_false_iff_eq] at ha
    rw [ha]
    rfl
  · rfl

theorem anchorAt_resultNodes {heading : Node} {stamp : Int} {source : Option (List Char)}
    {previous : List Node} {as : List ReportedAssertion} {a : ReportedAssertion} {parent : Key}
    (ha : as[place]? = some a) (hline : a.isLocated = false) :
    anchorAt ((resultNodes heading stamp source 0 previous as).map (Node.withParent (some parent)))
      place = anchorAt previous place := by
  rw [anchorAt, anchorAt, List.getElem?_map, getElem?_resultNodes, ha, Option.map_some,
    Option.map_some, Option.bind_some, Prod.mk.injEq]
  exact ⟨rangeOf_of_not_isLocated hline source _, rfl⟩

/-- What a place shows is carried on by every result of its heading that keeps it, and does not
depend on the results of other headings. -/
theorem step_anchorAt (hs : state.session.HoldsFiles) (files : Files) (report : Report)
    (hkey : key ∈ state.session.hierarchy.headingKeys)
    (hkeeps : (state.session.hierarchy.named? result.suite result.name).map Prod.fst = some key →
      result.Keeps place count)
    (hbehind : count ≤ place → anchor = (none, ""))
    (hanchor : anchorAt (state.session.hierarchy.assertionsAt key) place = anchor) :
    anchorAt ((step files report state result).session.hierarchy.assertionsAt key) place =
      anchor := by
  by_cases hk : (state.session.hierarchy.named? result.suite result.name).map Prod.fst = some key
  · have hkept := hkeeps hk
    obtain ⟨named, hnamed, rfl⟩ := Option.map_eq_some_iff.1 hk
    rw [step_assertionsAt hs hnamed]
    cases ha : result.assertions[place]? with
    | some a => rw [anchorAt_resultNodes ha (hkept.isLocated a ha), hanchor]
    | none =>
      have hle := List.getElem?_eq_none_iff.1 ha
      rw [anchorAt_of_le (by rwa [List.length_map, length_resultNodes])]
      exact (hbehind (Nat.not_lt.1 fun hlt => Nat.not_lt.2 hle (hkept.place_lt hlt))).symm
  · rw [step_assertionsAt_of_ne hs hkey hk, hanchor]

theorem foldl_step_anchorAt (hs : state.session.HoldsFiles) (files : Files) (report : Report)
    (results : List ReportedTest) (hkey : key ∈ state.session.hierarchy.headingKeys)
    (hkeeps : ∀ result ∈ results,
      (state.session.hierarchy.named? result.suite result.name).map Prod.fst = some key →
        result.Keeps place count)
    (hbehind : count ≤ place → anchor = (none, ""))
    (hanchor : anchorAt (state.session.hierarchy.assertionsAt key) place = anchor) :
    anchorAt ((results.foldl (step files report) state).session.hierarchy.assertionsAt key) place =
      anchor := by
  induction results generalizing state with
  | nil => exact hanchor
  | cons result rest ih =>
    have hindex := step_index hs files report result
    rw [List.forall_mem_cons] at hkeeps
    apply ih (hs.step files report result)
    · rw [Hierarchy.headingKeys, hindex]
      exact hkey
    · intro other hother
      rw [Hierarchy.named?_of_index_eq hindex]
      exact hkeeps.2 other hother
    · exact step_anchorAt hs files report hkey hkeeps.1 hbehind hanchor

end Reconciliation

def Report.resultsIn (nesting : Nat) (output : List Char) : List ReportedTest :=
  match load nesting output with
  | .ok (_, report) => report.testResults
  | .error _ => []

namespace Session

open Reconciliation

/-- Outputs are reconciled one after the other; `results` are those in them. -/
inductive Reported (s : Session) : List ReportedTest → Session → Prop
  | nil : Reported s [] s
  | reconcile {results : List ReportedTest} {s' : Session} {nesting : Nat} {files : Files}
    {output : List Char} {run : Run} {outcome : Reconciled} :
    Reported s results s' → s'.reconcile nesting files output run = .ok outcome →
      Reported s (results ++ Report.resultsIn nesting output) outcome.session

variable {s s' : Session} {results : List ReportedTest} {heading : Tree} {suite name : String}
  {place : Nat}

theorem Reported.spec (h : s.Reported results s') (hs : s.HoldsFiles) :
    s'.HoldsFiles ∧ s'.hierarchy.index = s.hierarchy.index := by
  induction h with
  | nil => exact ⟨hs, rfl⟩
  | reconcile _ hok ih => exact ⟨ih.1.reconcile hok, (reconcile_index ih.1 hok).trans ih.2⟩

theorem Reported.anchorAt_eq {key : Key} {count : Nat} (h : s.Reported results s')
    (hs : s.HoldsFiles) (hkey : key ∈ s.hierarchy.headingKeys)
    (hkeeps : ∀ result ∈ results,
      (s.hierarchy.named? result.suite result.name).map Prod.fst = some key →
        result.Keeps place count)
    (hbehind : count ≤ place → anchorAt (s.hierarchy.assertionsAt key) place = (none, "")) :
    anchorAt (s'.hierarchy.assertionsAt key) place =
      anchorAt (s.hierarchy.assertionsAt key) place := by
  induction h with
  | nil => rfl
  | @reconcile results s' nesting files output run outcome hreports hok ih =>
    rw [List.forall_mem_append] at hkeeps
    obtain ⟨hholds, hindex⟩ := hreports.spec hs
    have hbefore := ih hkeeps.1
    rw [Report.resultsIn] at hkeeps
    rcases reconcile_cases hok with ⟨value, report, hload, rfl⟩ | ⟨error, _, rfl⟩
    · rw [hload] at hkeeps
      apply foldl_step_anchorAt hholds files report _ _ _ hbehind hbefore
      · rw [Hierarchy.headingKeys, hindex]
        exact hkey
      · intro other hother
        rw [Hierarchy.named?_of_index_eq hindex]
        exact hkeeps.2 other hother
    · exact hbefore

/-- However many outputs are reconciled, a place shows the range and the operator that it had
before them, as long as every result of its heading keeps it; a place behind the last assertion
shows none as long as no result names a line there. -/
theorem Reachable.anchorAt_reported (h : s.Reachable) (hreports : s.Reported results s')
    (hheading : s.headingNamed? suite name = some heading)
    (hkeeps : ∀ result ∈ results,
      (s.headingNamed? result.suite result.name).map Tree.key = some heading.key →
        result.Keeps place heading.assertions.length) :
    ∃ shown, s'.headingNamed? suite name = some shown ∧ shown.face = heading.face ∧
      anchorAt shown.assertions place = anchorAt heading.assertions place ∧
      (heading.assertions.length ≤ place → anchorAt shown.assertions place = (none, "")) := by
  obtain ⟨hholds, hindex⟩ := hreports.spec h.holdsFiles
  obtain ⟨shown, hshown, hface⟩ := exists_headingNamed? hindex hheading
  have hkey : shown.key = heading.key := (Prod.mk.inj hface).1
  have hin : heading.key ∈ s.hierarchy.headingKeys :=
    Hierarchy.mem_headingKeys_of_named? (named?_eq_face hheading)
  have hsame : anchorAt (s'.hierarchy.assertionsAt heading.key) place =
      anchorAt (s.hierarchy.assertionsAt heading.key) place := by
    apply hreports.anchorAt_eq h.holdsFiles hin
    · intro result hresult he
      rw [← map_face_headingNamed?, Option.map_map] at he
      exact hkeeps result hresult he
    · intro hle
      rw [h.holdsFiles.assertionsAt_eq hheading, anchorAt_of_le hle]
  rw [h.holdsFiles.assertionsAt_eq hheading, ← hkey, hholds.assertionsAt_eq hshown] at hsame
  exact ⟨shown, hshown, hface, hsame, fun hle => hsame.trans (anchorAt_of_le hle)⟩

/-- A report that lists no assertion of a test. -/
def silentText : List Char :=
  "\x7b\"testResults\": [\x7b\"suite\": \"T\", \"name\": \"test_outer\"\x7d]\x7d".toList

/-- A report that lists an assertion of a test, without a line. -/
def bareText : List Char :=
  ("\x7b\"testResults\": [\x7b\"suite\": \"T\", \"name\": \"test_outer\", " ++
    "\"assertions\": [\x7b\x7d]\x7d]\x7d").toList

theorem Reachable.anchorAt_reported_bareText :
    let s := (oneFile.plantText 0 nestedText none).2
    ∃ first second shown, s.reconcile 993 (.empty ⟨"/", []⟩) bareText {} = .ok first ∧
      first.session.reconcile 993 (.empty ⟨"/", []⟩) bareText {} = .ok second ∧
      second.session.headingNamed? "T" "test_outer" = some shown ∧
      anchorAt shown.assertions 0 = (some (.ofPoints 2 1 3 14), "areEqual") := by
  intro s
  have hshown : (s.headingNamed? "T" "test_outer").map
      (fun t => (t.assertions.length, anchorAt t.assertions 0)) =
        some (1, some (.ofPoints 2 1 3 14), "areEqual") := by decide +kernel
  have hresults : (Report.resultsIn 993 bareText).all (fun result =>
      result.assertions.length == 1 && result.assertions.all fun a => !a.isLocated) = true := by
    decide +kernel
  have hkeeps : ∀ result ∈ Report.resultsIn 993 bareText, result.Keeps 0 1 := by
    intro result hresult
    have hboth := List.all_eq_true.1 hresults result hresult
    rw [Bool.and_eq_true, beq_iff_eq] at hboth
    refine ⟨fun a ha => ?_, fun _ => hboth.1 ▸ Nat.one_pos⟩
    simpa using List.all_eq_true.1 hboth.2 a (List.mem_of_getElem? ha)
  have hload : (Report.load 993 bareText).isOk = true := by decide +kernel
  have hreconcile (s : Session) : ∃ outcome, s.reconcile 993 (.empty ⟨"/", []⟩) bareText {} =
      .ok outcome := by
    cases hl : Report.load 993 bareText with
    | error failure =>
      rw [hl] at hload
      cases hload
    | ok found => exact ⟨_, reconcile_of_load _ _ hl⟩
  obtain ⟨first, hfirst⟩ := hreconcile s
  obtain ⟨second, hsecond⟩ := hreconcile first.session
  obtain ⟨heading, hheading, hfields⟩ := Option.map_eq_some_iff.1 hshown
  obtain ⟨hlength, hanchor⟩ := Prod.mk.inj hfields
  obtain ⟨shown, hnamed, _, hsame, _⟩ := reachable_nestedText.anchorAt_reported
    (.reconcile (.reconcile .nil hfirst) hsecond) hheading (by
      intro result hresult _
      rw [List.nil_append, List.mem_append, or_self] at hresult
      exact hlength ▸ hkeeps result hresult)
  exact ⟨first, second, shown, hfirst, hsecond, hnamed, hsame.trans hanchor⟩

/-- A report without the assertion makes the next one forget where the source has it. -/
theorem anchorAt_silentText :
    let s := (oneFile.plantText 0 nestedText none).2
    (s.headingNamed? "T" "test_outer").map (fun t => anchorAt t.assertions 0) =
        some (some (.ofPoints 2 1 3 14), "areEqual") ∧
      ((s.reconcile 993 (.empty ⟨"/", []⟩) silentText {}).toOption.bind fun first =>
        (first.session.reconcile 993 (.empty ⟨"/", []⟩) bareText {}).toOption.bind fun second =>
          (second.session.headingNamed? "T" "test_outer").map fun t => anchorAt t.assertions 0) =
        some (none, "") := by
  decide +kernel

end Session

end SuiteAtlas
