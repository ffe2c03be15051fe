import SuiteAtlas.Json.Printer

namespace SuiteAtlas

open Number (Binary64)

structure ReportedAssertion where
  message : String
  expected : Json
  actual : Json
  passed : Bool
  line : Option Int
  functionName : Option String
  duration : Option Binary64

structure ReportedTest where
  suite : String
  name : String
  passed : Bool
  duration : Option Binary64
  assertionCount : Option Int
  assertions : List ReportedAssertion

/-- The reason that a report gives for the failure of a test. -/
structure ReportedReason where
  suite : String
  test : String
  reason : String
  deriving DecidableEq, Repr

structure Report where
  testResults : List ReportedTest
  failures : List ReportedReason

namespace ReportedTest

def failedAssertions (result : ReportedTest) : Nat :=
  result.assertions.countP fun a => !a.passed

/-- The number of assertions that the report counts, or else lists. -/
def assertionTotal (result : ReportedTest) : Int :=
  result.assertionCount.getD result.assertions.length

def failureText (result : ReportedTest) (reason : Option String) : String :=
  let summary := s!"{result.failedAssertions} of {result.assertionTotal} assertions failed"
  match reason with
  | some reason => if reason == "" then summary else s!"{reason}\n{summary}"
  | none => summary

end ReportedTest

def ReportedAssertion.failureText (a : ReportedAssertion) : String :=
  s!"expected: {a.expected.toLine} actual: {a.actual.toLine}\n{a.message}"

/-- The first reason that a report gives for the failure of a test. -/
def Report.reasonFor (report : Report) (suite test : String) : Option String :=
  (report.failures.find? fun f => f.suite == suite && f.test == test).map ReportedReason.reason

end SuiteAtlas
