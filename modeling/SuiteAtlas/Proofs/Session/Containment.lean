import SuiteAtlas.Proofs.Report.Extract
import SuiteAtlas.Proofs.Session.Account

namespace SuiteAtlas

namespace Reconciliation

variable {state : State} {result : ReportedTest} {results : List ReportedTest} {report : Report}
  {files : Files}

theorem payloadError_step (files : Files) (report : Report) (state : State)
    (result : ReportedTest) :
    (step files report state result).summary.payloadError = state.summary.payloadError := by
  rw [step]
  split
  · rw [applyResult_summary]
    split <;> rfl
  · rfl

theorem payloadError_foldl_step (files : Files) (report : Report) (state : State)
    (results : List ReportedTest) :
    (results.foldl (step files report) state).summary.payloadError =
      state.summary.payloadError := by
  induction results generalizing state with
  | nil => rfl
  | cons result rest ih => rw [List.foldl_cons, ih, payloadError_step]

end Reconciliation

namespace Session

variable {s : Session} {nesting : Nat} {output : List Char} {run : Run}

theorem reconcile_of_load_eq_error (files : Files) {failure : Report.Failure}
    (hload : Report.load nesting output = .error failure) :
    (∃ error : Report.Error, s.reconcile nesting files output run =
      .ok ⟨{ payloadError := some error.message }, s,
        run.print s!"No valid result payload: {error.message}\n"⟩) ∨
    (∃ count, Json.HoldsDigits output count ∧
      s.reconcile nesting files output run = .error (.tooManyDigits count)) ∨
    ∃ part container, Report.IsBraced output part ∧ Json.OpensBeyond nesting part ∧
      s.reconcile nesting files output run = .error (.tooDeep container) := by
  cases failure with
  | unusable error => exact .inl ⟨error, by rw [reconcile, hload]; rfl⟩
  | tooManyDigits count =>
    exact .inr (.inl ⟨count, Report.holdsDigits_of_load hload, by rw [reconcile, hload]⟩)
  | tooDeep container =>
    obtain ⟨part, hpart, hopens⟩ := Report.opensBeyond_of_load hload
    exact .inr (.inr ⟨part, container, hpart, hopens, by rw [reconcile, hload]⟩)
  | unwritable error => exact absurd hload (Report.load_ne_unwritable error)

/-- An object with an integer of 4301 digits. -/
def longNumberText : List Char :=
  "\x7b\"n\": ".toList ++ List.replicate 4301 '1' ++ "\x7d".toList

end Session

end SuiteAtlas
