import SuiteAtlas.Proofs.Source.Logical

namespace SuiteAtlas.Source

open Text (goesOn)

variable {lines more tail row : List (List Char)} {rows : List (List (List Char))}
  {line : List Char} {first n : Nat}

/-- Lines that the runner counts as one. -/
structure IsRow (row : List (List Char)) : Prop where
  ne_nil : row ≠ []
  body_goesOn : ∀ l ∈ row.dropLast, goesOn l = true
  ends : goesOn (row.getLast ne_nil) = false

theorem IsRow.singleton (h : ¬goesOn line = true) : IsRow [line] :=
  ⟨List.cons_ne_nil line [], by simp, by simpa using h⟩

theorem IsRow.cons (h : IsRow row) (hline : goesOn line = true) : IsRow (line :: row) := by
  refine ⟨List.cons_ne_nil line row, ?_, ?_⟩
  · rw [List.dropLast_cons_of_ne_nil h.ne_nil]
    intro l hl
    rcases List.mem_cons.1 hl with rfl | hl
    · exact hline
    · exact h.body_goesOn l hl
  · rw [List.getLast_cons h.ne_nil]
    exact h.ends

theorem IsRow.cases_cons (h : IsRow (line :: row)) :
    (goesOn line = true ∧ IsRow row) ∨ (¬goesOn line = true ∧ row = []) := by
  cases row with
  | nil => exact .inr ⟨by simpa using h.ends, rfl⟩
  | cons next rest =>
    have hgo := h.body_goesOn
    have hends := h.ends
    rw [List.dropLast_cons_of_ne_nil (List.cons_ne_nil next rest)] at hgo
    rw [List.getLast_cons (List.cons_ne_nil next rest)] at hends
    refine .inl ⟨hgo line List.mem_cons_self, List.cons_ne_nil next rest, ?_, hends⟩
    exact fun l hl => hgo l (List.mem_cons_of_mem line hl)

/-- The rows that lines make, and what is left at the end. -/
structure Folds (lines : List (List Char)) (rows : List (List (List Char)))
    (tail : List (List Char)) : Prop where
  eq : lines = rows.flatten ++ tail
  isRow : ∀ row ∈ rows, IsRow row
  tail_goesOn : ∀ l ∈ tail, goesOn l = true

theorem logicalLines_of_goesOn_nil (h : goesOn line = true) (hmore : logicalLines more = []) :
    logicalLines (line :: more) = [] := by
  rw [logicalLines, if_pos h, hmore]

theorem logicalLines_of_goesOn_cons (h : goesOn line = true)
    (hmore : logicalLines more = row :: rows) :
    logicalLines (line :: more) = (line :: row) :: rows := by
  rw [logicalLines, if_pos h, hmore]

theorem logicalLines_of_ends (h : ¬goesOn line = true) :
    logicalLines (line :: more) = [line] :: logicalLines more := by
  rw [logicalLines, if_neg h]

theorem exists_folds (lines : List (List Char)) :
    ∃ tail, Folds lines (logicalLines lines) tail := by
  induction lines with
  | nil => exact ⟨[], rfl, by simp [logicalLines], by simp⟩
  | cons line more ih =>
    obtain ⟨tail, heq, hrows, htail⟩ := ih
    by_cases hline : goesOn line = true
    · cases hmore : logicalLines more with
      | nil =>
        rw [hmore, List.flatten_nil, List.nil_append] at heq
        rw [logicalLines_of_goesOn_nil hline hmore]
        refine ⟨line :: tail, by rw [heq]; rfl, by simp, ?_⟩
        intro l hl
        rcases List.mem_cons.1 hl with rfl | hl
        · exact hline
        · exact htail l hl
      | cons row rows =>
        rw [hmore] at heq hrows
        rw [logicalLines_of_goesOn_cons hline hmore]
        refine ⟨tail, congrArg (line :: ·) heq, ?_, htail⟩
        intro r hr
        rcases List.mem_cons.1 hr with rfl | hr
        · exact (hrows row List.mem_cons_self).cons hline
        · exact hrows r (List.mem_cons_of_mem row hr)
    · rw [logicalLines_of_ends hline]
      refine ⟨tail, congrArg (line :: ·) heq, ?_, htail⟩
      intro r hr
      rcases List.mem_cons.1 hr with rfl | hr
      · exact .singleton hline
      · exact hrows r hr

theorem IsRow.logicalLines_append (h : IsRow row) (lines : List (List Char)) :
    logicalLines (row ++ lines) = row :: logicalLines lines := by
  induction row with
  | nil => exact absurd rfl h.ne_nil
  | cons line rest ih =>
    rcases h.cases_cons with ⟨hline, hrest⟩ | ⟨hline, rfl⟩
    · exact logicalLines_of_goesOn_cons hline (ih hrest)
    · exact logicalLines_of_ends hline

theorem logicalLines_eq_nil (h : ∀ l ∈ tail, goesOn l = true) : logicalLines tail = [] := by
  induction tail with
  | nil => rfl
  | cons line more ih =>
    apply logicalLines_of_goesOn_nil (h line List.mem_cons_self)
    exact ih fun l hl => h l (List.mem_cons_of_mem line hl)

/-- There is no other way of cutting lines into rows. -/
theorem Folds.eq_logicalLines (h : Folds lines rows tail) : rows = logicalLines lines := by
  obtain ⟨rfl, hrows, htail⟩ := h
  induction rows with
  | nil => exact (logicalLines_eq_nil htail).symm
  | cons row rest ih =>
    rw [List.flatten_cons, List.append_assoc,
      (hrows row List.mem_cons_self).logicalLines_append,
      ← ih fun r hr => hrows r (List.mem_cons_of_mem row hr)]

theorem folds_iff (lines : List (List Char)) (rows : List (List (List Char))) :
    (∃ tail, Folds lines rows tail) ↔ rows = logicalLines lines := by
  constructor
  · rintro ⟨tail, h⟩
    exact h.eq_logicalLines
  · rintro rfl
    exact exists_folds lines

/-- The index of the last line of the row `n`, when the first row starts on the line `first`. -/
def lastLine? (first : Nat) (rows : List (List (List Char))) (n : Nat) : Option Nat :=
  if n < rows.length then some (first + (rows.take (n + 1)).flatten.length - 1) else none

theorem lastLine?_cons_zero (first : Nat) (row : List (List Char))
    (rows : List (List (List Char))) :
    lastLine? first (row :: rows) 0 = some (first + row.length - 1) := by
  rw [lastLine?, List.length_cons, if_pos (Nat.zero_lt_succ rows.length)]
  simp

theorem lastLine?_cons_succ (first n : Nat) (row : List (List Char))
    (rows : List (List (List Char))) :
    lastLine? first (row :: rows) (n + 1) = lastLine? (first + row.length) rows n := by
  rw [lastLine?, lastLine?, List.length_cons]
  by_cases hn : n < rows.length
  · rw [if_pos hn, if_pos (Nat.succ_lt_succ hn), List.take_succ_cons, List.flatten_cons,
      List.length_append, Nat.add_assoc]
  · rw [if_neg hn, if_neg fun h => hn (Nat.lt_of_succ_lt_succ h)]

theorem lastLine?_cons_cons (first n : Nat) (line : List Char) (row : List (List Char))
    (rows : List (List (List Char))) :
    lastLine? first ((line :: row) :: rows) n = lastLine? (first + 1) (row :: rows) n := by
  have hlength : first + (line :: row).length = first + 1 + row.length := by
    rw [List.length_cons]
    omega
  cases n with
  | zero => rw [lastLine?_cons_zero, lastLine?_cons_zero, hlength]
  | succ n => rw [lastLine?_cons_succ, lastLine?_cons_succ, hlength]

/-- The search for the end of a logical line finds the last line of its row. -/
theorem endOfLogicalLine?_eq (first n : Nat) (lines : List (List Char)) :
    endOfLogicalLine? first n lines = lastLine? first (logicalLines lines) n := by
  induction lines generalizing first n with
  | nil => rfl
  | cons line more ih =>
    by_cases hline : goesOn line = true
    · rw [endOfLogicalLine?_of_goesOn hline, ih]
      cases hmore : logicalLines more with
      | nil => rw [logicalLines_of_goesOn_nil hline hmore]; rfl
      | cons row rows => rw [logicalLines_of_goesOn_cons hline hmore, lastLine?_cons_cons]
    · rw [logicalLines_of_ends hline]
      cases n with
      | zero => rw [endOfLogicalLine?_zero_of_ends hline, lastLine?_cons_zero]; rfl
      | succ n => rw [endOfLogicalLine?_succ_of_ends hline, ih, lastLine?_cons_succ]; rfl

/-- The rows from the declaration of a function on number its lines: the physical line of a number
is the last one of the row with that number, or of the row before it if the first line of the
declaration goes on, and there is none if there is no such row. -/
theorem physicalLine?_logicalLines {text name : List Char} {start : Nat}
    (hstart : functionLine? (Text.lines text) name = some start)
    (hline : (Text.lines text)[start]? = some line) :
    let rows := logicalLines ((Text.lines text).drop start)
    (∀ rows', (∃ tail, Folds ((Text.lines text).drop start) rows' tail) ↔ rows' = rows) ∧
      ∀ k : Nat, 1 ≤ k →
        physicalLine? text name k = lastLine? start rows (if goesOn line then k - 1 else k) := by
  refine ⟨folds_iff _, ?_⟩
  intro k hk
  obtain ⟨n, rfl⟩ := Nat.exists_eq_add_of_le' hk
  have hdrop : (Text.lines text).drop start = line :: (Text.lines text).drop (start + 1) := by
    obtain ⟨hlt, rfl⟩ := List.getElem?_eq_some_iff.1 hline
    exact List.drop_eq_getElem_cons hlt
  have hphysical : physicalLine? text name (n + 1 : Nat) =
      lastLine? (start + 1) (logicalLines ((Text.lines text).drop (start + 1))) n := by
    rw [physicalLine?, if_neg (by omega)]
    simp only [hstart, Option.bind_some, Int.toNat_natCast]
    exact endOfLogicalLine?_eq (start + 1) n _
  rw [hphysical, hdrop, Nat.add_sub_cancel]
  by_cases hgo : goesOn line = true
  · rw [if_pos hgo]
    cases hmore : logicalLines ((Text.lines text).drop (start + 1)) with
    | nil => rw [logicalLines_of_goesOn_nil hgo hmore]; rfl
    | cons row rows => rw [logicalLines_of_goesOn_cons hgo hmore, lastLine?_cons_cons]
  · rw [if_neg hgo, logicalLines_of_ends hgo, lastLine?_cons_succ]
    rfl

def longDeclarationText : List Char :=
  ("Function test_a( \\\n" ++
    "\t$t : Object)\n" ++
    "\t$x:=1\n").toList

theorem physicalLine?_longDeclarationText :
    physicalLine? longDeclarationText "test_a".toList 2 = some 2 := by
  have hstart : functionLine? (Text.lines longDeclarationText) "test_a".toList = some 0 := by
    decide +kernel
  have hline : (Text.lines longDeclarationText)[0]? = some "Function test_a( \\".toList := by
    decide +kernel
  exact ((physicalLine?_logicalLines hstart hline).2 2 (by decide)).trans (by decide +kernel)

/-- The row 1 of the test ends on the line 2, but its number 1 leads into the row of the
declaration. -/
theorem physicalLine?_ne_lastLine? :
    functionLine? (Text.lines longDeclarationText) "test_a".toList = some 0 ∧
      lastLine? 0 (logicalLines (Text.lines longDeclarationText)) 1 = some 2 ∧
      physicalLine? longDeclarationText "test_a".toList 1 = some 1 := by
  decide +kernel

end SuiteAtlas.Source
