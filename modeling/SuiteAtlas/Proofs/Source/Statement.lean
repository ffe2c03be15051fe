import SuiteAtlas.Proofs.Source.Regions
import SuiteAtlas.Proofs.Source.TopLevel

namespace SuiteAtlas.Source

/-- The rows of a range: the first one from its start on, the last one up to its end. -/
def Range.cut (r : Range) (lines : List (List Char)) : List (List Char) :=
  let rows := lines.drop r.start.line.toNat
  let count := (r.stop.line - r.start.line).toNat
  (rows.take count ++ [(rows[count]?.getD []).take r.stop.column.toNat]).modifyHead
    (List.drop r.start.column.toNat)

def joined (rows : List (List Char)) : List Char :=
  rows.dropLast.flatMap Text.withoutMark ++ rows.getLast?.getD []

variable {lines : List (List Char)} {c next : Cursor} {call : Call} {a : Assertion}

theorem joined_append_singleton (rows : List (List Char)) (last : List Char) :
    joined (rows ++ [last]) = rows.flatMap Text.withoutMark ++ last := by
  rw [joined, List.dropLast_concat, List.getLast?_concat, Option.getD_some]

theorem joined_take {line piece : List Char} {more : List (List Char)} {i column : Nat}
    (hpiece : (statementPieces line more)[i]? = some piece) (hcolumn : column ≤ piece.length) :
    joined ((line :: more).take i ++ [((line :: more)[i]?.getD []).take column]) =
      ((statementPieces line more).take i).flatten ++ piece.take column := by
  obtain ⟨l, hl, rfl⟩ := getElem?_statementPieces hpiece
  have hgo := (statementPieces_spec line more).2.2
  have hi := (List.getElem?_eq_some_iff.1 hpiece).1
  rw [joined_append_singleton, hl, Option.getD_some, List.flatMap]
  congr 1
  · congr 1
    apply List.ext_getElem?
    intro j
    rw [List.getElem?_map, List.getElem?_take, List.getElem?_take]
    split
    next hj =>
      obtain ⟨l, hl, hpiece⟩ := getElem?_statementPieces
        (List.getElem?_eq_getElem (Nat.lt_trans hj hi))
      rw [hl, Option.map_some, List.getElem?_eq_getElem (Nat.lt_trans hj hi), hpiece,
        if_pos (hgo j l (by omega) hl)]
    next => rfl
  · obtain ⟨post, hpost⟩ := Text.piece_isPrefix l
    conv => lhs; rw [← hpost, List.take_append_of_le_length hcolumn]

/-- The rows of the range of an assertion are the lines of its statement. -/
theorem Range.cut_ofPoints (hc : c.IsAt lines) (start i column : Nat) :
    (Range.ofPoints c.line start (c.line + i : Nat)
        ((if i = 0 then start + column else column : Nat) : Int)).cut lines =
      (c.current.drop start :: c.more).take i ++
        [((c.current.drop start :: c.more)[i]?.getD []).take column] := by
  have hcount : ((c.line + i : Nat) - (c.line : Int)).toNat = i := by omega
  simp only [Range.cut, Range.ofPoints, Int.toNat_natCast, hcount]
  rw [show lines.drop c.line = c.current :: c.more from hc]
  cases i with
  | zero =>
    simp only [if_true, List.take_zero, List.nil_append, List.modifyHead_cons,
      List.getElem?_cons_zero, Option.getD_some, List.drop_take, Nat.add_sub_cancel_left]
  | succ i =>
    simp only [Nat.succ_ne_zero, if_false, List.take_succ_cons, List.cons_append,
      List.modifyHead_cons, List.getElem?_cons_succ]

namespace Cursor

theorem exists_statement_eq (hcall : c.nextCall? = some call) :
    ∃ d head body, c.statement call = d :: (head ++ '(' :: body) ∧ call.head = head.length + 2 ∧
      ∀ other, callHere? (d :: (head ++ '(' :: other)) = some (call.operator, other) := by
  obtain ⟨d, head, tail, hdrop, _, hhead, hother⟩ := nextCall?_spec hcall
  rw [statement, pieces, drop_rest, hdrop]
  have hpos := (statementPieces_spec (d :: (head ++ '(' :: tail)) c.more).1
  obtain ⟨piece, rest, hpieces⟩ := List.exists_cons_of_length_pos hpos
  obtain ⟨line, hline, hpiece⟩ :=
    getElem?_statementPieces (hpieces ▸ List.getElem?_cons_zero : _[0]? = some piece)
  obtain ⟨body, hbody⟩ := Text.exists_piece_eq (d :: head) tail (by decide : Text.isBlank '(' = false)
    (by decide)
  obtain rfl : d :: (head ++ '(' :: tail) = line := Option.some.inj hline
  refine ⟨d, head, body ++ rest.flatten, ?_, hhead, hother⟩
  rw [hpieces, List.flatten_cons, hpiece]
  exact (congrArg (· ++ rest.flatten) hbody).trans (List.append_assoc (d :: head) ('(' :: body) _)

theorem joined_cut_assertionOf (hc : c.IsAt lines) (call : Call) (closed : Closed) :
    joined ((c.assertionOf call closed).range.cut lines) =
      (c.statement call).take ((c.statement call).length - closed.rest.length) := by
  obtain ⟨piece, hpiece, hcolumn, htake⟩ := c.endOf_spec call closed
  rw [htake, assertionOf, behind_line, behind_column, Range.cut_ofPoints hc, ← drop_rest]
  exact joined_take hpiece hcolumn

end Cursor

/-- The text of the range of an assertion starts with the assertion's chain and ends with its
argument list. -/
theorem Assertion.ReadFrom.statement (h : a.ReadFrom lines) :
    ∃ (d : Char) (head : List Char) (closed : Closed),
      joined (a.range.cut lines) = d :: (head ++ '(' :: closed.body) ∧
      (∀ other, callHere? (d :: (head ++ '(' :: other)) = some (a.operator.toList, other)) ∧
      closeList closed.body = some (closed.before []) ∧
      Expectation.ofArguments closed.arguments =
        ⟨a.actual.toList, a.expected.toList, a.should.toList⟩ := by
  obtain ⟨c, call, next, hc, hcall, hread⟩ := h
  obtain ⟨d, head, body, hstatement, hhead, hother⟩ := Cursor.exists_statement_eq hcall
  have hoperator := Cursor.readCall?_operator hread
  obtain ⟨closed, hclosed, rfl, rfl⟩ := Cursor.readCall?_eq_some_iff.1 hread
  have hdrop : (d :: (head ++ '(' :: body)).drop call.head = body := by
    rw [hhead, List.drop_succ_cons, ← List.drop_drop, List.drop_left]
    rfl
  rw [hstatement, hdrop] at hclosed
  have hbody := closeList_body hclosed
  have hbefore := (Splits.of_splitFrom hclosed).before []
  rw [Closed.written_eq] at hbefore
  refine ⟨d, head, closed, ?_, hoperator ▸ hother, ?_, ?_⟩
  · have hsplit : d :: (head ++ '(' :: body) = d :: (head ++ '(' :: closed.body) ++ closed.rest := by
      rw [hbody, List.cons_append, List.append_assoc, List.cons_append]
    rw [Cursor.joined_cut_assertionOf hc, hstatement, hsplit, List.length_append, Nat.add_sub_cancel,
      List.take_left]
  · rwa [show (closed.before []).body ++ (closed.before []).rest = closed.body from
      List.append_nil _] at hbefore
  · simp only [Cursor.assertionOf, String.toList_ofList]

/-- The text of the range of an assertion is one assertion and nothing more: the pattern of a call
finds it at the start, its argument list ends with it, and what the arguments say is what the
assertion says. -/
theorem scan_statement (text : List Char) {a : Assertion} (ha : .assertion a ∈ scan text) :
    let statement := joined (a.range.cut (Text.lines text))
    ∃ call arguments, findCall? none statement = some call ∧ call.offset = 0 ∧
      call.operator = a.operator.toList ∧ statement[call.head - 1]? = some '(' ∧
      argumentsAt statement (call.head - 1 : Nat) = some (arguments, (statement.length : Int)) ∧
      Expectation.ofArguments arguments =
        ⟨a.actual.toList, a.expected.toList, a.should.toList⟩ := by
  intro statement
  obtain ⟨d, head, closed, hstatement, hother, hclosed, hexpectation⟩ :=
    (readFrom_of_mem_scan ha).statement
  have hstatement : statement = (d :: head) ++ '(' :: closed.body := hstatement
  have hlength : statement.length = head.length + 2 + closed.body.length := by
    rw [hstatement, List.length_append, List.length_cons, List.length_cons]
    omega
  have hopening : statement.drop (head.length + 1) = '(' :: closed.body := by
    rw [hstatement]
    exact List.drop_left' rfl
  have hcall : findCall? none statement = some ⟨0, head.length + 2, a.operator.toList⟩ := by
    rw [hstatement, List.cons_append, findCall?_cons_eq_some_iff]
    refine .inl ⟨_, closed.body, rfl, hother closed.body, ?_⟩
    rw [← List.cons_append, ← hstatement, hlength, Nat.add_sub_cancel]
  have hlist : argumentsAt statement (head.length + 1 : Nat) =
      some (closed.arguments, (statement.length : Int)) := by
    have hbody : statement.drop ((head.length + 1 : Nat) + 1 : Int).toNat = closed.body := by
      rw [show ((head.length + 1 : Nat) + 1 : Int).toNat = head.length + 1 + 1 by omega,
        ← List.drop_drop, hopening]
      rfl
    have hend : ((head.length + 1 : Nat) : Int) + 1 + ((closed.before []).body.length : Nat) =
        (statement.length : Int) := by
      change _ + ((closed.body.length : Nat) : Int) = _
      omega
    rw [argumentsAt_eq _ (by omega), hbody, hclosed, Option.map_some, hend]
    rfl
  refine ⟨_, closed.arguments, hcall, rfl, rfl, ?_, hlist, hexpectation⟩
  rw [← List.head?_drop]
  exact congrArg List.head? hopening

/-- Two assertions: blanks behind a mark and a line with nothing else are in the first one, the
second one starts where it ends and ends on a line that goes on. -/
def tailText : List Char :=
  ("Function test_a()\n" ++
    "\t$t.assert.ok($t; f(\\ \n" ++
    "\\\n" ++
    "1)); $t.assert.equal($t; \\\n" ++
    "2) \\\n" ++
    "3)").toList

theorem scan_statement_tailText :
    .assertion ⟨.ofPoints 3 5 4 2, "2", "equal", "", ""⟩ ∈ scan tailText ∧
      joined ((Range.ofPoints 3 5 4 2).cut (Text.lines tailText)) =
        "$t.assert.equal($t; 2)".toList ∧
      ∃ call arguments, findCall? none "$t.assert.equal($t; 2)".toList = some call ∧
        call.offset = 0 ∧ call.operator = "equal".toList ∧
        "$t.assert.equal($t; 2)".toList[call.head - 1]? = some '(' ∧
        argumentsAt "$t.assert.equal($t; 2)".toList (call.head - 1 : Nat) = some (arguments, 22) ∧
        Expectation.ofArguments arguments = ⟨"2".toList, [], []⟩ := by
  have hmem : .assertion ⟨.ofPoints 3 5 4 2, "2", "equal", "", ""⟩ ∈ scan tailText := by
    decide +kernel
  have hjoined : joined ((Range.ofPoints 3 5 4 2).cut (Text.lines tailText)) =
      "$t.assert.equal($t; 2)".toList := by
    decide +kernel
  have hstatement := scan_statement tailText hmem
  simp only [hjoined] at hstatement
  exact ⟨hmem, hjoined, hstatement⟩

end SuiteAtlas.Source
