import SuiteAtlas.Proofs.Source.Parenthesis
import SuiteAtlas.Proofs.Source.Pieces
import SuiteAtlas.Proofs.Source.Reaching

namespace SuiteAtlas.Source

/-- What stands behind an opening parenthesis does not matter to how a line is treated. -/
theorem stepOver?_paren (other : Bool) (pre post post' : List Char) :
    stepOver? other (pre ++ '(' :: post) = stepOver? other (pre ++ '(' :: post') := by
  rw [stepOver?, stepOver?, heading?_paren pre post post', isMethod_paren pre post post',
    isComment_paren pre post post']

/-- A line among others, and the parts into which it is broken, behind an opening parenthesis,
before a closing one, and not behind a backslash. -/
structure Break where
  above : List (List Char)
  first : List Char
  rest : List (List Char)
  last : List Char
  below : List (List Char)
  opens : '(' ∈ first
  notMark : ∀ part ∈ first :: rest, part.getLast? ≠ some '\\'
  closes : ')' ∈ last

namespace Break

variable (b : Break)

def number : Nat :=
  b.above.length

def parts : List (List Char) :=
  b.first :: b.rest

def whole : List (List Char) :=
  b.above ++ (b.parts.flatten ++ b.last) :: b.below

def broken : List (List Char) :=
  b.above ++ (b.parts.map withMark ++ b.last :: b.below)

def IsBefore (number column : Nat) : Prop :=
  number < b.number ∨ number = b.number ∧ column ≤ b.first.length

/-- What is left of the first part from a column on, in the line of the break. -/
def firstFrom (number column : Nat) : List Char :=
  if number = b.number then b.first.drop column else b.first

variable {b} {number column : Nat} {call : Call} {a : Assertion} {next : Cursor}

theorem getElem?_of_lt (h : number < b.number) : b.broken[number]? = b.whole[number]? := by
  rw [broken, whole, List.getElem?_append_left h, List.getElem?_append_left h]

theorem getElem?_whole (b : Break) : b.whole[b.number]? = some (b.parts.flatten ++ b.last) := by
  rw [whole, number, List.getElem?_append_right (Nat.le_refl _), Nat.sub_self,
    List.getElem?_cons_zero]

theorem getElem?_broken (b : Break) : b.broken[b.number]? = some (withMark b.first) := by
  rw [broken, number, List.getElem?_append_right (Nat.le_refl _), Nat.sub_self]
  rfl

theorem nextCall?_of_lt (h : number < b.number) (column : Nat) :
    (Cursor.inLines b.broken number column).nextCall? =
      (Cursor.inLines b.whole number column).nextCall? := by
  have hcurrent : (Cursor.inLines b.broken number column).current =
      (Cursor.inLines b.whole number column).current :=
    congrArg (fun line => line.getD []) (getElem?_of_lt h)
  rw [Cursor.nextCall?, Cursor.before, Cursor.rest, hcurrent]
  rfl

theorem current_whole (b : Break) (column : Nat) :
    (Cursor.inLines b.whole b.number column).current =
      b.first ++ (b.rest.flatten ++ b.last) := by
  change (b.whole[b.number]?).getD [] = _
  rw [getElem?_whole, Option.getD_some, parts, List.flatten_cons, List.append_assoc]

theorem current_broken (b : Break) (column : Nat) :
    (Cursor.inLines b.broken b.number column).current = withMark b.first := by
  change (b.broken[b.number]?).getD [] = _
  rw [getElem?_broken, Option.getD_some]

theorem nextCall?_broken (hcall : (Cursor.inLines b.whole number column).nextCall? = some call)
    (hbefore : b.IsBefore number (column + call.offset + call.head)) :
    (Cursor.inLines b.broken number column).nextCall? = some call := by
  rcases hbefore with hlt | ⟨rfl, hle⟩
  · rw [nextCall?_of_lt hlt, hcall]
  · have hcolumn : column ≤ b.first.length := by omega
    have hbefore : (Cursor.inLines b.broken b.number column).before =
        (Cursor.inLines b.whole b.number column).before := by
      rw [Cursor.before, Cursor.before, current_whole, current_broken]
      change (if column = 0 then none else _) = if column = 0 then none else _
      split
      next => rfl
      next hpos =>
        change (b.first ++ _)[column - 1]? = (b.first ++ _)[column - 1]?
        rw [List.getElem?_append_left (by omega), List.getElem?_append_left (by omega)]
    rw [Cursor.nextCall?, Cursor.rest, current_whole] at hcall
    rw [Cursor.nextCall?, Cursor.rest, current_broken, hbefore]
    change findCall? _ ((b.first ++ _).drop column) = some call at hcall
    change findCall? _ ((b.first ++ _).drop column) = some call
    rw [List.drop_append_of_le_length hcolumn] at hcall ⊢
    apply findCall?_withMark hcall
    rw [List.length_drop]
    omega

theorem drop_whole (h : number ≤ b.number) : b.whole.drop number =
    b.above.drop number ++ (b.parts.flatten ++ b.last) :: b.below :=
  List.drop_append_of_le_length h

theorem drop_broken (h : number ≤ b.number) : b.broken.drop number =
    b.above.drop number ++ (b.parts.map withMark ++ b.last :: b.below) :=
  List.drop_append_of_le_length h

theorem notMark_drop (b : Break) (column : Nat) :
    ∀ part ∈ b.first.drop column :: b.rest, part.getLast? ≠ some '\\' := by
  obtain ⟨hfirst, hrest⟩ := List.forall_mem_cons.1 b.notMark
  refine List.forall_mem_cons.2 ⟨?_, hrest⟩
  rw [List.getLast?_drop]
  split
  next => exact nofun
  next => exact hfirst

theorem isBroken_pieces (hbefore : b.IsBefore number (column + call.offset)) :
    IsBroken (b.number - number) (b.firstFrom number (column + call.offset) :: b.rest)
      ((Cursor.inLines b.whole number column).pieces call)
      ((Cursor.inLines b.broken number column).pieces call) := by
  rw [Cursor.pieces, Cursor.pieces, Cursor.drop_rest, Cursor.drop_rest]
  change IsBroken _ _ (statementPieces _ (b.whole.drop (number + 1)))
    (statementPieces _ (b.broken.drop (number + 1)))
  rcases hbefore with hlt | ⟨rfl, hle⟩
  · have hmark := isBroken_piecesOf b.notMark b.closes
      (((b.whole[number]?).getD []).drop (column + call.offset) :: b.above.drop (number + 1)) b.below
    have hlength : (b.above.drop (number + 1)).length + 1 = b.number - number := by
      rw [List.length_drop]
      change b.above.length - (number + 1) + 1 = b.above.length - number
      have hlt : number < b.above.length := hlt
      omega
    rw [List.length_cons, hlength] at hmark
    rw [firstFrom, if_neg (Nat.ne_of_lt hlt), drop_whole hlt, drop_broken hlt]
    change IsBroken _ _ _ (statementPieces (((b.broken[number]?).getD []).drop _) _)
    rw [getElem?_of_lt hlt]
    exact hmark
  · have hmark := isBroken_piecesOf (b.notMark_drop (column + call.offset)) b.closes [] b.below
    have hwhole : b.whole.drop (b.number + 1) = b.below := by
      rw [← List.drop_drop, drop_whole (Nat.le_refl _), number, List.drop_length]
      rfl
    have hbroken : b.broken.drop (b.number + 1) = b.rest.map withMark ++ b.last :: b.below := by
      rw [← List.drop_drop, drop_broken (Nat.le_refl _), number, List.drop_length]
      rfl
    rw [current_whole, current_broken, firstFrom, if_pos rfl, Nat.sub_self, hwhole, hbroken]
    change IsBroken 0 _ (statementPieces ((b.first ++ _).drop (column + call.offset)) _)
      (statementPieces ((b.first ++ _).drop (column + call.offset)) _)
    rw [List.drop_append_of_le_length hle, List.drop_append_of_le_length hle, ← List.append_assoc]
    exact hmark

theorem statement_broken (hbefore : b.IsBefore number (column + call.offset)) :
    (Cursor.inLines b.broken number column).statement call =
      (Cursor.inLines b.whole number column).statement call :=
  (isBroken_pieces hbefore).flatten_eq.symm

theorem pieces_ne_nil (c : Cursor) (call : Call) : c.pieces call ≠ [] :=
  List.ne_nil_of_length_pos (c.pieces_spec call).1

theorem readCall?_broken_none (hbefore : b.IsBefore number (column + call.offset))
    (hread : (Cursor.inLines b.whole number column).readCall? call = none) :
    (Cursor.inLines b.broken number column).readCall? call = none := by
  rw [Cursor.readCall?_eq, Option.map_eq_none_iff] at hread ⊢
  rw [statement_broken hbefore, hread]

theorem readCall?_broken (hbefore : b.IsBefore number (column + call.offset))
    (hread : (Cursor.inLines b.whole number column).readCall? call = some (a, next))
    (hnext : b.IsBefore next.line next.column) :
    ∃ a' next', (Cursor.inLines b.broken number column).readCall? call = some (a', next') ∧
      next'.line = next.line ∧ next'.column = next.column := by
  obtain ⟨closed, hclosed, rfl, rfl⟩ := Cursor.readCall?_eq_some_iff.1 hread
  rw [← statement_broken hbefore] at hclosed
  refine ⟨_, _, Cursor.readCall?_eq_some_iff.2 ⟨closed, hclosed, rfl, rfl⟩, ?_⟩
  have hend : (Cursor.inLines b.broken number column).endOf call closed =
      (Cursor.inLines b.whole number column).endOf call closed := by
    rw [Cursor.endOf, statement_broken hbefore]
    refine (isBroken_pieces hbefore).locate_eq_of_le (pieces_ne_nil _ _) ?_
    change ((Cursor.inLines b.whole number column).endOf call closed).1 < _ ∨
      ((Cursor.inLines b.whole number column).endOf call closed).1 = _ ∧
        ((Cursor.inLines b.whole number column).endOf call closed).2 ≤ _
    rw [Cursor.behind_line, Cursor.behind_column] at hnext
    generalize (Cursor.inLines b.whole number column).endOf call closed = stop at hnext ⊢
    obtain ⟨i, stop⟩ := stop
    change b.IsBefore (number + i) (if i = 0 then column + call.offset + stop else stop) at hnext
    rw [firstFrom]
    rcases hnext with hlt | ⟨heq, hle⟩
    · exact .inl (by omega)
    · refine .inr ⟨by omega, ?_⟩
      split at hle
      next => rw [if_pos (by omega), List.length_drop]; omega
      next => rw [if_neg (by omega)]; omega
  rw [Cursor.behind_line, Cursor.behind_column, Cursor.behind_line, Cursor.behind_column, hend]
  exact ⟨rfl, rfl⟩

end Break

def Stage.IsBefore (b : Break) : Stage → Prop
  | .line _ number => number ≤ b.number
  | .place number column => b.IsBefore number column

namespace Break

variable {b : Break} {number column : Nat} {call : Call} {a : Assertion} {next : Cursor}

theorem IsBefore.mono {column' : Nat} (h : b.IsBefore number column) (hle : column' ≤ column) :
    b.IsBefore number column' :=
  h.imp id fun ⟨hnumber, hcolumn⟩ => ⟨hnumber, Nat.le_trans hle hcolumn⟩

theorem stepOver?_broken {other : Bool}
    (h : stepOver? other (b.parts.flatten ++ b.last) = none) :
    stepOver? other (withMark b.first) = none := by
  obtain ⟨pre, post, hfirst⟩ := List.append_of_mem b.opens
  rw [parts, List.flatten_cons, hfirst, List.append_assoc, List.append_assoc] at h
  rw [withMark, hfirst, List.append_assoc]
  exact (stepOver?_paren other pre _ _).trans h

/-- Up to the first break a scan comes to the same places. -/
theorem reaches_broken {stage : Stage} (h : Reaches b.whole stage) (hstage : stage.IsBefore b) :
    Reaches b.broken stage := by
  induction h with
  | start => exact .start
  | @pass other after number line _ hline hover ih =>
    have hlt : number < b.number := hstage
    exact .pass (ih (Nat.le_of_lt hlt)) ((getElem?_of_lt hlt).trans hline) hover
  | @enter other number line _ hline henter ih =>
    rcases hstage with hlt | ⟨rfl, _⟩
    · exact .enter (ih (Nat.le_of_lt hlt)) ((getElem?_of_lt hlt).trans hline) henter
    · rw [getElem?_whole, Option.some.injEq] at hline
      exact .enter (ih (Nat.le_refl _)) b.getElem?_broken (stepOver?_broken (hline ▸ henter))
  | @skip number column call _ hcall hread ih =>
    have hopening : b.IsBefore number (column + call.offset) :=
      IsBefore.mono hstage (Nat.le_add_right _ _)
    exact .skip (ih (hopening.mono (Nat.le_add_right _ _))) (nextCall?_broken hcall hstage)
      (readCall?_broken_none hopening hread)
  | @read number column call a next _ hcall hread ih =>
    -- an assertion that ends in the line of the break opens before it does
    have hcalled : b.IsBefore number (column + call.offset + call.head) := by
      obtain ⟨i, stop, _, rfl, _, hfirst, _⟩ := Cursor.readCall?_spec hread
      rw [Cursor.down_line, Cursor.down_column] at hstage
      change b.IsBefore (number + i) stop at hstage
      rcases hstage with hlt | ⟨heq, hle⟩
      · exact .inl (by omega)
      · cases i with
        | zero =>
          have hstop : column + call.offset + call.head < stop := hfirst rfl
          exact .inr ⟨heq, by omega⟩
        | succ i => exact .inl (by omega)
    have hopening := hcalled.mono (Nat.le_add_right _ _)
    obtain ⟨a', next', hread', hline, hcolumn⟩ := readCall?_broken hopening hread hstage
    rw [← hline, ← hcolumn]
    exact .read (ih (hopening.mono (Nat.le_add_right _ _))) (nextCall?_broken hcall hcalled) hread'
  | @leave number column _ hcall ih =>
    have hlt : number < b.number := hstage
    exact .leave (ih (.inl hlt)) ((nextCall?_of_lt hlt column).trans hcall)

end Break

/-- An assertion that says the same from the same place on, and ends some lines further down. -/
structure Assertion.IsStretched (x a : Assertion) (lines : Nat) : Prop where
  start : x.range.start = a.range.start
  operator : x.operator = a.operator
  actual : x.actual = a.actual
  expected : x.expected = a.expected
  should : x.should = a.should
  stop : x.range.stop.line = a.range.stop.line + lines

/-- An assertion that opens before the first break and ends behind the last one is stretched by as
many lines as there are breaks. -/
theorem Break.isReached_broken {b : Break} {column : Nat} {call : Call} {a : Assertion}
    {next : Cursor} (hreaches : Reaches b.whole (.place b.number column))
    (hcall : (Cursor.inLines b.whole b.number column).nextCall? = some call)
    (hread : (Cursor.inLines b.whole b.number column).readCall? call = some (a, next))
    (hopens : column + call.offset + call.head ≤ b.first.length)
    (hline : next.line = b.number) (hstop : b.parts.flatten.length < next.column) :
    ∃ x : Assertion, x.IsReached b.broken ∧ x.IsStretched a b.parts.length := by
  have hcalled : b.IsBefore b.number (column + call.offset + call.head) := .inr ⟨rfl, hopens⟩
  have hbefore := hcalled.mono (Nat.le_add_right _ _)
  have hplace : b.IsBefore b.number column := hbefore.mono (Nat.le_add_right _ _)
  obtain ⟨closed, hclosed, rfl, rfl⟩ := Cursor.readCall?_eq_some_iff.1 hread
  rw [← statement_broken hbefore] at hclosed
  refine ⟨(Cursor.inLines b.broken b.number column).assertionOf call closed,
    ⟨b.number, column, call, _, reaches_broken hreaches hplace, nextCall?_broken hcall hcalled,
      Cursor.readCall?_eq_some_iff.2 ⟨closed, hclosed, rfl, rfl⟩⟩, ⟨rfl, rfl, rfl, rfl, rfl, ?_⟩⟩
  rw [Cursor.behind_line] at hline
  rw [Cursor.behind_column] at hstop
  change b.number + _ = b.number at hline
  have hfirst : ((Cursor.inLines b.whole b.number column).endOf call closed).1 = 0 := by omega
  rw [if_pos hfirst] at hstop
  change _ < column + call.offset + _ at hstop
  have hend : ((Cursor.inLines b.broken b.number column).endOf call closed).1 = b.parts.length := by
    have hbroken := isBroken_pieces hbefore
    rw [Nat.sub_self] at hbroken
    rw [Cursor.endOf, statement_broken hbefore,
      hbroken.locate_eq_of_lt (pieces_ne_nil _ _) hfirst]
    · exact Nat.zero_add _
    · rw [firstFrom, if_pos rfl, List.flatten_cons, List.length_append, List.length_drop]
      rw [parts, List.flatten_cons, List.length_append] at hstop
      change _ < ((Cursor.inLines b.whole b.number column).endOf call closed).2
      omega
  change (((Cursor.inLines b.broken b.number column).behind call closed).line : Int) =
    ((Cursor.inLines b.whole b.number column).behind call closed).line + (b.parts.length : Int)
  rw [Cursor.behind_line, Cursor.behind_line, hend, hfirst]
  exact Int.natCast_add _ _

end SuiteAtlas.Source
