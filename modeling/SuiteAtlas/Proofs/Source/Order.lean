import SuiteAtlas.Proofs.Source.Arguments
import SuiteAtlas.Proofs.Source.Pattern
import SuiteAtlas.Source.Event

namespace SuiteAtlas.Source

namespace Position

/-- Places are ordered by line, then by column. -/
instance : LE Position where
  le p q := p.line < q.line ∨ p.line = q.line ∧ p.column ≤ q.column

instance : LT Position where
  lt p q := p.line < q.line ∨ p.line = q.line ∧ p.column < q.column

variable {p q r : Position}

theorem le_iff : p ≤ q ↔ p.line < q.line ∨ p.line = q.line ∧ p.column ≤ q.column := Iff.rfl

theorem lt_iff : p < q ↔ p.line < q.line ∨ p.line = q.line ∧ p.column < q.column := Iff.rfl

theorem le_refl (p : Position) : p ≤ p := .inr ⟨rfl, Int.le_refl _⟩

theorem le_trans (h : p ≤ q) (h' : q ≤ r) : p ≤ r := by
  rw [le_iff] at *
  omega

theorem lt_of_lt_of_le (h : p < q) (h' : q ≤ r) : p < r := by
  rw [lt_iff, le_iff] at *
  omega

theorem le_of_lt (h : p < q) : p ≤ q := by
  rw [lt_iff, le_iff] at *
  omega

theorem ne_of_lt (h : p < q) : p ≠ q := by
  rintro rfl
  rw [lt_iff] at h
  omega

end Position

/-- Ranges one behind the other between two places; none is empty. -/
def Laid (start : Position) : List Range → Position → Prop
  | [], stop => start ≤ stop
  | r :: rest, stop => start ≤ r.start ∧ r.start < r.stop ∧ Laid r.stop rest stop

namespace Laid

variable {start middle stop : Position} {ranges others : List Range}

theorem mono {earlier : Position} (h : Laid start ranges stop) (hle : earlier ≤ start) :
    Laid earlier ranges stop := by
  cases ranges with
  | nil => exact Position.le_trans hle h
  | cons r rest => exact ⟨Position.le_trans hle h.1, h.2⟩

theorem append (h : Laid start ranges middle) (h' : Laid middle others stop) :
    Laid start (ranges ++ others) stop := by
  induction ranges generalizing start with
  | nil => exact h'.mono h
  | cons r rest ih => exact ⟨h.1, h.2.1, ih h.2.2⟩

theorem start_le (h : Laid start ranges stop) {r : Range} (hr : r ∈ ranges) : start ≤ r.start := by
  induction ranges generalizing start with
  | nil => simp at hr
  | cons first rest ih =>
    obtain ⟨hle, hlt, hrest⟩ := h
    rcases List.mem_cons.1 hr with rfl | hr
    · exact hle
    · exact Position.le_trans (Position.le_trans hle (Position.le_of_lt hlt)) (ih hrest hr)

theorem pairwise (h : Laid start ranges stop) :
    ranges.Pairwise fun r s => r.start < r.stop ∧ r.stop ≤ s.start := by
  induction ranges generalizing start with
  | nil => exact List.Pairwise.nil
  | cons r rest ih =>
    obtain ⟨_, hlt, hrest⟩ := h
    exact List.pairwise_cons.2 ⟨fun s hs => ⟨hlt, hrest.start_le hs⟩, ih hrest⟩

end Laid

theorem statementPieces_spec (line : List Char) (more : List (List Char)) :
    0 < (statementPieces line more).length ∧
      (statementPieces line more).length ≤ more.length + 1 ∧
      ∀ i l, i + 1 < (statementPieces line more).length → (line :: more)[i]? = some l →
        Text.goesOn l = true := by
  fun_induction statementPieces line more with
  | case1 line hline | case2 line hline =>
    refine ⟨Nat.one_pos, Nat.le_refl _, fun i l hi => ?_⟩
    simp only [List.length_singleton] at hi
    omega
  | case3 line next more hline ih =>
    obtain ⟨_, hle, hgo⟩ := ih
    refine ⟨Nat.succ_pos _, Nat.succ_le_succ hle, fun i l hi hl => ?_⟩
    cases i with
    | zero =>
      rw [List.getElem?_cons_zero, Option.some.injEq] at hl
      rw [← hl]
      exact hline
    | succ i =>
      rw [List.length_cons] at hi
      exact hgo i l (by omega) hl
  | case4 line next more hline =>
    refine ⟨Nat.one_pos, Nat.succ_le_succ (Nat.zero_le _), fun i l hi => ?_⟩
    simp only [List.length_singleton] at hi
    omega

theorem statementPieces_of_ends {line : List Char} (h : Text.goesOn line = false)
    (more : List (List Char)) : statementPieces line more = [line] := by
  cases more <;> rw [statementPieces, if_neg (Bool.eq_false_iff.1 h)]

theorem getElem?_statementPieces {line piece : List Char} {more : List (List Char)} {i : Nat}
    (h : (statementPieces line more)[i]? = some piece) :
    ∃ l, (line :: more)[i]? = some l ∧
      piece = if Text.goesOn l then Text.withoutMark l else l := by
  have hsingle {row : List Char} {i : Nat} (h : [row][i]? = some piece) : i = 0 ∧ row = piece := by
    cases i with
    | zero => exact ⟨rfl, Option.some.inj h⟩
    | succ i => cases h
  fun_induction statementPieces line more generalizing i with
  | case1 line hline =>
    obtain ⟨rfl, rfl⟩ := hsingle h
    exact ⟨line, rfl, (if_pos hline).symm⟩
  | case2 line hline =>
    obtain ⟨rfl, rfl⟩ := hsingle h
    exact ⟨line, rfl, (if_neg hline).symm⟩
  | case3 line next more hline ih =>
    cases i with
    | zero => exact ⟨line, rfl, (Option.some.inj h).symm.trans (if_pos hline).symm⟩
    | succ i => exact ih h
  | case4 line next more hline =>
    obtain ⟨rfl, rfl⟩ := hsingle h
    exact ⟨line, rfl, (if_neg hline).symm⟩

/-- A place in a statement comes after the pieces before its own. It is at the start of a piece only
if this is the first one, and behind the end of a piece only if this is the last one. -/
theorem exists_locate_eq (length : Nat) {pieces : List (List Char)} (hpieces : pieces ≠ []) :
    ∃ before piece after column, pieces = before ++ piece :: after ∧
      length = before.flatten.length + column ∧ locate length pieces = (before.length, column) ∧
      (0 < column ∨ before = []) ∧ (column ≤ piece.length ∨ after = []) := by
  fun_induction locate length pieces with
  | case1 => exact absurd rfl hpieces
  | case2 length piece =>
    exact ⟨[], piece, [], length, rfl, (Nat.zero_add length).symm, rfl, .inr rfl, .inr rfl⟩
  | case3 length piece next more hle =>
    exact ⟨[], piece, next :: more, length, rfl, (Nat.zero_add length).symm, rfl, .inr rfl, .inl hle⟩
  | case4 length piece next more hgt line column hlocate ih =>
    obtain ⟨before, own, after, column', he, hlength, hplace, hstart, hend⟩ :=
      ih (List.cons_ne_nil _ _)
    obtain ⟨rfl, rfl⟩ := Prod.mk.inj (hlocate.symm.trans hplace)
    refine ⟨piece :: before, own, after, column, by rw [he, List.cons_append], ?_, rfl, ?_, hend⟩
    · rw [List.flatten_cons, List.length_append]
      omega
    · rcases hstart with hpos | rfl
      · exact .inl hpos
      · rw [List.flatten_nil, List.length_nil] at hlength
        exact .inl (by omega)

theorem locate_append {before after : List (List Char)} {piece : List Char} {column : Nat}
    (hstart : 0 < column ∨ before = []) (hend : column ≤ piece.length ∨ after = []) :
    locate (before.flatten.length + column) (before ++ piece :: after) =
      (before.length, column) := by
  induction before with
  | nil =>
    rw [List.flatten_nil, List.length_nil, Nat.zero_add, List.nil_append]
    cases after with
    | nil => rfl
    | cons next more => exact if_pos (hend.resolve_right (List.cons_ne_nil _ _))
  | cons first before ih =>
    have hpos : 0 < column := hstart.resolve_right (List.cons_ne_nil _ _)
    have hrest : first.length + before.flatten.length + column - first.length =
        before.flatten.length + column := by omega
    obtain ⟨next, more, hmore⟩ : ∃ next more, before ++ piece :: after = next :: more :=
      List.exists_cons_of_ne_nil (by simp)
    rw [List.flatten_cons, List.length_append, List.cons_append, hmore, locate,
      if_neg (by omega), hrest, ← hmore, ih (.inl hpos)]
    rfl

theorem locate_spec (length : Nat) {pieces : List (List Char)} (hpieces : 0 < pieces.length)
    (h : length ≤ pieces.flatten.length) :
    ∃ piece, pieces[(locate length pieces).1]? = some piece ∧
      (locate length pieces).2 ≤ piece.length ∧
      pieces.flatten.take length =
        (pieces.take (locate length pieces).1).flatten ++ piece.take (locate length pieces).2 := by
  obtain ⟨before, piece, after, column, rfl, rfl, hlocate, _, hend⟩ :=
    exists_locate_eq length (List.ne_nil_of_length_pos hpieces)
  have hcolumn : column ≤ piece.length := by
    rcases hend with hle | rfl
    · exact hle
    · simp only [List.flatten_append, List.flatten_singleton, List.length_append] at h
      omega
  rw [hlocate]
  refine ⟨piece, ?_, hcolumn, ?_⟩
  · rw [List.getElem?_append_right (Nat.le_refl _), Nat.sub_self, List.getElem?_cons_zero]
  · rw [List.take_left, List.flatten_append, List.take_length_add_append, List.flatten_cons,
      List.take_append_of_le_length hcolumn]

namespace Cursor

variable {lines : List (List Char)} {c next : Cursor} {call : Call} {a : Assertion}

def position (c : Cursor) : Position :=
  ⟨c.line, c.column⟩

def IsAt (lines : List (List Char)) (c : Cursor) : Prop :=
  lines.drop c.line = c.current :: c.more

theorem down_line (c : Cursor) (i column : Nat) : (c.down i column).line = c.line + i := by
  cases i <;> rfl

theorem down_column (c : Cursor) (i column : Nat) : (c.down i column).column = column := by
  cases i <;> rfl

theorem IsAt.getElem? (h : c.IsAt lines) (i : Nat) :
    lines[c.line + i]? = (c.current :: c.more)[i]? := by
  rw [← h, List.getElem?_drop]

theorem IsAt.down (h : c.IsAt lines) {i : Nat} (hi : i ≤ c.more.length) (column : Nat) :
    (c.down i column).IsAt lines := by
  cases i with
  | zero => exact h
  | succ i =>
    have hdrop : lines.drop (c.line + i + 1) = c.more.drop i := by
      rw [Nat.add_assoc, Nat.add_comm i, ← List.drop_drop, ← List.drop_drop, h]
      rfl
    change lines.drop (c.line + i + 1) = c.more[i]?.getD [] :: c.more.drop (i + 1)
    rw [hdrop, List.drop_eq_getElem_cons hi, List.getElem?_eq_getElem hi]
    rfl

theorem drop_rest (c : Cursor) (n : Nat) : c.rest.drop n = c.current.drop (c.column + n) :=
  List.drop_drop

theorem nextCall?_spec (hcall : c.nextCall? = some call) :
    ∃ d head tail, c.current.drop (c.column + call.offset) = d :: (head ++ '(' :: tail) ∧
      isChainChar d = true ∧ call.head = head.length + 2 ∧
      ∀ other, callHere? (d :: (head ++ '(' :: other)) = some (call.operator, other) := by
  obtain ⟨pre, d, head, tail, hrest, hoffset, hspec⟩ := findCall?_spec hcall
  refine ⟨d, head, tail, ?_, hspec⟩
  rw [← drop_rest, hrest, hoffset, List.drop_left]

theorem offset_lt (hcall : c.nextCall? = some call) :
    c.column + call.offset < c.current.length := by
  obtain ⟨d, head, tail, hdrop, _⟩ := nextCall?_spec hcall
  have hlength := congrArg List.length hdrop
  rw [List.length_drop, List.length_cons] at hlength
  omega

def pieces (c : Cursor) (call : Call) : List (List Char) :=
  statementPieces (c.rest.drop call.offset) c.more

def statement (c : Cursor) (call : Call) : List Char :=
  (c.pieces call).flatten

/-- The piece, and the place in it, where the argument list of a call ends. -/
def endOf (c : Cursor) (call : Call) (closed : Closed) : Nat × Nat :=
  locate ((c.statement call).length - closed.rest.length) (c.pieces call)

def behind (c : Cursor) (call : Call) (closed : Closed) : Cursor :=
  let stop := c.endOf call closed
  c.down stop.1 (if stop.1 = 0 then c.column + call.offset + stop.2 else stop.2)

def assertionOf (c : Cursor) (call : Call) (closed : Closed) : Assertion :=
  let stop := c.behind call closed
  let expectation := Expectation.ofArguments closed.arguments
  { range := .ofPoints c.line (c.column + call.offset : Nat) stop.line stop.column
    actual := String.ofList expectation.actual
    operator := String.ofList call.operator
    expected := String.ofList expectation.expected
    should := String.ofList expectation.should }

theorem readCall?_eq (c : Cursor) (call : Call) :
    c.readCall? call = (closeList ((c.statement call).drop call.head)).map fun closed =>
      (c.assertionOf call closed, c.behind call closed) :=
  rfl

theorem readCall?_eq_some_iff : c.readCall? call = some (a, next) ↔
    ∃ closed, closeList ((c.statement call).drop call.head) = some closed ∧
      a = c.assertionOf call closed ∧ next = c.behind call closed := by
  rw [readCall?_eq, Option.map_eq_some_iff]
  constructor
  · rintro ⟨closed, hclosed, he⟩
    obtain ⟨rfl, rfl⟩ := Prod.mk.inj he
    exact ⟨closed, hclosed, rfl, rfl⟩
  · rintro ⟨closed, hclosed, rfl, rfl⟩
    exact ⟨closed, hclosed, rfl⟩

theorem pieces_spec (c : Cursor) (call : Call) :
    0 < (c.pieces call).length ∧ (c.pieces call).length ≤ c.more.length + 1 ∧
      ∀ i l, i + 1 < (c.pieces call).length → (c.rest.drop call.offset :: c.more)[i]? = some l →
        Text.goesOn l = true :=
  statementPieces_spec _ _

theorem behind_line (c : Cursor) (call : Call) (closed : Closed) :
    (c.behind call closed).line = c.line + (c.endOf call closed).1 :=
  down_line _ _ _

theorem behind_column (c : Cursor) (call : Call) (closed : Closed) :
    (c.behind call closed).column =
      if (c.endOf call closed).1 = 0 then c.column + call.offset + (c.endOf call closed).2
      else (c.endOf call closed).2 :=
  down_column _ _ _

theorem endOf_spec (c : Cursor) (call : Call) (closed : Closed) :
    ∃ piece, (c.pieces call)[(c.endOf call closed).1]? = some piece ∧
      (c.endOf call closed).2 ≤ piece.length ∧
      (c.statement call).take ((c.statement call).length - closed.rest.length) =
        ((c.pieces call).take (c.endOf call closed).1).flatten ++
          piece.take (c.endOf call closed).2 :=
  locate_spec _ (c.pieces_spec call).1 (Nat.sub_le _ _)

/-- An assertion starts behind the place where it is looked for and ends at the next place, down
lines that go on; if it ends on its first line, it ends behind its opening parenthesis. -/
theorem readCall?_spec (hread : c.readCall? call = some (a, next)) :
    ∃ i column, i ≤ c.more.length ∧ next = c.down i column ∧
      a.range = ⟨⟨c.line, (c.column + call.offset : Nat)⟩, next.position⟩ ∧
      (i = 0 → c.column + call.offset + call.head < column) ∧
      ∀ j l, j < i → (c.rest.drop call.offset :: c.more)[j]? = some l → Text.goesOn l = true := by
  obtain ⟨closed, hclosed, rfl, rfl⟩ := readCall?_eq_some_iff.1 hread
  obtain ⟨_, hlen, hgo⟩ := c.pieces_spec call
  obtain ⟨piece, hpiece, hcolumn, htake⟩ := c.endOf_spec call closed
  have hi := (List.getElem?_eq_some_iff.1 hpiece).1
  have hrest := rest_length_lt hclosed
  rw [List.length_drop] at hrest
  refine ⟨(c.endOf call closed).1, _, by omega, rfl, rfl, ?_, fun j l hj hl => ?_⟩
  · intro h0
    have hlength := congrArg List.length htake
    rw [h0, List.take_zero, List.flatten_nil, List.nil_append, List.length_take, List.length_take,
      Nat.min_eq_left hcolumn] at hlength
    rw [if_pos h0]
    omega
  · exact hgo j l (by omega) hl

end Cursor

def Assertion.ReadFrom (lines : List (List Char)) (a : Assertion) : Prop :=
  ∃ (c : Cursor) (call : Call) (next : Cursor), c.IsAt lines ∧
    c.nextCall? = some call ∧ c.readCall? call = some (a, next)

def Heading.ReadFrom (lines : List (List Char)) (h : Heading) : Prop :=
  ∃ number previous line, lines[number]? = some line ∧
    headingEvent? number previous line = some h

def Event.ReadFrom (lines : List (List Char)) : Event → Prop
  | .heading h => h.ReadFrom lines
  | .assertion a => a.ReadFrom lines

variable {lines : List (List Char)}

theorem Cursor.assertions_spec {c : Cursor} (hc : c.IsAt lines) (fuel : Nat) :
    (c.assertions fuel).2.IsAt lines ∧
      Laid c.position ((c.assertions fuel).1.map Assertion.range) (c.assertions fuel).2.position ∧
      ∀ a ∈ (c.assertions fuel).1, a.ReadFrom lines := by
  fun_induction Cursor.assertions c fuel with
  | case1 c | case2 c fuel hnone => exact ⟨hc, Position.le_refl _, by simp⟩
  | case3 c fuel call hcall hnone ih =>
    obtain ⟨hat, hlaid, hread⟩ := ih hc
    refine ⟨hat, hlaid.mono (.inr ⟨rfl, ?_⟩), hread⟩
    simp only [position, skipCall]
    omega
  | case4 c fuel call hcall a next hsome rest last hrest ih =>
    obtain ⟨i, column, hi, hnext, hrange, hfirst, _⟩ := readCall?_spec hsome
    have hat : next.IsAt lines := hnext ▸ hc.down hi column
    rw [hrest] at ih
    obtain ⟨hlast, hlaid, hread⟩ := ih hat
    refine ⟨hlast, ?_, ?_⟩
    · rw [List.map_cons, Laid, hrange]
      refine ⟨.inr ⟨rfl, ?_⟩, ?_, hlaid⟩
      · simp only [position]
        omega
      · have hline := congrArg Cursor.line hnext
        have hcolumn := congrArg Cursor.column hnext
        rw [down_line] at hline
        rw [down_column] at hcolumn
        rw [Position.lt_iff]
        simp only [position]
        omega
    · intro b hb
      rcases List.mem_cons.1 hb with rfl | hb
      · exact ⟨c, call, next, hc, hcall, hsome⟩
      · exact hread b hb

theorem headingEvent?_spec {number : Nat} {previous line : List Char} {h : Heading}
    (hh : headingEvent? number previous line = some h) :
    h.range = .ofPoints number 0 number line.length ∧ 0 < line.length := by
  obtain ⟨name, hname, rfl⟩ := Option.map_eq_some_iff.1 hh
  refine ⟨rfl, List.length_pos_iff.2 ?_⟩
  rintro rfl
  rw [heading?_nil] at hname
  exact absurd hname (by simp)

theorem getElem?_of_drop {number : Nat} {line : List Char} {more : List (List Char)}
    (h : lines.drop number = line :: more) : lines[number]? = some line := by
  rw [← Nat.add_zero number, ← List.getElem?_drop, h]
  rfl

theorem drop_succ {number : Nat} {line : List Char} {more : List (List Char)}
    (h : lines.drop number = line :: more) : lines.drop (number + 1) = more := by
  rw [← List.drop_drop, h]
  rfl

/-- The events of lines are read from them and lie one behind the other. -/
theorem scanLines_spec (other : Bool) (number : Nat) (previous : List Char) (fuel : Nat)
    {more : List (List Char)} (hmore : lines.drop number = more) :
    (∀ e ∈ scanLines other number previous fuel more, e.ReadFrom lines) ∧
      ∃ stop, Laid ⟨number, 0⟩ ((scanLines other number previous fuel more).map Event.range)
        stop := by
  fun_induction scanLines other number previous fuel more with
  | case1 | case2 => exact ⟨by simp, _, Position.le_refl _⟩
  | case3 other number previous fuel line more h hh ih =>
    obtain ⟨hrange, hline⟩ := headingEvent?_spec hh
    obtain ⟨hread, stop, hlaid⟩ := ih (drop_succ hmore)
    constructor
    · intro e he
      rcases List.mem_cons.1 he with rfl | he
      · exact ⟨number, previous, line, getElem?_of_drop hmore, hh⟩
      · exact hread e he
    · refine ⟨stop, ?_⟩
      change Laid _ (h.range :: _) stop
      rw [hrange]
      refine ⟨Position.le_refl _, .inr ⟨rfl, Int.natCast_pos.2 hline⟩, hlaid.mono (.inl ?_)⟩
      exact Int.lt_succ _
  | case4 other number previous fuel line more hh hmethod ih
  | case5 other number previous fuel line more hh hmethod hother ih =>
    obtain ⟨hread, stop, hlaid⟩ := ih (drop_succ hmore)
    exact ⟨hread, stop, hlaid.mono (.inl (Int.lt_succ _))⟩
  | case6 other number previous fuel line more hh hmethod hother start own last hown ih =>
    obtain ⟨hlast, hlaid, hread⟩ := Cursor.assertions_spec (c := start) hmore (start.size + 1)
    rw [hown] at hlast hlaid hread
    obtain ⟨hread', stop, hlaid'⟩ := ih (drop_succ hlast)
    constructor
    · intro e he
      rcases List.mem_append.1 he with he | he
      · obtain ⟨a, ha, rfl⟩ := List.mem_map.1 he
        exact hread a ha
      · exact hread' e he
    · refine ⟨stop, ?_⟩
      rw [List.map_append, List.map_map]
      exact hlaid.append (hlaid'.mono (.inl (Int.lt_succ _)))

theorem readFrom_of_mem_scan {text : List Char} {e : Event} (he : e ∈ scan text) :
    e.ReadFrom (Text.lines text) :=
  (scanLines_spec false 0 [] _ rfl).1 e he

theorem scan_laid (text : List Char) :
    ∃ stop, Laid ⟨0, 0⟩ ((scan text).map Event.range) stop :=
  (scanLines_spec false 0 [] _ rfl).2

end SuiteAtlas.Source
