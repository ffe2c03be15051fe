import SuiteAtlas.Proofs.Source.Order
import SuiteAtlas.Source.Numbering

namespace SuiteAtlas.Source

open Text (goesOn)

variable {lines : List (List Char)} {a : Assertion} {first : Nat}

/-- Where an assertion starts there is a character, and the lines between its start and its end go
on. -/
theorem Assertion.ReadFrom.lines_goOn (h : a.ReadFrom lines) :
    ∃ first last column : Nat, ∃ line, a.range.start = ⟨first, column⟩ ∧ a.range.stop.line = last ∧
      lines[first]? = some line ∧ column < line.length ∧ first ≤ last ∧
      ∀ i, first ≤ i → i < last → ∃ l, lines[i]? = some l ∧ goesOn l = true := by
  obtain ⟨c, call, next, hc, hcall, hread⟩ := h
  obtain ⟨i, column, hi, hnext, hrange, _, hgo⟩ := Cursor.readCall?_spec hread
  obtain ⟨d, head, tail, hdrop, hd, _⟩ := Cursor.nextCall?_spec hcall
  have hcurrent : c.current =
      c.current.take (c.column + call.offset) ++ d :: (head ++ '(' :: tail) := by
    rw [← hdrop, List.take_append_drop]
  refine ⟨c.line, c.line + i, c.column + call.offset, c.current, ?_, ?_, ?_, Cursor.offset_lt hcall,
    Nat.le_add_right _ _, ?_⟩
  · rw [hrange]
  · rw [hrange, hnext]
    exact congrArg Int.ofNat (Cursor.down_line c i column)
  · exact hc.getElem? 0
  · intro k hk hki
    obtain ⟨j, rfl⟩ := Nat.exists_eq_add_of_le hk
    have hj : j < (c.current :: c.more).length := by
      rw [List.length_cons]
      omega
    refine ⟨_, (hc.getElem? j).trans (List.getElem?_eq_getElem hj), ?_⟩
    cases j with
    | zero =>
      have hfirst := hgo 0 _ (by omega) rfl
      rw [Cursor.drop_rest, hdrop] at hfirst
      rw [List.getElem_cons_zero, hcurrent, Text.goesOn_append_cons (isBlank_of_isChainChar hd)
        (ne_mark_of_isChainChar hd)]
      exact hfirst
    | succ j => exact hgo (j + 1) _ (by omega) (List.getElem?_eq_getElem hj)

/-- The number of line ends that are no continuations among lines. -/
def countEnds (lines : List (List Char)) : Nat :=
  lines.countP fun line => !goesOn line

def endFrom? (lines : List (List Char)) (start : Nat) : Option Nat :=
  ((lines.drop start).findIdx? fun line => !goesOn line).map (start + ·)

section

variable {n : Nat} {line : List Char} {more : List (List Char)}

theorem countEnds_cons_of_goesOn (h : goesOn line = true) :
    countEnds (line :: more) = countEnds more :=
  List.countP_cons_of_neg (by simp [h])

theorem countEnds_cons_of_ends (h : ¬goesOn line = true) :
    countEnds (line :: more) = countEnds more + 1 :=
  List.countP_cons_of_pos (by simpa using h)

theorem endOfLogicalLine?_of_goesOn (h : goesOn line = true) :
    endOfLogicalLine? first n (line :: more) = endOfLogicalLine? (first + 1) n more := by
  rw [endOfLogicalLine?.eq_def]
  exact if_pos h

theorem endOfLogicalLine?_zero_of_ends (h : ¬goesOn line = true) :
    endOfLogicalLine? first 0 (line :: more) = some first := by
  rw [endOfLogicalLine?.eq_def]
  exact if_neg h

theorem endOfLogicalLine?_succ_of_ends (h : ¬goesOn line = true) :
    endOfLogicalLine? first (n + 1) (line :: more) = endOfLogicalLine? (first + 1) n more := by
  rw [endOfLogicalLine?.eq_def]
  exact if_neg h

end

theorem endOfLogicalLine?_append (first : Nat) (xs ys : List (List Char)) :
    endOfLogicalLine? first (countEnds xs) (xs ++ ys) =
      endOfLogicalLine? (first + xs.length) 0 ys := by
  induction xs generalizing first with
  | nil => rfl
  | cons x xs ih =>
    have hlen : first + (x :: xs).length = first + 1 + xs.length := by
      rw [List.length_cons]
      omega
    rw [hlen, ← ih, List.cons_append]
    by_cases hx : goesOn x = true
    · rw [countEnds_cons_of_goesOn hx, endOfLogicalLine?_of_goesOn hx]
    · rw [countEnds_cons_of_ends hx, endOfLogicalLine?_succ_of_ends hx]

theorem endOfLogicalLine?_zero (first : Nat) (lines : List (List Char)) :
    endOfLogicalLine? first 0 lines =
      (lines.findIdx? fun line => !goesOn line).map (first + ·) := by
  induction lines generalizing first with
  | nil => rfl
  | cons line rest ih =>
    rw [List.findIdx?_cons]
    by_cases hline : goesOn line = true
    · rw [endOfLogicalLine?_of_goesOn hline, ih, hline, Bool.not_true, if_neg Bool.false_ne_true,
        Option.map_map]
      congr 1
      funext i
      exact (Nat.add_right_comm first 1 i).trans (Nat.add_assoc first i 1)
    · rw [endOfLogicalLine?_zero_of_ends hline, if_pos (by simpa using hline)]
      rfl

/-- The logical line of a function that follows the line ends before an index ends on the first
line from the index on that does not go on. -/
theorem physicalLine?_eq {text name : List Char} {start index : Nat}
    (hstart : functionLine? (Text.lines text) name = some start) (hlt : start < index)
    (hle : index ≤ (Text.lines text).length) :
    physicalLine? text name
        (1 + countEnds (((Text.lines text).drop (start + 1)).take (index - (start + 1))) : Nat) =
      endFrom? (Text.lines text) index := by
  generalize hlines : Text.lines text = lines at hstart hle
  let between := (lines.drop (start + 1)).take (index - (start + 1))
  have hsplit : lines.drop (start + 1) = between ++ lines.drop index := by
    have hdrop : lines.drop index = (lines.drop (start + 1)).drop (index - (start + 1)) := by
      rw [List.drop_drop]
      congr 1
      omega
    rw [hdrop, List.take_append_drop]
  change physicalLine? text name (1 + countEnds between : Nat) = _
  have hnat : ((1 + countEnds between : Nat) : Int).toNat = countEnds between + 1 := by
    rw [Int.toNat_natCast, Nat.add_comm]
  rw [physicalLine?, if_neg (by omega), hlines]
  simp only [hstart, Option.bind_some, hnat]
  have hlength : start + 1 + between.length = index := by
    rw [List.length_take, List.length_drop]
    omega
  rw [hsplit, endOfLogicalLine?_append, endOfLogicalLine?_zero, hlength, endFrom?]

theorem le_of_endFrom?_eq_some {start stop index : Nat}
    (hgo : ∀ i, start ≤ i → i < stop → ∃ l, lines[i]? = some l ∧ goesOn l = true)
    (h : endFrom? lines start = some index) : stop ≤ index := by
  obtain ⟨i, hi, rfl⟩ := Option.map_eq_some_iff.1 h
  obtain ⟨hlt, hend, _⟩ := List.findIdx?_eq_some_iff_getElem.1 hi
  by_contra hle
  obtain ⟨l, hl, hl'⟩ := hgo (start + i) (Nat.le_add_right start i) (Nat.not_le.1 hle)
  rw [← List.getElem?_drop, List.getElem?_eq_getElem hlt, Option.some.injEq] at hl
  rw [hl, hl'] at hend
  exact absurd hend (by decide)

theorem endFrom?_eq_some {start stop : Nat} {line : List Char} (hle : start ≤ stop)
    (hgo : ∀ i, start ≤ i → i < stop → ∃ l, lines[i]? = some l ∧ goesOn l = true)
    (hstop : lines[stop]? = some line) (hend : goesOn line = false) :
    endFrom? lines start = some stop := by
  obtain ⟨j, rfl⟩ := Nat.exists_eq_add_of_le hle
  rw [← List.getElem?_drop] at hstop
  obtain ⟨hlt, hget⟩ := List.getElem?_eq_some_iff.1 hstop
  rw [endFrom?, List.findIdx?_eq_some_iff_getElem.2 ⟨hlt, by rw [hget, hend]; rfl, ?_⟩]
  · rfl
  · intro i hij
    obtain ⟨l, hl, hl'⟩ := hgo (start + i) (Nat.le_add_right start i) (by omega)
    rw [← List.getElem?_drop] at hl
    obtain ⟨_, hget'⟩ := List.getElem?_eq_some_iff.1 hl
    rw [hget', hl']
    decide

theorem line_lt_of_follows {text : List Char} {h : Heading} {a : Assertion}
    {before after : List Event}
    (hscan : scan text = before ++ .heading h :: after) (ha : .assertion a ∈ after) :
    h.range.start.line < a.range.start.line := by
  have hread : ∀ e ∈ scan text, e.ReadFrom (Text.lines text) := fun e he => readFrom_of_mem_scan he
  rw [hscan] at hread
  obtain ⟨number, previous, line, hline, hevent⟩ :=
    hread (.heading h) (List.mem_append_right _ List.mem_cons_self)
  obtain ⟨first, last, column, line', hstart, _, hline', hcolumn, _, _⟩ :=
    (hread (.assertion a) (List.mem_append_right _ (List.mem_cons_of_mem _ ha))).lines_goOn
  obtain ⟨hrange, _⟩ := headingEvent?_spec hevent
  obtain ⟨stop, hlaid⟩ := scan_laid text
  have hpairs := hlaid.pairwise
  rw [hscan, List.map_append, List.map_cons, List.pairwise_append, List.pairwise_cons] at hpairs
  have hle := (hpairs.2.1.1 a.range (List.mem_map_of_mem (f := Event.range) ha)).2
  change h.range.stop ≤ a.range.start at hle
  rw [hrange, hstart, Position.le_iff] at hle
  rw [hrange, hstart]
  simp only [Range.ofPoints] at hle ⊢
  rcases hle with hlt | ⟨heq, hle⟩
  · exact hlt
  · -- on the line of the test there is nothing behind the end of the test
    rw [Int.natCast_inj] at heq
    rw [← heq, hline, Option.some.injEq] at hline'
    rw [← hline'] at hcolumn
    omega

/-- An assertion lies in one logical line, and the numbering of logical lines leads to its end: the
logical line behind the line ends between a test and an assertion below it ends on the first line
from that of the assertion on that does not go on, which is no line before the assertion's last. -/
theorem physicalLine?_assertion {text : List Char} {h : Heading} {a : Assertion}
    {before : List Event} {own : List Assertion} {after : List Event} {test : Nat}
    (hscan : scan text = before ++ .heading h :: (own.map .assertion ++ .assertion a :: after))
    (htest : functionLine? (Text.lines text) h.name.toList = some test)
    (hline : h.range.start.line = test) :
    ∃ first last : Nat, a.range.start.line = first ∧ a.range.stop.line = last ∧
      (∀ i, first ≤ i → i < last →
        ∃ l, (Text.lines text)[i]? = some l ∧ goesOn l = true) ∧
      (let between := ((Text.lines text).drop (test + 1)).take (first - (test + 1))
       let number : Nat := 1 + countEnds between
       physicalLine? text h.name.toList number = endFrom? (Text.lines text) first ∧
         (∀ line, physicalLine? text h.name.toList number = some line → last ≤ line) ∧
         ∀ l, (Text.lines text)[last]? = some l → goesOn l = false →
           physicalLine? text h.name.toList number = some last) := by
  have hmem : Event.assertion a ∈ own.map .assertion ++ .assertion a :: after :=
    List.mem_append_right _ List.mem_cons_self
  have hread : (Event.assertion a).ReadFrom (Text.lines text) := by
    apply readFrom_of_mem_scan
    rw [hscan]
    exact List.mem_append_right _ (List.mem_cons_of_mem _ hmem)
  obtain ⟨first, last, column, line, hstart, hstop, hfirst, _, hle, hgo⟩ := hread.lines_goOn
  have hlt := line_lt_of_follows hscan hmem
  rw [hline, hstart] at hlt
  have hindex := (List.getElem?_eq_some_iff.1 hfirst).1
  have heq := physicalLine?_eq htest (Int.ofNat_lt.1 hlt) (Nat.le_of_lt hindex)
  refine ⟨first, last, by rw [hstart], hstop, hgo, heq, ?_, ?_⟩
  · intro line hphysical
    rw [heq] at hphysical
    exact le_of_endFrom?_eq_some hgo hphysical
  · intro l hl hend
    rw [heq]
    exact endFrom?_eq_some hle hgo hl hend

/-- A test with one assertion, which goes on in a second line. -/
def continuedText : List Char :=
  ("Function test_sum($t : Object)\n" ++
    "\t$t.assert.areEqual($t; 1 + 1; \\\n" ++
    "\t\t2; \"sum\")").toList

theorem physicalLine?_continuedText :
    physicalLine? continuedText "test_sum".toList 1 = some 2 := by
  have hscan : scan continuedText = [] ++ .heading ⟨.ofPoints 0 0 0 30, "test_sum", 1, ["unit"]⟩ ::
      (([] : List Assertion).map .assertion ++
        .assertion ⟨.ofPoints 1 1 2 11, "1 + 1", "areEqual", "2", "sum"⟩ :: []) := by
    decide +kernel
  have htest : functionLine? (Text.lines continuedText) "test_sum".toList = some 0 := by
    decide +kernel
  have hlast : (Text.lines continuedText)[2]? = some "\t\t2; \"sum\")".toList := by
    decide +kernel
  obtain ⟨first, last, hstart, hstop, _, _, _, hend⟩ := physicalLine?_assertion hscan htest rfl
  obtain rfl : first = 1 := (Int.ofNat.inj hstart).symm
  obtain rfl : last = 2 := (Int.ofNat.inj hstop).symm
  exact hend _ hlast (by decide +kernel)

end SuiteAtlas.Source
