import SuiteAtlas.Proofs.Source.Break
import SuiteAtlas.Proofs.Source.Statement

namespace SuiteAtlas.Source

def cutAt (line : List Char) : Nat → List Nat → List (List Char)
  | start, [] => [line.drop start]
  | start, place :: places => (line.take place).drop start :: cutAt line place places

/-- A text of which the line `number` is broken at some places: at each of them a backslash and a
line feed are put in. -/
def breakLine (text : List Char) (number : Nat) (places : List Nat) : List Char :=
  ['\n'].intercalate ((text.splitOn '\n').modify number fun row =>
    ['\\', '\n'].intercalate (cutAt row 0 places))

/-- The parts of a line that is cut at places in it; what stands behind the line is in the last of
them. -/
theorem cutAt_spec {row : List Char} {start : Nat} {places : List Nat}
    (hsorted : (start :: places).Pairwise (· ≤ ·)) (hle : ∀ q ∈ start :: places, q ≤ row.length) :
    ∃ parts, ∃ q ∈ start :: places,
      (∀ post, cutAt (row ++ post) start places = parts ++ [row.drop q ++ post]) ∧
      parts.length = places.length ∧ parts.flatten ++ row.drop q = row.drop start ∧
      ∀ part ∈ parts, part = [] ∨ ∃ q ∈ places, part.getLast? = row[q - 1]? := by
  induction places generalizing start with
  | nil =>
    refine ⟨[], start, List.mem_cons_self, fun post => ?_, rfl, rfl, by simp⟩
    rw [cutAt, List.drop_append_of_le_length (hle start List.mem_cons_self)]
    rfl
  | cons place places ih =>
    obtain ⟨hstart, hplaces⟩ := List.pairwise_cons.1 hsorted
    have hplace := hle place (List.mem_cons_of_mem _ List.mem_cons_self)
    obtain ⟨parts, q, hq, hcut, hlength, hflatten, hlast⟩ :=
      ih hplaces fun q hq => hle q (List.mem_cons_of_mem _ hq)
    refine ⟨(row.take place).drop start :: parts, q, List.mem_cons_of_mem _ hq, fun post => ?_,
      congrArg Nat.succ hlength, ?_, List.forall_mem_cons.2 ⟨?_, fun part hpart => ?_⟩⟩
    · rw [cutAt, hcut, List.take_append_of_le_length hplace]
      rfl
    · have hwithin : start ≤ (row.take place).length := by
        rw [List.length_take, Nat.min_eq_left hplace]
        exact hstart place List.mem_cons_self
      rw [List.flatten_cons, List.append_assoc, hflatten, ← List.drop_append_of_le_length hwithin,
        List.take_append_drop]
    · by_cases hempty : (row.take place).length ≤ start
      · exact .inl (List.drop_eq_nil_iff.2 hempty)
      · rw [List.length_take, Nat.min_eq_left hplace] at hempty
        refine .inr ⟨place, List.mem_cons_self, ?_⟩
        rw [List.getLast?_drop, if_neg (by rwa [List.length_take, Nat.min_eq_left hplace]),
          List.getLast?_take, if_neg (by omega), List.getElem?_eq_getElem (by omega), Option.some_or]
    · exact (hlast part hpart).imp id fun ⟨q, hq, h⟩ => ⟨q, List.mem_cons_of_mem _ hq, h⟩

theorem intercalate_marks (parts : List (List Char)) (last : List Char) :
    ['\\', '\n'].intercalate (parts ++ [last]) =
      ['\n'].intercalate (parts.map withMark ++ [last]) := by
  induction parts with
  | nil => rfl
  | cons part parts ih =>
    rw [List.map_cons, List.cons_append, List.cons_append,
      List.intercalate_cons_of_ne_nil (by simp), ih, List.intercalate_cons_of_ne_nil (by simp),
      withMark]
    simp only [List.append_assoc, List.cons_append, List.nil_append]

theorem dropCarriageReturn_withMark (part : List Char) :
    Text.dropCarriageReturn (withMark part) = withMark part := by
  rw [Text.dropCarriageReturn, withMark, List.getLast?_concat, if_neg (by decide)]

theorem lines_breakLine {text line : List Char} {number q : Nat} {places : List Nat}
    {parts : List (List Char)} (hline : (Text.lines text)[number]? = some line)
    (hcut : ∀ post, cutAt (line ++ post) 0 places = parts ++ [line.drop q ++ post])
    (hflatten : parts.flatten ++ line.drop q = line) (hq : q < line.length) :
    Text.lines (breakLine text number places) = (Text.lines text).take number ++
      (parts.map withMark ++ line.drop q :: (Text.lines text).drop (number + 1)) := by
  rw [Text.lines, List.getElem?_map, Option.map_eq_some_iff] at hline
  obtain ⟨row, hrow, rfl⟩ := hline
  obtain ⟨post, hpost, hdrop⟩ := Text.exists_carriageReturn row
  obtain ⟨hlt, hget⟩ := List.getElem?_eq_some_iff.1 hrow
  generalize Text.dropCarriageReturn row = line at *
  have hlast : Text.dropCarriageReturn (line.drop q ++ post) = line.drop q := by
    apply hdrop
    rw [List.getLast?_drop, if_neg (Nat.not_le.2 hq)]
  have hrows : breakLine text number places = ['\n'].intercalate
      ((text.splitOn '\n').take number ++ ((parts.map withMark ++ [line.drop q ++ post]) ++
        (text.splitOn '\n').drop (number + 1))) := by
    rw [breakLine, List.modify_eq_take_cons_drop hlt, hget, hpost, hcut, intercalate_marks,
      Text.intercalate_intercalate _ (by simp)]
  have hfeed : ∀ r ∈ (text.splitOn '\n').take number ++
      ((parts.map withMark ++ [line.drop q ++ post]) ++ (text.splitOn '\n').drop (number + 1)),
      '\n' ∉ r := by
    have hrows (r : List Char) (hr : r ∈ text.splitOn '\n') : '\n' ∉ r :=
      Text.notMem_of_mem_splitOn hr
    have hnot := hrows _ (List.mem_of_getElem? hrow)
    rw [hpost, List.mem_append, not_or] at hnot
    simp only [List.forall_mem_append, List.forall_mem_map, List.forall_mem_singleton]
    refine ⟨fun r hr => hrows r (List.mem_of_mem_take hr),
      ⟨fun part hpart hmem => ?_, fun hmem => ?_⟩, fun r hr => hrows r (List.mem_of_mem_drop hr)⟩
    · rw [withMark, List.mem_append] at hmem
      rcases hmem with hmem | hmem
      · apply hnot.1
        rw [← hflatten]
        exact List.mem_append_left _ (List.mem_flatten_of_mem hpart hmem)
      · exact absurd hmem (by decide)
    · rcases List.mem_append.1 hmem with hmem | hmem
      · exact hnot.1 (List.mem_of_mem_drop hmem)
      · exact hnot.2 hmem
  rw [Text.lines, Text.lines, hrows, List.splitOn_intercalate _ hfeed (by simp)]
  simp only [List.map_append, List.map_map, List.map_cons, hlast, List.map_take, List.map_drop,
    List.append_assoc, List.cons_append, List.nil_append]
  congr 2
  apply List.map_congr_left
  intro part _
  exact dropCarriageReturn_withMark part

theorem exists_break {text row : List Char} {number place : Nat} {places : List Nat}
    (hline : (Text.lines text)[number]? = some row)
    (hsorted : (place :: places).Pairwise (· ≤ ·)) (hopen : '(' ∈ row.take place)
    (hmark : ∀ q ∈ place :: places, row[q - 1]? ≠ some '\\')
    (hclose : ∀ q ∈ place :: places, ')' ∈ row.drop q) :
    ∃ b : Break, b.whole = Text.lines text ∧
      b.broken = Text.lines (breakLine text number (place :: places)) ∧ b.number = number ∧
      b.first.length = place ∧ b.parts.length = places.length + 1 ∧
      b.parts.flatten.length ∈ place :: places := by
  obtain ⟨hlt, hget⟩ := List.getElem?_eq_some_iff.1 hline
  have hwithin : ∀ q ∈ place :: places, q < row.length := fun q hq =>
    Nat.not_le.1 fun hle => List.ne_nil_of_mem (hclose q hq) (List.drop_eq_nil_iff.2 hle)
  have hplace := hwithin place List.mem_cons_self
  obtain ⟨rest, q, hq, hcut, hlength, hflatten, hlast⟩ :=
    cutAt_spec hsorted fun q hq => Nat.le_of_lt (hwithin q hq)
  have hfirst : (row.take place).getLast? ≠ some '\\' := by
    rw [List.getLast?_take]
    split
    next => exact nofun
    next =>
      have hbefore := hmark place List.mem_cons_self
      rw [List.getElem?_eq_getElem (by omega)] at hbefore ⊢
      exact hbefore
  have hrest : ∀ part ∈ rest, part.getLast? ≠ some '\\' := by
    intro part hpart
    rcases hlast part hpart with rfl | ⟨r, hr, he⟩
    · exact nofun
    · rw [he]
      exact hmark r (List.mem_cons_of_mem _ hr)
  have hwhole : (row.take place :: rest).flatten ++ row.drop q = row := by
    rw [List.flatten_cons, List.append_assoc, hflatten, List.take_append_drop]
  have hcuts (post : List Char) : cutAt (row ++ post) 0 (place :: places) =
      (row.take place :: rest) ++ [row.drop q ++ post] := by
    rw [cutAt, hcut, List.take_append_of_le_length (Nat.le_of_lt hplace)]
    rfl
  refine ⟨⟨(Text.lines text).take number, row.take place, rest, row.drop q,
    (Text.lines text).drop (number + 1), hopen, List.forall_mem_cons.2 ⟨hfirst, hrest⟩,
    hclose q hq⟩, ?_, ?_, ?_, ?_, congrArg Nat.succ hlength, ?_⟩
  · change (Text.lines text).take number ++ ((row.take place :: rest).flatten ++ row.drop q) ::
      (Text.lines text).drop (number + 1) = _
    rw [hwhole, ← hget, ← List.drop_eq_getElem_cons hlt, List.take_append_drop]
  · exact (lines_breakLine hline hcuts hwhole (hwithin q hq)).symm
  · exact List.length_take_of_le (Nat.le_of_lt hlt)
  · exact List.length_take_of_le (Nat.le_of_lt hplace)
  · have htotal := congrArg List.length hwhole
    rw [List.length_append, List.length_drop] at htotal
    have hqlt := hwithin q hq
    have hparts : (row.take place :: rest).flatten.length = q := by omega
    exact hparts ▸ hq

theorem Assertion.ReadFrom.closes {lines : List (List Char)} {a : Assertion} {line : List Char}
    {number : Nat} (h : a.ReadFrom lines) (hstart : a.range.start.line = number)
    (hstop : a.range.stop.line = number) (hline : lines[number]? = some line) {q : Nat}
    (hq : q < a.range.stop.column) : ')' ∈ line.drop q := by
  obtain ⟨d, head, closed, hstatement, _⟩ := h.statement
  obtain ⟨last, column, line', hposition, hline', hcolumn⟩ := h.opens.1
  rw [hposition] at hstop hq
  obtain rfl : last = number := Int.ofNat.inj hstop
  obtain rfl : line = line' := Option.some.inj (hline.symm.trans hline')
  have hcut : a.range.cut lines = [(line.take column).drop a.range.start.column.toNat] := by
    rw [Range.cut, hstart, hposition]
    simp only [Int.sub_self, Int.toNat_zero, Int.toNat_natCast, List.take_zero, List.nil_append,
      List.getElem?_drop, Nat.add_zero, hline, Option.getD_some, List.modifyHead_cons]
  have hlast : (line.take column).getLast? = some ')' := by
    have hend : d :: (head ++ '(' :: closed.body) =
        d :: (head ++ '(' :: [';'].intercalate closed.arguments) ++ [')'] := by
      rw [Closed.body, List.cons_append, List.append_assoc, List.cons_append]
    have hjoined : joined [(line.take column).drop a.range.start.column.toNat] = _ :=
      joined_append_singleton [] _
    rw [hcut, hjoined, hend, List.flatMap_nil, List.nil_append] at hstatement
    have hlast := congrArg List.getLast? hstatement
    rw [List.getLast?_concat, List.getLast?_drop] at hlast
    split at hlast
    next => cases hlast
    next => exact hlast
  obtain ⟨front, hfront⟩ := List.getLast?_eq_some_iff.1 hlast
  have hlength := congrArg List.length hfront
  rw [List.length_take, Nat.min_eq_left hcolumn, List.length_append, List.length_singleton] at hlength
  have hq : (q : Int) < (column : Nat) := hq
  rw [← List.take_append_drop column line, hfront, List.append_assoc,
    List.drop_append_of_le_length (by omega)]
  exact List.mem_append_right _ (List.mem_append_left _ (List.mem_singleton_self _))

theorem Assertion.OpensAt.eq_head {lines : List (List Char)} {a : Assertion} {opening : Position}
    {number column : Nat} {call : Call} {next : Cursor} (h : a.OpensAt lines opening)
    (hcall : (Cursor.inLines lines number column).nextCall? = some call)
    (hread : (Cursor.inLines lines number column).readCall? call = some (a, next)) :
    ∃ (row : List Char) (place : Nat), lines[number]? = some row ∧ opening.column = place ∧
      place + 1 = column + call.offset + call.head ∧ row[place]? = some '(' := by
  obtain ⟨number', start, row, head, tail, hstart, hline, hdrop, hhere, rfl⟩ := h
  obtain ⟨_, _, _, _, hrange, _⟩ := Cursor.readCall?_spec hread
  obtain ⟨d, own, more, hown, _, hhead, hother⟩ := Cursor.nextCall?_spec hcall
  rw [hrange] at hstart
  obtain ⟨hnumber, hcolumn⟩ := Position.mk.inj hstart
  obtain rfl : number = number' := Int.ofNat.inj hnumber
  obtain rfl : column + call.offset = start := Int.ofNat.inj hcolumn
  have hcurrent : (Cursor.inLines lines number column).current = row := by
    rw [Cursor.inLines, hline, Option.getD_some]
  rw [hcurrent] at hown
  change row.drop (column + call.offset) = _ at hown
  -- both readings of the chain leave the same text
  have hsame : tail = more := by
    rw [hown, hother] at hhere
    exact (Prod.mk.inj (Option.some.inj hhere)).2.symm
  have hlength := congrArg List.length (hdrop.symm.trans hown)
  rw [hsame, List.length_append, List.length_cons, List.length_cons, List.length_append,
    List.length_cons] at hlength
  refine ⟨row, column + call.offset + head.length, hline, rfl, by omega, ?_⟩
  rw [← List.getElem?_drop, hdrop, List.getElem?_append_right (Nat.le_refl _), Nat.sub_self,
    List.getElem?_cons_zero]

/-- Line continuation is transparent: if the line of an assertion is broken in its argument list,
not behind a backslash, the assertion is found at the same place with the same words, and ends as
many lines further down as there are breaks. -/
theorem scan_breakLine (text : List Char) {a : Assertion} {opening : Position} {places : List Nat}
    (ha : .assertion a ∈ scan text) (hline : a.range.stop.line = a.range.start.line)
    (hopens : a.OpensAt (Text.lines text) opening) (hsorted : places.Pairwise (· ≤ ·))
    (hplaces : ∀ q ∈ places, opening.column < q ∧ q < a.range.stop.column ∧
      ((Text.lines text)[a.range.start.line.toNat]?.getD [])[q - 1]? ≠ some '\\') :
    ∃ x : Assertion, .assertion x ∈ scan (breakLine text a.range.start.line.toNat places) ∧
      x.IsStretched a places.length := by
  have hread : a.ReadFrom (Text.lines text) := readFrom_of_mem_scan ha
  cases places with
  | nil =>
    have hsame : breakLine text a.range.start.line.toNat [] = text := by
      have hrow : (fun row => ['\\', '\n'].intercalate (cutAt row 0 [])) = id := by
        funext row
        exact List.intercalate_singleton
      rw [breakLine, hrow, List.modify_id, List.intercalate_splitOn]
    rw [hsame]
    exact ⟨a, ha, rfl, rfl, rfl, rfl, rfl, (Int.add_zero _).symm⟩
  | cons place places =>
    obtain ⟨number, column, call, next, hreaches, hcall, hreadCall⟩ :=
      (mem_scan_iff_isReached text a).1 ha
    obtain ⟨_, _, _, _, hrange, _⟩ := Cursor.readCall?_spec hreadCall
    obtain ⟨line, paren, hnumber, hopening, hparen, hchar⟩ := hopens.eq_head hcall hreadCall
    have hstart : a.range.start.line = number := by
      rw [hrange]
      rfl
    have hlast : next.line = number := by
      rw [hstart, hrange] at hline
      exact Int.ofNat.inj hline
    have hstop : a.range.stop.column = next.column := by
      rw [hrange]
      rfl
    rw [hstart, Int.toNat_natCast, hnumber, Option.getD_some, hopening, hstop] at hplaces
    rw [hstart, Int.toNat_natCast]
    have hbehind : paren < place := Int.ofNat_lt.1 (hplaces place List.mem_cons_self).1
    have hopen : '(' ∈ line.take place := by
      apply List.mem_of_getElem? (i := paren)
      rw [List.getElem?_take_of_lt hbehind, hchar]
    have hclose : ∀ q ∈ place :: places, ')' ∈ line.drop q := fun q hq =>
      hread.closes hstart (hline.trans hstart) hnumber (hstop ▸ (hplaces q hq).2.1)
    obtain ⟨b, hwhole, hbroken, rfl, hlength, hparts, htotal⟩ := exists_break hnumber hsorted hopen
      (fun q hq => (hplaces q hq).2.2) hclose
    rw [← hwhole] at hreaches hcall hreadCall
    have hbefore : b.parts.flatten.length < next.column :=
      Int.ofNat_lt.1 (hplaces _ htotal).2.1
    obtain ⟨x, hreached, hstretched⟩ := Break.isReached_broken hreaches hcall hreadCall
      (by omega) hlast hbefore
    rw [hbroken] at hreached
    rw [hparts] at hstretched
    exact ⟨x, (mem_scan_iff_isReached _ _).2 hreached, hstretched⟩

/-- A test with an assertion on one line; a text literal in it holds a blank before a backslash. -/
def literalText : List Char :=
  ("Function test_a()\n" ++
    "\t$t.assert.equal($t; f(\"a \\b\"); 2)").toList

theorem scan_breakLine_literalText :
    .assertion ⟨.ofPoints 1 1 1 34, "f(\"a \\b\")", "equal", "2", ""⟩ ∈ scan literalText ∧
      breakLine literalText 1 [17, 26, 33] =
        ("Function test_a()\n" ++
          "\t$t.assert.equal(\\\n" ++
          "$t; f(\"a \\\n" ++
          "\\b\"); 2\\\n" ++
          ")").toList ∧
      ∃ x : Assertion, .assertion x ∈ scan (breakLine literalText 1 [17, 26, 33]) ∧
        x.IsStretched ⟨.ofPoints 1 1 1 34, "f(\"a \\b\")", "equal", "2", ""⟩ 3 := by
  have hmem : .assertion ⟨.ofPoints 1 1 1 34, "f(\"a \\b\")", "equal", "2", ""⟩ ∈
      scan literalText := by
    decide +kernel
  have hopens : Assertion.OpensAt (Text.lines literalText)
      ⟨.ofPoints 1 1 1 34, "f(\"a \\b\")", "equal", "2", ""⟩ ⟨1, 16⟩ :=
    ⟨1, 1, "\t$t.assert.equal($t; f(\"a \\b\"); 2)".toList, "$t.assert.equal".toList,
      "$t; f(\"a \\b\"); 2)".toList, rfl, by decide +kernel, by decide +kernel, by decide +kernel,
      rfl⟩
  have hsorted : [17, 26, 33].Pairwise (· ≤ ·) := by decide
  have hbroken := scan_breakLine literalText hmem rfl hopens hsorted (by decide +kernel)
  exact ⟨hmem, by decide +kernel, hbroken⟩

end SuiteAtlas.Source
