import SuiteAtlas.Proofs.Hierarchy.Address
import SuiteAtlas.Proofs.Source.Logical
import SuiteAtlas.Proofs.Source.Visits

namespace SuiteAtlas.Source

variable {lines : List (List Char)} {events rest : List Event} {own : List Assertion}
  {a : Assertion} {other : Bool} {bound : Int} {number last i : Nat}

/-- The line of the method that a line belongs to: the last line above it that begins a method and
that no assertion covers. -/
structure BelongsTo (lines : List (List Char)) (events : List Event) (bound : Int) (i : Nat) :
    Prop where
  lt : i < bound
  begins : BeginsMethod lines i
  not_covered : ¬IsCovered events i
  last : ∀ j, i < j → j < bound → BeginsMethod lines j → IsCovered events j

theorem assertion_mem_cons (x : Heading) :
    .assertion a ∈ Event.heading x :: rest ↔ .assertion a ∈ rest := by
  simp only [List.mem_cons, reduceCtorEq, false_or]

theorem BelongsTo.of_cons {x : Heading} (h : BelongsTo lines (.heading x :: rest) bound i) :
    BelongsTo lines rest bound i where
  lt := h.lt
  begins := h.begins
  not_covered := fun hcovered => h.not_covered ((isCovered_heading_cons x).2 hcovered)
  last := fun j hj hlt hbegins => (isCovered_heading_cons x).1 (h.last j hj hlt hbegins)

theorem BelongsTo.of_append (hspans : Spans own number last) (hlast : last < i)
    (h : BelongsTo lines (own.map .assertion ++ rest) bound i) : BelongsTo lines rest bound i where
  lt := h.lt
  begins := h.begins
  not_covered := fun hcovered => h.not_covered ((hspans.isCovered_append_iff hlast).2 hcovered)
  last := fun j hj hlt hbegins =>
    (hspans.isCovered_append_iff (Nat.lt_trans hlast hj)).1 (h.last j hj hlt hbegins)

namespace Visits

/-- Where a scan finds an assertion without a method above it, it was in no other method before. -/
theorem other_eq_false (h : Visits lines other number events) (ha : .assertion a ∈ events)
    (hnone : ∀ j : Nat, number ≤ j → j < a.range.start.line → BeginsMethod lines j →
      IsCovered events j) : other = false := by
  induction h with
  | stop => exact absurd ha List.not_mem_nil
  | @heading other number previous line x rest hline hheading hrest ih =>
    have hle : (number + 1 : Nat) ≤ a.range.start.line :=
      hrest.le_start _ ((assertion_mem_cons x).1 ha)
    have hbegins := (declaresTest_of_headingEvent? hline hheading).beginsMethod
    have hcovered := hnone number (Nat.le_refl number) (by omega) hbegins
    rw [isCovered_heading_cons] at hcovered
    exact absurd hcovered (hrest.not_isCovered (Nat.le_succ number))
  | @method other number line rest hline hheading hmethod hrest ih =>
    have hle : (number + 1 : Nat) ≤ a.range.start.line := hrest.le_start _ ha
    have hcovered := hnone number (Nat.le_refl number) (by omega) ⟨line, hline, .inl hmethod⟩
    exact absurd hcovered (hrest.not_isCovered (Nat.le_succ number))
  | @body other number last line own rest hline hheading hmethod hother hspans hrest ih =>
    rcases List.mem_append.1 ha with ha | ha
    · obtain ⟨b, hb, _⟩ := List.mem_map.1 ha
      cases other with
      | false => rfl
      | true =>
        rw [hother rfl] at hb
        exact absurd hb List.not_mem_nil
    · apply ih ha
      intro j hj hlt hbegins
      rw [← hspans.isCovered_append_iff hj]
      exact hnone j (Nat.le_trans hspans.le (Nat.le_of_succ_le hj)) hlt hbegins

theorem declaresTest_of_belongsTo (h : Visits lines other number events)
    (ha : .assertion a ∈ events) (hi : number ≤ i)
    (hbelongs : BelongsTo lines events a.range.start.line i) : DeclaresTest lines i := by
  induction h with
  | stop => exact absurd ha List.not_mem_nil
  | heading hline hheading hrest ih =>
    rcases Nat.eq_or_lt_of_le hi with rfl | hlt
    · exact declaresTest_of_headingEvent? hline hheading
    · exact ih ((assertion_mem_cons _).1 ha) hlt hbelongs.of_cons
  | method hline hheading hmethod hrest ih =>
    rcases Nat.eq_or_lt_of_le hi with rfl | hlt
    · -- the assertion would lie in this method, where none is found
      have hfalse := hrest.other_eq_false ha fun j hj => hbelongs.last j hj
      cases hfalse
    · exact ih ha hlt hbelongs
  | @body other number last line own rest hline hheading hmethod hother hspans hrest ih =>
    have hlast : last < i := by
      by_contra hle
      rcases Nat.eq_or_lt_of_le hi with rfl | hlt
      · exact not_beginsMethod hline hheading hmethod hbelongs.begins
      · exact hbelongs.not_covered (hspans.isCovered_of_le hlt (Nat.le_of_not_lt hle))
    rcases List.mem_append.1 ha with ha | ha
    · obtain ⟨b, hb, he⟩ := List.mem_map.1 ha
      cases he
      have hwithin := hspans.within a hb
      have hlt := hbelongs.lt
      omega
    · exact ih ha hlast (hbelongs.of_append hspans hlast)

end Visits

def Position.IsIn (lines : List (List Char)) (p : Position) : Prop :=
  ∃ (number column : Nat) (line : List Char), p = ⟨number, column⟩ ∧
    lines[number]? = some line ∧ column ≤ line.length

namespace Cursor

variable {c next : Cursor} {call : Call}

theorem readCall?_operator (hread : c.readCall? call = some (a, next)) :
    a.operator.toList = call.operator := by
  obtain ⟨closed, _, rfl, _⟩ := readCall?_eq_some_iff.1 hread
  exact String.toList_ofList

theorem readCall?_column_le (hcall : c.nextCall? = some call)
    (hread : c.readCall? call = some (a, next)) : next.column ≤ next.current.length := by
  have hin := offset_lt hcall
  obtain ⟨closed, _, _, rfl⟩ := readCall?_eq_some_iff.1 hread
  obtain ⟨piece, hpiece, hcolumn, _⟩ := c.endOf_spec call closed
  rw [behind_column]
  change _ ≤ (c.down (c.endOf call closed).1 _).current.length
  generalize c.endOf call closed = stop at *
  obtain ⟨i, column⟩ := stop
  obtain ⟨l, hl, rfl⟩ := getElem?_statementPieces hpiece
  have hle : column ≤ l.length := Nat.le_trans hcolumn (Text.piece_isPrefix l).length_le
  cases i with
  | zero =>
    rw [List.getElem?_cons_zero, Option.some.injEq] at hl
    rw [if_pos rfl]
    change c.column + call.offset + column ≤ c.current.length
    rw [← hl, drop_rest, List.length_drop] at hle
    omega
  | succ i =>
    rw [if_neg (Nat.succ_ne_zero i)]
    change column ≤ (c.more[i]?.getD []).length
    rw [show c.more[i]? = some l from hl, Option.getD_some]
    exact hle

end Cursor

/-- The place of the opening parenthesis of the call with which an assertion starts. -/
def Assertion.OpensAt (lines : List (List Char)) (a : Assertion) (opening : Position) : Prop :=
  ∃ (number column : Nat) (line head tail : List Char), a.range.start = ⟨number, column⟩ ∧
    lines[number]? = some line ∧ line.drop column = head ++ '(' :: tail ∧
    callHere? (line.drop column) = some (a.operator.toList, tail) ∧
    opening = ⟨number, (column + head.length : Nat)⟩

theorem Assertion.ReadFrom.opens (h : a.ReadFrom lines) :
    a.range.stop.IsIn lines ∧
      ∃ opening, a.OpensAt lines opening ∧ a.range.start < opening ∧ opening < a.range.stop := by
  obtain ⟨c, call, next, hc, hcall, hread⟩ := h
  obtain ⟨i, column, hi, hnext, hrange, hfirst, _⟩ := Cursor.readCall?_spec hread
  obtain ⟨d, head, tail, hdrop, _, hhead, hhere⟩ := Cursor.nextCall?_spec hcall
  have hat : next.IsAt lines := hnext ▸ hc.down hi column
  constructor
  · refine ⟨next.line, next.column, next.current, by rw [hrange]; rfl, hat.getElem? 0, ?_⟩
    exact Cursor.readCall?_column_le hcall hread
  · refine ⟨⟨c.line, (c.column + call.offset + (d :: head).length : Nat)⟩,
      ⟨c.line, c.column + call.offset, c.current, d :: head, tail, by rw [hrange],
        hc.getElem? 0, hdrop, ?_, rfl⟩, ?_, ?_⟩
    · rw [hdrop, Cursor.readCall?_operator hread]
      exact hhere tail
    · rw [hrange]
      exact .inr ⟨rfl, Int.ofNat_lt.2 (Nat.lt_add_of_pos_right (Nat.succ_pos head.length))⟩
    · have hline := congrArg Cursor.line hnext
      have hcolumn := congrArg Cursor.column hnext
      rw [Cursor.down_line] at hline
      rw [Cursor.down_column] at hcolumn
      rw [hrange, Position.lt_iff]
      simp only [Cursor.position, List.length_cons]
      omega

theorem Event.ReadFrom.isIn {e : Event} (h : e.ReadFrom lines) :
    e.range.start.IsIn lines ∧ e.range.stop.IsIn lines := by
  cases e with
  | heading h =>
    obtain ⟨number, previous, line, hline, hheading⟩ := h
    obtain ⟨hrange, _⟩ := headingEvent?_spec hheading
    change h.range.start.IsIn lines ∧ h.range.stop.IsIn lines
    rw [hrange]
    exact ⟨⟨number, 0, line, rfl, hline, Nat.zero_le _⟩,
      ⟨number, line.length, line, rfl, hline, Nat.le_refl _⟩⟩
  | assertion a =>
    obtain ⟨first, _, column, line, hstart, _, hline, hcolumn, _⟩ := h.lines_goOn
    exact ⟨⟨first, column, line, hstart, hline, Nat.le_of_lt hcolumn⟩, h.opens.1⟩

/-- Events stand in their text and in its order, an assertion ends behind its opening parenthesis,
no two assertions have the same id, and the method that an assertion belongs to is a test. -/
theorem scan_ordered (text : List Char) :
    (∀ e ∈ scan text,
      e.range.start.IsIn (Text.lines text) ∧ e.range.stop.IsIn (Text.lines text)) ∧
      (∀ a, .assertion a ∈ scan text → a.range.start < a.range.stop ∧
        ∃ opening, a.OpensAt (Text.lines text) opening ∧ opening < a.range.stop) ∧
      ((scan text).Pairwise fun e e' =>
        e.range.stop ≤ e'.range.start ∧ e.range.start < e'.range.start) ∧
      (∀ parent, ((assertions (scan text)).map (Site.assertionId parent)).Nodup) ∧
      ∀ a i, .assertion a ∈ scan text →
        BelongsTo (Text.lines text) (scan text) a.range.start.line i →
          DeclaresTest (Text.lines text) i := by
  have hordered : (scan text).Pairwise fun e e' =>
      e.range.stop ≤ e'.range.start ∧ e.range.start < e'.range.start := by
    obtain ⟨stop, hlaid⟩ := scan_laid text
    apply (List.pairwise_map.1 hlaid.pairwise).imp
    rintro e e' ⟨hlt, hle⟩
    exact ⟨hle, Position.lt_of_lt_of_le hlt hle⟩
  refine ⟨fun e he => (readFrom_of_mem_scan he).isIn, ?_, hordered, ?_, ?_⟩
  · intro a ha
    have hread : a.ReadFrom (Text.lines text) := readFrom_of_mem_scan ha
    obtain ⟨opening, hopens, hlt, hlt'⟩ := hread.opens.2
    exact ⟨Position.lt_of_lt_of_le hlt (Position.le_of_lt hlt'), opening, hopens, hlt'⟩
  · intro parent
    rw [List.Nodup, List.pairwise_map, assertions, List.pairwise_filterMap]
    apply hordered.imp
    rintro e e' ⟨_, hlt⟩ b hb b' hb' heq
    cases e <;> cases hb
    cases e' <;> cases hb'
    rw [Address.assertionId_eq, Address.assertionId_eq, Address.below_inj,
      Address.positionText_inj] at heq
    exact Position.ne_of_lt hlt heq
  · intro a i ha hbelongs
    exact (scan_visits text).declaresTest_of_belongsTo ha (Nat.zero_le i) hbelongs

/-- A test below a method that is none; a line in its first assertion looks like a method. -/
def helperText : List Char :=
  ("Function a()\n" ++
    "Function test_a()\n" ++
    "\t$t.assert.ok($t; \\\n" ++
    "Function b())\n" ++
    "\t$t.assert.ok($t)").toList

theorem scan_ordered_helperText :
    BelongsTo (Text.lines helperText) (scan helperText) 4 1 ∧
      DeclaresTest (Text.lines helperText) 1 := by
  have hscan : scan helperText =
      [.heading ⟨.ofPoints 1 0 1 17, "test_a", 1, ["unit"]⟩,
        .assertion ⟨.ofPoints 2 1 3 13, "Function b()", "ok", "", ""⟩,
        .assertion ⟨.ofPoints 4 1 4 17, "", "ok", "", ""⟩] := by
    decide +kernel
  have hbelongs : BelongsTo (Text.lines helperText) (scan helperText) 4 1 := by
    refine ⟨by decide, by decide +kernel, by rw [hscan]; decide, ?_⟩
    intro j hj hlt hbegins
    obtain rfl | rfl : j = 2 ∨ j = 3 := by omega
    · exact absurd hbegins (by decide +kernel)
    · rw [hscan]
      decide
  have hmem : .assertion ⟨.ofPoints 4 1 4 17, "", "ok", "", ""⟩ ∈ scan helperText := by
    rw [hscan]
    exact List.mem_cons_of_mem _ (List.mem_cons_of_mem _ List.mem_cons_self)
  exact ⟨hbelongs, (scan_ordered helperText).2.2.2.2 _ 1 hmem hbelongs⟩

end SuiteAtlas.Source
