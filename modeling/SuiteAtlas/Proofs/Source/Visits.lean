import SuiteAtlas.Proofs.Source.Declaration
import SuiteAtlas.Proofs.Source.Order

namespace SuiteAtlas.Source

variable {lines : List (List Char)} {events rest : List Event} {own : List Assertion}
  {a : Assertion} {other : Bool} {number first middle last i : Nat}

def Assertion.Covers (a : Assertion) (i : Nat) : Prop :=
  a.range.start.line < i ∧ i ≤ a.range.stop.line

def IsCovered (events : List Event) (i : Nat) : Prop :=
  ∃ a, .assertion a ∈ events ∧ a.Covers i

theorem mem_headings {h : Heading} : h ∈ headings events ↔ .heading h ∈ events := by
  rw [headings, List.mem_filterMap]
  constructor
  · rintro ⟨e, he, heq⟩
    cases e <;> cases heq
    exact he
  · exact fun h => ⟨_, h, rfl⟩

theorem mem_assertions : a ∈ assertions events ↔ .assertion a ∈ events := by
  rw [assertions, List.mem_filterMap]
  constructor
  · rintro ⟨e, he, heq⟩
    cases e <;> cases heq
    exact he
  · exact fun h => ⟨_, h, rfl⟩

instance (a : Assertion) (i : Nat) : Decidable (a.Covers i) :=
  inferInstanceAs (Decidable (_ ∧ _))

instance (events : List Event) (i : Nat) : Decidable (IsCovered events i) :=
  decidable_of_iff (∃ a ∈ assertions events, a.Covers i) (by simp only [mem_assertions, IsCovered])

theorem isCovered_heading_cons (h : Heading) :
    IsCovered (.heading h :: rest) i ↔ IsCovered rest i := by
  simp only [IsCovered, List.mem_cons, reduceCtorEq, false_or]

theorem isCovered_append :
    IsCovered (own.map .assertion ++ rest) i ↔ (∃ a ∈ own, a.Covers i) ∨ IsCovered rest i := by
  constructor
  · rintro ⟨a, ha, hcovers⟩
    rcases List.mem_append.1 ha with ha | ha
    · obtain ⟨b, hb, he⟩ := List.mem_map.1 ha
      cases he
      exact .inl ⟨a, hb, hcovers⟩
    · exact .inr ⟨a, ha, hcovers⟩
  · rintro (⟨a, ha, hcovers⟩ | ⟨a, ha, hcovers⟩)
    · exact ⟨a, List.mem_append_left _ (List.mem_map_of_mem ha), hcovers⟩
    · exact ⟨a, List.mem_append_right _ ha, hcovers⟩

/-- Assertions that lead from the line `first` to the line `last`, each starting where the one
before it has ended. -/
structure Spans (own : List Assertion) (first last : Nat) : Prop where
  le : first ≤ last
  within : ∀ a ∈ own, first ≤ a.range.start.line ∧ a.range.start.line ≤ last ∧
    a.range.stop.line ≤ last
  covers : ∀ i, first < i → i ≤ last → ∃ a ∈ own, a.Covers i

theorem Spans.nil (number : Nat) : Spans [] number number :=
  ⟨Nat.le_refl number, by simp, fun i hlt hle => absurd hlt (Nat.not_lt_of_le hle)⟩

theorem Spans.cons (h : Spans own middle last) (hle : first ≤ middle)
    (hstart : a.range.start.line = first) (hstop : a.range.stop.line = middle) :
    Spans (a :: own) first last := by
  have hlast := h.le
  refine ⟨Nat.le_trans hle hlast, ?_, ?_⟩
  · intro b hb
    rcases List.mem_cons.1 hb with rfl | hb
    · omega
    · have hwithin := h.within b hb
      omega
  · intro i hfirst hi
    by_cases hmiddle : i ≤ middle
    · refine ⟨a, List.mem_cons_self, ?_⟩
      rw [Assertion.Covers]
      omega
    · obtain ⟨b, hb, hcovers⟩ := h.covers i (Nat.lt_of_not_le hmiddle) hi
      exact ⟨b, List.mem_cons_of_mem a hb, hcovers⟩

theorem Spans.isCovered_append_iff (h : Spans own number last) (hi : last < i) :
    IsCovered (own.map .assertion ++ rest) i ↔ IsCovered rest i := by
  rw [isCovered_append, or_iff_right]
  rintro ⟨a, ha, _, hstop⟩
  have hwithin := h.within a ha
  omega

theorem Spans.isCovered_of_le (h : Spans own number last) (hnumber : number < i)
    (hlast : i ≤ last) : IsCovered (own.map .assertion ++ rest) i :=
  isCovered_append.2 (.inl (h.covers i hnumber hlast))

theorem Cursor.assertions_spans (c : Cursor) (fuel : Nat) :
    Spans (c.assertions fuel).1 c.line (c.assertions fuel).2.line := by
  fun_induction Cursor.assertions c fuel with
  | case1 c | case2 c fuel hnone => exact .nil c.line
  | case3 c fuel call hcall hnone ih => exact ih
  | case4 c fuel call hcall a next hsome rest last hrest ih =>
    obtain ⟨i, column, _, hnext, hrange, _⟩ := readCall?_spec hsome
    have hline : next.line = c.line + i := by
      rw [hnext, down_line]
    rw [hrest] at ih
    apply ih.cons (by omega)
    · rw [hrange]
    · rw [hrange]
      rfl

/-- How a scan goes through lines from `number` on, in a method that is no test if `other` says so,
and which events it finds: a test is one, another method opens a region without events, and any
other line gives the assertions that start on it or where one of them ends. -/
inductive Visits (lines : List (List Char)) : Bool → Nat → List Event → Prop
  | stop {other : Bool} {number : Nat} (hend : lines.length ≤ number) :
      Visits lines other number []
  | heading {other : Bool} {number : Nat} {previous line : List Char} {h : Heading}
      {rest : List Event} (hline : lines[number]? = some line)
      (hheading : headingEvent? number previous line = some h)
      (hrest : Visits lines false (number + 1) rest) :
      Visits lines other number (.heading h :: rest)
  | method {other : Bool} {number : Nat} {line : List Char} {rest : List Event}
      (hline : lines[number]? = some line) (hheading : heading? line = none)
      (hmethod : isMethod line = true) (hrest : Visits lines true (number + 1) rest) :
      Visits lines other number rest
  | body {other : Bool} {number last : Nat} {line : List Char} {own : List Assertion}
      {rest : List Event} (hline : lines[number]? = some line) (hheading : heading? line = none)
      (hmethod : isMethod line = false) (hother : other = true → own = [])
      (hspans : Spans own number last) (hrest : Visits lines other (last + 1) rest) :
      Visits lines other number (own.map .assertion ++ rest)

theorem scanLines_visits (other : Bool) (number : Nat) (previous : List Char) (fuel : Nat)
    {more : List (List Char)} (hmore : lines.drop number = more) (hfuel : more.length ≤ fuel) :
    Visits lines other number (scanLines other number previous fuel more) := by
  have hnone {number : Nat} {previous line : List Char}
      (h : headingEvent? number previous line = none) : heading? line = none :=
    Option.map_eq_none_iff.1 h
  fun_induction scanLines other number previous fuel more with
  | case1 other number previous more =>
    rw [List.eq_nil_of_length_eq_zero (Nat.le_zero.1 hfuel)] at hmore
    exact .stop (List.drop_eq_nil_iff.1 hmore)
  | case2 => exact .stop (List.drop_eq_nil_iff.1 hmore)
  | case3 other number previous fuel line more h hh ih =>
    exact .heading (getElem?_of_drop hmore) hh
      (ih (drop_succ hmore) (Nat.le_of_succ_le_succ hfuel))
  | case4 other number previous fuel line more hh hmethod ih =>
    exact .method (getElem?_of_drop hmore) (hnone hh) hmethod
      (ih (drop_succ hmore) (Nat.le_of_succ_le_succ hfuel))
  | case5 other number previous fuel line more hh hmethod hother ih =>
    have hrest := ih (drop_succ hmore) (Nat.le_of_succ_le_succ hfuel)
    have hbody := Visits.body (getElem?_of_drop hmore) (hnone hh) (Bool.eq_false_iff.2 hmethod)
      (fun _ => rfl) (.nil number) hrest
    exact hbody
  | case6 other number previous fuel line more hh hmethod hother start own last hown ih =>
    have hspans := Cursor.assertions_spans start (start.size + 1)
    obtain ⟨hlast, _⟩ := Cursor.assertions_spec (c := start) hmore (start.size + 1)
    rw [hown] at hspans hlast
    have hfalse : other = true → own = [] := by
      rintro rfl
      exact absurd rfl hother
    have hno := Bool.eq_false_iff.2 hmethod
    apply Visits.body (getElem?_of_drop hmore) (hnone hh) hno hfalse hspans
    have hdrop : lines.drop (last.line + 1) = last.more := drop_succ hlast
    apply ih hdrop
    have hlength := congrArg List.length hdrop
    have hlength' := congrArg List.length hmore
    have hle : number ≤ last.line := hspans.le
    rw [List.length_drop] at hlength hlength'
    rw [List.length_cons] at hlength' hfuel
    omega

theorem scan_visits (text : List Char) : Visits (Text.lines text) false 0 (scan text) :=
  scanLines_visits false 0 [] _ rfl (Nat.le_refl _)

def DeclaresTest (lines : List (List Char)) (i : Nat) : Prop :=
  ∃ line, lines[i]? = some line ∧ (heading? line).isSome

def BeginsMethod (lines : List (List Char)) (i : Nat) : Prop :=
  ∃ line, lines[i]? = some line ∧ (isMethod line = true ∨ (heading? line).isSome)

instance (lines : List (List Char)) (i : Nat) : Decidable (DeclaresTest lines i) :=
  inferInstanceAs (Decidable (∃ line ∈ lines[i]?, (heading? line).isSome))

instance (lines : List (List Char)) (i : Nat) : Decidable (BeginsMethod lines i) :=
  inferInstanceAs (Decidable (∃ line ∈ lines[i]?, isMethod line = true ∨ (heading? line).isSome))

theorem not_declaresTest {line : List Char} (hline : lines[i]? = some line)
    (hheading : heading? line = none) : ¬DeclaresTest lines i := by
  rintro ⟨other, hother, hsome⟩
  rw [hline, Option.some.injEq] at hother
  rw [← hother, hheading] at hsome
  cases hsome

theorem not_beginsMethod {line : List Char} (hline : lines[i]? = some line)
    (hheading : heading? line = none) (hmethod : isMethod line = false) :
    ¬BeginsMethod lines i := by
  rintro ⟨other, hother, hbegins⟩
  rw [hline, Option.some.injEq] at hother
  rw [← hother, hheading, hmethod] at hbegins
  rcases hbegins with h | h <;> cases h

theorem declaresTest_of_headingEvent? {previous line : List Char} {h : Heading}
    (hline : lines[i]? = some line) (hheading : headingEvent? i previous line = some h) :
    DeclaresTest lines i := by
  obtain ⟨name, hname, _⟩ := Option.map_eq_some_iff.1 hheading
  exact ⟨line, hline, Option.isSome_iff_exists.2 ⟨name, hname⟩⟩

theorem DeclaresTest.beginsMethod (h : DeclaresTest lines i) : BeginsMethod lines i := by
  obtain ⟨line, hline, hsome⟩ := h
  exact ⟨line, hline, .inr hsome⟩

def HasHeadingAt (events : List Event) (i : Nat) : Prop :=
  ∃ h, .heading h ∈ events ∧ h.range.start.line = (i : Int)

theorem hasHeadingAt_cons (x : Heading) :
    HasHeadingAt (.heading x :: rest) i ↔ x.range.start.line = i ∨ HasHeadingAt rest i := by
  simp only [HasHeadingAt, List.mem_cons, Event.heading.injEq, or_and_right, exists_or,
    exists_eq_left]

theorem hasHeadingAt_append :
    HasHeadingAt (own.map .assertion ++ rest) i ↔ HasHeadingAt rest i := by
  simp only [HasHeadingAt, List.mem_append, List.mem_map, reduceCtorEq, and_false, exists_false,
    false_or]

namespace Visits

theorem le_start (h : Visits lines other number events) :
    ∀ e ∈ events, number ≤ e.range.start.line := by
  induction h with
  | stop => simp
  | @heading other number previous line h rest hline hheading hrest ih =>
    intro e he
    rcases List.mem_cons.1 he with rfl | he
    · obtain ⟨hrange, _⟩ := headingEvent?_spec hheading
      change number ≤ h.range.start.line
      rw [hrange]
      exact Int.le_refl _
    · have hle := ih e he
      omega
  | method hline hheading hmethod hrest ih =>
    intro e he
    have hle := ih e he
    omega
  | body hline hheading hmethod hother hspans hrest ih =>
    intro e he
    rcases List.mem_append.1 he with he | he
    · obtain ⟨a, ha, rfl⟩ := List.mem_map.1 he
      exact (hspans.within a ha).1
    · have hle := ih e he
      have hlast := hspans.le
      omega

theorem not_isCovered (h : Visits lines other number events) (hi : i ≤ number) :
    ¬IsCovered events i := by
  rintro ⟨a, ha, hstart, _⟩
  have hle : number ≤ a.range.start.line := h.le_start _ ha
  omega

theorem not_hasHeadingAt (h : Visits lines other number events) (hi : i < number) :
    ¬HasHeadingAt events i := by
  rintro ⟨x, hx, hstart⟩
  have hle : number ≤ x.range.start.line := h.le_start _ hx
  omega

theorem hasHeadingAt_iff (h : Visits lines other number events) (hi : number ≤ i) :
    HasHeadingAt events i ↔ DeclaresTest lines i ∧ ¬IsCovered events i := by
  induction h with
  | stop hend =>
    refine ⟨fun ⟨x, hx, _⟩ => absurd hx List.not_mem_nil, ?_⟩
    rintro ⟨⟨line, hline, _⟩, _⟩
    have hlt := (List.getElem?_eq_some_iff.1 hline).1
    omega
  | @heading other number previous line x rest hline hheading hrest ih =>
    have hstart : x.range.start.line = number := by
      rw [(headingEvent?_spec hheading).1]
      rfl
    rw [hasHeadingAt_cons, isCovered_heading_cons, hstart]
    rcases Nat.eq_or_lt_of_le hi with rfl | hlt
    · have hnot := hrest.not_isCovered (Nat.le_succ number)
      exact iff_of_true (.inl rfl) ⟨declaresTest_of_headingEvent? hline hheading, hnot⟩
    · rw [ih hlt, or_iff_right]
      omega
  | method hline hheading hmethod hrest ih =>
    rcases Nat.eq_or_lt_of_le hi with rfl | hlt
    · apply iff_of_false (hrest.not_hasHeadingAt (Nat.lt_succ_self _))
      exact fun h => not_declaresTest hline hheading h.1
    · exact ih hlt
  | @body other number last line own rest hline hheading hmethod hother hspans hrest ih =>
    rw [hasHeadingAt_append]
    rcases Nat.lt_or_ge last i with hlast | hlast
    · rw [hspans.isCovered_append_iff hlast]
      exact ih hlast
    · apply iff_of_false (hrest.not_hasHeadingAt (Nat.lt_succ_of_le hlast))
      rcases Nat.eq_or_lt_of_le hi with rfl | hlt
      · exact fun h => not_declaresTest hline hheading h.1
      · exact fun h => h.2 (hspans.isCovered_of_le hlt hlast)

end Visits

theorem Heading.ReadFrom.exists_line {h : Heading} (hread : h.ReadFrom lines) :
    ∃ (number : Nat) (line : List Char), lines[number]? = some line ∧
      h.range.start.line = number ∧ heading? line = some h.name.toList := by
  obtain ⟨number, previous, line, hline, hheading⟩ := hread
  obtain ⟨hrange, _⟩ := headingEvent?_spec hheading
  obtain ⟨name, hname, rfl⟩ := Option.map_eq_some_iff.1 hheading
  refine ⟨number, line, hline, rfl, ?_⟩
  rw [hname, String.toList_ofList]

theorem headings_pairwise (text : List Char) :
    (headings (scan text)).Pairwise fun h h' => h.range.start.line ≤ h'.range.start.line := by
  obtain ⟨stop, hlaid⟩ := scan_laid text
  rw [headings, List.pairwise_filterMap]
  apply (List.pairwise_map.1 hlaid.pairwise).imp
  rintro e e' ⟨hlt, hle⟩ h he h' he'
  cases e <;> cases he
  cases e' <;> cases he'
  have hstart : h.range.start < h'.range.start := Position.lt_of_lt_of_le hlt hle
  rw [Position.lt_iff] at hstart
  omega

/-- The first heading with a name stands above the others with this name. -/
theorem le_of_find?_headings {text : List Char} {name : String} {h x : Heading}
    (hfind : (headings (scan text)).find? (fun h => h.name == name) = some h)
    (hx : .heading x ∈ scan text) (hname : x.name = name) :
    h.range.start.line ≤ x.range.start.line := by
  obtain ⟨_, before, after, hsplit, hbefore⟩ := List.find?_eq_some_iff_append.1 hfind
  have hpairs := headings_pairwise text
  rw [hsplit, List.pairwise_append, List.pairwise_cons] at hpairs
  rw [← mem_headings, hsplit, List.mem_append, List.mem_cons] at hx
  rcases hx with hx | rfl | hx
  · have hno := hbefore x hx
    rw [hname, beq_self_eq_true] at hno
    cases hno
  · exact Int.le_refl _
  · exact hpairs.2.1.1 x hx

/-- No test is missed, and the line of its declaration is found under its name: a test is read from
each line that declares one, unless an assertion covers the line, and the first line that declares
the name of a test is that of the first test with this name, unless an assertion covers it. -/
theorem scan_finds_declarations (text : List Char) :
    (∀ i, HasHeadingAt (scan text) i ↔
      DeclaresTest (Text.lines text) i ∧ ¬IsCovered (scan text) i) ∧
      ∀ name h, (headings (scan text)).find? (fun h => h.name == name) = some h →
        ∃ first line : Nat, functionLine? (Text.lines text) name.toList = some first ∧
          h.range.start.line = line ∧ first ≤ line ∧
          (first = line ↔ ¬IsCovered (scan text) first) := by
  have hiff : ∀ i, HasHeadingAt (scan text) i ↔
      DeclaresTest (Text.lines text) i ∧ ¬IsCovered (scan text) i :=
    fun i => (scan_visits text).hasHeadingAt_iff (Nat.zero_le i)
  refine ⟨hiff, ?_⟩
  intro name h hfind
  have hname := List.find?_some hfind
  obtain rfl : h.name = name := beq_iff_eq.1 hname
  have hmem : .heading h ∈ scan text := mem_headings.1 (List.mem_of_find?_eq_some hfind)
  have hread : h.ReadFrom (Text.lines text) := readFrom_of_mem_scan hmem
  obtain ⟨number, line, hline, hnumber, hheading⟩ := hread.exists_line
  obtain ⟨first, l, hfirst, hle, hl, hfound⟩ := exists_functionLine? hline hheading
  refine ⟨first, number, hfirst, hnumber, hle, ?_, ?_⟩
  · rintro rfl
    exact ((hiff first).1 ⟨h, hmem, hnumber⟩).2
  · intro hcovered
    obtain ⟨x, hx, hstart⟩ :=
      (hiff first).2 ⟨⟨l, hl, Option.isSome_iff_exists.2 ⟨_, hfound⟩⟩, hcovered⟩
    -- the heading that is read from the first line has the name, too
    have hxread : x.ReadFrom (Text.lines text) := readFrom_of_mem_scan hx
    obtain ⟨number', l', hl', hnumber', hheading'⟩ := hxread.exists_line
    obtain rfl : number' = first := Int.ofNat.inj (hnumber'.symm.trans hstart)
    rw [hl, Option.some.injEq] at hl'
    rw [← hl', hfound, Option.some.injEq, String.toList_inj] at hheading'
    have hge := le_of_find?_headings hfind hx hheading'.symm
    rw [hnumber, hstart] at hge
    exact Nat.le_antisymm hle (Int.ofNat_le.1 hge)

/-- A test with an assertion that goes on in a line which looks like the next test. -/
def hiddenText : List Char :=
  ("Function test_a()\n" ++
    "\t$t.assert.ok($t; \\\n" ++
    "Function test_b())\n" ++
    "Function test_b()").toList

theorem scan_finds_declarations_hiddenText :
    functionLine? (Text.lines hiddenText) "test_b".toList = some 2 ∧
      IsCovered (scan hiddenText) 2 := by
  have hfind : (headings (scan hiddenText)).find? (fun h => h.name == "test_b") =
      some ⟨.ofPoints 3 0 3 17, "test_b", 1, ["unit"]⟩ := by
    decide +kernel
  have htwo : functionLine? (Text.lines hiddenText) "test_b".toList = some 2 := by
    decide +kernel
  obtain ⟨first, line, hfirst, hline, _, hiff⟩ := (scan_finds_declarations hiddenText).2 _ _ hfind
  obtain rfl : 2 = first := Option.some.inj (htwo.symm.trans hfirst)
  obtain rfl : line = 3 := (Int.ofNat.inj hline).symm
  refine ⟨htwo, ?_⟩
  by_contra hnot
  exact absurd (hiff.2 hnot) (by decide)

end SuiteAtlas.Source
