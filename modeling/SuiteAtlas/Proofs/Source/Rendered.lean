import SuiteAtlas.Proofs.Source.Order
import SuiteAtlas.Proofs.Source.Quoting
import SuiteAtlas.Proofs.Source.Tags

namespace SuiteAtlas.Source

open Text (after? isWord trimStart)

theorem callHere?_receiver {operator : List Char} (hne : operator ≠ [])
    (hword : ∀ c ∈ operator, isWord c = true) (rest : List Char) :
    callHere? ('$' :: 't' :: '.' :: (assertWord ++ '.' :: (operator ++ '(' :: rest))) =
      some (operator, rest) := by
  have hchain : ∀ c ∈ operator, isChainChar c = true := by
    intro c hc
    rw [isChainChar, hword c hc, Bool.true_or]
  have hname : ∀ c ∈ ['$', 't'], isChainChar c = true := List.all_eq_true.1 (by decide)
  have hassertWord : ∀ c ∈ assertWord, isChainChar c = true := List.all_eq_true.1 (by decide)
  have hlast : callHere? (operator ++ '(' :: rest) = none :=
    callHere?_eq_none hchain (by decide) (by decide) rest
  have hassert : callHere? (assertWord ++ '.' :: (operator ++ '(' :: rest)) =
      some (operator, rest) := by
    rw [callHere?_dot (by decide) hassertWord, hlast, if_pos rfl, operator?_append hne hword]
    rfl
  change callHere? (['$', 't'] ++ '.' :: (assertWord ++ '.' :: (operator ++ '(' :: rest))) = _
  rw [callHere?_dot (by decide) hname, hassert, Option.some_or]

namespace WrittenAssertion

variable {a : WrittenAssertion}

def argumentList (a : WrittenAssertion) : List Char :=
  "; ".toList.intercalate a.arguments ++ [')']

def statement (a : WrittenAssertion) : List Char :=
  '$' :: 't' :: '.' :: (assertWord ++ '.' :: (a.operator ++ '(' :: a.argumentList))

def call (a : WrittenAssertion) : Call :=
  ⟨1, a.statement.length - a.argumentList.length, a.operator⟩

theorem line_eq (a : WrittenAssertion) : a.line = '\t' :: a.statement := by
  have hreceiver : receiver = '\t' :: '$' :: 't' :: '.' :: (assertWord ++ ['.']) := by decide
  simp only [line, statement, argumentList, hreceiver, List.append_assoc, List.cons_append,
    List.nil_append]

theorem drop_statement (a : WrittenAssertion) : a.statement.drop a.call.head = a.argumentList := by
  have hsuffix : a.argumentList <:+ a.statement :=
    ⟨'$' :: 't' :: '.' :: (assertWord ++ '.' :: (a.operator ++ ['('])), by
      simp only [statement, List.append_assoc, List.cons_append, List.nil_append]⟩
  exact (List.suffix_iff_eq_drop.1 hsuffix).symm

theorem goesOn_statement (a : WrittenAssertion) : Text.goesOn a.statement = false := by
  have hclose : a.statement = '$' :: 't' :: '.' :: (assertWord ++ '.' :: (a.operator ++ '(' ::
      "; ".toList.intercalate a.arguments)) ++ ')' :: [] := by
    simp only [statement, argumentList, List.append_assoc, List.cons_append]
  rw [hclose, Text.goesOn_append_cons (by decide) (by decide)]
  decide

theorem findCall?_line (h : a.IsProper) : findCall? none a.line = some a.call := by
  have htab : callHere? ('\t' :: a.statement) = none :=
    callHere?_eq_none (List.forall_mem_nil _) (by decide) (by decide) a.statement
  have hcall := callHere?_receiver h.operator_ne_nil h.isWord_of_mem_operator a.argumentList
  have hstatement : findCall? (some '\t') a.statement =
      some ⟨0, a.statement.length - a.argumentList.length, a.operator⟩ := by
    rw [statement, findCall?, if_pos (by decide), hcall]
  rw [line_eq, findCall?, if_pos (by decide), htab, hstatement]
  rfl

end WrittenAssertion

namespace Cursor

variable {a : WrittenAssertion}

theorem readCall?_line (h : a.IsProper) (number : Nat) (more : List (List Char)) :
    ∃ x, (ofLine number a.line more).readCall? a.call =
      some (x, ⟨number, a.line.length, a.line, more⟩) ∧ (Event.assertion x).said = a.said := by
  have hrest : (ofLine number a.line more).rest.drop a.call.offset = a.statement := by
    rw [WrittenAssertion.line_eq]
    rfl
  have hpieces := statementPieces_of_ends a.goesOn_statement more
  have hclosed : closeList a.argumentList = some ⟨a.harness,
      [' ' :: a.actual, ' ' :: a.expected, ' ' :: quoteMessage a.message], []⟩ :=
    WrittenAssertion.closeList_arguments h
  refine ⟨⟨.ofPoints number 1 number a.line.length, String.ofList a.actual,
    String.ofList a.operator, String.ofList a.expected, String.ofList a.message⟩, ?_, rfl⟩
  have hstop : (ofLine number a.line more).down 0
      ((ofLine number a.line more).column + a.call.offset + a.statement.length) =
      ⟨number, a.line.length, a.line, more⟩ := by
    rw [down, WrittenAssertion.line_eq, List.length_cons, Nat.add_comm a.statement.length]
    rfl
  have hexpectation : Expectation.ofArguments (Closed.arguments ⟨a.harness,
      [' ' :: a.actual, ' ' :: a.expected, ' ' :: quoteMessage a.message], []⟩) =
      ⟨a.actual, a.expected, a.message⟩ :=
    WrittenAssertion.ofArguments_eq h
  rw [readCall?, hrest, show (ofLine number a.line more).more = more from rfl, hpieces,
    List.flatten_singleton, WrittenAssertion.drop_statement, hclosed, Option.map_some]
  simp only [List.length_nil, Nat.sub_zero, locate, if_true, hstop, hexpectation]
  rfl

theorem assertions_line (h : a.IsProper) (number : Nat) (more : List (List Char)) :
    ∃ x, (ofLine number a.line more).assertions ((ofLine number a.line more).size + 1) =
      ([x], ⟨number, a.line.length, a.line, more⟩) ∧ (Event.assertion x).said = a.said := by
  obtain ⟨x, hread, hsaid⟩ := readCall?_line h number more
  have hcall : (ofLine number a.line more).nextCall? = some a.call :=
    WrittenAssertion.findCall?_line h
  have hend : nextCall? ⟨number, a.line.length, a.line, more⟩ = none := by
    rw [nextCall?, rest, List.drop_length]
    rfl
  obtain ⟨fuel, hfuel⟩ : ∃ fuel, (ofLine number a.line more).size = fuel + 1 := by
    refine Nat.exists_eq_add_one.2 (Nat.add_pos_left (Nat.add_pos_left ?_ _) _)
    rw [WrittenAssertion.line_eq]
    exact Nat.succ_pos _
  refine ⟨x, ?_, hsaid⟩
  rw [assertions, hcall]
  simp only [hread]
  rw [hfuel, assertions, hend]

end Cursor

/-- What is read from rows of a class, whatever stands around them, unless a method that is no
test begins above them. -/
def Says (rows : List (List Char)) (said : List Said) : Prop :=
  ∀ number previous fuel more, ∃ number' previous',
    (scanLines false number previous (rows.length + fuel) (rows ++ more)).map Event.said =
      said ++ (scanLines false number' previous' fuel more).map Event.said

namespace Says

theorem nil : Says [] [] := by
  intro number previous fuel more
  refine ⟨number, previous, ?_⟩
  rw [List.length_nil, Nat.zero_add]
  rfl

theorem append {rows others : List (List Char)} {said further : List Said} (h : Says rows said)
    (h' : Says others further) : Says (rows ++ others) (said ++ further) := by
  intro number previous fuel more
  obtain ⟨middle, above, hrows⟩ := h number previous (others.length + fuel) (others ++ more)
  obtain ⟨last, above', hothers⟩ := h' middle above fuel more
  refine ⟨last, above', ?_⟩
  rw [List.length_append, Nat.add_assoc, List.append_assoc, hrows, hothers, List.append_assoc]

theorem flatMap {α : Type} {items : List α} {rows : α → List (List Char)} {said : α → List Said}
    (h : ∀ x ∈ items, Says (rows x) (said x)) : Says (items.flatMap rows) (items.flatMap said) := by
  induction items with
  | nil => exact nil
  | cons x items ih =>
    exact (h x List.mem_cons_self).append (ih fun y hy => h y (List.mem_cons_of_mem _ hy))

end Says

theorem says_line {a : WrittenAssertion} (h : a.IsProper) : Says [a.line] [a.said] := by
  intro number previous fuel more
  have hheading : headingEvent? number previous a.line = none := by
    rw [WrittenAssertion.line_eq]
    rfl
  have hmethod : isMethod a.line = false := by
    rw [WrittenAssertion.line_eq]
    exact isMethod_eq_false rfl
  have hcomment : isComment a.line = false := by
    rw [WrittenAssertion.line_eq]
    rfl
  obtain ⟨x, hassertions, hsaid⟩ := Cursor.assertions_line h number more
  refine ⟨number + 1, a.line, ?_⟩
  rw [List.length_singleton, Nat.add_comm, List.singleton_append, scanLines, hheading]
  simp only [hmethod, hcomment, Bool.or_self, Bool.false_eq_true, if_false, hassertions,
    List.map_cons, List.map_nil, hsaid, List.map_append]

section Test

variable {t : WrittenTest}

theorem tagPayload?_tagLine (t : WrittenTest) : tagPayload? t.tagLine = some t.payload := by
  have hline : t.tagLine = '/' :: ("/ #tags:".toList ++ t.payload) := rfl
  have hhere : tagPayloadHere? t.tagLine = some t.payload := rfl
  rw [hline, tagPayload?, ← hline, hhere, Option.some_or]

theorem tagsOf_payload (h : t.IsProper) : tagsOf (some t.payload) = t.tags.map String.ofList := by
  have hlisted : listedTags t.payload = t.tags.map String.ofList :=
    listedTags_intercalate h.tags_ne_nil h.nodup_tags fun tag hmem =>
      ⟨(h.isTag_of_mem tag hmem).1, (h.isTag_of_mem tag hmem).2.1, (h.isTag_of_mem tag hmem).2.2.1⟩
  rw [tagsOf, Option.map_some, hlisted]
  cases htags : t.tags with
  | nil => exact absurd htags h.tags_ne_nil
  | cons tag tags => rfl

theorem heading?_declaration (h : t.IsProper) :
    heading? t.declaration = some (testWord ++ t.name) := by
  have hfunction : after? functionWord (trimStart t.declaration) =
      some (' ' :: (testWord ++ (t.name ++ '(' :: "$t : Object)".toList))) :=
    Text.after?_eq_some.2 rfl
  have hopen : isWord '(' = false := by decide
  have hempty : t.name.isEmpty = false := List.isEmpty_eq_false_iff.2 h.name_ne_nil
  have htest : after? testWord (testWord ++ (t.name ++ '(' :: "$t : Object)".toList)) =
      some (t.name ++ '(' :: "$t : Object)".toList) :=
    Text.after?_eq_some.2 rfl
  have hgap : skipGap? (' ' :: (testWord ++ (t.name ++ '(' :: "$t : Object)".toList))) =
      some (testWord ++ (t.name ++ '(' :: "$t : Object)".toList)) := rfl
  simp only [heading?, Option.bind_eq_bind, hfunction, hgap, htest, Option.bind_some,
    Text.takeWhile_append_cons h.isWord_of_mem_name hopen,
    Text.dropWhile_append_cons h.isWord_of_mem_name hopen, openCall?_cons, hempty,
    Bool.false_eq_true, if_false]

/-- The comment says nothing by itself; the declaration below it says the heading. -/
theorem says_declaration (h : t.IsProper) :
    Says [t.tagLine, t.declaration]
      [.heading ("test_" ++ String.ofList t.name) (1 + t.payload.count ':')
        (t.tags.map String.ofList)] := by
  intro number previous fuel more
  have hnone : headingEvent? number previous t.tagLine = none := rfl
  have hmethod : isMethod t.tagLine = false := isMethod_eq_false rfl
  have hcomment : isComment t.tagLine = true := rfl
  have hheading : headingEvent? (number + 1) t.tagLine t.declaration =
      some ⟨.ofPoints (number + 1) 0 (number + 1) t.declaration.length,
        String.ofList (testWord ++ t.name), tagDepth (some t.payload),
        t.tags.map String.ofList⟩ := by
    rw [headingEvent?, heading?_declaration h, tagPayload?_tagLine, ← tagsOf_payload h]
    rfl
  have hname : "test_" ++ String.ofList t.name = String.ofList (testWord ++ t.name) := by
    rw [String.ofList_append]
    rfl
  refine ⟨number + 1 + 1, t.declaration, ?_⟩
  change (scanLines false number previous (1 + 1 + fuel) (t.tagLine :: t.declaration :: more)).map
    Event.said = _
  rw [Nat.add_comm (1 + 1), scanLines, hnone]
  simp only [hmethod, hcomment, Bool.or_true, Bool.false_eq_true, if_false, if_true]
  rw [scanLines, hheading, hname]
  rfl

theorem says_lines (h : t.IsProper) : Says t.lines t.said := by
  have hassertions : Says (t.assertions.flatMap fun a => [a.line])
      (t.assertions.flatMap fun a => [a.said]) :=
    .flatMap fun a ha => says_line (h.isProper_of_mem a ha)
  rw [← List.map_eq_flatMap, ← List.map_eq_flatMap] at hassertions
  exact (says_declaration h).append hassertions

end Test

section Lines

open Text (IsLine)

theorem lineFeed_notMem_quoteMessage {message : List Char} (h : '\n' ∉ message) :
    '\n' ∉ quoteMessage message := by
  have hescaped : '\n' ∉ escaped message := by
    intro hmem
    obtain ⟨c, hc, hfeed⟩ := List.mem_flatMap.1 hmem
    have hne : '\n' ≠ c := by
      rintro rfl
      exact h hc
    split at hfeed
    · rcases List.mem_cons.1 hfeed with hmark | hfeed
      · exact absurd hmark (by decide)
      · exact hne (List.mem_singleton.1 hfeed)
    · exact hne (List.mem_singleton.1 hfeed)
  rw [quoteMessage_eq, List.mem_append, List.mem_cons, List.mem_singleton]
  rintro ((hmark | hmem) | hmark)
  · exact absurd hmark (by decide)
  · exact hescaped hmem
  · exact absurd hmark (by decide)

namespace WrittenAssertion

variable {a : WrittenAssertion}

theorem lineFeed_notMem_arguments (h : a.IsProper) : ∀ x ∈ a.arguments, '\n' ∉ x := by
  intro x hx
  rw [arguments, List.mem_cons, List.mem_cons, List.mem_cons, List.mem_singleton] at hx
  rcases hx with rfl | rfl | rfl | rfl
  · exact (h.isExpression _ (by simp)).2.2.1
  · exact (h.isExpression _ (by simp)).2.2.1
  · exact (h.isExpression _ (by simp)).2.2.1
  · exact lineFeed_notMem_quoteMessage h.lineFeed_notMem_message

theorem isLine_line (h : a.IsProper) : IsLine a.line := by
  constructor
  · rw [line, List.mem_append, List.mem_append, List.mem_append, List.mem_cons, List.mem_singleton]
    rintro (((hreceiver | hoperator) | hopen | harguments) | hclose)
    · exact absurd hreceiver (by decide)
    · exact absurd (Text.isBlank_of_isWord (h.isWord_of_mem_operator _ hoperator)) (by decide)
    · exact absurd hopen (by decide)
    · rcases Text.mem_intercalate harguments with hsep | ⟨x, hx, hfeed⟩
      · exact absurd hsep (by decide)
      · exact lineFeed_notMem_arguments h x hx hfeed
    · exact absurd hclose (by decide)
  · rw [line, List.getLast?_append, List.getLast?_singleton, Option.some_or]
    decide

end WrittenAssertion

namespace WrittenTest

variable {t : WrittenTest}

theorem isLine_tagLine (h : t.IsProper) : IsLine t.tagLine := by
  unfold tagLine payload
  constructor
  · rw [List.mem_append, List.mem_cons]
    rintro (hmark | hblank | htags)
    · exact absurd hmark (by decide)
    · exact absurd hblank (by decide)
    · rcases Text.mem_intercalate htags with hsep | ⟨tag, htag, hfeed⟩
      · exact absurd hsep (by decide)
      · exact (h.isTag_of_mem tag htag).2.2.2 hfeed
  · obtain ⟨tag, htag, he⟩ := Text.getLast?_intercalate ", ".toList h.tags_ne_nil
      fun tag htag => (h.isTag_of_mem tag htag).1
    obtain ⟨hne, htrim, -⟩ := h.isTag_of_mem tag htag
    have hlast := List.getLast?_eq_some_getLast hne
    rw [List.getLast?_append, List.getLast?_cons, he, hlast, Option.getD_some, Option.some_or,
      ← hlast, ← htrim]
    intro hreturn
    exact absurd (Text.isBlank_of_getLast?_trim hreturn) (by decide)

theorem isLine_declaration (h : t.IsProper) : IsLine t.declaration := by
  unfold declaration
  constructor
  · rw [List.mem_append, List.mem_append]
    rintro ((hfunction | hname) | hparameter)
    · exact absurd hfunction (by decide)
    · exact absurd (Text.isBlank_of_isWord (h.isWord_of_mem_name _ hname)) (by decide)
    · exact absurd hparameter (by decide)
  · have hlast : "($t : Object)".toList.getLast? = some ')' := by decide
    rw [List.getLast?_append, hlast, Option.some_or]
    decide

theorem isLine_of_mem_lines (h : t.IsProper) : ∀ row ∈ t.lines, IsLine row := by
  intro row hrow
  rw [lines, List.mem_cons, List.mem_cons, List.mem_map] at hrow
  rcases hrow with rfl | rfl | ⟨a, ha, rfl⟩
  · exact isLine_tagLine h
  · exact isLine_declaration h
  · exact WrittenAssertion.isLine_line (h.isProper_of_mem a ha)

end WrittenTest

end Lines

/-- What is written is read: the text of a class says its tests, each with its assertions, in their
order. -/
theorem said_scan_render {tests : List WrittenTest} (h : ∀ t ∈ tests, t.IsProper) :
    (scan (WrittenTest.render tests)).map Event.said = tests.flatMap WrittenTest.said := by
  have hlines : Text.lines (WrittenTest.render tests) =
      tests.flatMap WrittenTest.lines ++ [[]] := by
    refine Text.lines_flatMap fun row hrow => ?_
    obtain ⟨t, ht, hmem⟩ := List.mem_flatMap.1 hrow
    exact WrittenTest.isLine_of_mem_lines (h t ht) row hmem
  have hsays : Says (tests.flatMap WrittenTest.lines) (tests.flatMap WrittenTest.said) :=
    .flatMap fun t ht => says_lines (h t ht)
  have hend : ∀ number previous, scanLines false number previous 1 [[]] = [] := by
    intro number previous
    have hmethod : isMethod [] = false := isMethod_eq_false rfl
    rw [scanLines, show headingEvent? number previous [] = none from rfl]
    simp only [hmethod, Bool.false_eq_true, if_false]
    rfl
  obtain ⟨number, previous, hscan⟩ := hsays 0 [] 1 [[]]
  rw [hend, List.map_nil, List.append_nil] at hscan
  rw [scan, hlines, List.length_append, List.length_singleton]
  exact hscan

/-- Two tests; a message and an argument of the first look like source themselves. -/
def quotedTests : List WrittenTest :=
  [{ name := "sum".toList
     tags := ["ui:slow".toList, "unit".toList]
     assertions :=
       [{ operator := "equal".toList
          harness := "$t".toList
          actual := "f([1; 2]; \"a;)\")".toList
          expected := "\"// #tags: x\"".toList
          message := "say \"\\\"; $t.assert.fail(".toList }] },
    { name := "none".toList
      tags := ["unit".toList]
      assertions := [] }]

theorem said_scan_render_quotedTests :
    (∀ t ∈ quotedTests, t.IsProper) ∧
      (scan (WrittenTest.render quotedTests)).map Event.said =
        [.heading "test_sum" 2 ["ui:slow", "unit"],
          .assertion "equal" "f([1; 2]; \"a;)\")" "\"// #tags: x\"" "say \"\\\"; $t.assert.fail(",
          .heading "test_none" 1 ["unit"]] := by
  have hproper : ∀ t ∈ quotedTests, t.IsProper := by decide +kernel
  exact ⟨hproper, (said_scan_render hproper).trans (by decide +kernel)⟩

end SuiteAtlas.Source
