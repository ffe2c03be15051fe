import SuiteAtlas.Proofs.Source.Pattern
import SuiteAtlas.Source.Numbering

namespace SuiteAtlas.Source

open Text (after? isBlank isWord trim trimEnd trimStart)

variable {name word text rest tail line : List Char}

/-- What follows the keyword of a function: blanks, a name, and an opening parenthesis. -/
def GoesOnWith (name text : List Char) : Prop :=
  ∃ gap space tail, gap ≠ [] ∧ AllBlank gap ∧ AllBlank space ∧
    text = gap ++ (name ++ (space ++ '(' :: tail))

def StartsDeclaration (name text : List Char) : Prop :=
  ∃ rest, text = functionWord ++ rest ∧ GoesOnWith name rest

theorem skipGap?_spec (h : skipGap? text = some rest) :
    ∃ gap, gap ≠ [] ∧ AllBlank gap ∧ text = gap ++ rest := by
  cases text with
  | nil => cases h
  | cons c more =>
    by_cases hc : isBlank c = true
    · rw [skipGap?, if_pos hc, Option.some.injEq] at h
      refine ⟨c :: more.takeWhile isBlank, List.cons_ne_nil _ _, ?_, ?_⟩
      · intro d hd
        rcases List.mem_cons.1 hd with rfl | hd
        · exact hc
        · exact List.mem_takeWhile_imp hd
      · rw [← h, List.cons_append, trimStart, List.takeWhile_append_dropWhile]
    · rw [skipGap?, if_neg hc] at h
      cases h

theorem skipGap?_append {gap : List Char} {c : Char} (hne : gap ≠ []) (hgap : AllBlank gap)
    (hc : isBlank c = false) (rest : List Char) :
    skipGap? (gap ++ c :: rest) = some (c :: rest) := by
  obtain ⟨b, more, rfl⟩ := List.exists_cons_of_ne_nil hne
  have hmore : AllBlank more := fun d hd => hgap d (List.mem_cons_of_mem b hd)
  rw [List.cons_append, skipGap?, if_pos (hgap b List.mem_cons_self), trimStart,
    Text.dropWhile_append_cons hmore hc]

theorem isSome_bind_openCall?_iff : ((after? name text).bind openCall?).isSome = true ↔
    ∃ space tail, AllBlank space ∧ text = name ++ (space ++ '(' :: tail) := by
  simp only [Option.isSome_iff_exists, Option.bind_eq_some_iff, openCall?_eq_some_iff,
    Text.after?_eq_some]
  constructor
  · rintro ⟨tail, rest, rfl, space, hspace, rfl⟩
    exact ⟨space, tail, hspace, rfl⟩
  · rintro ⟨space, tail, hspace, rfl⟩
    exact ⟨tail, _, rfl, space, hspace, rfl⟩

theorem goesOnWith_cons {c : Char} : GoesOnWith name (c :: text) ↔ isBlank c = true ∧
    ((∃ space tail, AllBlank space ∧ text = name ++ (space ++ '(' :: tail)) ∨
      GoesOnWith name text) := by
  constructor
  · rintro ⟨gap, space, tail, hne, hgap, hspace, h⟩
    obtain ⟨b, gap, rfl⟩ := List.exists_cons_of_ne_nil hne
    obtain ⟨rfl, rfl⟩ := List.cons.inj h
    obtain ⟨hb, hgap⟩ := List.forall_mem_cons.1 hgap
    refine ⟨hb, ?_⟩
    cases gap with
    | nil => exact .inl ⟨space, tail, hspace, rfl⟩
    | cons d gap => exact .inr ⟨d :: gap, space, tail, List.cons_ne_nil _ _, hgap, hspace, rfl⟩
  · rintro ⟨hc, ⟨space, tail, hspace, rfl⟩ | ⟨gap, space, tail, _, hgap, hspace, rfl⟩⟩
    · refine ⟨[c], space, tail, List.cons_ne_nil _ _, ?_, hspace, rfl⟩
      exact List.forall_mem_singleton.2 hc
    · refine ⟨c :: gap, space, tail, List.cons_ne_nil _ _, ?_, hspace, rfl⟩
      exact List.forall_mem_cons.2 ⟨hc, hgap⟩

theorem declaresAfterKeyword_iff :
    declaresAfterKeyword name text = true ↔ GoesOnWith name text := by
  induction text with
  | nil =>
    refine ⟨fun h => absurd h Bool.false_ne_true, ?_⟩
    rintro ⟨gap, space, tail, hne, _, _, h⟩
    exact absurd (List.append_eq_nil_iff.1 h.symm).1 hne
  | cons c rest ih =>
    rw [declaresAfterKeyword, Bool.and_eq_true, Bool.or_eq_true, ih, isSome_bind_openCall?_iff,
      goesOnWith_cons]

theorem declares_iff : declares name line = true ↔ StartsDeclaration name (trim line) := by
  rw [declares]
  constructor
  · intro h
    split at h
    next rest hrest =>
      exact ⟨rest, Text.after?_eq_some.1 hrest, declaresAfterKeyword_iff.1 h⟩
    next => cases h
  · rintro ⟨rest, hrest, h⟩
    rw [Text.after?_eq_some.2 hrest]
    exact declaresAfterKeyword_iff.2 h

/-- Blanks at the end of a line do not matter, since a parenthesis stands before them. -/
theorem startsDeclaration_trimEnd :
    StartsDeclaration name (trimEnd text) ↔ StartsDeclaration name text := by
  constructor
  · rintro ⟨rest, htext, gap, space, tail, hne, hgap, hspace, rfl⟩
    have hsplit : trimEnd text ++ Text.takeEndWhile isBlank text = text :=
      Text.dropEndWhile_append_takeEndWhile isBlank text
    generalize Text.takeEndWhile isBlank text = blanks at hsplit
    refine ⟨_, ?_, gap, space, tail ++ blanks, hne, hgap, hspace, rfl⟩
    rw [← hsplit, htext]
    simp only [List.append_assoc, List.cons_append]
  · rintro ⟨rest, rfl, gap, space, tail, hne, hgap, hspace, rfl⟩
    refine ⟨_, ?_, gap, space, trimEnd tail, hne, hgap, hspace, rfl⟩
    have hend : trimEnd (functionWord ++ (gap ++ (name ++ space)) ++ '(' :: tail) =
        functionWord ++ (gap ++ (name ++ space)) ++ '(' :: trimEnd tail :=
      Text.dropEndWhile_append_cons (by decide)
    simpa only [List.append_assoc, trimEnd] using hend

theorem heading?_eq_some_iff (hne : word ≠ []) (hword : ∀ c ∈ word, isWord c = true) :
    heading? line = some (testWord ++ word) ↔
      StartsDeclaration (testWord ++ word) (trimStart line) := by
  constructor
  · intro h
    simp only [heading?, Option.bind_eq_bind, Option.bind_eq_some_iff] at h
    obtain ⟨rest, hfunction, named, hgap, after, htest, tail, hopen, h⟩ := h
    split at h
    next => cases h
    next =>
      have hname : after.takeWhile isWord = word :=
        List.append_cancel_left (Option.some.inj h)
      obtain ⟨gap, hgap⟩ := skipGap?_spec hgap
      obtain ⟨space, hspace, hafter⟩ := openCall?_eq_some_iff.1 hopen
      refine ⟨rest, Text.after?_eq_some.1 hfunction, gap, space, tail, hgap.1, hgap.2.1, hspace, ?_⟩
      rw [hgap.2.2, Text.after?_eq_some.1 htest, List.append_assoc, ← hafter, ← hname,
        List.takeWhile_append_dropWhile]
  · rintro ⟨rest, hline, gap, space, tail, hgap, hblank, hspace, rfl⟩
    have hfunction : after? functionWord (trimStart line) = some _ := Text.after?_eq_some.2 hline
    have hskip : skipGap? (gap ++ (testWord ++ word ++ (space ++ '(' :: tail))) =
        some (testWord ++ word ++ (space ++ '(' :: tail)) :=
      skipGap?_append hgap hblank (by decide) _
    have htest : after? testWord (testWord ++ word ++ (space ++ '(' :: tail)) =
        some (word ++ (space ++ '(' :: tail)) :=
      Text.after?_eq_some.2 (List.append_assoc ..)
    obtain ⟨c, more, hmore, hchain, _⟩ := hspace.exists_cons tail
    have hc : isWord c = false := (Bool.or_eq_false_iff.1 hchain).1
    have hopen : openCall? (c :: more) = some tail :=
      openCall?_eq_some_iff.2 ⟨space, hspace, hmore.symm⟩
    have hempty : word.isEmpty = false := List.isEmpty_eq_false_iff.2 hne
    rw [hmore] at hfunction hskip htest
    simp only [heading?, Option.bind_eq_bind, hfunction, hskip, htest, Option.bind_some,
      Text.takeWhile_append_cons hword hc, Text.dropWhile_append_cons hword hc, hopen, hempty,
      Bool.false_eq_true, if_false]

theorem declares_testWord_iff (hne : word ≠ []) (hword : ∀ c ∈ word, isWord c = true) :
    declares (testWord ++ word) line = true ↔ heading? line = some (testWord ++ word) := by
  rw [declares_iff, trim, startsDeclaration_trimEnd, heading?_eq_some_iff hne hword]

theorem functionLine?_eq_findIdx? {lines : List (List Char)} (hname : heading? line = some name) :
    functionLine? lines name = lines.findIdx? fun l => heading? l == some name := by
  obtain ⟨word, rfl, hne, hword⟩ := heading?_spec hname
  have hunqualified : unqualified (testWord ++ word) = testWord ++ word := by
    have hdot : ∀ c ∈ (testWord ++ word).reverse, (c != '.') = true := by
      intro c hc
      rw [List.mem_reverse, List.mem_append] at hc
      rcases hc with hc | hc
      · exact List.all_eq_true.1 (show testWord.all (· != '.') = true by decide) c hc
      · rw [bne_iff_ne]
        rintro rfl
        exact absurd (hword '.' hc) (by decide)
    rw [unqualified, Text.takeEndWhile, List.takeWhile_eq_self_iff.2 hdot, List.reverse_reverse]
  rw [functionLine?, hunqualified]
  congr 1
  funext l
  rw [Bool.eq_iff_iff, declares_testWord_iff hne hword, beq_iff_eq]

/-- A test is looked up on a line from which its name is read, and on the first such line. -/
theorem exists_functionLine? {lines : List (List Char)} {number : Nat}
    (hline : lines[number]? = some line) (hname : heading? line = some name) :
    ∃ first l, functionLine? lines name = some first ∧ first ≤ number ∧
      lines[first]? = some l ∧ heading? l = some name := by
  obtain ⟨hlt, rfl⟩ := List.getElem?_eq_some_iff.1 hline
  obtain ⟨first, hfirst⟩ : ∃ first, lines.findIdx? (fun l => heading? l == some name) =
      some first := by
    rw [← Option.isSome_iff_exists, List.findIdx?_isSome, List.any_eq_true]
    exact ⟨lines[number], List.getElem_mem hlt, beq_iff_eq.2 hname⟩
  obtain ⟨hfirstlt, hread, hleast⟩ := List.findIdx?_eq_some_iff_getElem.1 hfirst
  refine ⟨first, lines[first], (functionLine?_eq_findIdx? hname).trans hfirst, ?_,
    List.getElem?_eq_getElem hfirstlt, beq_iff_eq.1 hread⟩
  by_contra hgt
  exact hleast number (Nat.lt_of_not_le hgt) (beq_iff_eq.2 hname)

end SuiteAtlas.Source
