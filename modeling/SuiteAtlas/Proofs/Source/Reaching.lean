import SuiteAtlas.Proofs.Source.Order

namespace SuiteAtlas.Source

variable {lines : List (List Char)} {line previous : List Char} {more : List (List Char)}
  {events : List Event} {c next : Cursor} {call : Call} {a : Assertion} {other after : Bool}
  {number column fuel : Nat}

/-- Whether the next line is in a method that is no test, if a line is not searched for
assertions. -/
def stepOver? (other : Bool) (line : List Char) : Option Bool :=
  if (heading? line).isSome then some false
  else if isMethod line then some true
  else if other || isComment line then some other
  else none

/-- What a scan is about to do: to look at a line, or to look for an assertion from a place of a
line on. -/
inductive Stage
  | line (other : Bool) (number : Nat)
  | place (number column : Nat)

def Cursor.inLines (lines : List (List Char)) (number column : Nat) : Cursor :=
  ⟨number, column, lines[number]?.getD [], lines.drop (number + 1)⟩

inductive Reaches (lines : List (List Char)) : Stage → Prop
  | start : Reaches lines (.line false 0)
  | pass {other after : Bool} {number : Nat} {line : List Char}
      (hfrom : Reaches lines (.line other number)) (hline : lines[number]? = some line)
      (hover : stepOver? other line = some after) : Reaches lines (.line after (number + 1))
  | enter {other : Bool} {number : Nat} {line : List Char}
      (hfrom : Reaches lines (.line other number)) (hline : lines[number]? = some line)
      (henter : stepOver? other line = none) : Reaches lines (.place number 0)
  | skip {number column : Nat} {call : Call} (hfrom : Reaches lines (.place number column))
      (hcall : (Cursor.inLines lines number column).nextCall? = some call)
      (hread : (Cursor.inLines lines number column).readCall? call = none) :
      Reaches lines (.place number (column + call.offset + call.head))
  | read {number column : Nat} {call : Call} {a : Assertion} {next : Cursor}
      (hfrom : Reaches lines (.place number column))
      (hcall : (Cursor.inLines lines number column).nextCall? = some call)
      (hread : (Cursor.inLines lines number column).readCall? call = some (a, next)) :
      Reaches lines (.place next.line next.column)
  | leave {number column : Nat} (hfrom : Reaches lines (.place number column))
      (hcall : (Cursor.inLines lines number column).nextCall? = none) :
      Reaches lines (.line false (number + 1))

/-- An assertion is read at a place to which the scan of lines comes. -/
def Assertion.IsReached (lines : List (List Char)) (a : Assertion) : Prop :=
  ∃ number column call next, Reaches lines (.place number column) ∧
    (Cursor.inLines lines number column).nextCall? = some call ∧
    (Cursor.inLines lines number column).readCall? call = some (a, next)

theorem eq_false_of_stepOver? (h : stepOver? other line = none) : other = false := by
  cases other with
  | false => rfl
  | true =>
    rw [stepOver?] at h
    split at h
    next => cases h
    next =>
      split at h
      next => cases h
      next => cases h

theorem scanLines_over (hover : stepOver? other line = some after) (number : Nat)
    (previous : List Char) (fuel : Nat) (more : List (List Char)) :
    ∃ own, (∀ a, .assertion a ∉ own) ∧
      scanLines other number previous (fuel + 1) (line :: more) =
        own ++ scanLines after (number + 1) line fuel more := by
  rw [stepOver?] at hover
  rw [scanLines, headingEvent?]
  cases hheading : heading? line with
  | some name =>
    rw [hheading] at hover
    obtain rfl : false = after := Option.some.inj hover
    exact ⟨[.heading _], fun a => by simp, rfl⟩
  | none =>
    rw [hheading, if_neg (by simp)] at hover
    refine ⟨[], fun a => List.not_mem_nil, ?_⟩
    rw [List.nil_append, Option.map_none]
    by_cases hmethod : isMethod line = true
    · rw [if_pos hmethod, Option.some.injEq] at hover
      rw [if_pos hmethod, hover]
    · rw [if_neg hmethod] at hover
      rw [if_neg hmethod]
      by_cases hother : (other || isComment line) = true
      · rw [if_pos hother, Option.some.injEq] at hover
        rw [if_pos hother, hover]
      · rw [if_neg hother] at hover
        cases hover

theorem scanLines_enter (henter : stepOver? other line = none) (number : Nat)
    (previous : List Char) (fuel : Nat) (more : List (List Char)) :
    let start := Cursor.ofLine number line more
    let last := (start.assertions (start.size + 1)).2
    scanLines other number previous (fuel + 1) (line :: more) =
      (start.assertions (start.size + 1)).1.map .assertion ++
        scanLines false (last.line + 1) last.current fuel last.more := by
  have hfalse := eq_false_of_stepOver? henter
  rw [stepOver?] at henter
  rw [scanLines, headingEvent?]
  cases hheading : heading? line with
  | some name =>
    rw [hheading] at henter
    cases henter
  | none =>
    rw [hheading, if_neg (by simp)] at henter
    rw [Option.map_none]
    by_cases hmethod : isMethod line = true
    · rw [if_pos hmethod] at henter
      cases henter
    · rw [if_neg hmethod] at henter ⊢
      by_cases hother : (other || isComment line) = true
      · rw [if_pos hother] at henter
        cases henter
      · rw [if_neg hother, hfalse]

namespace Cursor

theorem assertions_none (hcall : c.nextCall? = none) (fuel : Nat) :
    c.assertions fuel = ([], c) := by
  cases fuel with
  | zero => rfl
  | succ fuel => rw [assertions, hcall]

theorem assertions_skip (hcall : c.nextCall? = some call) (hread : c.readCall? call = none)
    (fuel : Nat) : c.assertions (fuel + 1) = (c.skipCall call).assertions fuel := by
  rw [assertions, hcall]
  simp only [hread]

theorem assertions_read (hcall : c.nextCall? = some call)
    (hread : c.readCall? call = some (a, next)) (fuel : Nat) :
    c.assertions (fuel + 1) = (a :: (next.assertions fuel).1, (next.assertions fuel).2) := by
  rw [assertions, hcall]
  simp only [hread]

theorem isAt_inLines (h : number < lines.length) (column : Nat) :
    (inLines lines number column).IsAt lines := by
  change lines.drop number = lines[number]?.getD [] :: lines.drop (number + 1)
  rw [List.getElem?_eq_getElem h, Option.getD_some]
  exact List.drop_eq_getElem_cons h

theorem IsAt.lt_length (h : c.IsAt lines) : c.line < lines.length := by
  by_contra hge
  rw [IsAt, List.drop_eq_nil_iff.2 (Nat.not_lt.1 hge)] at h
  cases h

theorem IsAt.eq_inLines (h : c.IsAt lines) : c = inLines lines c.line c.column := by
  obtain ⟨number, column, current, more⟩ := c
  have hcurrent := getElem?_of_drop h
  have hmore := drop_succ h
  rw [inLines, hcurrent, hmore]
  rfl

theorem IsAt.of_readCall? (h : c.IsAt lines) (hread : c.readCall? call = some (a, next)) :
    next.IsAt lines := by
  obtain ⟨i, column, hi, rfl, _⟩ := readCall?_spec hread
  exact h.down hi column

theorem size_skipCall_lt (hcall : c.nextCall? = some call) :
    (c.skipCall call).size < c.size := by
  obtain ⟨d, head, tail, hdrop, _, hhead, _⟩ := nextCall?_spec hcall
  have hlength := congrArg List.length hdrop
  rw [List.length_drop, List.length_cons] at hlength
  simp only [size, rest, skipCall, List.length_drop]
  omega

theorem size_lt_of_readCall? (hcall : c.nextCall? = some call)
    (hread : c.readCall? call = some (a, next)) : next.size < c.size := by
  have hoffset := offset_lt hcall
  obtain ⟨i, column, hi, rfl, _, hfirst, _⟩ := readCall?_spec hread
  cases i with
  | zero =>
    have hcolumn := hfirst rfl
    simp only [size, rest, down, List.length_drop]
    omega
  | succ i =>
    have hflatten := congrArg (fun rows => rows.flatten.length) (List.take_append_drop i c.more)
    simp only [List.drop_eq_getElem_cons hi, List.flatten_append, List.flatten_cons,
      List.length_append] at hflatten
    simp only [size, rest, down, List.length_drop, List.getElem?_eq_getElem hi, Option.getD_some]
    omega

theorem line_le_of_readCall? (hread : c.readCall? call = some (a, next)) : c.line ≤ next.line := by
  obtain ⟨i, column, _, rfl, _⟩ := readCall?_spec hread
  rw [down_line]
  exact Nat.le_add_right c.line i

/-- The assertions from a place that is reached are read at places that are reached; where the last
of them ends, none follows. -/
theorem assertions_reached (hc : c.IsAt lines) (hreaches : Reaches lines (.place c.line c.column))
    (hfuel : c.size < fuel) :
    (∀ a ∈ (c.assertions fuel).1, a.IsReached lines) ∧ (c.assertions fuel).2.IsAt lines ∧
      c.line ≤ (c.assertions fuel).2.line ∧
      Reaches lines (.line false ((c.assertions fuel).2.line + 1)) := by
  fun_induction Cursor.assertions c fuel with
  | case1 c => exact absurd hfuel (Nat.not_lt_zero _)
  | case2 c fuel hnone =>
    rw [hc.eq_inLines] at hnone
    exact ⟨fun a ha => absurd ha List.not_mem_nil, hc, Nat.le_refl _, .leave hreaches hnone⟩
  | case3 c fuel call hcall hread ih =>
    have hlt := size_skipCall_lt hcall
    have hat : (c.skipCall call).IsAt lines := hc
    rw [hc.eq_inLines] at hcall hread
    exact ih hat (.skip hreaches hcall hread) (by omega)
  | case4 c fuel call hcall a next hread rest last hrest ih =>
    have hlt := size_lt_of_readCall? hcall hread
    have hle := line_le_of_readCall? hread
    have hat := hc.of_readCall? hread
    rw [hc.eq_inLines] at hcall hread
    rw [hrest] at ih
    obtain ⟨hrest, hlast, hline, hafter⟩ := ih hat (.read hreaches hcall hread) (by omega)
    refine ⟨List.forall_mem_cons.2 ⟨?_, hrest⟩, hlast, Nat.le_trans hle hline, hafter⟩
    exact ⟨_, _, call, next, hreaches, hcall, hread⟩

end Cursor

theorem isReached_of_mem_scanLines (hreaches : Reaches lines (.line other number))
    (hfuel : lines.length ≤ number + fuel)
    (ha : .assertion a ∈ scanLines other number previous fuel (lines.drop number)) :
    a.IsReached lines := by
  induction fuel generalizing other number previous with
  | zero => exact absurd ha List.not_mem_nil
  | succ fuel ih =>
    cases hmore : lines.drop number with
    | nil =>
      rw [hmore] at ha
      exact absurd ha List.not_mem_nil
    | cons line more =>
      rw [hmore] at ha
      have hline := getElem?_of_drop hmore
      cases hstep : stepOver? other line with
      | some after =>
        obtain ⟨own, hown, he⟩ := scanLines_over hstep number previous fuel more
        rw [he, List.mem_append, or_iff_right (hown a), ← drop_succ hmore] at ha
        exact ih (.pass hreaches hline hstep) (by omega) ha
      | none =>
        have hat : (Cursor.ofLine number line more).IsAt lines := hmore
        obtain ⟨hown, hlast, hle, hafter⟩ := Cursor.assertions_reached hat
          (.enter hreaches hline hstep) (Nat.lt_succ_self _)
        rw [scanLines_enter hstep, List.mem_append, ← drop_succ hlast] at ha
        rcases ha with ha | ha
        · obtain ⟨b, hb, he⟩ := List.mem_map.1 ha
          cases he
          exact hown a hb
        · have hle : number ≤ _ := hle
          exact ih hafter (by omega) ha

def ContinuesAt (lines : List (List Char)) (events : List Event) (other : Bool) (number : Nat) :
    Prop :=
  ∃ previous fuel, lines.length ≤ number + fuel ∧
    ∀ e ∈ scanLines other number previous fuel (lines.drop number), e ∈ events

def Stage.Continues (lines : List (List Char)) (events : List Event) : Stage → Prop
  | .line other number => ContinuesAt lines events other number
  | .place number column => number < lines.length ∧
      ∃ fuel, (Cursor.inLines lines number column).size < fuel ∧
        (∀ a ∈ ((Cursor.inLines lines number column).assertions fuel).1, .assertion a ∈ events) ∧
        ContinuesAt lines events false
          (((Cursor.inLines lines number column).assertions fuel).2.line + 1)

theorem Reaches.continues {stage : Stage} (h : Reaches lines stage) :
    stage.Continues lines (scanLines false 0 [] lines.length lines) := by
  induction h with
  | start => exact ⟨[], lines.length, by omega, fun e he => he⟩
  | @pass other after number line _ hline hover ih =>
    obtain ⟨previous, fuel, hfuel, hevents⟩ := ih
    obtain ⟨hlt, rfl⟩ := List.getElem?_eq_some_iff.1 hline
    obtain ⟨fuel, rfl⟩ := Nat.exists_eq_succ_of_ne_zero (show fuel ≠ 0 by omega)
    rw [List.drop_eq_getElem_cons hlt] at hevents
    obtain ⟨own, _, he⟩ := scanLines_over hover number previous fuel (lines.drop (number + 1))
    rw [he] at hevents
    exact ⟨_, fuel, by omega, fun e he => hevents e (List.mem_append_right own he)⟩
  | @enter other number line hfrom hline henter ih =>
    obtain ⟨previous, fuel, hfuel, hevents⟩ := ih
    obtain ⟨hlt, rfl⟩ := List.getElem?_eq_some_iff.1 hline
    obtain ⟨fuel, rfl⟩ := Nat.exists_eq_succ_of_ne_zero (show fuel ≠ 0 by omega)
    have hat := Cursor.isAt_inLines hlt 0
    have hstart : Cursor.ofLine number lines[number] (lines.drop (number + 1)) =
        Cursor.inLines lines number 0 := by
      rw [Cursor.inLines, List.getElem?_eq_getElem hlt]
      rfl
    rw [List.drop_eq_getElem_cons hlt, scanLines_enter henter, hstart] at hevents
    obtain ⟨_, hlast, hle, _⟩ :=
      Cursor.assertions_reached hat (.enter hfrom hline henter) (Nat.lt_succ_self _)
    have hle : number ≤ _ := hle
    rw [← drop_succ hlast] at hevents
    obtain ⟨hown, hafter⟩ := List.forall_mem_append.1 hevents
    refine ⟨hlt, _, Nat.lt_succ_self _, fun a ha => ?_, _, fuel, by omega, hafter⟩
    exact hown _ (List.mem_map_of_mem ha)
  | @skip number column call _ hcall hread ih =>
    obtain ⟨hlt, fuel, hfuel, hown, hafter⟩ := ih
    obtain ⟨fuel, rfl⟩ := Nat.exists_eq_succ_of_ne_zero (show fuel ≠ 0 by omega)
    rw [Cursor.assertions_skip hcall hread] at hown hafter
    have hsize := Cursor.size_skipCall_lt hcall
    exact ⟨hlt, fuel, Nat.lt_of_lt_of_le hsize (Nat.le_of_lt_succ hfuel), hown, hafter⟩
  | @read number column call a next _ hcall hread ih =>
    obtain ⟨hlt, fuel, hfuel, hown, hafter⟩ := ih
    obtain ⟨fuel, rfl⟩ := Nat.exists_eq_succ_of_ne_zero (show fuel ≠ 0 by omega)
    rw [Cursor.assertions_read hcall hread] at hown hafter
    have hsize := Cursor.size_lt_of_readCall? hcall hread
    have hat := (Cursor.isAt_inLines hlt column).of_readCall? hread
    refine ⟨hat.lt_length, fuel, ?_⟩
    rw [← hat.eq_inLines]
    exact ⟨by omega, fun b hb => hown b (List.mem_cons_of_mem a hb), hafter⟩
  | leave _ hcall ih =>
    obtain ⟨hlt, fuel, hfuel, hown, hafter⟩ := ih
    rw [Cursor.assertions_none hcall] at hafter
    exact hafter

/-- The assertions of a text are those that are read at the places to which its scan comes. -/
theorem mem_scan_iff_isReached (text : List Char) (a : Assertion) :
    .assertion a ∈ scan text ↔ a.IsReached (Text.lines text) := by
  constructor
  · intro ha
    exact isReached_of_mem_scanLines .start (Nat.le_add_left _ _) ha
  · rintro ⟨number, column, call, next, hreaches, hcall, hread⟩
    obtain ⟨_, fuel, hfuel, hown, _⟩ := hreaches.continues
    obtain ⟨fuel, rfl⟩ := Nat.exists_eq_succ_of_ne_zero (Nat.ne_of_gt (Nat.zero_lt_of_lt hfuel))
    rw [Cursor.assertions_read hcall hread] at hown
    exact hown a List.mem_cons_self

end SuiteAtlas.Source
