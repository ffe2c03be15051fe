import SuiteAtlas.Proofs.Source.Logical

namespace SuiteAtlas.Source

open Text (goesOn)

variable {lines : List (List Char)} {text name : List Char} {i j n first start p q : Nat}
  {k : Int}

def EndsAt (lines : List (List Char)) (index : Nat) : Prop :=
  ∃ line, lines[index]? = some line ∧ goesOn line = false

theorem EndsAt.drop_eq (h : EndsAt lines i) :
    ∃ line, ¬goesOn line = true ∧ lines.drop i = line :: lines.drop (i + 1) := by
  obtain ⟨line, hline, hend⟩ := h
  obtain ⟨hlt, rfl⟩ := List.getElem?_eq_some_iff.1 hline
  exact ⟨lines[i], Bool.not_eq_true _ ▸ hend, List.drop_eq_getElem_cons hlt⟩

theorem endsAt_drop : EndsAt (lines.drop n) i ↔ EndsAt lines (n + i) := by
  rw [EndsAt, EndsAt, List.getElem?_drop]

theorem countEnds_take_succ (h : EndsAt lines i) :
    countEnds (lines.take (i + 1)) = countEnds (lines.take i) + 1 := by
  obtain ⟨line, hline, hend⟩ := h
  rw [List.take_add_one, hline, countEnds, List.countP_append]
  have hone : List.countP (fun line => !goesOn line) (some line).toList = 1 :=
    List.countP_cons_of_pos (by simpa using hend)
  rw [hone]
  rfl

theorem countEnds_take_le (lines : List (List Char)) (h : i ≤ j) :
    countEnds (lines.take i) ≤ countEnds (lines.take j) := by
  apply List.Sublist.countP_le
  exact (List.take_prefix_take_left h).sublist

theorem EndsAt.lt_iff (h : EndsAt lines i) :
    i < j ↔ countEnds (lines.take i) < countEnds (lines.take j) := by
  constructor
  · intro hlt
    have hle := countEnds_take_le lines hlt
    rw [Nat.succ_eq_add_one, countEnds_take_succ h] at hle
    exact hle
  · intro hlt
    by_contra hge
    exact Nat.not_lt_of_le (countEnds_take_le lines (Nat.le_of_not_lt hge)) hlt

theorem exists_endsAt (h : n < countEnds lines) :
    ∃ i, EndsAt lines i ∧ countEnds (lines.take i) = n := by
  induction lines generalizing n with
  | nil => exact absurd h (Nat.not_lt_zero n)
  | cons line more ih =>
    by_cases hline : goesOn line = true
    · rw [countEnds_cons_of_goesOn hline] at h
      obtain ⟨i, hi, hcount⟩ := ih h
      refine ⟨i + 1, hi, ?_⟩
      rw [List.take_succ_cons, countEnds_cons_of_goesOn hline]
      exact hcount
    · rw [countEnds_cons_of_ends hline] at h
      cases n with
      | zero => exact ⟨0, ⟨line, rfl, Bool.eq_false_iff.2 hline⟩, rfl⟩
      | succ n =>
        obtain ⟨i, hi, hcount⟩ := ih (Nat.lt_of_succ_lt_succ h)
        refine ⟨i + 1, hi, ?_⟩
        rw [List.take_succ_cons, countEnds_cons_of_ends hline, hcount]

theorem endOfLogicalLine?_of_endsAt (first : Nat) (h : EndsAt lines i) :
    endOfLogicalLine? first (countEnds (lines.take i)) lines = some (first + i) := by
  obtain ⟨line, hend, hdrop⟩ := h.drop_eq
  have hlt : i < lines.length := by
    have hlen := congrArg List.length hdrop
    rw [List.length_drop, List.length_cons] at hlen
    omega
  have hsplit := endOfLogicalLine?_append first (lines.take i) (lines.drop i)
  rw [List.take_append_drop] at hsplit
  rw [hsplit, hdrop, endOfLogicalLine?_zero_of_ends hend, List.length_take_of_le (Nat.le_of_lt hlt)]

theorem endOfLogicalLine?_eq_none (h : countEnds lines ≤ n) :
    endOfLogicalLine? first n lines = none := by
  induction lines generalizing first n with
  | nil => rfl
  | cons line more ih =>
    by_cases hline : goesOn line = true
    · rw [countEnds_cons_of_goesOn hline] at h
      rw [endOfLogicalLine?_of_goesOn hline]
      exact ih h
    · rw [countEnds_cons_of_ends hline] at h
      obtain ⟨n, rfl⟩ := Nat.exists_eq_add_of_le' (Nat.le_trans (Nat.le_add_left 1 _) h)
      rw [endOfLogicalLine?_succ_of_ends hline]
      exact ih (Nat.le_of_succ_le_succ h)

theorem endOfLogicalLine?_eq_some_iff :
    endOfLogicalLine? first n lines = some p ↔
      ∃ i, p = first + i ∧ EndsAt lines i ∧ countEnds (lines.take i) = n := by
  constructor
  · intro h
    by_cases hn : n < countEnds lines
    · obtain ⟨i, hi, rfl⟩ := exists_endsAt hn
      rw [endOfLogicalLine?_of_endsAt first hi, Option.some.injEq] at h
      exact ⟨i, h.symm, hi, rfl⟩
    · rw [endOfLogicalLine?_eq_none (Nat.le_of_not_lt hn)] at h
      cases h
  · rintro ⟨i, rfl, hi, rfl⟩
    exact endOfLogicalLine?_of_endsAt first hi

def endsBetween (lines : List (List Char)) (start stop : Nat) : Nat :=
  countEnds ((lines.drop (start + 1)).take (stop - start))

theorem endsBetween_self (lines : List (List Char)) (start : Nat) :
    endsBetween lines start start = 0 := by
  rw [endsBetween, Nat.sub_self]
  rfl

theorem endsBetween_eq (h : EndsAt (lines.drop (start + 1)) i) :
    endsBetween lines start (start + 1 + i) = countEnds ((lines.drop (start + 1)).take i) + 1 := by
  rw [endsBetween, show start + 1 + i - start = i + 1 by omega, countEnds_take_succ h]

theorem endsBetween_lt_iff (hp : start < p) (hq : start < q) (hends : EndsAt lines p)
    (hends' : EndsAt lines q) :
    endsBetween lines start p < endsBetween lines start q ↔ p < q := by
  obtain ⟨i, rfl⟩ := Nat.exists_eq_add_of_le (show start + 1 ≤ p from hp)
  obtain ⟨j, rfl⟩ := Nat.exists_eq_add_of_le (show start + 1 ≤ q from hq)
  have hi : EndsAt (lines.drop (start + 1)) i := endsAt_drop.2 hends
  have hj : EndsAt (lines.drop (start + 1)) j := endsAt_drop.2 hends'
  rw [endsBetween_eq hi, endsBetween_eq hj, Nat.add_lt_add_iff_right, ← hi.lt_iff,
    Nat.add_lt_add_iff_left]

section

variable (hstart : functionLine? (Text.lines text) name = some start)

include hstart

theorem physicalLine?_zero : physicalLine? text name 0 = some start := by
  rw [physicalLine?, if_neg (Int.lt_irrefl 0)]
  simp only [hstart, Option.bind_some, Int.toNat_zero]

theorem physicalLine?_succ (n : Nat) : physicalLine? text name (n + 1 : Nat) =
    endOfLogicalLine? (start + 1) n ((Text.lines text).drop (start + 1)) := by
  rw [physicalLine?, if_neg (by omega)]
  simp only [hstart, Option.bind_some, Int.toNat_natCast]

/-- The numbers of a function from one on lead to the line ends below its declaration, and count
them. -/
theorem physicalLine?_eq_some_iff (hk : 0 < k) :
    physicalLine? text name k = some p ↔
      start < p ∧ EndsAt (Text.lines text) p ∧ endsBetween (Text.lines text) start p = k := by
  obtain ⟨n, rfl⟩ := Int.exists_add_of_le hk
  rw [show 0 + 1 + (n : Int) = (n + 1 : Nat) by omega, physicalLine?_succ hstart,
    endOfLogicalLine?_eq_some_iff]
  constructor
  · rintro ⟨i, rfl, hi, rfl⟩
    exact ⟨by omega, endsAt_drop.1 hi, congrArg _ (endsBetween_eq hi)⟩
  · rintro ⟨hlt, hends, hcount⟩
    obtain ⟨i, rfl⟩ := Nat.exists_eq_add_of_le (show start + 1 ≤ p from hlt)
    have hi : EndsAt ((Text.lines text).drop (start + 1)) i := endsAt_drop.2 hends
    rw [endsBetween_eq hi, Int.natCast_inj] at hcount
    exact ⟨i, rfl, hi, Nat.succ.inj hcount⟩

theorem physicalLine?_isSome_iff (hk : 0 < k) :
    (physicalLine? text name k).isSome ↔ k ≤ countEnds ((Text.lines text).drop (start + 1)) := by
  rw [Option.isSome_iff_exists]
  constructor
  · rintro ⟨p, hp⟩
    obtain ⟨_, _, rfl⟩ := (physicalLine?_eq_some_iff hstart hk).1 hp
    exact Int.ofNat_le.2 (List.take_sublist _ _).countP_le
  · intro hle
    obtain ⟨n, rfl⟩ := Int.exists_add_of_le hk
    have hlt : n < countEnds ((Text.lines text).drop (start + 1)) := by omega
    obtain ⟨i, hi, rfl⟩ := exists_endsAt hlt
    refine ⟨start + 1 + i, (physicalLine?_eq_some_iff hstart hk).2
      ⟨by omega, endsAt_drop.1 hi, ?_⟩⟩
    rw [endsBetween_eq hi]
    omega

end

theorem functionLine?_append_dot (lines : List (List Char)) (qualifier name : List Char) :
    functionLine? lines (qualifier ++ '.' :: name) = functionLine? lines name := by
  have hname : unqualified (qualifier ++ '.' :: name) = unqualified name :=
    Text.takeEndWhile_append_cons (by decide)
  rw [functionLine?, functionLine?, hname]

/-- What it is to number the lines below the line `start`: the number 0 leads to this line, and the
numbers from one on lead to the line ends below it, each to one of its own, in their order, as many
as there are. -/
structure NumbersEnds (lines : List (List Char)) (start : Nat) (lineOf? : Int → Option Nat) :
    Prop where
  zero : lineOf? 0 = some start
  isSome_iff : ∀ k, (lineOf? k).isSome ↔ 0 ≤ k ∧ k ≤ countEnds (lines.drop (start + 1))
  lt_of_lt : ∀ j k p q, lineOf? j = some p → lineOf? k = some q → j < k → p < q
  leads_to_end : ∀ k p, 0 < k → lineOf? k = some p → start < p ∧ EndsAt lines p
  exists_number : ∀ p, start < p → EndsAt lines p → ∃! k, 0 < k ∧ lineOf? k = some p
  counts : ∀ k p, lineOf? k = some p → endsBetween lines start p = k

theorem physicalLine?_eq_zero_or_pos (h : physicalLine? text name k = some p) : k = 0 ∨ 0 < k := by
  by_cases hk : k < 0
  · rw [physicalLine?, if_pos hk] at h
    cases h
  · omega

theorem numbersEnds_of_functionLine? (hstart : functionLine? (Text.lines text) name = some start) :
    NumbersEnds (Text.lines text) start (physicalLine? text name) where
  zero := physicalLine?_zero hstart
  isSome_iff := by
    intro k
    rcases Int.lt_trichotomy k 0 with hk | rfl | hk
    · rw [physicalLine?, if_pos hk]
      exact ⟨fun h => absurd h Bool.false_ne_true, fun h => absurd h.1 (Int.not_le.2 hk)⟩
    · rw [physicalLine?_zero hstart]
      exact ⟨fun _ => ⟨Int.le_refl 0, Int.natCast_nonneg _⟩, fun _ => rfl⟩
    · rw [physicalLine?_isSome_iff hstart hk]
      exact ⟨fun h => ⟨Int.le_of_lt hk, h⟩, And.right⟩
  lt_of_lt := by
    intro j k p q hj hk hlt
    have hkpos : 0 < k := by
      rcases physicalLine?_eq_zero_or_pos hj with rfl | hj0
      · exact hlt
      · exact Int.lt_trans hj0 hlt
    obtain ⟨hq, hends', hcount'⟩ := (physicalLine?_eq_some_iff hstart hkpos).1 hk
    rcases physicalLine?_eq_zero_or_pos hj with rfl | hjpos
    · rw [physicalLine?_zero hstart, Option.some.injEq] at hj
      exact hj ▸ hq
    · obtain ⟨hp, hends, hcount⟩ := (physicalLine?_eq_some_iff hstart hjpos).1 hj
      exact (endsBetween_lt_iff hp hq hends hends').1 (by omega)
  leads_to_end := by
    intro k p hk hp
    obtain ⟨hlt, hends, _⟩ := (physicalLine?_eq_some_iff hstart hk).1 hp
    exact ⟨hlt, hends⟩
  exists_number := by
    intro p hlt hends
    have hpos : (0 : Int) < endsBetween (Text.lines text) start p := by
      obtain ⟨i, rfl⟩ := Nat.exists_eq_add_of_le (show start + 1 ≤ p from hlt)
      rw [endsBetween_eq (endsAt_drop.2 hends)]
      omega
    refine ⟨endsBetween (Text.lines text) start p,
      ⟨hpos, (physicalLine?_eq_some_iff hstart hpos).2 ⟨hlt, hends, rfl⟩⟩, ?_⟩
    rintro k ⟨hk, hp⟩
    exact ((physicalLine?_eq_some_iff hstart hk).1 hp).2.2.symm
  counts := by
    intro k p hp
    rcases physicalLine?_eq_zero_or_pos hp with rfl | hk
    · rw [physicalLine?_zero hstart, Option.some.injEq] at hp
      rw [← hp, endsBetween_self]
      rfl
    · exact ((physicalLine?_eq_some_iff hstart hk).1 hp).2.2

/-- The numbers of a function number the line ends below its declaration, a function that is not
declared has none, and the class in front of its name does not matter. -/
theorem physicalLine?_numbersEnds (text name : List Char) :
    (∀ qualifier k,
      physicalLine? text (qualifier ++ '.' :: name) k = physicalLine? text name k) ∧
      match functionLine? (Text.lines text) name with
      | none => ∀ k, physicalLine? text name k = none
      | some start => NumbersEnds (Text.lines text) start (physicalLine? text name) := by
  constructor
  · intro qualifier k
    simp only [physicalLine?, functionLine?_append_dot]
  · cases hstart : functionLine? (Text.lines text) name with
    | none =>
      intro k
      rw [physicalLine?]
      simp only [hstart, Option.bind_none, ite_self]
    | some start => exact numbersEnds_of_functionLine? hstart

example : [-1, 0, 1, 2].map (physicalLine? continuedText "ATest.test_sum".toList) =
    [none, some 0, some 2, none] := by
  decide +kernel

def NoMethodBetween (lines : List (List Char)) (start stop : Nat) : Prop :=
  ∀ i line, start < i → i ≤ stop → lines[i]? = some line → isMethod line = false

def bodyBelow (lines : List (List Char)) (start : Nat) : List (List Char) :=
  (lines.drop (start + 1)).takeWhile fun line => !isMethod line

theorem bodyBelow_eq (lines : List (List Char)) (start : Nat) :
    bodyBelow lines start =
      (lines.drop (start + 1)).take ((lines.drop (start + 1)).findIdx isMethod) := by
  rw [bodyBelow, List.takeWhile_eq_take_findIdx_not]
  simp only [Bool.not_not]

/-- A line end lies in the body of a function if the line ends of the body reach it. -/
theorem noMethodBetween_iff (hlt : start < p) (hends : EndsAt lines p) :
    NoMethodBetween lines start p ↔
      endsBetween lines start p ≤ countEnds (bodyBelow lines start) := by
  obtain ⟨i, rfl⟩ := Nat.exists_eq_add_of_le (show start + 1 ≤ p from hlt)
  have hi : EndsAt (lines.drop (start + 1)) i := endsAt_drop.2 hends
  obtain ⟨line, hline, _⟩ := id hi
  have hlength := (List.getElem?_eq_some_iff.1 hline).1
  rw [endsBetween_eq hi, bodyBelow_eq, Nat.succ_le_iff, ← hi.lt_iff,
    List.lt_findIdx_iff]
  constructor
  · intro h
    refine ⟨hlength, fun j hj => ?_⟩
    apply h (start + 1 + j) _ (by omega) (by omega)
    rw [← List.getElem?_drop]
    exact List.getElem?_eq_getElem _
  · rintro ⟨_, h⟩ index line hstart hstop hget
    obtain ⟨j, rfl⟩ := Nat.exists_eq_add_of_le (show start + 1 ≤ index from hstart)
    rw [← List.getElem?_drop] at hget
    obtain ⟨_, rfl⟩ := List.getElem?_eq_some_iff.1 hget
    exact h j (by omega)

/-- A number leads to a line of its function as long as so many logical lines end there. A greater
one leads behind the beginning of another method, and only the end of the text stops it. -/
theorem physicalLine?_bodyBelow (hstart : functionLine? (Text.lines text) name = some start)
    (hk : 0 < k) :
    (∀ p, physicalLine? text name k = some p →
      (NoMethodBetween (Text.lines text) start p ↔
        k ≤ countEnds (bodyBelow (Text.lines text) start))) ∧
      (physicalLine? text name k = none ↔
        countEnds ((Text.lines text).drop (start + 1)) < k) := by
  constructor
  · intro p hp
    obtain ⟨hlt, hends, rfl⟩ := (physicalLine?_eq_some_iff hstart hk).1 hp
    rw [noMethodBetween_iff hlt hends, Int.ofNat_le]
  · rw [← Option.not_isSome_iff_eq_none, physicalLine?_isSome_iff hstart hk, Int.not_le]

def twoFunctionsText : List Char :=
  ("Function test_a()\n" ++
    "\t$x:=1\n" ++
    "Function test_b()\n" ++
    "\t$y:=2\n").toList

theorem physicalLine?_bodyBelow_twoFunctionsText :
    NoMethodBetween (Text.lines twoFunctionsText) 0 1 ∧
      physicalLine? twoFunctionsText "test_a".toList 5 = none := by
  have hstart : functionLine? (Text.lines twoFunctionsText) "test_a".toList = some 0 := by
    decide +kernel
  have hone : physicalLine? twoFunctionsText "test_a".toList 1 = some 1 := by
    decide +kernel
  refine ⟨((physicalLine?_bodyBelow hstart (by decide)).1 1 hone).2 (by decide +kernel), ?_⟩
  exact (physicalLine?_bodyBelow hstart (by decide)).2.2 (by decide +kernel)

/-- The number 2 of the first test leads to the line on which the second one begins. -/
theorem physicalLine?_nextFunction :
    functionLine? (Text.lines twoFunctionsText) "test_a".toList = some 0 ∧
      physicalLine? twoFunctionsText "test_a".toList 2 = some 2 ∧
      ((Text.lines twoFunctionsText)[2]?.map isMethod) = some true := by
  decide +kernel

end SuiteAtlas.Source
