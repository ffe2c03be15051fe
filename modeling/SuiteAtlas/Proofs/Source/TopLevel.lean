import SuiteAtlas.Proofs.Source.Quoting

namespace SuiteAtlas.Source

variable {literal state : Bool} {depth deep i : Nat} {text chars rest : List Char} {c : Char}
  {closed : Closed}

/-- Characters that are taken into the argument, whatever follows them, and the state behind
them. -/
def Takes (literal : Bool) (depth : Nat) (chars : List Char) (state : Bool) (deep : Nat) : Prop :=
  ∀ text, splitFrom literal depth (chars ++ text) =
    (splitFrom state deep text).map (.prepend chars)

/-- How a closed list is read: it is closed, or an argument ends, or characters are taken. -/
inductive Splits : Bool → Nat → List Char → Closed → Prop
  | close (rest : List Char) : Splits false 0 (')' :: rest) ⟨[], [], rest⟩
  | separate {text : List Char} {closed : Closed} :
    Splits false 0 text closed → Splits false 0 (';' :: text) closed.separate
  | take {literal state : Bool} {depth deep : Nat} {chars text : List Char} {closed : Closed} :
    Takes literal depth chars state deep → Splits state deep text closed →
      Splits literal depth (chars ++ text) (closed.prepend chars)

def Closed.before (closed : Closed) (tail : List Char) : Closed :=
  { closed with rest := tail }

theorem splitFrom_close (rest : List Char) :
    splitFrom false 0 (')' :: rest) = some ⟨[], [], rest⟩ := by
  rw [splitFrom_plain]
  rfl

theorem splitFrom_separate (text : List Char) :
    splitFrom false 0 (';' :: text) = (splitFrom false 0 text).map .separate := by
  rw [splitFrom_plain]
  rfl

namespace Splits

theorem of_splitFrom (h : splitFrom literal depth text = some closed) :
    Splits literal depth text closed := by
  have htake {literal state : Bool} {depth deep : Nat} {chars rest : List Char} {closed : Closed}
      (htakes : Takes literal depth chars state deep)
      (ih : ∀ {later : Closed}, splitFrom state deep rest = some later →
        Splits state deep rest later)
      (h : (splitFrom state deep rest).map (.prepend chars) = some closed) :
      Splits literal depth (chars ++ rest) closed := by
    obtain ⟨later, hlater, rfl⟩ := Option.map_eq_some_iff.1 h
    exact .take htakes (ih hlater)
  fun_induction splitFrom literal depth text generalizing closed with
  | case1 | case8 => cases h
  | case2 depth c rest ih =>
    have htakes : Takes true depth ['\\', c] true depth := splitFrom_escape depth c
    exact htake htakes ih h
  | case3 literal depth c rest hliteral ih =>
    cases Bool.eq_false_iff.2 hliteral
    have htakes : Takes false depth ['\\'] false depth := splitFrom_plain depth '\\'
    exact htake htakes ih h
  | case4 depth c rest hne ih =>
    have hc : c ≠ '\\' := by
      rintro rfl
      cases rest with
      | nil => simp [splitFrom_nil] at h
      | cons d rest => exact hne d rest rfl rfl
    have htakes : Takes true depth [c] (c != '"') depth :=
      fun text => splitFrom_literal depth (.inl hc)
    exact htake htakes ih h
  | case5 literal depth c rest _ hliteral hquote ih =>
    cases Bool.eq_false_iff.2 hliteral
    have htakes : Takes false depth [c] true depth := fun text => by
      rw [List.singleton_append, splitFrom_plain, if_pos hquote]
    exact htake htakes ih h
  | case6 literal depth c rest _ hliteral hquote hopen ih =>
    cases Bool.eq_false_iff.2 hliteral
    have htakes : Takes false depth [c] false (depth + 1) := fun text => by
      rw [List.singleton_append, splitFrom_plain, if_neg hquote, if_pos hopen]
    exact htake htakes ih h
  | case7 literal c rest _ hliteral hquote hopen hclose hparen =>
    cases Bool.eq_false_iff.2 hliteral
    cases h
    rw [beq_iff_eq.1 hparen]
    exact .close rest
  | case9 literal c rest _ hliteral hquote hopen hclose depth ih =>
    cases Bool.eq_false_iff.2 hliteral
    have htakes : Takes false (depth + 1) [c] false depth := fun text => by
      rw [List.singleton_append, splitFrom_plain, if_neg hquote, if_neg hopen, if_pos hclose]
    exact htake htakes ih h
  | case10 literal depth c rest _ hliteral hquote hopen hclose hsep ih =>
    cases Bool.eq_false_iff.2 hliteral
    obtain ⟨later, hlater, rfl⟩ := Option.map_eq_some_iff.1 h
    rw [Bool.and_eq_true, beq_iff_eq, beq_iff_eq] at hsep
    obtain ⟨rfl, rfl⟩ := hsep
    exact .separate (ih hlater)
  | case11 literal depth c rest _ hliteral hquote hopen hclose hsep ih =>
    cases Bool.eq_false_iff.2 hliteral
    have htakes : Takes false depth [c] false depth := fun text => by
      rw [List.singleton_append, splitFrom_plain, if_neg hquote, if_neg hopen, if_neg hclose,
        if_neg hsep]
    exact htake htakes ih h

theorem before (h : Splits literal depth text closed) (tail : List Char) :
    splitFrom literal depth (closed.before tail).written = some (closed.before tail) := by
  induction h with
  | close rest => exact splitFrom_close tail
  | @separate text closed _ ih =>
    change splitFrom false 0 (closed.before tail).separate.written = _
    rw [Closed.written_separate, splitFrom_separate, ih]
    rfl
  | @take literal state depth deep chars text closed htakes _ ih =>
    change splitFrom literal depth ((closed.before tail).prepend chars).written = _
    rw [Closed.written_prepend, htakes, ih]
    rfl

/-- Every argument of a list is one by itself; the first one is one from where the reading began. -/
theorem isArgument (h : Splits literal depth text closed) :
    splitFrom literal depth (closed.first ++ [')']) = some ⟨closed.first, [], []⟩ ∧
      ∀ x ∈ closed.others, IsArgument x := by
  induction h with
  | close rest => exact ⟨splitFrom_close [], List.forall_mem_nil _⟩
  | separate _ ih => exact ⟨splitFrom_close [], List.forall_mem_cons.2 ih⟩
  | @take literal state depth deep chars text closed htakes _ ih =>
    refine ⟨?_, ih.2⟩
    change splitFrom literal depth (chars ++ closed.first ++ [')']) = _
    rw [List.append_assoc, htakes, ih.1, Option.map_some]
    simp only [Closed.prepend]

end Splits

/-- A text without its literals: each of their characters, the marks among them, is left open. The
text may begin inside of a literal. -/
def outside : Bool → List Char → List (Option Char)
  | _, [] => []
  | true, '\\' :: _ :: rest => none :: none :: outside true rest
  | true, c :: rest => none :: outside (c != '"') rest
  | false, c :: rest =>
    if c == '"' then none :: outside true rest else some c :: outside false rest

/-- A closing bracket behind as many opening as closing ones; `depth` opening ones stand in front of
the row. -/
structure ClosesAt (row : List (Option Char)) (depth i : Nat) (c : Char) : Prop where
  getElem? : row[i]? = some (some c)
  isCloser : isCloser c = true
  balanced : depth + (row.take i).countP (·.any isOpener) =
    (row.take i).countP (·.any Source.isCloser)

structure FirstClosesAt (row : List (Option Char)) (depth i : Nat) (c : Char) : Prop where
  closesAt : ClosesAt row depth i c
  first : ∀ j < i, ∀ d, ¬ClosesAt row depth j d

def IsClosedAt (read : Option Closed) (text : List Char) (i : Nat) : Prop :=
  ∃ closed, read = some closed ∧ text.length = i + 1 + closed.rest.length

section Row

variable {row : List (Option Char)} {x : Option Char}

theorem closesAt_cons_zero :
    ClosesAt (x :: row) depth 0 c ↔ x = some c ∧ isCloser c = true ∧ depth = 0 := by
  constructor
  · intro h
    exact ⟨Option.some.inj h.getElem?, h.isCloser, h.balanced⟩
  · rintro ⟨rfl, hc, rfl⟩
    exact ⟨rfl, hc, rfl⟩

theorem not_closesAt_none (row : List (Option Char)) (depth : Nat) (c : Char) :
    ¬ClosesAt (none :: row) depth 0 c := by
  rw [closesAt_cons_zero]
  rintro ⟨h, -⟩
  cases h

theorem not_closesAt_some (hc : isCloser c = false) (row : List (Option Char)) (depth : Nat)
    (d : Char) : ¬ClosesAt (some c :: row) depth 0 d := by
  rw [closesAt_cons_zero]
  rintro ⟨h, hd, -⟩
  cases h
  rw [hc] at hd
  cases hd

section Step

variable (hstep : depth + [x].countP (·.any isOpener) = deep + [x].countP (·.any isCloser))

include hstep

theorem closesAt_cons_succ : ClosesAt (x :: row) depth (i + 1) c ↔ ClosesAt row deep i c := by
  have hcount (p : Option Char → Bool) :
      ((x :: row).take (i + 1)).countP p = [x].countP p + (row.take i).countP p := by
    rw [List.take_succ_cons, ← List.singleton_append, List.countP_append]
  constructor
  · intro h
    have hbalanced := h.balanced
    rw [hcount, hcount] at hbalanced
    exact ⟨h.getElem?, h.isCloser, by omega⟩
  · intro h
    have hbalanced := h.balanced
    refine ⟨h.getElem?, h.isCloser, ?_⟩
    rw [hcount, hcount]
    omega

theorem firstClosesAt_cons (hnot : ∀ c, ¬ClosesAt (x :: row) depth 0 c) :
    FirstClosesAt (x :: row) depth i c ↔ ∃ j, i = j + 1 ∧ FirstClosesAt row deep j c := by
  constructor
  · intro h
    cases i with
    | zero => exact absurd h.closesAt (hnot c)
    | succ i =>
      refine ⟨i, rfl, (closesAt_cons_succ hstep).1 h.closesAt, fun j hj d hd => ?_⟩
      exact h.first (j + 1) (Nat.succ_lt_succ hj) d ((closesAt_cons_succ hstep).2 hd)
  · rintro ⟨i, rfl, h⟩
    refine ⟨(closesAt_cons_succ hstep).2 h.closesAt, fun j hj d hd => ?_⟩
    cases j with
    | zero => exact hnot d hd
    | succ j =>
      exact h.first j (Nat.lt_of_succ_lt_succ hj) d ((closesAt_cons_succ hstep).1 hd)

end Step

theorem firstClosesAt_cons_closer (hc : isCloser c = true) {d : Char} :
    FirstClosesAt (some c :: row) 0 i d ↔ i = 0 ∧ c = d := by
  have hzero : ClosesAt (some c :: row) 0 0 c := closesAt_cons_zero.2 ⟨rfl, hc, rfl⟩
  constructor
  · intro h
    cases i with
    | zero => exact ⟨rfl, Option.some.inj (closesAt_cons_zero.1 h.closesAt).1⟩
    | succ i => exact absurd hzero (h.first 0 (Nat.succ_pos i) c)
  · rintro ⟨rfl, rfl⟩
    exact ⟨hzero, fun j hj => absurd hj (Nat.not_lt_zero j)⟩

theorem ClosesAt.exists_first (h : ClosesAt row depth i c) : ∃ j d, FirstClosesAt row depth j d := by
  induction i using Nat.strong_induction_on generalizing c with
  | h i ih =>
    by_cases hfirst : ∃ j < i, ∃ d, ClosesAt row depth j d
    · obtain ⟨j, hj, d, hd⟩ := hfirst
      exact ih j hj hd
    · exact ⟨i, c, h, fun j hj d hd => hfirst ⟨j, hj, d, hd⟩⟩

theorem FirstClosesAt.unique {j : Nat} {d : Char} (h : FirstClosesAt row depth i c)
    (h' : FirstClosesAt row depth j d) : c = d := by
  rcases Nat.lt_trichotomy i j with hlt | rfl | hlt
  · exact absurd h.closesAt (h'.first i hlt c)
  · exact Option.some.inj (Option.some.inj (h.closesAt.getElem?.symm.trans h'.closesAt.getElem?))
  · exact absurd h'.closesAt (h.first j hlt d)

end Row

section Change

variable {row : List (Option Char)} {x : Option Char} {change : Closed → Closed}
  (hchange : ∀ closed, (change closed).rest = closed.rest)

include hchange

theorem isClosedAt_map (chars : List Char) :
    IsClosedAt ((splitFrom state deep rest).map change) (chars ++ rest) i ↔
      ∃ j, i = j + chars.length ∧ IsClosedAt (splitFrom state deep rest) rest j := by
  constructor
  · rintro ⟨_, hread, hlength⟩
    obtain ⟨closed, hclosed, rfl⟩ := Option.map_eq_some_iff.1 hread
    have hlt := rest_length_lt hclosed
    rw [hchange, List.length_append] at hlength
    exact ⟨i - chars.length, by omega, closed, hclosed, by omega⟩
  · rintro ⟨j, rfl, closed, hclosed, hlength⟩
    refine ⟨change closed, by rw [hclosed, Option.map_some], ?_⟩
    rw [hchange, List.length_append]
    omega

theorem isClosedAt_cons (hnot : ∀ d, ¬ClosesAt (x :: row) depth 0 d)
    (hstep : depth + [x].countP (·.any isOpener) = deep + [x].countP (·.any isCloser))
    (ih : ∀ j, IsClosedAt (splitFrom state deep rest) rest j ↔ FirstClosesAt row deep j ')') :
    IsClosedAt ((splitFrom state deep rest).map change) (c :: rest) i ↔
      FirstClosesAt (x :: row) depth i ')' := by
  rw [← List.singleton_append, isClosedAt_map hchange, firstClosesAt_cons hstep hnot]
  simp only [ih, List.length_singleton]

end Change

theorem isCloser_of_isOpener (h : isOpener c = true) : isCloser c = false := by
  simp only [isOpener, Bool.or_eq_true, beq_iff_eq] at h
  rcases h with (rfl | rfl) | rfl <;> rfl

/-- A list is closed by the first bracket that can do so, if this is a parenthesis. -/
theorem isClosedAt_splitFrom_iff (literal : Bool) (depth : Nat) (text : List Char) (i : Nat) :
    IsClosedAt (splitFrom literal depth text) text i ↔
      FirstClosesAt (outside literal text) depth i ')' := by
  fun_induction splitFrom literal depth text generalizing i with
  | case1 =>
    apply iff_of_false
    · rintro ⟨_, h, _⟩
      cases h
    · rintro ⟨⟨h, _, _⟩, _⟩
      cases h
  | case2 depth c rest ih =>
    -- an escape takes two items of the row
    have hrest (closed : Closed) : (closed.prepend ['\\', c]).rest = closed.rest := rfl
    refine (isClosedAt_map hrest ['\\', c]).trans ?_
    change _ ↔ FirstClosesAt (none :: none :: outside true rest) depth i ')'
    have hnone (row : List (Option Char)) (i : Nat) : FirstClosesAt (none :: row) depth i ')' ↔
        ∃ j, i = j + 1 ∧ FirstClosesAt row depth j ')' :=
      firstClosesAt_cons rfl (not_closesAt_none _ _)
    simp only [hnone, ih]
    constructor
    · rintro ⟨j, rfl, hj⟩
      exact ⟨j + 1, rfl, j, rfl, hj⟩
    · rintro ⟨_, rfl, j, rfl, hj⟩
      exact ⟨j, rfl, hj⟩
  | case3 literal depth c rest hliteral ih =>
    cases Bool.eq_false_iff.2 hliteral
    exact isClosedAt_cons (fun _ => rfl) (not_closesAt_some (by decide) _ _) rfl ih
  | case4 depth c rest hne ih =>
    rw [outside]
    · exact isClosedAt_cons (fun _ => rfl) (not_closesAt_none _ _) rfl ih
    · exact hne
  | case5 literal depth c rest _ hliteral hquote ih =>
    cases Bool.eq_false_iff.2 hliteral
    rw [outside, if_pos hquote]
    exact isClosedAt_cons (fun _ => rfl) (not_closesAt_none _ _) rfl ih
  | case6 literal depth c rest _ hliteral hquote hopen ih =>
    cases Bool.eq_false_iff.2 hliteral
    have hc := isCloser_of_isOpener hopen
    rw [outside, if_neg hquote]
    exact isClosedAt_cons (fun _ => rfl) (not_closesAt_some hc _ _) (by simp [hopen, hc]) ih
  | case7 literal c rest _ hliteral hquote hopen hclose hparen =>
    cases Bool.eq_false_iff.2 hliteral
    rw [outside, if_neg hquote, firstClosesAt_cons_closer hclose, and_iff_left (beq_iff_eq.1 hparen)]
    constructor
    · rintro ⟨_, h, hlength⟩
      cases h
      simp only [List.length_cons] at hlength
      omega
    · rintro rfl
      exact ⟨_, rfl, by rw [List.length_cons, Nat.zero_add, Nat.add_comm]⟩
  | case8 literal c rest _ hliteral hquote hopen hclose hparen =>
    cases Bool.eq_false_iff.2 hliteral
    rw [outside, if_neg hquote, firstClosesAt_cons_closer hclose]
    apply iff_of_false
    · rintro ⟨_, h, _⟩
      cases h
    · rintro ⟨_, rfl⟩
      exact hparen rfl
  | case9 literal c rest _ hliteral hquote hopen hclose depth ih =>
    cases Bool.eq_false_iff.2 hliteral
    rw [outside, if_neg hquote]
    refine isClosedAt_cons (fun _ => rfl) (fun d => ?_) (by simp [hopen, hclose]) ih
    rw [closesAt_cons_zero]
    rintro ⟨_, _, h⟩
    cases h
  | case10 literal depth c rest _ hliteral hquote hopen hclose hsep ih
  | case11 literal depth c rest _ hliteral hquote hopen hclose hsep ih =>
    cases Bool.eq_false_iff.2 hliteral
    have hc := Bool.eq_false_iff.2 hclose
    rw [outside, if_neg hquote]
    exact isClosedAt_cons (fun _ => rfl) (not_closesAt_some hc _ _) (by simp [hopen, hclose]) ih

namespace Closed

def body (closed : Closed) : List Char :=
  [';'].intercalate closed.arguments ++ [')']

theorem intercalate_arguments (closed : Closed) :
    [';'].intercalate closed.arguments =
      closed.first ++ closed.others.flatMap fun argument => ';' :: argument := by
  obtain ⟨first, others, rest⟩ := closed
  change [';'].intercalate (first :: others) = first ++ _
  induction others generalizing first with
  | nil => rw [List.intercalate_singleton, List.flatMap_nil, List.append_nil]
  | cons next others ih =>
    rw [List.intercalate_cons_cons, ih, List.flatMap_cons, List.append_assoc]
    rfl

theorem written_eq (closed : Closed) : closed.written = closed.body ++ closed.rest := by
  rw [written, body, intercalate_arguments]
  simp only [List.append_assoc, List.cons_append, List.nil_append]

end Closed

theorem closeList_body (h : closeList text = some closed) : text = closed.body ++ closed.rest := by
  rw [← closed.written_eq, splitFrom_written h]

/-- A text that agrees with another one up to the end of a list has the same list. -/
theorem closeList_of_agree {other : List Char} (h : closeList text = some closed)
    (hagree : ∀ j < closed.body.length, other[j]? = text[j]?) :
    closeList other = some (closed.before (other.drop closed.body.length)) := by
  have htake : other.take closed.body.length = closed.body := by
    apply List.ext_getElem?
    intro j
    rw [List.getElem?_take]
    split
    next hj => rw [hagree j hj, closeList_body h, List.getElem?_append_left hj]
    next hj => exact (List.getElem?_eq_none (Nat.not_lt.1 hj)).symm
  have hother : (closed.before (other.drop closed.body.length)).written = other := by
    rw [Closed.written_eq]
    exact (congrArg (· ++ _) htake.symm).trans (List.take_append_drop _ other)
  have hbefore := (Splits.of_splitFrom h).before (other.drop closed.body.length)
  rwa [hother] at hbefore

theorem closeList_eq_none_iff (text : List Char) :
    closeList text = none ↔ (∀ i c, ¬ClosesAt (outside false text) 0 i c) ∨
      ∃ i, FirstClosesAt (outside false text) 0 i ']' ∨
        FirstClosesAt (outside false text) 0 i '\x7d' := by
  have hclosedAt := isClosedAt_splitFrom_iff false 0 text
  constructor
  · intro hnone
    by_cases hany : ∃ i c, ClosesAt (outside false text) 0 i c
    · obtain ⟨i, c, hcloses⟩ := hany
      obtain ⟨j, d, hfirst⟩ := hcloses.exists_first
      have hd := hfirst.closesAt.isCloser
      simp only [isCloser, Bool.or_eq_true, beq_iff_eq] at hd
      rcases hd with (rfl | rfl) | rfl
      · obtain ⟨closed, hsome, _⟩ := (hclosedAt j).2 hfirst
        rw [← closeList, hnone] at hsome
        cases hsome
      · exact .inr ⟨j, .inl hfirst⟩
      · exact .inr ⟨j, .inr hfirst⟩
    · exact .inl fun i c h => hany ⟨i, c, h⟩
  · intro h
    by_contra hsome
    obtain ⟨closed, hclosed⟩ := Option.ne_none_iff_exists'.1 hsome
    have hlt := rest_length_lt hclosed
    have hfirst := (hclosedAt (text.length - 1 - closed.rest.length)).1
      ⟨closed, hclosed, by omega⟩
    rcases h with hno | ⟨i, h | h⟩
    · exact hno _ _ hfirst.closesAt
    · exact absurd (hfirst.unique h) (by decide)
    · exact absurd (hfirst.unique h) (by decide)

theorem argumentsAt_eq (text : List Char) {opening : Int} (h : -1 ≤ opening) :
    argumentsAt text opening = (closeList (text.drop (opening + 1).toNat)).map fun closed =>
      (closed.arguments, opening + 1 + (closed.body.length : Int)) := by
  rw [argumentsAt, if_neg (by omega), if_neg (by omega)]
  apply Option.map_congr
  intro closed hclosed
  have hlength := congrArg List.length (closeList_body hclosed)
  rw [List.length_append] at hlength
  rw [hlength, Nat.add_sub_cancel]

theorem IsArgument.argumentsAt_eq {x : List Char} (h : IsArgument x) :
    argumentsAt ('(' :: x ++ [')']) 0 = some ([x], (x.length : Int) + 2) := by
  have hclosed : closeList (('(' :: x ++ [')']).drop (0 + 1 : Int).toNat) = some ⟨x, [], []⟩ := h
  rw [Source.argumentsAt_eq _ (by decide), hclosed, Option.map_some, Option.some.injEq,
    Prod.mk.injEq]
  refine ⟨rfl, ?_⟩
  have hlength : (Closed.body ⟨x, [], []⟩).length = x.length + 1 := by
    rw [Closed.body, Closed.arguments, List.intercalate_singleton, List.length_append]
    rfl
  rw [hlength]
  omega

/-- The arguments of a list are found if and only if the first bracket that can close the list is a
parenthesis, and they end behind it; joined they are the text in between, each of them is one
argument by itself, and no character outside of the list matters. -/
theorem argumentsAt_topLevel (text : List Char) {opening : Int} (h : -1 ≤ opening) :
    let body := text.drop (opening + 1).toNat
    let row := outside false body
    (∀ stop, (∃ arguments, argumentsAt text opening = some (arguments, stop)) ↔
      ∃ i : Nat, FirstClosesAt row 0 i ')' ∧ stop - 1 = opening + 1 + i) ∧
      (argumentsAt text opening = none ↔ (∀ i c, ¬ClosesAt row 0 i c) ∨
        ∃ i, FirstClosesAt row 0 i ']' ∨ FirstClosesAt row 0 i '\x7d') ∧
      ∀ arguments stop, argumentsAt text opening = some (arguments, stop) →
        [';'].intercalate arguments = body.take (stop - 1 - (opening + 1)).toNat ∧
          (∀ x ∈ arguments,
            argumentsAt ('(' :: x ++ [')']) 0 = some ([x], (x.length : Int) + 2)) ∧
          ∀ other : List Char,
            (∀ i : Nat, opening + 1 ≤ i → i < stop → other[i]? = text[i]?) →
              argumentsAt other opening = some (arguments, stop) := by
  intro body row
  have hclosedAt : ∀ i, IsClosedAt (closeList body) body i ↔ FirstClosesAt row 0 i ')' :=
    isClosedAt_splitFrom_iff false 0 body
  have hlength {closed : Closed} (hclosed : closeList body = some closed) :
      body.length = closed.body.length + closed.rest.length ∧
        closed.body.length = ([';'].intercalate closed.arguments).length + 1 := by
    refine ⟨?_, List.length_append⟩
    rw [← List.length_append, ← closeList_body hclosed]
  have heq : argumentsAt text opening = (closeList body).map fun closed =>
      (closed.arguments, opening + 1 + (closed.body.length : Int)) := argumentsAt_eq text h
  rw [heq]
  refine ⟨fun stop => ?_, ?_, fun arguments stop hfound => ?_⟩
  · simp only [← hclosedAt, IsClosedAt, Option.map_eq_some_iff, Prod.mk.injEq]
    constructor
    · rintro ⟨_, closed, hclosed, rfl, rfl⟩
      have hbody := hlength hclosed
      exact ⟨closed.body.length - 1, ⟨closed, hclosed, by omega⟩, by omega⟩
    · rintro ⟨i, ⟨closed, hclosed, hi⟩, hstop⟩
      have hbody := hlength hclosed
      exact ⟨_, closed, hclosed, rfl, by omega⟩
  · rw [Option.map_eq_none_iff, closeList_eq_none_iff]
  · obtain ⟨closed, hclosed, he⟩ := Option.map_eq_some_iff.1 hfound
    obtain ⟨rfl, rfl⟩ := Prod.mk.inj he
    have hsplits := Splits.of_splitFrom hclosed
    have hbody := hlength hclosed
    refine ⟨?_, ?_, fun other hagree => ?_⟩
    · have hstop : (opening + 1 + (closed.body.length : Int) - 1 - (opening + 1)).toNat =
          ([';'].intercalate closed.arguments).length := by omega
      rw [hstop, closeList_body hclosed, Closed.body, List.append_assoc, List.take_left]
    · intro x hx
      apply IsArgument.argumentsAt_eq
      rcases List.mem_cons.1 hx with rfl | hx
      · exact hsplits.isArgument.1
      · exact hsplits.isArgument.2 x hx
    · have hrest (j : Nat) (hj : j < closed.body.length) :
          (other.drop (opening + 1).toNat)[j]? = body[j]? := by
        rw [List.getElem?_drop, List.getElem?_drop]
        exact hagree _ (by omega) (by omega)
      rw [argumentsAt_eq other h, closeList_of_agree hclosed hrest]
      rfl

/-- A call with a bracket and a semicolon in a literal, and brackets of two kinds that fit. -/
def bracketsText : List Char :=
  "f(a;\"\\\");]\"; [b)) + g(".toList

theorem argumentsAt_topLevel_bracketsText :
    -1 ≤ (1 : Int) ∧
      argumentsAt bracketsText 1 =
        some (["a".toList, "\"\\\");]\"".toList, " [b)".toList], 17) ∧
      argumentsAt ("(".toList ++ "\"\\\");]\"".toList ++ ")".toList) 0 =
        some (["\"\\\");]\"".toList], 9) ∧
      argumentsAt (bracketsText.take 17 ++ "]\"".toList) 1 =
        some (["a".toList, "\"\\\");]\"".toList, " [b)".toList], 17) := by
  have hfound : argumentsAt bracketsText 1 =
      some (["a".toList, "\"\\\");]\"".toList, " [b)".toList], 17) := by decide +kernel
  obtain ⟨_, _, hall⟩ := argumentsAt_topLevel bracketsText (show -1 ≤ (1 : Int) by decide)
  obtain ⟨_, hatomic, hagree⟩ := hall _ _ hfound
  refine ⟨by decide, hfound, hatomic _ (by simp), hagree _ fun i _ hi => ?_⟩
  rw [List.getElem?_append_left, List.getElem?_take_of_lt]
  · omega
  · rw [List.length_take, show bracketsText.length = 22 by decide]
    omega

end SuiteAtlas.Source
