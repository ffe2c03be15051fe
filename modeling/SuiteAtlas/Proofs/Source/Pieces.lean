import SuiteAtlas.Proofs.Source.Order

namespace SuiteAtlas.Source

open Text (goesOn withoutMark)

variable {line first last : List Char} {before : Option Char} {call : Call}
  {rest parts rows broken : List (List Char)} {k : Nat}

/-- A part of a line, with the mark that lets it go on. -/
def withMark (part : List Char) : List Char :=
  part ++ ['\\']

theorem goesOn_withMark {part : List Char} (h : part.getLast? ≠ some '\\') :
    goesOn (withMark part) = true ∧ withoutMark (withMark part) = part := by
  have htrim : Text.trimEnd (withMark part) = part ++ ['\\'] :=
    Text.dropEndWhile_append_cons (by decide)
  have hmarks : part.reverse.takeWhile (· == '\\') = [] := by
    rw [← List.head?_reverse] at h
    cases hreverse : part.reverse with
    | nil => rfl
    | cons c more =>
      rw [hreverse] at h
      exact List.takeWhile_cons_of_neg fun hc => h (congrArg some (beq_iff_eq.1 hc))
  constructor
  · rw [goesOn, htrim, Text.takeEndWhile, List.reverse_append, List.reverse_singleton,
      List.singleton_append, List.takeWhile_cons_of_pos (by decide), hmarks]
    rfl
  · rw [withoutMark, htrim, List.dropLast_concat]

theorem callHere?_of_withMark {part operator tail : List Char}
    (h : callHere? (withMark part) = some (operator, tail)) (post : List Char) :
    ∃ more, callHere? (part ++ post) = some (operator, more) := by
  obtain ⟨c, head, he, _, hother⟩ := callHere?_spec h
  rcases List.eq_nil_or_concat tail with rfl | ⟨more, last, rfl⟩
  · have hlast := congrArg List.getLast? he
    rw [withMark, List.getLast?_concat, ← List.cons_append, List.getLast?_concat] at hlast
    exact absurd hlast (by decide)
  · rw [List.concat_eq_append, ← List.cons_append, ← List.cons_append, ← List.append_assoc] at he
    obtain ⟨rfl, _⟩ := List.append_inj' he rfl
    refine ⟨more ++ post, ?_⟩
    rw [List.append_assoc]
    exact hother (more ++ post)

theorem findCall?_withMark {part post : List Char}
    (h : findCall? before (part ++ post) = some call)
    (hle : call.offset + call.head ≤ part.length) :
    findCall? before (withMark part) = some call := by
  induction part generalizing before call with
  | nil =>
    obtain ⟨_, _, head, _, _, _, _, hhead, _⟩ := findCall?_spec h
    rw [List.length_nil] at hle
    omega
  | cons c part ih =>
    change findCall? before (c :: withMark part) = some call
    rw [List.cons_append] at h
    rw [findCall?_cons_eq_some_iff] at h ⊢
    rcases h with ⟨operator, tail, hbefore, hhere, rfl⟩ | ⟨hnone, later, hlater, rfl⟩
    · left
      obtain ⟨d, head, he, _, hother⟩ := callHere?_spec hhere
      obtain ⟨rfl, hrest⟩ := List.cons.inj he
      have hle : 0 + ((c :: (part ++ post)).length - tail.length) ≤ part.length + 1 := hle
      rw [he, List.length_cons, List.length_append, List.length_cons] at hle
      -- the parenthesis is in the part
      have hfront : head ++ ['('] <+: part ++ post :=
        ⟨tail, by rw [hrest, List.append_assoc, List.singleton_append]⟩
      have hlength : (head ++ ['(']).length ≤ part.length := by
        rw [List.length_append, List.length_singleton]
        omega
      obtain ⟨more, rfl⟩ :=
        List.prefix_of_prefix_length_le hfront (List.prefix_append part post) hlength
      have hmore : withMark (head ++ ['('] ++ more) = head ++ '(' :: withMark more := by
        simp only [withMark, List.append_assoc, List.cons_append, List.nil_append]
      refine ⟨operator, withMark more, hbefore, hmore ▸ hother (withMark more), ?_⟩
      rw [he, hmore]
      congr 1
      simp only [List.length_cons, List.length_append]
      omega
    · right
      have hle : later.offset + 1 + later.head ≤ part.length + 1 := hle
      refine ⟨fun hbefore => ?_, later, ih hlater (by omega), rfl⟩
      by_contra hsome
      obtain ⟨⟨operator, tail⟩, hcall⟩ := Option.ne_none_iff_exists'.1 hsome
      have hcall : callHere? (withMark (c :: part)) = some (operator, tail) := hcall
      obtain ⟨more, hmore⟩ := callHere?_of_withMark hcall post
      rw [List.cons_append, hnone hbefore] at hmore
      cases hmore

def piecesOf : List (List Char) → List (List Char)
  | [] => []
  | line :: more => statementPieces line more

theorem piecesOf_cons_of_goesOn (h : goesOn line = true) (rows : List (List Char)) :
    piecesOf (line :: rows) = withoutMark line :: piecesOf rows := by
  cases rows with
  | nil => exact if_pos h
  | cons next rows => exact if_pos h

theorem piecesOf_map_withMark (h : ∀ part ∈ parts, part.getLast? ≠ some '\\')
    (rows : List (List Char)) :
    piecesOf (parts.map withMark ++ rows) = parts ++ piecesOf rows := by
  induction parts with
  | nil => rfl
  | cons part parts ih =>
    obtain ⟨hpart, hparts⟩ := List.forall_mem_cons.1 h
    obtain ⟨hgo, hwithout⟩ := goesOn_withMark hpart
    rw [List.map_cons, List.cons_append, piecesOf_cons_of_goesOn hgo, hwithout, ih hparts]
    rfl

/-- Of a line that holds a closing parenthesis, what stands before this is in its piece. -/
theorem exists_piecesOf_eq (hclose : ')' ∈ last) (rows : List (List Char)) :
    ∃ piece more, ∀ pre, piecesOf ((pre ++ last) :: rows) = (pre ++ piece) :: more := by
  obtain ⟨front, post, rfl⟩ := List.append_of_mem hclose
  have hblank : Text.isBlank ')' = false := by decide
  have hslash : ')' ≠ '\\' := by decide
  have hsame (pre : List Char) :
      goesOn (pre ++ (front ++ ')' :: post)) = goesOn (front ++ ')' :: post) := by
    rw [← List.append_assoc, Text.goesOn_append_cons hblank hslash,
      Text.goesOn_append_cons hblank hslash]
  by_cases hgo : goesOn (front ++ ')' :: post) = true
  · refine ⟨withoutMark (front ++ ')' :: post), piecesOf rows, fun pre => ?_⟩
    have hgo' := (hsame pre).trans hgo
    rw [piecesOf_cons_of_goesOn hgo']
    rw [← List.append_assoc] at hgo' ⊢
    rw [Text.withoutMark_append_cons hblank hslash hgo', Text.withoutMark_append_cons hblank hslash hgo,
      List.append_assoc]
  · refine ⟨front ++ ')' :: post, [], fun pre => statementPieces_of_ends ?_ rows⟩
    rw [hsame]
    exact Bool.eq_false_iff.2 hgo

/-- Pieces of a statement, and the pieces after one of them, the `k`th, was broken into parts; it
may be that the statement ends before it. -/
def IsBroken (k : Nat) (parts pieces broken : List (List Char)) : Prop :=
  pieces = broken ∧ pieces.length ≤ k ∨ ∃ before piece after, before.length = k ∧
    pieces = before ++ (parts.flatten ++ piece) :: after ∧
    broken = before ++ (parts ++ piece :: after)

theorem isBroken_piecesOf (hmark : ∀ part ∈ parts, part.getLast? ≠ some '\\') (hclose : ')' ∈ last)
    (above below : List (List Char)) :
    IsBroken above.length parts (piecesOf (above ++ (parts.flatten ++ last) :: below))
      (piecesOf (above ++ (parts.map withMark ++ last :: below))) := by
  induction above with
  | nil =>
    obtain ⟨piece, more, hpieces⟩ := exists_piecesOf_eq hclose below
    refine .inr ⟨[], piece, more, rfl, hpieces parts.flatten, ?_⟩
    rw [List.nil_append, List.nil_append, piecesOf_map_withMark hmark]
    exact congrArg _ (hpieces [])
  | cons row above ih =>
    rw [List.cons_append, List.cons_append]
    by_cases hgo : goesOn row = true
    · rw [piecesOf_cons_of_goesOn hgo, piecesOf_cons_of_goesOn hgo]
      rcases ih with ⟨he, hlength⟩ | ⟨before, piece, after, hlength, he, he'⟩
      · exact .inl ⟨congrArg _ he, Nat.succ_le_succ hlength⟩
      · refine .inr ⟨withoutMark row :: before, piece, after, congrArg Nat.succ hlength, ?_, ?_⟩
        · rw [he, List.cons_append]
        · rw [he', List.cons_append]
    · have hends := Bool.eq_false_iff.2 hgo
      refine .inl ⟨?_, ?_⟩
      · exact (statementPieces_of_ends hends _).trans (statementPieces_of_ends hends _).symm
      · exact Nat.le_trans (Nat.le_of_eq (congrArg List.length (statementPieces_of_ends hends _)))
          (Nat.succ_le_succ (Nat.zero_le _))

namespace IsBroken

theorem flatten_eq (h : IsBroken k parts rows broken) : rows.flatten = broken.flatten := by
  rcases h with ⟨rfl, _⟩ | ⟨before, piece, after, _, rfl, rfl⟩
  · rfl
  · simp only [List.flatten_append, List.flatten_cons, List.append_assoc]

theorem locate_eq_of_le (h : IsBroken k (first :: rest) rows broken) (hrows : rows ≠ [])
    {length : Nat} (hle : (locate length rows).1 < k ∨
      (locate length rows).1 = k ∧ (locate length rows).2 ≤ first.length) :
    locate length broken = locate length rows := by
  rcases h with ⟨rfl, _⟩ | ⟨before, piece, after, rfl, rfl, rfl⟩
  · rfl
  obtain ⟨front, own, more, column, he, rfl, hlocate, hstart, hend⟩ := exists_locate_eq length hrows
  rw [hlocate] at hle ⊢
  rcases hle with hlt | ⟨hk, hle⟩
  · -- the place is in a piece before the broken one
    obtain ⟨between, rfl, rfl⟩ : ∃ between, before = front ++ own :: between ∧
        more = between ++ ((first :: rest).flatten ++ piece) :: after := by
      have hlt : front.length < before.length := hlt
      rcases List.append_eq_append_iff.1 he with ⟨gap, rfl, _⟩ | ⟨gap, hbefore, hmore⟩
      · rw [List.length_append] at hlt
        omega
      · cases gap with
        | nil =>
          rw [hbefore, List.append_nil] at hlt
          exact absurd hlt (Nat.lt_irrefl _)
        | cons row between =>
          obtain ⟨rfl, rfl⟩ := List.cons.inj hmore
          exact ⟨between, hbefore, rfl⟩
    rw [List.append_assoc, List.cons_append]
    exact locate_append hstart (.inl (hend.resolve_right (by simp)))
  · obtain ⟨rfl, _⟩ := List.append_inj he hk.symm
    exact locate_append hstart (.inl hle)

theorem locate_eq_of_lt (h : IsBroken k parts rows broken) (hrows : rows ≠ []) {length : Nat}
    (hk : (locate length rows).1 = k) (hlt : parts.flatten.length < (locate length rows).2) :
    locate length broken =
      (k + parts.length, (locate length rows).2 - parts.flatten.length) := by
  obtain ⟨front, own, more, column, he, rfl, hlocate, _, hend⟩ := exists_locate_eq length hrows
  rw [hlocate] at hk hlt ⊢
  have hk : front.length = k := hk
  rcases h with ⟨rfl, hlength⟩ | ⟨before, piece, after, rfl, rfl, rfl⟩
  · rw [he, List.length_append, List.length_cons, hk] at hlength
    omega
  · obtain ⟨rfl, hmore⟩ := List.append_inj he hk.symm
    obtain ⟨rfl, rfl⟩ := List.cons.inj hmore
    have hstart : 0 < column - parts.flatten.length := Nat.sub_pos_of_lt hlt
    have hend' : column - parts.flatten.length ≤ piece.length ∨ after = [] := by
      rw [List.length_append] at hend
      exact hend.imp (by omega) id
    have hplace : locate ((before ++ parts).flatten.length + (column - parts.flatten.length))
        (before ++ parts ++ piece :: after) = _ := locate_append (.inl hstart) hend'
    have hlength : (before ++ parts).flatten.length + (column - parts.flatten.length) =
        before.flatten.length + column := by
      rw [List.flatten_append, List.length_append]
      omega
    rw [hlength, List.append_assoc, List.length_append] at hplace
    exact hplace

end IsBroken

end SuiteAtlas.Source
