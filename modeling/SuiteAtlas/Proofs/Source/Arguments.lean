import Mathlib.Data.List.Basic
import SuiteAtlas.Source.Arguments

namespace SuiteAtlas.Source

variable {literal : Bool} {depth : Nat} {text : List Char} {closed : Closed}

namespace Closed

/-- The text of a list from behind its opening parenthesis on. -/
def written (closed : Closed) : List Char :=
  closed.first ++ closed.others.flatMap (fun argument => ';' :: argument) ++ ')' :: closed.rest

theorem written_prepend (chars : List Char) (closed : Closed) :
    (closed.prepend chars).written = chars ++ closed.written := by
  simp only [written, prepend, List.append_assoc]

theorem written_separate (closed : Closed) :
    closed.separate.written = ';' :: closed.written := by
  simp only [written, separate, List.flatMap_cons, List.nil_append, List.cons_append]

end Closed

theorem splitFrom_written (h : splitFrom literal depth text = some closed) :
    closed.written = text := by
  fun_induction splitFrom literal depth text generalizing closed with
  | case1 | case8 => simp at h
  | case7 =>
    rename_i hparen
    rw [Option.some.injEq] at h
    rw [← h, beq_iff_eq.1 hparen]
    rfl
  | case10 =>
    rename_i hsep ih
    obtain ⟨later, hlater, rfl⟩ := Option.map_eq_some_iff.1 h
    rw [Closed.written_separate, ih hlater, beq_iff_eq.1 (Bool.and_eq_true_iff.1 hsep).1]
  | case2 | case3 | case4 | case5 | case6 | case9 | case11 =>
    rename_i ih
    obtain ⟨later, hlater, rfl⟩ := Option.map_eq_some_iff.1 h
    rw [Closed.written_prepend, ih hlater]
    rfl

theorem rest_length_lt (h : splitFrom literal depth text = some closed) :
    closed.rest.length < text.length := by
  rw [← splitFrom_written h, Closed.written, List.length_append, List.length_cons]
  omega

namespace Closed

theorem map_prepend_prepend (chars more : List Char) (read : Option Closed) :
    (read.map (prepend more)).map (prepend chars) = read.map (prepend (chars ++ more)) := by
  rw [Option.map_map]
  congr 1
  funext closed
  simp only [Function.comp_apply, prepend, List.append_assoc]

theorem of_map_prepend {chars x : List Char} {read : Option Closed}
    (h : read.map (prepend chars) = some ⟨chars ++ x, [], []⟩) :
    read = some (⟨x, [], []⟩ : Closed) := by
  obtain ⟨⟨first, others, rest⟩, hread, he⟩ := Option.map_eq_some_iff.1 h
  simp only [prepend, mk.injEq, List.append_cancel_left_eq] at he
  obtain ⟨rfl, rfl, rfl⟩ := he
  exact hread

theorem of_map_separate {x : List Char} {read : Option Closed}
    (h : read.map separate = some ⟨x, [], []⟩) : False := by
  obtain ⟨closed, _, he⟩ := Option.map_eq_some_iff.1 h
  simp [separate] at he

end Closed

variable {c : Char} {rest : List Char}

theorem splitFrom_nil : splitFrom literal depth [] = none :=
  splitFrom.eq_1 literal depth

theorem splitFrom_escape (depth : Nat) (c : Char) (rest : List Char) :
    splitFrom true depth ('\\' :: c :: rest) =
      (splitFrom true depth rest).map (.prepend ['\\', c]) :=
  splitFrom.eq_2 true depth c rest

theorem splitFrom_literal (depth : Nat) (hc : c ≠ '\\' ∨ rest = []) :
    splitFrom true depth (c :: rest) =
      (splitFrom (c != '"') depth rest).map (.prepend [c]) := by
  have hne : ∀ d tail, c = '\\' → rest = d :: tail → False := by
    rintro d tail rfl rfl
    simp at hc
  cases depth with
  | zero => exact splitFrom.eq_3 true c rest hne
  | succ depth => exact splitFrom.eq_4 true c rest depth hne

theorem splitFrom_plain (depth : Nat) (c : Char) (rest : List Char) :
    splitFrom false depth (c :: rest) =
      if c == '"' then (splitFrom true depth rest).map (.prepend [c])
      else if isOpener c then (splitFrom false (depth + 1) rest).map (.prepend [c])
      else if isCloser c then
        match depth with
        | 0 => if c == ')' then some ⟨[], [], rest⟩ else none
        | depth + 1 => (splitFrom false depth rest).map (.prepend [c])
      else if c == ';' && depth == 0 then (splitFrom false depth rest).map .separate
      else (splitFrom false depth rest).map (.prepend [c]) := by
  by_cases hmark : ∃ d tail, c = '\\' ∧ rest = d :: tail
  · obtain ⟨d, tail, rfl, rfl⟩ := hmark
    exact splitFrom.eq_2 false depth d tail
  · have hne : ∀ d tail, c = '\\' → rest = d :: tail → False :=
      fun d tail hc hrest => hmark ⟨d, tail, hc, hrest⟩
    cases depth with
    | zero => exact splitFrom.eq_3 false c rest hne
    | succ depth => exact splitFrom.eq_4 false c rest depth hne

/-- A character outside of literals is taken into the argument, closes the list, fits nowhere, or
ends the argument; which of these it is does not depend on what follows. -/
theorem splitFrom_plain_cases (depth : Nat) (c : Char) :
    (∃ state deep, ∀ rest, splitFrom false depth (c :: rest) =
        (splitFrom state deep rest).map (.prepend [c])) ∨
      (∀ rest, splitFrom false depth (c :: rest) = some ⟨[], [], rest⟩) ∨
      (∀ rest, splitFrom false depth (c :: rest) = none) ∨
      ∀ rest, splitFrom false depth (c :: rest) = (splitFrom false depth rest).map .separate := by
  by_cases hq : (c == '"') = true
  · exact .inl ⟨true, depth, fun rest => by rw [splitFrom_plain, if_pos hq]⟩
  by_cases ho : isOpener c = true
  · exact .inl ⟨false, depth + 1, fun rest => by rw [splitFrom_plain, if_neg hq, if_pos ho]⟩
  by_cases hc : isCloser c = true
  · cases depth with
    | succ depth =>
      exact .inl ⟨false, depth, fun rest => by
        rw [splitFrom_plain, if_neg hq, if_neg ho, if_pos hc]⟩
    | zero =>
      by_cases hp : (c == ')') = true
      · refine .inr (.inl fun rest => ?_)
        rw [splitFrom_plain, if_neg hq, if_neg ho, if_pos hc]
        exact if_pos hp
      · refine .inr (.inr (.inl fun rest => ?_))
        rw [splitFrom_plain, if_neg hq, if_neg ho, if_pos hc]
        exact if_neg hp
  by_cases hs : (c == ';' && depth == 0) = true
  · refine .inr (.inr (.inr fun rest => ?_))
    rw [splitFrom_plain, if_neg hq, if_neg ho, if_neg hc, if_pos hs]
  · exact .inl ⟨false, depth, fun rest => by
      rw [splitFrom_plain, if_neg hq, if_neg ho, if_neg hc, if_neg hs]⟩

theorem eq_of_splitFrom_close (h : splitFrom literal depth [')'] = some ⟨[], [], []⟩) :
    literal = false ∧ depth = 0 := by
  cases literal with
  | true =>
    rw [splitFrom_literal depth (.inr rfl), splitFrom_nil] at h
    simp at h
  | false =>
    cases depth with
    | zero => exact ⟨rfl, rfl⟩
    | succ depth =>
      rw [splitFrom_plain] at h
      simp [isOpener, isCloser, splitFrom_nil] at h

/-- A text that is one argument is one in front of any text. -/
theorem splitFrom_append {x : List Char} (tail : List Char)
    (h : splitFrom literal depth (x ++ [')']) = some ⟨x, [], []⟩) :
    splitFrom literal depth (x ++ tail) = (splitFrom false 0 tail).map (.prepend x) := by
  induction hn : x.length using Nat.strongRecOn generalizing x literal depth with
  | ind n ih =>
    subst hn
    -- what is left of the argument is read on from the state behind the characters in front
    have hrest {state : Bool} {deep : Nat} (chars x' : List Char) (hx : x = chars ++ x')
        (hchars : 0 < chars.length)
        (h' : (splitFrom state deep (x' ++ [')'])).map (Closed.prepend chars) =
          some ⟨x, [], []⟩) :
        (splitFrom state deep (x' ++ tail)).map (Closed.prepend chars) =
          (splitFrom false 0 tail).map (Closed.prepend x) := by
      have hlt : x'.length < x.length := by
        rw [hx, List.length_append]
        omega
      rw [hx] at h'
      rw [ih x'.length hlt (Closed.of_map_prepend h') rfl, Closed.map_prepend_prepend, hx]
    cases x with
    | nil =>
      obtain ⟨rfl, rfl⟩ := eq_of_splitFrom_close h
      exact Option.map_id'.symm
    | cons c x =>
      rw [List.cons_append] at h ⊢
      cases literal with
      | true =>
        by_cases hc : c = '\\'
        · subst hc
          cases x with
          | nil =>
            rw [List.nil_append, splitFrom_escape, splitFrom_nil] at h
            simp at h
          | cons d x =>
            rw [List.cons_append, splitFrom_escape] at h ⊢
            exact hrest ['\\', d] x rfl Nat.two_pos h
        · rw [splitFrom_literal depth (.inl hc)] at h ⊢
          exact hrest [c] x rfl Nat.one_pos h
      | false =>
        rcases splitFrom_plain_cases depth c with ⟨state, deep, he⟩ | he | he | he
        · rw [he] at h ⊢
          exact hrest [c] x rfl Nat.one_pos h
        · rw [he] at h
          simp at h
        · rw [he] at h
          simp at h
        · rw [he] at h
          exact (Closed.of_map_separate h).elim

end SuiteAtlas.Source
