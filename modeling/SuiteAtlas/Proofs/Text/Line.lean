import Mathlib.Data.List.DropRight
import Mathlib.Data.List.TakeWhile
import SuiteAtlas.Text.Line
import SuiteAtlas.Text.Word

namespace SuiteAtlas.Text

variable {c : Char} {p : Char → Bool} {pre post : List Char}

def blankCodes : List Nat :=
  [0x09, 0x0a, 0x0b, 0x0c, 0x0d, 0x1c, 0x1d, 0x1e, 0x1f, 0x20, 0x85, 0xa0, 0x1680, 0x2000, 0x2001,
    0x2002, 0x2003, 0x2004, 0x2005, 0x2006, 0x2007, 0x2008, 0x2009, 0x200a, 0x2028, 0x2029, 0x202f,
    0x205f, 0x3000]

theorem toNat_mem_blankCodes (h : isBlank c = true) : c.toNat ∈ blankCodes := by
  simp only [isBlank, Bool.or_eq_true, Bool.and_eq_true, decide_eq_true_eq, beq_iff_eq] at h
  simp only [blankCodes, List.mem_cons, List.not_mem_nil, or_false]
  omega

theorem isBlank_of_isWord (h : isWord c = true) : isBlank c = false := by
  by_contra hb
  have hmem := toNat_mem_blankCodes (Bool.not_eq_false _ ▸ hb)
  have hnone : ∀ n ∈ blankCodes, isWord (Char.ofNat n) = false := by decide +kernel
  have hc := hnone _ hmem
  rw [Char.ofNat_toNat, h] at hc
  exact absurd hc (by decide)

theorem dropEndWhile_append_cons (hc : p c = false) :
    dropEndWhile p (pre ++ c :: post) = pre ++ c :: dropEndWhile p post := by
  have hsplit : (pre ++ c :: post).reverse = post.reverse ++ c :: pre.reverse := by
    rw [List.reverse_append, List.reverse_cons, List.append_assoc]
    rfl
  rw [dropEndWhile, dropEndWhile, hsplit, List.dropWhile_append]
  split
  next he =>
    rw [List.isEmpty_iff.1 he, List.dropWhile_cons_of_neg (by simp [hc]), List.reverse_cons,
      List.reverse_reverse]
    rfl
  next =>
    rw [List.reverse_append, List.reverse_cons, List.reverse_reverse, List.append_assoc]
    rfl

theorem takeEndWhile_append_cons (hc : p c = false) :
    takeEndWhile p (pre ++ c :: post) = takeEndWhile p post := by
  have hsplit : (pre ++ c :: post).reverse = post.reverse ++ c :: pre.reverse := by
    rw [List.reverse_append, List.reverse_cons, List.append_assoc]
    rfl
  rw [takeEndWhile, takeEndWhile, hsplit, List.takeWhile_append]
  split
  next he =>
    rw [List.takeWhile_cons_of_neg (by simp [hc]), List.append_nil,
      List.takeWhile_eq_self_iff.2 (by
        intro a ha
        exact List.mem_takeWhile_imp ((List.takeWhile_sublist p).eq_of_length he ▸ ha))]
  next => rfl

theorem takeWhile_append_cons (hpre : ∀ d ∈ pre, p d = true) (hc : p c = false) :
    (pre ++ c :: post).takeWhile p = pre := by
  rw [List.takeWhile_append_of_pos hpre, List.takeWhile_cons_of_neg (by simp [hc]),
    List.append_nil]

theorem dropWhile_append_cons (hpre : ∀ d ∈ pre, p d = true) (hc : p c = false) :
    (pre ++ c :: post).dropWhile p = c :: post := by
  rw [List.dropWhile_append_of_pos hpre, List.dropWhile_cons_of_neg (by simp [hc])]

theorem trim_cons_blank (text : List Char) : trim (' ' :: text) = trim text := by
  rw [trim, trim, trimStart, List.dropWhile_cons_of_pos (by decide)]
  rfl

theorem isBlank_of_getLast?_trim {text : List Char} (h : (trim text).getLast? = some c) :
    isBlank c = false := by
  have hne : trim text ≠ [] := by
    rintro hnil
    rw [hnil] at h
    exact absurd h (by simp)
  rw [List.getLast?_eq_some_getLast hne, Option.some.injEq] at h
  have hlast := List.rdropWhile_last_not isBlank (trimStart text) hne
  rw [← h]
  exact Bool.eq_false_iff.2 hlast

/-- Whether a line goes on is decided behind any character that is no blank and no backslash. -/
theorem goesOn_append_cons (hblank : isBlank c = false) (hmark : c ≠ '\\') :
    goesOn (pre ++ c :: post) = goesOn (c :: post) := by
  have hc : (c == '\\') = false := beq_eq_false_iff_ne.2 hmark
  have hsuffix (pre : List Char) : takeEndWhile (· == '\\') (trimEnd (pre ++ c :: post)) =
      takeEndWhile (· == '\\') (trimEnd post) := by
    rw [trimEnd, dropEndWhile_append_cons hblank]
    exact takeEndWhile_append_cons hc
  rw [goesOn, goesOn, hsuffix, ← hsuffix [], List.nil_append]

theorem withoutMark_isPrefix (line : List Char) : withoutMark line <+: line := by
  have hsplit := List.prefix_append (trimEnd line) (takeEndWhile isBlank line)
  rw [trimEnd, dropEndWhile_append_takeEndWhile] at hsplit
  exact (List.dropLast_prefix _).trans hsplit

theorem piece_isPrefix (line : List Char) :
    (if goesOn line then withoutMark line else line) <+: line := by
  split
  next => exact withoutMark_isPrefix line
  next => exact List.prefix_refl line

theorem withoutMark_append_cons (hblank : isBlank c = false) (hmark : c ≠ '\\')
    (hgo : goesOn (pre ++ c :: post) = true) :
    withoutMark (pre ++ c :: post) = pre ++ c :: withoutMark post := by
  have hpost : trimEnd post ≠ [] := by
    intro hnil
    have hc : (c == '\\') = false := beq_eq_false_iff_ne.2 hmark
    have hmarks : takeEndWhile (· == '\\') (pre ++ c :: trimEnd post) =
        takeEndWhile (· == '\\') (trimEnd post) := takeEndWhile_append_cons hc
    rw [goesOn, trimEnd, dropEndWhile_append_cons hblank, ← trimEnd, hmarks, hnil] at hgo
    cases hgo
  rw [withoutMark, withoutMark, trimEnd, dropEndWhile_append_cons hblank, ← trimEnd,
    List.dropLast_append_of_ne_nil (List.cons_ne_nil _ _), List.dropLast_cons_of_ne_nil hpost]

theorem exists_piece_eq (pre post : List Char) (hblank : isBlank c = false) (hmark : c ≠ '\\') :
    ∃ tail, (if goesOn (pre ++ c :: post) then withoutMark (pre ++ c :: post)
      else pre ++ c :: post) = pre ++ c :: tail := by
  split
  next hgo => exact ⟨_, withoutMark_append_cons hblank hmark hgo⟩
  next => exact ⟨post, rfl⟩

theorem mem_intercalate {sep : List Char} {words : List (List Char)}
    (h : c ∈ sep.intercalate words) : c ∈ sep ∨ ∃ word ∈ words, c ∈ word := by
  induction words with
  | nil => simp at h
  | cons word words ih =>
    cases words with
    | nil =>
      rw [List.intercalate_singleton] at h
      exact .inr ⟨word, List.mem_cons_self, h⟩
    | cons next words =>
      rw [List.intercalate_cons_cons, List.mem_append, List.mem_append] at h
      rcases h with (hword | hsep) | hrest
      · exact .inr ⟨word, List.mem_cons_self, hword⟩
      · exact .inl hsep
      · rcases ih hrest with hsep | ⟨other, hmem, hc⟩
        · exact .inl hsep
        · exact .inr ⟨other, List.mem_cons_of_mem _ hmem, hc⟩

theorem getLast?_intercalate (sep : List Char) {words : List (List Char)} (hwords : words ≠ [])
    (hne : ∀ word ∈ words, word ≠ []) :
    ∃ word ∈ words, (sep.intercalate words).getLast? = word.getLast? := by
  induction words with
  | nil => exact absurd rfl hwords
  | cons word words ih =>
    cases words with
    | nil => exact ⟨word, List.mem_cons_self, by rw [List.intercalate_singleton]⟩
    | cons next words =>
      obtain ⟨other, hmem, hlast⟩ :=
        ih (List.cons_ne_nil _ _) fun x hx => hne x (List.mem_cons_of_mem _ hx)
      have hother := hne other (List.mem_cons_of_mem _ hmem)
      refine ⟨other, List.mem_cons_of_mem _ hmem, ?_⟩
      rw [List.intercalate_cons_cons, List.getLast?_append, hlast,
        List.getLast?_eq_some_getLast hother, Option.some_or]

theorem notMem_of_mem_splitOn {text piece : List Char} (h : piece ∈ text.splitOn c) :
    c ∉ piece := by
  rw [List.splitOn_eq_splitOnP] at h
  induction text generalizing piece with
  | nil =>
    rw [List.splitOnP_nil, List.mem_singleton] at h
    subst h
    exact List.not_mem_nil
  | cons d rest ih =>
    rw [List.splitOnP_cons_eq_if_modifyHead] at h
    split at h
    · rcases List.mem_cons.1 h with rfl | h
      · exact List.not_mem_nil
      · exact ih h
    next hd =>
      obtain ⟨first, others, he⟩ := List.exists_cons_of_ne_nil (List.splitOnP_ne_nil (· == c) rest)
      rw [he] at h ih
      rcases List.mem_cons.1 h with rfl | h
      · rw [List.mem_cons, not_or]
        refine ⟨?_, ih List.mem_cons_self⟩
        rintro rfl
        exact hd (beq_self_eq_true c)
      · exact ih (List.mem_cons_of_mem _ h)

theorem intercalate_intercalate (sep : List Char) {words : List (List Char)} (hwords : words ≠ [])
    (above below : List (List Char)) :
    sep.intercalate (above ++ sep.intercalate words :: below) =
      sep.intercalate (above ++ (words ++ below)) := by
  induction above with
  | nil =>
    cases below with
    | nil => rw [List.append_nil, List.nil_append, List.nil_append, List.intercalate_singleton]
    | cons other below =>
      induction words with
      | nil => exact absurd rfl hwords
      | cons word words ih =>
        cases words with
        | nil => rw [List.intercalate_singleton]; rfl
        | cons next words =>
          have ih := ih (List.cons_ne_nil _ _)
          rw [List.nil_append, List.nil_append] at ih ⊢
          calc sep.intercalate (sep.intercalate (word :: next :: words) :: other :: below)
            _ = word ++ sep ++ sep.intercalate (sep.intercalate (next :: words) :: other :: below) := by
              rw [List.intercalate_cons_cons, List.intercalate_cons_cons,
                List.intercalate_cons_cons]
              simp only [List.append_assoc]
            _ = sep.intercalate (word :: next :: words ++ other :: below) := by
              rw [ih, List.cons_append, List.cons_append, List.cons_append,
                List.intercalate_cons_cons]
  | cons word above ih =>
    rw [List.cons_append, List.cons_append, List.intercalate_cons_of_ne_nil (by simp), ih,
      List.intercalate_cons_of_ne_nil (by simp [hwords])]

theorem exists_carriageReturn (row : List Char) :
    ∃ post, row = dropCarriageReturn row ++ post ∧ ∀ pre : List Char,
      pre.getLast? = (dropCarriageReturn row).getLast? → dropCarriageReturn (pre ++ post) = pre := by
  rw [dropCarriageReturn]
  split
  next hlast =>
    obtain ⟨pre, rfl⟩ := List.getLast?_eq_some_iff.1 hlast
    refine ⟨['\r'], by rw [List.dropLast_concat], fun pre _ => ?_⟩
    rw [dropCarriageReturn, List.getLast?_concat, if_pos rfl, List.dropLast_concat]
  next hlast =>
    refine ⟨[], (List.append_nil row).symm, fun pre hpre => ?_⟩
    rw [List.append_nil, dropCarriageReturn, if_neg (hpre ▸ hlast)]

/-- A text that is read back as one line when a line feed is put behind it. -/
def IsLine (row : List Char) : Prop :=
  '\n' ∉ row ∧ row.getLast? ≠ some '\r'

/-- Lines that are written with a line feed behind each of them are the lines of the text; one more
is empty. -/
theorem lines_flatMap {rows : List (List Char)} (h : ∀ row ∈ rows, IsLine row) :
    lines (rows.flatMap fun row => row ++ ['\n']) = rows ++ [[]] := by
  induction rows with
  | nil => rfl
  | cons row rows ih =>
    obtain ⟨hfeed, hreturn⟩ := h row List.mem_cons_self
    have hih := ih fun other hmem => h other (List.mem_cons_of_mem _ hmem)
    rw [lines] at hih
    rw [List.flatMap_cons, List.append_assoc, List.singleton_append, lines,
      List.splitOn_append_cons_self_of_not_mem hfeed, List.map_cons, hih, dropCarriageReturn,
      if_neg hreturn]
    rfl

/-- Every carriage return stands before a line feed. -/
def PairsReturns (text : List Char) : Prop :=
  ∀ i < text.length, text[i]? = some '\r' → text[i + 1]? = some '\n'

instance (text : List Char) : Decidable (PairsReturns text) :=
  inferInstanceAs (Decidable (∀ i < text.length, _))

theorem PairsReturns.tail {text : List Char} (h : PairsReturns (c :: text)) : PairsReturns text :=
  fun i hi hreturn => h (i + 1) (Nat.succ_lt_succ hi) hreturn

theorem lines_lineFeed (text : List Char) : lines ('\n' :: text) = [] :: lines text := by
  rw [lines, lines, List.splitOn_eq_splitOnP, List.splitOnP_cons_eq_if_modifyHead,
    if_pos (beq_self_eq_true '\n')]
  rfl

theorem dropCarriageReturn_cons (hreturn : c ≠ '\r') (line : List Char) :
    dropCarriageReturn (c :: line) = c :: dropCarriageReturn line := by
  cases line with
  | nil =>
    have hlast : [c].getLast? ≠ some '\r' := fun he => hreturn (Option.some.inj he)
    rw [dropCarriageReturn, if_neg hlast]
    rfl
  | cons d line =>
    rw [dropCarriageReturn, dropCarriageReturn, List.getLast?_cons_cons, List.dropLast_cons_cons]
    split <;> rfl

theorem lines_cons (hfeed : c ≠ '\n') (hreturn : c ≠ '\r') (text : List Char) :
    lines (c :: text) = (lines text).modifyHead (c :: ·) := by
  obtain ⟨first, others, he⟩ := List.exists_cons_of_ne_nil (List.splitOnP_ne_nil (· == '\n') text)
  rw [lines, lines, List.splitOn_eq_splitOnP, List.splitOnP_cons_eq_if_modifyHead,
    if_neg (by simpa using hfeed), List.splitOn_eq_splitOnP, he]
  exact congrArg (· :: _) (dropCarriageReturn_cons hreturn first)

theorem lines_return_lineFeed (text : List Char) :
    lines ('\r' :: '\n' :: text) = [] :: lines text := by
  rw [lines, List.splitOn_eq_splitOnP, List.splitOnP_cons_eq_if_modifyHead,
    if_neg (by decide), List.splitOnP_cons_eq_if_modifyHead, if_pos (beq_self_eq_true '\n'), lines,
    List.splitOn_eq_splitOnP]
  rfl

/-- The lines of a text are the same if its line ends are written as line feeds. -/
theorem lines_unifyLineEnds {text : List Char} (h : PairsReturns text) :
    lines (unifyLineEnds text) = lines text := by
  -- a carriage return is read together with its line feed, so the third case has none
  fun_induction unifyLineEnds text with
  | case1 => rfl
  | case2 rest ih => rw [lines_lineFeed, lines_return_lineFeed, ih h.tail.tail]
  | case3 c rest hpair ih =>
    have hreturn : c ≠ '\r' := by
      rintro rfl
      have hnext : rest[0]? = some '\n' := h 0 (Nat.succ_pos _) rfl
      obtain ⟨more, rfl⟩ := List.head?_eq_some_iff.1 (List.head?_eq_getElem?.trans hnext)
      exact hpair more rfl rfl
    rw [if_neg hreturn]
    by_cases hfeed : c = '\n'
    · rw [hfeed, lines_lineFeed, lines_lineFeed, ih h.tail]
    · rw [lines_cons hfeed hreturn, lines_cons hfeed hreturn, ih h.tail]

end SuiteAtlas.Text
