import SuiteAtlas.Proofs.Source.Pattern

namespace SuiteAtlas.Source

open Text (after? isBlank isWord trimStart)

variable {word : List Char} {p : Char → Bool}

theorem after?_paren (hword : '(' ∉ word) (pre post : List Char) :
    after? word (pre ++ '(' :: post) = (after? word pre).map (· ++ '(' :: post) := by
  induction word generalizing pre with
  | nil => rfl
  | cons c word ih =>
    cases pre with
    | nil => exact if_neg (List.ne_of_not_mem_cons hword).symm
    | cons d pre =>
      rw [List.cons_append, after?, after?]
      split
      next => exact ih (List.not_mem_of_not_mem_cons hword) pre
      next => rfl

theorem takeWhile_paren (hp : p '(' = false) (pre post : List Char) :
    (pre ++ '(' :: post).takeWhile p = pre.takeWhile p := by
  induction pre with
  | nil => exact List.takeWhile_cons_of_neg (by simp [hp])
  | cons c pre ih => rw [List.cons_append, List.takeWhile_cons, List.takeWhile_cons, ih]

theorem dropWhile_paren (hp : p '(' = false) (pre post : List Char) :
    (pre ++ '(' :: post).dropWhile p = pre.dropWhile p ++ '(' :: post := by
  induction pre with
  | nil => exact List.dropWhile_cons_of_neg (by simp [hp])
  | cons c pre ih =>
    rw [List.cons_append, List.dropWhile_cons, List.dropWhile_cons, ih]
    split
    next => rfl
    next => rfl

theorem skipGap?_paren (pre post : List Char) :
    skipGap? (pre ++ '(' :: post) = (skipGap? pre).map (· ++ '(' :: post) := by
  cases pre with
  | nil => rfl
  | cons c pre =>
    rw [List.cons_append, skipGap?, skipGap?]
    split
    next => exact congrArg some (dropWhile_paren (by decide) pre post)
    next => rfl

theorem startsWithWord_paren (hword : '(' ∉ word) (pre post other : List Char) :
    startsWithWord word (pre ++ '(' :: post) = startsWithWord word (pre ++ '(' :: other) := by
  rw [startsWithWord, startsWithWord, after?_paren hword, after?_paren hword]
  cases after? word pre with
  | none => rfl
  | some rest =>
    cases rest with
    | nil => rfl
    | cons c rest => rfl

theorem leadsToMethod_eq (text : List Char) :
    leadsToMethod text =
      if startsWithWord functionWord text || startsWithWord constructorWord text then true
      else if (text.takeWhile Text.isAsciiLetter).isEmpty then false
      else (skipGap? (text.dropWhile Text.isAsciiLetter)).elim false leadsToMethod := by
  conv => lhs; rw [leadsToMethod]
  split
  next => rfl
  next =>
    split
    next => rfl
    next =>
      split
      next rest h => rw [h, Option.elim_some]
      next h => rw [h, Option.elim_none]

theorem leadsToMethod_paren (pre post other : List Char) :
    leadsToMethod (pre ++ '(' :: post) = leadsToMethod (pre ++ '(' :: other) := by
  induction hn : pre.length using Nat.strongRecOn generalizing pre with
  | ind n ih =>
    have hfunction : '(' ∉ functionWord := by decide
    have hconstructor : '(' ∉ constructorWord := by decide
    have hletter : Text.isAsciiLetter '(' = false := by decide
    rw [leadsToMethod_eq, leadsToMethod_eq, startsWithWord_paren hfunction pre post other,
      startsWithWord_paren hconstructor pre post other]
    simp only [takeWhile_paren hletter, dropWhile_paren hletter, skipGap?_paren]
    cases hgap : skipGap? (pre.dropWhile Text.isAsciiLetter) with
    | none => rfl
    | some rest =>
      -- a gap was taken, so that less of the text is left
      have hlt := Nat.lt_of_lt_of_le (length_skipGap?_lt hgap) (Text.length_dropWhile_le _ pre)
      rw [Option.map_some, Option.map_some, Option.elim_some, Option.elim_some,
        ih rest.length (hn ▸ hlt) rest rfl]

theorem isMethod_paren (pre post other : List Char) :
    isMethod (pre ++ '(' :: post) = isMethod (pre ++ '(' :: other) := by
  rw [isMethod, isMethod, trimStart, trimStart, dropWhile_paren (by decide),
    dropWhile_paren (by decide)]
  exact leadsToMethod_paren _ post other

theorem isComment_paren (pre post other : List Char) :
    isComment (pre ++ '(' :: post) = isComment (pre ++ '(' :: other) := by
  have hmark : '(' ∉ commentMark := by decide
  simp only [isComment, trimStart, dropWhile_paren (by decide : isBlank '(' = false),
    after?_paren hmark, Option.isSome_map]

theorem openCall?_paren (pre post other : List Char) :
    (∃ tail tail', openCall? (pre ++ '(' :: post) = some tail ∧
      openCall? (pre ++ '(' :: other) = some tail') ∨
      openCall? (pre ++ '(' :: post) = none ∧ openCall? (pre ++ '(' :: other) = none := by
  rw [openCall?, openCall?, trimStart, trimStart, dropWhile_paren (by decide),
    dropWhile_paren (by decide)]
  cases pre.dropWhile isBlank with
  | nil => exact .inl ⟨post, other, rfl, rfl⟩
  | cons c pre =>
    simp only [List.cons_append, after?]
    split
    next => exact .inl ⟨_, _, rfl, rfl⟩
    next => exact .inr ⟨rfl, rfl⟩

theorem heading?_paren (pre post other : List Char) :
    heading? (pre ++ '(' :: post) = heading? (pre ++ '(' :: other) := by
  have hfunction : '(' ∉ functionWord := by decide
  have htest : '(' ∉ testWord := by decide
  have hword : isWord '(' = false := by decide
  simp only [heading?, trimStart, dropWhile_paren (by decide : isBlank '(' = false),
    after?_paren hfunction]
  cases after? functionWord (pre.dropWhile isBlank) with
  | none => rfl
  | some rest =>
    simp only [Option.map_some, Option.bind_eq_bind, Option.bind_some, skipGap?_paren]
    cases skipGap? rest with
    | none => rfl
    | some rest =>
      simp only [Option.map_some, Option.bind_some, after?_paren htest]
      cases after? testWord rest with
      | none => rfl
      | some rest =>
        simp only [Option.map_some, Option.bind_some, takeWhile_paren hword, dropWhile_paren hword]
        rcases openCall?_paren (rest.dropWhile isWord) post other with ⟨_, _, h, h'⟩ | ⟨h, h'⟩
        · rw [h, h']
          rfl
        · rw [h, h']

end SuiteAtlas.Source
