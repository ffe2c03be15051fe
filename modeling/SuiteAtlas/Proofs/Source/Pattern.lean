import SuiteAtlas.Proofs.Text.Line
import SuiteAtlas.Source.Pattern

namespace SuiteAtlas.Source

open Text (after? isBlank isWord trimStart)

variable {before : Option Char} {text operator tail name line : List Char} {call : Call}

def AllBlank (text : List Char) : Prop :=
  ∀ c ∈ text, isBlank c = true

theorem openCall?_eq_some_iff :
    openCall? text = some tail ↔ ∃ space, AllBlank space ∧ text = space ++ '(' :: tail := by
  rw [openCall?, Text.after?_eq_some]
  constructor
  · intro h
    refine ⟨text.takeWhile isBlank, fun c hc => List.mem_takeWhile_imp hc, ?_⟩
    rw [← List.singleton_append, ← h, trimStart, List.takeWhile_append_dropWhile]
  · rintro ⟨space, hspace, rfl⟩
    exact Text.dropWhile_append_cons hspace (by decide)

theorem isBlank_of_isChainChar {c : Char} (h : isChainChar c = true) : isBlank c = false := by
  rcases Bool.or_eq_true_iff.1 h with hc | hc
  · exact Text.isBlank_of_isWord hc
  · rw [beq_iff_eq.1 hc]
    decide

theorem ne_mark_of_isChainChar {c : Char} (h : isChainChar c = true) : c ≠ '\\' := by
  rintro rfl
  exact absurd h (by decide)

theorem AllBlank.exists_cons {space : List Char} (h : AllBlank space) (tail : List Char) :
    ∃ c more, space ++ '(' :: tail = c :: more ∧ isChainChar c = false ∧ c ≠ '.' := by
  cases space with
  | nil => exact ⟨'(', tail, rfl, by decide, by decide⟩
  | cons b space =>
    have hblank := h b List.mem_cons_self
    refine ⟨b, space ++ '(' :: tail, rfl, ?_, ?_⟩
    · by_contra hchain
      rw [isBlank_of_isChainChar (Bool.not_eq_false _ ▸ hchain)] at hblank
      cases hblank
    · rintro rfl
      exact absurd hblank (by decide)

theorem operator?_eq_some_iff : operator? text = some (operator, tail) ↔
    operator ≠ [] ∧ (∀ c ∈ operator, isWord c = true) ∧
      ∃ space, AllBlank space ∧ text = operator ++ (space ++ '(' :: tail) := by
  constructor
  · intro h
    simp only [operator?, Option.bind_eq_bind, Option.bind_eq_some_iff] at h
    obtain ⟨rest, hopen, h⟩ := h
    obtain ⟨space, hspace, hrest⟩ := openCall?_eq_some_iff.1 hopen
    by_cases hempty : (text.takeWhile isWord).isEmpty = true
    · simp [hempty] at h
    · rw [if_neg hempty, Option.some.injEq, Prod.mk.injEq] at h
      obtain ⟨rfl, rfl⟩ := h
      refine ⟨fun hn => hempty (List.isEmpty_iff.2 hn), fun c hc => List.mem_takeWhile_imp hc,
        space, hspace, ?_⟩
      rw [← hrest, List.takeWhile_append_dropWhile]
  · rintro ⟨hne, hword, space, hspace, rfl⟩
    obtain ⟨c, more, hmore, hchain, _⟩ := hspace.exists_cons tail
    have hc : isWord c = false := (Bool.or_eq_false_iff.1 hchain).1
    have hopen : openCall? (c :: more) = some tail :=
      openCall?_eq_some_iff.2 ⟨space, hspace, hmore.symm⟩
    have hempty : operator.isEmpty = false := List.isEmpty_eq_false_iff.2 hne
    rw [hmore]
    simp only [operator?, Option.bind_eq_bind, Text.takeWhile_append_cons hword hc,
      Text.dropWhile_append_cons hword hc, hopen, Option.bind_some, hempty, Bool.false_eq_true,
      if_false]

theorem callHere?_dot (hne : name ≠ [])
    (hchain : ∀ c ∈ name, isChainChar c = true) (rest : List Char) :
    callHere? (name ++ '.' :: rest) =
      (callHere? rest).or (if name = assertWord then operator? rest else none) := by
  have hdot : isChainChar '.' = false := by decide
  have hdrop : (name ++ '.' :: rest).dropWhile isChainChar = '.' :: rest :=
    Text.dropWhile_append_cons hchain hdot
  have hempty : name.isEmpty = false := List.isEmpty_eq_false_iff.2 hne
  rw [callHere?, Text.takeWhile_append_cons hchain hdot]
  split
  next tail h =>
    rw [hdrop] at h
    rw [hempty, if_neg Bool.false_ne_true, (List.cons.inj h).2]
  next hno => exact absurd hdrop (hno rest)

theorem callHere?_eq_none {c : Char} (hchain : ∀ c ∈ name, isChainChar c = true)
    (hc : isChainChar c = false) (hdot : c ≠ '.') (rest : List Char) :
    callHere? (name ++ c :: rest) = none := by
  rw [callHere?, Text.dropWhile_append_cons hchain hc]
  split
  next tail h => exact absurd (List.cons.inj h).1 hdot
  next => rfl

theorem operator?_spec (h : operator? text = some (operator, tail)) :
    ∃ head, text = head ++ '(' :: tail ∧ ∀ other,
      callHere? (head ++ '(' :: other) = none ∧
        operator? (head ++ '(' :: other) = some (operator, other) := by
  obtain ⟨hne, hword, space, hspace, rfl⟩ := operator?_eq_some_iff.1 h
  have hchain : ∀ c ∈ operator, isChainChar c = true :=
    fun c hc => Bool.or_eq_true_iff.2 (.inl (hword c hc))
  refine ⟨operator ++ space, (List.append_assoc ..).symm, fun other => ⟨?_, ?_⟩⟩
  · obtain ⟨c, more, hmore, hc, hdot⟩ := hspace.exists_cons other
    rw [List.append_assoc, hmore]
    exact callHere?_eq_none hchain hc hdot more
  · rw [List.append_assoc]
    exact operator?_eq_some_iff.2 ⟨hne, hword, space, hspace, rfl⟩

/-- A chain that makes an assertion starts with a character of a chain, and goes on up to an opening
parenthesis; what follows does not matter. -/
theorem callHere?_spec (h : callHere? text = some (operator, tail)) :
    ∃ c head, text = c :: (head ++ '(' :: tail) ∧ isChainChar c = true ∧
      ∀ other, callHere? (c :: (head ++ '(' :: other)) = some (operator, other) := by
  fun_induction callHere? text with
  | case1 text hname => simp at h
  | case2 text name rest hdrop hname ih =>
    have hne : name ≠ [] := fun hn => hname (List.isEmpty_iff.2 hn)
    have hchain : ∀ c ∈ name, isChainChar c = true := fun c hc => List.mem_takeWhile_imp hc
    -- the chain from its second name on, or its operator
    obtain ⟨head, hrest, hother⟩ : ∃ head, rest = head ++ '(' :: tail ∧
        ∀ other, callHere? (name ++ '.' :: (head ++ '(' :: other)) = some (operator, other) := by
      simp only [callHere?_dot hne hchain]
      rcases Option.or_eq_some_iff.1 h with hr | ⟨_, hr⟩
      · obtain ⟨d, head, hd, _, hother⟩ := ih hr
        refine ⟨d :: head, hd, fun other => ?_⟩
        rw [List.cons_append, hother, Option.some_or]
      · split at hr
        next hassert =>
          obtain ⟨head, hrest, hother⟩ := operator?_spec hr
          refine ⟨head, hrest, fun other => ?_⟩
          rw [(hother other).1, (hother other).2, if_pos hassert, Option.none_or]
        next => cases hr
    obtain ⟨c, chain, hname⟩ := List.exists_cons_of_ne_nil hne
    have hjoin (tail : List Char) : name ++ '.' :: (head ++ '(' :: tail) =
        c :: (chain ++ '.' :: head ++ '(' :: tail) := by
      rw [hname, List.append_assoc, List.cons_append, List.cons_append]
    rw [hname] at hchain
    refine ⟨c, chain ++ '.' :: head, ?_, hchain c List.mem_cons_self, fun other => ?_⟩
    · rw [← hjoin, ← hrest, ← hdrop, List.takeWhile_append_dropWhile]
    · rw [← hjoin, hother]
  | case3 => simp at h

theorem findCall?_cons_eq_some_iff {c : Char} {rest : List Char} :
    findCall? before (c :: rest) = some call ↔
      (∃ operator tail, mayPrecede before = true ∧ callHere? (c :: rest) = some (operator, tail) ∧
        call = ⟨0, (c :: rest).length - tail.length, operator⟩) ∨
      (mayPrecede before = true → callHere? (c :: rest) = none) ∧
        ∃ later, findCall? (some c) rest = some later ∧
          call = { later with offset := later.offset + 1 } := by
  have hlater : (findCall? (some c) rest).map
        (fun later => { later with offset := later.offset + 1 }) = some call ↔
      ∃ later, findCall? (some c) rest = some later ∧
        call = { later with offset := later.offset + 1 } := by
    rw [Option.map_eq_some_iff]
    exact exists_congr fun later => and_congr_right fun _ => eq_comm
  rw [findCall?]
  by_cases hbefore : mayPrecede before = true
  · cases hhere : callHere? (c :: rest) with
    | none => simp [hbefore, hlater]
    | some found =>
      obtain ⟨operator, tail⟩ := found
      simp [hbefore, eq_comm]
  · simp [hbefore, hlater]

theorem findCall?_spec (h : findCall? before text = some call) :
    ∃ pre c head tail, text = pre ++ c :: (head ++ '(' :: tail) ∧ call.offset = pre.length ∧
      isChainChar c = true ∧ call.head = head.length + 2 ∧
      ∀ other, callHere? (c :: (head ++ '(' :: other)) = some (call.operator, other) := by
  induction text generalizing before call with
  | nil => simp [findCall?] at h
  | cons c rest ih =>
    rcases findCall?_cons_eq_some_iff.1 h with ⟨operator, tail, _, hhere, rfl⟩ | ⟨_, later, hlater, rfl⟩
    · obtain ⟨d, head, he, hd, hother⟩ := callHere?_spec hhere
      obtain ⟨rfl, rfl⟩ := List.cons.inj he
      refine ⟨[], c, head, tail, rfl, rfl, hd, ?_, hother⟩
      simp only [List.length_cons, List.length_append]
      omega
    · obtain ⟨pre, d, head, tail, rfl, ho, hspec⟩ := ih hlater
      exact ⟨c :: pre, d, head, tail, rfl, congrArg (· + 1) ho, hspec⟩

theorem heading?_spec (h : heading? line = some name) :
    ∃ word, name = testWord ++ word ∧ word ≠ [] ∧ ∀ c ∈ word, isWord c = true := by
  simp only [heading?, Option.bind_eq_bind, Option.bind_eq_some_iff] at h
  obtain ⟨_, _, _, _, rest, _, _, _, h⟩ := h
  by_cases hempty : (rest.takeWhile isWord).isEmpty = true
  · simp [hempty] at h
  · rw [if_neg hempty, Option.some.injEq] at h
    exact ⟨_, h.symm, fun hn => hempty (List.isEmpty_iff.2 hn),
      fun c hc => List.mem_takeWhile_imp hc⟩

theorem heading?_nil : heading? [] = none := by
  rfl

theorem openCall?_cons (rest : List Char) : openCall? ('(' :: rest) = some rest := by
  rw [openCall?, trimStart, List.dropWhile_cons_of_neg (by decide)]
  rfl

theorem operator?_append (hne : operator ≠ []) (hword : ∀ c ∈ operator, isWord c = true)
    (rest : List Char) : operator? (operator ++ '(' :: rest) = some (operator, rest) :=
  operator?_eq_some_iff.2 ⟨hne, hword, [], List.forall_mem_nil _, rfl⟩

theorem startsWithWord_eq_false {word : List Char} {c : Char}
    (htext : text.takeWhile Text.isAsciiLetter = []) (hc : Text.isAsciiLetter c = true) :
    startsWithWord (c :: word) text = false := by
  have hnone : after? (c :: word) text = none := by
    by_contra hsome
    obtain ⟨rest, hrest⟩ := Option.ne_none_iff_exists'.1 hsome
    rw [Text.after?_eq_some.1 hrest, List.cons_append, List.takeWhile_cons_of_pos hc] at htext
    exact List.cons_ne_nil _ _ htext
  rw [startsWithWord, hnone]

theorem isMethod_eq_false
    (h : (trimStart line).takeWhile Text.isAsciiLetter = []) : isMethod line = false := by
  have hfunction : startsWithWord functionWord (trimStart line) = false :=
    startsWithWord_eq_false h (by decide : Text.isAsciiLetter 'F' = true)
  have hconstructor : startsWithWord constructorWord (trimStart line) = false :=
    startsWithWord_eq_false h (by decide : Text.isAsciiLetter 'c' = true)
  rw [isMethod, leadsToMethod, hfunction, hconstructor, h]
  rfl

end SuiteAtlas.Source
