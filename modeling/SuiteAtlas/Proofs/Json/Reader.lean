import Mathlib.Data.List.Infix
import Mathlib.Data.List.TakeWhile
import SuiteAtlas.Json.Reader

namespace SuiteAtlas.Json

open Text (after? after?_eq_some isAsciiDigit integerDigitLimit)

/-- Somewhere in a text stand `count` digits in a row, which are more than an integer may have. -/
def HoldsDigits (text : List Char) (count : Nat) : Prop :=
  integerDigitLimit < count ∧
    ∃ digits, digits <:+: text ∧ digits.length = count ∧ ∀ c ∈ digits, isAsciiDigit c = true

def isOpening (c : Char) : Bool :=
  c == '[' || c == '\x7b'

def isClosing (c : Char) : Bool :=
  c == ']' || c == '\x7d'

/-- Characters on which it depends what is open, or what is inside of a string. -/
def isMark (c : Char) : Bool :=
  c == '"' || c == '\\' || isOpening c || isClosing c

/-- How many more lists and objects a text opens than it closes. Marks inside of a string do not
count; `inString` says whether the text begins inside of one. -/
def unclosed : Bool → List Char → Int
  | _, [] => 0
  | false, c :: rest =>
    if c == '"' then unclosed true rest
    else if isOpening c then 1 + unclosed false rest
    else if isClosing c then -1 + unclosed false rest
    else unclosed false rest
  | true, '"' :: rest => unclosed false rest
  | true, '\\' :: _ :: rest => unclosed true rest
  | true, _ :: rest => unclosed true rest

/-- Somewhere in a text more lists and objects are open than may stand in each other. -/
def OpensBeyond (nesting : Nat) (text : List Char) : Prop :=
  ∃ front, front <+: text ∧ (nesting : Int) < unclosed false front

/-- A place in a text: what follows it, and whether it is inside of a string. -/
structure Place where
  inString : Bool
  rest : List Char

/-- From one place to a later one, the number of open lists and objects changes as told, whatever
comes then. -/
def Leads (change : Int) (source target : Place) : Prop :=
  ∃ part, source.rest = part ++ target.rest ∧
    ∀ more, unclosed source.inString (part ++ more) = change + unclosed target.inString more

/-- What a reader makes of a text: a value and a later place, or a fault. Beside those of the
notation, a fault is a row of digits that is too long, or too many marks that open a value. -/
inductive Leaves {α : Type} (nesting : Nat) (change : Int) (text : List Char) :
    Except Fault (α × List Char) → Prop
  | value {value : α} {rest : List Char} :
    Leads change ⟨false, text⟩ ⟨false, rest⟩ → Leaves nesting change text (.ok (value, rest))
  | grammar (cause : Cause) (left : Nat) :
    Leaves nesting change text (.error (.grammar cause left))
  | tooManyDigits {count : Nat} :
    HoldsDigits text count → Leaves nesting change text (.error (.tooManyDigits count))
  | tooDeep {container : Container} :
    OpensBeyond nesting text → Leaves nesting change text (.error (.tooDeep container))

/-- A text up to a rest of it holds no marks. -/
def Passes (text rest : List Char) : Prop :=
  ∃ part, text = part ++ rest ∧ ∀ c ∈ part, isMark c = false

/-- What a reader makes of a text that begins inside of a string: a value, which says whether the
string goes on, or a fault of the notation. -/
inductive Continues {α : Type} (goesOn : α → Bool) (text : List Char) :
    Except Fault (α × List Char) → Prop
  | value {value : α} {rest : List Char} :
    Leads 0 ⟨true, text⟩ ⟨goesOn value, rest⟩ → Continues goesOn text (.ok (value, rest))
  | grammar (cause : Cause) (left : Nat) : Continues goesOn text (.error (.grammar cause left))

variable {α β : Type} {nesting count : Nat} {change change' : Int} {c : Char}
  {text part rest digits : List Char} {p q r : Place}

theorem HoldsDigits.mono (h : HoldsDigits part count) (hpart : part <:+: text) :
    HoldsDigits text count := by
  obtain ⟨hlimit, digits, hin, hdigits⟩ := h
  exact ⟨hlimit, digits, hin.trans hpart, hdigits⟩

namespace Leads

theorem refl (p : Place) : Leads 0 p p :=
  ⟨[], rfl, fun _ => (Int.zero_add _).symm⟩

theorem trans (h : Leads change p q) (h' : Leads change' q r) : Leads (change + change') p r := by
  obtain ⟨part, he, hcount⟩ := h
  obtain ⟨part', he', hcount'⟩ := h'
  refine ⟨part ++ part', by rw [he, he', List.append_assoc], fun more => ?_⟩
  rw [List.append_assoc, hcount, hcount', Int.add_assoc]

/-- What comes after a place where nothing else is open is open from the place before on. -/
theorem follow (h : Leads 0 p q) (h' : Leads change q r) : Leads change p r := by
  rw [← Int.zero_add change]
  exact h.trans h'

theorem suffix (h : Leads change p q) : q.rest <:+ p.rest := by
  obtain ⟨part, he, _⟩ := h
  exact ⟨part, he.symm⟩

theorem opening (hc : isOpening c = true) (rest : List Char) :
    Leads 1 ⟨false, c :: rest⟩ ⟨false, rest⟩ := by
  simp only [isOpening, Bool.or_eq_true, beq_iff_eq] at hc
  rcases hc with rfl | rfl <;> exact ⟨[_], rfl, fun more => by simp [unclosed, isOpening]⟩

theorem closing (hc : isClosing c = true) (rest : List Char) :
    Leads (-1) ⟨false, c :: rest⟩ ⟨false, rest⟩ := by
  simp only [isClosing, Bool.or_eq_true, beq_iff_eq] at hc
  rcases hc with rfl | rfl <;>
    exact ⟨[_], rfl, fun more => by simp [unclosed, isOpening, isClosing]⟩

theorem quote (inString : Bool) (rest : List Char) :
    Leads 0 ⟨inString, '"' :: rest⟩ ⟨!inString, rest⟩ := by
  cases inString <;> exact ⟨['"'], rfl, fun more => by simp [unclosed]⟩

theorem escape (c : Char) (rest : List Char) :
    Leads 0 ⟨true, '\\' :: c :: rest⟩ ⟨true, rest⟩ :=
  ⟨['\\', c], rfl, fun more => by simp [unclosed]⟩

theorem character (hquote : c ≠ '"') (hslash : c ≠ '\\') (rest : List Char) :
    Leads 0 ⟨true, c :: rest⟩ ⟨true, rest⟩ :=
  ⟨[c], rfl, fun more => by simp [unclosed, hslash]⟩

theorem unmarked (hc : isMark c = false) (inString : Bool) (rest : List Char) :
    Leads 0 ⟨inString, c :: rest⟩ ⟨inString, rest⟩ := by
  simp only [isMark, Bool.or_eq_false_iff, beq_eq_false_iff_ne] at hc
  obtain ⟨⟨⟨hquote, hslash⟩, hopening⟩, hclosing⟩ := hc
  cases inString with
  | true => exact character hquote hslash rest
  | false => exact ⟨[c], rfl, fun more => by simp [unclosed, hquote, hopening, hclosing]⟩

end Leads

namespace Passes

theorem refl (text : List Char) : Passes text text :=
  ⟨[], rfl, List.forall_mem_nil _⟩

theorem trans {last : List Char} (h : Passes text rest) (h' : Passes rest last) :
    Passes text last := by
  obtain ⟨part, rfl, hpart⟩ := h
  obtain ⟨part', rfl, hpart'⟩ := h'
  exact ⟨part ++ part', (List.append_assoc _ _ _).symm, List.forall_mem_append.2 ⟨hpart, hpart'⟩⟩

theorem cons (hc : isMark c = false) (rest : List Char) : Passes (c :: rest) rest :=
  ⟨[c], rfl, List.forall_mem_singleton.2 hc⟩

theorem leads (h : Passes text rest) (inString : Bool) :
    Leads 0 ⟨inString, text⟩ ⟨inString, rest⟩ := by
  obtain ⟨part, rfl, hpart⟩ := h
  induction part with
  | nil => exact .refl _
  | cons c part ih =>
    obtain ⟨hc, hpart⟩ := List.forall_mem_cons.1 hpart
    exact (Leads.unmarked hc inString _).follow (ih hpart)

end Passes

theorem OpensBeyond.of_leads {opened : Nat} (h : OpensBeyond nesting rest)
    (hleads : Leads opened ⟨false, text⟩ ⟨false, rest⟩) :
    OpensBeyond (nesting + opened) text := by
  obtain ⟨front, hfront, hlt⟩ := h
  obtain ⟨part, rfl, hcount⟩ := hleads
  refine ⟨part ++ front, (List.prefix_append_right_inj part).2 hfront, ?_⟩
  rw [hcount]
  dsimp only
  omega

namespace Leaves

theorem of_leads {result : Except Fault (α × List Char)} (h : Leaves nesting change rest result)
    (hleads : Leads 0 ⟨false, text⟩ ⟨false, rest⟩) : Leaves nesting change text result := by
  cases h with
  | value hrest => exact .value (hleads.follow hrest)
  | grammar cause left => exact .grammar cause left
  | tooManyDigits hdigits => exact .tooManyDigits (hdigits.mono hleads.suffix.isInfix)
  | tooDeep hopens => exact .tooDeep (hopens.of_leads hleads)

/-- Behind a mark that opens a value, one value less may be opened. -/
theorem enter {result : Except Fault (α × List Char)} (h : Leaves nesting (-1) text result)
    (hc : isOpening c = true) : Leaves (nesting + 1) 0 (c :: text) result := by
  have hleads := Leads.opening hc text
  cases h with
  | value hrest => exact .value (hleads.trans hrest)
  | grammar cause left => exact .grammar cause left
  | tooManyDigits hdigits => exact .tooManyDigits (hdigits.mono hleads.suffix.isInfix)
  | tooDeep hopens => exact .tooDeep (hopens.of_leads hleads)

/-- Readers that follow each other read on from what is left. -/
theorem bind {first : Except Fault (α × List Char)}
    {next : α × List Char → Except Fault (β × List Char)} (h : Leaves nesting change text first)
    (hnext : ∀ value rest, Leads change ⟨false, text⟩ ⟨false, rest⟩ →
      Leaves nesting change' text (next (value, rest))) :
    Leaves nesting change' text (first >>= next) := by
  cases h with
  | value hrest => exact hnext _ _ hrest
  | grammar cause left => exact .grammar cause left
  | tooManyDigits hdigits => exact .tooManyDigits hdigits
  | tooDeep hopens => exact .tooDeep hopens

end Leaves

theorem skipSpace_passes (text : List Char) : Passes text (skipSpace text) := by
  refine ⟨text.takeWhile isSpace, List.takeWhile_append_dropWhile.symm, fun c hc => ?_⟩
  have hspace := List.mem_takeWhile_imp hc
  simp only [isSpace, Bool.or_eq_true, beq_iff_eq] at hspace
  rcases hspace with ((rfl | rfl) | rfl) | rfl <;> rfl

theorem isMark_of_hexValue? {value : Nat} (h : hexValue? c = some value) : isMark c = false := by
  rw [Bool.eq_false_iff]
  intro hc
  simp only [isMark, isOpening, isClosing, Bool.or_eq_true, beq_iff_eq] at hc
  rcases hc with ((rfl | rfl) | rfl | rfl) | rfl | rfl <;> cases h

theorem isMark_of_isAsciiDigit (h : isAsciiDigit c = true) : isMark c = false := by
  rw [Bool.eq_false_iff]
  intro hc
  simp only [isMark, isOpening, isClosing, Bool.or_eq_true, beq_iff_eq] at hc
  rcases hc with ((rfl | rfl) | rfl | rfl) | rfl | rfl <;> cases h

theorem unit?_passes {unit : Nat} (h : unit? text = some (unit, rest)) : Passes text rest := by
  rw [unit?.eq_def] at h
  split at h
  next a b c d next after =>
    simp only [Option.bind_eq_bind, Option.bind_eq_some_iff, Option.pure_def, Option.some.injEq,
      Prod.mk.injEq] at h
    obtain ⟨_, ha, _, hb, _, hc, _, hd, _, rfl⟩ := h
    exact (((Passes.cons (isMark_of_hexValue? ha) _).trans
      (.cons (isMark_of_hexValue? hb) _)).trans (.cons (isMark_of_hexValue? hc) _)).trans
      (.cons (isMark_of_hexValue? hd) _)
  next => cases h

theorem lowHalf?_leads {low : Nat} (h : lowHalf? text = some (low, rest)) :
    Leads 0 ⟨true, text⟩ ⟨true, rest⟩ := by
  rw [lowHalf?.eq_def] at h
  split at h
  next after =>
    split at h
    next hunit =>
      split at h
      · cases h
        exact (Leads.escape 'u' after).follow ((unit?_passes hunit).leads true)
      · cases h
    next => cases h
  next => cases h

/-- A string goes on behind each of its items but the mark that closes it. -/
theorem continues_readItem (opening text : List Char) :
    Continues (fun item => item != .close) text (readItem opening text) := by
  rw [readItem.eq_def]
  split
  · exact .grammar _ _
  · exact .value (.quote true _)
  · exact .grammar _ _
  next after =>
    split
    · exact .grammar _ _
    next hunit =>
      have hrest := (Leads.escape 'u' after).follow ((unit?_passes hunit).leads true)
      split
      · split
        next hlow => exact .value (hrest.follow (lowHalf?_leads hlow))
        next => exact .value hrest
      · split
        · exact .value hrest
        · exact .value hrest
  next =>
    split
    · exact .value (.escape _ _)
    · exact .grammar _ _
  next c after hquote hend _ hescape =>
    have hslash : c ≠ '\\' := by
      intro hc
      cases after with
      | nil => exact hend hc rfl
      | cons d after => exact hescape d after hc rfl
    split
    · exact .grammar _ _
    · exact .value (.character hquote hslash after)

theorem Continues.map {result : Except Fault (α × List Char)}
    (h : Continues (fun _ => false) rest result) (hleads : Leads 0 ⟨true, text⟩ ⟨true, rest⟩)
    (f : α → β) :
    Continues (fun _ => false) text (result.map fun found => (f found.1, found.2)) := by
  cases h with
  | value hrest => exact .value (hleads.follow hrest)
  | grammar cause left => exact .grammar cause left

theorem continues_readText (opening : List Char) (fuel : Nat) (text : List Char) :
    Continues (fun _ => false) text (readText opening fuel text) := by
  induction fuel generalizing text with
  | zero => exact .grammar _ _
  | succ fuel ih =>
    have hitem := continues_readItem opening text
    rw [readText]
    split
    next fault hfault =>
      rw [hfault] at hitem
      cases hitem with
      | grammar cause left => exact .grammar cause left
    next rest hclose =>
      rw [hclose] at hitem
      cases hitem with
      | value hleads => exact .value hleads
    next c rest hchar =>
      rw [hchar] at hitem
      cases hitem with
      | value hleads => exact (ih rest).map hleads (c :: ·)

theorem Continues.leaves {result : Except Fault (α × List Char)}
    (h : Continues (fun _ => false) text result) (nesting : Nat) :
    Leaves nesting 0 ('"' :: text) result := by
  cases h with
  | value hrest => exact .value ((Leads.quote false text).follow hrest)
  | grammar cause left => exact .grammar cause left

theorem leaves_readQuoted (nesting fuel : Nat) (text : List Char) :
    Leaves nesting 0 ('"' :: text) (readQuoted fuel text) :=
  ((continues_readText text fuel text).map (.refl _) String.ofList).leaves nesting

theorem digits?_spec (h : digits? text = some (digits, rest)) :
    text = digits ++ rest ∧ ∀ c ∈ digits, isAsciiDigit c = true := by
  rw [digits?] at h
  split at h
  · cases h
  · cases h
    exact ⟨List.takeWhile_append_dropWhile.symm, fun c hc => List.mem_takeWhile_imp hc⟩

theorem whole?_spec (h : whole? text = some (digits, rest)) :
    text = digits ++ rest ∧ ∀ c ∈ digits, isAsciiDigit c = true := by
  rw [whole?.eq_def] at h
  split at h
  · cases h
    exact ⟨rfl, List.forall_mem_singleton.2 rfl⟩
  · exact digits?_spec h

theorem passes_digits (h : ∀ c ∈ digits, isAsciiDigit c = true) (rest : List Char) :
    Passes (digits ++ rest) rest :=
  ⟨digits, rfl, fun c hc => isMark_of_isAsciiDigit (h c hc)⟩

theorem digits?_passes (h : digits? text = some (digits, rest)) : Passes text rest := by
  obtain ⟨rfl, hdigits⟩ := digits?_spec h
  exact passes_digits hdigits rest

theorem fraction?_passes (h : fraction? text = some (digits, rest)) : Passes text rest := by
  rw [fraction?.eq_def] at h
  split at h
  next after => exact (Passes.cons rfl after).trans (digits?_passes h)
  next => cases h

/-- What is left of a text behind the sign that it starts with, if it does. -/
theorem unsigned_passes (text : List Char) :
    Passes text (match text with
      | '-' :: rest => (true, rest)
      | rest => (false, rest)).2 := by
  split
  · exact .cons rfl _
  · exact .refl _

theorem exponent?_passes {exponent : Bool × List Char}
    (h : exponent? text = some (exponent, rest)) : Passes text rest := by
  rw [exponent?.eq_def] at h
  split at h
  next c after =>
    split at h
    next hc =>
      have hmark : isMark c = false := by
        rw [Bool.or_eq_true, beq_iff_eq, beq_iff_eq] at hc
        rcases hc with rfl | rfl <;> rfl
      obtain ⟨⟨digits, left⟩, hdigits, hrest⟩ := Option.map_eq_some_iff.1 h
      cases hrest
      have hleft := digits?_passes hdigits
      apply (Passes.cons hmark after).trans
      split at hleft
      next sign => exact (Passes.cons rfl sign).trans hleft
      next sign => exact (Passes.cons rfl sign).trans hleft
      next => exact hleft
    · cases h
  next => cases h

/-- The digits of a number before its point stand in the text, and no part of it is a mark. -/
theorem numeral?_spec {numeral : Numeral} (h : numeral? text = some (numeral, rest)) :
    Passes text rest ∧ numeral.whole <:+: text ∧ ∀ c ∈ numeral.whole, isAsciiDigit c = true := by
  rw [numeral?.eq_def] at h
  obtain ⟨⟨whole, afterWhole⟩, hwhole, hfound⟩ := Option.map_eq_some_iff.1 h
  obtain ⟨he, hdigits⟩ := whole?_spec hwhole
  have hunsigned : Passes text (whole ++ afterWhole) := he ▸ unsigned_passes text
  have hin : whole <:+: text :=
    (List.prefix_append _ _).isInfix.trans (hunsigned.leads false).suffix.isInfix
  have hafter : Passes text ((fraction? afterWhole).getD ([], afterWhole)).2 := by
    apply (hunsigned.trans (passes_digits hdigits afterWhole)).trans
    cases hfraction : fraction? afterWhole with
    | none => exact .refl _
    | some found => exact fraction?_passes hfraction
  dsimp only at hfound
  split at hfound
  next hexponent =>
    cases hfound
    exact ⟨hafter.trans (exponent?_passes hexponent), hin, hdigits⟩
  next =>
    cases hfound
    exact ⟨hafter, hin, hdigits⟩

theorem any_isMark_word : ∀ word ∈ words, word.1.toList.any isMark = false := by
  rw [words]
  simp only [List.forall_mem_cons]
  exact ⟨rfl, rfl, rfl, rfl, rfl, rfl, List.forall_mem_nil _⟩

theorem word?_passes {value : Json} (h : word? text = some (value, rest)) : Passes text rest := by
  obtain ⟨word, hmem, hword⟩ := List.exists_of_findSome?_eq_some h
  obtain ⟨left, hleft, hfound⟩ := Option.map_eq_some_iff.1 hword
  cases hfound
  have hmarks := any_isMark_word word hmem
  rw [List.any_eq_false] at hmarks
  exact ⟨word.1.toList, after?_eq_some.1 hleft, fun c hc => Bool.eq_false_iff.2 (hmarks c hc)⟩

/-- Of all readers only the one for numbers counts digits. -/
theorem leaves_readScalar (nesting : Nat) (text : List Char) :
    Leaves nesting 0 text (readScalar text) := by
  rw [readScalar]
  split
  next found hword => exact .value ((word?_passes hword).leads false)
  next =>
    split
    next numeral rest hnumeral =>
      obtain ⟨hrest, hin, hdigits⟩ := numeral?_spec hnumeral
      rw [Numeral.toJson]
      split
      · split
        next hlong => exact .tooManyDigits ⟨hlong, numeral.whole, hin, rfl, hdigits⟩
        next => exact .value (hrest.leads false)
      · exact .value (hrest.leads false)
    next => exact .grammar _ _

theorem opensBeyond_zero (hc : isOpening c = true) (rest : List Char) :
    OpensBeyond 0 (c :: rest) := by
  simp only [isOpening, Bool.or_eq_true, beq_iff_eq] at hc
  rcases hc with rfl | rfl <;> exact ⟨[_], ⟨rest, rfl⟩, by decide⟩

section Step

variable {fuel : Nat}

theorem leaves_readValue_succ
    (hitems : ∀ nesting text, Leaves nesting (-1) text (readItems fuel nesting text))
    (hfields : ∀ nesting text, Leaves nesting (-1) text (readFields fuel nesting text))
    (nesting : Nat) (text : List Char) :
    Leaves nesting 0 text (readValue (fuel + 1) nesting text) := by
  rw [readValue.eq_def]
  dsimp only
  split
  next inside => exact (leaves_readQuoted nesting fuel inside).bind fun _ _ hrest => .value hrest
  next inside => exact .tooDeep (opensBeyond_zero rfl inside)
  next inside nesting =>
    have hinside := (skipSpace_passes inside).leads false
    split
    next hclose =>
      rw [hclose] at hinside
      exact .value ((Leads.opening rfl inside).trans (hinside.follow (.closing rfl _)))
    next =>
      apply Leaves.enter _ rfl
      exact ((hitems nesting _).of_leads hinside).bind fun _ _ hrest => .value hrest
  next inside => exact .tooDeep (opensBeyond_zero rfl inside)
  next inside nesting =>
    have hinside := (skipSpace_passes inside).leads false
    split
    next hclose =>
      rw [hclose] at hinside
      exact .value ((Leads.opening rfl inside).trans (hinside.follow (.closing rfl _)))
    next =>
      apply Leaves.enter _ rfl
      exact ((hfields nesting _).of_leads hinside).bind fun _ _ hrest => .value hrest
  next => exact leaves_readScalar _ _

theorem leaves_readItems_succ
    (hvalue : ∀ text, Leaves nesting 0 text (readValue fuel nesting text))
    (hitems : ∀ text, Leaves nesting (-1) text (readItems fuel nesting text))
    (text : List Char) : Leaves nesting (-1) text (readItems (fuel + 1) nesting text) := by
  rw [readItems.eq_def]
  dsimp only
  apply (hvalue text).bind
  intro item rest hrest
  dsimp only
  have hnext := hrest.follow ((skipSpace_passes rest).leads false)
  split
  next hclose =>
    rw [hclose] at hnext
    exact .value (hnext.follow (.closing rfl _))
  next more hcomma =>
    rw [hcomma] at hnext
    have hmore := hnext.follow
      (((Passes.cons rfl more).trans (skipSpace_passes more)).leads false)
    exact ((hitems _).of_leads hmore).bind fun _ _ hrest => .value hrest
  next => exact .grammar _ _

theorem leaves_readFields_succ
    (hvalue : ∀ text, Leaves nesting 0 text (readValue fuel nesting text))
    (hfields : ∀ text, Leaves nesting (-1) text (readFields fuel nesting text))
    (text : List Char) : Leaves nesting (-1) text (readFields (fuel + 1) nesting text) := by
  rw [readFields.eq_def]
  dsimp only
  split
  next inside =>
    apply (leaves_readQuoted nesting fuel inside).bind
    intro key rest hrest
    dsimp only
    have hcolon := hrest.follow ((skipSpace_passes rest).leads false)
    split
    next after he =>
      rw [he] at hcolon
      have hafter := hcolon.follow
        (((Passes.cons rfl after).trans (skipSpace_passes after)).leads false)
      apply ((hvalue _).of_leads hafter).bind
      intro value rest hrest
      dsimp only
      have hnext := hrest.follow ((skipSpace_passes rest).leads false)
      split
      next hclose =>
        rw [hclose] at hnext
        exact .value (hnext.follow (.closing rfl _))
      next more hcomma =>
        rw [hcomma] at hnext
        have hmore := hnext.follow
          (((Passes.cons rfl more).trans (skipSpace_passes more)).leads false)
        exact ((hfields _).of_leads hmore).bind fun _ _ hrest => .value hrest
      next => exact .grammar _ _
    next => exact .grammar _ _
  next => exact .grammar _ _

end Step

/-- The three readers of values go down together, a step of the fuel at a time. A row of items or
fields is read with the mark that closes it. -/
theorem leaves_readers (fuel : Nat) :
    (∀ nesting text, Leaves nesting 0 text (readValue fuel nesting text)) ∧
      (∀ nesting text, Leaves nesting (-1) text (readItems fuel nesting text)) ∧
      ∀ nesting text, Leaves nesting (-1) text (readFields fuel nesting text) := by
  induction fuel with
  | zero => exact ⟨fun _ _ => .grammar _ _, fun _ _ => .grammar _ _, fun _ _ => .grammar _ _⟩
  | succ fuel ih =>
    obtain ⟨hvalue, hitems, hfields⟩ := ih
    exact ⟨leaves_readValue_succ hitems hfields,
      fun nesting => leaves_readItems_succ (hvalue nesting) (hitems nesting),
      fun nesting => leaves_readFields_succ (hvalue nesting) (hfields nesting)⟩

theorem leaves_of_read {error : ReadError} (h : read nesting text = .error error) :
    ∃ fault : Fault, fault.inText text = error ∧
      Leaves nesting 0 text (.error fault : Except Fault (Json × List Char)) := by
  have hvalue := ((leaves_readers (text.length + 1)).1 nesting (skipSpace text)).of_leads
    ((skipSpace_passes text).leads false)
  rw [read, readAll] at h
  cases hread : readValue (text.length + 1) nesting (skipSpace text) with
  | ok found =>
    rw [hread] at h
    simp only [bind, Except.bind] at h
    split at h
    · cases h
    · exact ⟨_, Except.error.inj h, .grammar _ _⟩
  | error fault =>
    rw [hread] at h hvalue
    exact ⟨fault, Except.error.inj h, hvalue⟩

theorem holdsDigits_of_read (h : read nesting text = .error (.tooManyDigits count)) :
    HoldsDigits text count := by
  obtain ⟨fault, he, hleaves⟩ := leaves_of_read h
  cases hleaves with
  | tooManyDigits hdigits =>
    cases he
    exact hdigits
  | grammar => cases he
  | tooDeep => cases he

theorem opensBeyond_of_read {container : Container}
    (h : read nesting text = .error (.tooDeep container)) : OpensBeyond nesting text := by
  obtain ⟨fault, he, hleaves⟩ := leaves_of_read h
  cases hleaves with
  | tooDeep hopens => exact hopens
  | grammar => cases he
  | tooManyDigits => cases he

end SuiteAtlas.Json
