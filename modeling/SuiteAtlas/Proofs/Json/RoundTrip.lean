import Mathlib.Data.List.Basic
import SuiteAtlas.Proofs.Json.Writable

namespace SuiteAtlas

namespace Keyed

variable {α β : Type} [DecidableEq α]

theorem put_of_notMem {entries : List (α × β)} {key : α} (h : key ∉ entries.map Prod.fst)
    (value : β) : put entries key value = entries ++ [(key, value)] := by
  induction entries with
  | nil => rfl
  | cons entry rest ih =>
    rw [List.map_cons, List.mem_cons, not_or] at h
    rw [put, if_neg (Ne.symm h.1), ih h.2, List.cons_append]

theorem foldl_put_eq {entries settings : List (α × β)}
    (h : ((entries ++ settings).map Prod.fst).Nodup) :
    settings.foldl (fun entries setting => put entries setting.1 setting.2) entries =
      entries ++ settings := by
  induction settings generalizing entries with
  | nil => exact (List.append_nil entries).symm
  | cons setting rest ih =>
    have hnew : setting.1 ∉ entries.map Prod.fst := by
      rw [List.map_append, List.nodup_append] at h
      exact fun hmem => h.2.2 _ hmem _ List.mem_cons_self rfl
    rw [List.append_cons] at h ⊢
    rw [List.foldl_cons, put_of_notMem hnew, ih h]

theorem ofList_eq_self {settings : List (α × β)} (h : (settings.map Prod.fst).Nodup) :
    ofList settings = settings :=
  @foldl_put_eq α β _ [] settings h

end Keyed

namespace Json

open Number (digitsOf digitCount)
open Text (after? after?_eq_some hexDigits isAsciiDigit natOfDigits)

variable {α β : Type} {c : Char} {n fuel nesting limit level : Nat}
  {text rest digits : List Char} {key : String} {value item : Json} {items : List Json}
  {fields : List (String × Json)}

mutual

/-- A plain value is built from `null`, booleans, texts, integers of at most `limit` digits, lists,
and objects without a repeated key. -/
def isPlain (limit : Nat) : Json → Bool
  | .null | .bool _ | .string _ => true
  | .int n => digitCount n.natAbs ≤ limit
  | .float _ => false
  | .array items => itemsPlain limit items
  | .object fields => fieldsPlain limit fields

def itemsPlain (limit : Nat) : List Json → Bool
  | [] => true
  | item :: rest => isPlain limit item && itemsPlain limit rest

def fieldsPlain (limit : Nat) : List (String × Json) → Bool
  | [] => true
  | (key, value) :: rest =>
    isPlain limit value && !(rest.map Prod.fst).contains key && fieldsPlain limit rest

end

mutual

def depth : Json → Nat
  | .array items => itemsDepth items + 1
  | .object fields => fieldsDepth fields + 1
  | _ => 0

def itemsDepth : List Json → Nat
  | [] => 0
  | item :: rest => max (depth item) (itemsDepth rest)

def fieldsDepth : List (String × Json) → Nat
  | [] => 0
  | (_, value) :: rest => max (depth value) (fieldsDepth rest)

end

/-- A property of values holds of all if it holds of lists and objects whose parts have it. -/
@[elab_as_elim]
theorem induct {motive : Json → Prop} (null : motive .null) (bool : ∀ b, motive (.bool b))
    (int : ∀ n, motive (.int n)) (float : ∀ x, motive (.float x))
    (string : ∀ text, motive (.string text))
    (array : ∀ items, (∀ item ∈ items, motive item) → motive (.array items))
    (object : ∀ fields, (∀ field ∈ fields, motive field.2) → motive (.object fields)) :
    ∀ value, motive value
  | .null => null
  | .bool b => bool b
  | .int n => int n
  | .float x => float x
  | .string text => string text
  | .array items => array items fun item _ =>
    induct null bool int float string array object item
  | .object fields => object fields fun field hfield =>
    have : sizeOf field.2 < sizeOf fields := by
      have hlt := List.sizeOf_lt_of_mem hfield
      cases field
      simp only [Prod.mk.sizeOf_spec] at hlt ⊢
      omega
    induct null bool int float string array object field.2

theorem map_hexValue?_hexDigits : ∀ n < 0x20, (hexDigits 4 n).map hexValue? =
    [some 0, some 0, some (n / 16), some (n % 16)] := by
  decide

theorem unit?_hexDigits (hn : n < 0x20) (next : Char) (rest : List Char) :
    unit? (hexDigits 4 n ++ next :: rest) = some (n, next :: rest) := by
  obtain ⟨a, _, hdigits, ha, h⟩ := List.map_eq_cons_iff.1 (map_hexValue?_hexDigits n hn)
  obtain ⟨b, _, rfl, hb, h⟩ := List.map_eq_cons_iff.1 h
  obtain ⟨c, _, rfl, hc, h⟩ := List.map_eq_cons_iff.1 h
  obtain ⟨d, _, rfl, hd, h⟩ := List.map_eq_cons_iff.1 h
  obtain rfl := List.map_eq_nil_iff.1 h
  have hvalue : ((0 * 16 + 0) * 16 + n / 16) * 16 + n % 16 = n := by omega
  rw [hdigits]
  simp only [List.cons_append, List.nil_append, unit?, ha, hb, hc, hd, Option.bind_eq_bind,
    Option.bind_some, Option.pure_def, hvalue]

/-- A character is written as an escape of one letter, by its number, or as it is. -/
theorem escapeChar_cases (c : Char) :
    (∃ d, escapeChar c = ['\\', d] ∧ escaped? d = some c) ∨
      escapeChar c = '\\' :: 'u' :: hexDigits 4 c.toNat ∧ c.toNat < 0x20 ∨
      escapeChar c = [c] ∧ c ≠ '"' ∧ c ≠ '\\' ∧ 0x20 ≤ c.toNat := by
  rw [escapeChar]
  simp only [beq_iff_eq]
  split
  next h => exact .inl ⟨'"', rfl, congrArg some h.symm⟩
  next hquote =>
  split
  next h => exact .inl ⟨'\\', rfl, congrArg some h.symm⟩
  next hslash =>
  split
  next h => exact .inl ⟨'n', rfl, congrArg some h.symm⟩
  split
  next h => exact .inl ⟨'r', rfl, congrArg some h.symm⟩
  split
  next h => exact .inl ⟨'t', rfl, congrArg some h.symm⟩
  split
  next h => exact .inl ⟨'b', rfl, congrArg some h.symm⟩
  split
  next h => exact .inl ⟨'f', rfl, congrArg some h.symm⟩
  split
  next h => exact .inr (.inl ⟨rfl, h⟩)
  next h => exact .inr (.inr ⟨rfl, hquote, hslash, Nat.le_of_not_lt h⟩)

theorem readItem_escapeChar (opening : List Char) (c next : Char) (rest : List Char) :
    readItem opening (escapeChar c ++ next :: rest) = .ok (.char c, next :: rest) := by
  rcases escapeChar_cases c with ⟨d, he, hd⟩ | ⟨he, hc⟩ | ⟨he, hquote, hslash, hc⟩
  · have hu : d ≠ 'u' := by
      rintro rfl
      cases hd
    rw [he]
    simp [readItem, hd]
  · have hhigh : isHighSurrogate c.toNat = false := by
      rw [isHighSurrogate, decide_eq_false (by omega), Bool.false_and]
    have hlow : isLowSurrogate c.toNat = false := by
      rw [isLowSurrogate, decide_eq_false (by omega), Bool.false_and]
    rw [he]
    simp [readItem, unit?_hexDigits hc, hhigh, hlow]
  · rw [he]
    simp [readItem, hslash, Nat.not_lt.2 hc]

theorem readText_escaped (opening text rest : List Char) (hfuel : text.length < fuel) :
    readText opening fuel (text.flatMap escapeChar ++ '"' :: rest) = .ok (text, rest) := by
  induction text generalizing fuel with
  | nil =>
    obtain ⟨fuel, rfl⟩ := Nat.exists_eq_add_of_lt hfuel
    rfl
  | cons c text ih =>
    obtain ⟨fuel, rfl⟩ := Nat.exists_eq_add_one.2 (Nat.zero_lt_of_lt hfuel)
    have hrest := ih (Nat.lt_of_succ_lt_succ hfuel)
    obtain ⟨next, more, hnext⟩ := List.exists_cons_of_ne_nil
      (List.append_ne_nil_of_right_ne_nil (text.flatMap escapeChar) (List.cons_ne_nil '"' rest))
    rw [hnext] at hrest
    rw [List.flatMap_cons, List.append_assoc, hnext, readText, readItem_escapeChar]
    exact congrArg (Except.map _) hrest

theorem readQuoted_escaped (text : String) (rest : List Char) (hfuel : text.length < fuel) :
    readQuoted fuel (text.toList.flatMap escapeChar ++ '"' :: rest) = .ok (text, rest) := by
  rw [readQuoted, readText_escaped _ _ _ (by rwa [String.length_toList])]
  exact congrArg (fun s => Except.ok (s, rest)) String.ofList_toList

/-- A text that does not go on with a number in front of it. -/
def EndsNumber (rest : List Char) : Prop :=
  ∀ c ∈ rest.head?, isAsciiDigit c = false ∧ c ≠ '.' ∧ c ≠ 'e' ∧ c ≠ 'E'

theorem natOfDigits_digitsOf (n : Nat) : natOfDigits (digitsOf n) = n :=
  Nat.ofDigitChars_toDigits (by decide) (by decide)

theorem isAsciiDigit_of_mem_digitsOf (hc : c ∈ digitsOf n) : isAsciiDigit c = true :=
  Nat.isDigit_of_mem_toDigits (by decide) (by decide) hc

theorem digitsOf_ne_nil (n : Nat) : digitsOf n ≠ [] :=
  Nat.toDigits_ne_nil

theorem exists_digitsOf_eq_cons (n : Nat) :
    ∃ c more, digitsOf n = c :: more ∧ isAsciiDigit c = true := by
  obtain ⟨c, more, he⟩ := List.exists_cons_of_ne_nil (digitsOf_ne_nil n)
  exact ⟨c, more, he, isAsciiDigit_of_mem_digitsOf (he ▸ List.mem_cons_self)⟩

theorem head?_digitsOf (hn : n ≠ 0) : (digitsOf n).head? ≠ some '0' := by
  induction n using Nat.strongRecOn with
  | ind n ih =>
    by_cases hlt : n < 10
    · have hdigit : ∀ n < 10, n ≠ 0 → Nat.digitChar n ≠ '0' := by decide
      rw [digitsOf, Nat.toDigits_of_lt_base hlt]
      exact fun he => hdigit n hlt hn (Option.some.inj he)
    · rw [digitsOf, Nat.toDigits_of_base_le (by decide) (by omega),
        List.head?_append_of_ne_nil _ Nat.toDigits_ne_nil]
      exact ih (n / 10) (by omega) (by omega)

theorem digits?_append (hdigits : ∀ c ∈ digits, isAsciiDigit c = true) (hne : digits ≠ [])
    (hrest : EndsNumber rest) : digits? (digits ++ rest) = some (digits, rest) := by
  have hstop : rest.takeWhile isAsciiDigit = [] ∧ rest.dropWhile isAsciiDigit = rest := by
    cases rest with
    | nil => exact ⟨rfl, rfl⟩
    | cons c rest =>
      have hc := (hrest c rfl).1
      exact ⟨List.takeWhile_cons_of_neg (by simp [hc]), List.dropWhile_cons_of_neg (by simp [hc])⟩
  rw [digits?, List.takeWhile_append_of_pos hdigits, List.dropWhile_append_of_pos hdigits, hstop.1,
    hstop.2, List.append_nil, if_neg (by rwa [List.isEmpty_iff])]

theorem whole?_digitsOf (n : Nat) (hrest : EndsNumber rest) :
    whole? (digitsOf n ++ rest) = some (digitsOf n, rest) := by
  by_cases hn : n = 0
  · subst hn
    rfl
  rw [whole?.eq_def]
  split
  next more he =>
    -- a number that is not zero has another digit in front
    have hhead := congrArg List.head? he
    rw [List.head?_append_of_ne_nil _ (digitsOf_ne_nil n)] at hhead
    exact absurd hhead (head?_digitsOf hn)
  next => exact digits?_append (fun c => isAsciiDigit_of_mem_digitsOf) (digitsOf_ne_nil n) hrest

theorem fraction?_of_endsNumber (hrest : EndsNumber rest) : fraction? rest = none := by
  rw [fraction?.eq_def]
  split
  next => exact absurd rfl (hrest '.' rfl).2.1
  next => rfl

theorem exponent?_of_endsNumber (hrest : EndsNumber rest) : exponent? rest = none := by
  rw [exponent?.eq_def]
  split
  next c _ =>
    obtain ⟨_, _, he, hE⟩ := hrest c rfl
    simp [he, hE]
  next => rfl

theorem numeral?_writeInt (n : Int) (hrest : EndsNumber rest) :
    numeral? (writeInt n ++ rest) = some (⟨decide (n < 0), digitsOf n.natAbs, [], none⟩, rest) := by
  have hwhole := whole?_digitsOf n.natAbs hrest
  have hfraction := fraction?_of_endsNumber hrest
  have hexponent := exponent?_of_endsNumber hrest
  rw [writeInt, numeral?.eq_def]
  by_cases hn : n < 0
  · rw [if_pos hn, decide_eq_true hn]
    simp only [List.cons_append, hwhole, Option.map_some, hfraction, Option.getD_none, hexponent]
  · obtain ⟨c, more, hdigits, hc⟩ := exists_digitsOf_eq_cons n.natAbs
    rw [if_neg hn, decide_eq_false hn]
    split
    next hunsigned =>
    split at hunsigned
    next he =>
      rw [hdigits] at he
      cases he
      cases hc
    next =>
      cases hunsigned
      simp only [hwhole, Option.map_some, hfraction, Option.getD_none, hexponent]

theorem exists_toList_word : ∀ w ∈ words, ∃ a b more, w.1.toList = a :: b :: more ∧
    isAsciiDigit a = false ∧ isAsciiDigit b = false := by
  rw [words]
  simp only [List.forall_mem_cons]
  refine ⟨⟨'n', 'u', _, rfl, rfl, rfl⟩, ⟨'t', 'r', _, rfl, rfl, rfl⟩, ⟨'f', 'a', _, rfl, rfl, rfl⟩,
    ⟨'N', 'a', _, rfl, rfl, rfl⟩, ⟨'I', 'n', _, rfl, rfl, rfl⟩, ⟨'-', 'I', _, rfl, rfl, rfl⟩,
    List.forall_mem_nil _⟩

theorem word?_writeInt (n : Int) (rest : List Char) : word? (writeInt n ++ rest) = none := by
  rw [word?, List.findSome?_eq_none_iff]
  intro w hw
  obtain ⟨a, b, word, hword, ha, hb⟩ := exists_toList_word w hw
  obtain ⟨c, more, hdigits, hc⟩ := exists_digitsOf_eq_cons n.natAbs
  rw [Option.map_eq_none_iff, Option.eq_none_iff_forall_ne_some]
  intro left hleft
  rw [after?_eq_some, hword, writeInt, hdigits] at hleft
  split at hleft
  · obtain rfl : c = b := (List.cons.inj (List.cons.inj hleft).2).1
    rw [hb] at hc
    cases hc
  · obtain rfl : c = a := (List.cons.inj hleft).1
    rw [ha] at hc
    cases hc

theorem readScalar_writeInt {n : Int} (hn : digitCount n.natAbs ≤ Text.integerDigitLimit)
    (hrest : EndsNumber rest) : readScalar (writeInt n ++ rest) = .ok (.int n, rest) := by
  have hlong : ¬(digitsOf n.natAbs).length > Text.integerDigitLimit := Nat.not_lt.2 hn
  have hvalue : (if decide (n < 0) = true then -(n.natAbs : Int) else n.natAbs) = n := by
    simp only [decide_eq_true_iff]
    omega
  rw [readScalar, word?_writeInt, numeral?_writeInt n hrest]
  simp only [Numeral.toJson, List.isEmpty_nil, Option.isNone_none, Bool.and_self, if_true, hlong,
    if_false, natOfDigits_digitsOf, hvalue]
  rfl

/-- A reader finds what is not nested deeper than allowed, and stops at what is. -/
structure Finds (nesting deep : Nat) (result : Except Fault α) (found : α) : Prop where
  ok : deep ≤ nesting → result = .ok found
  tooDeep : nesting < deep → ∃ container, result = .error (.tooDeep container)

namespace Finds

variable {deep deep' : Nat} {first : Except Fault α} {next : α → Except Fault β} {found : α}
  {found' : β}

theorem of_ok (h : first = .ok found) : Finds nesting 0 first found :=
  ⟨fun _ => h, fun hlt => absurd hlt (Nat.not_lt_zero _)⟩

/-- Where a list or an object opens, one value less may be opened behind. -/
theorem opening {read : Nat → Except Fault α}
    (hzero : ∃ container, read 0 = .error (.tooDeep container))
    (hsucc : ∀ nesting, Finds nesting deep (read (nesting + 1)) found) (nesting : Nat) :
    Finds nesting (deep + 1) (read nesting) found := by
  cases nesting with
  | zero => exact ⟨fun hle => absurd hle (Nat.not_succ_le_zero _), fun _ => hzero⟩
  | succ nesting =>
    obtain ⟨hok, hdeep⟩ := hsucc nesting
    exact ⟨fun hle => hok (Nat.le_of_succ_le_succ hle),
      fun hlt => hdeep (Nat.lt_of_succ_lt_succ hlt)⟩

theorem bind (h : Finds nesting deep first found)
    (hnext : Finds nesting deep' (next found) found') :
    Finds nesting (max deep deep') (first >>= next) found' := by
  constructor
  · intro hle
    rw [h.ok (Nat.le_trans (Nat.le_max_left _ _) hle)]
    exact hnext.ok (Nat.le_trans (Nat.le_max_right _ _) hle)
  · intro hlt
    by_cases hle : deep ≤ nesting
    · rw [h.ok hle]
      exact hnext.tooDeep (by omega)
    · obtain ⟨container, he⟩ := h.tooDeep (Nat.lt_of_not_le hle)
      exact ⟨container, by rw [he]; rfl⟩

theorem ok_bind (h : first = .ok found) (hnext : Finds nesting deep (next found) found') :
    Finds nesting deep (first >>= next) found' := by
  rw [h]
  exact hnext

theorem bind_ok (h : Finds nesting deep first found) (hnext : next found = .ok found') :
    Finds nesting deep (first >>= next) found' := by
  rw [← Nat.max_zero deep]
  exact h.bind (of_ok hnext)

end Finds

section Step

variable {deep deep' : Nat} {left more afterKey afterColon : List Char}

theorem readValue_scalar (hquote : c ≠ '"') (hlist : c ≠ '[') (hobject : c ≠ '\x7b')
    (fuel nesting : Nat) (text : List Char) :
    readValue (fuel + 1) nesting (c :: text) = readScalar (c :: text) := by
  simp [readValue, hquote, hlist, hobject]

theorem readValue_string (h : readQuoted fuel text = .ok (key, rest)) :
    readValue (fuel + 1) nesting ('"' :: text) = .ok (.string key, rest) := by
  rw [readValue, h]
  rfl

theorem readValue_array (htext : skipSpace text = c :: left) (hc : c ≠ ']')
    (h : ∀ nesting, Finds nesting deep (readItems fuel nesting (skipSpace text)) (items, rest)) :
    Finds nesting (deep + 1) (readValue (fuel + 1) nesting ('[' :: text)) (.array items, rest) := by
  apply Finds.opening ⟨.array, rfl⟩
  intro nesting
  have hread : readValue (fuel + 1) (nesting + 1) ('[' :: text) =
      readItems fuel nesting (skipSpace text) >>= fun found => .ok (.array found.1, found.2) := by
    simp [readValue, htext, hc, pure, Except.pure]
  rw [hread]
  exact (h nesting).bind_ok rfl

theorem readValue_object (htext : skipSpace text = c :: left) (hc : c ≠ '\x7d')
    (hkeys : (fields.map Prod.fst).Nodup)
    (h : ∀ nesting, Finds nesting deep (readFields fuel nesting (skipSpace text)) (fields, rest)) :
    Finds nesting (deep + 1) (readValue (fuel + 1) nesting ('\x7b' :: text))
      (.object fields, rest) := by
  apply Finds.opening ⟨.object, rfl⟩
  intro nesting
  have hread : readValue (fuel + 1) (nesting + 1) ('\x7b' :: text) =
      readFields fuel nesting (skipSpace text) >>= fun found =>
        .ok (ofFields found.1, found.2) := by
    simp [readValue, htext, hc, pure, Except.pure]
  rw [hread]
  refine (h nesting).bind_ok ?_
  rw [ofFields, Keyed.ofList_eq_self hkeys]

theorem readValue_array_nil :
    Finds nesting 1 (readValue (fuel + 1) nesting ('[' :: ']' :: rest)) (.array [], rest) := by
  apply Finds.opening ⟨.array, rfl⟩
  exact fun _ => .of_ok rfl

theorem readValue_object_nil : Finds nesting 1
    (readValue (fuel + 1) nesting ('\x7b' :: '\x7d' :: rest)) (.object [], rest) := by
  apply Finds.opening ⟨.object, rfl⟩
  exact fun _ => .of_ok rfl

theorem readItems_last (h : Finds nesting deep (readValue fuel nesting text) (item, left))
    (hleft : skipSpace left = ']' :: rest) :
    Finds nesting deep (readItems (fuel + 1) nesting text) ([item], rest) := by
  rw [readItems]
  refine h.bind_ok ?_
  simp only [hleft]
  rfl

theorem readItems_next (h : Finds nesting deep (readValue fuel nesting text) (item, left))
    (hleft : skipSpace left = ',' :: more)
    (hmore : Finds nesting deep' (readItems fuel nesting (skipSpace more)) (items, rest)) :
    Finds nesting (max deep deep') (readItems (fuel + 1) nesting text) (item :: items, rest) := by
  rw [readItems]
  refine h.bind ?_
  simp only [hleft]
  refine hmore.bind_ok ?_
  rfl

theorem readFields_last (hkey : readQuoted fuel text = .ok (key, afterKey))
    (hcolon : skipSpace afterKey = ':' :: afterColon)
    (h : Finds nesting deep (readValue fuel nesting (skipSpace afterColon)) (value, left))
    (hleft : skipSpace left = '\x7d' :: rest) :
    Finds nesting deep (readFields (fuel + 1) nesting ('"' :: text)) ([(key, value)], rest) := by
  rw [readFields]
  refine Finds.ok_bind hkey ?_
  simp only [hcolon]
  refine h.bind_ok ?_
  simp only [hleft]
  rfl

theorem readFields_next (hkey : readQuoted fuel text = .ok (key, afterKey))
    (hcolon : skipSpace afterKey = ':' :: afterColon)
    (h : Finds nesting deep (readValue fuel nesting (skipSpace afterColon)) (value, left))
    (hleft : skipSpace left = ',' :: more)
    (hmore : Finds nesting deep' (readFields fuel nesting (skipSpace more)) (fields, rest)) :
    Finds nesting (max deep deep') (readFields (fuel + 1) nesting ('"' :: text))
      ((key, value) :: fields, rest) := by
  rw [readFields]
  refine Finds.ok_bind hkey ?_
  simp only [hcolon]
  refine h.bind ?_
  simp only [hleft]
  refine hmore.bind_ok ?_
  rfl

end Step

theorem skipSpace_newLine (level : Nat) (text : List Char) :
    skipSpace (newLine level ++ text) = skipSpace text := by
  apply List.dropWhile_append_of_pos
  intro c hc
  rcases List.mem_cons.1 hc with rfl | hc
  · rfl
  · rw [List.eq_of_mem_replicate hc]
    rfl

theorem skipSpace_cons (hc : isSpace c = false) (text : List Char) :
    skipSpace (c :: text) = c :: text :=
  List.dropWhile_cons_of_neg (by rw [hc]; exact Bool.false_ne_true)

theorem endsNumber_comma (rest : List Char) : EndsNumber (',' :: rest) := by
  rintro c ⟨⟩
  decide

theorem endsNumber_newLine (level : Nat) (rest : List Char) :
    EndsNumber (newLine level ++ rest) := by
  rintro c ⟨⟩
  decide

theorem exists_writeInt_eq_cons (n : Int) : ∃ c more, writeInt n = c :: more ∧
    (c = '-' ∨ isAsciiDigit c = true) := by
  rw [writeInt]
  split
  · exact ⟨'-', _, rfl, .inl rfl⟩
  · obtain ⟨c, more, he, hc⟩ := exists_digitsOf_eq_cons n.natAbs
    exact ⟨c, more, he, .inr hc⟩

theorem isSpace_of_isAsciiDigit (hc : isAsciiDigit c = true) : isSpace c = false := by
  by_contra hspace
  simp only [isSpace, Bool.not_eq_false, Bool.or_eq_true, beq_iff_eq] at hspace
  rcases hspace with ((rfl | rfl) | rfl) | rfl <;> cases hc

/-- The first mark of a value is told apart from space and from the end of a list. -/
theorem exists_block_eq_cons (hplain : value.isPlain limit = true) (level : Nat) :
    ∃ c more, value.block level = c :: more ∧ isSpace c = false ∧ c ≠ ']' := by
  cases value with
  | null => exact ⟨'n', _, rfl, rfl, by decide⟩
  | bool b => cases b with
    | true => exact ⟨'t', _, rfl, rfl, by decide⟩
    | false => exact ⟨'f', _, rfl, rfl, by decide⟩
  | int n =>
    obtain ⟨c, more, he, hc⟩ := exists_writeInt_eq_cons n
    refine ⟨c, more, he, ?_⟩
    rcases hc with rfl | hc
    · decide
    · exact ⟨isSpace_of_isAsciiDigit hc, fun he => by cases he ▸ hc⟩
  | float x => cases hplain
  | string text => exact ⟨'"', _, rfl, rfl, by decide⟩
  | array items => cases items with
    | nil => exact ⟨'[', _, rfl, rfl, by decide⟩
    | cons item items => exact ⟨'[', _, rfl, rfl, by decide⟩
  | object fields => cases fields with
    | nil => exact ⟨'\x7b', _, rfl, rfl, by decide⟩
    | cons field fields => exact ⟨'\x7b', _, rfl, rfl, by decide⟩

theorem skipSpace_block (hplain : value.isPlain limit = true) (level : Nat) (rest : List Char) :
    skipSpace (value.block level ++ rest) = value.block level ++ rest := by
  obtain ⟨c, more, he, hc, _⟩ := exists_block_eq_cons hplain level
  rw [he]
  exact skipSpace_cons hc _

theorem length_le_quoted (text : String) : text.length + 2 ≤ (quoted text).length := by
  have hchar (c : Char) : 1 ≤ (escapeChar c).length := by
    rcases escapeChar_cases c with ⟨d, he, _⟩ | ⟨he, _⟩ | ⟨he, _⟩ <;> rw [he] <;> simp
  have hall (text : List Char) : text.length ≤ (text.flatMap escapeChar).length := by
    induction text with
    | nil => exact Nat.le_refl 0
    | cons c text ih =>
      rw [List.flatMap_cons, List.length_append, List.length_cons]
      have := hchar c
      omega
  have := hall text.toList
  rw [String.length_toList] at this
  rw [quoted, List.length_append, List.length_cons, List.length_singleton]
  omega

theorem quoted_append (text : String) (rest : List Char) :
    quoted text ++ rest = '"' :: (text.toList.flatMap escapeChar ++ '"' :: rest) := by
  rw [quoted, List.append_assoc]
  rfl

/-- A value is read from its block, in front of any text that does not go on with a number. The end
of the block is told by its last mark, but for integers. -/
def IsReadBack (value : Json) : Prop :=
  ∀ level fuel nesting rest, (value.block level).length < fuel → EndsNumber rest →
    Finds nesting value.depth (readValue fuel nesting (value.block level ++ rest)) (value, rest)

theorem IsReadBack.of_succ (h : ∀ level fuel nesting rest, (value.block level).length ≤ fuel →
      EndsNumber rest → Finds nesting value.depth
        (readValue (fuel + 1) nesting (value.block level ++ rest)) (value, rest)) :
    value.IsReadBack := by
  intro level fuel nesting rest hfuel hrest
  cases fuel with
  | zero => exact absurd hfuel (Nat.not_lt_zero _)
  | succ fuel => exact h level fuel nesting rest (Nat.le_of_lt_succ hfuel) hrest

theorem blockItems_cons_cons (level : Nat) (item next : Json) (items : List Json) :
    blockItems level (item :: next :: items) =
      newLine level ++ block level item ++ ',' :: blockItems level (next :: items) := by
  rw [blockItems]
  simp

theorem blockFields_cons_cons (level : Nat) (field next : String × Json)
    (fields : List (String × Json)) : blockFields level (field :: next :: fields) =
      newLine level ++ quoted field.1 ++
        ':' :: ' ' :: (block level field.2 ++ ',' :: blockFields level (next :: fields)) := by
  rw [blockFields]
  simp

theorem exists_skipSpace_blockItems (hplain : item.isPlain limit = true) (level : Nat)
    (items : List Json) (rest : List Char) :
    ∃ c left, skipSpace (blockItems level (item :: items) ++ rest) = c :: left ∧ c ≠ ']' := by
  obtain ⟨c, more, he, hspace, hc⟩ := exists_block_eq_cons hplain level
  cases items with
  | nil =>
    rw [blockItems, List.append_assoc, skipSpace_newLine, he]
    exact ⟨c, _, skipSpace_cons hspace _, hc⟩
  | cons next items =>
    rw [blockItems_cons_cons, List.append_assoc, List.append_assoc, skipSpace_newLine, he]
    exact ⟨c, _, skipSpace_cons hspace _, hc⟩

theorem exists_skipSpace_blockFields (level : Nat) (field : String × Json)
    (fields : List (String × Json)) (rest : List Char) :
    ∃ left, skipSpace (blockFields level (field :: fields) ++ rest) = '"' :: left := by
  cases fields with
  | nil =>
    rw [blockFields, List.append_assoc, List.append_assoc, skipSpace_newLine, quoted_append]
    exact ⟨_, rfl⟩
  | cons next fields =>
    rw [blockFields_cons_cons, List.append_assoc, List.append_assoc, skipSpace_newLine,
      quoted_append]
    exact ⟨_, rfl⟩

theorem readItems_blockItems
    (hitems : ∀ item ∈ items, item.isPlain limit = true ∧ item.IsReadBack) (hne : items ≠ [])
    (hfuel : (blockItems level items).length < fuel) (outer nesting : Nat) (rest : List Char) :
    Finds nesting (itemsDepth items) (readItems fuel nesting
      (skipSpace (blockItems level items ++ (newLine outer ++ ']' :: rest)))) (items, rest) := by
  induction items generalizing fuel with
  | nil => exact absurd rfl hne
  | cons item items ih =>
    obtain ⟨⟨hplain, hitem⟩, hitems⟩ := List.forall_mem_cons.1 hitems
    obtain ⟨fuel, rfl⟩ := Nat.exists_eq_add_one.2 (Nat.zero_lt_of_lt hfuel)
    cases items with
    | nil =>
      rw [blockItems, List.length_append, newLine, List.length_cons] at hfuel
      have hread := hitem level fuel nesting (newLine outer ++ ']' :: rest) (by omega)
        (endsNumber_newLine outer _)
      rw [blockItems, List.append_assoc, skipSpace_newLine, skipSpace_block hplain, itemsDepth,
        itemsDepth, Nat.max_zero]
      exact readItems_last hread (skipSpace_newLine outer _)
    | cons next items =>
      rw [blockItems_cons_cons] at hfuel ⊢
      rw [List.length_append, List.length_append, newLine, List.length_cons, List.length_cons]
        at hfuel
      have hread := hitem level fuel nesting
        (',' :: (blockItems level (next :: items) ++ (newLine outer ++ ']' :: rest))) (by omega)
        (endsNumber_comma _)
      have hrest := ih hitems (List.cons_ne_nil _ _) (by omega : _ < fuel)
      rw [List.append_assoc, List.append_assoc, skipSpace_newLine, skipSpace_block hplain]
      exact readItems_next hread rfl hrest

theorem readFields_blockFields
    (hfields : ∀ field ∈ fields, field.2.isPlain limit = true ∧ field.2.IsReadBack)
    (hne : fields ≠ []) (hfuel : (blockFields level fields).length < fuel) (outer nesting : Nat)
    (rest : List Char) :
    Finds nesting (fieldsDepth fields) (readFields fuel nesting
      (skipSpace (blockFields level fields ++ (newLine outer ++ '\x7d' :: rest))))
      (fields, rest) := by
  induction fields generalizing fuel with
  | nil => exact absurd rfl hne
  | cons field fields ih =>
    obtain ⟨key, value⟩ := field
    simp only [List.forall_mem_cons] at hfields
    obtain ⟨⟨hplain, hvalue⟩, hfields⟩ := hfields
    obtain ⟨fuel, rfl⟩ := Nat.exists_eq_add_one.2 (Nat.zero_lt_of_lt hfuel)
    have hlength := length_le_quoted key
    cases fields with
    | nil =>
      rw [blockFields] at hfuel ⊢
      simp only [List.length_append, List.length_cons] at hfuel
      have hkey := readQuoted_escaped key
        (':' :: ' ' :: (value.block level ++ (newLine outer ++ '\x7d' :: rest)))
        (by omega : _ < fuel)
      have hread := hvalue level fuel nesting (newLine outer ++ '\x7d' :: rest) (by omega)
        (endsNumber_newLine outer _)
      rw [← skipSpace_block hplain] at hread
      rw [List.append_assoc, List.append_assoc, skipSpace_newLine, quoted_append, fieldsDepth,
        fieldsDepth, Nat.max_zero]
      exact readFields_last hkey rfl hread (skipSpace_newLine outer _)
    | cons next fields =>
      rw [blockFields_cons_cons] at hfuel ⊢
      simp only [List.length_append, List.length_cons] at hfuel
      have hkey := readQuoted_escaped key (':' :: ' ' :: (value.block level ++
        (',' :: (blockFields level (next :: fields) ++ (newLine outer ++ '\x7d' :: rest)))))
        (by omega : _ < fuel)
      have hread := hvalue level fuel nesting
        (',' :: (blockFields level (next :: fields) ++ (newLine outer ++ '\x7d' :: rest)))
        (by omega) (endsNumber_comma _)
      have hrest := ih hfields (List.cons_ne_nil _ _) (by omega : _ < fuel)
      rw [← skipSpace_block hplain] at hread
      simp only [List.append_assoc, List.cons_append, skipSpace_newLine, quoted_append]
      exact readFields_next hkey rfl hread rfl hrest

theorem isReadBack_int {n : Int} (hn : digitCount n.natAbs ≤ Text.integerDigitLimit) :
    (int n).IsReadBack := by
  apply IsReadBack.of_succ
  intro level fuel nesting rest _ hrest
  apply Finds.of_ok
  have hread := readScalar_writeInt hn hrest
  obtain ⟨c, more, he, hc⟩ := exists_writeInt_eq_cons n
  rw [block]
  rw [he] at hread ⊢
  rw [List.cons_append, readValue_scalar, ← List.cons_append, hread]
  all_goals
    rintro rfl
    revert hc
    decide

theorem isReadBack_string (text : String) : (string text).IsReadBack := by
  apply IsReadBack.of_succ
  intro level fuel nesting rest hfuel _
  apply Finds.of_ok
  have hlength := length_le_quoted text
  rw [block] at hfuel ⊢
  rw [quoted_append]
  exact readValue_string (readQuoted_escaped text rest (by omega))

theorem isReadBack_array
    (hitems : ∀ item ∈ items, item.isPlain limit = true ∧ item.IsReadBack) :
    (array items).IsReadBack := by
  apply IsReadBack.of_succ
  intro level fuel nesting rest hfuel _
  cases items with
  | nil => exact readValue_array_nil
  | cons item items =>
    rw [block] at hfuel ⊢
    simp only [List.length_append, List.length_cons, List.cons_append, List.append_assoc]
      at hfuel ⊢
    have hread (nesting : Nat) := readItems_blockItems hitems (List.cons_ne_nil item items)
      (by omega : (blockItems (level + 1) _).length < fuel) level nesting rest
    obtain ⟨c, left, htext, hc⟩ :=
      exists_skipSpace_blockItems (hitems item List.mem_cons_self).1 (level + 1) items _
    exact readValue_array htext hc hread

theorem isReadBack_object
    (hfields : ∀ field ∈ fields, field.2.isPlain limit = true ∧ field.2.IsReadBack)
    (hkeys : (fields.map Prod.fst).Nodup) : (object fields).IsReadBack := by
  apply IsReadBack.of_succ
  intro level fuel nesting rest hfuel _
  cases fields with
  | nil => exact readValue_object_nil
  | cons field fields =>
    rw [block] at hfuel ⊢
    simp only [List.length_append, List.length_cons, List.cons_append, List.append_assoc]
      at hfuel ⊢
    have hread (nesting : Nat) := readFields_blockFields hfields (List.cons_ne_nil field fields)
      (by omega : (blockFields (level + 1) _).length < fuel) level nesting rest
    obtain ⟨left, htext⟩ := exists_skipSpace_blockFields (level + 1) field fields _
    exact readValue_object htext (by decide) hkeys hread

theorem isPlain_of_itemsPlain (h : itemsPlain limit items = true) :
    ∀ item ∈ items, item.isPlain limit = true := by
  induction items with
  | nil => exact List.forall_mem_nil _
  | cons item items ih =>
    rw [itemsPlain, Bool.and_eq_true] at h
    exact List.forall_mem_cons.2 ⟨h.1, ih h.2⟩

theorem isPlain_of_fieldsPlain (h : fieldsPlain limit fields = true) :
    (∀ field ∈ fields, field.2.isPlain limit = true) ∧ (fields.map Prod.fst).Nodup := by
  induction fields with
  | nil => exact ⟨List.forall_mem_nil _, List.nodup_nil⟩
  | cons field fields ih =>
    obtain ⟨key, value⟩ := field
    simp only [fieldsPlain, Bool.and_eq_true, Bool.not_eq_true', List.contains_eq_mem,
      decide_eq_false_iff_not] at h
    obtain ⟨⟨hvalue, hkey⟩, hfields⟩ := h
    obtain ⟨hplain, hkeys⟩ := ih hfields
    exact ⟨List.forall_mem_cons.2 ⟨hvalue, hplain⟩, List.nodup_cons.2 ⟨hkey, hkeys⟩⟩

theorem isReadBack_of_isPlain (hplain : value.isPlain Text.integerDigitLimit = true) :
    value.IsReadBack := by
  induction value using induct with
  | null => exact .of_succ fun _ _ _ _ _ _ => .of_ok rfl
  | bool b => cases b <;> exact .of_succ fun _ _ _ _ _ _ => .of_ok rfl
  | int n => exact isReadBack_int (of_decide_eq_true hplain)
  | float x => cases hplain
  | string text => exact isReadBack_string text
  | array items ih =>
    have hitems := isPlain_of_itemsPlain hplain
    exact isReadBack_array fun item hitem =>
      ⟨hitems item hitem, ih item hitem (hitems item hitem)⟩
  | object fields ih =>
    obtain ⟨hfields, hkeys⟩ := isPlain_of_fieldsPlain hplain
    exact isReadBack_object
      (fun field hfield => ⟨hfields field hfield, ih field hfield (hfields field hfield)⟩) hkeys

theorem tooDeep_or_tooDeep (first rest nesting : Nat) :
    (if first ≤ nesting then none else some WriteError.tooDeep).or
        (if rest ≤ nesting then none else some WriteError.tooDeep) =
      if max first rest ≤ nesting then none else some WriteError.tooDeep := by
  by_cases hfirst : first ≤ nesting <;> by_cases hrest : rest ≤ nesting <;> simp [hfirst, hrest]

theorem itemsError?_eq_ite
    (h : ∀ item ∈ items, item.writeError? nesting =
      if item.depth ≤ nesting then none else some .tooDeep) :
    itemsError? nesting items =
      if itemsDepth items ≤ nesting then none else some .tooDeep := by
  induction items with
  | nil => rfl
  | cons item items ih =>
    obtain ⟨hitem, hitems⟩ := List.forall_mem_cons.1 h
    rw [itemsError?, itemsDepth, hitem, ih hitems, tooDeep_or_tooDeep]

theorem fieldsError?_eq_ite
    (h : ∀ field ∈ fields, field.2.writeError? nesting =
      if field.2.depth ≤ nesting then none else some .tooDeep) :
    fieldsError? nesting fields =
      if fieldsDepth fields ≤ nesting then none else some .tooDeep := by
  induction fields with
  | nil => rfl
  | cons field fields ih =>
    obtain ⟨hfield, hfields⟩ := List.forall_mem_cons.1 h
    rw [fieldsError?, fieldsDepth, hfield, ih hfields, tooDeep_or_tooDeep]

/-- Only its depth can be in the way of writing a plain value. -/
theorem writeError?_of_isPlain (hplain : value.isPlain Text.integerDigitLimit = true)
    (nesting : Nat) :
    value.writeError? nesting = if value.depth ≤ nesting then none else some .tooDeep := by
  induction value using induct generalizing nesting with
  | null => cases nesting <;> rfl
  | bool b => cases nesting <;> rfl
  | int n =>
    have hn := of_decide_eq_true hplain
    rw [writeError?, if_neg (Nat.not_lt.2 hn)]
    rfl
  | float x => cases hplain
  | string text => cases nesting <;> rfl
  | array items ih =>
    have hitems := isPlain_of_itemsPlain hplain
    cases nesting with
    | zero => rfl
    | succ nesting =>
      rw [writeError?, depth,
        itemsError?_eq_ite fun item hitem => ih item hitem (hitems item hitem) nesting]
      simp only [Nat.add_le_add_iff_right]
  | object fields ih =>
    obtain ⟨hfields, _⟩ := isPlain_of_fieldsPlain hplain
    cases nesting with
    | zero => rfl
    | succ nesting =>
      rw [writeError?, depth,
        fieldsError?_eq_ite fun field hfield => ih field hfield (hfields field hfield) nesting]
      simp only [Nat.add_le_add_iff_right]

theorem finds_read_block (hplain : value.isPlain Text.integerDigitLimit = true) (nesting : Nat) :
    Finds nesting value.depth (readAll nesting (value.block 0)) value := by
  have hread := isReadBack_of_isPlain hplain 0 ((value.block 0).length + 1) nesting []
    (Nat.lt_succ_self _) (fun _ hc => absurd hc (Option.not_mem_none _))
  have hskip := skipSpace_block hplain 0 []
  rw [List.append_nil] at hread hskip
  rw [readAll, hskip]
  exact hread.bind_ok rfl

theorem read_block (hplain : value.isPlain Text.integerDigitLimit = true)
    (h : value.depth ≤ nesting) : read nesting (value.block 0) = .ok value := by
  rw [read, (finds_read_block hplain nesting).ok h]
  rfl

theorem exists_read_block_of_lt_depth (hplain : value.isPlain Text.integerDigitLimit = true)
    (h : nesting < value.depth) :
    ∃ container, read nesting (value.block 0) = .error (.tooDeep container) := by
  obtain ⟨container, he⟩ := (finds_read_block hplain nesting).tooDeep h
  exact ⟨container, by rw [read, he]; rfl⟩

end Json

end SuiteAtlas
