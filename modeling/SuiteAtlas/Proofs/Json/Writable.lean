import Mathlib.Data.Nat.Digits.Defs
import SuiteAtlas.Json.Printer
import SuiteAtlas.Proofs.Json.Reader

namespace SuiteAtlas

namespace Keyed

variable {α β : Type} [DecidableEq α] {entries settings : List (α × β)} {entry : α × β}

theorem mem_of_mem_put {key : α} {value : β} (h : entry ∈ put entries key value) :
    entry ∈ entries ∨ entry = (key, value) := by
  induction entries with
  | nil => exact .inr (List.mem_singleton.1 h)
  | cons first rest ih =>
    rw [put] at h
    split at h
    next hkey =>
      subst hkey
      rcases List.mem_cons.1 h with rfl | hrest
      · exact .inr rfl
      · exact .inl (List.mem_cons_of_mem _ hrest)
    next =>
      rcases List.mem_cons.1 h with rfl | hrest
      · exact .inl List.mem_cons_self
      · exact (ih hrest).imp_left (List.mem_cons_of_mem _)

theorem mem_of_mem_ofList (h : entry ∈ ofList settings) : entry ∈ settings := by
  induction settings using List.reverseRecOn with
  | nil => exact h
  | append_singleton settings setting ih =>
    rw [ofList, List.foldl_append] at h
    rw [List.mem_append, List.mem_singleton]
    exact (mem_of_mem_put h).imp_left ih

end Keyed

namespace Json

open Number (digitCount digitsOf)
open Text (integerDigitLimit isAsciiDigit natOfDigits)

variable {α β : Type} {P : α → Prop} {Q : β → Prop} {nesting fuel : Nat} {digits text : List Char}
  {value : Json} {items : List Json} {fields : List (String × Json)}

def IsWritable (nesting : Nat) (value : Json) : Prop :=
  value.writeError? nesting = none

def AreWritable (nesting : Nat) (items : List Json) : Prop :=
  ∀ item ∈ items, item.IsWritable nesting

theorem areWritable_iff_itemsError? :
    AreWritable nesting items ↔ itemsError? nesting items = none := by
  induction items with
  | nil => exact ⟨fun _ => rfl, fun _ => List.forall_mem_nil _⟩
  | cons item items ih =>
    rw [itemsError?, Option.or_eq_none_iff, ← ih, AreWritable, List.forall_mem_cons]
    rfl

theorem areWritable_iff_fieldsError? :
    AreWritable nesting (fields.map Prod.snd) ↔ fieldsError? nesting fields = none := by
  induction fields with
  | nil => exact ⟨fun _ => rfl, fun _ => List.forall_mem_nil _⟩
  | cons field fields ih =>
    rw [fieldsError?, Option.or_eq_none_iff, ← ih, AreWritable, List.map_cons,
      List.forall_mem_cons]
    rfl

theorem isWritable_array (h : AreWritable nesting items) :
    (array items).IsWritable (nesting + 1) :=
  areWritable_iff_itemsError?.1 h

theorem isWritable_ofFields (h : AreWritable nesting (fields.map Prod.snd)) :
    (ofFields fields).IsWritable (nesting + 1) := by
  apply areWritable_iff_fieldsError?.1
  intro item hitem
  obtain ⟨field, hfield, rfl⟩ := List.mem_map.1 hitem
  exact h _ (List.mem_map_of_mem (Keyed.mem_of_mem_ofList hfield))

theorem isWritable_string (text : String) (nesting : Nat) : (string text).IsWritable nesting := by
  cases nesting <;> rfl

theorem natOfDigits_lt (h : ∀ c ∈ digits, isAsciiDigit c = true) :
    natOfDigits digits < 10 ^ digits.length := by
  induction digits using List.reverseRecOn with
  | nil => decide
  | append_singleton digits c ih =>
    rw [List.forall_mem_append, List.forall_mem_singleton, isAsciiDigit, Bool.and_eq_true,
      decide_eq_true_iff, decide_eq_true_iff] at h
    have hc : c.toNat ≤ '9'.toNat := h.2.2
    have hdigit : c.toNat - '0'.toNat < 10 := by
      have h9 : '9'.toNat - '0'.toNat = 9 := rfl
      omega
    have hdigits := ih h.1
    have hvalue : natOfDigits (digits ++ [c]) =
        10 * natOfDigits digits + (c.toNat - '0'.toNat) := by
      rw [natOfDigits, List.foldl_append]
      rfl
    rw [hvalue, List.length_append, List.length_singleton, pow_succ]
    omega

theorem digitCount_natOfDigits_le {limit : Nat} (h : ∀ c ∈ digits, isAsciiDigit c = true)
    (hlimit : 0 < limit) (hlength : digits.length ≤ limit) :
    digitCount (natOfDigits digits) ≤ limit :=
  Nat.toDigits_length 10 _ limit hlimit
    (Nat.lt_of_lt_of_le (natOfDigits_lt h) (Nat.pow_le_pow_right (by decide) hlength))

def Gives (P : α → Prop) (result : Except Fault (α × List Char)) : Prop :=
  ∀ value rest, result = .ok (value, rest) → P value

namespace Gives

theorem error (fault : Fault) : Gives P (.error fault) := by
  rintro _ _ ⟨⟩

theorem ok {given : α} {rest : List Char} (h : P given) : Gives P (.ok (given, rest)) := by
  rintro _ _ ⟨⟩
  exact h

theorem bind {first : Except Fault (α × List Char)}
    {next : α × List Char → Except Fault (β × List Char)} (h : Gives P first)
    (hnext : ∀ value rest, P value → Gives Q (next (value, rest))) : Gives Q (first >>= next) := by
  cases first with
  | error fault => exact error fault
  | ok found => exact hnext _ _ (h _ _ rfl)

end Gives

theorem isWritable_toJson {numeral : Numeral} (h : ∀ c ∈ numeral.whole, isAsciiDigit c = true)
    (hvalue : numeral.toJson = .ok value) (nesting : Nat) : value.IsWritable nesting := by
  rw [Numeral.toJson] at hvalue
  split at hvalue
  · split at hvalue
    · cases hvalue
    next hlength =>
      have hcount := digitCount_natOfDigits_le h (by decide) (Nat.not_lt.1 hlength)
      obtain rfl := Except.ok.inj hvalue
      rw [IsWritable, writeError?, if_neg (Nat.not_lt.2 _)]
      split
      · rwa [Int.natAbs_neg, Int.natAbs_natCast]
      · rwa [Int.natAbs_natCast]
  · obtain rfl := Except.ok.inj hvalue
    cases nesting <;> rfl

theorem isWritable_word (nesting : Nat) : ∀ word ∈ words, word.2.IsWritable nesting := by
  rw [words]
  simp only [List.forall_mem_cons]
  cases nesting <;> exact ⟨rfl, rfl, rfl, rfl, rfl, rfl, List.forall_mem_nil _⟩

theorem gives_readScalar (nesting : Nat) (text : List Char) :
    Gives (IsWritable nesting) (readScalar text) := by
  rw [readScalar]
  split
  next found hword =>
    obtain ⟨word, hmem, hfound⟩ := List.exists_of_findSome?_eq_some hword
    obtain ⟨left, _, rfl⟩ := Option.map_eq_some_iff.1 hfound
    exact .ok (isWritable_word nesting word hmem)
  next =>
    split
    next numeral rest hnumeral =>
      cases hjson : numeral.toJson with
      | error fault => exact .error fault
      | ok value => exact .ok (isWritable_toJson (numeral?_spec hnumeral).2.2 hjson nesting)
    next => exact .error _

section Step

theorem gives_readValue_succ
    (hitems : ∀ nesting text, Gives (AreWritable nesting) (readItems fuel nesting text))
    (hfields : ∀ nesting text, Gives (fun fields => AreWritable nesting (fields.map Prod.snd))
      (readFields fuel nesting text)) (nesting : Nat) (text : List Char) :
    Gives (IsWritable nesting) (readValue (fuel + 1) nesting text) := by
  rw [readValue.eq_def]
  dsimp only
  split
  next inside =>
    cases readQuoted fuel inside with
    | error fault => exact .error fault
    | ok found => exact .ok (isWritable_string found.1 _)
  next => exact .error _
  next inside nesting =>
    split
    next => exact .ok rfl
    next => exact (hitems nesting _).bind fun _ _ h => .ok (isWritable_array h)
  next => exact .error _
  next inside nesting =>
    split
    next => exact .ok rfl
    next => exact (hfields nesting _).bind fun _ _ h => .ok (isWritable_ofFields h)
  next => exact gives_readScalar _ _

theorem gives_readItems_succ
    (hvalue : ∀ text, Gives (IsWritable nesting) (readValue fuel nesting text))
    (hitems : ∀ text, Gives (AreWritable nesting) (readItems fuel nesting text))
    (text : List Char) : Gives (AreWritable nesting) (readItems (fuel + 1) nesting text) := by
  rw [readItems.eq_def]
  refine Gives.bind (hvalue text) fun item rest hitem => ?_
  dsimp only
  split
  next => exact .ok (List.forall_mem_singleton.2 hitem)
  next => exact (hitems _).bind fun _ _ hrest => .ok (List.forall_mem_cons.2 ⟨hitem, hrest⟩)
  next => exact .error _

theorem gives_readFields_succ
    (hvalue : ∀ text, Gives (IsWritable nesting) (readValue fuel nesting text))
    (hfields : ∀ text, Gives (fun fields => AreWritable nesting (fields.map Prod.snd))
      (readFields fuel nesting text)) (text : List Char) :
    Gives (fun fields => AreWritable nesting (fields.map Prod.snd))
      (readFields (fuel + 1) nesting text) := by
  rw [readFields.eq_def]
  dsimp only
  split
  next inside =>
    cases readQuoted fuel inside with
    | error fault => exact .error fault
    | ok found =>
      dsimp only [bind, Except.bind]
      split
      next =>
        refine Gives.bind (hvalue _) fun value rest hvalue => ?_
        dsimp only
        split
        next => exact .ok (List.forall_mem_singleton.2 hvalue)
        next =>
          exact (hfields _).bind fun _ _ hrest => .ok (List.forall_mem_cons.2 ⟨hvalue, hrest⟩)
        next => exact .error _
      next => exact .error _
  next => exact .error _

end Step

theorem gives_readers (fuel : Nat) :
    (∀ nesting text, Gives (IsWritable nesting) (readValue fuel nesting text)) ∧
      (∀ nesting text, Gives (AreWritable nesting) (readItems fuel nesting text)) ∧
      ∀ nesting text, Gives (fun fields => AreWritable nesting (fields.map Prod.snd))
        (readFields fuel nesting text) := by
  induction fuel with
  | zero => exact ⟨fun _ _ => .error _, fun _ _ => .error _, fun _ _ => .error _⟩
  | succ fuel ih =>
    obtain ⟨hvalue, hitems, hfields⟩ := ih
    exact ⟨gives_readValue_succ hitems hfields,
      fun nesting => gives_readItems_succ (hvalue nesting) (hitems nesting),
      fun nesting => gives_readFields_succ (hvalue nesting) (hfields nesting)⟩

/-- What was read can be written. -/
theorem isWritable_of_read (h : read nesting text = .ok value) : value.IsWritable nesting := by
  have hgives := (gives_readers (text.length + 1)).1 nesting (skipSpace text)
  rw [read, readAll] at h
  cases hread : readValue (text.length + 1) nesting (skipSpace text) with
  | error fault =>
    rw [hread] at h
    cases h
  | ok found =>
    rw [hread] at h
    simp only [bind, Except.bind] at h
    split at h
    · cases h
      exact hgives _ _ hread
    · cases h

end Json

end SuiteAtlas
