import SuiteAtlas.Text.Utf8

namespace SuiteAtlas.Text.Utf8

variable {m b owed low high value : Nat} {more : List UInt8} {state : Option Pending}

theorem first_one : ∀ b < 0x80, first b = .inl (Char.ofNat b) := by
  decide

theorem first_two : ∀ k < 32, 2 ≤ k → first (0xc0 + k) = .inr ⟨0, 0x80, 0xbf, k⟩ := by
  decide

theorem first_three : ∀ k < 16, first (0xe0 + k) =
    .inr ⟨1, if k = 0 then 0xa0 else 0x80, if k = 0xd then 0x9f else 0xbf, k⟩ := by
  decide

theorem first_four : ∀ k < 5, first (0xf0 + k) =
    .inr ⟨2, if k = 0 then 0x90 else 0x80, if k = 4 then 0x8f else 0xbf, k⟩ := by
  decide

theorem toNat_ofNat (h : b < 256) : (UInt8.ofNat b).toNat = b := by
  rw [UInt8.toNat_ofNat', Nat.mod_eq_of_lt h]

theorem decodeFrom_one (hb : b < 0x80) :
    decodeFrom none (UInt8.ofNat b :: more) = Char.ofNat b :: decodeFrom none more := by
  rw [decodeFrom, toNat_ofNat (by omega), step, begin, first_one b hb]
  rfl

theorem decodeFrom_first {p : Pending} (hb : b < 256) (hp : first b = .inr p) :
    decodeFrom none (UInt8.ofNat b :: more) = decodeFrom (some p) more := by
  rw [decodeFrom, toNat_ofNat hb, step, begin, hp]
  rfl

theorem decodeFrom_next (hm : m < 64) (hlow : low ≤ 0x80 + m) (hhigh : 0x80 + m ≤ high) :
    decodeFrom (some ⟨owed + 1, low, high, value⟩) (UInt8.ofNat (0x80 + m) :: more) =
      decodeFrom (some ⟨owed, 0x80, 0xbf, value * 64 + m⟩) more := by
  rw [decodeFrom, toNat_ofNat (by omega), step, if_pos ⟨hlow, hhigh⟩, Nat.add_sub_cancel_left]
  rfl

theorem decodeFrom_last (hm : m < 64) (hlow : low ≤ 0x80 + m) (hhigh : 0x80 + m ≤ high) :
    decodeFrom (some ⟨0, low, high, value⟩) (UInt8.ofNat (0x80 + m) :: more) =
      Char.ofNat (value * 64 + m) :: decodeFrom none more := by
  rw [decodeFrom, toNat_ofNat (by omega), step, if_pos ⟨hlow, hhigh⟩, Nat.add_sub_cancel_left]
  rfl

theorem decodeFrom_encodeChar (c : Char) (more : List UInt8) :
    decodeFrom none (encodeChar c ++ more) = c :: decodeFrom none more := by
  have hvalid : c.toNat < 0xd800 ∨ 0xdfff < c.toNat ∧ c.toNat < 0x110000 := c.valid
  conv => rhs; rw [← Char.ofNat_toNat c]
  rw [encodeChar]
  generalize c.toNat = n at *
  -- with three and four bytes the first one bounds the second, which keeps out longer spellings
  -- of a character, surrogates and numbers that are too large
  split
  next => exact decodeFrom_one ‹_›
  split
  next =>
    have hn : n / 64 * 64 + n / 1 % 64 = n := by omega
    change decodeFrom none (_ :: _ :: more) = _
    rw [decodeFrom_first (by omega) (first_two _ (by omega) (by omega)),
      decodeFrom_last (by omega) (by omega) (by omega), hn]
  split
  next =>
    have hn : (n / 4096 * 64 + n / 64 % 64) * 64 + n / 1 % 64 = n := by omega
    change decodeFrom none (_ :: _ :: _ :: more) = _
    rw [decodeFrom_first (by omega) (first_three _ (by omega)),
      decodeFrom_next (by omega) (by split <;> omega) (by split <;> omega),
      decodeFrom_last (by omega) (by omega) (by omega), hn]
  next =>
    have hn : ((n / 262144 * 64 + n / 4096 % 64) * 64 + n / 64 % 64) * 64 + n / 1 % 64 = n := by
      omega
    change decodeFrom none (_ :: _ :: _ :: _ :: more) = _
    rw [decodeFrom_first (by omega) (first_four _ (by omega)),
      decodeFrom_next (by omega) (by split <;> omega) (by split <;> omega),
      decodeFrom_next (by omega) (by omega) (by omega),
      decodeFrom_last (by omega) (by omega) (by omega), hn]

theorem decode_encode (text : List Char) : decode (encode text) = text := by
  induction text with
  | nil => rfl
  | cons c rest ih =>
    have hrest : decodeFrom none (encode rest) = rest := ih
    rw [decode, encode, List.flatMap_cons, decodeFrom_encodeChar]
    exact congrArg (c :: ·) hrest

/-- What is written is UTF-8 as the standard library has it. -/
theorem encodeChar_eq (c : Char) : encodeChar c = String.utf8EncodeChar c := by
  have hlt : c.toNat < 0x110000 := by
    have hvalid : c.toNat < 0xd800 ∨ 0xdfff < c.toNat ∧ c.toNat < 0x110000 := c.valid
    omega
  have hn : c.val.toNat = c.toNat := rfl
  have htail (b : Nat) : 0x80 + b % 64 = b % 64 + 128 := Nat.add_comm _ _
  have hbound (a b : Nat) : a ≤ b ↔ a < b + 1 := Nat.lt_succ_iff.symm
  rw [encodeChar, String.utf8EncodeChar, hn]
  generalize c.toNat = n at hlt
  simp only [htail, Nat.div_one, hbound, Nat.reduceAdd]
  by_cases hone : n < 0x80
  · rw [if_pos hone, if_pos hone]
  rw [if_neg hone, if_neg hone]
  by_cases htwo : n < 0x800
  · have hlead : 0xc0 + n / 64 = n / 64 % 32 + 192 := by omega
    rw [if_pos htwo, if_pos htwo, hlead]
  rw [if_neg htwo, if_neg htwo]
  by_cases hthree : n < 0x10000
  · have hlead : 0xe0 + n / 4096 = n / 4096 % 16 + 224 := by omega
    rw [if_pos hthree, if_pos hthree, hlead]
  · have hlead : 0xf0 + n / 262144 = n / 262144 % 8 + 240 := by omega
    rw [if_neg hthree, if_neg hthree, hlead]

theorem encode_eq (text : List Char) : encode text = text.flatMap String.utf8EncodeChar := by
  rw [encode, funext encodeChar_eq]

theorem decodeFrom_cons (state : Option Pending) (b : UInt8) (rest : List UInt8) :
    decodeFrom state (b :: rest) =
      (step state b.toNat).1 ++ decodeFrom (step state b.toNat).2 rest :=
  rfl

/-- The bytes that a character goes on with are none of those that stand alone. -/
def IsWithin (state : Option Pending) : Prop :=
  ∀ p, state = some p → 0x80 ≤ p.low

theorem isWithin_none : IsWithin none :=
  fun _ hp => absurd hp (Option.some_ne_none _).symm

theorem isWithin_begin (b : Nat) : IsWithin (begin b).2 := by
  intro p hp
  rw [begin, first] at hp
  grind

theorem isWithin_step (state : Option Pending) (b : Nat) : IsWithin (step state b).2 := by
  cases state with
  | none => exact isWithin_begin b
  | some p =>
    rw [step]
    split
    · split
      · exact isWithin_none
      · intro q hq
        cases hq
        exact Nat.le_refl _
    · exact isWithin_begin b

theorem step_lineFeed (h : IsWithin state) : (step state 0x0a).2 = none := by
  cases state with
  | none => rfl
  | some p =>
    have hlow := h p rfl
    rw [step, if_neg (by omega)]
    rfl

theorem decodeFrom_append_lineFeed (h : IsWithin state) (bytes more : List UInt8) :
    decodeFrom state (bytes ++ 0x0a :: more) =
      decodeFrom state (bytes ++ [0x0a]) ++ decodeFrom none more := by
  induction bytes generalizing state with
  | nil =>
    have hnone : (step state (0x0a : UInt8).toNat).2 = none := step_lineFeed h
    rw [List.nil_append, List.nil_append, decodeFrom_cons, decodeFrom_cons, hnone]
    exact congrArg (· ++ _) (List.append_nil _).symm
  | cons b rest ih =>
    rw [List.cons_append, List.cons_append, decodeFrom_cons, decodeFrom_cons,
      ih (isWithin_step state b.toNat), List.append_assoc]

/-- What comes behind a line feed is read as if nothing had been before it. -/
theorem decode_append_lineFeed (bytes more : List UInt8) :
    decode (bytes ++ 0x0a :: more) = decode (bytes ++ [0x0a]) ++ decode more :=
  decodeFrom_append_lineFeed isWithin_none bytes more

end SuiteAtlas.Text.Utf8
