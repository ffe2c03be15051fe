import SuiteAtlas.Proofs.Outline.Nesting

namespace SuiteAtlas.Outline

def Placed.name (p : Placed) : String :=
  p.block.heading.name

/-- What comes on a level after placed blocks lies below one whose name was used before: a less deep
one with nothing behind it that is not deeper. -/
def BelowRepeated (before : List Placed) (level : Nat) : Prop :=
  ∃ outer q between, before = outer ++ q :: between ∧ q.repeated = true ∧ q.level < level ∧
    ∀ r ∈ between, q.level < r.level

/-- The level below which headings are left out, when they were left out below the level `lost` and
then a block comes. -/
def lostBy (lost : Option Nat) (p : Placed) : Option Nat :=
  if lost.any (· < p.level) then lost
  else if p.repeated then some p.level
  else none

/-- The blocks that are not left out, when those below the level `lost` are left out at first. -/
def kept (lost : Option Nat) : List Placed → List Placed
  | [] => []
  | p :: rest =>
    if (lostBy lost p).isSome then kept (lostBy lost p) rest
    else p :: kept (lostBy lost p) rest

variable {lost : Option Nat} {p : Placed} {before after rest placed : List Placed}
  {blocks : List Block} {later : List (Nat × Section)} {above level : Nat} {names : List String}

theorem lostBy_of_lost (h : lost.any (· < p.level) = true) : lostBy lost p = lost :=
  if_pos h

theorem lostBy_of_repeated (h : ¬lost.any (· < p.level) = true) (hp : p.repeated = true) :
    lostBy lost p = some p.level := by
  rw [lostBy, if_neg h, if_pos hp]

theorem lostBy_of_new (h : ¬lost.any (· < p.level) = true) (hp : p.repeated = false) :
    lostBy lost p = none := by
  rw [lostBy, if_neg h, if_neg (by rw [hp]; exact Bool.false_ne_true)]

theorem kept_of_lost (h : lost.any (· < p.level) = true) :
    kept lost (p :: rest) = kept lost rest := by
  have hsome : lost.isSome = true := by
    cases lost with
    | none => exact absurd h Bool.false_ne_true
    | some m => rfl
  rw [kept, lostBy_of_lost h, if_pos hsome]

theorem kept_of_repeated (h : ¬lost.any (· < p.level) = true) (hp : p.repeated = true) :
    kept lost (p :: rest) = kept (some p.level) rest := by
  rw [kept, lostBy_of_repeated h hp, if_pos Option.isSome_some]

theorem kept_of_new (h : ¬lost.any (· < p.level) = true) (hp : p.repeated = false) :
    kept lost (p :: rest) = p :: kept none rest := by
  rw [kept, lostBy_of_new h hp, if_neg (by simp)]

theorem kept_append (lost : Option Nat) (before rest : List Placed) :
    kept lost (before ++ rest) = kept lost before ++ kept (before.foldl lostBy lost) rest := by
  induction before generalizing lost with
  | nil => rfl
  | cons p before ih =>
    rw [List.cons_append, kept, kept, ih, List.foldl_cons]
    split
    · rfl
    · rfl

theorem kept_sublist (lost : Option Nat) (placed : List Placed) :
    (kept lost placed).Sublist (placed.filter fun p => !p.repeated) := by
  induction placed generalizing lost with
  | nil => exact List.Sublist.refl []
  | cons p rest ih =>
    by_cases hl : lost.any (· < p.level) = true
    · rw [kept_of_lost hl]
      exact (ih lost).trans ((List.sublist_cons_self p rest).filter _)
    · cases hp : p.repeated with
      | true =>
        rw [kept_of_repeated hl hp, List.filter_cons_of_neg (by simp [hp])]
        exact ih (some p.level)
      | false =>
        rw [kept_of_new hl hp, List.filter_cons_of_pos (by simp [hp])]
        exact (ih none).cons_cons p

theorem kept_eq_self (h : ∀ p ∈ placed, p.repeated = false) : kept none placed = placed := by
  induction placed with
  | nil => rfl
  | cons p rest ih =>
    rw [kept_of_new (by simp) (h p List.mem_cons_self),
      ih fun q hq => h q (List.mem_cons_of_mem p hq)]

theorem belowRepeated_cons {q : Placed} :
    BelowRepeated (q :: rest) level ↔
      (q.repeated = true ∧ q.level < level ∧ ∀ r ∈ rest, q.level < r.level) ∨
        BelowRepeated rest level := by
  constructor
  · rintro ⟨outer, r, between, he, hr⟩
    cases outer with
    | nil =>
      obtain ⟨rfl, rfl⟩ := List.cons.inj he
      exact .inl hr
    | cons x outer =>
      obtain ⟨_, rfl⟩ := List.cons.inj he
      exact .inr ⟨outer, r, between, rfl, hr⟩
  · rintro (hq | ⟨outer, r, between, rfl, hr⟩)
    · exact ⟨[], q, rest, rfl, hq⟩
    · exact ⟨q :: outer, r, between, rfl, hr⟩

theorem any_lt_iff : lost.any (· < level) = true ↔ ∃ m, lost = some m ∧ m < level := by
  cases lost with
  | none => simp
  | some m => simp

/-- What comes after some blocks is left out below the level that they were left out with, if all of
them are deeper, or below one of them. -/
theorem any_foldl_lostBy (lost : Option Nat) (before : List Placed) (level : Nat) :
    (before.foldl lostBy lost).any (· < level) = true ↔
      (∃ m, lost = some m ∧ m < level ∧ ∀ r ∈ before, m < r.level) ∨
        BelowRepeated before level := by
  induction before generalizing lost with
  | nil => simp [any_lt_iff, BelowRepeated]
  | cons q rest ih =>
    rw [List.foldl_cons, ih, belowRepeated_cons]
    by_cases hl : lost.any (· < q.level) = true
    · rw [lostBy_of_lost hl]
      obtain ⟨m, rfl, hm⟩ := any_lt_iff.1 hl
      constructor
      · rintro (⟨_, ⟨⟩, hlt, hrest⟩ | hrest)
        · exact .inl ⟨m, rfl, hlt, List.forall_mem_cons.2 ⟨hm, hrest⟩⟩
        · exact .inr (.inr hrest)
      · rintro (⟨_, ⟨⟩, hlt, hrest⟩ | ⟨_, hlt, hrest⟩ | hrest)
        · exact .inl ⟨m, rfl, hlt, (List.forall_mem_cons.1 hrest).2⟩
        · exact .inl ⟨m, rfl, hm.trans hlt, fun r hr => hm.trans (hrest r hr)⟩
        · exact .inr hrest
    · have hnone : ¬∃ m, lost = some m ∧ m < level ∧ ∀ r ∈ q :: rest, m < r.level := by
        rintro ⟨m, rfl, _, hrest⟩
        exact hl (any_lt_iff.2 ⟨m, rfl, hrest q List.mem_cons_self⟩)
      rw [or_iff_right hnone]
      cases hq : q.repeated with
      | true => simp [lostBy_of_repeated hl hq]
      | false => simp [lostBy_of_new hl hq]

theorem belowRepeated_iff :
    (before.foldl lostBy none).any (· < level) = true ↔ BelowRepeated before level := by
  rw [any_foldl_lostBy]
  exact or_iff_right (by simp)

theorem repeated_place (h : place above names blocks = before ++ p :: after) :
    p.repeated = true ↔ p.name ∈ names ∨ p.name ∈ before.map Placed.name := by
  induction blocks generalizing above names before with
  | nil => exact absurd h (by simp [place])
  | cons block rest ih =>
    rw [place] at h
    cases before with
    | nil =>
      obtain ⟨rfl, _⟩ := List.cons.inj h
      simp [Placed.name]
    | cons q before =>
      obtain ⟨rfl, htail⟩ := List.cons.inj h
      rw [ih htail, List.map_cons, List.mem_cons, List.mem_cons, or_assoc, or_left_comm]
      rfl

/-- The name of a heading is found again if and only if the first heading of that name lies below
none whose name was used before. -/
theorem name_mem_kept (h : place above names blocks = before ++ p :: after)
    (hp : p.repeated = false) :
    p.name ∈ (kept none (place above names blocks)).map Placed.name ↔
      ¬BelowRepeated before p.level := by
  have hnew := repeated_place h
  rw [hp, Bool.false_eq_true, false_iff, not_or] at hnew
  rw [h, kept_append, ← belowRepeated_iff, List.map_append, List.mem_append]
  constructor
  · rintro (hm | hm) hlost
    · exact hnew.2 (((kept_sublist none before).trans List.filter_sublist).map _ |>.subset hm)
    · -- what is kept behind the first heading of a name has another name
      rw [kept_of_lost hlost] at hm
      obtain ⟨q, hq, hname⟩ := List.mem_map.1 hm
      obtain ⟨hafter, hfresh⟩ := List.mem_filter.1 ((kept_sublist _ after).subset hq)
      obtain ⟨xs, ys, rfl⟩ := List.append_of_mem hafter
      have hsplit : place above names blocks = (before ++ p :: xs) ++ q :: ys := by
        rw [h, List.append_assoc, List.cons_append]
      have hold : q.repeated = true := (repeated_place hsplit).2 (.inr (by simp [hname]))
      simp [hold] at hfresh
  · intro hlost
    rw [kept_of_new hlost hp]
    exact .inr List.mem_cons_self

theorem dropWhile_none (later : List (Nat × Section)) :
    (later.dropWhile fun s => (none : Option Nat).any (· < s.1)) = later := by
  simp

theorem StartsBy.dropWhile_lost (h : StartsBy level later)
    (hlost : ¬lost.any (· < level) = true) :
    (later.dropWhile fun s => lost.any (· < s.1)) = later := by
  cases later with
  | nil => rfl
  | cons s later =>
    apply List.dropWhile_cons_of_neg
    intro hs
    obtain ⟨m, rfl, hm⟩ := any_lt_iff.1 hs
    exact hlost (any_lt_iff.2 ⟨m, rfl, Nat.lt_of_lt_of_le hm (h s rfl)⟩)

theorem dropWhile_dropWhile {α : Type} {f g : α → Bool} (h : ∀ x, f x = true → g x = true)
    (xs : List α) : (xs.dropWhile f).dropWhile g = xs.dropWhile g := by
  induction xs with
  | nil => rfl
  | cons x xs ih =>
    by_cases hx : f x = true
    · rw [List.dropWhile_cons_of_pos hx, List.dropWhile_cons_of_pos (h x hx), ih]
    · rw [List.dropWhile_cons_of_neg hx]

/-- A block that is left out takes with it what would be left out without it. -/
theorem dropWhile_insert (hlost : lost.any (· < p.level) = true) (later : List (Nat × Section)) :
    ((insert p later).dropWhile fun s => lost.any (· < s.1)) =
      later.dropWhile fun s => lost.any (· < s.1) := by
  obtain ⟨m, rfl, hm⟩ := any_lt_iff.1 hlost
  have hdeeper : ∀ s : Nat × Section, decide (p.level < s.1) = true →
      (some m).any (· < s.1) = true := by
    intro s hs
    exact any_lt_iff.2 ⟨m, rfl, hm.trans (of_decide_eq_true hs)⟩
  cases hp : p.repeated with
  | true => rw [insert_of_repeated hp, dropWhile_dropWhile hdeeper]
  | false =>
    rw [insert_of_new hp, List.dropWhile_cons_of_pos (by simpa using hlost),
      dropWhile_dropWhile hdeeper]

theorem leveled_insert (hp : p.repeated = false) (hd : Descending (p.level + 1) later) :
    ((insert p later).flatMap fun s => s.2.leveled s.1) =
      (p.level, p.block) :: later.flatMap fun s => s.2.leveled s.1 := by
  -- what a block takes lies exactly one level below it
  have hdeeper : ∀ s ∈ later.takeWhile fun s => p.level < s.1, s.1 = p.level + 1 := by
    intro s hs
    have hgt := List.mem_takeWhile_imp hs
    have hle := hd.le s ((List.takeWhile_sublist _).subset hs)
    simp only [decide_eq_true_eq] at hgt
    omega
  rw [insert_of_new hp, List.flatMap_cons, Section.leveled_eq, Section.nested, List.flatMap_map,
    List.flatMap_congr fun s hs => by rw [← hdeeper s hs], List.cons_append, ← List.flatMap_append,
    List.takeWhile_append_dropWhile]
  rfl

theorem leveled_nestAt_kept (lost : Option Nat) (above : Nat) (names : List String)
    (blocks : List Block) :
    (((nestAt (place above names blocks)).dropWhile fun s => lost.any (· < s.1)).flatMap
        fun s => s.2.leveled s.1) =
      (kept lost (place above names blocks)).map fun p => (p.level, p.block) := by
  induction blocks generalizing lost above names with
  | nil => rfl
  | cons block rest ih =>
    let level := min (block.heading.tagDepth - 1) above + 1
    let p : Placed := ⟨level, names.contains block.heading.name, block⟩
    let others := place level (block.heading.name :: names) rest
    have hstarts : StartsBy p.level (insert p (nestAt others)) := startsBy_settle p.level p.opened _
    change ((insert p (nestAt others)).dropWhile _).flatMap _ = (kept lost (p :: others)).map _
    by_cases hlost : lost.any (· < p.level) = true
    · rw [dropWhile_insert hlost, kept_of_lost hlost]
      exact ih lost level _
    · rw [hstarts.dropWhile_lost hlost]
      cases hp : p.repeated with
      | true =>
        rw [insert_of_repeated hp, kept_of_repeated hlost hp]
        exact ih (some p.level) level _
      | false =>
        rw [leveled_insert hp (descending_nestAt_place level _ rest), kept_of_new hlost hp,
          List.map_cons, ← ih none, dropWhile_none]

/-- The headings of the outline in depth-first order are the blocks that are kept. -/
theorem leveled_nestAt (above : Nat) (names : List String) (blocks : List Block) :
    ((nestAt (place above names blocks)).flatMap fun s => s.2.leveled s.1) =
      (kept none (place above names blocks)).map fun p => (p.level, p.block) := by
  rw [← leveled_nestAt_kept, dropWhile_none]

end SuiteAtlas.Outline
