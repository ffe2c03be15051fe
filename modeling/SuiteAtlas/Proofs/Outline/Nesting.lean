import Mathlib.Data.List.Basic
import Mathlib.Data.List.TakeWhile
import SuiteAtlas.Outline.Basic

namespace SuiteAtlas

open Source (Assertion Event Heading)

/-- A heading with the assertions that follow it before the next one. -/
structure Block where
  heading : Heading
  assertions : List Assertion
  deriving DecidableEq, Repr

namespace Section

@[elab_as_elim]
theorem induct {motive : Section → Prop}
    (mk : ∀ heading assertions nested, (∀ s ∈ nested, motive s) →
      motive (.mk heading assertions nested)) : ∀ s, motive s
  | .mk heading assertions nested => mk heading assertions nested fun s _ => induct mk s

mutual

/-- The blocks of a section with their levels, its own before those below it. -/
def leveled (level : Nat) : Section → List (Nat × Block)
  | .mk heading assertions nested => (level, ⟨heading, assertions⟩) :: leveledAll (level + 1) nested

def leveledAll (level : Nat) : List Section → List (Nat × Block)
  | [] => []
  | s :: rest => s.leveled level ++ leveledAll level rest

end

theorem leveledAll_eq (level : Nat) (sections : List Section) :
    leveledAll level sections = sections.flatMap (leveled level) := by
  induction sections with
  | nil => rfl
  | cons s rest ih => rw [leveledAll, ih, List.flatMap_cons]

def blocks (s : Section) : List Block :=
  (s.leveled 0).map Prod.snd

theorem leveled_eq (level : Nat) (s : Section) :
    s.leveled level = (level, ⟨s.heading, s.assertions⟩) ::
      s.nested.flatMap (leveled (level + 1)) := by
  cases s with
  | mk heading assertions nested => rw [leveled, leveledAll_eq]; rfl

theorem map_snd_leveled (level : Nat) (s : Section) :
    (s.leveled level).map Prod.snd = s.blocks := by
  rw [blocks]
  generalize 0 = other
  induction s using induct generalizing level other with
  | mk heading assertions nested ih =>
    rw [leveled_eq, leveled_eq, List.map_cons, List.map_cons, List.map_flatMap, List.map_flatMap]
    congr 1
    exact List.flatMap_congr fun s hs => ih s hs _ _

theorem blocks_eq (s : Section) :
    s.blocks = ⟨s.heading, s.assertions⟩ :: s.nested.flatMap blocks := by
  rw [← map_snd_leveled 0, leveled_eq, List.map_cons, List.map_flatMap]
  congr 1
  exact List.flatMap_congr fun r _ => map_snd_leveled _ r

theorem blocks_sublist {s : Section} {sections : List Section} (hs : s ∈ sections) :
    s.blocks.Sublist (sections.flatMap blocks) := by
  rw [List.flatMap_def]
  exact List.sublist_flatten_of_mem (List.mem_map_of_mem hs)

end Section

namespace Outline

def blocks : List Event → List Assertion × List Block
  | [] => ([], [])
  | .assertion a :: rest =>
    let (loose, blocks) := blocks rest
    (a :: loose, blocks)
  | .heading h :: rest =>
    let (own, blocks) := blocks rest
    ([], ⟨h, own⟩ :: blocks)

/-- A block with its level, and whether its name was used before. -/
structure Placed where
  level : Nat
  repeated : Bool
  block : Block
  deriving DecidableEq, Repr

def place (above : Nat) (names : List String) : List Block → List Placed
  | [] => []
  | block :: rest =>
    let level := min (block.heading.tagDepth - 1) above + 1
    let name := block.heading.name
    ⟨level, names.contains name, block⟩ :: place level (name :: names) rest

def Placed.opened (p : Placed) : Open :=
  { heading := p.block.heading, repeated := p.repeated, assertions := p.block.assertions }

/-- Closes an open heading on a level before sections with their levels, of which the deeper ones
that come first lie below it. -/
def settle (level : Nat) (o : Open) (later : List (Nat × Section)) : List (Nat × Section) :=
  let deeper := later.takeWhile fun s => level < s.1
  let others := later.dropWhile fun s => level < s.1
  (o.addSections (deeper.map Prod.snd)).close.map (level, ·) ++ others

def insert (p : Placed) (later : List (Nat × Section)) : List (Nat × Section) :=
  settle p.level p.opened later

def nestAt (placed : List Placed) : List (Nat × Section) :=
  placed.foldr insert []

def nest (placed : List Placed) : List Section :=
  (nestAt placed).map Prod.snd

/-- The sections that open headings give when sections with their levels follow. -/
def absorb : List Open → List (Nat × Section) → List Section
  | [], later => later.map Prod.snd
  | o :: rest, later => absorb rest (settle (rest.length + 1) o later)

def StartsBy (level : Nat) (later : List (Nat × Section)) : Prop :=
  ∀ s ∈ later.head?, s.1 ≤ level

variable {level : Nat} {later : List (Nat × Section)} {o parent : Open} {rest : List Open}

theorem StartsBy.mono {other : Nat} (h : StartsBy level later) (hle : level ≤ other) :
    StartsBy other later :=
  fun s hs => Nat.le_trans (h s hs) hle

theorem StartsBy.takeWhile (h : StartsBy level later) :
    (later.takeWhile fun s => level < s.1) = [] := by
  cases later with
  | nil => rfl
  | cons s later =>
    have hs := h s rfl
    exact List.takeWhile_cons_of_neg (by simpa using hs)

theorem StartsBy.dropWhile (h : StartsBy level later) :
    (later.dropWhile fun s => level < s.1) = later := by
  cases later with
  | nil => rfl
  | cons s later =>
    have hs := h s rfl
    exact List.dropWhile_cons_of_neg (by simpa using hs)

theorem startsBy_dropWhile (level : Nat) (later : List (Nat × Section)) :
    StartsBy level (later.dropWhile fun s => level < s.1) := by
  intro s hs
  have hn := List.head?_dropWhile_not (fun s : Nat × Section => level < s.1) later
  rw [Option.mem_def.1 hs] at hn
  simpa using hn

theorem startsBy_settle (level : Nat) (o : Open) (later : List (Nat × Section)) :
    StartsBy level (settle level o later) := by
  rw [settle, Open.close]
  split
  · exact startsBy_dropWhile level later
  · intro s hs
    rw [List.map_cons, List.cons_append, List.head?_cons, Option.mem_some_iff] at hs
    exact Nat.le_of_eq (congrArg Prod.fst hs.symm)

theorem Open.addSections_nil (o : Open) : o.addSections [] = o := by
  rw [Open.addSections, List.append_nil]

theorem Open.addSections_append (o : Open) (a b : List Section) :
    o.addSections (a ++ b) = (o.addSections a).addSections b := by
  simp only [Open.addSections, List.append_assoc]

theorem settle_of_startsBy (h : StartsBy level later) :
    settle level o later = o.close.map (level, ·) ++ later := by
  rw [settle, h.takeWhile, h.dropWhile, List.map_nil, Open.addSections_nil]

theorem absorb_close (h : StartsBy (rest.length + 2) later) :
    absorb (o :: parent :: rest) later = absorb (parent.addSections o.close :: rest) later := by
  have hdeep : ∀ s ∈ o.close.map (rest.length + 2, ·), decide (rest.length + 1 < s.1) = true := by
    intro s hs
    obtain ⟨c, _, rfl⟩ := List.mem_map.1 hs
    simp
  have hsnd : (o.close.map (rest.length + 2, ·)).map Prod.snd = o.close := by
    rw [List.map_map]
    exact List.map_id _
  change absorb (parent :: rest) (settle (rest.length + 2) o later) = _
  rw [settle_of_startsBy h, absorb, absorb, settle, settle,
    List.takeWhile_append_of_pos hdeep, List.dropWhile_append_of_pos hdeep, List.map_append, hsnd,
    Open.addSections_append]

theorem absorb_singleton (h : StartsBy 1 later) :
    absorb [o] later = o.close ++ later.map Prod.snd := by
  have hsnd : (o.close.map (1, ·)).map Prod.snd = o.close := by
    rw [List.map_map]
    exact List.map_id _
  rw [absorb, absorb, List.length_nil, settle_of_startsBy h, List.map_append, hsnd]

namespace Reading

/-- Closing headings before what lies no deeper changes nothing in the end. -/
theorem closeTo_spec (left : Nat) (sections : List Section) (stack : List Open)
    (h : StartsBy (left + 1) later) :
    (closeTo left sections stack).1 ++ absorb (closeTo left sections stack).2 later =
        sections ++ absorb stack later ∧
      (closeTo left sections stack).2.length = min left stack.length := by
  fun_induction closeTo left sections stack with
  | case1 => exact ⟨rfl, (Nat.min_zero left).symm⟩
  | case2 o hleft =>
    subst hleft
    rw [absorb_singleton h, List.append_assoc]
    exact ⟨rfl, rfl⟩
  | case3 o hleft =>
    refine ⟨rfl, ?_⟩
    rw [List.length_singleton]
    omega
  | case4 o parent rest hleft ih =>
    rw [absorb_close (h.mono (by omega))]
    refine ⟨ih.1, ih.2.trans ?_⟩
    simp only [List.length_cons]
    omega
  | case5 o parent rest hleft =>
    refine ⟨rfl, ?_⟩
    simp only [List.length_cons]
    omega

/-- Adds assertions to the innermost open heading, or to the loose ones. -/
def addAll (r : Reading) (own : List Assertion) : Reading :=
  match r.stack with
  | [] => { r with loose := r.loose ++ own }
  | o :: rest => { r with stack := { o with assertions := o.assertions ++ own } :: rest }

theorem addAll_nil (r : Reading) : r.addAll [] = r := by
  rcases r with ⟨loose, sections, _ | ⟨o, rest⟩, names⟩ <;> simp [addAll]

theorem addAll_cons (r : Reading) (a : Assertion) (own : List Assertion) :
    r.addAll (a :: own) = (r.step (.assertion a)).addAll own := by
  rcases r with ⟨loose, sections, _ | ⟨o, rest⟩, names⟩ <;>
    simp [addAll, step, Open.addAssertion]

def finishWith (r : Reading) (blocks : List Block) : Outline :=
  ⟨r.loose, r.sections ++ absorb r.stack (nestAt (place r.stack.length r.names blocks))⟩

/-- Reading on with a stack is placing the blocks that come on their levels. -/
theorem finish_foldl_step (r : Reading) (events : List Event) :
    (events.foldl step r).finish = (r.addAll (blocks events).1).finishWith (blocks events).2 := by
  induction events generalizing r with
  | nil =>
    have hnil : StartsBy (0 + 1) [] := by simp [StartsBy]
    obtain ⟨hc, hlen⟩ := closeTo_spec 0 r.sections r.stack hnil
    rw [Nat.zero_min, List.length_eq_zero_iff] at hlen
    rw [hlen, absorb, List.map_nil, List.append_nil] at hc
    rw [blocks, addAll_nil, List.foldl_nil, finish, finishWith, hc]
    rfl
  | cons event rest ih =>
    cases event with
    | assertion a =>
      rw [List.foldl_cons, ih, ← addAll_cons]
      rfl
    | heading h =>
      let c := closeTo (h.tagDepth - 1) r.sections r.stack
      let own := (blocks rest).1
      let level := min (h.tagDepth - 1) r.stack.length + 1
      let later := nestAt (place level (h.name :: r.names) (blocks rest).2)
      let p : Placed := ⟨level, r.names.contains h.name, ⟨h, own⟩⟩
      have hlow : StartsBy (h.tagDepth - 1 + 1) (insert p later) :=
        (startsBy_settle _ _ _).mono (by simp only [p, level]; omega)
      obtain ⟨hc, hlen⟩ := closeTo_spec (h.tagDepth - 1) r.sections r.stack hlow
      rw [List.foldl_cons, ih]
      have hl : ((r.step (.heading h)).addAll own).finishWith (blocks rest).2 =
          ⟨r.loose, c.1 ++ absorb c.2 (insert p later)⟩ := by
        change Outline.mk r.loose (c.1 ++ absorb c.2 (settle (c.2.length + 1) p.opened
          (nestAt (place (c.2.length + 1) (h.name :: r.names) (blocks rest).2)))) = _
        rw [hlen]
        rfl
      rw [hl, hc, blocks, addAll_nil]
      rfl

end Reading

/-- The outline that is read with a stack is the one by levels. -/
theorem ofEvents_eq (events : List Event) :
    ofEvents events = ⟨(blocks events).1, nest (place 0 [] (blocks events).2)⟩ := by
  rw [ofEvents, Reading.finish_foldl_step]
  rfl

theorem insert_of_repeated {p : Placed} (hp : p.repeated = true) (later : List (Nat × Section)) :
    insert p later = later.dropWhile fun s => p.level < s.1 := by
  simp only [insert, settle, Placed.opened, Open.addSections, Open.close, hp, if_true,
    List.map_nil, List.nil_append]

theorem insert_of_new {p : Placed} (hp : p.repeated = false) (later : List (Nat × Section)) :
    insert p later =
      (p.level, .mk p.block.heading p.block.assertions
        ((later.takeWhile fun s => p.level < s.1).map Prod.snd)) ::
        later.dropWhile fun s => p.level < s.1 := by
  simp only [insert, settle, Placed.opened, Open.addSections, Open.close, hp,
    Bool.false_eq_true, if_false, List.map_cons, List.map_nil, List.nil_append, List.cons_append]

theorem blocks_nestAt_sublist (placed : List Placed) :
    ((nestAt placed).flatMap fun s => s.2.blocks).Sublist
      ((placed.filter fun p => !p.repeated).map Placed.block) := by
  induction placed with
  | nil => exact List.Sublist.refl _
  | cons p rest ih =>
    have hsplit := List.takeWhile_append_dropWhile (p := fun s : Nat × Section => p.level < s.1)
      (l := nestAt rest)
    rw [← hsplit, List.flatMap_append] at ih
    change ((insert p (nestAt rest)).flatMap _).Sublist _
    cases hr : p.repeated with
    | true =>
      rw [insert_of_repeated hr, List.filter_cons_of_neg (by simp [hr])]
      exact (List.sublist_append_right _ _).trans ih
    | false =>
      rw [insert_of_new hr, List.filter_cons_of_pos (by simp [hr]), List.flatMap_cons,
        Section.blocks_eq, Section.nested, List.flatMap_map, List.map_cons, List.cons_append]
      exact ih.cons_cons _

/-- Sections on their levels: none on the level of the file or deeper than `bound`, and none
deeper than the one before it. -/
structure Descending (bound : Nat) (later : List (Nat × Section)) : Prop where
  pos : ∀ s ∈ later, 1 ≤ s.1
  le : ∀ s ∈ later, s.1 ≤ bound
  pairwise : later.Pairwise fun s t => t.1 ≤ s.1

namespace Descending

variable {bound : Nat}

theorem dropWhile (h : Descending bound later) (level : Nat) :
    Descending level (later.dropWhile fun s => level < s.1) where
  pos s hs := h.pos s ((List.dropWhile_sublist _).subset hs)
  le := by
    have hp := h.pairwise.sublist (List.dropWhile_sublist fun s => level < s.1)
    have hstart := startsBy_dropWhile level later
    cases hl : later.dropWhile fun s => level < s.1 with
    | nil => simp
    | cons first others =>
      rw [hl] at hp hstart
      have hfirst := hstart first rfl
      intro s hs
      rcases List.mem_cons.1 hs with rfl | hs
      · exact hfirst
      · exact Nat.le_trans (List.rel_of_pairwise_cons hp hs) hfirst
  pairwise := h.pairwise.sublist (List.dropWhile_sublist _)

theorem insert {p : Placed} (h : Descending (p.level + 1) later) (hp : 1 ≤ p.level) :
    Descending p.level (insert p later) := by
  have hd := h.dropWhile p.level
  cases hr : p.repeated with
  | true =>
    rw [insert_of_repeated hr]
    exact hd
  | false =>
    rw [insert_of_new hr]
    refine ⟨?_, ?_, ?_⟩
    · exact List.forall_mem_cons.2 ⟨hp, hd.pos⟩
    · exact List.forall_mem_cons.2 ⟨Nat.le_refl _, hd.le⟩
    · exact List.pairwise_cons.2 ⟨hd.le, hd.pairwise⟩

end Descending

theorem map_block_place (above : Nat) (names : List String) (blocks : List Block) :
    (place above names blocks).map Placed.block = blocks := by
  induction blocks generalizing above names with
  | nil => rfl
  | cons block rest ih => rw [place, List.map_cons, ih]

theorem descending_nestAt_place (above : Nat) (names : List String) (blocks : List Block) :
    Descending (above + 1) (nestAt (place above names blocks)) := by
  induction blocks generalizing above names with
  | nil => exact ⟨by simp [place, nestAt], by simp [place, nestAt], List.Pairwise.nil⟩
  | cons block rest ih =>
    have h := (ih (min (block.heading.tagDepth - 1) above + 1) (block.heading.name :: names)).insert
      (p := ⟨_, names.contains block.heading.name, block⟩) (Nat.le_add_left 1 _)
    exact ⟨h.pos, fun s hs => Nat.le_trans (h.le s hs) (by simp only; omega), h.pairwise⟩

end Outline

end SuiteAtlas
