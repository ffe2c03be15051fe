import SuiteAtlas.Proofs.Hierarchy.Placed
import SuiteAtlas.Proofs.Outline.Blocks
import SuiteAtlas.Proofs.Outline.Repeats
import SuiteAtlas.Proofs.Outline.Shape

namespace SuiteAtlas

open Source

/-- A test is called by its name, an assertion by its message, or else by its operator and its
actual value. -/
def Source.Assertion.label (a : Assertion) : String :=
  if a.should = "" then a.operator ++ "(" ++ a.actual ++ ")" else a.should

/-- What is seen of a node: its level, whether it is a heading or an assertion, and where it
stands, what it is called and how it is tagged. -/
structure Shown where
  level : Nat
  isHeading : Bool
  isAssertion : Bool
  range : Option Range
  label : String
  tags : List String
  deriving DecidableEq, Repr

namespace Shown

def ofHeading (level : Nat) (h : Heading) : Shown :=
  ⟨level, true, false, some h.range, h.name, h.tags⟩

def ofAssertion (level : Nat) (tags : List String) (a : Assertion) : Shown :=
  ⟨level, false, true, some a.range, a.label, tags⟩

def ofNode (z : Nat × Tree.Entry) : Shown :=
  ⟨z.1, z.2.content.isHeading, z.2.content.isAssertion, z.2.content.range, z.2.content.label,
    z.2.content.tags⟩

/-- What is to be seen of events below a heading of the level `above` with certain tags: a heading
lies as deep as its tags say, but one level below the heading before it at most; an assertion lies
below the heading before it and shares its tags. -/
def ofEvents (above : Nat) (tags : List String) : List Event → List Shown
  | [] => []
  | .heading h :: rest =>
    let level := min h.tagDepth (above + 1)
    ofHeading level h :: ofEvents level h.tags rest
  | .assertion a :: rest => ofAssertion (above + 1) tags a :: ofEvents above tags rest

def ofBlock (b : Nat × Block) : List Shown :=
  ofHeading b.1 b.2.heading ::
    b.2.assertions.map (ofAssertion (b.1 + 1) b.2.heading.tags)

variable {site : Site} {parentId : String} {next : Key} {level above : Nat} {tags : List String}

theorem ofEvents_assertions (own : List Assertion) (rest : List Event) :
    ofEvents above tags (own.map .assertion ++ rest) =
      own.map (ofAssertion (above + 1) tags) ++ ofEvents above tags rest := by
  induction own with
  | nil => rfl
  | cons a own ih => rw [List.map_cons, List.cons_append, ofEvents, ih]; rfl

/-- Blocks on their levels show what their events show. -/
theorem flatMap_ofBlock_place (names : List String) (blocks : List Block)
    (hdepth : ∀ b ∈ blocks, 1 ≤ b.heading.tagDepth) :
    ((Outline.place above names blocks).flatMap fun p => ofBlock (p.level, p.block)) =
      ofEvents above tags (blocks.flatMap Block.events) := by
  induction blocks generalizing above names tags with
  | nil => rfl
  | cons b rest ih =>
    have hlevel : min (b.heading.tagDepth - 1) above + 1 = min b.heading.tagDepth (above + 1) := by
      have hb := hdepth b List.mem_cons_self
      omega
    rw [Outline.place, List.flatMap_cons, List.flatMap_cons, Block.events, List.cons_append,
      ofEvents, ofEvents_assertions, ih _ fun b hb => hdepth b (List.mem_cons_of_mem _ hb), hlevel]
    rfl

theorem map_ofNode_withParent (k : Key) (t : Tree) (level : Nat) :
    ((t.withParent k).placed level).map ofNode = (t.placed level).map ofNode := by
  rw [Tree.placed_eq, Tree.placed_eq, Tree.withParent_children]
  cases t
  rfl

theorem map_ofNode_adopt (key : Key) (content : Node) (cs : List Tree) (level : Nat) :
    ((Tree.adopt key content cs).placed level).map ofNode =
      ofNode (level, ⟨key, content⟩) :: cs.flatMap fun c => (c.placed (level + 1)).map ofNode := by
  rw [Tree.placed_eq, List.map_cons, List.map_flatMap]
  change _ :: (cs.map (Tree.withParent key)).flatMap _ = _
  rw [List.flatMap_map]
  congr 1
  exact List.flatMap_congr fun c _ => map_ofNode_withParent key c (level + 1)

theorem map_ofNode_leaves (parent : String) (own : List Assertion) :
    ((Tree.leaves next (own.map (site.assertionNode parent tags))).flatMap fun c =>
        (c.placed level).map ofNode) =
      own.map (ofAssertion level tags) := by
  induction own generalizing next with
  | nil => rfl
  | cons a own ih =>
    rw [List.map_cons, Tree.leaves, List.flatMap_cons, ih, List.map_cons, Tree.placed_eq]
    have hlabel : (site.assertionData a).label = a.label := by
      rw [AssertionInfo.label, Assertion.label]
      by_cases h : a.should = ""
      · rw [if_pos h, if_neg (not_not_intro (show (site.assertionData a).should = "" from h))]
        rfl
      · rw [if_neg h, if_pos (show (site.assertionData a).should ≠ "" from h)]
        rfl
    rw [ofAssertion, ← hlabel]
    rfl

theorem map_ofNode_forest_of {sections : List Section}
    (hs : ∀ s ∈ sections, ∀ (parentId : String) (next : Key) (level : Nat),
      ((site.tree parentId next s).placed level).map ofNode = (s.leveled level).flatMap ofBlock)
    (parentId : String) (next : Key) (level : Nat) :
    ((site.forest parentId next sections).flatMap fun c => (c.placed level).map ofNode) =
      (sections.flatMap (Section.leveled level)).flatMap ofBlock := by
  induction sections generalizing next with
  | nil => rw [Site.forest]; rfl
  | cons s rest ih =>
    rw [Site.forest, List.flatMap_cons, List.flatMap_cons, List.flatMap_append,
      hs s List.mem_cons_self, ih fun r hr => hs r (List.mem_cons_of_mem _ hr)]

theorem map_ofNode_tree (s : Section) (parentId : String) (next : Key) (level : Nat) :
    ((site.tree parentId next s).placed level).map ofNode = (s.leveled level).flatMap ofBlock := by
  induction s using Section.induct generalizing parentId next level with
  | mk heading assertions nested ih =>
    rw [Site.tree, map_ofNode_adopt, List.flatMap_append, map_ofNode_leaves,
      map_ofNode_forest_of ih, Section.leveled_eq, List.flatMap_cons]
    rfl

theorem map_ofNode_forest (site : Site) (parentId : String) (next : Key) (level : Nat)
    (sections : List Section) :
    ((site.forest parentId next sections).flatMap fun c => (c.placed level).map ofNode) =
      (sections.flatMap (Section.leveled level)).flatMap ofBlock :=
  map_ofNode_forest_of (fun s _ => map_ofNode_tree s) parentId next level

theorem length_ofBlock (b : Nat × Block) : (ofBlock b).length = b.2.events.length := by
  rw [ofBlock, Block.events, List.length_cons, List.length_cons, List.length_map, List.length_map]

theorem size_forest (site : Site) (parentId : String) (next : Key) (sections : List Section) :
    Tree.sizeAll (site.forest parentId next sections) =
      ((sections.flatMap Section.blocks).flatMap Block.events).length := by
  have hnodes := congrArg List.length (map_ofNode_forest site parentId next 0 sections)
  have hkeys (c : Tree) : ((c.placed 0).map ofNode).length = c.keys.length := by
    rw [List.length_map, Tree.keys, List.length_map, ← Tree.map_snd_placed 0, List.length_map]
  have hblocks : sections.flatMap Section.blocks =
      (sections.flatMap (Section.leveled 0)).map Prod.snd := by
    rw [List.map_flatMap]
    rfl
  simp only [List.length_flatMap, hkeys, length_ofBlock] at hnodes
  rw [Tree.sizeAll_eq_length_keys, hblocks, List.flatMap_map, List.length_flatMap,
    List.length_flatMap, hnodes]

end Shown

namespace Outline

variable {text : List Char}

theorem dropWhile_eq_blocks (events : List Event) :
    (events.dropWhile fun e => e.heading?.isNone) = (blocks events).2.flatMap Block.events := by
  induction events with
  | nil => rfl
  | cons event rest ih =>
    cases event with
    | assertion a => exact ih
    | heading h =>
      rw [blocks, List.flatMap_cons, Block.events, List.cons_append,
        List.dropWhile_cons_of_neg (by simp [Event.heading?])]
      congr 1
      exact events_eq_blocks rest

theorem one_le_tagDepth {lines : List (List Char)} {h : Heading} (hh : h.ReadFrom lines) :
    1 ≤ h.tagDepth := by
  obtain ⟨_, _, _, _, hevent⟩ := hh
  obtain ⟨_, _, rfl⟩ := Option.map_eq_some_iff.1 hevent
  exact Nat.le_add_right 1 _

theorem not_repeated_of_nodup (above : Nat) (names : List String) {blocks : List Block}
    (hn : (blocks.map fun b => b.heading.name).Nodup)
    (hnot : ∀ b ∈ blocks, b.heading.name ∉ names) :
    ∀ p ∈ place above names blocks, p.repeated = false := by
  induction blocks generalizing above names with
  | nil => simp [place]
  | cons b rest ih =>
    rw [List.map_cons, List.nodup_cons] at hn
    intro p hp
    rcases List.mem_cons.1 hp with rfl | hp
    · simpa using hnot b List.mem_cons_self
    · apply ih _ (b.heading.name :: names) hn.2 _ p hp
      intro r hr hm
      rcases List.mem_cons.1 hm with he | hm
      · exact hn.1 (he ▸ List.mem_map_of_mem (f := fun b => b.heading.name) hr)
      · exact hnot r (List.mem_cons_of_mem _ hr) hm

theorem map_ofNode_kept (site : Site) (parentId : String) (next : Key) (text : List Char) :
    ((site.forest parentId next (ofEvents (scan text)).sections).flatMap fun c =>
        (c.placed 1).map Shown.ofNode) =
      (kept none (place 0 [] (blocks (scan text)).2)).flatMap fun p =>
        Shown.ofBlock (p.level, p.block) := by
  have hd := descending_nestAt_place 0 [] (blocks (scan text)).2
  have htop : ∀ s ∈ nestAt (place 0 [] (blocks (scan text)).2), s.1 = 1 :=
    fun s hs => Nat.le_antisymm (hd.le s hs) (hd.pos s hs)
  have hsections : (ofEvents (scan text)).sections.flatMap (Section.leveled 1) =
      (kept none (place 0 [] (blocks (scan text)).2)).map fun p => (p.level, p.block) := by
    rw [ofEvents_eq, nest, List.flatMap_map, ← leveled_nestAt]
    exact List.flatMap_congr fun s hs => by rw [htop s hs]
  rw [Shown.map_ofNode_forest, hsections, List.flatMap_map]

/-- The nodes that are planted for a text without repeated names show its events, from the first
heading on. -/
theorem map_ofNode_planted (site : Site) (parentId : String) (next : Key)
    (hn : ((headings (scan text)).map Heading.name).Nodup) :
    ((site.forest parentId next (ofEvents (scan text)).sections).flatMap fun c =>
        (c.placed 1).map Shown.ofNode) =
      Shown.ofEvents 0 [] ((scan text).dropWhile fun e => e.heading?.isNone) := by
  have hrepeat : ∀ p ∈ place 0 [] (blocks (scan text)).2, p.repeated = false := by
    apply not_repeated_of_nodup
    · rw [map_name_blocks]
      exact hn
    · simp
  have hdepth : ∀ b ∈ (blocks (scan text)).2, 1 ≤ b.heading.tagDepth := by
    intro b hb
    have hread := readFrom_of_mem_scan ((events_sublist hb).subset List.mem_cons_self)
    exact one_le_tagDepth hread
  rw [map_ofNode_kept, kept_eq_self hrepeat, dropWhile_eq_blocks,
    ← Shown.flatMap_ofBlock_place [] _ hdepth]

end Outline

end SuiteAtlas
