import SuiteAtlas.Proofs.Outline.Planting
import SuiteAtlas.Proofs.Source.Order
import SuiteAtlas.Proofs.Source.Tags

namespace SuiteAtlas

open Address Source

variable {text : List Char} {b : Block}

def Block.events (b : Block) : List Event :=
  .heading b.heading :: b.assertions.map .assertion

namespace Outline

theorem events_eq_blocks (events : List Event) :
    events = (blocks events).1.map .assertion ++ (blocks events).2.flatMap Block.events := by
  induction events with
  | nil => rfl
  | cons event rest ih =>
    cases event with
    | assertion a =>
      rw [blocks, List.map_cons, List.cons_append, ← ih]
    | heading h =>
      rw [blocks, List.map_nil, List.nil_append, List.flatMap_cons, Block.events, List.cons_append,
        ← ih]

theorem map_heading_blocks (events : List Event) :
    (blocks events).2.map Block.heading = headings events := by
  induction events with
  | nil => rfl
  | cons event rest ih =>
    cases event with
    | assertion a => exact ih
    | heading h => exact congrArg (h :: ·) ih

theorem map_name_blocks (events : List Event) :
    ((blocks events).2.map fun b => b.heading.name) = (headings events).map Heading.name := by
  rw [← map_heading_blocks, List.map_map]
  rfl

theorem events_sublist (hb : b ∈ (blocks (scan text)).2) : b.events.Sublist (scan text) := by
  rw [events_eq_blocks (scan text), List.flatMap_def]
  exact (List.sublist_flatten_of_mem (List.mem_map_of_mem hb)).trans
    (List.sublist_append_right _ _)

theorem isStep_of_readFrom {lines : List (List Char)} {h : Heading} (hh : h.ReadFrom lines) :
    IsStep h.name := by
  obtain ⟨_, _, line, _, hevent⟩ := hh
  obtain ⟨name, hname, rfl⟩ := Option.map_eq_some_iff.1 hevent
  obtain ⟨word, rfl, _, hword⟩ := heading?_spec hname
  constructor
  · rw [String.toList_ofList, List.mem_append, not_or]
    exact ⟨by decide, fun hm => absurd (hword '/' hm) (by decide)⟩
  · rw [String.toList_ofList]
    exact ⟨'t', List.mem_append_left _ (by decide), by decide⟩

theorem isProper_of_mem_blocks (hb : b ∈ (blocks (scan text)).2) : b.IsProper := by
  have hsub := events_sublist hb
  have hread : b.heading.ReadFrom (Text.lines text) :=
    readFrom_of_mem_scan (hsub.subset List.mem_cons_self)
  constructor
  · exact isStep_of_readFrom hread
  · obtain ⟨_, _, _, _, hevent⟩ := hread
    obtain ⟨_, _, he⟩ := Option.map_eq_some_iff.1 hevent
    rw [← he]
    exact tagsOf_ne_nil _
  · obtain ⟨_, _, _, _, hevent⟩ := hread
    obtain ⟨_, _, he⟩ := Option.map_eq_some_iff.1 hevent
    rw [← he]
    exact nodup_tagsOf _
  · obtain ⟨stop, hlaid⟩ := scan_laid text
    have hpairs := (hlaid.pairwise.sublist (hsub.map Event.range)).tail
    rw [Block.events, List.map_cons, List.tail_cons, List.map_map, List.pairwise_map] at hpairs
    rw [List.nodup_iff_pairwise_ne, List.pairwise_map]
    apply hpairs.imp
    intro a a' h
    exact Position.ne_of_lt (Position.lt_of_lt_of_le h.1 h.2)

theorem nodup_names_place (above : Nat) (names : List String) (blocks : List Block) :
    let fresh := (place above names blocks).filter fun p => !p.repeated
    (fresh.map fun p => p.block.heading.name).Nodup ∧
      ∀ p ∈ fresh, p.block.heading.name ∉ names := by
  induction blocks generalizing above names with
  | nil => simp [place]
  | cons block rest ih =>
    obtain ⟨hnodup, hnot⟩ := ih (min (block.heading.tagDepth - 1) above + 1)
      (block.heading.name :: names)
    rw [place]
    by_cases hold : block.heading.name ∈ names
    · rw [List.filter_cons_of_neg (by simpa using hold)]
      exact ⟨hnodup, fun p hp hn => hnot p hp (List.mem_cons_of_mem _ hn)⟩
    · rw [List.filter_cons_of_pos (by simpa using hold)]
      refine ⟨List.nodup_cons.2 ⟨fun hm => ?_, hnodup⟩, fun p hp => ?_⟩
      · obtain ⟨p, hp, he⟩ := List.mem_map.1 hm
        exact hnot p hp (he ▸ List.mem_cons_self)
      · rcases List.mem_cons.1 hp with rfl | hp
        · exact hold
        · exact fun hn => hnot p hp (List.mem_cons_of_mem _ hn)

/-- The sections of a text can be planted without losing a node. -/
theorem areProper_ofEvents (text : List Char) :
    Block.AreProper ((ofEvents (scan text)).sections.flatMap Section.blocks) := by
  rw [ofEvents_eq]
  have hsub := blocks_nestAt_sublist (place 0 [] (blocks (scan text)).2)
  rw [nest, List.flatMap_map]
  refine Block.AreProper.sublist ⟨?_, ?_⟩ hsub
  · intro b hb
    obtain ⟨p, hp, rfl⟩ := List.mem_map.1 hb
    apply isProper_of_mem_blocks (show p.block ∈ (blocks (scan text)).2 from _)
    rw [← map_block_place 0 [] (blocks (scan text)).2]
    exact List.mem_map_of_mem (List.mem_of_mem_filter hp)
  · rw [List.map_map]
    exact (nodup_names_place 0 [] _).1

end Outline

end SuiteAtlas
