import Mathlib.Data.List.Flatten
import SuiteAtlas.Proofs.Session.Planting

namespace SuiteAtlas

open Source
open SuiteAtlas.Tree (adopt graft)

namespace Hierarchy

/-- The trees of a hierarchy are test files with ids of their own. -/
structure HoldsFiles (h : Hierarchy) (ts : List Tree) : Prop where
  holds : h.Holds ts
  isTestFile : ∀ t ∈ ts, t.IsTestFile
  parent : ∀ t ∈ ts, t.content.parent = none
  nodup_ids : (ts.map fun t => t.content.id).Nodup

namespace HoldsFiles

variable {h h' : Hierarchy} {ts : List Tree} {t new : Tree} {key k : Key} {root : Node}
  {id label : String} {file : Option Path}

theorem empty : HoldsFiles {} [] where
  holds := ⟨rfl, by simp, by simp, by simp⟩
  isTestFile := by simp
  parent := by simp
  nodup_ids := List.nodup_nil

theorem id?_eq (hts : h.HoldsFiles ts) (ht : t ∈ ts) : h.id? t.key = some t.content.id :=
  congrArg (Option.map Node.id) ((hts.holds.stands t ht).node? t.mem_subtrees_self)

theorem congr (hts : h.HoldsFiles ts) (hroots : h'.roots = h.roots)
    (hk : ∀ k ∈ ts.flatMap Tree.keys, h'.node? k = h.node? k) : h'.HoldsFiles ts :=
  ⟨hts.holds.congr hroots hk, hts.isTestFile, hts.parent, hts.nodup_ids⟩

theorem of_adds {cs : List Tree} (hts : h.HoldsFiles ts) (hadds : Adds h h' cs) :
    h'.HoldsFiles ts :=
  hts.congr hadds.roots fun _ hk => hadds.old _ (hts.holds.key_lt hk)

theorem ne_id_of_root?_eq_none (hts : h.HoldsFiles ts) (hid : h.root? id = none) :
    ∀ t ∈ ts, t.content.id ≠ id := by
  intro t ht he
  have hnone := List.find?_eq_none.1 hid t.key (hts.holds.roots ▸ List.mem_map_of_mem ht)
  rw [hts.id?_eq ht, he] at hnone
  exact hnone (beq_self_eq_true (some id))

theorem append (hts : h.HoldsFiles ts) (hroots : h'.roots = h.roots ++ [new.key])
    (hk : ∀ k < h.nodes.size, h'.node? k = h.node? k) (hstands : new.StandsIn h')
    (hlinked : new.IsLinked) (hkeys : new.keys.Nodup)
    (hnew : ∀ k ∈ new.keys, h.nodes.size ≤ k) (htest : new.IsTestFile)
    (hparent : new.content.parent = none) (hid : ∀ t ∈ ts, t.content.id ≠ new.content.id) :
    h'.HoldsFiles (ts ++ [new]) := by
  refine ⟨⟨?_, ?_, ?_, ?_⟩, ?_, ?_, ?_⟩
  · rw [hroots, hts.holds.roots, List.map_append]
    rfl
  · rw [List.forall_mem_append, List.forall_mem_singleton]
    exact ⟨fun t ht => (hts.holds.stands t ht).congr fun k hkt =>
      hk k ((hts.holds.stands t ht).key_lt hkt), hstands⟩
  · rw [List.forall_mem_append, List.forall_mem_singleton]
    exact ⟨hts.holds.linked, hlinked⟩
  · rw [List.flatMap_append, List.flatMap_singleton, List.nodup_append]
    refine ⟨hts.holds.nodup, hkeys, ?_⟩
    rintro k hk k' hk' rfl
    exact Nat.not_lt.2 (hnew k hk') (hts.holds.key_lt hk)
  · rw [List.forall_mem_append, List.forall_mem_singleton]
    exact ⟨hts.isTestFile, htest⟩
  · rw [List.forall_mem_append, List.forall_mem_singleton]
    exact ⟨hts.parent, hparent⟩
  · rw [List.map_append, List.nodup_append]
    refine ⟨hts.nodup_ids, List.nodup_singleton _, ?_⟩
    rintro i hi i' hi' rfl
    obtain ⟨t, ht, rfl⟩ := List.mem_map.1 hi
    exact hid t ht (List.mem_singleton.1 hi')

theorem putRoot (hts : h.HoldsFiles ts) (hid : h.root? id = none) :
    let node : Node := { id, label, file, data := some .file }
    ((h.create node).2.putRoot h.nodes.size).HoldsFiles (ts ++ [.node h.nodes.size node []]) := by
  intro node
  have hself : (h.create node).2.node? h.nodes.size = some node := node?_create_self h node
  have hids := hts.ne_id_of_root?_eq_none hid
  have hroots : ((h.create node).2.putRoot h.nodes.size).roots = h.roots ++ [h.nodes.size] := by
    apply roots_putRoot
    intro k hk he
    rw [create_roots, hts.holds.roots] at hk
    obtain ⟨t, ht, rfl⟩ := List.mem_map.1 hk
    have hlt := (hts.holds.stands t ht).key_lt (Tree.key_mem_keys t.mem_subtrees_self)
    have hidt := hts.id?_eq ht
    rw [id?] at hidt
    rw [id?, id?, hself, node?_create_lt hlt, hidt] at he
    exact hids t ht (Option.some.inj he)
  -- the new node names no parent, so taking its parent away changes nothing
  have hnode : ∀ k, ((h.create node).2.putRoot h.nodes.size).node? k =
      (h.create node).2.node? k := by
    intro k
    rw [node?_putRoot]
    split
    next hk =>
      rw [hk, hself]
      rfl
    next => rfl
  have hadds := Adds.create h (show node.children = [] from rfl)
  have hfile : node.isFile = true := rfl
  apply hts.append hroots
  · exact fun k hk => (hnode k).trans (node?_create_lt hk)
  · exact (hadds.stands _ (List.mem_singleton_self _)).congr fun k _ => hnode k
  · exact hadds.linked _ (List.mem_singleton_self _)
  · exact List.nodup_singleton _
  · intro k hk
    exact Nat.le_of_eq (List.mem_singleton.1 hk).symm
  · exact Tree.IsTestFile.adopt hfile (List.forall_mem_nil _) (List.forall_mem_nil _)
      List.nodup_nil
  · rfl
  · exact hids

theorem dropRoot (hts : h.HoldsFiles ts) (id : String) :
    (h.dropRoot id).HoldsFiles (ts.filter fun t => t.content.id != id) := by
  have hsub : (ts.filter fun t => t.content.id != id).Sublist ts := List.filter_sublist
  refine ⟨⟨?_, ?_, ?_, ?_⟩, ?_, ?_, ?_⟩
  · change h.roots.filter (fun key => h.id? key != some id) = _
    rw [hts.holds.roots, List.filter_map]
    congr 1
    apply List.filter_congr
    intro t ht
    rw [Function.comp_apply, hts.id?_eq ht]
    rfl
  · exact fun t ht => hts.holds.stands t (hsub.subset ht)
  · exact fun t ht => hts.holds.linked t (hsub.subset ht)
  · exact hts.holds.nodup.sublist (hsub.flatMap Tree.keys)
  · exact fun t ht => hts.isTestFile t (hsub.subset ht)
  · exact fun t ht => hts.parent t (hsub.subset ht)
  · exact hts.nodup_ids.sublist (hsub.map _)

/-- A change inside one of the files leaves the others as they are. -/
theorem graft (hts : h.HoldsFiles ts) (hholds : h'.Holds (ts.map (graft k new))) (ht : t ∈ ts)
    (hk : k ∈ t.keys) (htest : (graft k new t).IsTestFile)
    (hid : (Tree.graft k new t).content.id = t.content.id)
    (hparent : (Tree.graft k new t).content.parent = t.content.parent) :
    h'.HoldsFiles (ts.map (Tree.graft k new)) := by
  have hother : ∀ r ∈ ts, r = t ∨ Tree.graft k new r = r :=
    fun r hr => Tree.graft_eq_of_mem hts.holds.nodup ht hk hr
  refine ⟨hholds, ?_, ?_, ?_⟩
  · intro r' hr'
    obtain ⟨r, hr, rfl⟩ := List.mem_map.1 hr'
    rcases hother r hr with rfl | he
    · exact htest
    · exact he.symm ▸ hts.isTestFile r hr
  · intro r' hr'
    obtain ⟨r, hr, rfl⟩ := List.mem_map.1 hr'
    rcases hother r hr with rfl | he
    · exact hparent.trans (hts.parent r hr)
    · exact he.symm ▸ hts.parent r hr
  · rw [List.map_map, List.map_congr_left (g := fun t => t.content.id)]
    · exact hts.nodup_ids
    · intro r hr
      rcases hother r hr with rfl | he
      · exact hid
      · exact congrArg (fun t : Tree => t.content.id) he

theorem eq_of_isFile {s : Tree} (ht : t.IsTestFile) (hs : s ∈ t.subtrees)
    (hfile : s.content.isFile = true) : s = t := by
  rcases ht.cases hs with he | hs' | ⟨_, _, _, _, hs'⟩
  · exact he
  · rw [Tree.not_isHeading_of_isFile hfile] at hs'
    exact absurd hs' Bool.false_ne_true
  · exact absurd hfile (Tree.not_isFile_of_isAssertion hs')

theorem mayAdopt_of_adds {cs : List Tree} {old : Tree} (hts : h.HoldsFiles ts)
    (hadds : Adds h h' cs) (hids : (cs.map fun c => c.content.id).Nodup) :
    h'.MayAdopt ts old cs where
  stands := hadds.stands
  linked := hadds.linked
  nodup_keys := hadds.keys ▸ List.nodup_range'
  nodup_ids := hids
  isNew c hc := .inr fun _ hk hm => Nat.not_lt.2 (hadds.size_le hc hk) (hts.holds.key_lt hm)

/-- A node that has left the hierarchy gets children that are not in it either. -/
theorem setChildren_of_notMem {cs : List Tree} (hts : h.HoldsFiles ts) (hadds : Adds h h' cs)
    (hids : (cs.map fun c => c.content.id).Nodup) (hlt : key < h.nodes.size)
    (hkey : key ∉ ts.flatMap Tree.keys) :
    (h'.setChildren key (cs.map Tree.key)).HoldsFiles ts := by
  apply (hts.of_adds hadds).congr (setChildren_roots _ _ _)
  intro k hk
  apply node?_setChildren_of_ne hadds.stands hids (hadds.key_notMem hlt)
  · rintro rfl
    exact hkey hk
  · rintro c hc rfl
    exact absurd (List.mem_map_of_mem hc) (hadds.key_notMem (hts.holds.key_lt hk))

theorem plantOutline_of_mem {outline : Outline} (hts : h.HoldsFiles ts) (stamp : Int) (ht : t ∈ ts)
    (hb : Block.AreProper (outline.sections.flatMap Section.blocks)) :
    (h.plantOutline t.key stamp outline).HoldsFiles (ts.map (Tree.graft t.key
      (adopt t.key t.content (h.plantedTrees t.content stamp outline)))) := by
  have hfile := (hts.isTestFile t ht).isFile
  have hkey := (hts.holds.stands t ht).node? t.mem_subtrees_self
  obtain ⟨h', hadds, he⟩ := plantOutline_adds stamp hkey hfile hb
  have hids := nodup_ids_plantedTrees h t.content stamp hb
  have hold := hts.of_adds hadds
  have hholds := (hts.mayAdopt_of_adds hadds hids).holds hold.holds ht t.mem_subtrees_self
  rw [he]
  refine hold.graft hholds ht (Tree.key_mem_keys t.mem_subtrees_self) ?_ ?_ ?_
  · rw [Tree.graft_of_eq rfl]
    exact plantOutline_isTestFile h t.key stamp hfile hb
  · rw [Tree.graft_of_eq rfl]
    rfl
  · rw [Tree.graft_of_eq rfl]
    rfl

/-- Planting below a file, inside the hierarchy or not, leaves test files: those that were there,
and the planted one. -/
theorem plantOutline {outline : Outline} (hts : h.HoldsFiles ts) (stamp : Int)
    (hkey : h.node? key = some root) (hfile : root.isFile = true)
    (hb : Block.AreProper (outline.sections.flatMap Section.blocks)) :
    ∃ ts', (h.plantOutline key stamp outline).HoldsFiles ts' ∧
      ∀ t ∈ ts', t ∈ ts ∨ t = adopt key root (h.plantedTrees root stamp outline) := by
  by_cases hmem : key ∈ ts.flatMap Tree.keys
  · obtain ⟨t, ht, hk⟩ := List.mem_flatMap.1 hmem
    rw [Tree.keys_eq_map_subtrees] at hk
    obtain ⟨s, hs, rfl⟩ := List.mem_map.1 hk
    rw [(hts.holds.stands t ht).node? hs, Option.some.injEq] at hkey
    obtain rfl := eq_of_isFile (hts.isTestFile t ht) hs (hkey ▸ hfile)
    subst hkey
    refine ⟨_, hts.plantOutline_of_mem stamp ht hb, fun r' hr' => ?_⟩
    obtain ⟨r, hr, rfl⟩ := List.mem_map.1 hr'
    rcases Tree.graft_eq_of_mem hts.holds.nodup ht (Tree.key_mem_keys hs) hr with rfl | he
    · exact .inr (Tree.graft_of_eq rfl)
    · exact .inl (he.symm ▸ hr)
  · obtain ⟨h', hadds, he⟩ := plantOutline_adds stamp hkey hfile hb
    have hids := nodup_ids_plantedTrees h root stamp hb
    rw [he]
    exact ⟨ts, hts.setChildren_of_notMem hadds hids (node?_lt hkey) hmem, fun _ ht => .inl ht⟩

end HoldsFiles

end Hierarchy

end SuiteAtlas
