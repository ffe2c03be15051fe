import SuiteAtlas.Proofs.Files.Names
import SuiteAtlas.Proofs.Outline.Unstamped
import SuiteAtlas.Proofs.Session.Index

namespace SuiteAtlas

open Source
open SuiteAtlas.Tree (adopt graft)

def Path.fileNode (path : Path) : Node :=
  { id := path.toString, label := path.name, file := some path, data := some .file }

/-- The tree of a file with a text, apart from keys and stamps. -/
def Path.textTree (path : Path) (text : List Char) : Tree :=
  .node 0 path.fileNode ((Site.forest ⟨path.toString, some path, 0⟩ path.toString 0
    (Outline.ofEvents (scan text)).sections).map Tree.unstamped)

/-- The trees that a path has in a hierarchy: one if its text declares a test, or else none. -/
def Files.treesAt (files : Files) (path : Path) : List Tree :=
  match files.text? path with
  | some text => if declaresTest (scan text) then [path.textTree text] else []
  | none => []

namespace Files

variable {files : Files} {path : Path}

/-- A path that can be looked up: neither a null character nor a name that is too long is met. -/
def LooksUp (files : Files) (path : Path) : Prop :=
  path.hasNull = false ∧ ∃ found, files.find? (Path.resolve files.current path) = .ok found

theorem isFile_eq {found : Option (List String × Entry)} (h : files.find? path = .ok found) :
    files.isFile path = .ok (files.text? path).isSome := by
  rw [isFile, text?, content?, h]
  rcases found with _ | ⟨name, _ | content⟩ <;> rfl

theorem isFile_of_error {e : FileError} (h : files.find? path = .error e) :
    files.isFile path = .error e := by
  rw [isFile, h]
  rfl

theorem treesAt_ne_nil : files.treesAt path ≠ [] ↔
    ∃ text, files.text? path = some text ∧ headings (scan text) ≠ [] := by
  rw [treesAt]
  cases files.text? path with
  | none => simp
  | some text => cases hfound : headings (scan text) <;> simp [declaresTest, hfound]

end Files

namespace Tree

variable {left right : List Tree} {t : Tree}

theorem id_ne_of_nodup (hn : ((left ++ t :: right).map fun r => r.content.id).Nodup) :
    ∀ r ∈ left ++ right, r.content.id ≠ t.content.id := by
  rw [List.map_append, List.map_cons, List.nodup_append, List.nodup_cons] at hn
  obtain ⟨_, ⟨hright, _⟩, hleft⟩ := hn
  rw [List.forall_mem_append]
  constructor
  · intro r hr
    exact hleft _ (List.mem_map_of_mem hr) _ List.mem_cons_self
  · intro r hr he
    exact hright (he ▸ List.mem_map_of_mem hr)

theorem filter_id_ne (hn : ((left ++ t :: right).map fun r => r.content.id).Nodup) :
    ((left ++ t :: right).filter fun r => r.content.id != t.content.id) = left ++ right := by
  rw [List.filter_append, List.filter_cons_of_neg (by simp), ← List.filter_append,
    List.filter_eq_self]
  intro r hr
  rw [bne_iff_ne]
  exact id_ne_of_nodup hn r hr

theorem filter_id_eq (hn : ((left ++ t :: right).map fun r => r.content.id).Nodup) :
    ((left ++ t :: right).filter fun r => r.content.id == t.content.id) = [t] := by
  have hne := id_ne_of_nodup hn
  rw [List.forall_mem_append] at hne
  rw [List.filter_append, List.filter_cons_of_pos (by simp), List.filter_eq_nil_iff.2,
    List.filter_eq_nil_iff.2, List.nil_append]
  · intro r hr
    rw [beq_iff_eq]
    exact hne.2 r hr
  · intro r hr
    rw [beq_iff_eq]
    exact hne.1 r hr

end Tree

namespace Hierarchy

def rootsNamed (h : Hierarchy) (id : String) : List Tree :=
  h.rootTrees.filter fun t => t.content.id == id

def otherRoots (h : Hierarchy) (id : String) : List Tree :=
  h.rootTrees.filter fun t => t.content.id != id

theorem rootsNamed_eq_of_otherRoots {h h' : Hierarchy} {id other : String}
    (hothers : h'.otherRoots other = h.otherRoots other) (hne : id ≠ other) :
    h'.rootsNamed id = h.rootsNamed id := by
  have hcut (g : Hierarchy) :
      g.rootsNamed id = (g.otherRoots other).filter fun t => t.content.id == id := by
    rw [rootsNamed, otherRoots, List.filter_filter]
    apply List.filter_congr
    intro t _
    grind
  rw [hcut, hcut, hothers]

structure HoldsPaths (h : Hierarchy) (ts : List Tree) : Prop where
  holdsFiles : h.HoldsFiles ts
  unstamped : ∀ t ∈ ts, ∃ path : Path, path.IsFull ∧ t.content.unstamped = path.fileNode

namespace HoldsPaths

variable {h : Hierarchy} {ts left right : List Tree} {t new : Tree} {path : Path} {id : String}

theorem empty : HoldsPaths {} [] :=
  ⟨.empty, List.forall_mem_nil _⟩

theorem rootTrees_eq (hts : h.HoldsPaths ts) : h.rootTrees = ts :=
  hts.holdsFiles.holds.rootTrees_eq

theorem rootsNamed_eq (hts : h.HoldsPaths ts) (id : String) :
    h.rootsNamed id = ts.filter fun t => t.content.id == id := by
  rw [rootsNamed, hts.rootTrees_eq]

theorem otherRoots_eq (hts : h.HoldsPaths ts) (id : String) :
    h.otherRoots id = ts.filter fun t => t.content.id != id := by
  rw [otherRoots, hts.rootTrees_eq]

theorem root?_eq (hts : h.HoldsPaths ts) (id : String) :
    h.root? id = (h.rootsNamed id).head?.map Tree.key := by
  have hsame : ∀ t ∈ ts, ((fun key => h.id? key == some id) ∘ Tree.key) t =
      (t.content.id == id) := by
    intro t ht
    rw [Function.comp_apply, hts.holdsFiles.id?_eq ht]
    rfl
  rw [hts.rootsNamed_eq, root?, hts.holdsFiles.holds.roots, ← List.head?_filter, List.filter_map,
    List.head?_map, List.filter_congr hsame]

theorem dropRoot (hts : h.HoldsPaths ts) (id : String) :
    (h.dropRoot id).HoldsPaths (ts.filter fun t => t.content.id != id) :=
  ⟨hts.holdsFiles.dropRoot id, fun t ht => hts.unstamped t (List.mem_of_mem_filter ht)⟩

theorem unstamped_eq (hts : h.HoldsPaths ts) (ht : t ∈ ts) (hfull : path.IsFull)
    (hid : t.content.id = path.toString) : t.content.unstamped = path.fileNode := by
  obtain ⟨other, hother, he⟩ := hts.unstamped t ht
  have hid' : t.content.id = other.toString := congrArg Node.id he
  rw [he, hother.toString_inj hfull (hid'.symm.trans hid)]

end HoldsPaths

end Hierarchy

namespace Session

open Hierarchy (HoldsPaths)

variable {s s' : Session} {files : Files} {ts left right : List Tree} {t : Tree} {path : Path}
  {found : Option Key} {key : Key}

theorem rootFor_holdsPaths (hts : s.hierarchy.HoldsPaths ts) (hfull : path.IsFull) :
    ∃ left t right, (s.rootFor path).2.hierarchy.HoldsPaths (left ++ t :: right) ∧
      (s.rootFor path).1 = t.key ∧ t.content.unstamped = path.fileNode ∧
      left ++ right = s.hierarchy.otherRoots path.toString := by
  rw [hts.otherRoots_eq, rootFor]
  split
  next key hroot =>
    rw [hts.root?_eq, hts.rootsNamed_eq, Option.map_eq_some_iff] at hroot
    obtain ⟨t, hhead, rfl⟩ := hroot
    have hmem := List.mem_of_mem_head? hhead
    rw [List.mem_filter, beq_iff_eq] at hmem
    obtain ⟨ht, hid⟩ := hmem
    obtain ⟨left, right, rfl⟩ := List.append_of_mem ht
    refine ⟨left, t, right, hts, rfl, hts.unstamped_eq ht hfull hid, ?_⟩
    rw [← hid, Tree.filter_id_ne hts.holdsFiles.nodup_ids]
  next hroot =>
    have hnone := hts.holdsFiles.ne_id_of_root?_eq_none hroot
    refine ⟨ts, _, [], ⟨hts.holdsFiles.putRoot hroot, ?_⟩, rfl, rfl, ?_⟩
    · rw [List.forall_mem_append, List.forall_mem_singleton]
      exact ⟨hts.unstamped, path, hfull, rfl⟩
    · rw [List.append_nil, List.filter_eq_self.2]
      intro t ht
      rw [bne_iff_ne]
      exact hnone t ht

/-- A text that is planted below a file gives it the tree of the text, or takes it out of the
hierarchy. -/
theorem plantText_holdsPaths (hts : s.hierarchy.HoldsPaths (left ++ t :: right))
    (hfull : path.IsFull) (hnode : t.content.unstamped = path.fileNode) (text : List Char)
    (stamp : Option Int) :
    ∃ new : Tree, new.key = t.key ∧ new.unstamped = path.textTree text ∧
      (s.plantText t.key text stamp).2.hierarchy.HoldsPaths
        (if declaresTest (scan text) then left ++ new :: right else left ++ right) := by
  have hmem : t ∈ left ++ t :: right := List.mem_append_right _ List.mem_cons_self
  obtain ⟨number, he⟩ := plantText_hierarchy s t.key text stamp
  let new := adopt t.key t.content
    (s.hierarchy.plantedTrees t.content number (Outline.ofEvents (scan text)))
  have hplanted := hts.holdsFiles.plantOutline_of_mem number hmem (Outline.areProper_ofEvents text)
  rw [Tree.map_graft_append_cons hts.holdsFiles.holds.nodup (Tree.key_mem_keys t.mem_subtrees_self),
    Tree.graft_of_eq rfl] at hplanted
  have hold : ∀ r ∈ left ++ new :: right, ∃ path : Path, path.IsFull ∧
      r.content.unstamped = path.fileNode := by
    have hunstamped := hts.unstamped
    rw [List.forall_mem_append, List.forall_mem_cons] at hunstamped ⊢
    exact ⟨hunstamped.1, ⟨path, hfull, hnode⟩, hunstamped.2.2⟩
  have hpaths : HoldsPaths _ (left ++ new :: right) := ⟨hplanted, hold⟩
  refine ⟨new, rfl, ?_, ?_⟩
  · rw [Tree.unstamped_adopt, hnode, Path.textTree]
    congr 1
    have hid : t.content.id = path.toString := congrArg Node.id hnode
    have hfile : t.content.file = some path := congrArg Node.file hnode
    rw [Hierarchy.plantedTrees, hid]
    apply Site.map_unstamped_forest
    · rfl
    · exact hfile
  · rw [he]
    split
    next => exact hpaths
    next =>
      have hnew : new ∈ left ++ new :: right := List.mem_append_right _ List.mem_cons_self
      have hkey := hpaths.holdsFiles.id?_eq hnew
      have hdrop := hpaths.dropRoot new.content.id
      rw [Tree.filter_id_ne hpaths.holdsFiles.nodup_ids] at hdrop
      change (Hierarchy.plantOutline _ t.key _ _).id? t.key = _ at hkey
      rw [hkey]
      exact hdrop

/-- What reading a file anew leaves: the trees of the file as it is now, of which the first one is
returned, and the other roots in their order. -/
structure IsRefreshed (s : Session) (files : Files) (path : Path) (found : Option Key)
    (s' : Session) : Prop where
  holdsPaths : ∃ ts, s'.hierarchy.HoldsPaths ts
  otherRoots : s'.hierarchy.otherRoots path.toString = s.hierarchy.otherRoots path.toString
  rootsNamed : (s'.hierarchy.rootsNamed path.toString).map Tree.unstamped = files.treesAt path
  found : found = s'.hierarchy.root? path.toString

theorem IsRefreshed.isSome_found (h : s.IsRefreshed files path found s') :
    found.isSome ↔ ∃ text, files.text? path = some text ∧ Source.headings (scan text) ≠ [] := by
  obtain ⟨ts, hts⟩ := h.holdsPaths
  rw [← Files.treesAt_ne_nil, ← h.rootsNamed, h.found, hts.root?_eq, ne_eq, List.map_eq_nil_iff,
    Option.isSome_map, List.isSome_head?]

theorem isRefreshed_of_nil (hts : s.hierarchy.HoldsPaths ts) (hnil : files.treesAt path = [])
    (hleft : s'.hierarchy.HoldsPaths (s.hierarchy.otherRoots path.toString)) :
    s.IsRefreshed files path none s' := by
  have hnone : s'.hierarchy.rootsNamed path.toString = [] := by
    rw [hleft.rootsNamed_eq, hts.otherRoots_eq, List.filter_filter, List.filter_eq_nil_iff]
    intro t _
    simp
  refine ⟨⟨_, hleft⟩, ?_, ?_, ?_⟩
  · rw [hleft.otherRoots_eq, hts.otherRoots_eq, List.filter_filter]
    simp
  · rw [hnone, hnil]
    rfl
  · rw [hleft.root?_eq, hnone]
    rfl

theorem plantFile_of_text {root : Node} {text : List Char}
    (hkey : s.hierarchy.node? key = some root) (hfile : root.file = some path)
    (htext : files.text? path = some text) (stamp : Option Int) :
    s.plantFile files key stamp = s.plantText key text stamp := by
  rw [plantFile, hkey, Option.bind_some, hfile, Option.bind_some, htext]

theorem isRefreshed_of_text {text : List Char} (hts : s.hierarchy.HoldsPaths ts)
    (hfull : path.IsFull) (htext : files.text? path = some text) :
    let planted := (s.rootFor path).2.plantFile files (s.rootFor path).1 none
    s.IsRefreshed files path (if planted.1 then some (s.rootFor path).1 else none) planted.2 := by
  obtain ⟨left, t, right, hroots, hkey, hnode, hothers⟩ := rootFor_holdsPaths hts hfull
  have ht : t ∈ left ++ t :: right := List.mem_append_right _ List.mem_cons_self
  have hstands := (hroots.holdsFiles.holds.stands t ht).node? t.mem_subtrees_self
  obtain ⟨new, hnew, hunstamped, hplanted⟩ := plantText_holdsPaths hroots hfull hnode text none
  rw [hkey, plantFile_of_text hstands (congrArg Node.file hnode) htext]
  change s.IsRefreshed files path (if declaresTest (scan text) then some t.key else none) _
  cases hdeclares : declaresTest (scan text) with
  | false =>
    -- the root that was made for the text is dropped again
    rw [hdeclares, hothers] at hplanted
    refine isRefreshed_of_nil hts ?_ hplanted
    rw [Files.treesAt, htext]
    exact if_neg (hdeclares ▸ Bool.false_ne_true)
  | true =>
    rw [hdeclares] at hplanted
    have hid : new.content.id = path.toString := by
      rw [Tree.unstamped_eq, Path.textTree, Tree.node.injEq] at hunstamped
      exact congrArg Node.id hunstamped.2.1
    have hrow : (left ++ new :: right).filter (fun r => r.content.id == path.toString) = [new] :=
      hid ▸ Tree.filter_id_eq hplanted.holdsFiles.nodup_ids
    have hnamed : ((s.rootFor path).2.plantText t.key text none).2.hierarchy.rootsNamed
        path.toString = [new] := (hplanted.rootsNamed_eq _).trans hrow
    refine ⟨⟨_, hplanted⟩, ?_, ?_, ?_⟩
    · rw [hplanted.otherRoots_eq, ← hothers, ← hid]
      exact Tree.filter_id_ne hplanted.holdsFiles.nodup_ids
    · rw [hnamed, Files.treesAt, htext, List.map_singleton, hunstamped]
      exact (if_pos hdeclares).symm
    · rw [hplanted.root?_eq, hnamed]
      exact congrArg some hnew.symm

theorem refresh_isRefreshed (hts : s.hierarchy.HoldsPaths ts)
    (hfull : (Path.resolve files.current path).IsFull)
    (hok : s.refresh files path = .ok (found, s')) :
    s.IsRefreshed files (Path.resolve files.current path) found s' := by
  rw [refresh, Files.resolve] at hok
  obtain ⟨resolved, hresolved, hok⟩ := exists_of_bind_eq_ok hok
  split at hresolved
  · cases hresolved
  · cases hresolved
    obtain ⟨there, hthere, hok⟩ := exists_of_bind_eq_ok hok
    cases hfind : files.find? (Path.resolve files.current path) with
    | error e =>
      rw [Files.isFile_of_error hfind] at hthere
      cases hthere
    | ok entry =>
      rw [Files.isFile_eq hfind, Except.ok.injEq] at hthere
      cases htext : files.text? (Path.resolve files.current path) with
      | none =>
        rw [← hthere, htext] at hok
        cases hok
        apply isRefreshed_of_nil hts
        · rw [Files.treesAt, htext]
        · rw [hts.otherRoots_eq]
          exact hts.dropRoot _
      | some text =>
        rw [← hthere, htext] at hok
        cases hok
        exact isRefreshed_of_text hts hfull htext

theorem refresh_isOk_iff :
    (∃ result, s.refresh files path = .ok result) ↔ files.LooksUp path := by
  rw [refresh, Files.resolve, Files.LooksUp]
  cases path.hasNull with
  | true => simp [bind, Except.bind]
  | false =>
    cases hfind : files.find? (Path.resolve files.current path) with
    | error e => simp [bind, Except.bind, Files.isFile_of_error hfind]
    | ok entry =>
      cases hthere : (files.text? (Path.resolve files.current path)).isSome <;>
        simp [bind, Except.bind, pure, Except.pure, Files.isFile_eq hfind, hthere]

end Session

end SuiteAtlas
