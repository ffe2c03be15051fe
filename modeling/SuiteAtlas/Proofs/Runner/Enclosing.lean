import SuiteAtlas.Proofs.Runner.Selection
import SuiteAtlas.Proofs.Session.Change

namespace SuiteAtlas

variable {h : Hierarchy} {ts : List Tree} {t g n q : Tree}

namespace Hierarchy

theorem Holds.bind_parent (hts : h.Holds ts) (ht : t ∈ ts) (hq : q ∈ t.subtrees)
    (hn : n ∈ q.children) : (h.node? n.key).bind Node.parent = some q.key := by
  have hmem := Tree.mem_subtrees_trans hq (Tree.mem_subtrees_child hn)
  rw [(hts.stands t ht).node? hmem]
  exact (hts.linked t ht q hq).2 n hn

theorem HoldsFiles.bind_parent_root (hts : h.HoldsFiles ts) (ht : t ∈ ts) :
    (h.node? t.key).bind Node.parent = none := by
  rw [(hts.holds.stands t ht).node? t.mem_subtrees_self]
  exact hts.parent t ht

/-- A node below a test of a file has a parent, which is older and below the test as well unless
the node is the test. -/
theorem HoldsFiles.exists_parent (hts : h.HoldsFiles ts) (ha : h.Ascends) (ht : t ∈ ts)
    (hg : g ∈ t.children) (hn : n ∈ g.subtrees) :
    ∃ parent, (h.node? n.key).bind Node.parent = some parent ∧ parent < n.key ∧
      (n = g ∧ parent = t.key ∨ ∃ q ∈ g.subtrees, parent = q.key) := by
  rcases Tree.exists_parent_of_mem_subtrees hn with rfl | ⟨q, hq, hnq⟩
  · have hup := hts.holds.bind_parent ht t.mem_subtrees_self hg
    exact ⟨t.key, hup, ha.lt_of_parent hup, .inl ⟨rfl, rfl⟩⟩
  · have hup := hts.holds.bind_parent ht
      (Tree.mem_subtrees_trans (Tree.mem_subtrees_child hg) hq) hnq
    exact ⟨q.key, hup, ha.lt_of_parent hup, .inr ⟨q, hq, rfl⟩⟩

theorem HoldsFiles.climb_eq (hts : h.HoldsFiles ts) (ha : h.Ascends) (ht : t ∈ ts)
    (hg : g ∈ t.children) (hn : n ∈ g.subtrees) {fuel : Nat} (hfuel : n.key ≤ fuel) :
    h.climb fuel n.key = g.key := by
  induction fuel generalizing n with
  | zero =>
    obtain ⟨parent, _, hlt, _⟩ := hts.exists_parent ha ht hg hn
    exact absurd (Nat.lt_of_lt_of_le hlt hfuel) (Nat.not_lt_zero parent)
  | succ fuel ih =>
    obtain ⟨parent, hup, hlt, ⟨rfl, rfl⟩ | ⟨q, hq, rfl⟩⟩ := hts.exists_parent ha ht hg hn
    · -- the file above has no parent, so the climb stops
      rw [climb_of_parent_eq_some hup, hts.bind_parent_root ht]
      rfl
    · obtain ⟨above, hnext, _⟩ := hts.exists_parent ha ht hg hq
      rw [climb_of_parent_eq_some hup, hnext]
      exact ih hq (Nat.le_of_lt_succ (Nat.lt_of_lt_of_le hlt hfuel))

theorem HoldsFiles.not_isFile (hts : h.HoldsFiles ts) (ht : t ∈ ts) (hg : g ∈ t.children)
    (hn : n ∈ g.subtrees) : n.content.isFile = false := by
  rw [Bool.eq_false_iff]
  intro hfile
  have hmem := Tree.mem_subtrees_iff.2 (.inr ⟨g, hg, hn⟩)
  rcases (hts.isTestFile t ht).cases hmem with rfl | hheading | ⟨_, _, _, _, hassertion⟩
  · exact Tree.key_not_mem_keys (hts.holds.keys_nodup ht) hg (Tree.key_mem_keys hn)
  · rw [Tree.not_isHeading_of_isFile hfile] at hheading
    exact Bool.false_ne_true hheading
  · exact Tree.not_isFile_of_isAssertion hassertion hfile

end Hierarchy

namespace Session

variable {s : Session} {root test : Tree}

theorem HoldsFiles.testsOf_eq (hts : s.hierarchy.HoldsFiles ts) (ha : s.hierarchy.Ascends)
    (ht : t ∈ ts) (hg : g ∈ t.children) (hn : n ∈ g.subtrees) : s.testsOf n.key = [g] := by
  have hmem := Tree.mem_subtrees_iff.2 (.inr ⟨g, hg, hn⟩)
  have hlt := (hts.holds.stands t ht).key_lt (Tree.key_mem_keys hmem)
  have hclimb : s.hierarchy.enclosingTest n.key = g.key :=
    hts.climb_eq ha ht hg hn (Nat.le_of_lt hlt)
  rw [testsOf, (hts.holds.stands t ht).node? hmem]
  dsimp only
  rw [hts.not_isFile ht hg hn, if_neg Bool.false_ne_true, hclimb,
    hts.holds.tree?_of_mem ht (Tree.mem_subtrees_child hg)]
  rfl

theorem Reachable.select_singleton (h : s.Reachable) (hroot : root ∈ s.hierarchy.rootTrees)
    (hg : g ∈ root.children) (hn : n ∈ g.subtrees) :
    s.select { targets := some [n.key] } = [g] := by
  obtain ⟨ts, hts⟩ := h.holdsFiles
  rw [hts.holds.rootTrees_eq] at hroot
  have htests := HoldsFiles.testsOf_eq hts h.ascends hroot hg hn
  rw [select_eq]
  change firsts Tree.target ([n.key].flatMap s.testsOf) = [g]
  rw [List.flatMap_singleton, htests]
  rfl

/-- A heading of a file lies below a test directly below the file, or is one. -/
theorem HoldsFiles.exists_outer (hts : s.hierarchy.HoldsFiles ts) (htest : test ∈ s.headings) :
    ∃ file ∈ ts, test.IsHeadingOf file.content ∧
      ∃ outer ∈ file.children, test ∈ outer.subtrees := by
  obtain ⟨file, hfile, hin⟩ := List.mem_flatMap.1 htest
  have hof := HoldsFiles.isHeadingOf ⟨ts, hts⟩ hfile hin
  rw [hts.holds.rootTrees_eq] at hfile
  refine ⟨file, hfile, hof, ?_⟩
  rcases Tree.mem_subtrees_iff.1 (Tree.of_mem_headings hin).1 with rfl | houter
  · have hno := Tree.not_isHeading_of_isFile (hts.isTestFile test hfile).isFile
    exact absurd (hno.symm.trans hof.isHeading) Bool.false_ne_true
  · exact houter

end Session

end SuiteAtlas
