import SuiteAtlas.Proofs.Report.Extract
import SuiteAtlas.Proofs.Session.Files

namespace SuiteAtlas

open Address
open SuiteAtlas.Tree (adopt graft labels)

namespace Reconciliation

variable {heading : Node} {stamp : Int} {source : Option (List Char)}

theorem id_resultNode (heading : Node) (stamp : Int) (source : Option (List Char)) (index : Nat)
    (previous : Option Node) (a : ReportedAssertion) :
    (resultNode heading stamp source index previous a).id =
      below heading.id (resultText index) := by
  simp only [resultNode, below, resultText, String.append_assoc]
  rfl

theorem map_id_resultNodes (index : Nat) (previous : List Node) (as : List ReportedAssertion) :
    (resultNodes heading stamp source index previous as).map Node.id =
      (List.range' index as.length).map fun i => below heading.id (resultText i) := by
  induction as generalizing index previous with
  | nil => rfl
  | cons a rest ih =>
    rw [resultNodes, List.map_cons, ih, id_resultNode, List.length_cons, List.range'_succ,
      List.map_cons]

theorem length_resultNodes (heading : Node) (stamp : Int) (source : Option (List Char))
    (index : Nat) (previous : List Node) (as : List ReportedAssertion) :
    (resultNodes heading stamp source index previous as).length = as.length := by
  induction as generalizing index previous with
  | nil => rfl
  | cons a rest ih => rw [resultNodes, List.length_cons, ih, List.length_cons]

theorem getElem?_resultNodes (heading : Node) (stamp : Int) (source : Option (List Char))
    (index : Nat) (previous : List Node) (as : List ReportedAssertion) (i : Nat) :
    (resultNodes heading stamp source index previous as)[i]? =
      as[i]?.map (resultNode heading stamp source (index + i) previous[i]?) := by
  induction as generalizing index previous i with
  | nil => rfl
  | cons a rest ih =>
    rw [resultNodes]
    cases i with
    | zero => rw [List.getElem?_cons_zero, List.getElem?_cons_zero, List.head?_eq_getElem?]; rfl
    | succ i =>
      rw [List.getElem?_cons_succ, List.getElem?_cons_succ, ih, List.getElem?_tail, Nat.add_assoc,
        Nat.add_comm 1 i]

theorem resultNodes_withChildren (node : Node) (children : List Key) (stamp : Int)
    (source : Option (List Char)) (index : Nat) (previous : List Node)
    (as : List ReportedAssertion) :
    resultNodes (node.withChildren children) stamp source index previous as =
      resultNodes node stamp source index previous as := by
  induction as generalizing index previous with
  | nil => rfl
  | cons a rest ih =>
    rw [resultNodes, resultNodes, ih]
    rfl

theorem nodup_ids_resultNodes (heading : Node) (stamp : Int) (source : Option (List Char))
    (index : Nat) (previous : List Node) (as : List ReportedAssertion) :
    ((resultNodes heading stamp source index previous as).map Node.id).Nodup := by
  rw [map_id_resultNodes]
  exact List.Nodup.map (fun i j hij => resultText_inj.1 (below_inj.1 hij)) List.nodup_range'

theorem isAssertionOf_of_mem_resultNodes {index : Nat} {previous : List Node}
    {as : List ReportedAssertion} {n : Node}
    (hn : n ∈ resultNodes heading stamp source index previous as) :
    n.children = [] ∧ ∀ k, (Tree.node k n []).IsAssertionOf heading := by
  induction as generalizing index previous with
  | nil => simp [resultNodes] at hn
  | cons a rest ih =>
    rcases List.mem_cons.1 hn with rfl | hn
    · exact ⟨rfl, fun k => ⟨rfl, rfl, ⟨resultText index, id_resultNode ..⟩, rfl, rfl⟩⟩
    · exact ih hn

theorem splitChildren_spec {root : Node} {t : Tree} (h : t.IsHeadingOf root) :
    t.children = (splitChildren t).1 ++ (splitChildren t).2 ∧
      (∀ a ∈ (splitChildren t).1, a.IsAssertionOf t.content) ∧
      ∀ s ∈ (splitChildren t).2, s.isHeading = true := by
  obtain ⟨own, nested, he, hown, hnested, _⟩ := h.children
  have hall : own.filter Tree.isAssertion = own :=
    List.filter_eq_self.2 fun a ha => (hown a ha).isAssertion
  have hnone : nested.filter Tree.isAssertion = [] := by
    rw [List.filter_eq_nil_iff]
    intro s hs
    rw [Tree.not_isAssertion_of_isHeading (hnested s hs)]
    exact Bool.false_ne_true
  have hnone' : own.filter (not ∘ Tree.isAssertion) = [] := by
    rw [List.filter_eq_nil_iff]
    intro a ha
    rw [Function.comp_apply, (hown a ha).isAssertion]
    exact Bool.false_ne_true
  have hall' : nested.filter (not ∘ Tree.isAssertion) = nested := by
    rw [List.filter_eq_self]
    intro s hs
    rw [Function.comp_apply, Tree.not_isAssertion_of_isHeading (hnested s hs)]
    rfl
  have hsplit : splitChildren t = (own, nested) := by
    rw [splitChildren, List.partition_eq_filter_filter, he, List.filter_append,
      List.filter_append, hall, hnone, hnone', hall', List.append_nil, List.nil_append]
  rw [hsplit]
  exact ⟨he, hown, hnested⟩

def replacement (h : Hierarchy) (heading : Tree) (nodes : List Node) : Tree :=
  adopt heading.key heading.content (Tree.leaves h.nodes.size nodes ++ (splitChildren heading).2)

theorem replaceAssertions_eq (h : Hierarchy) (t : Tree) (nodes : List Node) :
    replaceAssertions h t nodes = (h.createAll nodes).2.setChildren t.key
      ((Tree.leaves h.nodes.size nodes ++ (splitChildren t).2).map Tree.key) := by
  rw [List.map_append, ← Hierarchy.createAll_keys_eq]
  rfl

end Reconciliation

namespace Hierarchy.HoldsFiles

open Reconciliation

variable {h h' : Hierarchy} {ts own former nested : List Tree} {t heading : Tree}
  {nodes : List Node}

theorem mayAdopt_append (hts : h.HoldsFiles ts) (ht : t ∈ ts) (hmem : heading ∈ t.subtrees)
    (hadds : Adds h h' own) (hsplit : heading.children = former ++ nested)
    (hids : ((own ++ nested).map fun c => c.content.id).Nodup) :
    h'.MayAdopt ts heading (own ++ nested) := by
  have hchild : ∀ s ∈ nested, s ∈ heading.children :=
    fun s hs => hsplit ▸ List.mem_append_right _ hs
  have hsub : ∀ s ∈ nested, s ∈ t.subtrees :=
    fun s hs => Tree.mem_subtrees_trans hmem (Tree.mem_subtrees_child (hchild s hs))
  have hfresh : ∀ a ∈ own, ∀ k ∈ a.keys, k ∉ ts.flatMap Tree.keys :=
    fun a ha k hk hm => Nat.not_lt.2 (hadds.size_le ha hk) (hts.holds.key_lt hm)
  refine ⟨?_, ?_, ?_, hids, ?_⟩
  · rw [List.forall_mem_append]
    exact ⟨hadds.stands, fun s hs => ((hts.of_adds hadds).holds.stands t ht).of_mem (hsub s hs)⟩
  · rw [List.forall_mem_append]
    exact ⟨hadds.linked, fun s hs => (hts.holds.linked t ht).of_mem (hsub s hs)⟩
  · have hall := (hts.holds.keys_nodup ht).sublist (Tree.keys_sublist hmem)
    rw [Tree.keys_eq, hsplit, List.flatMap_append] at hall
    rw [List.flatMap_append, List.nodup_append]
    refine ⟨hadds.keys ▸ List.nodup_range',
      hall.of_cons.sublist (List.sublist_append_right _ _), ?_⟩
    rintro k hk k' hk' rfl
    obtain ⟨a, ha, hka⟩ := List.mem_flatMap.1 hk
    obtain ⟨s, hs, hks⟩ := List.mem_flatMap.1 hk'
    exact hfresh a ha k hka (List.mem_flatMap.2 ⟨t, ht, (Tree.keys_sublist (hsub s hs)).subset hks⟩)
  · rw [List.forall_mem_append]
    exact ⟨fun a ha => .inr (hfresh a ha), fun s hs => .inl (hchild s hs)⟩

section Replace

variable (hts : h.HoldsFiles ts) (ht : t ∈ ts) (hmem : heading ∈ t.subtrees)
  (hheading : heading.isHeading = true)
  (hnodes : ∀ n ∈ nodes, n.children = [] ∧ ∀ k, (Tree.node k n []).IsAssertionOf heading.content)
  (hids : (nodes.map Node.id).Nodup)

include hts ht hmem hheading hnodes hids

theorem mayAdopt_leaves : (h.createAll nodes).2.MayAdopt ts heading
    (Tree.leaves h.nodes.size nodes ++ (splitChildren heading).2) ∧
      (∀ a ∈ Tree.leaves h.nodes.size nodes, a.IsAssertionOf heading.content) ∧
      ((Tree.leaves h.nodes.size nodes).map fun a => a.content.id).Nodup := by
  have htest := hts.isTestFile t ht
  obtain ⟨hsplit, _, hnested⟩ :=
    splitChildren_spec (htest.isHeadingOf_of_mem heading hmem hheading)
  have hown : ∀ a ∈ Tree.leaves h.nodes.size nodes, a.IsAssertionOf heading.content := by
    intro a ha
    obtain ⟨k, n, hn, rfl⟩ := Tree.exists_of_mem_leaves ha
    exact (hnodes n hn).2 k
  have hownIds : ((Tree.leaves h.nodes.size nodes).map fun a => a.content.id).Nodup := by
    rw [← Function.comp_def Node.id Tree.content, ← List.map_map, Tree.map_content_leaves]
    exact hids
  have hadds := Adds.createAll h fun n hm => (hnodes n hm).1
  exact ⟨hts.mayAdopt_append ht hmem hadds hsplit (htest.nodup_ids_replace
    (hts.holds.keys_nodup ht) hmem hheading hsplit hnested hown hownIds), hown, hownIds⟩

theorem replaceAssertions_graft : (Reconciliation.replaceAssertions h heading nodes).HoldsFiles
    (ts.map (Tree.graft heading.key (replacement h heading nodes))) := by
  have htest := hts.isTestFile t ht
  have hkeys := hts.holds.keys_nodup ht
  obtain ⟨hsplit, hformer, hnested⟩ :=
    splitChildren_spec (htest.isHeadingOf_of_mem heading hmem hheading)
  obtain ⟨hadopt, hown, hownIds⟩ := hts.mayAdopt_leaves ht hmem hheading hnodes hids
  have hold := hts.of_adds (Adds.createAll h fun n hm => (hnodes n hm).1)
  have hroot : ∀ new, (Tree.graft heading.key new t).content = t.content := by
    intro new
    rw [Tree.graft_of_ne (htest.key_ne hkeys hmem hheading)]
    rfl
  rw [replaceAssertions_eq]
  exact hold.graft (hadopt.holds hold.holds ht hmem) ht (Tree.key_mem_keys hmem)
    (htest.replace (hts.holds.linked t ht) hkeys hmem hheading hsplit hformer hnested hown hownIds)
    (congrArg Node.id (hroot _)) (congrArg Node.parent (hroot _))

/-- Giving a heading of a file other assertions leaves test files and drops none of them. -/
theorem replaceAssertions :
    (∃ ts', (Reconciliation.replaceAssertions h heading nodes).HoldsFiles ts') ∧
      (Reconciliation.replaceAssertions h heading nodes).node? heading.key =
        some (heading.content.withChildren
          ((h.createAll nodes).1 ++ (splitChildren heading).2.map Tree.key)) := by
  refine ⟨⟨_, hts.replaceAssertions_graft ht hmem hheading hnodes hids⟩, ?_⟩
  obtain ⟨hadopt, _, _⟩ := hts.mayAdopt_leaves ht hmem hheading hnodes hids
  have hold := hts.of_adds (Adds.createAll h fun n hm => (hnodes n hm).1)
  rw [replaceAssertions_eq, hadopt.node?_self hold.holds ht hmem, List.map_append,
    createAll_keys_eq]

end Replace

end Hierarchy.HoldsFiles

namespace Session

open Reconciliation

variable {s : Session} {nesting : Nat} {files : Files} {output : List Char} {run : Run}
  {value : Json} {report : Report}

theorem reconcile_of_load (files : Files) (run : Run)
    (hload : Report.load nesting output = .ok (value, report)) :
    let state := applyReport files s run (Report.echo value) report
    s.reconcile nesting files output run = .ok ⟨state.summary, state.session, state.run⟩ := by
  rw [reconcile, hload]
  simp only [Report.echo?_of_load hload]
  rfl

theorem reconcile_cases {outcome : Reconciled}
    (h : s.reconcile nesting files output run = .ok outcome) :
    (∃ value report, Report.load nesting output = .ok (value, report) ∧
      let state := applyReport files s run (Report.echo value) report
      outcome = ⟨state.summary, state.session, state.run⟩) ∨
    ∃ error, Report.load nesting output = .error (.unusable error) ∧
      outcome = ⟨(unusable run error.message).1, s, (unusable run error.message).2⟩ := by
  cases hload : Report.load nesting output with
  | ok found =>
    obtain ⟨value, report⟩ := found
    rw [reconcile_of_load files run hload] at h
    exact .inl ⟨value, report, rfl, (Except.ok.inj h).symm⟩
  | error failure =>
    rw [reconcile, hload] at h
    cases failure with
    | unusable error => exact .inr ⟨error, rfl, (Except.ok.inj h).symm⟩
    | tooManyDigits => cases h
    | tooDeep => cases h
    | unwritable => cases h

end Session

end SuiteAtlas
