import Mathlib.Logic.Relation
import SuiteAtlas.Proofs.Files.Names
import SuiteAtlas.Proofs.Hierarchy.Order
import SuiteAtlas.Proofs.Session.Reachable

namespace SuiteAtlas

open Relation (ReflTransGen)
open Source

namespace Session

inductive Change (s : Session) : Session → Prop
  | rootFor (resolved : Path) : Change s (s.rootFor resolved).2
  | dropRoot (id : String) : Change s { s with hierarchy := s.hierarchy.dropRoot id }
  | plantText {key : Key} {root : Node} (text : List Char) (stamp : Option Int) :
    s.hierarchy.node? key = some root → root.isFile = true →
      Change s (s.plantText key text stamp).2
  /-- One result of a report is taken. -/
  | result {state : Reconciliation.State} (files : Files) (report : Report)
    (result : ReportedTest) :
    state.session = s → Change s (Reconciliation.step files report state result).session
  | close : Change s s.close

variable {s s' : Session} {files : Files} {path root : Path} {key : Key} {node : Node}

theorem HoldsFiles.of_change (h : s.HoldsFiles) (hc : s.Change s') : s'.HoldsFiles := by
  cases hc with
  | rootFor resolved => exact h.rootFor resolved
  | dropRoot id => exact h.dropRoot id
  | plantText text stamp hkey hfile => exact h.plantText hkey hfile text stamp
  | result files report result hstate =>
    subst hstate
    exact h.step files report result
  | close => exact h.of_step .close

/-- A change that takes the number of its pass, if it is one, from the session. -/
inductive Turn (s : Session) : Session → Prop
  | rootFor (resolved : Path) : Turn s (s.rootFor resolved).2
  | dropRoot (id : String) : Turn s { s with hierarchy := s.hierarchy.dropRoot id }
  | plantText {key : Key} {root : Node} (text : List Char) :
    s.hierarchy.node? key = some root → root.isFile = true → Turn s (s.plantText key text none).2
  | result {state : Reconciliation.State} (files : Files) (report : Report)
    (result : ReportedTest) :
    state.session = s → Turn s (Reconciliation.step files report state result).session

theorem Turn.change (h : s.Turn s') : s.Change s' := by
  cases h with
  | rootFor resolved => exact .rootFor resolved
  | dropRoot id => exact .dropRoot id
  | plantText text hkey hfile => exact .plantText text none hkey hfile
  | result files report result hstate => exact .result files report result hstate

theorem plantFile_turns (hkey : s.hierarchy.node? key = some node) (hfile : node.isFile = true)
    (files : Files) : ReflTransGen Turn s (s.plantFile files key none).2 := by
  rw [plantFile]
  split
  next text _ => exact .single (.plantText text hkey hfile)
  next => exact .refl

theorem refresh_turns {found : Option Key} (h : s.HoldsFiles)
    (hs : s.refresh files path = .ok (found, s')) : ReflTransGen Turn s s' := by
  rw [refresh] at hs
  obtain ⟨resolved, _, hs⟩ := exists_of_bind_eq_ok hs
  obtain ⟨there, _, hs⟩ := exists_of_bind_eq_ok hs
  cases there with
  | false =>
    cases hs
    exact .single (.dropRoot _)
  | true =>
    cases hs
    obtain ⟨node, hkey, hfile⟩ := isFile_rootFor h resolved
    exact .head (.rootFor resolved) (plantFile_turns hkey hfile files)

theorem refreshAll_turns {paths : List Path} (h : s.HoldsFiles)
    (hs : s.refreshAll files paths = .ok s') : ReflTransGen Turn s s' := by
  induction paths generalizing s with
  | nil =>
    cases hs
    exact .refl
  | cons path rest ih =>
    obtain ⟨⟨found, s₁⟩, hfirst, hs⟩ := exists_of_bind_eq_ok hs
    exact (refresh_turns h hfirst).trans (ih (h.refresh hfirst) hs)

theorem discover_turns (h : s.HoldsFiles) (hs : s.discover files root = .ok s') :
    ReflTransGen Turn s s' := by
  obtain ⟨paths, _, hs⟩ := exists_of_bind_eq_ok hs
  exact refreshAll_turns h (eq_ok_of_mapError hs)

theorem foldl_step_turns (files : Files) (report : Report) (results : List ReportedTest)
    (state : Reconciliation.State) :
    ReflTransGen Turn state.session
      (results.foldl (Reconciliation.step files report) state).session := by
  induction results generalizing state with
  | nil => exact .refl
  | cons result rest ih => exact .head (.result files report result rfl) (ih _)

theorem reconcile_turns {nesting : Nat} {output : List Char} {run : Run} {outcome : Reconciled}
    (hs : s.reconcile nesting files output run = .ok outcome) :
    ReflTransGen Turn s outcome.session := by
  rcases reconcile_cases hs with ⟨value, report, _, rfl⟩ | ⟨error, _, rfl⟩
  · exact foldl_step_turns files report report.testResults { session := s, .. }
  · exact .refl

theorem Step.changes (h : s.HoldsFiles) (hs : s.Step s') : ReflTransGen Change s s' := by
  cases hs with
  | discover hd => exact ReflTransGen.mono (fun _ _ => Turn.change) _ _ (discover_turns h hd)
  | refresh hr => exact ReflTransGen.mono (fun _ _ => Turn.change) _ _ (refresh_turns h hr)
  | rootFor resolved => exact .single (.rootFor resolved)
  | plantText text stamp hkey hfile => exact .single (.plantText text stamp hkey hfile)
  | reconcile hr => exact ReflTransGen.mono (fun _ _ => Turn.change) _ _ (reconcile_turns hr)
  | close => exact .single .close

/-- What is preserved by changes of one kind is preserved by a row of them. -/
theorem HoldsFiles.of_row {kind : Session → Session → Prop} {motive : Session → Prop}
    (change : ∀ {s s' : Session}, kind s s' → s.Change s')
    (preserved : ∀ {s s' : Session}, s.HoldsFiles → motive s → kind s s' → motive s')
    (h : s.HoldsFiles ∧ motive s) (hrow : ReflTransGen kind s s') : s'.HoldsFiles ∧ motive s' := by
  induction hrow with
  | refl => exact h
  | tail _ hkind ih => exact ⟨ih.1.of_change (change hkind), preserved ih.1 ih.2 hkind⟩

theorem Reachable.of_change {motive : Session → Prop}
    (start : ∀ workspace settings, motive { workspace, settings })
    (change : ∀ {s s' : Session}, s.HoldsFiles → motive s → s.Change s' → motive s')
    (h : s.Reachable) : motive s := by
  induction h with
  | start workspace settings => exact start workspace settings
  | step hreach hstep ih =>
    have hrow := hstep.changes hreach.holdsFiles
    exact (HoldsFiles.of_row id change ⟨hreach.holdsFiles, ih⟩ hrow).2

end Session

theorem Reconciliation.exists_of_mem_resultNodes {heading n : Node} {stamp : Int}
    {source : Option (List Char)} {index : Nat} {previous : List Node}
    {as : List ReportedAssertion} (hn : n ∈ resultNodes heading stamp source index previous as) :
    ∃ i p a, n = resultNode heading stamp source i p a := by
  obtain ⟨i, hi⟩ := List.mem_iff_getElem?.1 hn
  rw [getElem?_resultNodes, Option.map_eq_some_iff] at hi
  obtain ⟨a, _, rfl⟩ := hi
  exact ⟨_, _, a, rfl⟩

namespace Hierarchy.Ascends

variable {h : Hierarchy} {ts : List Tree} {t heading : Tree} {key : Key} {root : Node}
  {nodes : List Node}

theorem dropRoot (ha : h.Ascends) (id : String) : (h.dropRoot id).Ascends :=
  ha.of_nodes_eq rfl

theorem plantOutline (ha : h.Ascends) (stamp : Int) (hkey : h.node? key = some root)
    (hfile : root.isFile = true) {outline : Outline}
    (hb : Block.AreProper (outline.sections.flatMap Section.blocks)) :
    (h.plantOutline key stamp outline).Ascends := by
  obtain ⟨h', hadds, he⟩ := plantOutline_adds stamp hkey hfile hb
  have htop : ∀ t ∈ h.plantedTrees root stamp outline, t.content.parent = none := by
    intro t ht
    obtain ⟨k, s, _, rfl⟩ := Site.exists_of_mem_forest ht
    cases s
    rfl
  rw [he]
  apply (ha.of_adds hadds htop).setChildren
  intro c hc
  obtain ⟨t, ht, rfl⟩ := List.mem_map.1 hc
  have hin := Tree.key_mem_keys t.mem_subtrees_self
  exact ⟨Nat.lt_of_lt_of_le (node?_lt hkey) (hadds.size_le ht hin),
    (hadds.stands t ht).key_lt hin⟩

theorem replaceAssertions (ha : h.Ascends) (hts : h.HoldsFiles ts) (ht : t ∈ ts)
    (hmem : heading ∈ t.subtrees) (hheading : heading.isHeading = true)
    (hnodes : ∀ n ∈ nodes, n.children = [] ∧ n.parent = none) :
    (Reconciliation.replaceAssertions h heading nodes).Ascends := by
  have hadds := Adds.createAll h fun n hn => (hnodes n hn).1
  have htop : ∀ a ∈ Tree.leaves h.nodes.size nodes, a.content.parent = none := by
    intro a ha
    obtain ⟨k, n, hn, rfl⟩ := Tree.exists_of_mem_leaves ha
    exact (hnodes n hn).2
  obtain ⟨hsplit, _, _⟩ := Reconciliation.splitChildren_spec
    ((hts.isTestFile t ht).isHeadingOf_of_mem heading hmem hheading)
  have hnode := (hts.holds.stands t ht).node? hmem
  rw [Reconciliation.replaceAssertions_eq]
  apply (ha.of_adds hadds htop).setChildren
  intro c hc
  obtain ⟨s, hs, rfl⟩ := List.mem_map.1 hc
  rcases List.mem_append.1 hs with hs | hs
  · have hin := Tree.key_mem_keys s.mem_subtrees_self
    exact ⟨Nat.lt_of_lt_of_le (node?_lt hnode) (hadds.size_le hs hin),
      (hadds.stands s hs).key_lt hin⟩
  · have hchild : s.key ∈ heading.content.children := by
      rw [((hts.holds.linked t ht) heading hmem).1, hsplit]
      exact List.mem_map_of_mem (List.mem_append_right _ hs)
    exact (ha.children hnode _ hchild).imp_right fun hlt =>
      Nat.lt_of_lt_of_le hlt (hadds.size ▸ Nat.le_add_right _ _)

end Hierarchy.Ascends

namespace Session

variable {s s' : Session}

theorem Change.ascends (hs : s.HoldsFiles) (ha : s.hierarchy.Ascends) (hc : s.Change s') :
    s'.hierarchy.Ascends := by
  cases hc with
  | rootFor resolved =>
    rw [Session.rootFor]
    split
    next => exact ha
    next =>
      apply Hierarchy.Ascends.putRoot
      exact ha.of_adds (.create _ rfl) (List.forall_mem_singleton.2 rfl)
  | dropRoot id => exact ha.dropRoot id
  | plantText text stamp hkey hfile =>
    obtain ⟨number, he⟩ := plantText_hierarchy s _ text stamp
    have hplanted := ha.plantOutline number hkey hfile (Outline.areProper_ofEvents text)
    rw [he]
    split
    next => exact hplanted
    next =>
      cases (s.hierarchy.plantOutline _ number _).id? _ with
      | none => exact hplanted
      | some id => exact hplanted.dropRoot id
  | result files report result hstate =>
    subst hstate
    rw [Reconciliation.step]
    split
    next heading hheading =>
      obtain ⟨ts, hts⟩ := hs
      obtain ⟨t, ht, hmem, hh⟩ := headingNamed?_spec hts hheading
      apply ha.replaceAssertions hts ht hmem hh
      intro n hn
      obtain ⟨index, previous, a, rfl⟩ := Reconciliation.exists_of_mem_resultNodes hn
      exact ⟨rfl, rfl⟩
    next => exact ha
  | close => exact ha.of_nodes_eq rfl

/-- In every state, nodes come before those below them. -/
theorem Reachable.ascends (h : s.Reachable) : s.hierarchy.Ascends :=
  h.of_change (fun _ _ => .empty) fun hs ha hc => hc.ascends hs ha

end Session

end SuiteAtlas
