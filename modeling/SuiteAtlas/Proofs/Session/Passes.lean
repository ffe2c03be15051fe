import SuiteAtlas.Proofs.Session.Change
import SuiteAtlas.Proofs.Session.Index

namespace SuiteAtlas

open Relation (ReflTransGen)
open Source
open SuiteAtlas.Tree (adopt)

/-- Headings are only ever read from a source. -/
def NodeData.origin? : NodeData → Option Origin
  | .file => none
  | .heading .. => some .source
  | .assertion data => some data.origin

namespace Node

def origin? (n : Node) : Option Origin := n.data.bind NodeData.origin?

/-- A node that was made in the pass of a number, out of a source or a result. -/
def IsOf (n : Node) (stamp : Int) (origin : Origin) : Prop :=
  n.stamp? = some stamp ∧ n.origin? = some origin

variable {n : Node} {stamp : Int} {origin : Origin}

theorem isOf_withParent {parent : Option Key} :
    (n.withParent parent).IsOf stamp origin ↔ n.IsOf stamp origin :=
  Iff.rfl

theorem isOf_withChildren {children : List Key} :
    (n.withChildren children).IsOf stamp origin ↔ n.IsOf stamp origin :=
  Iff.rfl

theorem stamp?_of_isFile (h : n.isFile = true) : n.stamp? = none := by
  rw [isFile] at h
  rw [stamp?]
  cases hd : n.data with
  | none => rfl
  | some data =>
    rw [hd] at h
    cases data with
    | file => rfl
    | _ => simp [NodeData.isFile] at h

end Node

namespace Tree

/-- The nodes of a file come from one pass over its text, but for the assertions of headings that
got a result after it. -/
structure HasPass (t : Tree) (pass last : Int) : Prop where
  le_last : pass ≤ last
  heading : ∀ r ∈ t.subtrees, r.isHeading = true → r.content.IsOf pass .source
  assertions : ∀ r ∈ t.subtrees, r.isHeading = true →
    (∀ a ∈ r.assertions, a.IsOf pass .source) ∨
      ∃ later, pass < later ∧ later ≤ last ∧ ∀ a ∈ r.assertions, a.IsOf later .result

variable {t : Tree} {pass last last' n : Int}

theorem HasPass.mono (h : t.HasPass pass last) (hle : last ≤ last') : t.HasPass pass last' where
  le_last := Int.le_trans h.le_last hle
  heading := h.heading
  assertions r hr hr' := (h.assertions r hr hr').imp_right fun ⟨later, hlt, hlater, hall⟩ =>
    ⟨later, hlt, Int.le_trans hlater hle, hall⟩

theorem isOf_of_mem_withParent {k : Key} {stamp : Int} {origin : Origin}
    (h : ∀ r ∈ t.subtrees, r.content.IsOf stamp origin) :
    ∀ r ∈ (t.withParent k).subtrees, r.content.IsOf stamp origin := by
  intro r hr
  rcases mem_subtrees_iff.1 hr with rfl | ⟨c, hc, hr⟩
  · rw [withParent_content]
    exact h t t.mem_subtrees_self
  · rw [withParent_children] at hc
    exact h r (mem_subtrees_iff.2 (.inr ⟨c, hc, hr⟩))

theorem hasPass_leaf {key : Key} {content : Node} (h : content.isHeading = false) :
    (node key content []).HasPass last last := by
  have hnone : ∀ r ∈ (node key content []).subtrees, ¬r.isHeading = true := by
    intro r hr
    rw [subtrees_eq] at hr
    obtain rfl := List.mem_singleton.1 hr
    exact Bool.eq_false_iff.1 h
  exact ⟨Int.le_refl _, fun r hr hr' => absurd hr' (hnone r hr),
    fun r hr hr' => absurd hr' (hnone r hr)⟩

theorem HasPass.le_of_stamp? (h : t.HasPass pass last) (ht : t.IsTestFile) {s : Tree}
    (hs : s ∈ t.subtrees) (hn : s.content.stamp? = some n) : n ≤ last := by
  rcases ht.cases hs with rfl | hs' | ⟨p, hp, hp', hsp, hs'⟩
  · rw [Node.stamp?_of_isFile ht.isFile] at hn
    cases hn
  · rw [(h.heading s hs hs').1] at hn
    cases hn
    exact h.le_last
  · have ha : s.content ∈ p.assertions := List.mem_map_of_mem (List.mem_filter.2 ⟨hsp, hs'⟩)
    rcases h.assertions p hp hp' with hall | ⟨later, _, hlater, hall⟩
    · rw [(hall _ ha).1] at hn
      cases hn
      exact h.le_last
    · rw [(hall _ ha).1] at hn
      cases hn
      exact hlater

end Tree

theorem Site.isOf_of_mem_tree (site : Site) (s : Section) (parentId : String) (next : Key) :
    ∀ r ∈ (site.tree parentId next s).subtrees, r.content.IsOf site.stamp .source := by
  induction s using Section.induct generalizing parentId next with
  | mk heading assertions nested ih =>
    intro r hr
    rw [tree] at hr
    rcases Tree.mem_subtrees_adopt hr with rfl | ⟨c, hc, hr⟩
    · exact ⟨rfl, rfl⟩
    rcases List.mem_append.1 hc with hc | hc
    · obtain ⟨k, n, hn, rfl⟩ := Tree.exists_of_mem_leaves hc
      obtain ⟨a, _, rfl⟩ := List.mem_map.1 hn
      rw [Tree.subtrees_eq, Tree.withParent_children, Tree.children, List.flatMap_nil,
        List.mem_singleton] at hr
      subst hr
      exact ⟨rfl, rfl⟩
    · obtain ⟨k, s', hs', rfl⟩ := exists_of_mem_forest hc
      exact Tree.isOf_of_mem_withParent (ih s' hs' (site.headingId heading) k) r hr

namespace Hierarchy

variable {h : Hierarchy} {key : Key} {root : Node} {stamp : Int} {outline : Outline}

theorem isOf_of_mem_plantedTree {s : Tree}
    (hs : s ∈ (adopt key root (h.plantedTrees root stamp outline)).children.flatMap
      Tree.subtrees) : s.content.IsOf stamp .source := by
  obtain ⟨d, hd, hs⟩ := List.mem_flatMap.1 hs
  obtain ⟨c, hc, rfl⟩ := List.mem_map.1 hd
  obtain ⟨k, r, _, rfl⟩ := Site.exists_of_mem_forest hc
  exact Tree.isOf_of_mem_withParent
    (Site.isOf_of_mem_tree ⟨root.id, root.file, stamp⟩ r root.id k) s hs

theorem hasPass_plantedTree (hfile : root.isFile = true) :
    (adopt key root (h.plantedTrees root stamp outline)).HasPass stamp stamp := by
  have hheading : ∀ r ∈ (adopt key root (h.plantedTrees root stamp outline)).subtrees,
      r.isHeading = true → r ∈ (adopt key root (h.plantedTrees root stamp outline)).children.flatMap
        Tree.subtrees := by
    intro r hr hr'
    rw [Tree.subtrees_eq] at hr
    rcases List.mem_cons.1 hr with rfl | hr
    · exact absurd hr' (Tree.not_isHeading_of_isFile (t := adopt key root _) hfile ▸
        Bool.false_ne_true)
    · exact hr
  refine ⟨Int.le_refl _, fun r hr hr' => isOf_of_mem_plantedTree (hheading r hr hr'), ?_⟩
  intro r hr hr'
  refine .inl fun a ha => ?_
  obtain ⟨c, hc, rfl⟩ := List.mem_map.1 ha
  obtain ⟨d, hd, hr⟩ := List.mem_flatMap.1 (hheading r hr hr')
  exact isOf_of_mem_plantedTree (List.mem_flatMap.2 ⟨d, hd,
    Tree.mem_subtrees_trans hr (Tree.mem_subtrees_child (List.mem_of_mem_filter hc))⟩)

end Hierarchy

namespace Reconciliation

variable {state : State} {result : ReportedTest}

theorem isOf_of_mem_resultNodes {heading n : Node} {stamp : Int} {source : Option (List Char)}
    {index : Nat} {previous : List Node} {as : List ReportedAssertion}
    (hn : n ∈ resultNodes heading stamp source index previous as) : n.IsOf stamp .result := by
  obtain ⟨i, p, a, rfl⟩ := exists_of_mem_resultNodes hn
  exact ⟨rfl, rfl⟩

theorem isOf_step (hs : state.session.HoldsFiles) {named : Key × Node}
    (hnamed : state.session.hierarchy.named? result.suite result.name = some named)
    (files : Files) (report : Report) :
    ∀ a ∈ (step files report state result).session.hierarchy.assertionsAt named.1,
      a.IsOf (state.session.stamp + 1) .result := by
  rw [step_assertionsAt hs hnamed]
  intro a ha
  obtain ⟨n, hn, rfl⟩ := List.mem_map.1 ha
  exact Node.isOf_withParent.2 (isOf_of_mem_resultNodes hn)

theorem stamp_step (files : Files) (report : Report) (state : State) (result : ReportedTest) :
    (step files report state result).session.stamp = state.session.stamp +
      if (state.session.hierarchy.named? result.suite result.name).isSome then 1 else 0 := by
  rw [step, ← Session.map_face_headingNamed?]
  cases state.session.headingNamed? result.suite result.name with
  | none => exact (Int.add_zero _).symm
  | some heading => rfl

/-- The headings of a file were headings of one file before, under the same keys, if the indices
are the same. -/
theorem exists_former {h h' : Hierarchy} {us : List Tree} (hus : h'.HoldsFiles us)
    (hindex : h'.index = h.index) {u : Tree} (hu : u ∈ us) :
    ∃ t ∈ h.rootTrees, ∀ r ∈ u.subtrees, r.isHeading = true → ∃ q ∈ t.headings,
      q.key = r.key ∧ q.content.withChildren [] = r.content.withChildren [] := by
  have hface : (u.content, u.faces) ∈ h.index := by
    rw [← hindex, Hierarchy.index, hus.holds.rootTrees_eq]
    exact List.mem_map_of_mem hu
  obtain ⟨t, ht, hsame⟩ := List.mem_map.1 hface
  obtain ⟨-, hfaces⟩ := Prod.mk.inj hsame
  refine ⟨t, ht, fun r hr hr' => ?_⟩
  have hin : r.face ∈ t.faces :=
    hfaces ▸ List.mem_map_of_mem ((hus.isTestFile u hu).mem_headings hr hr')
  obtain ⟨q, hq, he⟩ := List.mem_map.1 hin
  exact ⟨q, hq, Prod.mk.inj he⟩

/-- The assertions that a result leaves stay, and those that it makes are later than all that
was there. -/
theorem hasPass_step (hs : state.session.HoldsFiles)
    (hpasses : ∀ t ∈ state.session.hierarchy.rootTrees,
      ∃ pass, t.HasPass pass state.session.stamp) (files : Files) (report : Report) :
    ∀ t ∈ (step files report state result).session.hierarchy.rootTrees,
      ∃ pass, t.HasPass pass (step files report state result).session.stamp := by
  obtain ⟨us, hus⟩ := hs.step files report result
  have hstamp := stamp_step files report state result
  have hle : state.session.stamp ≤ (step files report state result).session.stamp := by
    rw [hstamp]
    split <;> omega
  intro u hu
  rw [hus.holds.rootTrees_eq] at hu
  obtain ⟨t, ht, hformer⟩ := exists_former hus (step_index hs files report result) hu
  obtain ⟨pass, hpass⟩ := hpasses t ht
  refine ⟨pass, Int.le_trans hpass.le_last hle, fun r hr hr' => ?_, fun r hr hr' => ?_⟩
  · obtain ⟨q, hq, -, hcontent⟩ := hformer r hr hr'
    obtain ⟨hq, hq'⟩ := Tree.of_mem_headings hq
    rw [← Node.isOf_withChildren, ← hcontent]
    exact hpass.heading q hq hq'
  · obtain ⟨q, hq, hkey, -⟩ := hformer r hr hr'
    have hq' := Tree.of_mem_headings hq
    rw [← hus.holds.assertionsAt_eq hu hr, ← hkey]
    -- the heading that the result names has its assertions, any other one keeps its own
    by_cases hnamed : (state.session.hierarchy.named? result.suite result.name).map Prod.fst =
        some q.key
    · obtain ⟨named, hnamed, hk⟩ := Option.map_eq_some_iff.1 hnamed
      refine .inr ⟨state.session.stamp + 1, ?_, ?_, hk ▸ isOf_step hs hnamed files report⟩
      · have hlast := hpass.le_last
        omega
      · rw [hstamp, hnamed]
        exact Int.le_refl _
    · obtain ⟨ts, hts⟩ := hs
      rw [step_assertionsAt_of_ne ⟨ts, hts⟩
        (Hierarchy.mem_headingKeys.2 ⟨t, ht, q, hq, rfl⟩) hnamed]
      rw [hts.holds.rootTrees_eq] at ht
      rw [hts.holds.assertionsAt_eq ht hq'.1]
      exact (hpass.mono hle).assertions q hq'.1 hq'.2

end Reconciliation

namespace Hierarchy

def stamps (h : Hierarchy) : List Int :=
  h.rootTrees.flatMap fun t => t.preorder.filterMap fun e => e.content.stamp?

end Hierarchy

namespace Session

variable {s s' : Session}

/-- Every file has its pass, and the counter is not below any of them. -/
def HasPasses (s : Session) : Prop :=
  ∀ t ∈ s.hierarchy.rootTrees, ∃ pass, t.HasPass pass s.stamp

theorem HasPasses.of_forall {ts : List Tree} (hts : s.hierarchy.HoldsFiles ts)
    (h : ∀ t ∈ ts, ∃ pass, t.HasPass pass s.stamp) : s.HasPasses := by
  intro t ht
  rw [hts.holds.rootTrees_eq] at ht
  exact h t ht

theorem HasPasses.of_turn (h : s.HasPasses) (hs : s.HoldsFiles) (hturn : s.Turn s') :
    s'.HasPasses := by
  cases hturn with
  | rootFor resolved =>
    rw [Session.rootFor]
    split
    next => exact h
    next hnone =>
      obtain ⟨ts, hts⟩ := hs
      rw [HasPasses, hts.holds.rootTrees_eq] at h
      apply HasPasses.of_forall (hts.putRoot hnone)
      rw [List.forall_mem_append, List.forall_mem_singleton]
      exact ⟨h, _, Tree.hasPass_leaf rfl⟩
  | dropRoot id =>
    obtain ⟨ts, hts⟩ := hs
    rw [HasPasses, hts.holds.rootTrees_eq] at h
    exact HasPasses.of_forall (hts.dropRoot id) fun t ht => h t (List.mem_of_mem_filter ht)
  | plantText text hkey hfile =>
    obtain ⟨ts, hts⟩ := hs
    rw [HasPasses, hts.holds.rootTrees_eq] at h
    obtain ⟨us, hus, htrees⟩ := plantText_trees hts hkey hfile text none
    apply HasPasses.of_forall hus
    intro t ht
    rcases htrees t ht with ht | rfl
    · obtain ⟨pass, hpass⟩ := h t ht
      exact ⟨pass, hpass.mono (Int.le_of_lt (Int.lt_succ _))⟩
    · exact ⟨_, Hierarchy.hasPass_plantedTree hfile⟩
  | result files report result hstate =>
    subst hstate
    exact Reconciliation.hasPass_step hs h files report

theorem HasPasses.le_of_mem_stamps (h : s.HasPasses) (hs : s.HoldsFiles) :
    ∀ n ∈ s.hierarchy.stamps, n ≤ s.stamp := by
  intro n hn
  obtain ⟨ts, hts⟩ := hs
  obtain ⟨t, ht, hn⟩ := List.mem_flatMap.1 hn
  obtain ⟨e, he, hn⟩ := List.mem_filterMap.1 hn
  obtain ⟨pass, hpass⟩ := h t ht
  rw [hts.holds.rootTrees_eq] at ht
  rw [Tree.preorder_eq_map_subtrees] at he
  obtain ⟨r, hr, rfl⟩ := List.mem_map.1 he
  exact hpass.le_of_stamp? (hts.isTestFile t ht) hr hn

/-- The states that reading files and applying reports lead to, in any order, from an empty
session. The states within an operation, after each of its turns, are among them. -/
inductive Counted : Session → Prop
  | start (workspace : Path) (settings : Settings) : Counted { workspace, settings }
  | discover {files : Files} {path : Path} {s s' : Session} :
    Counted s → s.discover files path = .ok s' → Counted s'
  | refresh {files : Files} {path : Path} {found : Option Key} {s s' : Session} :
    Counted s → s.refresh files path = .ok (found, s') → Counted s'
  | reconcile {nesting : Nat} {files : Files} {output : List Char} {run : Run}
    {outcome : Reconciled} {s : Session} :
    Counted s → s.reconcile nesting files output run = .ok outcome → Counted outcome.session
  | turn {s s' : Session} : Counted s → s.Turn s' → Counted s'

theorem Counted.of_turn {motive : Session → Prop}
    (start : ∀ workspace settings, motive { workspace, settings })
    (turn : ∀ {s s' : Session}, s.HoldsFiles → motive s → s.Turn s' → motive s')
    (h : s.Counted) : s.HoldsFiles ∧ motive s := by
  have hrow {s s' : Session} (hs : s.HoldsFiles ∧ motive s) (hturns : ReflTransGen Turn s s') :
      s'.HoldsFiles ∧ motive s' :=
    HoldsFiles.of_row Turn.change turn hs hturns
  induction h with
  | start workspace settings => exact ⟨⟨[], .empty⟩, start workspace settings⟩
  | discover _ hd ih => exact hrow ih (discover_turns ih.1 hd)
  | refresh _ hr ih => exact hrow ih (refresh_turns ih.1 hr)
  | reconcile _ hr ih => exact hrow ih (reconcile_turns hr)
  | turn _ hturn ih => exact hrow ih (.single hturn)

theorem Counted.hasPasses (h : s.Counted) : s.HoldsFiles ∧ s.HasPasses := by
  apply h.of_turn
  · intro workspace settings t ht
    exact absurd ht List.not_mem_nil
  · exact fun hs hpasses hturn => hpasses.of_turn hs hturn

/-- Passes do not mix. The headings of a file are of one pass over its text, the assertions of each
heading are of the same pass or else all of one later result, and no number is above the counter.
What a text or a result makes gets a number above those of all nodes that were there. -/
theorem Counted.passes (h : s.Counted) :
    (∀ t ∈ s.hierarchy.rootTrees, ∃ pass,
      (∀ r ∈ t.subtrees, r.isHeading = true → r.content.IsOf pass .source) ∧
      ∀ r ∈ t.subtrees, r.isHeading = true → (∀ a ∈ r.assertions, a.IsOf pass .source) ∨
        ∃ later, pass < later ∧ ∀ a ∈ r.assertions, a.IsOf later .result) ∧
    (∀ n ∈ s.hierarchy.stamps, n ≤ s.stamp) ∧
    (∀ (key : Key) (root : Node) (text : List Char),
      s.hierarchy.node? key = some root → root.isFile = true →
        ∃ t number, (s.plantText key text none).2.hierarchy.tree? key = some t ∧
          (∀ r ∈ t.children.flatMap Tree.subtrees, r.content.IsOf number .source) ∧
          ∀ n ∈ s.hierarchy.stamps, n < number) ∧
    ∀ (files : Files) (report : Report) (state : Reconciliation.State) (result : ReportedTest)
      (heading : Tree), state.session = s →
        s.headingNamed? result.suite result.name = some heading →
        ∃ shown number, (Reconciliation.step files report state result).session.headingNamed?
            result.suite result.name = some shown ∧ shown.key = heading.key ∧
          (∀ a ∈ shown.assertions, a.IsOf number .result) ∧
          ∀ n ∈ s.hierarchy.stamps, n < number := by
  obtain ⟨hs, hpasses⟩ := h.hasPasses
  have hbound := hpasses.le_of_mem_stamps hs
  have hnext : ∀ n ∈ s.hierarchy.stamps, n < s.stamp + 1 :=
    fun n hn => Int.lt_add_one_of_le (hbound n hn)
  refine ⟨fun t ht => ?_, hbound, fun key root text hkey hfile => ?_, ?_⟩
  · obtain ⟨pass, hpass⟩ := hpasses t ht
    refine ⟨pass, hpass.heading, fun r hr hr' => (hpass.assertions r hr hr').imp_right ?_⟩
    rintro ⟨later, hlt, -, hall⟩
    exact ⟨later, hlt, hall⟩
  · exact ⟨_, s.stamp + 1, tree?_plantText_eq hkey hfile text none,
      fun r hr => Hierarchy.isOf_of_mem_plantedTree hr, hnext⟩
  · rintro files report state result heading rfl hheading
    have hnamed := named?_eq_face hheading
    obtain ⟨shown, hshown, hface⟩ :=
      exists_headingNamed? (Reconciliation.step_index hs files report result) hheading
    have hkey : shown.key = heading.key := (Prod.mk.inj hface).1
    refine ⟨shown, state.session.stamp + 1, hshown, hkey, ?_, hnext⟩
    rw [← (hs.step files report result).assertionsAt_eq hshown, hkey]
    exact Reconciliation.isOf_step hs hnamed files report

/-- One result for the outer heading, after the pass over a text. -/
theorem Counted.passes_nestedText :
    let s := (oneFile.plantText 0 nestedText none).2
    let result : ReportedTest :=
      ⟨"T", "test_outer", false, none, none, [⟨"", .null, .null, false, none, none, none⟩]⟩
    let state : Reconciliation.State := { session := s, run := {}, summary := {}, sources := [] }
    s.hierarchy.stamps = [1, 1, 1, 1] ∧
      ∃ shown number, (Reconciliation.step (.empty ⟨"/", []⟩) ⟨[result], []⟩ state
          result).session.headingNamed? "T" "test_outer" = some shown ∧
        (∀ a ∈ shown.assertions, a.IsOf number .result) ∧ 1 < number := by
  intro s result state
  have hcounted : s.Counted := .turn (.turn (.start ⟨"/", []⟩ .default) (.rootFor ⟨"/", ["T.4dm"]⟩))
    (.plantText nestedText node?_oneFile rfl)
  have hstamps : s.hierarchy.stamps = [1, 1, 1, 1] := by decide +kernel
  have hknown : (s.headingNamed? "T" "test_outer").isSome = true := by decide +kernel
  obtain ⟨heading, hheading⟩ := Option.isSome_iff_exists.1 hknown
  obtain ⟨_, _, _, happlied⟩ := Counted.passes hcounted
  obtain ⟨shown, number, hshown, _, hall, hlater⟩ :=
    happlied (.empty ⟨"/", []⟩) ⟨[result], []⟩ state result heading rfl hheading
  rw [hstamps] at hlater
  exact ⟨hstamps, shown, number, hshown, hall, hlater 1 List.mem_cons_self⟩

end Session

end SuiteAtlas
