import SuiteAtlas.Proofs.Hierarchy.Shape

namespace SuiteAtlas.Tree

mutual

/-- The nodes of a tree on a level, every node before those below it, with their levels. -/
def placed (level : Nat) : Tree → List (Nat × Entry)
  | .node key content children => (level, ⟨key, content⟩) :: placedAll (level + 1) children

def placedAll (level : Nat) : List Tree → List (Nat × Entry)
  | [] => []
  | t :: rest => t.placed level ++ placedAll level rest

end

/-- The node below which `x` lies when the nodes `before` come first: the last heading if `x` is an
assertion, otherwise the last node one level above that is no assertion. -/
def upFrom (before : List (Nat × Entry)) (x : Nat × Entry) : Option (Nat × Entry) :=
  before.reverse.find? fun z =>
    if x.2.content.isAssertion then z.2.content.isHeading
    else !z.2.content.isAssertion && z.1 + 1 == x.1

variable {t c : Tree} {level : Nat} {x z : Nat × Entry} {before after : List (Nat × Entry)}

theorem placedAll_eq (level : Nat) (ts : List Tree) :
    placedAll level ts = ts.flatMap (placed level) := by
  induction ts with
  | nil => rfl
  | cons t ts ih => rw [placedAll, ih, List.flatMap_cons]

theorem placed_eq (level : Nat) (t : Tree) :
    t.placed level = (level, t.entry) :: t.children.flatMap (placed (level + 1)) := by
  cases t with
  | node key content children => rw [placed, placedAll_eq]; rfl

theorem map_snd_placed (level : Nat) (t : Tree) : (t.placed level).map Prod.snd = t.preorder := by
  induction t using induct generalizing level with
  | node key content children ih =>
    rw [placed_eq, preorder_eq, List.map_cons, List.map_flatMap]
    congr 1
    exact List.flatMap_congr fun c hc => ih c hc (level + 1)

theorem le_of_mem_placed (hz : z ∈ t.placed level) : level ≤ z.1 := by
  induction t using induct generalizing level with
  | node key content children ih =>
    rw [placed_eq] at hz
    rcases List.mem_cons.1 hz with rfl | hz
    · exact Nat.le_refl _
    · obtain ⟨c, hc, hz⟩ := List.mem_flatMap.1 hz
      exact Nat.le_of_succ_le (ih c hc hz)

theorem flatMap_eq_append_cons {α β : Type} {f : α → List β} {as : List α} {xs ys : List β} {b : β}
    (h : as.flatMap f = xs ++ b :: ys) :
    ∃ left a right us vs, as = left ++ a :: right ∧ f a = us ++ b :: vs ∧
      xs = left.flatMap f ++ us := by
  induction as generalizing xs with
  | nil => simp at h
  | cons a as ih =>
    rw [List.flatMap_cons] at h
    rcases List.append_eq_append_iff.1 h with ⟨more, hxs, hrest⟩ | ⟨more, hfa, hrest⟩
    · obtain ⟨left, a', right, us, vs, rfl, hfa, rfl⟩ := ih hrest
      exact ⟨a :: left, a', right, us, vs, rfl, hfa, by rw [hxs, List.flatMap_cons,
        List.append_assoc]⟩
    · cases more with
      | nil =>
        rw [List.append_nil] at hfa
        obtain ⟨left, a', right, us, vs, rfl, hfa', hnil⟩ := 
          ih (show as.flatMap f = [] ++ b :: ys from hrest.symm)
        refine ⟨a :: left, a', right, us, vs, rfl, hfa', ?_⟩
        rw [List.flatMap_cons, List.append_assoc, ← hnil, List.append_nil, hfa]
      | cons d more =>
        obtain ⟨rfl, _⟩ := List.cons.inj hrest
        exact ⟨[], a, as, xs, more, rfl, hfa, rfl⟩

/-- A node that is not the topmost one lies one level below another one, behind the nodes of the
children that come before it. -/
theorem placed_split (h : t.placed level = before ++ x :: after) (hb : before ≠ []) :
    ∃ s ∈ t.subtrees, ∃ d left c right earlier, s.children = left ++ c :: right ∧
      x = (d + 1, c.entry) ∧
      before = earlier ++ (d, s.entry) :: left.flatMap (placed (d + 1)) := by
  induction t using induct generalizing level before after with
  | node key content children ih =>
    rw [placed_eq] at h
    cases before with
    | nil => exact absurd rfl hb
    | cons first before =>
      obtain ⟨rfl, hrest⟩ := List.cons.inj h
      obtain ⟨left, c, right, us, vs, he, hc, rfl⟩ := flatMap_eq_append_cons hrest
      cases us with
      | nil =>
        rw [placed_eq] at hc
        refine ⟨_, mem_subtrees_self _, level, left, c, right, [], he, ?_, ?_⟩
        · exact (List.cons.inj hc).1.symm
        · rw [List.append_nil]
          rfl
      | cons u us =>
        have hmem : c ∈ children := by
          rw [show children = _ from he]
          exact List.mem_append_right _ List.mem_cons_self
        obtain ⟨s, hs, d, left', c', right', earlier, hch, hx, hbefore⟩ :=
          ih c hmem hc (List.cons_ne_nil u us)
        refine ⟨s, mem_subtrees_iff.2 (.inr ⟨c, hmem, hs⟩), d, left', c', right',
          (level, entry (.node key content children)) :: left.flatMap (placed (level + 1)) ++
            earlier, hch, hx, ?_⟩
        rw [hbefore, List.append_assoc]
        rfl

theorem find?_reverse_append_cons {α : Type} {f : α → Bool} {xs ys : List α} {a : α}
    (ha : f a = true) (hys : ∀ y ∈ ys, f y = false) : (xs ++ a :: ys).reverse.find? f = some a := by
  have hnone : ys.reverse.find? f = none := by
    rw [List.find?_eq_none]
    intro y hy
    rw [hys y (List.mem_reverse.1 hy)]
    exact Bool.false_ne_true
  rw [List.reverse_append, List.reverse_cons, List.append_assoc, List.find?_append, hnone,
    Option.none_or, List.singleton_append, List.find?_cons_of_pos ha]

theorem IsHeadingOf.isAssertionOf_of_before {root : Node} {s a l : Tree} {left right : List Tree}
    (h : s.IsHeadingOf root) (hch : s.children = left ++ a :: right) (ha : a.isAssertion = true)
    (hl : l ∈ left) : l.IsAssertionOf s.content := by
  obtain ⟨own, nested, he, hown, hnested, _⟩ := h.children
  rw [hch] at he
  rcases List.append_eq_append_iff.1 he with ⟨more, hmore, _⟩ | ⟨more, _, hmore⟩
  · apply hown
    rw [hmore]
    exact List.mem_append_left _ hl
  · have hheading := hnested a (hmore ▸ List.mem_append_right _ List.mem_cons_self)
    rw [not_isHeading_of_isAssertion ha] at hheading
    exact absurd hheading Bool.false_ne_true

theorem IsTestFile.not_isAssertion_of_child (ht : t.IsTestFile) {s : Tree} (hs : s ∈ t.subtrees)
    (hc : c ∈ s.children) :
    s.isAssertion = false ∧ (c.isAssertion = true → s.isHeading = true) := by
  rcases ht.cases hs with rfl | hs' | ⟨p, hp, hp', hsp, hs'⟩
  · have hheading := ht.isHeading_of_mem c hc
    refine ⟨?_, fun hca => ?_⟩
    · cases ha : s.isAssertion with
      | false => rfl
      | true => exact absurd ht.isFile (not_isFile_of_isAssertion ha)
    · rw [not_isHeading_of_isAssertion hca] at hheading
      exact absurd hheading Bool.false_ne_true
  · exact ⟨not_isAssertion_of_isHeading hs', fun _ => hs'⟩
  · rw [((ht.isHeadingOf_of_mem p hp hp').isAssertionOf_of_mem hsp hs').children] at hc
    simp at hc

theorem IsTestFile.upFrom_eq (ht : t.IsTestFile) (hl : t.IsLinked)
    (h : t.placed level = before ++ x :: after) (hb : before ≠ []) :
    ∃ p, upFrom before x = some p ∧ x.2.content.parent = some p.2.key := by
  obtain ⟨s, hs, d, left, c, right, earlier, hch, rfl, rfl⟩ := placed_split h hb
  have hc : c ∈ s.children := hch ▸ List.mem_append_right _ List.mem_cons_self
  obtain ⟨hs', hheading⟩ := ht.not_isAssertion_of_child hs hc
  refine ⟨(d, s.entry), find?_reverse_append_cons ?_ ?_, (hl s hs).2 c hc⟩
  · by_cases hca : c.isAssertion = true
    · rw [if_pos (show c.entry.content.isAssertion = true from hca)]
      exact hheading hca
    · rw [if_neg (show ¬c.entry.content.isAssertion = true from hca),
        show s.entry.content.isAssertion = false from hs']
      exact beq_self_eq_true (d + 1)
  · intro z hz
    obtain ⟨l, hleft, hz⟩ := List.mem_flatMap.1 hz
    by_cases hca : c.isAssertion = true
    · have hof := (ht.isHeadingOf_of_mem s hs (hheading hca)).isAssertionOf_of_before hch hca hleft
      rw [placed_eq, hof.children, List.flatMap_nil, List.mem_singleton] at hz
      rw [if_pos (show c.entry.content.isAssertion = true from hca), hz]
      exact not_isHeading_of_isAssertion hof.isAssertion
    · have hle := le_of_mem_placed hz
      have hne : (z.1 + 1 == d + 1) = false := beq_eq_false_iff_ne.2 (by omega)
      rw [if_neg (show ¬c.entry.content.isAssertion = true from hca), hne, Bool.and_false]

end SuiteAtlas.Tree
