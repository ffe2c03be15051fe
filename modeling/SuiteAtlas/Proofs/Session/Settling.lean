import SuiteAtlas.Proofs.Outline.Unstamped
import SuiteAtlas.Proofs.Run
import SuiteAtlas.Proofs.Session.Fallback

namespace SuiteAtlas

/-- A map passes on what is seen of its argument, or makes it the same for all arguments. -/
def KeepsOrSets {α β : Type} (view : α → β) (f : α → α) : Prop :=
  (∀ x, view (f x) = view x) ∨ ∃ b, ∀ x, view (f x) = b

namespace KeepsOrSets

variable {α β : Type} {view : α → β} {f g : α → α}

theorem id (view : α → β) : KeepsOrSets view fun x => x :=
  .inl fun _ => rfl

theorem comp (hg : KeepsOrSets view g) (hf : KeepsOrSets view f) :
    KeepsOrSets view fun x => g (f x) := by
  rcases hg with hg | ⟨b, hg⟩
  · rcases hf with hf | ⟨b, hf⟩
    · exact .inl fun x => (hg _).trans (hf x)
    · exact .inr ⟨b, fun x => (hg _).trans (hf x)⟩
  · exact .inr ⟨b, fun x => hg _⟩

theorem view_twice (hf : KeepsOrSets view f) (x : α) : view (f (f x)) = view (f x) := by
  rcases hf with hf | ⟨b, hf⟩
  · exact hf _
  · rw [hf, hf]

end KeepsOrSets

namespace Reconciliation

/-- A map of what is at a place: range and operator are passed on or set, and all the rest is told
by them, unless everything is left as it is. -/
structure Settles (f : Option Node → Option Node) : Prop where
  range : KeepsOrSets (fun p => p.bind Node.range) f
  operator : KeepsOrSets operatorOf f
  rest : (∀ p, f p = p) ∨ ∀ p q, (f p).bind Node.range = (f q).bind Node.range →
    operatorOf (f p) = operatorOf (f q) → f p = f q

namespace Settles

variable {f g : Option Node → Option Node}

theorem id : Settles fun p => p :=
  ⟨.id _, .id _, .inl fun _ => rfl⟩

theorem const (p : Option Node) : Settles fun _ => p :=
  ⟨.inr ⟨_, fun _ => rfl⟩, .inr ⟨_, fun _ => rfl⟩, .inr fun _ _ _ _ => rfl⟩

theorem comp (hg : Settles g) (hf : Settles f) : Settles fun p => g (f p) := by
  refine ⟨hg.range.comp hf.range, hg.operator.comp hf.operator, ?_⟩
  rcases hg.rest with hkept | htold
  · rcases hf.rest with hkept' | htold
    · exact .inl fun p => (hkept _).trans (hkept' p)
    · refine .inr fun p q hrange hoperator => ?_
      rw [hkept, hkept] at hrange hoperator ⊢
      exact htold p q hrange hoperator
  · exact .inr fun p q => htold (f p) (f q)

theorem foldl {results : List ReportedTest} {turn : Option Node → ReportedTest → Option Node}
    (hturn : ∀ result, Settles fun p => turn p result) :
    Settles fun p => results.foldl turn p := by
  induction results with
  | nil => exact .id
  | cons result rest ih => exact ih.comp (hturn result)

theorem twice (hf : Settles f) (p : Option Node) : f (f p) = f p := by
  rcases hf.rest with hkept | htold
  · exact hkept _
  · exact htold _ _ (hf.range.view_twice p) (hf.operator.view_twice p)

end Settles

variable {state : State} {s : Session} {files : Files} {report : Report} {result : ReportedTest}
  {results : List ReportedTest} {a : ReportedAssertion} {key : Key} {place : Nat}

theorem rangeOf_of_isLocated (ha : a.isLocated = true) (source : Option (List Char))
    (p q : Option Node) : rangeOf source p a = rangeOf source q a := by
  rw [ReportedAssertion.isLocated] at ha
  split at ha
  next line name hline hname =>
    rw [rangeOf, rangeOf, hline, hname]
    change (if name == "" then _ else _) = if name == "" then _ else _
    rw [beq_eq_false_iff_ne.2 (bne_iff_ne.1 ha)]
    rfl
  next => cases ha

theorem settles_resultNode (heading : Node) (stamp : Int) (source : Option (List Char))
    (index : Nat) (a : ReportedAssertion) :
    Settles fun p => some (resultNode heading stamp source index p a) where
  range := by
    cases ha : a.isLocated with
    | false => exact .inl fun p => rangeOf_of_not_isLocated ha source p
    | true => exact .inr ⟨_, fun p => rangeOf_of_isLocated ha source p none⟩
  operator := .inl fun _ => rfl
  rest := .inr fun p q hrange hoperator => by
    change rangeOf source p a = rangeOf source q a at hrange
    change operatorOf p = operatorOf q at hoperator
    rw [resultNode, resultNode, hrange, hoperator]

/-- The assertion at a place of the heading under a key after a result, stamps apart. -/
def placeAfter (files : Files) (h : Hierarchy) (key : Key) (place : Nat) (p : Option Node)
    (result : ReportedTest) : Option Node :=
  match h.named? result.suite result.name with
  | none => p
  | some heading =>
    if heading.1 = key then
      result.assertions[place]?.map
        (resultNode heading.2 0 (heading.2.file.bind files.text?) place p)
    else p

theorem settles_placeAfter (files : Files) (h : Hierarchy) (key : Key) (place : Nat)
    (result : ReportedTest) : Settles fun p => placeAfter files h key place p result := by
  simp only [placeAfter]
  cases h.named? result.suite result.name with
  | none => exact .id
  | some heading =>
    by_cases hk : heading.1 = key
    · simp only [if_pos hk]
      cases result.assertions[place]? with
      | none => exact .const none
      | some a => exact settles_resultNode ..
    · simp only [if_neg hk]
      exact .id

theorem placeAfter_of_ne {h : Hierarchy} {p : Option Node}
    (hother : (h.named? result.suite result.name).map Prod.fst ≠ some key) :
    placeAfter files h key place p result = p := by
  rw [placeAfter]
  cases hnamed : h.named? result.suite result.name with
  | none => rfl
  | some heading =>
    rw [hnamed, Option.map_some, ne_eq, Option.some.injEq] at hother
    exact if_neg hother

theorem foldl_placeAfter_twice (files : Files) (h : Hierarchy) (key : Key) (place : Nat)
    (results : List ReportedTest) (p : Option Node) :
    results.foldl (placeAfter files h key place)
        (results.foldl (placeAfter files h key place) p) =
      results.foldl (placeAfter files h key place) p :=
  (Settles.foldl (settles_placeAfter files h key place)).twice p

theorem placeAfter_of_index_eq {h h' : Hierarchy} (hindex : h'.index = h.index) :
    placeAfter files h' key place = placeAfter files h key place := by
  funext p result
  rw [placeAfter, placeAfter, Hierarchy.named?_of_index_eq hindex]

theorem bind_range_map_unstamped (p : Option Node) :
    (p.map Node.unstamped).bind Node.range = p.bind Node.range := by
  cases p <;> rfl

theorem operatorOf_map_unstamped (p : Option Node) :
    operatorOf (p.map Node.unstamped) = operatorOf p := by
  cases p with
  | none => rfl
  | some n =>
    have hdata : n.unstamped.data = n.data.map NodeData.unstamped := rfl
    rw [Option.map_some, operatorOf, operatorOf, Option.bind_some, Option.bind_some, hdata]
    cases n.data with
    | none => rfl
    | some data => cases data <;> rfl

theorem rangeOf_map_unstamped (source : Option (List Char)) (p : Option Node)
    (a : ReportedAssertion) : rangeOf source (p.map Node.unstamped) a = rangeOf source p a := by
  rw [rangeOf, rangeOf, bind_range_map_unstamped]

theorem unstamped_resultNode (heading : Node) (stamp : Int) (source : Option (List Char))
    (index : Nat) (p : Option Node) (a : ReportedAssertion) (parent : Option Key) :
    ((resultNode heading stamp source index p a).withParent parent).unstamped =
      resultNode heading 0 source index (p.map Node.unstamped) a := by
  rw [resultNode, resultNode, rangeOf_map_unstamped, operatorOf_map_unstamped]
  rfl

def Sources.AreOf (sources : Sources) (files : Files) : Prop :=
  ∀ path text, sources.lookup path = some text → text = files.text? path

theorem Sources.AreOf.sourceOf {sources : Sources} (h : sources.AreOf files) (path : Option Path) :
    (sourceOf files sources path).1 = path.bind files.text? ∧
      (sourceOf files sources path).2.AreOf files := by
  cases path with
  | none => exact ⟨rfl, h⟩
  | some path =>
    rw [Reconciliation.sourceOf]
    cases hlookup : sources.lookup path with
    | some text => exact ⟨h path text hlookup, h⟩
    | none =>
      refine ⟨rfl, fun p text hp => ?_⟩
      rw [List.lookup_append, Option.or_eq_some_iff] at hp
      rcases hp with hp | ⟨_, hp⟩
      · exact h p text hp
      · rw [Keyed.lookup_cons] at hp
        split at hp
        next he =>
          rw [he]
          exact (Option.some.inj hp).symm
        next => cases hp

/-- What the results of a report that were taken so far have made of a session. -/
structure Settled (files : Files) (s : Session) (results : List ReportedTest) (state : State) :
    Prop where
  holdsFiles : state.session.HoldsFiles
  index : state.session.hierarchy.index = s.hierarchy.index
  sources : state.sources.AreOf files
  place : ∀ key ∈ s.hierarchy.headingKeys, ∀ place,
    (state.session.hierarchy.assertionsAt key)[place]?.map Node.unstamped =
      results.foldl (placeAfter files s.hierarchy key place)
        ((s.hierarchy.assertionsAt key)[place]?.map Node.unstamped)

/-- A result does with the assertions of every heading what it does with each place of them. -/
theorem step_place (hs : state.session.HoldsFiles) (hsources : state.sources.AreOf files)
    (report : Report) (result : ReportedTest) (hkey : key ∈ state.session.hierarchy.headingKeys)
    (place : Nat) :
    ((step files report state result).session.hierarchy.assertionsAt key)[place]?.map
        Node.unstamped =
      placeAfter files state.session.hierarchy key place
        ((state.session.hierarchy.assertionsAt key)[place]?.map Node.unstamped) result := by
  by_cases hk : (state.session.hierarchy.named? result.suite result.name).map Prod.fst = some key
  · obtain ⟨named, hnamed, rfl⟩ := Option.map_eq_some_iff.1 hk
    rw [step_assertionsAt hs hnamed, placeAfter, hnamed, List.getElem?_map, getElem?_resultNodes,
      Nat.zero_add, (hsources.sourceOf _).1, Option.map_map, Option.map_map]
    change _ = if named.1 = named.1 then _ else _
    rw [if_pos rfl]
    congr 1
    funext a
    exact unstamped_resultNode ..
  · rw [step_assertionsAt_of_ne hs hkey hk, placeAfter_of_ne hk]

theorem Sources.AreOf.step (h : state.sources.AreOf files) (report : Report)
    (result : ReportedTest) : (step files report state result).sources.AreOf files := by
  rw [Reconciliation.step]
  cases state.session.headingNamed? result.suite result.name with
  | none => exact h
  | some heading => exact (h.sourceOf heading.content.file).2

theorem Settled.step (h : Settled files s results state) (report : Report)
    (result : ReportedTest) :
    Settled files s (results ++ [result]) (step files report state result) where
  holdsFiles := h.holdsFiles.step files report result
  index := (step_index h.holdsFiles files report result).trans h.index
  sources := h.sources.step report result
  place key hkey place := by
    have hin : key ∈ state.session.hierarchy.headingKeys := by
      rwa [Hierarchy.headingKeys, h.index]
    rw [step_place h.holdsFiles h.sources report result hin, placeAfter_of_index_eq h.index,
      h.place key hkey, List.foldl_append, List.foldl_cons, List.foldl_nil]

theorem settled_foldl (h : s.HoldsFiles) (files : Files) (report : Report) (run : Run)
    (results : List ReportedTest) :
    Settled files s results
      (results.foldl (step files report) { session := s, run, summary := {}, sources := [] }) := by
  induction results using List.reverseRecOn with
  | nil => exact ⟨h, rfl, (fun _ _ hp => nomatch hp), fun _ _ _ => rfl⟩
  | append_singleton results result ih =>
    rw [List.foldl_append]
    exact ih.step report result

end Reconciliation

end SuiteAtlas
