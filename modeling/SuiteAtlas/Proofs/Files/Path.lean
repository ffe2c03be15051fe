import SuiteAtlas.Path
import SuiteAtlas.Proofs.Text.Line

namespace SuiteAtlas.Path

variable {path folder : Path} {part : String} {parts : List String}

structure IsPart (part : String) : Prop where
  ne_empty : part ≠ ""
  ne_dot : part ≠ "."
  slash_notMem : '/' ∉ part.toList

def IsProper (path : Path) : Prop :=
  ∀ part ∈ path.parts, IsPart part

/-- A proper path from the root of all files on. -/
structure IsFull (path : Path) : Prop where
  anchor : path.anchor = "/"
  isProper : path.IsProper

theorem isPart_of_mem_partsOf {text : List Char} (h : part ∈ partsOf text) : IsPart part := by
  obtain ⟨hpart, hne⟩ := List.mem_filter.1 h
  obtain ⟨piece, hpiece, rfl⟩ := List.mem_map.1 hpart
  rw [Bool.and_eq_true, bne_iff_ne, bne_iff_ne] at hne
  refine ⟨hne.1, hne.2, ?_⟩
  rw [String.toList_ofList]
  exact Text.notMem_of_mem_splitOn hpiece

theorem isProper_ofString (text : String) : (ofString text).IsProper :=
  fun _ => isPart_of_mem_partsOf

theorem IsProper.join (hfolder : folder.IsProper) (hpath : path.IsProper) :
    (folder.join path).IsProper := by
  rw [Path.join]
  split
  · exact hpath
  · intro part hpart
    exact (List.mem_append.1 hpart).elim (hfolder part) (hpath part)

theorem IsProper.child (hfolder : folder.IsProper) (hpart : IsPart part) :
    (folder.child part).IsProper := by
  intro other hother
  rcases List.mem_append.1 hother with h | h
  · exact hfolder other h
  · rwa [List.mem_singleton.1 h]

theorem mem_of_mem_normalParts (h : part ∈ normalParts parts) : part ∈ parts := by
  have hfold (done rest : List String) (hmem : part ∈ rest.foldl
      (fun done part => if part == ".." then done.dropLast else done ++ [part]) done) :
      part ∈ done ∨ part ∈ rest := by
    induction rest generalizing done with
    | nil => exact .inl hmem
    | cons next rest ih =>
      rcases ih _ hmem with hdone | hrest
      · dsimp only at hdone
        split at hdone
        · exact .inl ((List.dropLast_sublist done).subset hdone)
        · rcases List.mem_append.1 hdone with hdone | hnext
          · exact .inl hdone
          · exact .inr (List.mem_cons.2 (.inl (List.mem_singleton.1 hnext)))
      · exact .inr (List.mem_cons_of_mem _ hrest)
  rcases hfold [] parts h with hnil | hmem
  · exact absurd hnil List.not_mem_nil
  · exact hmem

theorem IsProper.resolve (hfolder : folder.IsProper) (hpath : path.IsProper) :
    (Path.resolve folder path).IsFull :=
  ⟨rfl, fun part hpart => hfolder.join hpath part (mem_of_mem_normalParts hpart)⟩

theorem IsFull.toString_eq (h : path.IsFull) :
    path.toString = "/" ++ "/".intercalate path.parts := by
  rw [Path.toString, h.anchor]
  rfl

theorem IsFull.splitOn_toString (h : path.IsFull) (hne : path.parts ≠ []) :
    (path.toString.toList.drop 1).splitOn '/' = path.parts.map String.toList := by
  rw [h.toString_eq, String.toList_append, String.toList_intercalate]
  apply List.splitOn_intercalate '/'
  · intro chars hchars
    obtain ⟨part, hpart, rfl⟩ := List.mem_map.1 hchars
    exact (h.isProper part hpart).slash_notMem
  · rwa [ne_eq, List.map_eq_nil_iff]

theorem IsFull.toString_ne_root (h : path.IsFull) (hne : path.parts ≠ []) :
    path.toString ≠ "/" := by
  intro he
  have hsplit := h.splitOn_toString hne
  rw [he] at hsplit
  obtain ⟨part, rest, hparts⟩ := List.exists_cons_of_ne_nil hne
  rw [hparts, List.map_cons] at hsplit
  have hempty : part.toList = [] := (List.cons.inj hsplit).1.symm
  apply (h.isProper part (hparts ▸ List.mem_cons_self)).ne_empty
  rw [← String.ofList_toList (s := part), hempty]

theorem IsFull.toString_inj {other : Path} (h : path.IsFull) (hother : other.IsFull)
    (he : path.toString = other.toString) : path = other := by
  have hparts : path.parts = other.parts := by
    by_cases hp : path.parts = []
    · by_cases ho : other.parts = []
      · rw [hp, ho]
      · refine absurd ?_ (hother.toString_ne_root ho)
        rw [← he, h.toString_eq, hp]
        rfl
    · by_cases ho : other.parts = []
      · refine absurd ?_ (h.toString_ne_root hp)
        rw [he, hother.toString_eq, ho]
        rfl
      · have hsplit := h.splitOn_toString hp
        rw [he, hother.splitOn_toString ho] at hsplit
        exact (List.map_inj_right fun _ _ => String.toList_inj.1).1 hsplit.symm
  cases path
  cases other
  rw [mk.injEq]
  exact ⟨h.anchor.trans hother.anchor.symm, hparts⟩

end SuiteAtlas.Path
