import Mathlib.Data.List.Nodup
import SuiteAtlas.Proofs.Text.Line
import SuiteAtlas.Source.Tags

namespace SuiteAtlas.Source

variable {payload : Option (List Char)}

theorem nodup_eraseDups {α : Type} [BEq α] [LawfulBEq α] (l : List α) : l.eraseDups.Nodup := by
  induction hn : l.length using Nat.strongRecOn generalizing l with
  | ind n ih =>
    cases l with
    | nil => exact List.nodup_nil
    | cons a l =>
      have hlt : (l.filter fun b => !b == a).length < n := by
        rw [← hn, List.length_cons]
        exact Nat.lt_succ_of_le (List.length_filter_le _ l)
      rw [List.eraseDups_cons, List.nodup_cons]
      refine ⟨fun ha => ?_, ih _ hlt _ rfl⟩
      have hfilter := (List.mem_filter.1 (List.mem_eraseDups.1 ha)).2
      simp at hfilter

theorem tagsOf_ne_nil (payload : Option (List Char)) : tagsOf payload ≠ [] := by
  rw [tagsOf]
  split <;> simp

theorem nodup_tagsOf (payload : Option (List Char)) : (tagsOf payload).Nodup := by
  rw [tagsOf]
  split
  next tag tags h =>
    obtain ⟨list, _, hlist⟩ := Option.map_eq_some_iff.1 h
    rw [← hlist]
    exact nodup_eraseDups _
  next => exact List.nodup_singleton _

theorem eraseDups_eq_self {α : Type} [BEq α] [LawfulBEq α] {l : List α} (h : l.Nodup) :
    l.eraseDups = l := by
  induction l with
  | nil => rfl
  | cons a l ih =>
    obtain ⟨ha, hl⟩ := List.nodup_cons.1 h
    have hfilter : (l.filter fun b => !b == a) = l := by
      rw [List.filter_eq_self]
      intro b hb
      rw [Bool.not_eq_true', beq_eq_false_iff_ne]
      rintro rfl
      exact ha hb
    rw [List.eraseDups_cons, hfilter, ih hl]

theorem cons_blank_intercalate {tags : List (List Char)} (h : tags ≠ []) :
    ' ' :: ", ".toList.intercalate tags = [','].intercalate (tags.map (' ' :: ·)) := by
  induction tags with
  | nil => exact absurd rfl h
  | cons tag tags ih =>
    cases tags with
    | nil => rfl
    | cons next tags =>
      have hnext := ih (List.cons_ne_nil _ _)
      rw [List.map_cons, List.map_cons, List.intercalate_cons_cons, List.intercalate_cons_cons,
        ← List.map_cons, ← hnext]
      simp only [List.append_assoc]
      rfl

/-- Tags that are written one behind the other are the tags that are listed. -/
theorem listedTags_intercalate {tags : List (List Char)} (hne : tags ≠ []) (hnodup : tags.Nodup)
    (htag : ∀ tag ∈ tags, tag ≠ [] ∧ Text.trim tag = tag ∧ ',' ∉ tag) :
    listedTags (' ' :: ", ".toList.intercalate tags) = tags.map String.ofList := by
  have hcomma : ∀ tag ∈ tags.map (' ' :: ·), ',' ∉ tag := by
    intro entry hentry
    obtain ⟨tag, hmem, rfl⟩ := List.mem_map.1 hentry
    exact List.not_mem_cons_of_ne_of_not_mem (by decide) (htag tag hmem).2.2
  have htrim : (tags.map (' ' :: ·)).map Text.trim = tags := by
    rw [List.map_map, List.map_congr_left (g := id), List.map_id]
    intro tag hmem
    exact (Text.trim_cons_blank tag).trans (htag tag hmem).2.1
  have hfilter : (tags.filter fun tag => !tag.isEmpty) = tags := by
    rw [List.filter_eq_self]
    intro tag hmem
    rw [Bool.not_eq_true', List.isEmpty_eq_false_iff]
    exact (htag tag hmem).1
  have hwords : (tags.map String.ofList).Nodup :=
    hnodup.map fun _ _ he => String.ofList_injective he
  rw [listedTags, cons_blank_intercalate hne,
    List.splitOn_intercalate ',' hcomma (by simp [hne]), htrim, hfilter, eraseDups_eq_self hwords]

end SuiteAtlas.Source
