import Mathlib.Data.List.Induction
import Mathlib.Data.List.Nodup

namespace SuiteAtlas

variable {α β γ : Type} [BEq β] {f : α → β} {as : List α} {a : α} {b : β}

/-- The things in a list whose value no earlier one has. -/
def firsts (f : α → β) (as : List α) : List α :=
  as.foldl (fun kept a => if kept.any fun k => f k == f a then kept else kept ++ [a]) []

theorem firsts_append_singleton (f : α → β) (as : List α) (a : α) :
    firsts f (as ++ [a]) =
      if (firsts f as).any fun k => f k == f a then firsts f as else firsts f as ++ [a] := by
  rw [firsts, List.foldl_append]
  rfl

theorem firsts_sublist (f : α → β) (as : List α) : (firsts f as).Sublist as := by
  induction as using List.reverseRecOn with
  | nil => exact List.Sublist.refl _
  | append_singleton as a ih =>
    rw [firsts_append_singleton]
    split
    · exact ih.trans (List.sublist_append_left _ _)
    · exact ih.append_right [a]

variable [LawfulBEq β]

theorem any_beq_iff_mem_map : (as.any fun k => f k == b) = true ↔ b ∈ as.map f := by
  rw [List.any_eq_true, List.mem_map]
  simp only [beq_iff_eq]

theorem mem_map_firsts : b ∈ (firsts f as).map f ↔ b ∈ as.map f := by
  induction as using List.reverseRecOn with
  | nil => rfl
  | append_singleton as a ih =>
    rw [firsts_append_singleton, List.map_append, List.mem_append, ← ih, List.map_singleton,
      List.mem_singleton]
    split
    next h =>
      rw [any_beq_iff_mem_map] at h
      exact ⟨.inl, fun hb => hb.elim id fun he => he ▸ h⟩
    next => rw [List.map_append, List.mem_append, List.map_singleton, List.mem_singleton]

theorem firsts_append_of_mem (h : f a ∈ as.map f) : firsts f (as ++ [a]) = firsts f as := by
  rw [firsts_append_singleton, if_pos (any_beq_iff_mem_map.2 (mem_map_firsts.2 h))]

theorem firsts_append_of_notMem (h : f a ∉ as.map f) :
    firsts f (as ++ [a]) = firsts f as ++ [a] := by
  rw [firsts_append_singleton, if_neg fun he => h (mem_map_firsts.1 (any_beq_iff_mem_map.1 he))]

theorem firsts_eq_nil_iff : firsts f as = [] ↔ as = [] := by
  rw [← List.map_eq_nil_iff (f := f), ← List.map_eq_nil_iff (f := f) (l := as),
    List.eq_nil_iff_forall_not_mem, List.eq_nil_iff_forall_not_mem]
  simp only [mem_map_firsts]

theorem firsts_eq_self (h : (as.map f).Nodup) : firsts f as = as := by
  induction as using List.reverseRecOn with
  | nil => rfl
  | append_singleton as a ih =>
    rw [List.map_append, List.map_singleton, List.nodup_append] at h
    obtain ⟨hold, _, hnew⟩ := h
    have hlast : f a ∉ as.map f := fun hmem => hnew _ hmem _ (List.mem_singleton_self _) rfl
    rw [firsts_append_of_notMem hlast, ih hold]

theorem nodup_map_firsts (f : α → β) (as : List α) : ((firsts f as).map f).Nodup := by
  induction as using List.reverseRecOn with
  | nil => exact List.nodup_nil
  | append_singleton as a ih =>
    by_cases h : f a ∈ as.map f
    · rwa [firsts_append_of_mem h]
    · rw [firsts_append_of_notMem h, List.map_append, List.map_singleton, List.nodup_append]
      refine ⟨ih, List.nodup_singleton _, ?_⟩
      rintro x hx y hy rfl
      exact h (mem_map_firsts.1 (List.mem_singleton.1 hy ▸ hx))

theorem map_firsts (f : γ → β) (g : α → γ) (as : List α) :
    (firsts (f ∘ g) as).map g = firsts f (as.map g) := by
  induction as using List.reverseRecOn with
  | nil => rfl
  | append_singleton as a ih =>
    rw [List.map_append, List.map_singleton]
    by_cases h : f (g a) ∈ (as.map g).map f
    · rw [firsts_append_of_mem h, firsts_append_of_mem (by rwa [List.map_map] at h), ih]
    · rw [firsts_append_of_notMem h, firsts_append_of_notMem (by rwa [List.map_map] at h),
        List.map_append, ih, List.map_singleton]

/-- What is kept is what is found first under its own value. -/
theorem firsts_eq_filter [DecidableEq γ] {g : α → γ} (hn : (as.map g).Nodup) :
    firsts f as = as.filter fun a => (as.find? fun k => f k == f a).map g == some (g a) := by
  induction as using List.reverseRecOn with
  | nil => rfl
  | append_singleton as a ih =>
    rw [List.map_append, List.map_singleton, List.nodup_append] at hn
    obtain ⟨hold, _, hnew⟩ := hn
    have hsame {b : α} (hb : b ∈ as) {c : β} (hc : f b = c) :
        ((as ++ [a]).find? fun k => f k == c) = as.find? fun k => f k == c := by
      rw [List.find?_append, Option.or_of_isSome]
      exact List.find?_isSome.2 ⟨b, hb, beq_iff_eq.2 hc⟩
    have hbefore : as.filter (fun b =>
        ((as ++ [a]).find? fun k => f k == f b).map g == some (g b)) = firsts f as := by
      rw [ih hold]
      apply List.filter_congr
      intro b hb
      rw [hsame hb rfl]
    rw [List.filter_append, hbefore]
    by_cases h : f a ∈ as.map f
    · -- an earlier thing has the value of the last one, and is found in its place
      obtain ⟨b, hb, he⟩ := List.mem_map.1 h
      rw [firsts_append_of_mem h, List.filter_cons_of_neg, List.filter_nil, List.append_nil]
      rw [hsame hb he, beq_iff_eq, Option.map_eq_some_iff]
      rintro ⟨c, hc, hca⟩
      exact hnew _ (List.mem_map_of_mem (List.mem_of_find?_eq_some hc)) _
        (List.mem_singleton_self _) hca
    · have hnone : (as.find? fun k => f k == f a) = none := by
        rw [List.find?_eq_none]
        intro b hb he
        exact h (List.mem_map.2 ⟨b, hb, beq_iff_eq.1 he⟩)
      have hlast : ([a].find? fun k => f k == f a) = some a :=
        List.find?_cons_of_pos (p := fun k => f k == f a) (beq_self_eq_true (f a))
      rw [firsts_append_of_notMem h, List.filter_cons_of_pos, List.filter_nil]
      rw [List.find?_append, hnone, Option.none_or, hlast, Option.map_some, beq_self_eq_true]

end SuiteAtlas
