import Mathlib.Data.List.Infix
import SuiteAtlas.Proofs.Json.Writable
import SuiteAtlas.Proofs.Text.Line
import SuiteAtlas.Report.Extract

namespace SuiteAtlas.Report

open Json (HoldsDigits OpensBeyond)

/-- The part of an output from the first opening to the last closing brace. -/
structure IsBraced (output part : List Char) : Prop where
  inside : ∃ before after, output = before ++ part ++ after ∧
    openBrace ∉ before ∧ closeBrace ∉ after
  head : part.head? = some openBrace
  last : part.getLast? = some closeBrace

/-- An output holds a report: its braced part is a value that has the shape of one. -/
def Holds (nesting : Nat) (output : List Char) (value : Json) (report : Report) : Prop :=
  ∃ part, IsBraced output part ∧ Json.read nesting part = .ok value ∧ ofJson value = .ok report

variable {nesting : Nat} {output part : List Char} {value : Json} {report : Report}

theorem IsBraced.isInfix (h : IsBraced output part) : part <:+: output := by
  obtain ⟨before, after, he, _⟩ := h.inside
  exact ⟨before, after, he.symm⟩

theorem head?_dropWhile_bne {text : List Char} {mark : Char}
    (h : text.dropWhile (· != mark) ≠ []) : (text.dropWhile (· != mark)).head? = some mark := by
  have hhead := List.head?_dropWhile_not (· != mark) text
  obtain ⟨c, rest, he⟩ := List.exists_cons_of_ne_nil h
  rw [he] at hhead ⊢
  have hc : c = mark := by simpa using hhead
  rw [hc, List.head?_cons]

theorem dropWhile_bne_append {before text : List Char} {mark : Char} (h : mark ∉ before)
    (hhead : text.head? = some mark) : (before ++ text).dropWhile (· != mark) = text := by
  have hall : ∀ c ∈ before, (c != mark) = true := by
    intro c hc
    rw [bne_iff_ne]
    rintro rfl
    exact h hc
  rw [List.dropWhile_append_of_pos hall]
  cases text with
  | nil => rfl
  | cons c rest =>
    cases hhead
    exact List.dropWhile_cons_of_neg (by simp)

theorem isBraced_of_braced? (h : braced? output = some part) : IsBraced output part := by
  rw [braced?] at h
  split at h
  · cases h
  next hne =>
    cases h
    rw [List.isEmpty_iff] at hne
    have hbefore := List.takeWhile_append_dropWhile (p := (· != openBrace)) (l := output)
    have hfrom := Text.dropEndWhile_append_takeEndWhile (· != closeBrace)
      (output.dropWhile (· != openBrace))
    constructor
    · refine ⟨output.takeWhile (· != openBrace),
        Text.takeEndWhile (· != closeBrace) (output.dropWhile (· != openBrace)), ?_, ?_, ?_⟩
      · rw [List.append_assoc, hfrom, hbefore]
      · intro hmem
        simpa using List.mem_takeWhile_imp hmem
      · intro hmem
        simpa using List.mem_takeWhile_imp (List.mem_reverse.1 hmem)
    · -- the part is a start of what follows the text before it
      have hhead : (output.dropWhile (· != openBrace)).head? = some openBrace :=
        head?_dropWhile_bne fun he => hne (by rw [he]; rfl)
      rwa [← hfrom, List.head?_append_of_ne_nil _ hne] at hhead
    · rw [Text.dropEndWhile, List.reverse_eq_nil_iff] at hne
      rw [Text.dropEndWhile, List.getLast?_reverse]
      exact head?_dropWhile_bne hne

theorem braced?_eq_some_iff : braced? output = some part ↔ IsBraced output part := by
  constructor
  · exact isBraced_of_braced?
  intro h
  obtain ⟨before, after, rfl, hbefore, hafter⟩ := h.inside
  have hne : part ≠ [] := by
    rintro rfl
    cases h.head
  have hhead : (part ++ after).head? = some openBrace := by
    rw [List.head?_append_of_ne_nil _ hne, h.head]
  have hlast : (part.reverse).head? = some closeBrace := by
    rw [List.head?_reverse, h.last]
  have hpart : Text.dropEndWhile (· != closeBrace) (part ++ after) = part := by
    rw [Text.dropEndWhile, List.reverse_append,
      dropWhile_bne_append (fun hmem => hafter (List.mem_reverse.1 hmem)) hlast,
      List.reverse_reverse]
  rw [braced?, List.append_assoc, dropWhile_bne_append hbefore hhead]
  rw [hpart, if_neg (by rwa [List.isEmpty_iff])]

theorem load_eq_ok_iff :
    load nesting output = .ok (value, report) ↔ Holds nesting output value report := by
  simp only [Holds, ← braced?_eq_some_iff]
  rw [load]
  constructor
  · intro h
    split at h
    · cases h
    next part hpart =>
      split at h
      · cases h
      · cases h
      · cases h
      next hread =>
        split at h
        · cases h
        next hshape =>
          cases h
          exact ⟨part, hpart, hread, hshape⟩
  · rintro ⟨part, hpart, hread, hshape⟩
    simp only [hpart, hread, hshape]

theorem holdsDigits_of_load {count : Nat}
    (h : load nesting output = .error (.tooManyDigits count)) : HoldsDigits output count := by
  rw [load] at h
  split at h
  · cases h
  next part hpart =>
    split at h
    · cases h
    next hread =>
      cases h
      exact (Json.holdsDigits_of_read hread).mono (braced?_eq_some_iff.1 hpart).isInfix
    · cases h
    next =>
      split at h <;> cases h

theorem opensBeyond_of_load {container : Json.Container}
    (h : load nesting output = .error (.tooDeep container)) :
    ∃ part, IsBraced output part ∧ OpensBeyond nesting part := by
  rw [load] at h
  split at h
  · cases h
  next part hpart =>
    split at h
    · cases h
    · cases h
    next hread =>
      cases h
      exact ⟨part, braced?_eq_some_iff.1 hpart, Json.opensBeyond_of_read hread⟩
    next =>
      split at h <;> cases h

theorem load_ne_unwritable (error : Json.WriteError) :
    load nesting output ≠ .error (.unwritable error) := by
  rw [load]
  split
  · rintro ⟨⟩
  · split
    · rintro ⟨⟩
    · rintro ⟨⟩
    · rintro ⟨⟩
    · split <;> rintro ⟨⟩

theorem echo?_of_isWritable (h : value.IsWritable nesting) :
    echo? nesting value = .ok (echo value) := by
  rw [echo?, Json.toBlock, h]
  rfl

theorem echo?_of_load (h : load nesting output = .ok (value, report)) :
    echo? nesting value = .ok (echo value) := by
  obtain ⟨part, _, hread, _⟩ := load_eq_ok_iff.1 h
  exact echo?_of_isWritable (Json.isWritable_of_read hread)

end SuiteAtlas.Report
