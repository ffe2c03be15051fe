import Std.Data.String.ToInt
import SuiteAtlas.Reconciliation

namespace SuiteAtlas.Address

variable {root parent name other tail a b : String}

def below (parent tail : String) : String :=
  parent ++ "/" ++ tail

/-- A name that makes one step of an id, and is no number. -/
structure IsStep (name : String) : Prop where
  slash_notMem : '/' ∉ name.toList
  exists_not_isDigit : ∃ c ∈ name.toList, c.isDigit = false

theorem IsStep.ne_empty {name : String} (h : IsStep name) : name ≠ "" := by
  rintro rfl
  obtain ⟨c, hc, _⟩ := h.exists_not_isDigit
  exact absurd hc (by simp)

theorem toList_below (parent tail : String) :
    (below parent tail).toList = parent.toList ++ '/' :: tail.toList := by
  rw [below, String.toList_append, String.toList_append, List.append_assoc]
  rfl

theorem below_inj : below parent a = below parent b ↔ a = b := by
  refine ⟨fun h => ?_, fun h => h ▸ rfl⟩
  have hl := congrArg String.toList h
  rw [toList_below, toList_below, List.append_cancel_left_eq, List.cons.injEq] at hl
  exact String.toList_inj.1 hl.2

theorem length_below (parent tail : String) :
    (below parent tail).length = parent.length + 1 + tail.length := by
  rw [← String.length_toList, toList_below, List.length_append, List.length_cons,
    String.length_toList, String.length_toList]
  omega

theorem below_ne_self (parent tail : String) : below parent tail ≠ parent := by
  intro h
  have hl := congrArg String.length h
  rw [length_below] at hl
  omega

theorem below_below_ne_self (root name tail : String) : below (below root name) tail ≠ root := by
  intro h
  have hl := congrArg String.length h
  rw [length_below, length_below] at hl
  omega

theorem append_cons_inj {c : Char} {x y rest rest' : List Char} (hx : c ∉ x) (hy : c ∉ y)
    (h : x ++ c :: rest = y ++ c :: rest') : x = y ∧ rest = rest' := by
  induction x generalizing y with
  | nil =>
    cases y with
    | nil => exact ⟨rfl, (List.cons.inj h).2⟩
    | cons d y => exact absurd (by simp [(List.cons.inj h).1]) hy
  | cons d x ih =>
    cases y with
    | nil => exact absurd (by simp [(List.cons.inj h).1]) hx
    | cons e y =>
      obtain ⟨rfl, ht⟩ := List.cons.inj h
      obtain ⟨rfl, hr⟩ := ih (fun hm => hx (List.mem_cons_of_mem _ hm))
        (fun hm => hy (List.mem_cons_of_mem _ hm)) ht
      exact ⟨rfl, hr⟩

theorem below_below_inj (hname : IsStep name) (hother : IsStep other)
    (h : below (below root name) a = below (below root other) b) : name = other ∧ a = b := by
  have hl := congrArg String.toList h
  simp only [toList_below, List.append_assoc, List.append_cancel_left_eq, List.cons_append,
    List.cons.injEq, true_and] at hl
  obtain ⟨hn, ht⟩ := append_cons_inj hname.slash_notMem hother.slash_notMem hl
  exact ⟨String.toList_inj.1 hn, String.toList_inj.1 ht⟩

theorem below_inj_of_slash_notMem (ha : '/' ∉ a.toList) (hb : '/' ∉ b.toList)
    (h : below parent a = below root b) : parent = root ∧ a = b := by
  have hl := congrArg (fun s : String => s.toList.reverse) h
  simp only [toList_below, List.reverse_append, List.reverse_cons, List.append_assoc,
    List.singleton_append] at hl
  obtain ⟨hlast, habove⟩ := append_cons_inj (by simpa using ha) (by simpa using hb) hl
  exact ⟨String.toList_inj.1 (List.reverse_inj.1 habove),
    String.toList_inj.1 (List.reverse_inj.1 hlast)⟩

/-- No step is something below another one. -/
theorem below_ne_below_below (hname : IsStep name) :
    below root name ≠ below (below root other) a := by
  intro h
  have hl := congrArg String.toList h
  simp only [toList_below, List.append_assoc, List.append_cancel_left_eq, List.cons_append,
    List.cons.injEq, true_and] at hl
  apply hname.slash_notMem
  rw [hl]
  simp

def positionText (p : Source.Position) : String :=
  toString p.line ++ ":" ++ toString p.column

def resultText (index : Nat) : String :=
  "result/" ++ toString index

theorem resultText_inj {i j : Nat} : resultText i = resultText j ↔ i = j := by
  refine ⟨fun h => ?_, fun h => h ▸ rfl⟩
  have hl := congrArg String.toList h
  simp only [resultText, String.toList_append, List.append_cancel_left_eq] at hl
  exact Nat.repr_inj.1 (String.toList_inj.1 hl)

theorem isDigit_of_mem_repr {m : Nat} {c : Char} (h : c ∈ m.repr.toList) : c.isDigit = true := by
  rw [Nat.toList_repr] at h
  exact Nat.isDigit_of_mem_toDigits (by decide) (by decide) h

theorem slash_notMem_repr (m : Nat) : '/' ∉ m.repr.toList :=
  fun h => absurd (isDigit_of_mem_repr h) (by decide)

theorem below_resultText (parent : String) (index : Nat) :
    below parent (resultText index) = below (below parent "result") index.repr := by
  simp only [below, resultText, String.append_assoc]
  rfl

theorem below_ne_below_resultText (hname : IsStep name) (parent : String) (index : Nat) :
    below root name ≠ below parent (resultText index) := by
  rw [below_resultText]
  intro h
  obtain ⟨c, hc, hdigit⟩ := hname.exists_not_isDigit
  rw [(below_inj_of_slash_notMem hname.slash_notMem (slash_notMem_repr index) h).2] at hc
  rw [isDigit_of_mem_repr hc] at hdigit
  cases hdigit

theorem below_resultText_inj {i j : Nat}
    (h : below parent (resultText i) = below root (resultText j)) :
    parent = root ∧ i = j := by
  rw [below_resultText, below_resultText] at h
  obtain ⟨habove, hlast⟩ :=
    below_inj_of_slash_notMem (slash_notMem_repr i) (slash_notMem_repr j) h
  exact ⟨(below_inj_of_slash_notMem (by decide) (by decide) habove).1, Nat.repr_inj.1 hlast⟩

theorem colon_notMem_toString (n : Int) : ':' ∉ (toString n).toList := by
  have hnat (m : Nat) : ':' ∉ m.repr.toList :=
    fun h => absurd (isDigit_of_mem_repr h) (by decide)
  cases n with
  | ofNat m => exact hnat m
  | negSucc m =>
    change ':' ∉ ("-" ++ (m + 1).repr).toList
    rw [String.toList_append, List.mem_append, not_or]
    exact ⟨by decide, hnat _⟩

theorem positionText_inj {p q : Source.Position} : positionText p = positionText q ↔ p = q := by
  refine ⟨fun h => ?_, fun h => h ▸ rfl⟩
  have hl := congrArg String.toList h
  simp only [positionText, String.toList_append, List.append_assoc] at hl
  obtain ⟨hline, hcolumn⟩ :=
    append_cons_inj (colon_notMem_toString p.line) (colon_notMem_toString q.line) hl
  have hl := Int.repr_inj.1 (String.toList_inj.1 hline)
  have hc := Int.repr_inj.1 (String.toList_inj.1 hcolumn)
  cases p
  cases q
  exact Source.Position.mk.injEq .. ▸ ⟨hl, hc⟩

theorem assertionId_eq (parent : String) (a : Source.Assertion) :
    Site.assertionId parent a = below parent (positionText a.range.start) := by
  simp only [Site.assertionId, below, positionText, String.append_assoc]
  rfl

end SuiteAtlas.Address
