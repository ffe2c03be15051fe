import SuiteAtlas.Proofs.Json.RoundTrip
import SuiteAtlas.Proofs.Report.Extract
import SuiteAtlas.Reconciliation

namespace SuiteAtlas

namespace Report

/-- An output decodes to the value that is read from its braced part. All that a reconciliation
takes from an output is this value. -/
def DecodesTo (nesting : Nat) (output : List Char) (value : Json) : Prop :=
  ∃ part, IsBraced output part ∧ Json.read nesting part = .ok value

variable {nesting reading writing : Nat} {output other part before after : List Char}
  {value : Json} {report : Report} {fields : List (String × Json)} {faults : Nat}
  {container : Json.Container}

namespace DecodesTo

theorem load_eq_ok (h : DecodesTo nesting output value) (hshape : ofJson value = .ok report) :
    load nesting output = .ok (value, report) := by
  obtain ⟨part, hpart, hread⟩ := h
  exact load_eq_ok_iff.2 ⟨part, hpart, hread, hshape⟩

theorem load_eq_error (h : DecodesTo nesting output value)
    (hshape : ofJson value = .error faults) :
    load nesting output = .error (.unusable (.badShape faults)) := by
  obtain ⟨part, hpart, hread⟩ := h
  simp only [load, braced?_eq_some_iff.2 hpart, hread, hshape]

theorem load_eq (h : DecodesTo nesting output value) (hother : DecodesTo nesting other value) :
    load nesting output = load nesting other := by
  cases hshape : ofJson value with
  | ok report => rw [h.load_eq_ok hshape, hother.load_eq_ok hshape]
  | error faults => rw [h.load_eq_error hshape, hother.load_eq_error hshape]

theorem exists_reconcile (h : DecodesTo nesting output value) (session : Session) (files : Files)
    (run : Run) : ∃ outcome, session.reconcile nesting files output run = .ok outcome := by
  rw [Session.reconcile]
  cases hshape : ofJson value with
  | ok report =>
    have hload := h.load_eq_ok hshape
    simp only [hload, echo?_of_load hload]
    exact ⟨_, rfl⟩
  | error faults =>
    rw [h.load_eq_error hshape]
    exact ⟨_, rfl⟩

end DecodesTo

theorem load_eq_tooDeep (hpart : IsBraced output part)
    (hread : Json.read nesting part = .error (.tooDeep container)) :
    load nesting output = .error (.tooDeep container) := by
  simp only [load, braced?_eq_some_iff.2 hpart, hread]

theorem extract_ofList (output : List Char) :
    extract nesting (String.ofList output) = (load nesting output).map Prod.snd := by
  rw [extract, String.toList_ofList]

theorem toList_echo (value : Json) :
    (echo value).toList = ('\n' :: header.toList ++ ['\n']) ++ value.block 0 ++ ['\n'] := by
  rw [echo, framed]
  simp only [String.toList_append, toString, String.toList_ofList, List.append_assoc]
  rfl

/-- An echo holds no opening brace in front of the one that its block starts with, and no closing
brace behind the last one of the block. -/
theorem isBraced_echo (fields : List (String × Json)) (hbefore : openBrace ∉ before)
    (hafter : closeBrace ∉ after) :
    IsBraced (before ++ (echo (.object fields)).toList ++ after)
      ((Json.object fields).block 0) := by
  have hheader : openBrace ∉ '\n' :: header.toList ++ ['\n'] := by decide
  refine ⟨⟨before ++ ('\n' :: header.toList ++ ['\n']), '\n' :: after, ?_, ?_, ?_⟩, ?_, ?_⟩
  · rw [toList_echo]
    simp only [List.append_assoc]
    rfl
  · rw [List.mem_append, not_or]
    exact ⟨hbefore, hheader⟩
  · rw [List.mem_cons, not_or]
    exact ⟨by decide, hafter⟩
  · cases fields <;> rfl
  · cases fields with
    | nil => rfl
    | cons field fields =>
      rw [Json.block]
      exact List.getLast?_concat

theorem echo?_of_isPlain (hplain : value.isPlain Text.integerDigitLimit = true)
    (nesting : Nat) : echo? nesting value =
      if value.depth ≤ nesting then .ok (echo value) else .error (.unwritable .tooDeep) := by
  rw [echo?, Json.toBlock, Json.writeError?_of_isPlain hplain]
  by_cases h : value.depth ≤ nesting
  · rw [if_pos h, if_pos h]
    rfl
  · rw [if_neg h, if_neg h]

theorem decodesTo_echo (hplain : (Json.object fields).isPlain Text.integerDigitLimit = true)
    (hdepth : (Json.object fields).depth ≤ nesting) (hbefore : openBrace ∉ before)
    (hafter : closeBrace ∉ after) :
    DecodesTo nesting (before ++ (echo (.object fields)).toList ++ after) (.object fields) :=
  ⟨_, isBraced_echo fields hbefore hafter, Json.read_block hplain hdepth⟩

theorem exists_load_echo_eq_tooDeep
    (hplain : (Json.object fields).isPlain Text.integerDigitLimit = true)
    (hdepth : nesting < (Json.object fields).depth) (hbefore : openBrace ∉ before)
    (hafter : closeBrace ∉ after) : ∃ container,
      load nesting (before ++ (echo (.object fields)).toList ++ after) =
        .error (.tooDeep container) := by
  obtain ⟨container, hread⟩ := Json.exists_read_block_of_lt_depth hplain hdepth
  exact ⟨container, load_eq_tooDeep (isBraced_echo fields hbefore hafter) hread⟩

/-- A value whose texts are full of braces, quotation marks and control characters. -/
def bracesFields : List (String × Json) :=
  [("\x7d\"\x7b\\", .array [.null, .int (-120), .object [], .array []]),
    ("testResults", .array [.object [("suite", .string "T"), ("name", .string "\n\x7d\x01\x7b")]])]

def nestedLists : Nat → Json
  | 0 => .array []
  | n + 1 => .array [nestedLists n]

theorem isPlain_nestedLists (n limit : Nat) : (nestedLists n).isPlain limit = true := by
  induction n with
  | zero => rfl
  | succ n ih => rw [nestedLists, Json.isPlain, Json.itemsPlain, ih]; rfl

theorem depth_nestedLists (n : Nat) : (nestedLists n).depth = n + 1 := by
  induction n with
  | zero => rfl
  | succ n ih => rw [nestedLists, Json.depth, Json.itemsDepth, ih]; rfl

end Report

end SuiteAtlas
