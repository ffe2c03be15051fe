import SuiteAtlas.Proofs.Source.Arguments
import SuiteAtlas.Proofs.Text.Line
import SuiteAtlas.Source.Event
import SuiteAtlas.Source.Written

namespace SuiteAtlas.Source

open Text (trim)

variable {x : List Char}

/-- A text that is one argument, and what is behind it starts anew. -/
def IsArgument (x : List Char) : Prop :=
  splitFrom false 0 (x ++ [')']) = some ⟨x, [], []⟩

theorem isArgument_of_argumentsAt
    (h : (argumentsAt ('(' :: x ++ [')']) 0).map Prod.fst = some [x]) : IsArgument x := by
  have hbody : ('(' :: x ++ [')']).drop (0 + 1 : Int).toNat = x ++ [')'] := rfl
  rw [argumentsAt, if_neg (by omega), if_neg (by omega), hbody, Option.map_map] at h
  obtain ⟨⟨first, others, rest⟩, hclosed, he⟩ := Option.map_eq_some_iff.1 h
  obtain ⟨rfl, rfl⟩ := List.cons.inj (show first :: others = [x] from he)
  have hwritten := splitFrom_written hclosed
  rw [Closed.written, List.flatMap_nil, List.append_nil, List.append_cancel_left_eq] at hwritten
  obtain rfl := (List.cons.inj hwritten).2
  exact hclosed

theorem IsArgument.splitFrom_append (h : IsArgument x) (tail : List Char) :
    splitFrom false 0 (x ++ tail) = (splitFrom false 0 tail).map (.prepend x) :=
  Source.splitFrom_append tail h

theorem IsArgument.splitFrom_next (h : IsArgument x) {tail : List Char} {closed : Closed}
    (htail : splitFrom false 0 tail = some closed) :
    splitFrom false 0 (x ++ ';' :: ' ' :: tail) =
      some ⟨x, (' ' :: closed.first) :: closed.others, closed.rest⟩ := by
  have hblank : splitFrom false 0 (' ' :: tail) = some (closed.prepend [' ']) := by
    rw [splitFrom_plain, htail]
    rfl
  have hnext : splitFrom false 0 (';' :: ' ' :: tail) = some (closed.prepend [' ']).separate := by
    rw [splitFrom_plain, hblank]
    rfl
  rw [h.splitFrom_append, hnext, Option.map_some]
  simp only [Closed.prepend, Closed.separate, List.append_nil, List.cons_append, List.nil_append]

def escaped (message : List Char) : List Char :=
  message.flatMap fun c => if c = '"' || c = '\\' then ['\\', c] else [c]

theorem quoteMessage_eq (message : List Char) :
    quoteMessage message = '"' :: escaped message ++ ['"'] := rfl

theorem escaped_cons (c : Char) (message : List Char) :
    escaped (c :: message) =
      (if c = '"' ∨ c = '\\' then ['\\', c] else [c]) ++ escaped message := by
  rw [escaped, List.flatMap_cons, escaped]
  simp only [Bool.or_eq_true, decide_eq_true_eq]

/-- An escaped message stays inside its literal up to the mark that closes it. -/
theorem splitFrom_escaped (message rest : List Char) :
    splitFrom true 0 (escaped message ++ '"' :: rest) =
      (splitFrom false 0 rest).map (.prepend (escaped message ++ ['"'])) := by
  induction message with
  | nil =>
    rw [escaped, List.flatMap_nil, List.nil_append, splitFrom_literal 0 (.inl (by decide))]
    rfl
  | cons c message ih =>
    rw [escaped_cons]
    by_cases hc : c = '"' ∨ c = '\\'
    · rw [if_pos hc, List.append_assoc]
      change splitFrom true 0 ('\\' :: c :: (escaped message ++ '"' :: rest)) = _
      rw [splitFrom_escape, ih, Closed.map_prepend_prepend, List.append_assoc]
    · rw [not_or] at hc
      rw [if_neg (not_or.2 hc), List.append_assoc]
      change splitFrom true 0 (c :: (escaped message ++ '"' :: rest)) = _
      have hne : (c != '"') = true := bne_iff_ne.2 hc.1
      rw [splitFrom_literal 0 (.inl hc.2), hne, ih, Closed.map_prepend_prepend, List.append_assoc]

theorem isArgument_quoteMessage (message : List Char) : IsArgument (quoteMessage message) := by
  have hclose : splitFrom false 0 [')'] = some ⟨[], [], []⟩ := by
    rw [splitFrom_plain]
    rfl
  rw [IsArgument, quoteMessage_eq, List.append_assoc, List.cons_append, List.singleton_append,
    splitFrom_plain, if_pos (beq_self_eq_true '"'), splitFrom_escaped, hclose,
    Closed.map_prepend_prepend]
  simp only [Option.map_some, Closed.prepend, List.append_nil, List.nil_append, List.cons_append]

theorem literalBody?_escaped (message : List Char) :
    literalBody? (escaped message ++ ['"']) = some message := by
  induction message with
  | nil => rfl
  | cons c message ih =>
    rw [escaped_cons]
    by_cases hc : c = '"' ∨ c = '\\'
    · rw [if_pos hc, List.append_assoc]
      change literalBody? ('\\' :: c :: (escaped message ++ ['"'])) = _
      rw [literalBody?, ih]
      rfl
    · rw [not_or] at hc
      rw [if_neg (not_or.2 hc), List.append_assoc]
      change literalBody? (c :: (escaped message ++ ['"'])) = _
      rw [literalBody?, ih]
      · rfl
      · exact fun _ _ he => absurd he hc.2
      · exact hc.1

theorem trim_quoteMessage (message : List Char) :
    trim (quoteMessage message) = quoteMessage message := by
  rw [quoteMessage_eq, trim, Text.trimStart, List.cons_append,
    List.dropWhile_cons_of_neg (by decide), ← List.cons_append, Text.trimEnd,
    Text.dropEndWhile_append_cons (by decide)]
  rfl

theorem textLiteral?_quoteMessage (message : List Char) :
    textLiteral? (quoteMessage message) = some message := by
  rw [textLiteral?, trim_quoteMessage, quoteMessage_eq]
  exact literalBody?_escaped message

namespace WrittenAssertion

variable {a : WrittenAssertion}

/-- The arguments of an assertion are cut where they were joined. -/
theorem closeList_arguments (h : a.IsProper) :
    closeList ("; ".toList.intercalate a.arguments ++ [')']) =
      some ⟨a.harness,
        [' ' :: a.actual, ' ' :: a.expected, ' ' :: quoteMessage a.message], []⟩ := by
  have hmem : ∀ x ∈ [a.harness, a.actual, a.expected], IsArgument x :=
    fun x hx => isArgument_of_argumentsAt (h.isExpression x hx).2.2.2
  have hharness := hmem a.harness (by simp)
  have hactual := hmem a.actual (by simp)
  have hexpected := hmem a.expected (by simp)
  have htext : "; ".toList.intercalate a.arguments ++ [')'] =
      a.harness ++ ';' :: ' ' :: (a.actual ++ ';' :: ' ' :: (a.expected ++ ';' :: ' ' ::
        (quoteMessage a.message ++ [')']))) := by
    rw [arguments, List.intercalate_cons_cons, List.intercalate_cons_cons,
      List.intercalate_cons_cons, List.intercalate_singleton]
    simp only [List.append_assoc]
    rfl
  rw [htext, closeList, hharness.splitFrom_next (hactual.splitFrom_next
    (hexpected.splitFrom_next (isArgument_quoteMessage a.message)))]

theorem ofArguments_eq (h : a.IsProper) :
    Expectation.ofArguments
        [a.harness, ' ' :: a.actual, ' ' :: a.expected, ' ' :: quoteMessage a.message] =
      ⟨a.actual, a.expected, a.message⟩ := by
  have hactual := (h.isExpression a.actual (by simp)).2.1
  have hexpected := (h.isExpression a.expected (by simp)).2.1
  have hlast : takeLastLiteral? [a.actual, a.expected, quoteMessage a.message] =
      some (a.message, [a.actual, a.expected]) := by
    simp only [takeLastLiteral?, textLiteral?_quoteMessage, Option.map_some]
  simp only [Expectation.ofArguments, List.drop_succ_cons, List.drop_zero, List.map_cons,
    List.map_nil, Text.trim_cons_blank, hactual, hexpected, trim_quoteMessage, hlast,
    Option.getD_some, List.getElem?_cons_zero, List.getElem?_cons_succ]

end WrittenAssertion

end SuiteAtlas.Source
