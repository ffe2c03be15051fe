import Mathlib.Data.List.Basic
import SuiteAtlas.Proofs.Text.Utf8
import SuiteAtlas.Runner.Output

namespace SuiteAtlas.KeptOutput

open Text.Utf8 (decode)

variable {σ : Type} {limit : Nat} {stream rest body line : List UInt8}
  {lines : List (List UInt8)} {noise : List String}

/-- A stream and the lines that it is cut into: each ends with the first line feed that is left, and
the last one may lack it. -/
inductive CutsTo : List UInt8 → List (List UInt8) → Prop
  | nil : CutsTo [] []
  | last {line : List UInt8} : line ≠ [] → lineFeed ∉ line → CutsTo line [line]
  | cons {body rest : List UInt8} {lines : List (List UInt8)} : lineFeed ∉ body →
    CutsTo rest lines → CutsTo (body ++ lineFeed :: rest) ((body ++ [lineFeed]) :: lines)

def byteLines : List UInt8 → List (List UInt8)
  | [] => []
  | b :: rest =>
    if b = lineFeed then [b] :: byteLines rest
    else
      match byteLines rest with
      | [] => [[b]]
      | line :: lines => (b :: line) :: lines

theorem CutsTo.eq_nil (h : CutsTo stream []) : stream = [] := by
  cases h
  rfl

theorem cutsTo_byteLines (stream : List UInt8) : CutsTo stream (byteLines stream) := by
  fun_induction byteLines stream with
  | case1 => exact .nil
  | case2 rest ih => exact @CutsTo.cons [] rest _ List.not_mem_nil ih
  | case3 b rest hb hnil ih =>
    rw [hnil] at ih
    obtain rfl := ih.eq_nil
    exact .last (List.cons_ne_nil b _) fun hmem => hb (List.mem_singleton.1 hmem).symm
  | case4 b rest hb line lines hlines ih =>
    have hcons {body : List UInt8} (h : lineFeed ∉ body) : lineFeed ∉ b :: body := by
      rw [List.mem_cons, not_or]
      exact ⟨Ne.symm hb, h⟩
    rw [hlines] at ih
    cases ih with
    | last hne hnone => exact .last (List.cons_ne_nil b _) (hcons hnone)
    | cons hnone hrest => exact .cons (hcons hnone) hrest

theorem cutLine_of_notMem (h : lineFeed ∉ line) : cutLine line = (line, []) := by
  induction line with
  | nil => rfl
  | cons b line ih =>
    rw [List.mem_cons, not_or] at h
    rw [cutLine, if_neg (Ne.symm h.1), ih h.2]

theorem cutLine_append_lineFeed (h : lineFeed ∉ body) (rest : List UInt8) :
    cutLine (body ++ lineFeed :: rest) = (body ++ [lineFeed], rest) := by
  induction body with
  | nil => exact if_pos rfl
  | cons b body ih =>
    rw [List.mem_cons, not_or] at h
    rw [List.cons_append, cutLine, if_neg (Ne.symm h.1), ih h.2]
    rfl

theorem pump_nil (limit : Nat) (sink : σ → String → σ) (state : σ) (complete : Bool) :
    pump limit sink state complete [] = (state, complete) := by
  rw [pump]
  rfl

theorem pump_of_cutLine (h : cutLine stream = (line, rest)) (hne : line ≠ [])
    (limit : Nat) (sink : σ → String → σ) (state : σ) (complete : Bool) :
    pump limit sink state complete stream =
      if fits limit line then pump limit sink (sink state (decodeLine line)) complete rest
      else pump limit sink state false rest := by
  have hread : readLine limit stream =
      if fits limit line then (.line line, rest) else (.overlong, rest) := by
    rw [readLine, h]
    exact if_neg fun hempty => hne (List.isEmpty_iff.1 hempty)
  rw [pump]
  cases hfits : fits limit line with
  | true =>
    rw [hfits, if_pos rfl] at hread
    split <;> rename_i he <;> cases hread.symm.trans he
    rfl
  | false =>
    rw [hfits, if_neg Bool.false_ne_true] at hread
    split <;> rename_i he <;> cases hread.symm.trans he
    rfl

def fittingTexts (limit : Nat) (lines : List (List UInt8)) : List String :=
  (lines.filter (fits limit)).map decodeLine

theorem fittingTexts_cons (limit : Nat) (line : List UInt8) (lines : List (List UInt8)) :
    fittingTexts limit (line :: lines) =
      if fits limit line then decodeLine line :: fittingTexts limit lines
      else fittingTexts limit lines := by
  rw [fittingTexts, List.filter_cons]
  split <;> rfl

/-- Reading a stream gives the lines that are within the limit, in their order. -/
theorem CutsTo.pump_eq (h : CutsTo stream lines) (limit : Nat) (sink : σ → String → σ) (state : σ)
    (complete : Bool) : pump limit sink state complete stream =
      ((fittingTexts limit lines).foldl sink state, complete && lines.all (fits limit)) := by
  induction h generalizing state complete with
  | nil =>
    rw [pump_nil]
    exact Prod.ext rfl (Bool.and_true complete).symm
  | @last line hne hnone =>
    rw [pump_of_cutLine (cutLine_of_notMem hnone) hne, pump_nil, pump_nil, fittingTexts_cons,
      List.all_cons]
    cases fits limit line with
    | true => exact Prod.ext rfl (Bool.and_true complete).symm
    | false => exact Prod.ext rfl (Bool.and_false complete).symm
  | @cons body rest lines hnone _ ih =>
    rw [pump_of_cutLine (cutLine_append_lineFeed hnone rest) (by simp), ih, ih, fittingTexts_cons,
      List.all_cons]
    cases fits limit (body ++ [lineFeed]) with
    | true => rfl
    | false => exact Prod.ext rfl (Bool.and_false complete).symm

theorem foldl_keepLine (noise kept lines : List String) :
    lines.foldl (keepLine noise) kept =
      kept ++ lines.filter fun line => !hasNoiseMark noise line := by
  induction lines generalizing kept with
  | nil => exact (List.append_nil kept).symm
  | cons line rest ih =>
    rw [List.foldl_cons, ih, keepLine, List.filter_cons]
    cases hasNoiseMark noise line with
    | true => rfl
    | false => exact List.append_assoc kept [line] _

theorem collect_eq (noise : List String) (execution : Execution) (run : Run) :
    collect noise execution run =
      ({ exitCode := execution.exitCode
         stdout := String.join ((fittingTexts execution.limit (byteLines execution.stdout)).filter
           fun line => !hasNoiseMark noise line)
         overflowed := !(byteLines execution.stdout).all (fits execution.limit) },
        (fittingTexts execution.limit (byteLines execution.stderr)).foldl Run.print run) := by
  rw [collect, (cutsTo_byteLines _).pump_eq, (cutsTo_byteLines _).pump_eq, foldl_keepLine]
  rfl

theorem log_foldl_print (texts : List String) (run : Run) :
    (texts.foldl Run.print run).log = run.log ++ texts.map RunEntry.text := by
  induction texts generalizing run with
  | nil => exact (List.append_nil _).symm
  | cons text rest ih =>
    rw [List.foldl_cons, ih]
    exact List.append_assoc run.log [_] _

theorem CutsTo.flatMap_decode (h : CutsTo stream lines) : lines.flatMap decode = decode stream := by
  induction h with
  | nil => rfl
  | last => exact List.flatMap_singleton decode _
  | cons _ _ ih =>
    rw [List.flatMap_cons, ih, lineFeed, ← Text.Utf8.decode_append_lineFeed]

theorem join_map_decodeLine (lines : List (List UInt8)) :
    String.join (lines.map decodeLine) = String.ofList (lines.flatMap decode) := by
  apply String.toList_injective
  rw [String.toList_join, List.flatMap_map, String.toList_ofList]
  exact List.flatMap_congr fun line _ => String.toList_ofList

theorem hasNoiseMark_eq_false_iff {line : String} : hasNoiseMark noise line = false ↔
    ∀ mark ∈ noise, ¬mark.toList <+: line.toList := by
  simp [hasNoiseMark]

theorem fits_iff : fits limit line = true ↔ lineSize line ≤ limit :=
  decide_eq_true_iff

/-- What is kept of the output of a process, whatever its bytes: of the output stream, the texts of
the lines that are within the limit and no noise, in order, and whether there is a longer line; of
the error stream, one text in the record for each line within the limit. If no line of the output
stream is dropped, what is kept is the text of the whole stream. -/
theorem collect_lines (noise : List String) (execution : Execution) (run : Run) :
    let lines := byteLines execution.stdout
    let errors := byteLines execution.stderr
    let output := (collect noise execution run).1
    CutsTo execution.stdout lines ∧ CutsTo execution.stderr errors ∧
      output.stdout = String.join ((fittingTexts execution.limit lines).filter
        fun line => !hasNoiseMark noise line) ∧
      (output.overflowed = true ↔ ∃ line ∈ lines, execution.limit < lineSize line) ∧
      (collect noise execution run).2.log =
        run.log ++ (fittingTexts execution.limit errors).map RunEntry.text ∧
      ((∀ line ∈ lines, lineSize line ≤ execution.limit ∧
          ∀ mark ∈ noise, ¬mark.toList <+: (decodeLine line).toList) →
        output.stdout = String.ofList (decode execution.stdout)) := by
  intro lines errors output
  have hcut : CutsTo execution.stdout lines := cutsTo_byteLines _
  have hcollect := collect_eq noise execution run
  have houtput : output.stdout = String.join ((fittingTexts execution.limit lines).filter
      fun line => !hasNoiseMark noise line) :=
    congrArg (fun p : KeptOutput × Run => p.1.stdout) hcollect
  refine ⟨hcut, cutsTo_byteLines _, houtput, ?_, ?_, fun hall => ?_⟩
  · have hover : output.overflowed = !lines.all (fits execution.limit) :=
      congrArg (fun p : KeptOutput × Run => p.1.overflowed) hcollect
    rw [hover, Bool.not_eq_true', List.all_eq_false]
    simp only [fits_iff, Nat.not_le]
  · rw [hcollect]
    exact log_foldl_print _ run
  · have hfits : lines.filter (fits execution.limit) = lines :=
      List.filter_eq_self.2 fun line hline => fits_iff.2 (hall line hline).1
    have hkept : (lines.map decodeLine).filter (fun line => !hasNoiseMark noise line) =
        lines.map decodeLine := by
      rw [List.filter_eq_self, List.forall_mem_map]
      intro line hline
      rw [hasNoiseMark_eq_false_iff.2 (hall line hline).2]
      rfl
    rw [houtput, fittingTexts, hfits, hkept, join_map_decodeLine, hcut.flatMap_decode]

/-- A character that is broken off by a line feed, and a last line without one. -/
theorem collect_lines_brokenOff :
    let execution : Execution :=
      { stdout := [0xe2, 0x82, 0x0a, 0xff, 0x41], stderr := [0x62, 0x0a, 0x41, 0x42, 0x43]
        limit := 2 }
    let result := collect ["#"] execution {}
    result.1.stdout = "\ufffd\n\ufffdA" ∧ result.1.overflowed = false ∧
      result.2.log = [.text "b\n"] := by
  intro execution result
  obtain ⟨_, _, _, hover, hlog, hwhole⟩ := collect_lines ["#"] execution {}
  have hnone : ¬∃ line ∈ byteLines execution.stdout, execution.limit < lineSize line := by decide
  exact ⟨(hwhole (by decide)).trans (by decide), Bool.eq_false_iff.2 fun h => hnone (hover.1 h),
    hlog.trans (by decide)⟩

end SuiteAtlas.KeptOutput
