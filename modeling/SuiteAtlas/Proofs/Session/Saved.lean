import SuiteAtlas.Proofs.Session.Refresh
import SuiteAtlas.Proofs.Text.Utf8

namespace SuiteAtlas

open Source
open Text (PairsReturns unifyLineEnds lines_unifyLineEnds)

namespace Source

variable {text other : List Char}

theorem scan_of_lines_eq (h : Text.lines text = Text.lines other) : scan text = scan other := by
  rw [scan, scan, h]

theorem physicalLine?_of_lines_eq (h : Text.lines text = Text.lines other) (name : List Char)
    (offset : Int) : physicalLine? text name offset = physicalLine? other name offset := by
  rw [physicalLine?, physicalLine?, h]

end Source

namespace Files

variable {files : Files} {path : Path} {text : List Char}

theorem hasNull_of_content? {content : List UInt8} (h : files.content? path = some content) :
    path.hasNull = false := by
  by_contra hnull
  rw [content?, find?, if_pos (Bool.not_eq_false _ ▸ hnull)] at h
  cases h

theorem text?_of_content? (h : files.content? path = some (text.flatMap String.utf8EncodeChar)) :
    files.text? path = some (unifyLineEnds text) := by
  rw [text?, h, Option.map_some, textOf, ← Text.Utf8.encode_eq, Text.Utf8.decode_encode]

end Files

namespace Session

variable {files : Files} {path : Path} {text other : List Char}

theorem plantText_of_scan_eq (h : scan text = scan other) (s : Session) (key : Key)
    (stamp : Option Int) : s.plantText key text stamp = s.plantText key other stamp := by
  simp only [plantText, h]

/-- A text and the file that holds its bytes agree, if every carriage return in the text stands
before a line feed: reading the file does to a session what planting the text does, and both give
one line for every logical line of every function. -/
theorem plantFile_saved (hreturns : PairsReturns text)
    (hcontent : files.content? path = some (text.flatMap String.utf8EncodeChar)) :
    (∀ (s : Session) (key : Key) (root : Node) (stamp : Option Int),
      s.hierarchy.node? key = some root → root.file = some path →
        s.plantFile files key stamp = s.plantText key text stamp) ∧
      ∀ (name : String) (offset : Int), physicalLineOf? files path name offset =
        .ok (physicalLine? text name.toList offset) := by
  have hlines := lines_unifyLineEnds hreturns
  have htext := Files.text?_of_content? hcontent
  constructor
  · intro s key root stamp hkey hfile
    rw [plantFile_of_text hkey hfile htext]
    exact plantText_of_scan_eq (scan_of_lines_eq hlines) s key stamp
  · intro name offset
    rw [physicalLineOf?, Files.hasNull_of_content? hcontent, if_neg Bool.false_ne_true, htext,
      Option.bind_some, physicalLine?_of_lines_eq hlines]

/-- A function with a continued statement, whose line ends differ; the last line has none. -/
def mixedText : List Char :=
  "// é\r\nFunction test_a($t : Object)\n\t$t.assert.isTrue($t; \\\r\n\t\t1; 1)\r\n\t$x:=2".toList

theorem plantFile_saved_mixedText :
    let files := (Files.empty ⟨"/", []⟩).write ⟨"/", ["T.4dm"]⟩
      (mixedText.flatMap String.utf8EncodeChar)
    oneFile.plantFile files 0 none = oneFile.plantText 0 mixedText none ∧
      physicalLineOf? files ⟨"/", ["T.4dm"]⟩ "test_a" 1 = .ok (some 3) := by
  intro files
  have hcontent : files.content? ⟨"/", ["T.4dm"]⟩ =
      some (mixedText.flatMap String.utf8EncodeChar) := by
    decide +kernel
  have hline : physicalLine? mixedText "test_a".toList 1 = some 3 := by decide +kernel
  obtain ⟨hplant, hlines⟩ := plantFile_saved (by decide +kernel) hcontent
  exact ⟨hplant oneFile 0 _ none node?_oneFile rfl, (hlines "test_a" 1).trans (hline ▸ rfl)⟩

end Session

end SuiteAtlas
