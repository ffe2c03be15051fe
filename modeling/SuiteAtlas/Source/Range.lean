/-!
Places in a source text.

A position is a line and a column, both counted from zero; one that is set by hand may lie anywhere.
A range reaches from its start up to, and without, its end.
-/

namespace SuiteAtlas.Source

structure Position where
  line : Int
  column : Int
  deriving DecidableEq, Repr

structure Range where
  start : Position
  stop : Position
  deriving DecidableEq, Repr

namespace Range

def ofPoints (startLine startColumn stopLine stopColumn : Int) : Range :=
  ⟨⟨startLine, startColumn⟩, ⟨stopLine, stopColumn⟩⟩

def atLine (line : Int) : Range :=
  ofPoints line 0 line 0

end Range

end SuiteAtlas.Source
