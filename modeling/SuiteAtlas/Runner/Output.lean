import SuiteAtlas.Run
import SuiteAtlas.Text.Utf8

/-!
The output of a runner process.

Both streams are read line by line, each line with its line feed. A line that is longer than the
limit is dropped, the line feed not counted. The lines of the output stream are kept unless they
are noise; those of the error stream are printed to the run.
-/

namespace SuiteAtlas

/-- What a process that was started leaves behind, or why it could not be started, as the operating
system says it. -/
structure Execution where
  stdout : List UInt8 := []
  stderr : List UInt8 := []
  exitCode : Int := 0
  limit : Nat := 16 * 1024 * 1024
  startError : Option String := none
  deriving Repr

/-- What is kept of the output of a process. -/
structure KeptOutput where
  exitCode : Int
  stdout : String
  overflowed : Bool
  deriving DecidableEq, Repr

namespace KeptOutput

def lineFeed : UInt8 := 0x0a

/-- The bytes up to the first line feed, with it, and those behind it. -/
def cutLine : List UInt8 → List UInt8 × List UInt8
  | [] => ([], [])
  | b :: rest =>
    if b = lineFeed then ([b], rest)
    else
      let (line, more) := cutLine rest
      (b :: line, more)

def lineSize (line : List UInt8) : Nat :=
  if line.getLast? = some lineFeed then line.length - 1 else line.length

def fits (limit : Nat) (line : List UInt8) : Bool :=
  lineSize line ≤ limit

def decodeLine (line : List UInt8) : String :=
  String.ofList (Text.Utf8.decode line)

/-- Whether a line starts with one of the texts that mark noise. -/
def hasNoiseMark (noise : List String) (line : String) : Bool :=
  noise.any fun mark => mark.toList.isPrefixOf line.toList

/-- What a reader gives when it is asked for the next line. -/
inductive Reading
  | line (bytes : List UInt8)
  /-- The next line was longer than the limit, and is gone. -/
  | overlong
  | ended
  deriving DecidableEq, Repr

/-- Asks for the next line of a stream: what the reader gives, and what is left of the stream. -/
def readLine (limit : Nat) (stream : List UInt8) : Reading × List UInt8 :=
  let (line, rest) := cutLine stream
  if line.isEmpty then (.ended, rest)
  else if fits limit line then (.line line, rest)
  else (.overlong, rest)

theorem cutLine_append (stream : List UInt8) :
    (cutLine stream).1 ++ (cutLine stream).2 = stream := by
  induction stream with
  | nil => rfl
  | cons b rest ih =>
    rw [cutLine]
    split
    · rfl
    · exact congrArg (b :: ·) ih

/-- Unless the stream has ended, the reader takes something of it. -/
theorem length_readLine_lt {limit : Nat} {stream rest : List UInt8} {reading : Reading}
    (h : readLine limit stream = (reading, rest)) (hreading : reading ≠ .ended) :
    rest.length < stream.length := by
  have hcut := congrArg List.length (cutLine_append stream)
  rw [List.length_append] at hcut
  rw [readLine] at h
  split at h
  next line more he =>
  rw [he] at hcut
  change line.length + more.length = _ at hcut
  cases line with
  | nil => exact absurd (Prod.mk.inj h).1.symm hreading
  | cons b line =>
    have hrest : more = rest := by
      split at h
      · exact (Prod.mk.inj h).2
      · split at h <;> exact (Prod.mk.inj h).2
    rw [List.length_cons] at hcut
    subst hrest
    omega

/-- Gives the lines of a stream to `sink` until it has ended, and tells whether none was dropped. -/
def pump {σ : Type} (limit : Nat) (sink : σ → String → σ) (state : σ) (complete : Bool)
    (stream : List UInt8) : σ × Bool :=
  match _hread : readLine limit stream with
  | (.overlong, rest) => pump limit sink state false rest
  | (.ended, _) => (state, complete)
  | (.line bytes, rest) => pump limit sink (sink state (decodeLine bytes)) complete rest
  termination_by stream.length
  decreasing_by all_goals exact length_readLine_lt _hread (by simp)

def keepLine (noise : List String) (kept : List String) (line : String) : List String :=
  if hasNoiseMark noise line then kept else kept ++ [line]

/-- Reads both streams of a process that was started. -/
def collect (noise : List String) (execution : Execution) (run : Run) : KeptOutput × Run :=
  let (kept, complete) := pump execution.limit (keepLine noise) [] true execution.stdout
  let (run, _) := pump execution.limit Run.print run true execution.stderr
  ({ exitCode := execution.exitCode
     stdout := String.join kept
     overflowed := !complete }, run)

end KeptOutput

end SuiteAtlas
