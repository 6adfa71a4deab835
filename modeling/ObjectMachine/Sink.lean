/-
The two output streams and the sink that receives their lines in the order they are written. A sink
may refuse any line with a text of its own; one that takes a number of further lines and then refuses
every line and every flush with one text is a case of it.
-/

namespace ObjectMachine

/-- An output stream. -/
inductive Stream where
  | out
  | err
  deriving DecidableEq, Repr

namespace Stream

/-- The numeric handle of a stream. -/
def fd : Stream → Int32
  | .out => 1
  | .err => 2

/-- The stream with a numeric handle. -/
def ofFd? (fd : Int32) : Option Stream :=
  if fd = 1 then some .out else if fd = 2 then some .err else none

def name : Stream → String
  | .out => "stdout"
  | .err => "stderr"

theorem ofFd?_fd (s : Stream) : ofFd? s.fd = some s := by cases s <;> decide

theorem fd_of_ofFd? {fd : Int32} {s : Stream} (h : ofFd? fd = some s) : fd = s.fd := by
  unfold ofFd? at h
  split at h
  · cases h; assumption
  · split at h
    · cases h; assumption
    · cases h

end Stream

/-- Where lines go. The host decides which lines it takes: the answers to the lines that it is asked to
take, one after the other, are data of the sink. -/
structure Sink where
  /-- Every line taken so far, in the order of writing. -/
  lines : Array (Stream × String) := #[]
  /-- How many lines it has been asked to take. -/
  asked : Nat := 0
  /-- The text that a line is refused with, or nothing if it is taken, by the number of lines before it. -/
  refuses : Nat → Option String := fun _ => none

namespace Sink

/-- The text that the next line would be refused with. -/
def refusal? (s : Sink) : Option String := s.refuses s.asked

/-- The sink after a line that it has taken. -/
def take (s : Sink) (stream : Stream) (line : String) : Sink :=
  { s with lines := s.lines.push (stream, line), asked := s.asked + 1 }

/-- The sink after a line that it has refused. -/
def pass (s : Sink) : Sink := { s with asked := s.asked + 1 }

/-- Hands a line over to the sink. -/
def write (s : Sink) (stream : Stream) (line : String) : Except String Unit × Sink :=
  match s.refusal? with
  | some text => (.error text, s.pass)
  | none => (.ok (), s.take stream line)

/-- Flushing fails as long as the next line would be refused. -/
def flush (s : Sink) : Except String Unit :=
  match s.refusal? with
  | some text => .error text
  | none => .ok ()

/-- The sink, if it takes every further line. -/
def unlimited (s : Sink) : Sink := { s with refuses := fun _ => none }

/-- The sink, if it takes a number of further lines and refuses all others with a text. -/
def limited (s : Sink) (room : Nat) (refusal : String) : Sink :=
  { s with refuses := fun n => if n < s.asked + room then none else some refusal }

/-- The lines of one stream, in the order of writing. -/
def linesOf (s : Sink) (stream : Stream) : List String :=
  (s.lines.toList.filter (·.1 = stream)).map (·.2)

/-- Forgets the lines taken so far. -/
def clear (s : Sink) : Sink := { s with lines := #[] }

theorem write_taken {s : Sink} (h : s.refusal? = none) (stream : Stream) (line : String) :
    s.write stream line = (.ok (), s.take stream line) := by
  rw [write, h]

theorem write_refused {s : Sink} {text : String} (h : s.refusal? = some text) (stream : Stream)
    (line : String) : s.write stream line = (.error text, s.pass) := by
  rw [write, h]

end Sink

end ObjectMachine
