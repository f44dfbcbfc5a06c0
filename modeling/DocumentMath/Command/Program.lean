import DocumentMath.Files.Tree
import DocumentMath.Text.Octets

/-!
# Programs

A program is called with arguments, reads bytes and writes bytes to two streams, and may change
files. It ends with a status, or a signal ends it. A call gives the program everything it can see,
so that a program is a function.

All texts that programs are given and pass on are texts of octets.
-/

namespace DocumentMath

open Text (Bytes)

/-- The path that a text of octets writes. -/
def Path.ofOctets (text : String) : Path :=
  ⟨Text.fromOctets text⟩

/-! ### How a program ends -/

/-- How a program ends. -/
inductive Ending where
  | exit (status : Nat)
  | signal (number : Nat)
  deriving DecidableEq, Repr

namespace Ending

/-- Whether the program has done what it was called for. -/
def isSuccess (e : Ending) : Bool :=
  e == exit 0

/-- The status that tells a shell how a program has ended. -/
def status : Ending → Nat
  | exit status => status
  | signal number => 128 + number

/-- The names of signals, from the first one on. -/
def signalNames : List String :=
  ["HUP", "INT", "QUIT", "ILL", "TRAP", "ABRT", "BUS", "FPE", "KILL", "USR1", "SEGV", "USR2",
    "PIPE", "ALRM", "TERM", "STKFLT", "CHLD", "CONT", "STOP", "TSTP", "TTIN", "TTOU", "URG",
    "XCPU", "XFSZ", "VTALRM", "PROF", "WINCH", "IO", "PWR", "SYS"]

/-- The signals that do not end a program. -/
def harmlessSignals : List Nat := [0, 17, 18, 19, 20, 21, 22, 23, 28]

/-- The name of a signal. -/
def signalName? : (number : Nat) → Option String
  | 0 => none
  | n + 1 => signalNames[n]?

/-- What the signals are, from the first one on. -/
def signalDescriptions : List String :=
  ["Hangup", "Interrupt", "Quit", "Illegal instruction", "Trace/breakpoint trap", "Aborted",
    "Bus error", "Floating point exception", "Killed", "User defined signal 1",
    "Segmentation fault", "User defined signal 2", "Broken pipe", "Alarm clock", "Terminated",
    "Stack fault", "Child exited", "Continued", "Stopped (signal)", "Stopped",
    "Stopped (tty input)", "Stopped (tty output)", "Urgent I/O condition",
    "CPU time limit exceeded", "File size limit exceeded", "Virtual timer expired",
    "Profiling timer expired", "Window changed", "I/O possible", "Power failure",
    "Bad system call"]

/-- The ending in words. -/
def text : Ending → String
  | exit status => "exit status: " ++ toString status
  | signal number =>
    "signal: " ++ toString number ++
      ((signalName? number).map fun name ↦ " (SIG" ++ name ++ ")").getD ""

end Ending

/-! ### Calls -/

/-- What a program is given. -/
structure Call where
  /-- What the program is called. -/
  name : String
  arguments : List String
  /-- Names and their values. -/
  environment : List (String × String)
  /-- The bytes it can read. -/
  input : Bytes
  /-- Why it can read nothing, if that is so. -/
  inputFault? : Option IoError
  /-- Why it can write nothing, if that is so. -/
  outputFault? : Option IoError
  /-- Where the file is that it reads, if it reads one. -/
  inputPlace? : Option Place
  /-- Where the file is that it writes to, if it writes to one. -/
  outputPlace? : Option Place
  files : FileTree

/-- Something that a program writes to one of its streams. -/
inductive Writing where
  | output (bs : Bytes)
  | errors (bs : Bytes)
  deriving DecidableEq, Repr

namespace Writing

/-- What goes to the first stream. -/
def toOutput : Writing → Bytes
  | output bs => bs
  | errors _ => []

/-- What goes to the second stream. -/
def toErrors : Writing → Bytes
  | output _ => []
  | errors bs => bs

end Writing

/-- What a program leaves. -/
structure Finished where
  ending : Ending
  /-- What it has written, in order. -/
  written : List Writing
  /-- The bytes it has not read. -/
  rest : Bytes
  files : FileTree

namespace Finished

/-- All that has gone to the first stream. -/
def output (f : Finished) : Bytes :=
  f.written.flatMap Writing.toOutput

/-- All that has gone to the second stream. -/
def errors (f : Finished) : Bytes :=
  f.written.flatMap Writing.toErrors

/-- The same with something written in front. -/
def behind (w : Writing) (f : Finished) : Finished :=
  { f with written := w :: f.written }

/-- The failure of a program that writes something in the end. -/
def failing (w : Writing) (f : Finished) : Finished :=
  { f with ending := .exit 1, written := f.written ++ [w] }

end Finished

/-- A program. -/
abbrev Program := Call → Finished

/-- The programs of a system, by their names. -/
abbrev Programs := String → Option Program

/-- The program at a path, or why nothing there can be started. -/
def findProgram (programs : Programs) (files : FileTree) (path : Path) :
    Except IoError Program := do
  match ← files.find path with
  | (_, .program name) => ((programs name).map .ok).getD (.error .permissionDenied)
  | _ => throw .permissionDenied

/-- What a shell and its programs know from the start. -/
def defaultEnvironment : List (String × String) :=
  [("HOME", "/root"), ("PATH", "/usr/local/sbin:/usr/local/bin:/usr/sbin:/usr/bin:/sbin:/bin")]

namespace Call

/-- Everything that can be read, and the call in which it has been. -/
def readAll (c : Call) : Except IoError Bytes × Call :=
  match c.inputFault? with
  | some e => (.error e, c)
  | none => (.ok c.input, { c with input := [] })

/-- What a file holds, and the call in which it has been read. The file may be the stream that can
be read. -/
def read (c : Call) (name : String) : Except IoError Bytes × Call :=
  match c.files.device? (.ofOctets name) with
  | some (.stream 0) => c.readAll
  | _ => (c.files.read (.ofOctets name), c)

/-- The end of a program that has written something, and leaves unread what the call has. -/
def finish (c : Call) (status : Nat) (written : List Writing) : Finished :=
  ⟨.exit status, written, c.input, c.files⟩

end Call

/-- A message on a line of its own. -/
def messageLine (text : String) : Bytes :=
  Text.ofOctets (text ++ "\n")

/-- A message of a program, which starts with what the program is called. -/
def Call.message (c : Call) (text : String) : Writing :=
  .errors (messageLine (c.name ++ ": " ++ text))

/-- The end of a program that cannot do what it is asked to do. -/
def Call.refuse (c : Call) (text : String) : Finished :=
  c.finish 1 [c.message text]

/-! ### Replies -/

/-- What a program replies that only looks at its arguments and at files. -/
structure Reply where
  status : Nat
  output : Bytes
  complaints : List String

namespace Reply

/-- A failure with a complaint. -/
def failure (complaint : String) : Reply := ⟨2, [], [complaint]⟩

/-- The end of a program that replies. -/
def finish (c : Call) (r : Reply) : Finished :=
  c.finish r.status (.output r.output :: r.complaints.map c.message)

end Reply

/-- A program that fails when it cannot write what it writes. -/
def Program.checked (program : Program) : Program := fun c ↦
  let f := program c
  match c.outputFault? with
  | none => f
  | some e =>
    if f.output.isEmpty then f
    else
      { f with written := f.written.filter (·.toOutput.isEmpty) }.failing
        (c.message ("write error: " ++ e.reason))

end DocumentMath
