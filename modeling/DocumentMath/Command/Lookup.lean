import DocumentMath.Command.Concatenate
import DocumentMath.Command.Excerpt
import DocumentMath.Command.Plain
import DocumentMath.Command.Tally
import DocumentMath.Command.Translate
import DocumentMath.Shell.Start

/-!
# Looking up programs

A program is given by a path, or by a bare name, which stands for a program in the directory where
the system keeps them. A path is looked up among what belongs to the system and among other files,
none of which is a program.
-/

namespace DocumentMath.Command

/-! ### Programs -/

/-- A program that replies. -/
def replying (reply : Call → Reply) : Program := fun c ↦
  (reply c).finish c

/-- The programs of the system that start no other programs. -/
def simplePrograms : List (String × Program) :=
  [("cat", Concatenate.cat), ("head", Excerpt.head), ("tail", Excerpt.tail), ("tee", Plain.tee),
    ("tr", Translate.tr), ("wc", Tally.wc), ("echo", Plain.echo), ("sleep", Plain.sleep),
    ("printf", .checked (replying fun c ↦ Shell.printf c.arguments)),
    ("test", replying fun c ↦ Shell.test c.files c.arguments),
    ("[", replying fun c ↦ Shell.bracket c.files c.arguments), ("true", (·.finish 0 [])),
    ("false", (·.finish 1 []))]

/-- The names of the shell. -/
def shellNames : List String := ["sh", "dash"]

/-- The programs of the system, where shells start shells at most so many levels deep. -/
def systemPrograms : (levels : Nat) → Programs
  | 0 => fun name ↦ simplePrograms.lookup name
  | levels + 1 => fun name ↦
    if shellNames.contains name then some (Shell.shell (systemPrograms levels))
    else simplePrograms.lookup name

/-- How many levels of shells there are. -/
def shellLevels : Nat := 16

/-! ### Places -/

/-- The directory in which the programs of the system are. -/
def programDirectory : Place := ["usr", "bin"]

/-- Directories of the system. The second one leads to its programs too. -/
def systemDirectories : List Place :=
  [programDirectory, ["bin"], ["usr"], ["dev"], ["dev", "fd"], ["etc"], ["home"], ["lib"], ["opt"],
    ["proc", "self"], ["proc", "self", "fd"], ["root"], ["sbin"], ["tmp"], ["usr", "lib"],
    ["usr", "local"], ["usr", "local", "bin"], ["usr", "local", "sbin"], ["usr", "sbin"],
    ["usr", "share"], ["var"]]

/-- The devices of the system. -/
def systemDevices : List (Place × Device) :=
  [(["dev", "null"], .null), (["dev", "zero"], .zeros), (["dev", "full"], .full),
    (["dev", "tty"], .terminal), (["dev", "stdin"], .stream 0), (["dev", "stdout"], .stream 1),
    (["dev", "stderr"], .stream 2)] ++
    (List.range 10).flatMap fun n ↦
      [(["dev", "fd", toString n], .stream n), (["proc", "self", "fd", toString n], .stream n)]

/-- The users of the system. -/
def userTable : Text.Bytes :=
  messageLine "root:x:0:0:root:/root:/bin/bash"

/-- What belongs to the system. -/
def systemEntries : List (Place × Entry) :=
  systemDevices.map (fun (place, d) ↦ (place, .device d)) ++
    [(["proc"], .sealed .notFound .notFound), (["sys"], .sealed .notPermitted .permissionDenied)] ++
    systemDirectories.map (·, .directory) ++ [(["etc", "passwd"], .file userTable)] ++
    (simplePrograms.map (·.1) ++ shellNames).flatMap fun name ↦
      [(programDirectory ++ [name], .program name), (["bin", name], .program name)]

/-- Files together with the system. -/
def withSystem (files : FileTree) : FileTree :=
  { files with entries := files.entries ++ systemEntries }

/-! ### Names -/

/-- The program that a name or a path stands for, or why there is none. -/
def find (files : FileTree) (text : String) : Except IoError Program :=
  let path :=
    if text.isEmpty || text.toList.contains '/' then text
    else "/" ++ "/".intercalate (programDirectory ++ [text])
  findProgram (systemPrograms shellLevels) files ⟨path⟩

end DocumentMath.Command
