/-
# The program

`main` reads the files that its arguments name, and carries the command line out in dialogue.  It
starts no other program: a solver command that has to be carried out is printed on a line of its
own, with the files of the probe in place, and the reply is read from the input.  A reply is a line
with the exit status, or with the word `killed` or `missing`, then the output of the command, then
a line with a single dot.

At the end the files that the command made are written; a saved run is not among them.
-/

import MipShrink.CommandLine.Dialogue

namespace MipShrink
namespace CommandLine

/-- A file with its bytes, if it can be read. -/
def readFile? (path : String) : IO (Option (String × ByteArray)) := do
  try
    let b ← IO.FS.readBinFile path
    return some ((Place.ofPath path).path, b)
  catch _ => return none

/-- Does the folder exist? -/
def isFolder (path : String) : IO Bool := do
  ((← IO.currentDir) / path).isDir

/-- Write the files that have bytes. -/
def writeFiles (files : List (String × Option ByteArray)) : IO Unit :=
  files.forM fun f =>
    match f.2 with
    | some b => IO.FS.writeBinFile f.1 b
    | none => pure ()

/-- The lines up to one with a single dot. -/
partial def readOutput (input : IO.FS.Stream) (before : String) : IO String := do
  let line ← input.getLine
  if line.isEmpty || line == ".\n" then return before else readOutput input (before ++ line)

/-- Have a request carried out.  An input that has ended means that there is no such program. -/
def ask (r : Request) (began : Nat) : IO Reply := do
  IO.FS.createDirAll workFolder
  writeFiles r.files
  IO.println (String.intercalate " " r.words)
  (← IO.getStdout).flush
  let input ← IO.getStdin
  let word ← input.getLine
  let output ← readOutput input ""
  return { reply := Reply.read word.trimAscii.toString output
           time := (← IO.monoNanosNow) / 1000 - began }

/-- Go on until no request is left. -/
partial def converse (args folders : List String) (files : List (String × ByteArray))
    (began : Nat) (replies : List Reply) : IO (Outcome Dialogue) := do
  let result := runWith args folders files replies
  match result.host.request with
  | none => return result
  | some r => converse args folders files began (replies ++ [← ask r began])

/-- Carry out the command line, and tell its exit status. -/
def program (args : List String) : IO UInt32 := do
  let began := (← IO.monoNanosNow) / 1000
  let folders ← (folders args).filterM isFolder
  let files := (← (paths args).mapM readFile?).filterMap id
  let result ← converse args folders files began []
  let known := files.map fun f => (f.1, f.2.toList)
  let isNew := fun f : String × Option ByteArray =>
    f.2.any fun b => !known.contains (f.1, b.toList)
  writeFiles (result.files.filter isNew)
  if ← isFolder workFolder then IO.FS.removeDirAll workFolder
  IO.print result.output
  IO.eprint result.errors
  return result.exit.toUInt32

end CommandLine
end MipShrink

/-- Carry out the command line. -/
def main (args : List String) : IO UInt32 :=
  MipShrink.CommandLine.program args
