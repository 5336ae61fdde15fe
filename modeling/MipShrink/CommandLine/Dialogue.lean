/-
# A command in dialogue

The command line as a function of what became of the solver commands so far.  A `Dialogue` hosts
the solver: it answers the first commands from a list of replies, and keeps the first command that
it has no reply to as a request.  Whoever carries the request out adds the reply and begins again;
since everything but the replies is the same, the command gets as far as before and then further.
When no request is left the outcome is final.

A reply is written as the exit status, or the word `killed` or `missing`, with the output of the
command after it.
-/

import MipShrink.CommandLine.Basic

namespace MipShrink
namespace CommandLine

/-- A solver command that waits to be carried out, with the files that it may read. -/
structure Request where
  words : List String
  files : List (String × Option ByteArray)

/-- What became of a solver command, and the microseconds on the clock after it. -/
structure Reply where
  reply : HostReply
  time : Nat

namespace Reply

/-- The reply that a first word and an output tell; anything unknown means that there is no such
program. -/
def read (word output : String) : HostReply :=
  if word = "killed" then .killed output.toUTF8
  else
    match Grammar.word? 32 word.toList with
    | some code => .exited code output.toUTF8
    | none => .missing

end Reply

/-- The replies that have not been used, the time, and the request if there is one. -/
structure Dialogue where
  replies : List Reply
  time : Nat
  request : Option Request

namespace Dialogue

/-- A dialogue with the given replies. -/
def start (replies : List Reply) : Dialogue :=
  { replies := replies, time := 0, request := none }

/-- Answer a command, or make it the request. -/
def perform {α : Type} (words : List String) (folder : FileStore α) (d : Dialogue) :
    HostReply × Dialogue :=
  match d.request, d.replies with
  | none, r :: rest => (r.reply, { d with replies := rest, time := r.time })
  | none, [] => (.missing, { d with request := some ⟨words, folder.toFiles⟩ })
  | some _, _ => (.missing, d)

/-- The dialogue as a host. -/
def host (α : Type) : Host α Dialogue :=
  { perform := perform, clock := Dialogue.time }

/-- A request stays until it has been answered. -/
theorem request_perform {α : Type} (words : List String) (folder : FileStore α) (d : Dialogue)
    (r : Request) (h : d.request = some r) : (perform words folder d).2.request = some r := by
  rcases d with ⟨replies, time, request⟩
  simp only at h
  subst h
  rfl

end Dialogue

/-- The paths that arguments may mean: the arguments themselves, and what stands after the first
equals sign in them. -/
def paths (args : List String) : List String :=
  args ++ args.filterMap fun arg => (Text.splitFirst '=' arg.toList).map fun e => String.ofList e.2

/-- The folders that arguments may mean. -/
def folders (args : List String) : List String :=
  ((paths args).flatMap fun path =>
    Place.passed path ++ [(Place.ofPath path).path]).eraseDups.filter fun path => path != ""

/-- The command with the given replies. -/
def runWith (args : List String) (folders : List String) (files : List (String × ByteArray))
    (replies : List Reply) : Outcome Dialogue :=
  run args (fun α _ => Dialogue.host α) folders files (Dialogue.start replies)

end CommandLine
end MipShrink
