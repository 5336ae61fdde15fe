/-
# A folder of files

The files that a reduction reads and writes, in a folder that may have folders of its own.  A file
is a text, raw bytes, or a saved run.  The steps of a path are taken one after the other: each leads
on from a folder, and fails with a fault of its own at a file or at nothing.

What was written is read (`get_put`).
-/

import MipShrink.Files.Path
import MipShrink.Gzip.Basic
import MipShrink.Instance
import MipShrink.Run.State

namespace MipShrink

/-- What a file holds. -/
inductive Content (α : Type) where
  | text (s : String)
  | bytes (b : ByteArray)
  | snapshot (state : RunState) (saved : Instance α)

namespace Content

/-- Bytes as a text if they are one. -/
def ofBytes {α : Type} (b : ByteArray) : Content α :=
  match String.fromUTF8? b with
  | some t => text t
  | none => bytes b

/-- The bytes of a file; a saved run has no fixed ones. -/
def toBytes? {α : Type} : Content α → Option ByteArray
  | text t => some t.toUTF8
  | bytes b => some b
  | snapshot _ _ => none

end Content

/-- A folder with its files, the latest first, and the names of its folders. -/
structure FileStore (α : Type) where
  folders : List String
  files : List (String × Content α)

namespace FileStore

variable {α : Type}

/-- An empty folder. -/
def empty : FileStore α := { folders := [], files := [] }

/-- A folder with the given files, and with folders in it. -/
def ofFiles (folders : List String) (files : List (String × ByteArray)) : FileStore α :=
  { folders := folders, files := files.map fun f => (f.1, Content.ofBytes f.2) }

/-- The files of a folder with their bytes. -/
def toFiles (s : FileStore α) : List (String × Option ByteArray) :=
  s.files.map fun f => (f.1, f.2.toBytes?)

/-- Is there a folder at the place?  Around the current folder there are folders only. -/
def isFolder (p : Place) (s : FileStore α) : Bool :=
  p.names.isEmpty || s.folders.contains p.path

/-- Why no step leads on from the place, if none does. -/
def closed? (p : Place) (s : FileStore α) : Option AccessFault :=
  if s.isFolder p then none
  else if (s.files.lookup p.path).isSome then some .notFolder
  else some .notFound

/-- Where steps lead from a place. -/
def walk (s : FileStore α) : List String → Place → Except AccessFault Place
  | [], p => .ok p
  | step :: rest, p =>
    match s.closed? p with
    | some fault => .error fault
    | none =>
      if Path.maxStepBytes < step.utf8ByteSize then .error .longName
      else walk s rest (p.after step)

/-- Where something can be read under a path. -/
def source (path : String) (s : FileStore α) : Except AccessFault Place :=
  match Path.fault? path with
  | some fault => .error fault
  | none =>
    s.walk (Path.steps path ++ if Path.endsOpen path then ["."] else []) (Place.start path)

/-- The content of a file. -/
def get (path : String) (s : FileStore α) : Except AccessFault (Content α) :=
  match s.source path with
  | .error fault => .error fault
  | .ok p =>
    if s.isFolder p then .error .isFolder
    else
      match s.files.lookup p.path with
      | some c => .ok c
      | none => .error .notFound

/-- Can a file be made by the last step of a path? -/
def namesFile (path step : String) : Bool :=
  !Path.endsOpen path && step != "." && step != ".."

/-- Where a file can be written under a path. -/
def target (path : String) (s : FileStore α) : Except AccessFault Place :=
  match Path.fault? path with
  | some fault => .error fault
  | none =>
    match (Path.steps path).getLast? with
    | none => .error .isFolder
    | some last =>
      match s.walk (Path.steps path).dropLast (Place.start path) with
      | .error fault => .error fault
      | .ok outer =>
        match s.closed? outer with
        | some fault => .error fault
        | none =>
          if namesFile path last = false then .error .isFolder
          else if Path.maxStepBytes < last.utf8ByteSize then .error .longName
          else if s.isFolder (outer.after last) then .error .isFolder
          else .ok (outer.after last)

/-- The store with the given content at a place. -/
def put (p : Place) (c : Content α) (s : FileStore α) : FileStore α :=
  { s with files := (p.path, c) :: Keyed.drop p.path s.files }

/-- Write a file, if its path can name one. -/
def write (path : String) (c : Content α) (s : FileStore α) :
    Except AccessFault (FileStore α) :=
  match s.target path with
  | .error fault => .error fault
  | .ok p => .ok (s.put p c)

/-- The text of a file. -/
def getText (path : String) (s : FileStore α) : Except Error String :=
  match s.get path with
  | .error fault => .error (.access path fault)
  | .ok (.text t) => .ok t
  | .ok (.bytes b) =>
    match String.fromUTF8? b with
    | some t => .ok t
    | none => .error (.access path .notText)
  | .ok (.snapshot _ _) => .error (.access path .notText)

/-- The bytes between line feeds. -/
def byteLines : List UInt8 → List (List UInt8)
  | [] => [[]]
  | b :: rest =>
    if b == 10 then [] :: byteLines rest
    else
      match byteLines rest with
      | [] => [[b]]
      | l :: ls => (b :: l) :: ls

/-- A line of bytes as a text. -/
def decodeLine (l : List UInt8) : Except AccessFault (List Char) :=
  match String.fromUTF8? ⟨l.toArray⟩ with
  | some t => .ok t.toList
  | none => .error .notText

/-- The lines of raw bytes that a line feed ends. -/
def endedLines (b : ByteArray) : List (Except AccessFault (List Char)) :=
  (byteLines b.toList).dropLast.map fun l => (decodeLine l).map Text.dropReturn

/-- The lines of raw bytes. -/
def linesOfBytes (b : ByteArray) : List (Except AccessFault (List Char)) :=
  let last := (byteLines b.toList).getLast?.toList.filter fun l => !l.isEmpty
  endedLines b ++ last.map decodeLine

/-- The lines of a packed file.  After a fault there are none, and the line before it is lost if
the fault comes before its end. -/
def linesOfPacked (b : ByteArray) : List (Except AccessFault (List Char)) :=
  match Gzip.unpackFile b with
  | (out, none) => linesOfBytes out
  | (out, some fault) => endedLines out ++ [.error (.unpacking fault)]

/-- The lines of a file, which may be packed, as far as they can be read. -/
def getLines (path : String) (s : FileStore α) :
    Except Error (List (Except AccessFault (List Char))) :=
  match s.get path with
  | .error fault => .error (.access path fault)
  | .ok (.text t) =>
    if Path.extension? path = some "gz" then .ok (linesOfPacked t.toUTF8)
    else .ok ((Text.linesOf t).map .ok)
  | .ok (.bytes b) =>
    if Path.extension? path = some "gz" then .ok (linesOfPacked b) else .ok (linesOfBytes b)
  | .ok (.snapshot _ _) => .ok [.error .notText]

/-- Write a text. -/
def writeText (path text : String) (s : FileStore α) : Except Error (FileStore α) :=
  match s.write path (.text text) with
  | .ok s => .ok s
  | .error fault => .error (.access path fault)

/-- Save a run. -/
def writeSnapshot (path : String) (state : RunState) (i : Instance α) (s : FileStore α) :
    Except Error (FileStore α) :=
  match s.write path (.snapshot state i) with
  | .ok s => .ok s
  | .error fault => .error (.access path fault)

/-- Putting a file adds no folder. -/
theorem isFolder_put (p q : Place) (c : Content α) (s : FileStore α) :
    (s.put p c).isFolder q = s.isFolder q := rfl

/-- Nothing closes a place exactly if it is a folder. -/
theorem closed?_eq_none_iff {p : Place} {s : FileStore α} :
    s.closed? p = none ↔ s.isFolder p = true := by
  unfold closed?
  split
  · simp_all
  · split <;> simp_all

/-- Steps lead on through folders only. -/
theorem walk_append_singleton (s : FileStore α) (steps : List String) (step : String) (p : Place) :
    s.walk (steps ++ [step]) p = (s.walk steps p).bind (s.walk [step]) := by
  induction steps generalizing p with
  | nil => rfl
  | cons x steps ih =>
    simp only [List.cons_append, walk]
    split
    · rfl
    · split
      · rfl
      · exact ih _

/-- Writing a file blocks no way. -/
theorem walk_put {s : FileStore α} {steps : List String} {p q : Place} (r : Place)
    (c : Content α) (h : s.walk steps p = .ok q) : (s.put r c).walk steps p = .ok q := by
  induction steps generalizing p with
  | nil => exact h
  | cons step steps ih =>
    simp only [walk] at h ⊢
    split at h
    · simp at h
    · rename_i hp
      have open' : (s.put r c).closed? p = none :=
        closed?_eq_none_iff.2 ((isFolder_put r p c s).trans (closed?_eq_none_iff.1 hp))
      rw [open']
      split at h
      · simp at h
      · rename_i hn
        rw [if_neg hn]
        exact ih h

/-- What was written under a path is read under it. -/
theorem get_put {path : String} {p : Place} {s : FileStore α} (c : Content α)
    (h : s.target path = .ok p) : (s.put p c).get path = .ok c := by
  unfold target at h
  split at h
  · simp at h
  rename_i hf
  split at h
  · simp at h
  rename_i last hl
  split at h
  · simp at h
  rename_i outer hw
  split at h
  · simp at h
  rename_i ho
  split at h
  · simp at h
  rename_i hn
  split at h
  · simp at h
  rename_i hm
  split at h
  · simp at h
  rename_i hd
  obtain rfl : outer.after last = p := by simpa using h
  have steps : Path.steps path = (Path.steps path).dropLast ++ [last] := by
    obtain ⟨front, hfront⟩ := List.getLast?_eq_some_iff.1 hl
    rw [hfront, List.dropLast_concat]
  have ends : Path.endsOpen path = false := by
    simp only [namesFile, Bool.not_eq_false, Bool.and_eq_true, Bool.not_eq_true'] at hn
    exact hn.1.1
  -- The way to the folder is the same as before, as the file that is put there is not on it.
  have outer' := walk_put (outer.after last) c hw
  have open' : (s.put (outer.after last) c).closed? outer = none :=
    closed?_eq_none_iff.2 ((isFolder_put _ outer c s).trans (closed?_eq_none_iff.1 ho))
  have found : (s.put (outer.after last) c).source path = .ok (outer.after last) := by
    simp only [source, hf, ends, Bool.false_eq_true, if_false, List.append_nil]
    rw [steps, walk_append_singleton, outer']
    simp only [Except.bind, walk, open', if_neg hm]
  have folder : (s.put (outer.after last) c).isFolder (outer.after last) = false := by
    simpa [isFolder_put] using hd
  simp only [get, found, folder, Bool.false_eq_true, if_false]
  simp [put]

end FileStore
end MipShrink
