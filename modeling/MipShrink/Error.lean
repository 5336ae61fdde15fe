/-
# What can go wrong around a reduction

A reduction itself does not fail: a crash of the solver is a verdict.  What fails is the reading
and writing of files, the parameters, and data that do not fit together.  Each failure is kept as
its cause; `Error.message` has the wording.
-/

import MipShrink.Text.Quoted

namespace MipShrink

/-- What is wrong with a packed file. -/
inductive GzipFault where
  /-- The file ends inside of a header or trailer. -/
  | truncated
  | badHeader
  /-- A name or a comment has no end. -/
  | longText
  | corrupt
  /-- The file ends inside of packed bytes. -/
  | incomplete
  | checkSum
deriving DecidableEq, Repr

/-- What is wrong with a sparse matrix in a saved run. -/
inductive SparseFault where
  /-- There is no place at all where a line of the matrix starts. -/
  | noStart
  /-- A line starts before the one in front of it. -/
  | startsFall
  /-- A line starts further on than there can be entries. -/
  | startOutside
  | startCount
  | entryCount
  | valueCount
  | indicesFall
  | indexOutside
deriving DecidableEq, Repr

/-- Why a file holds no saved run. -/
inductive SnapshotFault where
  | isFolder
  | packed (fault : GzipFault)
  /-- There are too few bytes. -/
  | short
  | badTruth (found : Nat)
  | badCharacter
  /-- From a byte on the text is none: because of so many bytes, or because it ends there. -/
  | badText (index : Nat) (bytes : Option Nat)
  /-- A choice among so many that there is not. -/
  | badChoice (found count : Nat)
  | zeroDenominator
  | badSign (found : Int)
  | sparse (fault : SparseFault)
deriving DecidableEq, Repr

/-- Why a file cannot be read or written. -/
inductive AccessFault where
  | notFound
  | isFolder
  | notFolder
  | longName
  /-- A zero character stands in the path. -/
  | zeroInPath
  | notText
  | unpacking (fault : GzipFault)
deriving DecidableEq, Repr

/-- What is wrong with a line of a file. -/
inductive ParseFault where
  | unknownSection (word : String)
  | outsideSection
  | unknownSense
  | rowShape
  | unknownRowKind (kind : String)
  | duplicateRow (name : String)
  | unknownMarker
  | entryShape
  | unknownRow (name : String)
  | pairShape
  | invalidNumber (text : String)
  | malformedBound (kind : String)
  | missingBound (kind : String)
  | unsupportedBound (kind : String)
  | unknownColumn (name : String)
  | settingShape
  | settingValue (name : String)
  | solutionShape
  | unknownStatus (word : String)
deriving DecidableEq, Repr

/-- What is wrong with a parameter. -/
inductive ParameterFault where
  | unknown
  | notRegistered
  /-- The parameter has another type. -/
  | notA (type : String)
  /-- The text is no value of the type. -/
  | unreadable (text type : String)
  /-- The value is out of its bounds. -/
  | outside (text low high : String)
  | overrideShape
  | badCode (text : String)
  | emptyCommand
deriving DecidableEq, Repr

/-- Why data do not make a problem. -/
inductive BuildFault where
  | entryOutside (row col nrows ncols : Nat)
  | crossedBounds (column low high : String)
deriving DecidableEq, Repr

/-- A failure, with its cause. -/
inductive Error where
  | access (path : String) (fault : AccessFault)
  | parse (path : String) (line : Nat) (fault : ParseFault)
  | parameter (key : String) (fault : ParameterFault)
  | build (fault : BuildFault)
  /-- The file holds no saved run. -/
  | snapshot (path : String) (fault : SnapshotFault)
  | missingCommand
  | missingProblem
  | unwritten (stem : String)
  | report (fault : AccessFault)
deriving DecidableEq, Repr

namespace GzipFault

/-- What is told about a fault of packed bytes. -/
def message : GzipFault → String
  | truncated => "unexpected end of file"
  | badHeader => "invalid gzip header"
  | longText => "gzip header field too long"
  | corrupt => "corrupt deflate stream"
  | incomplete => "incomplete deflate stream"
  | checkSum => "corrupt gzip stream does not have a matching checksum"

end GzipFault

namespace SparseFault

/-- The kind of a fault and what is wrong. -/
def wording : SparseFault → String × String
  | noStart => ("size mismatch", "An indptr should have its len >= 1")
  | startsFall => ("unsorted", "Unsorted indptr")
  | startOutside => ("out of range", "An indptr value is larger than allowed")
  | startCount => ("size mismatch", "Indptr length does not match dimension")
  | entryCount => ("size mismatch", "Indices length and inpdtr's nnz do not match")
  | valueCount => ("size mismatch", "data and indices have different sizes")
  | indicesFall => ("unsorted", "Indices are not sorted")
  | indexOutside => ("out of range", "Indice is larger than inner dimension")

/-- What is told about a coefficient outside of the matrix. -/
def message (f : SparseFault) : String :=
  "Structure Error (" ++ f.wording.1 ++ "): " ++ f.wording.2

end SparseFault

namespace SnapshotFault

/-- A fault of the file itself. -/
def ofFile (text : String) : String := "io error: " ++ text

/-- An integer that should be something else. -/
def badInteger (found : Int) (expected : String) : String :=
  "invalid value: integer \x60" ++ toString found ++ "\x60, expected " ++ expected

/-- What is told about a saved run that cannot be loaded. -/
def message : SnapshotFault → String
  | isFolder => ofFile "Is a directory (os error 21)"
  | packed fault => ofFile fault.message
  | short => ofFile "failed to fill whole buffer"
  | badTruth found =>
    "invalid u8 while decoding bool, expected 0 or 1, found " ++ toString found
  | badCharacter => "char is not valid"
  | badText index bytes =>
    "string is not valid utf8: " ++
      match bytes with
      | some n =>
        "invalid utf-8 sequence of " ++ toString n ++ " bytes from index " ++ toString index
      | none => "incomplete utf-8 byte sequence from index " ++ toString index
  | badChoice found count =>
    badInteger found ("variant index 0 <= i < " ++ toString count)
  | zeroDenominator => badInteger 0 "a ratio with non-zero denominator"
  | badSign found => badInteger found "a sign of -1, 0, or 1"
  | sparse fault => fault.message

end SnapshotFault

namespace AccessFault

/-- What is told about a path that cannot be used. -/
def message : AccessFault → String
  | notFound => "No such file or directory (os error 2)"
  | isFolder => "Is a directory (os error 21)"
  | notFolder => "Not a directory (os error 20)"
  | longName => "File name too long (os error 36)"
  | zeroInPath => "file name contained an unexpected NUL byte"
  | notText => "stream did not contain valid UTF-8"
  | unpacking fault => fault.message

end AccessFault

namespace ParseFault

/-- What is told about a line that is refused. -/
def message : ParseFault → String
  | unknownSection word => "unknown section " ++ word
  | outsideSection => "data outside of a section"
  | unknownSense => "unknown sense"
  | rowShape => "expected a row type and a name"
  | unknownRowKind kind => "unknown row type " ++ kind
  | duplicateRow name => "duplicate row " ++ name
  | unknownMarker => "unknown marker"
  | entryShape => "expected a column and one or two entries"
  | unknownRow name => "unknown row " ++ name
  | pairShape => "expected row and value pairs"
  | invalidNumber text => "invalid number " ++ text
  | malformedBound kind => "malformed " ++ kind ++ " bound"
  | missingBound kind => "missing value in " ++ kind ++ " bound"
  | unsupportedBound kind => "unsupported bound type " ++ kind
  | unknownColumn name => "unknown column " ++ name
  | settingShape => "expected name = value"
  | settingValue name => "invalid value for " ++ name
  | solutionShape => "expected name and value"
  | unknownStatus word => "unknown solution status " ++ word

end ParseFault

namespace ParameterFault

/-- What is told about an assignment that is refused. -/
def message : ParameterFault → String
  | unknown => "unknown parameter"
  | notRegistered => "not registered"
  | notA type => "not " ++ type
  | unreadable text type => "cannot read " ++ Text.quote text.toList ++ " as " ++ type
  | outside text low high => text ++ " outside of [" ++ low ++ ", " ++ high ++ "]"
  | overrideShape => "expected --key=value"
  | badCode text => "bad code " ++ text
  | emptyCommand => "empty solver command"

end ParameterFault

namespace BuildFault

/-- What is told about a program that cannot be built. -/
def message : BuildFault → String
  | entryOutside row col nrows ncols =>
    "coefficient (" ++ toString row ++ ", " ++ toString col ++ ") outside of a " ++
      toString nrows ++ "x" ++ toString ncols ++ " matrix"
  | crossedBounds column low high =>
    "column " ++ column ++ " has lower bound " ++ low ++ " above upper bound " ++ high

end BuildFault

namespace Error

/-- The wording of a failure. -/
def message : Error → String
  | access path fault => "cannot access " ++ path ++ ": " ++ fault.message
  | parse path line fault => path ++ ":" ++ toString line ++ ": " ++ fault.message
  | parameter key fault => "invalid parameter " ++ key ++ ": " ++ fault.message
  | build fault => fault.message
  | snapshot path fault => "snapshot " ++ path ++ ": " ++ fault.message
  | missingCommand => "no solver command given (-c)"
  | missingProblem => "no problem given (-f)"
  | unwritten stem => "cannot write " ++ stem
  | report fault => "report: " ++ fault.message

end Error
end MipShrink
