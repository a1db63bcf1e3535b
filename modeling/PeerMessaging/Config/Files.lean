import PeerMessaging.Bytes

/-!
# Files

A path is a text whose parts are separated by slashes. What a node needs to know of the files
around it is which directories there are and what files hold; it can write one file at a
time.

A path is followed part by part: every part but the last has to be a directory, and the
first part that is none says what is wrong with the path.
-/

namespace PeerMessaging

/-- Whether a part of a path leads nowhere else. -/
def isIdlePart (part : List Char) : Bool := part.isEmpty || part == ['.']

/-- Splits characters at slashes; there is always a part. -/
def splitAtSlashes : List Char → List (List Char)
  | [] => [[]]
  | c :: rest =>
    if c = '/' then [] :: splitAtSlashes rest
    else match splitAtSlashes rest with
      | [] => [[c]]
      | part :: parts => (c :: part) :: parts

/-- The beginning of a path that no part of it can remove: the root, or the directory at hand
if the path says so. -/
def pathHead : List Char → List Char × List Char
  | '/' :: rest => (['/'], rest)
  | ['.'] => (['.'], [])
  | '.' :: '/' :: rest => (['.'], '/' :: rest)
  | s => ([], s)

/-- Parts without those at the end that lead nowhere else. -/
def trimParts (parts : List (List Char)) : List (List Char) :=
  (parts.reverse.dropWhile isIdlePart).reverse

/-- The directory of a path, unless that is the directory at hand or the path has none. -/
def directoryOf? (path : String) : Option String :=
  let (head, body) := pathHead path.toList
  match trimParts (splitAtSlashes body) with
  | [] => none
  | parts =>
    let directory := head ++ ['/'].intercalate (trimParts parts.dropLast)
    if directory.isEmpty then none else some (String.ofList directory)

/-- Why a path leads to no file. -/
inductive PathFault where
  | zeroByte
  | missing
  | notDirectory
  | directory
  | nameTooLong
  deriving DecidableEq

/-- The words of the system for a fault. -/
def PathFault.text : PathFault → String
  | zeroByte => "file name contained an unexpected NUL byte"
  | missing => "No such file or directory (os error 2)"
  | notDirectory => "Not a directory (os error 20)"
  | directory => "Is a directory (os error 21)"
  | nameTooLong => "File name too long (os error 36)"

/-- The most bytes of one part of a path. -/
def maxPartSize : Nat := 255

/-- The most bytes of a path. -/
def maxPathSize : Nat := 4095

/-- The parts of a path by which it leads anywhere, in order. -/
def pathSteps (path : List Char) : List (List Char) :=
  (splitAtSlashes path).filter (!·.isEmpty)

/-- Where a path starts: at the root if a slash comes first. -/
def pathStart (path : List Char) : List Char := path.takeWhile (· == '/')

/-- Why a path can be neither read nor written, whatever files there are. -/
def formFault? (path : String) : Option PathFault :=
  if path.toList.contains '\x00' then some .zeroByte
  else if path.isEmpty then some .missing
  else if maxPathSize < path.utf8ByteSize then some .nameTooLong
  else none

/-- The files around a node. -/
structure FileSystem where
  isDirectory : String → Bool
  content? : String → Option Bytes

namespace FileSystem

/-- No files at all, and no directories but the root and the one at hand. -/
def bare : FileSystem where
  isDirectory path :=
    !path.isEmpty && (splitAtSlashes path.toList).all fun p => isIdlePart p || p == ['.', '.']
  content? _ := none

/-- The fault of the first of some parts that is no directory; `reached` is the path up to
them. -/
def walkFault? (fs : FileSystem) (reached : List Char) : List (List Char) → Option PathFault
  | [] => none
  | part :: rest =>
    let here := reached ++ part
    if fs.isDirectory (String.ofList here) then fs.walkFault? (here ++ ['/']) rest
    else if maxPartSize < (String.ofList part).utf8ByteSize then some .nameTooLong
    else if (fs.content? (String.ofList here)).isSome then some .notDirectory
    else some .missing

/-- What is wrong with a path that names no file. -/
def readFault (fs : FileSystem) (path : String) : PathFault :=
  let chars := path.toList
  (formFault? path).getD ((fs.walkFault? (pathStart chars) (pathSteps chars)).getD .directory)

/-- Reads a file. -/
def read (fs : FileSystem) (path : String) : Except PathFault Bytes :=
  match fs.content? path with
  | some b => .ok b
  | none => .error (fs.readFault path)

/-- Whether the last part of a path can only be a directory. -/
def endsInDirectory (path : List Char) : Bool :=
  match (splitAtSlashes path).getLast? with
  | some last => isIdlePart last || last == ['.', '.']
  | none => true

/-- Why a file cannot be written, if it cannot. -/
def writeFault? (fs : FileSystem) (path : String) : Option PathFault :=
  let chars := path.toList
  match (formFault? path).or (fs.walkFault? (pathStart chars) (pathSteps chars).dropLast) with
  | some fault => some fault
  | none =>
    if endsInDirectory chars || fs.isDirectory path then some .directory
    else if (pathSteps chars).getLast?.any
        (fun part => maxPartSize < (String.ofList part).utf8ByteSize) then some .nameTooLong
    else none

/-- Writes a file. -/
def write (fs : FileSystem) (path : String) (content : Bytes) : Except PathFault FileSystem :=
  match fs.writeFault? path with
  | some fault => .error fault
  | none => .ok { fs with content? := fun p => if p = path then some content else fs.content? p }

end FileSystem

end PeerMessaging
