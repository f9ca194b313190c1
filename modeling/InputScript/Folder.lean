import InputScript.FileError

/-!
# `InputScript.Folder`: files by relative paths

A folder holds files and other folders, and is itself the place where relative paths
begin. A path is walked step by step: every step but the last leads into a folder, a dot
stays where it is and two dots go back. Nothing is known of the folders around this one
but that they are there. A path that ends in a slash is meant to be a folder.

`Folder.read` gives the text of a file and `Folder.write` replaces or adds one;
`destination_put_self` says that what was written is there.
-/

set_option autoImplicit false

namespace InputScript

/-- What a file holds. -/
inductive FileContent where
  | text (s : String)
  /-- Bytes that are not UTF-8. -/
  | undecodable
deriving DecidableEq, Repr

/-- What a path leads to. -/
inductive Destination where
  | missing
  | file (content : FileContent)
  | folder
deriving DecidableEq, Repr

/-- A folder: its files and the folders inside it, each with the names that lead there. -/
structure Folder where
  files : List (List String × FileContent)
  folders : List (List String)
deriving DecidableEq, Repr

namespace Folder

/-- Whether the names only lead back, which they can do any number of times. -/
def leadsBack (names : List String) : Bool :=
  names.all (· == "..")

/-- What the names lead to. A folder that a file lies in need not be listed. -/
def destination (f : Folder) (names : List String) : Destination :=
  match f.files.lookup names with
  | some content => .file content
  | none =>
    if leadsBack names || f.folders.any (names.isPrefixOf ·) ||
        f.files.any (fun file => names.isPrefixOf file.1) then .folder
    else .missing

/-- The most bytes that a name may have. -/
def longestName : Nat := 255

/-- The most bytes that a path may have. -/
def longestPath : Nat := 4095

/-- Goes one step from where the names lead. -/
def step (f : Folder) (place : List String) (name : String) :
    Except FileError (List String) :=
  match f.destination place with
  | .missing => .error .notFound
  | .file _ => .error .notDirectory
  | .folder =>
    if name = "." then .ok place
    else if name = ".." then .ok (if leadsBack place then place ++ [name] else place.dropLast)
    else if longestName < name.utf8ByteSize then .error .nameTooLong
    else .ok (place ++ [name])

/-- Goes several steps. -/
def walk (f : Folder) (place : List String) : List String → Except FileError (List String)
  | [] => .ok place
  | name :: names =>
    match f.step place name with
    | .error cause => .error cause
    | .ok next => f.walk next names

/-- A path as it is written. -/
structure Path where
  steps : List String
  /-- Whether a slash follows the last step. -/
  endsInSlash : Bool
deriving DecidableEq, Repr

/-- Splits a path into its steps. -/
def Path.parse (path : String) : Except FileError Path :=
  let cs := path.toList
  if cs.contains '\x00' then .error .nullInPath
  else if cs.isEmpty then .error .notFound
  else if longestPath < path.utf8ByteSize then .error .nameTooLong
  else
    let pieces := (cs.splitOn '/').filter fun piece => !piece.isEmpty
    .ok ⟨pieces.map String.ofList, cs.getLast? == some '/'⟩

/-- The text of the file at a path. -/
def read (f : Folder) (path : String) : Except FileError String :=
  match Path.parse path with
  | .error cause => .error cause
  | .ok p =>
    match f.walk [] p.steps with
    | .error cause => .error cause
    | .ok names =>
      match f.destination names with
      | .missing => .error .notFound
      | .folder => .error .isDirectory
      | .file content =>
        -- A slash at the end asks for a folder.
        if p.endsInSlash then .error .notDirectory
        else
          match content with
          | .text s => .ok s
          | .undecodable => .error .notText

/-- Puts a text where the names lead. -/
def put (f : Folder) (names : List String) (s : String) : Folder :=
  { f with files := (names, .text s) :: f.files.filter fun file => file.1 != names }

/-- Writes a text to the file at a path. The folder that it lies in has to exist. -/
def write (f : Folder) (path text : String) : Except FileError Folder :=
  match Path.parse path with
  | .error cause => .error cause
  | .ok p =>
    match p.steps.getLast? with
    | none => .error .isDirectory
    | some last =>
      match f.walk [] p.steps.dropLast with
      | .error cause => .error cause
      | .ok place =>
        match f.destination place with
        | .missing => .error .notFound
        | .file _ => .error .notDirectory
        | .folder =>
          if last = "." || last = ".." || p.endsInSlash then .error .isDirectory
          else
            match f.step place last with
            | .error cause => .error cause
            | .ok names =>
              match f.destination names with
              | .folder => .error .isDirectory
              | _ => .ok (f.put names text)

/-- A text that was put somewhere is there. -/
theorem destination_put_self (f : Folder) (names : List String) (s : String) :
    (f.put names s).destination names = .file (.text s) := by
  simp [destination, put]

end Folder

end InputScript
