/-!
The working directory of the tool: text files by their path of names, and the failures of
the file system around it.
-/

namespace ProtoLayout.Command

inductive FileError where
  | notFound
  | notDirectory
  | isDirectory
  /-- The device has nothing behind it, as a terminal without a session. -/
  | noDevice
  | noSpace
  /-- A name longer than 255 bytes, or a path of 4096 bytes or more. -/
  | nameTooLong
  | tooManyLinks
  | permissionDenied
  /-- The kernel keeps this from the tool whatever its rights on files. -/
  | notPermitted
  | ioError
  /-- A kernel setting given text that is not a value of it, or an object that reads as no text. -/
  | invalidArgument
  | textBusy
  | notText
deriving DecidableEq, Repr

def FileError.message : FileError → String
  | .notFound => "No such file or directory (os error 2)"
  | .notDirectory => "Not a directory (os error 20)"
  | .isDirectory => "Is a directory (os error 21)"
  | .noDevice => "No such device or address (os error 6)"
  | .noSpace => "No space left on device (os error 28)"
  | .nameTooLong => "File name too long (os error 36)"
  | .tooManyLinks => "Too many levels of symbolic links (os error 40)"
  | .permissionDenied => "Permission denied (os error 13)"
  | .notPermitted => "Operation not permitted (os error 1)"
  | .ioError => "Input/output error (os error 5)"
  | .invalidArgument => "Invalid argument (os error 22)"
  | .textBusy => "Text file busy (os error 26)"
  | .notText => "stream did not contain valid UTF-8"

def FileError.ofCode : Nat → Option FileError
  | 1 => some .notPermitted
  | 2 => some .notFound
  | 5 => some .ioError
  | 6 => some .noDevice
  | 13 => some .permissionDenied
  | 20 => some .notDirectory
  | 21 => some .isDirectory
  | 22 => some .invalidArgument
  | 26 => some .textBusy
  | 28 => some .noSpace
  | 36 => some .nameTooLong
  | 40 => some .tooManyLinks
  | _ => none

structure Directory where
  files : List (List String × String) := []
deriving Inhabited

def Directory.file? (d : Directory) (path : List String) : Option String :=
  (d.files.find? (·.1 == path)).map (·.2)

/-- The directory itself or a proper prefix of a file's path. -/
def Directory.isFolder (d : Directory) (path : List String) : Bool :=
  path.isEmpty || d.files.any fun (p, _) => path.length < p.length && path.isPrefixOf p

def Directory.put (d : Directory) (path : List String) (content : String) : Directory :=
  if (d.file? path).isSome then
    ⟨d.files.map fun (p, c) => if p == path then (p, content) else (p, c)⟩
  else ⟨d.files ++ [(path, content)]⟩

end ProtoLayout.Command
