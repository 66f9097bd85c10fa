import ClassLoom.ClassFile.Error

/-!
# What can go wrong around a class

Faults of the outside world (`IoFault`, `ArchiveFault`), and the two errors of
the pipeline, which refer to each other: a transformer fails for a reason of its
own or because a class that it asked for could not be provided, and the pipeline
fails on a class because a transformer did.

Each error names its cause; the texts are put together in one place per type.
-/

namespace ClassLoom

/-- Why data is no archive. -/
inductive ArchiveFault where
  /-- The directory of entries is missing. -/
  | noDirectory
  deriving DecidableEq, Repr

/-- The text of the fault. -/
def ArchiveFault.message : ArchiveFault → String
  | .noDirectory => "invalid Zip archive: Could not find EOCD"

/-- Why reading from the outside world failed. -/
inductive IoFault where
  /-- Nothing is there. -/
  | notFound
  /-- A file stands where a directory was expected. -/
  | notDirectory
  /-- A directory stands where a file was expected. -/
  | isDirectory
  /-- Something has the name already. -/
  | alreadyThere
  /-- A path or a part of it exceeds the file system's limit. -/
  | nameTooLong
  /-- A path contains a zero character. -/
  | nulInName
  /-- A text file is not UTF-8. -/
  | notText
  /-- Stored data does not match its checksum. -/
  | badChecksum
  /-- The data is no archive. -/
  | archive (cause : ArchiveFault)
  /-- Any other fault, by its text. -/
  | other (text : String)
  deriving DecidableEq, Repr

/-- The text of the fault. -/
def IoFault.message : IoFault → String
  | .notFound => "No such file or directory (os error 2)"
  | .notDirectory => "Not a directory (os error 20)"
  | .isDirectory => "Is a directory (os error 21)"
  | .alreadyThere => "File exists (os error 17)"
  | .nameTooLong => "File name too long (os error 36)"
  | .nulInName => "file name contained an unexpected NUL byte"
  | .notText => "stream did not contain valid UTF-8"
  | .badChecksum => "Invalid checksum"
  | .archive cause => cause.message
  | .other text => text

mutual

/-- Why a transformer failed on a class. -/
inductive TransformError where
  /-- The transformer's own reason. -/
  | failed (text : String)
  /-- The class breaks a structural rule after the transformer's edits. -/
  | invalid (cause : VerifyError)
  /-- The edited class has no binary form. -/
  | encode (cause : ClassFileError)
  /-- A class that the transformer asked for could not be provided. -/
  | lookup (cause : PipelineError)
  /-- Any other reason, by its text. -/
  | other (text : String)

/-- Why the pipeline failed. -/
inductive PipelineError where
  /-- The class file of `className` is unreadable or invalid. -/
  | decode (className : String) (cause : ClassFileError)
  /-- A transformer failed. -/
  | transform (transformer className : String) (cause : TransformError)
  /-- Nobody has the class, or a transformer vetoed it. -/
  | notFound (className : String)
  /-- The outside world failed. -/
  | io (cause : IoFault)
  /-- An archive is none. -/
  | archive (cause : ArchiveFault)

end

deriving instance DecidableEq for TransformError, PipelineError

mutual

/-- The text of the error. -/
def TransformError.message : TransformError → String
  | .failed text => text
  | .invalid cause => "Produced an invalid class: " ++ cause.message
  | .encode cause => "Failed to encode transformed class: " ++ cause.message
  | .lookup cause => "Class lookup failed: " ++ cause.message
  | .other text => text

/-- The text of the error. -/
def PipelineError.message : PipelineError → String
  | .decode className cause => s!"Failed to decode class '{className}': " ++ cause.message
  | .transform transformer className cause =>
    s!"Transformer '{transformer}' failed on class '{className}': " ++ cause.message
  | .notFound className => s!"The specified class '{className}' was not found"
  | .io cause => "IO error: " ++ cause.message
  | .archive cause => "Archive error: " ++ cause.message

end

/-- Whether only the bytes of a single class are at fault. -/
def PipelineError.isDecodeFailure : PipelineError → Bool
  | .decode .. => true
  | _ => false

end ClassLoom
