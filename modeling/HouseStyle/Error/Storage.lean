import HouseStyle.Text.CaseMap

/-!
# Storage errors

What can go wrong in a database, the words for it, and the code a caller tells it
by. A message of the database engine is sorted into the kinds that a caller may
want to handle apart.
-/

namespace HouseStyle

inductive StorageError where
  | engine (message : String)
  | busy
  | corrupt (details : String)
  | diskFull
  | migration (version : Nat) (message : String)
  /-- Another writer moved the version on, or the versions do not follow each other. -/
  | versionConflict (expected found : Nat)
  /-- A stored text is not of the expected form. -/
  | serialization (entity : String) (detail : Option String)
  | notFound (entity id : String)
  deriving DecidableEq, Repr, Inhabited

namespace StorageError

def message : StorageError → String
  | engine message => "SQLite error: " ++ message
  | busy => "Database busy (another operation in progress)"
  | corrupt details => "Database corrupt: " ++ details
  | diskFull => "Disk full"
  | migration version message =>
    "Migration to version " ++ toString version ++ " failed: " ++ message
  | versionConflict expected found =>
    "Store version conflict: expected " ++ toString expected ++ ", found " ++ toString found
  | serialization entity none => "Serialization failed for " ++ entity
  | serialization entity (some detail) => "Serialization failed for " ++ entity ++ ": " ++ detail
  | notFound entity id => entity ++ " not found: " ++ id

def code : StorageError → String
  | busy => "DB_BUSY"
  | corrupt _ => "DB_CORRUPT"
  | diskFull => "DISK_FULL"
  | migration .. => "MIGRATION_FAILED"
  | versionConflict .. => "CONSISTENCY_VIOLATION"
  | engine _ | serialization .. | notFound .. => "STORAGE_ERROR"

/-- Whether `part` occurs in a text. -/
def occursIn (part : List Char) : List Char → Bool
  | [] => part.isEmpty
  | c :: rest => part.isPrefixOf (c :: rest) || occursIn part rest

/-- Sort a message of the database engine into a kind, whatever its case. -/
def ofEngineMessage (message : String) : StorageError :=
  let lowered := message.toList.flatMap Text.lowerOf
  let has (part : String) := occursIn part.toList lowered
  if has "database is locked" || has "database is busy" then busy
  else if has "database or disk is full" then diskFull
  else if has "malformed" || has "not a database" then corrupt message
  else engine message

def isBusy : StorageError → Bool
  | busy => true
  | _ => false

end StorageError

end HouseStyle
