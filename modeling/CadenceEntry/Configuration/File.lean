import CadenceEntry.Configuration.Basic
import CadenceEntry.Configuration.Loader
import CadenceEntry.Files

/-!
# Configuration files

A configuration can be kept in a file as a mapping, which a loader reads. A file whose content
counts as nothing gives the default configuration.
-/

set_option autoImplicit false

namespace CadenceEntry

/-- Why a file gives no configuration. -/
inductive ConfigurationError where
  | missing (path : String)
  /-- The path leads to something that cannot be read. -/
  | unreadable (e : FileError)
  | undecodable (e : Text.Utf8.DecodeError)
  | malformed (path problem : String)
  /-- The loader fails in another way. -/
  | unloadable (kind : String) (message : Option String)
  | notMapping (path : String)
  | badOption (e : OptionError)
  deriving DecidableEq, Repr

/-- The message of an error that is reported. The others end the run at once. -/
def ConfigurationError.message? : ConfigurationError → Option String
  | missing path => some ("config file not found: " ++ path)
  | malformed path problem => some ("malformed config file " ++ path ++ ": " ++ problem)
  | notMapping path => some ("config file " ++ path ++ " must contain a mapping")
  | unreadable _ | undecodable _ | unloadable _ _ | badOption .tooLong => none
  | badOption e => some e.message

/-- Whether nothing counts as being there because of an error: no such file, no such directory, a
bad descriptor, or too many links. -/
def FileError.isAbsence (e : FileError) : Bool := [2, 20, 9, 40].contains e.code

namespace Configuration

/-- The configuration that a loaded document describes. -/
def ofLoaded (path : String) :
    Except LoadFault Content → Except ConfigurationError (Configuration Bool)
  | .error (.malformed problem) => .error (.malformed path problem)
  | .error (.other kind message) => .error (.unloadable kind message)
  | .ok (.mapping value?) => (ofMapping value?).mapError .badOption
  | .ok (.other counts) => if counts then .error (.notMapping path) else .ok default

/-- The configuration in a file, given its bytes or the reason why it cannot be read. -/
def ofFile (l : Loader) (path : String) (file : Except FileError (List UInt8)) :
    Except ConfigurationError (Configuration Bool) :=
  match file with
  | .error e => .error (if e.isAbsence then .missing path else .unreadable e)
  | .ok bytes =>
    match l.load bytes with
    | .error e => .error (.undecodable e)
    | .ok result => ofLoaded path result

end Configuration

end CadenceEntry
