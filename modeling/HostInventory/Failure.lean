import HostInventory.Path

/-! Why a fact is missing. A fault is what the operating system says of one file; a failure is
what the inventory says of a source, a text, a collector or the settings. Wording stands in one
function for each. -/
namespace HostInventory

inductive Fault
  | missing
  | isDirectory
  | notDirectory
  | linkLoop
  | nameTooLong
  | nulInPath
  | notUtf8
  | reported (text : String)
  deriving DecidableEq

def Fault.message : Fault → String
  | .missing => "No such file or directory (os error 2)"
  | .isDirectory => "Is a directory (os error 21)"
  | .notDirectory => "Not a directory (os error 20)"
  | .linkLoop => "Too many levels of symbolic links (os error 40)"
  | .nameTooLong => "File name too long (os error 36)"
  | .nulInPath => "file name contained an unexpected NUL byte"
  | .notUtf8 => "stream did not contain valid UTF-8"
  | .reported text => text

/-- Why a text is not what was expected. -/
inductive Malformed
  | notInteger
  | integerTooLarge
  | emptySize
  | sizeTooLarge
  | reversedRange
  | rangeTooWide
  | notCodePair
  | because (reason : String)
  deriving DecidableEq

def Malformed.message : Malformed → String
  | .notInteger => "not a decimal or 0x-hex integer"
  | .integerTooLarge => "number too large to fit in target type"
  | .emptySize => "empty size"
  | .sizeTooLarge => "size overflows 64 bits"
  | .reversedRange => "range end precedes start"
  | .rangeTooWide => "range too wide"
  | .notCodePair => "not a CPU code pair"
  | .because reason => reason

inductive Failure
  | unreadable (path : Path) (fault : Fault)
  | notFound (path : Path)
  | unparsable (input : String) (why : Malformed)
  | noProcessors (path : Path)
  | unknownCollector (name : String)
  | collector (name message : String)
  | settings (message : String)
  | json (message : String)
  | unsupported (message : String)
  deriving DecidableEq

namespace Failure

/-- A fault met at a path. A missing file is told apart from every other fault. -/
def reading (path : Path) : Fault → Failure
  | .missing => .notFound path
  | fault => .unreadable path fault

def message : Failure → String
  | .unreadable path fault => "I/O error at '" ++ path.text ++ "': " ++ fault.message
  | .notFound path => "Path not found: " ++ path.text
  | .unparsable input why => "Cannot parse '" ++ input ++ "': " ++ why.message
  | .noProcessors path => "No processor stanza found in " ++ path.text
  | .unknownCollector name => "Unknown collector: " ++ name
  | .collector name message => "[" ++ name ++ "] " ++ message
  | .settings message => "Configuration error: " ++ message
  | .json message => "JSON error: " ++ message
  | .unsupported message => "Unsupported operation: " ++ message

def isNotFound : Failure → Bool
  | .notFound _ => true
  | _ => false

def path? : Failure → Option Path
  | .unreadable path _ | .notFound path | .noProcessors path => some path
  | _ => none

end Failure

end HostInventory
