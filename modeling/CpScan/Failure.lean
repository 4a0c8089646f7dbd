/-
# Failures of the program

Every way the program can end badly, with its wording (`Failure.message`) and its exit status
(`Failure.exitStatus`).  The statuses are those of the system's convention: 64 for a wrong
command line, 65 for a source text with errors, 74 for input and output that failed, 78 for
settings that cannot be used.

Settings that are refused are described in the words of the TOML library, which are not known here.
So the failure keeps the text that was refused, and its wording takes the words as a parameter
(`TomlReport`).
-/
import CpScan.Diagnostic

namespace CpScan

/-! ## 1. Input and output -/

/-- Why input or output failed. -/
inductive IoCause where
  /-- No file has this name. -/
  | notFound
  /-- A directory stands where a file was expected. -/
  | isDirectory
  /-- A name goes on behind something that is no directory. -/
  | notDirectory
  /-- A path, or a name in it, is longer than the system takes. -/
  | nameTooLong
  /-- A path holds U+0000. -/
  | nulInPath
  /-- A text file that is not UTF-8. -/
  | notUtf8
  /-- A channel has no room left. -/
  | channelFull
  /-- A channel could not be flushed. -/
  | flushFailed
  /-- The input broke off. -/
  | readFailed
  /-- Any other cause, in words. -/
  | other (text : String)
deriving DecidableEq, Repr

/-- The wording of a cause. -/
def IoCause.message : IoCause → String
  | notFound => "No such file or directory (os error 2)"
  | isDirectory => "Is a directory (os error 21)"
  | notDirectory => "Not a directory (os error 20)"
  | nameTooLong => "File name too long (os error 36)"
  | nulInPath => "file name contained an unexpected NUL byte"
  | notUtf8 => "stream did not contain valid UTF-8"
  | channelFull => "writer full"
  | flushFailed => "flush failed"
  | readFailed => "read failed"
  | other text => text

/-! ## 2. Settings -/

/-- What the TOML library says of a text that is refused as settings: the line and the column, the
line as it stands, and what is wrong there.  It depends on the text alone. -/
abbrev TomlReport := List Char → String

/-- The words of the library left out. -/
def TomlReport.omitted : TomlReport := fun _ => ""

/-- Why settings cannot be used. -/
inductive SettingsFault where
  /-- The file asked for does not exist. -/
  | missing (path : String)
  /-- The text is no TOML document. -/
  | notToml (text : List Char)
  /-- The text is a document that holds something that is no setting, or a setting of the wrong
  type. -/
  | notSettings (text : List Char)
  /-- Any other fault, in words. -/
  | other (text : String)
deriving DecidableEq, Repr

/-- The wording of a fault. -/
def SettingsFault.message (report : TomlReport) : SettingsFault → String
  | missing path => "Configuration file not found: " ++ path
  | notToml text | notSettings text => "Failed to parse configuration: " ++ report text
  | other text => text

/-! ## 3. The program -/

/-- How the program can end badly. -/
inductive Failure where
  /-- The command line is wrong; the text says how. -/
  | usage (text : String)
  /-- The source file cannot be read. -/
  | unreadable (path : String) (cause : IoCause)
  /-- Input or output failed. -/
  | io (cause : IoCause)
  /-- The settings cannot be used. -/
  | settings (fault : SettingsFault)
  /-- The source text has errors, which have been shown. -/
  | reported (count : Nat)
deriving DecidableEq, Repr

namespace Failure

/-- The wording of a failure. -/
def message (failure : Failure) (report : TomlReport := .omitted) : String :=
  match failure with
  | usage text => text
  | unreadable path cause => "cannot read '" ++ path ++ "': " ++ cause.message
  | io cause => "IO error: " ++ cause.message
  | settings fault => "Configuration error: " ++ fault.message report
  | reported count => reportedMessage count

/-- The exit status of a failure. -/
def exitStatus : Failure → Nat
  | usage _ => 64
  | reported _ => 65
  | unreadable .. | io _ => 74
  | settings _ => 78

end Failure

end CpScan
