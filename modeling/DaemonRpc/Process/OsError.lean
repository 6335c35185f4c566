/-!
# Errors of the operating system

The system answers a refused request with a number.  `OsError.message` is the sentence for
it, with the number behind.
-/

namespace DaemonRpc

/-- An error of the operating system: its number, or words of their own. -/
inductive OsError where
  | code (n : Nat)
  | described (text : String)
deriving DecidableEq, Inhabited

namespace OsError

/-- There is no such child. -/
def noChild : OsError := .code 10

/-- The sentences for the numbers, from one on. -/
def sentences : List String := [
  "Operation not permitted", "No such file or directory", "No such process",
  "Interrupted system call", "Input/output error", "No such device or address",
  "Argument list too long", "Exec format error", "Bad file descriptor", "No child processes",
  "Resource temporarily unavailable", "Cannot allocate memory", "Permission denied",
  "Bad address", "Block device required", "Device or resource busy", "File exists",
  "Invalid cross-device link", "No such device", "Not a directory", "Is a directory",
  "Invalid argument", "Too many open files in system", "Too many open files",
  "Inappropriate ioctl for device", "Text file busy", "File too large",
  "No space left on device", "Illegal seek", "Read-only file system", "Too many links",
  "Broken pipe", "Numerical argument out of domain", "Numerical result out of range",
  "Resource deadlock avoided", "File name too long", "No locks available",
  "Function not implemented", "Directory not empty", "Too many levels of symbolic links"]

/-- The sentences for the numbers of failed connections. -/
def connectionSentences : List (Nat × String) := [
  (98, "Address already in use"), (99, "Cannot assign requested address"),
  (100, "Network is down"), (101, "Network is unreachable"),
  (103, "Software caused connection abort"), (104, "Connection reset by peer"),
  (110, "Connection timed out"), (111, "Connection refused"), (113, "No route to host")]

/-- The sentence for a number. -/
def sentence (n : Nat) : String :=
  if n = 0 then "Success"
  else
    match sentences[n - 1]? with
    | some s => s
    | none => (connectionSentences.lookup n).getD s!"Unknown error {n}"

/-- The error in words. -/
def message : OsError → String
  | .code n => sentence n ++ s!" (os error {n})"
  | .described text => text

end OsError

end DaemonRpc
