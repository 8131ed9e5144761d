/-!
# File faults

Why reading, listing or writing files fails.
-/

namespace Templating.Files

inductive Fault where
  | absent
  /-- A path goes on below something that is no directory. -/
  | notDirectory
  /-- A directory stands where a file is read. -/
  | isDirectory
  /-- Something that is no directory stands where one is to be made. -/
  | inTheWay
  /-- The bytes of a file are no text. -/
  | notText
  /-- Any other fault, in the words of whoever met it. -/
  | other (message : String)
deriving DecidableEq, Repr

def Fault.message : Fault → String
  | absent => "No such file or directory (os error 2)"
  | notDirectory => "Not a directory (os error 20)"
  | isDirectory => "Is a directory (os error 21)"
  | inTheWay => "File exists (os error 17)"
  | notText => "stream did not contain valid UTF-8"
  | other message => message

end Templating.Files
