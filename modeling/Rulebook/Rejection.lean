/-!
# Rejections

The reasons for which a request is turned down before anything is solved.
-/

namespace Rulebook

/-- The formats in which a request can be written. -/
inductive Format where
  | json
  | yaml
deriving DecidableEq, Repr

/-- The name of a format in a reason. -/
def Format.name : Format → String
  | json => "JSON"
  | yaml => "YAML"

/-- Why a file cannot be read. -/
inductive FileFault where
  | missing
  | directory
  /-- The path goes through a file as if that were a directory. -/
  | notDirectory
  /-- The path or a name in it is longer than can be looked up. -/
  | nameTooLong
  /-- Something else, by what the system calls it. -/
  | other (name : String)
deriving DecidableEq, Repr

/-- What a fault is called in a reason. -/
def FileFault.name : FileFault → String
  | missing => "No such file or directory"
  | directory => "Is a directory"
  | notDirectory => "Not a directory"
  | nameTooLong => "File name too long"
  | other name => name

/-- Why a request cannot be used. -/
inductive Rejection where
  | requestNotObject
  | rulesNotTexts
  | variablesNotObject
  | variableNotTruth (name : String)
  | variableNotNumber (name : String)
  /-- The text is not of the format that it should be; whoever decoded it may have said more. -/
  | malformed (format : Format) (complaint : Option String)
  /-- A file cannot be read. -/
  | unreadable (path : String) (fault : FileFault)
  /-- A file of rules holds something else. -/
  | fileNotTexts
deriving DecidableEq, Repr

/-- The reason given to the sender. -/
def Rejection.reason : Rejection → String
  | requestNotObject => "request must be an object"
  | rulesNotTexts => "additional_rules must be a list of strings"
  | variablesNotObject => "variables must be an object"
  | variableNotTruth name => "variable " ++ name ++ " must be a boolean"
  | variableNotNumber name => "variable " ++ name ++ " must be a number"
  | malformed format none => "malformed " ++ format.name
  | malformed format (some complaint) => "malformed " ++ format.name ++ ": " ++ complaint
  | unreadable path fault => "cannot read " ++ path ++ ": " ++ fault.name
  | fileNotTexts => "rules file must hold a list of strings"

end Rulebook
