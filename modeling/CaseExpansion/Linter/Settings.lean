import CaseExpansion.Flags

namespace CaseExpansion
namespace Linter

/-!
# Settings of the linter

The linter has one flag, which tells whether directives that come too late are
reported.  Settings come by name, as flags or as the section of a configuration file,
whose values have to be texts.
-/

def lateFlag : Bytes := "misordered"

def linterName : Bytes := "casecheck"

inductive SetError where
  | unknown (name : Bytes)
  | notTruthValue
deriving DecidableEq, Repr

def SetError.message : SetError → Bytes
  | unknown name => "no such flag -" ++ name
  | notTruthValue => "parse error"

/-- Sets a flag.  A text that is no truth value turns the flag off, besides being an
error. -/
def setFlag (current : Bool) (name value : Bytes) : Bool × Option SetError :=
  if name ≠ lateFlag then (current, some (.unknown name))
  else
    match truthValue? value with
    | some value => (value, none)
    | none => (false, some .notTruthValue)

inductive ConfigValue where
  | null
  | truth
  | number
  | text (text : Bytes)
  | list
  | map
deriving DecidableEq, Repr

def ConfigValue.typeName : ConfigValue → Bytes
  | null => "<nil>"
  | truth => "bool"
  | number => "float64"
  | text _ => "string"
  | list => "[]interface \x7b\x7d"
  | map => "map[string]interface \x7b\x7d"

inductive Config where
  | absent
  | value (value : ConfigValue)
  | entries (entries : List (Bytes × ConfigValue))
deriving DecidableEq, Repr

inductive ConfigError where
  | notMap (found : ConfigValue)
  | notText (name : Bytes) (found : ConfigValue)
  | rejected (name value : Bytes) (error : SetError)
deriving DecidableEq, Repr

def ConfigError.message : ConfigError → Bytes
  | notMap found =>
    "expect casecheck's configurations to be a map from string to string (similar to command line flags), got "
      ++ found.typeName
  | notText name found =>
    "expect casecheck's configuration values for " ++ Text.Quoted.encode name
      ++ " to be strings, got " ++ found.typeName
  | rejected name value error =>
    "set casecheck flag " ++ name ++ " with " ++ value ++ ": " ++ error.message

def Config.texts : Config → Except ConfigError (List (Bytes × Bytes))
  | absent => .ok []
  | value found => .error (.notMap found)
  | entries named =>
    named.mapM fun (name, found) =>
      match found with
      | .text text => .ok (name, text)
      | found => .error (.notText name found)

/-- Sets flags in order, up to the first that cannot be set. -/
def applyTexts (current : Bool) : List (Bytes × Bytes) → Bool × Option ConfigError
  | [] => (current, none)
  | (name, value) :: rest =>
    match setFlag current name value with
    | (current, none) => applyTexts current rest
    | (current, some error) => (current, some (.rejected name value error))

/-- How much of a program the linter needs: its syntax. -/
def loadMode : Bytes := "syntax"

end Linter
end CaseExpansion
