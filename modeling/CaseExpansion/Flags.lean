import CaseExpansion.Text.Quoted

namespace CaseExpansion

/-!
# Flags

A flag is given with one or two dashes and its name.  A switch is on when it is given,
unless a truth value follows after an equals sign.  Every other flag takes a text,
after an equals sign or as the next argument.  Flags end at the first argument that is
none, or after two dashes alone.
-/

def truthValue? (text : Bytes) : Option Bool :=
  let trueWords : List Bytes := ["1", "t", "T", "true", "TRUE", "True"]
  let falseWords : List Bytes := ["0", "f", "F", "false", "FALSE", "False"]
  if trueWords.elem text then some true else if falseWords.elem text then some false else none

/-- A flag of a command: its name, whether it is a switch, what it is for, and the
value it has when it is not given. -/
structure Flag where
  name : Bytes
  isSwitch : Bool
  purpose : Bytes
  default : Bytes := []
deriving DecidableEq, Repr

inductive FlagError where
  | help
  | badForm (argument : Bytes)
  | unknown (name : Bytes)
  | needsValue (name : Bytes)
  | notTruthValue (name value : Bytes)
deriving DecidableEq, Repr

namespace FlagError

/-- The wording of an error.  Asking for help is none. -/
def message? : FlagError → Option Bytes
  | help => none
  | badForm argument => some ("bad flag syntax: " ++ argument)
  | unknown name => some ("flag provided but not defined: -" ++ name)
  | needsValue name => some ("flag needs an argument: -" ++ name)
  | notTruthValue name value =>
    some ("invalid boolean value " ++ Text.Quoted.encode value ++ " for -" ++ name ++ ": parse error")

end FlagError

namespace Flag

/-- The flag at the start of an argument, without dashes: its name, and the value
after an equals sign. -/
def split (text : Bytes) : Bytes × Option Bytes :=
  match Bytes.cutAt? "=" text with
  | some (name, value) => (name, some value)
  | none => (text, none)

/-- An argument that is a flag, without its dashes. -/
def body? : Bytes → Option Bytes
  | first :: second :: rest =>
    if first ≠ byte '-' then none
    else if second = byte '-' then some rest
    else some (second :: rest)
  | _ => none

def isMalformed (body : Bytes) : Bool :=
  match body with
  | [] => true
  | first :: _ => first = byte '-' || first = byte '='

/-- The flags that arguments give, with their values, and the arguments after them. -/
def parse (flags : List Flag) : List Bytes → Except FlagError (List (Bytes × Bytes) × List Bytes)
  | [] => .ok ([], [])
  | argument :: rest =>
    match body? argument with
    | none => .ok ([], argument :: rest)
    | some body =>
      if argument == Bytes.ofString "--" then .ok ([], rest)
      else if isMalformed body then .error (.badForm argument)
      else
        let (name, value?) := split body
        match flags.find? fun flag => flag.name == name with
        | none =>
          if name == Bytes.ofString "help" || name == Bytes.ofString "h" then .error .help
          else .error (.unknown name)
        | some flag =>
          if flag.isSwitch then
            let value := value?.getD "true"
            if (truthValue? value).isNone then .error (.notTruthValue name value)
            else (parse flags rest).map fun (given, others) => ((name, value) :: given, others)
          else
            match value?, rest with
            | some value, rest =>
              (parse flags rest).map fun (given, others) => ((name, value) :: given, others)
            | none, value :: rest =>
              (parse flags rest).map fun (given, others) => ((name, value) :: given, others)
            | none, [] => .error (.needsValue name)

/-- The value that a flag has: the one given last, or its default. -/
def value (flags : List Flag) (given : List (Bytes × Bytes)) (name : Bytes) : Bytes :=
  match given.reverse.lookup name with
  | some value => value
  | none => ((flags.find? fun flag => flag.name == name).map Flag.default).getD []

def isOn (given : List (Bytes × Bytes)) (name : Bytes) : Bool :=
  ((given.reverse.lookup name).bind truthValue?).getD false

def describe (flag : Flag) : Bytes :=
  let head : Bytes := "  -" ++ flag.name ++ (if flag.isSwitch then [] else Bytes.ofString " string")
  let separator : Bytes := if head.length ≤ 4 then "\t" else "\n    \t"
  let shown : Bytes :=
    if flag.default.isEmpty then [] else " (default " ++ Text.Quoted.encode flag.default ++ ")"
  head ++ separator ++ flag.purpose ++ shown ++ "\n"

end Flag
end CaseExpansion
