/-! Errors in the use of a command line and their wording. -/

namespace GeoAlmanac.CommandLine

inductive Refusal where
  | missing
  | unlisted
  | unreadable (reason : String)

/-- What is wrong with the arguments of a program. Options appear as they are shown to users. -/
inductive UsageError where
  | unexpectedArgument (text : String)
  | unexpectedValue (value option : String)
  | unknownCommand (name : String)
  | noCommand (program : String)
  | missingOptions
  | missingValue (option : String)
  | refusedValue (value option : String) (reason : Option String)
  | repeatedOption (option : String)
  | conflict (option : String) (others : List String)

def Refusal.error (value option : String) : Refusal → UsageError
  | .missing => .missingValue option
  | .unlisted => .refusedValue value option none
  | .unreadable reason => .refusedValue value option (some reason)

def UsageError.message : UsageError → String
  | .unexpectedArgument text => "unexpected argument '" ++ text ++ "' found"
  | .unexpectedValue value option =>
    "unexpected value '" ++ value ++ "' for '" ++ option ++ "' found; no more were expected"
  | .unknownCommand name => "unrecognized subcommand '" ++ name ++ "'"
  | .noCommand program => "'" ++ program ++ "' requires a subcommand but one was not provided"
  | .missingOptions => "the following required arguments were not provided:"
  | .missingValue option => "a value is required for '" ++ option ++ "' but none was supplied"
  | .refusedValue value option reason =>
    "invalid value '" ++ value ++ "' for '" ++ option ++ "'"
      ++ (match reason with
        | some r => ": " ++ r
        | none => "")
  | .repeatedOption option => "the argument '" ++ option ++ "' cannot be used multiple times"
  | .conflict option others =>
    "the argument '" ++ option ++ "' cannot be used with"
      ++ (match others with
        | [other] => " '" ++ other ++ "'"
        | _ => ":")

def UsageError.line (e : UsageError) : String :=
  String.ofList (("error: " ++ e.message).toList.takeWhile (· ≠ '\n'))

end GeoAlmanac.CommandLine
