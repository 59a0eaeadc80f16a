/-!
# Options of the command

The command takes one file name and the option `--tree`, in any order; `-h` and `--help` ask for
help. A long option may be cut short as long as it is the only one that starts that way, and
after `--` there are no options any more.

## Main definitions

- `Invocation` — what the command is asked to do
- `Invocation.ofArguments` — the meaning of its arguments
-/

namespace GrammarNotation

/-- A long option of the command. -/
inductive LongOption where
  | help
  | tree
  deriving DecidableEq

/-- The spelling of a long option. -/
def LongOption.spelling : LongOption → String
  | .help => "--help"
  | .tree => "--tree"

/-- The long options in alphabetical order. -/
def LongOption.all : List LongOption := [.help, .tree]

/-- What the command is asked to do. -/
inductive Invocation where
  | help
  | misuse (complaint : String)
  /-- Read a file and show its tree, drawn or as indented lines. -/
  | display (file : String) (drawn : Bool)
  deriving DecidableEq

/-- The meaning of a long option: the option, or what is wrong with it. A value, which would stand
behind an equals sign, is never allowed. -/
def LongOption.ofArgument (argument : String) : Except String LongOption :=
  let name := argument.toList.takeWhile (· != '=')
  let hasValue := argument.toList.contains '='
  let candidates := LongOption.all.filter fun o => name.isPrefixOf o.spelling.toList
  match candidates with
  | [] => .error ("no such option: " ++ String.ofList name)
  | [o] => if hasValue then .error (o.spelling ++ " option does not take a value") else .ok o
  | _ =>
    .error ("ambiguous option: " ++ String.ofList name ++ " ("
      ++ ", ".intercalate (candidates.map LongOption.spelling) ++ "?)")

namespace Invocation

/-- The invocation when all options are known: there must be one file name. -/
def ofFiles (drawn : Bool) : List String → Invocation
  | [file] => .display file drawn
  | _ => .misuse "expected exactly one input file"

/-- The meaning of the arguments that are left, after those that were dealt with. -/
def ofRest (drawn : Bool) (files : List String) : List String → Invocation
  | [] => ofFiles drawn files
  | argument :: rest =>
    match argument.toList with
    | ['-', '-'] => ofFiles drawn (files ++ rest)
    | '-' :: '-' :: _ =>
      match LongOption.ofArgument argument with
      | .error complaint => .misuse complaint
      | .ok .help => .help
      | .ok .tree => ofRest true files rest
    | '-' :: letter :: _ =>
      if letter = 'h' then .help
      else .misuse ("no such option: " ++ String.ofList ['-', letter])
    | _ => ofRest drawn (files ++ [argument]) rest

/-- The meaning of the arguments of the command. -/
def ofArguments (arguments : List String) : Invocation :=
  ofRest false [] arguments

end Invocation

end GrammarNotation
