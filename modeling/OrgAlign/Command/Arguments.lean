import OrgAlign.Text.Ascii

/-!
# The command line

A command line names what to do and, as long options, where to find things. A value follows its
option as the next argument or behind an equals sign; a value of its own that begins with a hyphen
has to use the equals sign, unless the hyphen is all of it. No option may be given twice.
-/

namespace OrgAlign.Command

/-- What to do. -/
inductive Action
  | validate
  | plan
  | apply
deriving DecidableEq, Repr

namespace Action

/-- The word for an action. -/
def word : Action → String
  | validate => "validate"
  | plan => "plan"
  | apply => "apply"

/-- All actions. -/
def all : List Action := [validate, plan, apply]

/-- The action that a word stands for. -/
def ofWord? (word : String) : Option Action := all.find? (·.word == word)

end Action

/-- The options. -/
inductive Setting
  | config
  | org
  | root
  | legacy
  | name
  | json
deriving DecidableEq, Repr

namespace Setting

/-- The word for an option, after two hyphens. -/
def word : Setting → String
  | config => "config"
  | org => "org"
  | root => "root"
  | legacy => "legacy"
  | name => "name"
  | json => "json"

/-- The options of every action. -/
def shared : List Setting := [config, org, root, legacy, name]

/-- The options of an action. -/
def of : Action → List Setting
  | .validate => shared ++ [json]
  | _ => shared

/-- The option takes a value. -/
def takesValue (s : Setting) : Bool := s ≠ json

/-- The option accepts a value: paths are never empty. -/
def accepts (s : Setting) (value : String) : Bool := !(value.isEmpty && (s = config || s = org))

end Setting

/-- Where to find things, and how to answer. -/
structure Arguments where
  /-- The folder of the configuration. -/
  config : String
  /-- The file of the organization's snapshot. -/
  org : String
  /-- The path of the root file in the configuration. -/
  root : String
  /-- The path of the bootstrap manifest in the configuration. -/
  legacy : Option String
  /-- The name under which the published state is kept. -/
  name : String
  /-- The answer is for machines. -/
  json : Bool
deriving DecidableEq, Repr

/-- What a command line asks for. -/
inductive Invocation
  | work (action : Action) (arguments : Arguments)
  | version
  | help
  | misuse
deriving DecidableEq, Repr

/-! ### Reading options -/

/-- Options with their values, in order. -/
abbrev Given := List (Setting × String)

/-- The value of an option, if it is given. -/
def Given.value? (g : Given) (s : Setting) : Option String := (g.find? (·.1 == s)).map Prod.snd

/-- The arguments that options amount to, unless a necessary one is missing. -/
def Given.arguments? (g : Given) : Option Arguments :=
  (g.value? .org).map fun org =>
    { config := (g.value? .config).getD "."
      org
      root := (g.value? .root).getD "config.yaml"
      legacy := g.value? .legacy
      name := (g.value? .name).getD "default"
      json := (g.value? .json).isSome }

/-- The argument begins with a hyphen and is not just that. -/
def isOption (argument : String) : Bool :=
  match argument.toList with
  | '-' :: _ :: _ => true
  | _ => false

/-- The argument asks for help. -/
def asksForHelp (argument : String) : Bool :=
  argument = "--help" || (Text.dropHead ['-', 'h'] argument.toList).isSome

/-- A long option and the value behind its equals sign. -/
def longOption? (argument : String) : Option (String × Option String) :=
  (Text.dropHead ['-', '-'] argument.toList).map fun cs =>
    let value := cs.dropWhile (· ≠ '=')
    (String.ofList (cs.takeWhile (· ≠ '=')),
      if value.isEmpty then none else some (String.ofList value.tail))

/-- How far the options of an action could be read. -/
inductive Reading
  | given (g : Given)
  | help
  | misuse
deriving DecidableEq, Repr

/-- Adds an option. -/
def Given.add? (g : Given) (s : Setting) (value : String) : Option Given :=
  if g.any (·.1 == s) || !s.accepts value then none else some (g ++ [(s, value)])

/-- Reads the options of an action. -/
def readOptions (action : Action) : List String → Given → Reading
  | [], g => .given g
  | argument :: rest, g =>
    if asksForHelp argument then .help
    else if argument = "--" then (if rest.isEmpty then .given g else .misuse)
    else
      match longOption? argument with
      | none => .misuse
      | some (word, value?) =>
        match (Setting.of action).find? (·.word == word), value?, rest with
        | none, _, _ => .misuse
        | some s, none, rest =>
          if s.takesValue then
            match rest with
            | [] => .misuse
            | value :: rest =>
              if isOption value then .misuse
              else match g.add? s value with
                | some g => readOptions action rest g
                | none => .misuse
          else match g.add? s "" with
            | some g => readOptions action rest g
            | none => .misuse
        | some s, some value, rest =>
          if s.takesValue then
            match g.add? s value with
            | some g => readOptions action rest g
            | none => .misuse
          else .misuse

/-- Reads the options and checks that the necessary ones are there. -/
def readAction (action : Action) (arguments : List String) : Invocation :=
  match readOptions action arguments [] with
  | .help => .help
  | .misuse => .misuse
  | .given g =>
    match g.arguments? with
    | some a => .work action a
    | none => .misuse

/-- Reads a command line. -/
def Invocation.read : List String → Invocation
  | [] => .misuse
  | first :: rest =>
    if asksForHelp first then .help
    else if first = "--version" || (Text.dropHead ['-', 'V'] first.toList).isSome then .version
    else if first = "help" then
      match rest with
      | [] => .help
      | [word] => if word = "help" || (Action.ofWord? word).isSome then .help else .misuse
      | _ => .misuse
    else match Action.ofWord? first with
      | some action => readAction action rest
      | none => .misuse

end OrgAlign.Command
