import SwiftStyle.Path

/-!
# Arguments

The arguments of a run name a command, its options and its path. Options
have a long name behind two hyphens, and some a letter behind one; a
value stands in the next argument, or in the same one, behind an equals
sign or, after a letter, right away. Letters without values may share a
hyphen. Behind two hyphens alone nothing is an option any more.

Options of the whole program may stand before the command or behind it;
the one behind it counts. Every option is given at most once at either
place, but for patterns to pass over, which add up.

An argument that makes no sense, a value of the wrong sort, or a missing
command or value is wrong usage: there is no request then.
-/

namespace SwiftStyle.CommandLine

/-- **How a result is shown.** -/
inductive Format where
  /-- For people, with colours. -/
  | text
  /-- As JSON. -/
  | json
  /-- One line for each violation. -/
  | compact
  /-- With pieces of the source. -/
  | pretty
deriving DecidableEq, Repr, Inhabited

/-- The format of a name. -/
def Format.ofName? : String → Option Format
  | "text" => some text
  | "json" => some json
  | "compact" => some compact
  | "pretty" => some pretty
  | _ => none

/-- **A command.** -/
inductive Command where
  /-- Show the violations below a path. -/
  | lint (path : Path) (format : Format) (rules : Option String)
      (exclude : List String)
  /-- Correct the files below a path. -/
  | autocorrect (path : Path) (exclude : List String)
  /-- List the rules. -/
  | rules
  /-- Write a configuration to start from. -/
  | init (force : Bool)
deriving DecidableEq, Repr

/-- **What a run is asked to do.** -/
inductive Request where
  /-- Show the version. -/
  | version
  /-- Carry out a command, with the configuration at a path if one is
  given. -/
  | run (config : Option Path) (command : Command)
deriving DecidableEq, Repr

/-! ## Options and their values -/

/-- **An option that a command knows.** -/
structure OptionSpec where
  /-- The name behind two hyphens. -/
  long : String
  /-- The letter behind one hyphen. -/
  short : Option Char
  /-- Whether it has a value. -/
  hasValue : Bool
deriving DecidableEq, Repr

/-- **What an argument turned out to be.** -/
inductive Item where
  /-- An option without a value. -/
  | flag (long : String)
  /-- An option with its value. -/
  | value (long text : String)
  /-- Something else. -/
  | operand (text : String)
deriving DecidableEq, Repr

/-- **How the arguments of a command end.** -/
inductive Ending where
  /-- There are no more. -/
  | done
  /-- One of them makes no sense. -/
  | wrong
  /-- A command follows, with arguments of its own. -/
  | command (name : String) (arguments : List String)
deriving DecidableEq, Repr

/-- What letters behind a hyphen end with: nothing more, a letter that
makes no sense, or an option whose value is in the next argument. -/
inductive LettersEnd where
  /-- Nothing more. -/
  | done
  /-- A letter that makes no sense. -/
  | wrong
  /-- An option without its value. -/
  | wants (long : String)
deriving DecidableEq, Repr

/-- The value that is written in the same argument as its letter. -/
def attached : List Char → String
  | '=' :: rest => String.ofList rest
  | text => String.ofList text

/-- The options that letters behind a hyphen stand for. -/
def readLetters (specs : List OptionSpec) :
    List Char → List Item × LettersEnd
  | [] => ([], .done)
  | c :: rest =>
    match specs.find? fun s => s.short == some c with
    | none => ([], .wrong)
    | some s =>
      if !s.hasValue then
        let (items, last) := readLetters specs rest
        (.flag s.long :: items, last)
      else if rest.isEmpty then ([], .wants s.long)
      else ([.value s.long (attached rest)], .done)

/-- Whether an argument cannot be the value of an option before it. -/
def looksLikeOption (argument : String) : Bool :=
  argument != "-" && argument.toList.head? == some '-'

/-- The name and the value of an argument behind two hyphens. -/
def splitLong (text : List Char) : String × Option String :=
  let name := String.ofList (text.takeWhile (· != '='))
  match text.dropWhile (· != '=') with
  | _ :: value => (name, some (String.ofList value))
  | [] => (name, none)

/-- The options of one argument: letters, or a long name. -/
def readOption (specs : List OptionSpec) (argument : String) :
    List Item × LettersEnd :=
  match argument.toList with
  | '-' :: '-' :: text =>
    let (name, value) := splitLong text
    match specs.find? fun s => s.long == name, value with
    | none, _ => ([], .wrong)
    | some s, some v =>
      if s.hasValue then ([.value s.long v], .done) else ([], .wrong)
    | some s, none =>
      if s.hasValue then ([], .wants s.long) else ([.flag s.long], .done)
  | text => readLetters specs text.tail

/-- **The items that arguments stand for**, given the options and the
names of commands, up to a command or to one that makes no sense. -/
def readItems (specs : List OptionSpec) (commands : List String) :
    List String → List Item × Ending
  | [] => ([], .done)
  | argument :: rest =>
    if commands.contains argument then ([], .command argument rest)
    else if argument = "--" then (rest.map .operand, .done)
    else if looksLikeOption argument then
      match readOption specs argument, rest with
      | (items, .done), rest =>
        let (later, ending) := readItems specs commands rest
        (items ++ later, ending)
      | (items, .wants long), value :: rest =>
        if looksLikeOption value then (items, .wrong)
        else
          let (later, ending) := readItems specs commands rest
          (items ++ .value long value :: later, ending)
      | (items, _), _ => (items, .wrong)
    else
      let (later, ending) := readItems specs commands rest
      (.operand argument :: later, ending)

/-! ## What is given -/

/-- **What the arguments of a command give.** -/
structure Given where
  /-- Options without values. -/
  flags : List String := []
  /-- The path of a configuration. -/
  config : Option String := none
  /-- The format. -/
  format : Option Format := none
  /-- The only rules to run. -/
  rules : Option String := none
  /-- Patterns to pass over. -/
  exclude : List String := []
  /-- The path to work on. -/
  path : Option String := none
deriving DecidableEq, Repr

/-- A value that is given for the first time and is no empty path. -/
def first? (known : Option String) (text : String) :
    Option (Option String) :=
  if known.isSome || text = "" then none else some (some text)

/-- What is given with one more item, if that makes sense. -/
def Given.add (g : Given) : Item → Option Given
  | .flag long =>
    if g.flags.contains long then none
    else some { g with flags := g.flags ++ [long] }
  | .value "config" text => do
    return { g with config := ← first? g.config text }
  | .value "format" text => do
    let format ← Format.ofName? text
    if g.format.isSome then none
    else some { g with format := some format }
  | .value "rules" text =>
    if g.rules.isSome then none else some { g with rules := some text }
  | .value "exclude" text =>
    some { g with exclude := g.exclude ++ [text] }
  | .value _ _ => none
  | .operand text => do
    return { g with path := ← first? g.path text }

/-- What items give, if they make sense together. -/
def Given.ofItems? (items : List Item) : Option Given :=
  items.foldlM Given.add {}

/-! ## Requests -/

/-- The options of the whole program. -/
def sharedOptions : List OptionSpec :=
  [⟨"verbose", some 'v', false⟩, ⟨"config", some 'c', true⟩]

/-- The options before the command. -/
def mainOptions : List OptionSpec :=
  sharedOptions ++ [⟨"version", some 'V', false⟩]

/-- The pattern option. -/
def excludeOption : OptionSpec :=
  ⟨"exclude", some 'e', true⟩

/-- The names of the commands. -/
def commandNames : List String :=
  ["lint", "autocorrect", "rules", "init"]

/-- The options of a command. -/
def optionsOf (command : String) : List OptionSpec :=
  if command = "lint" then
    sharedOptions ++
      [⟨"format", some 'f', true⟩, ⟨"rules", none, true⟩, excludeOption]
  else if command = "autocorrect" then sharedOptions ++ [excludeOption]
  else if command = "init" then
    sharedOptions ++ [⟨"force", none, false⟩]
  else sharedOptions

/-- The command of a name with what is given for it. -/
def commandOf? (name : String) (g : Given) : Option Command :=
  let path : Path := ⟨g.path.getD "."⟩
  if name = "lint" then
    some (.lint path (g.format.getD .text) g.rules g.exclude)
  else if name = "autocorrect" then some (.autocorrect path g.exclude)
  else if g.path.isSome then none
  else if name = "rules" then some .rules
  else if name = "init" then some (.init (g.flags.contains "force"))
  else none

/-- The path of the configuration: behind the command, before it, or from
the environment, in this order. What the environment says must be a path
wherever the arguments say nothing. -/
def configOf? (before behind : Given) (environment : Option String) :
    Option (Option Path) :=
  if environment = some "" && (before.config.isNone || behind.config.isNone)
  then none
  else some ((behind.config <|> before.config <|> environment).map Path.mk)

/-- **The request that arguments make**, given what the environment says
about the configuration, if they make sense. -/
def request? (environment : Option String) (arguments : List String) :
    Option Request := do
  let (items, ending) := readItems mainOptions commandNames arguments
  let front := items.takeWhile (· != .flag "version")
  let before ← Given.ofItems? front
  if before.path.isSome then none
  else if front.length < items.length then some .version
  else
    match ending with
    | .command name arguments =>
      match readItems (optionsOf name) [] arguments with
      | (items, .done) =>
        let behind ← Given.ofItems? items
        let command ← commandOf? name behind
        return .run (← configOf? before behind environment) command
      | _ => none
    | _ => none

end SwiftStyle.CommandLine
