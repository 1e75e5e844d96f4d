/-!
# FlagSidecar.CommandLine.Grammar: options, words and commands

An argument that begins with a dash is an option, a single dash excepted. The value of an option
follows it behind `=`, or right behind its letter, or as the next argument, which then is no option
itself. Two dashes end the options. The first word that names a command hands the rest over to it.

Options are given once, those excepted that say otherwise. Help and version are asked for before
anything behind them is looked at, and after everything before them is.
-/

namespace FlagSidecar.CommandLine

/-- How an option is given. -/
inductive Arity where
  /-- Without a value. -/
  | flag
  /-- With a value, once. -/
  | single
  /-- With a value each time. -/
  | repeated
deriving DecidableEq

/-- One option. -/
structure OptionSpec where
  name : String
  letter : Option Char := none
  arity : Arity := .single
  accepts : String → Bool := fun _ => true
  required : Bool := false

/-- What a command line is made of. -/
structure Grammar where
  options : List OptionSpec
  /-- The names of the words that are wanted, all of them. -/
  words : List String := []
  /-- The names of the commands, one of which is wanted if there are any. -/
  commands : List String := []
  hasVersion : Bool := false

/-- Why arguments were not read to their end. -/
inductive Stop where
  /-- They mean nothing. -/
  | usage
  /-- Help was asked for. -/
  | help
  /-- The version was asked for. -/
  | version
deriving DecidableEq

/-- What was given. -/
structure Parsed where
  /-- The names of options and their values, in order. -/
  given : List (String × String) := []
  words : List String := []
  /-- A command and the arguments behind it. -/
  command : Option (String × List String) := none
deriving DecidableEq

namespace Parsed

/-- All values of an option. -/
def values (p : Parsed) (name : String) : List String :=
  (p.given.filter (·.1 = name)).map (·.2)

def value? (p : Parsed) (name : String) : Option String := p.given.lookup name

def has (p : Parsed) (name : String) : Bool := (p.value? name).isSome

/-- Takes down an option. -/
def record (p : Parsed) (o : OptionSpec) (value : String) : Except Stop Parsed :=
  if o.accepts value ∧ (o.arity = .repeated ∨ ¬ p.has o.name) then
    .ok { p with given := p.given ++ [(o.name, value)] }
  else .error .usage

end Parsed

/-- One argument by its form. -/
inductive Token where
  | word (text : String)
  /-- Two dashes. -/
  | endOfOptions
  /-- A name behind two dashes, and what stands behind its equals sign. -/
  | long (name : String) (value : Option String)
  /-- Letters behind one dash; the last may be followed by its value. -/
  | letters (cs : List Char)
deriving DecidableEq

def Token.ofText (s : String) : Token :=
  match s.toList with
  | ['-', '-'] => .endOfOptions
  | '-' :: '-' :: cs =>
    .long (String.ofList (cs.takeWhile (· ≠ '=')))
      (match cs.dropWhile (· ≠ '=') with
        | [] => none
        | _ :: value => some (String.ofList value))
  | '-' :: c :: cs => .letters (c :: cs)
  | _ => .word s

namespace Grammar

/-- Reads a long option. Also says which option waits for its value. -/
def readLong (g : Grammar) (p : Parsed) (name : String) (value : Option String) :
    Except Stop (Option OptionSpec × Parsed) :=
  match g.options.find? (·.name = name), value with
  | some o, some v => if o.arity = .flag then .error .usage else (p.record o v).map (none, ·)
  | some o, none => if o.arity = .flag then (p.record o "").map (none, ·) else .ok (some o, p)
  | none, some _ => .error .usage
  | none, none =>
    if name = "help" then .error .help
    else if name = "version" ∧ g.hasVersion then .error .version
    else .error .usage

/-- Reads the letters behind one dash. Also says which option waits for its value. -/
def readLetters (g : Grammar) (p : Parsed) : List Char → Except Stop (Option OptionSpec × Parsed)
  | [] => .ok (none, p)
  | c :: cs =>
    match g.options.find? (·.letter = some c) with
    | some o =>
      if o.arity = .flag then
        match p.record o "" with
        | .ok p => readLetters g p cs
        | .error e => .error e
      else
        match cs with
        | [] => .ok (some o, p)
        | '=' :: value => (p.record o (String.ofList value)).map (none, ·)
        | value => (p.record o (String.ofList value)).map (none, ·)
    | none =>
      if c = 'h' then .error .help
      else if c = 'V' ∧ g.hasVersion then .error .version
      else .error .usage

/-- Takes down a word that names no command. -/
def readWord (g : Grammar) (p : Parsed) (text : String) : Except Stop Parsed :=
  if p.words.length < g.words.length then .ok { p with words := p.words ++ [text] }
  else .error .usage

/-- What the word `help` asks for, where there are commands: help on a command, or on everything. -/
def helpOn (g : Grammar) : List String → Stop
  | [] => .help
  | [name] => if g.commands.contains name ∨ name = "help" then .help else .usage
  | _ => .usage

/-- Reads arguments, the first of which is the value of an option if one waits for it. -/
def readArguments (g : Grammar) (p : Parsed) (pending : Option OptionSpec) :
    List String → Except Stop Parsed
  | [] => if pending.isSome then .error .usage else .ok p
  | arg :: rest =>
    match pending, Token.ofText arg with
    | some o, .word text => do g.readArguments (← p.record o text) none rest
    | some _, _ => .error .usage
    | none, .endOfOptions => rest.foldlM g.readWord p
    | none, .long name value => do
      let (pending, p) ← g.readLong p name value
      g.readArguments p pending rest
    | none, .letters cs => do
      let (pending, p) ← g.readLetters p cs
      g.readArguments p pending rest
    | none, .word text =>
      if g.commands.contains text then .ok { p with command := some (text, rest) }
      else if text = "help" ∧ ¬ g.commands.isEmpty then .error (g.helpOn rest)
      else do g.readArguments (← g.readWord p text) none rest

/-- Is everything given that is wanted? -/
def isSatisfiedBy (g : Grammar) (p : Parsed) : Bool :=
  g.options.all (fun o => !o.required || p.has o.name) && p.words.length == g.words.length &&
    (g.commands.isEmpty || p.command.isSome)

/-- What arguments say. -/
def parse (g : Grammar) (args : List String) : Except Stop Parsed := do
  let p ← g.readArguments {} none args
  if g.isSatisfiedBy p then return p else throw .usage

end Grammar

end FlagSidecar.CommandLine
