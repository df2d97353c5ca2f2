import SourceAtlas.DefinitionId

/-!
# Arguments of the command line

* `Setting`: the options, with `Setting.takes` for what they take;
* `Verb`: the commands, with `Verb.settings`;
* `Given`: the options and words that were given;
* `Command`, `Invocation`, `Request`;
* **`Request.ofArguments`**.
-/

namespace SourceAtlas

/-! ## Options -/

/-- An option. -/
inductive Setting where
  | workspace
  | cache
  | verbose
  | rebuild
  | workers
  | ignore
  | unresolved
  | limit
  | depth
  | reverse
  | regex
  | entry
deriving DecidableEq, Repr

/-- What an option takes. -/
inductive Taking where
  | nothing
  /-- A path, which is not empty. -/
  | path
  | text
  | number
deriving DecidableEq, Repr

namespace Setting

/-- The word behind two hyphens. -/
def long : Setting → String
  | .workspace => "workspace"
  | .cache => "cache"
  | .verbose => "verbose"
  | .rebuild => "rebuild"
  | .workers => "workers"
  | .ignore => "ignore"
  | .unresolved => "unresolved"
  | .limit => "limit"
  | .depth => "depth"
  | .reverse => "reverse"
  | .regex => "regex"
  | .entry => "entry"

/-- The letter behind one hyphen. -/
def short? : Setting → Option Char
  | .workspace => some 'w'
  | .verbose => some 'v'
  | .workers => some 'j'
  | .unresolved => some 'u'
  | .limit => some 'l'
  | .depth => some 'd'
  | .reverse => some 'r'
  | .entry => some 'e'
  | .cache | .rebuild | .ignore | .regex => none

/-- What the option takes. -/
def takes : Setting → Taking
  | .workspace | .cache => .path
  | .verbose | .rebuild | .unresolved | .reverse | .regex => .nothing
  | .workers | .limit | .depth => .number
  | .ignore | .entry => .text

/-- May the option be given more than once? -/
def isRepeatable : Setting → Bool
  | .verbose | .ignore | .entry => true
  | _ => false

/-- The options of every command. -/
def common : List Setting := [.workspace, .cache, .verbose]

end Setting

/-- A command without its options. -/
inductive Verb where
  | index
  | resolve
  | callgraph
  | dead
  | stats
deriving DecidableEq, Repr

namespace Verb

/-- Every command. -/
def all : List Verb := [.index, .resolve, .callgraph, .dead, .stats]

/-- The word for a command. -/
def name : Verb → String
  | .index => "index"
  | .resolve => "resolve"
  | .callgraph => "callgraph"
  | .dead => "dead"
  | .stats => "stats"

/-- The command of a word. -/
def ofName? (name : String) : Option Verb := all.find? (·.name = name)

/-- The options of a command. -/
def settings : Verb → List Setting
  | .index => [.rebuild, .workers, .ignore] ++ Setting.common
  | .resolve => [.unresolved, .limit] ++ Setting.common
  | .callgraph => [.depth, .reverse, .regex] ++ Setting.common
  | .dead => .entry :: Setting.common
  | .stats => Setting.common

/-- How many words a command takes. -/
def words : Verb → Nat
  | .callgraph => 1
  | _ => 0

end Verb

/-! ## Requests -/

/-- A command with its options. -/
inductive Command where
  | index (rebuild : Bool) (workers : Option Nat) (ignore : List String)
  | resolve (unresolved : Bool) (limit : Nat)
  | callgraph (pattern : String) (depth : Nat) (reverse regex : Bool)
  | dead (entries : List String)
  | stats
deriving DecidableEq, Repr

/-- A command and where it works. -/
structure Invocation where
  workspace : Option Path
  cache : Option Path
  command : Command
deriving DecidableEq, Repr

/-- What the arguments ask for. -/
inductive Request where
  | run (i : Invocation)
  /-- The version of the program or of one of its commands. -/
  | version (verb : Option Verb)
  | help
  /-- The arguments make no sense. -/
  | unusable
deriving DecidableEq, Repr

/-- The options and words that were given. -/
structure Given where
  /-- Options with what was given for them, the last one first. -/
  settings : List (Setting × String)
  /-- The words, the last one first. -/
  words : List String
deriving DecidableEq, Repr

namespace Given

/-- Was an option given? -/
def has (g : Given) (s : Setting) : Bool := g.settings.any (·.1 == s)

/-- All that was given for an option. -/
def values (g : Given) (s : Setting) : List String :=
  (g.settings.reverse.filter (·.1 == s)).map (·.2)

/-- Reads a number of 64 bits. -/
def number? (s : String) : Option Nat := do
  let n ← match s.toList with
    | '+' :: cs => DefinitionId.digits? cs
    | cs => DefinitionId.digits? cs
  if n < Nat.pow 2 64 then some n else none

/-- The number given for an option. -/
def numberOf? (g : Given) (s : Setting) : Option Nat := (g.values s).head?.bind number?

/-- The path given for an option. -/
def pathOf? (g : Given) (s : Setting) : Option Path := (g.values s).head?.map Path.mk

/-- Can a text be given for an option? -/
def isFit (s : Setting) (value : String) : Bool :=
  match s.takes with
  | .nothing | .text => true
  | .path => value ≠ ""
  | .number => (number? value).isSome

/-- Adds an option. -/
def add (g : Given) (s : Setting) (value : String) : Except Request Given :=
  if (g.has s && !s.isRepeatable) || !isFit s value then .error .unusable
  else .ok { g with settings := (s, value) :: g.settings }

end Given

/-! ## Reading -/

/-- An option that still waits for its value, with what was given before. -/
structure Waiting where
  given : Given
  setting : Option Setting

/-- Reads letters behind one hyphen. What follows the letter of an option that takes a value is this
value, with or without an equals sign. -/
def readLetters (verb : Option Verb) (settings : List Setting) :
    List Char → Given → Except Request Waiting
  | [], g => .ok ⟨g, none⟩
  | c :: cs, g =>
    match settings.find? (·.short? = some c) with
    | some s =>
      if s.takes = .nothing then
        match g.add s "" with
        | .ok g => readLetters verb settings cs g
        | .error r => .error r
      else
        match cs with
        | [] => .ok ⟨g, some s⟩
        | '=' :: value => (g.add s (String.ofList value)).map fun g => ⟨g, none⟩
        | value => (g.add s (String.ofList value)).map fun g => ⟨g, none⟩
    | none => .error (if c = 'h' then .help else if c = 'V' then .version verb else .unusable)

/-- Reads what follows two hyphens: a word, and a value behind an equals sign. -/
def readWord (verb : Option Verb) (settings : List Setting) (cs : List Char) (g : Given) :
    Except Request Waiting :=
  let word := String.ofList (cs.takeWhile (· ≠ '='))
  let value : Option String := match cs.dropWhile (· ≠ '=') with
    | _ :: value => some (String.ofList value)
    | [] => none
  match settings.find? (·.long = word) with
  | some s =>
    match s.takes, value with
    | .nothing, none => (g.add s "").map fun g => ⟨g, none⟩
    | .nothing, some _ => .error .unusable
    | _, some value => (g.add s value).map fun g => ⟨g, none⟩
    | _, none => .ok ⟨g, some s⟩
  | none =>
    .error <| if value.isSome then .unusable
      else if word = "help" then .help
      else if word = "version" then .version verb
      else .unusable

/-- Does an argument start with a hyphen that is not all of it? -/
def looksLikeOption (argument : String) : Bool := argument.startsWith "-" && argument ≠ "-"

/-- Reads the options and words of a command. Behind two lone hyphens all are words. -/
def readArguments (verb : Verb) : List String → Given → Except Request Given
  | [], g => .ok g
  | a :: rest, g =>
    if a = "--" then .ok { g with words := rest.reverse ++ g.words }
    else if looksLikeOption a then
      let read := match a.toList with
        | '-' :: '-' :: cs => readWord (some verb) verb.settings cs g
        | _ :: cs => readLetters (some verb) verb.settings cs g
        | [] => .error .unusable
      match read with
      | .error r => .error r
      | .ok ⟨g, none⟩ => readArguments verb rest g
      | .ok ⟨g, some s⟩ =>
        match rest with
        | value :: rest =>
          if looksLikeOption value then .error .unusable
          else
            match g.add s value with
            | .ok g => readArguments verb rest g
            | .error r => .error r
        | [] => .error .unusable
    else if g.words.length < verb.words then
      readArguments verb rest { g with words := a :: g.words }
    else .error .unusable

/-- The command that was asked for. -/
def Verb.command (verb : Verb) (g : Given) : Command :=
  match verb with
  | .index => .index (g.has .rebuild) (g.numberOf? .workers) (g.values .ignore)
  | .resolve => .resolve (g.has .unresolved) ((g.numberOf? .limit).getD 20)
  | .callgraph =>
    .callgraph (g.words.head?.getD "") ((g.numberOf? .depth).getD 1) (g.has .reverse)
      (g.has .regex)
  | .dead => .dead (g.values .entry)
  | .stats => .stats

/-- The request of a command with its arguments. What was given behind the command counts more than
what was given before it. -/
def Verb.request (verb : Verb) (before : Given) (arguments : List String) : Request :=
  match readArguments verb arguments ⟨[], []⟩ with
  | .error r => r
  | .ok g =>
    if g.words.length ≠ verb.words then .unusable
    else
      .run
        { workspace := (g.pathOf? .workspace).orElse fun _ => before.pathOf? .workspace
          cache := (g.pathOf? .cache).orElse fun _ => before.pathOf? .cache
          command := verb.command g }

namespace Request

/-- The request for help with a list of commands. -/
def ofHelp : List String → Request
  | [] => .help
  | [topic] => if topic = "help" || (Verb.ofName? topic).isSome then .help else .unusable
  | _ => .unusable

/-- Reads the arguments up to the command. -/
def read : List String → Given → Request
  | [], _ => .unusable
  | a :: rest, g =>
    if a = "--" then .unusable
    else if looksLikeOption a then
      let found := match a.toList with
        | '-' :: '-' :: cs => readWord none Setting.common cs g
        | _ :: cs => readLetters none Setting.common cs g
        | [] => .error .unusable
      match found with
      | .error r => r
      | .ok ⟨g, none⟩ => read rest g
      | .ok ⟨g, some s⟩ =>
        match rest with
        | value :: rest =>
          if looksLikeOption value then .unusable
          else
            match g.add s value with
            | .ok g => read rest g
            | .error r => r
        | [] => .unusable
    else if a = "help" then ofHelp rest
    else
      match Verb.ofName? a with
      | some verb => verb.request g rest
      | none => .unusable

/-- What the arguments of the program ask for. -/
def ofArguments (arguments : List String) : Request := read arguments ⟨[], []⟩

end Request

end SourceAtlas
