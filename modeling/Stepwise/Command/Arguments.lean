import Stepwise.Command.Basic

/-!
# Arguments

The command line names a command, between options. An option is a flag or takes a value, which is
joined to it with `=` or is the next argument. The options that override settings may stand on
either side of the command, where the later side wins; each may stand only once on a side. `--` ends
the options. Arguments are read from left to right, and the first that has no meaning decides.
-/

namespace Stepwise

/-- Why arguments were refused. -/
inductive UsageError where
  | unexpected (argument : String)
  | missingValue (option : String)
  | repeated (option : String)
  | invalidValue (option value : String)
  | conflict (option other : String)
  | missingCommand
  | missingName
deriving DecidableEq, Repr

def UsageError.message : UsageError → String
  | .unexpected argument => "unexpected argument '" ++ argument ++ "' found"
  | .missingValue option => "a value is required for '--" ++ option ++ "' but none was supplied"
  | .repeated option => "the argument '--" ++ option ++ "' cannot be used multiple times"
  | .invalidValue option value => "invalid value '" ++ value ++ "' for '--" ++ option ++ "'"
  | .conflict option other =>
    "the argument '--" ++ option ++ "' cannot be used with '--" ++ other ++ "'"
  | .missingCommand => "a command is required but none was supplied"
  | .missingName => "the name of the migration was not provided"

namespace Arguments

/-- Why no command is carried out. -/
inductive Stop where
  | version
  | help
  | misuse (error : UsageError)
deriving DecidableEq, Repr

/-- One argument by its form. -/
inductive Word where
  /-- Two hyphens alone. -/
  | endOfOptions
  /-- Two hyphens and a name, and what stands after an equality sign. -/
  | long (name : String) (value : Option String)
  /-- One hyphen and letters. -/
  | short (first : Char)
  | plain
deriving DecidableEq, Repr

/-- The form of an argument. A hyphen alone is plain. -/
def Word.ofString (s : String) : Word :=
  match s.toList with
  | ['-', '-'] => .endOfOptions
  | '-' :: '-' :: rest =>
    let name := String.ofList (rest.takeWhile (· ≠ '='))
    match rest.dropWhile (· ≠ '=') with
    | [] => .long name none
    | _ :: value => .long name (some (String.ofList value))
  | '-' :: first :: _ => .short first
  | _ => .plain

/-- The options on one side, each with its value; a flag has an empty one. -/
abbrev Given := List (String × String)

/-- What may stand on one side of the command line. -/
structure Grammar where
  flags : List String := []
  valued : List String := []
  /-- How many plain arguments may stand there. -/
  plain : Nat := 0
  /-- Whether a plain argument is the command. -/
  takesCommand : Bool := false
deriving DecidableEq, Repr

/-- The number that a text of decimal digits names, if it fits 64 bits. A plus sign may stand in
front. -/
def count? (text : String) : Option Nat :=
  let digits := match text.toList with
    | '+' :: rest => rest
    | all => all
  if digits.isEmpty || !digits.all Char.isDigit then none
  else
    let n := digits.foldl (fun n c => 10 * n + (c.toNat - '0'.toNat)) 0
    if n ≤ 0xFFFFFFFFFFFFFFFF then some n else none

def isValidValue (option value : String) : Bool :=
  if option = "migrations-dir" then !value.isEmpty
  else if option = "count" then (count? value).isSome
  else true

/-- Add an option, which must not stand there yet. -/
def Given.put (given : Given) (option value : String) : Except Stop Given :=
  if given.any (·.1 = option) then .error (.misuse (.repeated option))
  else if !isValidValue option value then .error (.misuse (.invalidValue option value))
  else .ok (given ++ [(option, value)])

def Given.value? (given : Given) (option : String) : Option String :=
  (given.find? (·.1 = option)).map (·.2)

def Given.has (given : Given) (option : String) : Bool :=
  (given.value? option).isSome

/-- Add plain arguments, as far as they may stand there. -/
def putPlain (grammar : Grammar) (plain : List String) : List String → Except Stop (List String)
  | [] => .ok plain
  | word :: rest =>
    if plain.length < grammar.plain then putPlain grammar (plain ++ [word]) rest
    else .error (.misuse (.unexpected word))

/-- What was read on one side: its options, its plain arguments, and the command with what follows
it. -/
structure Side where
  given : Given := []
  plain : List String := []
  command : Option (String × List String) := none

def read (grammar : Grammar) (side : Side) : List String → Except Stop Side
  | [] => .ok side
  | word :: rest =>
    match Word.ofString word with
    | .plain =>
      if grammar.takesCommand then .ok { side with command := some (word, rest) }
      else do
        let plain ← putPlain grammar side.plain [word]
        read grammar { side with plain } rest
    | .endOfOptions => do
      let plain ← putPlain grammar side.plain rest
      return { side with plain }
    | .short first =>
      if first = 'h' then .error .help
      else if first = 'V' ∧ grammar.takesCommand then .error .version
      else .error (.misuse (.unexpected word))
    | .long name (some value) =>
      if name ∈ grammar.valued then do
        let given ← side.given.put name value
        read grammar { side with given } rest
      else .error (.misuse (.unexpected word))
    | .long name none =>
      if name ∈ grammar.flags then do
        let given ← side.given.put name ""
        read grammar { side with given } rest
      else if name ∈ grammar.valued then
        match rest with
        | [] => .error (.misuse (.missingValue name))
        | value :: rest =>
          if Word.ofString value = .plain then do
            let given ← side.given.put name value
            read grammar { side with given } rest
          else .error (.misuse (.missingValue name))
      else if name = "help" then .error .help
      else if name = "version" ∧ grammar.takesCommand then .error .version
      else .error (.misuse (.unexpected word))

/-- A grammar with the options that may stand on either side. -/
def Grammar.shared (grammar : Grammar) : Grammar :=
  { grammar with
    flags := "log-json" :: grammar.flags
    valued := ["migrations-dir", "database-url", "database"] ++ grammar.valued }

/-- What may stand before the command. -/
def before : Grammar :=
  Grammar.shared { takesCommand := true }

/-- What may stand after a command, for each that there is. -/
def after? : String → Option Grammar
  | "status" => some (Grammar.shared { flags := ["json"] })
  | "up" => some (Grammar.shared { flags := ["dry-run"], valued := ["to"] })
  | "down" => some (Grammar.shared { flags := ["dry-run"], valued := ["count", "to"] })
  | "create" => some (Grammar.shared { plain := 1 })
  | "unlock" => some (Grammar.shared {})
  | _ => none

/-- The command of a name with the options and plain arguments after it. -/
def command (name : String) (side : Side) : Except Stop Command :=
  let dryRun := side.given.has "dry-run"
  match name with
  | "status" => .ok (.status (side.given.has "json"))
  | "up" => .ok (.up ((side.given.value? "to").elim .all .to) dryRun)
  | "down" =>
    match side.given.value? "count", side.given.value? "to" with
    | some _, some _ => .error (.misuse (.conflict "count" "to"))
    | some count, none => .ok (.down (.count ((count? count).getD 0)) dryRun)
    | none, some id => .ok (.down (.to id) dryRun)
    | none, none => .ok (.down (.count 1) dryRun)
  | "create" =>
    match side.plain with
    | name :: _ => .ok (.create name)
    | [] => .error (.misuse .missingName)
  | "unlock" => .ok .unlock
  | _ => .error (.misuse (.unexpected name))

structure Overrides where
  migrationsDir : Option String := none
  databaseUrl : Option String := none
  database : Option String := none
  logJson : Bool := false
deriving DecidableEq, Repr

/-- The settings that the options of both sides override; those of the later side win. -/
def Overrides.ofGiven (earlier later : Given) : Overrides :=
  let value? (option : String) := (later.value? option).or (earlier.value? option)
  { migrationsDir := value? "migrations-dir"
    databaseUrl := value? "database-url"
    database := value? "database"
    logJson := later.has "log-json" || earlier.has "log-json" }

/-- Whether help is asked for in the place of a command, for all or for one of the commands. -/
def isHelp : List String → Bool
  | [] => true
  | [name] => name = "help" || (after? name).isSome
  | _ => false

/-- The command that arguments name, and the settings that they override. -/
def parse (arguments : List String) : Except Stop (Overrides × Command) := do
  let first ← read before {} arguments
  let some (name, rest) := first.command | throw (.misuse .missingCommand)
  match after? name with
  | some grammar =>
    let second ← read grammar {} rest
    let command ← command name second
    return (.ofGiven first.given second.given, command)
  | none =>
    if name = "help" ∧ isHelp rest then throw .help
    else throw (.misuse (.unexpected (if name = "help" then rest.headD name else name)))

end Arguments

end Stepwise
