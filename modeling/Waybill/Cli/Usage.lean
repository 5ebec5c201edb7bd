/-
  The arguments of a command line.

  A command line names a command after the options for all of them, and the options of the command
  after its name.  An option takes the argument after it, or a value after an equals sign; a flag
  takes none.  Two hyphens alone end the options.

  * `OptionSpec`, `CommandSpec` and `CommandLine` describe what may be said;
  * `Given` is what was said, by option;
  * `CommandLine.parse` reads the arguments, or tells why they are no command line;
  * `CommandLine.synopsis` tells what may be said.

  A value is looked at when the next option begins, or at the end, so of two faults the one that
  is met first by this rule is told.
-/

namespace Waybill.Cli

/-! ## Faults -/

/-- Why arguments are no command line; some of them only ask for a text. -/
inductive UsageError where
  | help
  | version
  /-- Nothing was said at all. -/
  | nothing
  | missingCommand
  | unknownCommand
  | missingOption
  | unknownArgument
  | missingValue
  | invalidValue
  | conflict
  | needlessValue
  deriving DecidableEq, Inhabited

/-- What is told of a fault. -/
def UsageError.message : UsageError → String
  | .help | .nothing => "usage: <command> [options]"
  | .version => "0.1.0"
  | .missingCommand => "a command is required"
  | .unknownCommand => "no such command"
  | .missingOption => "a required option is missing"
  | .unknownArgument => "unexpected argument"
  | .missingValue => "a value is required"
  | .invalidValue => "invalid value"
  | .conflict => "an option cannot be used with another, or twice"
  | .needlessValue => "a flag takes no value"

/-! ## Values -/

/-- What an option takes. -/
inductive Kind where
  | flag
  | text
  /-- A text that is not blank. -/
  | path
  /-- An integer in a range, not including its end. -/
  | int (low high : Int)
  /-- A natural number below a bound; it has no minus sign. -/
  | nat (bound : Nat)
  deriving DecidableEq, Inhabited

/-- The number that digits spell. -/
def digits? (cs : List Char) : Option Nat :=
  if cs.isEmpty || !cs.all Char.isDigit then none
  else some (cs.foldl (fun n d => n * 10 + (d.toNat - '0'.toNat)) 0)

/-- The number of a text with or without a sign. -/
def int? (s : String) : Option Int :=
  match s.toList with
  | '-' :: cs => (digits? cs).map fun n => -Int.ofNat n
  | '+' :: cs => (digits? cs).map Int.ofNat
  | cs => (digits? cs).map Int.ofNat

/-- The number of a text without a minus sign. -/
def nat? (s : String) : Option Nat :=
  if s.startsWith "-" then none else (int? s).map Int.toNat

/-- What is wrong with a value, if anything is. -/
def Kind.fault? (k : Kind) (value : String) : Option UsageError :=
  match k with
  | .flag | .text => none
  | .path => if value.isEmpty then some .missingValue else none
  | .int low high =>
    match int? value with
    | some n => if low ≤ n ∧ n < high then none else some .invalidValue
    | none => some .invalidValue
  | .nat bound =>
    match nat? value with
    | some n => if n < bound then none else some .invalidValue
    | none => some .invalidValue

/-! ## Commands -/

/-- An option: its name and what it takes. -/
structure OptionSpec where
  name : String
  kind : Kind
  deriving DecidableEq, Inhabited

/-- A command: its options, of which groups one of each has to be given, and which pairs may not
    be given together. -/
structure CommandSpec where
  name : String
  options : List OptionSpec
  required : List (List String)
  exclusive : List (String × String)
  deriving DecidableEq, Inhabited

/-- What was said, by the names of options. -/
structure Given where
  values : List (String × String)
  deriving DecidableEq, Inhabited

namespace Given

/-- Nothing said. -/
def empty : Given := ⟨[]⟩

/-- What was said for an option. -/
def get? (g : Given) (name : String) : Option String :=
  g.values.lookup name

/-- Whether an option was given. -/
def has (g : Given) (name : String) : Bool :=
  (g.get? name).isSome

/-- Once more said. -/
def add (g : Given) (name value : String) : Given :=
  ⟨(name, value) :: g.values⟩

end Given

/-! ## One level of arguments -/

/-- An option that was begun, with its value if that was there. -/
abbrev Pending : Type := Option (OptionSpec × Option String)

/-- What was said with a value for an option. -/
def settled (g : Given) (opt : OptionSpec) (value : String) : Except UsageError Given :=
  if g.has opt.name then .error .conflict
  else match opt.kind.fault? value with
    | some fault => .error fault
    | none => .ok (g.add opt.name value)

/-- What was said with the option that was begun. -/
def settle (g : Given) : Pending → Except UsageError Given
  | none => .ok g
  | some (_, none) => .error .missingValue
  | some (opt, some value) => settled g opt value

/-- Where the arguments of a level end: at their end, or at a command with the rest. -/
inductive Ending where
  | finished
  | command (name : String) (rest : List String)
  deriving Inhabited

/-- What may be said on one level: the options and the commands, and whether the version may be
    asked for. -/
structure Level where
  options : List OptionSpec
  commands : List String
  versioned : Bool

/-- The fault of an argument that is no option and no value. -/
def Level.stray (l : Level) : UsageError :=
  if l.commands.isEmpty then .unknownArgument else .unknownCommand

/-- The name of an option and the value after its equals sign. -/
def split (cs : List Char) : String × Option String :=
  let name := cs.takeWhile (· ≠ '=')
  match cs.drop name.length with
  | _ :: value => (String.ofList name, some (String.ofList value))
  | [] => (String.ofList name, none)

/-- The flags that ask for a text, by their names. -/
def Level.asked? (l : Level) (name : String) : Option UsageError :=
  if name = "help" then some .help
  else if name = "version" && l.versioned then some .version
  else none

/-- What an argument with two hyphens does. -/
def Level.long (l : Level) (g : Given) (p : Pending) (cs : List Char) :
    Except UsageError (Given × Pending) := do
  let (name, value) := split cs
  match l.asked? name, l.options.find? (·.name = name) with
  | some asked, _ =>
    if value.isSome then throw .needlessValue
    let _ ← settle g p
    throw asked
  | none, none => throw .unknownArgument
  | none, some opt =>
    match opt.kind, value with
    | .flag, some _ => throw .needlessValue
    | .flag, none => return (← settled (← settle g p) opt "true", none)
    | _, some value => return (← settled (← settle g p) opt value, none)
    | _, none => return (← settle g p, some (opt, none))

/-- The fault of an argument with one hyphen: it asks for a text, or is none of the options. -/
def Level.short (l : Level) (g : Given) (p : Pending) : List Char → UsageError
  | 'h' :: _ => match settle g p with | .ok _ => .help | .error e => e
  | 'V' :: _ =>
    if !l.versioned then .unknownArgument
    else match settle g p with | .ok _ => .version | .error e => e
  | _ => .unknownArgument

/-- Whether an option was begun that takes the next argument. -/
def awaits : Pending → Bool
  | some (_, none) => true
  | _ => false

/-- Reads the arguments of a level up to their end or to a command. -/
def Level.read (l : Level) : Given → Pending → List String →
    Except UsageError (Given × Pending × Ending)
  | g, p, [] => .ok (g, p, .finished)
  | g, p, a :: rest =>
    if !awaits p && l.commands.contains a then .ok (g, p, .command a rest)
    else
      match a.toList with
      | ['-', '-'] =>
        match rest with
        | [] => .ok (g, p, .finished)
        | b :: _ => .error (if l.commands.contains b then .unknownArgument else l.stray)
      | '-' :: '-' :: cs =>
        match l.long g p cs with
        | .error e => .error e
        | .ok (g, p) => read l g p rest
      | '-' :: c :: cs => .error (l.short g p (c :: cs))
      | _ =>
        match p with
        | some (opt, none) => read l g (some (opt, some a)) rest
        | _ => .error l.stray

/-! ## Whole command lines -/

/-- A described program: the options for all commands, and the commands. -/
structure CommandLine where
  options : List OptionSpec
  commands : List CommandSpec

/-- How an option is said. -/
def OptionSpec.synopsis (o : OptionSpec) : String :=
  match o.kind with
  | .flag => "[--" ++ o.name ++ "]"
  | _ => "[--" ++ o.name ++ " <" ++ o.name ++ ">]"

/-- How a command is said. -/
def CommandSpec.synopsis (c : CommandSpec) : String :=
  " ".intercalate (c.name :: c.options.map OptionSpec.synopsis)

/-- How the commands are said, each on a line. -/
def CommandLine.synopsis (p : CommandLine) : String :=
  "\n".intercalate (p.commands.map fun c =>
    " ".intercalate (p.options.map OptionSpec.synopsis ++ [c.synopsis]))

/-- Checks what was said for a command as a whole. -/
def CommandSpec.check (c : CommandSpec) (g : Given) : Except UsageError Unit :=
  if c.exclusive.any fun pair => g.has pair.1 && g.has pair.2 then .error .conflict
  else if c.required.all fun group => group.any g.has then .ok ()
  else .error .missingOption

/-- What the command for help does with the arguments after it. -/
def CommandLine.helpOn (p : CommandLine) : List String → UsageError
  | [] => .help
  | [name] =>
    if name = "help" || p.commands.any (·.name = name) then .help else .unknownCommand
  | _ => .unknownCommand

/-- Reads the arguments after the name of a command. -/
def CommandLine.parseCommand (p : CommandLine) (c : CommandSpec) (arguments : List String) :
    Except UsageError Given := do
  let level : Level := ⟨c.options ++ p.options, [], false⟩
  let (g, pending, _) ← level.read .empty none arguments
  let g ← settle g pending
  c.check g
  return g

/-- Reads arguments: the command with what was said for it, and for all commands unless it was
    said again after the command. -/
def CommandLine.parse (p : CommandLine) (arguments : List String) :
    Except UsageError (CommandSpec × Given) := do
  let level : Level := ⟨p.options, "help" :: p.commands.map (·.name), true⟩
  let (g, pending, ending) ← level.read .empty none arguments
  match ending with
  | .finished =>
    let g ← settle g pending
    throw (if g.values.isEmpty then .nothing else .missingCommand)
  | .command name rest =>
    match p.commands.find? (·.name = name) with
    | none => throw (p.helpOn rest)
    | some c =>
      let said ← p.parseCommand c rest
      let g ← settle g pending
      return (c, ⟨said.values ++ g.values⟩)

end Waybill.Cli
