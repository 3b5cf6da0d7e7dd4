/-!
Command lines. An option is given by its name after two dashes or by its letter after one. Letters
may be joined; a value stands behind its option, apart or not, or after an equals sign. The value
of an option that stands apart is looked at only when the next option is taken up or the line
ends, so a word that is no option at all is refused first.
-/

namespace Tiling.Command

/-- What an option asks for. -/
inductive Request where
  /-- To be noted, without a value. -/
  | flag
  /-- A value that is a number below two to the 64th. -/
  | number
  /-- A value that is a path. -/
  | path
  | help
  | version
deriving DecidableEq

namespace Request

def takesValue : Request → Bool
  | number | path => true
  | flag | help | version => false

end Request

/-- An option that a program knows. -/
structure Switch where
  name : String
  letter : Option Char := none
  request : Request
deriving DecidableEq

/-- Why a command line is not followed. -/
inductive UsageError where
  | help
  | version
  | missingOption
  | missingValue
  | invalidValue
  | unknownArgument
  | repeatedOption
  | needlessValue
deriving DecidableEq

/-- The value of an option. -/
inductive Value where
  | noted
  | number (value : Nat)
  | path (value : String)
deriving DecidableEq

/-- Reads a number below two to the 64th, which may have a plus sign. -/
def number? (text : String) : Option Nat :=
  let digits := match text.toList with
    | '+' :: rest => rest
    | chars => chars
  if digits.isEmpty || !digits.all Char.isDigit then none
  else
    let value := digits.foldl (fun value digit => 10 * value + (digit.toNat - '0'.toNat)) 0
    if value < 1 <<< 64 then some value else none

/-- A command line partly read. -/
structure Line where
  /-- The options given so far with their values, the last one first. -/
  given : List (String × Value) := []
  /-- The last option that takes a value, until its value is looked at. -/
  pending : Option (Switch × Option String) := none
  /-- Whether two dashes have ended the options. -/
  ended : Bool := false

namespace Line

/-- Takes up an option with what stands for its value. -/
def note (line : Line) (switch : Switch) (value : Option String) : Except UsageError Line :=
  let add (value : Value) : Except UsageError Line :=
    .ok { line with given := (switch.name, value) :: line.given }
  let isRepeated := (line.given.lookup switch.name).isSome
  match switch.request, value with
  | .help, _ => .error .help
  | .version, _ => .error .version
  | .flag, _ => if isRepeated then .error .repeatedOption else add .noted
  | .number, none | .path, none => .error .missingValue
  | .number, some text =>
    if isRepeated then .error .repeatedOption
    else match number? text with
      | some value => add (.number value)
      | none => .error .invalidValue
  | .path, some text =>
    if isRepeated then .error .repeatedOption
    else if text.isEmpty then .error .missingValue
    else add (.path text)

/-- Looks at the value of the pending option. -/
def settle (line : Line) : Except UsageError Line :=
  match line.pending with
  | some (switch, value) => { line with pending := none }.note switch value
  | none => .ok line

/-- Takes up an option whose value is at hand, or that takes none. -/
def take (line : Line) (switch : Switch) (value : Option String) : Except UsageError Line := do
  (← line.settle).note switch value

/-- Takes up an option whose value is still to come. -/
def await (line : Line) (switch : Switch) : Except UsageError Line := do
  return { ← line.settle with pending := some (switch, none) }

/-- Takes up an option given by its name. -/
def long (switches : List Switch) (line : Line) (text : List Char) : Except UsageError Line :=
  let name := String.ofList (text.takeWhile (· ≠ '='))
  let value := match text.dropWhile (· ≠ '=') with
    | _ :: value => some (String.ofList value)
    | [] => none
  match switches.find? fun switch => switch.name = name with
  | none => .error .unknownArgument
  | some switch =>
    match switch.request.takesValue, value with
    | true, none => line.await switch
    | false, some _ => .error .needlessValue
    | _, value => line.take switch value

/-- Takes up options given by joined letters. -/
def short (switches : List Switch) (line : Line) : List Char → Except UsageError Line
  | [] => .ok line
  | letter :: rest =>
    match switches.find? fun switch => switch.letter = some letter with
    | none => .error .unknownArgument
    | some switch =>
      if switch.request.takesValue then
        match rest with
        | [] => line.await switch
        | '=' :: value => line.take switch (some (String.ofList value))
        | value => line.take switch (some (String.ofList value))
      else do short switches (← line.take switch none) rest

/-- Takes up an argument. -/
def argument (switches : List Switch) (line : Line) (text : String) : Except UsageError Line :=
  if line.ended then .error .unknownArgument
  else
    match text.toList with
    | ['-', '-'] => .ok { line with ended := true }
    | '-' :: '-' :: rest => line.long switches rest
    | '-' :: letter :: rest => line.short switches (letter :: rest)
    | _ =>
      match line.pending with
      | some (switch, none) => .ok { line with pending := some (switch, some text) }
      | _ => .error .unknownArgument

end Line

/-- The options of a command line. -/
structure Options where
  given : List (String × Value)

namespace Options

/-- The options that every program knows. -/
def common : List Switch :=
  [{ name := "help", letter := some 'h', request := .help },
    { name := "version", letter := some 'V', request := .version }]

/-- Reads the arguments of a program that knows the options. -/
def ofArguments (switches : List Switch) (arguments : List String) :
    Except UsageError Options := do
  let line ← arguments.foldlM (Line.argument (switches ++ common)) {}
  return ⟨(← line.settle).given⟩

def has (options : Options) (name : String) : Bool := (options.given.lookup name).isSome

def number? (options : Options) (name : String) : Option Nat :=
  match options.given.lookup name with
  | some (.number value) => some value
  | _ => none

/-- The path that an option must give. -/
def path (options : Options) (name : String) : Except UsageError String :=
  match options.given.lookup name with
  | some (.path value) => .ok value
  | _ => .error .missingOption

end Options

end Tiling.Command
