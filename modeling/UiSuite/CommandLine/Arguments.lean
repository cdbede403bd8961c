import UiSuite.Text.Search

/-! Arguments of a command.

Arguments are read from left to right and checked as they come: the first that is wrong,
or that asks for help, ends the reading. An option may be given once, with its value in
the next argument or after an equals sign; a value given in the next argument does not
begin with a dash. After a double dash nothing is an option. -/
namespace UiSuite.CommandLine

/-- Why reading ends early. -/
inductive Stop where
  | usage
  | help
  | version
deriving DecidableEq

/-- What an option does. -/
inductive Role where
  | value (accepts : String → Bool)
  | flag
  | stop (s : Stop)

/-- An option, with its name, its letter if it has one, and its role. -/
structure Switch where
  name : String
  letter : Option Char
  role : Role

/-- What a command takes: options, and arguments of its own by their position. -/
structure Form where
  options : List Switch
  takes : Nat → String → Bool

/-- Arguments read so far: options with their values, other arguments in their order, the
option whose value is due, and whether a double dash came. -/
structure Reading where
  given : List (String × String)
  others : List String
  due : Option Switch
  literal : Bool

namespace Reading

def start : Reading := ⟨[], [], none, false⟩

/-- An option with a value. -/
def put (o : Switch) (value : String) (r : Reading) : Except Stop Reading :=
  let fits := match o.role with
    | .value accepts => accepts value
    | _ => true
  if fits && !r.given.any (·.1 == o.name) then
    .ok { r with given := r.given ++ [(o.name, value)], due := none }
  else .error .usage

/-- An option, with what is attached to it. -/
def putOption (o : Switch) (attached : Option String) (r : Reading) : Except Stop Reading :=
  match o.role, attached with
  | .value _, some value => r.put o value
  | .value _, none => .ok { r with due := some o }
  | .flag, none => r.put o ""
  | .stop s, none => .error s
  | _, some _ => .error .usage

/-- An option given by its letter, with the characters after it: they are its value, with or
without an equals sign. What ends the reading ends it before they are looked at. -/
def putLetter (o : Switch) (rest : List Char) (r : Reading) : Except Stop Reading :=
  match o.role, rest with
  | .stop s, _ => .error s
  | _, [] => r.putOption o none
  | _, '=' :: value => r.putOption o (some (String.ofList value))
  | _, value => r.putOption o (some (String.ofList value))

/-- An argument that is no option. -/
def putOther (f : Form) (arg : String) (r : Reading) : Except Stop Reading :=
  if f.takes r.others.length arg then .ok { r with others := r.others ++ [arg] }
  else .error .usage

/-- One argument. -/
def step (f : Form) (r : Reading) (arg : String) : Except Stop Reading :=
  match r.due, arg.toList with
  | some _, '-' :: _ :: _ => .error .usage
  | some o, _ => r.put o arg
  | none, '-' :: '-' :: [] =>
    if r.literal then r.putOther f arg else .ok { r with literal := true }
  | none, '-' :: '-' :: name =>
    if r.literal then r.putOther f arg
    else
      let (name, attached) := match Text.splitFirst '=' name with
        | some (name, value) => (name, some (String.ofList value))
        | none => (name, none)
      match f.options.find? (·.name.toList == name) with
      | some o => r.putOption o attached
      | none => .error .usage
  | none, '-' :: letter :: rest =>
    if r.literal then r.putOther f arg
    else match f.options.find? (·.letter == some letter) with
      | some o => r.putLetter o rest
      | none => .error .usage
  | none, _ => r.putOther f arg

/-- The value of an option. -/
def value? (r : Reading) (name : String) : Option String :=
  (r.given.find? (·.1 == name)).map (·.2)

/-- Whether an option was given. -/
def has (r : Reading) (name : String) : Bool :=
  (r.value? name).isSome

end Reading

/-- Reads all arguments of a command. -/
def Form.read (f : Form) (args : List String) : Except Stop Reading := do
  let r ← args.foldlM (Reading.step f) Reading.start
  if r.due.isSome then throw .usage else return r

/-- Reads the arguments before a command, up to its name: what was read, the name and the
arguments after it. No command comes after a double dash. -/
def Form.readToCommand (f : Form) : List String → Reading →
    Except Stop (Reading × String × List String)
  | [], _ => .error .usage
  | arg :: rest, r => do
    let next ← r.step f arg
    match next.others with
    | name :: _ => if r.literal then throw .usage else return (r, name, rest)
    | [] => f.readToCommand rest next

end UiSuite.CommandLine
