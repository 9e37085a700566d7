import Brainfuck.Tape

/-!
The arguments of the command line. Each argument is first read on its own into items: a positional,
a setting with its value, a flag, the version request, or something unknown. The items are then
taken in order. An unknown item, a second positional and the version request decide at once; what is
missing, repeated or in conflict is found at the end. The request for help, `-h` or `--help`, and
the text that it prints are left out: its names are unknown ones here.
-/

namespace Brainfuck.CommandLine

/-! ### Items -/

/-- What takes a value. -/
inductive Setting where
  | output
  | selection
  | tapeSize
  | indent
  | compiler
deriving DecidableEq, Repr

/-- Whether a setting has a value of its own when none is written. Only the output has not: which
file it is then depends on the input. -/
def Setting.hasDefault : Setting → Bool
  | .output => false
  | .selection | .tapeSize | .indent | .compiler => true

/-- What takes no value. -/
inductive Flag where
  | execute
  | executable
  | verbose
deriving DecidableEq, Repr

/-- What one argument, or two, can say. A setting without a value lacks one. -/
inductive Item where
  | positional (text : String)
  | setting (name : Setting) (value : Option String)
  | flag (name : Flag)
  | version
  | unknown
deriving DecidableEq, Repr

/-- What a name of an option can stand for. -/
inductive Meaning where
  | setting (name : Setting)
  | flag (name : Flag)
  | version
deriving DecidableEq, Repr

/-- The options of one letter. -/
def meaningOfLetter? : Char → Option Meaning
  | 'o' => some (.setting .output)
  | 'O' => some (.setting .selection)
  | 'e' => some (.flag .execute)
  | 'x' => some (.flag .executable)
  | 'v' => some (.flag .verbose)
  | 'V' => some .version
  | _ => none

/-- The options with a long name. -/
def meaningOfName? : String → Option Meaning
  | "output" => some (.setting .output)
  | "optimizations" => some (.setting .selection)
  | "tape-size" => some (.setting .tapeSize)
  | "indent" => some (.setting .indent)
  | "cxx" => some (.setting .compiler)
  | "execute" => some (.flag .execute)
  | "executable" => some (.flag .executable)
  | "version" => some .version
  | _ => none

/-- A value attached to its option. All equals signs before it are dropped. -/
def attached (text : List Char) : String :=
  String.ofList (text.dropWhile (· == '='))

/-- The items of an argument, with a setting that still waits for its value. -/
structure Reading where
  items : List Item
  waiting : Option Setting := none
deriving DecidableEq, Repr

/-- Reads an argument that begins with two dashes, which are no part of `text`. -/
def readLong (text : List Char) : Reading :=
  let name := text.takeWhile (· != '=')
  match meaningOfName? (String.ofList name), text.dropWhile (· != '=') with
  | some (.setting setting), [] => ⟨[], some setting⟩
  | some (.setting setting), value => ⟨[.setting setting (some (attached value))], none⟩
  | some (.flag flag), _ => ⟨[.flag flag], none⟩
  | some .version, _ => ⟨[.version], none⟩
  | none, _ => ⟨[.unknown], none⟩

/-- Reads an argument of option letters. A setting takes the rest of the argument as its value, and
what follows an unknown letter is not looked at. -/
def readLetters : List Char → Reading
  | [] => ⟨[], none⟩
  | letter :: rest =>
      match meaningOfLetter? letter, rest with
      | some (.setting setting), [] => ⟨[], some setting⟩
      | some (.setting setting), value => ⟨[.setting setting (some (attached value))], none⟩
      | some (.flag flag), _ =>
          let reading := readLetters rest
          { reading with items := .flag flag :: reading.items }
      | some .version, _ => ⟨[.version], none⟩
      | none, _ => ⟨[.unknown], none⟩

/-- Reads one argument that is not a setting's value. A single dash is a positional. -/
def readArgument (argument : String) : Reading :=
  match argument.toList with
  | '-' :: '-' :: rest => readLong (rest.dropWhile (· == '-'))
  | '-' :: letter :: rest => readLetters (letter :: rest)
  | _ => ⟨[.positional argument], none⟩

/-- Whether an argument can be the value of the setting before it. -/
def isValue (argument : String) : Bool :=
  argument == "-" || argument.toList.head? != some '-'

/-- The item of a setting whose value did not come. -/
def withoutValue : Option Setting → List Item
  | none => []
  | some setting => [.setting setting none]

/-- The items of all arguments, where `waiting` is a setting that the next one may complete. Behind
`--` every argument is a positional. -/
def readItems : Option Setting → List String → List Item
  | waiting, [] => withoutValue waiting
  | waiting, argument :: rest =>
      match waiting, isValue argument with
      | some setting, true => .setting setting (some argument) :: readItems none rest
      | waiting, _ =>
          withoutValue waiting ++
            if argument = "--" then rest.map .positional
            else
              let reading := readArgument argument
              reading.items ++ readItems reading.waiting rest

/-! ### Requests -/

/-- What is to be done with the program. -/
inductive Mode where
  | execute
  | generate
  | build
deriving DecidableEq, Repr

/-- A complete set of options. Sizes are kept as they were written. -/
structure Options where
  input : String
  mode : Mode := .generate
  output : Option String := none
  selection : String := "all"
  tapeSize : String := toString Tape.defaultCapacity
  indent : String := "4"
  compiler : String := "c++"
  verbosity : Nat := 0
deriving DecidableEq, Repr

/-- What the arguments ask for. -/
inductive Request where
  | version
  | misuse
  | start (options : Options)
deriving DecidableEq, Repr

/-- The items taken so far. -/
structure Draft where
  input : Option String := none
  settings : List (Setting × Option String) := []
  flags : List Flag := []
deriving DecidableEq, Repr

namespace Draft

/-- The values given to a setting. -/
def values (draft : Draft) (name : Setting) : List (Option String) :=
  (draft.settings.filter (·.1 == name)).map (·.2)

/-- The value given to a setting, if it was given once and is there. -/
def value? (draft : Draft) (name : Setting) : Option String :=
  (draft.values name).head?.join

/-- Whether a setting was given at most once, and with a value unless it has a default. -/
def isSound (draft : Draft) (name : Setting) : Bool :=
  match draft.values name with
  | [] => true
  | [value] => value.isSome || name.hasDefault
  | _ => false

/-- What the two flags that choose a mode say together. Neither may be repeated, and they exclude
each other. -/
def mode? (draft : Draft) : Option Mode :=
  match draft.flags.count .execute, draft.flags.count .executable with
  | 0, 0 => some .generate
  | 1, 0 => some .execute
  | 0, 1 => some .build
  | _, _ => none

/-- The request of a complete draft. -/
def request (draft : Draft) : Request :=
  match draft.input, draft.mode? with
  | some input, some mode =>
      if [.output, .selection, .tapeSize, .indent, .compiler].all draft.isSound then
        let plain : Options := { input }
        .start {
          input
          mode
          output := draft.value? .output
          selection := (draft.value? .selection).getD plain.selection
          tapeSize := (draft.value? .tapeSize).getD plain.tapeSize
          indent := (draft.value? .indent).getD plain.indent
          compiler := (draft.value? .compiler).getD plain.compiler
          verbosity := draft.flags.count .verbose }
      else .misuse
  | _, _ => .misuse

end Draft

/-- Takes items in order until one of them decides, or all are taken. -/
def takeItems : Draft → List Item → Request
  | draft, [] => draft.request
  | _, .version :: _ => .version
  | _, .unknown :: _ => .misuse
  | draft, .positional text :: rest =>
      if draft.input.isSome then .misuse else takeItems { draft with input := some text } rest
  | draft, .setting name value :: rest =>
      takeItems { draft with settings := (name, value) :: draft.settings } rest
  | draft, .flag name :: rest => takeItems { draft with flags := name :: draft.flags } rest

/-- What some arguments ask for. -/
def Request.ofArguments (arguments : List String) : Request :=
  takeItems {} (readItems none arguments)

end Brainfuck.CommandLine
