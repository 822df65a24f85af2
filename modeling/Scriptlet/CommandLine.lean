import Scriptlet.Session.Basic

/-! The command line: one file at most, and options that take a value each.  The value is the next argument or follows
an equals sign; the name of an option may be cut short as long as only one option starts like it. -/
namespace Scriptlet
open Text

structure Options where
  /-- The file to run; without one, lines are typed in. -/
  file : Option String
  mode : Mode
  onEmpty : OnEmpty
  recursionLimit : Int
deriving DecidableEq, Repr

namespace CommandLine

inductive Setting
  | help | mode | emptySequences | recursionLimit
deriving DecidableEq, Repr

def spellings : List (String × Setting) :=
  [("-h", .help), ("--help", .help), ("-m", .mode), ("--mode", .mode), ("--empty-sequences", .emptySequences),
   ("--recursion-limit", .recursionLimit)]

inductive Refusal
  /-- The arguments do not fit. -/
  | usage
  | helpAsked
deriving DecidableEq, Repr

def Refusal.status : Refusal → Nat
  | usage => 2
  | helpAsked => 0

/-- What an argument is, by its look alone. -/
inductive Argument
  | plain (text : String)
  /-- Two hyphens, after which every argument is plain. -/
  | divider
  | option (setting : Setting) (value : Option String)
  | unknownOption
deriving DecidableEq, Repr

def dropFinalBreak (cs : List Char) : List Char := if cs.getLast? = some '\n' then cs.dropLast else cs

def isNegativeNumber (cs : List Char) : Bool :=
  match dropFinalBreak cs with
  | '-' :: rest =>
    let whole := rest.takeWhile isDecimal
    match rest.dropWhile isDecimal with
    | [] => !whole.isEmpty
    | '.' :: places => !places.isEmpty && places.all isDecimal
    | _ => false
  | _ => false

/-- The options that a text beginning with two hyphens may cut short. -/
def candidates (name : List Char) : List Setting :=
  (spellings.filter fun (spelling, _) => name.isPrefixOf spelling.toList).map (·.2)

def splitValue (cs : List Char) : List Char × Option String :=
  match cs.dropWhile (· ≠ '=') with
  | [] => (cs, none)
  | _ :: value => (cs.takeWhile (· ≠ '='), some (String.ofList value))

/-- An argument that begins with a hyphen and is no option as it stands. -/
def classifyHyphened (cs : List Char) : Except Refusal Argument :=
  let (name, value) := splitValue cs
  match value.bind fun _ => spellings.lookup (String.ofList name) with
  | some setting => .ok (.option setting value)
  | none =>
    let found : List (Setting × Option String) :=
      match cs with
      | '-' :: '-' :: _ => (candidates name).map fun setting => (setting, value)
      | '-' :: c :: rest =>
        (spellings.filter fun (spelling, _) => spelling = String.ofList ['-', c]).map fun (_, setting) =>
          (setting, some (String.ofList rest))
      | _ => []
    match found with
    | [(setting, value)] => .ok (.option setting value)
    | _ :: _ :: _ => .error .usage
    | [] =>
      if isNegativeNumber cs || cs.contains ' ' then .ok (.plain (String.ofList cs)) else .ok .unknownOption

def classify (arg : String) : Except Refusal Argument :=
  match spellings.lookup arg with
  | some setting => .ok (.option setting none)
  | none =>
    match arg.toList with
    | '-' :: c :: rest => classifyHyphened ('-' :: c :: rest)
    | _ => .ok (.plain arg)

def classifyAll : List String → Except Refusal (List Argument)
  | [] => .ok []
  | "--" :: rest => .ok (.divider :: rest.map .plain)
  | arg :: rest => do
    let first ← classify arg
    let others ← classifyAll rest
    return first :: others

def aroundNumber (c : Char) : Bool := isBlank c && !(0x1C ≤ c.toNat && c.toNat ≤ 0x1F)

/-- Digits with single underscores between them, without the underscores. -/
def groupedDigits : List Char → Option (List Char)
  | [] => none
  | [c] => if isDecimal c then some [c] else none
  | c :: '_' :: rest => if isDecimal c then (groupedDigits rest).map (c :: ·) else none
  | c :: rest => if isDecimal c then (groupedDigits rest).map (c :: ·) else none

def readInt? (arg : String) : Option Int :=
  let cs := ((arg.toList.dropWhile aroundNumber).reverse.dropWhile aroundNumber).reverse
  let magnitude (digits : List Char) : Option Nat :=
    (groupedDigits digits).bind fun ds => if ds.length ≤ Parser.maxDigits then decimalValue? ds else none
  match cs with
  | '-' :: digits => (magnitude digits).map fun n => -(n : Int)
  | '+' :: digits => (magnitude digits).map fun n => (n : Int)
  | digits => (magnitude digits).map fun n => (n : Int)

def Setting.apply (setting : Setting) (value : String) (options : Options) : Except Refusal Options :=
  match setting with
  | .help => .error .usage
  | .mode =>
    match Mode.ofName? value with
    | some m => .ok { options with mode := m }
    | none => .error .usage
  | .emptySequences =>
    match [OnEmpty.null, OnEmpty.empty].find? (·.name = value) with
    | some onEmpty => .ok { options with onEmpty }
    | none => .error .usage
  | .recursionLimit =>
    match readInt? value with
    | some limit => .ok { options with recursionLimit := limit }
    | none => .error .usage

structure Collected where
  options : Options
  /-- Whether the place of the file has been passed. -/
  placed : Bool
  /-- Whether there was an argument without a place. -/
  extra : Bool
deriving DecidableEq, Repr

def Collected.place (got : Collected) (text : String) : Collected :=
  if got.placed then { got with extra := true }
  else { got with placed := true, options := { got.options with file := some text } }

/-- Goes through the arguments in order.  The divider counts as part of the file's place beside it. -/
def collect (got : Collected) : List Argument → Except Refusal Options
  | [] => if got.extra then .error .usage else .ok got.options
  | .plain text :: .divider :: rest =>
    collect { got.place text with extra := got.placed || got.extra } rest
  | .plain text :: rest => collect (got.place text) rest
  | .divider :: .plain text :: rest =>
    collect { got.place text with extra := got.placed || got.extra } rest
  | .divider :: rest => collect { got with placed := true, extra := got.placed || got.extra } rest
  | .unknownOption :: rest => collect { got with extra := true } rest
  | .option .help none :: _ => .error .helpAsked
  | .option setting (some value) :: rest => do
    let options ← setting.apply value got.options
    collect { got with options } rest
  | .option setting none :: .plain value :: rest => do
    let options ← setting.apply value got.options
    collect { got with options } rest
  | .option _ none :: _ => .error .usage

/-- The recursion limit that holds unless another one is asked for. -/
def standardLimit : Nat := 20000

def defaults : Options := ⟨none, .evaluator, .null, standardLimit⟩

def parse (args : List String) : Except Refusal Options := do
  collect ⟨defaults, false, false⟩ (← classifyAll args)

end CommandLine
end Scriptlet
