import MemoryAtlas.Session.Command

namespace MemoryAtlas

/-!
The arguments of the program.

Words and options may be mixed.  The first word is the command and the others
are what it is about.  An option is a switch or takes the argument after it as
its value; of repeated options the last one counts.
-/

/-- What can be wrong with the arguments. -/
inductive ArgumentFault where
  | unknownOption (name : String)
  | missingValue (name : String)
  | missingWord (what : String)
  | extraWord (word : String)
  | unknownCommand (name : String)
  | badAddress (failure : Failure)
  | badKey (failure : Failure)
  | badNumber (text : String) (cause : Text.NumeralFault)
deriving Repr, DecidableEq

def ArgumentFault.message : ArgumentFault -> String
  | .unknownOption name => "unknown option " ++ name
  | .missingValue name => "option --" ++ name ++ " needs a value"
  | .missingWord what => "missing " ++ what
  | .extraWord word => "unexpected argument " ++ word
  | .unknownCommand name => "unknown command " ++ name
  | .badAddress failure => ": ".intercalate failure.sentences
  | .badKey failure => ": ".intercalate failure.sentences
  | .badNumber text cause => "invalid number " ++ text ++ ": " ++ cause.message

/-- The arguments sorted into words and options. -/
structure Arguments where
  words : List String
  /-- Options by name.  A switch has the empty text as its value. -/
  options : List (String × String)
deriving Repr, DecidableEq

namespace Arguments

/-- The options without a value. -/
def switches : List String :=
  ["attach", "entity", "labels", "json", "class", "wide"]

/-- The options with a value. -/
def settings : List String :=
  ["config", "schema", "snapshot", "base", "pid", "compare", "addr", "key", "value", "find", "limit",
   "elem", "size", "interval-ms", "count"]

/-- The name of the option that an argument is. -/
def optionName? (word : String) : Option String :=
  match word.toList with
  | '-' :: '-' :: name => some (String.ofList name)
  | ['-', 'c'] => some "config"
  | ['-', 's'] => some "schema"
  | ['-', 'n'] => some "size"
  | _ => none

/-- Sorts the arguments. -/
def ofList : List String -> Except ArgumentFault Arguments
  | [] => .ok ⟨[], []⟩
  | word :: rest =>
    match optionName? word with
    | none => (ofList rest).map (fun a => { a with words := word :: a.words })
    | some name =>
      if switches.contains name then
        (ofList rest).map (fun a => { a with options := (name, "") :: a.options })
      else if settings.contains name then
        match rest with
        | [] => .error (.missingValue name)
        | value :: rest => (ofList rest).map (fun a => { a with options := (name, value) :: a.options })
      else .error (.unknownOption word)

/-- The value of an option. -/
def option? (a : Arguments) (name : String) : Option String :=
  a.options.reverse.lookup name

/-- Whether a switch is set. -/
def isSet (a : Arguments) (name : String) : Bool :=
  (a.option? name).isSome

def address (text : String) : Except ArgumentFault Address :=
  (Report.readAddress text).mapError .badAddress

def number (text : String) : Except ArgumentFault Nat :=
  (Text.readWord 10 64 text.toList).mapError (.badNumber text)

/-- The value of an option read by a reader. -/
def optionally {α : Type} (a : Arguments) (name : String) (read : String -> Except ArgumentFault α) :
    Except ArgumentFault (Option α) :=
  (a.option? name).mapM read

def required (a : Arguments) (name : String) : Except ArgumentFault String :=
  match a.option? name with
  | some value => .ok value
  | none => .error (.missingWord ("--" ++ name))

/-- The words of a command, as many as it has names for. -/
def expect (names words : List String) : Except ArgumentFault (List String) :=
  match words.drop names.length, names.drop words.length with
  | word :: _, _ => .error (.extraWord word)
  | [], name :: _ => .error (.missingWord name)
  | [], [] => .ok words

def subject (a : Arguments) (words : List String) : Except ArgumentFault Subject := do
  let words <- expect ["target", "address"] words
  return ⟨words[0]?.getD "", <- address (words[1]?.getD ""), a.isSet "entity"⟩

/-- The address that is the only word of a command. -/
def onlyAddress (words : List String) : Except ArgumentFault Address := do
  let words <- expect ["address"] words
  address (words[0]?.getD "")

/-- How many elements are listed unless the arguments say otherwise. -/
def standingLimit : Nat := 64

def limit (a : Arguments) : Except ArgumentFault Nat := do
  return (<- a.optionally "limit" number).getD standingLimit

/-- A question to the slot directory. -/
def slotCommand : List String -> Except ArgumentFault Report.SlotCommand
  | "lookup" :: words => do return .lookup (<- onlyAddress words)
  | "nearest" :: words => do
    let words <- expect ["slot"] words
    return .nearest (<- number (words[0]?.getD ""))
  | "label" :: words => do
    let words <- expect ["slot address", "name"] words
    return .label (<- address (words[0]?.getD "")) (words[1]?.getD "")
  | "named" :: words => do
    let _ <- expect [] words
    return .named
  | name :: _ => .error (.unknownCommand name)
  | [] => .error (.missingWord "command")

/-- The form in which an object is reported. -/
def form (a : Arguments) : Report.Form :=
  if a.isSet "json" then .json else if a.isSet "labels" then .labels else .values

/-- The command that the words name. -/
def command (a : Arguments) : Except ArgumentFault Command :=
  match a.words with
  | "check" :: words => do
    let _ <- expect [] words
    return .check
  | "offsets" :: words => do
    return .offsets (<- a.subject words) (<- a.optionally "compare" address) a.form
  | "chain" :: words => do
    let words <- expect ["name"] words
    return .chain (words[0]?.getD "") (a.isSet "class") (<- a.optionally "addr" address)
  | "map" :: words => do
    let find <- a.optionally "find" (fun text => (Report.readKey text).mapError .badKey)
    return .map (<- onlyAddress words) (<- a.required "key") (a.option? "value") find (<- a.limit)
  | "string" :: words => do return .string (<- onlyAddress words) (a.isSet "wide")
  | "vector" :: words => do return .vector (<- onlyAddress words) (<- a.required "elem") (<- a.limit)
  | "vtable" :: words => do return .slots (<- slotCommand words)
  | "hexdump" :: words => do
    return .hexdump (<- onlyAddress words) ((<- a.optionally "size" number).getD 256)
  | "watch" :: words => do
    return .watch (<- a.subject words) (<- a.optionally "interval-ms" number)
      (<- a.optionally "count" number)
  | name :: _ => .error (.unknownCommand name)
  | [] => .error (.missingWord "command")

/-- What the arguments say about the source of the memory. -/
def source (a : Arguments) : Except ArgumentFault SourceRequest := do
  return ⟨a.option? "snapshot", <- a.optionally "base" address, <- a.optionally "pid" number,
    a.isSet "attach"⟩

end Arguments
end MemoryAtlas
