import CportNode.Cli.Usage

/-!
Command lines as lists of words.  A grammar says which flags, options, positional parameters and
subcommands there are.  Words are taken from left to right, and the value of a parameter is checked
when the next one begins, so that of two mistakes the earlier one is usually reported.
-/

namespace CportNode.Cli

structure Parameter where
  name : String
  accepts : String → Except UsageError Unit

structure Grammar where
  flags : List String
  options : List Parameter
  letters : List (Char × String)
  positionals : List Parameter
  subcommands : List String

structure Scan where
  found : List (String × String)
  pending : Option (Parameter × Option String)
  places : List Parameter

namespace Scan

def start (g : Grammar) : Scan := ⟨[], none, g.positionals⟩

def value? (s : Scan) (name : String) : Option String :=
  s.found.lookup name

def record (s : Scan) (p : Parameter) (value : String) : Except UsageError Scan :=
  if (s.value? p.name).isSome then .error .argumentConflict
  else
    match p.accepts value with
    | .error e => .error e
    | .ok () => .ok { s with found := s.found ++ [(p.name, value)] }

def settle (s : Scan) : Except UsageError Scan :=
  match s.pending with
  | none => .ok s
  | some (_, none) => .error .invalidValue
  | some (p, some value) => record { s with pending := none } p value

def option (s : Scan) (p : Parameter) (attached : Option String) : Except UsageError Scan := do
  let s ← s.settle
  match attached with
  | some value => s.record p value
  | none => return { s with pending := some (p, none) }

def flag (s : Scan) (name : String) (attached : Option String) : Except UsageError Scan :=
  match attached with
  | some _ => .error .tooManyValues
  | none => do
    let s ← s.settle
    if name = "help" then .error .displayHelp
    else s.record ⟨name, fun _ => .ok ()⟩ ""

def word (g : Grammar) (trailing : Bool) (s : Scan) (arg : String) : Except UsageError Scan :=
  match s.pending, trailing with
  | some (p, none), false => .ok { s with pending := some (p, some arg) }
  | _, _ =>
    match s.places with
    | p :: places => do
      let s ← s.settle
      return { s with pending := some (p, some arg), places }
    | [] =>
      if g.subcommands.isEmpty || (trailing && g.subcommands.contains arg) then
        .error .unknownArgument
      else .error .invalidSubcommand

def awaitsValue (s : Scan) : Bool :=
  match s.pending with
  | some (_, none) => true
  | _ => false

end Scan

namespace Grammar

def option? (g : Grammar) (name : String) : Option Parameter :=
  g.options.find? (·.name == name)

def splitLong (cs : List Char) : String × Option String :=
  match cs.dropWhile (· != '=') with
  | [] => (String.ofList cs, none)
  | _ :: value => (String.ofList (cs.takeWhile (· != '=')), some (String.ofList value))

def long (g : Grammar) (s : Scan) (cs : List Char) : Except UsageError Scan :=
  let (name, attached) := splitLong cs
  if g.flags.contains name then s.flag name attached
  else
    match g.option? name with
    | some p => s.option p attached
    | none => .error .unknownArgument

def attached : List Char → Option String
  | [] => none
  | '=' :: value => some (String.ofList value)
  | value => some (String.ofList value)

def letter (g : Grammar) (s : Scan) (c : Char) (rest : List Char) : Except UsageError Scan :=
  if c = 'h' then s.flag "help" none
  else
    match (g.letters.lookup c).bind g.option? with
    | some p => s.option p (attached rest)
    | none => .error .unknownArgument

/-- Takes words until a subcommand comes, which is given with the words after it.  After two hyphens
alone, all words are positional. -/
def scan (g : Grammar) (trailing : Bool) (s : Scan) :
    List String → Except UsageError (Scan × Option (String × List String))
  | [] => .ok (s, none)
  | arg :: args =>
    if !trailing && !s.awaitsValue && g.subcommands.contains arg then .ok (s, some (arg, args))
    else
      match trailing, arg.toList with
      | false, ['-', '-'] => scan g true s args
      | false, '-' :: '-' :: cs => do
        let s ← g.long s cs
        scan g false s args
      | false, '-' :: c :: cs => do
        let s ← g.letter s c cs
        scan g false s args
      | trailing, _ => do
        let s ← s.word g trailing arg
        scan g trailing s args

end Grammar

end CportNode.Cli
