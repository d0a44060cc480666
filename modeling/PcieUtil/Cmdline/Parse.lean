import PcieUtil.Cmdline.Options
import PcieUtil.Cmdline.Words

/-! The three `parse` functions of cmdline.hpp. -/

namespace PcieUtil.Cmdline.Parse
open Options Words

/-- `lookup`: the name for each short name, empty where two options have it. -/
abbrev Lookup := Std.ExtTreeMap Char (List Char)

variable {T : Types}

/-- The loop that fills `lookup`. An error is the short name that two options have. -/
def buildLookup : List (List Char × Opt T) → Lookup → Except Char Lookup
  | [], lookup => .ok lookup
  | (name, o) :: more, lookup =>
      if name.length = 0 then buildLookup more lookup
      else if o.snam ≠ '\x00' then
        if lookup.contains o.snam then .error o.snam
        else buildLookup more (lookup.insert o.snam name)
      else buildLookup more lookup

def ambiguousOption (c : Char) : List Char := "short option '".toList ++ [c] ++ "' is ambiguous".toList

def undefinedShort (c : Char) : List Char := "undefined short option: -".toList ++ [c]

def ambiguousShort (c : Char) : List Char := "ambiguous short option: -".toList ++ [c]

def needOption (name : List Char) : List Char := "need option: --".toList ++ name

def noArguments : List Char := "argument number must be longer than 0".toList

/-- A short option that is not the last one of its argument. -/
def shortOption (lookup : Lookup) (p : Parser T) (c : Char) : Parser T :=
  match lookup[c]? with
  | none => p.pushError (undefinedShort c)
  | some name => if name = [] then p.pushError (ambiguousShort c) else p.setOption name

/-- The loop over the short options of one argument: the options before the last one are set. -/
def shortOptions (lookup : Lookup) (p : Parser T) (last : Char) : List Char → Parser T × Char
  | [] => (p, last)
  | c :: more => shortOptions lookup (shortOption lookup p last) c more

/-- `options[name]->has_value()` -/
def hasValue (p : Parser T) (name : List Char) : Bool :=
  match p.options[name]? with
  | none => false
  | some o => o.hasValue

/-- The loop over the arguments. -/
def parseArgs (lookup : Lookup) (p : Parser T) : List (List Char) → Parser T
  | [] => p
  | ('-' :: '-' :: body) :: args =>
      if '=' ∈ body then
        let name := body.takeWhile (· ≠ '=')
        let val := (body.dropWhile (· ≠ '=')).tail
        parseArgs lookup (p.setOptionTo name val) args
      else if ¬ p.options.contains body then
        parseArgs lookup (p.pushError (Parser.undefinedOption body)) args
      else if hasValue p body then
        match args with
        | [] => p.pushError (Parser.needsValue body)
        | value :: args => parseArgs lookup (p.setOptionTo body value) args
      else parseArgs lookup (p.setOption body) args
  | ['-'] :: args => parseArgs lookup p args
  | ('-' :: c :: more) :: args =>
      let (p, last) := shortOptions lookup p c more
      match lookup[last]? with
      | none => parseArgs lookup (p.pushError (undefinedShort last)) args
      | some name =>
          if name = [] then parseArgs lookup (p.pushError (ambiguousShort last)) args
          else if hasValue p name then
            match args with
            | [] => p.setOption name
            | value :: args => parseArgs lookup (p.setOptionTo name value) args
          else parseArgs lookup (p.setOption name) args
  | arg :: args => parseArgs lookup { p with others := p.others ++ [arg] } args

/-- The options that must be set and are not, in the order of the map. -/
def missing (p : Parser T) : List (List Char) :=
  (p.options.toList.filter fun entry => ¬ entry.2.valid).map fun entry => needOption entry.1

/-- `parse(argc, argv)` -/
def parse (p : Parser T) (argv : List (List Char)) : Bool × Parser T :=
  let p := { p with errors := [], others := [] }
  match argv with
  | [] => (false, p.pushError noArguments)
  | prog :: args =>
      let p := if p.progName = [] then { p with progName := prog } else p
      match buildLookup p.options.toList ∅ with
      | .error c => (false, p.pushError (ambiguousOption c))
      | .ok lookup =>
          let p := parseArgs lookup p args
          let p := { p with errors := p.errors ++ missing p }
          (p.errors.length = 0, p)

/-- `c_str()` ends at the first null character. -/
def cStr (s : List Char) : List Char := s.takeWhile (· ≠ '\x00')

/-- `parse` of a vector, whose first element is taken without a look at its size. -/
def parseVector (p : Parser T) (args : List (List Char)) : Option (Bool × Parser T) :=
  if args = [] then none else some (parse p (args.map cStr))

/-- What `parse` of a string writes: its arguments, a line for each. -/
def echo (args : List (List Char)) : List Char :=
  args.flatMap fun arg => '"' :: arg ++ ['"', '\n']

/-- `parse` of a string, with what it writes. What went wrong in the cutting is added to the errors
that are there. -/
def parseString (p : Parser T) (arg : List Char) : List Char × Option (Bool × Parser T) :=
  match split arg with
  | .error error => ([], some (false, p.pushError error))
  | .ok args => (echo args, parseVector p args)

end PcieUtil.Cmdline.Parse
