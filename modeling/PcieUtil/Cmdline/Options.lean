import Mathlib.Data.List.Basic

/-! The options of cmdline.hpp and the `parser` that holds them. A `std::string` is the list of
its characters, and `std::map` is a map that is gone through in the order of its keys; `ordered`
points to the objects of that map, which the parser never replaces, and is kept as their keys. -/

namespace PcieUtil.Cmdline.Options

/-- The types that `add` is used with: the name that `readable_typename` gives to each, and the
text that `lexical_cast` makes of its values. -/
structure Types where
  Tag : Type
  El : Tag → Type
  decEq : DecidableEq Tag
  readableTypename : Tag → List Char
  text : (tag : Tag) → El tag → List Char

variable {T : Types}

/-- Only `std::string`, which `lexical_cast` leaves as it is. -/
abbrev strings : Types := ⟨Unit, fun _ => List Char, inferInstance, fun _ => "string".toList, fun _ value => value⟩

/-- `option_with_value` and its reader, which throws for `none`. -/
structure WithValue (T : Types) where
  tag : T.Tag
  need : Bool
  has : Bool
  default : T.El tag
  actual : T.El tag
  reader : List Char → Option (T.El tag)

inductive Kind (T : Types) where
  | withoutValue (has : Bool)
  | withValue (value : WithValue T)

/-- `option_base`. The short name is 0 where there is none. -/
structure Opt (T : Types) where
  nam : List Char
  snam : Char
  desc : List Char
  kind : Kind T

namespace Opt

def hasValue (o : Opt T) : Bool :=
  match o.kind with
  | .withoutValue _ => false
  | .withValue _ => true

/-- `set()`, which fails for `none`. -/
def set (o : Opt T) : Option (Opt T) :=
  match o.kind with
  | .withoutValue _ => some { o with kind := .withoutValue true }
  | .withValue _ => none

/-- `set(value)`: the value is left as it is when the reader throws. -/
def setTo (o : Opt T) (value : List Char) : Option (Opt T) :=
  match o.kind with
  | .withoutValue _ => none
  | .withValue v =>
      match v.reader value with
      | none => none
      | some actual => some { o with kind := .withValue { v with has := true, actual := actual } }

def hasSet (o : Opt T) : Bool :=
  match o.kind with
  | .withoutValue has => has
  | .withValue v => v.has

def valid (o : Opt T) : Bool :=
  match o.kind with
  | .withoutValue _ => true
  | .withValue v => if v.need ∧ ¬ v.has then false else true

def must (o : Opt T) : Bool :=
  match o.kind with
  | .withoutValue _ => false
  | .withValue v => v.need

def shortDescription (o : Opt T) : List Char :=
  match o.kind with
  | .withoutValue _ => "--".toList ++ o.nam
  | .withValue v => "--".toList ++ o.nam ++ "=".toList ++ T.readableTypename v.tag

end Opt

def fullDescription (desc : List Char) (tag : T.Tag) (need : Bool) (default : T.El tag) : List Char :=
  desc ++ " (".toList ++ T.readableTypename tag ++
    (if need then [] else " [=".toList ++ T.text tag default ++ "]".toList) ++ ")".toList

structure Parser (T : Types) where
  options : Std.ExtTreeMap (List Char) (Opt T) := ∅
  ordered : List (List Char) := []
  ftr : List Char := []
  progName : List Char := []
  others : List (List Char) := []
  errors : List (List Char) := []

namespace Parser

/-- Where an option of that name is there already, `add` throws. -/
def insertNew (p : Parser T) (o : Opt T) : Except (List Char) (Parser T) :=
  if p.options.contains o.nam then .error ("multiple definition: ".toList ++ o.nam)
  else .ok { p with options := p.options.insert o.nam o, ordered := p.ordered ++ [o.nam] }

/-- `add` of an option without a value. -/
def add (p : Parser T) (name : List Char) (shortName : Char) (desc : List Char) :
    Except (List Char) (Parser T) :=
  p.insertNew ⟨name, shortName, desc, .withoutValue false⟩

/-- `add<T>` with a reader. -/
def addValue (p : Parser T) (tag : T.Tag) (name : List Char) (shortName : Char) (desc : List Char)
    (need : Bool) (default : T.El tag) (reader : List Char → Option (T.El tag)) :
    Except (List Char) (Parser T) :=
  p.insertNew ⟨name, shortName, fullDescription desc tag need default,
    .withValue ⟨tag, need, false, default, default, reader⟩⟩

def exist (p : Parser T) (name : List Char) : Bool :=
  match p.options[name]? with
  | none => false
  | some o => o.hasSet

/-- `get<T>`, with the cast to the type that the option was added with. -/
def get (p : Parser T) (tag : T.Tag) (name : List Char) : Except (List Char) (T.El tag) :=
  match p.options[name]? with
  | none => .error ("there is no flag: --".toList ++ name)
  | some o =>
      match o.kind with
      | .withoutValue _ => .error ("type mismatch flag '".toList ++ name ++ "'".toList)
      | .withValue v =>
          match T.decEq v.tag tag with
          | .isTrue same => .ok (same ▸ v.actual)
          | .isFalse _ => .error ("type mismatch flag '".toList ++ name ++ "'".toList)

def rest (p : Parser T) : List (List Char) := p.others

def error (p : Parser T) : List Char := p.errors.headD []

def errorFull (p : Parser T) : List Char := p.errors.flatMap (· ++ ['\n'])

def pushError (p : Parser T) (error : List Char) : Parser T := { p with errors := p.errors ++ [error] }

def undefinedOption (name : List Char) : List Char := "undefined option: --".toList ++ name

def needsValue (name : List Char) : List Char := "option needs value: --".toList ++ name

def invalidValue (name value : List Char) : List Char :=
  "option value is invalid: --".toList ++ name ++ "=".toList ++ value

/-- `set_option` without a value. -/
def setOption (p : Parser T) (name : List Char) : Parser T :=
  match p.options[name]? with
  | none => p.pushError (undefinedOption name)
  | some o =>
      match o.set with
      | none => p.pushError (needsValue name)
      | some o => { p with options := p.options.insert name o }

/-- `set_option` with a value. -/
def setOptionTo (p : Parser T) (name value : List Char) : Parser T :=
  match p.options[name]? with
  | none => p.pushError (undefinedOption name)
  | some o =>
      match o.setTo value with
      | none => p.pushError (invalidValue name value)
      | some o => { p with options := p.options.insert name o }

end Parser

end PcieUtil.Cmdline.Options
