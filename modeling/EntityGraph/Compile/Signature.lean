import EntityGraph.Projection

/-!
Signatures: what a generated type is built from, and the fingerprint that stands for it. Two
signatures with one fingerprint are the same: every part of the text is written so that its end
can be told without what follows.
-/

namespace EntityGraph

/-- Which properties an output type is compiled from. -/
inductive FieldSource where
  | persisted
  | projected
deriving DecidableEq, Repr

/-- How an entity becomes an output type. -/
structure OutputOptions where
  namePrefix : String
  nameSuffix : String
  attachComputations : Bool
  fields : FieldSource
deriving DecidableEq, Repr

namespace OutputOptions

/-- The options of the public type of an entity. -/
def publicType : OutputOptions := ⟨"", "", true, .projected⟩

/-- The options of the persisted type of an entity. -/
def entityType : OutputOptions := ⟨"", "Entity", false, .persisted⟩

/-- The name of the type of an entity. -/
def typeName (o : OutputOptions) (aliasName : String) : String := o.namePrefix ++ aliasName ++ o.nameSuffix

end OutputOptions

/-- What a generated type is built from. -/
inductive Signature where
  | entityObject (aliasName : String) (options : OutputOptions)
      (fields : List (String × PropertyType × Bool))
  | shapeObject (options : OutputOptions) (fields : List (String × PropertyType))
  | entityInput (aliasName : String) (fields : List (String × PropertyType))
  | shapeInput (fields : List (String × PropertyType))
  | filterInput (fields : List (String × String))
  | sortInput (fields : List String)
deriving Repr

namespace Signature

/-! ### Writing parts -/

/-- A character of a quoted text. -/
def charCode (c : Char) : List Char := if c = '"' ∨ c = '\\' then ['\\', c] else [c]

/-- A text in quotes. -/
def textCode (s : String) : List Char := '"' :: (s.toList.flatMap charCode ++ ['"'])

/-- A flag. -/
def flagCode (b : Bool) : List Char := [if b then '+' else '-']

/-- A list: a comma before every element and a semicolon at the end. -/
def listCode {α : Type} (code : α → List Char) : List α → List Char
  | [] => [';']
  | x :: xs => ',' :: (code x ++ listCode code xs)

/-- The kind of a scalar. -/
def scalarCode : ScalarKind → List Char
  | .string => ['s']
  | .number => ['n']
  | .boolean => ['b']
  | .date => ['d']

mutual

/-- The type of a property. -/
def typeCode : PropertyType → List Char
  | .scalar k => scalarCode k
  | .shape fs => '{' :: fieldCodes fs
  | .array t => '[' :: typeCode t
  | .reference a => '@' :: textCode a

/-- The fields of a shape. -/
def fieldCodes : List (String × PropertyType) → List Char
  | [] => [';']
  | (k, t) :: fs => ',' :: (textCode k ++ typeCode t ++ fieldCodes fs)

end

/-- The options of an output type. -/
def optionsCode (o : OutputOptions) : List Char :=
  textCode o.namePrefix ++ textCode o.nameSuffix ++ flagCode o.attachComputations ++
    flagCode (o.fields = .projected)

/-- The field of an entity: its key, its type, and whether it is computed. -/
def entityFieldCode (f : String × PropertyType × Bool) : List Char :=
  textCode f.1 ++ typeCode f.2.1 ++ flagCode f.2.2

/-- The characters of a fingerprint. -/
def code : Signature → List Char
  | .entityObject a o fs => 'E' :: (textCode a ++ optionsCode o ++ listCode entityFieldCode fs)
  | .shapeObject o fs => 'S' :: (optionsCode o ++ fieldCodes fs)
  | .entityInput a fs => 'e' :: (textCode a ++ fieldCodes fs)
  | .shapeInput fs => 's' :: fieldCodes fs
  | .filterInput fs => 'f' :: listCode (fun f => textCode f.1 ++ textCode f.2) fs
  | .sortInput fs => 'o' :: listCode textCode fs

/-- The fingerprint of a signature. -/
def fingerprint (s : Signature) : String := String.ofList s.code

end Signature

end EntityGraph
