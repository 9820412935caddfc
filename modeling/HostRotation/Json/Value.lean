import HostRotation.Json.Number
import HostRotation.Json.Tree
import HostRotation.Table

namespace HostRotation.Json

inductive Value where
  | null
  | bool (b : Bool)
  | number (n : Number)
  | string (s : String)
  | array (elements : List Value)
  | object (members : List (String × Value))

namespace Value

/-- Members in the order of their keys, the last one of each key. -/
def sortMembers (members : List (String × Value)) : List (String × Value) :=
  (Std.ExtTreeMap.ofList members compare : Table Value).toList

mutual

/-- The value of a tree in which arrays and objects are nested at most so deep. None when a string
has no text or a number is out of range. -/
def ofTree? (depth : Nat) : Tree → Option Value
  | .null => some .null
  | .bool b => some (.bool b)
  | .number l => (Number.ofLiteral? l).map .number
  | .string items => (Item.text? items).map .string
  | .array elements =>
    match depth with
    | 0 => none
    | depth + 1 => (ofTrees? depth elements).map .array
  | .object members =>
    match depth with
    | 0 => none
    | depth + 1 => (ofMembers? depth members).map fun ms => .object (sortMembers ms)

def ofTrees? (depth : Nat) : List Tree → Option (List Value)
  | [] => some []
  | t :: ts =>
    match ofTree? depth t, ofTrees? depth ts with
    | some v, some vs => some (v :: vs)
    | _, _ => none

def ofMembers? (depth : Nat) : List (List Item × Tree) → Option (List (String × Value))
  | [] => some []
  | (key, t) :: ms =>
    match Item.text? key, ofTree? depth t, ofMembers? depth ms with
    | some key, some v, some vs => some ((key, v) :: vs)
    | _, _, _ => none

end

def maxDepth : Nat := 127

def parse? (s : String) : Option Value :=
  (Tree.parse? s).bind (ofTree? maxDepth)

mutual

def tokens : Value → List Token
  | .null => [.null]
  | .bool b => [.bool b]
  | .number n => [.number n.literal]
  | .string s => [.string (Item.ofText s)]
  | .array elements => .openArray :: elementTokens elements ++ [.closeArray]
  | .object members => .openObject :: memberTokens members ++ [.closeObject]

def elementTokens : List Value → List Token
  | [] => []
  | [v] => tokens v
  | v :: vs => tokens v ++ .comma :: elementTokens vs

def memberTokens : List (String × Value) → List Token
  | [] => []
  | [(key, v)] => .string (Item.ofText key) :: .colon :: tokens v
  | (key, v) :: ms => .string (Item.ofText key) :: .colon :: tokens v ++ .comma :: memberTokens ms

end

def compact (v : Value) : String :=
  String.ofList (v.tokens.flatMap Token.render)

def newline (depth : Nat) : List Char :=
  '\n' :: List.replicate (2 * depth) ' '

def quotedText (s : String) : List Char :=
  (Token.string (Item.ofText s)).render

mutual

/-- The characters of a value with a line for each element and member. -/
def prettyChars (depth : Nat) : Value → List Char
  | .array (v :: vs) => '[' :: prettyElements (depth + 1) (v :: vs) ++ newline depth ++ [']']
  | .object (m :: ms) => '\x7b' :: prettyMembers (depth + 1) (m :: ms) ++ newline depth ++ ['\x7d']
  | v => v.tokens.flatMap Token.render

def prettyElements (depth : Nat) : List Value → List Char
  | [] => []
  | [v] => newline depth ++ prettyChars depth v
  | v :: vs => newline depth ++ prettyChars depth v ++ ',' :: prettyElements depth vs

def prettyMembers (depth : Nat) : List (String × Value) → List Char
  | [] => []
  | [(key, v)] => newline depth ++ quotedText key ++ [':', ' '] ++ prettyChars depth v
  | (key, v) :: ms =>
    newline depth ++ quotedText key ++ [':', ' '] ++ prettyChars depth v
      ++ ',' :: prettyMembers depth ms

end

def pretty (v : Value) : String :=
  String.ofList (prettyChars 0 v)

mutual

def sorted : Value → Value
  | .array elements => .array (sortedElements elements)
  | .object members => .object (sortMembers (sortedMembers members))
  | v => v

def sortedElements : List Value → List Value
  | [] => []
  | v :: vs => sorted v :: sortedElements vs

def sortedMembers : List (String × Value) → List (String × Value)
  | [] => []
  | (key, v) :: ms => (key, sorted v) :: sortedMembers ms

end

end Value
end HostRotation.Json
