import HostRotation.Json.Token

namespace HostRotation.Json

inductive Tree where
  | null
  | bool (b : Bool)
  | number (l : NumberLiteral)
  | string (items : List Item)
  | array (elements : List Tree)
  | object (members : List (List Item × Tree))

namespace Tree

/-- An array or object that is still open, with what it holds so far, the last first. -/
inductive Frame where
  | array (elements : List Tree)
  | member (members : List (List Item × Tree)) (key : List Item)

/-- What may come next, inside of the open arrays and objects. -/
inductive State where
  | value (stack : List Frame)
  /-- The first element of an array, or its end. -/
  | element (stack : List Frame)
  /-- The first key of an object, or its end. -/
  | member (stack : List Frame)
  | key (stack : List Frame) (members : List (List Item × Tree))
  | colon (stack : List Frame) (members : List (List Item × Tree)) (key : List Item)
  /-- What follows a value: a comma, the end of what it is in, or the end of the text. -/
  | after (stack : List Frame) (t : Tree)

def begin (stack : List Frame) : Token → Option State
  | .null => some (.after stack .null)
  | .bool b => some (.after stack (.bool b))
  | .number l => some (.after stack (.number l))
  | .string items => some (.after stack (.string items))
  | .openArray => some (.element stack)
  | .openObject => some (.member stack)
  | _ => none

def step : State → Token → Option State
  | .value stack, t => begin stack t
  | .element stack, .closeArray => some (.after stack (.array []))
  | .element stack, t => begin (.array [] :: stack) t
  | .member stack, .closeObject => some (.after stack (.object []))
  | .member stack, .string key => some (.colon stack [] key)
  | .key stack members, .string key => some (.colon stack members key)
  | .colon stack members key, .colon => some (.value (.member members key :: stack))
  | .after (.array elements :: stack) t, .comma => some (.value (.array (t :: elements) :: stack))
  | .after (.array elements :: stack) t, .closeArray =>
    some (.after stack (.array (t :: elements).reverse))
  | .after (.member members key :: stack) t, .comma => some (.key stack ((key, t) :: members))
  | .after (.member members key :: stack) t, .closeObject =>
    some (.after stack (.object ((key, t) :: members).reverse))
  | _, _ => none

def State.result? : State → Option Tree
  | .after [] t => some t
  | _ => none

def ofTokens? (tokens : List Token) : Option Tree :=
  (tokens.foldlM step (.value [])).bind State.result?

def parse? (s : String) : Option Tree :=
  (Token.scan? s.toList).bind ofTokens?

def text? : Tree → Option String
  | .string items => Item.text? items
  | _ => none

def members? : Tree → Option (List (String × Tree))
  | .object members => members.mapM fun (key, t) => (Item.text? key).map (·, t)
  | _ => none

/-- The only value of a key; none when it is absent or repeated. -/
def member? (members : List (String × Tree)) (key : String) : Option Tree :=
  match members.filter (·.1 = key) with
  | [(_, t)] => some t
  | _ => none

/-- The fields of a record, in the order of their names: those members of an object, each once, or
the elements of an array of as many. Other members of an object are disregarded. -/
def fields? (names : List String) (t : Tree) : Option (List Tree) :=
  match t with
  | .array elements => if elements.length = names.length then some elements else none
  | t => t.members?.bind fun members => names.mapM (member? members)

end Tree
end HostRotation.Json
