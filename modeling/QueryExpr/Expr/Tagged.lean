/-
Expression trees in JSON.

Scalars stand for leaves of their own kind.  Every other node is an object with a
single member, whose key names the node and whose value holds its operands:

- column, date and datetime take a text
- neg, pos and not take a tree
- add, sub, mul, div, and, or, eq, ne, lt, le, gt and ge take a list of two trees
- is takes a list of a tree and true, false or null
-/
import QueryExpr.Calendar.Reader
import QueryExpr.Expr.Basic
import QueryExpr.Integer
import QueryExpr.Json.Printer

namespace QueryExpr
namespace Expr

/-- Why a JSON value is not an expression. -/
inductive Malformation where
  | notSingleKey (value : Json)
  | unknownNode (tag : String)
  | notText (tag : String) (body : Json)
  | notPair (tag : String) (body : Json)
  | notTarget (value : Json)
  | badDate (text : String) (fault : Calendar.Fault)
  | badDatetime (text : String) (fault : Calendar.Fault)

inductive Error where
  /-- A list or an object where a scalar has to be. -/
  | unsupported (value : Json)
  | malformed (cause : Malformation)

def Malformation.message : Malformation → String
  | .notSingleKey v => "expected a single-key object, got " ++ v.compact
  | .unknownNode tag => "unknown node '" ++ tag ++ "'"
  | .notText tag body => "'" ++ tag ++ "' expects a string, got " ++ body.compact
  | .notPair tag body => "'" ++ tag ++ "' expects two operands, got " ++ body.compact
  | .notTarget v => "'is' target must be true, false or null, got " ++ v.compact
  | .badDate s f => "bad date " ++ (Json.string s).compact ++ ": " ++ f.message
  | .badDatetime s f => "bad datetime " ++ (Json.string s).compact ++ ": " ++ f.message

def Error.message : Error → String
  | .unsupported v => "unsupported literal type: " ++ v.kind ++ " (" ++ v.compact ++ ")"
  | .malformed cause => "malformed expression: " ++ cause.message

/-- The leaf of a scalar.  An integer beyond a signed word becomes the nearest float. -/
def ofScalar : Json → Except Error Expr
  | .null => .ok null
  | .bool b => .ok (bool b)
  | .number (.integer i _) =>
    match Integer.fit? i with
    | some v => .ok (int v)
    | none => .ok (float (Float.ofInt i))
  | .number (.real x _) => .ok (float x)
  | .string s => .ok (str s)
  | .array items => .error (.unsupported (.array items))
  | .object members => .error (.unsupported (.object members))

/-- The nodes with two operands. -/
inductive Connective where
  | arith (op : ArithOp)
  | logic (op : LogicOp)
  | compare (op : CompareOp)
  deriving DecidableEq

def Connective.join (c : Connective) (left right : Expr) : Expr :=
  match c with
  | .arith op => .arith op left right
  | .logic op => .logic op left right
  | .compare op => .compare op left right

/-- The nodes that have a key of their own. -/
inductive Tag where
  | column
  | date
  | datetime
  | sign (negative : Bool)
  | not
  | is
  | connective (c : Connective)
  deriving DecidableEq

namespace Tag

def name : Tag → String
  | .column => "column"
  | .date => "date"
  | .datetime => "datetime"
  | .sign true => "neg"
  | .sign false => "pos"
  | .not => "not"
  | .is => "is"
  | .connective (.arith .add) => "add"
  | .connective (.arith .sub) => "sub"
  | .connective (.arith .mul) => "mul"
  | .connective (.arith .div) => "div"
  | .connective (.logic .and) => "and"
  | .connective (.logic .or) => "or"
  | .connective (.compare .eq) => "eq"
  | .connective (.compare .ne) => "ne"
  | .connective (.compare .lt) => "lt"
  | .connective (.compare .le) => "le"
  | .connective (.compare .gt) => "gt"
  | .connective (.compare .ge) => "ge"

def all : List Tag :=
  [.column, .date, .datetime, .sign true, .sign false, .not, .is] ++
    [.arith .add, .arith .sub, .arith .mul, .arith .div, .logic .and, .logic .or,
      .compare .eq, .compare .ne, .compare .lt, .compare .le, .compare .gt,
      .compare .ge].map .connective

/-- The tag of a key. -/
def ofName? (name : String) : Option Tag := all.find? fun t => t.name = name

theorem name_of_ofName? {name : String} {t : Tag} (h : ofName? name = some t) : t.name = name := by
  simpa using List.find?_some h

theorem ofName?_name (t : Tag) : ofName? t.name = some t := by
  cases t with
  | column | date | datetime | not | is => decide
  | sign negative => cases negative <;> decide
  | connective c => rcases c with op | op | op <;> cases op <;> decide

end Tag

/-- The text of a node that takes one. -/
def expectText (tag : String) : Json → Except Error String
  | .string s => .ok s
  | body => .error (.malformed (.notText tag body))

def expectTarget : Json → Except Error (Option Bool)
  | .bool b => .ok (some b)
  | .null => .ok none
  | v => .error (.malformed (.notTarget v))

def ofDate (s : String) : Except Error Expr :=
  match Calendar.readDate s.toList with
  | .ok d => .ok (.leaf (.date d))
  | .error f => .error (.malformed (.badDate s f))

def ofDatetime (s : String) : Except Error Expr :=
  match Calendar.readDatetime s.toList with
  | .ok t => .ok (.leaf (.datetime t))
  | .error f => .error (.malformed (.badDatetime s f))

/-- The tree that a JSON value stands for. -/
def ofJson : Json → Except Error Expr
  | .object [(key, body)] =>
    match Tag.ofName? key with
    | none => .error (.malformed (.unknownNode key))
    | some .column => (expectText key body).map fun s => column (Column.parse s)
    | some .date => expectText key body >>= ofDate
    | some .datetime => expectText key body >>= ofDatetime
    | some (.sign negative) => (ofJson body).map (.sign negative)
    | some .not => (ofJson body).map .not
    | some .is =>
      match body with
      | .array [operand, target] => do
        let target ← expectTarget target
        let operand ← ofJson operand
        .ok (.is operand target)
      | body => .error (.malformed (.notPair key body))
    | some (.connective c) =>
      match body with
      | .array [left, right] => do
        let left ← ofJson left
        let right ← ofJson right
        .ok (c.join left right)
      | body => .error (.malformed (.notPair key body))
  | .object members => .error (.malformed (.notSingleKey (.object members)))
  | v => ofScalar v
termination_by structural v => v

/-- The object of a node with a key of its own. -/
def node (t : Tag) (body : Json) : Json := .object [(t.name, body)]

/-- The JSON value of a leaf.  A float that is not finite has none and becomes null. -/
def ofLeaf : Leaf → Json
  | .int v => .number (.integer v.toInt (Integer.wordRange v))
  | .float x => if finite : x.isFinite = true then .number (.real x finite) else .null
  | .str s => .string s
  | .date d => node .date (.string (String.ofList d.write))
  | .datetime t => node .datetime (.string (String.ofList t.write))
  | .bool b => .bool b
  | .null => .null
  | .column c => node .column (.string c.display)

def targetJson : Option Bool → Json
  | some b => .bool b
  | none => .null

/-- The JSON value that stands for a tree. -/
def toJson : Expr → Json
  | .leaf v => ofLeaf v
  | .sign negative x => node (.sign negative) x.toJson
  | .arith op l r => node (.connective (.arith op)) (.array [l.toJson, r.toJson])
  | .not x => node .not x.toJson
  | .logic op l r => node (.connective (.logic op)) (.array [l.toJson, r.toJson])
  | .is x target => node .is (.array [x.toJson, targetJson target])
  | .compare op l r => node (.connective (.compare op)) (.array [l.toJson, r.toJson])

end Expr
end QueryExpr
