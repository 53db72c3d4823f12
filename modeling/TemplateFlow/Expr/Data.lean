import TemplateFlow.Expr
import TemplateFlow.Json.Decode

/-!
# Expressions as JSON data

Every node is an object whose member `t` names its form. The span of a node is a member `span`,
left out when it is empty, and the properties of an object are triples of key, span and value.
`Expr.toJson` writes a tree and `Expr.ofJson` reads one back; a number that is not finite has no
data form and is written as `null`, which is not read back.
-/

namespace TemplateFlow

/-! ## Spans -/

namespace Span

/-- The names of the fields of a span. -/
def fieldNames : List String :=
  ["start", "end", "start_line", "start_col", "end_line", "end_col"]

/-- A span as an object of six counts. -/
def toJson (s : Span) : Json :=
  .ofMembers
    [("start", .nat s.first.offset), ("end", .nat s.last.offset),
     ("start_line", .nat s.first.line), ("start_col", .nat s.first.column),
     ("end_line", .nat s.last.line), ("end_col", .nat s.last.column)]

/-- Reads a span. -/
def ofJson (data : Json) : Decoded Span := do
  let fields ← Fields.of fieldNames "struct Span" data
  let count (name : String) := fields.read? name fun value _ => value.toNat64
  fields.check (fieldNames.map fun name => (name, Fields.failure? (count name)))
  let offset ← fields.require "start" (count "start")
  let lastOffset ← fields.require "end" (count "end")
  let line ← fields.require "start_line" (count "start_line")
  let column ← fields.require "start_col" (count "start_col")
  let lastLine ← fields.require "end_line" (count "end_line")
  let lastColumn ← fields.require "end_col" (count "end_col")
  fields.finish ⟨⟨offset, line, column⟩, ⟨lastOffset, lastLine, lastColumn⟩⟩

end Span

/-! ## Operators -/

namespace LogicalOp

/-- Every operator with its name. -/
def named : List (String × LogicalOp) :=
  [("And", .and), ("Or", .or), ("Nullish", .nullish)]

/-- The name of an operator in data. -/
def name : LogicalOp → String
  | .and => "And"
  | .or => "Or"
  | .nullish => "Nullish"

end LogicalOp

namespace BinaryOp

/-- Every operator with its name. -/
def named : List (String × BinaryOp) :=
  [("Add", .add), ("Sub", .sub), ("Mul", .mul), ("Div", .div), ("Mod", .mod), ("Eq", .eq),
   ("Ne", .ne), ("StrictEq", .strictEq), ("StrictNe", .strictNe), ("Lt", .lt), ("Lte", .lte),
   ("Gt", .gt), ("Gte", .gte)]

/-- The name of an operator in data. -/
def name : BinaryOp → String
  | .add => "Add"
  | .sub => "Sub"
  | .mul => "Mul"
  | .div => "Div"
  | .mod => "Mod"
  | .eq => "Eq"
  | .ne => "Ne"
  | .strictEq => "StrictEq"
  | .strictNe => "StrictNe"
  | .lt => "Lt"
  | .lte => "Lte"
  | .gt => "Gt"
  | .gte => "Gte"

end BinaryOp

namespace UnaryOp

/-- Every operator with its name. -/
def named : List (String × UnaryOp) :=
  [("Not", .not), ("Neg", .neg), ("Pos", .pos)]

/-- The name of an operator in data. -/
def name : UnaryOp → String
  | .not => "Not"
  | .neg => "Neg"
  | .pos => "Pos"

end UnaryOp

/-- The one of several named values that a text names. -/
def namedValue {α : Type} (named : List (String × α)) (name : String) : Decoded α :=
  match named.lookup name with
  | some value => .ok value
  | none => .error (.unknownVariant name (named.map (·.1)))

/-- Reads one of several named values: its name, or an object whose one member has that name and
holds nothing. -/
def namedValueOfJson {α : Type} (named : List (String × α)) : Json → Decoded α
  | .str name => namedValue named name
  | .obj [(name, content)] => do
    let value ← namedValue named name
    match content with
    | .null | .obj [] => .ok value
    | found => .error (.invalidType found "unit")
  | .obj members => .error (.invalidValue (.obj members) "map with a single key")
  | found => .error (.invalidType found "string or map")

/-! ## Writing -/

namespace Expr

/-- A member with a span, unless the span is empty. -/
def spanMember (name : String) (s : Span) : List (String × Json) :=
  if s = .none then [] else [(name, s.toJson)]

/-- A node of the given form. -/
def node (form : String) (members : List (String × Json)) (span : Span) : Json :=
  .ofMembers (("t", .str form) :: members ++ spanMember "span" span)

mutual

/-- The data form of a tree. -/
def toJson : Expr → Json
  | .literal (.bool v) s => node "LitBool" [("v", .bool v)] s
  | .literal (.num v) s => node "LitNum" [("v", .float v)] s
  | .literal (.str v) s => node "LitStr" [("v", .str v)] s
  | .literal .null s => node "LitNull" [] s
  | .literal .undefined s => node "LitUndefined" [] s
  | .list es s => node "LitList" [("elements", .arr (toJsonAll es))] s
  | .object ps s => node "LitObj" [("properties", .arr (toJsonProperties ps))] s
  | .ident n s => node "Ident" [("name", .str n)] s
  | .member o p ps q s =>
    node "Member"
      (("object", toJson o) :: ("property", .str p) :: ("optional", .bool q) ::
        spanMember "property_span" ps) s
  | .index o i q s =>
    node "Index" [("object", toJson o), ("index", toJson i), ("optional", .bool q)] s
  | .call f as q s =>
    node "Call" [("callee", toJson f), ("args", .arr (toJsonAll as)), ("optional", .bool q)] s
  | .unary op e s => node "Unary" [("op", .str op.name), ("operand", toJson e)] s
  | .binary op l r s =>
    node "Binary" [("op", .str op.name), ("left", toJson l), ("right", toJson r)] s
  | .logical op l r s =>
    node "Logical" [("op", .str op.name), ("left", toJson l), ("right", toJson r)] s
  | .ternary c t e s =>
    node "Ternary"
      [("condition", toJson c), ("consequent", toJson t), ("alternate", toJson e)] s

/-- The data forms of a list of trees. -/
def toJsonAll : List Expr → List Json
  | [] => []
  | e :: es => toJson e :: toJsonAll es

/-- The data forms of the properties of an object. -/
def toJsonProperties : List (String × Span × Expr) → List Json
  | [] => []
  | (k, s, e) :: ps => .arr [.str k, s.toJson, toJson e] :: toJsonProperties ps

end

/-! ## Reading -/

/-- The forms of nodes, each with the names of its fields. -/
def forms : List (String × List String) :=
  [("LitBool", ["v", "span"]),
   ("LitNum", ["v", "span"]),
   ("LitStr", ["v", "span"]),
   ("LitNull", ["span"]),
   ("LitUndefined", ["span"]),
   ("LitList", ["elements", "span"]),
   ("LitObj", ["properties", "span"]),
   ("Ident", ["name", "span"]),
   ("Member", ["object", "property", "property_span", "optional", "span"]),
   ("Index", ["object", "index", "optional", "span"]),
   ("Call", ["callee", "args", "optional", "span"]),
   ("Unary", ["op", "operand", "span"]),
   ("Binary", ["op", "left", "right", "span"]),
   ("Logical", ["op", "left", "right", "span"]),
   ("Ternary", ["condition", "consequent", "alternate", "span"])]

/-- The form that a tag names, and the names of its fields. Where forms are numbered, the tag may
also be the number of the form. -/
def formOf (numbered : Bool) : Json → Decoded (String × List String)
  | .str form => (namedValue forms form).map fun names => (form, names)
  | .num (.int n) =>
    if numbered ∧ 0 ≤ n then
      match forms[n.toNat]? with
      | some form => .ok form
      | none => .error (.invalidValue (.int n) "variant index 0 <= i < 15")
    else .error (.invalidType (.int n) "variant identifier")
  | found => .error (.invalidType found "variant identifier")

/-- The form of a node and its fields: an object with a member `t`, or an array that starts with
the form. -/
def formAndFields (numbered : Bool) : (data : Json) → Decoded (String × Fields data.size)
  | .obj members =>
    match Dictionary.get? members "t" with
    | none => .error (.missingField "t")
    | some tag => do
      let (form, names) ← formOf numbered tag
      .ok (form, Fields.ofMembers names members)
  | .arr [] => .error (.missingField "t")
  | .arr (tag :: items) => do
    let (form, names) ← formOf numbered tag
    let fields := Fields.ofItems names ("struct variant Expr::" ++ form) items
    .ok (form, fields.weaken (by simp only [Json.size, Json.sizeItems]; omega))
  | found => .error (.invalidType found "internally tagged enum Expr")

/-- Reads a triple of key, span and value. -/
def propertyOfJson (data : Json)
    (decode : (value : Json) → value.size < data.size → Decoded Expr) :
    Decoded (String × Span × Expr) :=
  match data, decode with
  | .arr [], _ => .error (.invalidLength 0 "a tuple of size 3")
  | .arr [key], _ => do
    let _ ← key.toText
    .error (.invalidLength 1 "a tuple of size 3")
  | .arr [key, span], _ => do
    let _ ← key.toText
    let _ ← Span.ofJson span
    .error (.invalidLength 2 "a tuple of size 3")
  | .arr (key :: span :: value :: rest), decode => do
    let k ← key.toText
    let s ← Span.ofJson span
    let e ← decode value (Json.size_lt_of_mem (by simp))
    if rest.isEmpty then .ok (k, s, e)
    else .error (.invalidLength (3 + rest.length) "3 elements in sequence")
  | found, _ => .error (.invalidType found "a tuple of size 3")

/-- Reads a tree. The forms of the trees inside it are numbered. -/
def read (numbered : Bool) (data : Json) : Decoded Expr := do
  let (form, fields) ← formAndFields numbered data
  let span? := fields.read? "span" fun value _ => Span.ofJson value
  let tree (name : String) := fields.read? name fun value _ => read true value
  let trees (name : String) := fields.read? name fun value _ =>
    value.toListWith fun item _ => read true item
  let flag? := fields.read? "optional" fun value _ => value.toBool
  let span (_ : Unit) := Fields.orElse Span.none span?
  match form with
  | "LitBool" =>
    let v? := fields.read? "v" fun value _ => value.toBool
    fields.check [("v", Fields.failure? v?), ("span", Fields.failure? span?)]
    fields.finish (.literal (.bool (← fields.require "v" v?)) (← span ()))
  | "LitNum" =>
    let v? := fields.read? "v" fun value _ => value.toNumber
    fields.check [("v", Fields.failure? v?), ("span", Fields.failure? span?)]
    fields.finish (.literal (.num (← fields.require "v" v?)) (← span ()))
  | "LitStr" =>
    let v? := fields.read? "v" fun value _ => value.toText
    fields.check [("v", Fields.failure? v?), ("span", Fields.failure? span?)]
    fields.finish (.literal (.str (← fields.require "v" v?)) (← span ()))
  | "LitNull" => fields.finish (.literal .null (← span ()))
  | "LitUndefined" => fields.finish (.literal .undefined (← span ()))
  | "LitList" =>
    let elements? := trees "elements"
    fields.check [("elements", Fields.failure? elements?), ("span", Fields.failure? span?)]
    fields.finish (.list (← fields.require "elements" elements?) (← span ()))
  | "LitObj" =>
    let properties? := fields.read? "properties" fun value _ =>
      value.toListWith fun item _ => propertyOfJson item fun part _ => read true part
    fields.check [("properties", Fields.failure? properties?), ("span", Fields.failure? span?)]
    fields.finish (.object (← fields.require "properties" properties?) (← span ()))
  | "Ident" =>
    let name? := fields.read? "name" fun value _ => value.toText
    fields.check [("name", Fields.failure? name?), ("span", Fields.failure? span?)]
    fields.finish (.ident (← fields.require "name" name?) (← span ()))
  | "Member" =>
    let object? := tree "object"
    let property? := fields.read? "property" fun value _ => value.toText
    let propertySpan? := fields.read? "property_span" fun value _ => Span.ofJson value
    fields.check
      [("object", Fields.failure? object?), ("property", Fields.failure? property?),
       ("property_span", Fields.failure? propertySpan?), ("optional", Fields.failure? flag?),
       ("span", Fields.failure? span?)]
    fields.finish
      (.member (← fields.require "object" object?) (← fields.require "property" property?)
        (← Fields.orElse Span.none propertySpan?) (← fields.require "optional" flag?) (← span ()))
  | "Index" =>
    let object? := tree "object"
    let index? := tree "index"
    fields.check
      [("object", Fields.failure? object?), ("index", Fields.failure? index?),
       ("optional", Fields.failure? flag?), ("span", Fields.failure? span?)]
    fields.finish
      (.index (← fields.require "object" object?) (← fields.require "index" index?)
        (← fields.require "optional" flag?) (← span ()))
  | "Call" =>
    let callee? := tree "callee"
    let args? := trees "args"
    fields.check
      [("callee", Fields.failure? callee?), ("args", Fields.failure? args?),
       ("optional", Fields.failure? flag?), ("span", Fields.failure? span?)]
    fields.finish
      (.call (← fields.require "callee" callee?) (← fields.require "args" args?)
        (← fields.require "optional" flag?) (← span ()))
  | "Unary" =>
    let op? := fields.read? "op" fun value _ => namedValueOfJson UnaryOp.named value
    let operand? := tree "operand"
    fields.check
      [("op", Fields.failure? op?), ("operand", Fields.failure? operand?),
       ("span", Fields.failure? span?)]
    fields.finish
      (.unary (← fields.require "op" op?) (← fields.require "operand" operand?) (← span ()))
  | "Binary" =>
    let op? := fields.read? "op" fun value _ => namedValueOfJson BinaryOp.named value
    let left? := tree "left"
    let right? := tree "right"
    fields.check
      [("op", Fields.failure? op?), ("left", Fields.failure? left?),
       ("right", Fields.failure? right?), ("span", Fields.failure? span?)]
    fields.finish
      (.binary (← fields.require "op" op?) (← fields.require "left" left?)
        (← fields.require "right" right?) (← span ()))
  | "Logical" =>
    let op? := fields.read? "op" fun value _ => namedValueOfJson LogicalOp.named value
    let left? := tree "left"
    let right? := tree "right"
    fields.check
      [("op", Fields.failure? op?), ("left", Fields.failure? left?),
       ("right", Fields.failure? right?), ("span", Fields.failure? span?)]
    fields.finish
      (.logical (← fields.require "op" op?) (← fields.require "left" left?)
        (← fields.require "right" right?) (← span ()))
  | _ =>
    let condition? := tree "condition"
    let consequent? := tree "consequent"
    let alternate? := tree "alternate"
    fields.check
      [("condition", Fields.failure? condition?), ("consequent", Fields.failure? consequent?),
       ("alternate", Fields.failure? alternate?), ("span", Fields.failure? span?)]
    fields.finish
      (.ternary (← fields.require "condition" condition?)
        (← fields.require "consequent" consequent?) (← fields.require "alternate" alternate?)
        (← span ()))
termination_by data.size

/-- Reads a tree that is no part of another. -/
def ofJson (data : Json) : Decoded Expr := read false data

end Expr

end TemplateFlow
