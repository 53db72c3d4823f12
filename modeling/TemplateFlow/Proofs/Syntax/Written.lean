import TemplateFlow.Proofs.Syntax.Reading
import TemplateFlow.Syntax.Grammar

/-!
# How expressions are written

The grammar of expressions as a relation between trees and texts (`SourceOf`), without any order of
choice, any looking ahead and any longest match: a text is a source of a tree if it can be put
together in one of the ways that `Written` lists.

Words are the shapes of single tokens. Every word may have blanks after it, and a whole text may
have blanks before it. A tree is written at a level of precedence (`Precedence`); an operand may be
written at the level that its place allows or at a tighter one, and at any level between
parentheses. Binary levels group from the left: their left operand is of the same level, their right
operand of the next tighter one.

Trees are written without spans, as `Expr.bare` shows them. The number that a word stands for is
`numberOf`, the text that the contents of a string stand for is `unescape`.
-/

namespace TemplateFlow

namespace Syntax

/-! ## Words -/

/-- A letter, underscore or dollar sign, and any number of these and of digits. -/
def IsName (w : List Char) : Prop :=
  ∃ c t, w = c :: t ∧ isNameStart c = true ∧ ∀ d ∈ t, isNamePart d = true

/-- A name that is no keyword. -/
def IsIdentifier (w : List Char) : Prop := IsName w ∧ String.ofList w ∉ keywords

/-- At least one digit. -/
def IsDigits (w : List Char) : Prop := w ≠ [] ∧ ∀ d ∈ w, d.isDigit = true

/-- The significand of a number: digits, a point with digits after it, or both. -/
inductive IsSignificand : List Char → Prop where
  | whole {w : List Char} : IsDigits w → IsSignificand w
  | fraction {f : List Char} : IsDigits f → IsSignificand ('.' :: f)
  | both {w f : List Char} : IsDigits w → IsDigits f → IsSignificand (w ++ '.' :: f)

/-- The exponent of a number, which may be left out: a letter, possibly a sign, and digits. -/
inductive IsExponent : List Char → Prop where
  | none : IsExponent []
  | some {mark : Char} {sign digits : List Char} : mark ∈ ['e', 'E'] →
      sign ∈ [[], ['+'], ['-']] → IsDigits digits → IsExponent (mark :: (sign ++ digits))

/-- A number: a significand and its exponent. -/
def IsNumber (w : List Char) : Prop :=
  ∃ significand exponent, w = significand ++ exponent ∧ IsSignificand significand ∧
    IsExponent exponent

/-- The contents of a string between two quotation marks: a backslash with the character after it,
and any other character but the mark. -/
inductive IsContent (quote : Char) : List Char → Prop where
  | nil : IsContent quote []
  | escape {c : Char} {w : List Char} : IsContent quote w → IsContent quote ('\\' :: c :: w)
  | plain {c : Char} {w : List Char} : c ≠ quote → c ≠ '\\' → IsContent quote w →
      IsContent quote (c :: w)

/-- A string with the given contents. -/
def IsString (content w : List Char) : Prop :=
  ∃ quote ∈ ['\'', '"'], IsContent quote content ∧ w = quote :: (content ++ [quote])

/-- The words of a literal. -/
inductive Spells : Literal → List Char → Prop where
  | undefined : Spells .undefined "undefined".toList
  | null : Spells .null "null".toList
  | true : Spells (.bool true) "true".toList
  | false : Spells (.bool false) "false".toList
  | num {w : List Char} : IsNumber w → Spells (.num (numberOf w)) w
  | str {content w : List Char} : IsString content w →
      Spells (.str (String.ofList (unescape content))) w

/-- The words of a property key: a name, keyword or not, a number that is shown as the key, or a
string that stands for it. -/
inductive SpellsKey : String → List Char → Prop where
  | name {w : List Char} : IsName w → SpellsKey (String.ofList w) w
  | num {w : List Char} : IsNumber w → SpellsKey (numberOf w).toText w
  | str {content w : List Char} : IsString content w →
      SpellsKey (String.ofList (unescape content)) w

/-! ## Precedence -/

/-- The levels of precedence, the loosest first. -/
inductive Precedence where
  | ternary
  | nullish
  | or
  | and
  | equality
  | comparison
  | additive
  | multiplicative
  | unary
  | chain
  | primary
  deriving DecidableEq, Inhabited

/-- The next tighter level; there is none beyond the tightest. -/
def Precedence.next : Precedence → Precedence
  | .ternary => .nullish
  | .nullish => .or
  | .or => .and
  | .and => .equality
  | .equality => .comparison
  | .comparison => .additive
  | .additive => .multiplicative
  | .multiplicative => .unary
  | .unary => .chain
  | .chain => .primary
  | .primary => .primary

/-- The symbol of an operator between two operands. -/
def Operator.spelling : Operator → String
  | .logical .nullish => "??"
  | .logical .or => "||"
  | .logical .and => "&&"
  | .binary .strictEq => "==="
  | .binary .strictNe => "!=="
  | .binary .eq => "=="
  | .binary .ne => "!="
  | .binary .lte => "<="
  | .binary .gte => ">="
  | .binary .lt => "<"
  | .binary .gt => ">"
  | .binary .add => "+"
  | .binary .sub => "-"
  | .binary .mul => "*"
  | .binary .div => "/"
  | .binary .mod => "%"

/-- The level of an operator between two operands. -/
def Operator.precedence : Operator → Precedence
  | .logical .nullish => .nullish
  | .logical .or => .or
  | .logical .and => .and
  | .binary .strictEq | .binary .strictNe | .binary .eq | .binary .ne => .equality
  | .binary .lte | .binary .gte | .binary .lt | .binary .gt => .comparison
  | .binary .add | .binary .sub => .additive
  | .binary .mul | .binary .div | .binary .mod => .multiplicative

/-- The bare tree of an operation. -/
def Operator.node (op : Operator) (left right : Expr) : Expr :=
  match op with
  | .binary op => .binary op left right .none
  | .logical op => .logical op left right .none

/-- The symbol of an operator before its operand. -/
def prefixSpelling : UnaryOp → String
  | .not => "!"
  | .neg => "-"
  | .pos => "+"

/-! ## Trees -/

/-- What can be written: an expression at a level of precedence, one or more expressions or
properties with commas between them, the same or nothing with possibly a comma at the end, or a
property. -/
inductive Form where
  | phrase (level : Precedence) (e : Expr)
  | items (es : List Expr)
  | elements (es : List Expr)
  | property (key : String) (value : Expr)
  | properties (ps : List (String × Span × Expr))
  | members (ps : List (String × Span × Expr))

/-- A comma that may be left out. -/
def TrailingComma (s : List Char) : Prop := s = [] ∨ Token [','] s

/-- The symbol before the name of a property, plain or optional. -/
def Dot (optional : Bool) (s : List Char) : Prop :=
  Token (if optional then "?.".toList else ".".toList) s

/-- What makes a call or an index optional, before its opening bracket. -/
def Mark (optional : Bool) (s : List Char) : Prop :=
  if optional then Token "?.".toList s else s = []

/-- The ways of writing a form as a text that begins with a word. -/
inductive Written : Form → List Char → Prop where
  | literal {v : Literal} {w s : List Char} : Spells v w → Token w s →
      Written (.phrase .primary (.literal v .none)) s
  | ident {w s : List Char} : IsIdentifier w → Token w s →
      Written (.phrase .primary (.ident (String.ofList w) .none)) s
  | list {es : List Expr} {s₁ s₂ s₃ : List Char} : Token ['['] s₁ → Written (.elements es) s₂ →
      Token [']'] s₃ → Written (.phrase .primary (.list es .none)) (s₁ ++ (s₂ ++ s₃))
  | object {ps : List (String × Span × Expr)} {s₁ s₂ s₃ : List Char} : Token ['\x7b'] s₁ →
      Written (.members ps) s₂ → Token ['\x7d'] s₃ →
      Written (.phrase .primary (.object ps .none)) (s₁ ++ (s₂ ++ s₃))
  | parenthesized {e : Expr} {s₁ s₂ s₃ : List Char} : Token ['('] s₁ →
      Written (.phrase .ternary e) s₂ → Token [')'] s₃ →
      Written (.phrase .primary e) (s₁ ++ (s₂ ++ s₃))
  | member {o : Expr} {optional : Bool} {w s₁ s₂ s₃ : List Char} :
      Written (.phrase .chain o) s₁ → Dot optional s₂ → IsName w → Token w s₃ →
      Written (.phrase .chain (.member o (String.ofList w) .none optional .none))
        (s₁ ++ (s₂ ++ s₃))
  | index {o i : Expr} {optional : Bool} {s₁ s₂ s₃ s₄ s₅ : List Char} :
      Written (.phrase .chain o) s₁ → Mark optional s₂ → Token ['['] s₃ →
      Written (.phrase .ternary i) s₄ → Token [']'] s₅ →
      Written (.phrase .chain (.index o i optional .none)) (s₁ ++ (s₂ ++ (s₃ ++ (s₄ ++ s₅))))
  | call {f : Expr} {args : List Expr} {optional : Bool} {s₁ s₂ s₃ s₄ s₅ : List Char} :
      Written (.phrase .chain f) s₁ → Mark optional s₂ → Token ['('] s₃ →
      Written (.elements args) s₄ → Token [')'] s₅ →
      Written (.phrase .chain (.call f args optional .none))
        (s₁ ++ (s₂ ++ (s₃ ++ (s₄ ++ s₅))))
  | prefixed {op : UnaryOp} {e : Expr} {s₁ s₂ : List Char} :
      Token (prefixSpelling op).toList s₁ → Written (.phrase .unary e) s₂ →
      Written (.phrase .unary (.unary op e .none)) (s₁ ++ s₂)
  | operation {op : Operator} {l r : Expr} {s₁ s₂ s₃ : List Char} :
      Written (.phrase op.precedence l) s₁ → Token op.spelling.toList s₂ →
      Written (.phrase op.precedence.next r) s₃ →
      Written (.phrase op.precedence (op.node l r)) (s₁ ++ (s₂ ++ s₃))
  | ternary {c t e : Expr} {s₁ s₂ s₃ s₄ s₅ : List Char} :
      Written (.phrase .nullish c) s₁ → Token ['?'] s₂ → Written (.phrase .ternary t) s₃ →
      Token [':'] s₄ → Written (.phrase .ternary e) s₅ →
      Written (.phrase .ternary (.ternary c t e .none)) (s₁ ++ (s₂ ++ (s₃ ++ (s₄ ++ s₅))))
  | tighter {p : Precedence} {e : Expr} {s : List Char} : Written (.phrase p.next e) s →
      Written (.phrase p e) s
  | oneItem {e : Expr} {s : List Char} : Written (.phrase .ternary e) s → Written (.items [e]) s
  | moreItems {e : Expr} {es : List Expr} {s₁ s₂ s₃ : List Char} :
      Written (.phrase .ternary e) s₁ → Token [','] s₂ → Written (.items es) s₃ →
      Written (.items (e :: es)) (s₁ ++ (s₂ ++ s₃))
  | noElements : Written (.elements []) []
  | elements {es : List Expr} {s₁ s₂ : List Char} : Written (.items es) s₁ →
      TrailingComma s₂ → Written (.elements es) (s₁ ++ s₂)
  | keyed {k : String} {e : Expr} {w s₁ s₂ s₃ : List Char} : SpellsKey k w → Token w s₁ →
      Token [':'] s₂ → Written (.phrase .ternary e) s₃ →
      Written (.property k e) (s₁ ++ (s₂ ++ s₃))
  | shorthand {w s : List Char} : IsIdentifier w → Token w s →
      Written (.property (String.ofList w) (.ident (String.ofList w) .none)) s
  | oneProperty {k : String} {e : Expr} {s : List Char} : Written (.property k e) s →
      Written (.properties [(k, .none, e)]) s
  | moreProperties {k : String} {e : Expr} {ps : List (String × Span × Expr)}
      {s₁ s₂ s₃ : List Char} : Written (.property k e) s₁ → Token [','] s₂ →
      Written (.properties ps) s₃ → Written (.properties ((k, .none, e) :: ps)) (s₁ ++ (s₂ ++ s₃))
  | noMembers : Written (.members []) []
  | members {ps : List (String × Span × Expr)} {s₁ s₂ : List Char} :
      Written (.properties ps) s₁ → TrailingComma s₂ → Written (.members ps) (s₁ ++ s₂)

/-- What stands after a sign is an expression of the loosest level too. -/
theorem Written.ternary_of_unary {e : Expr} {s : List Char} (h : Written (.phrase .unary e) s) :
    Written (.phrase .ternary e) s := by
  have hmultiplicative : Written (.phrase .multiplicative e) s := .tighter h
  have hadditive : Written (.phrase .additive e) s := .tighter hmultiplicative
  have hcomparison : Written (.phrase .comparison e) s := .tighter hadditive
  have hequality : Written (.phrase .equality e) s := .tighter hcomparison
  have hand : Written (.phrase .and e) s := .tighter hequality
  have hor : Written (.phrase .or e) s := .tighter hand
  have hnullish : Written (.phrase .nullish e) s := .tighter hor
  exact .tighter hnullish

/-- A chain is an expression of the loosest level too. -/
theorem Written.ternary_of_chain {e : Expr} {s : List Char} (h : Written (.phrase .chain e) s) :
    Written (.phrase .ternary e) s :=
  ternary_of_unary (.tighter h)

/-- A text is a source of a tree if it is blanks and then a writing of the tree at the loosest
level. -/
def SourceOf (e : Expr) (text : List Char) : Prop :=
  ∃ blanks s, Blanks blanks ∧ Written (.phrase .ternary e) s ∧ text = blanks ++ s

/-- The words of a literal are a source of it. -/
theorem Spells.sourceOf {v : Literal} {w : List Char} (h : Spells v w) :
    SourceOf (.literal v .none) w := by
  have htoken : Token w w := ⟨[], blanks_nil, (List.append_nil _).symm⟩
  have hchain : Written (.phrase .chain (.literal v .none)) w := .tighter (.literal h htoken)
  exact ⟨[], w, blanks_nil, hchain.ternary_of_chain, (List.nil_append _).symm⟩

end Syntax

end TemplateFlow
