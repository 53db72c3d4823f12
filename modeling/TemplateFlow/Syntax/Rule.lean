import TemplateFlow.Expr

/-!
# Grammar rules

A rule of the grammar is tried at a place in the text and either finds a value and the place after
it or finds nothing (`Rule`). A rule never looks back and never decides between two readings: of
alternatives the first that is found is taken, and a repetition takes as much as it can.

Besides its finding, every attempt reports how far it reached: the furthest place at which a named
rule was tried and not found. That place is where a syntax error is reported. Names are given with
`Rule.named`; symbols have none.

Between any two symbols blanks are passed over, so every rule is tried at a character that is no
blank and leaves the text at one.
-/

namespace TemplateFlow

namespace Syntax

/-! ## Places -/

/-- A place in a text: what is left to read, and the position of its first character. -/
structure Cursor where
  rest : List Char
  pos : Position
  deriving Inhabited

namespace Cursor

/-- The place before the first character of a text. -/
def start (text : List Char) : Cursor := ⟨text, {}⟩

/-- The place `n` characters on. -/
def skip (c : Cursor) (n : Nat) : Cursor :=
  ⟨c.rest.drop n, c.pos.advanceBy (c.rest.take n)⟩

end Cursor

/-- The characters that may stand between any two symbols. -/
def isBlank (c : Char) : Bool :=
  c = ' ' ∨ c = '\t' ∨ c = '\r' ∨ c = '\n'

/-- The place of the next character that is no blank. -/
def Cursor.skipBlanks (c : Cursor) : Cursor :=
  c.skip (c.rest.takeWhile isBlank).length

/-! ## Rules -/

/-- The outcome of trying a rule: what was found and the place after it, and the furthest place at
which a named rule was not found. -/
structure Reply (α : Type) where
  found : Option (α × Cursor)
  reach : Position

/-- A rule of the grammar, which finds values of type `α`. -/
def Rule (α : Type) := Cursor → Reply α

namespace Rule

variable {α β : Type}

/-- The rule that finds a value without reading. -/
protected def pure (a : α) : Rule α := fun c => ⟨some (a, c), {}⟩

/-- One rule after another. -/
protected def bind (r : Rule α) (f : α → Rule β) : Rule β := fun c =>
  let first := r c
  match first.found with
  | none => ⟨none, first.reach⟩
  | some (a, next) =>
    let second := f a next
    ⟨second.found, first.reach.latest second.reach⟩

instance : Monad Rule where
  pure := Rule.pure
  bind := Rule.bind

/-- The rule that is never found. -/
def never : Rule α := fun _ => ⟨none, {}⟩

/-- The first rule, or where it is not found the second. -/
def orElse (r s : Rule α) : Rule α := fun c =>
  let first := r c
  match first.found with
  | some _ => first
  | none =>
    let second := s c
    ⟨second.found, first.reach.latest second.reach⟩

/-- The first of several rules that is found. -/
def firstOf : List (Rule α) → Rule α
  | [] => never
  | r :: rest => orElse r (firstOf rest)

/-- The rule under a name: where it is not found, that place counts as reached. -/
def named (r : Rule α) : Rule α := fun c =>
  let reply := r c
  match reply.found with
  | some _ => reply
  | none => ⟨none, reply.reach.latest c.pos⟩

/-- The rule if it is found. -/
def optional (r : Rule α) : Rule (Option α) :=
  orElse (some <$> r) (pure none)

/-- The rule as often as it is found, at most `n` times. -/
def manyUpTo (r : Rule α) : Nat → Rule (List α)
  | 0 => pure []
  | n + 1 => orElse (do let a ← r; let rest ← manyUpTo r n; return a :: rest) (pure [])

/-- The rule as often as it is found. What it finds is never empty text, so it is found at most as
often as there are characters left, and tried once more. -/
def many (r : Rule α) : Rule (List α) := fun c =>
  manyUpTo r (c.rest.length + 1) c

/-- The rule where the text ahead is as required; nothing is read to decide. -/
def guard (ahead : List Char → Bool) : Rule Unit := fun c =>
  if ahead c.rest then ⟨some ((), c), {}⟩ else ⟨none, {}⟩

/-- The position of the place at hand. -/
def position : Rule Position := fun c => ⟨some (c.pos, c), {}⟩

/-! ## Symbols -/

/-- Reads a text that a scanner cuts off the front, and the blanks after it. The finding is the
text and its span. -/
def lexeme (scan : List Char → Option (List Char)) : Rule (List Char × Span) := fun c =>
  match scan c.rest with
  | none => ⟨none, {}⟩
  | some text =>
    let after := c.skip text.length
    ⟨some ((text, ⟨c.pos, after.pos⟩), after.skipBlanks), {}⟩

/-- The scanner of a fixed text. -/
def scanText (expected : List Char) (text : List Char) : Option (List Char) :=
  if expected.isPrefixOf text then some expected else none

/-- A fixed symbol, and the blanks after it. The finding is the position after the symbol. -/
def symbol (expected : String) : Rule Position :=
  (fun found => found.2.last) <$> lexeme (scanText expected.toList)

/-- One or more findings of a rule with commas between, and possibly one more comma. -/
def commaList (r : Rule α) : Rule (List α) := do
  let first ← r
  let rest ← many (do let _ ← symbol ","; r)
  let _ ← optional (symbol ",")
  return first :: rest

end Rule

end Syntax

end TemplateFlow
