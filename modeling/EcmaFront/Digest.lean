import EcmaFront.Text.Source
import EcmaFront.Tree.Parts

/-!
What is kept of a function when a text is only checked: enough to find the function again and to
parse it on its own later.
-/

set_option autoImplicit false

namespace EcmaFront

structure FunctionDigest where
  name : Option String
  /-- From the keyword, the key or the parameters to the end of the body. -/
  span : Span
  parametersStart : Nat
  bodySpan : Span
  parameters : List String
  captured : List String
  usesEval : Bool
  strict : Bool
  mode : Mode
  form : FunctionForm
  constructorKind : ConstructorKind
  deriving DecidableEq, Repr

namespace FunctionDigest

def ofParts {E S P : Type} (parts : FunctionParts E S P) : FunctionDigest where
  name := parts.name
  span := parts.span
  parametersStart := parts.parametersStart
  bodySpan := parts.bodySpan
  parameters := parts.scope.parameters
  captured := parts.scope.captured
  usesEval := parts.scope.usesEval
  strict := parts.scope.strict
  mode := parts.mode
  form := parts.form
  constructorKind := parts.constructorKind

def startLine (d : FunctionDigest) : Nat := d.span.start.line

/-- The line of the offset `stop` when `i` is on `line`. -/
def lineAt (b : Buffer) (stop : Nat) : Nat → Nat → Nat → Nat
  | 0, _, line => line
  | n + 1, i, line =>
    if i < stop then
      let code := b.code i
      let ends := code == 0x0A || code == 0x2028 || code == 0x2029 ||
        (code == 0x0D && b.code (i + 1) != 0x0A)
      lineAt b stop n (i + b.width code) (if ends then nextLine line else line)
    else line

/-- The view of the function from its parameters to the end of its body, its lines numbered as in
the whole. -/
def source (d : FunctionDigest) (whole : Source) : Source :=
  let start := d.span.start.offset
  whole.narrow d.parametersStart d.bodySpan.stop.offset
    (lineAt whole.buffer d.parametersStart (d.parametersStart - start) start d.startLine)

def options (d : FunctionDigest) : FunctionOptions :=
  ⟨d.mode, d.form, d.constructorKind, d.strict, d.name⟩

/-- Add a digest to a list in the order of offsets; one that starts at the same offset is
replaced. -/
def record (d : FunctionDigest) : List FunctionDigest → List FunctionDigest
  | [] => [d]
  | x :: xs =>
    if d.span.start.offset < x.span.start.offset then d :: x :: xs
    else if d.span.start.offset = x.span.start.offset then d :: xs
    else x :: record d xs

end FunctionDigest

end EcmaFront
