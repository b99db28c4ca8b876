import EcmaFront.Scope.Frame

/-!
The frames around the current place, the innermost first. Declarations find their frame here: `var`
the nearest function or program, `let` and `const` the innermost frame.
-/

set_option autoImplicit false

namespace EcmaFront

structure Scopes where
  frames : List Frame
  deriving DecidableEq, Repr, Inhabited

namespace Scopes

def empty : Scopes := ⟨[]⟩

def depth (s : Scopes) : Nat := s.frames.length

def push (s : Scopes) (f : Frame) : Scopes := ⟨f :: s.frames⟩

def top? (s : Scopes) : Option Frame := s.frames.head?

def strict (s : Scopes) : Bool := s.top?.any (·.strict)

def pushBlock (s : Scopes) : Scopes := s.push (Frame.block s.strict)

/-- Leave the innermost frame; what escapes from it goes to the next one. -/
def pop (s : Scopes) (trackClosed : Bool) : Scopes :=
  match s.frames with
  | inner :: outer :: rest => ⟨outer.collect inner trackClosed :: rest⟩
  | _ => empty

def truncate (s : Scopes) (depth : Nat) : Scopes := ⟨s.frames.drop (s.frames.length - depth)⟩

def modifyTop (s : Scopes) (change : Frame → Frame) : Scopes :=
  match s.frames with
  | top :: rest => ⟨change top :: rest⟩
  | [] => s

def modifyFirstIn (p : Frame → Bool) (change : Frame → Frame) : List Frame → List Frame
  | [] => []
  | f :: rest => if p f then change f :: rest else f :: modifyFirstIn p change rest

def modifyFirst (s : Scopes) (p : Frame → Bool) (change : Frame → Frame) : Scopes :=
  ⟨modifyFirstIn p change s.frames⟩

def function? (s : Scopes) : Option Frame := s.frames.find? (·.isBoundary)

def modifyFunction (s : Scopes) (change : Frame → Frame) : Scopes :=
  s.modifyFirst (·.isBoundary) change

def isReceiver (f : Frame) : Bool := f.isBoundary && !f.isArrow

def receiver? (s : Scopes) : Option Frame := s.frames.find? isReceiver

def modifyReceiver (s : Scopes) (change : Frame → Frame) : Scopes := s.modifyFirst isReceiver change

/-- The frames up to the nearest function or program, that one included. -/
def enclosing (s : Scopes) : List Frame :=
  let (blocks, rest) := s.frames.span (·.isBlock)
  blocks ++ rest.take 1

/-- Declare by `var`. The name passes through the blocks on the way to its function, and a lexical
variable of that name in any of these frames excludes it. -/
def declareVar (s : Scopes) (name : String) : Scopes × Conflicts :=
  match s.frames.span (·.isBlock) with
  | (_, []) => (s, ⟨isRestricted name, false⟩)
  | (blocks, target :: outer) =>
    let pass (f : Frame) := { f with hoisted := f.hoisted.insert name }
    (⟨blocks.map pass ++ target.declareVar name :: outer⟩,
      ⟨isRestricted name, s.enclosing.any (·.lexical.contains name)⟩)

def declareLexical (s : Scopes) (name : String) (constant : Bool) : Scopes × Conflicts :=
  match s.frames with
  | [] => (s, ⟨isRestricted name || name == "let", false⟩)
  | top :: rest =>
    let (top, conflicts) := top.declareLexical name constant
    (⟨top :: rest⟩, conflicts)

def declare (s : Scopes) (name : String) : VariableKind → Scopes × Conflicts
  | .var => s.declareVar name
  | .let => s.declareLexical name false
  | .const => s.declareLexical name true

def declareParameter (s : Scopes) (name : String) : Scopes × Conflicts :=
  match s.function? with
  | none => (s, .none)
  | some f => (s.modifyFunction (·.declareParameter name |>.1), (f.declareParameter name).2)

/-- Declare a parameter of the `catch` clause whose frame is innermost. -/
def declareCatch (s : Scopes) (name : String) : Scopes × Conflicts :=
  match s.frames with
  | [] => (s, .none)
  | top :: rest =>
    let (top, conflicts) := top.declareCatch name
    (⟨top :: rest⟩, conflicts)

def use (s : Scopes) (name : String) : Scopes := s.modifyTop (·.use name)

def write (s : Scopes) (name : String) : Scopes := s.modifyTop (·.write name)

/-- Force a full activation on every frame up to the nearest function or program. -/
def activate (s : Scopes) : Scopes :=
  let activate (f : Frame) := { f with fullActivation := true }
  match s.frames.span (·.isBlock) with
  | (blocks, target :: outer) => ⟨blocks.map activate ++ activate target :: outer⟩
  | (blocks, []) => ⟨blocks.map activate⟩

def pushLabel (s : Scopes) (name : String) (isLoop : Bool) : Scopes :=
  s.modifyTop fun f => { f with labels := ⟨name, isLoop⟩ :: f.labels }

def popLabel (s : Scopes) : Scopes := s.modifyTop fun f => { f with labels := f.labels.tail }

/-- The innermost label of a name in the current function, if there is one. -/
def label? (s : Scopes) (name : String) : Option Label :=
  (s.enclosing.flatMap (·.labels)).find? (·.name == name)

def canBreak (s : Scopes) : Bool := s.enclosing.any fun f => 0 < f.loops || 0 < f.switches

def canContinue (s : Scopes) : Bool := s.enclosing.any (0 < ·.loops)

def beginLoop (s : Scopes) : Scopes := s.modifyTop fun f => { f with loops := f.loops + 1 }

def endLoop (s : Scopes) : Scopes := s.modifyTop fun f => { f with loops := f.loops - 1 }

def beginSwitch (s : Scopes) : Scopes := s.modifyTop fun f => { f with switches := f.switches + 1 }

def endSwitch (s : Scopes) : Scopes := s.modifyTop fun f => { f with switches := f.switches - 1 }

@[simp] theorem depth_push (s : Scopes) (f : Frame) : (s.push f).depth = s.depth + 1 := rfl

@[simp] theorem depth_pop (s : Scopes) (trackClosed : Bool) :
    (s.pop trackClosed).depth = s.depth - 1 := by
  obtain ⟨_ | ⟨_, _ | ⟨_, _⟩⟩⟩ := s <;> rfl

@[simp] theorem depth_truncate (s : Scopes) (depth : Nat) :
    (s.truncate depth).depth = min depth s.depth := by
  simp only [truncate, Scopes.depth, List.length_drop]; omega

@[simp] theorem depth_modifyTop (s : Scopes) (change : Frame → Frame) :
    (s.modifyTop change).depth = s.depth := by
  obtain ⟨_ | ⟨_, _⟩⟩ := s <;> rfl

theorem truncate_push (s : Scopes) (f : Frame) : (s.push f).truncate s.depth = s := by
  simp [push, truncate, depth]

end Scopes

end EcmaFront
