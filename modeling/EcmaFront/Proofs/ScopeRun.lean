import EcmaFront.Scope.Stack
import Mathlib.Tactic.Tauto

/-!
Runs of the frame stack in which every frame entered is left again. A run is a tree: what happens
while a frame is open lies below it. The position of a call is the path of the frames open around
it. What a frame holds at the end of a run can be told from the calls and their paths alone,
whatever their order.
-/

set_option autoImplicit false

namespace EcmaFront

/-- What happens to the stack between entering and leaving frames. -/
inductive ScopeMove where
  | declare (name : String) (kind : VariableKind)
  | parameter (name : String)
  | catchParameter (name : String)
  | use (name : String)
  | write (name : String)
  /-- Code that may look up any name follows. -/
  | activate
  deriving DecidableEq, Repr

namespace ScopeMove

/-- What a call declares for the function or program around it. -/
@[simp]
def variableName? : ScopeMove → Option String
  | .declare name .var | .parameter name => some name
  | _ => none

/-- What a call declares for the innermost frame alone. -/
@[simp]
def lexicalName? : ScopeMove → Option String
  | .declare name .let | .declare name .const => some name
  | _ => none

def apply : ScopeMove → Scopes → Scopes × Conflicts
  | .declare name kind, s => s.declare name kind
  | .parameter name, s => s.declareParameter name
  | .catchParameter name, s => s.declareCatch name
  | .use name, s => (s.use name, .none)
  | .write name, s => (s.write name, .none)
  | .activate, s => (s.activate, .none)

end ScopeMove

/-- What a new frame is for. -/
inductive Opening where
  | program (mode : Mode) (strict : Bool) (constructorKind : ConstructorKind)
  | function (mode : Mode) (constructorKind : ConstructorKind) (name : Option String)
    (strict bindsOwnName : Bool)
  | block
  deriving DecidableEq, Repr

namespace Opening

def frame (strict : Bool) : Opening → Frame
  | .program mode strict constructorKind => .program mode strict constructorKind
  | .function mode constructorKind name strict bindsOwnName =>
    { Frame.function mode constructorKind name strict with bindsOwnName }
  | .block => .block strict

def isBlock : Opening → Bool
  | .block => true
  | _ => false

def ownName? : Opening → Option String
  | .function _ _ name _ true => name
  | _ => none

@[simp] theorem isBlock_frame (strict : Bool) (o : Opening) :
    (o.frame strict).isBlock = o.isBlock := by
  cases o <;> rfl

@[simp] theorem isBoundary_frame (strict : Bool) (o : Opening) :
    (o.frame strict).isBoundary = !o.isBlock := by
  cases o <;> rfl

section Blank

variable (strict : Bool) (o : Opening)

@[simp] theorem declared_frame : (o.frame strict).declared = .empty := by cases o <;> rfl

@[simp] theorem lexical_frame : (o.frame strict).lexical = .empty := by cases o <;> rfl

@[simp] theorem hoisted_frame : (o.frame strict).hoisted = .empty := by cases o <;> rfl

@[simp] theorem used_frame : (o.frame strict).used = .empty := by cases o <;> rfl

@[simp] theorem closed_frame : (o.frame strict).closed = .empty := by cases o <;> rfl

@[simp] theorem written_frame : (o.frame strict).written = .empty := by cases o <;> rfl

@[simp] theorem parameters_frame : (o.frame strict).parameters = [] := by cases o <;> rfl

@[simp] theorem shadowsArguments_frame : (o.frame strict).shadowsArguments = false := by
  cases o <;> rfl

@[simp] theorem usesEval_frame : (o.frame strict).usesEval = false := by cases o <;> rfl

@[simp] theorem fullActivation_frame : (o.frame strict).fullActivation = false := by cases o <;> rfl

end Blank

end Opening

@[simp] theorem Environment.names_empty : Environment.empty.names = [] := rfl

@[simp] theorem Environment.contains_empty (x : String) : Environment.empty.contains x = false :=
  rfl

inductive ScopeRun where
  | done
  | move (m : ScopeMove) (rest : ScopeRun)
  | frame (opening : Opening) (body rest : ScopeRun)
  deriving DecidableEq, Repr

/-- A frame and what happens while it is open. -/
structure ScopeNode where
  opening : Opening
  body : ScopeRun
  deriving DecidableEq, Repr

/-- The frame at its end: its variables are settled. -/
def Frame.settled (f : Frame) : Frame := if f.isBlock then f.finishBlock.1 else f.finish.1

namespace Scopes

def enter (s : Scopes) (o : Opening) : Scopes := s.push (o.frame s.strict)

def leave (s : Scopes) : Scopes := (s.modifyTop Frame.settled).pop true

end Scopes

namespace ScopeRun

def perform : ScopeRun → Scopes → Scopes
  | .done, s => s
  | .move m rest, s => rest.perform (m.apply s).1
  | .frame o body rest, s => rest.perform (body.perform (s.enter o)).leave

def reports : ScopeRun → Scopes → List (ScopeMove × Conflicts)
  | .done, _ => []
  | .move m rest, s => (m, (m.apply s).2) :: rest.reports (m.apply s).1
  | .frame o body rest, s =>
    body.reports (s.enter o) ++ rest.reports (body.perform (s.enter o)).leave

/-- A call is made where the frames of a path are open, the outermost first. -/
inductive Issues : ScopeRun → List ScopeNode → ScopeMove → Prop where
  | here (m : ScopeMove) (rest : ScopeRun) : Issues (.move m rest) [] m
  | later {m : ScopeMove} {path : List ScopeNode} {rest : ScopeRun} (m' : ScopeMove)
    (h : Issues rest path m) : Issues (.move m' rest) path m
  | inside {m : ScopeMove} {path : List ScopeNode} {o : Opening} {body : ScopeRun} (rest : ScopeRun)
    (h : Issues body path m) : Issues (.frame o body rest) (⟨o, body⟩ :: path) m
  | after {m : ScopeMove} {path : List ScopeNode} {rest : ScopeRun} (o : Opening) (body : ScopeRun)
    (h : Issues rest path m) : Issues (.frame o body rest) path m

/-- All frames entered, one inside the other or one after the other. -/
def nodes : ScopeRun → List ScopeNode
  | .done => []
  | .move _ rest => rest.nodes
  | .frame o body rest => ⟨o, body⟩ :: body.nodes ++ rest.nodes

/-- The calls made outside the frames that the run enters. -/
def own : ScopeRun → List ScopeMove
  | .done => []
  | .move m rest => m :: rest.own
  | .frame _ _ rest => rest.own

/-- The names that the calls declare for the innermost frame, in the order of the calls. -/
def lexicalNames (r : ScopeRun) : List String := r.own.filterMap (·.lexicalName?)

/-- Those for the function or program around, also from blocks inside. -/
def variableNames : ScopeRun → List String
  | .done => []
  | .move m rest => m.variableName?.toList ++ rest.variableNames
  | .frame o body rest => (if o.isBlock then body.variableNames else []) ++ rest.variableNames

def Makes (r : ScopeRun) (P : List ScopeNode → Prop) (m : ScopeMove) : Prop :=
  ∃ path, P path ∧ r.Issues path m

def throughBlocks (path : List ScopeNode) : Prop := ∀ n ∈ path, n.opening.isBlock = true

def DeclaresLexical (r : ScopeRun) (x : String) : Prop :=
  ∃ kind, kind ≠ .var ∧ r.Makes (· = []) (.declare x kind)

def DeclaresVar (r : ScopeRun) (x : String) : Prop := r.Makes throughBlocks (.declare x .var)

def TakesParameter (r : ScopeRun) (x : String) : Prop := r.Makes throughBlocks (.parameter x)

def Catches (r : ScopeRun) (x : String) : Prop := r.Makes (· = []) (.catchParameter x)

end ScopeRun

/-- A name is bound by a frame: in the frame itself or, if it is no block, also from the blocks
inside. -/
def ScopeNode.Binds (n : ScopeNode) (x : String) : Prop :=
  n.body.DeclaresLexical x ∨ n.body.Catches x ∨
    (n.opening.isBlock = false ∧ (n.body.DeclaresVar x ∨ n.body.TakesParameter x)) ∨
    n.opening.ownName? = some x

namespace ScopeRun

def escapes (x : String) (path : List ScopeNode) : Prop := ∀ n ∈ path, ¬ n.Binds x

/-- Some frame on the path is that of a function or program. -/
def crosses (path : List ScopeNode) : Prop := ∃ n ∈ path, n.opening.isBlock = false

/-- The name is used and not bound on the way from the use to the frame of the run. -/
def UsesFreely (r : ScopeRun) (x : String) : Prop := r.Makes (escapes x) (.use x)

/-- The name is written and not bound on the way out. -/
def WritesFreely (r : ScopeRun) (x : String) : Prop := r.Makes (escapes x) (.write x)

def ClosesOver (r : ScopeRun) (x : String) : Prop :=
  r.Makes (fun path => crosses path ∧ escapes x path) (.use x)

def UsesEval (r : ScopeRun) : Prop := r.Makes (fun _ => True) (.use "eval")

def Activates (r : ScopeRun) : Prop := r.Makes throughBlocks .activate

def append : ScopeRun → ScopeRun → ScopeRun
  | .done, r => r
  | .move m rest, r => .move m (rest.append r)
  | .frame o body rest, r => .frame o body (rest.append r)

instance : Append ScopeRun := ⟨append⟩

theorem move_eq (m : ScopeMove) (rest : ScopeRun) : .move m rest = .move m .done ++ rest := rfl

theorem frame_eq (o : Opening) (body rest : ScopeRun) :
    .frame o body rest = .frame o body .done ++ rest :=
  rfl

theorem own_append (r r' : ScopeRun) : (r ++ r').own = r.own ++ r'.own := by
  show (r.append r').own = _
  induction r with
  | done => rfl
  | move m rest ih => simp [append, own, ih]
  | frame o body rest _ ih => simp [append, own, ih]

@[simp] theorem lexicalNames_done : done.lexicalNames = [] := rfl

@[simp] theorem variableNames_done : done.variableNames = [] := rfl

@[simp] theorem lexicalNames_move (m : ScopeMove) :
    (move m .done).lexicalNames = m.lexicalName?.toList := by
  simp only [lexicalNames, own, List.filterMap_cons, List.filterMap_nil]
  cases m.lexicalName? <;> rfl

@[simp] theorem variableNames_move (m : ScopeMove) :
    (move m .done).variableNames = m.variableName?.toList := by
  rw [variableNames, variableNames, List.append_nil]

@[simp] theorem lexicalNames_frame (o : Opening) (body : ScopeRun) :
    (frame o body .done).lexicalNames = [] := rfl

@[simp] theorem variableNames_frame (o : Opening) (body : ScopeRun) :
    (frame o body .done).variableNames = if o.isBlock then body.variableNames else [] := by
  rw [variableNames, variableNames, List.append_nil]

theorem lexicalNames_append (r r' : ScopeRun) :
    (r ++ r').lexicalNames = r.lexicalNames ++ r'.lexicalNames := by
  rw [lexicalNames, own_append, List.filterMap_append]
  rfl

theorem variableNames_append (r r' : ScopeRun) :
    (r ++ r').variableNames = r.variableNames ++ r'.variableNames := by
  show (r.append r').variableNames = _
  induction r with
  | done => rfl
  | move m rest ih => simp only [append, variableNames, ih, List.append_assoc]
  | frame o body rest _ ih => simp only [append, variableNames, ih, List.append_assoc]

section Calls

variable {P : List ScopeNode → Prop} {m : ScopeMove} {path : List ScopeNode}

theorem not_issues_done : ¬ done.Issues path m := nofun

theorem issues_append {r r' : ScopeRun} :
    (r ++ r').Issues path m ↔ r.Issues path m ∨ r'.Issues path m := by
  show (r.append r').Issues path m ↔ _
  induction r with
  | done => simp [append, not_issues_done]
  | move m' rest ih =>
    constructor
    · rintro (_ | ⟨_, h⟩)
      · exact .inl (.here _ rest)
      · exact (ih.1 h).imp_left (.later m')
    · rintro ((_ | ⟨_, h⟩) | h)
      · exact .here _ _
      · exact .later m' (ih.2 (.inl h))
      · exact .later m' (ih.2 (.inr h))
  | frame o body rest _ ih =>
    constructor
    · rintro (_ | _ | ⟨_, h⟩ | ⟨_, _, h⟩)
      · exact .inl (.inside rest h)
      · exact (ih.1 h).imp_left (.after o body)
    · rintro ((_ | _ | ⟨_, h⟩ | ⟨_, _, h⟩) | h)
      · exact .inside _ h
      · exact .after o body (ih.2 (.inl h))
      · exact .after o body (ih.2 (.inr h))

theorem issues_move {m' : ScopeMove} : (move m' .done).Issues path m ↔ path = [] ∧ m = m' := by
  constructor
  · rintro (_ | ⟨_, h⟩)
    · exact ⟨rfl, rfl⟩
    · cases h
  · rintro ⟨rfl, rfl⟩
    exact .here m .done

theorem issues_frame {o : Opening} {body : ScopeRun} :
    (frame o body .done).Issues path m ↔ ∃ inner, path = ⟨o, body⟩ :: inner ∧
    body.Issues inner m := by
  constructor
  · rintro (_ | _ | ⟨_, h⟩ | ⟨_, _, h⟩)
    · exact ⟨_, rfl, h⟩
    · cases h
  · rintro ⟨inner, rfl, h⟩
    exact .inside .done h

theorem not_makes_done : ¬ done.Makes P m := fun ⟨_, _, h⟩ => not_issues_done h

theorem makes_append {r r' : ScopeRun} : (r ++ r').Makes P m ↔ r.Makes P m ∨ r'.Makes P m := by
  simp only [Makes, issues_append, and_or_left, exists_or]

theorem makes_move {m' : ScopeMove} : (move m' .done).Makes P m ↔ P [] ∧ m = m' := by
  simp only [Makes, issues_move]
  constructor
  · rintro ⟨_, hp, rfl, rfl⟩
    exact ⟨hp, rfl⟩
  · rintro ⟨hp, rfl⟩
    exact ⟨[], hp, rfl, rfl⟩

theorem makes_frame {o : Opening} {body : ScopeRun} :
    (frame o body .done).Makes P m ↔ body.Makes (fun path => P (⟨o, body⟩ :: path)) m := by
  simp only [Makes, issues_frame]
  constructor
  · rintro ⟨_, hp, path, rfl, h⟩
    exact ⟨path, hp, h⟩
  · rintro ⟨path, hp, h⟩
    exact ⟨_, hp, path, rfl, h⟩

theorem not_makes_own_frame {o : Opening} {body : ScopeRun} :
    ¬ (frame o body .done).Makes (· = []) m := by
  rw [makes_frame]
  rintro ⟨_, hp, _⟩
  cases hp

theorem makes_and {p : Prop} {r : ScopeRun} :
    r.Makes (fun path => p ∧ P path) m ↔ p ∧ r.Makes P m := by
  simp only [Makes, and_assoc, exists_and_left]

theorem makes_or {Q : List ScopeNode → Prop} {r : ScopeRun} :
    r.Makes (fun path => P path ∨ Q path) m ↔ r.Makes P m ∨ r.Makes Q m := by
  simp only [Makes, or_and_right, exists_or]

end Calls

section Frames

variable {o : Opening} {body : ScopeRun} {x : String}

@[simp] theorem throughBlocks_nil : throughBlocks [] := nofun

@[simp] theorem escapes_nil : escapes x [] := nofun

@[simp] theorem not_crosses_nil : ¬ crosses [] := nofun

theorem throughBlocks_cons {n : ScopeNode} {path : List ScopeNode} :
    throughBlocks (n :: path) ↔ n.opening.isBlock = true ∧ throughBlocks path :=
  List.forall_mem_cons

theorem escapes_cons {n : ScopeNode} {path : List ScopeNode} :
    escapes x (n :: path) ↔ ¬ n.Binds x ∧ escapes x path := List.forall_mem_cons

theorem crosses_cons {n : ScopeNode} {path : List ScopeNode} :
    crosses (n :: path) ↔ n.opening.isBlock = false ∨ crosses path := by
  simp [crosses]

theorem usesFreely_frame :
    (frame o body .done).UsesFreely x ↔ body.UsesFreely x ∧ ¬ ScopeNode.Binds ⟨o, body⟩ x := by
  simp only [UsesFreely, makes_frame, escapes_cons, makes_and]
  exact and_comm

theorem writesFreely_frame :
    (frame o body .done).WritesFreely x ↔ body.WritesFreely x ∧ ¬ ScopeNode.Binds ⟨o, body⟩ x := by
  simp only [WritesFreely, makes_frame, escapes_cons, makes_and]
  exact and_comm

theorem closesOver_frame :
    (frame o body .done).ClosesOver x ↔
      ((o.isBlock = false ∧ body.UsesFreely x) ∨ body.ClosesOver x) ∧
      ¬ ScopeNode.Binds ⟨o, body⟩ x := by
  have h (path : List ScopeNode) : crosses (⟨o, body⟩ :: path) ∧ escapes x (⟨o, body⟩ :: path) ↔
      ¬ ScopeNode.Binds ⟨o, body⟩ x ∧
        ((o.isBlock = false ∧ escapes x path) ∨ (crosses path ∧ escapes x path)) := by
    rw [crosses_cons, escapes_cons]
    tauto
  simp only [ClosesOver, makes_frame, h, makes_and, makes_or, UsesFreely]
  exact and_comm

end Frames

end ScopeRun

end EcmaFront
