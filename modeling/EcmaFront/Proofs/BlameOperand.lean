import EcmaFront.Proofs.Blame
import EcmaFront.Proofs.Nonterminal

/-!
Names, functions, operands and patterns are read in the source, if the phrases are that they ask
for, and what they report is a token of it.
-/

set_option autoImplicit false

namespace EcmaFront

namespace Parse

namespace Keeps

variable {α : Type} {B : NodeAlgebra} {c : ParseContext} {s : ParseState}

/-! Looking ahead, and going back. -/

theorem back {point : Checkpoint} (hp : c.source.ComesTo point.standing) :
    Keeps c s (Parse.modify (·.rewind point)) :=
  modify (·.rewind hp)

theorem peekKind : Keeps c s peekKind := ask fun hs => hs.next.rewind hs.checkpoint

theorem atLetDeclaration : Keeps c s atLetDeclaration :=
  state_bind fun _ => ite (fun _ => done) fun _ => peekKind.bind fun _ _ => by split <;> exact done

theorem accessor? : Keeps c s accessor? := by
  refine state_bind fun _ => ?_
  extract_lets kind?
  cases kind? with
  | none => exact done
  | some kind => exact peekKind.bind fun _ _ => by split <;> exact done

theorem headKind? : Keeps c s headKind? := by
  refine state_bind fun _ => ?_
  split
  case h_3 => exact atLetDeclaration.bind fun _ _ => done
  all_goals exact done

theorem skipBracketed {accept : ParseState → Bool} {scan : BracketScan} :
    Keeps c s (skipBracketed accept scan) := by
  refine state_bind fun _ => ?_
  extract_lets skip
  have forward (depth : Nat) {s' : ParseState} : Keeps c s' (skip depth) :=
    state_bind fun _ => next.bind fun _ _ => done
  have close : Keeps c s (if scan.depth ≤ 1 then do
      Parse.next
      Pure.pure (Round.done (accept (← state)))
    else skip (scan.depth - 1)) :=
    ite (fun _ => next.bind fun _ _ => state_bind fun _ => done) fun _ => forward _
  have slash (hk : s.kind.isSlash = true) :
      Keeps c s (if endsOperand scan.previous then skip scan.depth else do
      Parse.modify .readRegexp
      if (← state).kind.isError then Pure.pure (Round.done false) else skip scan.depth) :=
    ite (fun _ => forward _) fun _ => (modify (·.readRegexp hk)).bind fun _ _ => state_bind fun _ =>
      ite (fun _ => done) fun _ => forward _
  split
  case h_4 | h_5 | h_6 => exact close
  case h_7 hk | h_8 hk => exact slash (by rw [hk]; rfl)
  case h_9 | h_10 | h_11 | h_12 => exact done
  all_goals exact forward _

theorem followsBrackets {accept : ParseState → Bool} : Keeps c s (followsBrackets accept) :=
  state_bind fun hs => (repeatFrom fun _ _ => skipBracketed).bind fun _ _ =>
    (back hs.checkpoint).bind fun _ _ => done

theorem atArrowFunction : Keeps c s atArrowFunction := by
  refine state_bind fun _ => ?_
  split
  · exact ask fun hs => hs.next.rewind hs.checkpoint
  · exact followsBrackets
  · exact done

theorem labelRound : Keeps c s (labelRound ()) :=
  state_bind fun _ => ite (fun _ => done) fun _ => peekKind.bind fun _ _ =>
    ite (fun _ => done) fun _ =>
    next.bind fun _ _ => next.bind fun _ _ => done

theorem labelsLoop : Keeps c s labelsLoop :=
  state_bind fun hs => (repeatFrom fun _ _ => labelRound).bind fun _ _ =>
    (back hs.checkpoint).bind fun _ _ => done

theorem colonFollows (hk : s.kind = .identifier) : Keeps c s colonFollows := by
  refine ask fun hs => ?_
  have hg : s.lexer.goTo s.lexer.standing = s.lexer := hs.shows.goTo_standing hs.wellFormed (by
    rw [show s.token.kind = .identifier from hk]
    rfl)
  exact hs.congr ⟨rfl, rfl, hg⟩ rfl

/-! Names. -/

theorem settle {result : Except Cause α} {extent : Extent}
    (hf : ∀ cause, result = .error cause → cause.isRule = true) (he : c.source.Marks extent) :
    Keeps c s (settle result extent) := by
  cases result with
  | ok a => exact done
  | error cause => exact failAt (hf cause rfl) fun _ => he

theorem declaring {declare : Scopes → Scopes × Conflicts} : Keeps c s (declaring declare) :=
  ask fun hs => hs.congr ⟨rfl, rfl, rfl⟩ rfl

theorem declareBinding {form : BindingForm} {name : String} {extent : Extent}
    (he : c.source.Marks extent) :
    Keeps c s (declareBinding form name extent) := by
  refine declaring.bind fun conflicts s₁ => state_bind fun _ => ?_
  split
  · next hf => exact failAt (isFault_of_bindingFault? hf).isRule fun _ => he
  · split
    · exact modify fun hs => hs.congr ⟨rfl, rfl, rfl⟩ rfl
    · exact done

theorem takeBoundNames {mark : Nat} : Keeps c s (takeBoundNames mark) :=
  ask fun hs => hs.congr ⟨rfl, rfl, rfl⟩ rfl

theorem write {name : String} {extent : Extent} (he : c.source.Marks extent) :
    Keeps c s (write name extent) :=
  state_bind fun _ => ite (fun _ => failAt rfl fun _ => he) fun _ => modifyScopes

theorem writeAll {writes : List (String × Extent)} (hw : ∀ w ∈ writes, c.source.Marks w.2) :
    Keeps c s (writeAll writes) := by
  induction writes generalizing s with
  | nil => exact done
  | cons w rest ih =>
    obtain ⟨hw, hr⟩ := List.forall_mem_cons.1 hw
    exact (write hw).bind fun _ _ => ih hr

theorem commitWrites {point : Checkpoint} : Keeps c s (commitWrites point) := fun hs =>
  (writeAll (s := s.commit point) fun w hw =>
    hs.waits w (List.mem_of_mem_take (List.mem_reverse.1 hw)))
    ⟨hs.wellFormed, hs.shows, fun w hw => hs.waits w (List.mem_of_mem_drop hw)⟩

theorem noteAssignment {target : B.Expression} {extent : Extent} (he : c.source.Marks extent) :
    Keeps c s (noteAssignment B target extent) := by
  unfold Parse.noteAssignment
  split
  · exact write he
  · exact done

theorem await {name : String} {extent : Extent} (he : c.source.Marks extent) :
    Keeps c s (Parse.modify fun s => { s with pendingWrites := (name, extent) ::
    s.pendingWrites }) :=
  modify fun hs => ⟨hs.wellFormed, hs.shows, List.forall_mem_cons.2 ⟨he, hs.waits⟩⟩

theorem bindName {form : BindingForm} {name : String} {start : Position} {extent : Extent}
    (he : c.source.Marks extent) : Keeps c s (bindName B form name start extent) := by
  refine spanFrom_bind ?_
  split
  · exact modifyScopes.bind fun _ _ => (await he).bind fun _ _ => done
  · exact (declareBinding he).bind fun _ _ => done

theorem bindingName {form : BindingForm} : Keeps c s (bindingName B form) :=
  state_bind fun hs => ite (fun _ => next.bind fun _ _ => bindName hs.marks) fun _ => unexpected

end Keeps

end Parse

def Rules.Keep {B : NodeAlgebra} (r : Rules B) (c : ParseContext) : Prop :=
  ∀ phrase s, Parse.Keeps c s (r phrase)

namespace Parse.Keeps

variable {B : NodeAlgebra} {r : Rules B} {c : ParseContext} {s : ParseState}

/-! What changes frames or asks for nothing. -/

theorem finishBlock : Keeps c s finishBlock := by
  refine ask fun hs => ?_
  split <;> exact hs.congr ⟨rfl, rfl, rfl⟩ rfl

theorem finishFunction : Keeps c s finishFunction := by
  refine ask fun hs => ?_
  split <;> exact hs.congr ⟨rfl, rfl, rfl⟩ rfl

theorem enableStrict {directive : Extent} (he : c.source.Marks directive) :
    Keeps c s (enableStrict directive) := by
  refine state_bind fun _ => ?_
  split
  · exact done
  · refine ite (fun _ => failAt rfl fun _ => he) fun _ => modifyScopes.bind fun _ _ => ?_
    exact ite (fun _ => failAt rfl fun _ => he) fun _ => done

theorem noteRichParameters : Keeps c s noteRichParameters :=
  modify fun hs => hs.congr ⟨rfl, rfl, rfl⟩ rfl

theorem checkParameters {E P : Type} {header : FunctionHeader} {ps : List (Parameter E P)} :
    Keeps c s (checkParameters header ps) := by
  unfold Parse.checkParameters
  split
  · next hf => exact fail (isFault_of_arityFault? hf).isRule
  · exact state_bind fun _ => ite (fun _ => fail rfl) fun _ => done

theorem consumeArrow : Keeps c s consumeArrow :=
  state_bind fun _ => ite (fun _ => unexpected) fun _ => ite (fun _ => fail rfl) fun _ => next

theorem recordFunction {E S P : Type} {f : FunctionParts E S P} : Keeps c s (recordFunction f) :=
  context_bind (ite (fun _ => emit.bind fun _ _ => modify fun hs => hs.congr ⟨rfl, rfl, rfl⟩ rfl)
    fun _ => done)

theorem noteAccessor {names : PropertyNames} : Keeps c s (noteAccessor names) :=
  ite (fun _ => state_bind fun _ => emit) fun _ => done

theorem regexpLiteral (hk : s.kind.isSlash = true) : Keeps c s (regexpLiteral (B := B)) := by
  refine state_bind fun _ => (modify (·.readRegexp hk)).bind fun _ _ => state_bind fun _ => ?_
  refine ite (fun _ => unexpected) fun _ => next.bind fun _ _ => ?_
  split
  exact spanFrom_bind done

theorem leaf {make : Span → B.Expression} : Keeps c s (leaf make) :=
  state_bind fun _ => next.bind fun _ _ => spanFrom_bind done

theorem reference {name : String} : Keeps c s (reference (B := B) name) :=
  state_bind fun _ => next.bind fun _ _ => modifyScopes.bind fun _ _ => spanFrom_bind done

theorem superExpression : Keeps c s (superExpression (B := B)) := by
  refine state_bind fun hs => next.bind fun _ _ => state_bind fun _ => ?_
  extract_lets rest
  have hr {t : ParseState} : Keeps c t (rest ()) := spanFrom_bind done
  have fails {t : ParseState} {cause : Cause} (hc : cause.isRule = true) :
      Keeps c t (do Parse.failAt cause s.token.extent; rest ()) :=
    bind (failAt hc fun _ => hs.marks) fun _ _ => hr
  split
  case h_4 => exact fails rfl
  all_goals exact ite (fun _ => modifyScopes.bind fun _ _ => hr) fun _ => fails rfl

theorem newTarget {new : ParseState} (he : c.source.Marks new.token.extent) :
    Keeps c s (newTarget (B := B) new) :=
  state_bind fun _ => ite (fun _ => unexpected) fun _ =>
    ite (fun _ => next.bind fun _ _ => spanFrom_bind done) fun _ => failAt rfl fun _ => he

theorem newRound {news : List Position} : Keeps c s (newRound (B := B) news) :=
  state_bind fun hs => ite
    (fun _ => next.bind fun _ _ => consume.bind fun _ _ =>
      ite (fun _ => (newTarget hs.marks).bind fun _ _ => done) fun _ => done)
    fun _ => done

theorem noPattern {α : Type} {form : BindingForm} : Keeps c s (noPattern (α := α) form) :=
  ite (fun _ => done) fun _ => unexpected

theorem comma {σ α : Type} {x : σ} {y : α} :
    Keeps c s (do
      if ← Parse.consume .comma then Pure.pure (Round.again x) else Pure.pure (Round.done y)) :=
  consume.bind fun _ _ => ite (fun _ => done) fun _ => done

variable (h : r.Keep c)

include h

theorem item : Keeps c s r.item := h _ s

theorem statement : Keeps c s r.statement := h _ s

theorem assignment : Keeps c s r.assignment := h _ s

theorem rulePattern {form : BindingForm} : Keeps c s (r.pattern form) := h _ s

/-! Lists of statements. -/

theorem itemsUntil {close : TokenKind → Bool} : Keeps c s (itemsUntil r close) :=
  repeatFrom fun _ _ => state_bind fun _ => ite (fun _ => done) fun _ =>
    ite (fun _ => unexpected) fun _ =>
    (item h).bind fun _ _ => done

theorem block : Keeps c s (block r) :=
  state_bind fun _ => expect.bind fun _ _ => modifyScopes.bind fun _ _ =>
    (itemsUntil h).bind fun _ _ =>
    expect.bind fun _ _ => finishBlock.bind fun _ _ => spanFrom_bind done

theorem body {close : TokenKind} : Keeps c s (body r close) := by
  refine state_bind fun hs => repeatFrom fun scan t => state_bind fun ht =>
    ite (fun _ => done) fun _ =>
    ite (fun _ => unexpected) fun _ => ite (fun _ => (item h).bind fun a _ => ?_) fun _ =>
      (item h).bind fun _ _ => done
  refine ite (fun _ => done) fun _ => state_bind fun _ => ite (fun _ => ?_) fun _ => done
  refine (enableStrict ht.marks).bind fun _ _ => emit.bind fun _ _ => ?_
  exact (modify (·.backtrack hs.checkpoint)).bind fun _ _ => done

/-! Parameters and functions. -/

theorem bindingPattern {form : BindingForm} : Keeps c s (bindingPattern r form) :=
  (rulePattern h).bind fun found _ => by
    cases found with
    | none => exact unexpected
    | some p => exact done

theorem parameterTarget : Keeps c s (parameterTarget r) :=
  state_bind fun _ => ite (fun _ => bindingName) fun _ =>
    ite (fun _ => noteRichParameters.bind fun _ _ => bindingPattern h) fun _ => unexpected

theorem parameterRound {parameters : List (Parameter B.Expression B.Pattern)} :
    Keeps c s (parameterRound r parameters) := by
  refine state_bind fun _ => ite (fun _ => done) fun _ => consume.bind fun _ _ =>
    ite (fun _ => ?_) fun _ => ?_
  · refine noteRichParameters.bind fun _ _ => (parameterTarget h).bind fun _ _ =>
      state_bind fun _ => ?_
    exact ite (fun _ => fail rfl) fun _ => spanFrom_bind done
  · refine (parameterTarget h).bind fun target _ => ?_
    extract_lets rest
    have hr {t : ParseState} (default : Option B.Expression) : Keeps c t (rest default) :=
      spanFrom_bind comma
    refine consume.bind fun _ _ => ite (fun _ => ?_) fun _ => hr none
    exact noteRichParameters.bind fun _ _ => (assignment h).map.bind fun default _ => hr default

theorem parameters {header : FunctionHeader} : Keeps c s (parameters r header) :=
  state_bind fun _ => ite (fun _ => bindingName.bind fun _ _ => spanFrom_bind done) fun _ =>
    expect.bind fun _ _ => (repeatFrom fun _ _ => parameterRound h).bind fun _ _ =>
      expect.bind fun _ _ => done

theorem functionBody {header : FunctionHeader} {outerIn : Bool} :
    Keeps c s (functionBody r header outerIn) := by
  refine state_bind fun _ => ite (fun _ => next.bind fun _ _ => (body h).bind fun _ _ => ?_)
    fun _ => ?_
  · exact finishFunction.bind fun _ _ => next.bind fun _ _ => done
  · refine ite (fun _ => (allowingIn fun _ => assignment h).bind fun _ _ => ?_) fun _ => unexpected
    exact finishFunction.bind fun _ _ => done

theorem functionInside {start : Position} {header : FunctionHeader} {outerIn : Bool} :
    Keeps c s (functionInside r start header outerIn) := by
  refine state_bind fun _ => (parameters h).bind fun ps _ => checkParameters.bind fun _ _ => ?_
  extract_lets rest
  have hr {t : ParseState} : Keeps c t (rest ()) :=
    state_bind fun _ => (functionBody h).bind fun _ _ => state_bind fun _ => done
  exact ite (fun _ => consumeArrow.bind fun _ _ => hr) fun _ => hr

theorem functionParts {start : Position} {header : FunctionHeader} :
    Keeps c s (functionParts r start header) := by
  refine state_bind fun _ => (modify fun hs => hs.congr ⟨rfl, rfl, rfl⟩ rfl).bind fun _ _ => ?_
  exact always (functionInside h) fun _ hs => hs.congr ⟨rfl, rfl, rfl⟩ rfl

theorem functionNode {start : Position} {header : FunctionHeader} :
    Keeps c s (functionNode r start header) :=
  (functionParts h).bind fun _ _ => recordFunction.bind fun _ _ => done

theorem functionExpression : Keeps c s (functionExpression r) :=
  state_bind fun _ => next.bind fun _ _ => state_bind fun _ =>
    ite (fun _ => next.bind fun _ _ => functionNode h) fun _ => functionNode h

theorem functionDeclaration : Keeps c s (functionDeclaration r) := by
  refine state_bind fun _ => next.bind fun _ _ => state_bind fun hs =>
    ite (fun _ => unexpected) fun _ => ?_
  refine declaring.bind fun conflicts _ => ?_
  split
  · next hf => exact failAt (isFault_of_functionNameFault? hf).isRule fun _ => hs.marks
  · exact next.bind fun _ _ => (functionParts h).bind fun _ _ => recordFunction.bind fun _ _ => done

/-! Object literals. -/

theorem propertyKey : Keeps c s (propertyKey r) := by
  refine state_bind fun _ => ?_
  split
  · exact next.bind fun _ _ => done
  · exact next.bind fun _ _ => done
  · exact next.bind fun _ _ => (assignment h).bind fun _ _ => expect.bind fun _ _ => done
  · exact ite (fun _ => next.bind fun _ _ => done) fun _ => unexpected

theorem accessorProperty {kind : PropertyKind} {scan : ObjectScan B.Property} :
    Keeps c s (accessorProperty r kind scan) := by
  refine state_bind fun hs => noteAccessor.bind fun _ _ => next.bind fun _ _ =>
    (propertyKey h).bind fun key _ => ?_
  refine (settle (fun _ h => (isFault_of_addAccessorKey h).isRule) hs.marks).bind fun _ _ => ?_
  exact (functionNode h).bind fun _ _ => spanFrom_bind done

theorem propertyValue {start : ParseState} {key : PropertyKey B.Expression} {prototype : Bool}
    (he : c.source.Marks start.token.extent) : Keeps c s (propertyValue r start key prototype) := by
  refine state_bind fun _ => ?_
  dsimp only
  split
  · refine next.bind fun _ _ => (assignment h).bind fun _ _ => ite (fun _ => ?_) fun _ => done
    exact ite (fun _ => failAt rfl fun _ => he) fun _ => done
  · exact (functionNode h).bind fun _ _ => done
  · refine ite (fun _ => fail rfl) fun _ => ite (fun _ => ?_) fun _ => unexpected
    exact modifyScopes.bind fun _ _ => spanFrom_bind done

theorem dataProperty {scan : ObjectScan B.Property} : Keeps c s (dataProperty r scan) := by
  refine state_bind fun hs => (propertyKey h).bind fun key _ =>
    (propertyValue h hs.marks).bind fun _ _ => ?_
  exact (settle (fun _ h => (isFault_of_addDataKey h).isRule) hs.marks).bind fun _ _ =>
    spanFrom_bind done

theorem property {scan : ObjectScan B.Property} : Keeps c s (property r scan) := by
  refine state_bind fun _ => consume.bind fun _ _ => ite (fun _ => ?_) fun _ => accessor?.bind
    fun kind? _ => ?_
  · exact (assignment h).bind fun _ _ => spanFrom_bind done
  · cases kind? with
    | some kind => exact accessorProperty h
    | none => exact dataProperty h

theorem objectLiteral : Keeps c s (objectLiteral r) := by
  refine state_bind fun _ => next.bind fun _ _ =>
    (allowingIn fun _ => repeatFrom fun _ _ => ?_).bind fun _ _ =>
      expect.bind fun _ _ => spanFrom_bind done
  exact state_bind fun _ => ite (fun _ => done) fun _ => (property h).bind fun _ _ => comma

/-! Operands. -/

theorem expression : Keeps c s (expression r) := by
  refine state_bind fun _ => (assignment h).bind fun _ _ => state_bind fun _ =>
    ite (fun _ => ?_) fun _ => done
  refine (repeatFrom fun _ _ => ?_).bind fun _ _ => spanFrom_bind done
  refine consume.bind fun _ _ => ite (fun _ => ?_) fun _ => done
  exact (assignment h).bind fun _ _ => done

theorem spreadOrAssignment : Keeps c s (spreadOrAssignment r) :=
  state_bind fun _ => ite (fun _ => next.bind fun _ _ => (assignment h).bind fun _ _ =>
    spanFrom_bind done)
    fun _ => assignment h

theorem arguments : Keeps c s (arguments r) := by
  refine expect.bind fun _ _ => (allowingIn fun _ => ?_).bind fun _ _ => expect.bind fun _ _ => done
  refine repeatFrom fun _ _ => ?_
  exact state_bind fun _ => ite (fun _ => done) fun _ =>
    (spreadOrAssignment h).bind fun _ _ => comma

theorem elementRound {elements : List (Option B.Expression)} :
    Keeps c s (elementRound r elements) := by
  refine state_bind fun _ => ?_
  split
  · exact done
  · exact next.bind fun _ _ => done
  · refine (spreadOrAssignment h).bind fun _ _ => state_bind fun _ =>
      ite (fun _ => done) fun _ => ?_
    exact expect.bind fun _ _ => done

theorem arrayLiteral : Keeps c s (arrayLiteral r) :=
  state_bind fun _ => next.bind fun _ _ =>
    (allowingIn fun _ => repeatFrom fun _ _ => elementRound h).bind fun _ _ =>
    expect.bind fun _ _ => spanFrom_bind done

theorem primary : Keeps c s (primary r) := by
  refine state_bind fun _ => ?_
  split
  case h_1 => exact functionExpression h
  case h_2 =>
    exact next.bind fun _ _ => (allowingIn fun _ => expression h).bind fun _ _ =>
      expect.bind fun _ _ => done
  case h_3 => exact arrayLiteral h
  case h_4 => exact objectLiteral h
  case h_5 | h_6 | h_7 | h_8 | h_9 | h_10 => exact leaf
  case h_11 => exact reference
  case h_12 => exact ite (fun _ => unexpected) fun _ => reference
  case h_13 hk | h_14 hk => exact regexpLiteral (by rw [hk]; rfl)
  case h_15 | h_16 | h_17 => exact fail rfl
  case h_18 => exact unexpected

theorem memberRound {start callee : Position} {chain : MemberChain B.Expression} :
    Keeps c s (memberRound r start callee chain) := by
  refine state_bind fun _ => ?_
  dsimp only
  split
  · refine next.bind fun _ _ => state_bind fun _ => ite (fun _ => ?_) fun _ => unexpected
    exact next.bind fun _ _ => spanFrom_bind done
  · refine next.bind fun _ _ => (allowingIn fun _ => expression h).bind fun _ _ =>
      expect.bind fun _ _ => ?_
    exact spanFrom_bind done
  · refine (arguments h).bind fun _ _ => ?_
    split <;> exact spanFrom_bind done
  · exact fail rfl
  · exact done

theorem leftHandSide : Keeps c s (leftHandSide r) := by
  refine state_bind fun _ => (repeatFrom fun _ _ => newRound).bind fun found _ => ?_
  obtain ⟨news, target⟩ := found
  have rest (callee : Position) (operand : B.Expression) {t : ParseState} : Keeps c t (do
      let chain ← Parse.repeatFrom ⟨operand, news⟩ (Parse.memberRound r s.start callee)
      let stop := (← Parse.state).lastEnd
      Pure.pure (chain.news.foldl (fun e new => B.construct ⟨new, stop⟩ e none)
        chain.expression)) :=
    (repeatFrom fun _ _ => memberRound h).bind fun _ _ => state_bind fun _ => done
  refine state_bind fun _ => ?_
  cases target with
  | some target => exact rest _ _
  | none =>
    refine state_bind fun _ => ite (fun _ => superExpression.bind fun _ _ => rest _ _) fun _ => ?_
    exact (primary h).bind fun _ _ => rest _ _

/-! Patterns. -/

variable {form : BindingForm}

theorem patternTarget : Keeps c s (patternTarget r form) := by
  refine ite (fun _ => bindingName.map) fun _ => state_bind fun hs => (leftHandSide h).bind
    fun target _ => ?_
  refine ite (fun _ => ?_) fun _ => done
  split
  · exact (await hs.marks).bind fun _ _ => done
  · exact done

theorem patternDefault : Keeps c s (patternDefault r) :=
  consume.bind fun _ _ => ite (fun _ => (allowingIn fun _ => assignment h).map) fun _ => done

theorem restElement {elements : List (Option (PatternElement B.Expression B.Pattern))} :
    Keeps c s (restElement r form elements) := by
  refine next.bind fun _ _ => (rulePattern h).bind fun found _ => ?_
  cases found with
  | none => exact done
  | some p =>
    exact state_bind fun _ => ite (fun _ => done) fun _ => ite (fun _ => done) fun _ => fail rfl

theorem arrayPatternRound {elements : List (Option (PatternElement B.Expression B.Pattern))} :
    Keeps c s (arrayPatternRound r form elements) := by
  refine state_bind fun _ => ?_
  split
  · exact done
  · exact next.bind fun _ _ => done
  · exact (restElement h).map
  · refine (rulePattern h).bind fun found _ => ?_
    cases found with
    | none => exact done
    | some p =>
      refine (patternDefault h).bind fun _ _ => spanFrom_bind
        (state_bind fun _ => ite (fun _ => done) fun _ => ?_)
      exact consume.bind fun _ _ => ite (fun _ => done) fun _ => noPattern.map

theorem arrayPattern : Keeps c s (arrayPattern r form) := by
  refine state_bind fun _ => next.bind fun _ _ => (repeatFrom fun _ _ => arrayPatternRound h).bind
    fun found _ => ?_
  cases found with
  | none => exact done
  | some parts => exact next.bind fun _ _ => spanFrom_bind done

theorem patternKey : Keeps c s (patternKey r form) := by
  refine state_bind fun _ => ?_
  split
  · exact next.bind fun _ _ => done
  · exact next.bind fun _ _ => done
  · exact next.bind fun _ _ => (allowingIn fun _ => assignment h).bind fun _ _ =>
      expect.bind fun _ _ => done
  · exact ite (fun _ => next.bind fun _ _ => done) fun _ => noPattern

theorem patternPropertyTarget {start : ParseState} {name? : Option String}
    (he : c.source.Marks start.token.extent) :
    Keeps c s (patternPropertyTarget r form start name?) := by
  refine consume.bind fun _ _ => ite (fun _ => (rulePattern h).bind fun _ _ => done) fun _ => ?_
  cases name? with
  | none => exact noPattern
  | some name => exact (bindName he).map

theorem patternProperty {properties : List (PatternProperty B.Expression B.Pattern)} :
    Keeps c s (patternProperty r form properties) := by
  refine state_bind fun hs => (patternKey h).bind fun found _ => ?_
  cases found with
  | none => exact done
  | some key =>
    refine (patternPropertyTarget h hs.marks).bind fun found _ => ?_
    cases found with
    | none => exact done
    | some target => exact (patternDefault h).bind fun _ _ => spanFrom_bind done

theorem objectPattern : Keeps c s (objectPattern r form) := by
  refine state_bind fun _ => next.bind fun _ _ => (repeatFrom fun _ _ => ?_).bind fun found _ => ?_
  · refine state_bind fun _ => ite (fun _ => done) fun _ =>
      (patternProperty h).bind fun found _ => ?_
    cases found with
    | none => exact done
    | some properties => exact comma
  · cases found with
    | none => exact done
    | some properties =>
      exact state_bind fun _ => ite (fun _ => next.bind fun _ _ => spanFrom_bind done)
        fun _ => noPattern

theorem pattern : Keeps c s (pattern r form) := by
  refine nested fun _ => state_bind fun _ => ?_
  split
  · exact arrayPattern h
  · exact objectPattern h
  · exact patternTarget h

end Parse.Keeps

end EcmaFront
