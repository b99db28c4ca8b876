import EcmaFront.Proofs.Balance
import EcmaFront.Proofs.Lookahead

/-!
Names, functions, operands and patterns keep the balance, if the phrases do that they ask for.
Parameters that are not plain are noted for the function that they belong to, and what an assignment
pattern would write comes to wait.
-/

set_option autoImplicit false

namespace EcmaFront

open EcmaFront.Frame (Stance)

/-- What a pattern is about to write waits if it is not yet known to be one. -/
def BindingForm.effect : BindingForm → Effect
  | .assignment => { awaits := true }
  | _ => {}

/-- What parameters do to the function that they belong to. -/
def Effect.parameters : Effect := { notes := true }

namespace Parse.Lands

variable {α : Type} {B : NodeAlgebra} {e : Effect} {d : Nat} {g : Gauge}

/-! Looking ahead, and going back. -/

theorem lookahead {p : Parse α} (h : Lookahead p) : Rests d g p := fun c s hs => by
  obtain ⟨hl, he⟩ := h.asks c s
  have hg : (p c s).2.gauge = s.gauge := by
    rw [hl.same]
    rfl
  generalize p c s = x at hg he ⊢
  obtain ⟨e | a, t⟩ := x
  · have hg : t.gauge = g := hg.trans hs
    exact ⟨hg ▸ .refl d _, by rw [he e rfl]; rfl⟩
  · exact .of_eq (hg.trans hs)

theorem headKind? : Rests d g headKind? := by
  refine state_bind fun _ _ => ?_
  split
  case h_3 => exact (lookahead .atLetDeclaration).bind fun _ => done
  all_goals exact done

theorem readRegexp : Rests d g (Parse.modify .readRegexp) := modify fun _ hs => hs

theorem colonFollows : Rests d g colonFollows := ask fun _ => rfl

/-! Names. -/

theorem settle {result : Except Cause α} {extent : Extent}
    (hf : ∀ cause, result = .error cause → cause.isRule = true) :
    Rests d g (settle result extent) := by
  cases result with
  | ok a => exact done
  | error cause => exact failAt (hf cause rfl)

theorem declaring {declare : Scopes → Scopes × Conflicts} (h : ∀ s, (declare s).1.jumps = s.jumps) :
    Rests d g (declaring declare) := ask fun s => by
  rw [← @ParseState.gauge_onScopes s (fun scopes => (declare scopes).1) (h s.scopes)]
  rfl

theorem declareBinding {form : BindingForm} {name : String} {extent : Extent} :
    Rests d g (declareBinding form name extent) := by
  refine (declaring (Scopes.jumps_declarationOf · name form)).bind fun conflicts =>
    state_bind fun _ _ => ?_
  split
  · next hf => exact failAt (isFault_of_bindingFault? hf).isRule
  · split
    · exact modify fun _ hs => hs
    · exact done

theorem takeBoundNames {mark : Nat} : Rests d g (takeBoundNames mark) := ask fun _ => rfl

theorem write {name : String} {extent : Extent} : Rests d g (write name extent) :=
  state_bind fun _ _ => ite (fun _ => failAt rfl) fun _ =>
    modifyScopes fun s => Scopes.jumps_of_stances (Scopes.stances_write s name)

theorem writeAll {writes : List (String × Extent)} : Rests d g (writeAll writes) := by
  induction writes with
  | nil => exact done
  | cons w rest ih => exact write.bind fun _ => ih

theorem use {name : String} : Rests d g (Parse.modifyScopes (·.use name)) :=
  modifyScopes fun s => Scopes.jumps_of_stances (Scopes.stances_use s name)

theorem noteAssignment {target : B.Expression} {extent : Extent} :
    Rests d g (noteAssignment B target extent) := by
  unfold Parse.noteAssignment
  split
  · exact write
  · exact done

theorem await {name : String} {extent : Extent} :
    Steps (BindingForm.effect .assignment) d g
      (Parse.modify fun s => { s with pendingWrites := (name, extent) ::
      s.pendingWrites }) := fun _ _ hs =>
  hs ▸ ⟨rfl, rfl, rfl, .inl rfl, [(name, extent)], rfl, nofun⟩

theorem bindName {form : BindingForm} {name : String} {start : Position} {extent : Extent} :
    Steps form.effect d g (bindName B form name start extent) := by
  refine spanFrom_bind fun _ => ?_
  split
  · exact use.bind fun _ => await.seq fun _ _ => done
  · exact declareBinding.bind fun _ => done

theorem bindingName {form : BindingForm} : Steps form.effect d g (bindingName B form) :=
  state_bind fun _ _ => ite (fun _ => next.bind fun _ => bindName) fun _ => unexpected

end Parse.Lands

/-- The rules keep the balance wherever they are asked. Items and statements may leave a mark on the
innermost frame when they are broken off. -/
structure Rules.Balanced {B : NodeAlgebra} (r : Rules B) : Prop where
  item : ∀ {d g}, Parse.Rests (d + 1) g r.item
  statement : ∀ {d g}, Parse.Rests (d + 1) g r.statement
  assignment : ∀ {d g}, Parse.Rests d g r.assignment
  pattern : ∀ {d g form}, Parse.Steps form.effect d g (r.pattern form)

namespace Parse.Lands

variable {B : NodeAlgebra} {r : Rules B} {d : Nat} {g : Gauge}

/-! What changes frames or asks for nothing. -/

theorem gauge_pop (s : ParseState) (f : Frame) :
    (s.onScopes fun scopes => (scopes.modifyTop fun _ => f).pop true).gauge = s.gauge.leave := by
  rw [ParseState.gauge_frames, Scopes.jumps_pop]
  rcases hs : s.scopes with ⟨_ | ⟨_, _⟩⟩ <;> simp [Gauge.leave, ParseState.gauge, hs] <;> rfl

theorem leave_of_none {s : ParseState} (h : s.scopes.top? = none) : s.gauge = s.gauge.leave := by
  have hn : s.scopes.frames = [] := List.head?_eq_none_iff.1 h
  simp [Gauge.leave, ParseState.gauge, Scopes.jumps, Scopes.stances, hn]

theorem finishBlock : Lands d g finishBlock (· = g.leave) := fun _ s hs => by
  subst hs
  simp only [Parse.finishBlock, ask_run]
  split
  · next h => exact leave_of_none h
  · exact gauge_pop s _

theorem finishFunction : Lands d g finishFunction (· = g.leave) := fun _ s hs => by
  subst hs
  simp only [Parse.finishFunction, ask_run]
  split
  · next h => exact leave_of_none h
  · exact gauge_pop s _

theorem finishSpanned {α : Type} {start : Position} {f : Environment → Span → α} :
    Lands d g (do
      let scope ← Parse.finishBlock
      let span ← Parse.spanFrom start
      Pure.pure (f scope span)) (· = g.leave) :=
  finishBlock.bindStill fun _ => .spanFrom_bind fun _ => .pure

theorem enableStrict {directive : Extent} : Rests d g (enableStrict directive) := by
  refine state_bind fun _ _ => ?_
  split
  · exact done
  · refine ite (fun _ => failAt rfl) fun _ => (modifyScopes fun s => ?_).bind fun _ => ?_
    · exact Scopes.jumps_of_stances (Scopes.stances_strict s)
    · exact ite (fun _ => failAt rfl) fun _ => done

theorem noteRichParameters : Steps .parameters d g noteRichParameters := fun _ _ hs =>
  hs ▸ ⟨rfl, rfl, rfl, .inr ⟨rfl, rfl⟩, [], rfl, fun _ => rfl⟩

theorem checkParameters {E P : Type} {header : FunctionHeader} {ps : List (Parameter E P)} :
    Rests d g (checkParameters header ps) := by
  unfold Parse.checkParameters
  split
  · next hf => exact fail (isFault_of_arityFault? hf).isRule
  · exact state_bind fun _ _ => ite (fun _ => fail rfl) fun _ => done

theorem consumeArrow : Rests d g consumeArrow :=
  state_bind fun _ _ => ite (fun _ => unexpected) fun _ => ite (fun _ => fail rfl) fun _ => next

theorem recordFunction {E S P : Type} {f : FunctionParts E S P} : Rests d g (recordFunction f) :=
  context_bind fun _ => ite (fun _ => emit.bind fun _ => modify fun _ hs => hs) fun _ => done

theorem noteAccessor {names : PropertyNames} : Rests d g (noteAccessor names) :=
  ite (fun _ => state_bind fun _ _ => emit) fun _ => done

theorem regexpLiteral : Rests d g (regexpLiteral (B := B)) := by
  refine state_bind fun _ _ => readRegexp.bind fun _ => state_bind fun _ _ => ?_
  refine ite (fun _ => unexpected) fun _ => next.bind fun _ => ?_
  split
  exact spanFrom_bind fun _ => done

theorem leaf {make : Span → B.Expression} : Rests d g (leaf make) :=
  state_bind fun _ _ => next.bind fun _ => spanFrom_bind fun _ => done

theorem reference {name : String} : Rests d g (reference (B := B) name) :=
  state_bind fun _ _ => next.bind fun _ => use.bind fun _ => spanFrom_bind fun _ => done

theorem superExpression : Rests d g (superExpression (B := B)) := by
  refine state_bind fun s _ => next.bind fun _ => state_bind fun _ _ => ?_
  extract_lets rest
  have hr : Rests d g (rest ()) := spanFrom_bind fun _ => done
  have fails {cause : Cause} (hc : cause.isRule = true) :
      Rests d g (do Parse.failAt cause s.token.extent; rest ()) :=
    bind (failAt hc) fun _ => hr
  split
  case h_4 => exact fails rfl
  all_goals
    refine ite (fun _ => (modifyScopes fun s => ?_).bind fun _ => hr) fun _ => fails rfl
    exact Scopes.jumps_receiver fun _ => rfl

theorem newTarget {new : ParseState} : Rests d g (newTarget (B := B) new) :=
  state_bind fun _ _ => ite (fun _ => unexpected) fun _ =>
    ite (fun _ => next.bind fun _ => spanFrom_bind fun _ => done) fun _ => failAt rfl

theorem newRound {news : List Position} : Rests d g (newRound (B := B) news) :=
  state_bind fun _ _ => ite
    (fun _ => next.bind fun _ => consume.bind fun _ =>
      ite (fun _ => newTarget.bind fun _ => done) fun _ => done)
    fun _ => done

theorem noPattern {α : Type} {e : Effect} {form : BindingForm} :
    Steps e d g (noPattern (α := α) form) :=
  ite (fun _ => done) fun _ => unexpected

theorem comma {σ α : Type} {e : Effect} {x : σ} {y : α} :
    Steps e d g (do
      if ← Parse.consume .comma then Pure.pure (Round.again x) else Pure.pure (Round.done y)) :=
  consume.bind fun _ => ite (fun _ => done) fun _ => done

variable (h : r.Balanced)

include h

/-! Lists of statements. -/

theorem itemsUntil {close : TokenKind → Bool} : Rests (d + 1) g (itemsUntil r close) :=
  repeatFrom fun _ _ => state_bind fun _ _ => ite (fun _ => done) fun _ =>
    ite (fun _ => unexpected) fun _ =>
    h.item.bind fun _ => done

theorem block : Rests d g (block r) :=
  state_bind fun _ _ => expect.bind fun _ => pushing Scopes.jumps_pushBlock
    ((itemsUntil h).bind fun _ => expect.bind fun _ => finishSpanned)

theorem body {close : TokenKind} : Rests (d + 1) g (body r close) := by
  refine state_bind fun _ hs => repeatResting fun scan => state_bind fun _ _ =>
    ite (fun _ => done) fun _ =>
    ite (fun _ => unexpected) fun _ => ite (fun _ => h.item.bind fun a => ?_) fun _ =>
      h.item.bind fun _ => done
  refine ite (fun _ => done) fun _ => state_bind fun _ _ => ite (fun _ => ?_) fun _ => done
  refine enableStrict.bind fun _ => emit.bind fun _ => bind (modify fun t ht => ?_) fun _ => done
  exact (ParseState.gauge_backtrack (ht.trans hs.symm ▸ .refl 0 _)).trans hs

/-! Parameters and functions. -/

theorem bindingPattern {form : BindingForm} : Steps form.effect d g (bindingPattern r form) :=
  h.pattern.seq fun found _ => by
    cases found with
    | none => exact unexpected
    | some p => exact done

theorem parameterTarget : Steps .parameters d g (parameterTarget r) :=
  state_bind fun _ _ => ite (fun _ => widen bindingName) fun _ =>
    ite (fun _ => noteRichParameters.seq fun _ _ => widen (bindingPattern h)) fun _ => unexpected

theorem formalParameters : Steps .parameters d g (formalParameters r) := by
  refine repeatFrom fun parameters g => ?_
  refine state_bind fun _ _ => ite (fun _ => done) fun _ => consume.bind fun _ =>
    ite (fun _ => ?_) fun _ => ?_
  · refine noteRichParameters.seq fun _ _ => (parameterTarget h).seq fun _ _ =>
      state_bind fun _ _ => ?_
    exact ite (fun _ => fail rfl) fun _ => spanFrom_bind fun _ => done
  · refine (parameterTarget h).seq fun target g => ?_
    extract_lets rest
    have hr {g : Gauge} (default : Option B.Expression) : Steps .parameters d g (rest default) :=
      spanFrom_bind fun _ => comma
    refine consume.bind fun _ => ite (fun _ => ?_) fun _ => hr none
    exact noteRichParameters.seq fun _ _ => h.assignment.map.bind fun default => hr default

theorem parameters {header : FunctionHeader} : Steps .parameters d g (parameters r header) :=
  state_bind fun _ _ => ite (fun _ => bind bindingName fun _ => spanFrom_bind fun _ => done)
    fun _ =>
    expect.bind fun _ => (formalParameters h).seq fun _ _ => expect.bind fun _ => done

theorem functionBody {header : FunctionHeader} {outerIn : Bool} :
    Lands (d + 1) g (functionBody r header outerIn) (· = g.leave) := by
  refine state_bind fun _ _ => ite (fun _ => next.bind fun _ => (body h).bind fun _ => ?_) fun _ =>
    ?_
  · exact finishFunction.bindStill fun _ => .next_bind .pure
  · refine ite (fun _ => (allowingIn h.assignment).bind fun _ => ?_) fun _ => unexpected
    exact finishFunction.bindStill fun _ => .pure

theorem functionInside {start : Position} {header : FunctionHeader} {outerIn : Bool} :
    Lands (d + 1) g (functionInside r start header outerIn) (g.leave.Leads .parameters) := by
  refine state_bind fun _ _ => (parameters h).andThen fun ps g₁ hg =>
    checkParameters.bind fun _ => ?_
  extract_lets rest
  have hr : Lands (d + 1) g₁ (rest ()) (g.leave.Leads .parameters) := by
    refine state_bind fun _ _ => bindStill ((functionBody h).mono fun g' hl => ?_) fun _ =>
      .state_bind fun _ => .pure
    subst hl
    exact ⟨congrArg List.tail hg.frames, hg.nesting, hg.allowsIn, hg.rich, hg.waiting⟩
  exact ite (fun _ => consumeArrow.bind fun _ => hr) fun _ => hr

theorem functionParts {start : Position} {header : FunctionHeader} :
    Rests d g (functionParts r start header) := by
  intro c s hs
  subst hs
  have hin : LandsIn (d + 1) _ _
      (Parse.functionInside r start header s.allowsIn c (s.enter header)) :=
    functionInside h c (s.enter header) rfl
  simp only [Parse.functionParts, Parse.state_bind, modify_bind]
  refine LandsIn.always hin (fun s' hb => ?_) fun s' hl => ?_
  · exact @Gauge.Broken.of_push _ _ _ (header.frame s.strict).stance.bare
      ⟨hb.frames, hb.length, hb.waiting⟩
  · exact ⟨hl.frames, hl.nesting, rfl, .inl rfl, hl.waiting⟩

theorem functionNode {start : Position} {header : FunctionHeader} :
    Rests d g (functionNode r start header) :=
  (functionParts h).bind fun _ => recordFunction.bind fun _ => done

theorem functionExpression : Rests d g (functionExpression r) :=
  state_bind fun _ _ => next.bind fun _ => state_bind fun _ _ =>
    ite (fun _ => next.bind fun _ => functionNode h) fun _ => functionNode h

theorem functionDeclaration : Rests d g (functionDeclaration r) := by
  refine state_bind fun _ _ => next.bind fun _ => state_bind fun s _ =>
    ite (fun _ => unexpected) fun _ => ?_
  refine (declaring fun scopes => ?_).bind fun conflicts => ?_
  · exact Scopes.jumps_of_stances (Scopes.stances_declare scopes s.token.text (functionNameKind s))
  · split
    · next hf => exact failAt (isFault_of_functionNameFault? hf).isRule
    · exact next.bind fun _ => (functionParts h).bind fun _ => recordFunction.bind fun _ => done

/-! Object literals. -/

theorem propertyKey : Rests d g (propertyKey r) := by
  refine state_bind fun _ _ => ?_
  split
  · exact next.bind fun _ => done
  · exact next.bind fun _ => done
  · exact next.bind fun _ => h.assignment.bind fun _ => expect.bind fun _ => done
  · exact ite (fun _ => next.bind fun _ => done) fun _ => unexpected

theorem accessorProperty {kind : PropertyKind} {scan : ObjectScan B.Property} :
    Rests d g (accessorProperty r kind scan) := by
  refine state_bind fun _ _ => noteAccessor.bind fun _ => next.bind fun _ =>
    (propertyKey h).bind fun key => ?_
  refine (settle fun _ h => (isFault_of_addAccessorKey h).isRule).bind fun _ => ?_
  exact (functionNode h).bind fun _ => spanFrom_bind fun _ => done

theorem propertyValue {start : ParseState} {key : PropertyKey B.Expression} {prototype : Bool} :
    Rests d g (propertyValue r start key prototype) := by
  refine state_bind fun _ _ => ?_
  dsimp only
  split
  · refine next.bind fun _ => h.assignment.bind fun _ => ite (fun _ => ?_) fun _ => done
    exact ite (fun _ => failAt rfl) fun _ => done
  · exact (functionNode h).bind fun _ => done
  · refine ite (fun _ => fail rfl) fun _ => ite (fun _ => ?_) fun _ => unexpected
    exact use.bind fun _ => spanFrom_bind fun _ => done

theorem dataProperty {scan : ObjectScan B.Property} : Rests d g (dataProperty r scan) := by
  refine state_bind fun _ _ => (propertyKey h).bind fun key => (propertyValue h).bind fun _ => ?_
  exact (settle fun _ h => (isFault_of_addDataKey h).isRule).bind fun _ =>
    spanFrom_bind fun _ => done

theorem property {scan : ObjectScan B.Property} : Rests d g (property r scan) := by
  refine state_bind fun _ _ => consume.bind fun _ => ite (fun _ => ?_) fun _ =>
    (lookahead .accessor?).bind fun kind? => ?_
  · exact h.assignment.bind fun _ => spanFrom_bind fun _ => done
  · cases kind? with
    | some kind => exact accessorProperty h
    | none => exact dataProperty h

theorem objectLiteral : Rests d g (objectLiteral r) := by
  refine state_bind fun _ _ => next.bind fun _ =>
    (allowingIn (repeatFrom fun _ _ => ?_)).bind fun _ =>
      expect.bind fun _ => spanFrom_bind fun _ => done
  exact state_bind fun _ _ => ite (fun _ => done) fun _ => (property h).bind fun _ => comma

/-! Operands. -/

theorem expression : Rests d g (expression r) := by
  refine state_bind fun _ _ => h.assignment.bind fun _ => state_bind fun _ _ =>
    ite (fun _ => ?_) fun _ => done
  refine (repeatFrom fun _ _ => ?_).bind fun _ => spanFrom_bind fun _ => done
  refine consume.bind fun _ => ite (fun _ => ?_) fun _ => done
  exact h.assignment.bind fun _ => done

theorem spreadOrAssignment : Rests d g (spreadOrAssignment r) :=
  state_bind fun _ _ => ite (fun _ => next.bind fun _ => h.assignment.bind fun _ =>
    spanFrom_bind fun _ => done)
    fun _ => h.assignment

theorem arguments : Rests d g (arguments r) := by
  refine expect.bind fun _ => (allowingIn (repeatFrom fun _ _ => ?_)).bind fun _ =>
    expect.bind fun _ => done
  exact state_bind fun _ _ => ite (fun _ => done) fun _ =>
    (spreadOrAssignment h).bind fun _ => comma

theorem elementRound {elements : List (Option B.Expression)} :
    Rests d g (elementRound r elements) := by
  refine state_bind fun _ _ => ?_
  split
  · exact done
  · exact next.bind fun _ => done
  · refine (spreadOrAssignment h).bind fun _ => state_bind fun _ _ =>
      ite (fun _ => done) fun _ => ?_
    exact expect.bind fun _ => done

theorem arrayLiteral : Rests d g (arrayLiteral r) :=
  state_bind fun _ _ => next.bind fun _ =>
    (allowingIn (repeatFrom fun _ _ => elementRound h)).bind fun _ =>
    expect.bind fun _ => spanFrom_bind fun _ => done

theorem group : Rests d g (group r) :=
  next.bind fun _ => (allowingIn (expression h)).bind fun _ => expect.bind fun _ => done

theorem primary : Rests d g (primary r) := by
  refine state_bind fun _ _ => ?_
  split
  case h_1 => exact functionExpression h
  case h_2 => exact group h
  case h_3 => exact arrayLiteral h
  case h_4 => exact objectLiteral h
  case h_5 | h_6 | h_7 | h_8 | h_9 | h_10 => exact leaf
  case h_11 => exact reference
  case h_12 => exact ite (fun _ => unexpected) fun _ => reference
  case h_13 | h_14 => exact regexpLiteral
  case h_15 | h_16 | h_17 => exact fail rfl
  case h_18 => exact unexpected

theorem memberRound {start callee : Position} {chain : MemberChain B.Expression} :
    Rests d g (memberRound r start callee chain) := by
  refine state_bind fun _ _ => ?_
  dsimp only
  split
  · refine next.bind fun _ => state_bind fun _ _ => ite (fun _ => ?_) fun _ => unexpected
    exact next.bind fun _ => spanFrom_bind fun _ => done
  · refine next.bind fun _ => (allowingIn (expression h)).bind fun _ => expect.bind fun _ => ?_
    exact spanFrom_bind fun _ => done
  · refine (arguments h).bind fun _ => ?_
    split <;> exact spanFrom_bind fun _ => done
  · exact fail rfl
  · exact done

theorem leftHandSide : Rests d g (leftHandSide r) := by
  refine state_bind fun s _ => (repeatFrom fun _ _ => newRound).bind fun found => ?_
  obtain ⟨news, target⟩ := found
  have rest (callee : Position) (operand : B.Expression) : Rests d g (do
      let chain ← Parse.repeatFrom ⟨operand, news⟩ (Parse.memberRound r s.start callee)
      let stop := (← Parse.state).lastEnd
      Pure.pure (chain.news.foldl (fun e new => B.construct ⟨new, stop⟩ e none)
        chain.expression)) :=
    (repeatFrom fun _ _ => memberRound h).bind fun _ => state_bind fun _ _ => done
  refine state_bind fun _ _ => ?_
  cases target with
  | some target => exact rest _ _
  | none =>
    refine state_bind fun _ _ => ite (fun _ => superExpression.bind fun _ => rest _ _) fun _ => ?_
    exact (primary h).bind fun _ => rest _ _

/-! Patterns. -/

variable {form : BindingForm}

theorem patternTarget : Steps form.effect d g (patternTarget r form) := by
  refine ite (fun _ => bindingName.map) fun hf => state_bind fun _ _ => (leftHandSide h).bind
    fun target => ?_
  obtain rfl : form = .assignment := by simpa using hf
  refine ite (fun _ => ?_) fun _ => done
  split
  · exact await.seq fun _ _ => done
  · exact done

theorem patternDefault : Rests d g (patternDefault r) :=
  consume.bind fun _ => ite (fun _ => (allowingIn h.assignment).map) fun _ => done

theorem restElement {elements : List (Option (PatternElement B.Expression B.Pattern))} :
    Steps form.effect d g (restElement r form elements) := by
  refine next.bind fun _ => h.pattern.seq fun found _ => ?_
  cases found with
  | none => exact done
  | some p =>
    exact state_bind fun _ _ => ite (fun _ => done) fun _ => ite (fun _ => done) fun _ => fail rfl

theorem arrayPatternRound {elements : List (Option (PatternElement B.Expression B.Pattern))} :
    Steps form.effect d g (arrayPatternRound r form elements) := by
  refine state_bind fun _ _ => ?_
  split
  · exact done
  · exact next.bind fun _ => done
  · exact (restElement h).map
  · refine h.pattern.seq fun found _ => ?_
    cases found with
    | none => exact done
    | some p =>
      refine (patternDefault h).bind fun _ => spanFrom_bind fun _ => state_bind fun _ _ => ?_
      refine ite (fun _ => done) fun _ => ?_
      exact consume.bind fun _ => ite (fun _ => done) fun _ => noPattern.map

theorem arrayPattern : Steps form.effect d g (arrayPattern r form) := by
  refine state_bind fun _ _ => next.bind fun _ => (repeatFrom fun _ _ => arrayPatternRound h).seq
    fun found _ => ?_
  cases found with
  | none => exact done
  | some parts => exact next.bind fun _ => spanFrom_bind fun _ => done

theorem patternKey : Rests d g (patternKey r form) := by
  refine state_bind fun _ _ => ?_
  split
  · exact next.bind fun _ => done
  · exact next.bind fun _ => done
  · exact next.bind fun _ => (allowingIn h.assignment).bind fun _ => expect.bind fun _ => done
  · exact ite (fun _ => next.bind fun _ => done) fun _ => noPattern

theorem patternPropertyTarget {start : ParseState} {name? : Option String} :
    Steps form.effect d g (patternPropertyTarget r form start name?) := by
  refine consume.bind fun _ => ite (fun _ => h.pattern.seq fun _ _ => done) fun _ => ?_
  cases name? with
  | none => exact noPattern
  | some name => exact bindName.map

theorem patternProperty {properties : List (PatternProperty B.Expression B.Pattern)} :
    Steps form.effect d g (patternProperty r form properties) := by
  refine state_bind fun _ _ => (patternKey h).bind fun found => ?_
  cases found with
  | none => exact done
  | some key =>
    refine (patternPropertyTarget h).seq fun found _ => ?_
    cases found with
    | none => exact done
    | some target => exact (patternDefault h).bind fun _ => spanFrom_bind fun _ => done

theorem objectPattern : Steps form.effect d g (objectPattern r form) := by
  refine state_bind fun _ _ => next.bind fun _ => (repeatFrom fun _ _ => ?_).seq fun found _ => ?_
  · refine state_bind fun _ _ => ite (fun _ => done) fun _ =>
      (patternProperty h).seq fun found _ => ?_
    cases found with
    | none => exact done
    | some properties => exact comma
  · cases found with
    | none => exact done
    | some properties =>
      exact state_bind fun _ _ => ite (fun _ => next.bind fun _ => spanFrom_bind fun _ => done)
        fun _ => noPattern

theorem ofPattern : Steps form.effect d g (pattern r form) := by
  refine nested (state_bind fun _ _ => ?_)
  split
  · exact arrayPattern h
  · exact objectPattern h
  · exact patternTarget h

end Parse.Lands

end EcmaFront
