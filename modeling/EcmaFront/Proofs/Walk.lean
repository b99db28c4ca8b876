import EcmaFront.Proofs.Content
import EcmaFront.Proofs.Outline
import EcmaFront.Proofs.Sight

/-!
Relations between states that every step of a reading respects. Such a relation is followed from the
first state of a reading to the last, and collects on the way what occurs in the tree, in the order
of the tree. The steps of the grammar that go through no nonterminal are taken apart here; each
comes down to a few changes of the state that a relation has to respect.
-/

set_option autoImplicit false

namespace EcmaFront

open Parse (FunctionHeader Ends)
open Finding (items enclosures)

/-- A change of the frames by which no name is bound and none is used. -/
inductive Scopes.Touches : (Scopes → Scopes) → Prop where
  | write (name : String) : Touches (·.write name)
  | mark {change : Frame → Frame} (h : Frame.Marks change) : Touches (·.modifyTop change)
  | directSuper : Touches (·.modifyReceiver ({ · with directSuper := true }))
  | superBinding : Touches (·.modifyReceiver ({ · with superBinding := true }))
  | activate : Touches .activate

theorem Scopes.Touches.map {β : Type} {g : Frame → β} {change : Scopes → Scopes}
    (h : Touches change) {s : Scopes}
    (hw : ∀ f written labels loops switches, g { f with written, labels, loops, switches } = g f)
    (hs : ∀ f directSuper superBinding fullActivation,
      g { f with directSuper, superBinding, fullActivation } = g f) :
    (change s).frames.map g = s.frames.map g := by
  cases h with
  | write => exact map_modifyTop fun f => hw f _ _ _ _
  | mark h =>
    refine map_modifyTop fun f => ?_
    obtain ⟨_, _, _, hf⟩ := h f
    rw [hf]
    exact hw f _ _ _ _
  | directSuper => exact map_modifyFirst fun f => hs f _ _ _
  | superBinding => exact map_modifyFirst fun f => hs f _ _ _
  | activate => exact map_activate fun f => hs f _ _ _

theorem Scopes.Touches.outline {change : Scopes → Scopes} (h : Touches change) {s : Scopes} :
    (change s).outline = s.outline :=
  h.map (fun _ _ _ _ _ => rfl) fun _ _ _ _ => rfl

/-- The header belongs to a function expression or, if so said, to a declaration that may stand in
code that is strict or not. -/
structure Parse.FunctionHeader.Fits (h : FunctionHeader) (isDeclaration strict : Bool) : Prop where
  bindsOwnName : h.bindsOwnName = (!isDeclaration && h.mode == .plainFunction && h.name.isSome)
  allowed : isDeclaration = true → strict = true → h.name.any isRestricted = false

/-- Parameters were read up to the state. If it does not say that one of them is more than a name,
all are plain. -/
def ParseState.Tells (s : ParseState) (ps : List (Parameter Expr Pat)) : Prop :=
  s.richParameters = false → ∀ p ∈ ps, p.IsPlain

def ParseState.Admits (s : ParseState) (form : BindingForm) : Prop :=
  form = .catchParameter → s.scopes.top?.any (·.isBlock) = true

def ParseState.givenUp (s : ParseState) : Int := Event.givenUp s.events

theorem ParseState.givenUp_le {s s' : ParseState} (h : s'.events = s.events) :
    s.givenUp ≤ s'.givenUp :=
  Int.le_of_eq (congrArg Event.givenUp h).symm

namespace ParseState

theorem sight_next (s : ParseState) : s.next.sight = s.sight.next s.strict := rfl

theorem sight_readRegexp (s : ParseState) : s.readRegexp.sight = s.sight.regexp := rfl

def spot (s : ParseState) : Lexer × Token × Standing × Position :=
  (s.lexer, s.token, s.tokenStart, s.lastEnd)

/-- From one state the reading moves to another in the text. -/
def Moves (s s' : ParseState) : Prop := Sight.Moves false s.sight s'.sight

variable {s s₁ s' : ParseState}

theorem sight_congr (h : s'.spot = s.spot) (hs : s'.strict = s.strict) : s'.sight = s.sight := by
  simp only [spot, Prod.mk.injEq] at h
  simp only [sight, h, hs]

theorem Moves.of_sight (h : s'.sight = s.sight) : s.Moves s' := by
  rw [Moves, h]
  exact .refl _

theorem Moves.still (h : s'.spot = s.spot) (ho : s'.scopes.outline = s.scopes.outline) :
    s.Moves s' :=
  .of_sight (sight_congr h (Scopes.strict_congr ho))

theorem Moves.trans (h : s.Moves s₁) (h' : s₁.Moves s') : s.Moves s' := Sight.Moves.trans h h'

theorem Moves.next (s : ParseState) : s.Moves s.next := (Sight.Step.next s.strict).moves.forget

theorem sight_leave (h : s'.spot = s.spot) : s'.next.sight = s.sight.next s'.strict := by
  simp only [spot, Prod.mk.injEq] at h
  rw [sight_next]
  simp only [sight, Sight.next, h]
  rfl

theorem Moves.leave (h : s'.spot = s.spot) : s.Moves s'.next := by
  rw [Moves, sight_leave h]
  exact (Sight.Step.next _).moves.forget

theorem Moves.view (h : s.Moves s') : s'.lexer.view = s.lexer.view := Sight.Moves.view h

theorem sight_rewind (hv : s'.lexer.view = s.lexer.view) :
    (s'.rewind s.checkpoint).sight = s.sight.reread (s'.rewind s.checkpoint).strict := by
  have hl : s'.lexer.goTo s.tokenStart = s.lexer.goTo s.tokenStart := by
    rw [Lexer.goTo, Lexer.goTo, hv]
  simp only [rewind, checkpoint, lex, hl]
  rfl

theorem Moves.rewind (hv : s'.lexer.view = s.lexer.view) : s.Moves (s'.rewind s.checkpoint) := by
  rw [Moves, sight_rewind hv]
  exact (Sight.Step.reread _).moves

theorem Moves.backtrack (hv : s'.lexer.view = s.lexer.view) : s.Moves (s'.backtrack s.checkpoint) :=
  @Moves.rewind s { s' with events := _ } hv

theorem Glances.moves (h : s.Glances s') : s.Moves s' := by
  cases h with
  | none => exact .of_sight rfl
  | back h => exact .rewind h.view

end ParseState

/-- One state leads to another by way of a part of a tree. The same frames are open then. -/
structure Leading {α : Type} (leads : ParseState → List α → ParseState → Prop)
    (Holds : Int → Enclosure α → Prop) (s : ParseState) (l : List (Finding α)) (s' : ParseState) :
    Prop where
  leads : leads s (items l) s'
  holds : ∀ e ∈ enclosures l, Holds s'.givenUp e
  outline : s'.scopes.outline = s.scopes.outline
  rich : s'.richParameters = false → s.richParameters = false
  givenUp : s.givenUp ≤ s'.givenUp
  moves : s.Moves s'

/-- A body is read from one state as it was read from the other, but perhaps as strict code. A
function turns strict only if its parameters are plain. -/
structure Turning (turns : ParseState → ParseState → Prop) (s s' : ParseState) : Prop where
  turns : turns s s'
  outline : s'.scopes.outline = s.scopes.outline ∨
    s'.scopes.outline = turnedStrict s.scopes.outline ∧
      (s.scopes.function?.any (·.isFunction) = true → s.richParameters = false)
  rich : s'.richParameters = false → s.richParameters = false
  givenUp : s.givenUp ≤ s'.givenUp
  moves : s.Moves s'

theorem Turning.inBlock {turns : ParseState → ParseState → Prop} {s s' : ParseState}
    (h : Turning turns s s') :
    s'.scopes.top?.any (·.isBlock) = s.scopes.top?.any (·.isBlock) :=
  h.outline.elim Scopes.inBlock_congr fun ho => Scopes.inBlock_of_turnedStrict ho.1

theorem Turning.strict {turns : ParseState → ParseState → Prop} {s s' : ParseState}
    (h : Turning turns s s') (hs : s.strict = true) : s'.strict = true :=
  h.outline.elim (fun ho => (Scopes.strict_congr ho).trans hs) fun ho =>
    Scopes.strict_of_turnedStrict ho.1 hs

/-- From `s`, inside its frame, a function is read and its frame is left. -/
structure RunsInside {α : Type} (leads : ParseState → List α → ParseState → Prop)
    (turns : ParseState → ParseState → Prop) (Holds : Int → Enclosure α → Prop) (x : Collector α)
    (c : ParseContext) (h : FunctionHeader) (s : ParseState) (f : Function) (s' : ParseState) :
    Prop where
  name : f.name = h.name
  mode : f.mode = h.mode
  inside : ∃ s₁ s₂ s₃ s₄, Leading leads Holds s (x.enclosing.parameters f.parameters) s₁ ∧
    s₁.Tells f.parameters ∧ Turning turns s₁ s₂ ∧
    Leading leads Holds s₂ (x.enclosing.functionBody f.body) s₃ ∧
    Parse.finishFunction c s₃ = (.ok f.scope, s₄) ∧ Leading leads Holds s₄ [] s'
  /-- The token behind the function is read as code of the mode around it. -/
  moves : s'.strict = s.strict → s.Moves s'
  body : ∃ mayGiveUp outerIn s₁, s₁.scopes.outline = s.scopes.outline ∧
    Reading .tree mayGiveUp c (.functionBody h outerIn) s₁ (f.body, f.scope) s'

/-- What a collector finds inside a function. -/
def Function.enclosure {α : Type} (f : Function) (x : Collector α) (isDeclaration : Bool) :
    Enclosure α :=
  ⟨some ⟨f, isDeclaration⟩, f.scope, items (x.enclosing.inside f)⟩

/-- A relation between states, with what was found on the way from the one to the other, and what
holds of every function on the way, if so many readings were given up. A state turns into another if
it is read from again as strict code. -/
structure Walk {α : Type} (x : Collector α) (c : ParseContext)
    (Holds : Int → Enclosure α → Prop) where
  keeps : ∀ {n n' : Int} {e}, n ≤ n' → Holds n e → Holds n' e
  leads : ParseState → List α → ParseState → Prop
  turns : ParseState → ParseState → Prop
  trans : ∀ {s s₁ s' l l'}, s₁.scopes.outline = s.scopes.outline → leads s l s₁ → leads s₁ l' s' →
    leads s (l ++ l') s'
  settle : ∀ {s s' : ParseState}, s'.scopes = s.scopes → s'.journal = s.journal →
    s'.pendingWrites = s.pendingWrites → leads s [] s'
  touch : ∀ {s change}, Scopes.Touches change → leads s [] (s.onScopes change)
  firstAccessor : ∀ s offset, leads s [] (s.record (.firstAccessor offset))
  reference : ∀ s name, leads s (x.leaf (.reference name)) (s.onScopes (·.use name))
  bind : ∀ {s form name}, s.Admits form → form ≠ .assignment →
    Parse.bindingFault? form name (Parse.declarationOf name form s.scopes).2 s.strict = none →
    leads s (x.leaf (.binding form name))
      (s.onScopes fun scopes => (Parse.declarationOf name form scopes).1)
  bindFunction : ∀ {s name},
    Parse.functionNameFault? name (s.scopes.declare name (Parse.functionNameKind s)).2
    s.strict = none →
    leads s (x.leaf (.functionName name))
      (s.onScopes fun scopes => (scopes.declare name (Parse.functionNameKind s)).1)
  write : ∀ {s name}, (s.strict && isRestricted name) = false →
    leads s (x.leaf (.write name)) (s.onScopes (·.write name))
  await : ∀ s name extent, leads s (x.leaf (.target name)) (s.awaitWrite (some name) extent)
  commit : ∀ {s s₁ s' l}, s₁.scopes.outline = s.scopes.outline → leads s l s₁ →
    Parse.commitWrites s.checkpoint c s₁ = (.ok (), s') → leads s (x.assigned l) s'
  withObject : ∀ {s}, s.strict = false → leads s (x.leaf .withObject) s
  delete : ∀ {s} name, s.strict = false → leads s (x.leaf (.delete name)) s
  loneFunction : ∀ {s}, s.strict = false → leads s (x.leaf .loneFunction) s
  block : ∀ {s s₁ s' l scope}, s₁.scopes.outline = (s.scopes.pushBlock).outline →
    leads (s.onScopes .pushBlock) l s₁ → Parse.finishBlock c s₁ = (.ok scope, s') →
    leads s (x.block scope l) s'
  function : ∀ {s s₁ s'} {h : FunctionHeader} {f : Function} {isDeclaration : Bool},
    h.Fits isDeclaration s.strict →
    RunsInside leads turns Holds x c h (s.enter h) f s₁ →
    Parse.recordFunction f c (s₁.leaveTo s) = (.ok (), s') →
    Holds s'.givenUp (f.enclosure x isDeclaration) ∧
      leads s (x.function ⟨f, isDeclaration⟩ (f.enclosure x isDeclaration).found) s'
  unturned : ∀ s, turns s s
  turn : ∀ {s₀ s s₁ s₂ directive offset}, Turning turns s₀ s → leads s [] s₁ →
    s₁.scopes.outline = s.scopes.outline → s₁.strict = false →
    Parse.enableStrict directive c s₁ = (.ok (), s₂) →
    (s₂.restart offset s₀.checkpoint).scopes = s₂.scopes →
      turns s₀ (s₂.restart offset s₀.checkpoint)
  giveUp : ∀ {s s' : ParseState}, List.Forall₂ Frame.Grown s.scopes.frames s'.scopes.frames →
    s'.pendingWrites = s.pendingWrites → s.givenUp < s'.givenUp → leads s [] s'

namespace Walk

variable {α : Type} {x : Collector α} {c : ParseContext} {Holds : Int → Enclosure α → Prop}
  (w : Walk x c Holds)

abbrev Leads : ParseState → List (Finding α) → ParseState → Prop := Leading w.leads Holds

abbrev Turns : ParseState → ParseState → Prop := Turning w.turns

end Walk

namespace Parse

variable {c : ParseContext} {s s' : ParseState}

structure OnlyScopes (s s' : ParseState) : Prop where
  richParameters : s'.richParameters = s.richParameters
  pendingWrites : s'.pendingWrites = s.pendingWrites
  events : s'.events = s.events
  spot : s'.spot = s.spot

theorem writeAll_ok {β : Type} {g : Frame → β} (hg : ∀ f name, g (f.write name) = g f)
    {writes : List (String × Extent)} (h : writeAll writes c s = (.ok (), s')) :
    s'.scopes.frames.map g = s.scopes.frames.map g ∧ OnlyScopes s s' := by
  induction writes generalizing s with
  | nil => exact (pure_ok.1 h).2 ▸ ⟨rfl, rfl, rfl, rfl, rfl⟩
  | cons first rest ih =>
    simp only [writeAll, bind_ok, write, state_bind, ite_ok, failAt_ok, and_false, false_or,
      modifyScopes_run, Prod.mk.injEq, true_and] at h
    obtain ⟨_, _, ⟨-, rfl⟩, hr⟩ := h
    obtain ⟨hs, hi⟩ := ih hr
    exact ⟨hs.trans (Scopes.map_modifyTop fun f => hg f first.1), hi.1, hi.2, hi.3, hi.4⟩

theorem commitWrites_ok {β : Type} {g : Frame → β} (hg : ∀ f name, g (f.write name) = g f)
    {point : Checkpoint} (h : commitWrites point c s = (.ok (), s')) :
    s'.scopes.frames.map g = s.scopes.frames.map g ∧ OnlyScopes (s.commit point) s' :=
  writeAll_ok hg (show writeAll (s.awaiting point) c (s.commit point) = (.ok (), s') from h)

theorem onlyScopes_finishBlock {scope : Environment} (h : finishBlock c s = (.ok scope, s')) :
    OnlyScopes s s' := by
  obtain ⟨-, rfl⟩ | ⟨_, _, -, -, rfl⟩ := finishBlock_ok h <;> exact ⟨rfl, rfl, rfl, rfl⟩

theorem onlyScopes_finishFunction {scope : ScopeSummary}
    (h : finishFunction c s = (.ok scope, s')) :
    OnlyScopes s s' := by
  obtain ⟨-, rfl⟩ | ⟨_, _, -, -, rfl⟩ := finishFunction_ok h <;> exact ⟨rfl, rfl, rfl, rfl⟩

theorem recordFunction_ok {f : Function} (h : recordFunction f c s = (.ok (), s')) :
    s'.scopes = s.scopes ∧ s'.richParameters = s.richParameters ∧
    s'.pendingWrites = s.pendingWrites ∧
      s'.givenUp = s.givenUp ∧ s'.spot = s.spot := by
  simp only [recordFunction, context_bind, ite_ok, emit_bind, modify_run, pure_ok,
    Prod.mk.injEq, true_and] at h
  obtain ⟨-, rfl⟩ | ⟨-, rfl⟩ := h
  · refine ⟨rfl, rfl, rfl, ?_, rfl⟩
    show Event.givenUp (.recordedFunction _ _ _ :: s.events) = _
    simp [ParseState.givenUp, Event.givenUp, Event.isWentBack, Event.isStrictDirective]
  · exact ⟨rfl, rfl, rfl, rfl, rfl⟩

theorem unrestricted_of_functionNameFault? {scopes : Scopes} {name : String} {kind : VariableKind}
    (h : functionNameFault? name (scopes.declare name kind).2 true = none) :
    isRestricted name = false := by
  unfold functionNameFault? at h
  split at h
  · cases h
  · next hc => exact Scopes.strict_of_declare (by simpa using hc)

theorem enableStrict_ok {directive : Extent} (h : enableStrict directive c s = (.ok (), s')) :
    s' = s ∧ s.scopes.function? = none ∨
    s' = s.onScopes (·.modifyFunction ({ · with strict := true })) ∧
      ∃ frame, s.scopes.function? = some frame ∧
      (frame.isFunction = true → s.richParameters = false) ∧
        frame.strictValid = true ∧ frame.repeatedParameter = false ∧
        frame.name.any isStrictReserved = false ∧
        frame.parameters.any isStrictReserved = false := by
  simp only [enableStrict, state_bind] at h
  replace h : Yields _ c s _ := h
  split at h
  · next hf => exact .inl ⟨(pure_ok.1 h).2, hf⟩
  · next frame hf =>
    simp only [Yields, ite_ok, failAt_ok, and_false, false_or, modifyScopes_bind, pure_ok] at h
    obtain ⟨hr, hv, -, rfl⟩ := h
    refine .inr ⟨rfl, frame, hf, fun hk => ?_, ?_⟩
    · simpa [hk] using hr
    · simpa [and_assoc] using hv

end Parse

namespace Walk

open Parse

variable {α : Type} {x : Collector α} {c : ParseContext} {Holds : Int → Enclosure α → Prop}
  {w : Walk x c Holds} {s s₀ s₁ s₂ s' : ParseState} {l l' : List (Finding α)}

theorem nothing (h : w.leads s [] s') (ho : s'.scopes.outline = s.scopes.outline)
    (hr : s'.richParameters = s.richParameters) (hg : s.givenUp ≤ s'.givenUp) (hm : s.Moves s') :
    w.Leads s [] s' :=
  ⟨h, by simp, ho, fun h => hr ▸ h, hg, hm⟩

theorem settled (h : s.Resembles s') (hm : s.Moves s') : w.Leads s [] s' :=
  nothing (w.settle h.scopes h.journal h.pendingWrites) (congrArg _ h.scopes) h.richParameters
    (ParseState.givenUp_le (congrArg Journal.events h.journal)) hm

theorem glanced (h : s.Glances s') : w.Leads s [] s' := settled h.resembles h.moves

theorem still (h : s.Resembles s') (hs : s'.spot = s.spot) : w.Leads s [] s' :=
  settled h (.still hs (congrArg _ h.scopes))

theorem refl (s : ParseState) : w.Leads s [] s := still (.refl s) rfl

theorem append (h : w.Leads s l s₁) (h' : w.Leads s₁ l' s') : w.Leads s (l ++ l') s' where
  leads := by
    rw [Finding.items_append]
    exact w.trans h.outline h.leads h'.leads
  holds e he := by
    rw [Finding.enclosures_append, List.mem_append] at he
    exact he.elim (fun he => w.keeps h'.givenUp (h.holds e he)) (h'.holds e)
  outline := h'.outline.trans h.outline
  rich hr := h.rich (h'.rich hr)
  givenUp := Int.le_trans h.givenUp h'.givenUp
  moves := h.moves.trans h'.moves

theorem append_nil (h : w.Leads s l s₁) (h' : w.Leads s₁ [] s') : w.Leads s l s' := by
  simpa only [List.append_nil] using append h h'

theorem nil_append (h : w.Leads s [] s₁) (h' : w.Leads s₁ l s') : w.Leads s l s' := append h h'

theorem next (s : ParseState) : w.Leads s [] s.next := settled ⟨rfl, rfl, rfl, rfl⟩ (.next s)

theorem readRegexp (hk : s.kind = .slash ∨ s.kind = .slashEqual) :
    w.Leads s [] s.readRegexp.next := by
  refine settled ⟨rfl, rfl, rfl, rfl⟩ ?_
  rw [ParseState.Moves, ParseState.sight_next, ParseState.sight_readRegexp]
  exact (Sight.Step.regexp hk).moves.forget

theorem after_next (h : w.Leads s.next l s') : w.Leads s l s' := nil_append (next s) h

theorem then_next (h : w.Leads s l s') : w.Leads s l s'.next := append_nil h (next s')

theorem leaf {o : Occurrence} (h : w.leads s (x.leaf o) s')
    (ho : s'.scopes.outline = s.scopes.outline) (hr : s'.richParameters = s.richParameters)
    (hg : s'.events = s.events) (hs : s'.spot = s.spot) : w.Leads s (x.enclosing.leaf o) s' where
  leads := by rwa [Collector.items_leaf]
  holds e he := by simp at he
  outline := ho
  rich h := hr ▸ h
  givenUp := ParseState.givenUp_le hg
  moves := .still hs ho

theorem commit_pattern (h : w.Leads s l s₁) (hw : commitWrites s.checkpoint c s₁ = (.ok (), s')) :
    w.Leads s (x.enclosing.assigned l) s' where
  leads := by
    rw [Collector.items_assigned]
    exact w.commit h.outline h.leads hw
  holds e he := by
    rw [Collector.enclosures_assigned] at he
    exact w.keeps (ParseState.givenUp_le
      (commitWrites_ok (g := Frame.outline) (fun _ _ => rfl) hw).2.events)
      (h.holds e he)
  outline := (commitWrites_ok (fun _ _ => rfl) hw).1.trans h.outline
  rich hr := h.rich ((commitWrites_ok (g := Frame.outline) (fun _ _ => rfl) hw).2.richParameters ▸
    hr)
  givenUp := Int.le_trans h.givenUp
    (ParseState.givenUp_le (commitWrites_ok (g := Frame.outline) (fun _ _ => rfl) hw).2.events)
  moves := h.moves.trans (.still (commitWrites_ok (g := Frame.outline) (fun _ _ => rfl) hw).2.spot
    (commitWrites_ok (fun _ _ => rfl) hw).1)

theorem inBlock {scope : Environment} (h : w.Leads (s.onScopes .pushBlock) l s₁)
    (hf : finishBlock c s₁ = (.ok scope, s')) : w.Leads s (x.enclosing.block scope l) s' where
  leads := by
    rw [Collector.items_block]
    exact w.block h.outline h.leads hf
  holds e he := by
    rw [Collector.enclosures_block] at he
    exact w.keeps (ParseState.givenUp_le (onlyScopes_finishBlock hf).events) (h.holds e he)
  outline := by
    rw [outline_finishBlock hf, h.outline]
    rfl
  rich hr := h.rich ((onlyScopes_finishBlock hf).richParameters ▸ hr)
  givenUp := Int.le_trans h.givenUp (ParseState.givenUp_le (onlyScopes_finishBlock hf).events)
  moves := by
    have ho : s'.scopes.outline = s.scopes.outline := by
      rw [outline_finishBlock hf, h.outline]
      rfl
    have hs : s'.strict = s₁.strict :=
      (Scopes.strict_congr ho).trans (Scopes.strict_congr h.outline).symm
    have hsight : s'.sight = s₁.sight := ParseState.sight_congr (onlyScopes_finishBlock hf).spot hs
    exact .trans (.of_sight rfl) (h.moves.trans (.of_sight hsight))

theorem leaves {scope : ScopeSummary} (h : w.Leads s l s₁)
    (hf : finishFunction c s₁ = (.ok scope, s')) (hs : s'.strict = s.strict) : s.Moves s' :=
  h.moves.trans (.of_sight (ParseState.sight_congr (onlyScopes_finishFunction hf).spot
    (hs.trans (Scopes.strict_congr h.outline).symm)))

theorem RunsInside.outline {leads : ParseState → List α → ParseState → Prop}
    {turns : ParseState → ParseState → Prop} {h : FunctionHeader} {f : Function}
    (hr : RunsInside leads turns Holds x c h (s.enter h) f s') :
    s'.scopes.outline = s.scopes.outline := by
  obtain ⟨s₁, s₂, s₃, s₄, hp, -, ht, hb, hf, hn⟩ := hr.inside
  have hs : s₁.scopes.outline = (h.frame s.strict).outline :: s.scopes.outline := hp.outline
  rw [hn.outline, outline_finishFunction hf, hb.outline]
  obtain ho | ⟨ho, -⟩ := ht.outline
  · rw [ho, hs, List.tail_cons]
  · rw [ho, hs]
    rfl

theorem throughFunction {h : FunctionHeader} {f : Function} {isDeclaration : Bool}
    (hh : h.Fits isDeclaration s.strict)
    (hr : RunsInside w.leads w.turns Holds x c h (s.enter h) f s₁)
    (hd : recordFunction f c (s₁.leaveTo s) = (.ok (), s')) :
    w.Leads s (x.enclosing.function ⟨f, isDeclaration⟩ (x.enclosing.inside f)) s' := by
  obtain ⟨he, hl⟩ := w.function hh hr hd
  obtain ⟨hs, hi, -, hg, hp⟩ := recordFunction_ok hd
  have ho : s₁.scopes.outline = s.scopes.outline := RunsInside.outline hr
  have hv : s₁.strict = (s.enter h).strict := Scopes.strict_congr (s := s.scopes) ho
  have hm : s.Moves s' := .trans (.of_sight rfl)
    ((hr.moves hv).trans (.of_sight (ParseState.sight_congr hp (congrArg Scopes.strict hs))))
  obtain ⟨t₁, t₂, t₃, t₄, hp, -, ht, hb, hf, hn⟩ := hr.inside
  have hg₁ : s.givenUp ≤ t₁.givenUp := hp.givenUp
  have hg₃ : t₃.givenUp ≤ s'.givenUp := by
    rw [hg]
    exact Int.le_trans (ParseState.givenUp_le (onlyScopes_finishFunction hf).events) hn.givenUp
  have hg₂ : t₁.givenUp ≤ s'.givenUp := Int.le_trans ht.givenUp (Int.le_trans hb.givenUp hg₃)
  refine ⟨by rwa [Collector.items_function], fun e hm => ?_, ?_, fun h => hi ▸ h,
    Int.le_trans hg₁ hg₂, hm⟩
  · rw [Collector.enclosures_function, Collector.inside, Finding.enclosures_append, List.mem_append,
      List.mem_append, List.mem_singleton] at hm
    obtain (hm | hm) | rfl := hm
    · exact w.keeps hg₂ (hp.holds e hm)
    · exact w.keeps hg₃ (hb.holds e hm)
    · exact he
  · rw [hs]
    exact ho

theorem stay (s : ParseState) : w.Turns s s :=
  ⟨w.unturned s, .inl rfl, id, Int.le_refl _, .of_sight rfl⟩

theorem turned {directive : Extent} {offset : Nat} (ht : w.Turns s₀ s) (h : w.Leads s [] s₁)
    (hs : s₁.strict = false) (he : enableStrict directive c s₁ = (.ok (), s₂)) :
    w.Turns s₀ (s₂.restart offset s₀.checkpoint) := by
  have ho : s₂.scopes.outline = s₀.scopes.outline ∨
      s₂.scopes.outline = turnedStrict s₀.scopes.outline ∧
      (s₀.scopes.function?.any (·.isFunction) = true → s₀.richParameters = false) := by
    obtain ⟨rfl, -⟩ | ⟨rfl, frame, hf, hr, -⟩ := enableStrict_ok he
    · exact ht.outline.imp h.outline.trans fun ⟨ho, hr⟩ => ⟨h.outline.trans ho, hr⟩
    · have hk : s₁.scopes.function?.any (·.isFunction) = true →
          s₀.richParameters = false := fun hk =>
        ht.rich (h.rich (hr (by simpa [hf] using hk)))
      refine .inr ⟨Scopes.outline_strict.trans ?_, fun hs => hk ?_⟩
      · rw [h.outline]
        obtain ho | ⟨ho, -⟩ := ht.outline
        · rw [ho]
        · rw [ho, turnedStrict_idem]
      · rw [Scopes.isFunction_congr h.outline]
        obtain ho | ⟨ho, -⟩ := ht.outline
        · rwa [Scopes.isFunction_congr ho]
        · rwa [Scopes.isFunction_of_turnedStrict ho]
  have hd : (s₂.restart offset s₀.checkpoint).scopes = s₂.scopes := by
    refine Scopes.truncate_of_outline (?_ : s₂.scopes.outline.length = s₀.scopes.outline.length)
    obtain ho | ⟨ho, -⟩ := ho
    · rw [ho]
    · rw [ho, length_turnedStrict]
  have hv : s₂.lexer.view = s₀.lexer.view := by
    obtain ⟨rfl, -⟩ | ⟨rfl, -⟩ := enableStrict_ok he <;> exact h.moves.view.trans ht.moves.view
  refine ⟨w.turn ht h.leads h.outline hs he hd, hd ▸ ho, id, ?_, .rewind hv⟩
  have hg : (s₂.restart offset s₀.checkpoint).givenUp = s₁.givenUp := by
    obtain ⟨rfl, -⟩ | ⟨rfl, -⟩ := enableStrict_ok he <;> exact ParseState.givenUp_restart _ offset _
  exact hg ▸ Int.le_trans ht.givenUp h.givenUp

theorem admits (h : w.Leads s l s') {form : BindingForm} (hf : s.Admits form) : s'.Admits form :=
  fun he => (Scopes.inBlock_congr h.outline).trans (hf he)

/-! Single steps. -/

theorem deeper (s : ParseState) : w.Leads s [] s.deeper := still ⟨rfl, rfl, rfl, rfl⟩ rfl

theorem shallower (s : ParseState) : w.Leads s [] s.shallower := still ⟨rfl, rfl, rfl, rfl⟩ rfl

theorem allow (s : ParseState) (allowed : Bool) : w.Leads s [] (s.allow allowed) :=
  still ⟨rfl, rfl, rfl, rfl⟩ rfl

theorem touched {change : Scopes → Scopes} (h : Scopes.Touches change) (s : ParseState) :
    w.Leads s [] (s.onScopes change) :=
  nothing (w.touch h) h.outline rfl (ParseState.givenUp_le rfl) (.still rfl h.outline)

theorem noteAccessor (s : ParseState) (names : PropertyNames) :
    w.Leads s [] (s.noteAccessor names) := by
  unfold ParseState.noteAccessor
  split
  · refine nothing (w.firstAccessor s s.token.extent.start) rfl rfl
      (Int.le_of_eq ?_) (.of_sight rfl)
    show Event.givenUp s.events = Event.givenUp (.firstAccessor _ :: s.events)
    simp [Event.givenUp, Event.isWentBack, Event.isStrictDirective]
  · exact refl s

theorem noteRich (s : ParseState) : w.Leads s [] s.noteRich :=
  ⟨w.settle rfl rfl rfl, by simp, rfl, nofun, Int.le_refl _, .of_sight rfl⟩

theorem beginLoop (s : ParseState) : w.Leads s [] (s.onScopes .beginLoop) :=
  touched (.mark fun _ => ⟨_, _, _, rfl⟩) s

theorem endLoop (s : ParseState) : w.Leads s [] (s.onScopes .endLoop) :=
  touched (.mark fun _ => ⟨_, _, _, rfl⟩) s

theorem beginSwitch (s : ParseState) : w.Leads s [] (s.onScopes .beginSwitch) :=
  touched (.mark fun _ => ⟨_, _, _, rfl⟩) s

theorem endSwitch (s : ParseState) : w.Leads s [] (s.onScopes .endSwitch) :=
  touched (.mark fun _ => ⟨_, _, _, rfl⟩) s

theorem pushLabel (s : ParseState) (name : String) (isLoop : Bool) :
    w.Leads s [] (s.onScopes (·.pushLabel name isLoop)) :=
  touched (.mark fun _ => ⟨_, _, _, rfl⟩) s

theorem popLabel (s : ParseState) : w.Leads s [] (s.onScopes .popLabel) :=
  touched (.mark fun _ => ⟨_, _, _, rfl⟩) s

theorem colonFollows {found : Bool} (hk : s.kind = .identifier)
    (h : colonFollows c s = (.ok found, s')) :
    w.Leads s [] s' := by
  refine settled (colonFollows_resembles h) ?_
  simp only [Parse.colonFollows, ask_run, Prod.mk.injEq] at h
  obtain ⟨-, rfl⟩ := h
  exact (Sight.Step.lookAhead hk).moves

theorem ends (h : Ends s s') : w.Leads s [] s' := by
  cases h with
  | semicolon => exact next s
  | omitted => exact refl s

theorem writeNames {names : List String} (h : writeNames names c s = (.ok (), s')) :
    w.Leads s [] s' := by
  simp only [Parse.writeNames, modifyScopes_run, Prod.mk.injEq, true_and] at h
  subst h
  induction names generalizing s with
  | nil => exact refl s
  | cons name rest ih => exact nil_append (touched (.write name) s) ih

theorem takeBoundNames {mark : Nat} {names : List String}
    (h : takeBoundNames mark c s = (.ok names, s')) :
    w.Leads s [] s' := by
  simp only [Parse.takeBoundNames, ask_run, Prod.mk.injEq, Except.ok.injEq] at h
  obtain ⟨-, rfl⟩ := h
  exact still ⟨rfl, rfl, rfl, rfl⟩ rfl

theorem noteAssignment {target : Expr} {extent : Extent}
    (h : noteAssignment .tree target extent c s = (.ok (), s')) :
    w.Leads s (x.enclosing.named .write target) s' := by
  simp only [Parse.noteAssignment] at h
  unfold Collector.named
  cases hn : target.name? with
  | some name =>
    simp only [hn, Parse.write, state_bind, ite_ok, failAt_ok, and_false, false_or,
      modifyScopes_run, Prod.mk.injEq, true_and] at h
    obtain ⟨hs, rfl⟩ := h
    exact leaf (w.write (by simpa using hs)) (Scopes.outline_modifyTop fun _ => rfl) rfl rfl rfl
  | none =>
    simp only [hn] at h
    obtain ⟨-, rfl⟩ := pure_ok.1 h
    exact refl _

theorem awaitWrite (s : ParseState) (e : Expr) (extent : Extent) :
    w.Leads s (x.enclosing.named .target e) (s.awaitWrite e.name? extent) := by
  unfold Collector.named
  cases e.name? with
  | some name => exact leaf (w.await s name extent) rfl rfl rfl rfl
  | none => exact refl s

theorem declareBinding {form : BindingForm} {name : String} {extent : Extent} (ha : s.Admits form)
    (hn : form ≠ .assignment) (h : declareBinding form name extent c s = (.ok (), s')) :
    w.Leads s (x.enclosing.leaf (.binding form name)) s' := by
  simp only [Parse.declareBinding, Parse.declaring, ask_bind, state_bind] at h
  replace h : Yields _ c _ _ := h
  split at h
  · simp [Yields] at h
  · next hf =>
    have ho : (s.onScopes fun scopes => (declarationOf name form scopes).1).scopes.outline =
        s.scopes.outline :=
      Scopes.outline_declarationOf name form
    have hs : ParseState.strict { s with scopes := (declarationOf name form s.scopes).1 } =
        s.strict :=
      Scopes.strict_congr ho
    rw [hs] at hf
    have hd : w.Leads s (x.enclosing.leaf (.binding form name))
        (s.onScopes fun scopes => (declarationOf name form scopes).1) :=
        leaf (w.bind ha hn hf) ho rfl rfl rfl
    split at h
    · simp only [Yields, modify_run, Prod.mk.injEq, true_and] at h
      subst h
      exact append_nil hd (still ⟨rfl, rfl, rfl, rfl⟩ rfl)
    · obtain ⟨-, rfl⟩ := pure_ok.1 h
      exact hd

theorem bindName {form : BindingForm} {name : String} {start : Position} {extent : Extent} {p : Pat}
    (ha : s.Admits form) (h : bindName .tree form name start extent c s = (.ok p, s')) :
    w.Leads s (x.enclosing.pat form p) s' := by
  simp only [Parse.bindName, spanFrom_bind] at h
  replace h : Yields _ c s _ := h
  split at h
  · simp only [Yields, modifyScopes_bind, modify_bind, pure_ok] at h
    obtain ⟨rfl, rfl⟩ := h
    simp only [Collector.pat, Collector.expr, Collector.named, Expr.name?]
    exact append (leaf (w.reference s name) (Scopes.outline_modifyTop fun _ => rfl) rfl rfl rfl)
      (leaf (w.await _ name extent) rfl rfl rfl rfl)
  · next hn =>
    simp only [Yields, bind_ok, pure_ok] at h
    obtain ⟨_, _, hd, rfl, rfl⟩ := h
    exact declareBinding ha hn hd

theorem bindingName {form : BindingForm} {p : Pat} (ha : s.Admits form)
    (h : bindingName .tree form c s = (.ok p, s')) :
    w.Leads s.next (x.enclosing.pat form p) s' := by
  simp only [Parse.bindingName, state_bind, ite_ok, next_bind, unexpected_ok,
    and_false, or_false] at h
  exact bindName ha h.2

theorem binding_of_bindingName {form : BindingForm} {p : Pat} (hf : form ≠ .assignment)
    (h : Parse.bindingName .tree form c s = (.ok p, s')) : ∃ span name, p = .binding span name := by
  simp only [Parse.bindingName, state_bind, ite_ok, next_bind, unexpected_ok, and_false, or_false,
    Parse.bindName, spanFrom_bind] at h
  cases form with
  | assignment => exact absurd rfl hf
  | _ =>
    simp only [bind_ok, pure_ok] at h
    obtain ⟨-, _, _, -, rfl, -⟩ := h
    exact ⟨_, _, rfl⟩

theorem declaresFunction {name : String} {conflicts : Conflicts}
    (h : declaring (·.declare name (functionNameKind s)) c s = (.ok conflicts, s'))
    (hn : functionNameFault? name conflicts s.strict = none) :
    w.Leads s (x.enclosing.leaf (.functionName name)) s' := by
  simp only [Parse.declaring, ask_run, Prod.mk.injEq, Except.ok.injEq] at h
  obtain ⟨rfl, rfl⟩ := h
  exact leaf (w.bindFunction hn) (Scopes.outline_declare name _) rfl rfl rfl

theorem superExpression {a : Expr} (h : superExpression (B := .tree) c s = (.ok a, s')) :
    w.Leads s.next (x.enclosing.expr a) s' := by
  simp only [Parse.superExpression, state_bind, next_bind] at h
  replace h : Yields _ c _ _ := h
  split at h
  all_goals
    simp only [Yields, bind_ok, ite_ok, modifyScopes_run, failAt_ok, and_false, or_false,
      Prod.mk.injEq, spanFrom_bind, pure_ok, false_and, exists_false] at h
  · obtain ⟨-, _, _, ⟨-, rfl⟩, rfl, rfl⟩ := h
    exact touched .directSuper _
  all_goals
    obtain ⟨-, _, _, ⟨-, rfl⟩, rfl, rfl⟩ := h
    exact touched .superBinding _

theorem newTarget {a : Expr} {new : ParseState} (h : newTarget (B := .tree) new c s = (.ok a, s')) :
    w.Leads s (x.enclosing.expr a) s' := by
  simp only [Parse.newTarget, state_bind, ite_ok, unexpected_ok, and_false, false_or, next_bind,
    spanFrom_bind, pure_ok, failAt_ok, or_false] at h
  obtain ⟨-, -, rfl, rfl⟩ := h
  exact next s

theorem jump {labelFault? : String → Option Label → Option Cause} {allowed : Scopes → Bool}
    {outside : Cause} {make : Span → Option String → Stmt} {a : Stmt}
    (h : jump (B := .tree) labelFault? allowed outside make c s = (.ok a, s')) :
    w.Leads s.next [] s' ∧ ∃ span label, a = make span label := by
  simp only [Parse.jump, state_bind, next_bind] at h
  replace h : Yields _ c _ _ := h
  split at h
  · replace h : Yields _ c _ _ := h
    split at h
    · simp [Yields] at h
    · simp only [Yields, next_bind, bind_ok, spanFrom_run, Prod.mk.injEq, Except.ok.injEq] at h
      obtain ⟨_, _, he, _, _, ⟨-, rfl⟩, h⟩ := h
      obtain ⟨rfl, rfl⟩ := pure_ok.1 h
      exact ⟨after_next (ends (ends_of_consumeSemicolon he)), _, _, rfl⟩
  · simp [Yields] at h
    obtain ⟨-, he, rfl⟩ := h
    exact ⟨ends (ends_of_consumeSemicolon he), _, _, rfl⟩

theorem checkParameters {h : FunctionHeader} {parameters : List (Parameter Expr Pat)}
    (hc : checkParameters h parameters c s = (.ok (), s')) : w.Leads s [] s' := by
  unfold Parse.checkParameters at hc
  replace hc : Yields _ c s _ := hc
  split at hc
  · simp [Yields] at hc
  · simp only [Yields, state_bind, ite_ok, fail_ok, and_false, false_or, pure_ok] at hc
    obtain ⟨-, -, rfl⟩ := hc
    exact refl _

theorem consumeArrow (h : consumeArrow c s = (.ok (), s')) : w.Leads s [] s' := by
  simp only [Parse.consumeArrow, state_bind, ite_ok, unexpected_ok, fail_ok, and_false, false_or,
    next_run, Prod.mk.injEq, true_and] at h
  obtain ⟨-, -, rfl⟩ := h
  exact next s

end Walk

end EcmaFront
